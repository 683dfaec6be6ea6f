/-
The representation invariant of an open log, over any calls and any failures.

A run starts with whatever directory a `wal_open` succeeded on.  Every call comes
with the outcomes of its system calls, so each of its exits is taken by some run.
-/

import Msgsrvd.Wal.Holds
import Msgsrvd.Wal.Runs

namespace Msgsrvd

open Bytestring

/-! ### Runs of an open log -/

structure OpenLog where
  disk : Disk
  wal : Wal

inductive LogCall where
  | append (r : WalRec) (payload : Bytes) (scratchLen : Nat)
  | appendAt (r : WalRec) (payload : Bytes) (scratchLen : Nat)
  | sync
  | retain (keepFrom : Nat)

def OpenLog.os (log : OpenLog) (script : List Outcome) : Os := ⟨log.disk, script, []⟩

def OpenLog.after (log : OpenLog) (script : List Outcome) : LogCall → OpenLog
  | .append r payload scratchLen =>
      match walAppend (log.os script) log.wal r payload scratchLen with
      | (_, w, os) => ⟨os.disk, w⟩
  | .appendAt r payload scratchLen =>
      match walAppendAt (log.os script) log.wal r payload scratchLen with
      | (_, w, os) => ⟨os.disk, w⟩
  | .sync =>
      match walSync (log.os script) log.wal with
      | (_, w, os) => ⟨os.disk, w⟩
  | .retain keepFrom =>
      match walRetain (log.os script) log.wal keepFrom with
      | (_, _, w, os) => ⟨os.disk, w⟩

/-- The log as a successful open left it. -/
def OpenLog.opened (log : OpenLog) : Prop :=
  ∃ os listing capacity scratchLen info recs os',
    walOpen os listing capacity scratchLen = (.ok (info, log.wal, recs), os') ∧
      log.disk = os'.disk

/-- A payload is as long as its record says. -/
def LogCall.legal : LogCall → Prop
  | .append r payload _ | .appendAt r payload _ => (i32 r.len).toNat ≤ payload.length
  | _ => True

/-- Every call but retention. -/
def LogCall.adds : LogCall → Prop
  | .retain _ => False
  | _ => True

def OpenLog.admits (log : OpenLog) (event : LogCall × List Outcome) : Prop :=
  event.1.legal ∧ walNextSeq log.wal < 2 ^ 64 - 1

/-- The logs any calls leave, with any of their system calls failing. -/
def OpenLog.Reached : OpenLog → Prop :=
  Runs.Reach OpenLog.opened (fun log event log' => log' = log.after event.2 event.1)
    OpenLog.admits

/-! ### The invariant -/

/-- The file of a base begins with exactly the records up to the next sequence,
`size` bytes of them. -/
def Exactly (disk : Disk) (base next size : Nat) : Prop :=
  ∃ recs, IsRecs base recs ∧ base + recs.length = next ∧
    (disk.file base).vol.take size = recs.flatten ∧ recs.flatten.length = size

structure Represents (disk : Disk) (w : Wal) : Prop where
  ascending : w.segBase.Pairwise (· < ·)
  ends : w.segBase.getLast? = some w.active.baseSeq
  sealed' : ∀ (index : Nat) (base next : Nat), w.segBase[index]? = some base →
    w.segBase[index + 1]? = some next → ∃ size ≤ w.segCapacity, Exactly disk base next size
  active : Exactly disk w.active.baseSeq w.active.nextSeq w.active.writeOff
  synced : w.active.syncedOff ≤ w.active.writeOff
  inside : w.active.writeOff ≤ w.active.capacity
  settled : w.active.syncedOff = w.active.writeOff ↔
    w.active.durableSeq = w.active.nextSeq - 1

theorem Stored.exactly {capacity : Nat} {disk : Disk} {v : SegView}
    (stored : Stored capacity (disk.file v.base).vol v) : Exactly disk v.base v.next v.size := by
  obtain ⟨are, _fits, tail, shape⟩ := stored
  refine ⟨v.recs, are, rfl, ?_, rfl⟩
  rw [shape]
  exact List.take_left' rfl

/-- Neighbouring segments meet. -/
theorem Joined.meets {seq : Nat} {views : List SegView} (joined : Joined seq views) {index : Nat}
    {v next : SegView} (found : views[index]? = some v)
    (follows : views[index + 1]? = some next) : next.base = v.next := by
  induction views generalizing seq index with
  | nil => cases found
  | cons head rest ih =>
      cases index with
      | zero =>
          cases found
          cases rest with
          | nil => cases follows
          | cons second others =>
              cases follows
              exact joined.2.1
      | succ index => exact ih joined.2 found follows

theorem Holds.represents {disk : Disk} {w : Wal} {front : List SegView} {last : SegView}
    (holds : Holds disk w front last) : Represents disk w := by
  have sound := holds.sound
  have below := sound.durable
  obtain ⟨early, table⟩ := sound.last
  obtain ⟨first, _positive, joined⟩ := holds.joined
  have stored := holds.last_stored
  refine ⟨sound.sorted, ?_, ?_, ?_, sound.synced, ?_, ?_⟩
  · rw [table]
    exact List.getLast?_concat
  · intro index base next found follows
    rw [holds.table, List.getElem?_map, Option.map_eq_some_iff] at found follows
    obtain ⟨v, at_index, same⟩ := found
    obtain ⟨v', at_next, same'⟩ := follows
    have stored := holds.stored v (List.mem_of_getElem? at_index)
    have meets := joined.meets at_index at_next
    subst same same'
    rw [meets]
    exact ⟨v.size, stored.2.1, stored.exactly⟩
  · rw [holds.baseSeq, holds.nextSeq, holds.writeOff]
    exact stored.exactly
  · rw [holds.writeOff, sound.capacity]
    exact stored.2.1
  · constructor
    · intro same
      have settled := sound.flushed same
      omega
    · intro same
      exact holds.unflushed (by omega)

/-- Every call keeps what the files hold, wherever it fails, and only retention drops
records. -/
theorem OpenLog.after_holds {log : OpenLog} {front : List SegView} {last : SegView}
    (holds : Holds log.disk log.wal front last) {call : LogCall} {script : List Outcome}
    (admitted : log.admits (call, script)) :
    ∃ front' last', Holds (log.after script call).disk (log.after script call).wal front' last' ∧
      (call.adds → Keeps (front ++ [last]) (front' ++ [last'])) := by
  obtain ⟨legal, low⟩ := admitted
  have low : log.wal.active.nextSeq < 2 ^ 64 := Nat.lt_of_lt_of_le low (Nat.sub_le _ _)
  have holds : Holds (log.os script).disk log.wal front last := holds
  cases call with
  | append r payload scratchLen =>
      cases appends : walAppend (log.os script) log.wal r payload scratchLen with
      | mk res rest =>
          simp only [OpenLog.after, appends]
          obtain ⟨front', last', holds', kept⟩ := walAppend_holds holds legal low appends
          exact ⟨front', last', holds', fun _ => kept⟩
  | appendAt r payload scratchLen =>
      cases appends : walAppendAt (log.os script) log.wal r payload scratchLen with
      | mk res rest =>
          simp only [OpenLog.after, appends]
          obtain ⟨front', last', holds', kept⟩ := walAppendAt_holds holds legal low appends
          exact ⟨front', last', holds', fun _ => kept⟩
  | sync =>
      cases flushes : walSync (log.os script) log.wal with
      | mk res rest =>
          simp only [OpenLog.after, flushes]
          exact ⟨front, last, walSync_holds holds flushes, fun _ => .refl _⟩
  | retain keepFrom =>
      cases retains : walRetain (log.os script) log.wal keepFrom with
      | mk res rest =>
          obtain ⟨removed, w', os'⟩ := rest
          obtain ⟨front', holds'⟩ := walRetain_holds holds retains
          simp only [OpenLog.after, retains]
          exact ⟨front', last, holds', fun adds => absurd adds id⟩

def OpenLog.Held (log : OpenLog) : Prop := ∃ front last, Holds log.disk log.wal front last

end Msgsrvd

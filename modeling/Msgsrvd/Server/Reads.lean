/-
The range a read of one key goes to the log with.

The whole of what a read could answer is the key's records between the log's first
sequence and the durable one.  The key index narrows the range at both ends.
-/

import Msgsrvd.Wal.Ranges
import Msgsrvd.Server.Run

namespace Msgsrvd

open Bytestring

/-- The record is one of this key. -/
def ofKey (key : Nat) (bytes : Bytes) : Bool :=
  (walRecDecode bytes).any (fun r => r.partitionKey == key)

/-- The log's records of a key from one sequence to another. -/
def OpenLog.keyRecords (log : OpenLog) (key fromSeq untilSeq : Nat) : List (Nat × Bytes) :=
  (walRecords log.disk log.wal).filter
    (fun p => ofKey key p.2 && decide (fromSeq ≤ p.1 ∧ p.1 ≤ untilSeq))

/-- Where a read of this key begins and ends; `none` when it is answered without the log. -/
def readBounds (w : Wal) (key : Nat) : Option (Nat × Nat) :=
  match walIndexRange w.index key (walFirstSeq w) with
  | some (keyFrom, keyLast) =>
      some (keyFrom, if keyLast < walDurableSeq w then keyLast else walDurableSeq w)
  | none => if walIndexComplete w.index then none else some (walFirstSeq w, walDurableSeq w)

/-- A read of one key that is neither refused nor malformed. -/
structure Loop.Reads (l : Loop) (slot : Nat) (h : MsgHeader) (payload : Bytes) (minSeq : Nat) :
    Prop where
  decoded : msgDecodeRead payload = some minSeq
  free : ¬ ((l.conns slot).sub.active ∨ (l.conns slot).sub.waiting)
  oneKey : hasFlag h.flags MSG_FLAG_ALL_KEYS = false

/-- The read as it is asked, before its range is known. -/
def Loop.readAsked (l : Loop) (slot : Nat) (h : MsgHeader) (minSeq : Nat) : Loop :=
  (l.note (.asked slot MSG_OP_READ minSeq (walDurableSeq l.wal)
    (readBounds l.wal h.partitionKey).isSome)).setSub slot
      { (l.conns slot).sub with
        key := h.partitionKey
        allKeys := false
        minSeq := minSeq
        once := true
        untilSeq := walDurableSeq l.wal }

/-- What becomes of a read once its range is known. -/
def readWithin (l : Loop) (slot : Nat) (h : MsgHeader) (minSeq : Nat) : Option (Nat × Nat) → Loop
  | some (fromSeq, untilSeq) => readFrom l slot h minSeq fromSeq untilSeq
  | none =>
      subStart (l.setSub slot
        { (l.conns slot).sub with
          untilSeq := 0, cursor := { (l.conns slot).sub.cursor with nextSeq := 1 } }) slot 0

theorem Loop.setSub_wal (l : Loop) (slot : Nat) (sub : LoopSub) :
    (l.setSub slot sub).wal = l.wal := rfl

theorem Loop.note_wal (l : Loop) (note : Note) : (l.note note).wal = l.wal := rfl

/-- The range is the one `handleRead` computes. -/
theorem handleRead_within {l : Loop} {slot : Nat} {h : MsgHeader} {payload : Bytes} {minSeq : Nat}
    (reads : l.Reads slot h payload minSeq) :
    handleRead l slot h payload =
      readWithin (l.readAsked slot h minSeq) slot h minSeq (readBounds l.wal h.partitionKey) := by
  obtain ⟨decoded, free, oneKey⟩ := reads
  unfold handleRead
  rw [decoded]
  simp only
  rw [if_neg free, oneKey]
  simp only [Bool.false_or, Bool.false_eq_true, if_false, Loop.setSub_wal, Loop.note_wal]
  unfold Loop.readAsked readBounds
  cases range : walIndexRange l.wal.index h.partitionKey (walFirstSeq l.wal) with
  | some bounds =>
      obtain ⟨keyFrom, keyLast⟩ := bounds
      simp only [Option.isSome_some, Bool.true_or]
      rfl
  | none =>
      cases complete : walIndexComplete l.wal.index with
      | true =>
          simp only [if_true, Option.isSome_none, Bool.not_true, Bool.or_false]
          rfl
      | false =>
          simp only [Bool.false_eq_true, if_false, Option.isSome_none, Option.isSome_some,
            Bool.not_false, Bool.or_true]
          rfl

/-! ### The range holds what the log holds -/

variable {log : OpenLog} {front : List SegView} {last : SegView}

/-- A record of the key lies in the range if it is durable. -/
theorem Ranged.bounds (ranged : Ranged log.disk log.wal front last) {key fromSeq untilSeq : Nat}
    (bounds : readBounds log.wal key = some (fromSeq, untilSeq)) {p : Nat × Bytes}
    (present : p ∈ walRecords log.disk log.wal) (is : ofKey key p.2 = true) :
    fromSeq ≤ p.1 ∧ p.1 ≤ untilSeq ↔
      walFirstSeq log.wal ≤ p.1 ∧ p.1 ≤ walDurableSeq log.wal := by
  obtain ⟨holds, knows⟩ := ranged
  rw [holds.records] at present
  obtain ⟨joined, _ends⟩ := holds.ends
  have first := (joined.within present).1
  unfold ofKey at is
  rw [Option.any_eq_true] at is
  obtain ⟨r, decoded, same⟩ := is
  have same : r.partitionKey = key := eq_of_beq same
  have sees := knows.sees p.1 p.2 present r decoded
  have reaches := knows.reaches p.1 p.2 present r decoded
  unfold readBounds walIndexRange at bounds
  rw [same] at sees reaches
  cases found : log.wal.index.keys.find? (fun k => k.key = key) with
  | some k =>
      rw [found] at bounds
      simp only [Option.some.injEq, Prod.mk.injEq] at bounds
      obtain ⟨fromIs, untilIs⟩ := bounds
      have upper := reaches.1 k found
      have lower : k.first ≤ p.1 := by
        rcases sees with ⟨k', found', low⟩ | ⟨absent, _full⟩
        · rw [found] at found'
          cases found'
          exact low
        · rw [found] at absent
          cases absent
      rw [← fromIs, ← untilIs]
      constructor
      · intro inside
        split at inside <;> split at inside <;> omega
      · intro durable
        split <;> split <;> omega
  | none =>
      rw [found] at bounds
      simp only at bounds
      split at bounds
      · cases bounds
      · cases bounds
        exact Iff.rfl

/-- A key the index answers for without the log has no record in it. -/
theorem Ranged.absent (ranged : Ranged log.disk log.wal front last) {key : Nat}
    (bounds : readBounds log.wal key = none) {p : Nat × Bytes}
    (present : p ∈ walRecords log.disk log.wal) : ofKey key p.2 = false := by
  obtain ⟨holds, knows⟩ := ranged
  rw [holds.records] at present
  cases is : ofKey key p.2 with
  | false => rfl
  | true =>
      unfold ofKey at is
      rw [Option.any_eq_true] at is
      obtain ⟨r, decoded, same⟩ := is
      have same : r.partitionKey = key := eq_of_beq same
      have reaches := knows.reaches p.1 p.2 present r decoded
      rw [same] at reaches
      unfold readBounds walIndexRange at bounds
      cases found : log.wal.index.keys.find? (fun k => k.key = key) with
      | some k =>
          rw [found] at bounds
          cases bounds
      | none =>
          rw [found] at bounds
          simp only at bounds
          have some' := reaches.2 found
          split at bounds
          · rename_i complete
            exact absurd (eq_of_beq complete) some'
          · cases bounds

/-- **A read of one key answers with what the whole log would.**  The range `handleRead`
computes with the index holds the same records of the key as everything durable, and where
it answers without the log the log has no record of the key, flushed or not. -/
theorem indexed_read_exact (log : OpenLog) (reached : log.Keyed) (key : Nat) :
    (∀ fromSeq untilSeq, readBounds log.wal key = some (fromSeq, untilSeq) →
        log.keyRecords key fromSeq untilSeq =
          log.keyRecords key (walFirstSeq log.wal) (walDurableSeq log.wal)) ∧
      (readBounds log.wal key = none →
        ∀ p ∈ walRecords log.disk log.wal, ofKey key p.2 = false) ∧
      ∀ (l : Loop) (slot : Nat) (h : MsgHeader) (payload : Bytes) (minSeq : Nat),
        l.wal = log.wal → h.partitionKey = key → l.Reads slot h payload minSeq →
          handleRead l slot h payload =
            readWithin (l.readAsked slot h minSeq) slot h minSeq (readBounds log.wal key) := by
  obtain ⟨front, last, ranged⟩ := reached.ranged
  refine ⟨?_, ?_, ?_⟩
  · intro fromSeq untilSeq bounds
    unfold OpenLog.keyRecords
    apply List.filter_congr
    intro p present
    cases is : ofKey key p.2 with
    | false => rfl
    | true =>
        rw [Bool.true_and, Bool.true_and]
        exact decide_eq_decide.mpr (ranged.bounds bounds present is)
  · intro bounds p present
    exact ranged.absent bounds present
  · intro l slot h payload minSeq same asked reads
    rw [handleRead_within reads, same, asked]

/-- A new log, and the append of a small record of this key. -/
def newLog : OpenLog :=
  { disk := (walOpen emptyNode.disk.os [] 176 WAL_REC_MAX_SIZE).2.disk
    wal := openedWal 176 [] ⟨1, []⟩ }

def keyAppend (key : Nat) : LogCall :=
  .append { plainRec 8 with partitionKey := key } (List.replicate 8 7) WAL_REC_MAX_SIZE

/-- A flushed record of key 7, then one of key 9 that is not flushed. -/
def twoKeys : OpenLog := ((newLog.after [] (keyAppend 7)).after [] .sync).after [] (keyAppend 9)

theorem twoKeys_keyed : twoKeys.Keyed := by
  obtain ⟨report, opens⟩ := @walOpen_empty WAL_REC_MAX_SIZE 176 (Nat.le_refl _) (by decide)
    emptyNode.disk.os rfl rfl
  have given (key : Nat) : (keyAppend key).legal :=
    show (i32 8).toNat ≤ (List.replicate 8 (7 : UInt8)).length by decide
  have start : newLog.Keyed :=
    .start ⟨_, _, _, _, _, _, _, opens, congrArg (fun done => done.2.disk) opens⟩
  have one : (newLog.after [] (keyAppend 7)).Keyed :=
    start.next (keyAppend 7, []) ⟨⟨given 7, by decide +kernel⟩, show 7 < 2 ^ 64 by decide⟩ rfl
  have two : ((newLog.after [] (keyAppend 7)).after [] .sync).Keyed :=
    one.next (.sync, []) ⟨⟨trivial, by decide +kernel⟩, trivial⟩ rfl
  exact two.next (keyAppend 9, []) ⟨⟨given 9, by decide +kernel⟩, show 9 < 2 ^ 64 by decide⟩ rfl

/-- A read of key 9 finds nothing durable, one of key 5 does not look. -/
theorem indexed_read_exact_twoKeys :
    twoKeys.keyRecords 9 2 1 = twoKeys.keyRecords 9 1 1 ∧
      (∀ p ∈ walRecords twoKeys.disk twoKeys.wal, ofKey 5 p.2 = false) ∧
      ∃ (l : Loop) (h : MsgHeader),
        handleRead l 0 h (le 8 0) = readWithin (l.readAsked 0 h 0) 0 h 0 (some (2, 1)) := by
  have bounds : readBounds twoKeys.wal 9 = some (2, 1) := by decide +kernel
  have asked := indexed_read_exact twoKeys twoKeys_keyed 9
  rw [bounds] at asked
  exact ⟨asked.1 2 1 rfl, (indexed_read_exact twoKeys twoKeys_keyed 5).2.1 (by decide +kernel),
    { leaderAlone.fresh 176 with wal := twoKeys.wal }, msgHeaderNew MSG_OP_READ 0 0 8 9 1,
    asked.2.2 _ 0 _ (le 8 0) 0 rfl rfl ⟨by decide +kernel, by decide +kernel, by decide +kernel⟩⟩

end Msgsrvd

/-
Runs of one node's log: calls, kills and power losses, in any order.

A kill ends the process between two calls.  A power loss comes between two calls or
between two system calls of one.  No call fails otherwise.
-/

import Msgsrvd.Lib.Runs
import Msgsrvd.Wal.Crash

namespace Msgsrvd

open Bytestring

/-! ### What a log holds, read from its files -/

/-- Cut this many records off the front, by the lengths in their headers. -/
def takeRecs : Nat → Bytes → List Bytes
  | 0, _ => []
  | count + 1, bytes =>
      match walRecDecode bytes with
      | none => []
      | some r =>
          bytes.take (walRecSize (i32 r.len)) ::
            takeRecs count (bytes.drop (walRecSize (i32 r.len)))

def numbered : Nat → List Bytes → List (Nat × Bytes)
  | _, [] => []
  | seq, bytes :: rest => (seq, bytes) :: numbered (seq + 1) rest

/-- Each segment's records number up to the next base, the last one's up to `next`. -/
def walContents (disk : Disk) (next : Nat) : List Nat → List (Nat × Bytes)
  | [] => []
  | [base] => numbered base (takeRecs (next - base) (disk.file base).vol)
  | base :: after :: rest =>
      numbered base (takeRecs (after - base) (disk.file base).vol) ++
        walContents disk next (after :: rest)

def walRecords (disk : Disk) (w : Wal) : List (Nat × Bytes) :=
  walContents disk (walNextSeq w) w.segBase

/-! ### Nodes and their steps -/

structure Node where
  disk : Disk
  /-- `none` while no process has the log open -/
  wal : Option Wal
  /-- segments with bytes not flushed when the log was opened, nor since -/
  owed : List Nat
  /-- records that were at or below the durable sequence once, less those retired -/
  durable : List (Nat × Bytes)

inductive WalCall where
  | open' (listing : List Nat) (scratchLen : Nat)
  | append (r : WalRec) (payload : Bytes) (scratchLen : Nat)
  | sync
  | retain (keepFrom : Nat)
  | close

inductive WalEvent where
  | call (call : WalCall)
  | kill
  | powerLoss (during : Option WalCall) (left : Disk)

def Disk.os (disk : Disk) : Os := ⟨disk, [], []⟩

def Node.perform (capacity : Nat) (node : Node) : WalCall → Option Wal × Os
  | .open' listing scratchLen =>
      match walOpen node.disk.os listing capacity scratchLen with
      | (.ok (_, w, _), os) => (some w, os)
      | (.error _, os) => (none, os)
  | .append r payload scratchLen =>
      match node.wal with
      | none => (none, node.disk.os)
      | some w =>
          match walAppend node.disk.os w r payload scratchLen with
          | (_, w, os) => (some w, os)
  | .sync =>
      match node.wal with
      | none => (none, node.disk.os)
      | some w =>
          match walSync node.disk.os w with
          | (_, w, os) => (some w, os)
  | .retain keepFrom =>
      match node.wal with
      | none => (none, node.disk.os)
      | some w =>
          match walRetain node.disk.os w keepFrom with
          | (_, _, w, os) => (some w, os)
  | .close =>
      match node.wal with
      | none => (none, node.disk.os)
      | some w =>
          match walClose node.disk.os w with
          | (_, _, os) => (none, os)

/-- The debt after the active segment was flushed, if it was. -/
def owedSynced (w : Wal) (owed : List Nat) : List Nat :=
  if w.active.syncedOff = w.active.writeOff then owed
  else owed.filter (· != w.active.baseSeq)

/-- The call goes through a sync of the active segment. -/
def Wal.syncs (w : Wal) : WalCall → Bool
  | .sync => true
  | .append r _ _ => walRollsOver w r
  | _ => false

def Node.owedAfter (node : Node) : WalCall → List Nat
  | .open' _ _ => node.disk.dir.filter (fun base =>
      (node.disk.file base).vol != (node.disk.file base).stab)
  | call =>
      match node.wal with
      | none => node.owed
      | some w => if w.syncs call then owedSynced w node.owed else node.owed

/-- Retention deletes what lies below the first segment it keeps. -/
def Node.unretired (node : Node) : WalCall → List (Nat × Bytes)
  | .retain keepFrom =>
      match node.wal with
      | none => node.durable
      | some w =>
          node.durable.filter (fun p =>
            (w.segBase.drop (walRetainDrop keepFrom w.segBase)).headD 0 ≤ p.1)
  | _ => node.durable

def durableRecords (disk : Disk) : Option Wal → List (Nat × Bytes)
  | none => []
  | some w => (walRecords disk w).filter (fun p => p.1 ≤ walDurableSeq w)

def Node.after (capacity : Nat) (node : Node) (call : WalCall) : Node :=
  { disk := (node.perform capacity call).2.disk
    wal := (node.perform capacity call).1
    owed := node.owedAfter call
    durable := node.unretired call ++
      durableRecords (node.perform capacity call).2.disk (node.perform capacity call).1 }

/-- The disks a power loss can interrupt. -/
def Node.stages (capacity : Nat) (node : Node) : Option WalCall → List Disk
  | none => [node.disk]
  | some call => node.disk :: (node.perform capacity call).2.seen

/-- What a caller has to keep to: the log is opened once, a buffer holds the largest
record, a payload is as long as its record says. -/
def Node.legal (node : Node) : WalCall → Prop
  | .open' listing scratchLen =>
      node.wal = none ∧ listing.Perm node.disk.dir ∧ WAL_REC_MAX_SIZE ≤ scratchLen
  | .append r payload _ => node.wal ≠ none ∧ (i32 r.len).toNat ≤ payload.length
  | _ => node.wal ≠ none

inductive WalStep (capacity : Nat) : Node → WalEvent → Node → Prop where
  | call {node : Node} {call : WalCall} (legal : node.legal call) :
      WalStep capacity node (.call call) (node.after capacity call)
  | kill {node : Node} : WalStep capacity node .kill { node with wal := none }
  | idleLoss {node : Node} {left : Disk} (crashed : Crashed node.disk left) :
      WalStep capacity node (.powerLoss none left)
        { disk := left, wal := none, owed := [], durable := node.durable }
  | callLoss {node : Node} {call : WalCall} {stage left : Disk} (legal : node.legal call)
      (interrupted : stage ∈ node.stages capacity (some call)) (crashed : Crashed stage left) :
      WalStep capacity node (.powerLoss (some call) left)
        { disk := left, wal := none, owed := [], durable := node.unretired call }

/-- An empty directory. -/
def Node.fresh (node : Node) : Prop :=
  node.wal = none ∧ node.disk.dir = [] ∧ node.disk.dirOps = [] ∧ node.owed = [] ∧
    node.durable = []

/-- The nodes a run of guarded steps reaches from an empty directory. -/
def Reached (capacity : Nat) (guard : Node → WalEvent → Prop) : Node → Prop :=
  Runs.Reach Node.fresh (WalStep capacity) guard

/-- The bytes past the append point read as the end of the segment. -/
def tailClean (disk : Disk) (w : Wal) : Bool :=
  match walRecDecode (((disk.file w.active.baseSeq).vol.take w.segCapacity).drop
      w.active.writeOff) with
  | none => true
  | some r => walRecIsEnd r

/-! ### Reading records back -/

theorem takeRecs_records {base : Nat} {recs : List Bytes} (are : IsRecs base recs)
    (tail : Bytes) : takeRecs recs.length (recs.flatten ++ tail) = recs := by
  induction recs generalizing base with
  | nil => rfl
  | cons bytes rest ih =>
      have header := are.1.header_le
      have later := ih are.2
      obtain ⟨r, decoded, _seq, _low, size, _verified⟩ := are.1
      rw [List.length_cons, List.flatten_cons, List.append_assoc]
      unfold takeRecs
      rw [walRecDecode_append _ _ header, decoded]
      simp only [size]
      rw [List.take_left' rfl, List.drop_left' rfl, later]

theorem mem_numbered (base : Nat) (recs : List Bytes) (p : Nat × Bytes) :
    p ∈ numbered base recs ↔ ∃ index, p.1 = base + index ∧ recs[index]? = some p.2 := by
  induction recs generalizing base with
  | nil =>
      simp only [numbered, List.not_mem_nil, List.getElem?_nil, false_iff, not_exists, not_and]
      intro index _ impossible
      cases impossible
  | cons bytes rest ih =>
      unfold numbered
      rw [List.mem_cons, ih]
      constructor
      · rintro (same | ⟨index, seq, found⟩)
        · rw [same]
          exact ⟨0, rfl, rfl⟩
        · exact ⟨index + 1, by omega, found⟩
      · rintro ⟨index, seq, found⟩
        cases index with
        | zero =>
            left
            cases p
            cases found
            rw [Nat.add_zero] at seq
            exact Prod.ext seq rfl
        | succ index => exact Or.inr ⟨index, by omega, found⟩

theorem contains_cons (v : SegView) (rest : List SegView) (p : Nat × Bytes) :
    Contains (v :: rest) p.1 p.2 ↔ p ∈ numbered v.base v.recs ∨ Contains rest p.1 p.2 := by
  rw [mem_numbered]
  constructor
  · rintro ⟨w, present, index, seq, found⟩
    rcases List.mem_cons.mp present with same | inRest
    · rw [same] at seq found
      exact Or.inl ⟨index, seq, found⟩
    · exact Or.inr ⟨w, inRest, index, seq, found⟩
  · rintro (⟨index, seq, found⟩ | ⟨w, inRest, index, seq, found⟩)
    · exact ⟨v, List.mem_cons_self .., index, seq, found⟩
    · exact ⟨w, List.mem_cons_of_mem _ inRest, index, seq, found⟩

theorem walContents_views {capacity : Nat} {disk : Disk} {first : Nat} {front : List SegView}
    {last : SegView} (joined : Joined first (front ++ [last]))
    (stored : ∀ v ∈ front ++ [last], Stored capacity (disk.file v.base).vol v) (p : Nat × Bytes) :
    p ∈ walContents disk last.next ((front ++ [last]).map SegView.base) ↔
      Contains (front ++ [last]) p.1 p.2 := by
  have taken (v : SegView) (at_v : Stored capacity (disk.file v.base).vol v) :
      takeRecs (v.next - v.base) (disk.file v.base).vol = v.recs := by
    obtain ⟨are, _fits, tail, shape⟩ := at_v
    have count : v.next - v.base = v.recs.length := by
      unfold SegView.next
      omega
    rw [count, shape, takeRecs_records are]
  induction front generalizing first with
  | nil =>
      rw [List.nil_append, List.map_cons, List.map_nil, contains_cons]
      unfold walContents
      rw [taken last (stored last (List.mem_cons_self ..))]
      constructor
      · exact Or.inl
      · rintro (found | ⟨_, none, _⟩)
        · exact found
        · cases none
  | cons head rest ih =>
      obtain ⟨_base, later⟩ := joined
      have next : ∃ others, (rest ++ [last]).map SegView.base = head.next :: others := by
        cases rest with
        | nil => exact ⟨_, by rw [← later.1]; rfl⟩
        | cons w more => exact ⟨_, by rw [← later.1]; rfl⟩
      obtain ⟨others, shape⟩ := next
      have tail := ih later (fun v inRest => stored v (List.mem_cons_of_mem _ inRest))
      rw [shape] at tail
      rw [List.cons_append, List.map_cons, shape, contains_cons]
      unfold walContents
      rw [List.mem_append, taken head (stored head (List.mem_cons_self ..))]
      exact or_congr Iff.rfl tail

/-- **The records read from the files are the records of the segments.** -/
theorem LogAt.records {capacity : Nat} {disk : Disk} {w : Wal} {front : List SegView}
    {last : SegView} (log : LogAt capacity disk w front last) (p : Nat × Bytes) :
    p ∈ walRecords disk w ↔ Contains (front ++ [last]) p.1 p.2 := by
  obtain ⟨first, _positive, joined⟩ := log.joined
  unfold walRecords walNextSeq
  rw [log.table, log.nextSeq]
  exact walContents_views joined log.stored p

/-- Records are numbered below the next sequence. -/
theorem LogAt.contains_lt {capacity : Nat} {disk : Disk} {w : Wal} {front : List SegView}
    {last : SegView} (log : LogAt capacity disk w front last) {seq : Nat} {bytes : Bytes}
    (found : Contains (front ++ [last]) seq bytes) : seq < last.next := by
  obtain ⟨first, _positive, joined⟩ := log.joined
  have bound := (joined.within found).2
  rw [endOf_append] at bound
  exact bound

/-- Each record has its header among those the callback saw. -/
theorem Contains.returned {capacity : Nat} {disk : Disk} {views : List SegView}
    (stored : ∀ v ∈ views, Stored capacity (disk.file v.base).vol v) {seq : Nat} {bytes : Bytes}
    (found : Contains views seq bytes) :
    ∃ r ∈ headers (recordsOf views), walRecDecode bytes = some r ∧ r.seq = seq := by
  obtain ⟨v, present, index, at_seq, found⟩ := found
  obtain ⟨r, decoded, numbered, _⟩ := (stored v present).1.get found
  refine ⟨r, ?_, decoded, ?_⟩
  · rw [headers, List.mem_filterMap]
    exact ⟨bytes, List.mem_flatMap.mpr ⟨v, present, List.mem_of_getElem? found⟩, decoded⟩
  · rw [numbered, at_seq]

theorem LogAt.returned {capacity : Nat} {disk : Disk} {w : Wal} {front : List SegView}
    {last : SegView} (log : LogAt capacity disk w front last) {seq : Nat} {bytes : Bytes}
    (found : Contains (front ++ [last]) seq bytes) :
    ∃ r ∈ headers (recordsOf (front ++ [last])), walRecDecode bytes = some r ∧ r.seq = seq :=
  found.returned log.stored

/-- Closing a log changes nothing on the disk. -/
theorem close_performed {capacity : Nat} {node : Node} {w : Wal} {front : List SegView}
    {last : SegView} (opened : node.wal = some w)
    (log : LogAt capacity node.disk w front last) :
    (node.perform capacity .close).1 = none ∧
      (node.perform capacity .close).2.disk = node.disk ∧
      ∀ stage ∈ (node.perform capacity .close).2.seen, stage = node.disk := by
  simp only [Node.perform, opened, walClose, walSegClose, log.fd, log.opened, if_true,
    osClose_calm (show node.disk.os.script = [] from rfl)]
  refine ⟨trivial, rfl, ?_⟩
  intro stage present
  rw [osClose_calm rfl] at present
  simp only [Os.land, Disk.os, List.mem_cons, List.not_mem_nil, or_false, or_self] at present
  exact present

/-! ### A few small runs -/

/-- A record of this many payload bytes. -/
def plainRec (len : Nat) : WalRec :=
  { crc := 0, len := len, term := 0, seq := 0, session := 0, clientSeq := 0
    recordType := 0, flags := 0, pad := 0, partitionKey := 0 }

def appendOf (len : Nat) : WalCall :=
  .append (plainRec len) (List.replicate len 7) WAL_REC_MAX_SIZE

def emptyNode : Node :=
  { disk := { file := fun _ => ⟨[], []⟩, dirStab := [], dirOps := [] }
    wal := none, owed := [], durable := [] }

/-- A log of one record, not flushed. -/
def oneRecord : Node :=
  (emptyNode.after 176 (.open' [] WAL_REC_MAX_SIZE)).after 176 (appendOf 8)

theorem emptyNode_fresh : emptyNode.fresh := ⟨rfl, rfl, rfl, rfl, rfl⟩

theorem oneRecord_reached (guard : Node → WalEvent → Prop)
    (opens : guard emptyNode (.call (.open' [] WAL_REC_MAX_SIZE)))
    (appends : guard (emptyNode.after 176 (.open' [] WAL_REC_MAX_SIZE)) (.call (appendOf 8))) :
    Reached 176 guard oneRecord := by
  have first : Reached 176 guard emptyNode := .start emptyNode_fresh
  have second := first.next _ opens (.call ⟨rfl, List.Perm.nil, Nat.le_refl _⟩)
  exact second.next _ appends (.call ⟨by decide +kernel, by decide +kernel⟩)

/-- The disk of a log with one segment, with these bytes in it. -/
def diskOf (content : Bytes) : Disk :=
  { file := fun _ => ⟨content, content⟩, dirStab := [1], dirOps := [] }

end Msgsrvd

/-
What a log holds: the records of each segment, and how the open log stands to them.

A segment is seen as its base and the bytes of its records.  `LogAt` relates the
segments seen to the files and to the log in memory; it says nothing about what
lies behind the records of a file.
-/

import Msgsrvd.Wal.Scan
import Msgsrvd.Wal.Wal

namespace Msgsrvd

open Bytestring

/-! ### Segments -/

structure SegView where
  base : Nat
  recs : List Bytes

/-- The sequence after its last record. -/
def SegView.next (v : SegView) : Nat := v.base + v.recs.length

def SegView.size (v : SegView) : Nat := v.recs.flatten.length

/-- Each segment begins where the one before it ends. -/
def Joined : Nat → List SegView → Prop
  | _, [] => True
  | seq, v :: rest => v.base = seq ∧ Joined v.next rest

def endOf : Nat → List SegView → Nat
  | seq, [] => seq
  | _, v :: rest => endOf v.next rest

/-- The record of a sequence is these bytes. -/
def Contains (views : List SegView) (seq : Nat) (bytes : Bytes) : Prop :=
  ∃ v ∈ views, ∃ index, seq = v.base + index ∧ v.recs[index]? = some bytes

/-- The file begins with these records, and they fit its segment. -/
def Stored (capacity : Nat) (content : Bytes) (v : SegView) : Prop :=
  IsRecs v.base v.recs ∧ v.size ≤ capacity ∧ ∃ tail, content = v.recs.flatten ++ tail

theorem SegView.next_append (base : Nat) (recs more : List Bytes) :
    (⟨base, recs ++ more⟩ : SegView).next = (⟨base, recs⟩ : SegView).next + more.length := by
  simp only [SegView.next, List.length_append]
  omega

theorem SegView.size_append (base : Nat) (recs more : List Bytes) :
    (⟨base, recs ++ more⟩ : SegView).size =
      (⟨base, recs⟩ : SegView).size + more.flatten.length := by
  simp only [SegView.size, List.flatten_append, List.length_append]

theorem Joined.append {seq : Nat} {front back : List SegView} (left : Joined seq front)
    (right : Joined (endOf seq front) back) : Joined seq (front ++ back) := by
  induction front generalizing seq with
  | nil => exact right
  | cons v rest ih => exact ⟨left.1, ih left.2 right⟩

theorem Joined.left {seq : Nat} {front back : List SegView}
    (whole : Joined seq (front ++ back)) : Joined seq front := by
  induction front generalizing seq with
  | nil => trivial
  | cons v rest ih => exact ⟨whole.1, ih whole.2⟩

theorem Joined.right {seq : Nat} {front back : List SegView}
    (whole : Joined seq (front ++ back)) : Joined (endOf seq front) back := by
  induction front generalizing seq with
  | nil => exact whole
  | cons v rest ih => exact ih whole.2

theorem endOf_append (seq : Nat) (front back : List SegView) :
    endOf seq (front ++ back) = endOf (endOf seq front) back := by
  induction front generalizing seq with
  | nil => rfl
  | cons v rest ih => exact ih v.next

/-- Bases lie between the first sequence and the end. -/
theorem Joined.bounds {seq : Nat} {views : List SegView} (joined : Joined seq views) :
    (∀ v ∈ views, seq ≤ v.base ∧ v.next ≤ endOf seq views) ∧ seq ≤ endOf seq views := by
  induction views generalizing seq with
  | nil =>
      constructor
      · intro v present
        cases present
      · exact Nat.le_refl _
  | cons head rest ih =>
      obtain ⟨base, later⟩ := joined
      obtain ⟨inside, grows⟩ := ih later
      have step : seq ≤ head.next := by
        rw [← base]
        exact Nat.le_add_right _ _
      refine ⟨?_, Nat.le_trans step grows⟩
      intro v present
      rcases List.mem_cons.mp present with same | inRest
      · subst same
        exact ⟨Nat.le_of_eq base.symm, grows⟩
      · have bound := inside v inRest
        exact ⟨Nat.le_trans step bound.1, bound.2⟩

/-- Ascending, since no segment but the last is empty. -/
theorem Joined.sorted {first : Nat} {front : List SegView} {last : SegView}
    (joined : Joined first (front ++ [last])) (full : ∀ v ∈ front, v.recs ≠ []) :
    ((front ++ [last]).map SegView.base).Pairwise (· < ·) := by
  induction front generalizing first with
  | nil => exact List.pairwise_singleton _ _
  | cons head rest ih =>
      obtain ⟨_base, later⟩ := joined
      rw [List.cons_append, List.map_cons, List.pairwise_cons]
      refine ⟨?_, ih later (fun v inRest => full v (List.mem_cons_of_mem _ inRest))⟩
      intro base present
      obtain ⟨v, member, same⟩ := List.mem_map.mp present
      have bound := (later.bounds.1 v member).1
      have positive : 0 < head.recs.length :=
        List.length_pos_iff.mpr (full head (List.mem_cons_self ..))
      unfold SegView.next at bound
      omega

/-- Conversely, ascending bases leave no segment but the last empty. -/
theorem Joined.full {first : Nat} {front : List SegView} {last : SegView}
    (joined : Joined first (front ++ [last]))
    (sorted : ((front ++ [last]).map SegView.base).Pairwise (· < ·)) :
    ∀ v ∈ front, v.recs ≠ [] := by
  induction front generalizing first with
  | nil =>
      intro v present
      cases present
  | cons head rest ih =>
      obtain ⟨_base, later⟩ := joined
      rw [List.cons_append, List.map_cons, List.pairwise_cons] at sorted
      intro v present
      rcases List.mem_cons.mp present with same | inRest
      · intro none
        have second : ∃ w ∈ rest ++ [last], w.base = head.next := by
          cases rest with
          | nil => exact ⟨last, List.mem_cons_self .., later.1⟩
          | cons w others => exact ⟨w, List.mem_cons_self .., later.1⟩
        obtain ⟨w, member, next⟩ := second
        have less := sorted.1 w.base (List.mem_map_of_mem member)
        rw [next, SegView.next, ← same, none] at less
        exact Nat.lt_irrefl _ less
      · exact ih later sorted.2 v inRest

/-- Records lie between the first sequence and the end. -/
theorem Joined.within {first : Nat} {views : List SegView} (joined : Joined first views)
    {seq : Nat} {bytes : Bytes} (found : Contains views seq bytes) :
    first ≤ seq ∧ seq < endOf first views := by
  obtain ⟨v, present, index, at_seq, at_index⟩ := found
  have bound := joined.bounds.1 v present
  have inside : index < v.recs.length := (List.getElem?_eq_some_iff.mp at_index).1
  unfold SegView.next at bound
  omega

/-- A sequence is the record of one segment only. -/
theorem Contains.unique {seq : Nat} {views : List SegView} (joined : Joined seq views)
    {wanted : Nat} {bytes bytes' : Bytes} (left : Contains views wanted bytes)
    (right : Contains views wanted bytes') : bytes = bytes' := by
  induction views generalizing seq with
  | nil =>
      obtain ⟨v, present, _⟩ := left
      cases present
  | cons head rest ih =>
      have later := joined.2.bounds.1
      have split (bytes : Bytes) (found : Contains (head :: rest) wanted bytes) :
          (wanted < head.next ∧ head.recs[wanted - head.base]? = some bytes) ∨
            (head.next ≤ wanted ∧ Contains rest wanted bytes) := by
        obtain ⟨v, present, index, at_seq, found⟩ := found
        rcases List.mem_cons.mp present with same | inRest
        · subst same
          left
          have inside : index < v.recs.length := (List.getElem?_eq_some_iff.mp found).1
          have offset : wanted - v.base = index := by omega
          rw [offset]
          refine ⟨?_, found⟩
          unfold SegView.next
          omega
        · right
          have bound := (later v inRest).1
          exact ⟨by omega, v, inRest, index, at_seq, found⟩
      rcases split bytes left with ⟨low, found⟩ | ⟨high, found⟩
      · rcases split bytes' right with ⟨_, found'⟩ | ⟨high', _⟩
        · rw [found] at found'
          exact Option.some.inj found'
        · omega
      · rcases split bytes' right with ⟨low', _⟩ | ⟨_, found'⟩
        · omega
        · exact ih joined.2 found found'

theorem Contains.mono {views views' : List SegView} (more : ∀ v ∈ views, ∃ v' ∈ views',
      v'.base = v.base ∧ ∃ extra, v'.recs = v.recs ++ extra)
    {seq : Nat} {bytes : Bytes} (found : Contains views seq bytes) :
    Contains views' seq bytes := by
  obtain ⟨v, present, index, at_seq, found⟩ := found
  obtain ⟨v', present', base, extra, recs⟩ := more v present
  refine ⟨v', present', index, ?_, ?_⟩
  · rw [base]
    exact at_seq
  · rw [recs, List.getElem?_append_left (List.getElem?_eq_some_iff.mp found).1]
    exact found

/-- A record behind the last one leaves the others. -/
theorem Contains.push {front : List SegView} {last : SegView} (bytes : Bytes) {seq : Nat}
    {found : Bytes} (known : Contains (front ++ [last]) seq found) :
    Contains (front ++ [⟨last.base, last.recs ++ [bytes]⟩]) seq found := by
  apply known.mono
  intro v member
  rcases List.mem_append.mp member with early | atLast
  · exact ⟨v, List.mem_append_left _ early, rfl, [], (List.append_nil _).symm⟩
  · refine ⟨_, List.mem_append_right _ (List.mem_cons_self ..), ?_, [bytes], ?_⟩ <;>
      rw [List.mem_singleton.mp atLast]

theorem Contains.roll {views : List SegView} (base : Nat) {seq : Nat} {found : Bytes}
    (known : Contains views seq found) : Contains (views ++ [⟨base, []⟩]) seq found := by
  apply known.mono
  intro v member
  exact ⟨v, List.mem_append_left _ member, rfl, [], (List.append_nil _).symm⟩

/-! ### The open log -/

structure LogAt (capacity : Nat) (disk : Disk) (w : Wal) (front : List SegView)
    (last : SegView) : Prop where
  opened : w.dirOpen = true
  segCapacity : w.segCapacity = capacity
  header : WAL_REC_HEADER_SIZE ≤ capacity
  table : w.segBase = (front ++ [last]).map SegView.base
  named : ∀ base, base ∈ disk.dir ↔ base ∈ w.segBase
  distinct : disk.dir.Nodup
  joined : ∃ first, 1 ≤ first ∧ Joined first (front ++ [last])
  stored : ∀ v ∈ front ++ [last], Stored capacity (disk.file v.base).vol v
  full : ∀ v ∈ front, v.recs ≠ []
  capacity : w.active.capacity = capacity
  fd : w.active.fd = some last.base
  baseSeq : w.active.baseSeq = last.base
  nextSeq : w.active.nextSeq = last.next
  writeOff : w.active.writeOff = last.size
  /-- what was flushed ends between two records -/
  flushed : ∃ kept, kept ≤ last.recs.length ∧ w.active.durableSeq + 1 = last.base + kept ∧
    w.active.syncedOff = (last.recs.take kept).flatten.length

end Msgsrvd

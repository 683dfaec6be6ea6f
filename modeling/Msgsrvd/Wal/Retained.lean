/-
What retention leaves of a segment table and its directory, whatever the unlinks and
the flush of the directory answer.
-/

import Msgsrvd.Wal.Memory
import Msgsrvd.Wal.Reading

namespace Msgsrvd

open Bytestring

/-- A valid table: it names the files of the directory, every file holds its records, and
each segment begins where the one before it ends. -/
structure SegTable (disk : Disk) (w : Wal) (front : List SegView) (last : SegView) : Prop where
  table : w.segBase = (front ++ [last]).map SegView.base
  named : ∀ base, base ∈ disk.dir ↔ base ∈ w.segBase
  distinct : disk.dir.Nodup
  joined : ∃ first, Joined first (front ++ [last])
  stored : ∀ v ∈ front ++ [last], Stored w.segCapacity (disk.file v.base).vol v
  full : ∀ v ∈ front, v.recs ≠ []
  baseSeq : w.active.baseSeq = last.base
  nextSeq : w.active.nextSeq = last.next

/-- The table of an open log that nothing has gone wrong with is valid. -/
theorem LogAt.segTable {capacity : Nat} {disk : Disk} {w : Wal} {front : List SegView}
    {last : SegView} (log : LogAt capacity disk w front last) : SegTable disk w front last := by
  obtain ⟨first, _positive, joined⟩ := log.joined
  exact
    { table := log.table
      named := log.named
      distinct := log.distinct
      joined := ⟨first, joined⟩
      stored := log.segCapacity ▸ log.stored
      full := log.full
      baseSeq := log.baseSeq
      nextSeq := log.nextSeq }

section Table

variable {disk disk' : Disk} {w w' : Wal} {front : List SegView} {last : SegView}

theorem SegTable.sorted (valid : SegTable disk w front last) : w.segBase.Pairwise (· < ·) := by
  obtain ⟨first, joined⟩ := valid.joined
  rw [valid.table]
  exact joined.sorted valid.full

theorem SegTable.length (valid : SegTable disk w front last) :
    w.segBase.length = front.length + 1 := by
  rw [valid.table, List.length_map, List.length_append, List.length_singleton]

theorem SegTable.ends (valid : SegTable disk w front last) :
    Joined (walFirstSeq w) (front ++ [last]) ∧
      endOf (walFirstSeq w) (front ++ [last]) = walNextSeq w := by
  obtain ⟨first, joined⟩ := valid.joined
  have head : walFirstSeq w = first := by
    unfold walFirstSeq
    rw [valid.table]
    cases front with
    | nil => exact joined.1
    | cons v rest => exact joined.1
  rw [head, endOf_append]
  exact ⟨joined, valid.nextSeq.symm⟩

theorem SegTable.drop (valid : SegTable disk w front last) {count : Nat}
    (few : count ≤ front.length) (files : disk'.file = disk.file) (distinct : disk'.dir.Nodup)
    (named : ∀ base, base ∈ disk'.dir ↔ base ∈ w.segBase.drop count) :
    SegTable disk' { w with segBase := w.segBase.drop count } (front.drop count) last := by
  have rest : (front ++ [last]).drop count = front.drop count ++ [last] :=
    List.drop_append_of_le_length few
  have whole : front ++ [last] = front.take count ++ (front.drop count ++ [last]) := by
    rw [← List.append_assoc, List.take_append_drop]
  refine
    { table := ?_
      named := named
      distinct := distinct
      joined := ?_
      stored := ?_
      full := fun v present => valid.full v (List.mem_of_mem_drop present)
      baseSeq := valid.baseSeq
      nextSeq := valid.nextSeq }
  · simp only [valid.table]
    rw [← List.map_drop, rest]
  · obtain ⟨first, joined⟩ := valid.joined
    rw [whole] at joined
    exact ⟨_, joined.right⟩
  · intro v present
    rw [files]
    refine valid.stored v ?_
    rw [whole]
    exact List.mem_append_right _ present

/-- Every sequence of the log lies in the segment that the table gives for it. -/
theorem SegTable.finds (valid : SegTable disk w front last) {seq : Nat}
    (low : walFirstSeq w ≤ seq) (high : seq < walNextSeq w) :
    ∃ v ∈ front ++ [last], segIndexOf w.segBase seq = some v.base ∧
      ∃ bytes, Contains [v] seq bytes := by
  obtain ⟨joined, ends⟩ := valid.ends
  obtain ⟨before, v, after, split, at_v, below, inside⟩ := joined.locate
    (List.append_ne_nil_of_right_ne_nil _ (List.cons_ne_nil _ _)) low (by omega)
  rw [split] at joined ends
  have later := joined.right.2
  have short : seq < v.next := by
    rcases inside with inside | none
    · exact inside
    · rw [none, endOf_append] at ends
      exact Nat.lt_of_lt_of_eq high ends.symm
  refine ⟨v, ?_, ?_, ?_⟩
  · rw [split]
    exact List.mem_append_right _ (List.mem_cons_self ..)
  · rw [valid.table, split, List.map_append, List.map_cons]
    apply segIndexOf_found rfl at_v
    intro other present
    obtain ⟨u, member, base⟩ := List.mem_map.mp present
    have bound := (later.bounds.1 u member).1
    omega
  · have at_seq : seq - v.base < v.recs.length := by
      unfold SegView.next at short
      omega
    exact ⟨_, v, List.mem_cons_self .., seq - v.base, by omega,
      List.getElem?_eq_getElem at_seq⟩

end Table

/-! ### What goes -/

theorem walRetainDrop_le (keepFrom : Nat) (table : List Nat) :
    walRetainDrop keepFrom table ≤ table.length := by
  cases table with
  | nil => exact Nat.le_refl 0
  | cons base rest => exact Nat.le_of_lt (walRetainDrop_lt keepFrom (List.cons_ne_nil base rest))

/-- The segments that retention may drop end below the line. -/
theorem walRetainDrop_below {keepFrom : Nat} {views : List SegView} {first : Nat}
    (joined : Joined first views) {count : Nat}
    (few : count ≤ walRetainDrop keepFrom (views.map SegView.base)) :
    ∀ v ∈ views.take count, v.next ≤ keepFrom := by
  induction views generalizing first count with
  | nil =>
      intro v present
      rw [List.take_nil] at present
      cases present
  | cons head rest ih =>
      cases count with
      | zero =>
          intro v present
          cases present
      | succ count =>
          cases rest with
          | nil => cases few
          | cons second others =>
              obtain ⟨_base, later⟩ := joined
              simp only [List.map_cons, walRetainDrop] at few
              split at few
              · rename_i below
                intro v present
                rw [List.take_succ_cons] at present
                rcases List.mem_cons.mp present with same | inRest
                · rw [same, ← later.1]
                  exact below
                · exact ih later (Nat.le_of_succ_le_succ few) v inRest
              · cases few

theorem plain_leaves {os os' : Os} {effect : Disk → Disk} {res : Except Err Unit}
    (calls : os.plain effect = (res, os')) :
    (res = .ok () ∧ os'.disk = effect os.disk) ∨ ((∃ e, res = .error e) ∧ os'.disk = os.disk) := by
  unfold Os.plain Os.call at calls
  split at calls
  · cases calls
    exact Or.inl ⟨rfl, rfl⟩
  · cases calls
    exact Or.inl ⟨rfl, rfl⟩
  · cases calls
    exact Or.inr ⟨⟨_, rfl⟩, rfl⟩

theorem osUnlinkat_leaves {os os' : Os} {base : Nat} {res : Except Err Unit}
    (unlinks : osUnlinkat os base = (res, os')) :
    (res = .ok () ∧ os'.disk = os.disk.addDirOp (.unlink base)) ∨
      ((∃ e, res = .error e) ∧ os'.disk = os.disk) := by
  unfold osUnlinkat at unlinks
  split at unlinks
  · exact plain_leaves unlinks
  · cases unlinks
    exact Or.inr ⟨⟨_, rfl⟩, rfl⟩

/-- Some of the names have gone: all of them, or those before the one that failed. -/
theorem walRetainUnlink_some {bases : List Nat} {gone : Nat} {os os' : Os}
    {res : Except (Err × Nat) Unit} (unlinks : walRetainUnlink bases gone os = (res, os')) :
    ∃ count, count ≤ bases.length ∧ os'.disk = os.disk.unlinked (bases.take count) ∧
      (res = .ok () → count = bases.length) ∧
      ∀ e reached, res = .error (e, reached) → reached = gone + count := by
  induction bases generalizing gone os with
  | nil =>
      cases unlinks
      refine ⟨0, Nat.le_refl 0, ?_, fun _ => rfl, fun _ _ none => by cases none⟩
      simp only [Disk.unlinked, List.take_nil, List.map_nil, List.append_nil]
  | cons base rest ih =>
      unfold walRetainUnlink at unlinks
      cases removes : osUnlinkat os base with
      | mk done os1 =>
          rw [removes] at unlinks
          rcases osUnlinkat_leaves removes with ⟨rfl, removed⟩ | ⟨⟨e, rfl⟩, still⟩
          · obtain ⟨count, few, left, whole, told⟩ := ih unlinks
            refine ⟨count + 1, Nat.succ_le_succ few, ?_, ?_, ?_⟩
            · rw [left, removed, List.take_succ_cons, Disk.unlinked_cons]
            · intro done
              rw [whole done, List.length_cons]
            · intro e reached same
              rw [told e reached same]
              omega
          · cases unlinks
            refine ⟨0, Nat.zero_le _, ?_, (fun none => by cases none), ?_⟩
            · rw [still]
              simp only [Disk.unlinked, List.take_zero, List.map_nil, List.append_nil]
            · intro e' reached same
              cases same
              rfl

/-- The table lost as many entries as names went. -/
theorem walRetain_unlinked {os os' : Os} {w w' : Wal} {keepFrom removed : Nat}
    {res : Except Err Unit} (retains : walRetain os w keepFrom = (res, removed, w', os')) :
    ∃ count, count ≤ walRetainDrop keepFrom w.segBase ∧
      w' = { w with segBase := w.segBase.drop count } ∧
      os'.disk.file = os.disk.file ∧
      os'.disk.dir = (os.disk.unlinked (w.segBase.take count)).dir := by
  unfold walRetain at retains
  simp only at retains
  split at retains
  · cases retains
    refine ⟨0, Nat.zero_le _, rfl, rfl, ?_⟩
    simp only [Disk.unlinked, List.take_zero, List.map_nil, List.append_nil]
  · cases unlinks : walRetainUnlink (w.segBase.take (walRetainDrop keepFrom w.segBase)) 0 os with
    | mk done os1 =>
        obtain ⟨count, few, left, whole, told⟩ := walRetainUnlink_some unlinks
        rw [List.length_take] at few
        rw [unlinks] at retains
        rw [List.take_take] at left
        cases done with
        | error failed =>
            obtain ⟨e, gone⟩ := failed
            have reached := told e gone rfl
            rw [Nat.zero_add] at reached
            cases retains
            refine ⟨removed, by omega, rfl, ?_, ?_⟩
            · rw [left]
              rfl
            · rw [left, reached, Nat.min_eq_left (by omega)]
        | ok done =>
            have all := whole rfl
            rw [List.length_take] at all
            have enough : min count (walRetainDrop keepFrom w.segBase) =
                walRetainDrop keepFrom w.segBase := by
              have within := walRetainDrop_le keepFrom w.segBase
              omega
            rw [enough] at left
            simp only at retains
            cases flushes : osFsyncDir os1 with
            | mk done os2 =>
                rw [flushes] at retains
                have kept : os2.disk.file = os1.disk.file ∧ os2.disk.dir = os1.disk.dir := by
                  rcases plain_leaves flushes with ⟨_, after⟩ | ⟨_, after⟩
                  · rw [after]
                    exact ⟨rfl, Disk.dir_flushDir _⟩
                  · rw [after]
                    exact ⟨rfl, rfl⟩
                rw [left] at kept
                refine ⟨walRetainDrop keepFrom w.segBase, Nat.le_refl _, ?_⟩
                cases done with
                | error e =>
                    cases retains
                    exact ⟨rfl, kept⟩
                | ok done =>
                    cases retains
                    exact ⟨rfl, kept⟩

/-! ### What is left -/

/-- What retention leaves once the first `gone` segments went. -/
structure RetainedFrom (os os' : Os) (w w' : Wal) (keepFrom : Nat) (front : List SegView)
    (last : SegView) (gone : Nat) : Prop where
  suffix : w'.segBase = w.segBase.drop gone
  valid : SegTable os'.disk w' (front.drop gone) last
  below : ∀ seq bytes, Contains (front.take gone) seq bytes → seq < keepFrom
  active : w'.active = w.active ∧ w'.segBase.getLast? = some w'.active.baseSeq
  finds : ∀ seq, walFirstSeq w' ≤ seq → seq < walNextSeq w' →
    ∃ v ∈ front.drop gone ++ [last], segIndexOf w'.segBase seq = some v.base ∧
      ∃ bytes, Contains [v] seq bytes

/-- **Retention removes only what it may**, and keeps the table and the directory in
step, wherever it is stopped. -/
theorem walRetain_removes {os os' : Os} {w w' : Wal} {keepFrom removed : Nat}
    {res : Except Err Unit} {front : List SegView} {last : SegView}
    (valid : SegTable os.disk w front last)
    (retains : walRetain os w keepFrom = (res, removed, w', os')) :
    ∃ gone, RetainedFrom os os' w w' keepFrom front last gone := by
  obtain ⟨gone, few, left, files, names⟩ := walRetain_unlinked retains
  have less : gone ≤ front.length := by
    have given : w.segBase ≠ [] := by
      intro empty
      have length := valid.length
      rw [empty] at length
      cases length
    have bound := walRetainDrop_lt keepFrom given
    have length := valid.length
    omega
  obtain ⟨distinct, named⟩ := unlinked_names valid.distinct valid.named
    (valid.sorted.imp Nat.ne_of_lt) gone
  rw [← names] at distinct named
  subst left
  have valid' := valid.drop less files distinct named
  refine ⟨gone, rfl, valid', ?_, ⟨rfl, ?_⟩, fun seq low high => valid'.finds low high⟩
  · intro seq bytes found
    obtain ⟨v, present, index, at_seq, found⟩ := found
    obtain ⟨first, joined⟩ := valid.joined
    rw [valid.table] at few
    have ends := walRetainDrop_below joined few v (by
      rw [List.take_append_of_le_length less]
      exact present)
    have inside := (List.getElem?_eq_some_iff.mp found).1
    unfold SegView.next at ends
    omega
  · rw [valid'.table, List.map_append, List.map_singleton, List.getLast?_concat]
    exact congrArg some valid.baseSeq.symm

/-- A record of 8 bytes of payload. -/
def recordAt (seq : Nat) : Bytes :=
  (walRecEncode WAL_REC_MAX_SIZE { plainRec 8 with seq := seq } (List.replicate 8 7)).elim []
    Prod.fst

/-- Two segments of one record each. -/
def twoFull : List SegView := [⟨1, [recordAt 1]⟩, ⟨2, [recordAt 2]⟩]

/-- A directory of three segments, where the second call will fail. -/
def threeSegments : Os :=
  { disk := { file := fun base => if base < 3 then ⟨recordAt base, recordAt base⟩ else ⟨[], []⟩
              dirStab := [1, 2, 3]
              dirOps := [] }
    script := [.done, .fails 5 0]
    seen := [] }

theorem threeSegments_valid :
    SegTable threeSegments.disk (openedWal 64 twoFull ⟨3, []⟩) twoFull ⟨3, []⟩ := by
  have one : IsRec 1 (recordAt 1) :=
    ⟨(walRecDecode (recordAt 1)).getD (plainRec 0), by decide +kernel⟩
  have two : IsRec 2 (recordAt 2) :=
    ⟨(walRecDecode (recordAt 2)).getD (plainRec 0), by decide +kernel⟩
  have filled (base : Nat) (low : base < 3) :
      (threeSegments.disk.file base).vol = [recordAt base].flatten ++ [] := by
    unfold threeSegments
    simp only
    rw [if_pos low, List.flatten_singleton, List.append_nil]
  refine
    { table := rfl
      named := fun _ => Iff.rfl
      distinct := by decide
      joined := ⟨1, rfl, rfl, rfl, trivial⟩
      stored := ?_
      full := ?_
      baseSeq := rfl
      nextSeq := rfl }
  · intro v present
    unfold twoFull at present
    simp only [List.cons_append, List.nil_append, List.mem_cons, List.not_mem_nil, or_false]
      at present
    rcases present with rfl | rfl | rfl
    · exact ⟨⟨one, trivial⟩, by decide +kernel, [], filled 1 (by decide)⟩
    · exact ⟨⟨two, trivial⟩, by decide +kernel, [], filled 2 (by decide)⟩
    · exact ⟨trivial, Nat.zero_le _, [], rfl⟩
  · intro v present
    unfold twoFull at present
    simp only [List.mem_cons, List.not_mem_nil, or_false] at present
    rcases present with rfl | rfl
    · exact List.cons_ne_nil _ _
    · exact List.cons_ne_nil _ _

/-- The second of two unlinks fails, after the first has gone through. -/
theorem walRetain_removes_one :
    ∃ gone, RetainedFrom threeSegments
      (walRetain threeSegments (openedWal 64 twoFull ⟨3, []⟩) 3).2.2.2
      (openedWal 64 twoFull ⟨3, []⟩)
      (walRetain threeSegments (openedWal 64 twoFull ⟨3, []⟩) 3).2.2.1 3 twoFull ⟨3, []⟩ gone :=
  walRetain_removes threeSegments_valid rfl

end Msgsrvd

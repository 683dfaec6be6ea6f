/-
What a power loss leaves, and that a log is fit to be opened after one.

Each byte of a file is the flushed one or the written one, and the directory operations
that were not flushed persist up to some point of their order.
-/

import Mathlib.Data.List.GetD
import Msgsrvd.Wal.Open
import Msgsrvd.Wal.Retention

namespace Msgsrvd

open Bytestring

/-! ### Files -/

structure Mixed (file : File) (left : Bytes) : Prop where
  low : file.stab.length ≤ left.length
  high : left.length ≤ file.vol.length
  each : ∀ index < left.length,
    left.getD index 0 = file.stab.getD index 0 ∨ left.getD index 0 = file.vol.getD index 0

structure Crashed (disk disk' : Disk) : Prop where
  files : ∀ base ∈ disk'.dir, Mixed (disk.file base) (disk'.file base).vol
  flushed : ∀ base, (disk'.file base).stab = (disk'.file base).vol
  names : ∃ count, disk'.dirStab = (disk.dirOps.take count).foldl DirOp.apply disk.dirStab
  settled : disk'.dirOps = []

/-- The preallocation of the file reached the disk. -/
def Full (capacity : Nat) (file : File) : Prop :=
  capacity ≤ file.vol.length ∧ capacity ≤ file.stab.length

/-- Nothing was ever written to the file. -/
def Blank (file : File) : Prop :=
  (∀ byte ∈ file.vol, byte = 0) ∧ (∀ byte ∈ file.stab, byte = 0) ∧
    file.stab.length ≤ file.vol.length

theorem blank_getD {bytes : Bytes} (blank : ∀ byte ∈ bytes, byte = 0) (index : Nat) :
    bytes.getD index 0 = 0 := by
  rw [List.getD_eq_getElem?_getD]
  cases found : bytes[index]? with
  | none => rfl
  | some byte => exact blank byte (List.mem_of_getElem? found)

/-- The same test, byte by byte. -/
def mixes : Bytes → Bytes → Bytes → Bool
  | [], _, _ => true
  | _ :: _, _, [] => false
  | byte :: left, [], new :: vol => (byte == 0 || byte == new) && mixes left [] vol
  | byte :: left, old :: stab, new :: vol => (byte == old || byte == new) && mixes left stab vol

theorem mixes_getD {left stab vol : Bytes} (mixed : mixes left stab vol = true) :
    ∀ index < left.length,
      left.getD index 0 = stab.getD index 0 ∨ left.getD index 0 = vol.getD index 0 := by
  induction left, stab, vol using mixes.induct with
  | case1 stab vol =>
      intro index impossible
      cases impossible
  | case2 byte left stab => cases mixed
  | case3 byte left new vol ih =>
      obtain ⟨here, later⟩ := Bool.and_eq_true_iff.mp mixed
      simp only [Bool.or_eq_true, beq_iff_eq] at here
      intro index inside
      cases index with
      | zero => exact here
      | succ index => exact ih later index (Nat.lt_of_succ_lt_succ inside)
  | case4 byte left old stab new vol ih =>
      obtain ⟨here, later⟩ := Bool.and_eq_true_iff.mp mixed
      simp only [Bool.or_eq_true, beq_iff_eq] at here
      intro index inside
      cases index with
      | zero => exact here
      | succ index => exact ih later index (Nat.lt_of_succ_lt_succ inside)

theorem Mixed.of_mixes {file : File} {left : Bytes} (low : file.stab.length ≤ left.length)
    (high : left.length ≤ file.vol.length) (mixed : mixes left file.stab file.vol = true) :
    Mixed file left :=
  ⟨low, high, mixes_getD mixed⟩

theorem Mixed.of_flushed {file : File} {left : Bytes} (mixed : Mixed file left)
    (same : file.stab = file.vol) : left = file.vol := by
  have low := mixed.low
  rw [same] at low
  have length : left.length = file.vol.length := Nat.le_antisymm mixed.high low
  apply List.ext_getElem length
  intro index inside inside'
  have byte := mixed.each index inside
  rw [same, or_self, List.getD_eq_getElem _ _ inside, List.getD_eq_getElem _ _ inside'] at byte
  exact byte

theorem Mixed.front_kept {file : File} {left front : Bytes} (mixed : Mixed file left)
    (stab : ∃ tail, file.stab = front ++ tail) (vol : ∃ tail, file.vol = front ++ tail) :
    ∃ tail, left = front ++ tail := by
  obtain ⟨stabTail, stab⟩ := stab
  obtain ⟨volTail, vol⟩ := vol
  have long : front.length ≤ left.length := by
    have low := mixed.low
    rw [stab, List.length_append] at low
    omega
  refine ⟨left.drop front.length, ?_⟩
  have taken : left.take front.length = front := by
    apply List.ext_getElem (by rw [List.length_take]; omega)
    intro index inside inside'
    have byte := mixed.each index (by omega)
    rw [stab, vol, List.getD_append _ _ _ _ inside', List.getD_append _ _ _ _ inside',
      or_self, List.getD_eq_getElem _ _ (by omega), List.getD_eq_getElem _ _ inside'] at byte
    rw [List.getElem_take]
    exact byte
  conv_lhs => rw [← List.take_append_drop front.length left, taken]

theorem Mixed.blank {file : File} {left : Bytes} (mixed : Mixed file left)
    (blank : Blank file) : ∀ byte ∈ left, byte = 0 := by
  intro byte present
  obtain ⟨index, inside, found⟩ := List.mem_iff_getElem.mp present
  have origin := mixed.each index inside
  rw [blank_getD blank.1, blank_getD blank.2.1, or_self, List.getD_eq_getElem _ _ inside, found]
    at origin
  exact origin

/-! ### Scans of what is left -/

theorem ofLe_blank {bytes : Bytes} (blank : ∀ byte ∈ bytes, byte = 0) : ofLe bytes = 0 := by
  induction bytes with
  | nil => rfl
  | cons head rest ih =>
      unfold ofLe
      rw [blank head (List.mem_cons_self ..),
        ih (fun byte present => blank byte (List.mem_cons_of_mem _ present))]
      rfl

theorem scanHead_blank {room expected : Nat} {bytes : Bytes}
    (blank : ∀ byte ∈ bytes, byte = 0) : scanHead room expected bytes = .stop .clean := by
  unfold scanHead
  cases decoded : walRecDecode bytes with
  | none => rfl
  | some r =>
      have isEnd : walRecIsEnd r = true := by
        unfold walRecDecode at decoded
        split at decoded
        · cases decoded
        · cases decoded
          have zero : ofLe (slice bytes 16 8) = 0 := by
            apply ofLe_blank
            intro byte present
            exact blank byte (List.mem_of_mem_drop (List.mem_of_mem_take present))
          simp only [walRecIsEnd, zero, beq_self_eq_true]
      simp only [isEnd, if_true]

theorem Scans.blank {room expected : Nat} {bytes : Bytes} {recs : List Bytes}
    {reason : ScanEnd} (scan : Scans room expected bytes recs reason)
    (blank : ∀ byte ∈ bytes, byte = 0) : recs = [] ∧ reason = .clean := by
  have head : scanHead room expected bytes = .stop .clean := scanHead_blank blank
  cases scan with
  | stop found =>
      rw [head] at found
      cases found
      exact ⟨rfl, rfl⟩
  | record found tail =>
      rw [head] at found
      cases found

/-- A file as long as its segment cuts no record off. -/
theorem Scans.whole {room expected : Nat} {bytes : Bytes} {recs : List Bytes}
    {reason : ScanEnd} (scan : Scans room expected bytes recs reason)
    (long : room ≤ bytes.length) (size : Nat) : reason ≠ .cut size := by
  induction scan with
  | @stop room expected bytes reason head =>
      intro cut
      rw [cut] at head
      unfold scanHead at head
      split at head
      · cases head
      · simp only at head
        split at head
        · cases head
        · split at head
          · cases head
          · rename_i fits
            rw [not_or] at fits
            split at head
            · omega
            · split at head <;> cases head
  | @record room expected taken bytes recs reason head tail ih =>
      apply ih
      rw [List.length_drop]
      omega

/-- Records at the front of a file are found again, and what follows them never makes
the scan fail. -/
theorem scans_kept {capacity base : Nat} {content : Bytes} {kept : List Bytes}
    (are : IsRecs base kept) (fits : kept.flatten.length ≤ capacity)
    (front : ∃ tail, content = kept.flatten ++ tail)
    (sized : capacity ≤ content.length ∨ ∀ byte ∈ content, byte = 0) :
    ∃ extra reason, Scans capacity base (content.take capacity) (kept ++ extra) reason ∧
      ∀ size, reason ≠ .cut size := by
  obtain ⟨tail, shape⟩ := front
  have taken : content.take capacity =
      kept.flatten ++ tail.take (capacity - kept.flatten.length) := by
    rw [shape, List.take_append, List.take_of_length_le fits]
  obtain ⟨extra, reason, rest⟩ := Scans.exists (capacity - kept.flatten.length)
    (base + kept.length) (tail.take (capacity - kept.flatten.length))
  have scan := Scans.prepend are fits rest
  rw [← taken] at scan
  refine ⟨extra, reason, scan, ?_⟩
  rcases sized with long | blank
  · apply scan.whole
    rw [List.length_take]
    omega
  · have clean := (scan.blank (fun byte present => blank byte (List.mem_of_mem_take present))).2
    intro size cut
    rw [clean] at cut
    cases cut

/-! ### The directory after a power loss -/

theorem Crashed.dir_settled {disk disk' : Disk} (crashed : Crashed disk disk')
    (settled : disk.dirOps = []) : disk'.dir = disk.dir := by
  obtain ⟨count, names⟩ := crashed.names
  unfold Disk.dir
  rw [crashed.settled, settled, names, settled, List.take_nil]
  rfl

theorem Crashed.dir_unlinked {disk disk' : Disk} {bases : List Nat}
    (crashed : Crashed (disk.unlinked bases) disk') (settled : disk.dirOps = []) :
    ∃ count, count ≤ bases.length ∧ disk'.dir = (disk.unlinked (bases.take count)).dir := by
  obtain ⟨count, names⟩ := crashed.names
  refine ⟨min count bases.length, Nat.min_le_right _ _, ?_⟩
  unfold Disk.dir
  rw [crashed.settled, names]
  simp only [Disk.unlinked, settled, List.nil_append, List.foldl_nil]
  rw [← List.map_take]
  congr 2
  by_cases few : count ≤ bases.length
  · rw [Nat.min_eq_left few]
  · rw [Nat.min_eq_right (by omega), List.take_of_length_le (by omega), List.take_length]

theorem Crashed.dir_creating {disk stage disk' : Disk} {base size : Nat}
    (at_stage : stage ∈ disk.creating base size) (crashed : Crashed stage disk')
    (settled : disk.dirOps = []) : disk'.dir = disk.dir ∨ disk'.dir = disk.dir ++ [base] := by
  obtain ⟨count, names⟩ := crashed.names
  have pending (linked : stage.dirStab = disk.dirStab ∧ stage.dirOps = [.link base]) :
      disk'.dir = disk.dir ∨ disk'.dir = disk.dir ++ [base] := by
    have before : disk.dir = disk.dirStab := by
      unfold Disk.dir
      rw [settled]
      rfl
    have after : disk'.dir = disk'.dirStab := by
      unfold Disk.dir
      rw [crashed.settled]
      rfl
    rw [before, after, names, linked.1, linked.2]
    cases count with
    | zero => exact Or.inl rfl
    | succ count =>
        right
        rw [List.take_succ_cons, List.take_nil]
        rfl
  have ops : (disk.linked base).dirOps = [.link base] := by
    change disk.dirOps ++ [.link base] = [.link base]
    rw [settled]
    rfl
  simp only [Disk.creating, List.mem_cons, List.not_mem_nil, or_false] at at_stage
  rcases at_stage with done | flushed | sized | linked
  · right
    rw [crashed.dir_settled (by rw [done]; rfl), done, Disk.dir_created]
  · exact pending (by rw [flushed]; exact ⟨rfl, ops⟩)
  · exact pending (by rw [sized]; exact ⟨rfl, ops⟩)
  · exact pending (by rw [linked]; exact ⟨rfl, ops⟩)

theorem creating_other {disk stage : Disk} {base size : Nat}
    (at_stage : stage ∈ disk.creating base size) {other : Nat} (differ : other ≠ base) :
    stage.file other = disk.file other := by
  simp only [Disk.creating, List.mem_cons, List.not_mem_nil, or_false] at at_stage
  rcases at_stage with done | flushed | sized | linked
  · rw [done, Disk.file_created_other _ _ differ]
  · rw [flushed, Disk.flushFile, Disk.file_setFile_other _ _ differ, Disk.sized,
      Disk.file_setFile_other _ _ differ, Disk.linked, Disk.file_addDirOp,
      Disk.file_setFile_other _ _ differ]
  · rw [sized, Disk.sized, Disk.file_setFile_other _ _ differ, Disk.linked,
      Disk.file_addDirOp, Disk.file_setFile_other _ _ differ]
  · rw [linked, Disk.linked, Disk.file_addDirOp, Disk.file_setFile_other _ _ differ]

theorem creating_blank {disk stage : Disk} {base size : Nat}
    (at_stage : stage ∈ disk.creating base size) : Blank (stage.file base) := by
  have zero (count : Nat) : ∀ byte ∈ zeros count, byte = 0 :=
    fun byte present => List.eq_of_mem_replicate present
  have empty : ∀ byte ∈ ([] : Bytes), byte = 0 := fun _ none => absurd none List.not_mem_nil
  simp only [Disk.creating, List.mem_cons, List.not_mem_nil, or_false] at at_stage
  rcases at_stage with done | flushed | sized | linked
  · rw [done, Disk.file_created_same]
    exact ⟨zero _, zero _, Nat.le_refl _⟩
  · rw [flushed]
    simp only [Blank, Disk.flushFile, Disk.file_setFile_same, Disk.sized, Disk.linked,
      Disk.file_addDirOp, extendTo, List.nil_append]
    exact ⟨zero _, zero _, Nat.le_refl _⟩
  · rw [sized]
    simp only [Blank, Disk.file_setFile_same, Disk.sized, Disk.linked,
      Disk.file_addDirOp, extendTo, List.nil_append]
    exact ⟨zero _, empty, Nat.zero_le _⟩
  · rw [linked]
    simp only [Blank, Disk.linked, Disk.file_addDirOp, Disk.file_setFile_same]
    exact ⟨empty, empty, Nat.le_refl _⟩

/-! ### The log after a power loss -/

/-- **A power loss leaves a directory fit to be opened**, if the segments before the
last were flushed and end cleanly.  What was flushed of the last is still there. -/
theorem openable_after {capacity : Nat} {disk disk' : Disk} {front : List SegView} {base : Nat}
    {kept : List Bytes}
    (files : ∀ base ∈ disk'.dir, Mixed (disk.file base) (disk'.file base).vol)
    (named : ∀ other, other ∈ disk'.dir ↔ other ∈ front.map SegView.base ++ [base])
    (distinct : disk'.dir.Nodup) (room : front.length < WAL_MAX_SEGMENTS)
    {first : Nat} (positive : 1 ≤ first) (joined : Joined first front)
    (at_end : base = endOf first front)
    (full : ∀ v ∈ front, v.recs ≠ [])
    (clean : ∀ v ∈ front,
      Scans capacity v.base ((disk.file v.base).vol.take capacity) v.recs .clean)
    (sealed : ∀ v ∈ front, (disk.file v.base).stab = (disk.file v.base).vol)
    (are : IsRecs base kept) (fits : kept.flatten.length ≤ capacity)
    (stab : ∃ tail, (disk.file base).stab = kept.flatten ++ tail)
    (vol : ∃ tail, (disk.file base).vol = kept.flatten ++ tail)
    (sized : Full capacity (disk.file base) ∨ Blank (disk.file base)) :
    ∃ extra reason, Openable capacity disk' front ⟨base, kept ++ extra⟩ reason := by
  have mixed := files base ((named base).mpr (List.mem_append_right _ (List.mem_cons_self ..)))
  have left : capacity ≤ (disk'.file base).vol.length ∨
      ∀ byte ∈ (disk'.file base).vol, byte = 0 := by
    rcases sized with long | blank
    · exact Or.inl (Nat.le_trans long.2 mixed.low)
    · exact Or.inr (mixed.blank blank)
  obtain ⟨extra, reason, scan, whole⟩ := scans_kept are fits (mixed.front_kept stab vol) left
  refine ⟨extra, reason, ?_, distinct, room, ⟨first, positive, joined.append ⟨at_end, trivial⟩⟩,
    full, ?_, scan, whole⟩
  · intro other
    rw [List.map_append]
    exact named other
  · intro v present
    have named' := (named v.base).mpr (List.mem_append_left _ (List.mem_map_of_mem present))
    rw [(files v.base named').of_flushed (sealed v present)]
    exact clean v present

theorem created_openable {capacity : Nat} {disk' : Disk} (names : disk'.dir = [1])
    (blank : ∀ byte ∈ (disk'.file 1).vol, byte = 0) :
    Openable capacity disk' [] ⟨1, []⟩ .clean := by
  refine ⟨?_, ?_, by decide, ⟨1, Nat.le_refl _, rfl, trivial⟩, ?_, ?_, ?_, ?_⟩
  · intro base
    rw [names]
    rfl
  · rw [names]
    exact List.pairwise_singleton _ _
  · intro v none
    cases none
  · intro v none
    cases none
  · exact .stop (scanHead_blank (fun byte present => blank byte (List.mem_of_mem_take present)))
  · intro size impossible
    cases impossible

theorem sized_after {capacity : Nat} {disk disk' : Disk} (crashed : Crashed disk disk')
    {base : Nat} (named : base ∈ disk'.dir)
    (sized : Full capacity (disk.file base) ∨ Blank (disk.file base)) :
    Full capacity (disk'.file base) ∨ Blank (disk'.file base) := by
  unfold Full Blank
  rw [crashed.flushed base]
  rcases sized with long | blank
  · have longer := Nat.le_trans long.2 (crashed.files base named).low
    exact Or.inl ⟨longer, longer⟩
  · have zero := (crashed.files base named).blank blank
    exact Or.inr ⟨zero, zero, Nat.le_refl _⟩

end Msgsrvd

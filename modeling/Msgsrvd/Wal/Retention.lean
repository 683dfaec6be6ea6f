/-
Retention drops whole segments from the front, and nothing else.
-/

import Msgsrvd.Wal.Ops

namespace Msgsrvd

open Bytestring

/-- The directory with these names on their way out. -/
def Disk.unlinked (disk : Disk) (bases : List Nat) : Disk :=
  { disk with dirOps := disk.dirOps ++ bases.map .unlink }

theorem Disk.unlinked_cons (disk : Disk) (base : Nat) (rest : List Nat) :
    disk.unlinked (base :: rest) = (disk.addDirOp (.unlink base)).unlinked rest := by
  simp only [Disk.unlinked, Disk.addDirOp, List.map_cons, List.append_assoc, List.singleton_append]

theorem Disk.dir_unlinked (disk : Disk) (bases : List Nat) :
    (disk.unlinked bases).dir = bases.foldl List.erase disk.dir := by
  induction bases generalizing disk with
  | nil => simp only [Disk.unlinked, List.map_nil, List.append_nil, List.foldl_nil]
  | cons base rest ih =>
      rw [Disk.unlinked_cons, ih, Disk.dir_addDirOp, List.foldl_cons]
      rfl

theorem mem_foldl_erase {names bases : List Nat} (distinct : names.Nodup) :
    (bases.foldl List.erase names).Nodup ∧
      ∀ base, base ∈ bases.foldl List.erase names ↔ base ∈ names ∧ base ∉ bases := by
  induction bases generalizing names with
  | nil =>
      refine ⟨distinct, ?_⟩
      intro base
      simp only [List.foldl_nil, List.not_mem_nil, not_false_eq_true, and_true]
  | cons head rest ih =>
      obtain ⟨nodup, members⟩ := ih (distinct.erase head)
      refine ⟨nodup, ?_⟩
      intro base
      rw [List.foldl_cons, members, distinct.mem_erase_iff, List.mem_cons, not_or]
      constructor
      · rintro ⟨⟨differ, present⟩, absent⟩
        exact ⟨present, differ, absent⟩
      · rintro ⟨present, differ, absent⟩
        exact ⟨⟨differ, present⟩, absent⟩

/-- What unlinking leaves of the names. -/
theorem unlinked_names {disk : Disk} {table : List Nat} (distinct : disk.dir.Nodup)
    (named : ∀ base, base ∈ disk.dir ↔ base ∈ table) (apart : table.Nodup) (count : Nat) :
    (disk.unlinked (table.take count)).dir.Nodup ∧
      ∀ base, base ∈ (disk.unlinked (table.take count)).dir ↔ base ∈ table.drop count := by
  rw [Disk.dir_unlinked]
  obtain ⟨nodup, members⟩ := mem_foldl_erase distinct
  refine ⟨nodup, ?_⟩
  intro base
  rw [members, named]
  rw [← List.take_append_drop count table, List.nodup_append] at apart
  obtain ⟨_, _, disjoint⟩ := apart
  constructor
  · rintro ⟨present, kept⟩
    rw [← List.take_append_drop count table, List.mem_append] at present
    exact present.resolve_left kept
  · intro present
    exact ⟨List.mem_of_mem_drop present, fun gone => disjoint base gone base present rfl⟩

/-! ### The pass -/

theorem walRetainDrop_lt (keepFrom : Nat) {table : List Nat} (given : table ≠ []) :
    walRetainDrop keepFrom table < table.length := by
  induction table with
  | nil => exact absurd rfl given
  | cons base rest ih =>
      cases rest with
      | nil => exact Nat.zero_lt_succ _
      | cons next others =>
          unfold walRetainDrop
          split
          · exact Nat.succ_lt_succ (ih (List.cons_ne_nil _ _))
          · exact Nat.zero_lt_succ _

theorem walRetainUnlink_calm {bases : List Nat} (apart : bases.Nodup) (gone : Nat) {os : Os}
    (calm : os.script = []) (distinct : os.disk.dir.Nodup)
    (named : ∀ base ∈ bases, base ∈ os.disk.dir) :
    ∃ os', walRetainUnlink bases gone os = (.ok (), os') ∧ os'.script = [] ∧
      os'.disk = os.disk.unlinked bases ∧
      ∀ disk ∈ os'.seen, disk ∈ os.seen ∨
        ∃ count, count ≤ bases.length ∧ disk = os.disk.unlinked (bases.take count) := by
  induction bases generalizing gone os with
  | nil =>
      refine ⟨os, rfl, calm, ?_, fun disk present => Or.inl present⟩
      simp only [Disk.unlinked, List.map_nil, List.append_nil]
  | cons base rest ih =>
      obtain ⟨absent, apart'⟩ := List.nodup_cons.mp apart
      have present : base ∈ os.disk.dir := named base (List.mem_cons_self ..)
      have removed : osUnlinkat os base =
          (.ok (), os.land [] (os.disk.addDirOp (.unlink base))) := by
        unfold osUnlinkat
        rw [if_pos present, plain_calm calm]
      obtain ⟨os', ran, calm', disk', stages⟩ := ih apart' (gone + 1)
        (show (os.land [] (os.disk.addDirOp (.unlink base))).script = [] from rfl)
        (by
          change (os.disk.addDirOp (.unlink base)).dir.Nodup
          rw [Disk.dir_addDirOp]
          exact distinct.erase base)
        (by
          intro other inRest
          change other ∈ (os.disk.addDirOp (.unlink base)).dir
          rw [Disk.dir_addDirOp]
          have differ : other ≠ base := by
            intro same
            exact absent (same ▸ inRest)
          exact (distinct.mem_erase_iff).mpr ⟨differ, named other (List.mem_cons_of_mem _ inRest)⟩)
      refine ⟨os', ?_, calm', ?_, ?_⟩
      · unfold walRetainUnlink
        rw [removed]
        exact ran
      · rw [disk', Disk.unlinked_cons]
        rfl
      · intro disk member
        rcases stages disk member with early | ⟨count, inside, same⟩
        · rcases List.mem_cons.mp early with first | older
          · right
            refine ⟨1, Nat.succ_le_succ (Nat.zero_le _), ?_⟩
            rw [first, List.take_succ_cons, List.take_zero, Disk.unlinked_cons]
            simp only [Disk.unlinked, List.map_nil, List.append_nil]
          · exact Or.inl older
        · right
          refine ⟨count + 1, Nat.succ_le_succ inside, ?_⟩
          rw [same, List.take_succ_cons, Disk.unlinked_cons]
          rfl

section Log

variable {capacity : Nat} {disk : Disk} {w : Wal} {front : List SegView} {last : SegView}

theorem LogAt.table_nodup (log : LogAt capacity disk w front last) : w.segBase.Nodup := by
  obtain ⟨first, _positive, joined⟩ := log.joined
  rw [log.table]
  exact (joined.sorted log.full).imp Nat.ne_of_lt

/-- Names taken from the front of a log leave a log with fewer segments. -/
theorem LogAt.dropped (log : LogAt capacity disk w front last) {count : Nat}
    (inside : count ≤ front.length) {disk' : Disk} (files : disk'.file = disk.file)
    (distinct : disk'.dir.Nodup)
    (named : ∀ base, base ∈ disk'.dir ↔ base ∈ w.segBase.drop count) :
    LogAt capacity disk' { w with segBase := w.segBase.drop count } (front.drop count) last := by
  obtain ⟨first, positive, joined⟩ := log.joined
  have shape : front ++ [last] = front.take count ++ (front.drop count ++ [last]) := by
    rw [← List.append_assoc, List.take_append_drop]
  have dropped : (front ++ [last]).drop count = front.drop count ++ [last] :=
    List.drop_append_of_le_length inside
  have still {v : SegView} (present : v ∈ front.drop count ++ [last]) : v ∈ front ++ [last] := by
    rw [shape]
    exact List.mem_append_right _ present
  refine { log with
    table := ?_
    named := named
    distinct := distinct
    joined := ?_
    stored := ?_
    full := fun v present => log.full v (List.mem_of_mem_drop present) }
  · change w.segBase.drop count = _
    rw [log.table, ← dropped, List.map_drop]
  · rw [shape] at joined
    refine ⟨_, ?_, joined.right⟩
    exact Nat.le_trans positive joined.left.bounds.2
  · intro v present
    rw [files]
    exact log.stored v (still present)

/-- The disks between the unlinks, and the disk and the log at the end. -/
def Disk.retained (disk : Disk) (table : List Nat) (drop : Nat) : Disk :=
  (disk.unlinked (table.take drop)).flushDir

theorem LogAt.drop_le (log : LogAt capacity disk w front last) (keepFrom : Nat) :
    walRetainDrop keepFrom w.segBase ≤ front.length := by
  have given : w.segBase ≠ [] := by
    rw [log.table, List.map_append]
    exact List.append_ne_nil_of_right_ne_nil _ (List.cons_ne_nil _ _)
  have less := walRetainDrop_lt keepFrom given
  have count : w.segBase.length = front.length + 1 := by
    rw [log.table, List.length_map, List.length_append]
    rfl
  omega

theorem LogAt.unlinked_names (log : LogAt capacity disk w front last) (count : Nat) :
    (disk.unlinked (w.segBase.take count)).dir.Nodup ∧
      ∀ base, base ∈ (disk.unlinked (w.segBase.take count)).dir ↔
        base ∈ w.segBase.drop count :=
  Msgsrvd.unlinked_names log.distinct log.named log.table_nodup count

theorem walRetain_log {os : Os} (calm : os.script = [])
    (log : LogAt capacity os.disk w front last) (keepFrom : Nat) :
    ∃ removed os', walRetain os w keepFrom =
        (.ok (), removed,
          { w with segBase := w.segBase.drop (walRetainDrop keepFrom w.segBase) }, os') ∧
      os'.script = [] ∧
      LogAt capacity os'.disk { w with segBase := w.segBase.drop (walRetainDrop keepFrom w.segBase) }
        (front.drop (walRetainDrop keepFrom w.segBase)) last ∧
      (os'.disk = os.disk ∨
        os'.disk = os.disk.retained w.segBase (walRetainDrop keepFrom w.segBase)) ∧
      ∀ disk ∈ os'.seen, disk ∈ os.seen ∨ disk = os'.disk ∨
        ∃ count, count ≤ walRetainDrop keepFrom w.segBase ∧
          disk = os.disk.unlinked (w.segBase.take count) := by
  have inside := log.drop_le keepFrom
  unfold walRetain
  simp only
  by_cases nothing : walRetainDrop keepFrom w.segBase = 0
  · rw [if_pos nothing, nothing]
    refine ⟨0, os, rfl, calm, ?_, Or.inl rfl, fun disk present => Or.inl present⟩
    exact log
  · rw [if_neg nothing]
    have apart := log.table_nodup.sublist
      (List.take_sublist (walRetainDrop keepFrom w.segBase) w.segBase)
    obtain ⟨os', ran, calm', disk', stages⟩ := walRetainUnlink_calm apart 0 calm log.distinct
      (fun base present => (log.named base).mpr (List.mem_of_mem_take present))
    rw [ran]
    simp only
    unfold osFsyncDir
    rw [plain_calm calm']
    simp only
    obtain ⟨nodup, members⟩ := log.unlinked_names (walRetainDrop keepFrom w.segBase)
    refine ⟨_, _, rfl, rfl, ?_, Or.inr ?_, ?_⟩
    · apply log.dropped inside
      · change (os'.disk.flushDir).file = os.disk.file
        rw [disk']
        rfl
      · change (os'.disk.flushDir).dir.Nodup
        rw [Disk.dir_flushDir, disk']
        exact nodup
      · intro base
        change base ∈ (os'.disk.flushDir).dir ↔ _
        rw [Disk.dir_flushDir, disk']
        exact members base
    · change os'.disk.flushDir = _
      rw [disk']
      rfl
    · intro disk present
      rcases List.mem_cons.mp present with newest | early
      · exact Or.inr (Or.inl newest)
      · rcases stages disk early with older | ⟨count, few, same⟩
        · exact Or.inl older
        · right
          right
          rw [List.length_take] at few
          refine ⟨count, by omega, ?_⟩
          rw [same, List.take_take, Nat.min_eq_left (by omega)]

end Log

end Msgsrvd

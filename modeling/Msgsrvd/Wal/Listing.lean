/-
What loading the log's directory takes from a listing.

Entries in any order and in any blocks come to the sorted table of their bases, and an
entry that does not fit its block ends the load.  A name counts for the base that is
written in it, three names apart.
-/

import Msgsrvd.Wal.Directory

namespace Msgsrvd

open Bytestring

variable {os os' : Os} {scratch : Bytes} {t : SegBases}

/-! ### Entries -/

/-- A directory entry as the kernel writes it: `pad` fills the record. -/
structure Dirent where
  ino : Nat
  next : Nat
  type : Nat
  name : FileName
  pad : Bytes
  fits : DIRENT64_NAME_OFF + name.bytes.length + 1 + pad.length < 2 ^ 16

def Dirent.reclen (entry : Dirent) : Nat :=
  DIRENT64_NAME_OFF + entry.name.bytes.length + 1 + entry.pad.length

def Dirent.bytes (entry : Dirent) : Bytes :=
  (le 8 entry.ino ++ le 8 entry.next) ++ (le 2 entry.reclen ++
    (le 1 entry.type ++ (entry.name.bytes ++ 0 :: entry.pad)))

def direntBlock (entries : List Dirent) : Bytes := entries.flatMap Dirent.bytes

/-- A record that says how long it is and has room for the fixed part. -/
structure Sized (record : Bytes) : Prop where
  header : DIRENT64_NAME_OFF ≤ record.length
  reclen : ofLe (slice record DIRENT64_RECLEN_OFF 2) = record.length

theorem Dirent.length (entry : Dirent) : entry.bytes.length = entry.reclen := by
  unfold Dirent.bytes Dirent.reclen DIRENT64_NAME_OFF
  simp only [List.length_append, length_le, List.length_cons]
  omega

theorem Dirent.sized (entry : Dirent) : Sized entry.bytes := by
  constructor
  · rw [entry.length]
    unfold Dirent.reclen
    omega
  · rw [entry.length, Dirent.bytes, slice_field (le 8 entry.ino ++ le 8 entry.next) _ _ _ _
      (by rw [List.length_append, length_le, length_le]; rfl) (by rw [length_le])]
    exact ofLe_le_of_lt entry.fits

theorem Dirent.name_field (entry : Dirent) (after : Bytes) :
    (entry.bytes ++ after).drop DIRENT64_NAME_OFF =
      entry.name.bytes ++ 0 :: (entry.pad ++ after) := by
  have front : entry.bytes ++ after = ((le 8 entry.ino ++ le 8 entry.next) ++
      (le 2 entry.reclen ++ le 1 entry.type)) ++ (entry.name.bytes ++ 0 :: (entry.pad ++ after)) := by
    unfold Dirent.bytes
    simp only [List.append_assoc, List.cons_append]
  rw [front]
  exact List.drop_left' (by simp only [List.length_append, length_le]; rfl)

theorem direntBlock_cons (entry : Dirent) (rest : List Dirent) :
    direntBlock (entry :: rest) = entry.bytes ++ direntBlock rest := List.flatMap_cons

/-! ### The walk -/

/-- The first record of a walk, with what its name parses as. -/
theorem direntWalk_record {before record after : Bytes} {n : Nat} (sized : Sized record)
    (within : before.length + record.length ≤ n) :
    direntWalk (before ++ (record ++ after)) n before.length t =
      (t.take (segNameParse ((record ++ after).drop DIRENT64_NAME_OFF)
        (record.length - DIRENT64_NAME_OFF))).bind
          (direntWalk (before ++ (record ++ after)) n (before.length + record.length)) := by
  have header := sized.header
  have length : ofLe (slice (before ++ (record ++ after)) (before.length + DIRENT64_RECLEN_OFF) 2) =
      record.length := by
    rw [slice_append_right _ _ _ _ (Nat.le_add_right _ _), Nat.add_sub_cancel_left,
      slice_append_left _ _ _ _ (by
        unfold DIRENT64_NAME_OFF at header
        unfold DIRENT64_RECLEN_OFF
        omega)]
    exact sized.reclen
  have name : (before ++ (record ++ after)).drop (before.length + DIRENT64_NAME_OFF) =
      (record ++ after).drop DIRENT64_NAME_OFF := by
    rw [List.drop_append, List.drop_of_length_le (Nat.le_add_right _ _), List.nil_append,
      Nat.add_sub_cancel_left]
  rw [direntWalk, if_pos (by unfold DIRENT64_NAME_OFF at header; omega)]
  simp only [length, name]
  rw [dif_neg (by omega)]
  cases t.take (segNameParse ((record ++ after).drop DIRENT64_NAME_OFF)
    (record.length - DIRENT64_NAME_OFF)) with
  | error e => rfl
  | ok t' => rfl

/-- A block of entries is one insertion after another. -/
theorem direntWalk_entries (entries : List Dirent) (before after : Bytes) (t : SegBases) :
    (direntWalk (before ++ (direntBlock entries ++ after))
        (before.length + (direntBlock entries).length) before.length t).map SegBases.bases =
      segTableFill t.bases (entries.filterMap (fun entry => entry.name.base)) := by
  induction entries generalizing before t with
  | nil =>
      rw [direntWalk, if_neg (by simp only [direntBlock, List.flatMap_nil, List.length_nil]; omega)]
      rfl
  | cons entry rest ih =>
      have long : (direntBlock (entry :: rest)).length =
          entry.bytes.length + (direntBlock rest).length := by
        rw [direntBlock_cons, List.length_append]
      have parsed : segNameParse ((entry.bytes ++ (direntBlock rest ++ after)).drop
          DIRENT64_NAME_OFF) (entry.bytes.length - DIRENT64_NAME_OFF) = entry.name.base := by
        rw [entry.name_field]
        apply segNameParse_base
        rw [entry.length]
        unfold Dirent.reclen
        omega
      have next (t : SegBases) := ih (before ++ entry.bytes) t
      rw [List.length_append, List.append_assoc, Nat.add_assoc, ← long] at next
      rw [direntBlock_cons, List.append_assoc, ← direntBlock_cons,
        direntWalk_record entry.sized (by omega), parsed]
      have listed : (entry :: rest).filterMap (fun entry => entry.name.base) =
          entry.name.base.toList ++ rest.filterMap (fun entry => entry.name.base) := by
        rw [List.filterMap_cons]
        cases entry.name.base with
        | none => rfl
        | some base => rfl
      rw [listed, segTableFill_append, ← take_bases]
      cases t.take entry.name.base with
      | error e => rfl
      | ok t' => exact next t'

/-- A record that does not fit the rest of its block, or says that it ends in its own
fixed part. -/
def Malformed (record : Bytes) : Prop :=
  record.length < DIRENT64_NAME_OFF ∨
    ofLe (slice record DIRENT64_RECLEN_OFF 2) < DIRENT64_NAME_OFF ∨
      record.length < ofLe (slice record DIRENT64_RECLEN_OFF 2)

theorem direntWalk_malformed {record : Bytes} (malformed : Malformed record) (some' : record ≠ [])
    (before after : Bytes) (t : SegBases) :
    direntWalk (before ++ (record ++ after)) (before.length + record.length) before.length t =
      .error ⟨.storage, 0⟩ := by
  have long := List.length_pos_of_ne_nil some'
  rw [direntWalk, if_pos (by omega)]
  simp only
  rw [dif_pos]
  rw [slice_append_right _ _ _ _ (Nat.le_add_right _ _), Nat.add_sub_cancel_left]
  -- whatever is read where the record ends early, it is too short or reaches too far
  by_cases early : record.length < DIRENT64_NAME_OFF
  · omega
  · rw [slice_append_left _ _ _ _ (by
      unfold DIRENT64_NAME_OFF at early
      unfold DIRENT64_RECLEN_OFF
      omega)]
    rcases malformed with short | short | long'
    · exact absurd short early
    · exact Or.inl short
    · exact Or.inr (by omega)

/-- The walk gets to a record that does not fit, unless the table is full before that. -/
theorem direntWalk_reaches {records : List Bytes} (sized : ∀ record ∈ records, Sized record)
    {bad : Bytes} (malformed : Malformed bad) (some' : bad ≠ []) (before after : Bytes)
    (t : SegBases) :
    ∃ e, direntWalk (before ++ (records.flatten ++ (bad ++ after)))
      (before.length + (records.flatten ++ bad).length) before.length t = .error e := by
  induction records generalizing before t with
  | nil => exact ⟨_, direntWalk_malformed malformed some' before after t⟩
  | cons record rest ih =>
      have next (t : SegBases) := ih (fun other inside =>
        sized other (List.mem_cons_of_mem _ inside)) (before ++ record) t
      rw [List.length_append, List.append_assoc] at next
      rw [List.flatten_cons, List.append_assoc, List.append_assoc, List.length_append,
        ← Nat.add_assoc, direntWalk_record (sized record List.mem_cons_self) (by omega)]
      cases t.take (segNameParse ((record ++ (rest.flatten ++ (bad ++ after))).drop
          DIRENT64_NAME_OFF) (record.length - DIRENT64_NAME_OFF)) with
      | error e => exact ⟨e, rfl⟩
      | ok t' => exact next t'

/-! ### The blocks of a directory -/

/-- The names the load counts, in the order of the listing. -/
def countedBases (entries : List Dirent) : List Nat :=
  entries.filterMap (fun entry => entry.name.base)

theorem direntBlock_some {block : List Dirent} (some' : block ≠ []) : direntBlock block ≠ [] := by
  cases block with
  | nil => exact absurd rfl some'
  | cons entry rest =>
      rw [direntBlock_cons]
      have header := entry.sized.header
      intro none'
      rw [(List.append_eq_nil_iff.mp none').1] at header
      cases header

/-- Loading a directory is one insertion after another, where no call fails. -/
theorem segTableRead_entries {blocks : List (List Dirent)} (whole : ∀ block ∈ blocks, block ≠ [])
    (os : Os) (scratch : Bytes) (t : SegBases) :
    (segTableRead os scratch t (blocks.map direntBlock)).1.map SegBases.bases =
        segTableFill t.bases (countedBases blocks.flatten) ∨
      os.script ≠ [] ∧ ∃ e, (segTableRead os scratch t (blocks.map direntBlock)).1 = .error e := by
  induction blocks generalizing os scratch t with
  | nil =>
      rw [List.map_nil, segTableRead]
      cases called : os.plain id with
      | mk res os1 =>
          cases res with
          | ok => exact Or.inl rfl
          | error e =>
              refine Or.inr ⟨fun calm => ?_, e, rfl⟩
              rw [plain_id_calm calm] at called
              cases called
  | cons block rest ih =>
      rw [List.map_cons, segTableRead, List.flatten_cons]
      cases called : os.plain id with
      | mk res os1 =>
          cases res with
          | error e =>
              refine Or.inr ⟨fun calm => ?_, e, rfl⟩
              rw [plain_id_calm calm] at called
              cases called
          | ok =>
              have after : os.script = [] → os1.script = [] := by
                intro calm
                rw [plain_id_calm calm] at called
                cases called
                rfl
              have walked := direntWalk_entries block []
                (scratch.drop (direntBlock block).length) t
              rw [List.nil_append, List.length_nil, Nat.zero_add] at walked
              simp only
              rw [if_neg (direntBlock_some (whole block List.mem_cons_self)), countedBases,
                List.filterMap_append, segTableFill_append, ← walked]
              cases direntWalk (direntBlock block ++ scratch.drop (direntBlock block).length)
                  (direntBlock block).length 0 t with
              | error e => exact Or.inl rfl
              | ok t' =>
                  rcases ih (fun other inside => whole other (List.mem_cons_of_mem _ inside)) os1
                      (direntBlock block ++ scratch.drop (direntBlock block).length) t' with
                    filled | ⟨script, failed⟩
                  · exact Or.inl filled
                  · exact Or.inr ⟨fun calm => script (after calm), failed⟩

theorem segTableLoadFrom_calm (calm : os.script = []) {blocks : List (List Dirent)}
    (whole : ∀ block ∈ blocks, block ≠ []) (scratch : Bytes) (slots : Nat → Nat) :
    (segTableLoadFrom os scratch slots (blocks.map direntBlock)).1.map SegBases.bases =
      segTableFill [] (countedBases blocks.flatten) := by
  rcases segTableRead_entries whole os scratch ⟨slots, 0⟩ with filled | ⟨script, _failed⟩
  · exact filled
  · exact absurd calm script

/-- The blocks of a directory come to what opening a log takes from the listing. -/
theorem segTableLoadFrom_listing (calm : os.script = []) {blocks : List (List Dirent)}
    (whole : ∀ block ∈ blocks, block ≠ []) (scratch : Bytes) (slots : Nat → Nat) :
    (segTableLoadFrom os scratch slots (blocks.map direntBlock)).1.map SegBases.bases =
      (segTableLoad os (countedBases blocks.flatten)).1 := by
  rw [segTableLoadFrom_calm calm whole, segTableLoad_calm calm]

/-! ### Exact names -/

/-- **A name counts for the base that `wal_seg_name` writes it for, unless its last digit
carries the word past its end; other names count for nothing.** -/
theorem segNames_exact (name : FileName) (pad beyond : Bytes) :
    ((∀ base, segNameParse (name.bytes ++ 0 :: (pad ++ beyond))
        (name.bytes.length + 1 + pad.length) = some base ↔ name.Names base) ↔ ¬ name.Wrapped) ∧
    (∀ (other : FileName) (base : Nat), ¬ name.Wrapped → ¬ other.Wrapped →
      name.base = some base → other.base = some base → name.bytes = other.bytes) ∧
    ∀ (os : Os) (scratch : Bytes) (slots : Nat → Nat) (blocks : List (List Dirent))
      (t : SegBases) (os' : Os), (∀ block ∈ blocks, block ≠ []) →
      (∀ entry ∈ blocks.flatten, ¬ entry.name.Wrapped) →
      segTableLoadFrom os scratch slots (blocks.map direntBlock) = (.ok t, os') →
      ∀ base ∈ t.bases, ∃ entry ∈ blocks.flatten, entry.name.Names base := by
  refine ⟨?_, ?_, ?_⟩
  · have parsed : segNameParse (name.bytes ++ 0 :: (pad ++ beyond))
        (name.bytes.length + 1 + pad.length) = name.base := segNameParse_base name _ (by omega)
    rw [parsed]
    constructor
    · intro exact' wrapped
      obtain ⟨base, found, other⟩ := wrapped_base wrapped
      exact other ((exact' base).mp found)
    · exact base_names
  · intro other base plain plain' first second
    have written := ((base_names plain base).mp first).2.2
    have written' := ((base_names plain' base).mp second).2.2
    exact List.append_cancel_right (written.symm.trans written')
  · intro os scratch slots blocks t os' whole plain loaded base inside
    rcases segTableRead_entries whole os scratch ⟨slots, 0⟩ with filled | ⟨_script, e, failed⟩
    · have result : segTableRead os scratch ⟨slots, 0⟩ (blocks.map direntBlock) = (.ok t, os') :=
        loaded
      rw [result] at filled
      obtain ⟨_sorted, _few, members⟩ :=
        segTableFill_ok filled.symm List.Pairwise.nil (Nat.zero_le _)
      rcases (members base).mp inside with none' | counted
      · cases none'
      · obtain ⟨entry, present, found⟩ := List.mem_filterMap.mp counted
        exact ⟨entry, present, (base_names (plain entry present) base).mp found⟩
    · have result : (segTableRead os scratch ⟨slots, 0⟩ (blocks.map direntBlock)).1 = .ok t :=
        congrArg Prod.fst loaded
      rw [result] at failed
      cases failed

/-- `18446744073709551617.seg` counts for the base 1. -/
theorem segNames_misread : ¬ ∀ (name : FileName) (pad beyond : Bytes) (base : Nat),
    segNameParse (name.bytes ++ 0 :: (pad ++ beyond)) (name.bytes.length + 1 + pad.length) =
      some base ↔ name.Names base := by
  intro exact'
  have parsed := exact' ⟨(walSegName (2 ^ 64 + 1)).take 24, by decide +kernel⟩ [] [] 1
  have accepted : segNameParse ((walSegName (2 ^ 64 + 1)).take 24 ++ 0 :: ([] ++ [])) 25 = some 1 ∧
      walSegName 1 ≠ (walSegName (2 ^ 64 + 1)).take 24 ++ [0] := by decide +kernel
  exact accepted.2 (parsed.mp accepted.1).2.2

/-! ### Any order, any blocks -/

/-- The file `wal_seg_name` names for a base. -/
def segFileName (base : Nat) : FileName where
  bytes := Decimal.fixed WAL_SEG_DIGITS base ++ segSuffix.take 4
  ended := stem_plain (Decimal.fixed_digits _ _)

theorem segFileName_base {base : Nat} (positive : 0 < base) (fits : base < 2 ^ 64) :
    (segFileName base).base = some base := by
  have low : base < 10 ^ WAL_SEG_DIGITS := Nat.lt_trans fits (by decide)
  rw [FileName.base, segNameParse_field _ [] (Nat.lt_succ_self _)]
  have number : Decimal.value (Decimal.fixed WAL_SEG_DIGITS base) = base := by
    rw [Decimal.value_fixed, Nat.mod_eq_of_lt low]
  have read := Decimal.readFrom_fits (Decimal.fixed_digits WAL_SEG_DIGITS base)
    (lt_of_eq_of_lt number fits)
  rw [number] at read
  exact ⟨_, Decimal.fixed_length _ _, rfl, read, Nat.ne_of_gt positive⟩

/-- A directory: which segments it has, and what else lies in it. -/
structure Directory where
  bases : List Nat
  others : List FileName
  distinct : bases.Nodup
  ranged : ∀ base ∈ bases, 0 < base ∧ base < 2 ^ 64
  rejected : ∀ name ∈ others, name.base = none

/-- Blocks in which the kernel lists the directory. -/
structure Directory.Listed (dir : Directory) (blocks : List (List Dirent)) : Prop where
  whole : ∀ block ∈ blocks, block ≠ []
  names : (blocks.flatten.map Dirent.name).Perm (dir.bases.map segFileName ++ dir.others)

theorem Directory.Listed.counted {dir : Directory} {blocks : List (List Dirent)}
    (listed : dir.Listed blocks) : (countedBases blocks.flatten).Perm dir.bases := by
  have bases : (countedBases blocks.flatten) =
      (blocks.flatten.map Dirent.name).filterMap FileName.base := by
    rw [List.filterMap_map]
    rfl
  have none' : dir.others.filterMap FileName.base = [] :=
    List.filterMap_eq_nil_iff.mpr dir.rejected
  have all : (dir.bases.map segFileName).filterMap FileName.base = dir.bases := by
    have each : ∀ base ∈ dir.bases, (FileName.base ∘ segFileName) base = some base := by
      intro base inside
      rw [Function.comp_apply]
      exact segFileName_base (dir.ranged base inside).1 (dir.ranged base inside).2
    rw [List.filterMap_map, List.filterMap_congr each]
    exact List.filterMap_some
  rw [bases]
  have perm := listed.names.filterMap FileName.base
  rw [List.filterMap_append, all, none', List.append_nil] at perm
  exact perm

theorem segTableFill_full {listing : List Nat} (distinct : listing.Nodup)
    (many : WAL_MAX_SEGMENTS < listing.length) : ∃ e, segTableFill [] listing = .error e := by
  cases filled : segTableFill [] listing with
  | error e => exact ⟨e, rfl⟩
  | ok table =>
      obtain ⟨_sorted, few, members⟩ := segTableFill_ok filled List.Pairwise.nil (Nat.zero_le _)
      have subset : listing ⊆ table := fun base inside => (members base).mpr (Or.inr inside)
      have fits := (List.subperm_of_subset distinct subset).length_le
      omega

/-- A failing block ends the load, whatever the blocks before it were. -/
theorem segTableRead_malformed {records : List Bytes} (sized : ∀ record ∈ records, Sized record)
    {bad : Bytes} (malformed : Malformed bad) (some' : bad ≠ []) {before : List Bytes}
    (whole : ∀ block ∈ before, block ≠ []) (after : List Bytes) (os : Os) (scratch : Bytes)
    (t : SegBases) :
    ∃ e, (segTableRead os scratch t (before ++ (records.flatten ++ bad) :: after)).1 =
      .error e := by
  induction before generalizing os scratch t with
  | nil =>
      obtain ⟨e, walked⟩ := direntWalk_reaches sized malformed some' []
        (scratch.drop (records.flatten ++ bad).length) t
      rw [List.nil_append, List.length_nil, Nat.zero_add, ← List.append_assoc] at walked
      rw [List.nil_append, segTableRead]
      cases os.plain id with
      | mk res os1 =>
          cases res with
          | error e => exact ⟨e, rfl⟩
          | ok =>
              simp only
              rw [if_neg (List.append_ne_nil_of_right_ne_nil _ some'), walked]
              exact ⟨e, rfl⟩
  | cons block rest ih =>
      rw [List.cons_append, segTableRead]
      cases os.plain id with
      | mk res os1 =>
          cases res with
          | error e => exact ⟨e, rfl⟩
          | ok =>
              simp only
              rw [if_neg (whole block List.mem_cons_self)]
              cases direntWalk (block ++ scratch.drop block.length) block.length 0 t with
              | error e => exact ⟨e, rfl⟩
              | ok t' =>
                  exact ih (fun other inside => whole other (List.mem_cons_of_mem _ inside)) os1 _ t'

/-- **However the kernel orders and divides the directory, the load ends with the bases of
its segments in ascending order, each once, or fails when there are too many; and it fails
at an entry that does not fit its block.** -/
theorem directory_loads (os : Os) (scratch : Bytes) (slots : Nat → Nat) :
    (os.script = [] → ∀ (dir : Directory) (blocks : List (List Dirent)), dir.Listed blocks →
      (dir.bases.length ≤ WAL_MAX_SEGMENTS → ∃ t os',
        segTableLoadFrom os scratch slots (blocks.map direntBlock) = (.ok t, os') ∧
          t.bases.Pairwise (· < ·) ∧ ∀ base, base ∈ t.bases ↔ base ∈ dir.bases) ∧
      (WAL_MAX_SEGMENTS < dir.bases.length → ∃ e,
        (segTableLoadFrom os scratch slots (blocks.map direntBlock)).1 = .error e)) ∧
    ∀ (before after : List Bytes) (records : List Bytes) (bad : Bytes),
      (∀ block ∈ before, block ≠ []) → (∀ record ∈ records, Sized record) → bad ≠ [] →
      Malformed bad → ∃ e,
        (segTableLoadFrom os scratch slots (before ++ (records.flatten ++ bad) :: after)).1 =
          .error e := by
  refine ⟨fun calm dir blocks listed => ?_, fun before after records bad whole sized some' malformed =>
    segTableRead_malformed sized malformed some' whole after os scratch _⟩
  have perm := listed.counted
  have loaded := segTableLoadFrom_calm calm listed.whole scratch slots
  constructor
  · intro few
    obtain ⟨table, filled⟩ : ∃ table, segTableFill [] (countedBases blocks.flatten) = .ok table := by
      apply segTableFill_room
      rw [List.length_nil, Nat.zero_add, perm.length_eq]
      exact few
    obtain ⟨sorted, _few, members⟩ :=
      segTableFill_ok filled List.Pairwise.nil (Nat.zero_le _)
    rw [filled] at loaded
    cases result : segTableLoadFrom os scratch slots (blocks.map direntBlock) with
    | mk res os' =>
        rw [result] at loaded
        cases res with
        | error e => cases loaded
        | ok t =>
            have same : t.bases = table := Except.ok.inj loaded
            refine ⟨t, os', rfl, same ▸ sorted, fun base => ?_⟩
            rw [same, members, perm.mem_iff]
            simp only [List.not_mem_nil, false_or]
  · intro many
    obtain ⟨e, full⟩ := segTableFill_full (perm.nodup_iff.mpr dir.distinct)
      (by rw [perm.length_eq]; exact many)
    rw [full] at loaded
    cases result : (segTableLoadFrom os scratch slots (blocks.map direntBlock)).1 with
    | error e' => exact ⟨e', rfl⟩
    | ok t =>
        rw [result] at loaded
        cases loaded

/-- A directory of two segments. -/
def twoSegments : Directory where
  bases := [2, 1]
  others := [⟨[46], by decide⟩]
  distinct := by decide
  ranged := by decide
  rejected := by
    intro name inside
    rw [List.mem_singleton.mp inside]
    exact (by decide : segNameParse ([46] ++ [0]) ([46].length + 1) = none)

/-- They are listed in the wrong order and in two blocks. -/
def twoBlocks : List (List Dirent) :=
  [[⟨0, 0, 4, ⟨[46], by decide⟩, [], by decide⟩, ⟨0, 0, 8, segFileName 2, [], by decide⟩],
    [⟨0, 0, 8, segFileName 1, [0], by decide⟩]]

theorem twoBlocks_listed : twoSegments.Listed twoBlocks := by
  constructor
  · intro block inside
    rcases List.mem_pair.mp inside with same | same
    · rw [same]
      exact List.cons_ne_nil _ _
    · rw [same]
      exact List.cons_ne_nil _ _
  · exact (List.perm_append_singleton _ _).symm

theorem directory_loads_twoBlocks : ∃ t os',
    segTableLoadFrom ⟨⟨fun _ => ⟨[], []⟩, [], []⟩, [], []⟩ [] (fun _ => 0)
      (twoBlocks.map direntBlock) = (.ok t, os') ∧
      t.bases.Pairwise (· < ·) ∧ ∀ base, base ∈ t.bases ↔ base ∈ twoSegments.bases :=
  ((directory_loads _ [] (fun _ => 0)).1 rfl twoSegments twoBlocks twoBlocks_listed).1 (by decide)

end Msgsrvd

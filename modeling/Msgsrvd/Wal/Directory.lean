/-
The log's directory as the kernel lists it: segment names, directory entries, and the
table of base sequences that is filled from them.

Here the table is an array that is sorted in place and a listing is blocks of bytes.  What
comes of it is what opening a log takes from a listing of bases.
-/

import Msgsrvd.Lib.Decimal
import Msgsrvd.Wal.Open
import Mathlib.Logic.Function.Basic

namespace Msgsrvd

open Bytestring

/-! ### Segment names -/

def WAL_SEG_DIGITS : Nat := 20
def WAL_SEG_NAME_MAX : Nat := WAL_SEG_DIGITS + 5

/-- `".seg"` and its NUL. -/
def segSuffix : Bytes := [46, 115, 101, 103, 0]

/-- The name with its NUL. -/
def walSegName (baseSeq : Nat) : Bytes := Decimal.fixed WAL_SEG_DIGITS baseSeq ++ segSuffix

/-- The digits, and what follows them. -/
def segNameDigits : Nat → Nat → Bytes → Option (Nat × Bytes)
  | 0, v, name => some (v, name)
  | _ + 1, _, [] => none
  | count + 1, v, c :: name =>
      if Decimal.isDigit c = true then
        -- the guard looks at what has been read, not at the digit to come
        if v > (2 ^ 64 - 1) / 10 then none
        else segNameDigits count ((v * 10 + Decimal.digitOf c) % 2 ^ 64) name
      else none

/-- `max` is how far the name may reach; nothing beyond its NUL is looked at. -/
def segNameParse (name : Bytes) (max : Nat) : Option Nat :=
  if max < WAL_SEG_NAME_MAX - 1 then none
  else
    match segNameDigits WAL_SEG_DIGITS 0 name with
    | none => none
    | some (v, rest) =>
        if rest.take 5 ≠ segSuffix then none
        else if v = 0 then none
        else some v

/-! ### The table -/

/-- `w->seg_base` and `w->seg_count` -/
structure SegBases where
  slots : Nat → Nat
  count : Nat

def SegBases.bases (t : SegBases) : List Nat := (List.range t.count).map t.slots

/-- Where the base belongs, from position `i` on, and whether it is there already. -/
def segTableSeek (t : SegBases) (base i : Nat) : Nat × Bool :=
  if i < t.count then
    if t.slots i = base then (i, true)
    else if t.slots i > base then (i, false)
    else segTableSeek t base (i + 1)
  else (i, false)
termination_by t.count - i

/-- `for (; j > i; j--) seg_base[j] = seg_base[j - 1]` -/
def segTableShift (i : Nat) : Nat → (Nat → Nat) → Nat → Nat
  | 0, slots => slots
  | j + 1, slots =>
      if j + 1 > i then segTableShift i j (Function.update slots (j + 1) (slots j)) else slots

/-- `none` when the table is full, also for a base it has. -/
def SegBases.insert (t : SegBases) (base : Nat) : Option SegBases :=
  if t.count ≥ WAL_MAX_SEGMENTS then none
  else
    match segTableSeek t base 0 with
    | (_, true) => some t
    | (i, false) =>
        some ⟨Function.update (segTableShift i t.count t.slots) i base, t.count + 1⟩

/-- What a name does to the table: nothing, unless it parses. -/
def SegBases.take (t : SegBases) : Option Nat → Except Err SegBases
  | none => .ok t
  | some base =>
      match t.insert base with
      | none => .error ⟨.nomem, t.count⟩
      | some t => .ok t

/-! ### Directory entries -/

def DIRENT64_RECLEN_OFF : Nat := 16
def DIRENT64_NAME_OFF : Nat := 19

/-- The walk over one block: `n` bytes at the front of `scratch`, from `off` on. -/
def direntWalk (scratch : Bytes) (n off : Nat) (t : SegBases) : Except Err SegBases :=
  if off < n then
    let reclen := ofLe (slice scratch (off + DIRENT64_RECLEN_OFF) 2)
    if _short : reclen < DIRENT64_NAME_OFF ∨ off + reclen > n then .error ⟨.storage, 0⟩
    else
      match t.take (segNameParse (scratch.drop (off + DIRENT64_NAME_OFF))
          (reclen - DIRENT64_NAME_OFF)) with
      | .error e => .error e
      | .ok t => direntWalk scratch n (off + reclen) t
  else .ok t
termination_by n - off
decreasing_by all_goals (unfold DIRENT64_NAME_OFF at _short; omega)

/-- Every call returns the next block into `scratch`, over what was there before; an empty
block is the end. -/
def segTableRead (os : Os) (scratch : Bytes) (t : SegBases) : List Bytes →
    Except Err SegBases × Os
  | [] =>
      match os.plain id with
      | (.error e, os) => (.error e, os)
      | (.ok (), os) => (.ok t, os)
  | block :: blocks =>
      match os.plain id with
      | (.error e, os) => (.error e, os)
      | (.ok (), os) =>
          if block = [] then (.ok t, os)
          else
            let scratch := block ++ scratch.drop block.length
            match direntWalk scratch block.length 0 t with
            | .error e => (.error e, os)
            | .ok t => segTableRead os scratch t blocks

/-- `seg_table_load`; the slots hold whatever they held. -/
def segTableLoadFrom (os : Os) (scratch : Bytes) (slots : Nat → Nat) (blocks : List Bytes) :
    Except Err SegBases × Os :=
  segTableRead os scratch ⟨slots, 0⟩ blocks

/-! ### The array agrees with the list -/

theorem segTableSeek_spec (t : SegBases) (base i : Nat) (within : i ≤ t.count) :
    i ≤ (segTableSeek t base i).1 ∧ (segTableSeek t base i).1 ≤ t.count ∧
      segTablePlace base ((List.range' i (t.count - i)).map t.slots) =
        if (segTableSeek t base i).2 = true then (List.range' i (t.count - i)).map t.slots
        else (List.range' i ((segTableSeek t base i).1 - i)).map t.slots ++
          base :: (List.range' (segTableSeek t base i).1
            (t.count - (segTableSeek t base i).1)).map t.slots := by
  induction i using segTableSeek.induct t base with
  | case1 i more same =>
      rw [segTableSeek, if_pos more, if_pos same]
      refine ⟨Nat.le_refl i, within, ?_⟩
      obtain ⟨rest, split⟩ := Nat.exists_eq_add_of_lt more
      rw [if_pos rfl, show t.count - i = rest + 1 by omega, List.range'_succ, List.map_cons,
        segTablePlace, if_pos same]
  | case2 i more differ above =>
      rw [segTableSeek, if_pos more, if_neg differ, if_pos above]
      refine ⟨Nat.le_refl i, within, ?_⟩
      obtain ⟨rest, split⟩ := Nat.exists_eq_add_of_lt more
      rw [if_neg Bool.false_ne_true, Nat.sub_self, List.range'_zero, List.map_nil, List.nil_append,
        show t.count - i = rest + 1 by omega, List.range'_succ, List.map_cons, segTablePlace,
        if_neg differ, if_pos above]
  | case3 i more differ below ih =>
      obtain ⟨after, inside, placed⟩ := ih more
      rw [segTableSeek, if_pos more, if_neg differ, if_neg below]
      refine ⟨by omega, inside, ?_⟩
      generalize segTableSeek t base (i + 1) = found at after inside placed ⊢
      obtain ⟨rest, split⟩ := Nat.exists_eq_add_of_lt more
      rw [show t.count - i = t.count - (i + 1) + 1 by omega, List.range'_succ, List.map_cons,
        segTablePlace, if_neg differ, if_neg below, placed]
      by_cases there : found.2 = true
      · rw [if_pos there, if_pos there]
      · rw [if_neg there, if_neg there, show found.1 - i = found.1 - (i + 1) + 1 by omega,
          List.range'_succ, List.map_cons, List.cons_append]
  | case4 i done =>
      have last : t.count - i = 0 := by omega
      rw [segTableSeek, if_neg done]
      refine ⟨Nat.le_refl i, within, ?_⟩
      rw [if_neg Bool.false_ne_true, last, Nat.sub_self]
      rfl

theorem segTableShift_spec (i j : Nat) (slots : Nat → Nat) (k : Nat) :
    segTableShift i j slots k = if i < k ∧ k ≤ j then slots (k - 1) else slots k := by
  induction j generalizing slots with
  | zero =>
      rw [segTableShift, if_neg (by omega)]
  | succ j ih =>
      rw [segTableShift]
      by_cases more : j + 1 > i
      · rw [if_pos more, ih]
        by_cases last : k = j + 1
        · rw [if_neg (by omega), if_pos (by omega), last, Function.update_self, Nat.add_sub_cancel]
        · by_cases moved : i < k ∧ k ≤ j
          · rw [if_pos moved, if_pos (by omega), Function.update_of_ne (by omega)]
          · rw [if_neg moved, if_neg (by omega), Function.update_of_ne last]
      · rw [if_neg more, if_neg (by omega)]

theorem inserted_bases (t : SegBases) (base i : Nat) (within : i ≤ t.count) :
    SegBases.bases ⟨Function.update (segTableShift i t.count t.slots) i base, t.count + 1⟩ =
      (List.range' 0 i).map t.slots ++
        base :: (List.range' i (t.count - i)).map t.slots := by
  unfold SegBases.bases
  apply List.ext_getElem
  · simp only [List.length_map, List.length_range, List.length_append, List.length_cons,
      List.length_range']
    omega
  · intro k left right
    rw [List.length_map, List.length_range] at left
    change k < t.count + 1 at left
    rw [List.getElem_map, List.getElem_range]
    simp only
    rcases Nat.lt_trichotomy k i with before | same | after
    · rw [Function.update_of_ne (by omega), segTableShift_spec, if_neg (by omega),
        List.getElem_append_left (by rw [List.length_map, List.length_range']; exact before),
        List.getElem_map, List.getElem_range']
      congr 1
      omega
    · subst same
      rw [Function.update_self,
        List.getElem_append_right (by rw [List.length_map, List.length_range'])]
      simp only [List.length_map, List.length_range', Nat.sub_self, List.getElem_cons_zero]
    · obtain ⟨more, split⟩ := Nat.exists_eq_add_of_lt after
      rw [Function.update_of_ne (by omega), segTableShift_spec, if_pos (by omega),
        List.getElem_append_right (by rw [List.length_map, List.length_range']; omega)]
      simp only [List.length_map, List.length_range', show k - i = more + 1 by omega,
        List.getElem_cons_succ, List.getElem_map, List.getElem_range']
      congr 1
      omega

/-- The insertion into the array is the insertion into the list. -/
theorem insert_bases (t : SegBases) (base : Nat) :
    (t.insert base).map SegBases.bases = segTableInsert t.bases base := by
  have long : t.bases.length = t.count := by
    rw [SegBases.bases, List.length_map, List.length_range]
  have whole : t.bases = (List.range' 0 (t.count - 0)).map t.slots := by
    rw [SegBases.bases, List.range_eq_range', Nat.sub_zero]
  obtain ⟨_after, inside, placed⟩ := segTableSeek_spec t base 0 (Nat.zero_le _)
  unfold SegBases.insert segTableInsert
  rw [long]
  by_cases full : t.count ≥ WAL_MAX_SEGMENTS
  · rw [if_pos full, if_pos full]
    rfl
  · rw [if_neg full, if_neg full, whole, placed]
    cases found : segTableSeek t base 0 with
    | mk i there =>
        rw [found] at inside
        cases there with
        | true =>
            simp only [if_true, Option.map_some]
            rw [whole]
        | false =>
            simp only [Option.map_some]
            rw [if_neg Bool.false_ne_true, inserted_bases t base i inside, Nat.sub_zero]

theorem take_bases (t : SegBases) (name : Option Nat) :
    (t.take name).map SegBases.bases = segTableFill t.bases name.toList := by
  cases name with
  | none => rfl
  | some base =>
      have long : t.bases.length = t.count := by
        rw [SegBases.bases, List.length_map, List.length_range]
      unfold SegBases.take
      simp only [Option.toList_some, segTableFill]
      rw [← insert_bases, ← long]
      cases t.insert base with
      | none => rfl
      | some t' => rfl

theorem segTableFill_append (table front back : List Nat) :
    segTableFill table (front ++ back) =
      (segTableFill table front).bind (fun table => segTableFill table back) := by
  induction front generalizing table with
  | nil => rfl
  | cons base rest ih =>
      rw [List.cons_append, segTableFill, segTableFill]
      cases segTableInsert table base with
      | none => rfl
      | some table' => exact ih table'

/-! ### What is parsed -/

/-- The name of a file: whatever lies before the NUL. -/
structure FileName where
  bytes : Bytes
  ended : (0 : UInt8) ∉ bytes

theorem segNameDigits_iff (count v : Nat) (name : Bytes) (result : Nat × Bytes) :
    segNameDigits count v name = some result ↔ count ≤ name.length ∧
      Decimal.readFrom (2 ^ 64) v (name.take count) = some result.1 ∧
        name.drop count = result.2 := by
  induction count generalizing v name with
  | zero =>
      rw [segNameDigits, List.take_zero, List.drop_zero, Decimal.readFrom, Option.some.injEq,
        Option.some.injEq, Prod.ext_iff]
      constructor
      · exact fun both => ⟨Nat.zero_le _, both.1, both.2⟩
      · exact fun all => ⟨all.2.1, all.2.2⟩
  | succ count ih =>
      cases name with
      | nil =>
          rw [segNameDigits]
          constructor
          · exact fun none' => by cases none'
          · exact fun all => absurd all.1 (Nat.not_succ_le_zero count)
      | cons c name =>
          rw [segNameDigits, List.take_succ_cons, List.drop_succ_cons, List.length_cons,
            Decimal.readFrom, Nat.add_le_add_iff_right]
          by_cases is : Decimal.isDigit c = true
          · rw [if_pos is, if_pos is]
            by_cases high : v > (2 ^ 64 - 1) / 10
            · rw [if_pos high, if_pos high]
              constructor
              · exact fun none' => by cases none'
              · rintro ⟨_long, none', _rest⟩
                cases none'
            · rw [if_neg high, if_neg high]
              exact ih _ name
          · rw [if_neg is, if_neg is]
            constructor
            · exact fun none' => by cases none'
            · rintro ⟨_long, none', _rest⟩
              cases none'

theorem segNameParse_iff (name : Bytes) (max base : Nat) :
    segNameParse name max = some base ↔ WAL_SEG_NAME_MAX - 1 ≤ max ∧
      WAL_SEG_DIGITS ≤ name.length ∧
        Decimal.readFrom (2 ^ 64) 0 (name.take WAL_SEG_DIGITS) = some base ∧
          (name.drop WAL_SEG_DIGITS).take 5 = segSuffix ∧ base ≠ 0 := by
  unfold segNameParse
  by_cases short : max < WAL_SEG_NAME_MAX - 1
  · rw [if_pos short]
    constructor
    · exact fun none' => nomatch none'
    · exact fun all => absurd all.1 (by omega)
  · rw [if_neg short]
    cases digits : segNameDigits WAL_SEG_DIGITS 0 name with
    | none =>
        constructor
        · exact fun none' => nomatch none'
        · rintro ⟨_room, long, read, _suffix, _some⟩
          have found := (segNameDigits_iff WAL_SEG_DIGITS 0 name (base, _)).mpr ⟨long, read, rfl⟩
          rw [digits] at found
          cases found
    | some result =>
        obtain ⟨v, rest⟩ := result
        obtain ⟨long, read, after⟩ := (segNameDigits_iff WAL_SEG_DIGITS 0 name (v, rest)).mp digits
        simp only at read after ⊢
        rw [read, after, Option.some.injEq]
        by_cases other : rest.take 5 ≠ segSuffix
        · rw [if_pos other]
          constructor
          · exact fun none' => nomatch none'
          · exact fun all => absurd all.2.2.2.1 other
        · rw [if_neg other]
          by_cases zero : v = 0
          · rw [if_pos zero]
            constructor
            · exact fun none' => nomatch none'
            · rintro ⟨_room, _long, same, _suffix, some'⟩
              exact absurd (same.symm.trans zero) some'
          · rw [if_neg zero, Option.some.injEq]
            constructor
            · intro same
              exact ⟨by omega, long, same, not_not.mp other, same ▸ zero⟩
            · exact fun all => all.2.2.1

/-- What comes before the first NUL. -/
theorem front_unique {one two after more : Bytes} (ended : (0 : UInt8) ∉ one)
    (ended' : (0 : UInt8) ∉ two) (same : one ++ 0 :: after = two ++ 0 :: more) : one = two := by
  have cut (front back : Bytes) (plain : (0 : UInt8) ∉ front) :
      (front ++ 0 :: back).takeWhile (· ≠ 0) = front := by
    rw [List.takeWhile_append_of_pos (fun c inside => ?_), List.takeWhile_cons_of_neg (by decide),
      List.append_nil]
    exact decide_eq_true (fun zero => plain (zero ▸ inside))
  rw [← cut one after ended, same, cut two more ended']

theorem digits_plain {s : Bytes} (digits : Decimal.Digits s) : (0 : UInt8) ∉ s := by
  intro inside
  exact absurd (digits 0 inside) (by decide)

/-- The digits and the `".seg"` before the NUL. -/
theorem stem_plain {s : Bytes} (digits : Decimal.Digits s) :
    (0 : UInt8) ∉ s ++ segSuffix.take 4 := by
  intro inside
  rcases List.mem_append.mp inside with front | back
  · exact digits_plain digits front
  · revert back
    decide

theorem readFrom_digits {s : Bytes} {v base : Nat} (low : v < 2 ^ 64)
    (read : Decimal.readFrom (2 ^ 64) v s = some base) : Decimal.Digits s :=
  ((Decimal.readFrom_iff s low base).mp read).1

/-- A name in a directory is accepted for what lies before its NUL. -/
theorem segNameParse_field (name : FileName) (beyond : Bytes) {max : Nat}
    (room : name.bytes.length < max) (base : Nat) :
    segNameParse (name.bytes ++ 0 :: beyond) max = some base ↔
      ∃ digits, digits.length = WAL_SEG_DIGITS ∧ name.bytes = digits ++ segSuffix.take 4 ∧
        Decimal.readFrom (2 ^ 64) 0 digits = some base ∧ base ≠ 0 := by
  rw [segNameParse_iff]
  constructor
  · rintro ⟨_room, long, read, suffix, some'⟩
    have length : ((name.bytes ++ 0 :: beyond).take WAL_SEG_DIGITS).length = WAL_SEG_DIGITS :=
      List.length_take_of_le long
    refine ⟨_, length, ?_, read, some'⟩
    have digits := readFrom_digits (by decide) read
    have whole := List.take_append_drop WAL_SEG_DIGITS (name.bytes ++ 0 :: beyond)
    rw [← List.take_append_drop 5 (List.drop _ _), suffix] at whole
    have split : segSuffix = segSuffix.take 4 ++ [0] := rfl
    rw [split, List.append_assoc, List.singleton_append, ← List.append_assoc] at whole
    exact (front_unique (stem_plain digits) name.ended whole).symm
  · rintro ⟨digits, length, shape, read, some'⟩
    have whole : name.bytes ++ 0 :: beyond = digits ++ (segSuffix ++ beyond) := by
      rw [shape, List.append_assoc]
      rfl
    have long : name.bytes.length = WAL_SEG_DIGITS + 4 := by
      rw [shape, List.length_append, length]
      rfl
    rw [whole, List.take_left' length, List.drop_left' length, List.length_append, length]
    refine ⟨?_, Nat.le_add_right _ _, read, List.take_left' rfl, some'⟩
    unfold WAL_SEG_NAME_MAX
    omega

/-- The base a name is accepted for. -/
def FileName.base (name : FileName) : Option Nat :=
  segNameParse (name.bytes ++ [0]) (name.bytes.length + 1)

theorem segNameParse_base (name : FileName) (beyond : Bytes) {max : Nat}
    (room : name.bytes.length < max) :
    segNameParse (name.bytes ++ 0 :: beyond) max = name.base := by
  apply Option.ext
  intro base
  rw [FileName.base, segNameParse_field name beyond room,
    segNameParse_field name [] (Nat.lt_succ_self _)]

/-! ### Names that are not the log's -/

/-- The name is the one `wal_seg_name` writes for this base. -/
def FileName.Names (name : FileName) (base : Nat) : Prop :=
  0 < base ∧ base < 2 ^ 64 ∧ walSegName base = name.bytes ++ [0]

/-- The twenty digits carry the word past its end with the last of them. -/
def FileName.Wrapped (name : FileName) : Prop :=
  ∃ number, 2 ^ 64 < number ∧ number ≤ 2 ^ 64 + 3 ∧ walSegName number = name.bytes ++ [0]

theorem walSegName_iff (name : FileName) {number : Nat} (low : number < 10 ^ WAL_SEG_DIGITS) :
    walSegName number = name.bytes ++ [0] ↔ ∃ digits, digits.length = WAL_SEG_DIGITS ∧
      name.bytes = digits ++ segSuffix.take 4 ∧ Decimal.Digits digits ∧
        Decimal.value digits = number := by
  have split : segSuffix = segSuffix.take 4 ++ [0] := rfl
  unfold walSegName
  constructor
  · intro same
    rw [split, ← List.append_assoc] at same
    refine ⟨_, Decimal.fixed_length _ _, (List.append_cancel_right same).symm,
      Decimal.fixed_digits _ _, ?_⟩
    rw [Decimal.value_fixed, Nat.mod_eq_of_lt low]
  · rintro ⟨digits, length, shape, are, number'⟩
    rw [← number', ← length, Decimal.fixed_value are, shape, List.append_assoc, ← split]

/-- A name that is accepted for another base carries its word past the end. -/
theorem base_names {name : FileName} (plain : ¬ name.Wrapped) (base : Nat) :
    name.base = some base ↔ name.Names base := by
  rw [FileName.base, segNameParse_field name [] (Nat.lt_succ_self _)]
  constructor
  · rintro ⟨digits, length, shape, read, some'⟩
    obtain ⟨are, admitted, rest⟩ := (Decimal.readFrom_iff digits (by decide) base).mp read
    change Decimal.value digits % 2 ^ 64 = base at rest
    have bound := Decimal.value_lt are
    rw [length] at bound
    have written := (walSegName_iff name bound).mpr ⟨digits, length, shape, are, rfl⟩
    by_cases fits : Decimal.value digits < 2 ^ 64
    · rw [Nat.mod_eq_of_lt fits] at rest
      rw [rest] at fits written
      exact ⟨Nat.pos_of_ne_zero some', fits, written⟩
    · -- nineteen digits fit the word, so only the last one can have carried it past its end
      refine absurd ⟨Decimal.value digits, ?_, ?_, written⟩ plain
      · omega
      · obtain ⟨front, c, last⟩ : ∃ front c, digits = front ++ [c] := by
          rw [← List.dropLast_append_getLast (l := digits) (by
            rintro none'
            rw [none'] at length
            cases length)]
          exact ⟨_, _, rfl⟩
        have nineteen : front.length = 19 := by
          rw [last, List.length_append, List.length_singleton] at length
          exact Nat.succ.inj length
        have front_digits : Decimal.Digits front := fun c' inside =>
          are c' (last ▸ List.mem_append_left _ inside)
        have small := Decimal.value_lt front_digits
        have digit := Decimal.digitOf_lt (are c (last ▸ List.mem_append_right _
          (List.mem_singleton_self c)))
        have guarded := admitted front c [] last
        change Decimal.value front % 2 ^ 64 ≤ _ at guarded
        rw [nineteen] at small
        rw [Nat.mod_eq_of_lt (by omega)] at guarded
        rw [last, Decimal.value_concat]
        omega
  · rintro ⟨positive, fits, written⟩
    obtain ⟨digits, length, shape, are, number⟩ :=
      (walSegName_iff name (Nat.lt_trans fits (by decide))).mp written
    have read := Decimal.readFrom_fits are (lt_of_eq_of_lt number fits)
    rw [number] at read
    exact ⟨digits, length, shape, read, by omega⟩

theorem wrapped_bases : segNameParse (walSegName (2 ^ 64 + 1)) 25 = some 1 ∧
    segNameParse (walSegName (2 ^ 64 + 2)) 25 = some 2 ∧
    segNameParse (walSegName (2 ^ 64 + 3)) 25 = some 3 := by decide +kernel

theorem wrapped_base {name : FileName} (wrapped : name.Wrapped) :
    ∃ base, name.base = some base ∧ ¬ name.Names base := by
  obtain ⟨number, above, below, written⟩ := wrapped
  have long : name.bytes.length + 1 = 25 := by
    have same := congrArg List.length written
    rw [walSegName, List.length_append, Decimal.fixed_length, List.length_append] at same
    exact same.symm
  obtain ⟨one, two, three⟩ := wrapped_bases
  have parsed : name.base = some (number - 2 ^ 64) := by
    rw [FileName.base, ← written, long]
    obtain rfl | rfl | rfl :
        number = 2 ^ 64 + 1 ∨ number = 2 ^ 64 + 2 ∨ number = 2 ^ 64 + 3 := by omega
    · exact one
    · exact two
    · exact three
  refine ⟨_, parsed, ?_⟩
  rintro ⟨_positive, fits, named⟩
  have same := congrArg (List.take WAL_SEG_DIGITS) (named.trans written.symm)
  rw [walSegName, walSegName, List.take_left' (Decimal.fixed_length _ _),
    List.take_left' (Decimal.fixed_length _ _)] at same
  have values := congrArg Decimal.value same
  rw [Decimal.value_fixed, Decimal.value_fixed, Nat.mod_eq_of_lt, Nat.mod_eq_of_lt] at values
  · omega
  · exact Nat.lt_of_le_of_lt below (by decide)
  · exact Nat.lt_trans fits (by decide)

end Msgsrvd

/-
The arena: spans cut one after another from a buffer, whose watermark two allocators share.

Only one of them rounds the sizes it is given, and both do their sums in 32-bit words.
-/

import Mathlib.Algebra.Ring.Int.Defs
import Mathlib.Algebra.Ring.Nat
import Mathlib.Data.List.Basic

namespace Msgsrvd

/-! ### The allocators -/

structure Span where
  off : Int32
  len : Int32
  deriving DecidableEq, Repr

def SPAN_NULL : Span := ⟨0, 0⟩

/-- The buffer itself is left out; a pointer into it is the offset from its base. -/
structure Arena where
  capacity : Int32
  used : Int32
  deriving DecidableEq, Repr

def arenaInit (capacity : Int32) : Arena := ⟨capacity, 0⟩

def arenaAlloc (a : Arena) (size : Int32) : Span × Arena :=
  if size ≤ 0 then (SPAN_NULL, a)
  else
    let aligned := (size + 7) &&& ~~~7
    if a.used + aligned > a.capacity then (SPAN_NULL, a)
    else (⟨a.used, size⟩, { a with used := a.used + aligned })

def arenaAllocRaw (a : Arena) (size : Int32) : Span × Arena :=
  if size ≤ 0 ∨ a.used + size > a.capacity then (SPAN_NULL, a)
  else (⟨a.used, size⟩, { a with used := a.used + size })

def arenaReset (a : Arena) : Arena := { a with used := 0 }

def spanPtr (baseLen : Int32) (s : Span) : Option Int32 :=
  if s.off < 0 ∨ s.len < 0 ∨ s.off + s.len > baseLen then none else some s.off

def arenaPtr (a : Arena) (s : Span) : Option Int32 := spanPtr a.capacity s

/-! ### Words -/

/-- The size rounded up to a multiple of 8. -/
def roundUp (size : Int) : Int := (size + 7) / 8 * 8

theorem and_not_seven (x : BitVec 32) : x &&& ~~~7#32 = (x >>> 3) <<< 3 := by
  ext i within
  rw [BitVec.getElem_and, BitVec.getElem_not, BitVec.getElem_shiftLeft]
  by_cases low : i < 3
  · obtain rfl | rfl | rfl : i = 0 ∨ i = 1 ∨ i = 2 := by omega
    all_goals simp
  · have high : (7#32)[i] = false := by
      rw [← BitVec.getLsbD_eq_getElem, BitVec.getLsbD_ofNat, decide_eq_true within, Bool.true_and]
      exact Nat.testBit_lt_two_pow (Nat.lt_of_lt_of_le (by decide : 7 < 2 ^ 3)
        (Nat.pow_le_pow_right (by decide) (by omega)))
    rw [high, decide_eq_false low, Bool.not_false, Bool.and_true, Bool.true_and,
      BitVec.getElem_ushiftRight, ← BitVec.getLsbD_eq_getElem]
    congr 1
    omega

/-- What the rounding does to a word. -/
theorem aligned_toInt {size : Int32} (positive : 0 < size.toInt) :
    ((size + 7) &&& ~~~7).toInt = (roundUp size.toInt).bmod (2 ^ 32) := by
  have below := size.toInt_lt
  have word : (((size + 7) &&& ~~~7).toBitVec.toNat : Int) = roundUp size.toInt := by
    have nat : (size.toBitVec.toNat : Int) = size.toInt := by
      have msb := BitVec.toInt_eq_toNat_cond size.toBitVec
      rw [Int32.toInt_toBitVec] at msb
      split at msb <;> omega
    have shape : ((size + 7) &&& ~~~7).toBitVec = ((size.toBitVec + 7#32) >>> 3) <<< 3 := by
      rw [← and_not_seven]
      rfl
    rw [shape, BitVec.toNat_shiftLeft, BitVec.toNat_ushiftRight, BitVec.toNat_add,
      Nat.shiftLeft_eq, Nat.shiftRight_eq_div_pow]
    unfold roundUp
    rw [show (7#32).toNat = 7 from rfl]
    omega
  rw [← Int32.toInt_toBitVec, BitVec.toInt_eq_toNat_bmod, word]

/-- The watermark after a rounded size, as a word. -/
theorem used_aligned (used : Int32) {size : Int32} (positive : 0 < size.toInt) :
    (used + ((size + 7) &&& ~~~7)).toInt =
      (used.toInt + roundUp size.toInt).bmod (2 ^ 32) := by
  rw [Int32.toInt_add, aligned_toInt positive, Int.add_bmod_bmod]

theorem word_sum {sum : Int} (low : 0 ≤ sum) (high : sum < 2 ^ 32) :
    sum.bmod (2 ^ 32) = if sum < 2 ^ 31 then sum else sum - 2 ^ 32 := by
  rw [Int.bmod_def, Int.emod_eq_of_lt low (by omega)]
  split <;> split <;> omega

/-! ### Runs -/

inductive ArenaOp where
  | alloc (size : Int32)
  | allocRaw (size : Int32)
  | reset
  deriving DecidableEq, Repr

/-- A span that was returned, and whether its size was rounded. -/
structure Grant where
  span : Span
  rounded : Bool
  deriving DecidableEq, Repr

/-- The arena, and the spans it has returned since its last reset. -/
structure ArenaRun where
  arena : Arena
  grants : List Grant
  deriving DecidableEq, Repr

def ArenaRun.note (r : ArenaRun) (rounded : Bool) (returned : Span × Arena) : ArenaRun :=
  { arena := returned.2
    grants := if returned.1 = SPAN_NULL then r.grants else ⟨returned.1, rounded⟩ :: r.grants }

def ArenaRun.step (r : ArenaRun) : ArenaOp → ArenaRun
  | .alloc size => r.note true (arenaAlloc r.arena size)
  | .allocRaw size => r.note false (arenaAllocRaw r.arena size)
  | .reset => ⟨arenaReset r.arena, []⟩

/-- In bounds, resolved, disjoint, and aligned where they are rounded. -/
structure ArenaRun.Sound (r : ArenaRun) : Prop where
  low : 0 ≤ r.arena.used.toInt
  high : r.arena.used.toInt ≤ r.arena.capacity.toInt
  inside : ∀ g ∈ r.grants, 0 ≤ g.span.off.toInt ∧ 0 < g.span.len.toInt ∧
    g.span.off.toInt + g.span.len.toInt ≤ r.arena.capacity.toInt
  resolved : ∀ g ∈ r.grants, arenaPtr r.arena g.span = some g.span.off
  disjoint : r.grants.Pairwise fun g h =>
    h.span.off.toInt + h.span.len.toInt ≤ g.span.off.toInt ∨
      g.span.off.toInt + g.span.len.toInt ≤ h.span.off.toInt
  aligned : ∀ g ∈ r.grants, g.rounded = true → g.span.off.toInt % 8 = 0

/-- The run is sound after every one of its calls. -/
def ArenaRun.Holds : ArenaRun → List ArenaOp → Prop
  | r, [] => r.Sound
  | r, op :: rest => r.Sound ∧ (r.step op).Holds rest

/-- The sum a call makes fits a word, and a span that is rounded begins at a multiple of 8. -/
def ArenaOp.fits (a : Arena) : ArenaOp → Prop
  | .alloc size => 0 < size.toInt →
      a.used.toInt + roundUp size.toInt < 2 ^ 31 ∧
        (a.used.toInt + roundUp size.toInt ≤ a.capacity.toInt → a.used.toInt % 8 = 0)
  | .allocRaw size => 0 < size.toInt → a.used.toInt + size.toInt < 2 ^ 31
  | .reset => True

def ArenaRun.Fit : ArenaRun → List ArenaOp → Prop
  | _, [] => True
  | r, op :: rest => op.fits r.arena ∧ (r.step op).Fit rest

/-! ### One call -/

theorem roundUp_bounds (size : Int) : size ≤ roundUp size ∧ roundUp size ≤ size + 7 := by
  unfold roundUp
  omega

/-- Nothing that was returned reaches past the watermark. -/
structure ArenaRun.Packed (r : ArenaRun) : Prop extends r.Sound where
  below : ∀ g ∈ r.grants, g.span.off.toInt + g.span.len.toInt ≤ r.arena.used.toInt

theorem arenaPtr_inside {a : Arena} {s : Span} (off : 0 ≤ s.off.toInt) (len : 0 < s.len.toInt)
    (within : s.off.toInt + s.len.toInt ≤ a.capacity.toInt) : arenaPtr a s = some s.off := by
  have capacity := a.capacity.toInt_lt
  have sum : (s.off + s.len).toInt = s.off.toInt + s.len.toInt := by
    rw [Int32.toInt_add, word_sum (by omega) (by omega), if_pos (by omega)]
  unfold arenaPtr spanPtr
  rw [if_neg]
  rintro (negative | negative | beyond)
  · have below := Int32.lt_iff_toInt_lt.mp negative
    rw [Int32.toInt_zero] at below
    omega
  · have below := Int32.lt_iff_toInt_lt.mp negative
    rw [Int32.toInt_zero] at below
    omega
  · have above := Int32.lt_iff_toInt_lt.mp beyond
    omega

/-- An arena from which nothing is held. -/
theorem ArenaRun.Packed.empty {a : Arena} (low : 0 ≤ a.used.toInt)
    (high : a.used.toInt ≤ a.capacity.toInt) : (⟨a, []⟩ : ArenaRun).Packed where
  low := low
  high := high
  inside := fun _ none' => absurd none' List.not_mem_nil
  resolved := fun _ none' => absurd none' List.not_mem_nil
  disjoint := List.Pairwise.nil
  aligned := fun _ none' => absurd none' List.not_mem_nil
  below := fun _ none' => absurd none' List.not_mem_nil

theorem span_not_null {size : Int32} (positive : 0 < size.toInt) (off : Int32) :
    (⟨off, size⟩ : Span) ≠ SPAN_NULL := by
  intro same
  have len : size = 0 := congrArg Span.len same
  rw [len, Int32.toInt_zero] at positive
  omega

/-- A span at the watermark, where its size and the new watermark fit. -/
theorem ArenaRun.Packed.grant {r : ArenaRun} (packed : r.Packed) {size used : Int32}
    {rounded : Bool} (positive : 0 < size.toInt)
    (moves : r.arena.used.toInt + size.toInt ≤ used.toInt)
    (fits : used.toInt ≤ r.arena.capacity.toInt)
    (aligned : rounded = true → r.arena.used.toInt % 8 = 0) :
    (r.note rounded (⟨r.arena.used, size⟩, { r.arena with used := used })).Packed := by
  have low := packed.low
  unfold ArenaRun.note
  simp only
  rw [if_neg (span_not_null positive r.arena.used)]
  refine ⟨⟨?_, fits, ?_, ?_, ?_, ?_⟩, ?_⟩
  · change 0 ≤ used.toInt
    omega
  · intro g present
    rcases List.mem_cons.mp present with this | older
    · rw [this]
      exact ⟨low, positive, by simp only; omega⟩
    · exact packed.inside g older
  · intro g present
    rcases List.mem_cons.mp present with this | older
    · rw [this]
      exact arenaPtr_inside low positive (by simp only; omega)
    · exact packed.resolved g older
  · refine List.pairwise_cons.mpr ⟨fun g older => Or.inl (packed.below g older), packed.disjoint⟩
  · intro g present
    rcases List.mem_cons.mp present with this | older
    · rw [this]
      exact aligned
    · exact packed.aligned g older
  · intro g present
    rcases List.mem_cons.mp present with this | older
    · rw [this]
      exact moves
    · have below := packed.below g older
      simp only
      omega

theorem ArenaRun.note_null (r : ArenaRun) (rounded : Bool) :
    r.note rounded (SPAN_NULL, r.arena) = r := by
  unfold ArenaRun.note
  rw [if_pos rfl]

theorem size_positive {size : Int32} : ¬ size ≤ 0 ↔ 0 < size.toInt := by
  rw [Int32.le_iff_toInt_le, Int32.toInt_zero]
  omega

/-- A call that fits keeps the run packed. -/
theorem ArenaRun.Packed.step {r : ArenaRun} (packed : r.Packed) (op : ArenaOp)
    (fits : op.fits r.arena) : (r.step op).Packed := by
  have low := packed.low
  cases op with
  | alloc size =>
      unfold ArenaRun.step arenaAlloc
      simp only
      by_cases none' : size ≤ 0
      · rw [if_pos none', note_null]
        exact packed
      · have positive := size_positive.mp none'
        have bounds := roundUp_bounds size.toInt
        obtain ⟨sum, aligned⟩ := fits positive
        have used := used_aligned r.arena.used positive
        rw [word_sum (by omega) (by omega), if_pos sum] at used
        rw [if_neg none']
        by_cases full : r.arena.used + ((size + 7) &&& ~~~7) > r.arena.capacity
        · rw [if_pos full, note_null]
          exact packed
        · rw [if_neg full]
          have room := mt Int32.lt_iff_toInt_lt.mpr full
          exact packed.grant positive (by omega) (by omega) (fun _ => aligned (by omega))
  | allocRaw size =>
      unfold ArenaRun.step arenaAllocRaw
      simp only
      by_cases refused : size ≤ 0 ∨ r.arena.used + size > r.arena.capacity
      · rw [if_pos refused, note_null]
        exact packed
      · rw [if_neg refused]
        obtain ⟨some', room⟩ := not_or.mp refused
        have positive := size_positive.mp some'
        have sum := fits positive
        have used : (r.arena.used + size).toInt = r.arena.used.toInt + size.toInt := by
          rw [Int32.toInt_add, word_sum (by omega) (by omega), if_pos sum]
        have within := mt Int32.lt_iff_toInt_lt.mpr room
        exact packed.grant positive (by omega) (by omega) (fun none' => by cases none')
  | reset => exact .empty (Int.le_refl 0) (Int.le_trans packed.low packed.high)

/-- A call that is granted moves the watermark to the sum, and its span is kept. -/
theorem ArenaRun.step_granted {r : ArenaRun} {size : Int32} (positive : 0 < size.toInt)
    (room : (r.arena.used + ((size + 7) &&& ~~~7)).toInt ≤ r.arena.capacity.toInt) :
    (r.step (.alloc size)).arena.used = r.arena.used + ((size + 7) &&& ~~~7) ∧
      (⟨⟨r.arena.used, size⟩, true⟩ : Grant) ∈ (r.step (.alloc size)).grants := by
  have granted : ¬ r.arena.used + ((size + 7) &&& ~~~7) > r.arena.capacity := by
    intro full
    have above := Int32.lt_iff_toInt_lt.mp full
    omega
  unfold ArenaRun.step arenaAlloc ArenaRun.note
  simp only
  rw [if_neg (size_positive.mpr positive), if_neg granted,
    if_neg (span_not_null positive r.arena.used)]
  exact ⟨rfl, List.mem_cons_self⟩

/-- A call does not fit only where what follows it is not sound. -/
theorem ArenaRun.Sound.fits {r : ArenaRun} (before : r.Sound) {op : ArenaOp}
    (after : (r.step op).Sound) : op.fits r.arena := by
  have low := before.low
  have high := before.high
  have capacity := r.arena.capacity.toInt_lt
  cases op with
  | alloc size =>
      intro positive
      have limit := size.toInt_lt
      have bounds := roundUp_bounds size.toInt
      have multiple : roundUp size.toInt % 8 = 0 := Int.mul_emod_left _ _
      have used := used_aligned r.arena.used positive
      rw [word_sum (by omega) (by omega)] at used
      by_cases sum : r.arena.used.toInt + roundUp size.toInt < 2 ^ 31
      · rw [if_pos sum] at used
        refine ⟨sum, fun room => ?_⟩
        obtain ⟨-, kept⟩ := r.step_granted positive (by omega)
        exact after.aligned _ kept rfl
      · -- the word is negative, so the call is granted and the watermark falls below zero
        rw [if_neg sum] at used
        obtain ⟨moved, -⟩ := r.step_granted positive (by omega)
        have fell := after.low
        rw [moved] at fell
        omega
  | allocRaw size =>
      intro positive
      have limit := size.toInt_lt
      by_contra sum
      have used : (r.arena.used + size).toInt = r.arena.used.toInt + size.toInt - 2 ^ 32 := by
        rw [Int32.toInt_add, word_sum (by omega) (by omega), if_neg sum]
      have granted : ¬ (size ≤ 0 ∨ r.arena.used + size > r.arena.capacity) := by
        rintro (none' | full)
        · exact size_positive.mpr positive none'
        · have above := Int32.lt_iff_toInt_lt.mp full
          omega
      have fell := after.low
      unfold ArenaRun.step arenaAllocRaw ArenaRun.note at fell
      simp only at fell
      rw [if_neg granted] at fell
      simp only at fell
      omega
  | reset => exact trivial

/-! ### Any run -/

theorem ArenaRun.Packed.holds {r : ArenaRun} (packed : r.Packed) {ops : List ArenaOp}
    (fit : r.Fit ops) : r.Holds ops := by
  induction ops generalizing r with
  | nil => exact packed.toSound
  | cons op rest ih =>
      obtain ⟨fits, later⟩ := fit
      exact ⟨packed.toSound, ih (packed.step op fits) later⟩

theorem ArenaRun.Holds.sound {r : ArenaRun} {ops : List ArenaOp} (holds : r.Holds ops) :
    r.Sound := by
  cases ops with
  | nil => exact holds
  | cons op rest => exact holds.1

theorem ArenaRun.Holds.fit {r : ArenaRun} {ops : List ArenaOp} (holds : r.Holds ops) :
    r.Fit ops := by
  induction ops generalizing r with
  | nil => exact trivial
  | cons op rest ih =>
      obtain ⟨before, after⟩ := holds
      exact ⟨before.fits after.sound, ih after⟩

/--
**The spans of an arena are disjoint, aligned and in bounds exactly where its sums fit.**

The capacity is not negative; no call makes the watermark and its size, rounded where it is,
sum to `2 ^ 31` or more; and a rounded span that there is room for is asked for only at a
watermark that is a multiple of 8, which the unrounded sizes before it decide.
-/
theorem arenaSpans_sound (capacity : Int32) (ops : List ArenaOp) :
    (⟨arenaInit capacity, []⟩ : ArenaRun).Holds ops ↔
      0 ≤ capacity.toInt ∧ (⟨arenaInit capacity, []⟩ : ArenaRun).Fit ops := by
  constructor
  · intro holds
    exact ⟨Int.le_trans holds.sound.low holds.sound.high, holds.fit⟩
  · rintro ⟨low, fit⟩
    have empty : (⟨arenaInit capacity, []⟩ : ArenaRun).Packed := .empty (Int.le_refl 0) low
    exact empty.holds fit

/-- One raw byte leaves the next rounded span at offset 1. -/
theorem arenaSpans_unaligned :
    ¬ (⟨arenaInit 64, []⟩ : ArenaRun).Holds [.allocRaw 1, .alloc 8] := by
  intro holds
  have aligned := holds.2.2.aligned ⟨⟨1, 8⟩, true⟩ (by decide) rfl
  exact absurd aligned (by decide)

end Msgsrvd

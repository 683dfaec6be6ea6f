/-
Cyclic redundancy checks over a register of any width.

`feed` takes one bit of the message into the reflected register; `push` is the same
division in the order in which the polynomial is written.  A word folded into the
register at once gives what its bits give one after the other, and no state is reached
from two.
-/

import Mathlib.Tactic.Common

namespace Crc

variable {width : Nat}

/-- One step of the reflected division: the low bit leaves the register. -/
def step (poly reg : BitVec width) : BitVec width :=
  if reg.getLsbD 0 then (reg >>> 1) ^^^ poly else reg >>> 1

def steps (poly : BitVec width) : Nat → BitVec width → BitVec width
  | 0, reg => reg
  | count + 1, reg => steps poly count (step poly reg)

/-- One bit of the message, into the reflected register. -/
def feed (poly reg : BitVec width) (bit : Bool) : BitVec width :=
  if reg.getLsbD 0 ^^ bit then (reg >>> 1) ^^^ poly else reg >>> 1

/-- One bit of the message, into a register whose high bit leaves it. -/
def push (poly reg : BitVec width) (bit : Bool) : BitVec width :=
  if reg.msb ^^ bit then (reg <<< 1) ^^^ poly else reg <<< 1

def feedAll (poly reg : BitVec width) (bits : List Bool) : BitVec width :=
  bits.foldl (feed poly) reg

def pushAll (poly reg : BitVec width) (bits : List Bool) : BitVec width :=
  bits.foldl (push poly) reg

@[simp] theorem feedAll_nil (poly reg : BitVec width) : feedAll poly reg [] = reg := rfl

@[simp] theorem feedAll_cons (poly reg : BitVec width) (bit : Bool) (bits : List Bool) :
    feedAll poly reg (bit :: bits) = feedAll poly (feed poly reg bit) bits := rfl

theorem feedAll_append (poly reg : BitVec width) (front back : List Bool) :
    feedAll poly reg (front ++ back) = feedAll poly (feedAll poly reg front) back :=
  List.foldl_append

/-! ### The two orders -/

theorem reverse_shiftRight (reg : BitVec width) : (reg >>> 1).reverse = reg.reverse <<< 1 := by
  apply BitVec.eq_of_getLsbD_eq
  intro i inside
  rw [BitVec.getLsbD_reverse, BitVec.getMsbD_ushiftRight, BitVec.getLsbD_shiftLeft,
    BitVec.getLsbD_reverse, Bool.and_assoc]

theorem reverse_xor (left right : BitVec width) :
    (left ^^^ right).reverse = left.reverse ^^^ right.reverse := by
  apply BitVec.eq_of_getLsbD_eq
  intro i inside
  rw [BitVec.getLsbD_reverse, BitVec.getMsbD_xor, BitVec.getLsbD_xor, BitVec.getLsbD_reverse,
    BitVec.getLsbD_reverse]

/-- Pushing is feeding, seen from the other end. -/
theorem push_reverse (poly reg : BitVec width) (bit : Bool) :
    push poly.reverse reg.reverse bit = (feed poly reg bit).reverse := by
  unfold push feed
  rw [BitVec.msb_reverse]
  split
  · rw [reverse_xor, reverse_shiftRight]
  · rw [reverse_shiftRight]

theorem pushAll_reverse (poly reg : BitVec width) (bits : List Bool) :
    pushAll poly.reverse reg.reverse bits = (feedAll poly reg bits).reverse := by
  induction bits generalizing reg with
  | nil => rfl
  | cons bit rest ih =>
      change pushAll poly.reverse (push poly.reverse reg.reverse bit) rest = _
      rw [push_reverse, ih, feedAll_cons]

/-! ### Words -/

theorem setWidth_xor {word : Nat} (left right : BitVec width) :
    (left ^^^ right).setWidth word = left.setWidth word ^^^ right.setWidth word := by
  apply BitVec.eq_of_getLsbD_eq
  intro i inside
  simp only [BitVec.getLsbD_setWidth, BitVec.getLsbD_xor, inside, decide_true, Bool.true_and]

theorem setWidth_shiftRight {word : Nat} (fits : width ≤ word) (reg : BitVec width) :
    (reg >>> 1).setWidth word = reg.setWidth word >>> 1 := by
  apply BitVec.eq_of_getLsbD_eq
  intro i inside
  simp only [BitVec.getLsbD_setWidth, BitVec.getLsbD_ushiftRight, inside, decide_true,
    Bool.true_and]
  by_cases last : 1 + i < word
  · rw [decide_eq_true last, Bool.true_and]
  · rw [decide_eq_false last, Bool.false_and]
    exact BitVec.getLsbD_of_ge reg (1 + i) (by omega)

/-- One step on a word and a register together takes the word's low bit. -/
theorem step_word {word : Nat} (fits : width ≤ word) (some' : 0 < width) (poly reg : BitVec width)
    (chunk : BitVec word) :
    step (poly.setWidth word) (chunk ^^^ reg.setWidth word) =
      (chunk >>> 1) ^^^ (feed poly reg (chunk.getLsbD 0)).setWidth word := by
  have low : (chunk ^^^ reg.setWidth word).getLsbD 0 = (reg.getLsbD 0 ^^ chunk.getLsbD 0) := by
    have inside : 0 < word := by omega
    rw [BitVec.getLsbD_xor, BitVec.getLsbD_setWidth, decide_eq_true inside, Bool.true_and,
      Bool.xor_comm]
  unfold step feed
  rw [low, BitVec.ushiftRight_xor_distrib, ← setWidth_shiftRight fits]
  split
  · rw [setWidth_xor, BitVec.xor_assoc]
  · rfl

/-- **A word folded into the register gives what its bits give one by one.** -/
theorem steps_word {word : Nat} (fits : width ≤ word) (some' : 0 < width) (poly reg : BitVec width)
    (chunk : BitVec word) (count : Nat) :
    steps (poly.setWidth word) count (chunk ^^^ reg.setWidth word) =
      (chunk >>> count) ^^^
        (feedAll poly reg ((List.range count).map chunk.getLsbD)).setWidth word := by
  induction count generalizing reg chunk with
  | zero =>
      rw [BitVec.ushiftRight_zero]
      rfl
  | succ count ih =>
      have bits : (List.range (count + 1)).map chunk.getLsbD =
          chunk.getLsbD 0 :: (List.range count).map (chunk >>> 1).getLsbD := by
        rw [List.range_succ_eq_map, List.map_cons, List.map_map]
        congr 1
        apply List.map_congr_left
        intro i _
        rw [BitVec.getLsbD_ushiftRight, Nat.add_comm]
        rfl
      unfold steps
      rw [step_word fits some', ih, bits, feedAll_cons, ← BitVec.shiftRight_add,
        Nat.add_comm]

/-! ### No state is reached from two -/

section

variable {poly : BitVec width} (top : poly.msb = true)

include top

/-- The bit that leaves shows in the bit that comes in. -/
theorem feed_msb (reg : BitVec width) (bit : Bool) :
    (feed poly reg bit).msb = (reg.getLsbD 0 ^^ bit) := by
  have shifted : (reg >>> 1).msb = false := by
    rw [BitVec.msb_ushiftRight]
    rfl
  unfold feed
  split
  · rename_i low
    rw [BitVec.msb_xor, shifted, top, low]
    rfl
  · rename_i low
    rw [shifted]
    exact ((Bool.not_eq_true _).mp low).symm

theorem feed_injective {bit : Bool} {left right : BitVec width}
    (same : feed poly left bit = feed poly right bit) : left = right := by
  have leaves : (left.getLsbD 0 ^^ bit) = (right.getLsbD 0 ^^ bit) := by
    rw [← feed_msb top left, ← feed_msb top right, same]
  have low : left.getLsbD 0 = right.getLsbD 0 := Bool.xor_left_inj.mp leaves
  have high : left >>> 1 = right >>> 1 := by
    unfold feed at same
    rw [low] at same
    split at same
    · exact (BitVec.xor_left_inj poly).mp same
    · exact same
  apply BitVec.eq_of_getLsbD_eq
  intro i _inside
  cases i with
  | zero => exact low
  | succ i =>
      have bit := congrArg (fun reg => reg.getLsbD i) high
      simp only [BitVec.getLsbD_ushiftRight] at bit
      rw [Nat.add_comm] at bit
      exact bit

theorem feedAll_injective {bits : List Bool} {left right : BitVec width}
    (same : feedAll poly left bits = feedAll poly right bits) : left = right := by
  induction bits generalizing left right with
  | nil => exact same
  | cons bit rest ih => exact feed_injective top (ih same)

theorem steps_injective (count : Nat) {left right : BitVec width}
    (same : steps poly count left = steps poly count right) : left = right := by
  have step_feed (reg : BitVec width) : step poly reg = feed poly reg false := by
    unfold step feed
    rw [Bool.xor_false]
  induction count generalizing left right with
  | zero => exact same
  | succ count ih =>
      have stepped := ih same
      rw [step_feed, step_feed] at stepped
      exact feed_injective top stepped

end

end Crc

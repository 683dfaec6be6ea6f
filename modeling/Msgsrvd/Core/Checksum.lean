/-
The wide checksum loop is the bitwise CRC-32C.
-/

import Msgsrvd.Core.Crc32c
import Msgsrvd.Lib.Crc

namespace Msgsrvd

open Bytestring

/-! ### Bits of a message -/

/-- Each byte's lowest bit first. -/
def bitsOf (bytes : Bytes) : List Bool :=
  bytes.flatMap (fun byte => (List.range 8).map byte.toNat.testBit)

@[simp] theorem bitsOf_nil : bitsOf [] = [] := rfl

theorem bitsOf_cons (byte : UInt8) (rest : Bytes) :
    bitsOf (byte :: rest) = (List.range 8).map byte.toNat.testBit ++ bitsOf rest := rfl

theorem bitsOf_append (front back : Bytes) : bitsOf (front ++ back) = bitsOf front ++ bitsOf back :=
  List.flatMap_append

/-- The bits of a little-endian word are its bytes' bits. -/
theorem bits_ofLe (bytes : Bytes) :
    (List.range (8 * bytes.length)).map (ofLe bytes).testBit = bitsOf bytes := by
  induction bytes with
  | nil => rfl
  | cons byte rest ih =>
      have low := byte.toNat_lt
      have bit (i : Nat) : (ofLe (byte :: rest)).testBit i =
          if i < 8 then byte.toNat.testBit i else (ofLe rest).testBit (i - 8) := by
        rw [ofLe, Nat.add_comm]
        exact Nat.testBit_two_pow_mul_add (ofLe rest) low i
      have whole : 8 * (byte :: rest).length = 8 + 8 * rest.length := by
        rw [List.length_cons]
        omega
      rw [bitsOf_cons, whole, List.range_add, List.map_append, List.map_map, ← ih]
      congr 1
      · apply List.map_congr_left
        intro i inside
        rw [bit, if_pos (List.mem_range.mp inside)]
      · apply List.map_congr_left
        intro i _inside
        rw [Function.comp_apply, bit, if_neg (by omega), Nat.add_sub_cancel_left]

/-! ### The instructions -/

theorem crcBits_steps {width : Nat} (count : Nat) (reg : BitVec width) :
    crcBits count reg = Crc.steps (crc32cPoly.setWidth width) count reg := by
  induction count generalizing reg with
  | zero => rfl
  | succ count ih => exact ih (crcBit reg)

/-- A little-endian word of these bytes, folded in as the bits of the bytes. -/
theorem crcBits_feed {width : Nat} (fits : 32 ≤ width) (crc : BitVec 32) (bytes : Bytes)
    (short : 8 * bytes.length ≤ width) :
    crcBits (8 * bytes.length) (BitVec.ofNat width (ofLe bytes) ^^^ crc.setWidth width) =
      (Crc.feedAll crc32cPoly crc (bitsOf bytes)).setWidth width := by
  have small : ofLe bytes < 2 ^ (8 * bytes.length) := by
    rw [Nat.pow_mul]
    exact ofLe_lt bytes
  have gone : (BitVec.ofNat width (ofLe bytes)) >>> (8 * bytes.length) = BitVec.ofNat width 0 := by
    apply BitVec.eq_of_toNat_eq
    rw [BitVec.toNat_ushiftRight, BitVec.toNat_ofNat, Nat.shiftRight_eq_div_pow]
    have whole : ofLe bytes % 2 ^ width = ofLe bytes :=
      Nat.mod_eq_of_lt (Nat.lt_of_lt_of_le small (Nat.pow_le_pow_right (by decide) short))
    rw [whole, Nat.div_eq_of_lt small]
    rfl
  have bits : (List.range (8 * bytes.length)).map (BitVec.ofNat width (ofLe bytes)).getLsbD =
      bitsOf bytes := by
    rw [← bits_ofLe]
    apply List.map_congr_left
    intro i inside
    have below := List.mem_range.mp inside
    rw [BitVec.getLsbD_ofNat, decide_eq_true (by omega), Bool.true_and]
  rw [crcBits_steps, Crc.steps_word fits (by decide), gone, bits, BitVec.zero_xor]

theorem crc32qi_feed (crc : BitVec 32) (byte : UInt8) :
    crc32qi crc byte = Crc.feedAll crc32cPoly crc (bitsOf [byte]) := by
  have folded := @crcBits_feed 32 (Nat.le_refl _) crc [byte] (show 8 * 1 ≤ 32 by decide)
  have word : ofLe [byte] = byte.toNat := by
    unfold ofLe ofLe
    omega
  rw [word, BitVec.setWidth_eq, BitVec.setWidth_eq, BitVec.xor_comm] at folded
  exact folded

theorem crc32di_feed (crc : BitVec 32) (bytes : Bytes) (eight : bytes.length = 8) :
    (crc32di crc (BitVec.ofNat 64 (ofLe bytes))).setWidth 32 =
      Crc.feedAll crc32cPoly crc (bitsOf bytes) := by
  have folded := @crcBits_feed 64 (by decide) crc bytes (by omega)
  rw [eight] at folded
  unfold crc32di
  rw [show (64 : Nat) = 8 * 8 from rfl, folded, BitVec.setWidth_setWidth_of_le _ (by decide),
    BitVec.setWidth_eq]

/-! ### The loop -/

theorem crc32cLoop_feed (c : BitVec 32) (buf : Bytes) :
    crc32cLoop c buf = Crc.feedAll crc32cPoly c (bitsOf buf) := by
  induction c, buf using crc32cLoop.induct with
  | case1 c b0 b1 b2 b3 b4 b5 b6 b7 rest ih =>
      have split : b0 :: b1 :: b2 :: b3 :: b4 :: b5 :: b6 :: b7 :: rest =
          [b0, b1, b2, b3, b4, b5, b6, b7] ++ rest := rfl
      rw [crc32cLoop, ih, crc32di_feed c _ rfl, split, bitsOf_append, Crc.feedAll_append]
  | case2 c byte rest short ih =>
      have split : byte :: rest = [byte] ++ rest := rfl
      rw [crc32cLoop, ih, crc32qi_feed, split, bitsOf_append, Crc.feedAll_append]
      exact short
  | case3 c => rfl

theorem crc32c_feed (crc : BitVec 32) (buf : Bytes) :
    crc32c crc buf = ~~~(Crc.feedAll crc32cPoly (~~~crc) (bitsOf buf)) := by
  unfold crc32c
  split
  · rename_i empty
    rw [empty, bitsOf_nil, Crc.feedAll_nil, BitVec.not_not]
  · rw [crc32cLoop_feed]

/-- CRC-32C one bit at a time: the polynomial as it is written, message and remainder
reflected, the register inverted before and after. -/
def crc32cBitwise (crc : BitVec 32) (buf : Bytes) : BitVec 32 :=
  ~~~(Crc.pushAll 0x1EDC6F41#32 (~~~crc).reverse (bitsOf buf)).reverse

/-- **The wide loop computes the bitwise CRC-32C, and chunks chain.** -/
theorem crc32c_bitwise :
    (∀ crc buf, crc32c crc buf = crc32cBitwise crc buf) ∧
      ∀ crc front back, crc32c (crc32c crc front) back = crc32c crc (front ++ back) := by
  constructor
  · intro crc buf
    have poly : (0x1EDC6F41#32) = crc32cPoly.reverse := by decide +kernel
    unfold crc32cBitwise
    rw [crc32c_feed, poly, Crc.pushAll_reverse, BitVec.reverse_reverse_eq]
  · intro crc front back
    rw [crc32c_feed, crc32c_feed, crc32c_feed, BitVec.not_not, bitsOf_append, Crc.feedAll_append]

end Msgsrvd

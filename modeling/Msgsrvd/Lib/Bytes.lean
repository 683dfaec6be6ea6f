/-
Little-endian fields of byte strings.

A fixed-width field is written by `le` and read back by `ofLe`.  The window of a
byte string at an offset is `slice`; it is what a memcpy out of a buffer gives.
-/

import Mathlib.Data.List.Basic
import Mathlib.Tactic.Ring

namespace Bytestring

abbrev Bytes := List UInt8

/-- The `width` little-endian bytes of a number; higher bits are dropped. -/
def le : Nat → Nat → Bytes
  | 0, _ => []
  | width + 1, value => UInt8.ofNat (value % 256) :: le width (value / 256)

/-- The number whose little-endian bytes are given. -/
def ofLe : Bytes → Nat
  | [] => 0
  | byte :: rest => byte.toNat + 256 * ofLe rest

@[simp] theorem length_le (width value : Nat) : (le width value).length = width := by
  induction width generalizing value with
  | zero => rfl
  | succ width ih => simp only [le, List.length_cons, ih]

theorem ofLe_le (width value : Nat) : ofLe (le width value) = value % 256 ^ width := by
  induction width generalizing value with
  | zero => simp only [le, ofLe, Nat.pow_zero, Nat.mod_one]
  | succ width ih =>
      have small : value % 256 < 256 := Nat.mod_lt value (by decide)
      have head : (UInt8.ofNat (value % 256)).toNat = value % 256 := by
        rw [UInt8.toNat_ofNat']
        exact Nat.mod_eq_of_lt small
      rw [le, ofLe, ih, head, Nat.pow_succ, Nat.mul_comm (256 ^ width) 256, Nat.mod_mul]

theorem ofLe_le_of_lt {width value : Nat} (fits : value < 256 ^ width) :
    ofLe (le width value) = value := by
  rw [ofLe_le, Nat.mod_eq_of_lt fits]

theorem ofLe_lt (bytes : Bytes) : ofLe bytes < 256 ^ bytes.length := by
  induction bytes with
  | nil => simp only [ofLe, List.length_nil, Nat.pow_zero, Nat.lt_one_iff]
  | cons byte rest ih =>
      have bounded := byte.toNat_lt
      rw [ofLe, List.length_cons, Nat.pow_succ]
      omega

theorem le_ofLe (bytes : Bytes) : le bytes.length (ofLe bytes) = bytes := by
  induction bytes with
  | nil => rfl
  | cons byte rest ih =>
      have bounded := byte.toNat_lt
      have low : (byte.toNat + 256 * ofLe rest) % 256 = byte.toNat := by omega
      have high : (byte.toNat + 256 * ofLe rest) / 256 = ofLe rest := by omega
      rw [List.length_cons, ofLe, le, low, high, ih, UInt8.ofNat_toNat]

/-- A field keeps nothing of what is above its width. -/
theorem le_mod (width value : Nat) : le width (value % 256 ^ width) = le width value := by
  have same := le_ofLe (le width value)
  rw [length_le, ofLe_le] at same
  exact same

/-- The `width` bytes at `offset`, fewer when the string ends before that. -/
def slice (bytes : Bytes) (offset width : Nat) : Bytes :=
  (bytes.drop offset).take width

theorem length_slice (bytes : Bytes) (offset width : Nat) :
    (slice bytes offset width).length = min width (bytes.length - offset) := by
  simp only [slice, List.length_take, List.length_drop]

theorem slice_append_left (front back : Bytes) (offset width : Nat)
    (inside : offset + width ≤ front.length) :
    slice (front ++ back) offset width = slice front offset width := by
  unfold slice
  rw [List.drop_append_of_le_length (by omega), List.take_append_of_le_length]
  rw [List.length_drop]
  omega

theorem slice_append_right (front back : Bytes) (offset width : Nat)
    (outside : front.length ≤ offset) :
    slice (front ++ back) offset width = slice back (offset - front.length) width := by
  unfold slice
  rw [List.drop_append, List.drop_of_length_le outside, List.nil_append]

theorem slice_front (field back : Bytes) :
    slice (field ++ back) 0 field.length = field := by
  unfold slice
  rw [List.drop_zero, List.take_left']
  rfl

/-- Reading a field that follows `front` and precedes `back`. -/
theorem slice_field (front field back : Bytes) (offset width : Nat)
    (at_front : offset = front.length) (is_field : width = field.length) :
    slice (front ++ (field ++ back)) offset width = field := by
  subst at_front is_field
  rw [slice_append_right _ _ _ _ (Nat.le_refl _), Nat.sub_self, slice_front]

theorem slice_take (bytes : Bytes) (offset width count : Nat)
    (inside : offset + width ≤ count) :
    slice (bytes.take count) offset width = slice bytes offset width := by
  unfold slice
  rw [List.drop_take, List.take_take]
  congr 1
  omega

end Bytestring

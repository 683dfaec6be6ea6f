/-
Decimal numbers in ASCII, and the word that a guarded multiply-and-add reads from them.

A reader that refuses once the word read so far is above the largest tenth still lets the
last digit carry the word past its end.  What it then reads is the number modulo the size
of the word, and it goes on from there.
-/

import Mathlib.Data.List.Induction
import Mathlib.Tactic.Ring

namespace Decimal

variable {modulus : Nat}

def isDigit (c : UInt8) : Bool := decide (48 ≤ c.toNat) && decide (c.toNat ≤ 57)

def digitOf (c : UInt8) : Nat := c.toNat - 48

def Digits (s : List UInt8) : Prop := ∀ c ∈ s, isDigit c = true

/-- The number read when `read` comes before the digits. -/
def valueFrom (read : Nat) (s : List UInt8) : Nat :=
  s.foldl (fun read c => read * 10 + digitOf c) read

def value (s : List UInt8) : Nat := valueFrom 0 s

theorem valueFrom_nil (read : Nat) : valueFrom read [] = read := rfl

theorem valueFrom_cons (read : Nat) (c : UInt8) (rest : List UInt8) :
    valueFrom read (c :: rest) = valueFrom (read * 10 + digitOf c) rest := by
  rw [valueFrom, List.foldl_cons, valueFrom]

theorem Digits.cons {c : UInt8} {rest : List UInt8} :
    Digits (c :: rest) ↔ isDigit c = true ∧ Digits rest := List.forall_mem_cons

theorem digitOf_lt {c : UInt8} (is : isDigit c = true) : digitOf c < 10 := by
  unfold isDigit at is
  rw [Bool.and_eq_true, decide_eq_true_eq, decide_eq_true_eq] at is
  unfold digitOf
  omega

theorem valueFrom_append (read : Nat) (front back : List UInt8) :
    valueFrom read (front ++ back) = valueFrom (valueFrom read front) back := by
  induction front generalizing read with
  | nil => rfl
  | cons c rest ih => rw [List.cons_append, valueFrom_cons, valueFrom_cons, ih]

theorem valueFrom_le (read : Nat) (s : List UInt8) : read ≤ valueFrom read s := by
  induction s generalizing read with
  | nil => exact Nat.le_refl read
  | cons c rest ih =>
      have step := ih (read * 10 + digitOf c)
      rw [valueFrom_cons]
      omega

theorem valueFrom_mod (read : Nat) (s : List UInt8) :
    valueFrom (read % modulus) s % modulus = valueFrom read s % modulus := by
  induction s generalizing read with
  | nil => exact Nat.mod_mod read modulus
  | cons c rest ih =>
      have carried : (read % modulus * 10 + digitOf c) % modulus =
          (read * 10 + digitOf c) % modulus := by
        rw [Nat.add_mod, Nat.mod_mul_mod, ← Nat.add_mod]
      rw [valueFrom_cons, valueFrom_cons, ← ih, carried, ih]

theorem valueFrom_eq (read : Nat) (s : List UInt8) :
    valueFrom read s = read * 10 ^ s.length + value s := by
  induction s generalizing read with
  | nil => rw [value, valueFrom_nil, valueFrom_nil, List.length_nil, Nat.pow_zero, Nat.mul_one,
      Nat.add_zero]
  | cons c rest ih =>
      rw [value, valueFrom_cons, valueFrom_cons, ih, ih (0 * 10 + digitOf c), List.length_cons, Nat.pow_succ]
      ring

theorem value_lt {s : List UInt8} (digits : Digits s) : value s < 10 ^ s.length := by
  induction s with
  | nil => exact Nat.one_pos
  | cons c rest ih =>
      obtain ⟨is, others⟩ := Digits.cons.mp digits
      have low := digitOf_lt is
      have room := ih others
      have scaled : digitOf c * 10 ^ rest.length ≤ 9 * 10 ^ rest.length :=
        Nat.mul_le_mul_right _ (by omega)
      rw [value, valueFrom_cons, Nat.zero_mul, Nat.zero_add, valueFrom_eq, List.length_cons,
        Nat.pow_succ]
      omega

/-! ### The guarded reader -/

/-- A word of so many values; it is refused when it is above the largest tenth before a
digit. -/
def readFrom (modulus : Nat) : Nat → List UInt8 → Option Nat
  | word, [] => some word
  | word, c :: rest =>
      if isDigit c = true then
        if word > (modulus - 1) / 10 then none
        else readFrom modulus ((word * 10 + digitOf c) % modulus) rest
      else none

/-- Before none of the digits has the word read so far been refused. -/
def Admitted (modulus read : Nat) (s : List UInt8) : Prop :=
  ∀ front c back, s = front ++ c :: back → valueFrom read front % modulus ≤ (modulus - 1) / 10

theorem Admitted.cons {read : Nat} {c : UInt8} {rest : List UInt8} :
    Admitted modulus read (c :: rest) ↔ read % modulus ≤ (modulus - 1) / 10 ∧
      Admitted modulus (read * 10 + digitOf c) rest := by
  constructor
  · intro admitted
    exact ⟨admitted [] c rest rfl,
      fun front c' back split => admitted (c :: front) c' back (by rw [split, List.cons_append])⟩
  · rintro ⟨first, others⟩ front c' back split
    cases front with
    | nil => exact first
    | cons head front =>
        rw [List.cons_append, List.cons.injEq] at split
        rw [← split.1]
        exact others front c' back split.2

theorem Admitted.mod {read : Nat} {s : List UInt8} :
    Admitted modulus (read % modulus) s ↔ Admitted modulus read s := by
  unfold Admitted
  simp only [valueFrom_mod]

/-- The reader returns the number modulo the size of the word, whenever it returns one. -/
theorem readFrom_iff {word : Nat} (s : List UInt8) (fits : word < modulus) (result : Nat) :
    readFrom modulus word s = some result ↔
      Digits s ∧ Admitted modulus word s ∧ valueFrom word s % modulus = result := by
  induction s generalizing word with
  | nil =>
      have same : valueFrom word [] % modulus = word := Nat.mod_eq_of_lt fits
      rw [same, readFrom, Option.some.injEq]
      constructor
      · intro same
        refine ⟨fun c inside => absurd inside List.not_mem_nil, fun front c back split => ?_, same⟩
        have some' := List.append_ne_nil_of_right_ne_nil front (List.cons_ne_nil c back)
        exact absurd split.symm some'
      · exact fun all => all.2.2
  | cons c rest ih =>
      rw [Digits.cons, Admitted.cons, readFrom, Nat.mod_eq_of_lt fits]
      by_cases is : isDigit c = true
      · rw [if_pos is]
        by_cases high : word > (modulus - 1) / 10
        · rw [if_pos high]
          constructor
          · exact fun none' => nomatch none'
          · rintro ⟨_digits, ⟨first, _others⟩, _same⟩
            omega
        · rw [if_neg high, ih (Nat.mod_lt _ (by omega)), Admitted.mod, valueFrom_mod, valueFrom_cons]
          constructor
          · rintro ⟨digits, admitted, same⟩
            exact ⟨⟨is, digits⟩, ⟨by omega, admitted⟩, same⟩
          · rintro ⟨⟨_is, digits⟩, ⟨_first, admitted⟩, same⟩
            exact ⟨digits, admitted, same⟩
      · rw [if_neg is]
        constructor
        · exact fun none' => nomatch none'
        · exact fun all => absurd all.1.1 is

/-- A number that fits the word is never refused. -/
theorem admitted_of_fits {read : Nat} {s : List UInt8} (fits : valueFrom read s < modulus) :
    Admitted modulus read s := by
  rintro front c back rfl
  rw [valueFrom_append, valueFrom_cons] at fits
  have grows := valueFrom_le (valueFrom read front * 10 + digitOf c) back
  have low := Nat.mod_le (valueFrom read front) modulus
  omega

theorem readFrom_fits {s : List UInt8} (digits : Digits s) (fits : value s < modulus) :
    readFrom modulus 0 s = some (value s) :=
  (readFrom_iff s (Nat.zero_lt_of_lt fits) _).mpr
    ⟨digits, admitted_of_fits fits, Nat.mod_eq_of_lt fits⟩

/-- The digits of a number too large for the word that are read all the same. -/
def Wraps (modulus : Nat) (s : List UInt8) : Prop :=
  Digits s ∧ modulus ≤ value s ∧ Admitted modulus 0 s

/-- The reader is exact on every string but those. -/
theorem readFrom_exact (positive : 0 < modulus) (s : List UInt8) :
    (∀ result, readFrom modulus 0 s = some result ↔
      Digits s ∧ value s = result ∧ result < modulus) ↔ ¬ Wraps modulus s := by
  constructor
  · rintro exact' ⟨digits, high, admitted⟩
    have read := (readFrom_iff s positive _).mpr ⟨digits, admitted, rfl⟩
    obtain ⟨_digits, same, low⟩ := (exact' _).mp read
    omega
  · intro plain result
    rw [readFrom_iff s positive result]
    constructor
    · rintro ⟨digits, admitted, same⟩
      have low : value s < modulus := by
        by_contra high
        exact plain ⟨digits, by omega, admitted⟩
      have kept : value s % modulus = result := same
      rw [Nat.mod_eq_of_lt low] at kept
      exact ⟨digits, kept, by omega⟩
    · rintro ⟨digits, same, low⟩
      refine ⟨digits, admitted_of_fits (show value s < modulus by omega), ?_⟩
      change value s % modulus = result
      rw [same, Nat.mod_eq_of_lt low]

/-! ### A fixed number of digits -/

/-- `'0' + v % 10` -/
def digit (v : Nat) : UInt8 := UInt8.ofNat (48 + v % 10)

/-- The lowest so many digits of a number. -/
def fixed : Nat → Nat → List UInt8
  | 0, _ => []
  | width + 1, v => fixed width (v / 10) ++ [digit v]

theorem digit_toNat (v : Nat) : (digit v).toNat = 48 + v % 10 := by
  unfold digit
  rw [UInt8.toNat_ofNat']
  omega

theorem digit_isDigit (v : Nat) : isDigit (digit v) = true := by
  unfold isDigit
  rw [digit_toNat, Bool.and_eq_true, decide_eq_true_eq, decide_eq_true_eq]
  omega

theorem digitOf_digit (v : Nat) : digitOf (digit v) = v % 10 := by
  unfold digitOf
  rw [digit_toNat]
  omega

theorem digit_digitOf {c : UInt8} (is : isDigit c = true) (tens : Nat) :
    digit (tens * 10 + digitOf c) = c := by
  unfold isDigit at is
  rw [Bool.and_eq_true, decide_eq_true_eq, decide_eq_true_eq] at is
  apply UInt8.toNat_inj.mp
  rw [digit_toNat]
  unfold digitOf
  omega

theorem fixed_length (width v : Nat) : (fixed width v).length = width := by
  induction width generalizing v with
  | zero => rfl
  | succ width ih => rw [fixed, List.length_append, ih, List.length_singleton]

theorem fixed_digits (width v : Nat) : Digits (fixed width v) := by
  induction width generalizing v with
  | zero => exact fun _ none => nomatch none
  | succ width ih =>
      intro c inside
      rw [fixed, List.mem_append, List.mem_singleton] at inside
      rcases inside with front | last
      · exact ih _ c front
      · rw [last]
        exact digit_isDigit v

theorem value_concat (front : List UInt8) (c : UInt8) :
    value (front ++ [c]) = value front * 10 + digitOf c := valueFrom_append 0 front [c]

theorem value_fixed (width v : Nat) : value (fixed width v) = v % 10 ^ width := by
  induction width generalizing v with
  | zero => rw [fixed, Nat.pow_zero, Nat.mod_one]; rfl
  | succ width ih =>
      rw [fixed, value_concat, ih, digitOf_digit, Nat.pow_succ, Nat.mul_comm (10 ^ width) 10,
        Nat.mod_mul]
      ring

theorem fixed_value {s : List UInt8} (digits : Digits s) : fixed s.length (value s) = s := by
  induction s using List.reverseRecOn with
  | nil => rfl
  | append_singleton front c ih =>
      have is : isDigit c = true := digits c (List.mem_append_right _ (List.mem_singleton_self c))
      have low := digitOf_lt is
      have tens : (value front * 10 + digitOf c) / 10 = value front := by omega
      rw [value_concat, List.length_append, List.length_singleton, fixed, tens,
        digit_digitOf is, ih (fun c' inside => digits c' (List.mem_append_left _ inside))]

end Decimal

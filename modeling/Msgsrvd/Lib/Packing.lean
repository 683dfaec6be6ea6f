/-
Pieces put one after another into a fixed room, where a piece that does not fit is
passed over and the next one is tried.
-/

import Mathlib.Data.List.Count
import Mathlib.Algebra.BigOperators.Group.List.Basic
import Mathlib.Algebra.Ring.Nat

namespace Packing

variable {α : Type}

/-- `piece` after `held`, unless there is no room for it. -/
def put (room : Nat) (held piece : List α) : List α :=
  if piece.length ≤ room - held.length then held ++ piece else held

def pack (room : Nat) (held : List α) (pieces : List (List α)) : List α :=
  pieces.foldl (put room) held

/-- The room that is left when sizes are taken from it in order, each that still fits. -/
def leftover : Nat → List Nat → Nat
  | room, [] => room
  | room, size :: sizes => leftover (if size ≤ room then room - size else room) sizes

theorem pack_nil (room : Nat) (held : List α) : pack room held [] = held := rfl

theorem pack_cons (room : Nat) (held piece : List α) (pieces : List (List α)) :
    pack room held (piece :: pieces) = pack room (put room held piece) pieces := rfl

theorem pack_append (room : Nat) (held : List α) (front back : List (List α)) :
    pack room held (front ++ back) = pack room (pack room held front) back := by
  unfold pack
  rw [List.foldl_append]

theorem leftover_append (front back : List Nat) (room : Nat) :
    leftover room (front ++ back) = leftover (leftover room front) back := by
  induction front generalizing room with
  | nil => rfl
  | cons size front hypothesis => exact hypothesis _

/-! ### How much is held -/

theorem put_length {room : Nat} {held : List α} (fits : held.length ≤ room) (piece : List α) :
    (put room held piece).length ≤ room ∧
      room - (put room held piece).length =
        leftover (room - held.length) [piece.length] := by
  unfold put
  simp only [leftover]
  split
  · rw [List.length_append]
    omega
  · exact ⟨fits, rfl⟩

theorem pack_length {room : Nat} (pieces : List (List α)) {held : List α}
    (fits : held.length ≤ room) :
    (pack room held pieces).length ≤ room ∧
      room - (pack room held pieces).length =
        leftover (room - held.length) (pieces.map List.length) := by
  induction pieces generalizing held with
  | nil => exact ⟨fits, rfl⟩
  | cons piece pieces hypothesis =>
      obtain ⟨within, left⟩ := put_length fits piece
      obtain ⟨packed, rest⟩ := hypothesis within
      rw [pack_cons]
      refine ⟨packed, ?_⟩
      rw [rest, left]
      rfl

/-- Where everything fits, everything is held. -/
theorem pack_whole {room : Nat} (pieces : List (List α)) {held : List α}
    (fits : held.length + pieces.flatten.length ≤ room) :
    pack room held pieces = held ++ pieces.flatten := by
  induction pieces generalizing held with
  | nil => rw [pack_nil, List.flatten_nil, List.append_nil]
  | cons piece pieces hypothesis =>
      rw [List.flatten_cons, List.length_append] at fits
      have placed : put room held piece = held ++ piece := by
        unfold put
        rw [if_pos (by omega)]
      rw [pack_cons, placed, hypothesis (by rw [List.length_append]; omega), List.flatten_cons,
        List.append_assoc]

/-- What a last piece of one item leaves room for was not full before it. -/
theorem pack_last {room : Nat} {held : List α} {pieces : List (List α)} {item : α}
    (left : (pack room held (pieces ++ [[item]])).length < room) :
    pack room held (pieces ++ [[item]]) = pack room held pieces ++ [item] := by
  rw [pack_append, pack_cons, pack_nil] at left ⊢
  unfold put at left ⊢
  rw [List.length_singleton] at left ⊢
  by_cases fits : 1 ≤ room - (pack room held pieces).length
  · rw [if_pos fits]
  · rw [if_neg fits] at left
    omega

/-! ### What is left -/

theorem leftover_le (sizes : List Nat) (room : Nat) : leftover room sizes ≤ room := by
  induction sizes generalizing room with
  | nil => exact Nat.le_refl room
  | cons size sizes hypothesis =>
      have shrunk := hypothesis (if size ≤ room then room - size else room)
      simp only [leftover]
      split at shrunk
      · rename_i fits
        rw [if_pos fits]
        omega
      · rename_i large
        rw [if_neg large]
        exact shrunk

theorem leftover_sum (sizes : List Nat) {room : Nat} (fits : sizes.sum ≤ room) :
    leftover room sizes = room - sizes.sum := by
  induction sizes generalizing room with
  | nil => rfl
  | cons size sizes hypothesis =>
      rw [List.sum_cons] at fits ⊢
      simp only [leftover]
      rw [if_pos (by omega), hypothesis (by omega)]
      omega

/-- Every size of one takes its share for as long as there is room. -/
theorem leftover_ones (sizes : List Nat) (room : Nat) :
    leftover room sizes ≤ room - sizes.count 1 := by
  induction sizes generalizing room with
  | nil => exact Nat.le_refl room
  | cons size sizes hypothesis =>
      have shrunk := hypothesis (if size ≤ room then room - size else room)
      have kept := leftover_le sizes (if size ≤ room then room - size else room)
      simp only [leftover]
      rw [List.count_cons]
      by_cases one : size = 1
      · subst one
        simp only [beq_self_eq_true, if_true]
        by_cases fits : 1 ≤ room
        · rw [if_pos fits] at shrunk ⊢
          omega
        · rw [if_neg fits] at shrunk ⊢
          omega
      · simp only [beq_iff_eq, one, if_false, Nat.add_zero]
        refine Nat.le_trans shrunk (Nat.sub_le_sub_right ?_ _)
        split <;> omega

/-- Once something has been passed over, less is left than the largest size. -/
theorem leftover_short {bound : Nat} (sizes : List Nat) {room : Nat}
    (bounded : ∀ size ∈ sizes, size ≤ bound) (short : room < sizes.sum) :
    leftover room sizes < bound := by
  induction sizes generalizing room with
  | nil => exact absurd short (Nat.not_lt_zero room)
  | cons size sizes hypothesis =>
      rw [List.sum_cons] at short
      have small := bounded size List.mem_cons_self
      simp only [leftover]
      by_cases fits : size ≤ room
      · rw [if_pos fits]
        exact hypothesis (fun other inside => bounded other (List.mem_cons_of_mem _ inside))
          (by omega)
      · rw [if_neg fits]
        have kept := leftover_le sizes room
        omega

end Packing

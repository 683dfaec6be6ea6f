/-
Values counted into buckets, each value in the first whose bound it does not pass, and what
the counts add up to.
-/

import Mathlib.Data.List.Basic
import Mathlib.Order.Defs.LinearOrder
import Mathlib.Tactic.Ring

namespace Histogram

variable {α : Type*} [LinearOrder α] {bounds : List α}

/-- The bucket of a value; past the last bound it is one more. -/
def bucketOf (bounds : List α) (value : α) : Nat :=
  bounds.findIdx (fun bound => decide (value ≤ bound))

/-- How many of the values are in a bucket. -/
def landed (bounds : List α) (values : List α) (i : Nat) : Nat :=
  values.countP (fun value => decide (bucketOf bounds value = i))

/-- How many are in the first `count` buckets. -/
def upTo (bounds : List α) (values : List α) (count : Nat) : Nat :=
  ((List.range count).map (landed bounds values)).sum

theorem bucketOf_le_length (bounds : List α) (value : α) :
    bucketOf bounds value ≤ bounds.length := List.findIdx_le_length

/-- Where the bounds grow, the buckets up to one have what does not pass its bound. -/
theorem bucketOf_le (sorted : bounds.Pairwise (· ≤ ·)) {i : Nat} (inside : i < bounds.length)
    (value : α) : bucketOf bounds value ≤ i ↔ value ≤ bounds[i] := by
  constructor
  · intro below
    have within : bucketOf bounds value < bounds.length := by omega
    have found : value ≤ bounds[bucketOf bounds value] := of_decide_eq_true
      (List.findIdx_getElem (p := fun bound => decide (value ≤ bound)) (w := within))
    obtain same | less := Nat.eq_or_lt_of_le below
    · simpa only [same] using found
    · exact found.trans (List.pairwise_iff_getElem.mp sorted _ _ within inside less)
  · intro short
    by_contra above
    have later : i < bounds.findIdx (fun bound => decide (value ≤ bound)) := Nat.lt_of_not_le above
    exact absurd (decide_eq_true short) (by simpa using List.not_of_lt_findIdx later)

theorem landed_cons (value : α) (values : List α) (i : Nat) :
    landed bounds (value :: values) i =
      landed bounds values i + if bucketOf bounds value = i then 1 else 0 := by
  unfold landed
  rw [List.countP_cons]
  simp only [decide_eq_true_eq]

theorem upTo_succ (bounds values : List α) (count : Nat) :
    upTo bounds values (count + 1) = upTo bounds values count + landed bounds values count := by
  unfold upTo
  rw [List.range_succ, List.map_append, List.sum_append, List.map_singleton, List.sum_singleton]

theorem countP_below_succ {β : Type*} (place : β → Nat) (values : List β) (count : Nat) :
    values.countP (fun value => decide (place value < count + 1)) =
      values.countP (fun value => decide (place value < count)) +
        values.countP (fun value => decide (place value = count)) := by
  induction values with
  | nil => rfl
  | cons value rest ih =>
      rw [List.countP_cons, List.countP_cons, List.countP_cons, ih]
      simp only [decide_eq_true_eq]
      split_ifs <;> omega

/-- What is in the first buckets has been counted once. -/
theorem upTo_countP (bounds values : List α) (count : Nat) :
    upTo bounds values count =
      values.countP (fun value => decide (bucketOf bounds value < count)) := by
  induction count with
  | zero =>
      have none' : values.countP (fun value => decide (bucketOf bounds value < 0)) = 0 :=
        List.countP_eq_zero.mpr (by simp)
      rw [none']
      rfl
  | succ count ih =>
      rw [upTo_succ, ih, countP_below_succ (bucketOf bounds)]
      rfl

/-- Up to a bound there are the values that do not pass it. -/
theorem upTo_bound (sorted : bounds.Pairwise (· ≤ ·)) {i : Nat} (inside : i < bounds.length)
    (values : List α) :
    upTo bounds values (i + 1) = values.countP (fun value => decide (value ≤ bounds[i])) := by
  rw [upTo_countP]
  refine List.countP_congr ?_
  intro value _
  rw [decide_eq_true_eq, decide_eq_true_eq, Nat.lt_succ_iff]
  exact bucketOf_le sorted inside value

/-- With the bucket past the last bound there are all of them. -/
theorem upTo_all (bounds values : List α) :
    upTo bounds values (bounds.length + 1) = values.length := by
  rw [upTo_countP, List.countP_eq_length]
  intro value _
  exact decide_eq_true (Nat.lt_succ_of_le (bucketOf_le_length bounds value))

end Histogram

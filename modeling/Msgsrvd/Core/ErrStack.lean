/-
The error stack: a fixed array of frames that is filled from its end by the origin and from
its front by the callers, and read back from the most recent frame to the origin.
-/

import Mathlib.Data.List.Basic
import Mathlib.Data.List.Induction

namespace Msgsrvd

def ERR_MAX_FRAMES : Nat := 8

inductive ErrDetail where
  | none
  | errno (value : Int)
  | fd (fd : Int)
  | offset (offset : Nat)
  | span (off len : Int)
  | int (value : Int)
  deriving DecidableEq, Repr

structure ErrFrame where
  file : Option String
  func : Option String
  line : Nat
  code : Int
  detail : ErrDetail
  deriving DecidableEq, Repr

/-- `err_t` -/
structure ErrStack where
  frames : List ErrFrame
  /-- frames filled from the front -/
  topCount : Nat
  /-- frames filled from the end -/
  bottomCount : Nat
  dropped : Nat
  deriving DecidableEq, Repr

def errInit : ErrStack where
  frames := List.replicate ERR_MAX_FRAMES ⟨none, none, 0, 0, .none⟩
  topCount := 0
  bottomCount := 0
  dropped := 0

def errPushFrame (e : ErrStack) (f : ErrFrame) : ErrStack :=
  let half := ERR_MAX_FRAMES / 2
  if e.topCount = 0 ∧ e.bottomCount = 0 then
    { e with frames := e.frames.set (ERR_MAX_FRAMES - 1) f, bottomCount := 1 }
  else if e.bottomCount < half then
    { e with
      frames := e.frames.set (ERR_MAX_FRAMES - 1 - e.bottomCount) f
      bottomCount := e.bottomCount + 1 }
  else if e.topCount < half then
    { e with frames := e.frames.set e.topCount f, topCount := e.topCount + 1 }
  else { e with frames := e.frames.set (half - 1) f, dropped := e.dropped + 1 }

def errFrameCount (e : ErrStack) : Nat := e.topCount + e.bottomCount

def errFrameAt (e : ErrStack) (idx : Int) : Option ErrFrame :=
  if idx < 0 then none
  else if idx < e.topCount then e.frames[idx.toNat]?
  else
    let idx := idx - e.topCount
    if idx < e.bottomCount then e.frames[(ERR_MAX_FRAMES - e.bottomCount + idx).toNat]? else none

def errPushAll (pushed : List ErrFrame) : ErrStack := pushed.foldl errPushFrame errInit

/-! ### Where the frames lie -/

/-- The first pushes lie at the end, the next at the front in the order in which they came,
and the most recent one over the last of these. -/
structure ErrStack.Stored (e : ErrStack) (pushed : List ErrFrame) : Prop where
  length : e.frames.length = 8
  bottom : e.bottomCount = min pushed.length 4
  top : e.topCount = min (pushed.length - 4) 4
  dropped : e.dropped = pushed.length - 8
  first : ∀ i < 4, i < pushed.length → e.frames[7 - i]? = pushed[i]?
  next : ∀ i < 3, i + 4 < pushed.length → e.frames[i]? = pushed[i + 4]?
  last : 8 ≤ pushed.length → e.frames[3]? = pushed[pushed.length - 1]?

theorem errInit_stored : errInit.Stored [] where
  length := rfl
  bottom := rfl
  top := rfl
  dropped := rfl
  first := fun i _few some' => absurd some' (Nat.not_lt_zero i)
  next := fun i _few some' => absurd some' (Nat.not_lt_zero _)
  last := fun many => absurd many (by decide)

/-- Where the next frame goes; the others stay where they are. -/
theorem ErrStack.Stored.placed {e e' : ErrStack} {pushed : List ErrFrame} (stored : e.Stored pushed)
    {f : ErrFrame} {place : Nat} (set : e'.frames = e.frames.set place f)
    (is : place = if pushed.length < 4 then 7 - pushed.length else min (pushed.length - 4) 3)
    (bottom : e'.bottomCount = min (pushed.length + 1) 4)
    (top : e'.topCount = min (pushed.length + 1 - 4) 4)
    (dropped : e'.dropped = pushed.length + 1 - 8) : e'.Stored (pushed ++ [f]) := by
  have length := stored.length
  have counted : (pushed ++ [f]).length = pushed.length + 1 := List.length_append
  have older {i : Nat} (old : i < pushed.length) : (pushed ++ [f])[i]? = pushed[i]? :=
    List.getElem?_append_left old
  have newest : (pushed ++ [f])[pushed.length]? = some f := List.getElem?_concat_length
  refine ⟨?_, by rw [counted, bottom], by rw [counted, top], by rw [counted, dropped], ?_, ?_, ?_⟩
  · rw [set, List.length_set, length]
  · intro i few some'
    rw [counted] at some'
    rw [set]
    by_cases this : i = pushed.length
    · rw [this, newest, show place = 7 - pushed.length by rw [is, if_pos (by omega)],
        List.getElem?_set_self (by omega)]
    · rw [List.getElem?_set_ne (by split at is <;> omega), older (by omega)]
      exact stored.first i few (by omega)
  · intro i few some'
    rw [counted] at some'
    rw [if_neg (by omega)] at is
    rw [set]
    by_cases this : i + 4 = pushed.length
    · rw [this, newest, show place = i by omega, List.getElem?_set_self (by omega)]
    · rw [List.getElem?_set_ne (by omega), older (by omega)]
      exact stored.next i few (by omega)
  · intro many
    rw [counted] at many ⊢
    rw [if_neg (by omega)] at is
    rw [set, Nat.add_sub_cancel, newest, show place = 3 by omega,
      List.getElem?_set_self (by omega)]

theorem ErrStack.Stored.push {e : ErrStack} {pushed : List ErrFrame} (stored : e.Stored pushed)
    (f : ErrFrame) : (errPushFrame e f).Stored (pushed ++ [f]) := by
  have bottom := stored.bottom
  have top := stored.top
  have dropped := stored.dropped
  unfold errPushFrame ERR_MAX_FRAMES
  simp only [Nat.reduceDiv, Nat.reduceSub]
  by_cases origin : e.topCount = 0 ∧ e.bottomCount = 0
  · rw [if_pos origin]
    exact stored.placed rfl (by split <;> omega) (by simp only; omega) (by simp only; omega)
      (by simp only; omega)
  · rw [if_neg origin]
    by_cases low : e.bottomCount < 4
    · rw [if_pos low]
      exact stored.placed rfl (by split <;> omega) (by simp only; omega) (by simp only; omega)
        (by simp only; omega)
    · rw [if_neg low]
      by_cases room : e.topCount < 4
      · rw [if_pos room]
        exact stored.placed rfl (by split <;> omega) (by simp only; omega) (by simp only; omega)
          (by simp only; omega)
      · rw [if_neg room]
        exact stored.placed rfl (by split <;> omega) (by simp only; omega) (by simp only; omega)
          (by simp only; omega)

theorem errPushAll_stored (pushed : List ErrFrame) : (errPushAll pushed).Stored pushed := by
  induction pushed using List.reverseRecOn with
  | nil => exact errInit_stored
  | append_singleton front f ih =>
      have split : errPushAll (front ++ [f]) = errPushFrame (errPushAll front) f := by
        unfold errPushAll
        rw [List.foldl_append]
        rfl
      rw [split]
      exact ih.push f

/-- Which push an index reads: past the fifth push the front is read oldest first. -/
theorem ErrStack.Stored.read {e : ErrStack} {pushed : List ErrFrame} (stored : e.Stored pushed)
    {idx : Nat} (within : idx < errFrameCount e) :
    errFrameAt e idx =
      if idx < e.topCount then if idx < 3 then pushed[idx + 4]? else pushed[pushed.length - 1]?
      else pushed[e.bottomCount - 1 - (idx - e.topCount)]? := by
  have bottom := stored.bottom
  have top := stored.top
  unfold errFrameCount at within
  unfold errFrameAt ERR_MAX_FRAMES
  rw [if_neg (Int.not_lt.mpr (Int.natCast_nonneg idx))]
  by_cases front : idx < e.topCount
  · rw [if_pos (Int.ofNat_lt.mpr front), if_pos front, Int.toNat_natCast]
    by_cases few : idx < 3
    · rw [if_pos few]
      exact stored.next idx few (by omega)
    · rw [if_neg few, show idx = 3 by omega]
      exact stored.last (by omega)
  · rw [if_neg (by omega), if_neg front]
    simp only
    rw [if_pos (by omega)]
    have place : (((8 : Nat) : Int) - (e.bottomCount : Int) + ((idx : Int) - (e.topCount : Int))).toNat =
        7 - (e.bottomCount - 1 - (idx - e.topCount)) := by omega
    rw [place]
    exact stored.first _ (by omega) (by omega)

theorem errFrameAt_outside (e : ErrStack) {idx : Int}
    (outside : idx < 0 ∨ (errFrameCount e : Int) ≤ idx) : errFrameAt e idx = none := by
  unfold errFrameCount at outside
  unfold errFrameAt
  by_cases negative : idx < 0
  · rw [if_pos negative]
  · rw [if_neg negative, if_neg (by omega)]
    simp only
    rw [if_neg (by omega)]

/-! ### The order -/

/-- Reading from index 0 gives the most recent pushes and then the first ones, each part in
reverse order; the pushes between them are the dropped ones, and no other index gives a
frame. -/
def ErrStack.InOrder (e : ErrStack) (pushed : List ErrFrame) : Prop :=
  errFrameCount e = min pushed.length ERR_MAX_FRAMES ∧
    ∃ first lost recent, pushed = first ++ lost ++ recent ∧ lost.length = e.dropped ∧
      (lost ≠ [] → first ≠ [] ∧ recent ≠ []) ∧
        ∀ idx : Int, errFrameAt e idx =
          if idx < 0 then none else (first ++ recent).reverse[idx.toNat]?

/-- Index 0 is the most recent push. -/
theorem ErrStack.InOrder.newest {e : ErrStack} {pushed : List ErrFrame} (ordered : e.InOrder pushed) :
    errFrameAt e 0 = pushed.getLast? := by
  obtain ⟨_count, first, lost, recent, split, _dropped, ends, read⟩ := ordered
  have zero := read 0
  rw [if_neg (by decide), Int.toNat_zero, ← List.head?_eq_getElem?, List.head?_reverse] at zero
  rw [zero, split]
  by_cases none' : recent = []
  · by_cases kept : lost = []
    · rw [none', kept, List.append_nil, List.append_nil]
    · exact absurd none' (ends kept).2
  · rw [List.getLast?_append_of_ne_nil _ none', List.getLast?_append_of_ne_nil _ none']

theorem ErrStack.Stored.inOrder {e : ErrStack} {pushed : List ErrFrame} (stored : e.Stored pushed)
    (few : pushed.length ≤ ERR_MAX_FRAMES / 2 + 1) : e.InOrder pushed := by
  have bottom := stored.bottom
  have top := stored.top
  have dropped := stored.dropped
  have count : errFrameCount e = pushed.length := by
    unfold ERR_MAX_FRAMES at few
    unfold errFrameCount
    omega
  refine ⟨?_, pushed, [], [], by rw [List.append_nil, List.append_nil], ?_, ?_, ?_⟩
  · unfold ERR_MAX_FRAMES at few ⊢
    omega
  · unfold ERR_MAX_FRAMES at few
    rw [List.length_nil]
    omega
  · exact fun none' => absurd rfl none'
  · intro idx
    rw [List.append_nil]
    by_cases negative : idx < 0
    · rw [if_pos negative, errFrameAt_outside e (Or.inl negative)]
    · rw [if_neg negative]
      obtain ⟨k, rfl⟩ := Int.eq_ofNat_of_zero_le (Int.not_lt.mp negative)
      rw [Int.toNat_natCast]
      by_cases within : k < pushed.length
      · rw [stored.read (by omega), List.getElem?_reverse within]
        unfold ERR_MAX_FRAMES at few
        by_cases front : k < e.topCount
        · rw [if_pos front, if_pos (by omega)]
          congr 1
          omega
        · rw [if_neg front]
          congr 1
          omega
      · rw [errFrameAt_outside e (Or.inr (by omega)), List.getElem?_eq_none (by
          rw [List.length_reverse]
          omega)]

/-- A frame told by its line. -/
def lineFrame (line : Nat) : ErrFrame := ⟨some "wal/wal.c", some "wal_retain", line, -7, .none⟩

/-- **The frames come back in order exactly while at most one of them lies at the front.** -/
theorem errFrames_inOrder (pushes : Nat) :
    (∀ pushed : List ErrFrame, pushed.length = pushes → (errPushAll pushed).InOrder pushed) ↔
      pushes ≤ ERR_MAX_FRAMES / 2 + 1 := by
  constructor
  · intro ordered
    by_contra many
    unfold ERR_MAX_FRAMES at many
    have length : ((List.range pushes).map lineFrame).length = pushes := by
      rw [List.length_map, List.length_range]
    have newest := (ordered _ length).newest
    have stored := errPushAll_stored ((List.range pushes).map lineFrame)
    have top := stored.top
    have bottom := stored.bottom
    rw [length] at top bottom
    have read := stored.read (show 0 < errFrameCount _ by unfold errFrameCount; omega)
    rw [if_pos (by omega), if_pos (by decide)] at read
    rw [Int.natCast_zero, newest, List.getLast?_eq_getElem?, length, List.getElem?_map,
      List.getElem?_map, List.getElem?_range (by omega), List.getElem?_range (by omega),
      Option.map_some, Option.map_some, Option.some.injEq] at read
    have lines : pushes - 1 = 0 + 4 := congrArg ErrFrame.line read
    omega
  · rintro few pushed rfl
    exact (errPushAll_stored pushed).inOrder few

/-- After six pushes the fifth is read as the most recent one. -/
theorem errFrames_outOfOrder :
    ¬ ∀ pushed : List ErrFrame, (errPushAll pushed).InOrder pushed := by
  intro ordered
  have newest := (ordered ((List.range 6).map lineFrame)).newest
  revert newest
  decide

end Msgsrvd

/-
Runs of a transition system whose steps are labelled by events.

A guard says which events a run may contain in which state.  An invariant of the
guarded steps holds in every state such a run reaches.
-/

import Mathlib.Logic.Basic

namespace Runs

variable {State Event : Type*}

/-- The states reached from a start state by steps the guard admits. -/
inductive Reach (start : State → Prop) (step : State → Event → State → Prop)
    (admits : State → Event → Prop) : State → Prop where
  | start {state : State} (initial : start state) : Reach start step admits state
  | next {state state' : State} (before : Reach start step admits state) (event : Event)
      (admitted : admits state event) (moves : step state event state') :
      Reach start step admits state'

variable {start : State → Prop} {step : State → Event → State → Prop}
  {admits weaker : State → Event → Prop}

/-- What holds at the start and is kept by every admitted step holds of every run. -/
theorem Reach.invariant {Inv : State → Prop} (initial : ∀ state, start state → Inv state)
    (kept : ∀ state event state', Inv state → admits state event → step state event state' →
      Inv state')
    {state : State} (reached : Reach start step admits state) : Inv state := by
  induction reached with
  | start first => exact initial _ first
  | next before event admitted moves ih => exact kept _ _ _ ih admitted moves

/-- A run under a guard is a run under any weaker one. -/
theorem Reach.mono (implies : ∀ state event, admits state event → weaker state event)
    {state : State} (reached : Reach start step admits state) : Reach start step weaker state := by
  induction reached with
  | start first => exact .start first
  | next before event admitted moves ih => exact .next ih event (implies _ _ admitted) moves

/-! ### Replaying a list of events -/

/-- The state after a list of events, for steps given by a function. -/
def replay (next : State → Event → Option State) : State → List Event → Option State
  | state, [] => some state
  | state, event :: rest =>
      match next state event with
      | none => none
      | some state => replay next state rest

theorem replay_reach {next : State → Event → Option State}
    (moves : ∀ state event state', next state event = some state' → step state event state')
    (open' : ∀ state event, admits state event)
    {state final : State} {events : List Event} (reached : Reach start step admits state)
    (played : replay next state events = some final) : Reach start step admits final := by
  induction events generalizing state with
  | nil =>
      cases played
      exact reached
  | cons event rest ih =>
      unfold replay at played
      cases found : next state event with
      | none =>
          rw [found] at played
          cases played
      | some middle =>
          rw [found] at played
          exact ih (.next reached event (open' _ _) (moves _ _ _ found)) played

/-- What every step keeps is kept by a replay. -/
theorem replay_invariant {next : State → Event → Option State} {Inv : State → Prop}
    (kept : ∀ state event state', Inv state → next state event = some state' → Inv state')
    {state final : State} {events : List Event} (initial : Inv state)
    (played : replay next state events = some final) : Inv final := by
  have reached : Reach (fun first => first = state)
      (fun state event state' => next state event = some state') (fun _ _ => True) final :=
    replay_reach (fun _ _ _ same => same) (fun _ _ => trivial) (.start rfl) played
  refine reached.invariant ?_ ?_
  · intro first same
    rw [same]
    exact initial
  · intro state event state' inv _admitted moves
    exact kept state event state' inv moves

end Runs

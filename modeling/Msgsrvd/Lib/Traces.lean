/-
Histories, newest note first, and what every note of one keeps to what came before it.
-/

import Mathlib.Data.List.Basic

namespace Traces

variable {Note : Type*} {fits weaker : Note → List Note → Prop}

/-- Every note fits the history it was added to. -/
def Always (fits : Note → List Note → Prop) : List Note → Prop
  | [] => True
  | note :: earlier => fits note earlier ∧ Always fits earlier

instance Always.decidable [∀ note trace, Decidable (fits note trace)] :
    ∀ trace, Decidable (Always fits trace)
  | [] => inferInstanceAs (Decidable True)
  | note :: earlier =>
      have := Always.decidable earlier
      inferInstanceAs (Decidable (fits note earlier ∧ Always fits earlier))

theorem Always.earlier {note : Note} {trace : List Note} (always : Always fits (note :: trace)) :
    Always fits trace :=
  always.2

theorem Always.newest {note : Note} {trace : List Note} (always : Always fits (note :: trace)) :
    fits note trace :=
  always.1

theorem Always.of_append {later earlier : List Note} (always : Always fits (later ++ earlier)) :
    Always fits earlier := by
  induction later with
  | nil => exact always
  | cons head rest ih => exact ih always.earlier

theorem Always.at' {later earlier : List Note} {note : Note}
    (always : Always fits (later ++ note :: earlier)) : fits note earlier := by
  induction later with
  | nil => exact always.newest
  | cons head rest ih => exact ih always.earlier

theorem Always.imp (implies : ∀ note trace, fits note trace → weaker note trace)
    {trace : List Note} (always : Always fits trace) : Always weaker trace := by
  induction trace with
  | nil => trivial
  | cons note earlier ih => exact ⟨implies _ _ always.1, ih always.2⟩

/-- What no note of a history may be, none of it is. -/
theorem Always.none {bad : Note → Bool} (never : ∀ note trace, fits note trace → bad note = false)
    {trace : List Note} (always : Always fits trace) : trace.any bad = false := by
  induction trace with
  | nil => rfl
  | cons note earlier ih => rw [List.any_cons, never _ _ always.1, ih always.2, Bool.or_self]

end Traces

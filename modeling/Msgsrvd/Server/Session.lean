/-
Client sessions: a bounded table of marks, the least recently seen going first.
-/

import Msgsrvd.Wal.Record
import Mathlib.Data.List.Nodup

namespace Msgsrvd

def SESSION_MAX : Nat := 1024

structure Session where
  id : Nat
  lastClientSeq : Nat
  /-- arrival order, for choosing what goes -/
  seen : Nat
  deriving DecidableEq, Repr

/-- `entries[0..count)` -/
structure SessionTable where
  entries : List Session
  nextSeen : Nat
  evicted : Nat
  deriving DecidableEq, Repr

def sessionTableInit : SessionTable := ⟨[], 1, 0⟩

def sessionLookup (t : SessionTable) (id : Nat) : Option Session :=
  if id = 0 then none else t.entries.find? (fun s => s.id = id)

/-- A change made through the pointer that a lookup returned. -/
def sessionStore (t : SessionTable) (id : Nat) (change : Session → Session) : SessionTable :=
  { t with entries := go t.entries }
where
  go : List Session → List Session
    | [] => []
    | s :: rest => if s.id = id then change s :: rest else s :: go rest

/-- `oldest_index` over `entries[i..]`, with the lowest so far. -/
def oldestFrom (entries : List Session) : List Session → Nat → Nat → Nat
  | [], _, lowest => lowest
  | s :: rest, i, lowest =>
      match entries[lowest]? with
      | none => lowest
      | some low => oldestFrom entries rest (i + 1) (if s.seen < low.seen then i else lowest)

def oldestIndex (t : SessionTable) : Nat := oldestFrom t.entries (t.entries.drop 1) 1 0

/-- A slot for this id, its mark at 0 and its arrival stamped. -/
def slotForNew (t : SessionTable) (id : Nat) : SessionTable :=
  let s : Session := ⟨id, 0, t.nextSeen⟩
  if SESSION_MAX ≤ t.entries.length then
    { entries := t.entries.set (oldestIndex t) s
      nextSeen := t.nextSeen + 1
      evicted := t.evicted + 1 }
  else { t with entries := t.entries ++ [s], nextSeen := t.nextSeen + 1 }

/-- Draw until an id is neither 0 nor in the table; a draw past the end of `draws`
gives 0.  Returns the id and the draws left. -/
def sessionDraw (t : SessionTable) : Nat → List Nat → Option Nat × List Nat
  | 0, draws => (none, draws)
  | _ + 1, [] => (none, [])
  | tries + 1, candidate :: draws =>
      if candidate ≠ 0 ∧ sessionLookup t candidate = none then (some candidate, draws)
      else sessionDraw t tries draws

def sessionCreate (t : SessionTable) (draws : List Nat) :
    Option Session × SessionTable × List Nat :=
  match sessionDraw t 8 draws with
  | (none, draws) => (none, t, draws)
  | (some id, draws) => (some ⟨id, 0, t.nextSeen⟩, slotForNew t id, draws)

/-- Stamp the session as seen now, and raise its mark to `clientSeq`. -/
def sessionRaise (t : SessionTable) (id clientSeq : Nat) : SessionTable :=
  { sessionStore t id (fun s =>
      { s with
        lastClientSeq := if clientSeq > s.lastClientSeq then clientSeq else s.lastClientSeq
        seen := t.nextSeen }) with
    nextSeen := t.nextSeen + 1 }

def sessionObserve (t : SessionTable) (id clientSeq : Nat) : SessionTable :=
  if id = 0 then t
  else
    match sessionLookup t id with
    | some _ => sessionRaise t id clientSeq
    | none => sessionRaise (slotForNew t id) id clientSeq

def sessionTouch (t : SessionTable) (id : Nat) : SessionTable :=
  { sessionStore t id (fun s => { s with seen := t.nextSeen }) with nextSeen := t.nextSeen + 1 }

def sessionFromRecord (t : SessionTable) (r : WalRec) : SessionTable :=
  sessionObserve t r.session r.clientSeq

/-! ### Lookups -/

def SessionTable.ids (t : SessionTable) : List Nat := t.entries.map Session.id

theorem sessionLookup_id {t : SessionTable} {id : Nat} {s : Session}
    (found : sessionLookup t id = some s) : s.id = id ∧ id ≠ 0 ∧ s ∈ t.entries := by
  unfold sessionLookup at found
  split at found
  · cases found
  · rename_i named
    refine ⟨?_, named, List.mem_of_find?_eq_some found⟩
    have holds := List.find?_some found
    exact of_decide_eq_true holds

theorem sessionLookup_none {t : SessionTable} {id : Nat} (named : id ≠ 0) :
    sessionLookup t id = none ↔ id ∉ t.ids := by
  unfold sessionLookup SessionTable.ids
  rw [if_neg named, List.find?_eq_none]
  simp only [decide_eq_true_eq, List.mem_map, not_exists, not_and]

/-- With distinct ids an entry is what its id looks up. -/
theorem sessionLookup_mem {t : SessionTable} (distinct : t.ids.Nodup) {s : Session}
    (present : s ∈ t.entries) (named : s.id ≠ 0) : sessionLookup t s.id = some s := by
  cases found : sessionLookup t s.id with
  | none =>
      rw [sessionLookup_none named] at found
      exact absurd (List.mem_map_of_mem present) found
  | some s' =>
      obtain ⟨same, _named, present'⟩ := sessionLookup_id found
      rw [List.inj_on_of_nodup_map distinct present' present same]

theorem sessionStore_ids (t : SessionTable) (id : Nat) {change : Session → Session}
    (keeps : ∀ s, (change s).id = s.id) : (sessionStore t id change).ids = t.ids := by
  unfold sessionStore SessionTable.ids
  simp only
  induction t.entries with
  | nil => rfl
  | cons head rest ih =>
      unfold sessionStore.go
      split
      · rw [List.map_cons, List.map_cons, keeps]
      · rw [List.map_cons, List.map_cons, ih]

theorem sessionLookup_store (t : SessionTable) (id : Nat) {change : Session → Session}
    (keeps : ∀ s, (change s).id = s.id) (other : Nat) :
    sessionLookup (sessionStore t id change) other =
      (sessionLookup t other).map (fun s => if other = id then change s else s) := by
  unfold sessionLookup sessionStore
  by_cases zero : other = 0
  · rw [if_pos zero, if_pos zero]
    rfl
  · rw [if_neg zero, if_neg zero]
    simp only
    induction t.entries with
    | nil => rfl
    | cons head rest ih =>
        unfold sessionStore.go
        by_cases at_head : head.id = id
        · rw [if_pos at_head]
          by_cases wanted : head.id = other
          · rw [List.find?_cons_of_pos (by simp only [keeps, wanted, decide_true]),
              List.find?_cons_of_pos (by simp only [wanted, decide_true])]
            rw [Option.map_some, if_pos (wanted.symm.trans at_head)]
          · have differ : other ≠ id := fun same => wanted (at_head.trans same.symm)
            rw [List.find?_cons_of_neg (by simp [keeps, wanted]),
              List.find?_cons_of_neg (by simp [wanted])]
            simp only [if_neg differ, Option.map_id']
        · rw [if_neg at_head]
          by_cases wanted : head.id = other
          · rw [List.find?_cons_of_pos (by simp only [wanted, decide_true]),
              List.find?_cons_of_pos (by simp only [wanted, decide_true])]
            rw [Option.map_some, if_neg (fun same => at_head (wanted.trans same))]
          · rw [List.find?_cons_of_neg (by simp [wanted]), List.find?_cons_of_neg (by simp [wanted])]
            exact ih

theorem oldestFrom_lt {entries rest : List Session} {i lowest : Nat}
    (inside : i + rest.length ≤ entries.length) (low : lowest < entries.length) :
    oldestFrom entries rest i lowest < entries.length := by
  induction rest generalizing i lowest with
  | nil => exact low
  | cons s rest ih =>
      rw [List.length_cons] at inside
      unfold oldestFrom
      split
      · exact low
      · apply ih (by omega)
        split
        · omega
        · exact low

theorem oldestIndex_lt {t : SessionTable} (full : SESSION_MAX ≤ t.entries.length) :
    oldestIndex t < t.entries.length := by
  unfold SESSION_MAX at full
  unfold oldestIndex
  apply oldestFrom_lt
  · rw [List.length_drop]
    omega
  · omega

/-- The new entry, and every old one but at most the one that made room for it. -/
theorem slotForNew_entries (t : SessionTable) (id : Nat) :
    ∃ front back gone, (slotForNew t id).entries = front ++ ⟨id, 0, t.nextSeen⟩ :: back ∧
      t.entries = front ++ gone ++ back := by
  unfold slotForNew
  simp only
  split
  · rename_i full
    have inside := oldestIndex_lt full
    refine ⟨t.entries.take (oldestIndex t), t.entries.drop (oldestIndex t + 1),
      [t.entries[oldestIndex t]], ?_, ?_⟩
    · rw [List.set_eq_take_append_cons_drop, if_pos inside]
    · rw [List.append_assoc, List.singleton_append, List.getElem_cons_drop,
        List.take_append_drop]
  · exact ⟨t.entries, [], [], rfl, by rw [List.append_nil, List.append_nil]⟩

theorem slotForNew_ids {t : SessionTable} {id : Nat} (absent : id ∉ t.ids)
    (distinct : t.ids.Nodup) : (slotForNew t id).ids.Nodup := by
  obtain ⟨front, back, gone, new, old⟩ := slotForNew_entries t id
  unfold SessionTable.ids at absent distinct ⊢
  rw [new, List.map_append, List.map_cons, List.nodup_middle, List.nodup_cons]
  rw [old, List.map_append, List.map_append] at distinct absent
  rw [← List.map_append]
  constructor
  · intro present
    apply absent
    rw [List.map_append] at present
    rcases List.mem_append.mp present with inFront | inBack
    · exact List.mem_append_left _ (List.mem_append_left _ inFront)
    · exact List.mem_append_right _ inBack
  · rw [List.map_append]
    exact distinct.sublist ((List.sublist_append_left _ _).append (List.Sublist.refl _))

theorem sessionLookup_slotForNew {t : SessionTable} {id : Nat} (named : id ≠ 0)
    (absent : sessionLookup t id = none) :
    sessionLookup (slotForNew t id) id = some ⟨id, 0, t.nextSeen⟩ := by
  obtain ⟨front, back, gone, new, old⟩ := slotForNew_entries t id
  have missing := (sessionLookup_none named).mp absent
  unfold sessionLookup
  rw [if_neg named, new, List.find?_append]
  have before : front.find? (fun s => decide (s.id = id)) = none := by
    rw [List.find?_eq_none]
    intro s present same
    apply missing
    rw [SessionTable.ids, old, List.append_assoc]
    exact List.mem_map.mpr ⟨s, List.mem_append_left _ present, of_decide_eq_true same⟩
  rw [before, List.find?_cons_of_pos (by simp only [decide_true])]
  rfl

/-- An older session still in the table is as it was. -/
theorem sessionLookup_slotForNew_other {t : SessionTable} {id other : Nat} {s : Session}
    (distinct : t.ids.Nodup) (differ : other ≠ id)
    (found : sessionLookup (slotForNew t id) other = some s) :
    sessionLookup t other = some s := by
  obtain ⟨front, back, gone, new, old⟩ := slotForNew_entries t id
  obtain ⟨same, named, present⟩ := sessionLookup_id found
  have kept : s ∈ t.entries := by
    rw [new] at present
    rw [old]
    rcases List.mem_append.mp present with inFront | later
    · exact List.mem_append_left _ (List.mem_append_left _ inFront)
    · rcases List.mem_cons.mp later with fresh | inBack
      · rw [fresh] at same
        exact absurd same.symm differ
      · exact List.mem_append_right _ inBack
  rw [← same]
  exact sessionLookup_mem distinct kept (same ▸ named)

/-! ### Marks -/

/-- The mark of a session, 0 for one the table does not hold. -/
theorem sessionLookup_touch (t : SessionTable) (id other : Nat) :
    (sessionLookup (sessionTouch t id) other).map Session.lastClientSeq =
      (sessionLookup t other).map Session.lastClientSeq := by
  change (sessionLookup (sessionStore t id (fun s => { s with seen := t.nextSeen })) other).map
    Session.lastClientSeq = _
  have keeps : ∀ s : Session, ({ s with seen := t.nextSeen } : Session).id = s.id := fun _ => rfl
  rw [sessionLookup_store t id keeps other, Option.map_map]
  congr 1
  funext s
  simp only [Function.comp]
  split <;> rfl

theorem sessionTouch_ids (t : SessionTable) (id : Nat) : (sessionTouch t id).ids = t.ids :=
  sessionStore_ids t id (fun _ => rfl)

theorem sessionDraw_some {t : SessionTable} {tries : Nat} {draws draws' : List Nat} {id : Nat}
    (drawn : sessionDraw t tries draws = (some id, draws')) :
    id ≠ 0 ∧ sessionLookup t id = none := by
  induction tries generalizing draws with
  | zero => cases drawn
  | succ tries ih =>
      cases draws with
      | nil => cases drawn
      | cons candidate rest =>
          unfold sessionDraw at drawn
          split at drawn
          · rename_i good
            cases drawn
            exact good
          · exact ih drawn

theorem sessionCreate_some {t t' : SessionTable} {draws draws' : List Nat} {s : Session}
    (created : sessionCreate t draws = (some s, t', draws')) :
    s.id ≠ 0 ∧ sessionLookup t s.id = none ∧ t' = slotForNew t s.id ∧
      sessionLookup t' s.id = some s := by
  unfold sessionCreate at created
  split at created
  · cases created
  · rename_i id rest drawn
    cases created
    obtain ⟨named, absent⟩ := sessionDraw_some drawn
    exact ⟨named, absent, rfl, sessionLookup_slotForNew named absent⟩

theorem sessionCreate_none {t t' : SessionTable} {draws draws' : List Nat}
    (created : sessionCreate t draws = (none, t', draws')) : t' = t := by
  unfold sessionCreate at created
  split at created
  · cases created
    rfl
  · cases created

end Msgsrvd

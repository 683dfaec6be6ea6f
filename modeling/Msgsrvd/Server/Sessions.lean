/-
The session table over any sequence of operations.

`seen` ranks the entries by the last operation that created, observed or touched them, so
that the lowest of a full table is the one that goes.
-/

import Msgsrvd.Server.Session

namespace Msgsrvd

/-! ### Operations -/

/-- What the node does to its table; `draws` is what `os_random_u64` answers. -/
inductive SessionOp where
  | create (draws : List Nat)
  | observe (id clientSeq : Nat)
  | touch (id : Nat)

/-- A touch is of an entry that was looked up. -/
def SessionTable.after (t : SessionTable) : SessionOp → SessionTable
  | .create draws => (sessionCreate t draws).2.1
  | .observe id clientSeq => sessionObserve t id clientSeq
  | .touch id =>
      match sessionLookup t id with
      | none => t
      | some _ => sessionTouch t id

/-- The session that the operation creates, observes or touches. -/
def SessionTable.stamped (t : SessionTable) : SessionOp → Option Nat
  | .create draws => (sessionCreate t draws).1.map Session.id
  | .observe id _ => if id = 0 then none else some id
  | .touch id => (sessionLookup t id).map Session.id

/-- The mark an observation leaves of a mark. -/
def SessionOp.raises : SessionOp → Nat → Nat
  | .observe _ clientSeq, mark => if clientSeq > mark then clientSeq else mark
  | _, mark => mark

/-- A table, and the sessions it has created, observed or touched, the latest first. -/
structure SessionRun where
  table : SessionTable
  stamps : List Nat

def SessionRun.next (run : SessionRun) (op : SessionOp) : SessionRun :=
  { table := run.table.after op
    stamps := (run.table.stamped op).toList ++ run.stamps }

def sessionRun (ops : List SessionOp) : SessionRun :=
  ops.foldl SessionRun.next ⟨sessionTableInit, []⟩

/-! ### Entries -/

/-- With distinct ids a change through a lookup is of that entry alone. -/
theorem sessionStore_map {t : SessionTable} (distinct : t.ids.Nodup) (id : Nat)
    (change : Session → Session) :
    (sessionStore t id change).entries =
      t.entries.map (fun s => if s.id = id then change s else s) := by
  unfold sessionStore
  unfold SessionTable.ids at distinct
  simp only
  generalize t.entries = entries at distinct ⊢
  induction entries with
  | nil => rfl
  | cons head rest ih =>
      rw [List.map_cons, List.nodup_cons] at distinct
      unfold sessionStore.go
      by_cases here : head.id = id
      · have others : rest.map (fun s => if s.id = id then change s else s) = rest := by
          conv_rhs => rw [← List.map_id rest]
          apply List.map_congr_left
          intro s inside
          have differ : s.id ≠ id := fun same =>
            distinct.1 (List.mem_map.mpr ⟨s, inside, same.trans here.symm⟩)
          rw [if_neg differ]
          rfl
        rw [if_pos here, List.map_cons, if_pos here, others]
      · rw [if_neg here, List.map_cons, if_neg here, ih distinct.2]

/-- The lowest of the entries looked at. -/
theorem oldestFrom_least {entries rest : List Session} {i lowest : Nat}
    (split : entries.drop i = rest) (low : lowest < entries.length)
    (least : ∀ j (inside : j < entries.length), j < i → entries[lowest].seen ≤ entries[j].seen)
    (inside : oldestFrom entries rest i lowest < entries.length) :
    ∀ s ∈ entries, entries[oldestFrom entries rest i lowest].seen ≤ s.seen := by
  induction rest generalizing i lowest with
  | nil =>
      intro s present
      obtain ⟨j, below, found⟩ := List.getElem_of_mem present
      rw [← found]
      exact least j below (Nat.lt_of_lt_of_le below (List.drop_eq_nil_iff.mp split))
  | cons next rest ih =>
      have here : i < entries.length := by
        by_contra past
        rw [List.drop_of_length_le (by omega)] at split
        cases split
      have at_i : entries[i] = next ∧ entries.drop (i + 1) = rest := by
        rw [List.drop_eq_getElem_cons here] at split
        exact List.cons.inj split
      have step : oldestFrom entries (next :: rest) i lowest =
          oldestFrom entries rest (i + 1) (if next.seen < entries[lowest].seen then i else lowest) := by
        rw [oldestFrom, List.getElem?_eq_getElem low]
      simp only [step] at inside ⊢
      by_cases older : next.seen < entries[lowest].seen
      · simp only [if_pos older] at inside ⊢
        apply ih at_i.2 here
        intro j below before
        rw [at_i.1]
        by_cases last : j = i
        · subst last
          rw [at_i.1]
        · have bound := least j below (by omega)
          omega
      · simp only [if_neg older] at inside ⊢
        apply ih at_i.2 low
        intro j below before
        by_cases last : j = i
        · subst last
          rw [at_i.1]
          omega
        · exact least j below (by omega)

/-- The entry that goes is the least recently seen. -/
theorem oldestIndex_least {t : SessionTable} (full : SESSION_MAX ≤ t.entries.length)
    (inside : oldestIndex t < t.entries.length) :
    ∀ s ∈ t.entries, t.entries[oldestIndex t].seen ≤ s.seen := by
  unfold SESSION_MAX at full
  unfold oldestIndex at inside ⊢
  apply oldestFrom_least rfl (by omega)
  intro j below before
  have zero : j = 0 := by omega
  subst zero
  exact Nat.le_refl _

/-- A new entry takes a free slot, or that of the least recently seen. -/
structure Takes (t : SessionTable) (id mark seen : Nat) (t' : SessionTable) : Prop where
  slot : ∃ front gone back, t.entries = front ++ gone ++ back ∧
    t'.entries = front ++ ⟨id, mark, seen⟩ :: back ∧
    ((gone = [] ∧ t.entries.length < SESSION_MAX ∧ t'.evicted = t.evicted) ∨
      ∃ old, gone = [old] ∧ SESSION_MAX ≤ t.entries.length ∧ t'.evicted = t.evicted + 1 ∧
        ∀ s ∈ t.entries, old.seen ≤ s.seen)

theorem slotForNew_takes (t : SessionTable) (id : Nat) :
    Takes t id 0 t.nextSeen (slotForNew t id) := by
  unfold slotForNew
  simp only
  split
  · rename_i full
    have inside := oldestIndex_lt full
    refine ⟨t.entries.take (oldestIndex t), [t.entries[oldestIndex t]],
      t.entries.drop (oldestIndex t + 1), ?_, ?_, .inr ⟨_, rfl, full, rfl, ?_⟩⟩
    · rw [List.append_assoc, List.singleton_append, List.getElem_cons_drop, List.take_append_drop]
    · rw [List.set_eq_take_append_cons_drop, if_pos inside]
    · exact oldestIndex_least full inside
  · rename_i room
    refine ⟨t.entries, [], [], ?_, rfl, .inl ⟨rfl, by omega, rfl⟩⟩
    rw [List.append_nil, List.append_nil]

/-! ### What an operation does -/

/-- The entry as it is after the operation has seen it. -/
def Session.seenBy (s : Session) (op : SessionOp) (seen : Nat) : Session :=
  { s with lastClientSeq := op.raises s.lastClientSeq, seen := seen }

/-- An operation does nothing, stamps an entry, or makes one. -/
inductive SessionTable.Does (t : SessionTable) (op : SessionOp) : Prop where
  | nothing (none' : t.stamped op = none) (same : t.after op = t)
  | stamps {id : Nat} (present : id ∈ t.ids) (stamped : t.stamped op = some id)
      (entries : (t.after op).entries =
        t.entries.map (fun s => if s.id = id then s.seenBy op t.nextSeen else s))
      (next : (t.after op).nextSeen = t.nextSeen + 1) (evicted : (t.after op).evicted = t.evicted)
  | makes {id seen : Nat} (named : id ≠ 0) (absent : id ∉ t.ids)
      (stamped : t.stamped op = some id) (new : t.nextSeen ≤ seen)
      (below : seen < (t.after op).nextSeen) (takes : Takes t id (op.raises 0) seen (t.after op))

theorem slotForNew_next (t : SessionTable) (id : Nat) :
    (slotForNew t id).nextSeen = t.nextSeen + 1 := by
  unfold slotForNew
  simp only
  split <;> rfl

/-- The observation of an entry. -/
theorem sessionRaise_map {t : SessionTable} (distinct : t.ids.Nodup) (id clientSeq : Nat) :
    (sessionRaise t id clientSeq).entries = t.entries.map (fun s =>
      if s.id = id then s.seenBy (.observe id clientSeq) t.nextSeen else s) :=
  sessionStore_map distinct id _

theorem observe_does {t : SessionTable} (distinct : t.ids.Nodup) (id clientSeq : Nat) :
    t.Does (.observe id clientSeq) := by
  by_cases zero : id = 0
  · refine .nothing (if_pos zero) ?_
    change sessionObserve t id clientSeq = t
    unfold sessionObserve
    rw [if_pos zero]
  · have stamped : t.stamped (.observe id clientSeq) = some id := if_neg zero
    cases found : sessionLookup t id with
    | some s =>
        obtain ⟨same, _named, present⟩ := sessionLookup_id found
        have whole : t.after (.observe id clientSeq) = sessionRaise t id clientSeq := by
          change sessionObserve t id clientSeq = _
          unfold sessionObserve
          rw [if_neg zero, found]
        refine .stamps ?_ stamped ?_ ?_ ?_
        · rw [← same]
          exact List.mem_map_of_mem present
        · rw [whole]
          exact sessionRaise_map distinct id clientSeq
        · rw [whole]
          rfl
        · rw [whole]
          rfl
    | none =>
        have absent := (sessionLookup_none zero).mp found
        have whole : t.after (.observe id clientSeq) =
            sessionRaise (slotForNew t id) id clientSeq := by
          change sessionObserve t id clientSeq = _
          unfold sessionObserve
          rw [if_neg zero, found]
        obtain ⟨front, gone, back, old, new, way⟩ := (slotForNew_takes t id).slot
        have others (part : List Session) (inside : part.Sublist t.entries) :
            part.map (fun s => if s.id = id then
              s.seenBy (.observe id clientSeq) (slotForNew t id).nextSeen else s) = part := by
          conv_rhs => rw [← List.map_id part]
          apply List.map_congr_left
          intro s present
          have differ : s.id ≠ id := fun same =>
            absent (same ▸ List.mem_map_of_mem (inside.subset present))
          rw [if_neg differ]
          rfl
        refine @SessionTable.Does.makes t _ id (t.nextSeen + 1) zero absent stamped (Nat.le_succ _)
          ?_ ⟨?_⟩
        · rw [whole, ← slotForNew_next t id]
          exact Nat.lt_succ_self _
        · refine ⟨front, gone, back, old, ?_, ?_⟩
          · rw [whole, sessionRaise_map (slotForNew_ids absent distinct), new, List.map_append,
              List.map_cons, others front, others back, if_pos rfl, slotForNew_next]
            · rfl
            · rw [old]
              exact List.sublist_append_right _ _
            · rw [old, List.append_assoc]
              exact List.sublist_append_left _ _
          · rw [whole]
            exact way

theorem after_does {t : SessionTable} (distinct : t.ids.Nodup) (op : SessionOp) : t.Does op := by
  cases op with
  | observe id clientSeq => exact observe_does distinct id clientSeq
  | create draws =>
      cases created : sessionCreate t draws with
      | mk made rest =>
          obtain ⟨t', left⟩ := rest
          have whole : t.after (.create draws) = t' := congrArg (fun done => done.2.1) created
          have stamped : t.stamped (.create draws) = made.map Session.id :=
            congrArg (fun done => done.1.map Session.id) created
          cases made with
          | none => exact .nothing stamped (whole.trans (sessionCreate_none created))
          | some s =>
              obtain ⟨named, missing, shape, _found⟩ := sessionCreate_some created
              refine .makes named ((sessionLookup_none named).mp missing) stamped
                (Nat.le_refl _) ?_ ?_
              · rw [whole, shape, slotForNew_next]
                exact Nat.lt_succ_self _
              · rw [whole, shape]
                exact slotForNew_takes t s.id
  | touch id =>
      cases found : sessionLookup t id with
      | none =>
          refine .nothing ?_ ?_
          · change (sessionLookup t id).map Session.id = none
            rw [found]
            rfl
          · unfold SessionTable.after
            simp only
            rw [found]
      | some s =>
          obtain ⟨same, _named, present⟩ := sessionLookup_id found
          have whole : t.after (.touch id) = sessionTouch t id := by
            unfold SessionTable.after
            simp only
            rw [found]
          have stamped : t.stamped (.touch id) = some id := by
            change (sessionLookup t id).map Session.id = some id
            rw [found, Option.map_some, same]
          refine .stamps (same ▸ List.mem_map_of_mem present) stamped ?_ ?_ ?_
          · rw [whole]
            exact sessionStore_map distinct id _
          · rw [whole]
            rfl
          · rw [whole]
            rfl

/-! ### The invariant -/

/-- The entries of a table, and the order in which they were last stamped. -/
structure SessionTable.Ordered (t : SessionTable) (stamps : List Nat) : Prop where
  named : ∀ s ∈ t.entries, s.id ≠ 0
  distinct : t.ids.Nodup
  bounded : t.entries.length ≤ SESSION_MAX
  below : ∀ s ∈ t.entries, s.seen < t.nextSeen
  apart : (t.entries.map Session.seen).Nodup
  known : ∀ s ∈ t.entries, s.id ∈ stamps
  ages : ∀ s ∈ t.entries, ∀ s' ∈ t.entries, s.seen < s'.seen →
    stamps.idxOf s'.id < stamps.idxOf s.id

theorem sessionTableInit_ordered : sessionTableInit.Ordered [] where
  named := fun _ absent => by cases absent
  distinct := List.nodup_nil
  bounded := Nat.zero_le _
  below := fun _ absent => by cases absent
  apart := List.nodup_nil
  known := fun _ absent => by cases absent
  ages := fun _ absent => by cases absent

/-- An entry stamped now is younger than the others. -/
theorem idxOf_stamped {stamps : List Nat} {id other : Nat} (differ : other ≠ id) :
    (id :: stamps).idxOf id = 0 ∧ (id :: stamps).idxOf other = stamps.idxOf other + 1 := by
  constructor
  · exact List.idxOf_cons_self
  · exact List.idxOf_cons_ne _ (Ne.symm differ)

theorem SessionTable.Ordered.stamp {t t' : SessionTable} {stamps : List Nat} {op : SessionOp}
    {id : Nat} (ordered : t.Ordered stamps) (entries : t'.entries =
      t.entries.map (fun s => if s.id = id then s.seenBy op t.nextSeen else s))
    (next : t'.nextSeen = t.nextSeen + 1) : t'.Ordered (id :: stamps) := by
  have keeps (s : Session) : (if s.id = id then s.seenBy op t.nextSeen else s).id = s.id := by
    split <;> rfl
  have stamped (s : Session) (present : s ∈ t.entries) :
      (if s.id = id then s.seenBy op t.nextSeen else s).seen =
        if s.id = id then t.nextSeen else s.seen := by
    split <;> rfl
  have ids : t'.ids = t.ids := by
    unfold SessionTable.ids
    rw [entries, List.map_map]
    exact List.map_congr_left (fun s _ => keeps s)
  have each {s' : Session} (present : s' ∈ t'.entries) : ∃ s ∈ t.entries, s'.id = s.id ∧
      s'.seen = if s.id = id then t.nextSeen else s.seen := by
    rw [entries] at present
    obtain ⟨s, inside, same⟩ := List.mem_map.mp present
    exact ⟨s, inside, by rw [← same, keeps], by rw [← same, stamped s inside]⟩
  refine ⟨?_, ?_, ?_, ?_, ?_, ?_, ?_⟩
  · intro s' present
    obtain ⟨s, inside, same, _⟩ := each present
    rw [same]
    exact ordered.named s inside
  · rw [ids]
    exact ordered.distinct
  · rw [entries, List.length_map]
    exact ordered.bounded
  · intro s' present
    obtain ⟨s, inside, _, seen⟩ := each present
    have below := ordered.below s inside
    rw [seen, next]
    split <;> omega
  · rw [entries, List.map_map]
    refine List.Nodup.map_on ?_ (List.Nodup.of_map _ ordered.distinct)
    intro a insideA b insideB same
    rw [Function.comp_apply, Function.comp_apply, stamped a insideA, stamped b insideB] at same
    have belowA := ordered.below a insideA
    have belowB := ordered.below b insideB
    by_cases hereA : a.id = id
    · by_cases hereB : b.id = id
      · exact List.inj_on_of_nodup_map ordered.distinct insideA insideB (hereA.trans hereB.symm)
      · rw [if_pos hereA, if_neg hereB] at same
        omega
    · by_cases hereB : b.id = id
      · rw [if_neg hereA, if_pos hereB] at same
        omega
      · rw [if_neg hereA, if_neg hereB] at same
        exact List.inj_on_of_nodup_map ordered.apart insideA insideB same
  · intro s' present
    obtain ⟨s, inside, same, _⟩ := each present
    rw [same]
    exact List.mem_cons_of_mem _ (ordered.known s inside)
  · intro a' presentA b' presentB older
    obtain ⟨a, insideA, sameA, seenA⟩ := each presentA
    obtain ⟨b, insideB, sameB, seenB⟩ := each presentB
    have belowB := ordered.below b insideB
    rw [sameA, sameB]
    rw [seenA, seenB] at older
    by_cases hereA : a.id = id
    · rw [if_pos hereA] at older
      split at older <;> omega
    · rw [if_neg hereA] at older
      rw [(@idxOf_stamped stamps id a.id hereA).2]
      by_cases hereB : b.id = id
      · rw [hereB, List.idxOf_cons_self]
        exact Nat.succ_pos _
      · rw [if_neg hereB] at older
        rw [(@idxOf_stamped stamps id b.id hereB).2]
        exact Nat.succ_lt_succ (ordered.ages a insideA b insideB older)

/-- The entries of a table with a new one. -/
theorem Takes.mem {t t' : SessionTable} {id mark seen : Nat} (takes : Takes t id mark seen t')
    {s' : Session} (present : s' ∈ t'.entries) :
    s' = ⟨id, mark, seen⟩ ∨ s' ∈ t.entries := by
  obtain ⟨front, gone, back, old, new, _way⟩ := takes.slot
  rw [new] at present
  rw [old]
  rcases List.mem_append.mp present with early | later
  · exact .inr (List.mem_append_left _ (List.mem_append_left _ early))
  · rcases List.mem_cons.mp later with fresh | late
    · exact .inl fresh
    · exact .inr (List.mem_append_right _ late)

/-- One entry in the place of others. -/
theorem nodup_instead {front gone back : List Session} {new : Session} (f : Session → Nat)
    (nodup : ((front ++ gone ++ back).map f).Nodup)
    (fresh : ∀ s ∈ front ++ gone ++ back, f s ≠ f new) : ((front ++ new :: back).map f).Nodup := by
  rw [List.map_append, List.map_cons, List.nodup_middle, List.nodup_cons]
  constructor
  · intro present
    rw [← List.map_append] at present
    obtain ⟨s, inside, same⟩ := List.mem_map.mp present
    refine fresh s ?_ same
    rcases List.mem_append.mp inside with early | late
    · exact List.mem_append_left _ (List.mem_append_left _ early)
    · exact List.mem_append_right _ late
  · rw [List.map_append, List.map_append] at nodup
    exact nodup.sublist ((List.sublist_append_left _ _).append (List.Sublist.refl _))

theorem SessionTable.Ordered.take {t t' : SessionTable} {stamps : List Nat} {id mark seen : Nat}
    (ordered : t.Ordered stamps) (named : id ≠ 0) (absent : id ∉ t.ids) (new : t.nextSeen ≤ seen)
    (below : seen < t'.nextSeen) (takes : Takes t id mark seen t') : t'.Ordered (id :: stamps) := by
  have other {s : Session} (present : s ∈ t.entries) : s.id ≠ id ∧ s.seen < seen := by
    have under := ordered.below s present
    exact ⟨fun same => absent (same ▸ List.mem_map_of_mem present), by omega⟩
  obtain ⟨front, gone, back, old, entries, way⟩ := takes.slot
  refine ⟨?_, ?_, ?_, ?_, ?_, ?_, ?_⟩
  · intro s' present
    rcases takes.mem present with fresh | kept
    · rw [fresh]
      exact named
    · exact ordered.named s' kept
  · have distinct := ordered.distinct
    unfold SessionTable.ids at distinct ⊢
    rw [entries]
    rw [old] at distinct
    exact nodup_instead Session.id distinct (fun s inside => (other (old ▸ inside)).1)
  · have bounded := ordered.bounded
    have length := congrArg List.length old
    rw [List.length_append, List.length_append] at length
    rw [entries, List.length_append, List.length_cons]
    rcases way with ⟨none', room, _⟩ | ⟨_, one, _, _⟩
    · rw [none', List.length_nil] at length
      omega
    · rw [one, List.length_singleton] at length
      omega
  · intro s' present
    rcases takes.mem present with fresh | kept
    · rw [fresh]
      exact below
    · exact Nat.lt_trans (other kept).2 below
  · have apart := ordered.apart
    rw [entries]
    rw [old] at apart
    exact nodup_instead Session.seen apart (fun s inside => Nat.ne_of_lt (other (old ▸ inside)).2)
  · intro s' present
    rcases takes.mem present with fresh | kept
    · rw [fresh]
      exact List.mem_cons_self ..
    · exact List.mem_cons_of_mem _ (ordered.known s' kept)
  · intro a presentA b presentB older
    rcases takes.mem presentA with freshA | keptA
    · rcases takes.mem presentB with freshB | keptB
      · rw [freshA, freshB] at older
        exact absurd older (Nat.lt_irrefl _)
      · have under := (other keptB).2
        rw [freshA] at older
        exact absurd older (Nat.lt_asymm under)
    · rw [(@idxOf_stamped stamps id a.id (other keptA).1).2]
      rcases takes.mem presentB with freshB | keptB
      · rw [freshB, List.idxOf_cons_self]
        exact Nat.succ_pos _
      · rw [(@idxOf_stamped stamps id b.id (other keptB).1).2]
        exact Nat.succ_lt_succ (ordered.ages a keptA b keptB older)

theorem SessionRun.next_ordered {run : SessionRun} (ordered : run.table.Ordered run.stamps)
    (op : SessionOp) : (run.next op).table.Ordered (run.next op).stamps := by
  unfold SessionRun.next
  cases after_does ordered.distinct op with
  | nothing none' same =>
      simp only [none', same]
      exact ordered
  | stamps present stamped entries next evicted =>
      simp only [stamped]
      exact ordered.stamp entries next
  | makes named absent stamped new below takes =>
      simp only [stamped]
      exact ordered.take named absent new below takes

theorem sessionRun_ordered (ops : List SessionOp) :
    (sessionRun ops).table.Ordered (sessionRun ops).stamps := by
  have each (ops : List SessionOp) (run : SessionRun) (ordered : run.table.Ordered run.stamps) :
      (ops.foldl SessionRun.next run).table.Ordered (ops.foldl SessionRun.next run).stamps := by
    induction ops generalizing run with
    | nil => exact ordered
    | cons op rest ih => exact ih _ (SessionRun.next_ordered ordered op)
  exact each ops _ sessionTableInit_ordered

/-! ### The map -/

/-- What an operation does to a table whose sessions were last stamped in this order. -/
structure SessionTable.Steps (t : SessionTable) (stamps : List Nat) (op : SessionOp) : Prop where
  /-- only the stamped session's mark is touched -/
  marks : ∀ s ∈ t.entries, ∀ s' ∈ (t.after op).entries, s'.id = s.id → s'.lastClientSeq =
    if t.stamped op = some s.id then op.raises s.lastClientSeq else s.lastClientSeq
  grows : ∀ s ∈ t.entries, ∀ s' ∈ (t.after op).entries, s'.id = s.id →
    s.lastClientSeq ≤ s'.lastClientSeq
  /-- a new entry's mark is its own observation's, from 0 -/
  fresh : ∀ s' ∈ (t.after op).entries, s'.id ∉ t.ids →
    t.stamped op = some s'.id ∧ s'.lastClientSeq = op.raises 0
  keeps : (∀ id, t.stamped op = some id → id ∈ t.ids) →
    (t.after op).ids = t.ids ∧ (t.after op).evicted = t.evicted
  takes : ∀ id, t.stamped op = some id → id ∉ t.ids → t.entries.length < SESSION_MAX →
    (∀ other, other ∈ (t.after op).ids ↔ other ∈ t.ids ∨ other = id) ∧
      (t.after op).evicted = t.evicted
  /-- out of a full table goes the one session stamped before all the others -/
  evicts : ∀ id, t.stamped op = some id → id ∉ t.ids → t.entries.length = SESSION_MAX →
    (t.after op).evicted = t.evicted + 1 ∧ ∃ gone ∈ t.ids,
      (∀ other ∈ t.ids, other ≠ gone → stamps.idxOf other < stamps.idxOf gone) ∧
        ∀ other, other ∈ (t.after op).ids ↔ (other ∈ t.ids ∧ other ≠ gone) ∨ other = id

theorem SessionOp.raises_le (op : SessionOp) (mark : Nat) : mark ≤ op.raises mark := by
  cases op with
  | observe id clientSeq =>
      change mark ≤ if clientSeq > mark then clientSeq else mark
      split <;> omega
  | create draws => exact Nat.le_refl _
  | touch id => exact Nat.le_refl _

theorem SessionTable.Ordered.steps {t : SessionTable} {stamps : List Nat}
    (ordered : t.Ordered stamps) (op : SessionOp) : t.Steps stamps op := by
  have one {s s' : Session} (inside : s ∈ t.entries) (inside' : s' ∈ t.entries)
      (same : s'.id = s.id) : s' = s :=
    List.inj_on_of_nodup_map ordered.distinct inside' inside same
  have listed {s : Session} (inside : s ∈ t.entries) : s.id ∈ t.ids := List.mem_map_of_mem inside
  have marks : ∀ s ∈ t.entries, ∀ s' ∈ (t.after op).entries, s'.id = s.id → s'.lastClientSeq =
      if t.stamped op = some s.id then op.raises s.lastClientSeq else s.lastClientSeq := by
    intro s inside s' inside' same
    cases after_does ordered.distinct op with
    | nothing none' unchanged =>
        rw [unchanged] at inside'
        rw [one inside inside' same, none', if_neg (fun never => by cases never)]
    | @stamps id present stamped entries next evicted =>
        rw [entries] at inside'
        obtain ⟨s0, inside0, shape⟩ := List.mem_map.mp inside'
        have id0 : s'.id = s0.id := by
          rw [← shape]
          split <;> rfl
        rw [one inside inside0 (id0.symm.trans same)] at shape
        rw [stamped, ← shape]
        by_cases here : s.id = id
        · rw [if_pos here, if_pos (congrArg some here.symm)]
          rfl
        · rw [if_neg here, if_neg (fun same => here (Option.some.inj same).symm)]
    | @makes id seen named absent stamped new below takes =>
        rcases takes.mem inside' with fresh | kept
        · rw [fresh] at same
          change id = s.id at same
          exact absurd (same ▸ listed inside) absent
        · rw [one inside kept same, stamped]
          have other : some id ≠ some s.id := by
            intro equal
            cases equal
            exact absent (listed inside)
          rw [if_neg other]
  refine ⟨marks, ?_, ?_, ?_, ?_, ?_⟩
  · intro s inside s' inside' same
    rw [marks s inside s' inside' same]
    split
    · exact op.raises_le _
    · exact Nat.le_refl _
  · intro s' inside' absent'
    cases after_does ordered.distinct op with
    | nothing none' unchanged =>
        rw [unchanged] at inside'
        exact absurd (listed inside') absent'
    | @stamps id present stamped entries next evicted =>
        rw [entries] at inside'
        obtain ⟨s0, inside0, shape⟩ := List.mem_map.mp inside'
        have id0 : s'.id = s0.id := by
          rw [← shape]
          split <;> rfl
        exact absurd (id0 ▸ listed inside0) absent'
    | makes named absent stamped new below takes =>
        rcases takes.mem inside' with fresh | kept
        · rw [fresh]
          exact ⟨stamped, rfl⟩
        · exact absurd (listed kept) absent'
  · intro known
    cases after_does ordered.distinct op with
    | nothing none' unchanged =>
        rw [unchanged]
        exact ⟨rfl, rfl⟩
    | stamps present stamped entries next evicted =>
        refine ⟨?_, evicted⟩
        unfold SessionTable.ids
        rw [entries, List.map_map]
        apply List.map_congr_left
        intro s _inside
        rw [Function.comp_apply]
        split <;> rfl
    | makes named absent stamped new below takes => exact absurd (known _ stamped) absent
  · intro id stamped absent room
    cases after_does ordered.distinct op with
    | nothing none' unchanged =>
        rw [none'] at stamped
        cases stamped
    | stamps present stamped' entries next evicted =>
        rw [stamped'] at stamped
        cases stamped
        exact absurd present absent
    | makes named absent' stamped' new below takes =>
        rw [stamped'] at stamped
        cases stamped
        obtain ⟨front, gone, back, old, entries, way⟩ := takes.slot
        rcases way with ⟨none', _, evicted⟩ | ⟨_, _, full, _, _⟩
        · refine ⟨fun other => ?_, evicted⟩
          unfold SessionTable.ids
          rw [entries, old, none', List.append_nil, List.map_append, List.map_append, List.map_cons,
            List.mem_append, List.mem_append, List.mem_cons]
          tauto
        · omega
  · intro id stamped absent full
    cases after_does ordered.distinct op with
    | nothing none' unchanged =>
        rw [none'] at stamped
        cases stamped
    | stamps present stamped' entries next evicted =>
        rw [stamped'] at stamped
        cases stamped
        exact absurd present absent
    | makes named absent' stamped' new below takes =>
        rw [stamped'] at stamped
        cases stamped
        obtain ⟨front, gone, back, old, entries, way⟩ := takes.slot
        rcases way with ⟨_, room, _⟩ | ⟨oldest, single, _, evicted, least⟩
        · omega
        · have inside : oldest ∈ t.entries := by
            rw [old, single]
            exact List.mem_append_left _ (List.mem_append_right _ (List.mem_singleton_self _))
          refine ⟨evicted, oldest.id, listed inside, ?_, fun other => ?_⟩
          · intro other present differ
            obtain ⟨s, within, same⟩ := List.mem_map.mp present
            have apart : oldest.seen ≠ s.seen := by
              intro equal
              rw [← same, ← List.inj_on_of_nodup_map ordered.apart inside within equal] at differ
              exact differ rfl
            have later := least s within
            rw [← same]
            exact ordered.ages oldest inside s within (by omega)
          · have distinct := ordered.distinct
            unfold SessionTable.ids at distinct ⊢
            rw [old, single, List.append_assoc, List.singleton_append, List.map_append,
              List.map_cons, List.nodup_middle, List.nodup_cons, List.mem_append] at distinct
            rw [entries, old, single, List.append_assoc, List.singleton_append, List.map_append,
              List.map_append, List.map_cons, List.map_cons, List.mem_append, List.mem_append,
              List.mem_cons, List.mem_cons]
            have left (present : other ∈ front.map Session.id ∨ other ∈ back.map Session.id) :
                other ≠ oldest.id := by
              rintro rfl
              exact distinct.1 present
            tauto

/-- **The session table is an exact least-recently-seen map**, after any operations. -/
theorem sessions_leastRecent (ops : List SessionOp) :
    (sessionRun ops).table.Ordered (sessionRun ops).stamps ∧
      ∀ op, (sessionRun ops).table.Steps (sessionRun ops).stamps op :=
  ⟨sessionRun_ordered ops, (sessionRun_ordered ops).steps⟩

/-- A table that is full drops the one session that was not seen again. -/
example : let t : SessionTable := ⟨(List.range 1024).map (fun i => ⟨i + 1, 0, i + 1⟩), 1025, 0⟩
    ((t.after (.touch 1)).after (.observe 2000 5)).entries[1]? = some ⟨2000, 5, 1027⟩ := by
  decide +kernel

end Msgsrvd

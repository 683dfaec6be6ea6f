/-
Retention against the segment table: a log that is retained has no more segments at the
end of a pass than it is to keep, and its table does not fill, as long as no pass that
needs a segment begins with a full table or with a retention that has failed.
-/

import Msgsrvd.Server.Calls
import Msgsrvd.Wal.Retained

namespace Msgsrvd

open Bytestring

variable {l l' : Loop} {w w' : Wal} {pass : Pass}

/-! ### One append -/

theorem walSegAppend_nomem {os os' : Os} {s seg : WalSeg} {r : WalRec} {payload : Bytes}
    {scratchLen : Nat} {detail : Int}
    (fails : walSegAppend os s r payload scratchLen = (.error ⟨.nomem, detail⟩, seg, os')) :
    detail = 0 := by
  unfold walSegAppend at fails
  cases encoded : walRecEncode scratchLen { r with seq := s.nextSeq } payload with
  | none =>
      rw [encoded] at fails
      cases fails
      rfl
  | some both =>
      obtain ⟨bytes, r'⟩ := both
      rw [encoded] at fails
      simp only at fails
      split at fails
      · cases fails
      · cases written : osPwriteFull os s.fd bytes s.writeOff with
        | mk res os1 =>
            rw [written] at fails
            cases res with
            | ok done => cases fails
            | error e =>
                cases fails
                unfold osPwriteFull at written
                cases held : s.fd with
                | none =>
                    rw [held] at written
                    cases written
                | some fd =>
                    rw [held] at written
                    simp only at written
                    unfold Os.call at written
                    split at written
                    · cases written
                    · cases written
                    · cases written

/-- The table is full for the records that need a segment, and for no others. -/
theorem AppendCall.full_iff {c : AppendCall} :
    c.Full ↔ c.needs = true ∧ WAL_MAX_SEGMENTS ≤ c.wal.segBase.length := by
  unfold AppendCall.Full AppendCall.needs AppendCall.answer walAppend
  simp only
  split
  · constructor
    · rintro ⟨_long, fails⟩
      cases fails
    · rintro ⟨never, _⟩
      cases never
  · cases fits : walSegFits c.wal.active (i32 c.rec'.len) with
    | true =>
        rw [if_pos rfl]
        constructor
        · rintro ⟨long, fails⟩
          exfalso
          unfold walAppendActive at fails
          cases appends : walSegAppend c.os c.wal.active c.rec' c.payload SCRATCH_LEN with
          | mk res rest =>
              obtain ⟨seg, os1⟩ := rest
              rw [appends] at fails
              cases res with
              | ok r => cases fails
              | error e =>
                  cases fails
                  have zero := walSegAppend_nomem appends
                  unfold WAL_MAX_SEGMENTS at long
                  omega
        · rintro ⟨never, _⟩
          cases never
    | false =>
        rw [if_neg Bool.false_ne_true]
        constructor
        · exact fun both => ⟨rfl, both.1⟩
        · rintro ⟨_needs, long⟩
          refine ⟨long, ?_⟩
          unfold walRollover
          rw [if_pos long]

/-- An append leaves the table as it is, or adds the segment its record needs. -/
theorem AppendCall.answer_table (c : AppendCall) : c.answer.2.1.segBase = c.wal.segBase ∨
    c.needs = true ∧ ∃ base, c.answer.2.1.segBase = c.wal.segBase ++ [base] := by
  have active (os : Os) (w : Wal) :
      (walAppendActive os w c.rec' c.payload SCRATCH_LEN).2.1.segBase = w.segBase := by
    unfold walAppendActive
    cases walSegAppend os w.active c.rec' c.payload SCRATCH_LEN with
    | mk res rest =>
        obtain ⟨seg, os1⟩ := rest
        cases res with
        | ok r => rfl
        | error e => rfl
  have rolls : (walRollover c.os c.wal).2.1.segBase = c.wal.segBase ∨
      ∃ base, (walRollover c.os c.wal).2.1.segBase = c.wal.segBase ++ [base] := by
    unfold walRollover
    split
    · exact .inl rfl
    · have synced : (walSync c.os c.wal).2.1.segBase = c.wal.segBase := by
        unfold walSync
        cases walSegSync c.os c.wal.active with
        | mk res rest => rfl
      cases flushes : walSync c.os c.wal with
      | mk res rest =>
          obtain ⟨w1, os1⟩ := rest
          rw [flushes] at synced
          cases res with
          | error e => exact .inl synced
          | ok done =>
              simp only
              cases walSegClose os1 w1.active with
              | mk closed rest1 =>
                  obtain ⟨seg, os2⟩ := rest1
                  cases closed with
                  | error e => exact .inl synced
                  | ok done1 =>
                      simp only
                      cases walSegCreate os2 (w1.active.durableSeq + 1) w1.segCapacity with
                      | mk made os3 =>
                          cases made with
                          | error e => exact .inl synced
                          | ok seg3 => exact .inr ⟨_, congrArg (· ++ _) synced⟩
  unfold AppendCall.answer AppendCall.needs walAppend
  simp only
  split
  · exact .inl rfl
  · cases fits : walSegFits c.wal.active (i32 c.rec'.len) with
    | true =>
        rw [if_pos rfl]
        exact .inl (active c.os c.wal)
    | false =>
        rw [if_neg Bool.false_ne_true]
        cases rolled : walRollover c.os c.wal with
        | mk res rest =>
            obtain ⟨w1, os1⟩ := rest
            rw [rolled] at rolls
            cases res with
            | error e => exact rolls.imp id (fun added => ⟨rfl, added⟩)
            | ok done =>
                simp only
                rw [active os1 w1]
                exact rolls.imp id (fun added => ⟨rfl, added⟩)

/-! ### The appends of a pass -/

/-- Where at most one append needs a segment, it finds the table the pass begins with. -/
theorem Chained.table {calls : List AppendCall} (chained : Chained w calls w')
    (few : (calls.filter AppendCall.needs).length ≤ 1) :
    (∀ c ∈ calls, c.needs = true → c.wal.segBase = w.segBase) ∧
      (w'.segBase = w.segBase ∨ (∃ c ∈ calls, c.needs = true) ∧
        ∃ base, w'.segBase = w.segBase ++ [base]) := by
  have idle {calls : List AppendCall} {w w' : Wal} (chained : Chained w calls w')
      (none : calls.filter AppendCall.needs = []) : w'.segBase = w.segBase := by
    induction chained with
    | done => rfl
    | @call c calls w' rest ih =>
        rw [List.filter_eq_nil_iff] at none
        have quiet := none c (List.mem_cons_self ..)
        have kept := c.answer_table.resolve_right (fun added => quiet added.1)
        rw [← kept]
        exact ih (List.filter_eq_nil_iff.mpr
          (fun later inside => none later (List.mem_cons_of_mem _ inside)))
  induction chained with
  | done => exact ⟨fun c absent => (by cases absent), .inl rfl⟩
  | @call c calls w' rest ih =>
      by_cases needs : c.needs = true
      · rw [List.filter_cons_of_pos needs, List.length_cons] at few
        have none : calls.filter AppendCall.needs = [] :=
          List.eq_nil_of_length_eq_zero (by omega)
        refine ⟨fun other inside needs' => ?_, ?_⟩
        · rcases List.mem_cons.mp inside with rfl | later
          · rfl
          · exact absurd needs' (List.filter_eq_nil_iff.mp none other later)
        · rw [idle rest none]
          exact c.answer_table.imp id
            (fun added => ⟨⟨c, List.mem_cons_self .., needs⟩, added.2⟩)
      · rw [List.filter_cons_of_neg needs] at few
        have kept := c.answer_table.resolve_right (fun added => needs added.1)
        obtain ⟨tables, ends⟩ := ih few
        rw [kept] at tables ends
        refine ⟨fun other inside needs' => ?_, ends.imp id (fun added => ?_)⟩
        · rcases List.mem_cons.mp inside with rfl | later
          · rfl
          · exact tables other later needs'
        · obtain ⟨⟨other, later, needs'⟩, grown⟩ := added
          exact ⟨⟨other, List.mem_cons_of_mem _ later, needs'⟩, grown⟩

/-! ### One retention -/

/-- All that lies below a base of the table is dropped. -/
theorem walRetainDrop_reaches {table : List Nat} (sorted : table.Pairwise (· < ·)) {count : Nat}
    (inside : count < table.length) : count ≤ walRetainDrop (table.getD count 0) table := by
  have reaches {table : List Nat} (sorted : table.Pairwise (· < ·)) {count keepFrom : Nat}
      (inside : count < table.length) (below : table.getD count 0 ≤ keepFrom) :
      count ≤ walRetainDrop keepFrom table := by
    induction table generalizing count with
    | nil => exact absurd inside (Nat.not_lt_zero _)
    | cons base rest ih =>
        cases count with
        | zero => exact Nat.zero_le _
        | succ count =>
            rw [List.length_cons] at inside
            rw [List.getD_cons_succ] at below
            have later := ih (List.pairwise_cons.mp sorted).2 (Nat.lt_of_succ_lt_succ inside) below
            cases rest with
            | nil => exact absurd (Nat.lt_of_succ_lt_succ inside) (Nat.not_lt_zero _)
            | cons next rest =>
                have first : next ≤ keepFrom := by
                  cases count with
                  | zero => exact below
                  | succ count =>
                      rw [List.getD_cons_succ] at below
                      have inRest : count < rest.length := by
                        rw [List.length_cons] at inside
                        omega
                      have member : rest.getD count 0 ∈ rest := by
                        rw [List.getD_eq_getElem _ _ inRest]
                        exact List.getElem_mem inRest
                      have sorted' := (List.pairwise_cons.mp sorted).2
                      exact Nat.le_trans
                        (Nat.le_of_lt ((List.pairwise_cons.mp sorted').1 _ member)) below
                unfold walRetainDrop
                rw [if_pos first]
                omega
  exact reaches sorted inside (Nat.le_refl _)

theorem first_below {table : List Nat} (sorted : table.Pairwise (· < ·)) {count : Nat}
    (later : 0 < count) (inside : count < table.length) : table.headD 0 < table.getD count 0 := by
  cases table with
  | nil => exact absurd inside (Nat.not_lt_zero _)
  | cons base rest =>
      obtain ⟨count, rfl⟩ : ∃ before, count = before + 1 := ⟨count - 1, by omega⟩
      rw [List.length_cons] at inside
      have inRest : count < rest.length := by omega
      rw [List.getD_cons_succ, List.getD_eq_getElem _ _ inRest]
      exact (List.pairwise_cons.mp sorted).1 _ (List.getElem_mem inRest)

/-- What the retention of this pass is to unlink, all of it goes. -/
def Loop.unlinks (l : Loop) : Prop :=
  (walRetainUnlink (l.wal.segBase.take (walRetainDrop (walRetainMark l.wal l.retainSegments)
    l.wal.segBase)) 0 l.os).1.isOk = true

instance (l : Loop) : Decidable l.unlinks :=
  inferInstanceAs (Decidable ((walRetainUnlink (l.wal.segBase.take (walRetainDrop
    (walRetainMark l.wal l.retainSegments) l.wal.segBase)) 0 l.os).1.isOk = true))

theorem walRetain_table {os : Os} {keepFrom : Nat}
    (unlinks : (walRetainUnlink (w.segBase.take (walRetainDrop keepFrom w.segBase)) 0 os).1.isOk =
      true) :
    (walRetain os w keepFrom).2.2.1.segBase = w.segBase.drop (walRetainDrop keepFrom w.segBase) := by
  unfold walRetain
  simp only
  split
  · rename_i none
    rw [none]
    rfl
  · cases gone : walRetainUnlink (w.segBase.take (walRetainDrop keepFrom w.segBase)) 0 os with
    | mk res os1 =>
        rw [gone] at unlinks
        cases res with
        | error failed => cases unlinks
        | ok done =>
            simp only
            cases osFsyncDir os1 with
            | mk synced os2 =>
                cases synced with
                | error e => rfl
                | ok done' => rfl

/-- A table that is short already is left alone. -/
theorem retainPass_still (short : l.wal.segBase.length ≤ l.retainSegments) :
    (retainPass l).wal = l.wal := by
  have mark : walRetainMark l.wal l.retainSegments = 0 := if_pos (.inr short)
  unfold retainPass
  simp only
  rw [mark]
  split
  · rfl
  · split
    · rfl
    · rw [if_pos rfl]

/-- A retention that goes ahead, and whose unlinks succeed, leaves no more than is kept. -/
theorem retainPass_short (keeps : 1 ≤ l.retainSegments) (alone : l.replicasWant = 0)
    (sorted : l.wal.segBase.Pairwise (· < ·))
    (fresh : l.retainFailed = false ∨ l.wal.segBase.length ≤ l.retainSegments)
    (unlinks : l.unlinks) : (retainPass l).wal.segBase.length ≤ l.retainSegments := by
  by_cases short : l.wal.segBase.length ≤ l.retainSegments
  · rw [retainPass_still short]
    exact short
  · have unfailed := fresh.resolve_right short
    have mark : walRetainMark l.wal l.retainSegments =
        l.wal.segBase.getD (l.wal.segBase.length - l.retainSegments) 0 :=
      if_neg (by omega)
    have inside : l.wal.segBase.length - l.retainSegments < l.wal.segBase.length := by omega
    have reaches := walRetainDrop_reaches sorted inside
    have later : walFirstSeq l.wal < _ := first_below sorted (by omega) inside
    unfold Loop.unlinks at unlinks
    rw [mark] at unlinks
    have table := walRetain_table unlinks
    generalize l.wal.segBase.getD (l.wal.segBase.length - l.retainSegments) 0 = keepFrom
      at mark reaches table later
    unfold retainPass
    simp only
    rw [if_neg (show ¬ l.retainSegments = 0 by omega),
      if_neg (show ¬ (l.retainFailed = true ∧ l.wal.segBase.length = l.retainSeenSegs) by
        rw [unfailed]
        exact fun both => Bool.false_ne_true both.1), mark,
      if_neg (show ¬ keepFrom = 0 by omega),
      if_neg (show ¬ (l.replicasWant > 0 ∧ l.retainFloor + 1 < keepFrom) by omega),
      if_neg (show ¬ keepFrom ≤ walFirstSeq l.wal by omega)]
    cases retained : walRetain l.os l.wal keepFrom with
    | mk res rest =>
        obtain ⟨removed, w, os⟩ := rest
        rw [retained] at table
        have few : w.segBase.length ≤ l.retainSegments := by
          rw [table, List.length_drop]
          omega
        cases res with
        | ok done => exact few
        | error e => exact few

/-! ### A pass -/

/-- The loop that retention finds. -/
def Loop.pushed (l : Loop) : Loop :=
  subsPush (if (acksEmit l).isFollower then streamReport (acksEmit l) else replStream (acksEmit l))

theorem loopServe_eq (l : Loop) : loopServe l = retainPass l.pushed := rfl

/-- At most one append of the pass needs a segment, and what its retention is to unlink goes. -/
structure Mild (l : Loop) (pass : Pass) : Prop where
  few : ((l.calls pass).filter AppendCall.needs).length ≤ 1
  unlinks : ∀ events l1, pass.wait = some events →
    loopFlush (loopDispatch (l.armed pass) events) = (.ok (), l1) → l1.pushed.unlinks

/-- A pass that needs a segment finds a place in the table, and no retention that has failed. -/
def Ready (l : Loop) (pass : Pass) : Prop :=
  (∃ c ∈ l.calls pass, c.needs = true) →
    l.wal.segBase.length < WAL_MAX_SEGMENTS ∧ l.retainFailed = false

instance (l : Loop) (pass : Pass) : Decidable (Ready l pass) :=
  inferInstanceAs (Decidable ((∃ c ∈ l.calls pass, c.needs = true) →
    l.wal.segBase.length < WAL_MAX_SEGMENTS ∧ l.retainFailed = false))

/-- What a node that expects no replicas keeps to. -/
structure Loop.Retaining (keep : Nat) (l : Loop) : Prop where
  keeps : l.retainSegments = keep
  alone : l.replicasWant = 0
  short : l.wal.segBase.length ≤ keep

/-- What a run guarantees of a pass: no append finds the table full, and a pass that is
completed leaves no more segments than are kept. -/
structure Retained (keep : Nat) (l : Loop) (pass : Pass) : Prop where
  room : ∀ c ∈ l.calls pass, ¬ c.Full
  short : (loopTick l pass).1 = .ok () → (loopTick l pass).2.wal.segBase.length ≤ keep

theorem calls_waits {c : AppendCall} (made : c ∈ l.calls pass) :
    ∃ events, pass.wait = some events := by
  unfold Loop.calls at made
  cases waits : pass.wait with
  | none =>
      rw [waits] at made
      cases made
  | some events => exact ⟨events, rfl⟩

theorem retainPass_kept (l : Loop) : (retainPass l).retainSegments = l.retainSegments ∧
    (retainPass l).replicasWant = l.replicasWant := by
  obtain ⟨w, os, failed, seen, counts, trace, same⟩ := retainPass_only l
  rw [same]
  exact ⟨rfl, rfl⟩

theorem calls_room (mild : Mild l pass) (ready : Ready l pass) {c : AppendCall} (made : c ∈ l.calls pass) : ¬ c.Full := by
  intro full
  obtain ⟨needs, long⟩ := AppendCall.full_iff.mp full
  obtain ⟨events, waits⟩ := calls_waits made
  have armed := (armed_explained l pass).wal
  have chained := (dispatch_explained l waits).chained
  rw [armed] at chained
  have same := (chained.table mild.few).1 c made needs
  have room := (ready ⟨c, made, needs⟩).1
  rw [same] at long
  omega

theorem retainSegments_of (settings : l'.settings = l.settings) :
    l'.retainSegments = l.retainSegments := congrArg Prod.fst settings

theorem replicasWant_of (settings : l'.settings = l.settings) :
    l'.replicasWant = l.replicasWant := congrArg (fun all => all.2.1) settings

theorem retainFailed_of (settings : l'.settings = l.settings) :
    l'.retainFailed = l.retainFailed := congrArg (fun all => all.2.2.2.1) settings

theorem Loop.Retaining.of_same {keep : Nat} (retaining : l.Retaining keep)
    (settings : l'.settings = l.settings) (wal : l'.wal = l.wal) : l'.Retaining keep where
  keeps := (retainSegments_of settings).trans retaining.keeps
  alone := (replicasWant_of settings).trans retaining.alone
  short := by
    rw [wal]
    exact retaining.short

/-- A completed pass leaves no more segments than are kept. -/
theorem Loop.Retaining.completed {keep : Nat} (some' : 1 ≤ keep) (retaining : l.Retaining keep)
    (sound : l.Sound dark) (possible : pass.Possible l) (mild : Mild l pass)
    (ready : Ready l pass) (served : (loopTick l pass).1 = .ok ()) :
    (loopTick l pass).2.Retaining keep := by
  obtain ⟨events, l1, waits, flushes, ended⟩ := loopTick_ends served
  have armed := armed_explained l pass
  have handled := dispatch_explained l waits
  have flushed := loopFlush_settings (loopDispatch (l.armed pass) events)
  have pushed : Beside l1 l1.pushed := served_beside l1
  rw [flushes] at flushed
  have settings : l1.pushed.settings = l.settings :=
    pushed.settings.trans (flushed.1.trans (handled.settings.trans armed.settings))
  have table : l1.pushed.wal.segBase = (loopDispatch (l.armed pass) events).wal.segBase :=
    (congrArg Wal.segBase pushed.wal).trans flushed.2
  have chained := handled.chained
  rw [armed.wal] at chained
  have keeps := (retainSegments_of settings).trans retaining.keeps
  have alone := (replicasWant_of settings).trans retaining.alone
  have fresh : l1.pushed.retainFailed = false ∨
      l1.pushed.wal.segBase.length ≤ l1.pushed.retainSegments := by
    rcases (chained.table mild.few).2 with same | ⟨needs, _⟩
    · refine .inr ?_
      rw [keeps, table, same]
      exact retaining.short
    · refine .inl ?_
      exact (retainFailed_of settings).trans (ready needs).2
  have sorted : l1.pushed.wal.segBase.Pairwise (· < ·) := by
    rw [pushed.wal]
    have met := @met_sound l pass sound possible events [] (by rw [List.append_nil]; exact waits)
    exact (loopFlush_moves met flushes).1.wal.sorted
  have short := retainPass_short (by omega) alone sorted fresh (mild.unlinks events l1 waits flushes)
  rw [keeps] at short
  obtain ⟨keeps', alone'⟩ := retainPass_kept l1.pushed
  have retained : (retainPass l1.pushed).Retaining keep :=
    ⟨keeps'.trans keeps, alone'.trans alone, short⟩
  rw [ended, loopServe_eq]
  generalize retainPass l1.pushed = l2 at retained ⊢
  have rearmed := armPhase_explained l2 pass.rearm
  exact retained.of_same rearmed.settings rearmed.wal

/-! ### Runs -/

/-- The node starts with a log in which there is no record. -/
def StartedEmpty (config : Config) (l : Loop) : Prop :=
  Started config l ∧ walNextSeq l.wal = walFirstSeq l.wal

/-- Runs from an empty log whose passes are mild and meet the condition. -/
def Tended (config : Config) : Loop → Prop :=
  Runs.Reach (StartedEmpty config) LoopStep (fun l pass => Mild l pass ∧ Ready l pass)

theorem Tended.running {config : Config} (tended : Tended config l) : Running config l := by
  refine tended.invariant (fun l started => .start started.1) ?_
  exact fun l pass l' running _admitted moves => .next running pass trivial moves

/-- A log without a record has one segment. -/
theorem Wal.Sound.single (sound : w.Sound) (empty : walNextSeq w = walFirstSeq w) :
    w.segBase.length = 1 := by
  obtain ⟨front, table⟩ := sound.last
  cases front with
  | nil =>
      rw [table]
      rfl
  | cons base rest =>
      have first : walFirstSeq w = base := by
        unfold walFirstSeq
        rw [table]
        rfl
      have sorted := sound.sorted
      rw [table] at sorted
      have below := (List.pairwise_cons.mp sorted).1 w.active.baseSeq
        (List.mem_append_right _ (List.mem_singleton.mpr rfl))
      have bound := sound.base
      rw [first] at empty
      change w.active.nextSeq = base at empty
      omega

/-- What a run keeps, between passes while it goes on. -/
def Loop.Tending (config : Config) (l : Loop) : Prop :=
  Running config l ∧ (l.stop = false → l.Retaining config.retainSegments)

theorem Tended.retaining {config : Config} (some' : 1 ≤ config.retainSegments)
    (alone : config.leader ≠ none ∨ config.replicas = 0) (tended : Tended config l)
    (going : l.stop = false) : l.Retaining config.retainSegments := by
  have kept : l.Tending config := by
    refine Runs.Reach.invariant ?_ ?_ tended
    · rintro l ⟨started, empty⟩
      refine ⟨.start started, fun _ => ?_⟩
      have single := (started_sound started).wal.single empty
      refine ⟨?_, ?_, by omega⟩
      · obtain ⟨os, listing, capacity, info, w, recs, os', _opened, rfl⟩ := started
        unfold Config.start
        split
        · rfl
        · rfl
      · obtain ⟨os, listing, capacity, info, w, recs, os', _opened, rfl⟩ := started
        unfold Config.start
        split
        · rfl
        · rename_i leads
          have none := alone.resolve_left (fun follows => follows leads)
          change min config.replicas LOOP_MAX_REPLICAS = 0
          rw [none]
          rfl
    · rintro l pass l' ⟨running, retaining⟩ ⟨mild, ready⟩ ⟨going, possible, rfl⟩
      refine ⟨.next running pass trivial ⟨going, possible, rfl⟩, fun going' => ?_⟩
      have completed := (retaining going).completed some' (running_sound running going) possible
        mild ready
      unfold loopPass at going' ⊢
      cases ticked : loopTick l pass with
      | mk res l1 =>
          rw [ticked] at going' completed
          cases res with
          | error e => cases going'
          | ok done => exact completed rfl
  exact kept.2 going

/-- **A pass that needs a segment when the table has 1024 already is refused one, and
one that needs a segment after a retention that failed ends with one too many: in every run
from an empty log without such a pass, no append finds the table full and no completed pass
leaves more segments than are kept.** -/
theorem retention_keeps {config : Config} (some' : 1 ≤ config.retainSegments)
    (alone : config.leader ≠ none ∨ config.replicas = 0) (tended : Tended config l)
    (going : l.stop = false) (possible : pass.Possible l) (mild : Mild l pass)
    (ready : Ready l pass) : Retained config.retainSegments l pass where
  room := fun _ made => calls_room mild ready made
  short := fun served => ((tended.retaining some' alone going).completed some'
    (running_sound tended.running going) possible mild ready served).short

/-! ### A retention that fails -/

/-- `Mild`, evaluated. -/
def Loop.mild (l : Loop) (pass : Pass) : Bool :=
  decide (((l.calls pass).filter AppendCall.needs).length ≤ 1) &&
    match pass.wait with
    | none => true
    | some events =>
        match loopFlush (loopDispatch (l.armed pass) events) with
        | (.error _, _) => true
        | (.ok (), l) => decide l.pushed.unlinks

theorem mild_of (checked : l.mild pass = true) : Mild l pass := by
  unfold Loop.mild at checked
  obtain ⟨few, rest⟩ := (Bool.and_eq_true _ _).mp checked
  refine ⟨of_decide_eq_true few, fun events l1 waits flushes => ?_⟩
  rw [waits] at rest
  simp only at rest
  rw [flushes] at rest
  exact of_decide_eq_true rest

/-- A log that is empty, of a leader that keeps one segment. -/
def keepOne : Loop := Config.fresh ⟨none, 1, 0⟩ 80

/-- The pass in which the client writes the record of this sequence, which fills a segment. -/
def fillPass (sequence : Nat) : Pass :=
  calmPass [7] [arrives 0 (requestBytes MSG_OP_WRITE 0 3 sequence (zeros 16))]

/-- The client has written its first record. -/
def keepOneWritten : Loop := loopPass (loopPass keepOne (calmPass [7] [.listen (some true)]))
  (calmPass [7] [arrives 0 (helloBytes 0 ++ requestBytes MSG_OP_WRITE 0 3 1 (zeros 16))])

/-- It has written its second, whose segment stands alone, but the flush of the directory
has failed. -/
def keepOneUnsure : Loop := loopPass keepOneWritten
  { fillPass 2 with script := List.replicate 8 .done ++ [.fails 5 0] }

theorem keepOne_started : StartedEmpty ⟨none, 1, 0⟩ keepOne :=
  ⟨fresh_started _ (by decide +kernel), by decide +kernel⟩

set_option maxRecDepth 8000 in
/-- The record that follows starts a segment, and retention leaves both. -/
theorem retention_skips : ¬ ∀ (config : Config) (l : Loop) (pass : Pass),
    1 ≤ config.retainSegments → config.retainSegments ≤ WAL_MAX_SEGMENTS →
    (config.leader ≠ none ∨ config.replicas = 0) →
    Runs.Reach (StartedEmpty config) LoopStep Mild l → l.stop = false → pass.Possible l →
    Mild l pass → Retained config.retainSegments l pass := by
  intro retains
  have first : Runs.Reach (StartedEmpty ⟨none, 1, 0⟩) LoopStep Mild
      (loopPass keepOne (calmPass [7] [.listen (some true)])) :=
    .next (.start keepOne_started) _ (mild_of (by decide +kernel))
      ⟨by decide +kernel, quiet_possible (by decide +kernel) _, rfl⟩
  have written : Runs.Reach (StartedEmpty ⟨none, 1, 0⟩) LoopStep Mild keepOneWritten :=
    .next first _ (mild_of (by decide +kernel))
      ⟨by decide +kernel, quiet_possible (by decide +kernel) _, rfl⟩
  have unsure : Runs.Reach (StartedEmpty ⟨none, 1, 0⟩) LoopStep Mild keepOneUnsure :=
    .next written _ (mild_of (by decide +kernel))
      ⟨by decide +kernel, quiet_possible (by decide +kernel) _, rfl⟩
  have short := (retains ⟨none, 1, 0⟩ keepOneUnsure (fillPass 3) (by decide) (by decide)
    (.inr rfl) unsure (by decide +kernel) (quiet_possible (by decide +kernel) _)
    (mild_of (by decide +kernel))).short (by decide +kernel)
  revert short
  decide +kernel

set_option maxRecDepth 8000 in
theorem retention_keeps_one : Retained 1 keepOneWritten (fillPass 2) := by
  have accepted : Tended ⟨none, 1, 0⟩ (loopPass keepOne (calmPass [7] [.listen (some true)])) :=
    .next (.start keepOne_started) _ ⟨mild_of (by decide +kernel), by decide +kernel⟩
      ⟨by decide +kernel, quiet_possible (by decide +kernel) _, rfl⟩
  have written : Tended ⟨none, 1, 0⟩ keepOneWritten :=
    .next accepted _ ⟨mild_of (by decide +kernel), by decide +kernel⟩
      ⟨by decide +kernel, quiet_possible (by decide +kernel) _, rfl⟩
  exact @retention_keeps keepOneWritten (fillPass 2) ⟨none, 1, 0⟩ (by decide) (.inr rfl) written
    (by decide +kernel) (quiet_possible (by decide +kernel) _) (mild_of (by decide +kernel))
    (by decide +kernel)

end Msgsrvd

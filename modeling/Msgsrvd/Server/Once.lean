/-
No write is in the log twice: marks and records over the lives of a leader, each of which
starts from what the log of the one before had at its crash.
-/

import Msgsrvd.Server.Covers
import Mathlib.Data.List.Induction

namespace Msgsrvd

open Bytestring

variable {d d' : Desk} {recs : List WalRec}

/-! ### What the log holds -/

/-- The first sequence that retention has left. -/
def firstLeft : List Note → Nat
  | [] => 0
  | .retained _ after :: _ => after
  | _ :: earlier => firstLeft earlier

/-- The records the log has taken in and still holds. -/
def inLog (trace : List Note) : List WalRec :=
  (recorded trace).filter (fun r => firstLeft trace ≤ r.seq)

/-- What the log held when the node started. -/
def recoveredIn (trace : List Note) : List WalRec :=
  match trace.getLast? with
  | some (.recovered recs) => recs
  | _ => []

/-! ### The law -/

/-- The client sequences of each session rise in the order of the log. -/
def Rising (recs : List WalRec) : Prop :=
  recs.Pairwise (fun r r' => r.session = r'.session → r.clientSeq < r'.clientSeq)

/-- They do after every note. -/
def OnceKept (note : Note) (earlier : List Note) : Prop := Rising (inLog (note :: earlier))

/-- A session id that is drawn is that of no record in the log. -/
def FreshDraw : Note → List Note → Prop
  | .drew id _, earlier => ∀ r ∈ inLog earlier, r.session ≠ id
  | _, _ => True

/-- A leader that starts on a log in which client sequences rise, or on what is left, after
a crash at any moment, of the log of one that has lived so: records from the front on. -/
inductive Lived : Loop → Prop where
  | first {config : Config} {l : Loop} (leads : config.leader = none)
      (running : Running config l) (rising : Rising (recoveredIn l.trace)) : Lived l
  | again {config : Config} {l l' : Loop} {later earlier : List Note} (before : Lived l)
      (fresh : Traces.Always FreshDraw l.trace) (crashed : l.trace = later ++ earlier)
      (leads : config.leader = none) (running : Running config l')
      (found : recoveredIn l'.trace <+: inLog earlier) : Lived l'

/-- The mark of a session is the highest client sequence of its records. -/
def Marks (recs : List WalRec) (s : Session) : Prop :=
  (∃ r ∈ recs, r.session = s.id ∧ r.clientSeq = s.lastClientSeq) ∧
    ∀ r ∈ recs, r.session = s.id → r.clientSeq ≤ s.lastClientSeq

/-! ### Recovery -/

theorem sessionLookup_raise {t : SessionTable} {id clientSeq other : Nat} {s : Session}
    (found : sessionLookup (sessionRaise t id clientSeq) other = some s) :
    ∃ s', sessionLookup t other = some s' ∧
      s.lastClientSeq = if other = id then max clientSeq s'.lastClientSeq
        else s'.lastClientSeq := by
  have stored := @sessionLookup_store t id (fun s =>
    { s with
      lastClientSeq := if clientSeq > s.lastClientSeq then clientSeq else s.lastClientSeq
      seen := t.nextSeen }) (fun _ => rfl) other
  have same := found.symm.trans stored
  cases before : sessionLookup t other with
  | none =>
      rw [before] at same
      cases same
  | some s' =>
      rw [before] at same
      cases same
      refine ⟨s', rfl, ?_⟩
      split
      · change (if clientSeq > s'.lastClientSeq then clientSeq else s'.lastClientSeq) = _
        split <;> omega
      · rfl

/-- What a lookup finds after a record has been seen. -/
theorem sessionLookup_observe {t : SessionTable} (distinct : t.ids.Nodup) {id clientSeq other : Nat}
    {s : Session} (found : sessionLookup (sessionObserve t id clientSeq) other = some s) :
    (other ≠ id ∧ ∃ s', sessionLookup t other = some s' ∧ s.lastClientSeq = s'.lastClientSeq) ∨
      (other = id ∧ ((∃ s', sessionLookup t other = some s' ∧
        s.lastClientSeq = max clientSeq s'.lastClientSeq) ∨ s.lastClientSeq = clientSeq)) := by
  have named := (sessionLookup_id found).2.1
  unfold sessionObserve at found
  by_cases zero : id = 0
  · rw [if_pos zero] at found
    exact Or.inl ⟨by omega, s, found, rfl⟩
  · rw [if_neg zero] at found
    cases known : sessionLookup t id with
    | some s0 =>
        rw [known] at found
        obtain ⟨s', before, mark⟩ := sessionLookup_raise found
        by_cases same : other = id
        · rw [if_pos same] at mark
          exact Or.inr ⟨same, Or.inl ⟨s', before, mark⟩⟩
        · rw [if_neg same] at mark
          exact Or.inl ⟨same, s', before, mark⟩
    | none =>
        rw [known] at found
        obtain ⟨s', before, mark⟩ := sessionLookup_raise found
        by_cases same : other = id
        · rw [if_pos same] at mark
          rw [same, sessionLookup_slotForNew zero known] at before
          cases before
          exact Or.inr ⟨same, Or.inr (mark.trans (Nat.max_eq_left (Nat.zero_le _)))⟩
        · rw [if_neg same] at mark
          exact Or.inl ⟨same, s', sessionLookup_slotForNew_other distinct same before, mark⟩

/-- Each session that recovery leaves in the table has its highest client sequence as its
mark, evicted and added again or not. -/
theorem foldl_observe_marks (rising : Rising recs) {id : Nat} {s : Session}
    (found : sessionLookup (recs.foldl sessionFromRecord sessionTableInit) id = some s) :
    Marks recs s := by
  induction recs using List.reverseRecOn generalizing id s with
  | nil => cases (sessionLookup_id found).2.2
  | append_singleton front r ih =>
      obtain ⟨before, -, below⟩ := List.pairwise_append.mp rising
      have last : ∀ r' ∈ front, r'.session = r.session → r'.clientSeq < r.clientSeq :=
        fun r' present => below r' present r (List.mem_singleton_self r)
      have at' := (sessionLookup_id found).1
      rw [List.foldl_append] at found
      have distinct := foldl_observe_ids front (t := sessionTableInit) List.nodup_nil
      unfold Marks
      rw [at']
      rcases sessionLookup_observe distinct found with
        ⟨differ, s', known, mark⟩ | ⟨same, told⟩
      · obtain ⟨⟨r', present, mine, top⟩, all⟩ := ih before known
        rw [(sessionLookup_id known).1] at mine all
        rw [mark]
        refine ⟨⟨r', List.mem_append_left _ present, mine, top⟩, fun other listed mine => ?_⟩
        rcases List.mem_append.mp listed with old | new
        · exact all other old mine
        · rw [List.mem_singleton.mp new] at mine
          exact absurd mine.symm differ
      · have top : s.lastClientSeq = r.clientSeq := by
          rcases told with ⟨s', known, mark⟩ | mark
          · obtain ⟨⟨r', present, mine, top⟩, -⟩ := ih before known
            have low := last r' present (mine.trans ((sessionLookup_id known).1.trans same))
            omega
          · exact mark
        rw [top]
        refine ⟨⟨r, List.mem_append_right _ (List.mem_singleton_self r), same.symm, rfl⟩, ?_⟩
        intro other listed mine
        rcases List.mem_append.mp listed with old | new
        · exact Nat.le_of_lt (last other old (mine.trans same))
        · rw [List.mem_singleton.mp new]

/-! ### One life -/

theorem Rising.sublist {front : List WalRec} (rising : Rising recs) (sub : front.Sublist recs) :
    Rising front := List.Pairwise.sublist sub rising

theorem inLog_cons {note : Note} {trace : List Note} (silent : note.records = [])
    (left : firstLeft (note :: trace) = firstLeft trace) : inLog (note :: trace) = inLog trace := by
  unfold inLog
  rw [recorded_cons silent, left]

theorem Asides.logged {earlier later : List Note} (asides : Asides earlier later) :
    inLog later = inLog earlier := by
  refine asides.same ?_
  intro note trace quiet
  cases note with
  | wrote | applied | recovered | retained => cases quiet
  | _ => exact inLog_cons rfl rfl

/-- A record is added at the end of the log, if anywhere. -/
theorem inLog_wrote {w : Write} {r : WalRec} {trace : List Note} (fate : w.fate = .stored r) :
    (inLog (.wrote w :: trace)).Sublist (inLog trace ++ [r]) := by
  unfold inLog
  have recs : recorded (.wrote w :: trace) = recorded trace ++ [r] := by
    change recorded trace ++ (Note.wrote w).records = _
    unfold Note.records
    simp only [fate]
  change ((recorded (.wrote w :: trace)).filter (fun r => firstLeft trace ≤ r.seq)).Sublist _
  rw [recs, List.filter_append]
  exact (List.Sublist.refl _).append List.filter_sublist

/-- Retention takes records from the log and adds none. -/
theorem inLog_retained {before after : Nat} {trace : List Note} (grows : firstLeft trace ≤ after) :
    (inLog (.retained before after :: trace)).Sublist (inLog trace) := by
  unfold inLog
  rw [recorded_cons rfl]
  refine List.monotone_filter_right _ (fun r kept => ?_)
  exact decide_eq_true (Nat.le_trans grows (of_decide_eq_true kept))

/-- The marks in the table are at or above all that the log holds of their sessions. -/
structure Desk.Marked (d : Desk) : Prop where
  leading : d.leading = true
  distinct : d.sessions.ids.Nodup
  first : firstLeft d.trace ≤ d.first
  rising : Rising (inLog d.trace)
  marks : ∀ id s, sessionLookup d.sessions id = some s →
    ∀ r ∈ inLog d.trace, r.session = id → r.clientSeq ≤ s.lastClientSeq

theorem Desk.Marked.kept (marked : d.Marked) (leading : d'.leading = d.leading)
    (sessions : d'.sessions = d.sessions) (first : firstLeft d'.trace ≤ d'.first)
    (log : (inLog d'.trace).Sublist (inLog d.trace)) : d'.Marked := by
  refine ⟨leading.trans marked.leading, sessions ▸ marked.distinct, first,
    marked.rising.sublist log, ?_⟩
  rw [sessions]
  exact fun id s found r present => marked.marks id s found r (log.subset present)

theorem Desk.Marked.aside (marked : d.Marked) (aside : Aside d d') : d'.Marked := by
  have left : firstLeft d'.trace = firstLeft d.trace := by
    refine aside.trace.same ?_
    intro note trace quiet
    cases note with
    | retained => cases quiet
    | _ => rfl
  refine marked.kept aside.leading aside.sessions ?_ (aside.trace.logged ▸ List.Sublist.refl _)
  rw [left, aside.first]
  exact marked.first

/-- A write that is above the mark of its session becomes the last record of the log. -/
theorem Desk.Marked.stored (marked : d.Marked) {w : Write} {s : Session} {r : WalRec} {mark : Nat}
    (fate : w.fate = .stored r) (known : sessionLookup d.sessions r.session = some s)
    (high : s.lastClientSeq < mark) (clientSeq : r.clientSeq = mark)
    (leading : d'.leading = d.leading) (first : d'.first = d.first)
    (sessions : d'.sessions = sessionTouch (sessionStore d.sessions r.session
      (fun s => { s with lastClientSeq := mark })) r.session)
    (trace : d'.trace = .wrote w :: d.trace) : d'.Marked := by
  have log : (inLog d'.trace).Sublist (inLog d.trace ++ [r]) := trace ▸ inLog_wrote fate
  refine ⟨leading.trans marked.leading, ?_, ?_, ?_, ?_⟩
  · have ids := @sessionStore_ids d.sessions r.session
      (fun s => { s with lastClientSeq := mark }) (fun _ => rfl)
    rw [sessions, sessionTouch_ids, ids]
    exact marked.distinct
  · rw [trace, first]
    exact marked.first
  · have longer : Rising (inLog d.trace ++ [r]) := by
      refine List.pairwise_append.mpr ⟨marked.rising, List.pairwise_singleton _ _, ?_⟩
      intro r' present last inLast same
      rw [List.mem_singleton.mp inLast] at same ⊢
      have below := marked.marks _ s known r' present same
      omega
    exact longer.sublist log
  · intro id s' found r' present mine
    rw [sessions] at found
    obtain ⟨old, before, at'⟩ := sessionLookup_marked found
    rw [at']
    rcases List.mem_append.mp (log.subset present) with earlier | last
    · have below := marked.marks id old before r' earlier mine
      split
      · rename_i same
        rw [same, known] at before
        cases before
        omega
      · exact below
    · rw [List.mem_singleton.mp last] at mine ⊢
      rw [if_pos mine.symm]
      omega

theorem Desk.Marked.deal (marked : d.Marked) (deal : Deal d d')
    (fits : Traces.Always FreshDraw d'.trace) : d'.Marked := by
  have still {e : Desk} (leading : e.leading = d.leading) (sessions : e.sessions = d.sessions)
      (first : e.first = d.first) (left : firstLeft e.trace = firstLeft d.trace)
      (log : inLog e.trace = inLog d.trace) : e.Marked := by
    refine marked.kept leading sessions ?_ (log ▸ List.Sublist.refl _)
    rw [left, first]
    exact marked.first
  cases deal with
  | drew named absent =>
      rename_i id
      have log : inLog (.drew id d.first :: d.trace) = inLog d.trace := inLog_cons rfl rfl
      refine ⟨marked.leading, slotForNew_ids ((sessionLookup_none named).mp absent) marked.distinct,
        marked.first, ?_, ?_⟩
      · change Rising (inLog (.drew id d.first :: d.trace))
        rw [log]
        exact marked.rising
      · intro other s found r present mine
        have present : r ∈ inLog d.trace := log ▸ present
        by_cases same : other = id
        · exact absurd (mine.trans same) (fits.newest r present)
        · exact marked.marks other s
            (sessionLookup_slotForNew_other marked.distinct same found) r present mine
  | stored dispatching leading used known able high seq session clientSeq below =>
      rw [← session] at known
      exact marked.stored rfl known high clientSeq rfl rfl (by rw [session]; rfl) rfl
  | applied following =>
      rw [marked.leading] at following
      cases following
  | retained grows held =>
      exact marked.kept rfl rfl (Nat.le_refl _)
        (inLog_retained (Nat.le_trans marked.first grows))
  | raised =>
      unfold Desk.raised
      split
      · exact marked
      · exact still rfl rfl rfl rfl rfl
  | ticked | turned => exact still rfl rfl rfl rfl rfl
  | _ => exact still rfl rfl rfl rfl (inLog_cons rfl rfl)

theorem blank_marked {config : Config} (blank : d.Blank config recs)
    (leads : config.leader = none) (rising : Rising recs) : d.Marked := by
  have log : inLog d.trace = recs := by
    rw [blank.trace]
    refine List.filter_eq_self.mpr (fun r present => ?_)
    exact decide_eq_true (Nat.zero_le _)
  refine ⟨?_, ?_, ?_, log.symm ▸ rising, ?_⟩
  · rw [blank.leading, leads]
    rfl
  · rw [blank.sessions]
    exact foldl_observe_ids recs List.nodup_nil
  · rw [blank.trace]
    exact Nat.zero_le _
  · rw [blank.sessions, log]
    intro id s found r present mine
    exact (foldl_observe_marks rising found).2 r present
      (mine.trans (sessionLookup_id found).1.symm)

theorem once_aside {note : Note} (aside : note.aside = true) {earlier : List Note}
    (rising : Rising (inLog earlier)) : OnceKept note earlier := by
  unfold OnceKept
  rw [(Asides.one aside earlier).logged]
  exact rising

theorem Asides.once {earlier later : List Note} (asides : Asides earlier later)
    (rising : Rising (inLog earlier)) (kept : Traces.Always OnceKept earlier) :
    Traces.Always OnceKept later := by
  induction asides with
  | refl => exact kept
  | cons aside before ih =>
      exact ⟨once_aside aside (before.logged.symm ▸ rising), ih rising kept⟩

theorem once_deal (marked : d'.Marked) (kept : Traces.Always OnceKept d.trace) (deal : Deal d d') :
    Traces.Always OnceKept d'.trace := by
  have rising := marked.rising
  cases deal with
  | raised =>
      unfold Desk.raised
      split
      · exact kept
      · exact kept
  | ticked | turned => exact kept
  | _ => exact ⟨rising, kept⟩

theorem moves_trace {start : Desk} (moves : Moves start d) :
    ∃ notes, d.trace = notes ++ start.trace := by
  induction moves with
  | refl => exact ⟨[], rfl⟩
  | tail _before move ih =>
      obtain ⟨notes, same⟩ := ih
      obtain ⟨newer, last⟩ := move.trace
      exact ⟨newer ++ notes, by rw [last, same, List.append_assoc]⟩

/-- In one life, from a log in which they rise. -/
theorem running_once {config : Config} {l : Loop} (leads : config.leader = none)
    (running : Running config l) (rising : Rising (recoveredIn l.trace))
    (fresh : Traces.Always FreshDraw l.trace) : Traces.Always OnceKept l.trace := by
  obtain ⟨start, phase, lit, starts, _sound, moves, _resting⟩ := running_moves running
  obtain ⟨recs, blank⟩ := starts_blank starts
  have found : recoveredIn l.trace = recs := by
    obtain ⟨notes, same⟩ := moves_trace moves
    rw [blank.trace] at same
    unfold recoveredIn
    rw [show l.trace = notes ++ [.recovered recs] from same, List.getLast?_concat]
  rw [found] at rising
  have keeps : (l.desk phase lit).Marked ∧ Traces.Always OnceKept (l.desk phase lit).trace := by
    refine @deals_keep _ FreshDraw (fun d => d.Marked ∧ Traces.Always OnceKept d.trace) ?_ ?_
      start moves ?_ fresh
    · rintro d d' ⟨marked, kept⟩ aside
      exact ⟨marked.aside aside, aside.trace.once marked.rising kept⟩
    · rintro d d' ⟨marked, kept⟩ deal fits
      have marked' := marked.deal deal fits
      exact ⟨marked', once_deal marked' kept deal⟩
    · have marked := blank_marked blank leads rising
      have here := marked.rising
      rw [blank.trace] at here
      exact ⟨marked, blank.trace ▸ ⟨here, trivial⟩⟩
  exact keeps.2

/-! ### Many lives -/

/-- They rise in the log of any moment. -/
theorem once_at {earlier : List Note} (kept : Traces.Always OnceKept earlier) :
    Rising (inLog earlier) := by
  cases earlier with
  | nil => exact List.Pairwise.nil
  | cons note before => exact kept.newest

theorem sessionObserve_named {t : SessionTable} (named : 0 ∉ t.ids) (id clientSeq : Nat) :
    0 ∉ (sessionObserve t id clientSeq).ids := by
  have raised (t : SessionTable) : (sessionRaise t id clientSeq).ids = t.ids :=
    sessionStore_ids t id (fun _ => rfl)
  unfold sessionObserve
  by_cases zero : id = 0
  · rw [if_pos zero]
    exact named
  · rw [if_neg zero]
    cases found : sessionLookup t id with
    | some s =>
        simp only
        rw [raised]
        exact named
    | none =>
        simp only
        rw [raised]
        obtain ⟨front, back, gone, new, old⟩ := slotForNew_entries t id
        unfold SessionTable.ids at named ⊢
        rw [old, List.map_append, List.map_append] at named
        rw [new, List.map_append, List.map_cons]
        intro present
        rcases List.mem_append.mp present with inFront | later
        · exact named (List.mem_append_left _ (List.mem_append_left _ inFront))
        · rcases List.mem_cons.mp later with same | inBack
          · exact zero same.symm
          · exact named (List.mem_append_right _ inBack)

theorem foldl_observe_named (recs : List WalRec) {t : SessionTable} (named : 0 ∉ t.ids) :
    0 ∉ (recs.foldl sessionFromRecord t).ids := by
  induction recs generalizing t with
  | nil => exact named
  | cons r rest ih => exact ih (sessionObserve_named named r.session r.clientSeq)

theorem started_marks {config : Config} {l : Loop} (started : Started config l)
    (rising : Rising (recoveredIn l.trace)) :
    ∀ s ∈ l.sessions.entries, Marks (recoveredIn l.trace) s := by
  obtain ⟨os, listing, capacity, info, w, recs, os', _opened, rfl⟩ := started
  have sessions : (config.start w os' recs).sessions =
      recs.foldl sessionFromRecord sessionTableInit := by
    unfold Config.start
    cases config.leader <;> rfl
  have found : recoveredIn (config.start w os' recs).trace = recs := by
    unfold Config.start
    cases config.leader <;> rfl
  rw [found] at rising
  rw [sessions, found]
  intro s present
  have named := foldl_observe_named recs (t := sessionTableInit) List.not_mem_nil
  have distinct := foldl_observe_ids recs (t := sessionTableInit) List.nodup_nil
  refine foldl_observe_marks rising (sessionLookup_mem distinct present ?_)
  intro zero
  exact named (zero ▸ List.mem_map_of_mem present)

/-- **Through any number of lives of a leader, in each of which no id is drawn that the log
holds, the client sequences of each session rise in the log, and each life starts with the
highest of them as the session's mark.** -/
theorem written_once {l : Loop} (lived : Lived l) (fresh : Traces.Always FreshDraw l.trace) :
    Traces.Always OnceKept l.trace ∧ ∀ config, Started config l →
      ∀ s ∈ l.sessions.entries, Marks (recoveredIn l.trace) s := by
  have rising : Rising (recoveredIn l.trace) ∧ Traces.Always OnceKept l.trace := by
    induction lived with
    | first leads running rising => exact ⟨rising, running_once leads running rising fresh⟩
    | again _before fresh' crashed leads running found ih =>
        have kept := (ih fresh').2
        rw [crashed] at kept
        have rising := (once_at kept.of_append).sublist found.sublist
        exact ⟨rising, running_once leads running rising fresh⟩
  exact ⟨rising.2, fun config started => started_marks started rising.1⟩

instance FreshDraw.decidable : ∀ note earlier, Decidable (FreshDraw note earlier)
  | .drew id _, earlier => inferInstanceAs (Decidable (∀ r ∈ inLog earlier, r.session ≠ id))
  | .recovered _, _ | .opened _, _ | .released _, _ | .joined _ _, _
  | .wrote _, _ | .answered _ _ _, _ | .handed _ _ _ _, _ | .flushed _ _ _ _, _ | .swept _ _ _, _
  | .staged _ _ _, _ | .asked _ _ _ _ _, _ | .began _ _ _, _ | .behind _ _ _ _, _
  | .pushed _ _ _ _ _, _ | .ended _ _ _, _ | .bounded _ _, _ | .retained _ _, _ | .heard _ _, _
  | .attached _ _ _, _ | .confirmed _ _ _, _ | .detached _, _ | .applied _, _ | .dialed, _
  | .reported _, _ | .handedUp _ _ _, _ | .heardDown _, _ => inferInstanceAs (Decidable True)

/-- A node on the directory that another has left behind. -/
def Config.restart (config : Config) (l : Loop) (listing : List Nat) (capacity : Nat) : Loop :=
  match walOpen { l.os with script := [] } listing capacity SCRATCH_LEN with
  | (.ok (_, w, recs), os) => config.start w os recs
  | (.error _, os) => config.start (walClosed capacity) os []

theorem restart_started (config : Config) {l : Loop} {listing : List Nat} {capacity : Nat}
    (opens : (walOpen { l.os with script := [] } listing capacity SCRATCH_LEN).1.isOk = true) :
    Started config (config.restart l listing capacity) := by
  unfold Config.restart
  cases opened : walOpen { l.os with script := [] } listing capacity SCRATCH_LEN with
  | mk res os =>
      cases res with
      | error e =>
          rw [opened] at opens
          cases opens
      | ok found =>
          obtain ⟨info, w, recs⟩ := found
          exact ⟨_, _, capacity, info, w, recs, os, opened, rfl⟩

/-- A client opens a session and writes a record, and another twice. -/
def writtenTwice : Loop :=
  let write (sequence : Nat) : Bytes :=
    requestBytes MSG_OP_WRITE MSG_FLAG_ACK_REQ 3 sequence (zeros 16)
  (leaderAlone.fresh 120).after [calmPass [7] [.listen (some true)],
    calmPass [7] [arrives 0 (helloBytes 0)],
    calmPass [7] [arrives 0 (write 1 ++ write 2 ++ write 2)]]

/-- The node comes back, and the client with what it could not confirm and one more. -/
def writtenAfter : Loop :=
  let write (sequence : Nat) : Bytes :=
    requestBytes MSG_OP_WRITE MSG_FLAG_ACK_REQ 3 sequence (zeros 16)
  (leaderAlone.restart writtenTwice [1, 2] 120).after [calmPass [7] [.listen (some true)],
    calmPass [7] [arrives 0 (helloBytes 7)], calmPass [7] [arrives 0 (write 2 ++ write 3)]]

set_option maxRecDepth 8000 in
theorem written_once_after : Traces.Always OnceKept writtenAfter.trace ∧
    ∀ config, Started config writtenAfter → ∀ s ∈ writtenAfter.sessions.entries,
      Marks (recoveredIn writtenAfter.trace) s := by
  have before : Running leaderAlone writtenTwice :=
    after_running (fresh_running leaderAlone (by decide +kernel)) _
  have after : Running leaderAlone writtenAfter :=
    after_running (.start (restart_started leaderAlone (by decide +kernel))) _
  have nothing : recoveredIn writtenTwice.trace = [] := by decide +kernel
  have first : Lived writtenTwice := .first rfl before (nothing ▸ List.Pairwise.nil)
  refine written_once (.again first ?_ (List.nil_append _).symm rfl after ?_) ?_
  · decide +kernel
  · decide +kernel
  · decide +kernel

end Msgsrvd

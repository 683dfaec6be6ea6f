/-
The two numbers of an acknowledgement: every record of the session up to its client
sequence lies at or below its WAL sequence.
-/

import Msgsrvd.Server.Owing

namespace Msgsrvd

open Bytestring

variable {d d' : Desk} {slot : Nat} {level : Level}

/-! ### The law -/

/-- An ACK's sequence is at or above those of all the records it answers for. -/
def AckCovers : Note → List Note → Prop
  | .answered _ session a, earlier =>
      a.sent = true → a.refused = false → ∀ r ∈ recorded earlier, r.session = session →
        r.clientSeq ≤ a.clientSeq → r.seq ≤ a.walSeq
  | _, _ => True

/-- How far the acknowledgement owed on a connection waits for the log. -/
def owedSeq (slot : Nat) (level : Level) (trace : List Note) : Nat :=
  (owed slot level trace).foldr (fun w high => max w.walSeq high) 0

/-- A resend that is to be acknowledged finds every record of its session flushed, or at or
below what its connection waits for already; and no id is drawn that names the session of
a write still waiting. -/
def coversFits : Note → List Note → Bool
  | .wrote w, earlier =>
      match w.fate with
      | .resent =>
          !w.awaits || (recorded earlier).all (fun r => r.session != w.session ||
            decide (r.seq ≤ max w.durable (owedSeq w.slot w.owedAt earlier)))
      | _ => true
  | .drew id _, earlier => (awaited earlier).all (fun w => w.session != id)
  | _, _ => true

/-- The condition on a whole history. -/
def CoversFits (trace : List Note) : Prop :=
  Traces.Always (fun note earlier => coversFits note earlier = true) trace

/-- The same of the acknowledgements of one level alone. -/
def coversFitsAt (level : Level) : Note → List Note → Bool
  | .wrote w, earlier =>
      match w.fate with
      | .resent =>
          !w.awaits || w.owedAt != level || (recorded earlier).all (fun r =>
            r.session != w.session ||
              decide (r.seq ≤ max w.durable (owedSeq w.slot level earlier)))
      | _ => true
  | .drew id _, earlier => (awaited earlier).all (fun w => w.owedAt != level || w.session != id)
  | _, _ => true

def CoversFitsAt (level : Level) (trace : List Note) : Prop :=
  Traces.Always (fun note earlier => coversFitsAt level note earlier = true) trace

theorem coversFits_at (level : Level) {note : Note} {earlier : List Note}
    (fits : coversFits note earlier = true) : coversFitsAt level note earlier = true := by
  cases note with
  | wrote w =>
      unfold coversFits at fits
      unfold coversFitsAt
      cases fate : w.fate with
      | resent =>
          simp only [fate] at fits ⊢
          by_cases here : w.owedAt = level
          · rw [← here, bne_self_eq_false, Bool.or_false]
            exact fits
          · rw [bne_iff_ne.mpr here, Bool.or_true, Bool.true_or]
      | refused | stored => simp only [fate]
  | drew id first =>
      refine List.all_eq_true.mpr (fun w listed => ?_)
      rw [List.all_eq_true.mp fits w listed, Bool.or_true]
  | _ => rfl

theorem coversFitsAt_resent {w : Write} {earlier : List Note}
    (fits : coversFitsAt level (.wrote w) earlier = true) (resent : w.fate = .resent)
    (awaits : w.awaits = true) (here : w.owedAt = level) :
    ∀ r ∈ recorded earlier, r.session = w.session →
      r.seq ≤ max w.durable (owedSeq w.slot level earlier) := by
  intro r present mine
  unfold coversFitsAt at fits
  simp only [resent, awaits, here, bne_self_eq_false, Bool.not_true, Bool.false_or] at fits
  have held := List.all_eq_true.mp fits r present
  rw [mine, bne_self_eq_false, Bool.false_or] at held
  exact of_decide_eq_true held

/-! ### One acknowledgement -/

/-- What is owed answers for no record beyond its WAL sequence, nor beyond the mark of its
session. -/
structure LoopAck.Covers (a : LoopAck) (session : Nat) (recs : List WalRec) (t : SessionTable) :
    Prop where
  recs : a.due = true → ∀ r ∈ recs, r.session = session → r.clientSeq ≤ a.clientSeq →
    r.seq ≤ a.walSeq
  mark : a.due = true → ∀ s, sessionLookup t session = some s → a.clientSeq ≤ s.lastClientSeq

theorem LoopAck.Covers.none {a : LoopAck} (idle : a.due = false) (session : Nat)
    (recs : List WalRec) (t : SessionTable) : a.Covers session recs t := by
  constructor
  · intro due
    rw [idle] at due
    cases due
  · intro due
    rw [idle] at due
    cases due

/-- A mark that was set: the session's own, and no other. -/
theorem sessionLookup_marked {t : SessionTable} {id mark other : Nat} {s : Session}
    (found : sessionLookup (sessionTouch (sessionStore t id
      (fun s => { s with lastClientSeq := mark })) id) other = some s) :
    ∃ s', sessionLookup t other = some s' ∧
      s.lastClientSeq = if other = id then mark else s'.lastClientSeq := by
  have touched := sessionLookup_touch (sessionStore t id
    (fun s => { s with lastClientSeq := mark })) id other
  have stored := @sessionLookup_store t id (fun s => { s with lastClientSeq := mark })
    (fun _ => rfl) other
  rw [found, stored] at touched
  cases before : sessionLookup t other with
  | none =>
      rw [before] at touched
      cases touched
  | some s' =>
      rw [before] at touched
      refine ⟨s', rfl, (Option.some.inj touched).trans ?_⟩
      split <;> rfl

theorem observe_ids {t : SessionTable} (distinct : t.ids.Nodup) (id clientSeq : Nat) :
    (sessionObserve t id clientSeq).ids.Nodup := by
  have raised (t : SessionTable) : (sessionRaise t id clientSeq).ids = t.ids :=
    sessionStore_ids t id (fun _ => rfl)
  unfold sessionObserve
  by_cases zero : id = 0
  · rw [if_pos zero]
    exact distinct
  · rw [if_neg zero]
    cases found : sessionLookup t id with
    | some s =>
        simp only
        rw [raised]
        exact distinct
    | none =>
        simp only
        rw [raised]
        exact slotForNew_ids ((sessionLookup_none zero).mp found) distinct

theorem foldl_observe_ids (recs : List WalRec) {t : SessionTable} (distinct : t.ids.Nodup) :
    (recs.foldl sessionFromRecord t).ids.Nodup := by
  induction recs generalizing t with
  | nil => exact distinct
  | cons r rest ih => exact ih (observe_ids distinct r.session r.clientSeq)

/-! ### The invariant -/

/-- What is owed at one level answers for what it should. -/
structure Desk.CoveringAt (d : Desk) (level : Level) : Prop where
  owing : d.Owing
  leading : d.leading = true
  below : ∀ r ∈ recorded d.trace, r.seq < d.next
  distinct : d.sessions.ids.Nodup
  covers : ∀ slot, ((d.party slot).ack level).Covers (d.party slot).session
    (recorded d.trace) d.sessions

/-- Nothing is recorded, owed or marked. -/
theorem Desk.CoveringAt.kept (covering : d.CoveringAt level) (owing : d'.Owing)
    (leading : d'.leading = d.leading) (recs : recorded d'.trace = recorded d.trace)
    (next : d'.next = d.next) (sessions : d'.sessions = d.sessions)
    (acks : ∀ slot, (d'.party slot).ack level = (d.party slot).ack level ∧
      (d'.party slot).session = (d.party slot).session ∨
      ((d'.party slot).ack level).due = false) : d'.CoveringAt level := by
  constructor
  · exact owing
  · exact leading.trans covering.leading
  · rw [recs, next]
    exact covering.below
  · rw [sessions]
    exact covering.distinct
  · intro slot
    rcases acks slot with ⟨ack, session⟩ | idle
    · rw [ack, session, recs, sessions]
      exact covering.covers slot
    · exact .none idle _ _ _

theorem Asides.recorded {earlier later : List Note} (asides : Asides earlier later) :
    recorded later = recorded earlier := by
  refine asides.same ?_
  intro note trace quiet
  refine recorded_cons ?_
  cases note with
  | wrote | applied | recovered => cases quiet
  | _ => rfl

theorem Desk.CoveringAt.aside (covering : d.CoveringAt level) (aside : Aside d d') :
    d'.CoveringAt level :=
  covering.kept (covering.owing.aside aside) aside.leading aside.trace.recorded aside.next
    aside.sessions (fun slot => Or.inl ⟨ack_account (aside.account slot) level,
      congrArg Account.session (aside.account slot)⟩)

/-- An id is drawn that no waiting write has for its session. -/
theorem Desk.CoveringAt.drew (covering : d.CoveringAt level) {id : Nat} (named : id ≠ 0)
    (absent : sessionLookup d.sessions id = none)
    (fits : coversFitsAt level (.drew id d.first) d.trace = true) :
    ({ d with sessions := slotForNew d.sessions id }.note (.drew id d.first)).CoveringAt
      level := by
  have owing : ({ d with sessions := slotForNew d.sessions id }.note (.drew id d.first)).Owing :=
    covering.owing.kept rfl (fun _ _ => rfl) (fun _ => rfl)
  refine ⟨owing, covering.leading, ?_, ?_, ?_⟩
  · change ∀ r ∈ recorded (.drew id d.first :: d.trace), r.seq < d.next
    rw [recorded_cons rfl]
    exact covering.below
  · exact slotForNew_ids ((sessionLookup_none named).mp absent) covering.distinct
  · intro slot
    obtain ⟨recs, mark⟩ := covering.covers slot
    refine ⟨?_, ?_⟩
    · change _ → ∀ r ∈ recorded (.drew id d.first :: d.trace), _
      rw [recorded_cons rfl]
      exact recs
    · intro due s found
      have differ : (d.party slot).session ≠ id := by
        have owes := (covering.owing.owes slot level).due
        have due : ((d.party slot).ack level).due = true := due
        cases waits : owed slot level d.trace with
        | nil =>
            rw [due, waits] at owes
            cases owes
        | cons w rest =>
            obtain ⟨listed, at', of⟩ := owed_mem (waits ▸ List.mem_cons_self ..)
            have other := List.all_eq_true.mp fits w listed
            rw [of, bne_self_eq_false, Bool.false_or, bne_iff_ne,
              covering.owing.bound w listed, at'] at other
            exact other
      exact mark due s (sessionLookup_slotForNew_other covering.distinct differ found)

/-- What is owed on a connection answers for nothing above its session's mark. -/
theorem Desk.CoveringAt.below_mark (covering : d.CoveringAt level) {s : Session}
    (known : sessionLookup d.sessions (d.party slot).session = some s) :
    ((d.party slot).ack level).clientSeq ≤ s.lastClientSeq := by
  cases due : ((d.party slot).ack level).due with
  | true => exact (covering.covers slot).mark due s known
  | false =>
      rw [(covering.owing.owes slot level).idle due]
      exact Nat.zero_le _

/-- The newest record is at or above all of them. -/
theorem Desk.CoveringAt.stored (covering : d.CoveringAt level) {h : MsgHeader} {s : Session} {r : WalRec}
    (known : sessionLookup d.sessions (d.party slot).session = some s)
    (able : wantsCopy h.flags d.live = false) (high : s.lastClientSeq < h.sequence)
    (seq : r.seq = d.next) (session : r.session = (d.party slot).session)
    (clientSeq : r.clientSeq = h.sequence)
    (owing : d'.Owing) (leading : d'.leading = d.leading)
    (trace : d'.trace = .wrote (d.write slot h (.stored r)) :: d.trace)
    (next : d'.next = d.next + 1)
    (sessions : d'.sessions = sessionTouch (sessionStore d.sessions (d.party slot).session
      (fun s => { s with lastClientSeq := h.sequence })) (d.party slot).session)
    (party : d'.party = (d.setParty slot
      ((d.party slot).owe d.live d.tick h.flags h.sequence r.seq)).party) :
    d'.CoveringAt level := by
  have recs : recorded d'.trace = recorded d.trace ++ [r] := by
    rw [trace]
    rfl
  have newest (r' : WalRec) (present : r' ∈ recorded d'.trace) : r'.seq ≤ r.seq := by
    rw [recs] at present
    rcases List.mem_append.mp present with old | new
    · have bound := covering.below r' old
      omega
    · rw [List.mem_singleton.mp new]
  have bound (other : Nat) : (d'.party other).session = (d.party other).session := by
    rw [party]
    by_cases same : other = slot
    · rw [same, party_at, owe_session]
    · rw [party_beside d same]
  -- An acknowledgement that this write adds nothing to.
  have beside {a : LoopAck} {other : Nat} (covers : a.Covers (d.party other).session
      (recorded d.trace) d.sessions) :
      a.Covers (d'.party other).session (recorded d'.trace) d'.sessions := by
    rw [bound, recs, sessions]
    constructor
    · intro due r' present same low
      rcases List.mem_append.mp present with old | new
      · exact covers.recs due r' old same low
      · rw [List.mem_singleton.mp new] at same low
        have below := covers.mark due s (by rw [← same, session]; exact known)
        omega
    · intro due s' found
      obtain ⟨old, before, mark⟩ := sessionLookup_marked found
      have below := covers.mark due old before
      rw [mark]
      split
      · rename_i same
        rw [same, known] at before
        cases before
        omega
      · exact below
  constructor
  · exact owing
  · exact leading.trans covering.leading
  · intro r' present
    have bound := newest r' present
    omega
  · rw [sessions, sessionTouch_ids]
    have ids := @sessionStore_ids d.sessions (d.party slot).session
      (fun s => { s with lastClientSeq := h.sequence }) (fun _ => rfl)
    rw [ids]
    exact covering.distinct
  · intro other
    by_cases same : other = slot
    · subst same
      rw [@owe_acks d d' other (d.write other h (.stored r)) h.sequence able
        (by unfold Write.awaits; exact Bool.and_true _) party level]
      split
      · constructor
        · intro _due r' present _same _low
          have bound := newest r' present
          change r'.seq ≤ if r.seq > ((d.party other).ack level).walSeq then r.seq
            else ((d.party other).ack level).walSeq
          split <;> omega
        · intro _due s' found
          rw [bound, sessions] at found
          obtain ⟨old, before, mark⟩ := sessionLookup_marked found
          rw [if_pos rfl] at mark
          change (if h.sequence > ((d.party other).ack level).clientSeq then h.sequence
            else ((d.party other).ack level).clientSeq) ≤ s'.lastClientSeq
          rw [mark]
          have low := covering.below_mark known
          split <;> omega
      · exact beside (covering.covers other)
    · have kept : (d'.party other).ack level = (d.party other).ack level := by
        rw [party, party_beside d same]
      rw [kept]
      exact beside (covering.covers other)

/-- A resend answers for what is flushed, or waits for the rest already. -/
theorem Desk.CoveringAt.resent (covering : d.CoveringAt level) {h : MsgHeader} {s : Session}
    (known : sessionLookup d.sessions (d.party slot).session = some s)
    (able : wantsCopy h.flags d.live = false)
    (fits : coversFitsAt level (.wrote (d.write slot h .resent)) d.trace = true)
    (owing : d'.Owing) (leading : d'.leading = d.leading)
    (trace : d'.trace = .wrote (d.write slot h .resent) :: d.trace) (next : d'.next = d.next)
    (sessions : d'.sessions = d.sessions) (party : d'.party = (d.setParty slot
      ((d.party slot).owe d.live d.tick h.flags s.lastClientSeq d.durable)).party) :
    d'.CoveringAt level := by
  have recs : recorded d'.trace = recorded d.trace := by
    rw [trace]
    exact recorded_cons rfl
  have bound (other : Nat) : (d'.party other).session = (d.party other).session := by
    rw [party]
    by_cases same : other = slot
    · rw [same, party_at, owe_session]
    · rw [party_beside d same]
  constructor
  · exact owing
  · exact leading.trans covering.leading
  · rw [recs, next]
    exact covering.below
  · rw [sessions]
    exact covering.distinct
  · intro other
    rw [bound, recs, sessions]
    by_cases same : other = slot
    · subst same
      rw [@owe_acks d d' other (d.write other h .resent) s.lastClientSeq able
        (by unfold Write.awaits; exact Bool.and_true _) party level]
      split
      · rename_i adds
        obtain ⟨awaits, at'⟩ := adds
        constructor
        · intro _due r present mine _low
          change r.seq ≤ if d.durable > ((d.party other).ack level).walSeq then d.durable
            else ((d.party other).ack level).walSeq
          have bounded := coversFitsAt_resent fits rfl awaits at' r present mine
          change r.seq ≤ max d.durable (owedSeq other level d.trace) at bounded
          unfold owedSeq at bounded
          rw [← (covering.owing.owes other level).walSeq] at bounded
          split <;> omega
        · intro _due s' found
          rw [known] at found
          cases found
          change (if s.lastClientSeq > ((d.party other).ack level).clientSeq then s.lastClientSeq
            else ((d.party other).ack level).clientSeq) ≤ s.lastClientSeq
          have low := covering.below_mark known
          split <;> omega
      · exact covering.covers other
    · rw [party, party_beside d same]
      exact covering.covers other

theorem Desk.CoveringAt.deal (covering : d.CoveringAt level) (deal : Deal d d')
    (fits : CoversFitsAt level d'.trace) : d'.CoveringAt level := by
  have owing := covering.owing.deal deal
  have still {e : Desk} (owing : e.Owing) (leading : e.leading = d.leading)
      (recs : recorded e.trace = recorded d.trace) (next : e.next = d.next)
      (sessions : e.sessions = d.sessions) (party : e.party = d.party) : e.CoveringAt level :=
    covering.kept owing leading recs next sessions
      (fun slot => Or.inl ⟨by rw [party], by rw [party]⟩)
  have one {e : Desk} {slot : Nat} {p : Party} (owing : e.Owing) (leading : e.leading = d.leading)
      (recs : recorded e.trace = recorded d.trace) (next : e.next = d.next)
      (sessions : e.sessions = d.sessions) (party : e.party = (d.setParty slot p).party)
      (acks : p.ack level = (d.party slot).ack level ∧ p.session = (d.party slot).session ∨
        (p.ack level).due = false) : e.CoveringAt level := by
    refine covering.kept owing leading recs next sessions (fun other => ?_)
    rw [party]
    by_cases same : other = slot
    · rw [same, party_at]
      exact acks
    · rw [party_beside d same]
      exact Or.inl ⟨rfl, rfl⟩
  cases deal with
  | opened | released =>
      exact one owing rfl (recorded_cons rfl) rfl rfl rfl
        (Or.inr (by cases level <;> rfl))
  | drew named absent => exact covering.drew named absent fits.newest
  | joined dispatching fresh known =>
      refine one owing rfl (recorded_cons rfl) rfl rfl rfl (Or.inr ?_)
      have none := @ack_account _ Party.fresh fresh level
      cases level with
      | local' => exact congrArg LoopAck.due none
      | repl => exact congrArg LoopAck.due none
  | refused slot h code => exact still owing rfl (recorded_cons rfl) rfl rfl rfl
  | resent dispatching leading used known able low =>
      exact covering.resent known able fits.newest owing rfl rfl rfl rfl rfl
  | stored dispatching leading used known able high seq session clientSeq below =>
      exact covering.stored known able high seq session clientSeq owing rfl rfl rfl rfl rfl
  | applied following seq below =>
      rw [covering.leading] at following
      cases following
  | attached | detached =>
      exact one owing rfl (recorded_cons rfl) rfl rfl rfl
        (Or.inl ⟨by cases level <;> rfl, rfl⟩)
  | answeredLocal room sent serving used due =>
      refine one owing rfl (recorded_cons rfl) rfl rfl rfl ?_
      cases level with
      | local' => exact Or.inr rfl
      | repl => exact Or.inl ⟨rfl, rfl⟩
  | answeredRepl room sent serving used due verdict =>
      refine one owing rfl (recorded_cons rfl) rfl rfl rfl ?_
      cases level with
      | local' => exact Or.inl ⟨rfl, rfl⟩
      | repl => exact Or.inr rfl
  | raised =>
      unfold Desk.raised at owing ⊢
      split
      · exact covering
      · rename_i rises
        rw [if_neg rises] at owing
        exact still owing rfl rfl rfl rfl rfl
  | synced | confirmed | swept | retained =>
      exact still owing rfl (recorded_cons rfl) rfl rfl rfl
  | ticked | turned => exact still owing rfl rfl rfl rfl rfl

theorem blank_covering {config : Config} {recs : List WalRec} (blank : d.Blank config recs)
    (leads : config.leader = none) (level : Level) : d.CoveringAt level := by
  have same : recorded d.trace = recs := by rw [blank.trace]; rfl
  refine ⟨blank_owing blank, ?_, ?_, ?_, ?_⟩
  · rw [blank.leading, leads]
    rfl
  · rw [same, ← blank.next]
    intro r present
    exact (blank.seqs.bounds r present).2
  · rw [blank.sessions]
    exact foldl_observe_ids recs List.nodup_nil
  · intro slot
    refine .none ?_ _ _ _
    rw [blank.party slot]
    cases level <;> rfl

theorem covers_aside {note : Note} (aside : note.aside = true) (earlier : List Note) :
    AckCovers note earlier := by
  cases note with
  | answered => cases aside
  | _ => trivial

theorem covers_deal (covering : ∀ level, d.CoveringAt level) (kept : Traces.Always AckCovers d.trace)
    (deal : Deal d d') : Traces.Always AckCovers d'.trace := by
  cases deal with
  | answeredLocal room sent serving used due =>
      exact ⟨fun _sent _taken => ((covering .local').covers _).recs due, kept⟩
  | answeredRepl room sent serving used due verdict =>
      exact ⟨fun _sent _taken => ((covering .repl).covers _).recs due, kept⟩
  | raised =>
      unfold Desk.raised
      split
      · exact kept
      · exact kept
  | ticked | turned => exact kept
  | _ => exact ⟨trivial, kept⟩

/-- **Where no resend is acknowledged ahead of the flush of what it repeats, the sequence of
every ACK is at or above all the records it answers for.** -/
theorem acks_cover {config : Config} {l : Loop} (leads : config.leader = none)
    (running : Running config l) (meets : CoversFits l.trace) :
    Traces.Always AckCovers l.trace := by
  obtain ⟨start, phase, lit, starts, _sound, moves, _resting⟩ := running_moves running
  have keeps : (∀ level, (l.desk phase lit).CoveringAt level) ∧
      Traces.Always AckCovers (l.desk phase lit).trace := by
    refine @deals_keep _ (fun note earlier => coversFits note earlier = true)
      (fun d => (∀ level, d.CoveringAt level) ∧ Traces.Always AckCovers d.trace) ?_ ?_ start
      moves ?_ meets
    · rintro d d' ⟨covering, kept⟩ aside
      exact ⟨fun level => (covering level).aside aside,
        aside.trace.always (fun note trace quiet => covers_aside quiet trace) kept⟩
    · rintro d d' ⟨covering, kept⟩ deal fits
      exact ⟨fun level => (covering level).deal deal (fits.imp fun _ _ => coversFits_at level),
        covers_deal covering kept deal⟩
    · obtain ⟨recs, blank⟩ := starts_blank starts
      exact ⟨blank_covering blank leads, blank.trace ▸ ⟨trivial, trivial⟩⟩
  exact keeps.2

instance AckCovers.decidable : ∀ note earlier, Decidable (AckCovers note earlier)
  | .answered _ session a, earlier =>
      inferInstanceAs (Decidable (a.sent = true → a.refused = false →
        ∀ r ∈ recorded earlier, r.session = session → r.clientSeq ≤ a.clientSeq →
          r.seq ≤ a.walSeq))
  | .recovered _, _ | .opened _, _ | .released _, _ | .drew _ _, _ | .joined _ _, _
  | .wrote _, _ | .handed _ _ _ _, _ | .flushed _ _ _ _, _ | .swept _ _ _, _
  | .staged _ _ _, _ | .asked _ _ _ _ _, _ | .began _ _ _, _ | .behind _ _ _ _, _
  | .pushed _ _ _ _ _, _ | .ended _ _ _, _ | .bounded _ _, _ | .retained _ _, _ | .heard _ _, _
  | .attached _ _ _, _ | .confirmed _ _ _, _ | .detached _, _ | .applied _, _ | .dialed, _
  | .reported _, _ | .handedUp _ _ _, _ | .heardDown _, _ => inferInstanceAs (Decidable True)

/-- A client writes a record without asking for an ACK, and again asking for one, in one
pass or in two. -/
def writtenAgain (together : Bool) : List Pass :=
  let first := requestBytes MSG_OP_WRITE 0 3 1 (zeros 16)
  let again := requestBytes MSG_OP_WRITE MSG_FLAG_ACK_REQ 3 1 (zeros 16)
  [calmPass [7] [.listen (some true)], calmPass [7] [arrives 0 (helloBytes 0)]] ++
    if together then [calmPass [7] [arrives 0 (first ++ again)]]
    else [calmPass [7] [arrives 0 first], calmPass [7] [arrives 0 again]]

set_option maxRecDepth 8000 in
/-- The resend is answered with where the log was flushed to before the pass. -/
theorem resend_ahead_of_flush : ¬ ∀ config l, config.leader = none → Running config l →
    Traces.Always AckCovers l.trace := by
  intro always
  have started : Running leaderAlone (leaderAlone.fresh 120) :=
    fresh_running leaderAlone (by decide +kernel)
  have kept := always _ _ rfl (after_running started (writtenAgain true))
  revert kept
  decide +kernel

set_option maxRecDepth 8000 in
theorem acks_cover_later :
    Traces.Always AckCovers ((leaderAlone.fresh 120).after (writtenAgain false)).trace := by
  refine @acks_cover leaderAlone _ rfl
    (after_running (fresh_running leaderAlone (by decide +kernel)) (writtenAgain false)) ?_
  unfold CoversFits
  decide +kernel

end Msgsrvd

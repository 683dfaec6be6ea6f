/-
A replicated acknowledgement: what it answers for is flushed here, and confirmed by a
replica that is still attached.
-/

import Msgsrvd.Server.Covers

namespace Msgsrvd

open Bytestring

variable {d d' : Desk} {slot : Nat} {level : Level}

/-! ### The law -/

/-- What the replica in a slot has confirmed durable, if one is attached there. -/
def heldBy (idx : Nat) : List Note → Option Nat
  | [] => none
  | .attached _ other sequence :: earlier =>
      if other = idx then some sequence else heldBy idx earlier
  | .confirmed _ other sequence :: earlier =>
      if other = idx then (heldBy idx earlier).map (fun _ => sequence) else heldBy idx earlier
  | .detached other :: earlier => if other = idx then none else heldBy idx earlier
  | _ :: earlier => heldBy idx earlier

/-- An ACK that says it is replicated answers for records that the node has flushed and some
attached replica has confirmed. -/
def AckCopied : Note → List Note → Prop
  | .answered _ session a, earlier =>
      a.sent = true → a.refused = false → hasFlag a.flags MSG_FLAG_REPLICATED = true →
        hasFlag a.flags MSG_FLAG_DEGRADED = false → ∀ r ∈ recorded earlier,
          r.session = session → r.clientSeq ≤ a.clientSeq → r.seq ≤ a.durable ∧
            ∃ idx < LOOP_MAX_REPLICAS, ∃ confirmed, heldBy idx earlier = some confirmed ∧
              r.seq ≤ confirmed
  | _, _ => True

/-! ### Flags -/

theorem ackFlagsOf_replicated (flags : Nat) :
    hasFlag (ackFlagsOf flags) MSG_FLAG_REPLICATED = hasFlag flags MSG_FLAG_REPLICATED :=
  hasFlag_and flags rfl

/-- A copy that is waited for where none is made is owed as a degraded one. -/
theorem Write.ackFlags_local {w : Write} (here : w.owedAt = .local')
    (replicated : hasFlag w.ackFlags MSG_FLAG_REPLICATED = true) :
    hasFlag w.ackFlags MSG_FLAG_DEGRADED = true := by
  unfold Write.owedAt oweLevel at here
  unfold Write.ackFlags at replicated ⊢
  cases wants : hasFlag w.header.flags MSG_FLAG_REPLICATED with
  | false =>
      rw [wants, Bool.false_and, if_neg Bool.false_ne_true, ackFlagsOf_replicated, wants]
        at replicated
      cases replicated
  | true =>
      cases live : w.live with
      | true =>
          rw [wants, live] at here
          cases here
      | false =>
          rw [Bool.not_false, Bool.and_true, if_pos rfl, hasFlag_or, Bool.or_eq_true]
          exact Or.inr rfl

/-- An acknowledgement that answers at once for a copy has DEGRADED set. -/
theorem LoopAck.Owes.local_degraded {a : LoopAck} {writes : List Write} (owes : a.Owes writes)
    (here : ∀ w ∈ writes, w.owedAt = .local')
    (replicated : hasFlag a.flags MSG_FLAG_REPLICATED = true) :
    hasFlag a.flags MSG_FLAG_DEGRADED = true := by
  rw [owes.flags] at replicated ⊢
  clear owes
  induction writes with
  | nil => cases replicated
  | cons w rest ih =>
      rw [List.foldr_cons, hasFlag_or, Bool.or_eq_true] at replicated ⊢
      rcases replicated with older | newest
      · exact Or.inl (ih (fun w present => here w (List.mem_cons_of_mem _ present)) older)
      · exact Or.inr (Write.ackFlags_local (here w (List.mem_cons_self ..)) newest)

/-! ### What replicas hold -/

/-- The slots of the replicas, told from the history. -/
def Desk.Attended (d : Desk) : Prop := ∀ idx, d.peers idx = heldBy idx d.trace

theorem Asides.heldBy {earlier later : List Note} (asides : Asides earlier later) (idx : Nat) :
    heldBy idx later = heldBy idx earlier := by
  refine asides.same ?_
  intro note trace quiet
  cases note with
  | attached | confirmed | detached => cases quiet
  | _ => rfl

theorem Desk.Attended.aside (attended : d.Attended) (aside : Aside d d') : d'.Attended := by
  intro idx
  rw [aside.peers, aside.trace.heldBy]
  exact attended idx

/-- One replica comes, goes or confirms. -/
theorem Desk.Attended.one (attended : d.Attended) {note : Note} {idx : Nat} {held : Option Nat}
    (trace : d'.trace = note :: d.trace) (peers : d'.peers = (d.setPeer idx held).peers)
    (told : ∀ other, heldBy other (note :: d.trace) =
      if idx = other then held else heldBy other d.trace) : d'.Attended := by
  intro other
  rw [trace, told other, peers]
  change (if other = idx then held else d.peers other) = _
  by_cases same : other = idx
  · rw [if_pos same, if_pos same.symm]
  · rw [if_neg same, if_neg (Ne.symm same)]
    exact attended other

theorem Desk.Attended.deal (attended : d.Attended) (deal : Deal d d') : d'.Attended := by
  cases deal with
  | attached | detached => exact attended.one rfl rfl (fun _ => rfl)
  | confirmed sequence dispatching of =>
      rename_i slot idx
      refine attended.one rfl rfl (fun other => ?_)
      rw [attended idx]
      by_cases same : idx = other
      · rw [same]
        rfl
      · exact (if_neg same).trans (if_neg same).symm
  | raised =>
      unfold Desk.raised
      split
      · exact attended
      · exact attended
  | _ => exact attended

/-- The best of all confirmed sequences is one of them. -/
theorem best_of {seq best : Nat} {confirmed : Nat → Nat} {slots : List Nat}
    (reached : seq ≤ slots.foldl (fun best idx => max best (confirmed idx)) best) :
    seq ≤ best ∨ ∃ idx ∈ slots, seq ≤ confirmed idx := by
  induction slots generalizing best with
  | nil => exact Or.inl reached
  | cons idx rest ih =>
      rcases ih reached with high | ⟨other, present, high⟩
      · rcases le_max_iff.mp high with before | here
        · exact Or.inl before
        · exact Or.inr ⟨idx, List.mem_cons_self .., here⟩
      · exact Or.inr ⟨other, List.mem_cons_of_mem _ present, high⟩

theorem Desk.Attended.best (attended : d.Attended) {seq : Nat} (positive : 1 ≤ seq)
    (reached : seq ≤ d.best) : ∃ idx < LOOP_MAX_REPLICAS, ∃ confirmed,
      heldBy idx d.trace = some confirmed ∧ seq ≤ confirmed := by
  rcases best_of reached with none | ⟨idx, present, high⟩
  · omega
  · refine ⟨idx, List.mem_range.mp present, ?_⟩
    rw [← attended idx]
    cases held : d.peers idx with
    | none =>
        rw [held] at high
        change seq ≤ 0 at high
        omega
    | some confirmed =>
        rw [held] at high
        exact ⟨confirmed, rfl, high⟩

/-! ### The invariant -/

structure Desk.Copying (d : Desk) : Prop where
  covering : d.CoveringAt .repl
  attended : d.Attended
  positive : ∀ r ∈ recorded d.trace, 1 ≤ r.seq

theorem Desk.Copying.aside (copying : d.Copying) (aside : Aside d d') : d'.Copying := by
  refine ⟨copying.covering.aside aside, copying.attended.aside aside, ?_⟩
  rw [aside.trace.recorded]
  exact copying.positive

theorem Desk.Copying.deal (copying : d.Copying) (deal : Deal d d')
    (fits : CoversFitsAt .repl d'.trace) : d'.Copying := by
  refine ⟨copying.covering.deal deal fits, copying.attended.deal deal, ?_⟩
  have added {r : WalRec} (below : d.durable < r.seq) :
      ∀ r' ∈ recorded d.trace ++ [r], 1 ≤ r'.seq := by
    intro r' present
    rcases List.mem_append.mp present with old | new
    · exact copying.positive r' old
    · rw [List.mem_singleton.mp new]
      omega
  have silent {note : Note} (none' : note.records = []) :
      ∀ r ∈ recorded (note :: d.trace), 1 ≤ r.seq := by
    rw [recorded_cons none']
    exact copying.positive
  cases deal with
  | stored _ _ _ _ _ _ _ _ _ below => exact added below
  | applied _ _ below => exact added below
  | raised =>
      unfold Desk.raised
      split
      · exact copying.positive
      · exact copying.positive
  | ticked | turned => exact copying.positive
  | _ => exact silent rfl

theorem copied_aside {note : Note} (aside : note.aside = true) (earlier : List Note) :
    AckCopied note earlier := by
  cases note with
  | answered => cases aside
  | _ => trivial

/-- How a wait ends that is not degraded. -/
theorem verdict_copied {a : LoopAck} {best durable tick flags : Nat} {live refused : Bool}
    (verdict : a.verdict best durable live tick = some (refused, flags))
    (taken : refused = false) (whole : hasFlag flags MSG_FLAG_DEGRADED = false) :
    a.walSeq ≤ best ∧ a.walSeq ≤ durable := by
  unfold LoopAck.verdict at verdict
  split at verdict
  · assumption
  · split at verdict
    · cases verdict
    · split at verdict
      · cases verdict
        rw [hasFlag_or, Bool.or_eq_false_iff] at whole
        cases whole.2
      · cases verdict
        cases taken

theorem copied_deal (copying : d.Copying) (kept : Traces.Always AckCopied d.trace)
    (deal : Deal d d') : Traces.Always AckCopied d'.trace := by
  cases deal with
  | answeredLocal room sent serving used due =>
      rename_i slot
      refine ⟨fun _sent _taken replicated whole => ?_, kept⟩
      have owes := copying.covering.owing.owes slot .local'
      have degraded := owes.local_degraded (fun w present => (owed_mem present).2.2) replicated
      cases degraded.symm.trans whole
  | answeredRepl room sent serving used due verdict =>
      refine ⟨fun _sent taken _replicated whole r present mine low => ?_, kept⟩
      have covered := (copying.covering.covers _).recs due r present mine low
      obtain ⟨copied, flushed⟩ := verdict_copied verdict taken whole
      exact ⟨Nat.le_trans covered flushed, copying.attended.best (copying.positive r present)
        (Nat.le_trans covered copied)⟩
  | raised =>
      unfold Desk.raised
      split
      · exact kept
      · exact kept
  | ticked | turned => exact kept
  | _ => exact ⟨trivial, kept⟩

theorem blank_copying {config : Config} {recs : List WalRec} (blank : d.Blank config recs)
    (leads : config.leader = none) : d.Copying := by
  refine ⟨blank_covering blank leads .repl, ?_, ?_⟩
  · intro idx
    rw [blank.peers, blank.trace]
    rfl
  · rw [blank.trace]
    intro r present
    exact Nat.le_trans blank.positive (blank.seqs.bounds r present).1

/-- **Where no resend is acknowledged for a copy ahead of the flush of what it repeats, what
a replicated ACK answers for is flushed, and confirmed by a replica that is attached.** -/
theorem acks_copied {config : Config} {l : Loop} (leads : config.leader = none)
    (running : Running config l) (meets : CoversFitsAt .repl l.trace) :
    Traces.Always AckCopied l.trace := by
  obtain ⟨start, phase, lit, starts, _sound, moves, _resting⟩ := running_moves running
  have keeps : (l.desk phase lit).Copying ∧ Traces.Always AckCopied (l.desk phase lit).trace := by
    refine @deals_keep _ (fun note earlier => coversFitsAt .repl note earlier = true)
      (fun d => d.Copying ∧ Traces.Always AckCopied d.trace) ?_ ?_ start moves ?_ meets
    · rintro d d' ⟨copying, kept⟩ aside
      exact ⟨copying.aside aside,
        aside.trace.always (fun note trace quiet => copied_aside quiet trace) kept⟩
    · rintro d d' ⟨copying, kept⟩ deal fits
      exact ⟨copying.deal deal fits, copied_deal copying kept deal⟩
    · obtain ⟨recs, blank⟩ := starts_blank starts
      exact ⟨blank_copying blank leads, blank.trace ▸ ⟨trivial, trivial⟩⟩
  exact keeps.2

instance heldBy.decidable (seq idx : Nat) (earlier : List Note) :
    Decidable (∃ confirmed, heldBy idx earlier = some confirmed ∧ seq ≤ confirmed) :=
  decidable_of_iff ((heldBy idx earlier).any (fun confirmed => seq ≤ confirmed) = true)
    (by rw [Option.any_eq_true]; simp only [decide_eq_true_eq])

instance AckCopied.decidable : ∀ note earlier, Decidable (AckCopied note earlier)
  | .answered _ session a, earlier =>
      inferInstanceAs (Decidable (a.sent = true → a.refused = false →
        hasFlag a.flags MSG_FLAG_REPLICATED = true → hasFlag a.flags MSG_FLAG_DEGRADED = false →
          ∀ r ∈ recorded earlier, r.session = session → r.clientSeq ≤ a.clientSeq →
            r.seq ≤ a.durable ∧ ∃ idx < LOOP_MAX_REPLICAS, ∃ confirmed,
              heldBy idx earlier = some confirmed ∧ r.seq ≤ confirmed))
  | .recovered _, _ | .opened _, _ | .released _, _ | .drew _ _, _ | .joined _ _, _
  | .wrote _, _ | .handed _ _ _ _, _ | .flushed _ _ _ _, _ | .swept _ _ _, _
  | .staged _ _ _, _ | .asked _ _ _ _ _, _ | .began _ _ _, _ | .behind _ _ _ _, _
  | .pushed _ _ _ _ _, _ | .ended _ _ _, _ | .bounded _ _, _ | .retained _ _, _ | .heard _ _, _
  | .attached _ _ _, _ | .confirmed _ _ _, _ | .detached _, _ | .applied _, _ | .dialed, _
  | .reported _, _ | .handedUp _ _ _, _ | .heardDown _, _ => inferInstanceAs (Decidable True)

/-- A replica attaches; a client writes a record without asking for an ACK, and again asking
for a replicated one, in one pass or in two; the replica confirms the record. -/
def copiedAgain (together : Bool) : List Pass :=
  let first := requestBytes MSG_OP_WRITE 0 3 1 (zeros 16)
  let again := requestBytes MSG_OP_WRITE (MSG_FLAG_ACK_REQ ||| MSG_FLAG_REPLICATED) 3 1 (zeros 16)
  let confirms := requestBytes MSG_OP_REPL_ACK 0 0 1 []
  [calmPass [7] [.listen (some true), .listen (some true)],
    calmPass [7] [arrives 1 (requestBytes MSG_OP_REPL_START 0 0 1 [])],
    calmPass [7] [arrives 0 (helloBytes 0)]] ++
    if together then [calmPass [7] [arrives 0 (first ++ again)]]
    else
      [calmPass [7] [arrives 0 first], calmPass [7] [arrives 0 again],
        calmPass [7] [arrives 1 confirms]]

set_option maxRecDepth 8000 in
/-- The resend is answered as replicated before the replica has the record. -/
theorem resend_ahead_of_copy : ¬ ∀ config l, config.leader = none → Running config l →
    Traces.Always AckCopied l.trace := by
  intro always
  have started : Running leaderAlone (leaderAlone.fresh 120) :=
    fresh_running leaderAlone (by decide +kernel)
  have kept := always _ _ rfl (after_running started (copiedAgain true))
  revert kept
  decide +kernel

set_option maxRecDepth 8000 in
theorem acks_copied_later :
    Traces.Always AckCopied ((leaderAlone.fresh 120).after (copiedAgain false)).trace := by
  refine @acks_copied leaderAlone _ rfl
    (after_running (fresh_running leaderAlone (by decide +kernel)) (copiedAgain false)) ?_
  unfold CoversFitsAt
  decide +kernel

end Msgsrvd

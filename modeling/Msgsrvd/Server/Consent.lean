/-
Who is told that there is no second copy: the writes a connection has yet to be answered
for, those of them that said they would do without, and the ones that get an error.
-/

import Msgsrvd.Server.Copied

namespace Msgsrvd

open Bytestring

variable {d d' : Desk} {slot : Nat} {level : Level}

/-! ### Writes that asked for a copy -/

def Write.replicated (w : Write) : Bool := hasFlag w.header.flags MSG_FLAG_REPLICATED

def Write.allows (w : Write) : Bool := hasFlag w.header.flags MSG_FLAG_ALLOW_DEGRADED

def Write.accepted (w : Write) : Bool :=
  match w.fate with
  | .refused _ => false
  | _ => true

/-- The accepted writes of a connection that asked for a second copy, less those that have
been answered since: at their own level, with a client sequence at or above their own. -/
def unanswered (slot : Nat) : List Note → List Write
  | [] => []
  | .wrote w :: earlier =>
      if w.slot = slot ∧ w.accepted = true ∧ w.replicated = true then w :: unanswered slot earlier
      else unanswered slot earlier
  | .opened other :: earlier | .released other :: earlier =>
      if other = slot then [] else unanswered slot earlier
  | .answered other _ a :: earlier =>
      if other = slot ∧ a.sent = true then
        (unanswered slot earlier).filter (fun w =>
          !(w.owedAt == a.level && decide (w.header.sequence ≤ a.clientSeq)))
      else unanswered slot earlier
  | _ :: earlier => unanswered slot earlier

/-- The records a write is about: the one it became, or those it repeats. -/
def Write.records (w : Write) (earlier : List Note) : List WalRec :=
  match w.fate with
  | .refused _ => []
  | .resent => (recorded earlier).filter (fun r =>
      r.session == w.session && r.clientSeq == w.header.sequence)
  | .stored r => [r]

/-- The highest sequence that an attached replica has confirmed. -/
def bestHeld (earlier : List Note) : Nat :=
  (List.range LOOP_MAX_REPLICAS).foldl (fun best idx => max best ((heldBy idx earlier).getD 0)) 0

/-! ### The law -/

/-- An ACK with DEGRADED answers for no write that did not allow it.  A write that did not
allow it is answered with an error, unless a replica has confirmed it; and the error does
not wait longer than for a replica to leave, or for the first deadline. -/
def AckConsented : Note → List Note → Prop
  | .answered slot _ a, earlier =>
      (a.sent = true → a.refused = false → hasFlag a.flags MSG_FLAG_DEGRADED = true →
        ∀ w ∈ unanswered slot earlier, w.header.sequence ≤ a.clientSeq → w.allows = true) ∧
      (a.level = .repl → a.refused = false → ∀ w ∈ owed slot .repl earlier, w.allows = false →
        hasFlag a.flags MSG_FLAG_DEGRADED = false ∧
          ∀ r ∈ w.records earlier, r.seq ≤ bestHeld earlier)
  | .swept _ live tick, earlier =>
      ∀ w ∈ awaited earlier, w.owedAt = .repl →
        live = true ∧ ∃ older ∈ owed w.slot .repl earlier, tick < older.deadline
  | _, _ => True

/-- What is owed adds up, is owed to somebody, and is owed only to those it may be. -/
structure Desk.Consenting (d : Desk) : Prop where
  owing : d.Owing
  attended : d.Attended
  able : ∀ w ∈ awaited d.trace, wantsCopy w.header.flags w.live = false
  seated : ∀ slot level, ((d.party slot).ack level).due = true → (d.party slot).inUse = true

theorem Desk.Consenting.aside (consenting : d.Consenting) (aside : Aside d d') :
    d'.Consenting := by
  refine ⟨consenting.owing.aside aside, consenting.attended.aside aside, ?_, ?_⟩
  · rw [aside.trace.awaited]
    exact consenting.able
  · intro slot level due
    rw [ack_account (aside.account slot) level] at due
    exact (congrArg Account.inUse (aside.account slot)).trans (consenting.seated slot level due)

/-- The writes that wait after a deal waited before, or have just been accepted. -/
theorem Deal.awaited (deal : Deal d d') : ∀ w ∈ awaited d'.trace,
    w ∈ awaited d.trace ∨ wantsCopy w.header.flags w.live = false := by
  have wrote {v : Write} (able : v.awaits = true → wantsCopy v.header.flags v.live = false) :
      ∀ w ∈ Msgsrvd.awaited (.wrote v :: d.trace),
        w ∈ Msgsrvd.awaited d.trace ∨ wantsCopy w.header.flags w.live = false := by
    intro w listed
    rw [awaited_wrote] at listed
    split at listed
    · rename_i awaits
      rcases List.mem_cons.mp listed with same | old
      · rw [same]
        exact Or.inr (able awaits)
      · exact Or.inl old
    · exact Or.inl listed
  cases deal with
  | refused slot h code =>
      refine wrote (fun awaits => ?_)
      cases (Bool.and_eq_true_iff.mp awaits).2
  | resent dispatching leading used known able low => exact wrote (fun _ => able)
  | stored dispatching leading used known able => exact wrote (fun _ => able)
  | opened | released | answeredLocal | answeredRepl =>
      exact fun w listed => Or.inl (List.mem_filter.mp listed).1
  | raised =>
      unfold Desk.raised
      split
      · exact fun w listed => Or.inl listed
      · exact fun w listed => Or.inl listed
  | _ => exact fun w listed => Or.inl listed

/-- One party changes, and is owed nothing that nobody is there for. -/
theorem seated_one {p : Party}
    (seated : ∀ slot level, ((d.party slot).ack level).due = true → (d.party slot).inUse = true)
    (party : d'.party = (d.setParty slot p).party)
    (here : ∀ level, (p.ack level).due = true → p.inUse = true) :
    ∀ slot level, ((d'.party slot).ack level).due = true → (d'.party slot).inUse = true := by
  intro other level
  rw [party]
  by_cases same : other = slot
  · rw [same, party_at]
    exact here level
  · rw [party_beside d same]
    exact seated other level

theorem owe_inUse (p : Party) (live : Bool) (tick flags clientSeq walSeq : Nat) :
    (p.owe live tick flags clientSeq walSeq).inUse = p.inUse := by
  unfold Party.owe
  split
  · rfl
  · split
    · rfl
    · split <;> rfl

theorem Desk.Consenting.deal (consenting : d.Consenting) (deal : Deal d d') :
    d'.Consenting := by
  have seated := consenting.seated
  refine ⟨consenting.owing.deal deal, consenting.attended.deal deal, ?_, ?_⟩
  · intro w listed
    rcases deal.awaited w listed with old | able
    · exact consenting.able w old
    · exact able
  have same {slot : Nat} {p : Party} (used : p.inUse = (d.party slot).inUse)
      (local' : p.ackLocal = (d.party slot).ackLocal) (repl : p.ackRepl = (d.party slot).ackRepl)
      (level : Level) (due : (p.ack level).due = true) : p.inUse = true := by
    rw [used]
    cases level with
    | local' =>
        change p.ackLocal.due = true at due
        rw [local'] at due
        exact seated slot .local' due
    | repl =>
        change p.ackRepl.due = true at due
        rw [repl] at due
        exact seated slot .repl due
  cases deal with
  | opened => exact seated_one seated rfl (fun _ _ => rfl)
  | released => exact seated_one seated rfl (fun level due => by cases level <;> cases due)
  | joined => exact seated_one seated rfl (same rfl rfl rfl)
  | resent _ _ used | stored _ _ used =>
      exact seated_one seated rfl (fun _ _ => (owe_inUse ..).trans used)
  | attached | detached => exact seated_one seated rfl (same rfl rfl rfl)
  | answeredLocal _ _ _ used | answeredRepl _ _ _ used =>
      exact seated_one seated rfl (fun _ _ => used)
  | raised =>
      unfold Desk.raised
      split
      · exact seated
      · exact seated
  | _ => exact seated

instance AckConsented.decidable : ∀ note earlier, Decidable (AckConsented note earlier)
  | .answered slot _ a, earlier =>
      inferInstanceAs (Decidable (
        (a.sent = true → a.refused = false → hasFlag a.flags MSG_FLAG_DEGRADED = true →
          ∀ w ∈ unanswered slot earlier, w.header.sequence ≤ a.clientSeq → w.allows = true) ∧
        (a.level = .repl → a.refused = false → ∀ w ∈ owed slot .repl earlier, w.allows = false →
          hasFlag a.flags MSG_FLAG_DEGRADED = false ∧
            ∀ r ∈ w.records earlier, r.seq ≤ bestHeld earlier)))
  | .swept _ live tick, earlier =>
      inferInstanceAs (Decidable (∀ w ∈ awaited earlier, w.owedAt = .repl →
        live = true ∧ ∃ older ∈ owed w.slot .repl earlier, tick < older.deadline))
  | .recovered _, _ | .opened _, _ | .released _, _ | .drew _ _, _ | .joined _ _, _
  | .wrote _, _ | .handed _ _ _ _, _ | .flushed _ _ _ _, _
  | .staged _ _ _, _ | .asked _ _ _ _ _, _ | .began _ _ _, _ | .behind _ _ _ _, _
  | .pushed _ _ _ _ _, _ | .ended _ _ _, _ | .bounded _ _, _ | .retained _ _, _ | .heard _ _, _
  | .attached _ _ _, _ | .confirmed _ _ _, _ | .detached _, _ | .applied _, _ | .dialed, _
  | .reported _, _ | .handedUp _ _ _, _ | .heardDown _, _ => inferInstanceAs (Decidable True)

end Msgsrvd

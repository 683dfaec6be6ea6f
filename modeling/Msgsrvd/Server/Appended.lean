/-
What an acknowledgement says is stored: every WRITE of the session at or below its client
sequence has become a record.
-/

import Msgsrvd.Server.Once

namespace Msgsrvd

open Bytestring

variable {d d' : Desk} {past : List WalRec} {slot : Nat} {level : Level}

/-! ### The law -/

/-- The WRITEs the node has received. -/
def received : List Note → List Write
  | [] => []
  | .wrote w :: earlier => w :: received earlier
  | _ :: earlier => received earlier

/-- A record of the session with this client sequence has been appended: in this run, or
before it, where `past` is what the log has lost of that. -/
def appended (past : List WalRec) (trace : List Note) (session clientSeq : Nat) : Bool :=
  (past ++ recorded trace).any (fun r => r.session == session && r.clientSeq == clientSeq)

/-- An ACK answers for no WRITE that has not become a record, and no WRITE passes for a
resend that has not. -/
def AckAppended (past : List WalRec) : Note → List Note → Prop
  | .answered _ session a, earlier =>
      a.sent = true → a.refused = false → ∀ w ∈ received earlier, w.session = session →
        w.header.sequence ≤ a.clientSeq → appended past earlier session w.header.sequence = true
  | .wrote w, earlier =>
      w.fate = .resent → appended past earlier w.session w.header.sequence = true
  | _, _ => True

/-- A WRITE of a session repeats one of its records, or is above them all; and one that is
appended passes over none received before it that was not. -/
def orderFits (past : List WalRec) : Note → List Note → Bool
  | .wrote w, earlier =>
      w.session == 0 ||
        ((appended past earlier w.session w.header.sequence ||
            (decide (0 < w.header.sequence) && (past ++ recorded earlier).all (fun r =>
              r.session != w.session || decide (r.clientSeq < w.header.sequence)))) &&
          match w.fate with
          | .stored _ => (received earlier).all (fun v =>
              v.session != w.session || decide (w.header.sequence ≤ v.header.sequence) ||
                appended past earlier v.session v.header.sequence)
          | _ => true)
  | _, _ => true

/-- The condition on a whole history. -/
def OrderFits (past : List WalRec) (trace : List Note) : Prop :=
  Traces.Always (fun note earlier => orderFits past note earlier = true) trace

/-! ### How far a session has come -/

/-- Its records go as far as this client sequence. -/
def Reaches (past recs : List WalRec) (session clientSeq : Nat) : Prop :=
  clientSeq = 0 ∨ ∃ r ∈ past ++ recs, r.session = session ∧ clientSeq ≤ r.clientSeq

theorem Reaches.le {recs : List WalRec} {session low high : Nat}
    (reaches : Reaches past recs session high) (below : low ≤ high) :
    Reaches past recs session low := by
  rcases reaches with zero | ⟨r, present, mine, far⟩
  · exact Or.inl (by omega)
  · exact Or.inr ⟨r, present, mine, Nat.le_trans below far⟩

theorem Reaches.max {recs : List WalRec} {session left right : Nat}
    (first : Reaches past recs session left) (second : Reaches past recs session right) :
    Reaches past recs session (if left > right then left else right) := by
  split
  · exact first
  · exact second

theorem Reaches.more {recs : List WalRec} {session clientSeq : Nat} (r : WalRec)
    (reaches : Reaches past recs session clientSeq) :
    Reaches past (recs ++ [r]) session clientSeq := by
  rcases reaches with zero | ⟨r', present, far⟩
  · exact Or.inl zero
  · exact Or.inr ⟨r', by rw [← List.append_assoc]; exact List.mem_append_left _ present, far⟩

theorem Reaches.last {recs : List WalRec} {r : WalRec} {session clientSeq : Nat}
    (mine : r.session = session) (below : clientSeq ≤ r.clientSeq) :
    Reaches past (recs ++ [r]) session clientSeq := by
  refine Or.inr ⟨r, ?_, mine, below⟩
  exact List.mem_append_right _ (List.mem_append_right _ (List.mem_singleton_self r))

theorem appended_iff {trace : List Note} {session clientSeq : Nat} :
    appended past trace session clientSeq = true ↔
      ∃ r ∈ past ++ recorded trace, r.session = session ∧ r.clientSeq = clientSeq := by
  unfold appended
  rw [List.any_eq_true]
  simp only [Bool.and_eq_true, beq_iff_eq]

/-- A WRITE in order that a record is at or above has been appended itself. -/
theorem orderFits_appended {w : Write} {earlier : List Note}
    (fits : orderFits past (.wrote w) earlier = true) (named : w.session ≠ 0)
    (reaches : Reaches past (recorded earlier) w.session w.header.sequence) :
    appended past earlier w.session w.header.sequence = true := by
  unfold orderFits at fits
  simp only [Bool.or_eq_true, Bool.and_eq_true, beq_iff_eq] at fits
  rcases fits with zero | ⟨stored | ⟨positive, above⟩, -⟩
  · exact absurd zero named
  · exact stored
  · rcases reaches with zero | ⟨r, present, mine, far⟩
    · have positive := of_decide_eq_true positive
      omega
    · have below := List.all_eq_true.mp above r present
      rw [mine, bne_self_eq_false, Bool.false_or] at below
      have below := of_decide_eq_true below
      omega

/-- One that is appended passes over none. -/
theorem orderFits_passes {w : Write} {r : WalRec} {earlier : List Note}
    (fits : orderFits past (.wrote w) earlier = true) (fate : w.fate = .stored r)
    (named : w.session ≠ 0) {v : Write} (present : v ∈ received earlier)
    (mine : v.session = w.session) (below : v.header.sequence < w.header.sequence) :
    appended past earlier v.session v.header.sequence = true := by
  unfold orderFits at fits
  simp only [fate, Bool.or_eq_true, Bool.and_eq_true, beq_iff_eq] at fits
  rcases fits with zero | ⟨-, passes⟩
  · exact absurd zero named
  · have held := List.all_eq_true.mp passes v present
    simp only [mine, bne_self_eq_false, Bool.or_eq_true, Bool.false_eq_true, false_or,
      decide_eq_true_eq] at held
    rcases held with above | stored
    · omega
    · rw [mine]
      exact stored

theorem appended_more {note : Note} {trace : List Note} {session clientSeq : Nat}
    (stored : appended past trace session clientSeq = true) :
    appended past (note :: trace) session clientSeq = true := by
  obtain ⟨r, present, same⟩ := appended_iff.mp stored
  refine appended_iff.mpr ⟨r, ?_, same⟩
  change r ∈ past ++ (recorded trace ++ note.records)
  rw [← List.append_assoc]
  exact List.mem_append_left _ present

/-- Marks and acknowledgements go no further than the records of their session, and below
those every WRITE that was received is a record. -/
structure Desk.Filled (past : List WalRec) (d : Desk) : Prop where
  leading : d.leading = true
  distinct : d.sessions.ids.Nodup
  known : ∀ id s, sessionLookup d.sessions id = some s →
    Reaches past (recorded d.trace) id s.lastClientSeq
  filled : ∀ w ∈ received d.trace, w.session ≠ 0 →
    Reaches past (recorded d.trace) w.session w.header.sequence →
      appended past d.trace w.session w.header.sequence = true
  named : ∀ slot level, ((d.party slot).ack level).due = true → (d.party slot).session ≠ 0
  owed : ∀ slot level,
    Reaches past (recorded d.trace) (d.party slot).session ((d.party slot).ack level).clientSeq

/-- Nothing is received, recorded or owed. -/
theorem Desk.Filled.kept (filled : d.Filled past) (leading : d'.leading = d.leading)
    (sessions : d'.sessions = d.sessions) (recs : recorded d'.trace = recorded d.trace)
    (heard : received d'.trace = received d.trace)
    (acks : ∀ slot level, (d'.party slot).ack level = (d.party slot).ack level ∧
      (d'.party slot).session = (d.party slot).session ∨
      (d'.party slot).ack level = ackNone) : d'.Filled past := by
  refine ⟨leading.trans filled.leading, sessions ▸ filled.distinct, ?_, ?_, ?_, ?_⟩
  · rw [sessions, recs]
    exact filled.known
  · rw [heard, recs]
    intro w present named reaches
    unfold appended
    rw [recs]
    exact filled.filled w present named reaches
  · intro slot level due
    rcases acks slot level with ⟨ack, session⟩ | idle
    · rw [ack] at due
      rw [session]
      exact filled.named slot level due
    · rw [idle] at due
      cases due
  · intro slot level
    rw [recs]
    rcases acks slot level with ⟨ack, session⟩ | idle
    · rw [ack, session]
      exact filled.owed slot level
    · rw [idle]
      exact Or.inl rfl

theorem Asides.received {earlier later : List Note} (asides : Asides earlier later) :
    received later = received earlier := by
  refine asides.same ?_
  intro note trace quiet
  cases note with
  | wrote => cases quiet
  | _ => rfl

theorem Desk.Filled.aside (filled : d.Filled past) (aside : Aside d d') : d'.Filled past :=
  filled.kept aside.leading aside.sessions aside.trace.recorded aside.trace.received
    (fun slot level => Or.inl ⟨ack_account (aside.account slot) level,
      congrArg Account.session (aside.account slot)⟩)

/-- What is received has been appended as far as the records of its session go. -/
theorem Desk.Filled.wrote (filled : d.Filled past) {w : Write}
    (fits : orderFits past (.wrote w) d.trace = true)
    (shape : ∀ r, w.fate = .stored r → r.session = w.session ∧ r.clientSeq = w.header.sequence) :
    ∀ v ∈ received (.wrote w :: d.trace), v.session ≠ 0 →
      Reaches past (recorded (.wrote w :: d.trace)) v.session v.header.sequence →
        appended past (.wrote w :: d.trace) v.session v.header.sequence = true := by
  intro v present named reaches
  -- A WRITE that the records reached before this one.
  have before (reached : Reaches past (recorded d.trace) v.session v.header.sequence) :
      appended past (.wrote w :: d.trace) v.session v.header.sequence = true := by
    refine appended_more ?_
    rcases List.mem_cons.mp present with same | old
    · rw [same] at named reached ⊢
      exact orderFits_appended fits named reached
    · exact filled.filled v old named reached
  cases fate : w.fate with
  | refused | resent =>
      have recs : recorded (.wrote w :: d.trace) = recorded d.trace :=
        recorded_cons (by unfold Note.records; simp only [fate])
      exact before (recs ▸ reaches)
  | stored r =>
      obtain ⟨session, clientSeq⟩ := shape r fate
      have recs : recorded (.wrote w :: d.trace) = recorded d.trace ++ [r] := by
        change recorded d.trace ++ (Note.wrote w).records = _
        unfold Note.records
        simp only [fate]
      rcases reaches with zero | ⟨r', listed, mine, far⟩
      · exact before (Or.inl zero)
      · rw [recs, ← List.append_assoc] at listed
        rcases List.mem_append.mp listed with old | new
        · exact before (Or.inr ⟨r', old, mine, far⟩)
        · rw [List.mem_singleton.mp new] at mine far
          have same : v.session = w.session := mine.symm.trans session
          by_cases last : v.header.sequence = w.header.sequence
          · refine appended_iff.mpr ⟨r, ?_, mine, clientSeq.trans last.symm⟩
            rw [recs]
            exact List.mem_append_right _ (List.mem_append_right _ (List.mem_singleton_self r))
          · rcases List.mem_cons.mp present with here | old
            · rw [here] at last
              exact absurd rfl last
            · exact appended_more (orderFits_passes fits fate (same ▸ named) old same (by omega))

/-- A WRITE adds to what its connection is owed, up to the records of its session. -/
theorem Desk.Filled.owes (filled : d.Filled past) {w : Write} {s : Session} {clientSeq : Nat}
    {recs : List WalRec} (able : wantsCopy w.header.flags w.live = false)
    (accepted : w.awaits = hasFlag w.header.flags MSG_FLAG_ACK_REQ)
    (known : sessionLookup d.sessions (d.party slot).session = some s)
    (grows : ∀ session clientSeq, Reaches past (recorded d.trace) session clientSeq →
      Reaches past recs session clientSeq)
    (reaches : Reaches past recs (d.party slot).session clientSeq)
    (party : d'.party = (d.setParty slot
      ((d.party slot).owe w.live w.tick w.header.flags clientSeq w.walSeq)).party) :
    (∀ other level, ((d'.party other).ack level).due = true → (d'.party other).session ≠ 0) ∧
      ∀ other level, Reaches past recs (d'.party other).session
        ((d'.party other).ack level).clientSeq := by
  have bound (other : Nat) : (d'.party other).session = (d.party other).session := by
    rw [party]
    by_cases same : other = slot
    · rw [same, party_at, owe_session]
    · rw [party_beside d same]
  have beside {other : Nat} (differ : other ≠ slot) (level : Level) :
      (d'.party other).ack level = (d.party other).ack level := by
    rw [party, party_beside d differ]
  constructor
  · intro other level due
    rw [bound]
    by_cases same : other = slot
    · rw [same]
      exact (sessionLookup_id known).2.1
    · rw [beside same] at due
      exact filled.named other level due
  · intro other level
    rw [bound]
    by_cases same : other = slot
    · rw [same, owe_acks able accepted party level]
      split
      · exact Reaches.max reaches (grows _ _ (filled.owed slot level))
      · exact grows _ _ (filled.owed slot level)
    · rw [beside same]
      exact grows _ _ (filled.owed other level)

theorem Desk.Filled.drew (filled : d.Filled past) {id : Nat} (named : id ≠ 0)
    (absent : sessionLookup d.sessions id = none) :
    ({ d with sessions := slotForNew d.sessions id }.note (.drew id d.first)).Filled past := by
  have still : ({ d with sessions := d.sessions }.note (.drew id d.first)).Filled past :=
    filled.kept rfl rfl (recorded_cons rfl) rfl (fun _ _ => Or.inl ⟨rfl, rfl⟩)
  refine ⟨still.leading, ?_, ?_, still.filled, still.named, still.owed⟩
  · exact slotForNew_ids ((sessionLookup_none named).mp absent) filled.distinct
  · intro other s found
    by_cases same : other = id
    · rw [same] at found
      cases (sessionLookup_slotForNew named absent).symm.trans found
      exact Or.inl rfl
    · exact still.known other s (sessionLookup_slotForNew_other filled.distinct same found)

theorem Desk.Filled.deal (filled : d.Filled past) (deal : Deal d d')
    (fits : OrderFits past d'.trace) : d'.Filled past := by
  have one {e : Desk} {slot : Nat} {p : Party} (leading : e.leading = d.leading)
      (sessions : e.sessions = d.sessions) (recs : recorded e.trace = recorded d.trace)
      (heard : received e.trace = received d.trace) (party : e.party = (d.setParty slot p).party)
      (acks : ∀ level, p.ack level = (d.party slot).ack level ∧
        p.session = (d.party slot).session ∨ p.ack level = ackNone) : e.Filled past := by
    refine filled.kept leading sessions recs heard (fun other level => ?_)
    rw [party]
    by_cases same : other = slot
    · rw [same, party_at]
      exact acks level
    · rw [party_beside d same]
      exact Or.inl ⟨rfl, rfl⟩
  have still {e : Desk} (leading : e.leading = d.leading) (sessions : e.sessions = d.sessions)
      (recs : recorded e.trace = recorded d.trace) (heard : received e.trace = received d.trace)
      (party : e.party = d.party) : e.Filled past :=
    filled.kept leading sessions recs heard (fun _ _ => Or.inl ⟨by rw [party], by rw [party]⟩)
  cases deal with
  | opened | released =>
      exact one rfl rfl (recorded_cons rfl) rfl rfl
        (fun level => Or.inr (by cases level <;> rfl))
  | drew named absent => exact filled.drew named absent
  | joined dispatching fresh known =>
      refine one rfl rfl (recorded_cons rfl) rfl rfl (fun level => Or.inr ?_)
      have none := @ack_account _ Party.fresh fresh level
      cases level with
      | local' => exact none
      | repl => exact none
  | refused slot h code =>
      have same := @recorded_cons (.wrote (d.write slot h (.refused code))) d.trace rfl
      refine ⟨filled.leading, filled.distinct, ?_, ?_, filled.named, ?_⟩
      · exact same ▸ filled.known
      · exact filled.wrote fits.newest (fun r fate => by cases fate)
      · exact same ▸ filled.owed
  | resent dispatching leading used known able low =>
      rename_i slot h s
      have same := @recorded_cons (.wrote (d.write slot h .resent)) d.trace rfl
      have mark := filled.known _ s known
      obtain ⟨named, owed⟩ := filled.owes (w := d.write slot h .resent) able
        (by unfold Write.awaits; exact Bool.and_true _) known (fun _ _ far => far) mark rfl
      refine ⟨filled.leading, filled.distinct, ?_, ?_, named, ?_⟩
      · exact same ▸ filled.known
      · exact filled.wrote fits.newest (fun r fate => by cases fate)
      · exact same ▸ owed
  | stored dispatching leading used known able high seq session clientSeq below =>
      rename_i slot h s r
      have more (session clientSeq : Nat) (far : Reaches past (recorded d.trace) session clientSeq) :
          Reaches past (recorded d.trace ++ [r]) session clientSeq := far.more r
      have top : Reaches past (recorded d.trace ++ [r]) (d.party slot).session h.sequence :=
        .last session (Nat.le_of_eq clientSeq.symm)
      obtain ⟨named, owed⟩ := filled.owes (w := d.write slot h (.stored r)) able
        (by unfold Write.awaits; exact Bool.and_true _) known more top rfl
      refine ⟨filled.leading, ?_, ?_, ?_, named, owed⟩
      · have ids := @sessionStore_ids d.sessions (d.party slot).session
          (fun s => { s with lastClientSeq := h.sequence }) (fun _ => rfl)
        exact ((sessionTouch_ids _ _).trans ids).symm ▸ filled.distinct
      · intro other s' found
        obtain ⟨old, before, mark⟩ := sessionLookup_marked found
        rw [mark]
        split
        · rename_i same
          rw [same]
          exact top
        · exact more _ _ (filled.known other old before)
      · refine filled.wrote fits.newest (fun r' fate => ?_)
        cases fate
        exact ⟨session, clientSeq⟩
  | applied following =>
      rw [filled.leading] at following
      cases following
  | attached | detached =>
      exact one rfl rfl (recorded_cons rfl) rfl rfl
        (fun level => Or.inl ⟨by cases level <;> rfl, rfl⟩)
  | answeredLocal =>
      refine one rfl rfl (recorded_cons rfl) rfl rfl (fun level => ?_)
      cases level with
      | local' => exact Or.inr rfl
      | repl => exact Or.inl ⟨rfl, rfl⟩
  | answeredRepl =>
      refine one rfl rfl (recorded_cons rfl) rfl rfl (fun level => ?_)
      cases level with
      | local' => exact Or.inl ⟨rfl, rfl⟩
      | repl => exact Or.inr rfl
  | raised =>
      unfold Desk.raised
      split
      · exact filled
      · exact still rfl rfl rfl rfl rfl
  | synced | confirmed | swept | retained => exact still rfl rfl (recorded_cons rfl) rfl rfl
  | ticked | turned => exact still rfl rfl rfl rfl rfl

instance AckAppended.decidable (past : List WalRec) :
    ∀ note earlier, Decidable (AckAppended past note earlier)
  | .answered _ session a, earlier =>
      inferInstanceAs (Decidable (a.sent = true → a.refused = false → ∀ w ∈ received earlier,
        w.session = session → w.header.sequence ≤ a.clientSeq →
          appended past earlier session w.header.sequence = true))
  | .wrote w, earlier =>
      inferInstanceAs (Decidable (w.fate = .resent →
        appended past earlier w.session w.header.sequence = true))
  | .recovered _, _ | .opened _, _ | .released _, _ | .drew _ _, _ | .joined _ _, _
  | .handed _ _ _ _, _ | .flushed _ _ _ _, _ | .swept _ _ _, _
  | .staged _ _ _, _ | .asked _ _ _ _ _, _ | .began _ _ _, _ | .behind _ _ _ _, _
  | .pushed _ _ _ _ _, _ | .ended _ _ _, _ | .bounded _ _, _ | .retained _ _, _ | .heard _ _, _
  | .attached _ _ _, _ | .confirmed _ _ _, _ | .detached _, _ | .applied _, _ | .dialed, _
  | .reported _, _ | .handedUp _ _ _, _ | .heardDown _, _ => inferInstanceAs (Decidable True)

end Msgsrvd

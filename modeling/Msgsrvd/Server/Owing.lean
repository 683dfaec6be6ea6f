/-
The writes a node has accepted and has yet to answer, told from the history, and the two
acknowledgements each connection is owed as what they add up to.
-/

import Msgsrvd.Server.Deals

namespace Msgsrvd

open Bytestring

variable {d d' : Desk} {slot : Nat} {level : Level}

/-! ### Writes that wait -/

/-- Which of the two acknowledgements of its connection an accepted write is added to. -/
def oweLevel (flags : Nat) (live : Bool) : Level :=
  if hasFlag flags MSG_FLAG_REPLICATED && live then .repl else .local'

def Write.owedAt (w : Write) : Level := oweLevel w.header.flags w.live

/-- An accepted write that asks for an acknowledgement. -/
def Write.awaits (w : Write) : Bool :=
  hasFlag w.header.flags MSG_FLAG_ACK_REQ &&
    match w.fate with
    | .refused _ => false
    | _ => true

/-- How far the log has to be durable for the write to be answered. -/
def Write.walSeq (w : Write) : Nat :=
  match w.fate with
  | .stored r => r.seq
  | _ => w.durable

/-- Its writer takes one copy where there can be no second. -/
def Write.consents (w : Write) : Bool :=
  hasFlag w.header.flags MSG_FLAG_REPLICATED && hasFlag w.header.flags MSG_FLAG_ALLOW_DEGRADED

/-- The flags it adds to the acknowledgement. -/
def Write.ackFlags (w : Write) : Nat :=
  if hasFlag w.header.flags MSG_FLAG_REPLICATED && !w.live then
    ackFlagsOf w.header.flags ||| MSG_FLAG_DEGRADED
  else ackFlagsOf w.header.flags

/-- When its wait for a second copy ends. -/
def Write.deadline (w : Write) : Nat :=
  match w.owedAt with
  | .local' => 0
  | .repl => u32Add w.tick LOOP_REPL_DEADLINE_TICKS

/-- The accepted writes not answered yet, the newest first. -/
def awaited : List Note → List Write
  | [] => []
  | .wrote w :: earlier => if w.awaits then w :: awaited earlier else awaited earlier
  | .opened slot :: earlier | .released slot :: earlier =>
      (awaited earlier).filter (fun w => w.slot != slot)
  | .answered slot _ a :: earlier =>
      (awaited earlier).filter (fun w => !(w.slot == slot && w.owedAt == a.level))
  | _ :: earlier => awaited earlier

/-- Those that one acknowledgement is to answer. -/
def owed (slot : Nat) (level : Level) (trace : List Note) : List Write :=
  (awaited trace).filter (fun w => w.slot == slot && w.owedAt == level)

theorem owed_mem {w : Write} {trace : List Note} (present : w ∈ owed slot level trace) :
    w ∈ awaited trace ∧ w.slot = slot ∧ w.owedAt = level := by
  obtain ⟨waits, here⟩ := List.mem_filter.mp present
  rw [Bool.and_eq_true] at here
  exact ⟨waits, eq_of_beq here.1, eq_of_beq here.2⟩

theorem awaited_wrote (w : Write) (trace : List Note) : awaited (.wrote w :: trace) =
    if w.awaits then w :: awaited trace else awaited trace := rfl

theorem owed_wrote {w : Write} {trace : List Note} (awaits : w.awaits = true)
    (at' : w.slot = slot) (of : w.owedAt = level) :
    owed slot level (.wrote w :: trace) = w :: owed slot level trace := by
  unfold owed
  rw [awaited_wrote, if_pos awaits, List.filter_cons_of_pos]
  rw [at', of, beq_self_eq_true, beq_self_eq_true]
  rfl

theorem owed_wrote_other {w : Write} {trace : List Note}
    (other : w.awaits = false ∨ w.slot ≠ slot ∨ w.owedAt ≠ level) :
    owed slot level (.wrote w :: trace) = owed slot level trace := by
  unfold owed
  rw [awaited_wrote]
  by_cases awaits : w.awaits = true
  · rw [if_pos awaits, List.filter_cons_of_neg]
    rw [Bool.and_eq_true, beq_iff_eq, beq_iff_eq]
    rintro ⟨at', of⟩
    rcases other with silent | elsewhere | elsewhere
    · rw [awaits] at silent
      cases silent
    · exact elsewhere at'
    · exact elsewhere of
  · rw [if_neg awaits]

theorem owed_filter_none {trace : List Note} {keep : Write → Bool}
    (gone : ∀ w, w.slot = slot → w.owedAt = level → keep w = false) :
    ((awaited trace).filter keep).filter (fun w => w.slot == slot && w.owedAt == level) = [] := by
  rw [List.filter_filter, List.filter_eq_nil_iff]
  intro w _waits here
  rw [Bool.and_eq_true, Bool.and_eq_true, beq_iff_eq, beq_iff_eq] at here
  rw [gone w here.1.1 here.1.2] at here
  cases here.2

theorem owed_filter_all {trace : List Note} {keep : Write → Bool}
    (kept : ∀ w, w.slot = slot → w.owedAt = level → keep w = true) :
    ((awaited trace).filter keep).filter (fun w => w.slot == slot && w.owedAt == level) =
      owed slot level trace := by
  rw [List.filter_filter]
  apply List.filter_congr
  intro w _waits
  cases here : (w.slot == slot && w.owedAt == level) with
  | false => rfl
  | true =>
      rw [Bool.and_eq_true, beq_iff_eq, beq_iff_eq] at here
      rw [kept w here.1 here.2]
      rfl

theorem owed_answered (slot session : Nat) (a : Answer) (trace : List Note) :
    owed slot a.level (.answered slot session a :: trace) = [] := by
  refine owed_filter_none ?_
  intro w at' of
  rw [at', of, beq_self_eq_true, beq_self_eq_true]
  rfl

theorem owed_answered_other {other session : Nat} {a : Answer}
    (differ : slot ≠ other ∨ level ≠ a.level) (trace : List Note) :
    owed slot level (.answered other session a :: trace) = owed slot level trace := by
  refine owed_filter_all ?_
  intro w at' of
  rw [at', of, Bool.not_eq_true', Bool.and_eq_false_iff, beq_eq_false_iff_ne, beq_eq_false_iff_ne]
  exact differ

/-! ### What they add up to -/

def Party.ack (p : Party) : Level → LoopAck
  | .local' => p.ackLocal
  | .repl => p.ackRepl

/-- The acknowledgement is the one these writes have added up to. -/
structure LoopAck.Owes (a : LoopAck) (writes : List Write) : Prop where
  due : a.due = !writes.isEmpty
  walSeq : a.walSeq = writes.foldr (fun w high => max w.walSeq high) 0
  flags : a.flags = writes.foldr (fun w flags => flags ||| w.ackFlags) 0
  degradable : a.degradable = writes.any Write.consents
  deadline : ∀ w, writes.getLast? = some w → a.deadline = w.deadline
  clientSeq : ∀ w ∈ writes, w.header.sequence ≤ a.clientSeq
  nothing : writes = [] → a = ackNone

theorem ackNone_owes : ackNone.Owes [] :=
  ⟨rfl, rfl, rfl, rfl, fun w none => (by cases none), fun w none => (by cases none), fun _ => rfl⟩

theorem LoopAck.Owes.stage {a : LoopAck} {writes : List Write} (owes : a.Owes writes) (w : Write)
    {clientSeq : Nat} (above : w.header.sequence ≤ clientSeq) {degradable : Bool}
    (consents : degradable = w.consents) :
    (ackStage a w.ackFlags degradable clientSeq w.walSeq w.deadline).Owes (w :: writes) := by
  constructor
  · rfl
  · change (if w.walSeq > a.walSeq then w.walSeq else a.walSeq) = max w.walSeq _
    rw [← owes.walSeq]
    split <;> omega
  · change a.flags ||| w.ackFlags = _ ||| w.ackFlags
    rw [owes.flags]
  · change (a.degradable || degradable) = (w.consents || writes.any Write.consents)
    rw [owes.degradable, consents, Bool.or_comm]
  · intro first last
    change (if a.due = true then a.deadline else w.deadline) = first.deadline
    rw [owes.due]
    cases writes with
    | nil =>
        cases last
        rfl
    | cons newer rest =>
        rw [List.getLast?_cons_cons] at last
        rw [List.isEmpty_cons, Bool.not_false, if_pos rfl]
        exact owes.deadline first last
  · intro other present
    change other.header.sequence ≤ if clientSeq > a.clientSeq then clientSeq else a.clientSeq
    rcases List.mem_cons.mp present with same | old
    · rw [same]
      split <;> omega
    · have bound := owes.clientSeq other old
      split <;> omega
  · intro none
    cases none

theorem LoopAck.Owes.idle {a : LoopAck} {writes : List Write} (owes : a.Owes writes)
    (idle : a.due = false) : a = ackNone := by
  have due := owes.due
  rw [idle] at due
  cases writes with
  | nil => exact owes.nothing rfl
  | cons w rest => cases due

/-- An accepted write adds to one acknowledgement of its connection, if it asks for one. -/
theorem owe_ack (p : Party) (w : Write) {clientSeq : Nat} (able : wantsCopy w.header.flags w.live = false)
    (accepted : w.awaits = hasFlag w.header.flags MSG_FLAG_ACK_REQ) (level : Level) :
    (p.owe w.live w.tick w.header.flags clientSeq w.walSeq).ack level =
      if w.awaits = true ∧ w.owedAt = level then
        ackStage (p.ack level) w.ackFlags w.consents clientSeq w.walSeq w.deadline
      else p.ack level := by
  rw [accepted]
  unfold Party.owe Write.owedAt oweLevel Write.ackFlags Write.consents Write.deadline Write.owedAt oweLevel
  unfold wantsCopy at able
  cases asks : hasFlag w.header.flags MSG_FLAG_ACK_REQ with
  | false => simp only [Bool.false_eq_true, not_false_eq_true, if_true, false_and, if_false]
  | true =>
      cases replicated : hasFlag w.header.flags MSG_FLAG_REPLICATED with
      | false => cases level <;> simp [Party.ack]
      | true =>
          cases live : w.live with
          | true => cases level <;> simp [Party.ack]
          | false =>
              rw [replicated, live] at able
              have degraded : hasFlag w.header.flags MSG_FLAG_ALLOW_DEGRADED = true := by
                simpa using able
              cases level <;> simp [Party.ack, degraded]

/-! ### The invariant -/

/-- Every connection is owed what the accepted writes of its history add up to. -/
structure Desk.Owing (d : Desk) : Prop where
  owes : ∀ slot level, ((d.party slot).ack level).Owes (owed slot level d.trace)
  bound : ∀ w ∈ awaited d.trace, w.session = (d.party w.slot).session

theorem Asides.awaited {earlier later : List Note} (asides : Asides earlier later) :
    awaited later = awaited earlier := by
  refine asides.same ?_
  intro note trace quiet
  cases note with
  | wrote | opened | released | answered => cases quiet
  | _ => rfl

theorem ack_account {p q : Party} (same : p.account = q.account) (level : Level) :
    p.ack level = q.ack level := by
  cases level with
  | local' => exact congrArg Account.ackLocal same
  | repl => exact congrArg Account.ackRepl same

/-- The accepted writes that wait, and what is owed for them, are as they were. -/
theorem Desk.Owing.kept (owing : d.Owing) (waits : awaited d'.trace = awaited d.trace)
    (acks : ∀ slot level, (d'.party slot).ack level = (d.party slot).ack level)
    (sessions : ∀ slot, (d'.party slot).session = (d.party slot).session) : d'.Owing := by
  constructor
  · intro slot level
    unfold owed
    rw [waits, acks slot level]
    exact owing.owes slot level
  · rw [waits]
    intro w present
    rw [sessions w.slot]
    exact owing.bound w present

theorem Desk.Owing.aside (owing : d.Owing) (aside : Aside d d') : d'.Owing :=
  owing.kept aside.trace.awaited (fun slot => ack_account (aside.account slot))
    (fun slot => congrArg Account.session (aside.account slot))

theorem party_at (d : Desk) (slot : Nat) (p : Party) : (d.setParty slot p).party slot = p :=
  if_pos rfl

theorem party_beside (d : Desk) {slot other : Nat} (differ : other ≠ slot) (p : Party) :
    (d.setParty slot p).party other = d.party other := if_neg differ

/-- One connection starts from nothing, or is gone. -/
theorem Desk.Owing.cleared (owing : d.Owing) {p : Party} {note : Note}
    (nothing : ∀ level, p.ack level = ackNone)
    (waits : awaited (note :: d.trace) = (awaited d.trace).filter (fun w => w.slot != slot)) :
    ((d.setParty slot p).note note).Owing := by
  constructor
  · intro other level
    change (((d.setParty slot p).party other).ack level).Owes (owed other level (note :: d.trace))
    unfold owed
    rw [waits]
    by_cases same : other = slot
    · subst same
      rw [party_at, nothing level, owed_filter_none (fun w at' _ => by rw [at', bne_self_eq_false])]
      exact ackNone_owes
    · rw [party_beside d same,
        owed_filter_all (fun w at' _ => by rw [at', bne_iff_ne]; exact same)]
      exact owing.owes other level
  · intro w present
    change w ∈ awaited (note :: d.trace) at present
    rw [waits] at present
    obtain ⟨before, elsewhere⟩ := List.mem_filter.mp present
    rw [bne_iff_ne] at elsewhere
    change w.session = ((d.setParty slot p).party w.slot).session
    rw [party_beside d elsewhere]
    exact owing.bound w before

/-- Nothing waits on a connection that is owed nothing. -/
theorem Desk.Owing.free (owing : d.Owing)
    (nothing : ∀ level, ((d.party slot).ack level).due = false) {w : Write}
    (present : w ∈ awaited d.trace) : w.slot ≠ slot := by
  intro at'
  have listed : w ∈ owed slot w.owedAt d.trace := by
    refine List.mem_filter.mpr ⟨present, ?_⟩
    rw [at', beq_self_eq_true, beq_self_eq_true]
    rfl
  have due := (owing.owes slot w.owedAt).due
  rw [nothing w.owedAt] at due
  cases waits : owed slot w.owedAt d.trace with
  | nil =>
      rw [waits] at listed
      cases listed
  | cons head rest =>
      rw [waits] at due
      cases due

/-- An answer takes what it answers off the list. -/
theorem Desk.Owing.answered (owing : d.Owing) {p : Party} {session : Nat} {a : Answer}
    (gone : p.ack a.level = ackNone)
    (other : ∀ level, level ≠ a.level → p.ack level = (d.party slot).ack level)
    (bound : p.session = (d.party slot).session) :
    ((d.setParty slot p).note (.answered slot session a)).Owing := by
  constructor
  · intro at' level
    change (((d.setParty slot p).party at').ack level).Owes
      (owed at' level (.answered slot session a :: d.trace))
    by_cases same : at' = slot
    · subst same
      rw [party_at]
      by_cases here : level = a.level
      · rw [here, gone, owed_answered]
        exact ackNone_owes
      · rw [other level here, owed_answered_other (Or.inr here)]
        exact owing.owes at' level
    · rw [party_beside d same, owed_answered_other (Or.inl same)]
      exact owing.owes at' level
  · intro w present
    have before : w ∈ awaited d.trace := (List.mem_filter.mp present).1
    change w.session = ((d.setParty slot p).party w.slot).session
    by_cases same : w.slot = slot
    · rw [same, party_at, bound, ← same]
      exact owing.bound w before
    · rw [party_beside d same]
      exact owing.bound w before

/-- A write that is accepted adds itself to what its connection is owed. -/
theorem Desk.Owing.wrote (owing : d.Owing) (w : Write) {p : Party}
    (at' : w.slot = slot) (session : w.session = (d.party slot).session) {clientSeq : Nat}
    (above : w.header.sequence ≤ clientSeq) (acks : ∀ level, p.ack level =
      if w.awaits = true ∧ w.owedAt = level then
        ackStage ((d.party slot).ack level) w.ackFlags w.consents clientSeq w.walSeq w.deadline
      else (d.party slot).ack level)
    (bound : p.session = (d.party slot).session) (trace : d'.trace = .wrote w :: d.trace)
    (party : d'.party = (d.setParty slot p).party) : d'.Owing := by
  constructor
  · intro other level
    rw [trace, party]
    by_cases same : other = slot
    · subst same
      rw [party_at, acks level]
      by_cases here : w.awaits = true ∧ w.owedAt = level
      · rw [if_pos here, owed_wrote here.1 at' here.2]
        exact (owing.owes other level).stage w above rfl
      · rw [if_neg here, owed_wrote_other]
        · exact owing.owes other level
        · by_cases awaits : w.awaits = true
          · exact Or.inr (Or.inr (fun of => here ⟨awaits, of⟩))
          · exact Or.inl (by simpa using awaits)
    · rw [party_beside d same, owed_wrote_other (Or.inr (Or.inl (fun is => same (is.symm.trans at'))))]
      exact owing.owes other level
  · intro w' present
    have kept (other : Nat) : (d'.party other).session = (d.party other).session := by
      rw [party]
      by_cases same : other = slot
      · rw [same, party_at, bound]
      · rw [party_beside d same]
    rw [trace, awaited_wrote] at present
    rw [kept]
    split at present
    · rcases List.mem_cons.mp present with same | before
      · rw [same, at']
        exact session
      · exact owing.bound w' before
    · exact owing.bound w' present

theorem owe_session (p : Party) (live : Bool) (tick flags clientSeq walSeq : Nat) :
    (p.owe live tick flags clientSeq walSeq).session = p.session := by
  unfold Party.owe
  split
  · rfl
  · split
    · rfl
    · split <;> rfl

/-- What an accepted write leaves its connection owed. -/
theorem owe_acks {w : Write} {clientSeq : Nat} (able : wantsCopy w.header.flags w.live = false)
    (accepted : w.awaits = hasFlag w.header.flags MSG_FLAG_ACK_REQ)
    (party : d'.party = (d.setParty slot
      ((d.party slot).owe w.live w.tick w.header.flags clientSeq w.walSeq)).party) (level : Level) :
    (d'.party slot).ack level =
      if w.awaits = true ∧ w.owedAt = level then
        ackStage ((d.party slot).ack level) w.ackFlags w.consents clientSeq w.walSeq w.deadline
      else (d.party slot).ack level := by
  rw [party, party_at]
  exact owe_ack (d.party slot) w able accepted level

/-- **Every deal keeps what is owed equal to what the history says.** -/
theorem Desk.Owing.deal (owing : d.Owing) (deal : Deal d d') : d'.Owing := by
  have still {e : Desk} (waits : awaited e.trace = awaited d.trace)
      (account : ∀ other, ((e.party other).ackLocal = (d.party other).ackLocal ∧
        (e.party other).ackRepl = (d.party other).ackRepl) ∧
        (e.party other).session = (d.party other).session) : e.Owing := by
    refine owing.kept waits (fun other level => ?_) (fun other => (account other).2)
    cases level with
    | local' => exact (account other).1.1
    | repl => exact (account other).1.2
  have beside {slot : Nat} {p : Party} (acks : p.ackLocal = (d.party slot).ackLocal ∧
      p.ackRepl = (d.party slot).ackRepl) (session : p.session = (d.party slot).session)
      (other : Nat) : (((d.setParty slot p).party other).ackLocal = (d.party other).ackLocal ∧
        ((d.setParty slot p).party other).ackRepl = (d.party other).ackRepl) ∧
        ((d.setParty slot p).party other).session = (d.party other).session := by
    by_cases same : other = slot
    · rw [same, party_at]
      exact ⟨acks, session⟩
    · rw [party_beside d same]
      exact ⟨⟨rfl, rfl⟩, rfl⟩
  cases deal with
  | opened | released =>
      exact owing.cleared (fun level => by cases level <;> rfl) rfl
  | joined dispatching fresh known =>
      rename_i slot s
      have nothing (level : Level) : ((d.party slot).ack level).due = false := by
        have none := @ack_account _ Party.fresh fresh level
        rw [none]
        cases level <;> rfl
      constructor
      · intro other level
        change (((d.setParty slot { d.party slot with session := s.id }).party other).ack level).Owes
          (owed other level d.trace)
        by_cases same : other = slot
        · rw [same, party_at]
          rw [show ({ d.party slot with session := s.id } : Party).ack level =
            (d.party slot).ack level by cases level <;> rfl]
          exact owing.owes slot level
        · rw [party_beside d same]
          exact owing.owes other level
      · intro w present
        have elsewhere : w.slot ≠ slot := owing.free nothing present
        change w.session = ((d.setParty slot { d.party slot with session := s.id }).party
          w.slot).session
        rw [party_beside d elsewhere]
        exact owing.bound w present
  | refused slot h code =>
      have silent : (d.write slot h (.refused code)).awaits = false := Bool.and_false _
      refine still ?_ (fun _ => ⟨⟨rfl, rfl⟩, rfl⟩)
      change awaited (.wrote (d.write slot h (.refused code)) :: d.trace) = _
      rw [awaited_wrote, silent, if_neg Bool.false_ne_true]
  | resent dispatching leading used known able low =>
      rename_i slot h s
      exact owing.wrote (d.write slot h .resent) rfl rfl low
        (owe_ack (d.party slot) (d.write slot h .resent) able
          (by unfold Write.awaits; exact Bool.and_true _)) (owe_session ..) rfl rfl
  | stored dispatching leading used known able high seq session clientSeq below =>
      rename_i slot h s r
      exact owing.wrote (d.write slot h (.stored r)) rfl rfl
        (Nat.le_refl h.sequence)
        (owe_ack (d.party slot) (d.write slot h (.stored r)) able
          (by unfold Write.awaits; exact Bool.and_true _)) (owe_session ..) rfl rfl
  | attached => exact still rfl (beside ⟨rfl, rfl⟩ rfl)
  | detached => exact still rfl (beside ⟨rfl, rfl⟩ rfl)
  | answeredLocal room sent serving used due =>
      refine owing.answered rfl (fun level differ => ?_) rfl
      cases level with
      | local' => exact absurd rfl differ
      | repl => rfl
  | answeredRepl room sent serving used due verdict =>
      refine owing.answered rfl (fun level differ => ?_) rfl
      cases level with
      | local' => rfl
      | repl => exact absurd rfl differ
  | raised =>
      unfold Desk.raised
      split
      · exact owing
      · exact still rfl (fun _ => ⟨⟨rfl, rfl⟩, rfl⟩)
  | drew | applied | synced | confirmed | swept | ticked | retained | turned =>
      exact still rfl (fun _ => ⟨⟨rfl, rfl⟩, rfl⟩)

theorem blank_owing {config : Config} {recs : List WalRec} (blank : d.Blank config recs) :
    d.Owing := by
  constructor
  · intro slot level
    rw [blank.party slot, blank.trace]
    cases level with
    | local' => exact ackNone_owes
    | repl => exact ackNone_owes
  · rw [blank.trace]
    intro w none
    cases none

end Msgsrvd

/-
The moves that change what is recorded, owed or confirmed, apart from the frames and
streams that every connection has besides.
-/

import Msgsrvd.Server.Ledger

namespace Msgsrvd

open Bytestring

variable {d d' : Desk} {slot : Nat}

/-! ### Accounts -/

/-- What a party is to the node, apart from its stream and its send buffer. -/
structure Account where
  inUse : Bool
  session : Nat
  replica : Option Nat
  ackLocal : LoopAck
  ackRepl : LoopAck

def Party.account (p : Party) : Account :=
  { inUse := p.inUse
    session := p.session
    replica := p.replica
    ackLocal := p.ackLocal
    ackRepl := p.ackRepl }

theorem account_setParty {p : Party} (same : p.account = (d.party slot).account) (other : Nat) :
    ((d.setParty slot p).party other).account = (d.party other).account := by
  by_cases at_slot : other = slot
  · subst at_slot
    rw [show (d.setParty other p).party other = p from if_pos rfl]
    exact same
  · rw [show (d.setParty slot p).party other = d.party other from if_neg at_slot]

/-! ### Moves on the side -/

/-- It says nothing of what is recorded, owed or confirmed. -/
def Note.aside : Note → Bool
  | .staged _ _ _ | .asked _ _ _ _ _ | .began _ _ _ | .behind _ _ _ _ | .pushed _ _ _ _ _
  | .ended _ _ _ | .bounded _ _ | .handed _ _ _ _ | .heard _ _ | .dialed | .reported _
  | .handedUp _ _ _ | .heardDown _ => true
  | _ => false

/-- The same history, and notes on the side. -/
inductive Asides : List Note → List Note → Prop where
  | refl (trace : List Note) : Asides trace trace
  | cons {note : Note} {earlier later : List Note} (aside : note.aside = true)
      (before : Asides earlier later) : Asides earlier (note :: later)

theorem Asides.one {note : Note} (aside : note.aside = true) (trace : List Note) :
    Asides trace (note :: trace) := .cons aside (.refl trace)

/-- What ignores one note on the side ignores them all. -/
theorem Asides.same {α : Type} {of : List Note → α} {earlier later : List Note}
    (asides : Asides earlier later)
    (one : ∀ note trace, note.aside = true → of (note :: trace) = of trace) :
    of later = of earlier := by
  induction asides with
  | refl => rfl
  | cons aside _before ih => exact (one _ _ aside).trans ih

theorem Asides.always {fits : Note → List Note → Prop} {earlier later : List Note}
    (asides : Asides earlier later) (one : ∀ note trace, note.aside = true → fits note trace)
    (always : Traces.Always fits earlier) : Traces.Always fits later := by
  induction asides with
  | refl => exact always
  | cons aside _before ih => exact ⟨one _ _ aside, ih always⟩

theorem Asides.of_always {fits : Note → List Note → Prop} {earlier later : List Note}
    (asides : Asides earlier later) (always : Traces.Always fits later) :
    Traces.Always fits earlier := by
  induction asides with
  | refl => exact always
  | cons _aside _before ih => exact ih always.earlier

/-- Only streams and send buffers have changed. -/
structure Aside (d d' : Desk) : Prop where
  phase : d'.phase = d.phase
  leading : d'.leading = d.leading
  sessions : d'.sessions = d.sessions
  first : d'.first = d.first
  next : d'.next = d.next
  durable : d'.durable = d.durable
  want : d'.want = d.want
  floor : d'.floor = d.floor
  peers : d'.peers = d.peers
  watched : d'.watched = d.watched
  tick : d'.tick = d.tick
  account : ∀ slot, (d'.party slot).account = (d.party slot).account
  trace : Asides d.trace d'.trace

theorem Aside.refl (d : Desk) : Aside d d :=
  ⟨rfl, rfl, rfl, rfl, rfl, rfl, rfl, rfl, rfl, rfl, rfl, fun _ => rfl, .refl _⟩

theorem Aside.note {note : Note} (before : Aside d d') (aside : note.aside = true) :
    Aside d (d'.note note) := { before with trace := .cons aside before.trace }

theorem Aside.setParty {p : Party} (before : Aside d d')
    (same : p.account = (d'.party slot).account) : Aside d (d'.setParty slot p) :=
  { before with account := fun other => (account_setParty same other).trans (before.account other) }

theorem Aside.setSub (before : Aside d d') (sub : LoopSub) : Aside d (d'.setSub slot sub) :=
  before.setParty rfl

theorem Aside.stage (before : Aside d d') (slot : Nat) (frame : Frame) :
    Aside d (d'.stage slot frame) := by
  have staged : Aside d (d'.setParty slot
      { d'.party slot with sendBuf := (d'.party slot).sendBuf ++ frame.bytes }) :=
    before.setParty rfl
  exact staged.note rfl

theorem Aside.stageIf (before : Aside d d') (sent : Bool) (slot : Nat) (frame : Frame) :
    Aside d (d'.stageIf sent slot frame) := by
  unfold Desk.stageIf
  split
  · exact before.stage slot frame
  · exact before

theorem Aside.live (aside : Aside d d') : d'.live = d.live := by
  unfold Desk.live
  rw [aside.peers]

theorem Aside.best (aside : Aside d d') : d'.best = d.best := by
  unfold Desk.best
  rw [aside.peers]

/-! ### Deals -/

/-- The moves that matter. -/
inductive Deal : Desk → Desk → Prop where
  | opened {d : Desk} {slot : Nat} (dispatching : d.phase = .dispatching)
      (free : (d.party slot).inUse = false) :
      Deal d ((d.setParty slot Party.fresh).note (.opened slot))
  | released {d : Desk} {slot : Nat} (arming : d.phase = .arming)
      (used : (d.party slot).inUse = true) :
      Deal d ((d.setParty slot Party.idle).note (.released slot))
  | drew {d : Desk} {id : Nat} (named : id ≠ 0) (absent : sessionLookup d.sessions id = none) :
      Deal d ({ d with sessions := slotForNew d.sessions id }.note (.drew id d.first))
  | joined {d : Desk} {slot : Nat} {s : Session} (dispatching : d.phase = .dispatching)
      (fresh : (d.party slot).account = Party.fresh.account)
      (known : sessionLookup d.sessions s.id = some s) :
      Deal d ((d.setParty slot { d.party slot with session := s.id }).note (.joined slot s.id))
  | refused {d : Desk} (slot : Nat) (h : MsgHeader) (code : Nat) :
      Deal d (d.note (.wrote (d.write slot h (.refused code))))
  | resent {d : Desk} {slot : Nat} {h : MsgHeader} {s : Session}
      (dispatching : d.phase = .dispatching) (leading : d.leading = true)
      (used : (d.party slot).inUse = true)
      (known : sessionLookup d.sessions (d.party slot).session = some s)
      (able : wantsCopy h.flags d.live = false) (low : h.sequence ≤ s.lastClientSeq) :
      Deal d ((d.note (.wrote (d.write slot h .resent))).setParty slot
        ((d.party slot).owe d.live d.tick h.flags s.lastClientSeq d.durable))
  | stored {d : Desk} {slot : Nat} {h : MsgHeader} {s : Session} {r : WalRec}
      (dispatching : d.phase = .dispatching) (leading : d.leading = true)
      (used : (d.party slot).inUse = true)
      (known : sessionLookup d.sessions (d.party slot).session = some s)
      (able : wantsCopy h.flags d.live = false) (high : s.lastClientSeq < h.sequence)
      (seq : r.seq = d.next) (session : r.session = (d.party slot).session)
      (clientSeq : r.clientSeq = h.sequence) (below : d.durable < r.seq) :
      Deal d (({ d with
          next := d.next + 1
          dirty := true
          index := walIndexAdd d.index r
          sessions := sessionTouch
            (sessionStore d.sessions (d.party slot).session
              (fun s => { s with lastClientSeq := h.sequence })) (d.party slot).session
          trace := .wrote (d.write slot h (.stored r)) :: d.trace }).setParty slot
        ((d.party slot).owe d.live d.tick h.flags h.sequence r.seq))
  | applied {d : Desk} {r : WalRec} (following : d.leading = false) (seq : r.seq = d.next)
      (below : d.durable < r.seq) :
      Deal d
        { d with
          next := d.next + 1
          dirty := true
          index := walIndexAdd d.index r
          sessions := sessionFromRecord d.sessions r
          trace := .applied r :: d.trace }
  | synced {d : Desk} {durable : Nat} (phase : Phase) (rollover ok : Bool)
      (dispatching : d.phase = .dispatching) (after : phase = .dispatching ∨ phase = .stopped)
      (done : ok = true → durable + 1 = d.next) (failed : ok = false → durable = d.durable)
      (grows : d.durable ≤ durable) :
      Deal d ({ d with durable := durable, phase := phase }.note
        (.flushed rollover ok d.durable d.next))
  | attached {d : Desk} {slot idx sequence : Nat} (dispatching : d.phase = .dispatching)
      (leading : d.leading = true) (free : d.peers idx = none) (inside : idx < LOOP_MAX_REPLICAS) :
      Deal d (((d.setParty slot { d.party slot with replica := some idx, sendBuf := [] }).setPeer
        idx (some sequence)).note (.attached slot idx sequence))
  | confirmed {d : Desk} {slot idx : Nat} (sequence : Nat) (dispatching : d.phase = .dispatching)
      (of : (d.party slot).replica = some idx) :
      Deal d ((d.setPeer idx ((d.peers idx).map (fun _ => sequence))).note
        (.confirmed slot idx sequence))
  | raised {d : Desk} : Deal d d.raised
  | detached {d : Desk} {slot idx : Nat} (arming : d.phase = .arming)
      (of : (d.party slot).replica = some idx) :
      Deal d (((d.setParty slot { d.party slot with replica := none }).setPeer idx none).note
        (.detached idx))
  | answeredLocal {d : Desk} {slot : Nat} (room : Nat) (sent : Bool)
      (serving : d.phase = .serving) (used : (d.party slot).inUse = true) (due : (d.party slot).ackLocal.due = true) :
      Deal d ((d.setParty slot { d.party slot with ackLocal := ackNone }).note
        (.answered slot (d.party slot).session
          ⟨.local', false, (d.party slot).ackLocal.flags, (d.party slot).ackLocal.clientSeq,
            (d.party slot).ackLocal.walSeq, d.durable, room, sent⟩))
  | answeredRepl {d : Desk} {slot : Nat} {refused : Bool} {flags : Nat} (room : Nat) (sent : Bool)
      (serving : d.phase = .serving) (used : (d.party slot).inUse = true)
      (due : (d.party slot).ackRepl.due = true)
      (verdict : (d.party slot).ackRepl.verdict d.best d.durable d.live d.tick =
        some (refused, flags)) :
      Deal d ((d.setParty slot { d.party slot with ackRepl := ackNone }).note
        (.answered slot (d.party slot).session
          ⟨.repl, refused, flags, (d.party slot).ackRepl.clientSeq,
            (d.party slot).ackRepl.walSeq, d.durable, room, sent⟩))
  | swept {d : Desk} (serving : d.phase = .serving)
      (none' : ∀ slot, (d.party slot).inUse = true → (d.party slot).ackLocal.due = false ∧
        ((d.party slot).ackRepl.due = true →
          (d.party slot).ackRepl.verdict d.best d.durable d.live d.tick = none)) :
      Deal d (d.note (.swept d.best d.live d.tick))
  | ticked {d : Desk} (fired : Nat) : Deal d { d with tick := u32Add d.tick fired }
  | retained {d : Desk} {first : Nat} (grows : d.first ≤ first)
      (held : first = d.first ∨ d.want = 0 ∨ first ≤ d.floor + 1) :
      Deal d ({ d with first := first }.note (.retained d.first first))
  | turned {d : Desk} (phase : Phase) (dirty : Bool) (watched : Nat → Bool)
      (turns : (d.phase = .arming ∧ phase = .dispatching) ∨
        (d.phase = .dispatching ∧ phase = .serving ∧
          (d.durable + 1 = d.next ∨ d.dirty = false)) ∨
        (d.phase = .serving ∧ phase = .arming)) :
      Deal d { d with phase := phase, dirty := dirty, watched := watched }

/-- A move is a deal, or none, among moves on the side. -/
def Deals (d d' : Desk) : Prop :=
  ∃ before after, Aside d before ∧ (after = before ∨ Deal before after) ∧ Aside after d'

theorem Deals.aside (aside : Aside d d') : Deals d d' := ⟨d', d', aside, Or.inl rfl, .refl d'⟩

theorem Deals.deal (deal : Deal d d') : Deals d d' := ⟨d, d', .refl d, Or.inr deal, .refl d'⟩

/-- Staging an answer first and clearing what was owed then comes to the same. -/
theorem answer_staged (d : Desk) (slot : Nat) (level : Level) (refused : Bool) (flags room : Nat)
    (a : LoopAck) {change : Party → Party} (off : OffBuffer change) : ∃ sent frame,
    (d.setParty slot (change (d.party slot))).answer slot level refused flags room a =
      ((d.stageIf sent slot frame).setParty slot (change ((d.stageIf sent slot frame).party slot))).note
        (.answered slot ((d.stageIf sent slot frame).party slot).session
          ⟨level, refused, flags, a.clientSeq, a.walSeq, (d.stageIf sent slot frame).durable, room,
            sent⟩) := by
  have session (sent : Bool) (frame : Frame) :
      ((d.stageIf sent slot frame).party slot).session = (d.party slot).session :=
    congrArg Account.session (((Aside.refl d).stageIf sent slot frame).account slot)
  have durable (sent : Bool) (frame : Frame) : (d.stageIf sent slot frame).durable = d.durable :=
    ((Aside.refl d).stageIf sent slot frame).durable
  let frame := if refused then errFrame MSG_ERR_NO_REPLICAS a.clientSeq []
    else ackFrame flags a.walSeq a.clientSeq
  refine ⟨decide (¬ room < frame.size), frame, ?_⟩
  unfold Desk.answer
  rw [session, durable, ← stageIf_change d _ slot _ off]
  rw [show ((d.setParty slot (change (d.party slot))).party slot).session = (d.party slot).session
    from (congrArg Party.session (if_pos rfl)).trans (off.session _)]
  rfl

theorem Move.deals (move : Move d d') : Deals d d' := by
  have still : Aside d d := .refl d
  cases move with
  | opened dispatching free => exact .deal (.opened dispatching free)
  | released arming used => exact .deal (.released arming used)
  | heard => exact .aside (still.note rfl)
  | drew named absent => exact .deal (.drew named absent)
  | greeted dispatching unlit fresh known =>
      exact ⟨d, _, still, Or.inr (.joined dispatching (congrArg Party.account fresh) known),
        Aside.stage (.refl _) _ _⟩
  | refused slot h code => exact .deal (.refused slot h code)
  | resent dispatching leading used known able low =>
      exact .deal (.resent dispatching leading used known able low)
  | stored dispatching leading used known able high seq session clientSeq below =>
      exact .deal (.stored dispatching leading used known able high seq session clientSeq below)
  | synced rollover dispatching done failed grows =>
      refine .deal (.synced _ rollover _ dispatching ?_ done failed grows)
      split
      · exact Or.inl rfl
      · exact Or.inr rfl
  | applied dispatching following seq below => exact .deal (.applied following seq below)
  | attached dispatching leading used free inside =>
      exact .deal (.attached dispatching leading free inside)
  | confirmed sequence dispatching of => exact .deal (.confirmed sequence dispatching of)
  | raised => exact .deal .raised
  | detached arming used of => exact .deal (.detached arming of)
  | staged => exact .aside (still.stage _ _)
  | handed => exact .aside (still.note rfl)
  | sent => exact .aside (still.setParty rfl)
  | answeredLocal room serving used due =>
      rename_i slot
      have off : OffBuffer (fun p => { p with ackLocal := ackNone }) :=
        ⟨fun _ => rfl, fun _ => rfl, fun _ _ => rfl⟩
      obtain ⟨sent, frame, same⟩ := answer_staged d slot .local' false
        (d.party slot).ackLocal.flags room (d.party slot).ackLocal off
      rw [same]
      have staged := still.stageIf sent slot frame
      have account := staged.account slot
      have owed : ((d.stageIf sent slot frame).party slot).ackLocal = (d.party slot).ackLocal :=
        congrArg Account.ackLocal account
      rw [← owed] at due ⊢
      exact ⟨_, _, staged, Or.inr (.answeredLocal room sent (staged.phase.trans serving)
        ((congrArg Account.inUse account).trans used) due), .refl _⟩
  | answeredRepl room serving used due verdict =>
      rename_i slot refused flags
      have off : OffBuffer (fun p => { p with ackRepl := ackNone }) :=
        ⟨fun _ => rfl, fun _ => rfl, fun _ _ => rfl⟩
      obtain ⟨sent, frame, same⟩ := answer_staged d slot .repl refused flags room
        (d.party slot).ackRepl off
      rw [same]
      have staged := still.stageIf sent slot frame
      have account := staged.account slot
      have owed : ((d.stageIf sent slot frame).party slot).ackRepl = (d.party slot).ackRepl :=
        congrArg Account.ackRepl account
      rw [← owed] at due verdict ⊢
      refine ⟨_, _, staged, Or.inr (.answeredRepl room sent (staged.phase.trans serving)
        ((congrArg Account.inUse account).trans used) due ?_), .refl _⟩
      rw [staged.best, staged.durable, staged.live, staged.tick]
      exact verdict
  | swept serving none' => exact .deal (.swept serving none')
  | ticked fired => exact .deal (.ticked fired)
  | retained serving grows held => exact .deal (.retained grows held)
  | waited watched arming =>
      exact .deal (.turned .dispatching false watched (Or.inl ⟨arming, rfl⟩))
  | flushed dispatching settled =>
      exact .deal (.turned .serving d.dirty d.watched (Or.inr (Or.inl ⟨dispatching, rfl, settled⟩)))
  | rested serving =>
      exact .deal (.turned .arming d.dirty (fun _ => false) (Or.inr (Or.inr ⟨serving, rfl⟩)))
  | tuned => exact .aside (still.setSub _)
  | asked => exact .aside (still.note rfl)
  | began sent => exact .aside (((still.stageIf sent _ _).setSub _).note rfl)
  | held => exact .aside (still.setSub _)
  | served sent => exact .aside (((still.stageIf sent _ _).setSub _).note rfl)
  | behind => exact .aside ((still.note rfl).setSub _)
  | advanced => exact .aside (still.setSub _)
  | pushed => exact .aside (still.note rfl)
  | bounded => exact .aside (still.note rfl)
  | ended => exact .aside ((still.note rfl).setSub _)
  | dialed => exact .aside ({ still with trace := .one rfl _ })
  | reported => exact .aside ({ still with trace := .one rfl _ })
  | handedUp => exact .aside (still.note rfl)
  | sentUp => exact .aside ({ still with })
  | heardDown => exact .aside (still.note rfl)

/-- What moves on the side keep, and deals in runs whose history meets a condition. -/
theorem deals_keep {fits : Note → List Note → Prop} {Inv : Desk → Prop}
    (side : ∀ d d', Inv d → Aside d d' → Inv d')
    (kept : ∀ d d', Inv d → Deal d d' → Traces.Always fits d'.trace → Inv d')
    {start : Desk} (moves : Moves start d) (initial : Inv start)
    (meets : Traces.Always fits d.trace) : Inv d := by
  refine moves_keep (fun d d' inv move meets => ?_) moves initial meets
  obtain ⟨before, after, first, deals, last⟩ := move.deals
  refine side after d' ?_ last
  have inv := side d before inv first
  rcases deals with same | deal
  · rw [same]
    exact inv
  · exact kept before after inv deal (last.trace.of_always meets)

end Msgsrvd

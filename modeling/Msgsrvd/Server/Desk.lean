/-
What a node owes and what it has promised, apart from buffers, framing and files.

A desk holds the sessions with their marks, where the log ends and how far it is
flushed, what each replica has confirmed, and what each connection is owed.  Its
moves are the ways these can change; the loop is shown to make no others.
-/

import Msgsrvd.Server.Run
import Mathlib.Logic.Relation

namespace Msgsrvd

open Bytestring

inductive Phase where
  | arming
  | dispatching
  | serving
  /-- the flush at the end of the pass has failed -/
  | stopped
  deriving DecidableEq, Repr

/-- A connection, as far as it is owed or promised anything. -/
structure Party where
  inUse : Bool
  session : Nat
  replica : Option Nat
  ackLocal : LoopAck
  ackRepl : LoopAck
  sub : LoopSub
  /-- what is staged and not taken yet -/
  sendBuf : Bytes

def Party.idle : Party := ⟨false, 0, none, ackNone, ackNone, subNone, []⟩

def Party.fresh : Party := { Party.idle with inUse := true }

structure Desk where
  phase : Phase
  leading : Bool
  sessions : SessionTable
  index : WalIndex
  /-- the first sequence the log still holds -/
  first : Nat
  next : Nat
  durable : Nat
  /-- something was appended in this pass -/
  dirty : Bool
  /-- how many replicas retention waits for, and what they all hold -/
  want : Nat
  floor : Nat
  /-- what each attached replica has confirmed -/
  peers : Nat → Option Nat
  party : Nat → Party
  /-- the connections this pass may report writable -/
  watched : Nat → Bool
  /-- what is staged for the leader -/
  up : Bytes
  tick : Nat
  trace : List Note

def Desk.note (d : Desk) (note : Note) : Desk := { d with trace := note :: d.trace }

def Desk.setParty (d : Desk) (slot : Nat) (p : Party) : Desk :=
  { d with party := fun other => if other = slot then p else d.party other }

def Desk.setSub (d : Desk) (slot : Nat) (sub : LoopSub) : Desk :=
  d.setParty slot { d.party slot with sub := sub }

def Desk.setPeer (d : Desk) (idx : Nat) (confirmed : Option Nat) : Desk :=
  { d with peers := fun other => if other = idx then confirmed else d.peers other }

def Desk.live (d : Desk) : Bool :=
  (List.range LOOP_MAX_REPLICAS).any (fun idx => (d.peers idx).isSome)

def Desk.best (d : Desk) : Nat :=
  (List.range LOOP_MAX_REPLICAS).foldl (fun best idx => max best ((d.peers idx).getD 0)) 0

/-- The lowest confirmed sequence of the attached replicas, and how many there are. -/
def Desk.lowest (d : Desk) : Nat × Nat :=
  (List.range LOOP_MAX_REPLICAS).foldl
    (fun (lowest, live) idx =>
      match d.peers idx with
      | none => (lowest, live)
      | some confirmed =>
          (if live = 0 ∨ confirmed < lowest then confirmed else lowest, live + 1)) (0, 0)

/-- The floor rises to what a full set of replicas holds. -/
def Desk.raised (d : Desk) : Desk :=
  if d.want = 0 ∨ d.lowest.2 < d.want ∨ d.lowest.1 ≤ d.floor then d
  else { d with floor := d.lowest.1 }

/-! ### What is owed -/

/-- What an accepted WRITE adds to what its connection is owed. -/
def Party.owe (p : Party) (live : Bool) (tick flags clientSeq walSeq : Nat) : Party :=
  if ¬ hasFlag flags MSG_FLAG_ACK_REQ then p
  else if ¬ hasFlag flags MSG_FLAG_REPLICATED then
    { p with ackLocal := ackStage p.ackLocal (ackFlagsOf flags) false clientSeq walSeq 0 }
  else if ¬ live then
    { p with
      ackLocal :=
        ackStage p.ackLocal (ackFlagsOf flags ||| MSG_FLAG_DEGRADED) true clientSeq walSeq 0 }
  else
    { p with
      ackRepl :=
        ackStage p.ackRepl (ackFlagsOf flags) (hasFlag flags MSG_FLAG_ALLOW_DEGRADED) clientSeq
          walSeq (u32Add tick LOOP_REPL_DEADLINE_TICKS) }

/-- A write that asks for a copy nobody can make and will not do without it. -/
def wantsCopy (flags : Nat) (live : Bool) : Bool :=
  hasFlag flags MSG_FLAG_REPLICATED && !live && !hasFlag flags MSG_FLAG_ALLOW_DEGRADED

/-- How a wait in the replicated slot ends: refused or not, and with which flags. -/
def LoopAck.verdict (a : LoopAck) (best durable : Nat) (live : Bool) (tick : Nat) :
    Option (Bool × Nat) :=
  if best ≥ a.walSeq ∧ durable ≥ a.walSeq then some (false, a.flags)
  else if live ∧ tick < a.deadline then none
  else if a.degradable then some (false, a.flags ||| MSG_FLAG_DEGRADED)
  else some (true, a.flags)

/-- A held stream starts, and a READ takes its bound. -/
def LoopSub.serve (sub : LoopSub) (view : Nat) : LoopSub :=
  { sub with
    waiting := false
    active := true
    untilSeq := if sub.once then view else sub.untilSeq }

/-! ### Frames -/

def ackFrame (flags sequence clientSeq : Nat) : Frame :=
  ⟨msgHeaderNew MSG_OP_ACK MSG_RECORD_NONE flags (msgEncodeAck clientSeq).length 0 sequence,
    msgEncodeAck clientSeq⟩

/-- The answer to a SUBSCRIBE or a READ. -/
def emptyAck (sequence : Nat) : Frame :=
  ⟨msgHeaderNew MSG_OP_ACK MSG_RECORD_NONE 0 0 0 sequence, []⟩

def errFrame (code sequence : Nat) (text : Bytes) : Frame :=
  let text := text.take MSG_MAX_ERR_TEXT
  let payload := msgEncodeErr code text.length ++ text
  ⟨msgHeaderNew MSG_OP_ERR MSG_RECORD_NONE 0 payload.length 0 sequence, payload⟩

def Frame.size (f : Frame) : Nat := MSG_HEADER_SIZE + f.payload.length

/-- The records of a REPL_DATA payload from `at'` on, as a follower takes them apart. -/
def streamRecs (p : Bytes) : Nat → Nat → List WalRec
  | 0, _ => []
  | fuel + 1, at' =>
      if at' < p.length then
        match walRecDecode (p.drop at') with
        | none => []
        | some r =>
            if walRecSize (i32 r.len) = 0 then [] else r :: streamRecs p fuel (at' + walRecSize (i32 r.len))
      else []

/-- A frame that promises nothing the flush has not made true. -/
def Founded (durable : Nat) (frame : Frame) : Prop :=
  (frame.header.op = MSG_OP_ACK → frame.payload = []) ∧
    (frame.header.op = MSG_OP_NOTIFY → hasFlag frame.header.flags MSG_FLAG_LAST = true ∨
      frame.header.sequence ≤ durable) ∧
    (frame.header.op = MSG_OP_REPL_DATA →
      ∀ r ∈ streamRecs frame.payload frame.payload.length 0, r.seq ≤ durable)

def Desk.stage (d : Desk) (slot : Nat) (frame : Frame) : Desk :=
  (d.setParty slot
    { d.party slot with sendBuf := (d.party slot).sendBuf ++ frame.bytes }).note
    (.staged slot (d.party slot).session frame)

/-- A frame is staged if there is room for it. -/
def Desk.stageIf (d : Desk) (sent : Bool) (slot : Nat) (frame : Frame) : Desk :=
  if sent then d.stage slot frame else d

/-- How far the reads in lower slots let a stream see, in the pass that is going on. -/
def viewOf (durable : Nat) : List Note → Nat
  | [] => durable
  | .swept _ _ _ :: _ => durable
  | .bounded _ sub :: earlier => min sub.untilSeq (viewOf durable earlier)
  | _ :: earlier => viewOf durable earlier

/-! ### Moves -/

/-- The notes of an answer: the frame if there was room for it, then the answer. -/
def Desk.answer (d : Desk) (slot : Nat) (level : Level) (refused : Bool) (flags room : Nat)
    (a : LoopAck) : Desk :=
  let frame :=
    if refused then errFrame MSG_ERR_NO_REPLICAS a.clientSeq []
    else ackFrame flags a.walSeq a.clientSeq
  let sent := decide (¬ room < frame.size)
  (d.stageIf sent slot frame).note
    (.answered slot (d.party slot).session
      ⟨level, refused, flags, a.clientSeq, a.walSeq, d.durable, room, sent⟩)

def Desk.write (d : Desk) (slot : Nat) (h : MsgHeader) (fate : Fate) : Write :=
  { slot := slot
    session := (d.party slot).session
    header := h
    live := d.live
    durable := d.durable
    tick := d.tick
    fate := fate }

/-- Neither running nor held. -/
def LoopSub.Idle (sub : LoopSub) : Prop := sub.active = false ∧ sub.waiting = false

/-- What may start at once: the log is flushed as far as was asked, and a READ goes at
least as far; or a READ is of a key that the index says is not in the log. -/
def Desk.Starts (d : Desk) (op : Nat) (sub : LoopSub) (known : Bool) : Prop :=
  (known = true ∧ sub.minSeq ≤ d.durable ∧
      (op = MSG_OP_READ → sub.once = true ∧ sub.minSeq ≤ sub.untilSeq)) ∨
    (known = false ∧ op = MSG_OP_READ ∧ sub.once = true ∧ sub.untilSeq = 0 ∧
      sub.cursor.nextSeq = 1 ∧ sub.allKeys = false ∧ walIndexComplete d.index = true ∧
      ∀ k ∈ d.index.keys, k.key ≠ sub.key)

inductive Move : Desk → Desk → Prop where
  | opened {d : Desk} {slot : Nat} (dispatching : d.phase = .dispatching)
      (free : (d.party slot).inUse = false) (unlit : d.watched slot = false)
      (inside : slot < LOOP_MAX_CONNS) :
      Move d ((d.setParty slot Party.fresh).note (.opened slot))
  | released {d : Desk} {slot : Nat} (arming : d.phase = .arming)
      (used : (d.party slot).inUse = true) :
      Move d ((d.setParty slot Party.idle).note (.released slot))
  | heard {d : Desk} (slot : Nat) (bytes : Bytes) : Move d (d.note (.heard slot bytes))
  | drew {d : Desk} {id : Nat} (named : id ≠ 0) (absent : sessionLookup d.sessions id = none) :
      Move d ({ d with sessions := slotForNew d.sessions id }.note (.drew id d.first))
  | greeted {d : Desk} {slot : Nat} {s : Session} (dispatching : d.phase = .dispatching)
      (unlit : d.watched slot = false) (fresh : d.party slot = Party.fresh)
      (known : sessionLookup d.sessions s.id = some s) :
      Move d (((d.setParty slot { d.party slot with session := s.id }).note
        (.joined slot s.id)).stage slot (ackFrame MSG_FLAG_ACK_REQ s.id s.lastClientSeq))
  | refused {d : Desk} (slot : Nat) (h : MsgHeader) (code : Nat) :
      Move d (d.note (.wrote (d.write slot h (.refused code))))
  | resent {d : Desk} {slot : Nat} {h : MsgHeader} {s : Session}
      (dispatching : d.phase = .dispatching) (leading : d.leading = true)
      (used : (d.party slot).inUse = true)
      (known : sessionLookup d.sessions (d.party slot).session = some s)
      (able : wantsCopy h.flags d.live = false) (low : h.sequence ≤ s.lastClientSeq) :
      Move d ((d.note (.wrote (d.write slot h .resent))).setParty slot
        ((d.party slot).owe d.live d.tick h.flags s.lastClientSeq d.durable))
  | stored {d : Desk} {slot : Nat} {h : MsgHeader} {s : Session} {r : WalRec}
      (dispatching : d.phase = .dispatching) (leading : d.leading = true)
      (used : (d.party slot).inUse = true)
      (known : sessionLookup d.sessions (d.party slot).session = some s)
      (able : wantsCopy h.flags d.live = false) (high : s.lastClientSeq < h.sequence)
      (seq : r.seq = d.next) (session : r.session = (d.party slot).session)
      (clientSeq : r.clientSeq = h.sequence) (below : d.durable < r.seq) :
      Move d (({ d with
          next := d.next + 1
          dirty := true
          index := walIndexAdd d.index r
          sessions := sessionTouch
            (sessionStore d.sessions (d.party slot).session
              (fun s => { s with lastClientSeq := h.sequence })) (d.party slot).session
          trace := .wrote (d.write slot h (.stored r)) :: d.trace }).setParty slot
        ((d.party slot).owe d.live d.tick h.flags h.sequence r.seq))
  | synced {d : Desk} {durable : Nat} (rollover : Bool) {ok : Bool}
      (dispatching : d.phase = .dispatching) (done : ok = true → durable + 1 = d.next)
      (failed : ok = false → durable = d.durable) (grows : d.durable ≤ durable) :
      Move d ({ d with
          durable := durable
          phase := if ok || rollover then .dispatching else .stopped }.note
        (.flushed rollover ok d.durable d.next))
  | applied {d : Desk} {r : WalRec} (dispatching : d.phase = .dispatching)
      (following : d.leading = false) (seq : r.seq = d.next) (below : d.durable < r.seq) :
      Move d
        { d with
          next := d.next + 1
          dirty := true
          index := walIndexAdd d.index r
          sessions := sessionFromRecord d.sessions r
          trace := .applied r :: d.trace }
  | attached {d : Desk} {slot idx sequence : Nat} (dispatching : d.phase = .dispatching)
      (leading : d.leading = true) (used : (d.party slot).inUse = true)
      (free : d.peers idx = none) (inside : idx < LOOP_MAX_REPLICAS) :
      Move d (((d.setParty slot { d.party slot with replica := some idx, sendBuf := [] }).setPeer
        idx (some sequence)).note (.attached slot idx sequence))
  | confirmed {d : Desk} {slot idx : Nat} (sequence : Nat) (dispatching : d.phase = .dispatching)
      (of : (d.party slot).replica = some idx) :
      Move d ((d.setPeer idx ((d.peers idx).map (fun _ => sequence))).note
        (.confirmed slot idx sequence))
  | raised {d : Desk} (dispatching : d.phase = .dispatching) : Move d d.raised
  | detached {d : Desk} {slot idx : Nat} (arming : d.phase = .arming)
      (used : (d.party slot).inUse = true) (of : (d.party slot).replica = some idx) :
      Move d (((d.setParty slot { d.party slot with replica := none }).setPeer idx none).note
        (.detached idx))
  | staged {d : Desk} {slot : Nat} {frame : Frame} (used : (d.party slot).inUse = true)
      (founded : Founded d.durable frame) : Move d (d.stage slot frame)
  | handed {d : Desk} {slot : Nat} (taken : Nat)
      (sends : d.phase = .arming ∨ (d.phase = .dispatching ∧ d.watched slot = true)) :
      Move d (d.note (.handed slot d.durable (d.party slot).sendBuf taken))
  | sent {d : Desk} {slot : Nat} {rest : Bytes} (left : rest <:+ (d.party slot).sendBuf) :
      Move d (d.setParty slot { d.party slot with sendBuf := rest })
  | answeredLocal {d : Desk} {slot : Nat} (room : Nat) (serving : d.phase = .serving)
      (used : (d.party slot).inUse = true) (due : (d.party slot).ackLocal.due = true) :
      Move d ((d.setParty slot { d.party slot with ackLocal := ackNone }).answer slot .local' false
        (d.party slot).ackLocal.flags room (d.party slot).ackLocal)
  | answeredRepl {d : Desk} {slot : Nat} {refused : Bool} {flags : Nat} (room : Nat)
      (serving : d.phase = .serving) (used : (d.party slot).inUse = true)
      (due : (d.party slot).ackRepl.due = true)
      (verdict : (d.party slot).ackRepl.verdict d.best d.durable d.live d.tick =
        some (refused, flags)) :
      Move d ((d.setParty slot { d.party slot with ackRepl := ackNone }).answer slot .repl refused
        flags room (d.party slot).ackRepl)
  | swept {d : Desk} (serving : d.phase = .serving)
      (none' : ∀ slot, (d.party slot).inUse = true → (d.party slot).ackLocal.due = false ∧
        ((d.party slot).ackRepl.due = true →
          (d.party slot).ackRepl.verdict d.best d.durable d.live d.tick = none)) :
      Move d (d.note (.swept d.best d.live d.tick))
  | ticked {d : Desk} (fired : Nat) (dispatching : d.phase = .dispatching) :
      Move d { d with tick := u32Add d.tick fired }
  | retained {d : Desk} {first : Nat} (serving : d.phase = .serving) (grows : d.first ≤ first)
      (held : first = d.first ∨ d.want = 0 ∨ first ≤ d.floor + 1) :
      Move d ({ d with first := first }.note (.retained d.first first))
  | waited {d : Desk} (watched : Nat → Bool) (arming : d.phase = .arming) :
      Move d { d with phase := .dispatching, dirty := false, watched := watched }
  | flushed {d : Desk} (dispatching : d.phase = .dispatching)
      (settled : d.durable + 1 = d.next ∨ d.dirty = false) : Move d { d with phase := .serving }
  | rested {d : Desk} (serving : d.phase = .serving) :
      Move d { d with phase := .arming, watched := fun _ => false }
  -- Subscriptions and reads.
  | tuned {d : Desk} {slot : Nat} {sub : LoopSub} (dispatching : d.phase = .dispatching)
      (used : (d.party slot).inUse = true) (before : (d.party slot).sub.Idle)
      (after : sub.Idle) : Move d (d.setSub slot sub)
  | asked {d : Desk} {slot : Nat} (op minSeq : Nat) (known : Bool)
      (dispatching : d.phase = .dispatching) (used : (d.party slot).inUse = true)
      (idle : (d.party slot).sub.Idle) :
      Move d (d.note (.asked slot op minSeq d.durable known))
  | began {d : Desk} {slot op sequence : Nat} {sub : LoopSub} {known : Bool} (sent : Bool)
      (dispatching : d.phase = .dispatching) (used : (d.party slot).inUse = true)
      (idle : (d.party slot).sub.Idle) (active : sub.active = true) (waiting : sub.waiting = false)
      (asking : d.trace.head? = some (.asked slot op sub.minSeq d.durable known))
      (starts : d.Starts op sub known) :
      Move d (((d.stageIf sent slot (emptyAck sequence)).setSub slot sub).note
        (.began slot sub d.durable))
  | held {d : Desk} {slot op : Nat} {sub : LoopSub} {known : Bool}
      (dispatching : d.phase = .dispatching) (used : (d.party slot).inUse = true)
      (idle : (d.party slot).sub.Idle) (active : sub.active = false) (waiting : sub.waiting = true)
      (asking : d.trace.head? = some (.asked slot op sub.minSeq d.durable known))
      (read : op = MSG_OP_READ → sub.once = true)
      (deadline : sub.deadline = u32Add d.tick LOOP_SUB_DEADLINE_TICKS) :
      Move d (d.setSub slot sub)
  | served {d : Desk} {slot sequence view : Nat} (sent : Bool) (serving : d.phase = .serving)
      (used : (d.party slot).inUse = true) (waiting : (d.party slot).sub.waiting = true)
      (reached : (d.party slot).sub.minSeq ≤ view) (below : view ≤ d.durable) :
      Move d (((d.stageIf sent slot (emptyAck sequence)).setSub slot
        ((d.party slot).sub.serve view)).note
        (.began slot ((d.party slot).sub.serve view) d.durable))
  | behind {d : Desk} {slot : Nat} (cursor : WalCursor) (serving : d.phase = .serving)
      (used : (d.party slot).inUse = true) (waiting : (d.party slot).sub.waiting = true)
      (short : viewOf d.durable d.trace < (d.party slot).sub.minSeq)
      (late : (d.party slot).sub.deadline ≤ d.tick) :
      Move d ((d.note (.behind slot (d.party slot).sub d.durable d.tick)).setSub slot
        { (d.party slot).sub with waiting := false, cursor := cursor })
  | advanced {d : Desk} {slot : Nat} (cursor : WalCursor) (serving : d.phase = .serving)
      (used : (d.party slot).inUse = true) (active : (d.party slot).sub.active = true) :
      Move d (d.setSub slot { (d.party slot).sub with cursor := cursor })
  | pushed {d : Desk} {slot : Nat} {r : WalRec} (sent : Bool) (serving : d.phase = .serving)
      (used : (d.party slot).inUse = true) (active : (d.party slot).sub.active = true)
      (below : r.seq ≤ d.durable) :
      Move d (d.note (.pushed slot (d.party slot).sub d.durable r sent))
  | bounded {d : Desk} {slot : Nat} (serving : d.phase = .serving)
      (used : (d.party slot).inUse = true) (active : (d.party slot).sub.active = true) :
      Move d (d.note (.bounded slot (d.party slot).sub))
  | ended {d : Desk} {slot : Nat} (cursor : WalCursor) (serving : d.phase = .serving)
      (used : (d.party slot).inUse = true) (active : (d.party slot).sub.active = true)
      (past : (d.party slot).sub.untilSeq < (d.party slot).sub.cursor.nextSeq) :
      Move d ((d.note (.ended slot (d.party slot).sub d.durable)).setSub slot
        { (d.party slot).sub with active := false, cursor := cursor })
  -- The follower's stream.
  | dialed {d : Desk} : Move d ({ d with up := [] }.note .dialed)
  | reported {d : Desk} {frame : Frame}
      (founded : frame.header.op = MSG_OP_REPL_ACK → frame.header.sequence ≤ d.durable) :
      Move d ({ d with up := d.up ++ frame.bytes }.note (.reported frame))
  | handedUp {d : Desk} (taken : Nat) (sends : d.phase = .arming ∨ d.phase = .dispatching) :
      Move d (d.note (.handedUp d.durable d.up taken))
  | sentUp {d : Desk} {rest : Bytes} (left : rest <:+ d.up) : Move d { d with up := rest }
  | heardDown {d : Desk} (bytes : Bytes) : Move d (d.note (.heardDown bytes))

def Moves : Desk → Desk → Prop := Relation.ReflTransGen Move

end Msgsrvd

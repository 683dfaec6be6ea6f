/-
The state of the event loop: connections, what they are owed, the replicas a leader
streams to, and the stream a follower applies.

`trace` records what happened, newest first.  No function of the loop reads it.
-/

import Msgsrvd.Proto.Conn
import Msgsrvd.Server.Session
import Msgsrvd.Wal.Cursor

namespace Msgsrvd

open Bytestring

def LOOP_MAX_CONNS : Nat := 64
def LOOP_RECV_CAP : Nat := 8192
def LOOP_SEND_CAP : Nat := 8192
def LOOP_MAX_REPLICAS : Nat := 2
def LOOP_REPL_CAP : Nat := 16384
def LOOP_REPL_DEADLINE_TICKS : Nat := 10
def LOOP_REDIAL_TICKS : Nat := 5
def LOOP_SUB_DEADLINE_TICKS : Nat := 5

def EAGAIN : Int := 11
def EIO : Int := 5

/-- The sum of two `uint32_t`. -/
def u32Add (left right : Nat) : Nat := (left + right) % 2 ^ 32

/-! ### What happened -/

structure LoopSub where
  cursor : WalCursor
  key : Nat
  minSeq : Nat
  deadline : Nat
  untilSeq : Nat
  active : Bool
  waiting : Bool
  allKeys : Bool
  once : Bool

structure Frame where
  header : MsgHeader
  payload : Bytes
  deriving DecidableEq, Repr

def Frame.bytes (f : Frame) : Bytes := msgEncodeHeader f.header ++ f.payload

/-- What became of a WRITE. -/
inductive Fate where
  | refused (code : Nat)
  | resent
  | stored (r : WalRec)
  deriving DecidableEq, Repr

/-- A WRITE as it was handled, with what the handler then found. -/
structure Write where
  slot : Nat
  session : Nat
  header : MsgHeader
  live : Bool
  durable : Nat
  tick : Nat
  fate : Fate

/-- The slot an acknowledgement was owed in. -/
inductive Level where
  | local'
  | repl
  deriving DecidableEq, Repr

/-- How an owed acknowledgement was answered, the room there was for the frame, and
whether it was staged. -/
structure Answer where
  level : Level
  refused : Bool
  flags : Nat
  clientSeq : Nat
  walSeq : Nat
  durable : Nat
  room : Nat
  sent : Bool

inductive Note where
  /-- the records recovery read back before the loop started -/
  | recovered (records : List WalRec)
  | opened (slot : Nat)
  | released (slot : Nat)
  /-- a session was drawn while the log began at this sequence -/
  | drew (session first : Nat)
  | joined (slot session : Nat)
  | wrote (write : Write)
  | answered (slot session : Nat) (answer : Answer)
  /-- the log was flushed, or could not be, by a rollover or at the end of the pass;
  how far it was flushed before, and where it ended -/
  | flushed (rollover ok : Bool) (durable next : Nat)
  /-- every owed acknowledgement has been looked at -/
  | swept (best : Nat) (live : Bool) (tick : Nat)
  | staged (slot session : Nat) (frame : Frame)
  /-- a SUBSCRIBE or a READ as it was handled; `known` is false for a key that the index
  says is not in the log -/
  | asked (slot op minSeq durable : Nat) (known : Bool)
  /-- a stream was answered with its ACK -/
  | began (slot : Nat) (sub : LoopSub) (durable : Nat)
  | behind (slot : Nat) (sub : LoopSub) (durable tick : Nat)
  /-- a record was given to the stream, whether or not there was room for it -/
  | pushed (slot : Nat) (sub : LoopSub) (durable : Nat) (r : WalRec) (sent : Bool)
  | ended (slot : Nat) (sub : LoopSub) (durable : Nat)
  /-- a READ went on, and the slots after it see no further than it does -/
  | bounded (slot : Nat) (sub : LoopSub)
  /-- retention moved the start of the log -/
  | retained (before after : Nat)
  /-- the whole send buffer went to `os_send`, which took so many bytes of it -/
  | handed (slot durable : Nat) (bytes : Bytes) (taken : Nat)
  | heard (slot : Nat) (bytes : Bytes)
  | attached (slot peer sequence : Nat)
  | confirmed (slot peer sequence : Nat)
  | detached (peer : Nat)
  | applied (r : WalRec)
  | dialed
  | reported (frame : Frame)
  | handedUp (durable : Nat) (bytes : Bytes) (taken : Nat)
  | heardDown (bytes : Bytes)

/-! ### Connections -/

structure LoopAck where
  clientSeq : Nat
  walSeq : Nat
  deadline : Nat
  flags : Nat
  due : Bool
  degradable : Bool

structure LoopConn where
  conn : Conn
  /-- `send_buf[0..send_len)` -/
  sendBuf : Bytes
  sendCap : Nat
  /-- the replica whose area `send_buf` points into, or none for the slot's own -/
  sendFrom : Option Nat
  replica : Option Nat
  session : Nat
  ackLocal : LoopAck
  ackRepl : LoopAck
  sub : LoopSub
  inUse : Bool
  wantOut : Bool
  closing : Bool

structure LoopPeer where
  live : Bool
  durable : Nat
  cursor : WalCursor

/-- The follower's one stream from its leader. -/
structure LoopStream where
  /-- `repl_fd >= 0` -/
  fd : Bool
  connecting : Bool
  wantOut : Bool
  closing : Bool
  sendBuf : Bytes
  nextDial : Nat
  conn : Conn
  acked : Nat
  lastErr : Nat

structure LoopCounts where
  replDegraded : Nat
  retainRemoved : Nat
  retainErrors : Nat
  acksAppend : Nat
  acksSync : Nat
  acksRepl : Nat

structure Loop where
  wal : Wal
  os : Os
  sessions : SessionTable
  conns : Nat → LoopConn
  peer : Nat → LoopPeer
  stream : LoopStream
  stop : Bool
  walDirty : Bool
  progress : Bool
  isFollower : Bool
  leaderText : Bytes
  /-- `timer_fd >= 0` -/
  timer : Bool
  tick : Nat
  retainSegments : Nat
  replicasWant : Nat
  retainFloor : Nat
  retainSeenSegs : Nat
  retainFailed : Bool
  counts : LoopCounts
  /-- what the kernel's pool will draw -/
  draws : List Nat
  /-- whether the kernel would give a timer now -/
  clock : Bool
  trace : List Note

def Loop.note (l : Loop) (note : Note) : Loop := { l with trace := note :: l.trace }

def Loop.setConn (l : Loop) (slot : Nat) (c : LoopConn) : Loop :=
  { l with conns := fun other => if other = slot then c else l.conns other }

def Loop.setPeer (l : Loop) (idx : Nat) (p : LoopPeer) : Loop :=
  { l with peer := fun other => if other = idx then p else l.peer other }

def Loop.setSub (l : Loop) (slot : Nat) (sub : LoopSub) : Loop :=
  l.setConn slot { l.conns slot with sub := sub }

/-- `c->closing = TRUE` -/
def Loop.close (l : Loop) (slot : Nat) : Loop :=
  l.setConn slot { l.conns slot with closing := true }

/-! ### Slots -/

def ackNone : LoopAck :=
  { clientSeq := 0, walSeq := 0, deadline := 0, flags := 0, due := false, degradable := false }

def subNone : LoopSub :=
  { cursor := walCursorInit, key := 0, minSeq := 0, deadline := 0, untilSeq := 0
    active := false, waiting := false, allKeys := false, once := false }

def slotEmpty : LoopConn :=
  { conn := connInit 0 .client
    sendBuf := []
    sendCap := LOOP_SEND_CAP
    sendFrom := none
    replica := none
    session := 0
    ackLocal := ackNone
    ackRepl := ackNone
    sub := subNone
    inUse := false
    wantOut := false
    closing := false }

def slotAlloc (l : Loop) : Option Nat :=
  (List.range LOOP_MAX_CONNS).find? (fun slot => !(l.conns slot).inUse)

def slotReset (l : Loop) (slot : Nat) : Loop := l.setConn slot slotEmpty

def replicaRelease (l : Loop) (idx : Nat) : Loop :=
  if LOOP_MAX_REPLICAS ≤ idx then l
  else
    let (cursor, os) := walCursorClose l.os (l.peer idx).cursor
    (({ l with os := os }).setPeer idx ⟨false, 0, cursor⟩).note (.detached idx)

def slotRelease (l : Loop) (slot : Nat) : Loop :=
  let c := l.conns slot
  if ¬ c.inUse then l
  else
    let l := match c.replica with
      | none => l
      | some idx => replicaRelease l idx
    let l := match c.sub.cursor.fd with
      | none => l
      | some _ => { l with os := (walCursorClose l.os c.sub.cursor).2 }
    (slotReset l slot).note (.released slot)

/-! ### Reply staging -/

def LoopConn.room (c : LoopConn) : Nat := c.sendCap - c.sendBuf.length

/-- A whole frame at the end of the send buffer; false when it does not fit. -/
def replyFrame (l : Loop) (slot : Nat) (frame : Frame) : Bool × Loop :=
  let c := l.conns slot
  if c.room < MSG_HEADER_SIZE + frame.payload.length then (false, l)
  else
    (true, (l.setConn slot { c with sendBuf := c.sendBuf ++ frame.bytes }).note
      (.staged slot c.session frame))

def reply (l : Loop) (slot op flags sequence : Nat) (payload : Bytes) : Bool × Loop :=
  replyFrame l slot
    ⟨msgHeaderNew op MSG_RECORD_NONE flags payload.length 0 sequence, payload⟩

def replyRecord (l : Loop) (slot : Nat) (r : WalRec) (payload : Bytes) : Bool × Loop :=
  replyFrame l slot
    ⟨msgHeaderNew MSG_OP_NOTIFY r.recordType 0 r.len r.partitionKey r.seq, payload⟩

def replyErrText (l : Loop) (slot code sequence : Nat) (text : Bytes) : Bool × Loop :=
  let text := text.take MSG_MAX_ERR_TEXT
  reply l slot MSG_OP_ERR 0 sequence (msgEncodeErr code text.length ++ text)

def replyErr (l : Loop) (slot code sequence : Nat) : Loop :=
  (replyErrText l slot code sequence []).2

def replyAck (l : Loop) (slot flags sequence clientSeq : Nat) : Bool × Loop :=
  reply l slot MSG_OP_ACK flags sequence (msgEncodeAck clientSeq)

/-! ### Owed acknowledgements -/

def ackStage (a : LoopAck) (flags : Nat) (degradable : Bool) (clientSeq walSeq deadline : Nat) :
    LoopAck :=
  { due := true
    deadline := if a.due then a.deadline else deadline
    flags := a.flags ||| flags
    degradable := a.degradable || degradable
    clientSeq := if clientSeq > a.clientSeq then clientSeq else a.clientSeq
    walSeq := if walSeq > a.walSeq then walSeq else a.walSeq }

def replLive (l : Loop) : Bool :=
  (List.range LOOP_MAX_REPLICAS).any (fun idx => (l.peer idx).live)

/-- The highest sequence any one live replica has made durable. -/
def replBest (l : Loop) : Nat :=
  (List.range LOOP_MAX_REPLICAS).foldl
    (fun best idx =>
      if (l.peer idx).live ∧ (l.peer idx).durable > best then (l.peer idx).durable else best) 0

/-- The lowest confirmed mark of the live replicas, and how many are live. -/
def replLowest (l : Loop) : Nat × Nat :=
  (List.range LOOP_MAX_REPLICAS).foldl
    (fun (lowest, live) idx =>
      if (l.peer idx).live then
        (if live = 0 ∨ (l.peer idx).durable < lowest then (l.peer idx).durable else lowest,
          live + 1)
      else (lowest, live)) (0, 0)

def retainFloorUpdate (l : Loop) : Loop :=
  if l.replicasWant = 0 then l
  else
    let (lowest, live) := replLowest l
    if live < l.replicasWant then l
    else if lowest > l.retainFloor then { l with retainFloor := lowest }
    else l

/-- Put an owed acknowledgement in the slot that can satisfy it. -/
def ackWrite (l : Loop) (slot ackFlags : Nat) (wantsRepl degradable : Bool)
    (clientSeq walSeq : Nat) : Loop :=
  let c := l.conns slot
  if ¬ wantsRepl then
    l.setConn slot { c with ackLocal := ackStage c.ackLocal ackFlags false clientSeq walSeq 0 }
  else if ¬ replLive l then
    let l := l.setConn slot
      { c with
        ackLocal :=
          ackStage c.ackLocal (ackFlags ||| MSG_FLAG_DEGRADED) true clientSeq walSeq 0 }
    { l with counts := { l.counts with replDegraded := l.counts.replDegraded + 1 } }
  else
    l.setConn slot
      { c with
        ackRepl :=
          ackStage c.ackRepl ackFlags degradable clientSeq walSeq
            (u32Add l.tick LOOP_REPL_DEADLINE_TICKS) }

/-- Record what became of a WRITE. -/
def Loop.wrote (l : Loop) (slot : Nat) (h : MsgHeader) (fate : Fate) : Loop :=
  l.note (.wrote
    { slot := slot
      session := (l.conns slot).session
      header := h
      live := replLive l
      durable := walDurableSeq l.wal
      tick := l.tick
      fate := fate })

/-- Record what a flush of the active segment comes to, if there is anything to flush. -/
def Loop.flushes (l : Loop) (rollover : Bool) : Loop :=
  if l.wal.active.syncedOff = l.wal.active.writeOff then l
  else
    l.note (.flushed rollover (walSync l.os l.wal).1.isOk (walDurableSeq l.wal)
      (walNextSeq l.wal))

/-- Which level an acknowledgement answered. -/
def ackCount (l : Loop) (flags : Nat) : Loop :=
  if hasFlag flags MSG_FLAG_REPLICATED ∧ ¬ hasFlag flags MSG_FLAG_DEGRADED then
    { l with counts := { l.counts with acksRepl := l.counts.acksRepl + 1 } }
  else if hasFlag flags MSG_FLAG_SYNC then
    { l with counts := { l.counts with acksSync := l.counts.acksSync + 1 } }
  else { l with counts := { l.counts with acksAppend := l.counts.acksAppend + 1 } }

/-- `arm_timer_now` -/
def armTimerNow (l : Loop) : Loop := if l.timer then l else { l with timer := l.clock }

end Msgsrvd

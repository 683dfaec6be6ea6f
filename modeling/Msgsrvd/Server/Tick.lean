/-
One pass of the event loop: the arm phase, the events, the one flush, and what is
served after it.

A pass is given with everything the kernel answers during it.
-/

import Msgsrvd.Server.Stream

namespace Msgsrvd

open Bytestring

/-! ### Connections -/

/-- `accepted` is whether the new descriptor could be watched. -/
def onAccept (l : Loop) (accepted : Bool) : Loop :=
  match slotAlloc l with
  | none => l
  | some slot =>
      if ¬ accepted then l
      else
        (l.setConn slot
          { slotEmpty with inUse := true, conn := connInit LOOP_RECV_CAP .client }).note
          (.opened slot)

/-- A frame's payload is read where it lies in the receive buffer. -/
def onAction (slot : Nat) (l : Loop) : ConnAction → Loop
  | .frame h payload =>
      handleFrame l slot h (slice (l.conns slot).conn.buf payload h.payloadLen)
  | .replyErr code sequence => replyErr l slot code sequence
  | .close => l.close slot

/-- Feed and handle until nothing more comes out; each round takes a frame's bytes
or closes the framing. -/
def onRecvLoop : Nat → Loop → Nat → Loop
  | 0, l, _ => l
  | fuel + 1, l, slot =>
      let c := l.conns slot
      let (actions, conn) := connFeed c.conn 8
      let l := l.setConn slot { c with conn := conn }
      if actions = [] then l
      else
        let l := actions.foldl (onAction slot) l
        if (l.conns slot).closing then l else onRecvLoop fuel l slot

def onRecv (l : Loop) (slot : Nat) (bytes : Bytes) : Loop :=
  let c := l.conns slot
  let conn := connRecvCommit c.conn bytes
  let l := (l.setConn slot { c with conn := conn }).note (.heard slot bytes)
  onRecvLoop (conn.buf.length + 2) l slot

def loopSendDone (l : Loop) (slot : Nat) (res : Int) : Loop :=
  let c := l.conns slot
  if ¬ c.inUse then l
  else if res ≤ 0 then l.setConn slot { c with closing := true, sendBuf := [] }
  else l.setConn slot { c with sendBuf := c.sendBuf.drop res.toNat }

def connWantOut (l : Loop) (slot : Nat) (want ctl : Bool) : Loop :=
  let c := l.conns slot
  if ¬ c.inUse ∨ c.wantOut = want then l
  else if ¬ ctl then l.close slot
  else l.setConn slot { c with wantOut := want }

def connSend (l : Loop) (slot : Nat) (answer : SendAnswer) : Loop :=
  let bytes := (l.conns slot).sendBuf
  let l := l.note (.handed slot (walDurableSeq l.wal) bytes (takenOf answer.res bytes))
  if answer.res = -EAGAIN then connWantOut l slot true answer.ctl
  else
    let l := loopSendDone l slot answer.res
    connWantOut l slot ((l.conns slot).sendBuf ≠ []) answer.ctl

def doSend (l : Loop) (slot : Nat) (answer : SendAnswer) : Loop :=
  let c := l.conns slot
  if ¬ c.inUse then l
  else if c.sendBuf = [] then connWantOut l slot false answer.ctl
  else connSend l slot answer

def doRecv (l : Loop) (slot : Nat) (received : Received) : Loop :=
  let c := l.conns slot
  if ¬ c.inUse ∨ connRecvSpace c.conn = 0 then l
  else
    match received with
    | .again => l
    | .failed => l.close slot
    | .data bytes => if bytes = [] then l.close slot else onRecv l slot bytes

/-! ### Events -/

/-- What one descriptor is ready for, with what the kernel then answers. -/
inductive Event where
  | listen (accepted : Option Bool)
  | conn (slot : Nat) (readable : Option Received) (writable : Option SendAnswer)
  | signal
  | timer (fired : Nat)
  | stream (connected ctl : Bool) (readable : Option Received) (writable : Option SendAnswer)
  deriving DecidableEq, Repr

def tickEvent (l : Loop) : Event → Loop
  | .listen none => l
  | .listen (some accepted) => if l.stop then l else onAccept l accepted
  | .conn slot readable writable =>
      let l := match readable with
        | none => l
        | some received => doRecv l slot received
      match writable with
      | none => l
      | some answer => doSend l slot answer
  | .signal => { l with stop := true }
  | .timer fired => if l.timer then { l with tick := u32Add l.tick fired } else l
  | .stream connected ctl readable writable =>
      if l.stream.connecting then onReplDial l connected ctl
      else
        let l := match readable with
          | none => l
          | some received => doReplRecv l received
        match writable with
        | none => l
        | some answer => doReplSend l answer

/-! ### The arm phase -/

/-- What the kernel answers during one arm phase. -/
structure Arm where
  dial : DialAnswer
  sends : Nat → SendAnswer
  stream : SendAnswer

def armConn (sends : Nat → SendAnswer) (l : Loop) (slot : Nat) : Loop :=
  if ¬ (l.conns slot).inUse then l
  else
    let l :=
      if (l.conns slot).sendBuf ≠ [] ∧ ¬ (l.conns slot).wantOut then connSend l slot (sends slot)
      else l
    if (l.conns slot).closing then slotRelease l slot
    else
      let c := l.conns slot
      let l := l.setConn slot { c with conn := connCompact c.conn }
      if connRecvSpace (l.conns slot).conn = 0 then slotRelease (l.close slot) slot else l

def armConns (l : Loop) (sends : Nat → SendAnswer) : Loop :=
  (List.range LOOP_MAX_CONNS).foldl (armConn sends) l

def armPhase (l : Loop) (arm : Arm) : Loop :=
  armStream (armConns (replDial l arm.dial) arm.sends) arm.stream

/-! ### What the flush has made true -/

/-- The acknowledgement that the local flush answers. -/
def emitLocal (l : Loop) (slot : Nat) : Loop :=
  let a := (l.conns slot).ackLocal
  if ¬ a.due then l
  else
    let room := (l.conns slot).room
    let (sent, l) := replyAck l slot a.flags a.walSeq a.clientSeq
    let l := ackCount l a.flags
    let c := l.conns slot
    (l.setConn slot { c with ackLocal := ackNone }).note
      (.answered slot c.session
        ⟨.local', false, a.flags, a.clientSeq, a.walSeq, walDurableSeq l.wal, room, sent⟩)

/-- The end of a wait in the replicated slot. -/
def settleRepl (l : Loop) (slot : Nat) (refused : Bool) (flags room : Nat) (sent : Bool) : Loop :=
  let c := l.conns slot
  let a := c.ackRepl
  (l.setConn slot { c with ackRepl := ackNone }).note
    (.answered slot c.session
      ⟨.repl, refused, flags, a.clientSeq, a.walSeq, walDurableSeq l.wal, room, sent⟩)

/-- The acknowledgement that waits for a replica, for its deadline, or for the last
replica to go. -/
def emitRepl (best : Nat) (live : Bool) (l : Loop) (slot : Nat) : Loop :=
  let a := (l.conns slot).ackRepl
  let room := (l.conns slot).room
  if ¬ a.due then l
  else if best ≥ a.walSeq ∧ walDurableSeq l.wal ≥ a.walSeq then
    let (sent, l) := replyAck l slot a.flags a.walSeq a.clientSeq
    settleRepl (ackCount l a.flags) slot false a.flags room sent
  else if live ∧ l.tick < a.deadline then l
  else if a.degradable then
    let flags := a.flags ||| MSG_FLAG_DEGRADED
    let (sent, l) := replyAck l slot flags a.walSeq a.clientSeq
    let l := ackCount l flags
    let l := { l with counts := { l.counts with replDegraded := l.counts.replDegraded + 1 } }
    settleRepl l slot false flags room sent
  else
    let (sent, l) := replyErrText l slot MSG_ERR_NO_REPLICAS a.clientSeq []
    settleRepl l slot true a.flags room sent

def acksEmitOne (best : Nat) (live : Bool) (l : Loop) (slot : Nat) : Loop :=
  if ¬ (l.conns slot).inUse then l else emitRepl best live (emitLocal l slot) slot

def acksEmit (l : Loop) : Loop :=
  let best := replBest l
  let live := replLive l
  ((List.range LOOP_MAX_CONNS).foldl (acksEmitOne best live) l).note (.swept best live l.tick)

/-! ### Subscribers -/

def pushRecord (l : Loop) (slot : Nat) (r : WalRec) (payload : Bytes) : Loop :=
  let (sent, l) := replyRecord l slot r payload
  l.note (.pushed slot (l.conns slot).sub (walDurableSeq l.wal) r sent)

/-- Stage the matching records of a buffer from `at'` on. -/
def pushRecords (slot : Nat) (buf : Bytes) : Nat → Loop → Nat → Loop
  | 0, l, _ => l
  | fuel + 1, l, at' =>
      if at' < buf.length then
        match walRecDecode (buf.drop at') with
        | none => l
        | some r =>
            let size := walRecSize (i32 r.len)
            if size = 0 ∨ at' + size > buf.length then l
            else
              let sub := (l.conns slot).sub
              let l :=
                if sub.allKeys ∨ r.partitionKey = sub.key then
                  pushRecord l slot r (slice buf (at' + WAL_REC_HEADER_SIZE) r.len)
                else l
              pushRecords slot buf fuel l (at' + size)
      else l

/-- A stream held for `min_seq`: it starts, is refused, or goes on waiting. -/
def subsPushWaiting (durable : Nat) (l : Loop) (slot : Nat) : Loop :=
  let sub := (l.conns slot).sub
  if durable ≥ sub.minSeq then
    let l := l.setSub slot
      { sub with
        waiting := false
        active := true
        untilSeq := if sub.once then durable else sub.untilSeq }
    { subAnswer l slot sub.cursor.nextSeq with progress := true }
  else if l.tick ≥ sub.deadline then
    let l := replyErr (l.setSub slot { sub with waiting := false }) slot MSG_ERR_BEHIND sub.minSeq
    let l := l.note (.behind slot sub (walDurableSeq l.wal) l.tick)
    let (cursor, os) := walCursorClose l.os sub.cursor
    { l with os := os }.setSub slot { (l.conns slot).sub with cursor := cursor }
  else l

/-- Read what the stream has room for and stage it. -/
def subsPushRead (durable room : Nat) (l : Loop) (slot : Nat) : Loop :=
  let sub := (l.conns slot).sub
  match walCursorRead l.os l.wal sub.cursor durable room with
  | (.error _, cursor, os) =>
      let l := { l with os := os }.setSub slot { sub with cursor := cursor }
      (replyErr l slot MSG_ERR_NO_HISTORY cursor.nextSeq).close slot
  | (.ok got, cursor, os) =>
      let l := { l with os := os }.setSub slot { sub with cursor := cursor }
      let l := if got = [] then l else { l with progress := true }
      pushRecords slot got got.length l 0

/-- The end of a read: the empty NOTIFY that carries LAST. -/
def subsPushLast (l : Loop) (slot : Nat) : Loop :=
  let sub := (l.conns slot).sub
  let l := (reply l slot MSG_OP_NOTIFY MSG_FLAG_LAST sub.untilSeq []).2.note
    (.ended slot sub (walDurableSeq l.wal))
  let (cursor, os) := walCursorClose l.os sub.cursor
  { l with os := os }.setSub slot { (l.conns slot).sub with active := false, cursor := cursor }

/-- `durable` is the loop's own variable: what one slot takes from it, the next ones see. -/
def subsPushOne : Loop × Nat → Nat → Loop × Nat
  | (l, durable), slot =>
      let c := l.conns slot
      if ¬ c.inUse ∨ c.closing then (l, durable)
      else if c.sub.waiting then (subsPushWaiting durable l slot, durable)
      else if ¬ c.sub.active ∨ c.wantOut then (l, durable)
      else if c.room < MSG_HEADER_SIZE then (l, durable)
      else
        let room := min c.room SCRATCH_LEN
        if ¬ c.sub.once then (subsPushRead durable room l slot, durable)
        else if c.sub.cursor.nextSeq > c.sub.untilSeq then (subsPushLast l slot, durable)
        else
          let durable := if durable > c.sub.untilSeq then c.sub.untilSeq else durable
          (subsPushRead durable room (l.note (.bounded slot c.sub)) slot, durable)

def subsPush (l : Loop) : Loop :=
  ((List.range LOOP_MAX_CONNS).foldl subsPushOne (l, walDurableSeq l.wal)).1

/-! ### Retention -/

def retainPass (l : Loop) : Loop :=
  let segments := l.wal.segBase.length
  if l.retainSegments = 0 then l
  else if l.retainFailed ∧ segments = l.retainSeenSegs then l
  else
    let l := { l with retainFailed := false, retainSeenSegs := segments }
    let keepFrom := walRetainMark l.wal l.retainSegments
    if keepFrom = 0 then l
    else
      let keepFrom :=
        if l.replicasWant > 0 ∧ l.retainFloor + 1 < keepFrom then l.retainFloor + 1
        else keepFrom
      if keepFrom ≤ walFirstSeq l.wal then l
      else
        match walRetain l.os l.wal keepFrom with
        | (res, removed, w, os) =>
            let l := { l with wal := w, os := os }.note
              (.retained (walFirstSeq l.wal) (walFirstSeq w))
            let l := match res with
              | .ok () => l
              | .error _ =>
                  { l with
                    retainFailed := true
                    counts := { l.counts with retainErrors := l.counts.retainErrors + 1 } }
            { l with
              counts := { l.counts with retainRemoved := l.counts.retainRemoved + removed } }

/-! ### The pass -/

/-- What the kernel answers during one pass.  `script` and `draws` are the outcomes
of the file operations and of the draws, `wait` what `os_epoll_wait` reports. -/
structure Pass where
  script : List Outcome
  draws : List Nat
  clock : Bool
  arm : Arm
  wait : Option (List Event)
  rearm : Arm

def Loop.prepare (l : Loop) (pass : Pass) : Loop :=
  { l with
    os := { l.os with script := pass.script }
    draws := pass.draws
    clock := pass.clock }

def loopDispatch (l : Loop) (events : List Event) : Loop :=
  events.foldl tickEvent { l with walDirty := false }

/-- One flush for everything the pass appended. -/
def loopFlush (l : Loop) : Except Err Unit × Loop :=
  if ¬ l.walDirty then (.ok (), l)
  else
    let l := l.flushes false
    match walSync l.os l.wal with
    | (res, w, os) => (res, { l with wal := w, os := os })

def loopServe (l : Loop) : Loop :=
  let l := acksEmit l
  let l := if l.isFollower then streamReport l else replStream l
  retainPass (subsPush l)

def loopTick (l : Loop) (pass : Pass) : Except Err Unit × Loop :=
  let l := armPhase (l.prepare pass) pass.arm
  let l := { l with progress := false }
  match pass.wait with
  | none => (.error ⟨.syscall, 0⟩, l)
  | some events =>
      match loopFlush (loopDispatch l events) with
      | (.error e, l) => (.error e, l)
      | (.ok (), l) => (.ok (), armPhase (loopServe l) pass.rearm)

end Msgsrvd

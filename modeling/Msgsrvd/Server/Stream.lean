/-
Replication: what a leader streams to its replicas, and how a follower dials,
applies and reports.
-/

import Msgsrvd.Server.Handlers

namespace Msgsrvd

open Bytestring

/-! ### What the kernel answers -/

/-- The result of an `os_send`, and whether the `epoll_ctl` after it succeeds. -/
structure SendAnswer where
  res : Int
  ctl : Bool
  deriving DecidableEq, Repr

inductive Received where
  | again
  | failed
  | data (bytes : Bytes)
  deriving DecidableEq, Repr

/-- How far a dial gets: no socket, not watched, connected at once, still in
progress, or refused. -/
inductive DialAnswer where
  | noSocket
  | noWatch
  | connected (ctl : Bool)
  | inProgress
  | refused
  deriving DecidableEq, Repr

/-- The bytes of a buffer that a send with this result has taken. -/
def takenOf (res : Int) (bytes : Bytes) : Nat := min res.toNat bytes.length

/-! ### The leader's side -/

/-- Fill one replica's buffer with what it has not been sent. -/
def replStreamOne (limit : Nat) (l : Loop) (slot : Nat) : Loop :=
  let c := l.conns slot
  match c.replica with
  | none => l
  | some idx =>
      if ¬ c.inUse ∨ c.closing ∨ c.sendBuf ≠ [] then l
      else
        let first := (l.peer idx).cursor.nextSeq
        match walCursorRead l.os l.wal (l.peer idx).cursor limit
            (c.sendCap - MSG_HEADER_SIZE) with
        | (.error _, cursor, os) =>
            (({ l with os := os }).setPeer idx { l.peer idx with cursor := cursor }).close slot
        | (.ok bytes, cursor, os) =>
            let l := ({ l with os := os }).setPeer idx { l.peer idx with cursor := cursor }
            if bytes = [] then l
            else
              let frame : Frame :=
                ⟨msgHeaderNew MSG_OP_REPL_DATA MSG_RECORD_NONE 0 bytes.length 0 first, bytes⟩
              ({ l with progress := true }.setConn slot { c with sendBuf := frame.bytes }).note
                (.staged slot c.session frame)

def replStream (l : Loop) : Loop :=
  (List.range LOOP_MAX_CONNS).foldl (replStreamOne (walDurableSeq l.wal)) l

/-! ### The follower's side -/

/-- Room for two frames without a payload. -/
def STREAM_SEND_CAP : Nat := MSG_HEADER_SIZE * 2

def streamFrame (l : Loop) (op sequence : Nat) : Loop :=
  if STREAM_SEND_CAP - l.stream.sendBuf.length < MSG_HEADER_SIZE then l
  else
    let frame : Frame := ⟨msgHeaderNew op MSG_RECORD_NONE 0 0 0 sequence, []⟩
    { l with stream := { l.stream with sendBuf := l.stream.sendBuf ++ frame.bytes } }.note
      (.reported frame)

/-- `l->repl_closing = TRUE` -/
def Loop.closeStream (l : Loop) : Loop := { l with stream := { l.stream with closing := true } }

def streamRelease (l : Loop) : Loop :=
  if ¬ l.stream.fd ∨ l.stream.connecting then l
  else
    { l with
      stream :=
        { l.stream with
          fd := false
          closing := false
          wantOut := false
          sendBuf := []
          nextDial := u32Add l.tick LOOP_REDIAL_TICKS } }

/-- Apply the records of a frame from `at'` on; each is at least a header long. -/
def replApplyFrom (p : Bytes) : Nat → Loop → Nat → Loop
  | 0, l, _ => l
  | fuel + 1, l, at' =>
      if at' < p.length then
        match walRecDecode (p.drop at') with
        | none => l.closeStream
        | some rec' =>
            let size := walRecSize (i32 rec'.len)
            if size = 0 ∨ at' + size > p.length ∨ ¬ walRecVerify (p.drop at') rec' ∨
                rec'.seq ≠ walNextSeq l.wal then
              l.closeStream
            else
              match logAppendAt l rec'
                  (slice p (at' + WAL_REC_HEADER_SIZE)
                    (p.length - (at' + WAL_REC_HEADER_SIZE))) with
              | (.error _, l) => l.closeStream
              | (.ok r, l) =>
                  let l := { l with
                    sessions := sessionFromRecord l.sessions r
                    walDirty := true
                    stream := { l.stream with lastErr := 0 } }.note (.applied r)
                  replApplyFrom p fuel l (at' + size)
      else l

def replApply (l : Loop) (p : Bytes) : Loop := replApplyFrom p p.length l 0

def onStreamFrame (l : Loop) (h : MsgHeader) (payload : Bytes) : Loop :=
  if h.op = MSG_OP_REPL_DATA then replApply l payload
  else if h.op = MSG_OP_ERR then
    { l with stream := { l.stream with lastErr := (msgDecodeErr payload).getD 0 } }.closeStream
  else l.closeStream

/-- `connected` is whether the connect succeeded. -/
def onReplDial (l : Loop) (connected ctl : Bool) : Loop :=
  let l := { l with stream := { l.stream with connecting := false } }
  if ¬ connected then
    { l with
      stream :=
        { l.stream with fd := false, nextDial := u32Add l.tick LOOP_REDIAL_TICKS } }
  else
    let l := { l with stream := { l.stream with wantOut := false } }
    if ¬ ctl then l.closeStream
    else
      let l := { l with
        stream :=
          { l.stream with
            conn := connInit LOOP_REPL_CAP .internal
            sendBuf := []
            closing := false
            acked := walDurableSeq l.wal } }.note .dialed
      streamFrame l MSG_OP_REPL_START (walNextSeq l.wal)

def onStreamAction (l : Loop) : ConnAction → Loop
  | .frame h payload => onStreamFrame l h (slice l.stream.conn.buf payload h.payloadLen)
  | .replyErr _ _ => l.closeStream
  | .close => l.closeStream

/-- Feed and handle until nothing more comes out; each round takes a frame's bytes. -/
def onReplRecvLoop : Nat → Loop → Loop
  | 0, l => l
  | fuel + 1, l =>
      let (actions, conn) := connFeed l.stream.conn 4
      let l := { l with stream := { l.stream with conn := conn } }
      if actions = [] then l
      else
        let l := actions.foldl onStreamAction l
        if l.stream.closing then l else onReplRecvLoop fuel l

def onReplRecv (l : Loop) (bytes : Bytes) : Loop :=
  if bytes = [] then l.closeStream
  else
    let l := { l with stream := { l.stream with conn := connRecvCommit l.stream.conn bytes } }.note
      (.heardDown bytes)
    onReplRecvLoop (l.stream.conn.buf.length + 2) l

def streamWantOut (l : Loop) (want ctl : Bool) : Loop :=
  if ¬ l.stream.fd ∨ l.stream.wantOut = want then l
  else if ¬ ctl then l.closeStream
  else { l with stream := { l.stream with wantOut := want } }

def onReplSend (l : Loop) (res : Int) : Loop :=
  if res < 0 then l.closeStream
  else { l with stream := { l.stream with sendBuf := l.stream.sendBuf.drop res.toNat } }

def streamSend (l : Loop) (answer : SendAnswer) : Loop :=
  let l := l.note
    (.handedUp (walDurableSeq l.wal) l.stream.sendBuf (takenOf answer.res l.stream.sendBuf))
  if answer.res = -EAGAIN then streamWantOut l true answer.ctl
  else
    let l := onReplSend l answer.res
    streamWantOut l (l.stream.sendBuf ≠ []) answer.ctl

def doReplSend (l : Loop) (answer : SendAnswer) : Loop :=
  if ¬ l.stream.fd ∨ l.stream.closing then l
  else if l.stream.sendBuf = [] then streamWantOut l false answer.ctl
  else streamSend l answer

def doReplRecv (l : Loop) (received : Received) : Loop :=
  if ¬ l.stream.fd ∨ l.stream.closing ∨ connRecvSpace l.stream.conn = 0 then l
  else
    match received with
    | .again => l
    | .failed => l.closeStream
    | .data bytes => onReplRecv l bytes

/-- Tell the leader how far this node's own flush has got. -/
def streamReport (l : Loop) : Loop :=
  if ¬ l.stream.fd ∨ l.stream.connecting ∨ l.stream.closing then l
  else if walDurableSeq l.wal ≤ l.stream.acked then l
  else if l.stream.sendBuf ≠ [] then l
  else
    let l := streamFrame l MSG_OP_REPL_ACK (walDurableSeq l.wal)
    { l with stream := { l.stream with acked := walDurableSeq l.wal } }

def replDial (l : Loop) (answer : DialAnswer) : Loop :=
  if ¬ l.isFollower ∨ l.stop then l
  else if l.stream.fd ∨ l.stream.connecting then l
  else if l.tick < l.stream.nextDial then l
  else
    let later := { l with
      stream := { l.stream with nextDial := u32Add l.tick LOOP_REDIAL_TICKS } }
    let dialing := { l with stream := { l.stream with fd := true, connecting := true } }
    match answer with
    | .noSocket => later
    | .noWatch => later
    | .connected ctl => onReplDial dialing true ctl
    | .inProgress => dialing
    | .refused => onReplDial dialing false false

def armStream (l : Loop) (answer : SendAnswer) : Loop :=
  if ¬ l.stream.fd ∨ l.stream.connecting ∨ l.stop then l
  else if l.stream.closing then streamRelease l
  else
    let l := if l.stream.sendBuf ≠ [] ∧ ¬ l.stream.wantOut then streamSend l answer else l
    if l.stream.closing then l
    else
      let l := { l with stream := { l.stream with conn := connCompact l.stream.conn } }
      if connRecvSpace l.stream.conn = 0 then l.closeStream else l

end Msgsrvd

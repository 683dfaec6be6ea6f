/-
What one frame does: the handshake, writes, subscriptions and reads, and the
opening and confirmations of a replica.
-/

import Msgsrvd.Server.Loop

namespace Msgsrvd

open Bytestring

/-- `scratch_len` in every call the loop makes. -/
def SCRATCH_LEN : Nat := WAL_REC_MAX_SIZE

/-! ### The handshake -/

/-- Bind the connection to a session and say how far the session has got. -/
def greet (l : Loop) (slot : Nat) (s : Session) : Loop :=
  let l := (l.setConn slot { l.conns slot with session := s.id }).note (.joined slot s.id)
  (replyAck l slot MSG_FLAG_ACK_REQ s.id s.lastClientSeq).2

def handleHello (l : Loop) (slot : Nat) (h : MsgHeader) (payload : Bytes) : Loop :=
  match (msgDecodeHello payload).filter (fun hello => msgHelloValid hello payload.length) with
  | none => (replyErr l slot MSG_ERR_PAYLOAD_TOO_BIG h.sequence).close slot
  | some hello =>
      if hello.session = 0 then
        match sessionCreate l.sessions l.draws with
        | (none, sessions, draws) =>
            let l := { l with sessions := sessions, draws := draws }
            (replyErr l slot MSG_ERR_SESSION_UNKNOWN h.sequence).close slot
        | (some s, sessions, draws) =>
            let l := { l with sessions := sessions, draws := draws }.note
              (.drew s.id (walFirstSeq l.wal))
            greet l slot s
      else
        match sessionLookup l.sessions hello.session with
        | none => replyErr l slot MSG_ERR_SESSION_UNKNOWN h.sequence
        | some s => greet l slot s

/-! ### Writes -/

def writeRec (session : Nat) (h : MsgHeader) (payload : Bytes) : WalRec :=
  { crc := 0
    len := payload.length
    term := 1
    seq := 0
    session := session
    clientSeq := h.sequence
    recordType := h.recordType
    flags := h.flags
    pad := 0
    partitionKey := h.partitionKey }

/-- `wal_append` on the loop's log. -/
def logAppend (l : Loop) (r : WalRec) (payload : Bytes) : Except Err WalRec × Loop :=
  let l := if walRollsOver l.wal r then l.flushes true else l
  match walAppend l.os l.wal r payload SCRATCH_LEN with
  | (res, w, os) => (res, { l with wal := w, os := os })

/-- `wal_append_at` on the loop's log. -/
def logAppendAt (l : Loop) (r : WalRec) (payload : Bytes) : Except Err WalRec × Loop :=
  let l := if r.seq = walNextSeq l.wal ∧ walRollsOver l.wal r then l.flushes true else l
  match walAppendAt l.os l.wal r payload SCRATCH_LEN with
  | (res, w, os) => (res, { l with wal := w, os := os })

def ackFlagsOf (flags : Nat) : Nat :=
  flags &&& (MSG_FLAG_ACK_REQ ||| MSG_FLAG_SYNC ||| MSG_FLAG_REPLICATED)

/-- A refusal, which the client is told of. -/
def refuseWrite (l : Loop) (slot : Nat) (h : MsgHeader) (code : Nat) (text : Bytes) : Loop :=
  (replyErrText (l.wrote slot h (.refused code)) slot code h.sequence text).2

/-- The answer to a write that is in the log already. -/
def resendWrite (l : Loop) (slot : Nat) (h : MsgHeader) (mark : Nat) : Loop :=
  let l := l.wrote slot h .resent
  if hasFlag h.flags MSG_FLAG_ACK_REQ then
    ackWrite l slot (ackFlagsOf h.flags) (hasFlag h.flags MSG_FLAG_REPLICATED)
      (hasFlag h.flags MSG_FLAG_ALLOW_DEGRADED) mark (walDurableSeq l.wal)
  else l

/-- The record is in the log: raise the mark and note what is owed. -/
def storedWrite (l : Loop) (slot : Nat) (h : MsgHeader) (r : WalRec) : Loop :=
  let session := (l.conns slot).session
  let l := l.wrote slot h (.stored r)
  let sessions :=
    sessionStore l.sessions session (fun s => { s with lastClientSeq := h.sequence })
  let l := { l with walDirty := true, sessions := sessionTouch sessions session }
  if hasFlag h.flags MSG_FLAG_ACK_REQ then
    ackWrite l slot (ackFlagsOf h.flags) (hasFlag h.flags MSG_FLAG_REPLICATED)
      (hasFlag h.flags MSG_FLAG_ALLOW_DEGRADED) h.sequence r.seq
  else l

def handleWrite (l : Loop) (slot : Nat) (h : MsgHeader) (payload : Bytes) : Loop :=
  match sessionLookup l.sessions (l.conns slot).session with
  | none => (refuseWrite l slot h MSG_ERR_NO_SESSION []).close slot
  | some s =>
      if l.isFollower then refuseWrite l slot h MSG_ERR_NOT_LEADER l.leaderText
      else if hasFlag h.flags MSG_FLAG_REPLICATED ∧ ¬ replLive l ∧
          ¬ hasFlag h.flags MSG_FLAG_ALLOW_DEGRADED then
        refuseWrite l slot h MSG_ERR_NO_REPLICAS []
      else if h.sequence ≤ s.lastClientSeq then resendWrite l slot h s.lastClientSeq
      else
        match logAppend l (writeRec (l.conns slot).session h payload) payload with
        | (.error e, l) =>
            refuseWrite l slot h
              (if e.code = .invalid then MSG_ERR_PAYLOAD_TOO_BIG else MSG_ERR_STORAGE) []
        | (.ok r, l) => storedWrite l slot h r

/-! ### Subscriptions and reads -/

/-- `wal_cursor_seek` on the connection's own cursor. -/
def subSeek (l : Loop) (slot fromSeq : Nat) : Except Err Unit × Loop :=
  match walCursorSeek l.os l.wal walCursorInit fromSeq SCRATCH_LEN with
  | (res, cursor, os) =>
      (res, { l with os := os }.setSub slot { (l.conns slot).sub with cursor := cursor })

/-- Hold the stream until the node has flushed as far as `min_seq`. -/
def subWait (l : Loop) (slot : Nat) : Loop :=
  armTimerNow
    (l.setSub slot
      { (l.conns slot).sub with
        waiting := true, deadline := u32Add l.tick LOOP_SUB_DEADLINE_TICKS })

/-- Answer the stream with its ACK. -/
def subAnswer (l : Loop) (slot sequence : Nat) : Loop :=
  (reply l slot MSG_OP_ACK 0 sequence []).2.note
    (.began slot (l.conns slot).sub (walDurableSeq l.wal))

def subStart (l : Loop) (slot sequence : Nat) : Loop :=
  subAnswer (l.setSub slot { (l.conns slot).sub with active := true }) slot sequence

def handleSubscribe (l : Loop) (slot : Nat) (h : MsgHeader) (payload : Bytes) : Loop :=
  match msgDecodeSubscribe payload with
  | none => (replyErr l slot MSG_ERR_PAYLOAD_TOO_BIG h.sequence).close slot
  | some req =>
      let sub := (l.conns slot).sub
      if sub.active ∨ sub.waiting then replyErr l slot MSG_ERR_UNSUPPORTED h.sequence
      else
        let l := l.note (.asked slot MSG_OP_SUBSCRIBE req.minSeq (walDurableSeq l.wal) true)
        let fromSeq := if req.fromSeq = 0 then walNextSeq l.wal else req.fromSeq
        let fromSeq :=
          if hasFlag h.flags MSG_FLAG_ALL_KEYS then fromSeq
          else
            match walIndexRange l.wal.index h.partitionKey fromSeq with
            | none => fromSeq
            | some (keyFrom, _) => keyFrom
        match subSeek l slot fromSeq with
        | (.error _, l) => replyErr l slot MSG_ERR_NO_HISTORY h.sequence
        | (.ok (), l) =>
            let l := l.setSub slot
              { (l.conns slot).sub with
                key := h.partitionKey
                allKeys := hasFlag h.flags MSG_FLAG_ALL_KEYS
                minSeq := req.minSeq }
            if req.minSeq > walDurableSeq l.wal then subWait l slot
            else subStart l slot fromSeq

/-- The part of a read that opens the log, from this sequence up to that one. -/
def readFrom (l : Loop) (slot : Nat) (h : MsgHeader) (minSeq fromSeq untilSeq : Nat) : Loop :=
  let l := l.setSub slot { (l.conns slot).sub with untilSeq := untilSeq }
  match subSeek l slot fromSeq with
  | (.error _, l) => replyErr l slot MSG_ERR_NO_HISTORY h.sequence
  | (.ok (), l) =>
      if minSeq > untilSeq then subWait l slot
      else subStart l slot (l.conns slot).sub.cursor.nextSeq

def handleRead (l : Loop) (slot : Nat) (h : MsgHeader) (payload : Bytes) : Loop :=
  match msgDecodeRead payload with
  | none => (replyErr l slot MSG_ERR_PAYLOAD_TOO_BIG h.sequence).close slot
  | some minSeq =>
      let sub := (l.conns slot).sub
      if sub.active ∨ sub.waiting then replyErr l slot MSG_ERR_UNSUPPORTED h.sequence
      else
        let untilSeq := walDurableSeq l.wal
        let fromSeq := walFirstSeq l.wal
        let allKeys := hasFlag h.flags MSG_FLAG_ALL_KEYS
        let known := allKeys || (walIndexRange l.wal.index h.partitionKey fromSeq).isSome ||
          !walIndexComplete l.wal.index
        let l := l.note (.asked slot MSG_OP_READ minSeq untilSeq known)
        let l := l.setSub slot
          { sub with
            key := h.partitionKey
            allKeys := allKeys
            minSeq := minSeq
            once := true
            untilSeq := untilSeq }
        if allKeys then readFrom l slot h minSeq fromSeq untilSeq
        else
          match walIndexRange l.wal.index h.partitionKey fromSeq with
          | some (keyFrom, keyLast) =>
              readFrom l slot h minSeq keyFrom
                (if keyLast < untilSeq then keyLast else untilSeq)
          | none =>
              if walIndexComplete l.wal.index then
                let sub := (l.conns slot).sub
                let l := l.setSub slot
                  { sub with untilSeq := 0, cursor := { sub.cursor with nextSeq := 1 } }
                subStart l slot 0
              else readFrom l slot h minSeq fromSeq untilSeq

/-! ### Replication, the leader's side -/

def freePeer (l : Loop) : Option Nat :=
  (List.range LOOP_MAX_REPLICAS).find? (fun idx => !(l.peer idx).live)

def handleReplStart (l : Loop) (slot : Nat) (h : MsgHeader) : Loop :=
  if l.isFollower then
    ((replyErrText l slot MSG_ERR_NOT_LEADER h.sequence l.leaderText).2).close slot
  else
    match freePeer l with
    | none => (replyErr l slot MSG_ERR_NO_REPLICAS h.sequence).close slot
    | some idx =>
        match walCursorSeek l.os l.wal walCursorInit h.sequence SCRATCH_LEN with
        | (.error _, cursor, os) =>
            let l := { l with os := os }.setPeer idx { l.peer idx with cursor := cursor }
            (replyErr l slot MSG_ERR_NO_HISTORY h.sequence).close slot
        | (.ok (), cursor, os) =>
            let l := { l with os := os }.setConn slot
              { l.conns slot with
                replica := some idx
                sendBuf := []
                sendCap := LOOP_REPL_CAP
                sendFrom := some idx }
            let l := (l.setPeer idx ⟨true, h.sequence - 1, cursor⟩).note
              (.attached slot idx (h.sequence - 1))
            armTimerNow (retainFloorUpdate l)

/-- What a replica has made durable. -/
def handleReplAck (l : Loop) (slot : Nat) (h : MsgHeader) : Loop :=
  match (l.conns slot).replica with
  | none => l
  | some idx =>
      retainFloorUpdate
        ((l.setPeer idx { l.peer idx with durable := h.sequence }).note
          (.confirmed slot idx h.sequence))

def handleFrame (l : Loop) (slot : Nat) (h : MsgHeader) (payload : Bytes) : Loop :=
  if h.op = MSG_OP_HELLO then handleHello l slot h payload
  else if h.op = MSG_OP_WRITE then handleWrite l slot h payload
  else if h.op = MSG_OP_PING then (reply l slot MSG_OP_PONG 0 h.sequence []).2
  else if h.op = MSG_OP_REPL_START then handleReplStart l slot h
  else if h.op = MSG_OP_REPL_ACK then handleReplAck l slot h
  else if h.op = MSG_OP_SUBSCRIBE then handleSubscribe l slot h payload
  else if h.op = MSG_OP_READ then handleRead l slot h payload
  else if h.op = MSG_OP_DELETE then replyErr l slot MSG_ERR_UNSUPPORTED h.sequence
  else (replyErr l slot MSG_ERR_BAD_OP h.sequence).close slot

end Msgsrvd

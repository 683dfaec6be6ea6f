/-
The framing layer: bytes in, whole frames and control actions out.

The receive buffer keeps the parsed bytes until `connCompact` takes the space back.
-/

import Msgsrvd.Proto.Msg

namespace Msgsrvd

open Bytestring

inductive ConnMode where
  | client
  | internal
  deriving DecidableEq, Repr

/-- `payload` is where the frame's payload lies in the receive buffer. -/
inductive ConnAction where
  | frame (header : MsgHeader) (payload : Nat)
  | replyErr (code sequence : Nat)
  | close
  deriving DecidableEq, Repr

structure Conn where
  /-- `buf[0..buf_len)` -/
  buf : Bytes
  bufCap : Nat
  bufOff : Nat
  closed : Bool
  mode : ConnMode
  opened : Bool
  deriving DecidableEq, Repr

def connInit (bufCap : Nat) (mode : ConnMode) : Conn :=
  { buf := [], bufCap := bufCap, bufOff := 0, closed := false, mode := mode, opened := false }

def connCompact (c : Conn) : Conn :=
  if c.bufOff = 0 then c else { c with buf := c.buf.drop c.bufOff, bufOff := 0 }

def connRecvSpace (c : Conn) : Nat := c.bufCap - c.buf.length

/-- A receive straight into the buffer, and the commit that accounts for it. -/
def connRecvCommit (c : Conn) (bytes : Bytes) : Conn :=
  if c.closed then c else { c with buf := c.buf ++ bytes.take (connRecvSpace c) }

/-- The copying counterpart, which takes the parsed space back first. -/
def connRecvAppend (c : Conn) (bytes : Bytes) : Conn :=
  if c.closed ∨ bytes = [] then c
  else
    let c := connCompact c
    { c with buf := c.buf ++ bytes.take (connRecvSpace c) }

/-- The error and the close, as far as there is room for them. -/
def emitFatal (outCap code echoSeq : Nat) : List ConnAction :=
  [.replyErr code echoSeq, .close].take outCap

/-- HELLO opens a client's connection and REPL_START a replica's. -/
def opens (op : Nat) : Bool := op == MSG_OP_HELLO || op == MSG_OP_REPL_START

/-- The protocol error in a header, checked before its payload has arrived: the code
and the sequence it is reported with. -/
def headerFault (bufCap : Nat) (mode : ConnMode) (opened : Bool) (hdr : MsgHeader) :
    Option (Nat × Nat) :=
  if hdr.magic ≠ MSG_MAGIC then some (MSG_ERR_BAD_MAGIC, 0)
  else if hdr.version < MSG_VERSION_MIN ∨ hdr.version > MSG_VERSION then
    some (MSG_ERR_BAD_VERSION, hdr.sequence)
  else if hdr.op < MSG_OP_MIN ∨ hdr.op > MSG_OP_MAX then some (MSG_ERR_BAD_OP, hdr.sequence)
  else if hdr.payloadLen > MSG_MAX_PAYLOAD ∨ hdr.payloadLen > bufCap - MSG_HEADER_SIZE then
    some (MSG_ERR_PAYLOAD_TOO_BIG, hdr.sequence)
  else if mode = .client ∧ opens hdr.op = opened then some (MSG_ERR_NO_SESSION, hdr.sequence)
  else none

/-- Parse from `cursor` on, with room for so many more actions. -/
def connFeedFrom : Nat → Conn → Nat → List ConnAction × Conn
  | 0, c, cursor => ([], { c with bufOff := cursor })
  | room + 1, c, cursor =>
      if c.buf.length - cursor < MSG_HEADER_SIZE then ([], { c with bufOff := cursor })
      else
        let hdr := msgHeaderAt (c.buf.drop cursor)
        match headerFault c.bufCap c.mode c.opened hdr with
        | some (code, echoSeq) =>
            (emitFatal (room + 1) code echoSeq,
              { c with closed := true, bufOff := c.buf.length })
        | none =>
            let total := MSG_HEADER_SIZE + hdr.payloadLen
            if c.buf.length - cursor < total then ([], { c with bufOff := cursor })
            else
              let c := { c with opened := c.opened || opens hdr.op }
              let (actions, c) := connFeedFrom room c (cursor + total)
              (.frame hdr (cursor + MSG_HEADER_SIZE) :: actions, c)

def connFeed (c : Conn) (outCap : Nat) : List ConnAction × Conn :=
  if c.closed ∨ outCap = 0 then ([], c) else connFeedFrom outCap c c.bufOff

end Msgsrvd

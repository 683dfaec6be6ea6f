/-
The wire protocol: the 32-byte header, its flags and codes, and the fixed part of
each payload.
-/

import Msgsrvd.Wal.Record

namespace Msgsrvd

open Bytestring

def MSG_MAGIC : Nat := 0x4D534756
def MSG_VERSION : Nat := 2
def MSG_VERSION_MIN : Nat := 2
def MSG_HEADER_SIZE : Nat := 32
def MSG_MAX_NAME : Nat := 64
def MSG_MAX_ERR_TEXT : Nat := 64

/-! ### Operations, codes and flags -/

def MSG_OP_WRITE : Nat := 1
def MSG_OP_READ : Nat := 2
def MSG_OP_DELETE : Nat := 3
def MSG_OP_SUBSCRIBE : Nat := 4
def MSG_OP_NOTIFY : Nat := 5
def MSG_OP_ACK : Nat := 6
def MSG_OP_ERR : Nat := 7
def MSG_OP_PING : Nat := 8
def MSG_OP_PONG : Nat := 9
def MSG_OP_HELLO : Nat := 10
def MSG_OP_REPL_START : Nat := 11
def MSG_OP_REPL_DATA : Nat := 12
def MSG_OP_REPL_ACK : Nat := 13
def MSG_OP_MIN : Nat := MSG_OP_WRITE
def MSG_OP_MAX : Nat := MSG_OP_REPL_ACK

def MSG_RECORD_NONE : Nat := 0

def MSG_ERR_BAD_MAGIC : Nat := 1
def MSG_ERR_BAD_VERSION : Nat := 2
def MSG_ERR_BAD_OP : Nat := 3
def MSG_ERR_PAYLOAD_TOO_BIG : Nat := 4
def MSG_ERR_NOT_LEADER : Nat := 5
def MSG_ERR_BEHIND : Nat := 6
def MSG_ERR_NO_SESSION : Nat := 7
def MSG_ERR_SESSION_UNKNOWN : Nat := 8
def MSG_ERR_UNSUPPORTED : Nat := 9
def MSG_ERR_NO_REPLICAS : Nat := 10
def MSG_ERR_NO_HISTORY : Nat := 11
def MSG_ERR_STORAGE : Nat := 12

def MSG_FLAG_ACK_REQ : Nat := 1 <<< 0
def MSG_FLAG_SYNC : Nat := 1 <<< 1
def MSG_FLAG_REPLICATED : Nat := 1 <<< 2
def MSG_FLAG_ALLOW_DEGRADED : Nat := 1 <<< 3
def MSG_FLAG_DEGRADED : Nat := 1 <<< 4
def MSG_FLAG_LAST : Nat := 1 <<< 5
def MSG_FLAG_ALL_KEYS : Nat := 1 <<< 6

/-- `flags & flag` as a condition. -/
def hasFlag (flags flag : Nat) : Bool := flags &&& flag != 0

theorem hasFlag_or (left right flag : Nat) :
    hasFlag (left ||| right) flag = (hasFlag left flag || hasFlag right flag) := by
  rw [Bool.eq_iff_iff]
  simp only [hasFlag, Nat.and_or_distrib_right, bne_iff_ne, ne_eq, Nat.or_eq_zero_iff,
    Bool.or_eq_true]
  exact not_and_or

/-- A mask keeps the flags it contains. -/
theorem hasFlag_and {mask flag : Nat} (flags : Nat) (within : mask &&& flag = flag) :
    hasFlag (flags &&& mask) flag = hasFlag flags flag := by
  unfold hasFlag
  rw [Nat.and_assoc, within]

structure MsgHeader where
  magic : Nat
  version : Nat
  flags : Nat
  op : Nat
  recordType : Nat
  payloadLen : Nat
  partitionKey : Nat
  sequence : Nat
  deriving DecidableEq, Repr

def msgHeaderNew (op recordType flags payloadLen partitionKey sequence : Nat) : MsgHeader :=
  { magic := MSG_MAGIC
    version := MSG_VERSION
    flags := flags
    op := op
    recordType := recordType
    payloadLen := payloadLen
    partitionKey := partitionKey
    sequence := sequence }

/-- The header as it lies in memory. -/
def msgEncodeHeader (h : MsgHeader) : Bytes :=
  le 4 h.magic ++ (le 2 h.version ++ (le 2 h.flags ++ (le 2 h.op ++ (le 2 h.recordType ++
    (le 4 h.payloadLen ++ (le 8 h.partitionKey ++ le 8 h.sequence))))))

/-- The memcpy of the first 32 bytes into a header. -/
def msgHeaderAt (buf : Bytes) : MsgHeader :=
  { magic := ofLe (slice buf 0 4)
    version := ofLe (slice buf 4 2)
    flags := ofLe (slice buf 6 2)
    op := ofLe (slice buf 8 2)
    recordType := ofLe (slice buf 10 2)
    payloadLen := ofLe (slice buf 12 4)
    partitionKey := ofLe (slice buf 16 8)
    sequence := ofLe (slice buf 24 8) }

@[simp] theorem length_msgEncodeHeader (h : MsgHeader) :
    (msgEncodeHeader h).length = MSG_HEADER_SIZE := by
  simp only [msgEncodeHeader, List.length_append, length_le]
  rfl

/-- The header as it reads back: each field cut to its width. -/
def MsgHeader.cut (h : MsgHeader) : MsgHeader :=
  { magic := h.magic % 256 ^ 4
    version := h.version % 256 ^ 2
    flags := h.flags % 256 ^ 2
    op := h.op % 256 ^ 2
    recordType := h.recordType % 256 ^ 2
    payloadLen := h.payloadLen % 256 ^ 4
    partitionKey := h.partitionKey % 256 ^ 8
    sequence := h.sequence % 256 ^ 8 }

theorem msgHeaderAt_encode (h : MsgHeader) (body : Bytes) :
    msgHeaderAt (msgEncodeHeader h ++ body) = h.cut := by
  have field (front value : Bytes) (back : Bytes) (offset width : Nat)
      (same : msgEncodeHeader h ++ body = front ++ (value ++ back))
      (at_front : offset = front.length) (is_field : width = value.length) :
      slice (msgEncodeHeader h ++ body) offset width = value := by
    rw [same]
    exact slice_field front value back offset width at_front is_field
  have magic := field [] (le 4 h.magic) _ 0 4 (by
    simp only [msgEncodeHeader, List.append_assoc, List.nil_append]; rfl) rfl (by simp)
  have version := field (le 4 h.magic) (le 2 h.version) _ 4 2 (by
    simp only [msgEncodeHeader, List.append_assoc]; rfl) (by simp) (by simp)
  have flags := field (le 4 h.magic ++ le 2 h.version) (le 2 h.flags) _ 6 2 (by
    simp only [msgEncodeHeader, List.append_assoc]; rfl) (by simp) (by simp)
  have op := field (le 4 h.magic ++ le 2 h.version ++ le 2 h.flags) (le 2 h.op) _ 8 2 (by
    simp only [msgEncodeHeader, List.append_assoc]; rfl) (by simp) (by simp)
  have recordType := field (le 4 h.magic ++ le 2 h.version ++ le 2 h.flags ++ le 2 h.op)
    (le 2 h.recordType) _ 10 2 (by
    simp only [msgEncodeHeader, List.append_assoc]; rfl) (by simp) (by simp)
  have payloadLen := field (le 4 h.magic ++ le 2 h.version ++ le 2 h.flags ++ le 2 h.op ++
    le 2 h.recordType) (le 4 h.payloadLen) _ 12 4 (by
    simp only [msgEncodeHeader, List.append_assoc]; rfl) (by simp) (by simp)
  have partitionKey := field (le 4 h.magic ++ le 2 h.version ++ le 2 h.flags ++ le 2 h.op ++
    le 2 h.recordType ++ le 4 h.payloadLen) (le 8 h.partitionKey) _ 16 8 (by
    simp only [msgEncodeHeader, List.append_assoc]; rfl) (by simp) (by simp)
  have sequence := field (le 4 h.magic ++ le 2 h.version ++ le 2 h.flags ++ le 2 h.op ++
    le 2 h.recordType ++ le 4 h.payloadLen ++ le 8 h.partitionKey) (le 8 h.sequence) body 24 8
    (by simp only [msgEncodeHeader, List.append_assoc]) (by simp) (by simp)
  rw [msgHeaderAt, magic, version, flags, op, recordType, payloadLen, partitionKey, sequence]
  simp only [ofLe_le]
  rfl

/-! ### Payloads -/

structure MsgHello where
  session : Nat
  nameLen : Nat
  deriving DecidableEq, Repr

def MSG_HELLO_SIZE : Nat := 16
def MSG_ACK_SIZE : Nat := 8
def MSG_ERR_SIZE : Nat := 8
def MSG_READ_SIZE : Nat := 8
def MSG_SUBSCRIBE_SIZE : Nat := 16

structure MsgSubscribe where
  minSeq : Nat
  fromSeq : Nat
  deriving DecidableEq, Repr

def msgDecodeHello (buf : Bytes) : Option MsgHello :=
  if buf.length < MSG_HELLO_SIZE then none
  else some ⟨ofLe (slice buf 0 8), ofLe (slice buf 8 2)⟩

def msgHelloValid (h : MsgHello) (payloadLen : Nat) : Bool :=
  !(decide (payloadLen < MSG_HELLO_SIZE) || decide (h.nameLen > MSG_MAX_NAME) ||
    h.nameLen != payloadLen - MSG_HELLO_SIZE)

def msgEncodeAck (clientSeq : Nat) : Bytes := le 8 clientSeq

def msgDecodeAck (buf : Bytes) : Option Nat :=
  if buf.length < MSG_ACK_SIZE then none else some (ofLe (slice buf 0 8))

/-- The fixed part; the text follows it. -/
def msgEncodeErr (code textLen : Nat) : Bytes := le 2 code ++ (le 2 textLen ++ le 4 0)

/-- The code, which is all a reader of an ERR looks at. -/
def msgDecodeErr (buf : Bytes) : Option Nat :=
  if buf.length < MSG_ERR_SIZE then none else some (ofLe (slice buf 0 2))

structure MsgErrPayload where
  code : Nat
  textLen : Nat
  deriving DecidableEq, Repr

/-- All of the fixed part. -/
def msgDecodeErrPayload (buf : Bytes) : Option MsgErrPayload :=
  if buf.length < MSG_ERR_SIZE then none
  else some ⟨ofLe (slice buf 0 2), ofLe (slice buf 2 2)⟩

def msgErrValid (p : MsgErrPayload) (payloadLen : Nat) : Bool :=
  !(decide (payloadLen < MSG_ERR_SIZE) || decide (p.textLen > MSG_MAX_ERR_TEXT) ||
    p.textLen != payloadLen - MSG_ERR_SIZE)

/-- `min_seq` -/
def msgDecodeRead (buf : Bytes) : Option Nat :=
  if buf.length < MSG_READ_SIZE then none else some (ofLe (slice buf 0 8))

def msgDecodeSubscribe (buf : Bytes) : Option MsgSubscribe :=
  if buf.length < MSG_SUBSCRIBE_SIZE then none
  else some ⟨ofLe (slice buf 0 8), ofLe (slice buf 8 8)⟩

end Msgsrvd

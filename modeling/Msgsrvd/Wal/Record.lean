/-
The record codec: a 56-byte header, the payload, zero padding to 8 bytes.
-/

import Msgsrvd.Core.Crc32c

namespace Msgsrvd

open Bytestring

def MSG_MAX_PAYLOAD : Nat := 1024 * 1024
def WAL_MAX_PAYLOAD : Nat := MSG_MAX_PAYLOAD
def WAL_REC_HEADER_SIZE : Nat := 56
def WAL_REC_MAX_SIZE : Nat := WAL_REC_HEADER_SIZE + (WAL_MAX_PAYLOAD + 7) / 8 * 8
def CRC_OFFSET : Nat := 4

structure WalRec where
  crc : Nat
  len : Nat
  term : Nat
  seq : Nat
  session : Nat
  clientSeq : Nat
  recordType : Nat
  flags : Nat
  pad : Nat
  partitionKey : Nat
  deriving DecidableEq, Repr

/-- The cast from `uint32_t` to `int32_t`. -/
def i32 (value : Nat) : Int :=
  if value % 2 ^ 32 < 2 ^ 31 then (value % 2 ^ 32 : Nat) else (value % 2 ^ 32 : Nat) - 2 ^ 32

/-- 0 when the length is out of range. -/
def walRecSize (payloadLen : Int) : Nat :=
  if payloadLen < 0 ∨ payloadLen > WAL_MAX_PAYLOAD then 0
  else WAL_REC_HEADER_SIZE + (payloadLen.toNat + 7) / 8 * 8

/-- The header as it lies in memory. -/
def WalRec.header (r : WalRec) : Bytes :=
  le 4 r.crc ++ (le 4 r.len ++ (le 8 r.term ++ (le 8 r.seq ++ (le 8 r.session ++
    (le 8 r.clientSeq ++ (le 2 r.recordType ++ (le 2 r.flags ++ (le 4 r.pad ++
      le 8 r.partitionKey))))))))

/-- The bytes written, and the record with the checksum that went into them.
`none` stands for a return of 0. -/
def walRecEncode (bufLen : Nat) (r : WalRec) (payload : Bytes) : Option (Bytes × WalRec) :=
  let len := i32 r.len
  if len > 0 ∧ payload = [] then none
  else
    let total := walRecSize len
    if total = 0 ∨ bufLen < total then none
    else
      let padded := total - WAL_REC_HEADER_SIZE
      let r := { r with crc := 0, pad := 0 }
      let body := payload.take len.toNat ++ List.replicate (padded - len.toNat) 0
      let r := { r with crc := (crc32c 0 ((r.header ++ body).drop CRC_OFFSET)).toNat }
      some (r.header ++ body, r)

def walRecDecode (buf : Bytes) : Option WalRec :=
  if buf.length < WAL_REC_HEADER_SIZE then none
  else
    some
      { crc := ofLe (slice buf 0 4)
        len := ofLe (slice buf 4 4)
        term := ofLe (slice buf 8 8)
        seq := ofLe (slice buf 16 8)
        session := ofLe (slice buf 24 8)
        clientSeq := ofLe (slice buf 32 8)
        recordType := ofLe (slice buf 40 2)
        flags := ofLe (slice buf 42 2)
        pad := ofLe (slice buf 44 4)
        partitionKey := ofLe (slice buf 48 8) }

def walRecIsEnd (r : WalRec) : Bool := r.seq == 0

def walRecVerify (buf : Bytes) (r : WalRec) : Bool :=
  let total := walRecSize (i32 r.len)
  if total = 0 ∨ buf.length < total then false
  else (crc32c 0 (slice buf CRC_OFFSET (total - CRC_OFFSET))).toNat == r.crc

end Msgsrvd

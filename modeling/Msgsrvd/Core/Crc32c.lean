/-
The checksum of log records, as the SSE4.2 instructions fold bytes into the
reflected CRC-32C register: eight bytes at a time, then the tail.
-/

import Msgsrvd.Lib.Bytes

namespace Msgsrvd

open Bytestring

/-- 0x1EDC6F41 with its bits reversed, the form the reflected register uses. -/
def crc32cPoly : BitVec 32 := 0x82F63B78#32

/-- One bit of a reflected division; the register holds the bits still to come. -/
def crcBit {width : Nat} (reg : BitVec width) : BitVec width :=
  if reg.getLsbD 0 then (reg >>> 1) ^^^ (crc32cPoly.setWidth width) else reg >>> 1

def crcBits {width : Nat} : Nat → BitVec width → BitVec width
  | 0, reg => reg
  | count + 1, reg => crcBits count (crcBit reg)

/-- `__builtin_ia32_crc32qi` -/
def crc32qi (crc : BitVec 32) (byte : UInt8) : BitVec 32 :=
  crcBits 8 (crc ^^^ BitVec.ofNat 32 byte.toNat)

/-- `__builtin_ia32_crc32di` -/
def crc32di (crc : BitVec 32) (chunk : BitVec 64) : BitVec 64 :=
  crcBits 64 (chunk ^^^ crc.setWidth 64)

def crc32cLoop : BitVec 32 → Bytes → BitVec 32
  | c, b0 :: b1 :: b2 :: b3 :: b4 :: b5 :: b6 :: b7 :: rest =>
      crc32cLoop
        ((crc32di c (BitVec.ofNat 64 (ofLe [b0, b1, b2, b3, b4, b5, b6, b7]))).setWidth 32)
        rest
  | c, byte :: rest => crc32cLoop (crc32qi c byte) rest
  | c, [] => c

def crc32c (crc : BitVec 32) (buf : Bytes) : BitVec 32 :=
  if buf = [] then crc else ~~~(crc32cLoop (~~~crc) buf)

/-- The check value every CRC-32C implementation publishes. -/
example : crc32c 0 [0x31, 0x32, 0x33, 0x34, 0x35, 0x36, 0x37, 0x38, 0x39] = 0xE3069283#32 := by
  decide +kernel

end Msgsrvd

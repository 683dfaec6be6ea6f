/-
One preallocated segment file: creation, recovery, append, flush, close.
-/

import Msgsrvd.Sys.Os
import Msgsrvd.Wal.Record

namespace Msgsrvd

open Bytestring

structure WalSeg where
  /-- `none` is the descriptor -1 -/
  fd : Option Nat
  baseSeq : Nat
  nextSeq : Nat
  durableSeq : Nat
  capacity : Nat
  writeOff : Nat
  syncedOff : Nat
  deriving DecidableEq, Repr

structure WalSegScan where
  records : Nat
  lastSeq : Nat
  endOff : Nat
  torn : Bool
  deriving DecidableEq, Repr

def segReset (fd baseSeq capacity : Nat) : WalSeg :=
  { fd := some fd
    baseSeq := baseSeq
    nextSeq := baseSeq
    durableSeq := baseSeq - 1
    capacity := capacity
    writeOff := 0
    syncedOff := 0 }

def walSegCreate (os : Os) (baseSeq capacity : Nat) : Except Err WalSeg × Os :=
  if baseSeq = 0 ∨ capacity < WAL_REC_HEADER_SIZE then (.error ⟨.invalid, 0⟩, os)
  else
    match osCreate os baseSeq with
    | (.error e, os) => (.error e, os)
    | (.ok fd, os) =>
        match osFallocate os fd capacity with
        | (.error e, os) => (.error e, (osClose os).2)
        | (.ok (), os) =>
            match osFsync os fd with
            | (.error e, os) => (.error e, (osClose os).2)
            | (.ok (), os) =>
                match osFsyncDir os with
                | (.error e, os) => (.error e, (osClose os).2)
                | (.ok (), os) => (.ok (segReset fd baseSeq capacity), os)

def walSegOpen (os : Os) (baseSeq capacity : Nat) : Except Err WalSeg × Os :=
  if baseSeq = 0 ∨ capacity < WAL_REC_HEADER_SIZE then (.error ⟨.invalid, 0⟩, os)
  else
    match osOpenat os baseSeq with
    | (.error e, os) => (.error e, os)
    | (.ok fd, os) => (.ok (segReset fd baseSeq capacity), os)

/-! ### Recovery -/

/-- How the walk over one block ends. -/
inductive BlockEnd where
  | refill
  | finish (torn : Bool)
  | nomem (size : Nat)
  deriving DecidableEq, Repr

/-- The inner loop: accept records from `pos` on in the block read at `off`.  Each
round moves at least a header, so the block's length is fuel enough. -/
def walSegScanBlock (capacity off : Nat) (block : Bytes) :
    Nat → Nat → Nat → List WalRec → BlockEnd × Nat × Nat × List WalRec
  | 0, pos, expected, recs => (.refill, pos, expected, recs)
  | fuel + 1, pos, expected, recs =>
      if pos + WAL_REC_HEADER_SIZE ≤ block.length then
        match walRecDecode (block.drop pos) with
        | none => (.refill, pos, expected, recs)
        | some r =>
            if walRecIsEnd r then (.finish false, pos, expected, recs)
            else
              let size := walRecSize (i32 r.len)
              if size = 0 ∨ off + pos + size > capacity then
                (.finish true, pos, expected, recs)
              else if pos + size > block.length then
                -- A record at the front of its block cannot be read any better.
                if pos = 0 then (.nomem size, pos, expected, recs)
                else (.refill, pos, expected, recs)
              else if ¬ walRecVerify (block.drop pos) r ∨ r.seq ≠ expected then
                (.finish true, pos, expected, recs)
              else
                walSegScanBlock capacity off block fuel (pos + size) (expected + 1) (recs ++ [r])
      else (.refill, pos, expected, recs)

/-- Where the scan stopped. -/
structure ScanPoint where
  off : Nat
  expected : Nat
  torn : Bool
  recs : List WalRec

/-- The outer loop: read a block, walk it, move on by what it accepted. -/
def walSegScan (fd : Option Nat) (capacity scratchLen : Nat) :
    Nat → Os → Nat → Nat → List WalRec → Except Err ScanPoint × Os
  | 0, os, off, expected, recs => (.ok ⟨off, expected, false, recs⟩, os)
  | fuel + 1, os, off, expected, recs =>
      if off < capacity then
        match osPreadFull os fd (min scratchLen (capacity - off)) off with
        | (.error e, os) => (.error e, os)
        | (.ok block, os) =>
            if block.length < WAL_REC_HEADER_SIZE then
              (.ok ⟨off, expected, false, recs⟩, os)
            else
              match walSegScanBlock capacity off block block.length 0 expected recs with
              | (.nomem size, _, _, _) => (.error ⟨.nomem, size⟩, os)
              | (.finish torn, pos, expected, recs) =>
                  (.ok ⟨off + pos, expected, torn, recs⟩, os)
              | (.refill, pos, expected, recs) =>
                  if pos = 0 then (.ok ⟨off, expected, false, recs⟩, os)
                  else walSegScan fd capacity scratchLen fuel os (off + pos) expected recs
      else (.ok ⟨off, expected, false, recs⟩, os)

/-- The accepted records are those the callback sees, in order. -/
def walSegRecover (os : Os) (s : WalSeg) (scratchLen : Nat) :
    Except Err (WalSegScan × WalSeg × List WalRec) × Os :=
  if scratchLen < WAL_REC_HEADER_SIZE then (.error ⟨.invalid, 0⟩, os)
  else
    match walSegScan s.fd s.capacity scratchLen (s.capacity + 1) os 0 s.baseSeq [] with
    | (.error e, os) => (.error e, os)
    | (.ok point, os) =>
        (.ok
          ({ records := point.recs.length
             lastSeq := point.expected - 1
             endOff := point.off
             torn := point.torn },
           { s with
             nextSeq := point.expected
             durableSeq := point.expected - 1
             writeOff := point.off
             syncedOff := point.off },
           point.recs), os)

/-! ### Appending and flushing -/

def walSegFits (s : WalSeg) (payloadLen : Int) : Bool :=
  let size := walRecSize payloadLen
  if size = 0 then false else decide (s.writeOff + size ≤ s.capacity)

def walSegAppend (os : Os) (s : WalSeg) (r : WalRec) (payload : Bytes) (scratchLen : Nat) :
    Except Err WalRec × WalSeg × Os :=
  match walRecEncode scratchLen { r with seq := s.nextSeq } payload with
  | none => (.error ⟨.nomem, 0⟩, s, os)
  | some (bytes, r) =>
      if s.writeOff + bytes.length > s.capacity then (.error ⟨.storage, 0⟩, s, os)
      else
        match osPwriteFull os s.fd bytes s.writeOff with
        | (.error e, os) => (.error e, s, os)
        | (.ok (), os) =>
            (.ok r,
              { s with writeOff := s.writeOff + bytes.length, nextSeq := s.nextSeq + 1 }, os)

def walSegSync (os : Os) (s : WalSeg) : Except Err Unit × WalSeg × Os :=
  if s.syncedOff = s.writeOff then (.ok (), s, os)
  else
    match osFdatasync os s.fd with
    | (.error e, os) => (.error e, s, os)
    | (.ok (), os) =>
        (.ok (), { s with syncedOff := s.writeOff, durableSeq := s.nextSeq - 1 }, os)

def walSegClose (os : Os) (s : WalSeg) : Except Err Unit × WalSeg × Os :=
  match s.fd with
  | none => (.ok (), s, os)
  | some _ => ((osClose os).1, { s with fd := none }, (osClose os).2)

end Msgsrvd

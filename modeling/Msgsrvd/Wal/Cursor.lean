/-
A read position in the log: seek to a sequence, then copy whole records out.
-/

import Msgsrvd.Wal.Wal

namespace Msgsrvd

open Bytestring

structure WalCursor where
  fd : Option Nat
  segBase : Nat
  off : Nat
  nextSeq : Nat
  deriving DecidableEq, Repr

def walCursorInit : WalCursor := ⟨none, 0, 0, 0⟩

/-- The base of the segment that holds `seq`: the last one not above it. -/
def segIndexOf (table : List Nat) (seq : Nat) : Option Nat :=
  table.reverse.find? (fun base => base ≤ seq)

/-- On success the cursor stands at the segment's start. -/
def cursorOpenSeg (os : Os) (c : WalCursor) (base : Nat) : Except Err Unit × WalCursor × Os :=
  match osOpenat os base with
  | (.error e, os) => (.error e, c, os)
  | (.ok fd, os) =>
      let os := match c.fd with
        | none => os
        | some _ => (osClose os).2
      (.ok (), { c with fd := some fd, segBase := base, off := 0 }, os)

def walCursorClose (os : Os) (c : WalCursor) : WalCursor × Os :=
  match c.fd with
  | none => (walCursorInit, os)
  | some _ => (walCursorInit, (osClose os).2)

/-- Walk the segment's headers until the wanted sequence is next. -/
def cursorWalkTo (seq : Nat) : Nat → Os → WalCursor → Except Err Unit × WalCursor × Os
  | 0, os, c => (.ok (), c, os)
  | fuel + 1, os, c =>
      if c.nextSeq < seq then
        match osPreadFull os c.fd WAL_REC_HEADER_SIZE c.off with
        | (.error e, os) => (.error e, c, os)
        | (.ok header, os) =>
            match walRecDecode header with
            | none => (.error ⟨.storage, 0⟩, c, os)
            | some r =>
                if walRecIsEnd r then (.error ⟨.storage, 0⟩, c, os)
                else
                  let size := walRecSize (i32 r.len)
                  if size = 0 ∨ r.seq ≠ c.nextSeq then (.error ⟨.storage, 0⟩, c, os)
                  else
                    cursorWalkTo seq fuel os
                      { c with off := c.off + size, nextSeq := c.nextSeq + 1 }
      else (.ok (), c, os)

def walCursorSeek (os : Os) (w : Wal) (c : WalCursor) (seq scratchLen : Nat) :
    Except Err Unit × WalCursor × Os :=
  if scratchLen < WAL_REC_HEADER_SIZE then (.error ⟨.invalid, 0⟩, c, os)
  else if seq < walFirstSeq w ∨ seq > walNextSeq w then (.error ⟨.invalid, seq⟩, c, os)
  else
    match segIndexOf w.segBase seq with
    | none => (.error ⟨.invalid, seq⟩, c, os)
    | some base =>
        match cursorOpenSeg os c base with
        | (.error e, c, os) => (.error e, c, os)
        | (.ok (), c, os) => cursorWalkTo seq (seq - base) os { c with nextSeq := base }

/-- Walk the whole records of a buffer: how many bytes, and the next sequence. -/
def cursorWalk (buf : Bytes) (limit : Nat) : Nat → Nat → Nat → Except Err Unit × Nat × Nat
  | 0, at', next => (.ok (), at', next)
  | fuel + 1, at', next =>
      if at' < buf.length then
        match walRecDecode (buf.drop at') with
        | none => (.ok (), at', next)
        | some r =>
            if walRecIsEnd r then (.ok (), at', next)
            else if r.seq ≠ next then (.error ⟨.storage, 0⟩, at', next)
            else if next > limit then (.ok (), at', next)
            else
              let size := walRecSize (i32 r.len)
              if size = 0 then (.error ⟨.storage, 0⟩, at', next)
              else if at' + size > buf.length then (.ok (), at', next)
              else cursorWalk buf limit fuel (at' + size) (next + 1)
      else (.ok (), at', next)

/-- `for (attempts = 0; attempts < 2; attempts++)`: the second try is for the
segment after the one that had nothing more. -/
def cursorAttempt (w : Wal) (limit bufLen : Nat) :
    Nat → Os → WalCursor → Except Err Bytes × WalCursor × Os
  | 0, os, c => (.ok [], c, os)
  | attempts + 1, os, c =>
      match osPreadFull os c.fd bufLen c.off with
      | (.error e, os) => (.error e, c, os)
      | (.ok buf, os) =>
          match cursorWalk buf limit buf.length 0 c.nextSeq with
          | (.error e, _, next) => (.error e, { c with nextSeq := next }, os)
          | (.ok (), used, next) =>
              let c := { c with nextSeq := next, off := c.off + used }
              if used > 0 then (.ok (buf.take used), c, os)
              else
                match segIndexOf w.segBase c.nextSeq with
                | none => (.ok [], c, os)
                | some base =>
                    if base = c.segBase then (.ok [], c, os)
                    else
                      match cursorOpenSeg os c base with
                      | (.error e, c, os) => (.error e, c, os)
                      | (.ok (), c, os) => cursorAttempt w limit bufLen attempts os c

def walCursorRead (os : Os) (w : Wal) (c : WalCursor) (limit bufLen : Nat) :
    Except Err Bytes × WalCursor × Os :=
  if c.fd = none then (.error ⟨.invalid, 0⟩, c, os)
  else if c.nextSeq < walFirstSeq w then (.error ⟨.invalid, c.nextSeq⟩, c, os)
  else if c.nextSeq > limit then (.ok [], c, os)
  else cursorAttempt w limit bufLen 2 os c

end Msgsrvd

/-
The write-ahead log: a directory of segments, the last of them active.
-/

import Msgsrvd.Wal.Segment
import Msgsrvd.Wal.Index

namespace Msgsrvd

open Bytestring

def WAL_MAX_SEGMENTS : Nat := 1024

structure Wal where
  dirOpen : Bool
  segCapacity : Nat
  active : WalSeg
  /-- base sequence of every segment on disk, ascending -/
  segBase : List Nat
  index : WalIndex
  deriving DecidableEq, Repr

structure WalOpen where
  segments : Nat
  created : Bool
  torn : Bool
  firstSeq : Nat
  lastSeq : Nat
  records : Nat
  deriving DecidableEq, Repr

/-! ### Opening -/

/-- The table with the base in its place; a base already there changes nothing. -/
def segTablePlace (base : Nat) : List Nat → List Nat
  | [] => [base]
  | head :: rest =>
      if head = base then head :: rest
      else if head > base then base :: head :: rest
      else head :: segTablePlace base rest

/-- `none` when the table is full. -/
def segTableInsert (table : List Nat) (base : Nat) : Option (List Nat) :=
  if WAL_MAX_SEGMENTS ≤ table.length then none else some (segTablePlace base table)

def segTableFill : List Nat → List Nat → Except Err (List Nat)
  | table, [] => .ok table
  | table, base :: rest =>
      match segTableInsert table base with
      | none => .error ⟨.nomem, table.length⟩
      | some table => segTableFill table rest

/-- `listing` is the order in which the kernel returns the names. -/
def segTableLoad (os : Os) (listing : List Nat) : Except Err (List Nat) × Os :=
  match os.plain id with
  | (.error e, os) => (.error e, os)
  | (.ok (), os) => (segTableFill [] listing, os)

/-- What the scan over the segments has gathered so far. -/
structure OpenScan where
  expected : Nat
  records : Nat
  active : WalSeg
  torn : Bool
  recs : List WalRec

/-- Each segment has to begin where the previous one ended, and only the last may
have a torn tail. -/
def walOpenScan (capacity scratchLen : Nat) : List Nat → Os → OpenScan → Except Err OpenScan × Os
  | [], os, acc => (.ok acc, os)
  | base :: rest, os, acc =>
      if base ≠ acc.expected then (.error ⟨.storage, 0⟩, os)
      else
        match walSegOpen os base capacity with
        | (.error e, os) => (.error e, os)
        | (.ok seg, os) =>
            match walSegRecover os seg scratchLen with
            | (.error e, os) => (.error e, (osClose os).2)
            | (.ok (scan, seg, recs), os) =>
                let acc : OpenScan :=
                  { expected := scan.lastSeq + 1
                    records := acc.records + scan.records
                    active := seg
                    torn := scan.torn
                    recs := acc.recs ++ recs }
                match rest with
                | [] => (.ok acc, os)
                | _ :: _ =>
                    if scan.torn then (.error ⟨.storage, 0⟩, (osClose os).2)
                    else walOpenScan capacity scratchLen rest (osClose os).2 acc

def walClosed (capacity : Nat) : Wal :=
  { dirOpen := false
    segCapacity := capacity
    active := { segReset 0 0 0 with fd := none }
    segBase := []
    index := walIndexInit }

/-- The log, what opening it found, and the records the callback saw. -/
def walOpen (os : Os) (listing : List Nat) (capacity scratchLen : Nat) :
    Except Err (WalOpen × Wal × List WalRec) × Os :=
  if capacity < WAL_REC_HEADER_SIZE ∨ scratchLen < WAL_REC_HEADER_SIZE then
    (.error ⟨.invalid, 0⟩, os)
  else
    match os.plain id with
    | (.error e, os) => (.error e, os)
    | (.ok (), os) =>
        match segTableLoad os listing with
        | (.error e, os) => (.error e, (osClose os).2)
        | (.ok [], os) =>
            match walSegCreate os 1 capacity with
            | (.error e, os) => (.error e, (osClose os).2)
            | (.ok seg, os) =>
                (.ok
                  ({ segments := 1, created := true, torn := false
                     firstSeq := 1, lastSeq := 0, records := 0 },
                   { walClosed capacity with dirOpen := true, active := seg, segBase := [1] },
                   []), os)
        | (.ok (first :: rest), os) =>
            let table := first :: rest
            match walOpenScan capacity scratchLen table os
                ⟨first, 0, (walClosed capacity).active, false, []⟩ with
            | (.error e, os) => (.error e, (osClose os).2)
            | (.ok acc, os) =>
                (.ok
                  ({ segments := table.length, created := false, torn := acc.torn
                     firstSeq := first, lastSeq := acc.expected - 1, records := acc.records },
                   { dirOpen := true, segCapacity := capacity, active := acc.active
                     segBase := table
                     index := acc.recs.foldl walIndexAdd walIndexInit },
                   acc.recs), os)

/-! ### Appending -/

def walSync (os : Os) (w : Wal) : Except Err Unit × Wal × Os :=
  match walSegSync os w.active with
  | (res, seg, os) => (res, { w with active := seg }, os)

/-- Flush the active segment, close it, and start the next one. -/
def walRollover (os : Os) (w : Wal) : Except Err Unit × Wal × Os :=
  if WAL_MAX_SEGMENTS ≤ w.segBase.length then (.error ⟨.nomem, w.segBase.length⟩, w, os)
  else
    match walSync os w with
    | (.error e, w, os) => (.error e, w, os)
    | (.ok (), w, os) =>
        let nextBase := w.active.durableSeq + 1
        match walSegClose os w.active with
        | (.error e, seg, os) => (.error e, { w with active := seg }, os)
        | (.ok (), seg, os) =>
            match walSegCreate os nextBase w.segCapacity with
            | (.error e, os) => (.error e, { w with active := seg }, os)
            | (.ok seg, os) =>
                (.ok (), { w with active := seg, segBase := w.segBase ++ [nextBase] }, os)

/-- Append to the active segment and account for the record in the index. -/
def walAppendActive (os : Os) (w : Wal) (r : WalRec) (payload : Bytes) (scratchLen : Nat) :
    Except Err WalRec × Wal × Os :=
  match walSegAppend os w.active r payload scratchLen with
  | (.error e, seg, os) => (.error e, { w with active := seg }, os)
  | (.ok r, seg, os) => (.ok r, { w with active := seg, index := walIndexAdd w.index r }, os)

def walAppend (os : Os) (w : Wal) (r : WalRec) (payload : Bytes) (scratchLen : Nat) :
    Except Err WalRec × Wal × Os :=
  let size := walRecSize (i32 r.len)
  if size = 0 ∨ size > w.segCapacity then (.error ⟨.invalid, 0⟩, w, os)
  else if walSegFits w.active (i32 r.len) then walAppendActive os w r payload scratchLen
  else
    match walRollover os w with
    | (.error e, w, os) => (.error e, w, os)
    | (.ok (), w, os) => walAppendActive os w r payload scratchLen

/-- The append closes the active segment first. -/
def walRollsOver (w : Wal) (r : WalRec) : Bool :=
  let size := walRecSize (i32 r.len)
  if size = 0 ∨ size > w.segCapacity then false
  else if walSegFits w.active (i32 r.len) then false
  else decide (w.segBase.length < WAL_MAX_SEGMENTS)

def walDurableSeq (w : Wal) : Nat := w.active.durableSeq

def walNextSeq (w : Wal) : Nat := w.active.nextSeq

def walFirstSeq (w : Wal) : Nat := w.segBase.headD 0

def walAppendAt (os : Os) (w : Wal) (r : WalRec) (payload : Bytes) (scratchLen : Nat) :
    Except Err WalRec × Wal × Os :=
  if r.seq ≠ walNextSeq w then (.error ⟨.invalid, r.seq⟩, w, os)
  else
    match walAppend os w r payload scratchLen with
    | (.error e, w, os) => (.error e, w, os)
    | (.ok out, w, os) =>
        if out.seq ≠ r.seq then (.error ⟨.storage, out.seq⟩, w, os) else (.ok out, w, os)

/-! ### Retention -/

/-- 0 when the log is no longer than what is kept. -/
def walRetainMark (w : Wal) (keepSegments : Nat) : Nat :=
  if keepSegments = 0 ∨ w.segBase.length ≤ keepSegments then 0
  else w.segBase.getD (w.segBase.length - keepSegments) 0

/-- How many leading segments lie wholly below the line. -/
def walRetainDrop (keepFrom : Nat) : List Nat → Nat
  | _ :: next :: rest =>
      if next ≤ keepFrom then walRetainDrop keepFrom (next :: rest) + 1 else 0
  | _ => 0

/-- Unlink the first `drop` segments; on a failure, how many had gone. -/
def walRetainUnlink : List Nat → Nat → Os → Except (Err × Nat) Unit × Os
  | [], _, os => (.ok (), os)
  | base :: rest, gone, os =>
      match osUnlinkat os base with
      | (.error e, os) => (.error (e, gone), os)
      | (.ok (), os) => walRetainUnlink rest (gone + 1) os

/-- The second component is `*removed_out`. -/
def walRetain (os : Os) (w : Wal) (keepFrom : Nat) : Except Err Unit × Nat × Wal × Os :=
  let drop := walRetainDrop keepFrom w.segBase
  if drop = 0 then (.ok (), 0, w, os)
  else
    match walRetainUnlink (w.segBase.take drop) 0 os with
    | (.error (e, gone), os) =>
        (.error e, gone, { w with segBase := w.segBase.drop gone }, os)
    | (.ok (), os) =>
        let w := { w with segBase := w.segBase.drop drop }
        match osFsyncDir os with
        | (.error e, os) => (.error e, 0, w, os)
        | (.ok (), os) => (.ok (), drop, w, os)

def walClose (os : Os) (w : Wal) : Except Err Unit × Wal × Os :=
  match walSegClose os w.active with
  | (res, seg, os) =>
      (res, { w with active := seg, dirOpen := false }, if w.dirOpen then (osClose os).2 else os)

end Msgsrvd

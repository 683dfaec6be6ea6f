/-
Where each partition key lives in the log: a bounded table fed by the recovery
scan and by appends.
-/

import Msgsrvd.Wal.Record

namespace Msgsrvd

def WAL_INDEX_KEYS : Nat := 1024

structure WalIndexKey where
  key : Nat
  first : Nat
  last : Nat
  count : Nat
  deriving DecidableEq, Repr

structure WalIndex where
  keys : List WalIndexKey
  /-- records for keys there was no room for -/
  unknown : Nat
  deriving DecidableEq, Repr

def walIndexInit : WalIndex := ⟨[], 0⟩

/-- `k->last = r->seq; k->count++` on the first entry with this key. -/
def walIndexBump (key seq : Nat) : List WalIndexKey → List WalIndexKey
  | [] => []
  | k :: rest =>
      if k.key = key then { k with last := seq, count := k.count + 1 } :: rest
      else k :: walIndexBump key seq rest

def walIndexAdd (ix : WalIndex) (r : WalRec) : WalIndex :=
  if r.seq = 0 then ix
  else
    match ix.keys.find? (fun k => k.key = r.partitionKey) with
    | some _ => { ix with keys := walIndexBump r.partitionKey r.seq ix.keys }
    | none =>
        if WAL_INDEX_KEYS ≤ ix.keys.length then { ix with unknown := ix.unknown + 1 }
        else
          { ix with
            keys := ix.keys ++
              [{ key := r.partitionKey, first := r.seq, last := r.seq, count := 1 }] }

/-- Where a reader after this key starts and where the key ends, if it is known. -/
def walIndexRange (ix : WalIndex) (key fromSeq : Nat) : Option (Nat × Nat) :=
  match ix.keys.find? (fun k => k.key = key) with
  | some k => some (if fromSeq < k.first then k.first else fromSeq, k.last)
  | none => none

def walIndexComplete (ix : WalIndex) : Bool := ix.unknown == 0

end Msgsrvd

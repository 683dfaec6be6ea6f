/-
The system calls the log makes, over a directory of segment files.

A file has the content a read returns, which survives a killed process, and the
content that survives a power loss.  A segment's name is its base sequence in
decimal, so the base stands for the name here, and for the inode it names.
-/

import Msgsrvd.Lib.Bytes

namespace Msgsrvd

open Bytestring

/-! ### Results -/

inductive ErrCode where
  | syscall | nomem | overflow | invalid | eof | protocol | storage | again
  deriving DecidableEq, Repr

structure Err where
  code : ErrCode
  detail : Int
  deriving DecidableEq, Repr

def EBADF : Int := 9
def EEXIST : Int := 17
def ENOENT : Int := 2

/-! ### The disk -/

structure File where
  vol : Bytes
  stab : Bytes
  deriving DecidableEq, Repr

inductive DirOp where
  | link (base : Nat)
  | unlink (base : Nat)
  deriving DecidableEq, Repr

def DirOp.apply (names : List Nat) : DirOp → List Nat
  | .link base => names ++ [base]
  | .unlink base => names.erase base

structure Disk where
  file : Nat → File
  dirStab : List Nat
  /-- directory operations not flushed yet, oldest first -/
  dirOps : List DirOp

/-- The names a listing returns. -/
def Disk.dir (disk : Disk) : List Nat := disk.dirOps.foldl DirOp.apply disk.dirStab

def Disk.setFile (disk : Disk) (base : Nat) (file : File) : Disk :=
  { disk with file := fun other => if other = base then file else disk.file other }

def Disk.addDirOp (disk : Disk) (op : DirOp) : Disk :=
  { disk with dirOps := disk.dirOps ++ [op] }

def Disk.flushDir (disk : Disk) : Disk :=
  { disk with dirStab := disk.dir, dirOps := [] }

def zeros (count : Nat) : Bytes := List.replicate count 0

/-- Writing past the end leaves a hole that reads as zeros. -/
def overwrite (content : Bytes) (offset : Nat) (bytes : Bytes) : Bytes :=
  content.take offset ++ zeros (offset - content.length) ++ bytes ++
    content.drop (offset + bytes.length)

def extendTo (content : Bytes) (size : Nat) : Bytes :=
  content ++ zeros (size - content.length)

/-! ### System calls

`script` holds the outcomes of the calls still to come; a call past its end
succeeds.  `seen` keeps the disk as each call left it, newest first, which is
where a crash can interrupt an operation. -/

inductive Outcome where
  | done
  | fails (errno : Nat) (moved : Nat)
  deriving DecidableEq, Repr

structure Os where
  disk : Disk
  script : List Outcome
  seen : List Disk

def Os.land (os : Os) (rest : List Outcome) (disk : Disk) : Os :=
  { disk := disk, script := rest, seen := disk :: os.seen }

/-- One call: what it does to the disk, and what it may have done when it fails. -/
def Os.call (os : Os) (effect : Disk → Disk) (failed : Nat → Disk → Disk) :
    Except Err Unit × Os :=
  match os.script with
  | [] => (.ok (), os.land [] (effect os.disk))
  | .done :: rest => (.ok (), os.land rest (effect os.disk))
  | .fails errno moved :: rest =>
      (.error ⟨.syscall, errno⟩, os.land rest (failed moved os.disk))

/-- A call that changes nothing when it fails. -/
def Os.plain (os : Os) (effect : Disk → Disk) : Except Err Unit × Os :=
  os.call effect (fun _ disk => disk)

def osOpenat (os : Os) (base : Nat) : Except Err Nat × Os :=
  if base ∈ os.disk.dir then
    match os.plain id with
    | (.error e, os) => (.error e, os)
    | (.ok (), os) => (.ok base, os)
  else (.error ⟨.syscall, ENOENT⟩, os)

/-- `O_CREAT | O_EXCL` -/
def osCreate (os : Os) (base : Nat) : Except Err Nat × Os :=
  if base ∈ os.disk.dir then (.error ⟨.syscall, EEXIST⟩, os)
  else
    match os.plain (fun disk => (disk.setFile base ⟨[], []⟩).addDirOp (.link base)) with
    | (.error e, os) => (.error e, os)
    | (.ok (), os) => (.ok base, os)

def osFallocate (os : Os) (fd size : Nat) : Except Err Unit × Os :=
  os.plain fun disk =>
    disk.setFile fd { disk.file fd with vol := extendTo (disk.file fd).vol size }

def Disk.flushFile (disk : Disk) (fd : Nat) : Disk :=
  disk.setFile fd { disk.file fd with stab := (disk.file fd).vol }

def osFsync (os : Os) (fd : Nat) : Except Err Unit × Os :=
  os.plain fun disk => disk.flushFile fd

def osFsyncDir (os : Os) : Except Err Unit × Os :=
  os.plain Disk.flushDir

def osFdatasync (os : Os) : Option Nat → Except Err Unit × Os
  | none => (.error ⟨.syscall, EBADF⟩, os)
  | some fd => os.plain fun disk => disk.flushFile fd

def Disk.write (disk : Disk) (fd offset : Nat) (bytes : Bytes) : Disk :=
  disk.setFile fd { disk.file fd with vol := overwrite (disk.file fd).vol offset bytes }

/-- A write that fails may have moved some of its bytes, never all of them. -/
def osPwriteFull (os : Os) (fd : Option Nat) (bytes : Bytes) (offset : Nat) :
    Except Err Unit × Os :=
  match fd with
  | none => (.error ⟨.syscall, EBADF⟩, os)
  | some fd =>
      os.call (fun disk => disk.write fd offset bytes)
        (fun moved disk => disk.write fd offset (bytes.take (min moved (bytes.length - 1))))

/-- Short only at the end of the file. -/
def osPreadFull (os : Os) (fd : Option Nat) (count offset : Nat) : Except Err Bytes × Os :=
  match fd with
  | none => (.error ⟨.syscall, EBADF⟩, os)
  | some fd =>
      match os.plain id with
      | (.error e, os) => (.error e, os)
      | (.ok (), os) => (.ok (slice (os.disk.file fd).vol offset count), os)

def osClose (os : Os) : Except Err Unit × Os := os.plain id

def osUnlinkat (os : Os) (base : Nat) : Except Err Unit × Os :=
  if base ∈ os.disk.dir then os.plain fun disk => disk.addDirOp (.unlink base)
  else (.error ⟨.syscall, ENOENT⟩, os)

end Msgsrvd

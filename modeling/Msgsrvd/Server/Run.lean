/-
Runs of a node: the log is opened, the loop is started, and it passes until it is
stopped or a pass fails.
-/

import Msgsrvd.Lib.Runs
import Msgsrvd.Server.Tick

namespace Msgsrvd

open Bytestring

/-- What the command line says about the node's role and its retention. -/
structure Config where
  leader : Option Bytes
  retainSegments : Nat
  replicas : Nat

def streamNone : LoopStream :=
  { fd := false, connecting := false, wantOut := false, closing := false, sendBuf := []
    nextDial := 0, conn := connInit LOOP_REPL_CAP .internal, acked := 0, lastErr := 0 }

def loopInit (w : Wal) (os : Os) (recs : List WalRec) : Loop :=
  { wal := w
    os := os
    sessions := recs.foldl sessionFromRecord sessionTableInit
    conns := fun _ => slotEmpty
    peer := fun _ => ⟨false, 0, walCursorInit⟩
    stream := streamNone
    stop := false
    walDirty := false
    progress := false
    isFollower := false
    leaderText := []
    timer := false
    tick := 0
    retainSegments := 0
    replicasWant := 0
    retainFloor := 0
    retainSeenSegs := 0
    retainFailed := false
    counts := ⟨0, 0, 0, 0, 0, 0⟩
    draws := []
    clock := true
    trace := [.recovered recs] }

/-- A follower that has no clock is not started. -/
def loopSetLeader (l : Loop) (text : Bytes) : Loop :=
  { l with isFollower := true, leaderText := text, timer := true }

def loopSetRetention (l : Loop) (keepSegments replicas : Nat) : Loop :=
  { l with retainSegments := keepSegments, replicasWant := min replicas LOOP_MAX_REPLICAS }

def Config.start (config : Config) (w : Wal) (os : Os) (recs : List WalRec) : Loop :=
  match config.leader with
  | some text => loopSetRetention (loopSetLeader (loopInit w os recs) text) config.retainSegments 0
  | none => loopSetRetention (loopInit w os recs) config.retainSegments config.replicas

/-- The node as `main` starts it, from what `wal_open` found. -/
def Started (config : Config) (l : Loop) : Prop :=
  ∃ os listing capacity info w recs os',
    walOpen os listing capacity SCRATCH_LEN = (.ok (info, w, recs), os') ∧
      l = config.start w os' recs

/-- Only a slot registered for EPOLLOUT is reported writable. -/
def Pass.Possible (pass : Pass) (l : Loop) : Prop :=
  ∀ events, pass.wait = some events → ∀ slot readable answer,
    .conn slot readable (some answer) ∈ events →
      ((armPhase (l.prepare pass) pass.arm).conns slot).wantOut = true

/-- A pass that fails ends the loop. -/
def loopPass (l : Loop) (pass : Pass) : Loop :=
  match loopTick l pass with
  | (.ok (), l) => l
  | (.error _, l) => { l with stop := true }

/-- `while (!l->stop) loop_tick(l)` -/
def LoopStep (l : Loop) (pass : Pass) (l' : Loop) : Prop :=
  l.stop = false ∧ pass.Possible l ∧ l' = loopPass l pass

def Running (config : Config) : Loop → Prop :=
  Runs.Reach (Started config) LoopStep (fun _ _ => True)

/-- A run of a node that has no leader to stream from. -/
def Leading (l : Loop) : Prop := ∃ config, config.leader = none ∧ Running config l

/-! ### Replaying a run -/

/-- Nothing is reported writable. -/
def Event.quiet : Event → Bool
  | .conn _ _ (some _) => false
  | _ => true

def Pass.quiet (pass : Pass) : Bool := (pass.wait.getD []).all Event.quiet

theorem quiet_possible {pass : Pass} (quiet : pass.quiet = true) (l : Loop) : pass.Possible l := by
  intro events waited slot readable answer present
  unfold Pass.quiet at quiet
  rw [waited, Option.getD_some] at quiet
  have silent := List.all_eq_true.mp quiet _ present
  cases silent

/-- The loop after one more pass, if it has not been stopped. -/
def passNext (l : Loop) (pass : Pass) : Option Loop :=
  if l.stop = true ∨ pass.quiet = false then none else some (loopPass l pass)

theorem passNext_step {l l' : Loop} {pass : Pass} (next : passNext l pass = some l') :
    LoopStep l pass l' := by
  unfold passNext at next
  split at next
  · cases next
  · rename_i goes
    rw [not_or, Bool.not_eq_true, Bool.not_eq_false] at goes
    cases next
    exact ⟨goes.1, quiet_possible goes.2 l, rfl⟩

/-- The loop after these passes; where they are no run of it, as it was. -/
def Loop.after (l : Loop) (passes : List Pass) : Loop :=
  (Runs.replay passNext l passes).getD l

theorem after_running {config : Config} {l : Loop} (running : Running config l)
    (passes : List Pass) : Running config (l.after passes) := by
  unfold Loop.after
  cases played : Runs.replay passNext l passes with
  | none => exact running
  | some l' =>
      have steps : ∀ l pass l', passNext l pass = some l' → LoopStep l pass l' :=
        fun _ _ _ next => passNext_step next
      exact Runs.replay_reach steps (fun _ _ => trivial) running played

/-- A directory that is empty. -/
def emptyOs : Os :=
  { disk := { file := fun _ => ⟨[], []⟩, dirStab := [], dirOps := [] }, script := [], seen := [] }

/-- A node on an empty directory. -/
def Config.fresh (config : Config) (capacity : Nat) : Loop :=
  match walOpen emptyOs [] capacity SCRATCH_LEN with
  | (.ok (_, w, recs), os) => config.start w os recs
  | (.error _, os) => config.start (walClosed capacity) os []

theorem fresh_started (config : Config) {capacity : Nat}
    (opens : (walOpen emptyOs [] capacity SCRATCH_LEN).1.isOk = true) :
    Started config (config.fresh capacity) := by
  unfold Config.fresh
  cases opened : walOpen emptyOs [] capacity SCRATCH_LEN with
  | mk res os =>
      cases res with
      | error e =>
          rw [opened] at opens
          cases opens
      | ok found =>
          obtain ⟨info, w, recs⟩ := found
          exact ⟨_, _, capacity, info, w, recs, os, opened, rfl⟩

theorem fresh_running (config : Config) {capacity : Nat}
    (opens : (walOpen emptyOs [] capacity SCRATCH_LEN).1.isOk = true) :
    Running config (config.fresh capacity) :=
  .start (fresh_started config opens)

/-- A leader that no replica has to follow. -/
def leaderAlone : Config := ⟨none, 0, 0⟩

/-- A pass in which the kernel does all it is asked, and takes whole buffers. -/
def calmPass (draws : List Nat) (events : List Event) : Pass :=
  let arm : Arm := ⟨.connected true, fun _ => ⟨16384, true⟩, ⟨16384, true⟩⟩
  { script := [], draws := draws, clock := true, arm := arm, wait := some events, rearm := arm }

def requestBytes (op flags key sequence : Nat) (payload : Bytes) : Bytes :=
  msgEncodeHeader (msgHeaderNew op MSG_RECORD_NONE flags payload.length key sequence) ++ payload

/-- The opening frame of a client that resumes this session, or asks for a new one. -/
def helloBytes (session : Nat) : Bytes :=
  requestBytes MSG_OP_HELLO 0 0 1 (le 8 session ++ zeros 8)

def arrives (slot : Nat) (bytes : Bytes) : Event := .conn slot (some (.data bytes)) none

end Msgsrvd

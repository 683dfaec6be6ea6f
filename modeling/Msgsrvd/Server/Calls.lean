/-
The calls a pass makes on `wal_append`, each with what it is called on, and what they
account for: all that becomes of the log while the events are handled.
-/

import Msgsrvd.Server.Beside
import Msgsrvd.Server.Output

namespace Msgsrvd

open Bytestring

variable {l l' l'' : Loop} {slot : Nat} {w w' w'' : Wal}

structure AppendCall where
  os : Os
  wal : Wal
  rec' : WalRec
  payload : Bytes

def AppendCall.answer (c : AppendCall) : Except Err WalRec × Wal × Os :=
  walAppend c.os c.wal c.rec' c.payload SCRATCH_LEN

/-- The record has no room left in the active segment, and would in a new one. -/
def AppendCall.needs (c : AppendCall) : Bool :=
  let size := walRecSize (i32 c.rec'.len)
  if size = 0 ∨ size > c.wal.segCapacity then false else !walSegFits c.wal.active (i32 c.rec'.len)

/-- The append fails because the segment table is full. -/
def AppendCall.Full (c : AppendCall) : Prop :=
  WAL_MAX_SEGMENTS ≤ c.wal.segBase.length ∧ c.answer.1 = .error ⟨.nomem, c.wal.segBase.length⟩

/-! ### Which calls are made -/

def Loop.appendCall (l : Loop) (r : WalRec) (payload : Bytes) : AppendCall :=
  ⟨l.os, l.wal, r, payload⟩

/-- The call of `handleWrite`. -/
def writeCalls (l : Loop) (slot : Nat) (h : MsgHeader) (payload : Bytes) : List AppendCall :=
  match sessionLookup l.sessions (l.conns slot).session with
  | none => []
  | some s =>
      if l.isFollower then []
      else if hasFlag h.flags MSG_FLAG_REPLICATED ∧ ¬ replLive l ∧
          ¬ hasFlag h.flags MSG_FLAG_ALLOW_DEGRADED then []
      else if h.sequence ≤ s.lastClientSeq then []
      else [l.appendCall (writeRec (l.conns slot).session h payload) payload]

def frameCalls (l : Loop) (slot : Nat) (h : MsgHeader) (payload : Bytes) : List AppendCall :=
  if h.op = MSG_OP_WRITE then writeCalls l slot h payload else []

def actionCalls (slot : Nat) (l : Loop) : ConnAction → List AppendCall
  | .frame h payload => frameCalls l slot h (slice (l.conns slot).conn.buf payload h.payloadLen)
  | .replyErr _ _ => []
  | .close => []

/-- The calls of one step after the other. -/
def callsOf {α : Type} (step : Loop → α → Loop) (calls : Loop → α → List AppendCall) :
    Loop → List α → List AppendCall
  | _, [] => []
  | l, item :: rest => calls l item ++ callsOf step calls (step l item) rest

def recvLoopCalls : Nat → Loop → Nat → List AppendCall
  | 0, _, _ => []
  | fuel + 1, l, slot =>
      let c := l.conns slot
      let (actions, conn) := connFeed c.conn 8
      let l := l.setConn slot { c with conn := conn }
      if actions = [] then []
      else
        let handled := actions.foldl (onAction slot) l
        callsOf (onAction slot) (actionCalls slot) l actions ++
          if (handled.conns slot).closing then [] else recvLoopCalls fuel handled slot

def recvCalls (l : Loop) (slot : Nat) (received : Received) : List AppendCall :=
  let c := l.conns slot
  if ¬ c.inUse ∨ connRecvSpace c.conn = 0 then []
  else
    match received with
    | .again => []
    | .failed => []
    | .data bytes =>
        if bytes = [] then []
        else
          let l := l.received slot bytes
          recvLoopCalls ((l.conns slot).conn.buf.length + 2) l slot

/-- The calls of `replApplyFrom`. -/
def applyCalls (p : Bytes) : Nat → Loop → Nat → List AppendCall
  | 0, _, _ => []
  | fuel + 1, l, at' =>
      if at' < p.length then
        match walRecDecode (p.drop at') with
        | none => []
        | some rec' =>
            let size := walRecSize (i32 rec'.len)
            if size = 0 ∨ at' + size > p.length ∨ ¬ walRecVerify (p.drop at') rec' ∨
                rec'.seq ≠ walNextSeq l.wal then []
            else
              let payload := slice p (at' + WAL_REC_HEADER_SIZE)
                (p.length - (at' + WAL_REC_HEADER_SIZE))
              l.appendCall rec' payload ::
                match logAppendAt l rec' payload with
                | (.error _, _) => []
                | (.ok r, l) =>
                    let l := { l with
                      sessions := sessionFromRecord l.sessions r
                      walDirty := true
                      stream := { l.stream with lastErr := 0 } }.note (.applied r)
                    applyCalls p fuel l (at' + size)
      else []

def streamActionCalls (l : Loop) : ConnAction → List AppendCall
  | .frame h payload =>
      if h.op = MSG_OP_REPL_DATA then
        let p := slice l.stream.conn.buf payload h.payloadLen
        applyCalls p p.length l 0
      else []
  | .replyErr _ _ => []
  | .close => []

def replRecvLoopCalls : Nat → Loop → List AppendCall
  | 0, _ => []
  | fuel + 1, l =>
      let (actions, conn) := connFeed l.stream.conn 4
      let l := { l with stream := { l.stream with conn := conn } }
      if actions = [] then []
      else
        let handled := actions.foldl onStreamAction l
        callsOf onStreamAction streamActionCalls l actions ++
          if handled.stream.closing then [] else replRecvLoopCalls fuel handled

def replRecvCalls (l : Loop) (received : Received) : List AppendCall :=
  if ¬ l.stream.fd ∨ l.stream.closing ∨ connRecvSpace l.stream.conn = 0 then []
  else
    match received with
    | .again => []
    | .failed => []
    | .data bytes =>
        if bytes = [] then []
        else
          let l := { l with
            stream := { l.stream with conn := connRecvCommit l.stream.conn bytes } }.note
              (.heardDown bytes)
          replRecvLoopCalls (l.stream.conn.buf.length + 2) l

def eventCalls (l : Loop) : Event → List AppendCall
  | .conn slot (some received) _ => recvCalls l slot received
  | .stream _ _ (some received) _ =>
      if l.stream.connecting then [] else replRecvCalls l received
  | _ => []

/-- The calls of a pass: the flush and what is served after it make none. -/
def Loop.calls (l : Loop) (pass : Pass) : List AppendCall :=
  match pass.wait with
  | none => []
  | some events => callsOf tickEvent eventCalls { l.armed pass with walDirty := false } events

/-! ### What the calls account for -/

/-- Each call finds the log as the one before it left it. -/
inductive Chained : Wal → List AppendCall → Wal → Prop where
  | done (w : Wal) : Chained w [] w
  | call {c : AppendCall} {calls : List AppendCall} {w' : Wal}
      (rest : Chained c.answer.2.1 calls w') : Chained c.wal (c :: calls) w'

theorem Chained.append {calls calls' : List AppendCall} (left : Chained w calls w')
    (right : Chained w' calls' w'') : Chained w (calls ++ calls') w'' := by
  induction left with
  | done => exact right
  | call rest ih => exact .call (ih right)

/-- The log after this is what the calls have made of it, and retention goes by the same. -/
structure Explained (l : Loop) (calls : List AppendCall) (l' : Loop) : Prop where
  settings : l'.settings = l.settings
  chained : Chained l.wal calls l'.wal

theorem Explained.of_same (settings : l'.settings = l.settings) (wal : l'.wal = l.wal) :
    Explained l [] l' where
  settings := settings
  chained := by
    rw [wal]
    exact .done l.wal

theorem Beside.explained (beside : Beside l l') : Explained l [] l' :=
  .of_same beside.settings beside.wal

theorem Explained.refl (l : Loop) : Explained l [] l := .of_same rfl rfl

theorem Explained.trans {calls calls' : List AppendCall} (left : Explained l calls l')
    (right : Explained l' calls' l'') : Explained l (calls ++ calls') l'' where
  settings := right.settings.trans left.settings
  chained := left.chained.append right.chained

theorem Explained.before {calls : List AppendCall} (left : Explained l calls l')
    (right : Explained l' [] l'') : Explained l calls l'' := by
  have both := left.trans right
  rw [List.append_nil] at both
  exact both

theorem Explained.after {calls : List AppendCall} (left : Explained l [] l')
    (right : Explained l' calls l'') : Explained l calls l'' := left.trans right

theorem callsOf_explained {α : Type} {step : Loop → α → Loop} {calls : Loop → α → List AppendCall}
    (each : ∀ l item, Explained l (calls l item) (step l item)) (items : List α) (l : Loop) :
    Explained l (callsOf step calls l items) (items.foldl step l) := by
  induction items generalizing l with
  | nil => exact .refl l
  | cons item rest ih => exact (each l item).trans (ih _)

/-! ### Writes -/

theorem logAppend_explained (l : Loop) (r : WalRec) (payload : Bytes) :
    Explained l [l.appendCall r payload] (logAppend l r payload).2 := by
  have flushed : Beside l (if walRollsOver l.wal r then l.flushes true else l) := by
    split
    · exact flushes_beside l true
    · exact .refl l
  have os : (if walRollsOver l.wal r then l.flushes true else l).os = l.os := by
    split
    · unfold Loop.flushes
      split
      · rfl
      · rfl
    · rfl
  unfold logAppend
  simp only
  generalize (if walRollsOver l.wal r then l.flushes true else l) = l1 at flushed os ⊢
  refine ⟨flushed.settings, ?_⟩
  rw [flushed.wal, os]
  exact @Chained.call (l.appendCall r payload) [] _ (.done _)

theorem logAppendAt_explained (l : Loop) {r : WalRec} (next : r.seq = walNextSeq l.wal)
    (payload : Bytes) : Explained l [l.appendCall r payload] (logAppendAt l r payload).2 := by
  have flushed : Beside l (if r.seq = walNextSeq l.wal ∧ walRollsOver l.wal r then
      l.flushes true else l) := by
    split
    · exact flushes_beside l true
    · exact .refl l
  have os : (if r.seq = walNextSeq l.wal ∧ walRollsOver l.wal r then
      l.flushes true else l).os = l.os := by
    split
    · unfold Loop.flushes
      split
      · rfl
      · rfl
    · rfl
  unfold logAppendAt
  simp only
  generalize (if r.seq = walNextSeq l.wal ∧ walRollsOver l.wal r then l.flushes true else l) = l1
    at flushed os ⊢
  refine ⟨flushed.settings, ?_⟩
  have stored : (walAppendAt l1.os l1.wal r payload SCRATCH_LEN).2.1 =
      (l.appendCall r payload).answer.2.1 := by
    rw [flushed.wal, os]
    unfold walAppendAt AppendCall.answer
    rw [if_neg (not_not.mpr next)]
    change _ = (walAppend l.os l.wal r payload SCRATCH_LEN).2.1
    cases walAppend l.os l.wal r payload SCRATCH_LEN with
    | mk res rest =>
        obtain ⟨w, os⟩ := rest
        cases res with
        | error e => rfl
        | ok out =>
            simp only
            split
            · rfl
            · rfl
  rw [stored]
  exact @Chained.call (l.appendCall r payload) [] _ (.done _)

theorem handleWrite_explained (l : Loop) (slot : Nat) (h : MsgHeader) (payload : Bytes) :
    Explained l (writeCalls l slot h payload) (handleWrite l slot h payload) := by
  unfold handleWrite writeCalls
  cases sessionLookup l.sessions (l.conns slot).session with
  | none => exact ((refuseWrite_beside l slot h _ _).trans (close_beside _ slot)).explained
  | some s =>
      simp only
      split
      · exact (refuseWrite_beside l slot h _ _).explained
      · split
        · exact (refuseWrite_beside l slot h _ _).explained
        · split
          · exact (resendWrite_beside l slot h _).explained
          · have stored := logAppend_explained l (writeRec (l.conns slot).session h payload) payload
            cases appended : logAppend l (writeRec (l.conns slot).session h payload) payload with
            | mk res l1 =>
                rw [appended] at stored
                cases res with
                | error e => exact stored.before (refuseWrite_beside l1 slot h _ _).explained
                | ok r => exact stored.before (storedWrite_beside l1 slot h r).explained

/-! ### Frames -/

theorem handleReplStart_explained (l : Loop) (slot : Nat) (h : MsgHeader) :
    Explained l [] (handleReplStart l slot h) := by
  unfold handleReplStart
  split
  · exact ((replyErrText_beside l slot _ _ _).trans (close_beside _ slot)).explained
  · cases freePeer l with
    | none => exact (replyErr_close_beside l slot _ _).explained
    | some idx =>
        simp only
        cases walCursorSeek l.os l.wal walCursorInit h.sequence SCRATCH_LEN with
        | mk res rest =>
            obtain ⟨cursor, os⟩ := rest
            cases res with
            | error e =>
                have moved : Explained l []
                    ({ l with os := os }.setPeer idx { l.peer idx with cursor := cursor }) :=
                  .of_same rfl rfl
                exact moved.before (replyErr_close_beside _ slot _ _).explained
            | ok done =>
                simp only
                refine Explained.before (.of_same ?_ ?_)
                  ((retainFloorUpdate_beside _).trans (armTimerNow_beside _)).explained
                · rfl
                · rfl

theorem handleReplAck_explained (l : Loop) (slot : Nat) (h : MsgHeader) :
    Explained l [] (handleReplAck l slot h) := by
  unfold handleReplAck
  cases (l.conns slot).replica with
  | none => exact .refl l
  | some idx =>
      simp only
      refine Explained.before (.of_same ?_ ?_) (retainFloorUpdate_beside _).explained
      · rfl
      · rfl

theorem handleFrame_explained (l : Loop) (slot : Nat) (h : MsgHeader) (payload : Bytes) :
    Explained l (frameCalls l slot h payload) (handleFrame l slot h payload) := by
  unfold frameCalls
  by_cases write : h.op = MSG_OP_WRITE
  · rw [if_pos write]
    unfold handleFrame
    rw [write]
    exact handleWrite_explained l slot h payload
  · rw [if_neg write]
    by_cases start : h.op = MSG_OP_REPL_START
    · unfold handleFrame
      rw [start]
      exact handleReplStart_explained l slot h
    · by_cases ack : h.op = MSG_OP_REPL_ACK
      · unfold handleFrame
        rw [ack]
        exact handleReplAck_explained l slot h
      · exact (handleFrame_beside write start ack l slot payload).explained

theorem onAction_explained (slot : Nat) (l : Loop) (action : ConnAction) :
    Explained l (actionCalls slot l action) (onAction slot l action) := by
  cases action with
  | frame h payload => exact handleFrame_explained l slot h _
  | replyErr code sequence => exact (replyErr_beside l slot _ _).explained
  | close => exact (close_beside l slot).explained

/-! ### Receiving -/

theorem onRecvLoop_explained (fuel : Nat) (l : Loop) (slot : Nat) :
    Explained l (recvLoopCalls fuel l slot) (onRecvLoop fuel l slot) := by
  induction fuel generalizing l with
  | zero => exact .refl l
  | succ fuel ih =>
      unfold onRecvLoop recvLoopCalls
      simp only
      cases connFeed (l.conns slot).conn 8 with
      | mk actions conn =>
          simp only
          have placed : Beside l (l.setConn slot { l.conns slot with conn := conn }) := .put rfl
          generalize l.setConn slot { l.conns slot with conn := conn } = l1 at placed ⊢
          split
          · exact placed.explained
          · have handled := callsOf_explained (onAction_explained slot) actions l1
            generalize actions.foldl (onAction slot) l1 = l2 at handled ⊢
            refine placed.explained.after ?_
            split
            · exact handled.trans (.refl l2)
            · exact handled.trans (ih l2)

theorem doRecv_explained (l : Loop) (slot : Nat) (received : Received) :
    Explained l (recvCalls l slot received) (doRecv l slot received) := by
  unfold doRecv recvCalls
  simp only
  split
  · exact .refl l
  · cases received with
    | again => exact .refl l
    | failed => exact (close_beside l slot).explained
    | data bytes =>
        simp only
        split
        · exact (close_beside l slot).explained
        · have heard : Beside l (l.received slot bytes) := .putNote rfl
          rw [onRecv_eq]
          exact heard.explained.after (onRecvLoop_explained _ _ slot)

theorem onAccept_explained (l : Loop) (accepted : Bool) : Explained l [] (onAccept l accepted) := by
  unfold onAccept
  cases slotAlloc l with
  | none => exact .refl l
  | some slot =>
      simp only
      split
      · exact .refl l
      · exact .of_same rfl rfl

/-! ### The follower's stream -/

theorem replApplyFrom_explained (p : Bytes) (fuel : Nat) (l : Loop) (at' : Nat) :
    Explained l (applyCalls p fuel l at') (replApplyFrom p fuel l at') := by
  induction fuel generalizing l at' with
  | zero => exact .refl l
  | succ fuel ih =>
      unfold replApplyFrom applyCalls
      split
      · cases walRecDecode (p.drop at') with
        | none => exact (closeStream_beside l).explained
        | some rec' =>
            simp only
            split
            · exact (closeStream_beside l).explained
            · rename_i sized
              have next : rec'.seq = walNextSeq l.wal := by
                by_contra differ
                exact sized (.inr (.inr (.inr differ)))
              generalize slice p (at' + WAL_REC_HEADER_SIZE)
                (p.length - (at' + WAL_REC_HEADER_SIZE)) = payload
              have stored := logAppendAt_explained l next payload
              cases appended : logAppendAt l rec' payload with
              | mk res l1 =>
                  rw [appended] at stored
                  cases res with
                  | error e => exact stored.before (closeStream_beside l1).explained
                  | ok r =>
                      simp only
                      refine Explained.trans stored ?_
                      have noted : Explained l1 [] ({ l1 with
                          sessions := sessionFromRecord l1.sessions r
                          walDirty := true
                          stream := { l1.stream with lastErr := 0 } }.note (.applied r)) :=
                        .of_same rfl rfl
                      exact noted.after (ih _ _)
      · exact .refl l

theorem onStreamAction_explained (l : Loop) (action : ConnAction) :
    Explained l (streamActionCalls l action) (onStreamAction l action) := by
  cases action with
  | frame h payload =>
      unfold onStreamAction streamActionCalls onStreamFrame
      simp only
      split
      · exact replApplyFrom_explained _ _ l 0
      · split
        · exact .of_same rfl rfl
        · exact (closeStream_beside l).explained
  | replyErr code sequence => exact (closeStream_beside l).explained
  | close => exact (closeStream_beside l).explained

theorem onReplRecvLoop_explained (fuel : Nat) (l : Loop) :
    Explained l (replRecvLoopCalls fuel l) (onReplRecvLoop fuel l) := by
  induction fuel generalizing l with
  | zero => exact .refl l
  | succ fuel ih =>
      unfold onReplRecvLoop replRecvLoopCalls
      simp only
      cases connFeed l.stream.conn 4 with
      | mk actions conn =>
          simp only
          have placed : Explained l [] { l with stream := { l.stream with conn := conn } } :=
            .of_same rfl rfl
          generalize ({ l with stream := { l.stream with conn := conn } } : Loop) = l1 at placed ⊢
          split
          · exact placed
          · have handled := callsOf_explained onStreamAction_explained actions l1
            generalize actions.foldl onStreamAction l1 = l2 at handled ⊢
            refine placed.after ?_
            split
            · exact handled.trans (.refl l2)
            · exact handled.trans (ih l2)

theorem doReplRecv_explained (l : Loop) (received : Received) :
    Explained l (replRecvCalls l received) (doReplRecv l received) := by
  unfold doReplRecv replRecvCalls
  split
  · exact .refl l
  · cases received with
    | again => exact .refl l
    | failed => exact (closeStream_beside l).explained
    | data bytes =>
        simp only
        unfold onReplRecv
        split
        · exact (closeStream_beside l).explained
        · simp only
          have heard : Explained l [] ({ l with
              stream := { l.stream with conn := connRecvCommit l.stream.conn bytes } }.note
                (.heardDown bytes)) := .of_same rfl rfl
          exact heard.after (onReplRecvLoop_explained _ _)

/-! ### Events -/

theorem tickEvent_explained (l : Loop) (event : Event) :
    Explained l (eventCalls l event) (tickEvent l event) := by
  cases event with
  | listen accepted =>
      cases accepted with
      | none => exact .refl l
      | some accepted =>
          unfold tickEvent eventCalls
          simp only
          split
          · exact .refl l
          · exact onAccept_explained l accepted
  | conn slot readable writable =>
      cases readable with
      | none =>
          cases writable with
          | none => exact .refl l
          | some answer => exact (doSend_beside l slot answer).explained
      | some received =>
          have received := doRecv_explained l slot received
          cases writable with
          | none => exact received
          | some answer => exact received.before (doSend_beside _ slot answer).explained
  | signal => exact .of_same rfl rfl
  | timer fired =>
      unfold tickEvent eventCalls
      simp only
      split
      · exact .of_same rfl rfl
      · exact .refl l
  | stream connected ctl readable writable =>
      unfold tickEvent
      simp only
      by_cases connecting : l.stream.connecting = true
      · rw [if_pos connecting]
        have none : eventCalls l (.stream connected ctl readable writable) = [] := by
          cases readable with
          | none => rfl
          | some received => exact if_pos connecting
        rw [none]
        exact (onReplDial_beside l connected ctl).explained
      · rw [if_neg connecting]
        have received : Explained l (eventCalls l (.stream connected ctl readable writable))
            (tickEvent l (.stream connected ctl readable none)) := by
          unfold tickEvent
          simp only
          rw [if_neg connecting]
          cases readable with
          | none => exact .refl l
          | some received =>
              unfold eventCalls
              simp only
              rw [if_neg connecting]
              exact doReplRecv_explained l received
        unfold tickEvent at received
        simp only at received
        rw [if_neg connecting] at received
        cases writable with
        | none => exact received
        | some answer => exact received.before (doReplSend_beside _ answer).explained

/-- **All that becomes of the log while a pass handles its events is what its calls on
`wal_append` have made of it.** -/
theorem dispatch_explained {pass : Pass} {events : List Event} (l : Loop)
    (waits : pass.wait = some events) :
    Explained (l.armed pass) (l.calls pass) (loopDispatch (l.armed pass) events) := by
  unfold Loop.calls loopDispatch
  rw [waits]
  generalize l.armed pass = l1
  have cleaned : Explained l1 [] { l1 with walDirty := false } := .of_same rfl rfl
  exact cleaned.after (callsOf_explained tickEvent_explained events _)

/-! ### The arm phase and the flush -/

theorem slotRelease_explained (l : Loop) (slot : Nat) : Explained l [] (slotRelease l slot) := by
  have detached (l : Loop) (idx : Nat) : Explained l [] (replicaRelease l idx) := by
    unfold replicaRelease
    split
    · exact .refl l
    · exact .of_same rfl rfl
  have reset (l : Loop) : Explained l [] ((slotReset l slot).note (.released slot)) :=
    .of_same rfl rfl
  unfold slotRelease
  simp only
  split
  · exact .refl l
  · cases (l.conns slot).replica with
    | none =>
        cases (l.conns slot).sub.cursor.fd with
        | none => exact reset l
        | some fd => exact .of_same rfl rfl
    | some idx =>
        have before := detached l idx
        cases (l.conns slot).sub.cursor.fd with
        | none => exact before.after (reset _)
        | some fd => exact before.after (.of_same rfl rfl)

theorem armConn_explained (sends : Nat → SendAnswer) (l : Loop) (slot : Nat) :
    Explained l [] (armConn sends l slot) := by
  unfold armConn
  split
  · exact .refl l
  · have sent : Beside l (if (l.conns slot).sendBuf ≠ [] ∧ ¬ (l.conns slot).wantOut = true then
        connSend l slot (sends slot) else l) := by
      split
      · exact connSend_beside l slot _
      · exact .refl l
    refine sent.explained.after ?_
    generalize (if (l.conns slot).sendBuf ≠ [] ∧ ¬ (l.conns slot).wantOut = true then
      connSend l slot (sends slot) else l) = l1
    simp only
    split
    · exact slotRelease_explained l1 slot
    · have compacted : Beside l1 (l1.setConn slot { l1.conns slot with
          conn := connCompact (l1.conns slot).conn }) := .put rfl
      refine compacted.explained.after ?_
      split
      · exact (close_beside _ slot).explained.after (slotRelease_explained _ slot)
      · exact .refl _

theorem armPhase_explained (l : Loop) (arm : Arm) : Explained l [] (armPhase l arm) := by
  have conns (slots : List Nat) (l : Loop) : Explained l [] (slots.foldl (armConn arm.sends) l) := by
    induction slots generalizing l with
    | nil => exact .refl l
    | cons slot rest ih => exact (armConn_explained arm.sends l slot).after (ih _)
  unfold armPhase armConns
  refine (replDial_beside l arm.dial).explained.after
    (Explained.after ?_ (armStream_beside _ arm.stream).explained)
  exact conns (List.range LOOP_MAX_CONNS) _

theorem armed_explained (l : Loop) (pass : Pass) : Explained l [] (l.armed pass) := by
  have prepared : Explained l [] (l.prepare pass) := .of_same rfl rfl
  have armed := armPhase_explained (l.prepare pass) pass.arm
  unfold Loop.armed
  generalize armPhase (l.prepare pass) pass.arm = l1 at armed ⊢
  exact prepared.after (armed.before (.of_same rfl rfl))

theorem Explained.wal (still : Explained l [] l') : l'.wal = l.wal := by
  have chained := still.chained
  generalize l.wal = w at chained ⊢
  generalize l'.wal = w' at chained ⊢
  cases chained
  rfl

theorem loopFlush_settings (l : Loop) : (loopFlush l).2.settings = l.settings ∧
    (loopFlush l).2.wal.segBase = l.wal.segBase := by
  unfold loopFlush
  split
  · exact ⟨rfl, rfl⟩
  · have flushed := flushes_beside l false
    simp only
    generalize l.flushes false = l1 at flushed ⊢
    rw [← flushed.wal, ← flushed.settings]
    unfold walSync
    cases walSegSync l1.os l1.wal.active with
    | mk res rest => exact ⟨rfl, rfl⟩

end Msgsrvd

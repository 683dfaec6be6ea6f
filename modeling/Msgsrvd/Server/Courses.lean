/-
Every step of the loop is one of the course's: the handlers, what is served after the flush,
the arm phase, and whole runs.
-/

import Msgsrvd.Server.Course

namespace Msgsrvd

open Bytestring

open Function (update)

variable {l l' l'' : Loop} {slot : Nat} {c : LoopConn} {note : Note}

/-! ### Replies -/

theorem replyFrame_course (l : Loop) (slot : Nat) {frame : Frame} (plain : frame.plain = true) :
    Coursing l (replyFrame l slot frame).2 := by
  unfold replyFrame
  simp only
  split
  · exact .refl l
  · have placed : Coursing l (l.setConn slot { l.conns slot with
        sendBuf := (l.conns slot).sendBuf ++ frame.bytes }) := .aside rfl rfl (.inl rfl)
    exact placed.trans (@Coursing.tell _ (.staged slot (l.conns slot).session frame) plain)

theorem replyAck_course (l : Loop) (slot flags sequence clientSeq : Nat) :
    Coursing l (replyAck l slot flags sequence clientSeq).2 := replyFrame_course l slot rfl

/-- The text of an ERR is as long as it says. -/
theorem msgEncodeErr_valid (code : Nat) {text : Bytes} (short : text.length ≤ MSG_MAX_ERR_TEXT) :
    (msgDecodeErrPayload (msgEncodeErr code text.length ++ text)).any
      (fun p => msgErrValid p (msgEncodeErr code text.length ++ text).length) = true := by
  have fixed : (msgEncodeErr code text.length).length = MSG_ERR_SIZE := rfl
  have textLen : ofLe (slice (msgEncodeErr code text.length ++ text) 2 2) = text.length := by
    unfold msgEncodeErr
    rw [List.append_assoc, List.append_assoc, slice_field (le 2 code) (le 2 text.length) (le 4 0 ++ text) 2 2
      (length_le 2 code).symm (length_le 2 text.length).symm]
    refine ofLe_le_of_lt ?_
    unfold MSG_MAX_ERR_TEXT at short
    omega
  have long : ¬ (msgEncodeErr code text.length ++ text).length < MSG_ERR_SIZE := by
    rw [List.length_append, fixed]
    exact Nat.not_lt.mpr (Nat.le_add_right _ _)
  unfold msgDecodeErrPayload
  rw [if_neg long, Option.any_some]
  unfold msgErrValid
  rw [textLen, decide_eq_false long, decide_eq_false (Nat.not_lt.mpr short), List.length_append,
    fixed, Nat.add_sub_cancel_left, bne_self_eq_false]
  rfl

theorem replyErrText_course (l : Loop) (slot code sequence : Nat) (text : Bytes) :
    Coursing l (replyErrText l slot code sequence text).2 := by
  refine replyFrame_course l slot ?_
  have short : (text.take MSG_MAX_ERR_TEXT).length ≤ MSG_MAX_ERR_TEXT := List.length_take_le ..
  unfold Frame.plain Frame.formed Frame.bodied
  rw [Bool.and_eq_true, Bool.and_eq_true, Bool.and_eq_true]
  exact ⟨⟨⟨rfl, msgEncodeErr_valid code short⟩, rfl⟩, rfl⟩

theorem replyErr_course (l : Loop) (slot code sequence : Nat) :
    Coursing l (replyErr l slot code sequence) := replyErrText_course l slot code sequence []

theorem close_course (l : Loop) (slot : Nat) : Coursing l (l.close slot) :=
  .aside rfl rfl (.inr rfl)

theorem replyErr_close_course (l : Loop) (slot code sequence : Nat) :
    Coursing l ((replyErr l slot code sequence).close slot) :=
  (replyErr_course l slot code sequence).trans (close_course _ slot)

/-! ### The handshake and writes -/

theorem greet_course (l : Loop) (slot : Nat) (s : Session) : Coursing l (greet l slot s) := by
  unfold greet
  have bound : Coursing l (l.setConn slot { l.conns slot with session := s.id }) :=
    .aside rfl rfl (.inl rfl)
  exact (bound.trans (.tell rfl)).trans (replyAck_course _ slot _ _ _)

theorem handleHello_course (l : Loop) (slot : Nat) (h : MsgHeader) (payload : Bytes) :
    Coursing l (handleHello l slot h payload) := by
  unfold handleHello
  simp only
  split
  · exact replyErr_close_course l slot _ _
  · split
    · split
      · exact (replyErr_close_course _ slot _ _).after rfl
      · rename_i s sessions draws created
        have drawn : Coursing l ({ l with sessions := sessions, draws := draws }.note
            (.drew s.id (walFirstSeq l.wal))) :=
          Coursing.after (.tell rfl) rfl
        exact drawn.trans (greet_course _ slot _)
    · split
      · exact replyErr_course l slot _ _
      · exact greet_course l slot _

theorem ackWrite_course (l : Loop) (slot ackFlags : Nat) (wantsRepl degradable : Bool)
    (clientSeq walSeq : Nat) :
    Coursing l (ackWrite l slot ackFlags wantsRepl degradable clientSeq walSeq) := by
  unfold ackWrite
  simp only
  split
  · exact .aside rfl rfl (.inl rfl)
  · split
    · have owed : Coursing l (l.setConn slot { l.conns slot with
          ackLocal := ackStage (l.conns slot).ackLocal (ackFlags ||| MSG_FLAG_DEGRADED) true
            clientSeq walSeq 0 }) := .aside rfl rfl (.inl rfl)
      exact owed.before rfl
    · exact .aside rfl rfl (.inl rfl)

theorem flushes_course (l : Loop) (rollover : Bool) : Coursing l (l.flushes rollover) := by
  unfold Loop.flushes
  split
  · exact .refl l
  · exact .tell rfl

theorem logAppend_course (l : Loop) (r : WalRec) (payload : Bytes) :
    Coursing l (logAppend l r payload).2 := by
  unfold logAppend
  simp only
  split
  · exact (flushes_course l true).before rfl
  · exact .same rfl

theorem logAppendAt_course (l : Loop) (r : WalRec) (payload : Bytes) :
    Coursing l (logAppendAt l r payload).2 := by
  unfold logAppendAt
  simp only
  split
  · exact (flushes_course l true).before rfl
  · exact .same rfl

theorem handleWrite_course (l : Loop) (slot : Nat) (h : MsgHeader) (payload : Bytes) :
    Coursing l (handleWrite l slot h payload) := by
  have wrote (l : Loop) (fate : Fate) : Coursing l (l.wrote slot h fate) := .tell rfl
  have refused (l : Loop) (code : Nat) (text : Bytes) :
      Coursing l (refuseWrite l slot h code text) :=
    (wrote l _).trans (replyErrText_course _ slot _ _ _)
  unfold handleWrite
  split
  · exact (refused l _ _).trans (close_course _ slot)
  · split
    · exact refused l _ _
    · split
      · exact refused l _ _
      · split
        · unfold resendWrite
          simp only
          split
          · exact (wrote l _).trans (ackWrite_course _ slot _ _ _ _ _)
          · exact wrote l _
        · have kept := logAppend_course l (writeRec (l.conns slot).session h payload) payload
          split
          · rename_i appended
            rw [appended] at kept
            exact kept.trans (refused _ _ _)
          · rename_i r l1 appended
            rw [appended] at kept
            refine kept.trans ((wrote l1 (.stored r)).trans ?_)
            unfold storedWrite
            simp only
            split
            · exact (ackWrite_course { (Loop.wrote l1 slot h (.stored r)) with
                walDirty := true, sessions := _ } slot _ _ _ _ _).after rfl
            · exact .same rfl

/-! ### Subscriptions and reads -/

theorem course_setSub (l : Loop) (slot : Nat) (sub : LoopSub) :
    (l.setSub slot sub).course = { l.course with sub := update l.course.sub slot sub } := by
  unfold Loop.setSub
  rw [course_setConn]
  exact Course.ext rfl (Function.update_eq_self slot l.course.closing)
    (Function.update_eq_self slot l.course.replica) rfl rfl rfl

/-- A stream that is not running is changed. -/
theorem setSub_course {sub : LoopSub} (idle : (l.conns slot).sub.active = false ∨
    (l.conns slot).sub.waiting = true) (kept : sub.active = (l.conns slot).sub.active) :
    Coursing l (l.setSub slot sub) := by
  exact .step (.tuned idle kept) (course_setSub l slot sub)

theorem setSub_os_course (os : Os) {sub : LoopSub} (idle : (l.conns slot).sub.active = false ∨
    (l.conns slot).sub.waiting = true) (kept : sub.active = (l.conns slot).sub.active) :
    Coursing l ({ l with os := os }.setSub slot sub) := by
  have tuned : Coursing { l with os := os } ({ l with os := os }.setSub slot sub) :=
    setSub_course idle kept
  exact tuned.after rfl

theorem subSeek_course (fromSeq : Nat) (idle : (l.conns slot).sub.Idle) :
    Coursing l (subSeek l slot fromSeq).2 :=
  setSub_os_course _ (.inl idle.1) rfl

theorem armTimerNow_course (l : Loop) : Coursing l (armTimerNow l) := by
  unfold armTimerNow
  split
  · exact .refl l
  · exact .same rfl

theorem subWait_course (idle : (l.conns slot).sub.Idle) : Coursing l (subWait l slot) := by
  have held : Coursing l (l.setSub slot { (l.conns slot).sub with
      waiting := true, deadline := u32Add l.tick LOOP_SUB_DEADLINE_TICKS }) :=
    setSub_course (.inl idle.1) rfl
  exact held.trans (armTimerNow_course _)

/-- A reply leaves its note, or there is no room for it. -/
theorem replyFrame_trace (l : Loop) (slot : Nat) (frame : Frame) :
    (replyFrame l slot frame).2.course = l.course ∨
      ∃ session, (replyFrame l slot frame).2.course = l.course.note (.staged slot session frame) := by
  unfold replyFrame
  simp only
  split
  · exact .inl rfl
  · right
    refine ⟨(l.conns slot).session, ?_⟩
    rw [course_note, course_setConn]
    exact Course.ext (Function.update_eq_self slot l.course.sub)
      (Function.update_eq_self slot l.course.closing)
      (Function.update_eq_self slot l.course.replica) rfl rfl rfl

/-- A stream that was not running is answered with its ACK. -/
theorem subAnswer_course {sub : LoopSub} (sequence : Nat)
    (idle : (l.conns slot).sub.active = false ∨ (l.conns slot).sub.waiting = true)
    (active : sub.active = true) (waiting : sub.waiting = false) :
    Coursing l (subAnswer (l.setSub slot sub) slot sequence) := by
  have traced := replyFrame_trace (l.setSub slot sub) slot (emptyAck sequence)
  have answered : subAnswer (l.setSub slot sub) slot sequence =
      (replyFrame (l.setSub slot sub) slot (emptyAck sequence)).2.note
        (.began slot ((l.setSub slot sub).conns slot).sub (walDurableSeq l.wal)) := rfl
  rw [answered, setSub_setSub]
  generalize (replyFrame (l.setSub slot sub) slot (emptyAck sequence)).2 = l1 at traced ⊢
  have began (c : Course) (same : c.sub slot = l.course.sub slot) :=
    @Course.Step.began c slot sub (walDurableSeq l.wal) (by rw [same]; exact idle) active waiting
  rw [course_setSub] at traced
  rcases traced with same | ⟨session, told⟩
  · refine .step (began l.course rfl) ?_
    change l1.course.note _ = _
    rw [same]
    rfl
  · have staged : Course.Step l.course (l.course.note (.staged slot session (emptyAck sequence))) :=
      .noted rfl
    have both := (Relation.ReflTransGen.single staged).tail (began _ rfl)
    unfold Coursing
    change Relation.ReflTransGen Course.Step l.course (l1.course.note _)
    rw [told]
    exact both

theorem subStart_course (sequence : Nat) (idle : (l.conns slot).sub.Idle) :
    Coursing l (subStart l slot sequence) :=
  subAnswer_course sequence (.inl idle.1) rfl idle.2

theorem handleSubscribe_course (l : Loop) (slot : Nat) (h : MsgHeader) (payload : Bytes) :
    Coursing l (handleSubscribe l slot h payload) := by
  unfold handleSubscribe
  simp only
  cases msgDecodeSubscribe payload with
  | none => exact replyErr_close_course l slot _ _
  | some req =>
      simp only
      split
      · exact replyErr_course l slot _ _
      · rename_i free
        have asked : Coursing l (l.note (.asked slot MSG_OP_SUBSCRIBE req.minSeq
          (walDurableSeq l.wal) true)) := .tell rfl
        refine asked.trans ?_
        have idle : ((l.note (.asked slot MSG_OP_SUBSCRIBE req.minSeq (walDurableSeq l.wal)
          true)).conns slot).sub.Idle := idle_of_not free
        generalize l.note _ = l1 at idle ⊢
        generalize (if hasFlag h.flags MSG_FLAG_ALL_KEYS = true then _ else _ : Nat) = fromSeq
        have seek := subSeek_course fromSeq idle
        obtain ⟨cursor, sub⟩ := subSeek_cursor l1 slot fromSeq
        cases sought : subSeek l1 slot fromSeq with
        | mk res l2 =>
            rw [sought] at seek sub
            have idle2 : (l2.conns slot).sub.Idle := by
              simp only at sub
              rw [sub]
              exact idle
            refine seek.trans ?_
            cases res with
            | error e => exact replyErr_course l2 slot _ _
            | ok done =>
                simp only
                have turned := @setSub_course l2 slot { (l2.conns slot).sub with
                  key := h.partitionKey
                  allKeys := hasFlag h.flags MSG_FLAG_ALL_KEYS
                  minSeq := req.minSeq } (.inl idle2.1) rfl
                refine turned.trans ?_
                have idle3 : ((l2.setSub slot { (l2.conns slot).sub with
                    key := h.partitionKey
                    allKeys := hasFlag h.flags MSG_FLAG_ALL_KEYS
                    minSeq := req.minSeq }).conns slot).sub.Idle := by
                  rw [setSub_setSub]
                  exact idle2
                split
                · exact subWait_course idle3
                · exact subStart_course _ idle3

theorem readFrom_course (h : MsgHeader) (minSeq fromSeq untilSeq : Nat)
    (idle : (l.conns slot).sub.Idle) :
    Coursing l (readFrom l slot h minSeq fromSeq untilSeq) := by
  unfold readFrom
  simp only
  have bounded := @setSub_course l slot { (l.conns slot).sub with untilSeq := untilSeq }
    (.inl idle.1) rfl
  have idle1 : ((l.setSub slot { (l.conns slot).sub with
      untilSeq := untilSeq }).conns slot).sub.Idle := by
    rw [setSub_setSub]
    exact idle
  refine bounded.trans ?_
  generalize l.setSub slot { (l.conns slot).sub with untilSeq := untilSeq } = l1 at idle1 ⊢
  have seek := subSeek_course fromSeq idle1
  obtain ⟨cursor, sub⟩ := subSeek_cursor l1 slot fromSeq
  cases sought : subSeek l1 slot fromSeq with
  | mk res l2 =>
      rw [sought] at seek sub
      have idle2 : (l2.conns slot).sub.Idle := by
        simp only at sub
        rw [sub]
        exact idle1
      refine seek.trans ?_
      cases res with
      | error e => exact replyErr_course l2 slot _ _
      | ok done =>
          simp only
          split
          · exact subWait_course idle2
          · exact subStart_course _ idle2

theorem handleRead_course (l : Loop) (slot : Nat) (h : MsgHeader) (payload : Bytes) :
    Coursing l (handleRead l slot h payload) := by
  unfold handleRead
  simp only
  cases msgDecodeRead payload with
  | none => exact replyErr_close_course l slot _ _
  | some minSeq =>
      simp only
      split
      · exact replyErr_course l slot _ _
      · rename_i free
        generalize (hasFlag h.flags MSG_FLAG_ALL_KEYS || (walIndexRange l.wal.index
          h.partitionKey (walFirstSeq l.wal)).isSome || !walIndexComplete l.wal.index) = known
        have asked : Coursing l (l.note (.asked slot MSG_OP_READ minSeq (walDurableSeq l.wal)
          known)) := .tell rfl
        refine asked.trans ?_
        have idle : ((l.note (.asked slot MSG_OP_READ minSeq (walDurableSeq l.wal)
          known)).conns slot).sub.Idle := idle_of_not free
        have active : (l.conns slot).sub.active = ((l.note (.asked slot MSG_OP_READ minSeq
          (walDurableSeq l.wal) known)).conns slot).sub.active := rfl
        generalize l.note _ = l1 at idle active ⊢
        generalize asking : ({ (l.conns slot).sub with
          key := h.partitionKey
          allKeys := hasFlag h.flags MSG_FLAG_ALL_KEYS
          minSeq := minSeq
          once := true
          untilSeq := walDurableSeq l.wal } : LoopSub) = sub
        have idle1 : sub.Idle := by
          rw [← asking]
          exact idle_of_not free
        have turned : Coursing l1 (l1.setSub slot sub) := by
          refine setSub_course (.inl idle.1) ?_
          rw [idle1.1, idle.1]
        have idle2 : ((l1.setSub slot sub).conns slot).sub.Idle := by
          rw [setSub_setSub]
          exact idle1
        refine turned.trans ?_
        generalize l1.setSub slot sub = l2 at idle2 ⊢
        split
        · exact readFrom_course h _ _ _ idle2
        · split
          · exact readFrom_course h _ _ _ idle2
          · split
            · have emptied := @setSub_course l2 slot { (l2.conns slot).sub with
                untilSeq := 0, cursor := { (l2.conns slot).sub.cursor with nextSeq := 1 } }
                (.inl idle2.1) rfl
              refine emptied.trans (subStart_course 0 ?_)
              rw [setSub_setSub]
              exact idle2
            · exact readFrom_course h _ _ _ idle2

/-! ### Replication, the leader's side -/

theorem retainFloorUpdate_course (l : Loop) : Coursing l (retainFloorUpdate l) := by
  unfold retainFloorUpdate
  split
  · exact .refl l
  · simp only
    split
    · exact .refl l
    · split
      · exact .same rfl
      · exact .refl l

theorem freePeer_idle {idx : Nat} (found : freePeer l = some idx) : (l.peer idx).live = false := by
  have free := List.find?_some found
  simpa using free

theorem handleReplStart_course (l : Loop) (slot : Nat) (h : MsgHeader) :
    Coursing l (handleReplStart l slot h) := by
  unfold handleReplStart
  split
  · exact (replyErrText_course l slot _ _ _).trans (close_course _ slot)
  · cases found : freePeer l with
    | none => exact replyErr_close_course l slot _ _
    | some idx =>
        have free : l.course.live idx = false := freePeer_idle found
        simp only
        cases sought : walCursorSeek l.os l.wal walCursorInit h.sequence SCRATCH_LEN with
        | mk res rest =>
            obtain ⟨cursor, os⟩ := rest
            cases res with
            | error e =>
                have missed : Coursing l ({ l with os := os }.setPeer idx
                    { l.peer idx with cursor := cursor }) := by
                  refine .step (.sought cursor.nextSeq free) ?_
                  rw [course_setPeer]
                  exact Course.ext rfl rfl rfl (Function.update_eq_self idx l.course.live) rfl rfl
                exact missed.trans (replyErr_close_course _ slot _ _)
            | ok done =>
                have stands := walCursorSeek_stands sought
                simp only
                have attached : Coursing l ((({ l with os := os }.setConn slot
                    { l.conns slot with
                      replica := some idx
                      sendBuf := []
                      sendCap := LOOP_REPL_CAP
                      sendFrom := some idx }).setPeer idx ⟨true, h.sequence - 1, cursor⟩).note
                        (.attached slot idx (h.sequence - 1))) := by
                  have step := @Course.Step.attached l.course slot idx h.sequence free
                  refine .step step ?_
                  rw [course_note, course_setPeer, course_setConn, stands]
                  exact Course.ext (Function.update_eq_self slot l.course.sub)
                    (Function.update_eq_self slot l.course.closing) rfl rfl rfl rfl
                exact attached.trans ((retainFloorUpdate_course _).trans (armTimerNow_course _))

theorem handleReplAck_course (l : Loop) (slot : Nat) (h : MsgHeader) :
    Coursing l (handleReplAck l slot h) := by
  unfold handleReplAck
  cases (l.conns slot).replica with
  | none => exact .refl l
  | some idx =>
      have same : (l.setPeer idx { l.peer idx with durable := h.sequence }).course = l.course := by
        rw [course_setPeer]
        exact Course.ext rfl rfl rfl (Function.update_eq_self idx l.course.live)
          (Function.update_eq_self idx l.course.next) rfl
      have told : Coursing l ((l.setPeer idx { l.peer idx with durable := h.sequence }).note
          (.confirmed slot idx h.sequence)) := Coursing.after (.tell rfl) same
      exact told.trans (retainFloorUpdate_course _)

/-! ### Frames -/

theorem handleFrame_course (l : Loop) (slot : Nat) (h : MsgHeader) (payload : Bytes) :
    Coursing l (handleFrame l slot h payload) := by
  unfold handleFrame
  split
  · exact handleHello_course l slot h payload
  · split
    · exact handleWrite_course l slot h payload
    · split
      · exact replyFrame_course l slot rfl
      · split
        · exact handleReplStart_course l slot h
        · split
          · exact handleReplAck_course l slot h
          · split
            · exact handleSubscribe_course l slot h payload
            · split
              · exact handleRead_course l slot h payload
              · split
                · exact replyErr_course l slot _ _
                · exact replyErr_close_course l slot _ _

theorem onAction_course (slot : Nat) (l : Loop) (action : ConnAction) :
    Coursing l (onAction slot l action) := by
  cases action with
  | frame h payload => exact handleFrame_course l slot h _
  | replyErr code sequence => exact replyErr_course l slot _ _
  | close => exact close_course l slot

theorem onRecvLoop_course (fuel : Nat) (l : Loop) (slot : Nat) :
    Coursing l (onRecvLoop fuel l slot) := by
  induction fuel generalizing l with
  | zero => exact .refl l
  | succ fuel ih =>
      unfold onRecvLoop
      simp only
      have placed : Coursing l (l.setConn slot { l.conns slot with
          conn := (connFeed (l.conns slot).conn 8).2 }) := .aside rfl rfl (.inl rfl)
      refine placed.trans ?_
      split
      · exact .refl _
      · have acted := Coursing.foldl (onAction_course slot) (connFeed (l.conns slot).conn 8).1
          (l.setConn slot { l.conns slot with conn := (connFeed (l.conns slot).conn 8).2 })
        split
        · exact acted
        · exact acted.trans (ih _)

theorem onRecv_course (l : Loop) (slot : Nat) (bytes : Bytes) :
    Coursing l (onRecv l slot bytes) := by
  unfold onRecv
  simp only
  have placed : Coursing l (l.setConn slot
      { l.conns slot with conn := connRecvCommit (l.conns slot).conn bytes }) :=
    .aside rfl rfl (.inl rfl)
  have heard := placed.trans (@Coursing.tell _ (.heard slot bytes) rfl)
  exact heard.trans (onRecvLoop_course _ _ slot)

theorem doRecv_course (l : Loop) (slot : Nat) (received : Received) :
    Coursing l (doRecv l slot received) := by
  unfold doRecv
  simp only
  split
  · exact .refl l
  · cases received with
    | again => exact .refl l
    | failed => exact close_course l slot
    | data bytes =>
        simp only
        split
        · exact close_course l slot
        · exact onRecv_course l slot bytes

theorem onAccept_course (l : Loop) (accepted : Bool) : Coursing l (onAccept l accepted) := by
  unfold onAccept
  split
  · exact .refl l
  · rename_i slot _found
    split
    · exact .refl l
    · refine .step (@Course.Step.opened l.course slot) ?_
      change Course.note (Loop.course (Loop.setConn _ _ _)) _ = _
      rw [course_setConn]
      rfl

/-! ### Sending -/

theorem connWantOut_course (l : Loop) (slot : Nat) (want ctl : Bool) :
    Coursing l (connWantOut l slot want ctl) := by
  unfold connWantOut
  simp only
  split
  · exact .refl l
  · split
    · exact close_course l slot
    · exact .aside rfl rfl (.inl rfl)

theorem connSend_course (l : Loop) (slot : Nat) (answer : SendAnswer) :
    Coursing l (connSend l slot answer) := by
  unfold connSend
  simp only
  refine Coursing.trans (@Coursing.tell l (.handed slot (walDurableSeq l.wal)
    (l.conns slot).sendBuf (takenOf answer.res (l.conns slot).sendBuf)) rfl) ?_
  split
  · exact connWantOut_course _ slot _ _
  · refine Coursing.trans ?_ (connWantOut_course _ slot _ _)
    unfold loopSendDone
    simp only
    split
    · exact .refl _
    · split
      · exact .aside rfl rfl (.inr rfl)
      · exact .aside rfl rfl (.inl rfl)

theorem doSend_course (l : Loop) (slot : Nat) (answer : SendAnswer) :
    Coursing l (doSend l slot answer) := by
  unfold doSend
  simp only
  split
  · exact .refl l
  · split
    · exact connWantOut_course l slot _ _
    · exact connSend_course l slot answer

/-! ### The follower's stream -/

theorem streamFrame_course (l : Loop) (op sequence : Nat) :
    Coursing l (streamFrame l op sequence) := by
  unfold streamFrame
  split
  · exact .refl l
  · exact Coursing.after (.tell rfl) rfl

theorem replApplyFrom_course (p : Bytes) (fuel at' : Nat) (l : Loop) :
    Coursing l (replApplyFrom p fuel l at') := by
  induction fuel generalizing l at' with
  | zero => exact .refl l
  | succ fuel ih =>
      unfold replApplyFrom
      split
      · split
        · exact .same rfl
        · rename_i r decoded
          simp only
          split
          · exact .same rfl
          · have kept := logAppendAt_course l r (slice p (at' + WAL_REC_HEADER_SIZE)
              (p.length - (at' + WAL_REC_HEADER_SIZE)))
            split
            · rename_i appended
              rw [appended] at kept
              exact kept.before rfl
            · rename_i r1 l1 appended
              rw [appended] at kept
              refine kept.trans (Coursing.trans ?_ (ih _ _))
              exact Coursing.after (.tell rfl) rfl
      · exact .refl l

theorem onStreamAction_course (l : Loop) (action : ConnAction) :
    Coursing l (onStreamAction l action) := by
  unfold onStreamAction onStreamFrame
  cases action with
  | replyErr code sequence => exact .same rfl
  | close => exact .same rfl
  | frame h payload =>
      simp only
      split
      · exact replApplyFrom_course _ _ _ l
      · split
        · exact .same rfl
        · exact .same rfl

theorem onReplRecvLoop_course (fuel : Nat) (l : Loop) : Coursing l (onReplRecvLoop fuel l) := by
  induction fuel generalizing l with
  | zero => exact .refl l
  | succ fuel ih =>
      unfold onReplRecvLoop
      simp only
      have fed : Coursing l { l with stream := { l.stream with
          conn := (connFeed l.stream.conn 4).2 } } := .same rfl
      refine fed.trans ?_
      split
      · exact .refl _
      · have handled := Coursing.foldl onStreamAction_course (connFeed l.stream.conn 4).1
          { l with stream := { l.stream with conn := (connFeed l.stream.conn 4).2 } }
        split
        · exact handled
        · exact handled.trans (ih _)

theorem doReplRecv_course (l : Loop) (received : Received) :
    Coursing l (doReplRecv l received) := by
  unfold doReplRecv
  split
  · exact .refl l
  · cases received with
    | again => exact .refl l
    | failed => exact .same rfl
    | data bytes =>
        unfold onReplRecv
        simp only
        split
        · exact .same rfl
        · refine Coursing.trans ?_ (onReplRecvLoop_course _ _)
          exact Coursing.after (.tell rfl) rfl

theorem streamWantOut_course (l : Loop) (want ctl : Bool) :
    Coursing l (streamWantOut l want ctl) := by
  unfold streamWantOut
  split
  · exact .refl l
  · split
    · exact .same rfl
    · exact .same rfl

theorem streamSend_course (l : Loop) (answer : SendAnswer) :
    Coursing l (streamSend l answer) := by
  unfold streamSend
  simp only
  refine Coursing.trans (@Coursing.tell l (.handedUp (walDurableSeq l.wal) l.stream.sendBuf
    (takenOf answer.res l.stream.sendBuf)) rfl) ?_
  split
  · exact streamWantOut_course _ _ _
  · refine Coursing.trans ?_ (streamWantOut_course _ _ _)
    unfold onReplSend
    split
    · exact .same rfl
    · exact .same rfl

theorem doReplSend_course (l : Loop) (answer : SendAnswer) :
    Coursing l (doReplSend l answer) := by
  unfold doReplSend
  split
  · exact .refl l
  · split
    · exact streamWantOut_course l _ _
    · exact streamSend_course l answer

theorem onReplDial_course (l : Loop) (connected ctl : Bool) :
    Coursing l (onReplDial l connected ctl) := by
  unfold onReplDial
  simp only
  split
  · exact .same rfl
  · split
    · exact .same rfl
    · refine Coursing.trans ?_ (streamFrame_course _ _ _)
      exact Coursing.after (.tell rfl) rfl

theorem streamReport_course (l : Loop) : Coursing l (streamReport l) := by
  unfold streamReport
  split
  · exact .refl l
  · split
    · exact .refl l
    · split
      · exact .refl l
      · exact (streamFrame_course l _ _).before rfl

theorem replDial_course (l : Loop) (answer : DialAnswer) : Coursing l (replDial l answer) := by
  unfold replDial
  split
  · exact .refl l
  · split
    · exact .refl l
    · split
      · exact .refl l
      · have dialing : Coursing l { l with stream := { l.stream with
            fd := true, connecting := true } } := .same rfl
        cases answer with
        | connected ctl => exact dialing.trans (onReplDial_course _ _ _)
        | refused => exact dialing.trans (onReplDial_course _ _ _)
        | noSocket => exact .same rfl
        | noWatch => exact .same rfl
        | inProgress => exact .same rfl

theorem armStream_course (l : Loop) (answer : SendAnswer) : Coursing l (armStream l answer) := by
  unfold armStream streamRelease
  simp only
  split
  · exact .refl l
  · split
    · split
      · exact .refl l
      · exact .same rfl
    · have sent : Coursing l (if l.stream.sendBuf ≠ [] ∧ ¬ l.stream.wantOut = true then
          streamSend l answer else l) := by
        split
        · exact streamSend_course l answer
        · exact .refl l
      refine sent.trans ?_
      generalize (if l.stream.sendBuf ≠ [] ∧ ¬ l.stream.wantOut = true then
        streamSend l answer else l) = l1
      split
      · exact .refl l1
      · split
        · exact .same rfl
        · exact .same rfl

/-! ### Events -/

theorem tickEvent_course (l : Loop) (event : Event) : Coursing l (tickEvent l event) := by
  cases event with
  | listen accepted =>
      cases accepted with
      | none => exact .refl l
      | some accepted =>
          unfold tickEvent
          simp only
          split
          · exact .refl l
          · exact onAccept_course l accepted
  | conn slot readable writable =>
      cases readable with
      | none =>
          cases writable with
          | none => exact .refl l
          | some answer => exact doSend_course l slot answer
      | some received =>
          have heard := doRecv_course l slot received
          cases writable with
          | none => exact heard
          | some answer => exact heard.trans (doSend_course _ slot answer)
  | signal => exact .same rfl
  | timer fired =>
      unfold tickEvent
      simp only
      split
      · exact .same rfl
      · exact .refl l
  | stream connected ctl readable writable =>
      unfold tickEvent
      simp only
      split
      · exact onReplDial_course l _ _
      · cases readable with
        | none =>
            cases writable with
            | none => exact .refl l
            | some answer => exact doReplSend_course l answer
        | some received =>
            have heard := doReplRecv_course l received
            cases writable with
            | none => exact heard
            | some answer => exact heard.trans (doReplSend_course _ answer)

/-! ### The sweep and the flush -/

theorem acksEmitOne_course (best : Nat) (live : Bool) (l : Loop) (slot : Nat) :
    Coursing l (acksEmitOne best live l slot) := by
  have counted (l : Loop) (flags : Nat) : Coursing l (ackCount l flags) := by
    unfold ackCount
    split
    · exact .same rfl
    · split
      · exact .same rfl
      · exact .same rfl
  have first (l : Loop) : Coursing l (emitLocal l slot) := by
    unfold emitLocal
    simp only
    split
    · exact .refl l
    · generalize (l.conns slot).ackLocal = a
      have replied := (replyAck_course l slot a.flags a.walSeq a.clientSeq).trans
        (counted _ a.flags)
      refine replied.trans (Coursing.trans ?_ (.tell rfl))
      exact .aside rfl rfl (.inl rfl)
  have second (l : Loop) : Coursing l (emitRepl best live l slot) := by
    have settled (l : Loop) (refused : Bool) (flags room : Nat) (sent : Bool) :
        Coursing l (settleRepl l slot refused flags room sent) := by
      have cleared : Coursing l (l.setConn slot { l.conns slot with ackRepl := ackNone }) :=
        .aside rfl rfl (.inl rfl)
      exact cleared.trans (.tell rfl)
    unfold emitRepl
    simp only
    split
    · exact .refl l
    · split
      · exact ((replyAck_course l slot _ _ _).trans (counted _ _)).trans (settled _ _ _ _ _)
      · split
        · exact .refl l
        · split
          · refine Coursing.trans ?_ (settled _ _ _ _ _)
            exact ((replyAck_course l slot _ _ _).trans (counted _ _)).before rfl
          · exact (replyErrText_course l slot _ _ _).trans (settled _ _ _ _ _)
  unfold acksEmitOne
  split
  · exact .refl l
  · exact (first l).trans (second _)

theorem acksEmit_course (l : Loop) : Coursing l (acksEmit l) := by
  unfold acksEmit
  simp only
  exact (Coursing.foldl (acksEmitOne_course (replBest l) (replLive l))
    (List.range LOOP_MAX_CONNS) l).trans (.tell rfl)

theorem loopFlush_course (l : Loop) : Coursing l (loopFlush l).2 := by
  unfold loopFlush
  split
  · exact .refl l
  · exact (flushes_course l false).before rfl

theorem retainPass_course (l : Loop) : Coursing l (retainPass l) := by
  unfold retainPass
  simp only
  split
  · exact .refl l
  · split
    · exact .refl l
    · split
      · exact .same rfl
      · generalize (if l.replicasWant > 0 ∧ l.retainFloor + 1 < walRetainMark l.wal l.retainSegments
          then l.retainFloor + 1 else walRetainMark l.wal l.retainSegments) = keepFrom
        split
        · exact .same rfl
        · generalize walRetain l.os l.wal keepFrom = retained
          obtain ⟨res, removed, w, os⟩ := retained
          have told := @Coursing.tell l (.retained (walFirstSeq l.wal) (walFirstSeq w)) rfl
          cases res with
          | ok done => exact told.before rfl
          | error e => exact told.before rfl

/-! ### The replicas' batches -/

theorem course_close (l : Loop) (slot : Nat) :
    (l.close slot).course = { l.course with closing := update l.course.closing slot true } := by
  unfold Loop.close
  rw [course_setConn]
  exact Course.ext (Function.update_eq_self slot l.course.sub) rfl
    (Function.update_eq_self slot l.course.replica) rfl rfl rfl

theorem replStreamOne_course (limit : Nat) (l : Loop) (slot : Nat) :
    Coursing l (replStreamOne limit l slot) := by
  unfold replStreamOne
  simp only
  cases of : (l.conns slot).replica with
  | none => exact .refl l
  | some idx =>
      simp only
      split
      · exact .refl l
      · rename_i free
        rw [not_or, not_or, Bool.not_eq_true (l.conns slot).closing] at free
        have stays : l.course.closing slot = false := free.2.1
        have of' : l.course.replica slot = some idx := of
        have lives : update l.course.live idx (l.peer idx).live = l.course.live :=
          Function.update_eq_self idx l.course.live
        have replicas : update l.course.replica slot (some idx) = l.course.replica := by
          rw [← of']
          exact Function.update_eq_self slot l.course.replica
        cases read : walCursorRead l.os l.wal (l.peer idx).cursor limit
            ((l.conns slot).sendCap - MSG_HEADER_SIZE) with
        | mk res rest =>
            obtain ⟨cursor, os⟩ := rest
            cases res with
            | error e =>
                refine .step (.broken cursor.nextSeq of') ?_
                rw [course_close, course_setPeer]
                exact Course.ext rfl rfl rfl lives rfl rfl
            | ok bytes =>
                obtain ⟨recs, flat, are, ends⟩ := walCursorRead_consecutive read
                simp only
                split
                · rename_i none'
                  have still := are.flatten_nil (flat.symm.trans none')
                  refine .same ?_
                  rw [course_setPeer, ends, still]
                  exact Course.ext rfl rfl rfl lives
                    (Function.update_eq_self idx l.course.next) rfl
                · rename_i some'
                  have more : recs ≠ [] := by
                    rintro rfl
                    exact some' flat
                  refine .step (.batch (l.conns slot).session stays of' are more) ?_
                  rw [course_note, course_setConn]
                  change Course.note { (Loop.setPeer _ idx _).course with
                    sub := _, closing := _, replica := _ } _ = _
                  rw [course_setPeer, ends, flat]
                  exact Course.ext (Function.update_eq_self slot l.course.sub)
                    (Function.update_eq_self slot l.course.closing) replicas lives rfl rfl

/-! ### The subscribers' streams -/

/-- A record there is room for is staged, and noted as sent. -/
theorem pushRecord_staged {r : WalRec} {payload : Bytes} (length : payload.length = r.len)
    (room : MSG_HEADER_SIZE + r.len ≤ (l.conns slot).room) :
    (pushRecord l slot r payload).course =
        { l.course with
          trace := .pushed slot (l.conns slot).sub (walDurableSeq l.wal) r true ::
            .staged slot (l.conns slot).session
              ⟨msgHeaderNew MSG_OP_NOTIFY r.recordType 0 r.len r.partitionKey r.seq, payload⟩ ::
            l.trace } ∧
      (pushRecord l slot r payload).conns slot =
        { l.conns slot with
          sendBuf := (l.conns slot).sendBuf ++ (Frame.mk
            (msgHeaderNew MSG_OP_NOTIFY r.recordType 0 r.len r.partitionKey r.seq) payload).bytes } ∧
      (pushRecord l slot r payload).wal = l.wal := by
  have enough : ¬ (l.conns slot).room < MSG_HEADER_SIZE + payload.length := by omega
  unfold pushRecord replyRecord replyFrame
  simp only
  rw [if_neg enough]
  refine ⟨?_, conns_setConn l slot _, rfl⟩
  rw [course_note, course_note, course_setConn]
  refine Course.ext (Function.update_eq_self slot l.course.sub)
    (Function.update_eq_self slot l.course.closing)
    (Function.update_eq_self slot l.course.replica) rfl rfl ?_
  change Note.pushed slot ((l.setConn slot _).conns slot).sub _ r true :: _ = _
  rw [conns_setConn]
  rfl

/-- In room enough, each record that the stream is for is staged as its NOTIFY. -/
theorem pushRecords_course {buf : Bytes} {recs : List Bytes} {next : Nat} (fuel : Nat) (l : Loop)
    (at' : Nat) (rest : buf.drop at' = recs.flatten) (are : Consecutive next recs)
    (enough : recs.flatten.length ≤ fuel) (room : recs.flatten.length ≤ (l.conns slot).room) :
    (pushRecords slot buf fuel l at').course =
      { l.course with
        trace := pushNotes slot (l.conns slot).session (l.conns slot).sub (walDurableSeq l.wal) recs ++
          l.trace } := by
  induction recs generalizing fuel l at' next with
  | nil =>
      have ended : ¬ at' < buf.length := by
        have length := congrArg List.length rest
        rw [List.length_drop, List.flatten_nil, List.length_nil] at length
        omega
      cases fuel with
      | zero => rfl
      | succ fuel =>
          unfold pushRecords
          rw [if_neg ended]
          rfl
  | cons bytes later ih =>
      obtain ⟨⟨r, is, _seq⟩, are'⟩ := are
      have header := header_le_walRecSize is.sized
      rw [is.size] at header
      have positive : 0 < WAL_REC_HEADER_SIZE := by decide
      rw [List.flatten_cons] at rest
      rw [List.flatten_cons, List.length_append] at enough room
      have whole : buf.length - at' = bytes.length + later.flatten.length := by
        rw [← List.length_drop, rest, List.length_append]
      have decoded : walRecDecode (buf.drop at') = some r := by
        rw [rest, walRecDecode_append _ _ header]
        exact is.decoded
      have fits := payload_le_walRecSize is.decoded is.sized
      rw [is.size] at fits
      have after : buf.drop (at' + bytes.length) = later.flatten := by
        rw [← List.drop_drop, rest, List.drop_left' rfl]
      have payload : slice buf (at' + WAL_REC_HEADER_SIZE) r.len =
          slice bytes WAL_REC_HEADER_SIZE r.len := by
        rw [← slice_append_left bytes later.flatten _ _ fits, ← rest]
        unfold slice
        rw [List.drop_drop]
      cases fuel with
      | zero => omega
      | succ fuel =>
          unfold pushRecords
          rw [if_pos (by omega), decoded]
          simp only
          rw [is.size, if_neg (by omega)]
          have notes : pushNotes slot (l.conns slot).session (l.conns slot).sub
              (walDurableSeq l.wal) (bytes :: later) =
              pushNotes slot (l.conns slot).session (l.conns slot).sub (walDurableSeq l.wal) later ++
                pushNote slot (l.conns slot).session (l.conns slot).sub (walDurableSeq l.wal) bytes := by
            unfold pushNotes
            rw [List.reverse_cons, List.flatMap_append, List.flatMap_singleton]
          rw [notes, List.append_assoc]
          have wants : (l.conns slot).sub.wants bytes = true ↔
              (l.conns slot).sub.allKeys = true ∨ r.partitionKey = (l.conns slot).sub.key := by
            unfold LoopSub.wants ofKey
            rw [is.decoded, Bool.or_eq_true, Option.any_some, beq_iff_eq]
          by_cases wanted : (l.conns slot).sub.allKeys = true ∨
              r.partitionKey = (l.conns slot).sub.key
          · have length : (slice bytes WAL_REC_HEADER_SIZE r.len).length = r.len := by
              rw [length_slice]
              omega
            have headers : MSG_HEADER_SIZE ≤ WAL_REC_HEADER_SIZE := by decide
            obtain ⟨course, conns, wal⟩ := @pushRecord_staged l slot r
              (slice bytes WAL_REC_HEADER_SIZE r.len) length (by omega)
            rw [if_pos wanted, payload]
            generalize pushRecord l slot r (slice bytes WAL_REC_HEADER_SIZE r.len) = l1
              at course conns wal ⊢
            have trace : l1.trace = _ := congrArg Course.trace course
            have shorter : later.flatten.length ≤ (l1.conns slot).room := by
              rw [conns]
              unfold LoopConn.room at room ⊢
              simp only [List.length_append, frame_length, length]
              omega
            rw [ih fuel l1 (at' + bytes.length) after are' (by omega) shorter, conns, wal, trace]
            simp only
            rw [course]
            unfold pushNote
            rw [is.decoded]
            simp only
            rw [if_pos (wants.mpr wanted)]
            rfl
          · rw [if_neg wanted, ih fuel l (at' + bytes.length) after are' (by omega) (by omega)]
            unfold pushNote
            rw [is.decoded]
            simp only
            rw [if_neg (fun named => wanted (wants.mp named))]
            rfl

theorem subsPushRead_course {room : Nat} (limit : Nat) (roomy : room ≤ (l.conns slot).room)
    (stays : (l.conns slot).closing = false) (active : (l.conns slot).sub.active = true)
    (waiting : (l.conns slot).sub.waiting = false) :
    Coursing l (subsPushRead limit room l slot) := by
  unfold subsPushRead
  simp only
  cases read : walCursorRead l.os l.wal (l.conns slot).sub.cursor limit room with
  | mk res rest =>
      obtain ⟨cursor, os⟩ := rest
      cases res with
      | error e =>
          simp only
          have course := course_setSub { l with os := os } slot
            { (l.conns slot).sub with cursor := cursor }
          generalize { l with os := os }.setSub slot { (l.conns slot).sub with cursor := cursor } = l1
            at course ⊢
          have replied := replyFrame_trace l1 slot (errFrame MSG_ERR_NO_HISTORY cursor.nextSeq [])
          change _ ∨ ∃ session, (replyErr l1 slot MSG_ERR_NO_HISTORY cursor.nextSeq).course = _
            at replied
          rcases replied with same | ⟨session, told⟩
          · refine .step (@Course.Step.failed l.course slot cursor) ?_
            change (replyErr l1 slot MSG_ERR_NO_HISTORY cursor.nextSeq).course = _ at same
            rw [course_close, same, course]
            rfl
          · have staged : Course.Step l.course (l.course.note (.staged slot session
                (errFrame MSG_ERR_NO_HISTORY cursor.nextSeq []))) := .noted rfl
            have both := (Relation.ReflTransGen.single staged).tail
              (@Course.Step.failed _ slot cursor)
            unfold Coursing
            rw [course_close, told, course]
            exact both
      | ok got =>
          obtain ⟨recs, flat, are, ends⟩ := walCursorRead_consecutive read
          have short := walCursorRead_length read
          simp only
          have step := @Course.Step.read l.course slot cursor recs (l.conns slot).session
            (walDurableSeq l.wal) stays active waiting are ends
          refine .step step ?_
          generalize moved : (if got = [] then { l with os := os }.setSub slot
            { (l.conns slot).sub with cursor := cursor } else
              { ({ l with os := os }.setSub slot { (l.conns slot).sub with cursor := cursor }) with
                progress := true }) = l1
          have course : l1.course = { l.course with
              sub := update l.course.sub slot { (l.conns slot).sub with cursor := cursor } } := by
            rw [← moved]
            split
            · exact course_setSub { l with os := os } slot _
            · exact course_setSub { l with os := os } slot _
          have here : l1.conns slot =
              { l.conns slot with sub := { (l.conns slot).sub with cursor := cursor } } := by
            rw [← moved]
            split
            · exact conns_setConn _ slot _
            · exact conns_setConn _ slot _
          have wal : l1.wal = l.wal := by
            rw [← moved]
            split
            · rfl
            · rfl
          have pushed := @pushRecords_course slot got recs _ got.length l1 0
            (by rw [List.drop_zero, flat]) are (by rw [flat]) (by
              rw [here, ← flat]
              change got.length ≤ (l.conns slot).room
              omega)
          rw [pushed, here, wal, course]
          have trace : l1.trace = l.trace := congrArg Course.trace course
          rw [trace]
          rfl

/-- Plain notes, newest first. -/
theorem told_course {c : Course} {notes : List Note} (plain : notes.all Note.plain = true) :
    Relation.ReflTransGen Course.Step c { c with trace := notes ++ c.trace } := by
  induction notes with
  | nil => exact .refl
  | cons note earlier ih =>
      rw [List.all_cons, Bool.and_eq_true] at plain
      exact (ih plain.2).tail (.noted plain.1)

/-- A stream that was held is refused. -/
theorem refused_course {l1 : Loop} {durable tick : Nat} {cursor : WalCursor} {os : Os}
    (waiting : (l.conns slot).sub.waiting = true)
    (kept : (l1.conns slot).sub = { (l.conns slot).sub with waiting := false })
    (replied : ∃ notes, notes.all Note.plain = true ∧ l1.course =
      { l.course with
        sub := update l.course.sub slot { (l.conns slot).sub with waiting := false }
        trace := notes ++ l.trace }) :
    Coursing l ({ l1.note (.behind slot (l.conns slot).sub durable tick) with os := os }.setSub slot
      { ((l1.note (.behind slot (l.conns slot).sub durable tick)).conns slot).sub with
        cursor := cursor }) := by
  obtain ⟨notes, plain, course⟩ := replied
  have told := @told_course l.course (.behind slot (l.conns slot).sub durable tick :: notes)
    (by rw [List.all_cons, plain]; rfl)
  have tuned := @Course.Step.tuned { l.course with
    trace := (.behind slot (l.conns slot).sub durable tick :: notes) ++ l.course.trace } slot
    { (l.conns slot).sub with waiting := false, cursor := cursor } (.inr waiting) rfl
  unfold Coursing
  rw [course_setSub]
  refine (congrArg (Relation.ReflTransGen Course.Step l.course) ?_).mpr (told.tail tuned)
  have subs : l1.course.sub = _ := congrArg Course.sub course
  have traces : l1.trace = _ := congrArg Course.trace course
  have closings : l1.course.closing = l.course.closing := by rw [course]
  have replicas : l1.course.replica = l.course.replica := by rw [course]
  have lives : l1.course.live = l.course.live := by rw [course]
  have nexts : l1.course.next = l.course.next := by rw [course]
  refine Course.ext ?_ closings replicas lives nexts ?_
  · change update l1.course.sub slot { (l1.conns slot).sub with cursor := cursor } = _
    rw [subs, kept, Function.update_idem]
  · change Note.behind slot (l.conns slot).sub durable tick :: l1.trace = _
    rw [traces]
    rfl

/-- What is done with a stream that is held. -/
theorem subsPushWaiting_course (durable : Nat) (waiting : (l.conns slot).sub.waiting = true) :
    Coursing l (subsPushWaiting durable l slot) := by
  unfold subsPushWaiting
  simp only
  split
  · exact (subAnswer_course _ (.inr waiting) rfl rfl).before rfl
  · split
    · have replied := replyFrame_trace (l.setSub slot { (l.conns slot).sub with waiting := false })
        slot (errFrame MSG_ERR_BEHIND (l.conns slot).sub.minSeq [])
      have kept := replyFrame_sub (l.setSub slot { (l.conns slot).sub with waiting := false })
        slot (errFrame MSG_ERR_BEHIND (l.conns slot).sub.minSeq [])
      rw [setSub_setSub] at kept
      change ((replyErr _ slot MSG_ERR_BEHIND (l.conns slot).sub.minSeq).conns slot).sub = _ at kept
      change (replyErr _ slot MSG_ERR_BEHIND (l.conns slot).sub.minSeq).course = _ ∨
        ∃ session, (replyErr _ slot MSG_ERR_BEHIND (l.conns slot).sub.minSeq).course = _ at replied
      generalize replyErr (l.setSub slot { (l.conns slot).sub with waiting := false }) slot
        MSG_ERR_BEHIND (l.conns slot).sub.minSeq = l1 at replied kept ⊢
      refine refused_course waiting ?_ ?_
      · exact kept
      · rw [course_setSub] at replied
        rcases replied with same | ⟨session, told⟩
        · exact ⟨[], rfl, same⟩
        · refine ⟨[.staged slot session (errFrame MSG_ERR_BEHIND (l.conns slot).sub.minSeq [])], ?_,
            told⟩
          simp only [List.all_cons, List.all_nil, Bool.and_true]
          rfl
    · exact .refl l

/-- The end of a read. -/
theorem subsPushLast_course (stays : (l.conns slot).closing = false)
    (active : (l.conns slot).sub.active = true) (waiting : (l.conns slot).sub.waiting = false)
    (past : (l.conns slot).sub.untilSeq < (l.conns slot).sub.cursor.nextSeq) :
    Coursing l (subsPushLast l slot) := by
  unfold subsPushLast
  simp only
  have kept := replyFrame_sub l slot ⟨msgHeaderNew MSG_OP_NOTIFY MSG_RECORD_NONE MSG_FLAG_LAST
    ([] : Bytes).length 0 (l.conns slot).sub.untilSeq, []⟩
  have replied := replyFrame_trace l slot ⟨msgHeaderNew MSG_OP_NOTIFY MSG_RECORD_NONE MSG_FLAG_LAST
    ([] : Bytes).length 0 (l.conns slot).sub.untilSeq, []⟩
  have told : Coursing l (reply l slot MSG_OP_NOTIFY MSG_FLAG_LAST (l.conns slot).sub.untilSeq
    []).2 := by
    have notice : decide (MSG_OP_NOTIFY ≠ MSG_OP_REPL_DATA) = true := by decide
    have last : hasFlag MSG_FLAG_LAST MSG_FLAG_LAST = true := by decide
    refine replyFrame_course l slot ?_
    unfold Frame.plain
    rw [Bool.and_eq_true, Bool.and_eq_true, Bool.or_eq_true]
    refine ⟨⟨?_, notice⟩, .inr last⟩
    exact Bool.or_true _
  change ((reply l slot MSG_OP_NOTIFY MSG_FLAG_LAST (l.conns slot).sub.untilSeq []).2.conns
    slot).sub = _ at kept
  change (reply l slot MSG_OP_NOTIFY MSG_FLAG_LAST (l.conns slot).sub.untilSeq []).2.course = _ ∨
    ∃ session, (reply l slot MSG_OP_NOTIFY MSG_FLAG_LAST (l.conns slot).sub.untilSeq []).2.course =
      _ at replied
  generalize (reply l slot MSG_OP_NOTIFY MSG_FLAG_LAST (l.conns slot).sub.untilSeq []).2 = l1
    at kept replied told ⊢
  have closings : l1.course.closing = l.course.closing := by
    rcases replied with same | ⟨session, same⟩
    · rw [same]
    · rw [same]
      rfl
  have here : l1.course.sub slot = (l.conns slot).sub := kept
  generalize walCursorClose _ (l.conns slot).sub.cursor = closed
  have ended := @Course.Step.ended l1.course slot closed.1 (walDurableSeq l.wal)
    (by rw [closings]; exact stays) (by rw [here]; exact active) (by rw [here]; exact waiting)
    (by rw [here]; exact past)
  refine told.trans (.step ended ?_)
  rw [course_setSub, here]
  refine Course.ext ?_ rfl rfl rfl rfl rfl
  change update l1.course.sub slot { (l1.conns slot).sub with active := false, cursor := _ } = _
  rw [kept]

theorem subsPushOne_course (state : Loop × Nat) (slot : Nat) :
    Coursing state.1 (subsPushOne state slot).1 := by
  obtain ⟨l, durable⟩ := state
  unfold subsPushOne
  simp only
  split
  · exact .refl l
  · rename_i stays
    rw [not_or, Bool.not_eq_true (l.conns slot).closing] at stays
    split
    · rename_i waiting
      exact subsPushWaiting_course durable waiting
    · rename_i waiting
      rw [Bool.not_eq_true] at waiting
      split
      · exact .refl l
      · rename_i runs
        rw [not_or, not_not] at runs
        split
        · exact .refl l
        · have roomy : min (l.conns slot).room SCRATCH_LEN ≤ (l.conns slot).room := Nat.min_le_left _ _
          split
          · exact subsPushRead_course _ roomy stays.2 runs.1 waiting
          · split
            · rename_i past
              exact subsPushLast_course stays.2 runs.1 waiting past
            · refine Coursing.trans (@Coursing.tell l (.bounded slot (l.conns slot).sub) rfl) ?_
              exact @subsPushRead_course (l.note (.bounded slot (l.conns slot).sub)) slot
                (min (l.conns slot).room SCRATCH_LEN) _ roomy stays.2 runs.1 waiting

theorem subsPush_course (l : Loop) : Coursing l (subsPush l) := by
  have folded (slots : List Nat) (state : Loop × Nat) :
      Coursing state.1 (slots.foldl subsPushOne state).1 := by
    induction slots generalizing state with
    | nil => exact .refl _
    | cons slot rest ih => exact (subsPushOne_course state slot).trans (ih _)
  exact folded (List.range LOOP_MAX_CONNS) (l, walDurableSeq l.wal)

/-! ### Passes -/

theorem streamed_course (l : Loop) :
    Coursing l (if l.isFollower then streamReport l else replStream l) := by
  split
  · exact streamReport_course l
  · exact Coursing.foldl (replStreamOne_course (walDurableSeq l.wal)) (List.range LOOP_MAX_CONNS) l

theorem loopServe_course (l : Loop) : Coursing l (loopServe l) := by
  unfold loopServe
  simp only
  exact ((acksEmit_course l).trans (streamed_course _)).trans
    ((subsPush_course _).trans (retainPass_course _))

theorem slotRelease_course (l : Loop) (slot : Nat) : Coursing l (slotRelease l slot) := by
  have reset (l : Loop) : Coursing l ((slotReset l slot).note (.released slot)) := by
    refine .step (@Course.Step.released l.course slot) ?_
    unfold slotReset
    rw [course_note, course_setConn]
    rfl
  unfold slotRelease
  simp only
  split
  · exact .refl l
  · cases of : (l.conns slot).replica with
    | none =>
        cases (l.conns slot).sub.cursor.fd with
        | none => exact reset l
        | some fd => exact (reset { l with os := _ }).after rfl
    | some idx =>
        simp only
        unfold replicaRelease
        by_cases outside : LOOP_MAX_REPLICAS ≤ idx
        · rw [if_pos outside]
          cases (l.conns slot).sub.cursor.fd with
          | none => exact reset l
          | some fd => exact (reset { l with os := _ }).after rfl
        · rw [if_neg outside]
          simp only
          generalize walCursorClose l.os (l.peer idx).cursor = cleared
          have detached := @Course.Step.detached l.course slot idx cleared.1.nextSeq of
          have both := (Relation.ReflTransGen.single detached).tail
            (@Course.Step.released _ slot)
          have ends (l1 : Loop) (same : l1.course =
              ((({ l with os := cleared.2 }).setPeer idx ⟨false, 0, cleared.1⟩).note
                (.detached idx)).course) :
              Coursing l ((slotReset l1 slot).note (.released slot)) := by
            unfold Coursing slotReset
            rw [course_note, course_setConn, same, course_note, course_setPeer]
            refine (congrArg (Relation.ReflTransGen Course.Step l.course) ?_).mpr both
            refine Course.ext rfl rfl ?_ rfl rfl rfl
            exact (Function.update_idem ..).symm
          cases (l.conns slot).sub.cursor.fd with
          | none => exact ends _ rfl
          | some fd => exact ends _ rfl

theorem armConn_course (sends : Nat → SendAnswer) (l : Loop) (slot : Nat) :
    Coursing l (armConn sends l slot) := by
  unfold armConn
  split
  · exact .refl l
  · simp only
    have sent : Coursing l (if (l.conns slot).sendBuf ≠ [] ∧ ¬ (l.conns slot).wantOut = true then
        connSend l slot (sends slot) else l) := by
      split
      · exact connSend_course l slot _
      · exact .refl l
    refine sent.trans ?_
    generalize (if (l.conns slot).sendBuf ≠ [] ∧ ¬ (l.conns slot).wantOut = true then
      connSend l slot (sends slot) else l) = l1
    split
    · exact slotRelease_course l1 slot
    · have compacted : Coursing l1 (l1.setConn slot { l1.conns slot with
          conn := connCompact (l1.conns slot).conn }) := .aside rfl rfl (.inl rfl)
      refine compacted.trans ?_
      split
      · exact (close_course _ slot).trans (slotRelease_course _ slot)
      · exact .refl _

theorem armPhase_course (l : Loop) (arm : Arm) : Coursing l (armPhase l arm) := by
  unfold armPhase armConns
  refine (replDial_course l arm.dial).trans (Coursing.trans ?_ (armStream_course _ arm.stream))
  exact Coursing.foldl (armConn_course arm.sends) (List.range LOOP_MAX_CONNS) _

theorem armed_course (l : Loop) (pass : Pass) : Coursing l (l.armed pass) := by
  have entered : Coursing l (l.prepare pass) := .same rfl
  have armed := entered.trans (armPhase_course (l.prepare pass) pass.arm)
  unfold Loop.armed
  generalize armPhase (l.prepare pass) pass.arm = l1 at armed ⊢
  exact armed.before rfl

theorem loopDispatch_course (l : Loop) (events : List Event) :
    Coursing l (loopDispatch l events) := by
  have handled : Coursing { l with walDirty := false } (loopDispatch l events) :=
    Coursing.foldl tickEvent_course events _
  exact handled.after rfl

/-- Every moment of a pass is on the course. -/
theorem moment_course {m : Loop} {fails : Nat → Prop} {pass : Pass}
    (moment : Moment l pass m fails) : Coursing l m := by
  have met (events : List Event) : Coursing l (loopDispatch (l.armed pass) events) :=
    (armed_course l pass).trans (loopDispatch_course _ events)
  have flushes {events : List Event} {res : Except Err Unit} {l1 : Loop}
      (flush : loopFlush (loopDispatch (l.armed pass) events) = (res, l1)) : Coursing l l1 := by
    have flushed := loopFlush_course (loopDispatch (l.armed pass) events)
    rw [flush] at flushed
    exact (met events).trans flushed
  cases moment with
  | begins => exact .refl l
  | armed => exact armed_course l pass
  | met waits => exact met _
  | flushed waits flush => exact flushes flush
  | swept waits flush => exact (flushes flush).trans (acksEmit_course _)
  | streamed waits flush =>
      exact ((flushes flush).trans (acksEmit_course _)).trans (streamed_course _)
  | served waits flush => exact (flushes flush).trans (loopServe_course _)
  | rearmed waits flush =>
      exact ((flushes flush).trans (loopServe_course _)).trans (armPhase_course _ _)

theorem loopPass_course (l : Loop) (pass : Pass) : Coursing l (loopPass l pass) := by
  rcases loopPass_ends l pass with ⟨m, fails, moment, ended⟩ | ⟨events, l1, waits, flushes, ended⟩
  · rw [ended]
    exact (moment_course moment).before rfl
  · rw [ended]
    exact moment_course (.rearmed waits flushes)

/-- **Every run of the node takes only these steps.** -/
theorem running_course {config : Config} (running : Running config l) :
    ∃ start, Started config start ∧ Coursing start l := by
  unfold Running at running
  induction running with
  | start started => exact ⟨_, started, .refl _⟩
  | next before pass admitted moves ih =>
      obtain ⟨start, started, course⟩ := ih
      obtain ⟨_going, _possible, rfl⟩ := moves
      exact ⟨start, started, course.trans (loopPass_course _ pass)⟩

end Msgsrvd

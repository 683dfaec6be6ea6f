/-
What most of the loop leaves alone: the log, how it is kept, and which connection is
which replica's.
-/

import Msgsrvd.Server.Refines

namespace Msgsrvd

open Bytestring

variable {l l' l'' : Loop} {slot : Nat} {c : LoopConn}

/-- What retention goes by, and how much it has removed. -/
def Loop.settings (l : Loop) : Nat × Nat × Nat × Bool × Nat :=
  (l.retainSegments, l.replicasWant, l.retainSeenSegs, l.retainFailed, l.counts.retainRemoved)

/-- Whose a connection is, and what it sends from. -/
structure Owner where
  inUse : Bool
  replica : Option Nat
  sendFrom : Option Nat
  sendCap : Nat

def LoopConn.owner (c : LoopConn) : Owner := ⟨c.inUse, c.replica, c.sendFrom, c.sendCap⟩

structure Standing where
  live : Bool
  durable : Nat

def LoopPeer.standing (p : LoopPeer) : Standing := ⟨p.live, p.durable⟩

/-- Who owns the replica slots. -/
structure Owners where
  conn : Nat → Owner
  peer : Nat → Standing

def Loop.owners (l : Loop) : Owners :=
  ⟨fun slot => (l.conns slot).owner, fun idx => (l.peer idx).standing⟩

structure Beside (l l' : Loop) : Prop where
  wal : l'.wal = l.wal
  settings : l'.settings = l.settings
  owners : l'.owners = l.owners

theorem Beside.refl (l : Loop) : Beside l l := ⟨rfl, rfl, rfl⟩

theorem Beside.trans (left : Beside l l') (right : Beside l' l'') : Beside l l'' :=
  ⟨right.wal.trans left.wal, right.settings.trans left.settings,
    right.owners.trans left.owners⟩

/-- From a loop that has the same of all this. -/
theorem Beside.after (beside : Beside l' l'') (wal : l'.wal = l.wal)
    (settings : l'.settings = l.settings) (owners : l'.owners = l.owners) : Beside l l'' :=
  Beside.trans ⟨wal, settings, owners⟩ beside

/-- To a loop that has the same of all this. -/
theorem Beside.before (beside : Beside l l') (wal : l''.wal = l'.wal)
    (settings : l''.settings = l'.settings) (owners : l''.owners = l'.owners) : Beside l l'' :=
  beside.trans ⟨wal, settings, owners⟩

theorem Beside.foldl {α : Type} {f : Loop → α → Loop} (each : ∀ l a, Beside l (f l a))
    (items : List α) (l : Loop) : Beside l (items.foldl f l) := by
  induction items generalizing l with
  | nil => exact .refl l
  | cons item rest ih => exact (each l item).trans (ih (f l item))

theorem owners_setConn (same : c.owner = (l.conns slot).owner) :
    (l.setConn slot c).owners = l.owners := by
  unfold Loop.owners Loop.setConn
  congr 1
  funext other
  by_cases at_slot : other = slot
  · simp only [at_slot, if_true]
    exact same
  · simp only [if_neg at_slot]

theorem owners_setPeer {idx : Nat} {p : LoopPeer} (same : p.standing = (l.peer idx).standing) :
    (l.setPeer idx p).owners = l.owners := by
  unfold Loop.owners Loop.setPeer
  congr 1
  funext other
  by_cases at_idx : other = idx
  · simp only [at_idx, if_true]
    exact same
  · simp only [if_neg at_idx]

theorem Beside.put (same : c.owner = (l.conns slot).owner) : Beside l (l.setConn slot c) :=
  ⟨rfl, rfl, owners_setConn same⟩

theorem Beside.putNote {note : Note} (same : c.owner = (l.conns slot).owner) :
    Beside l ((l.setConn slot c).note note) := ⟨rfl, rfl, owners_setConn same⟩

theorem Beside.tell (l : Loop) (note : Note) : Beside l (l.note note) := ⟨rfl, rfl, rfl⟩

/-! ### Replies -/

theorem replyFrame_beside (l : Loop) (slot : Nat) (frame : Frame) :
    Beside l (replyFrame l slot frame).2 := by
  unfold replyFrame
  simp only
  split
  · exact .refl l
  · simp only
    exact .putNote rfl

theorem reply_beside (l : Loop) (slot op flags sequence : Nat) (payload : Bytes) :
    Beside l (reply l slot op flags sequence payload).2 := replyFrame_beside l slot _

theorem replyAck_beside (l : Loop) (slot flags sequence clientSeq : Nat) :
    Beside l (replyAck l slot flags sequence clientSeq).2 := replyFrame_beside l slot _

theorem replyErrText_beside (l : Loop) (slot code sequence : Nat) (text : Bytes) :
    Beside l (replyErrText l slot code sequence text).2 := replyFrame_beside l slot _

theorem replyErr_beside (l : Loop) (slot code sequence : Nat) :
    Beside l (replyErr l slot code sequence) := replyFrame_beside l slot _

theorem close_beside (l : Loop) (slot : Nat) : Beside l (l.close slot) := .put rfl

theorem replyErr_close_beside (l : Loop) (slot code sequence : Nat) :
    Beside l ((replyErr l slot code sequence).close slot) :=
  (replyErr_beside l slot code sequence).trans (close_beside _ slot)

theorem setSub_beside (l : Loop) (slot : Nat) (sub : LoopSub) : Beside l (l.setSub slot sub) :=
  .put rfl

theorem setSub_os_beside (l : Loop) (os : Os) (slot : Nat) (sub : LoopSub) :
    Beside l ({ l with os := os }.setSub slot sub) :=
  (setSub_beside { l with os := os } slot sub).after rfl rfl rfl

/-! ### The handshake and writes -/

theorem greet_beside (l : Loop) (slot : Nat) (s : Session) : Beside l (greet l slot s) := by
  unfold greet
  simp only
  have joined : Beside l ((l.setConn slot { l.conns slot with session := s.id }).note
      (.joined slot s.id)) := .putNote rfl
  exact joined.trans (replyAck_beside _ slot _ _ _)

theorem handleHello_beside (l : Loop) (slot : Nat) (h : MsgHeader) (payload : Bytes) :
    Beside l (handleHello l slot h payload) := by
  unfold handleHello
  simp only
  split
  · exact replyErr_close_beside l slot _ _
  · split
    · split
      · exact (replyErr_close_beside _ slot _ _).after rfl rfl rfl
      · exact (greet_beside _ slot _).after rfl rfl rfl
    · split
      · exact replyErr_beside l slot _ _
      · exact greet_beside l slot _

theorem ackWrite_beside (l : Loop) (slot ackFlags : Nat) (wantsRepl degradable : Bool)
    (clientSeq walSeq : Nat) :
    Beside l (ackWrite l slot ackFlags wantsRepl degradable clientSeq walSeq) := by
  unfold ackWrite
  simp only
  split
  · exact .put rfl
  · split
    · have owed : Beside l (l.setConn slot { l.conns slot with
          ackLocal := ackStage (l.conns slot).ackLocal (ackFlags ||| MSG_FLAG_DEGRADED) true
            clientSeq walSeq 0 }) := .put rfl
      exact owed.before rfl rfl rfl
    · exact .put rfl

theorem wrote_beside (l : Loop) (slot : Nat) (h : MsgHeader) (fate : Fate) :
    Beside l (l.wrote slot h fate) := .tell l _

theorem flushes_beside (l : Loop) (rollover : Bool) : Beside l (l.flushes rollover) := by
  unfold Loop.flushes
  split
  · exact .refl l
  · exact .tell l _

theorem refuseWrite_beside (l : Loop) (slot : Nat) (h : MsgHeader) (code : Nat) (text : Bytes) :
    Beside l (refuseWrite l slot h code text) :=
  (wrote_beside l slot h _).trans (replyErrText_beside _ slot _ _ _)

theorem resendWrite_beside (l : Loop) (slot : Nat) (h : MsgHeader) (mark : Nat) :
    Beside l (resendWrite l slot h mark) := by
  unfold resendWrite
  simp only
  split
  · exact (wrote_beside l slot h _).trans (ackWrite_beside _ slot _ _ _ _ _)
  · exact wrote_beside l slot h _

theorem storedWrite_beside (l : Loop) (slot : Nat) (h : MsgHeader) (r : WalRec) :
    Beside l (storedWrite l slot h r) := by
  unfold storedWrite
  simp only
  split
  · exact (ackWrite_beside _ slot _ _ _ _ _).after rfl rfl rfl
  · exact ⟨rfl, rfl, rfl⟩

/-! ### Subscriptions and reads -/

theorem subSeek_beside (l : Loop) (slot fromSeq : Nat) : Beside l (subSeek l slot fromSeq).2 :=
  setSub_os_beside l _ slot _

theorem armTimerNow_beside (l : Loop) : Beside l (armTimerNow l) := by
  unfold armTimerNow
  split
  · exact .refl l
  · exact ⟨rfl, rfl, rfl⟩

theorem subWait_beside (l : Loop) (slot : Nat) : Beside l (subWait l slot) :=
  (setSub_beside l slot _).trans (armTimerNow_beside _)

theorem subAnswer_beside (l : Loop) (slot sequence : Nat) :
    Beside l (subAnswer l slot sequence) :=
  (reply_beside l slot _ _ _ _).trans (.tell _ _)

theorem subStart_beside (l : Loop) (slot sequence : Nat) : Beside l (subStart l slot sequence) :=
  (setSub_beside l slot _).trans (subAnswer_beside _ slot sequence)

theorem handleSubscribe_beside (l : Loop) (slot : Nat) (h : MsgHeader) (payload : Bytes) :
    Beside l (handleSubscribe l slot h payload) := by
  unfold handleSubscribe
  simp only
  cases msgDecodeSubscribe payload with
  | none => exact replyErr_close_beside l slot _ _
  | some req =>
      simp only
      split
      · exact replyErr_beside l slot _ _
      · refine (Beside.tell l (.asked slot MSG_OP_SUBSCRIBE req.minSeq (walDurableSeq l.wal)
          true)).trans ?_
        generalize l.note _ = l1
        generalize (if hasFlag h.flags MSG_FLAG_ALL_KEYS = true then _ else _ : Nat) = fromSeq
        have seek := subSeek_beside l1 slot fromSeq
        cases sought : subSeek l1 slot fromSeq with
        | mk res l2 =>
            rw [sought] at seek
            refine seek.trans ?_
            cases res with
            | error e => exact replyErr_beside l2 slot _ _
            | ok done =>
                simp only
                generalize ({ (l2.conns slot).sub with
                  key := h.partitionKey
                  allKeys := hasFlag h.flags MSG_FLAG_ALL_KEYS
                  minSeq := req.minSeq } : LoopSub) = sub
                refine (setSub_beside l2 slot sub).trans ?_
                split
                · exact subWait_beside _ slot
                · exact subStart_beside _ slot _

theorem readFrom_beside (l : Loop) (slot : Nat) (h : MsgHeader) (minSeq fromSeq untilSeq : Nat) :
    Beside l (readFrom l slot h minSeq fromSeq untilSeq) := by
  unfold readFrom
  simp only
  refine (setSub_beside l slot { (l.conns slot).sub with untilSeq := untilSeq }).trans ?_
  generalize l.setSub slot { (l.conns slot).sub with untilSeq := untilSeq } = l1
  have seek := subSeek_beside l1 slot fromSeq
  cases sought : subSeek l1 slot fromSeq with
  | mk res l2 =>
      rw [sought] at seek
      refine seek.trans ?_
      cases res with
      | error e => exact replyErr_beside l2 slot _ _
      | ok done =>
          simp only
          split
          · exact subWait_beside l2 slot
          · exact subStart_beside l2 slot _

theorem handleRead_beside (l : Loop) (slot : Nat) (h : MsgHeader) (payload : Bytes) :
    Beside l (handleRead l slot h payload) := by
  unfold handleRead
  simp only
  cases msgDecodeRead payload with
  | none => exact replyErr_close_beside l slot _ _
  | some minSeq =>
      simp only
      split
      · exact replyErr_beside l slot _ _
      · generalize (hasFlag h.flags MSG_FLAG_ALL_KEYS || (walIndexRange l.wal.index
          h.partitionKey (walFirstSeq l.wal)).isSome || !walIndexComplete l.wal.index) = known
        refine (Beside.tell l (.asked slot MSG_OP_READ minSeq (walDurableSeq l.wal)
          known)).trans ?_
        generalize l.note (.asked slot MSG_OP_READ minSeq (walDurableSeq l.wal) known) = l1
        generalize ({ (l.conns slot).sub with
          key := h.partitionKey
          allKeys := hasFlag h.flags MSG_FLAG_ALL_KEYS
          minSeq := minSeq
          once := true
          untilSeq := walDurableSeq l.wal } : LoopSub) = sub
        refine (setSub_beside l1 slot sub).trans ?_
        generalize l1.setSub slot sub = l2
        split
        · exact readFrom_beside l2 slot h _ _ _
        · split
          · exact readFrom_beside l2 slot h _ _ _
          · split
            · exact (setSub_beside l2 slot _).trans (subStart_beside _ slot 0)
            · exact readFrom_beside l2 slot h _ _ _

theorem retainFloorUpdate_beside (l : Loop) : Beside l (retainFloorUpdate l) := by
  unfold retainFloorUpdate
  split
  · exact .refl l
  · simp only
    split
    · exact .refl l
    · split
      · exact ⟨rfl, rfl, rfl⟩
      · exact .refl l

/-! ### Sending -/

theorem connWantOut_beside (l : Loop) (slot : Nat) (want ctl : Bool) :
    Beside l (connWantOut l slot want ctl) := by
  unfold connWantOut
  simp only
  split
  · exact .refl l
  · split
    · exact close_beside l slot
    · exact .put rfl

theorem loopSendDone_beside (l : Loop) (slot : Nat) (res : Int) :
    Beside l (loopSendDone l slot res) := by
  unfold loopSendDone
  simp only
  split
  · exact .refl l
  · split
    · exact .put rfl
    · exact .put rfl

theorem connSend_beside (l : Loop) (slot : Nat) (answer : SendAnswer) :
    Beside l (connSend l slot answer) := by
  unfold connSend
  simp only
  split
  · exact (Beside.tell l _).trans (connWantOut_beside _ slot _ _)
  · exact (Beside.tell l _).trans
      ((loopSendDone_beside _ slot _).trans (connWantOut_beside _ slot _ _))

theorem doSend_beside (l : Loop) (slot : Nat) (answer : SendAnswer) :
    Beside l (doSend l slot answer) := by
  unfold doSend
  simp only
  split
  · exact .refl l
  · split
    · exact connWantOut_beside l slot _ _
    · exact connSend_beside l slot answer

/-! ### The follower's stream -/

theorem closeStream_beside (l : Loop) : Beside l l.closeStream := ⟨rfl, rfl, rfl⟩

theorem streamFrame_beside (l : Loop) (op sequence : Nat) :
    Beside l (streamFrame l op sequence) := by
  unfold streamFrame
  split
  · exact .refl l
  · exact ⟨rfl, rfl, rfl⟩

theorem streamWantOut_beside (l : Loop) (want ctl : Bool) :
    Beside l (streamWantOut l want ctl) := by
  unfold streamWantOut
  split
  · exact .refl l
  · split
    · exact closeStream_beside l
    · exact ⟨rfl, rfl, rfl⟩

theorem streamSend_beside (l : Loop) (answer : SendAnswer) : Beside l (streamSend l answer) := by
  unfold streamSend
  simp only
  split
  · exact (Beside.tell l _).trans (streamWantOut_beside _ _ _)
  · refine Beside.trans ?_ (streamWantOut_beside _ _ _)
    unfold onReplSend
    split
    · exact (Beside.tell l _).trans (closeStream_beside _)
    · exact ⟨rfl, rfl, rfl⟩

theorem doReplSend_beside (l : Loop) (answer : SendAnswer) : Beside l (doReplSend l answer) := by
  unfold doReplSend
  split
  · exact .refl l
  · split
    · exact streamWantOut_beside l _ _
    · exact streamSend_beside l answer

theorem onReplDial_beside (l : Loop) (connected ctl : Bool) :
    Beside l (onReplDial l connected ctl) := by
  unfold onReplDial
  simp only
  split
  · exact ⟨rfl, rfl, rfl⟩
  · split
    · exact ⟨rfl, rfl, rfl⟩
    · exact (streamFrame_beside _ _ _).after rfl rfl rfl

theorem streamReport_beside (l : Loop) : Beside l (streamReport l) := by
  unfold streamReport
  split
  · exact .refl l
  · split
    · exact .refl l
    · split
      · exact .refl l
      · exact (streamFrame_beside l _ _).before rfl rfl rfl

theorem replDial_beside (l : Loop) (answer : DialAnswer) : Beside l (replDial l answer) := by
  unfold replDial
  split
  · exact .refl l
  · split
    · exact .refl l
    · split
      · exact .refl l
      · cases answer with
        | connected ctl => exact (onReplDial_beside _ _ _).after rfl rfl rfl
        | refused => exact (onReplDial_beside _ _ _).after rfl rfl rfl
        | noSocket => exact ⟨rfl, rfl, rfl⟩
        | noWatch => exact ⟨rfl, rfl, rfl⟩
        | inProgress => exact ⟨rfl, rfl, rfl⟩

theorem armStream_beside (l : Loop) (answer : SendAnswer) : Beside l (armStream l answer) := by
  unfold armStream streamRelease
  simp only
  split
  · exact .refl l
  · split
    · split
      · exact .refl l
      · exact ⟨rfl, rfl, rfl⟩
    · have sent : Beside l (if l.stream.sendBuf ≠ [] ∧ ¬ l.stream.wantOut = true then
          streamSend l answer else l) := by
        split
        · exact streamSend_beside l answer
        · exact .refl l
      refine sent.trans ?_
      generalize (if l.stream.sendBuf ≠ [] ∧ ¬ l.stream.wantOut = true then
        streamSend l answer else l) = l1
      split
      · exact .refl l1
      · split
        · exact ⟨rfl, rfl, rfl⟩
        · exact ⟨rfl, rfl, rfl⟩

/-! ### What is served -/

theorem ackCount_beside (l : Loop) (flags : Nat) : Beside l (ackCount l flags) := by
  unfold ackCount
  split
  · exact ⟨rfl, rfl, rfl⟩
  · split
    · exact ⟨rfl, rfl, rfl⟩
    · exact ⟨rfl, rfl, rfl⟩

theorem settleRepl_beside (l : Loop) (slot : Nat) (refused : Bool) (flags room : Nat)
    (sent : Bool) : Beside l (settleRepl l slot refused flags room sent) := .putNote rfl

theorem emitLocal_beside (l : Loop) (slot : Nat) : Beside l (emitLocal l slot) := by
  unfold emitLocal
  simp only
  split
  · exact .refl l
  · have replied := (replyAck_beside l slot (l.conns slot).ackLocal.flags
      (l.conns slot).ackLocal.walSeq (l.conns slot).ackLocal.clientSeq).trans
        (ackCount_beside _ (l.conns slot).ackLocal.flags)
    exact replied.trans (.putNote rfl)

theorem emitRepl_beside (best : Nat) (live : Bool) (l : Loop) (slot : Nat) :
    Beside l (emitRepl best live l slot) := by
  unfold emitRepl
  simp only
  split
  · exact .refl l
  · split
    · exact ((replyAck_beside l slot _ _ _).trans (ackCount_beside _ _)).trans
        (settleRepl_beside _ _ _ _ _ _)
    · split
      · exact .refl l
      · split
        · refine Beside.trans ?_ (settleRepl_beside _ _ _ _ _ _)
          exact ((replyAck_beside l slot _ _ _).trans (ackCount_beside _ _)).before rfl rfl rfl
        · exact (replyErrText_beside l slot _ _ _).trans (settleRepl_beside _ _ _ _ _ _)

theorem acksEmit_beside (l : Loop) : Beside l (acksEmit l) := by
  have one (best : Nat) (live : Bool) (l : Loop) (slot : Nat) :
      Beside l (acksEmitOne best live l slot) := by
    unfold acksEmitOne
    split
    · exact .refl l
    · exact (emitLocal_beside l slot).trans (emitRepl_beside best live _ slot)
  exact (Beside.foldl (one (replBest l) (replLive l)) (List.range LOOP_MAX_CONNS) l).trans
    (.tell _ _)

theorem replStreamOne_beside (limit : Nat) (l : Loop) (slot : Nat) :
    Beside l (replStreamOne limit l slot) := by
  unfold replStreamOne
  simp only
  cases held : (l.conns slot).replica with
  | none => exact .refl l
  | some idx =>
      simp only
      split
      · exact .refl l
      · cases walCursorRead l.os l.wal (l.peer idx).cursor limit
            ((l.conns slot).sendCap - MSG_HEADER_SIZE) with
        | mk res rest =>
            obtain ⟨cursor, os⟩ := rest
            have moved : Beside l
                (({ l with os := os }).setPeer idx { l.peer idx with cursor := cursor }) :=
              ⟨rfl, rfl, owners_setPeer rfl⟩
            cases res with
            | error e => exact moved.trans (close_beside _ slot)
            | ok bytes =>
                simp only
                split
                · exact moved
                · exact moved.trans (Beside.after (.putNote (by rw [← held]; rfl)) rfl rfl rfl)

theorem replStream_beside (l : Loop) : Beside l (replStream l) :=
  Beside.foldl (replStreamOne_beside (walDurableSeq l.wal)) (List.range LOOP_MAX_CONNS) l

theorem pushRecords_beside (slot : Nat) (buf : Bytes) (fuel : Nat) (l : Loop) (at' : Nat) :
    Beside l (pushRecords slot buf fuel l at') := by
  induction fuel generalizing l at' with
  | zero => exact .refl l
  | succ fuel ih =>
      unfold pushRecords
      split
      · split
        · exact .refl l
        · simp only
          split
          · exact .refl l
          · split
            · exact ((replyFrame_beside l slot _).trans (.tell _ _)).trans (ih _ _)
            · exact ih l _
      · exact .refl l

theorem subsPushRead_beside (limit room : Nat) (l : Loop) (slot : Nat) :
    Beside l (subsPushRead limit room l slot) := by
  unfold subsPushRead
  simp only
  cases walCursorRead l.os l.wal (l.conns slot).sub.cursor limit room with
  | mk res rest =>
      obtain ⟨cursor, os⟩ := rest
      have moved := setSub_os_beside l os slot { (l.conns slot).sub with cursor := cursor }
      cases res with
      | error e => exact moved.trans (replyErr_close_beside _ slot _ _)
      | ok got =>
          simp only
          split
          · exact moved.trans (pushRecords_beside slot _ _ _ _)
          · exact moved.trans ((pushRecords_beside slot _ _ _ _).after rfl rfl rfl)

theorem subsPushWaiting_beside (durable : Nat) (l : Loop) (slot : Nat) :
    Beside l (subsPushWaiting durable l slot) := by
  unfold subsPushWaiting
  simp only
  split
  · exact ((setSub_beside l slot _).trans (subAnswer_beside _ slot _)).before rfl rfl rfl
  · split
    · have refused := (setSub_beside l slot { (l.conns slot).sub with waiting := false }).trans
        (replyErr_beside _ slot MSG_ERR_BEHIND (l.conns slot).sub.minSeq)
      exact refused.trans ((Beside.tell _ _).trans (setSub_os_beside _ _ slot _))
    · exact .refl l

theorem subsPushLast_beside (l : Loop) (slot : Nat) : Beside l (subsPushLast l slot) := by
  unfold subsPushLast
  simp only
  exact ((reply_beside l slot _ _ _ _).trans (.tell _ _)).trans (setSub_os_beside _ _ slot _)

theorem subsPush_beside (l : Loop) : Beside l (subsPush l) := by
  have one (state : Loop × Nat) (slot : Nat) : Beside state.1 (subsPushOne state slot).1 := by
    obtain ⟨l, durable⟩ := state
    unfold subsPushOne
    simp only
    split
    · exact .refl l
    · split
      · exact subsPushWaiting_beside durable l slot
      · split
        · exact .refl l
        · split
          · exact .refl l
          · split
            · exact subsPushRead_beside _ _ l slot
            · split
              · exact subsPushLast_beside l slot
              · exact (Beside.tell l _).trans (subsPushRead_beside _ _ _ slot)
  have folded (slots : List Nat) (state : Loop × Nat) :
      Beside state.1 (slots.foldl subsPushOne state).1 := by
    induction slots generalizing state with
    | nil => exact .refl _
    | cons slot rest ih => exact (one state slot).trans (ih _)
  exact folded (List.range LOOP_MAX_CONNS) (l, walDurableSeq l.wal)

/-! ### Frames -/

/-- Only a write reaches the log, and only a replica's own frames its slot. -/
theorem handleFrame_beside {h : MsgHeader} (write : h.op ≠ MSG_OP_WRITE)
    (start : h.op ≠ MSG_OP_REPL_START) (ack : h.op ≠ MSG_OP_REPL_ACK) (l : Loop) (slot : Nat)
    (payload : Bytes) : Beside l (handleFrame l slot h payload) := by
  unfold handleFrame
  rw [if_neg write, if_neg start, if_neg ack]
  split
  · exact handleHello_beside l slot h payload
  · split
    · exact reply_beside l slot _ _ _ _
    · split
      · exact handleSubscribe_beside l slot h payload
      · split
        · exact handleRead_beside l slot h payload
        · split
          · exact replyErr_beside l slot _ _
          · exact replyErr_close_beside l slot _ _

/-- What is served before retention looks at the log. -/
theorem served_beside (l : Loop) :
    Beside l (subsPush (if (acksEmit l).isFollower then streamReport (acksEmit l)
      else replStream (acksEmit l))) := by
  refine (acksEmit_beside l).trans (Beside.trans ?_ (subsPush_beside _))
  split
  · exact streamReport_beside _
  · exact replStream_beside _

end Msgsrvd

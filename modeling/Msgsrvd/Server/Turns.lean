/-
One connection at a time: what any step of the loop does to a slot and to the history.

The other slots see the notes of a step and nothing else of it.
-/

import Msgsrvd.Server.Serving

namespace Msgsrvd

open Bytestring

variable {may : Nat → Prop} {l l' l'' : Loop} {slot : Nat} {c c' : LoopConn} {t : List Note}

/-! ### Turns of a connection -/

/-- What a note presupposes of a connection; some notes come only with a change to it. -/
def Note.suits (slot : Nat) (c : LoopConn) : Note → Prop
  | .asked other _ _ _ _ => other = slot → c.sub.Idle
  | .began other _ _ => other = slot → c.sub.active = true ∧ c.sub.waiting = false
  | .ended other _ _ => other = slot → c.sub.once = true
  | .bounded other _ => other = slot → c.sub.once = true
  | .opened other => other ≠ slot
  | .released other => other ≠ slot
  | .staged other _ _ => other ≠ slot
  | .attached other _ _ => other ≠ slot
  | .handed other _ _ _ => other ≠ slot
  | _ => True

/-- A READ is what has just been asked. -/
def readsNow (slot : Nat) (t : List Note) : Prop :=
  ∃ minSeq durable known earlier, t = .asked slot MSG_OP_READ minSeq durable known :: earlier

/-- Only a READ makes a stream end, and only a stream that ends stops running. -/
structure LoopSub.Turns (slot : Nat) (t : List Note) (sub sub' : LoopSub) : Prop where
  once : sub'.once = true → sub.once = true ∨ readsNow slot t
  runs : sub.active = true → sub.waiting = false → sub.once = false →
    sub'.active = true ∧ sub'.waiting = false

/-- Nothing that bears on what is sent or streamed. -/
structure LoopConn.Aside (c c' : LoopConn) : Prop where
  inUse : c'.inUse = c.inUse
  sendBuf : c'.sendBuf = c.sendBuf
  sendCap : c'.sendCap = c.sendCap
  sub : c'.sub = c.sub
  closing : c.closing = true → c'.closing = true

/-- One change to a connection, with the note it leaves.  `may` is whether a send may fail. -/
inductive Turn (may : Prop) (slot : Nat) :
    LoopConn × List Note → LoopConn × List Note → Prop where
  | aside {c c' : LoopConn} {t : List Note} (same : c.Aside c') : Turn may slot (c, t) (c', t)
  | noted {c : LoopConn} {t : List Note} {note : Note} (suits : note.suits slot c) :
      Turn may slot (c, t) (c, note :: t)
  | tuned {c : LoopConn} {t : List Note} {sub : LoopSub} (turns : c.sub.Turns slot t sub) :
      Turn may slot (c, t) ({ c with sub := sub }, t)
  | opened {c : LoopConn} {t : List Note} :
      Turn may slot (c, t)
        ({ slotEmpty with inUse := true, conn := connInit LOOP_RECV_CAP .client },
          .opened slot :: t)
  | released {c : LoopConn} {t : List Note} :
      Turn may slot (c, t) (slotEmpty, .released slot :: t)
  | staged {c : LoopConn} {t : List Note} {session : Nat} {frame : Frame}
      (room : c.sendBuf.length + frame.bytes.length ≤ c.sendCap)
      (length : frame.header.payloadLen = frame.payload.length) :
      Turn may slot (c, t)
        ({ c with sendBuf := c.sendBuf ++ frame.bytes }, .staged slot session frame :: t)
  | switched {c : LoopConn} {t : List Note} {idx sequence : Nat} (empty : c.sendBuf = []) :
      Turn may slot (c, t)
        ({ c with
          replica := some idx, sendBuf := [], sendCap := LOOP_REPL_CAP, sendFrom := some idx },
          .attached slot idx sequence :: t)
  | took {c : LoopConn} {t : List Note} {durable : Nat} (n : Nat) :
      Turn may slot (c, t)
        ({ c with sendBuf := c.sendBuf.drop n },
          .handed slot durable c.sendBuf (min n c.sendBuf.length) :: t)
  | broke {c : LoopConn} {t : List Note} {durable : Nat} (fails : may) :
      Turn may slot (c, t)
        ({ c with closing := true, sendBuf := [] }, .handed slot durable c.sendBuf 0 :: t)

def Turns (may : Prop) (slot : Nat) : LoopConn × List Note → LoopConn × List Note → Prop :=
  Relation.ReflTransGen (Turn may slot)

/-- Every slot takes turns. -/
def Turning (may : Nat → Prop) (l l' : Loop) : Prop :=
  ∀ slot, Turns (may slot) slot (l.conns slot, l.trace) (l'.conns slot, l'.trace)

theorem Turning.of_same (conns : l'.conns = l.conns) (trace : l'.trace = l.trace) :
    Turning may l l' := by
  intro slot
  rw [conns, trace]
  exact Relation.ReflTransGen.refl

theorem Turning.refl (l : Loop) : Turning may l l := .of_same rfl rfl

theorem Turning.trans (left : Turning may l l') (right : Turning may l' l'') :
    Turning may l l'' :=
  fun slot => (left slot).trans (right slot)

/-- From a loop with the same connections and history. -/
theorem Turning.after (turning : Turning may l' l'') (conns : l'.conns = l.conns)
    (trace : l'.trace = l.trace) : Turning may l l'' :=
  (Turning.of_same conns trace).trans turning

/-- To a loop with the same connections and history. -/
theorem Turning.before (turning : Turning may l l') (conns : l''.conns = l'.conns)
    (trace : l''.trace = l'.trace) : Turning may l l'' :=
  turning.trans (.of_same conns trace)

theorem Turning.foldl {α : Type} {f : Loop → α → Loop} (each : ∀ l a, Turning may l (f l a))
    (items : List α) (l : Loop) : Turning may l (items.foldl f l) := by
  induction items generalizing l with
  | nil => exact .refl l
  | cons item rest ih => exact (each l item).trans (ih (f l item))

/-- One slot takes a turn that leaves no note. -/
theorem Turning.put (turn : Turn (may slot) slot (l.conns slot, l.trace) (c, l.trace)) :
    Turning may l (l.setConn slot c) := by
  intro other
  unfold Loop.setConn
  by_cases same : other = slot
  · rw [same]
    simp only [if_true]
    exact Relation.ReflTransGen.single turn
  · simp only [if_neg same]
    exact Relation.ReflTransGen.refl

/-- One slot takes a turn, and the others see its note. -/
theorem Turning.putNote {note : Note}
    (turn : Turn (may slot) slot (l.conns slot, l.trace) (c, note :: l.trace))
    (others : ∀ other, other ≠ slot → note.suits other (l.conns other)) :
    Turning may l ((l.setConn slot c).note note) := by
  intro other
  unfold Loop.note Loop.setConn
  by_cases same : other = slot
  · rw [same]
    simp only [if_true]
    exact Relation.ReflTransGen.single turn
  · simp only [if_neg same]
    exact Relation.ReflTransGen.single (.noted (others other same))

theorem Turning.tell {note : Note} (suits : ∀ slot, note.suits slot (l.conns slot)) :
    Turning may l (l.note note) :=
  fun slot => Relation.ReflTransGen.single (.noted (suits slot))

theorem Turning.aside (same : (l.conns slot).Aside c) : Turning may l (l.setConn slot c) :=
  .put (.aside same)

theorem LoopConn.Aside.refl (c : LoopConn) : c.Aside c := ⟨rfl, rfl, rfl, rfl, id⟩

/-! ### Replies -/

theorem frame_length (frame : Frame) :
    frame.bytes.length = MSG_HEADER_SIZE + frame.payload.length := by
  unfold Frame.bytes
  rw [List.length_append, length_msgEncodeHeader]

theorem replyFrame_turns (l : Loop) (slot : Nat) {frame : Frame}
    (length : frame.header.payloadLen = frame.payload.length) :
    Turning may l (replyFrame l slot frame).2 := by
  unfold replyFrame
  simp only
  split
  · exact .refl l
  · rename_i room
    refine .putNote (.staged ?_ length) (fun other differ => Ne.symm differ)
    rw [frame_length]
    have header : 0 < MSG_HEADER_SIZE := by decide
    unfold LoopConn.room at room
    omega

theorem reply_turns (l : Loop) (slot op flags sequence : Nat) (payload : Bytes) :
    Turning may l (reply l slot op flags sequence payload).2 := replyFrame_turns l slot rfl

theorem replyAck_turns (l : Loop) (slot flags sequence clientSeq : Nat) :
    Turning may l (replyAck l slot flags sequence clientSeq).2 := replyFrame_turns l slot rfl

theorem replyErrText_turns (l : Loop) (slot code sequence : Nat) (text : Bytes) :
    Turning may l (replyErrText l slot code sequence text).2 := replyFrame_turns l slot rfl

theorem replyErr_turns (l : Loop) (slot code sequence : Nat) :
    Turning may l (replyErr l slot code sequence) := replyFrame_turns l slot rfl

theorem close_turns (l : Loop) (slot : Nat) : Turning may l (l.close slot) :=
  .aside ⟨rfl, rfl, rfl, rfl, fun _ => rfl⟩

theorem replyErr_close_turns (l : Loop) (slot code sequence : Nat) :
    Turning may l ((replyErr l slot code sequence).close slot) :=
  (replyErr_turns l slot code sequence).trans (close_turns _ slot)

theorem setSub_turns {sub : LoopSub} (turns : (l.conns slot).sub.Turns slot l.trace sub) :
    Turning may l (l.setSub slot sub) :=
  .put (.tuned turns)

/-! ### The handshake and writes -/

theorem greet_turns (l : Loop) (slot : Nat) (s : Session) : Turning may l (greet l slot s) := by
  unfold greet
  have bound : Turning may l (l.setConn slot { l.conns slot with session := s.id }) :=
    .aside ⟨rfl, rfl, rfl, rfl, id⟩
  have joined := bound.trans (@Turning.tell may _ (.joined slot s.id) (fun _ => trivial))
  exact joined.trans (replyAck_turns _ slot _ _ _)

theorem handleHello_turns (l : Loop) (slot : Nat) (h : MsgHeader) (payload : Bytes) :
    Turning may l (handleHello l slot h payload) := by
  unfold handleHello
  simp only
  split
  · exact replyErr_close_turns l slot _ _
  · split
    · split
      · exact (replyErr_close_turns _ slot _ _).after rfl rfl
      · rename_i s sessions draws created
        have drawn := @Turning.tell may { l with sessions := sessions, draws := draws }
          (.drew s.id (walFirstSeq l.wal)) (fun _ => trivial)
        exact (drawn.after rfl rfl).trans (greet_turns _ slot _)
    · split
      · exact replyErr_turns l slot _ _
      · exact greet_turns l slot _

theorem ackWrite_turns (l : Loop) (slot ackFlags : Nat) (wantsRepl degradable : Bool)
    (clientSeq walSeq : Nat) :
    Turning may l (ackWrite l slot ackFlags wantsRepl degradable clientSeq walSeq) := by
  unfold ackWrite
  simp only
  split
  · exact .aside ⟨rfl, rfl, rfl, rfl, id⟩
  · split
    · have owed : Turning may l (l.setConn slot { l.conns slot with
          ackLocal := ackStage (l.conns slot).ackLocal (ackFlags ||| MSG_FLAG_DEGRADED) true
            clientSeq walSeq 0 }) := .aside ⟨rfl, rfl, rfl, rfl, id⟩
      exact owed.before rfl rfl
    · exact .aside ⟨rfl, rfl, rfl, rfl, id⟩

theorem flushes_turns (l : Loop) (rollover : Bool) : Turning may l (l.flushes rollover) := by
  unfold Loop.flushes
  split
  · exact .refl l
  · exact .tell (fun _ => trivial)

theorem logAppend_turns (l : Loop) (r : WalRec) (payload : Bytes) :
    Turning may l (logAppend l r payload).2 := by
  unfold logAppend
  simp only
  split
  · exact (flushes_turns l true).before rfl rfl
  · exact .of_same rfl rfl

theorem logAppendAt_turns (l : Loop) (r : WalRec) (payload : Bytes) :
    Turning may l (logAppendAt l r payload).2 := by
  unfold logAppendAt
  simp only
  split
  · exact (flushes_turns l true).before rfl rfl
  · exact .of_same rfl rfl

theorem handleWrite_turns (l : Loop) (slot : Nat) (h : MsgHeader) (payload : Bytes) :
    Turning may l (handleWrite l slot h payload) := by
  have wrote (l : Loop) (fate : Fate) : Turning may l (l.wrote slot h fate) :=
    .tell (fun _ => trivial)
  have refused (l : Loop) (code : Nat) (text : Bytes) :
      Turning may l (refuseWrite l slot h code text) :=
    (wrote l _).trans (replyErrText_turns _ slot _ _ _)
  unfold handleWrite
  split
  · exact (refused l _ _).trans (close_turns _ slot)
  · split
    · exact refused l _ _
    · split
      · exact refused l _ _
      · split
        · unfold resendWrite
          simp only
          split
          · exact (wrote l _).trans (ackWrite_turns _ slot _ _ _ _ _)
          · exact wrote l _
        · have kept := @logAppend_turns may l (writeRec (l.conns slot).session h payload) payload
          split
          · rename_i appended
            rw [appended] at kept
            exact kept.trans (refused _ _ _)
          · rename_i r l1 appended
            rw [appended] at kept
            refine kept.trans ((wrote l1 (.stored r)).trans ?_)
            unfold storedWrite
            simp only
            split
            · exact (ackWrite_turns { (Loop.wrote l1 slot h (.stored r)) with
                walDirty := true, sessions := _ } slot _ _ _ _ _).after rfl rfl
            · exact .of_same rfl rfl

/-! ### Subscriptions and reads -/

theorem LoopSub.Turns.refl (slot : Nat) (t : List Note) (sub : LoopSub) : sub.Turns slot t sub :=
  ⟨.inl, fun active waiting _ => ⟨active, waiting⟩⟩

/-- A stream that does not run may become what it likes, but for its end. -/
theorem LoopSub.Turns.of_idle {sub sub' : LoopSub} (idle : sub.Idle ∨ sub.waiting = true)
    (once : sub'.once = true → sub.once = true) : sub.Turns slot t sub' := by
  refine ⟨fun ends => .inl (once ends), fun active waiting _ => ?_⟩
  rcases idle with idle | held
  · rw [idle.1] at active
    cases active
  · rw [held] at waiting
    cases waiting

/-- The same stream at another place in the log. -/
theorem LoopSub.Turns.moved (slot : Nat) (t : List Note) (sub : LoopSub) (cursor : WalCursor) :
    sub.Turns slot t { sub with cursor := cursor } :=
  ⟨.inl, fun active waiting _ => ⟨active, waiting⟩⟩

theorem setSub_os_turns (l : Loop) (os : Os) {sub : LoopSub}
    (turns : (l.conns slot).sub.Turns slot l.trace sub) :
    Turning may l ({ l with os := os }.setSub slot sub) := by
  have tuned : Turning may { l with os := os } ({ l with os := os }.setSub slot sub) :=
    setSub_turns turns
  exact tuned.after rfl rfl

theorem subSeek_turns (l : Loop) (slot fromSeq : Nat) :
    Turning may l (subSeek l slot fromSeq).2 :=
  setSub_os_turns l _ (.moved slot l.trace _ _)

/-- Seeking moves the cursor only. -/
theorem subSeek_cursor (l : Loop) (slot fromSeq : Nat) : ∃ cursor,
    ((subSeek l slot fromSeq).2.conns slot).sub = { (l.conns slot).sub with cursor := cursor } := by
  refine ⟨(walCursorSeek l.os l.wal walCursorInit fromSeq SCRATCH_LEN).2.1, ?_⟩
  unfold subSeek Loop.setSub
  rw [conns_setConn]

theorem armTimerNow_turns (l : Loop) : Turning may l (armTimerNow l) := by
  unfold armTimerNow
  split
  · exact .refl l
  · exact .of_same rfl rfl

theorem subWait_turns (idle : (l.conns slot).sub.Idle) : Turning may l (subWait l slot) := by
  have held : Turning may l (l.setSub slot { (l.conns slot).sub with
      waiting := true, deadline := u32Add l.tick LOOP_SUB_DEADLINE_TICKS }) :=
    setSub_turns (.of_idle (.inl idle) id)
  exact held.trans (armTimerNow_turns _)

theorem subAnswer_turns (sequence : Nat) (active : (l.conns slot).sub.active = true)
    (waiting : (l.conns slot).sub.waiting = false) : Turning may l (subAnswer l slot sequence) := by
  unfold subAnswer
  refine (reply_turns l slot MSG_OP_ACK 0 sequence []).trans (.tell ?_)
  intro other same
  subst same
  have kept := replyFrame_sub l slot
    ⟨msgHeaderNew MSG_OP_ACK MSG_RECORD_NONE 0 ([] : Bytes).length 0 sequence, []⟩
  change ((reply l slot MSG_OP_ACK 0 sequence []).2.conns slot).sub = _ at kept
  rw [kept]
  exact ⟨active, waiting⟩

theorem subStart_turns (sequence : Nat) (idle : (l.conns slot).sub.Idle) :
    Turning may l (subStart l slot sequence) := by
  have started : Turning may l (l.setSub slot { (l.conns slot).sub with active := true }) :=
    setSub_turns (.of_idle (.inl idle) id)
  have here : ((l.setSub slot { (l.conns slot).sub with active := true }).conns slot).sub =
      { (l.conns slot).sub with active := true } := setSub_setSub l slot _
  refine started.trans (subAnswer_turns sequence ?_ ?_)
  · rw [here]
  · rw [here]
    exact idle.2

theorem asked_turns (op minSeq durable : Nat) (known : Bool) (idle : (l.conns slot).sub.Idle) :
    Turning may l (l.note (.asked slot op minSeq durable known)) := by
  refine .tell ?_
  intro other same
  rw [← same]
  exact idle

theorem idle_of_not {sub : LoopSub} (free : ¬ (sub.active = true ∨ sub.waiting = true)) :
    sub.Idle := by
  rw [not_or, Bool.not_eq_true, Bool.not_eq_true] at free
  exact free

theorem handleSubscribe_turns (l : Loop) (slot : Nat) (h : MsgHeader) (payload : Bytes) :
    Turning may l (handleSubscribe l slot h payload) := by
  unfold handleSubscribe
  simp only
  cases msgDecodeSubscribe payload with
  | none => exact replyErr_close_turns l slot _ _
  | some req =>
      simp only
      split
      · exact replyErr_turns l slot _ _
      · rename_i free
        have idle := idle_of_not free
        have asked := @asked_turns may l slot MSG_OP_SUBSCRIBE req.minSeq (walDurableSeq l.wal)
          true idle
        refine asked.trans ?_
        have idle1 : ((l.note (.asked slot MSG_OP_SUBSCRIBE req.minSeq (walDurableSeq l.wal)
          true)).conns slot).sub.Idle := idle
        generalize l.note _ = l1 at idle1 ⊢
        generalize (if hasFlag h.flags MSG_FLAG_ALL_KEYS = true then _ else _ : Nat) = fromSeq
        have seek := @subSeek_turns may l1 slot fromSeq
        obtain ⟨cursor, sub⟩ := subSeek_cursor l1 slot fromSeq
        cases sought : subSeek l1 slot fromSeq with
        | mk res l2 =>
            rw [sought] at seek sub
            have idle2 : (l2.conns slot).sub.Idle := by
              simp only at sub
              rw [sub]
              exact idle1
            refine seek.trans ?_
            cases res with
            | error e => exact replyErr_turns l2 slot _ _
            | ok done =>
                simp only
                generalize tuned : ({ (l2.conns slot).sub with
                  key := h.partitionKey
                  allKeys := hasFlag h.flags MSG_FLAG_ALL_KEYS
                  minSeq := req.minSeq } : LoopSub) = sub'
                have turned : Turning may l2 (l2.setSub slot sub') := by
                  refine setSub_turns (.of_idle (.inl idle2) ?_)
                  rw [← tuned]
                  exact id
                have idle3 : ((l2.setSub slot sub').conns slot).sub.Idle := by
                  rw [setSub_setSub, ← tuned]
                  exact idle2
                refine turned.trans ?_
                split
                · exact subWait_turns idle3
                · exact subStart_turns _ idle3

theorem readFrom_turns (h : MsgHeader) (minSeq fromSeq untilSeq : Nat)
    (idle : (l.conns slot).sub.Idle) :
    Turning may l (readFrom l slot h minSeq fromSeq untilSeq) := by
  unfold readFrom
  simp only
  have bounded : Turning may l
      (l.setSub slot { (l.conns slot).sub with untilSeq := untilSeq }) :=
    setSub_turns (.of_idle (.inl idle) id)
  have idle1 : ((l.setSub slot { (l.conns slot).sub with
      untilSeq := untilSeq }).conns slot).sub.Idle := by
    rw [setSub_setSub]
    exact idle
  refine bounded.trans ?_
  generalize l.setSub slot { (l.conns slot).sub with untilSeq := untilSeq } = l1 at idle1 ⊢
  have seek := @subSeek_turns may l1 slot fromSeq
  obtain ⟨cursor, sub⟩ := subSeek_cursor l1 slot fromSeq
  cases sought : subSeek l1 slot fromSeq with
  | mk res l2 =>
      rw [sought] at seek sub
      have idle2 : (l2.conns slot).sub.Idle := by
        simp only at sub
        rw [sub]
        exact idle1
      refine seek.trans ?_
      cases res with
      | error e => exact replyErr_turns l2 slot _ _
      | ok done =>
          simp only
          split
          · exact subWait_turns idle2
          · exact subStart_turns _ idle2

theorem handleRead_turns (l : Loop) (slot : Nat) (h : MsgHeader) (payload : Bytes) :
    Turning may l (handleRead l slot h payload) := by
  unfold handleRead
  simp only
  cases msgDecodeRead payload with
  | none => exact replyErr_close_turns l slot _ _
  | some minSeq =>
      simp only
      split
      · exact replyErr_turns l slot _ _
      · rename_i free
        have idle := idle_of_not free
        generalize (hasFlag h.flags MSG_FLAG_ALL_KEYS || (walIndexRange l.wal.index
          h.partitionKey (walFirstSeq l.wal)).isSome || !walIndexComplete l.wal.index) = known
        have asked := @asked_turns may l slot MSG_OP_READ minSeq (walDurableSeq l.wal) known idle
        refine asked.trans ?_
        generalize noted : l.note (.asked slot MSG_OP_READ minSeq (walDurableSeq l.wal) known) = l1
        have idle1 : (l1.conns slot).sub.Idle := by
          rw [← noted]
          exact idle
        have now : readsNow slot l1.trace := by
          rw [← noted]
          exact ⟨_, _, _, _, rfl⟩
        generalize asking : ({ (l.conns slot).sub with
          key := h.partitionKey
          allKeys := hasFlag h.flags MSG_FLAG_ALL_KEYS
          minSeq := minSeq
          once := true
          untilSeq := walDurableSeq l.wal } : LoopSub) = sub
        have turned : Turning may l1 (l1.setSub slot sub) := by
          refine setSub_turns ⟨fun _ => .inr now, fun active _ _ => ?_⟩
          rw [idle1.1] at active
          cases active
        have idle2 : ((l1.setSub slot sub).conns slot).sub.Idle := by
          rw [setSub_setSub, ← asking]
          exact idle
        refine turned.trans ?_
        generalize l1.setSub slot sub = l2 at idle2 ⊢
        split
        · exact readFrom_turns h _ _ _ idle2
        · split
          · exact readFrom_turns h _ _ _ idle2
          · split
            · have emptied : Turning may l2 (l2.setSub slot { (l2.conns slot).sub with
                  untilSeq := 0, cursor := { (l2.conns slot).sub.cursor with nextSeq := 1 } }) :=
                setSub_turns (.of_idle (.inl idle2) id)
              refine emptied.trans (subStart_turns 0 ?_)
              rw [setSub_setSub]
              exact idle2
            · exact readFrom_turns h _ _ _ idle2

/-! ### Replication, the leader's side -/

theorem retainFloorUpdate_turns (l : Loop) : Turning may l (retainFloorUpdate l) := by
  unfold retainFloorUpdate
  split
  · exact .refl l
  · simp only
    split
    · exact .refl l
    · split
      · exact .of_same rfl rfl
      · exact .refl l

/-- What a replica's buffer replaces holds nothing. -/
theorem handleReplStart_turns (h : MsgHeader) (empty : (l.conns slot).sendBuf = []) :
    Turning may l (handleReplStart l slot h) := by
  unfold handleReplStart
  split
  · exact (replyErrText_turns l slot _ _ _).trans (close_turns _ slot)
  · cases freePeer l with
    | none => exact replyErr_close_turns l slot _ _
    | some idx =>
        simp only
        cases walCursorSeek l.os l.wal walCursorInit h.sequence SCRATCH_LEN with
        | mk res rest =>
            cases res with
            | error e => exact (replyErr_close_turns _ slot _ _).after rfl rfl
            | ok done =>
                simp only
                have placed : Turning may l ((l.setConn slot { l.conns slot with
                    replica := some idx, sendBuf := [],
                    sendCap := LOOP_REPL_CAP, sendFrom := some idx }).note
                      (.attached slot idx (h.sequence - 1))) :=
                  .putNote (.switched empty) (fun other differ => Ne.symm differ)
                have attached : Turning may l ((({ l with os := rest.2 }.setConn slot
                    { l.conns slot with
                      replica := some idx, sendBuf := [],
                      sendCap := LOOP_REPL_CAP, sendFrom := some idx }).setPeer idx
                        ⟨true, h.sequence - 1, rest.1⟩).note (.attached slot idx (h.sequence - 1))) :=
                  placed.before rfl rfl
                exact attached.trans ((retainFloorUpdate_turns _).trans (armTimerNow_turns _))

theorem handleReplAck_turns (l : Loop) (slot : Nat) (h : MsgHeader) :
    Turning may l (handleReplAck l slot h) := by
  unfold handleReplAck
  cases (l.conns slot).replica with
  | none => exact .refl l
  | some idx =>
      simp only
      have told : Turning may l ((l.setPeer idx { l.peer idx with durable := h.sequence }).note
          (.confirmed slot idx h.sequence)) :=
        (@Turning.tell may (l.setPeer idx { l.peer idx with durable := h.sequence })
          (.confirmed slot idx h.sequence) (fun _ => trivial)).after rfl rfl
      exact told.trans (retainFloorUpdate_turns _)

/-! ### Frames -/

/-- Only a REPL_START may come upon what has been staged. -/
theorem handleFrame_turns {h : MsgHeader} (payload : Bytes)
    (blank : opens h.op = true → (l.conns slot).sendBuf = []) :
    Turning may l (handleFrame l slot h payload) := by
  unfold handleFrame
  split
  · exact handleHello_turns l slot h payload
  · split
    · exact handleWrite_turns l slot h payload
    · split
      · exact reply_turns l slot _ _ _ _
      · split
        · rename_i start
          exact handleReplStart_turns h (blank (by rw [start]; rfl))
        · split
          · exact handleReplAck_turns l slot h
          · split
            · exact handleSubscribe_turns l slot h payload
            · split
              · exact handleRead_turns l slot h payload
              · split
                · exact replyErr_turns l slot _ _
                · exact replyErr_close_turns l slot _ _

theorem onAction_turns {action : ConnAction}
    (blank : ∀ h payload, action = .frame h payload → opens h.op = true →
      (l.conns slot).sendBuf = []) : Turning may l (onAction slot l action) := by
  cases action with
  | frame h payload => exact handleFrame_turns _ (blank h payload rfl)
  | replyErr code sequence => exact replyErr_turns l slot _ _
  | close => exact close_turns l slot

theorem onActions_turns {actions : List ConnAction} (order : Opens true actions) (l : Loop) :
    Turning may l (actions.foldl (onAction slot) l) := by
  induction actions generalizing l with
  | nil => exact .refl l
  | cons action rest ih =>
      cases action with
      | frame h payload =>
          refine (onAction_turns ?_).trans (ih order.2 _)
          intro h' payload' same begins
          cases same
          rw [order.1] at begins
          cases begins
      | replyErr code sequence =>
          exact (replyErr_turns l slot code sequence).trans (ih (.closes order) _)
      | close => exact (close_turns l slot).trans (ih (.closes order) _)

/-- The first action of a connection may open it. -/
theorem onActions_turns_first {opened : Bool} {actions : List ConnAction}
    (order : Opens opened actions) (blank : opened = false → (l.conns slot).sendBuf = []) :
    Turning may l (actions.foldl (onAction slot) l) := by
  cases opened with
  | true => exact onActions_turns order l
  | false =>
      cases actions with
      | nil => exact .refl l
      | cons action rest =>
          have later : Opens true rest := by
            cases action with
            | frame h payload => exact order.2
            | replyErr code sequence => exact .closes order
            | close => exact .closes order
          exact (onAction_turns (fun _ _ _ _ => blank rfl)).trans (onActions_turns later _)

end Msgsrvd

/-
A protocol violation and the end of the connection it came from.

`on_recv` ends a connection only on a CLOSE action, and the action array of one
`conn_feed` has no room for it behind seven frames and the error.
-/

import Mathlib.Data.Nat.ModEq
import Msgsrvd.Proto.Framing
import Msgsrvd.Server.Run

namespace Msgsrvd

open Bytestring

variable {l l' l'' : Loop} {slot : Nat} {c c' : LoopConn}

/-! ### What leaves the framing alone -/

/-- The framing is as it was, and a connection that ends still ends. -/
structure LoopConn.Goes (c c' : LoopConn) : Prop where
  conn : c'.conn = c.conn
  inUse : c'.inUse = c.inUse
  closing : c.closing = true → c'.closing = true

theorem LoopConn.Goes.refl (c : LoopConn) : c.Goes c := ⟨rfl, rfl, id⟩

def Handled (l l' : Loop) : Prop := ∀ slot, (l.conns slot).Goes (l'.conns slot)

theorem Handled.of_conns (same : l'.conns = l.conns) : Handled l l' := by
  intro slot
  rw [same]
  exact .refl _

theorem Handled.refl (l : Loop) : Handled l l := .of_conns rfl

theorem Handled.trans (left : Handled l l') (right : Handled l' l'') : Handled l l'' :=
  fun slot => ⟨(right slot).conn.trans (left slot).conn,
    (right slot).inUse.trans (left slot).inUse,
    fun ends => (right slot).closing ((left slot).closing ends)⟩

theorem Handled.put (goes : (l.conns slot).Goes c) : Handled l (l.setConn slot c) := by
  intro other
  unfold Loop.setConn
  by_cases same : other = slot
  · rw [same]
    simp only [if_true]
    exact goes
  · simp only [if_neg same]
    exact .refl _

theorem Handled.foldl {α : Type} {f : Loop → α → Loop} (each : ∀ l a, Handled l (f l a))
    (items : List α) (l : Loop) : Handled l (items.foldl f l) := by
  induction items generalizing l with
  | nil => exact .refl l
  | cons item rest ih => exact (each l item).trans (ih (f l item))

theorem replyFrame_handled (l : Loop) (slot : Nat) (frame : Frame) :
    Handled l (replyFrame l slot frame).2 := by
  unfold replyFrame
  simp only
  split
  · exact .refl l
  · exact Handled.put ⟨rfl, rfl, id⟩

theorem reply_handled (l : Loop) (slot op flags sequence : Nat) (payload : Bytes) :
    Handled l (reply l slot op flags sequence payload).2 := replyFrame_handled l slot _

theorem replyAck_handled (l : Loop) (slot flags sequence clientSeq : Nat) :
    Handled l (replyAck l slot flags sequence clientSeq).2 := replyFrame_handled l slot _

theorem replyErrText_handled (l : Loop) (slot code sequence : Nat) (text : Bytes) :
    Handled l (replyErrText l slot code sequence text).2 := replyFrame_handled l slot _

theorem replyErr_handled (l : Loop) (slot code sequence : Nat) :
    Handled l (replyErr l slot code sequence) := replyFrame_handled l slot _

theorem close_handled (l : Loop) (slot : Nat) : Handled l (l.close slot) :=
  Handled.put ⟨rfl, rfl, fun _ => rfl⟩

theorem setSub_handled (l : Loop) (slot : Nat) (sub : LoopSub) : Handled l (l.setSub slot sub) :=
  Handled.put ⟨rfl, rfl, id⟩

theorem replyErr_close_handled (l : Loop) (slot code sequence : Nat) :
    Handled l ((replyErr l slot code sequence).close slot) :=
  (replyErr_handled l slot code sequence).trans (close_handled _ slot)

/-- From a loop with the same connections. -/
theorem Handled.after (handled : Handled l' l'') (same : l'.conns = l.conns) : Handled l l'' :=
  (Handled.of_conns same).trans handled

/-! ### Frames -/

theorem greet_handled (l : Loop) (slot : Nat) (s : Session) : Handled l (greet l slot s) := by
  unfold greet
  have bound : Handled l (l.setConn slot { l.conns slot with session := s.id }) :=
    Handled.put ⟨rfl, rfl, id⟩
  simp only
  exact bound.trans ((replyAck_handled _ slot _ _ _).after rfl)

theorem handleHello_handled (l : Loop) (slot : Nat) (h : MsgHeader) (payload : Bytes) :
    Handled l (handleHello l slot h payload) := by
  unfold handleHello
  simp only
  split
  · exact replyErr_close_handled l slot _ _
  · split
    · split
      · exact (replyErr_close_handled _ slot _ _).after rfl
      · exact (greet_handled _ slot _).after rfl
    · split
      · exact replyErr_handled l slot _ _
      · exact greet_handled l slot _

theorem ackWrite_handled (l : Loop) (slot ackFlags : Nat) (wantsRepl degradable : Bool)
    (clientSeq walSeq : Nat) :
    Handled l (ackWrite l slot ackFlags wantsRepl degradable clientSeq walSeq) := by
  unfold ackWrite
  simp only
  split
  · exact Handled.put ⟨rfl, rfl, id⟩
  · split
    · exact Handled.put ⟨rfl, rfl, id⟩
    · exact Handled.put ⟨rfl, rfl, id⟩

theorem flushes_conns (l : Loop) (rollover : Bool) : (l.flushes rollover).conns = l.conns := by
  unfold Loop.flushes
  split
  · rfl
  · rfl

theorem logAppend_conns (l : Loop) (r : WalRec) (payload : Bytes) :
    (logAppend l r payload).2.conns = l.conns := by
  unfold logAppend
  simp only
  split
  · exact flushes_conns l true
  · rfl

theorem logAppendAt_conns (l : Loop) (r : WalRec) (payload : Bytes) :
    (logAppendAt l r payload).2.conns = l.conns := by
  unfold logAppendAt
  simp only
  split
  · exact flushes_conns l true
  · rfl

theorem handleWrite_handled (l : Loop) (slot : Nat) (h : MsgHeader) (payload : Bytes) :
    Handled l (handleWrite l slot h payload) := by
  have refused (l : Loop) (code : Nat) (text : Bytes) :
      Handled l (refuseWrite l slot h code text) := by
    unfold refuseWrite
    exact (replyErrText_handled _ slot _ _ _).after rfl
  unfold handleWrite
  split
  · exact (refused l _ _).trans (close_handled _ slot)
  · split
    · exact refused l _ _
    · split
      · exact refused l _ _
      · split
        · unfold resendWrite
          simp only
          split
          · exact ackWrite_handled (l.wrote slot h _) slot _ _ _ _ _
          · exact .of_conns rfl
        · have kept := logAppend_conns l (writeRec (l.conns slot).session h payload) payload
          split
          · rename_i appended
            rw [appended] at kept
            exact (Handled.of_conns kept).trans (refused _ _ _)
          · rename_i appended
            rw [appended] at kept
            refine (Handled.of_conns kept).trans ?_
            unfold storedWrite
            simp only
            split
            · exact ackWrite_handled { (Loop.wrote _ slot h _) with
                walDirty := true, sessions := _ } slot _ _ _ _ _
            · exact .of_conns rfl

theorem subSeek_handled (l : Loop) (slot fromSeq : Nat) :
    Handled l (subSeek l slot fromSeq).2 :=
  setSub_handled { l with os := _ } slot _

theorem subWait_handled (l : Loop) (slot : Nat) : Handled l (subWait l slot) := by
  unfold subWait armTimerNow
  split
  · exact setSub_handled l slot _
  · exact setSub_handled l slot _

theorem subAnswer_handled (l : Loop) (slot sequence : Nat) :
    Handled l (subAnswer l slot sequence) := replyFrame_handled l slot _

theorem subStart_handled (l : Loop) (slot sequence : Nat) :
    Handled l (subStart l slot sequence) :=
  (setSub_handled l slot _).trans (subAnswer_handled _ slot sequence)

theorem handleSubscribe_handled (l : Loop) (slot : Nat) (h : MsgHeader) (payload : Bytes) :
    Handled l (handleSubscribe l slot h payload) := by
  unfold handleSubscribe
  simp only
  cases msgDecodeSubscribe payload with
  | none => exact replyErr_close_handled l slot _ _
  | some req =>
      simp only
      split
      · exact replyErr_handled l slot _ _
      · generalize asked : l.note _ = l1
        have same : l1.conns = l.conns := by rw [← asked]; rfl
        generalize (if hasFlag h.flags MSG_FLAG_ALL_KEYS = true then _ else _ : Nat) = fromSeq
        have seek := (subSeek_handled l1 slot fromSeq).after same
        cases sought : subSeek l1 slot fromSeq with
        | mk res l2 =>
            rw [sought] at seek
            cases res with
            | error e => exact seek.trans (replyErr_handled l2 slot _ _)
            | ok done =>
                refine seek.trans ?_
                simp only
                split
                · exact (setSub_handled l2 slot _).trans (subWait_handled _ slot)
                · exact (setSub_handled l2 slot _).trans (subStart_handled _ slot _)

theorem readFrom_handled (l : Loop) (slot : Nat) (h : MsgHeader) (minSeq fromSeq untilSeq : Nat) :
    Handled l (readFrom l slot h minSeq fromSeq untilSeq) := by
  unfold readFrom
  simp only
  have bounded := setSub_handled l slot { (l.conns slot).sub with untilSeq := untilSeq }
  generalize l.setSub slot { (l.conns slot).sub with untilSeq := untilSeq } = l1 at bounded ⊢
  have seek := bounded.trans (subSeek_handled l1 slot fromSeq)
  cases sought : subSeek l1 slot fromSeq with
  | mk res l2 =>
      rw [sought] at seek
      cases res with
      | error e => exact seek.trans (replyErr_handled l2 slot _ _)
      | ok done =>
          refine seek.trans ?_
          simp only
          split
          · exact subWait_handled l2 slot
          · exact subStart_handled l2 slot _

theorem handleRead_handled (l : Loop) (slot : Nat) (h : MsgHeader) (payload : Bytes) :
    Handled l (handleRead l slot h payload) := by
  unfold handleRead
  simp only
  cases msgDecodeRead payload with
  | none => exact replyErr_close_handled l slot _ _
  | some minSeq =>
      simp only
      split
      · exact replyErr_handled l slot _ _
      · generalize asked : l.note _ = l1
        have same : l1.conns = l.conns := by rw [← asked]; rfl
        generalize ({ (l.conns slot).sub with
          key := _, allKeys := _, minSeq := _, once := true, untilSeq := _ } : LoopSub) = sub
        have bounded := (setSub_handled l1 slot sub).after same
        generalize l1.setSub slot sub = l2 at bounded ⊢
        refine bounded.trans ?_
        split
        · exact readFrom_handled l2 slot h _ _ _
        · split
          · exact readFrom_handled l2 slot h _ _ _
          · split
            · exact (setSub_handled l2 slot _).trans (subStart_handled _ slot 0)
            · exact readFrom_handled l2 slot h _ _ _

theorem armTimerNow_conns (l : Loop) : (armTimerNow l).conns = l.conns := by
  unfold armTimerNow
  split
  · rfl
  · rfl

theorem retainFloorUpdate_conns (l : Loop) : (retainFloorUpdate l).conns = l.conns := by
  unfold retainFloorUpdate
  split
  · rfl
  · simp only
    split
    · rfl
    · split
      · rfl
      · rfl

theorem handleReplStart_handled (l : Loop) (slot : Nat) (h : MsgHeader) :
    Handled l (handleReplStart l slot h) := by
  unfold handleReplStart
  split
  · exact (replyErrText_handled l slot _ _ _).trans (close_handled _ slot)
  · cases freePeer l with
    | none => exact replyErr_close_handled l slot _ _
    | some idx =>
        simp only
        cases walCursorSeek l.os l.wal walCursorInit h.sequence SCRATCH_LEN with
        | mk res rest =>
            cases res with
            | error e => exact (replyErr_close_handled _ slot _ _).after rfl
            | ok done =>
                have placed : Handled l (l.setConn slot
                    { l.conns slot with
                      replica := some idx, sendBuf := [],
                      sendCap := LOOP_REPL_CAP, sendFrom := some idx }) :=
                  Handled.put ⟨rfl, rfl, id⟩
                refine placed.trans (.of_conns ?_)
                simp only
                rw [armTimerNow_conns, retainFloorUpdate_conns]
                rfl

theorem handleReplAck_handled (l : Loop) (slot : Nat) (h : MsgHeader) :
    Handled l (handleReplAck l slot h) := by
  unfold handleReplAck
  split
  · exact .refl l
  · exact .of_conns (retainFloorUpdate_conns _)

theorem handleFrame_handled (l : Loop) (slot : Nat) (h : MsgHeader) (payload : Bytes) :
    Handled l (handleFrame l slot h payload) := by
  unfold handleFrame
  split
  · exact handleHello_handled l slot h payload
  · split
    · exact handleWrite_handled l slot h payload
    · split
      · exact reply_handled l slot _ _ _ _
      · split
        · exact handleReplStart_handled l slot h
        · split
          · exact handleReplAck_handled l slot h
          · split
            · exact handleSubscribe_handled l slot h payload
            · split
              · exact handleRead_handled l slot h payload
              · split
                · exact replyErr_handled l slot _ _
                · exact replyErr_close_handled l slot _ _

/-- Handling an action leaves the framing alone. -/
theorem onAction_handled (slot : Nat) (l : Loop) (action : ConnAction) :
    Handled l (onAction slot l action) := by
  unfold onAction
  cases action with
  | frame h payload => exact handleFrame_handled l slot h _
  | replyErr code sequence => exact replyErr_handled l slot _ _
  | close => exact close_handled l slot

/-! ### One batch of actions -/

def ConnOut.isFrame : ConnOut → Bool
  | .frame _ _ => true
  | _ => false

def ConnAction.isFrame : ConnAction → Bool
  | .frame _ _ => true
  | _ => false

/-- The valid frames from `cursor` on, before the first violation or the end, and whether
there is a violation. -/
def Conn.aheadFrom (c : Conn) (cursor : Nat) : Nat × Bool :=
  let outs := wireRest c.bufCap c.mode c.opened (c.buf.drop cursor)
  (outs.1.countP ConnOut.isFrame, outs.2)

def Conn.ahead (c : Conn) : Nat × Bool := c.aheadFrom c.bufOff

/-- The frames of a batch, and the end of it: all of them, or as much of the error and
the close as there is room for. -/
inductive Batch (room : Nat) (ahead : Nat × Bool) : List ConnAction → Conn → Prop where
  | open' {frames : List ConnAction} {c : Conn} : c.closed = false →
      (∀ action ∈ frames, action.isFrame = true) → ahead.1 = frames.length + c.ahead.1 →
      ahead.2 = c.ahead.2 → (frames.length = room ∨ ahead.2 = false) → Batch room ahead frames c
  | fatal {frames : List ConnAction} {c : Conn} {code sequence : Nat} : c.closed = true →
      (∀ action ∈ frames, action.isFrame = true) → ahead = (frames.length, true) →
      frames.length < room →
      Batch room ahead (frames ++ emitFatal (room - frames.length) code sequence) c

/-- A frame before a batch. -/
theorem Batch.cons {room : Nat} {ahead : Nat × Bool} {actions : List ConnAction} {c : Conn}
    (batch : Batch room ahead actions c) (h : MsgHeader) (payload : Nat) :
    Batch (room + 1) (ahead.1 + 1, ahead.2) (.frame h payload :: actions) c := by
  cases batch with
  | @open' frames _ unclosed framed count same more =>
      refine .open' unclosed ?_ ?_ same ?_
      · intro action inside
        rcases List.mem_cons.mp inside with here | later
        · rw [here]
          rfl
        · exact framed action later
      · rw [count, List.length_cons]
        omega
      · rcases more with full | none
        · exact .inl (congrArg (· + 1) full)
        · exact .inr none
  | @fatal frames _ code sequence closed framed count fits =>
      rw [← List.cons_append]
      have room' : room - frames.length = room + 1 - (ConnAction.frame h payload :: frames).length := by
        rw [List.length_cons]
        omega
      rw [room']
      refine .fatal closed ?_ ?_ ?_
      · intro action inside
        rcases List.mem_cons.mp inside with here | later
        · rw [here]
          rfl
        · exact framed action later
      · rw [count, List.length_cons]
      · rw [List.length_cons]
        omega

/-- Nothing is parsed. -/
theorem Batch.stuck {room cursor : Nat} {c : Conn} (unclosed : c.closed = false)
    (none : (c.aheadFrom cursor).2 = false ∨ room = 0) :
    Batch room (c.aheadFrom cursor) [] { c with bufOff := cursor } := by
  refine .open' unclosed (fun _ absent => (by cases absent)) ?_ rfl ?_
  · rw [List.length_nil, Nat.zero_add]
    rfl
  · rcases none with quiet | full
    · exact .inr quiet
    · exact .inl full.symm

theorem connFeedFrom_batch (room : Nat) {c : Conn} {cursor : Nat} (unclosed : c.closed = false) :
    Batch room (c.aheadFrom cursor) (connFeedFrom room c cursor).1
      (connFeedFrom room c cursor).2 := by
  induction room generalizing c cursor with
  | zero => exact .stuck unclosed (.inr rfl)
  | succ room ih =>
      have unparsed : (c.buf.drop cursor).length = c.buf.length - cursor := List.length_drop
      unfold connFeedFrom
      by_cases short : c.buf.length - cursor < MSG_HEADER_SIZE
      · rw [if_pos short]
        refine .stuck unclosed (.inl ?_)
        unfold Conn.aheadFrom
        rw [wireRest_short (by rw [unparsed]; exact short)]
      · rw [if_neg short]
        have long : ¬ (c.buf.drop cursor).length < MSG_HEADER_SIZE := by rw [unparsed]; exact short
        simp only
        cases fault : headerFault c.bufCap c.mode c.opened (msgHeaderAt (c.buf.drop cursor)) with
        | some report =>
            obtain ⟨code, echoSeq⟩ := report
            have ahead : c.aheadFrom cursor = (0, true) := by
              unfold Conn.aheadFrom
              rw [wireRest_fault long fault]
              rfl
            rw [ahead]
            exact @Batch.fatal (room + 1) (0, true) [] _ code echoSeq rfl
              (fun _ absent => by cases absent) rfl (Nat.succ_pos room)
        | none =>
            simp only
            by_cases cut : c.buf.length - cursor <
                MSG_HEADER_SIZE + (msgHeaderAt (c.buf.drop cursor)).payloadLen
            · rw [if_pos cut]
              refine .stuck unclosed (.inl ?_)
              unfold Conn.aheadFrom
              rw [wireRest_cut long fault (by rw [unparsed]; exact cut)]
            · rw [if_neg cut]
              have later := @ih { c with opened := c.opened || opens (msgHeaderAt
                (c.buf.drop cursor)).op }
                (cursor + (MSG_HEADER_SIZE + (msgHeaderAt (c.buf.drop cursor)).payloadLen))
                unclosed
              have whole := later.cons (msgHeaderAt (c.buf.drop cursor)) (cursor + MSG_HEADER_SIZE)
              have ahead : c.aheadFrom cursor =
                  ((Conn.aheadFrom { c with opened := c.opened || opens (msgHeaderAt
                    (c.buf.drop cursor)).op } (cursor + (MSG_HEADER_SIZE +
                      (msgHeaderAt (c.buf.drop cursor)).payloadLen))).1 + 1,
                    (Conn.aheadFrom { c with opened := c.opened || opens (msgHeaderAt
                    (c.buf.drop cursor)).op } (cursor + (MSG_HEADER_SIZE +
                      (msgHeaderAt (c.buf.drop cursor)).payloadLen))).2) := by
                unfold Conn.aheadFrom
                rw [wireRest_frame long fault (by rw [unparsed]; exact cut), List.drop_drop]
                simp only [List.countP_cons, ConnOut.isFrame, if_true]
              rw [ahead]
              exact whole

theorem connFeed_batch {c : Conn} (unclosed : c.closed = false) {room : Nat} (some' : room ≠ 0) :
    Batch room c.ahead (connFeed c room).1 (connFeed c room).2 := by
  unfold connFeed
  rw [if_neg (by rw [unclosed]; exact fun never => by rcases never with no | zero <;> [cases no; exact some' zero])]
  exact connFeedFrom_batch room unclosed

/-! ### One receive -/

/-- Whether handling the frames of a receive itself marks the connection closing. -/
def framesEnd : Nat → Loop → Nat → Bool
  | 0, l, slot => (l.conns slot).closing
  | fuel + 1, l, slot =>
      let c := l.conns slot
      let (actions, conn) := connFeed c.conn 8
      let l := l.setConn slot { c with conn := conn }
      let frames := actions.filter ConnAction.isFrame
      let l := frames.foldl (onAction slot) l
      if frames = [] ∨ (l.conns slot).closing then (l.conns slot).closing
      else framesEnd fuel l slot

theorem replyErr_closing (l : Loop) (slot code sequence : Nat) :
    ((replyErr l slot code sequence).conns slot).closing = (l.conns slot).closing := by
  unfold replyErr replyErrText reply replyFrame
  simp only
  split
  · rfl
  · simp only [Loop.note, Loop.setConn, if_true]

/-- Nothing comes out of a closed framing. -/
theorem connFeed_closed {c : Conn} (closed : c.closed = true) (outCap : Nat) :
    connFeed c outCap = ([], c) := if_pos (.inl closed)

theorem setConn_same (l : Loop) (slot : Nat) : l.setConn slot (l.conns slot) = l := by
  unfold Loop.setConn
  congr 1
  funext other
  by_cases same : other = slot
  · rw [if_pos same, same]
  · rw [if_neg same]

theorem onRecvLoop_closed (closed : (l.conns slot).conn.closed = true) (fuel : Nat) :
    onRecvLoop fuel l slot = l := by
  cases fuel with
  | zero => rfl
  | succ fuel =>
      unfold onRecvLoop
      simp only [connFeed_closed closed, if_true]
      exact setConn_same l slot

theorem framesEnd_closed (closed : (l.conns slot).conn.closed = true) (fuel : Nat) :
    framesEnd fuel l slot = (l.conns slot).closing := by
  cases fuel with
  | zero => rfl
  | succ fuel =>
      unfold framesEnd
      simp only [connFeed_closed closed, List.filter_nil, true_or, if_true, List.foldl_nil]
      rw [setConn_same]

/-- **A violation ends the connection exactly where the frames before it leave room for the
close**, or one of them ends the connection itself. -/
theorem onRecvLoop_ends (fuel : Nat) (unclosed : (l.conns slot).conn.closed = false)
    (closed : ((onRecvLoop fuel l slot).conns slot).conn.closed = true) :
    (l.conns slot).conn.ahead.2 = true ∧
      (((onRecvLoop fuel l slot).conns slot).closing = true ↔
        (l.conns slot).conn.ahead.1 % 8 ≠ 7 ∨ framesEnd fuel l slot = true) := by
  induction fuel generalizing l with
  | zero =>
      change (l.conns slot).conn.closed = true at closed
      rw [unclosed] at closed
      cases closed
  | succ fuel ih =>
      have batch := connFeed_batch unclosed (show 8 ≠ 0 by decide)
      unfold onRecvLoop at closed ⊢
      unfold framesEnd
      simp only at closed ⊢
      generalize connFeed (l.conns slot).conn 8 = fed at batch closed ⊢
      obtain ⟨actions, conn⟩ := fed
      generalize ahead : (l.conns slot).conn.ahead = n at batch ⊢
      simp only at batch closed ⊢
      generalize placed : l.setConn slot { l.conns slot with conn := conn } = l1 at closed ⊢
      have conn1 : (l1.conns slot).conn = conn := by
        rw [← placed]
        exact congrArg LoopConn.conn (if_pos rfl)
      cases batch with
      | open' unclosed' framed count same more =>
          have filtered : actions.filter ConnAction.isFrame = actions :=
            List.filter_eq_self.mpr framed
          rw [filtered]
          by_cases none : actions = []
          · rw [if_pos none, conn1, unclosed'] at closed
            cases closed
          · rw [if_neg none] at closed ⊢
            have handled := Handled.foldl (onAction_handled slot) actions l1
            generalize actions.foldl (onAction slot) l1 = l2 at handled closed ⊢
            have conn2 : (l2.conns slot).conn = conn := (handled slot).conn.trans conn1
            by_cases ends : (l2.conns slot).closing = true
            · rw [if_pos ends, conn2, unclosed'] at closed
              cases closed
            · rw [if_neg ends] at closed ⊢
              obtain ⟨violated, iff⟩ := ih (by rw [conn2]; exact unclosed') closed
              rw [conn2] at violated iff
              refine ⟨same.trans violated, iff.trans ?_⟩
              rw [if_neg (by rw [not_or]; exact ⟨none, ends⟩)]
              have full := more.resolve_right (by rw [same, violated]; exact fun no => by cases no)
              rw [count, full, Nat.add_mod_left]
      | @fatal frames _ code sequence closed' framed count fits =>
          have filtered : (frames ++ emitFatal (8 - frames.length) code sequence).filter
              ConnAction.isFrame = frames := by
            rw [List.filter_append, List.filter_eq_self.mpr framed, List.filter_eq_nil_iff.mpr,
              List.append_nil]
            intro action inside
            have listed := List.mem_of_mem_take inside
            simp only [List.mem_cons, List.not_mem_nil, or_false] at listed
            rcases listed with one | two
            · rw [one]
              exact Bool.false_ne_true
            · rw [two]
              exact Bool.false_ne_true
          have some' : frames ++ emitFatal (8 - frames.length) code sequence ≠ [] := by
            intro none
            have length := congrArg List.length none
            unfold emitFatal at length
            rw [List.length_append, List.length_take, List.length_nil] at length
            simp only [List.length_cons, List.length_nil] at length
            omega
          rw [filtered]
          rw [if_neg some'] at closed ⊢
          rw [List.foldl_append] at closed ⊢
          have handled := Handled.foldl (onAction_handled slot) frames l1
          have none : frames = [] → frames.foldl (onAction slot) l1 = l1 := by
            intro empty
            rw [empty]
            rfl
          generalize frames.foldl (onAction slot) l1 = l2 at handled none closed ⊢
          have conn2 : (l2.conns slot).conn = conn := (handled slot).conn.trans conn1
          have later := Handled.foldl (onAction_handled slot)
            (emitFatal (8 - frames.length) code sequence) l2
          have ended : (((emitFatal (8 - frames.length) code sequence).foldl (onAction slot)
              l2).conns slot).closing = true ↔
              frames.length % 8 ≠ 7 ∨ (l2.conns slot).closing = true := by
            by_cases last : frames.length = 7
            · rw [last]
              change ((replyErr l2 slot code sequence).conns slot).closing = true ↔ _
              rw [replyErr_closing]
              exact ⟨.inr, fun either => either.resolve_left (fun odd => odd rfl)⟩
            · obtain ⟨room, roomIs⟩ : ∃ room, 8 - frames.length = room + 2 :=
                ⟨6 - frames.length, by omega⟩
              have both : emitFatal (room + 2) code sequence = [.replyErr code sequence, .close] := by
                unfold emitFatal
                rw [List.take_succ_cons, List.take_succ_cons, List.take_nil]
              rw [roomIs, both]
              refine ⟨fun _ => .inl (by omega), fun _ => ?_⟩
              change (((replyErr l2 slot code sequence).close slot).conns slot).closing = true
              exact congrArg LoopConn.closing (if_pos rfl)
          have conn3 := (later slot).conn.trans conn2
          generalize (emitFatal (8 - frames.length) code sequence).foldl (onAction slot) l2 = l3
            at conn3 ended ⊢
          rw [onRecvLoop_closed (by rw [conn3]; exact closed') fuel, ite_self, count]
          refine ⟨rfl, ended.trans ?_⟩
          rw [framesEnd_closed (by rw [conn2]; exact closed') fuel, ite_self]

/-! ### Sending and accepting -/

theorem connWantOut_handled (l : Loop) (slot : Nat) (want ctl : Bool) :
    Handled l (connWantOut l slot want ctl) := by
  unfold connWantOut
  simp only
  split
  · exact .refl l
  · split
    · exact close_handled l slot
    · exact Handled.put ⟨rfl, rfl, id⟩

theorem loopSendDone_handled (l : Loop) (slot : Nat) (res : Int) :
    Handled l (loopSendDone l slot res) := by
  unfold loopSendDone
  simp only
  split
  · exact .refl l
  · split
    · exact Handled.put ⟨rfl, rfl, fun _ => rfl⟩
    · exact Handled.put ⟨rfl, rfl, id⟩

theorem connSend_handled (l : Loop) (slot : Nat) (answer : SendAnswer) :
    Handled l (connSend l slot answer) := by
  unfold connSend
  simp only
  split
  · exact (connWantOut_handled _ slot _ _).after rfl
  · refine Handled.trans ?_ (connWantOut_handled _ slot _ _)
    exact (loopSendDone_handled _ slot _).after rfl

theorem doSend_handled (l : Loop) (slot : Nat) (answer : SendAnswer) :
    Handled l (doSend l slot answer) := by
  unfold doSend
  simp only
  split
  · exact .refl l
  · split
    · exact connWantOut_handled l slot _ _
    · exact connSend_handled l slot answer

/-- A connection in use that has been marked closing. -/
def Loop.ends (l : Loop) (slot : Nat) : Prop :=
  (l.conns slot).inUse = true ∧ (l.conns slot).closing = true

theorem Handled.ends (handled : Handled l l') (ends : l.ends slot) : l'.ends slot :=
  ⟨(handled slot).inUse.trans ends.1, (handled slot).closing ends.2⟩

/-- Changing another connection, or the framing of this one, does not bring it back. -/
theorem ends_setConn (ends : l.ends slot) {other : Nat}
    (kept : other = slot → c.inUse = true ∧ c.closing = true) : (l.setConn other c).ends slot := by
  unfold Loop.ends Loop.setConn
  by_cases same : slot = other
  · simp only [if_pos same]
    exact kept same.symm
  · simp only [if_neg same]
    exact ends

theorem onRecvLoop_ended (fuel : Nat) {other : Nat} (ends : l.ends slot) :
    (onRecvLoop fuel l other).ends slot := by
  induction fuel generalizing l with
  | zero => exact ends
  | succ fuel ih =>
      unfold onRecvLoop
      simp only
      have placed : (l.setConn other
          { l.conns other with conn := (connFeed (l.conns other).conn 8).2 }).ends slot :=
        ends_setConn ends (fun same => by rw [same]; exact ends)
      split
      · exact placed
      · have handled := (Handled.foldl (onAction_handled other)
          (connFeed (l.conns other).conn 8).1 _).ends placed
        split
        · exact handled
        · exact ih handled

theorem doRecv_ended (received : Received) {other : Nat} (ends : l.ends slot) :
    (doRecv l other received).ends slot := by
  unfold doRecv
  simp only
  split
  · exact ends
  · cases received with
    | again => exact ends
    | failed => exact (close_handled l other).ends ends
    | data bytes =>
        simp only
        split
        · exact (close_handled l other).ends ends
        · refine onRecvLoop_ended _ ?_
          have placed : (l.setConn other { l.conns other with
              conn := connRecvCommit (l.conns other).conn bytes }).ends slot :=
            ends_setConn ends (fun same => by rw [same]; exact ends)
          exact placed

theorem onAccept_ended (accepted : Bool) (ends : l.ends slot) : (onAccept l accepted).ends slot := by
  unfold onAccept
  cases found : slotAlloc l with
  | none => exact ends
  | some free =>
      simp only
      split
      · exact ends
      · have unused := List.find?_some found
        have placed : (l.setConn free { slotEmpty with
            inUse := true, conn := connInit LOOP_RECV_CAP .client }).ends slot := by
          refine ends_setConn ends (fun same => ?_)
          rw [same, ends.1] at unused
          cases unused
        exact placed

/-! ### The follower's stream -/

theorem closeStream_conns (l : Loop) : l.closeStream.conns = l.conns := rfl

theorem streamFrame_conns (l : Loop) (op sequence : Nat) :
    (streamFrame l op sequence).conns = l.conns := by
  unfold streamFrame
  split
  · rfl
  · rfl

theorem replApplyFrom_conns (p : Bytes) (fuel at' : Nat) (l : Loop) :
    (replApplyFrom p fuel l at').conns = l.conns := by
  induction fuel generalizing l at' with
  | zero => rfl
  | succ fuel ih =>
      unfold replApplyFrom
      split
      · split
        · rfl
        · simp only
          split
          · rfl
          · have kept (r : WalRec) (payload : Bytes) := logAppendAt_conns l r payload
            split
            · rename_i appended
              have appended := congrArg Prod.snd appended
              simp only at appended
              rw [closeStream_conns, ← appended, kept]
            · rename_i appended
              have appended := congrArg Prod.snd appended
              simp only at appended
              rw [ih]
              change _ = l.conns
              rw [← kept _ _, appended]
              rfl
      · rfl

theorem onStreamAction_conns (l : Loop) (action : ConnAction) :
    (onStreamAction l action).conns = l.conns := by
  unfold onStreamAction onStreamFrame
  cases action with
  | replyErr code sequence => rfl
  | close => rfl
  | frame h payload =>
      simp only
      split
      · exact replApplyFrom_conns _ _ _ l
      · split
        · rfl
        · rfl

theorem onReplRecvLoop_conns (fuel : Nat) (l : Loop) : (onReplRecvLoop fuel l).conns = l.conns := by
  have acts (actions : List ConnAction) (l : Loop) :
      (actions.foldl onStreamAction l).conns = l.conns := by
    induction actions generalizing l with
    | nil => rfl
    | cons action rest ih => exact (ih _).trans (onStreamAction_conns l action)
  induction fuel generalizing l with
  | zero => rfl
  | succ fuel ih =>
      unfold onReplRecvLoop
      simp only
      split
      · rfl
      · split
        · exact acts _ _
        · exact (ih _).trans (acts _ _)

theorem doReplRecv_conns (l : Loop) (received : Received) :
    (doReplRecv l received).conns = l.conns := by
  unfold doReplRecv
  split
  · rfl
  · cases received with
    | again => rfl
    | failed => rfl
    | data bytes =>
        simp only
        unfold onReplRecv
        split
        · rfl
        · exact onReplRecvLoop_conns _ _

theorem streamWantOut_conns (l : Loop) (want ctl : Bool) :
    (streamWantOut l want ctl).conns = l.conns := by
  unfold streamWantOut
  split
  · rfl
  · split
    · rfl
    · rfl

theorem streamSend_conns (l : Loop) (answer : SendAnswer) :
    (streamSend l answer).conns = l.conns := by
  unfold streamSend onReplSend
  simp only
  split
  · exact streamWantOut_conns _ _ _
  · rw [streamWantOut_conns]
    split
    · rfl
    · rfl

theorem doReplSend_conns (l : Loop) (answer : SendAnswer) :
    (doReplSend l answer).conns = l.conns := by
  unfold doReplSend
  split
  · rfl
  · split
    · exact streamWantOut_conns _ _ _
    · exact streamSend_conns _ _

theorem onReplDial_conns (l : Loop) (connected ctl : Bool) :
    (onReplDial l connected ctl).conns = l.conns := by
  unfold onReplDial
  simp only
  split
  · rfl
  · split
    · rfl
    · exact streamFrame_conns _ _ _

theorem replDial_conns (l : Loop) (answer : DialAnswer) : (replDial l answer).conns = l.conns := by
  unfold replDial
  split
  · rfl
  · split
    · rfl
    · split
      · rfl
      · cases answer with
        | connected ctl => exact onReplDial_conns _ _ _
        | refused => exact onReplDial_conns _ _ _
        | noSocket => rfl
        | noWatch => rfl
        | inProgress => rfl

theorem armStream_conns (l : Loop) (answer : SendAnswer) : (armStream l answer).conns = l.conns := by
  unfold armStream streamRelease
  simp only
  split
  · rfl
  · split
    · split
      · rfl
      · rfl
    · have sent : (if l.stream.sendBuf ≠ [] ∧ ¬ l.stream.wantOut = true then streamSend l answer
          else l).conns = l.conns := by
        split
        · exact streamSend_conns l answer
        · rfl
      generalize (if l.stream.sendBuf ≠ [] ∧ ¬ l.stream.wantOut = true then streamSend l answer
        else l) = l1 at sent ⊢
      split
      · exact sent
      · split
        · exact sent
        · exact sent

theorem tickEvent_ended (event : Event) (ends : l.ends slot) : (tickEvent l event).ends slot := by
  cases event with
  | listen accepted =>
      cases accepted with
      | none => exact ends
      | some accepted =>
          unfold tickEvent
          simp only
          split
          · exact ends
          · exact onAccept_ended accepted ends
  | conn other readable writable =>
      unfold tickEvent
      simp only
      cases readable with
      | none =>
          cases writable with
          | none => exact ends
          | some answer => exact (doSend_handled _ other answer).ends ends
      | some received =>
          have received : (doRecv l other received).ends slot := doRecv_ended received ends
          cases writable with
          | none => exact received
          | some answer => exact (doSend_handled _ other answer).ends received
  | signal => exact ends
  | timer fired =>
      unfold tickEvent
      simp only
      split
      · exact ends
      · exact ends
  | stream connected ctl readable writable =>
      unfold tickEvent
      simp only
      split
      · exact (Handled.of_conns (onReplDial_conns l connected ctl)).ends ends
      · cases readable with
        | none =>
            cases writable with
            | none => exact ends
            | some answer => exact (Handled.of_conns (doReplSend_conns _ answer)).ends ends
        | some received =>
            have received := (Handled.of_conns (doReplRecv_conns l received)).ends ends
            cases writable with
            | none => exact received
            | some answer => exact (Handled.of_conns (doReplSend_conns _ answer)).ends received

theorem events_ended (events : List Event) (ends : l.ends slot) :
    (events.foldl tickEvent l).ends slot := by
  induction events generalizing l with
  | nil => exact ends
  | cons event rest ih => exact ih (tickEvent_ended event ends)

/-! ### What is served after the events -/

theorem ackCount_conns (l : Loop) (flags : Nat) : (ackCount l flags).conns = l.conns := by
  unfold ackCount
  split
  · rfl
  · split
    · rfl
    · rfl

theorem settleRepl_handled (l : Loop) (slot : Nat) (refused : Bool) (flags room : Nat)
    (sent : Bool) : Handled l (settleRepl l slot refused flags room sent) :=
  Handled.put ⟨rfl, rfl, id⟩

theorem acksEmitOne_handled (best : Nat) (live : Bool) (l : Loop) (slot : Nat) :
    Handled l (acksEmitOne best live l slot) := by
  have first (l : Loop) : Handled l (emitLocal l slot) := by
    unfold emitLocal
    simp only
    split
    · exact .refl l
    · have counted := (replyAck_handled l slot (l.conns slot).ackLocal.flags
        (l.conns slot).ackLocal.walSeq (l.conns slot).ackLocal.clientSeq).trans
        (.of_conns (ackCount_conns _ (l.conns slot).ackLocal.flags))
      exact counted.trans (Handled.put ⟨rfl, rfl, id⟩)
  have second (l : Loop) : Handled l (emitRepl best live l slot) := by
    unfold emitRepl
    simp only
    split
    · exact .refl l
    · split
      · refine Handled.trans ?_ (settleRepl_handled _ slot _ _ _ _)
        exact (replyAck_handled l slot _ _ _).trans (.of_conns (ackCount_conns _ _))
      · split
        · exact .refl l
        · split
          · refine Handled.trans ?_ (settleRepl_handled _ slot _ _ _ _)
            exact (replyAck_handled l slot _ _ _).trans (.of_conns (ackCount_conns _ _))
          · exact (replyErrText_handled l slot _ _ _).trans (settleRepl_handled _ slot _ _ _ _)
  unfold acksEmitOne
  split
  · exact .refl l
  · exact (first l).trans (second _)

theorem note_handled (handled : Handled l l') (note : Note) : Handled l (l'.note note) :=
  handled

theorem acksEmit_handled (l : Loop) : Handled l (acksEmit l) := by
  unfold acksEmit
  simp only
  exact note_handled (Handled.foldl (acksEmitOne_handled (replBest l) (replLive l))
    (List.range LOOP_MAX_CONNS) l) _

theorem replStreamOne_handled (limit : Nat) (l : Loop) (slot : Nat) :
    Handled l (replStreamOne limit l slot) := by
  unfold replStreamOne
  simp only
  cases (l.conns slot).replica with
  | none => exact .refl l
  | some idx =>
      simp only
      split
      · exact .refl l
      · cases walCursorRead l.os l.wal (l.peer idx).cursor limit
            ((l.conns slot).sendCap - MSG_HEADER_SIZE) with
        | mk res rest =>
            cases res with
            | error e => exact (close_handled _ slot).after rfl
            | ok bytes =>
                simp only
                split
                · exact .of_conns rfl
                · refine note_handled ?_ _
                  intro other
                  unfold Loop.setConn
                  by_cases same : other = slot
                  · rw [same]
                    simp only [if_true]
                    exact ⟨rfl, rfl, id⟩
                  · simp only [if_neg same]
                    exact .refl _

theorem replStream_handled (l : Loop) : Handled l (replStream l) :=
  Handled.foldl (replStreamOne_handled (walDurableSeq l.wal)) (List.range LOOP_MAX_CONNS) l

theorem streamReport_conns (l : Loop) : (streamReport l).conns = l.conns := by
  unfold streamReport
  split
  · rfl
  · split
    · rfl
    · split
      · rfl
      · exact streamFrame_conns l _ _

theorem pushRecords_handled (slot : Nat) (buf : Bytes) (fuel : Nat) (l : Loop) (at' : Nat) :
    Handled l (pushRecords slot buf fuel l at') := by
  induction fuel generalizing l at' with
  | zero => exact .refl l
  | succ fuel ih =>
      unfold pushRecords
      split
      · split
        · exact .refl l
        · simp only
          split
          · exact .refl l
          · split
            · refine Handled.trans ?_ (ih _ _)
              exact replyFrame_handled l slot _
            · exact ih l _
      · exact .refl l

theorem subsPushOne_handled (state : Loop × Nat) (slot : Nat) :
    Handled state.1 (subsPushOne state slot).1 := by
  obtain ⟨l, durable⟩ := state
  have read (limit room : Nat) (l : Loop) : Handled l (subsPushRead limit room l slot) := by
    unfold subsPushRead
    simp only
    cases walCursorRead l.os l.wal (l.conns slot).sub.cursor limit room with
    | mk res rest =>
        obtain ⟨cursor, os⟩ := rest
        have moved : Handled l ({ l with os := os }.setSub slot
            { (l.conns slot).sub with cursor := cursor }) :=
          (setSub_handled { l with os := os } slot _).after rfl
        cases res with
        | error e => exact moved.trans (replyErr_close_handled _ slot _ _)
        | ok got =>
            simp only
            split
            · exact moved.trans (pushRecords_handled slot _ _ _ _)
            · refine moved.trans ?_
              exact (pushRecords_handled slot _ _ _ _).after rfl
  unfold subsPushOne
  simp only
  split
  · exact .refl l
  · split
    · unfold subsPushWaiting
      simp only
      split
      · have started (sub : LoopSub) : Handled l (subAnswer (l.setSub slot sub) slot
            (l.conns slot).sub.cursor.nextSeq) :=
          (setSub_handled l slot sub).trans (subAnswer_handled _ slot _)
        exact started _
      · split
        · have answered := (setSub_handled l slot
            { (l.conns slot).sub with waiting := false }).trans
            (replyErr_handled _ slot MSG_ERR_BEHIND (l.conns slot).sub.minSeq)
          exact answered.trans ((setSub_handled _ slot _).after rfl)
        · exact .refl l
    · split
      · exact .refl l
      · split
        · exact .refl l
        · split
          · exact read _ _ l
          · split
            · unfold subsPushLast
              simp only
              have answered := reply_handled l slot MSG_OP_NOTIFY MSG_FLAG_LAST
                (l.conns slot).sub.untilSeq []
              exact answered.trans ((setSub_handled _ slot _).after rfl)
            · exact (read _ _ _).after rfl

theorem subsPush_handled (l : Loop) : Handled l (subsPush l) := by
  have folded (slots : List Nat) (state : Loop × Nat) :
      Handled state.1 (slots.foldl subsPushOne state).1 := by
    induction slots generalizing state with
    | nil => exact .refl _
    | cons slot rest ih => exact (subsPushOne_handled state slot).trans (ih _)
  exact folded (List.range LOOP_MAX_CONNS) (l, walDurableSeq l.wal)

/-- Retention changes the log, and what the loop notes of its retention. -/
theorem retainPass_only (l : Loop) : ∃ w os failed seen counts trace,
    retainPass l =
      { l with
        wal := w
        os := os
        retainFailed := failed
        retainSeenSegs := seen
        counts := counts
        trace := trace } := by
  unfold retainPass
  simp only
  split
  · exact ⟨_, _, _, _, _, _, rfl⟩
  · split
    · exact ⟨_, _, _, _, _, _, rfl⟩
    · split
      · exact ⟨_, _, _, _, _, _, rfl⟩
      · generalize (if l.replicasWant > 0 ∧ l.retainFloor + 1 < walRetainMark l.wal l.retainSegments
          then l.retainFloor + 1 else walRetainMark l.wal l.retainSegments) = keepFrom
        split
        · exact ⟨_, _, _, _, _, _, rfl⟩
        · generalize walRetain l.os l.wal keepFrom = retained
          obtain ⟨res, removed, w, os⟩ := retained
          cases res with
          | ok done => exact ⟨_, _, _, _, _, _, rfl⟩
          | error e => exact ⟨_, _, _, _, _, _, rfl⟩

theorem retainPass_conns (l : Loop) : (retainPass l).conns = l.conns := by
  obtain ⟨w, os, failed, seen, counts, trace, same⟩ := retainPass_only l
  rw [same]

theorem loopFlush_conns (l : Loop) : (loopFlush l).2.conns = l.conns := by
  unfold loopFlush
  split
  · rfl
  · exact flushes_conns l false

theorem streamed_handled (l : Loop) :
    Handled l (if l.isFollower then streamReport l else replStream l) := by
  split
  · exact .of_conns (streamReport_conns l)
  · exact replStream_handled l

theorem pushed_handled (l : Loop) : Handled l (retainPass (subsPush l)) :=
  (subsPush_handled l).trans (.of_conns (retainPass_conns _))

theorem loopServe_handled (l : Loop) : Handled l (loopServe l) :=
  (acksEmit_handled l).trans ((streamed_handled _).trans (pushed_handled _))

/-! ### The arm phase -/

theorem connWantOut_other (l : Loop) (slot : Nat) (want ctl : Bool) {other : Nat}
    (differ : other ≠ slot) : (connWantOut l slot want ctl).conns other = l.conns other := by
  unfold connWantOut
  simp only
  split
  · rfl
  · split
    · exact if_neg differ
    · exact if_neg differ

theorem connSend_other (l : Loop) (slot : Nat) (answer : SendAnswer) {other : Nat}
    (differ : other ≠ slot) : (connSend l slot answer).conns other = l.conns other := by
  unfold connSend
  simp only
  split
  · exact connWantOut_other _ slot _ _ differ
  · rw [connWantOut_other _ slot _ _ differ]
    unfold loopSendDone
    simp only
    split
    · rfl
    · split
      · exact if_neg differ
      · exact if_neg differ

theorem slotRelease_conns (l : Loop) (slot : Nat) (used : (l.conns slot).inUse = true) :
    (slotRelease l slot).conns = (l.setConn slot slotEmpty).conns := by
  have detached (idx : Nat) : (replicaRelease l idx).conns = l.conns := by
    unfold replicaRelease
    split
    · rfl
    · rfl
  unfold slotRelease
  simp only
  rw [if_neg (not_not.mpr used)]
  cases (l.conns slot).replica with
  | none =>
      cases (l.conns slot).sub.cursor.fd with
      | none => rfl
      | some fd => rfl
  | some idx =>
      cases (l.conns slot).sub.cursor.fd with
      | none =>
          unfold slotReset Loop.note Loop.setConn
          simp only
          rw [detached idx]
      | some fd =>
          unfold slotReset Loop.note Loop.setConn
          simp only
          rw [detached idx]

theorem slotRelease_other (l : Loop) (slot : Nat) {other : Nat} (differ : other ≠ slot) :
    (slotRelease l slot).conns other = l.conns other := by
  by_cases used : (l.conns slot).inUse = true
  · rw [slotRelease_conns l slot used]
    exact if_neg differ
  · have still : slotRelease l slot = l := by
      unfold slotRelease
      simp only
      rw [if_pos used]
    rw [still]

theorem armConn_other (sends : Nat → SendAnswer) (l : Loop) (slot : Nat) {other : Nat}
    (differ : other ≠ slot) : (armConn sends l slot).conns other = l.conns other := by
  unfold armConn
  split
  · rfl
  · simp only
    have sent : (if (l.conns slot).sendBuf ≠ [] ∧ ¬ (l.conns slot).wantOut = true then
        connSend l slot (sends slot) else l).conns other = l.conns other := by
      split
      · exact connSend_other l slot _ differ
      · rfl
    generalize (if (l.conns slot).sendBuf ≠ [] ∧ ¬ (l.conns slot).wantOut = true then
        connSend l slot (sends slot) else l) = l1 at sent ⊢
    split
    · rw [slotRelease_other l1 slot differ, sent]
    · have placed (conn : Conn) : (l1.setConn slot { l1.conns slot with conn := conn }).conns other =
          l.conns other := (if_neg differ).trans sent
      split
      · rw [slotRelease_other _ slot differ]
        exact (if_neg differ).trans (placed _)
      · exact placed _

/-- A connection that ends is given up when its turn comes. -/
theorem armConn_releases (sends : Nat → SendAnswer) (ends : l.ends slot) :
    ((armConn sends l slot).conns slot).inUse = false := by
  unfold armConn
  rw [if_neg (not_not.mpr ends.1)]
  simp only
  have sent : (if (l.conns slot).sendBuf ≠ [] ∧ ¬ (l.conns slot).wantOut = true then
      connSend l slot (sends slot) else l).ends slot := by
    split
    · exact (connSend_handled l slot _).ends ends
    · exact ends
  generalize (if (l.conns slot).sendBuf ≠ [] ∧ ¬ (l.conns slot).wantOut = true then
      connSend l slot (sends slot) else l) = l1 at sent ⊢
  rw [if_pos sent.2, slotRelease_conns l1 slot sent.1]
  exact congrArg LoopConn.inUse (if_pos rfl)

/-- What gives up a connection on its turn gives it up in the whole phase. -/
theorem armConns_settle {P : LoopConn → Prop} {sends : Nat → SendAnswer}
    (settles : ∀ l : Loop, P (l.conns slot) → ((armConn sends l slot).conns slot).inUse = false)
    {slots : List Nat} (listed : slot ∈ slots) (holds : P (l.conns slot)) :
    ((slots.foldl (armConn sends) l).conns slot).inUse = false := by
  have settled (slots : List Nat) (l : Loop) (unused : (l.conns slot).inUse = false) :
      ((slots.foldl (armConn sends) l).conns slot).inUse = false := by
    induction slots generalizing l with
    | nil => exact unused
    | cons other rest ih =>
        refine ih _ ?_
        by_cases same : slot = other
        · subst same
          unfold armConn
          rw [if_pos (by rw [unused]; exact Bool.false_ne_true)]
          exact unused
        · rw [armConn_other sends l other same]
          exact unused
  induction slots generalizing l with
  | nil => cases listed
  | cons other rest ih =>
      rw [List.foldl_cons]
      by_cases same : slot = other
      · subst same
        exact settled rest _ (settles l holds)
      · refine ih ((List.mem_cons.mp listed).resolve_left same) ?_
        rw [armConn_other sends l other same]
        exact holds

theorem armPhase_releases (arm : Arm) (inside : slot < LOOP_MAX_CONNS) (ends : l.ends slot) :
    ((armPhase l arm).conns slot).inUse = false := by
  unfold armPhase armConns
  rw [armStream_conns]
  exact armConns_settle (P := fun c => c.inUse = true ∧ c.closing = true)
    (fun _ ends => armConn_releases arm.sends ends) (List.mem_range.mpr inside)
    ((Handled.of_conns (replDial_conns l arm.dial)).ends ends)

/-! ### A violation in a pass -/

/-- The loop when these events of the pass have been handled. -/
def Loop.meets (l : Loop) (pass : Pass) (front : List Event) : Loop :=
  loopDispatch { armPhase (l.prepare pass) pass.arm with progress := false } front

/-- The loop with what the connection has just received in its buffer. -/
def Loop.received (l : Loop) (slot : Nat) (bytes : Bytes) : Loop :=
  (l.setConn slot { l.conns slot with conn := connRecvCommit (l.conns slot).conn bytes }).note
    (.heard slot bytes)

/-- After these events the pass receives bytes on a connection, in which `conn_feed`
finds a violation. -/
structure Violates (l : Loop) (pass : Pass) (front : List Event) (slot : Nat) (bytes : Bytes) :
    Prop where
  waits : ∃ writable back,
    pass.wait = some (front ++ .conn slot (some (.data bytes)) writable :: back)
  inside : slot < LOOP_MAX_CONNS
  used : ((l.meets pass front).conns slot).inUse = true
  space : connRecvSpace ((l.meets pass front).conns slot).conn ≠ 0
  some' : bytes ≠ []
  unclosed : ((l.meets pass front).conns slot).conn.closed = false
  closed : ((onRecv (l.meets pass front) slot bytes).conns slot).conn.closed = true

/-- `on_recv` has marked the connection, and the pass gives its slot up. -/
def EndsInPass (l : Loop) (pass : Pass) (front : List Event) (slot : Nat) (bytes : Bytes) : Prop :=
  ((onRecv (l.meets pass front) slot bytes).conns slot).closing = true ∧
    ((loopTick l pass).1 = .ok () → ((loopTick l pass).2.conns slot).inUse = false)

/-- The valid frames before the violation do not leave exactly one place of eight, or
serving them ends the connection already. -/
def LeavesRoom (l : Loop) (slot : Nat) (bytes : Bytes) : Prop :=
  ((l.received slot bytes).conns slot).conn.ahead.1 % 8 ≠ 7 ∨
    framesEnd (((l.received slot bytes).conns slot).conn.buf.length + 2) (l.received slot bytes)
      slot = true

theorem onRecv_eq (l : Loop) (slot : Nat) (bytes : Bytes) :
    onRecv l slot bytes = onRecvLoop (((l.received slot bytes).conns slot).conn.buf.length + 2)
      (l.received slot bytes) slot := by
  have conn : ((l.received slot bytes).conns slot).conn =
      connRecvCommit (l.conns slot).conn bytes := congrArg LoopConn.conn (if_pos rfl)
  rw [conn]
  rfl

theorem onRecv_ends {bytes : Bytes} (unclosed : (l.conns slot).conn.closed = false)
    (closed : ((onRecv l slot bytes).conns slot).conn.closed = true) :
    ((onRecv l slot bytes).conns slot).closing = true ↔ LeavesRoom l slot bytes := by
  rw [onRecv_eq] at closed ⊢
  refine (onRecvLoop_ends _ ?_ closed).2
  have conn : ((l.received slot bytes).conns slot).conn =
      connRecvCommit (l.conns slot).conn bytes := congrArg LoopConn.conn (if_pos rfl)
  rw [conn]
  unfold connRecvCommit
  rw [if_neg (by rw [unclosed]; exact Bool.false_ne_true)]
  exact unclosed

theorem onRecvLoop_used (fuel : Nat) : ((onRecvLoop fuel l slot).conns slot).inUse =
    (l.conns slot).inUse := by
  induction fuel generalizing l with
  | zero => rfl
  | succ fuel ih =>
      unfold onRecvLoop
      simp only
      have placed : ((l.setConn slot { l.conns slot with
          conn := (connFeed (l.conns slot).conn 8).2 }).conns slot).inUse =
            (l.conns slot).inUse := by
        unfold Loop.setConn
        simp only [if_true]
      split
      · exact placed
      · have handled := ((Handled.foldl (onAction_handled slot)
          (connFeed (l.conns slot).conn 8).1 _) slot).inUse.trans placed
        split
        · exact handled
        · exact ih.trans handled

theorem onRecv_used (l : Loop) (slot : Nat) (bytes : Bytes) :
    ((onRecv l slot bytes).conns slot).inUse = (l.conns slot).inUse := by
  rw [onRecv_eq, onRecvLoop_used]
  unfold Loop.received Loop.note Loop.setConn
  simp only [if_true]

/-- A connection that ends during the events is given up by the end of the pass. -/
theorem loopTick_releases {pass : Pass} {front back : List Event}
    (waits : pass.wait = some (front ++ back)) (inside : slot < LOOP_MAX_CONNS)
    (ends : (back.foldl tickEvent (l.meets pass front)).ends slot)
    (served : (loopTick l pass).1 = .ok ()) : ((loopTick l pass).2.conns slot).inUse = false := by
  have dispatched : loopDispatch { armPhase (l.prepare pass) pass.arm with progress := false }
      (front ++ back) = back.foldl tickEvent (l.meets pass front) := by
    unfold Loop.meets loopDispatch
    rw [List.foldl_append]
  unfold loopTick at served ⊢
  rw [waits] at served ⊢
  simp only at served ⊢
  rw [dispatched] at served ⊢
  have flushed := (Handled.of_conns (loopFlush_conns (back.foldl tickEvent
    (l.meets pass front)))).ends ends
  generalize loopFlush (back.foldl tickEvent (l.meets pass front)) = flush at served flushed ⊢
  obtain ⟨res, l1⟩ := flush
  cases res with
  | error e => cases served
  | ok done =>
      simp only
      exact armPhase_releases pass.rearm inside ((loopServe_handled l1).ends flushed)

theorem Violates.ends {pass : Pass} {front : List Event} {bytes : Bytes}
    (violates : Violates l pass front slot bytes)
    (closing : ((onRecv (l.meets pass front) slot bytes).conns slot).closing = true)
    (served : (loopTick l pass).1 = .ok ()) : ((loopTick l pass).2.conns slot).inUse = false := by
  obtain ⟨writable, back, waits⟩ := violates.waits
  refine loopTick_releases waits violates.inside ?_ served
  rw [List.foldl_cons]
  have received : doRecv (l.meets pass front) slot (.data bytes) =
      onRecv (l.meets pass front) slot bytes := by
    unfold doRecv
    simp only
    rw [if_neg (by rw [not_or, not_not]; exact ⟨violates.used, violates.space⟩),
      if_neg violates.some']
  have marked : (onRecv (l.meets pass front) slot bytes).ends slot :=
    ⟨(onRecv_used _ slot bytes).trans violates.used, closing⟩
  have first : (tickEvent (l.meets pass front) (.conn slot (some (.data bytes)) writable)).ends
      slot := by
    unfold tickEvent
    simp only
    rw [received]
    cases writable with
    | none => exact marked
    | some answer => exact (doSend_handled _ slot answer).ends marked
  exact events_ended back first

/-- **A violation ends the connection exactly where the frames before it leave room for
the close.** -/
theorem violation_ends {pass : Pass} {front : List Event} {bytes : Bytes}
    (violates : Violates l pass front slot bytes) :
    EndsInPass l pass front slot bytes ↔ LeavesRoom (l.meets pass front) slot bytes := by
  have marked := onRecv_ends violates.unclosed violates.closed
  exact ⟨fun ends => marked.mp ends.1,
    fun room => ⟨marked.mpr room, violates.ends (marked.mpr room)⟩⟩

/-- A client that has been accepted. -/
def accepted : Loop := (leaderAlone.fresh 120).after [calmPass [] [.listen (some true)]]

/-- A HELLO and so many PINGs before a frame with no magic. -/
def spoilt (pings : Nat) : Bytes :=
  helloBytes 0 ++ (List.replicate pings (requestBytes MSG_OP_PING 0 0 1 [])).flatten ++
    zeros MSG_HEADER_SIZE

def spoiltPass (pings : Nat) : Pass := calmPass [7] [arrives 0 (spoilt pings)]

set_option maxRecDepth 8000 in
theorem accepted_violates {pings : Nat} (some' : pings = 0 ∨ pings = 6) :
    Violates accepted (spoiltPass pings) [] 0 (spoilt pings) := by
  rcases some' with first | last
  · subst first
    exact ⟨⟨none, [], rfl⟩, by decide, by decide +kernel, by decide +kernel, by decide +kernel,
      by decide +kernel, by decide +kernel⟩
  · subst last
    exact ⟨⟨none, [], rfl⟩, by decide, by decide +kernel, by decide +kernel, by decide +kernel,
      by decide +kernel, by decide +kernel⟩

/-- Seven valid frames take the place of the close. -/
theorem violation_survives : ¬ ∀ (l : Loop) (pass : Pass) (front : List Event) (slot : Nat)
    (bytes : Bytes), Running leaderAlone l → Violates l pass front slot bytes →
    EndsInPass l pass front slot bytes := by
  intro always
  have running : Running leaderAlone accepted :=
    after_running (fresh_running leaderAlone (by decide +kernel)) _
  have ends := always _ _ _ _ _ running (accepted_violates (.inr rfl))
  have closing := ends.1
  revert closing
  decide +kernel

theorem violation_ends_first :
    EndsInPass accepted (spoiltPass 0) [] 0 (spoilt 0) ↔
      LeavesRoom (accepted.meets (spoiltPass 0) []) 0 (spoilt 0) :=
  violation_ends (accepted_violates (.inl rfl))

end Msgsrvd

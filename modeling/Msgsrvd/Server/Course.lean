/-
The course of the streams: what any step of the loop does to where the subscribers and the
replicas stand in the log, and to what they have been given.
-/

import Msgsrvd.Server.Follows
import Msgsrvd.Server.Reads

namespace Msgsrvd

open Bytestring

/-! ### Records that have been read -/

/-- A record as a cursor reads it: its header and as many bytes as that says. -/
structure Walked.Is (bytes : Bytes) (r : WalRec) : Prop where
  decoded : walRecDecode bytes = some r
  sized : walRecSize (i32 r.len) ≠ 0
  size : walRecSize (i32 r.len) = bytes.length

/-- Records that are numbered from this sequence on. -/
def Consecutive : Nat → List Bytes → Prop
  | _, [] => True
  | next, bytes :: rest => (∃ r, Walked.Is bytes r ∧ r.seq = next) ∧ Consecutive (next + 1) rest

theorem Consecutive.append {next : Nat} {front back : List Bytes} (early : Consecutive next front)
    (late : Consecutive (next + front.length) back) : Consecutive next (front ++ back) := by
  induction front generalizing next with
  | nil => exact late
  | cons bytes rest ih =>
      refine ⟨early.1, ih early.2 ?_⟩
      rw [List.length_cons] at late
      rw [show next + 1 + rest.length = next + (rest.length + 1) by omega]
      exact late

/-- A walk over a buffer takes whole records, each at the sequence it was read for. -/
theorem cursorWalk_consecutive {buf : Bytes} {limit fuel at' next used next' : Nat}
    (walked : cursorWalk buf limit fuel at' next = (.ok (), used, next')) :
    ∃ recs, (buf.drop at').take (used - at') = recs.flatten ∧ Consecutive next recs ∧
      next' = next + recs.length := by
  induction fuel generalizing at' next with
  | zero =>
      cases walked
      exact ⟨[], by rw [Nat.sub_self]; rfl, trivial, rfl⟩
  | succ fuel ih =>
      have still (same : ((.ok (), used, next') : Except Err Unit × Nat × Nat) = (.ok (), at', next)) :
          ∃ recs, (buf.drop at').take (used - at') = recs.flatten ∧ Consecutive next recs ∧
            next' = next + recs.length := by
        cases same
        exact ⟨[], by rw [Nat.sub_self]; rfl, trivial, rfl⟩
      unfold cursorWalk at walked
      split at walked
      · cases decoded : walRecDecode (buf.drop at') with
        | none =>
            rw [decoded] at walked
            exact still walked.symm
        | some r =>
            rw [decoded] at walked
            simp only at walked
            split at walked
            · exact still walked.symm
            · split at walked
              · cases walked
              · rename_i seq
                rw [not_not] at seq
                split at walked
                · exact still walked.symm
                · split at walked
                  · cases walked
                  · rename_i sized
                    split at walked
                    · exact still walked.symm
                    · rename_i inside
                      have header := header_le_walRecSize sized
                      unfold WAL_REC_HEADER_SIZE at header
                      have low := (cursorWalk_used walked).1
                      obtain ⟨recs, flat, are, ends⟩ := ih walked
                      generalize size' : walRecSize (i32 r.len) = size at *
                      have length : ((buf.drop at').take size).length = size := by
                        rw [List.length_take, List.length_drop]
                        omega
                      have is : Walked.Is ((buf.drop at').take size) r := by
                        refine ⟨?_, by rw [size']; exact sized, by rw [size', length]⟩
                        have same := walRecDecode_append ((buf.drop at').take size)
                          ((buf.drop at').drop size)
                          (by rw [length]; unfold WAL_REC_HEADER_SIZE; omega)
                        rw [List.take_append_drop, decoded] at same
                        exact same.symm
                      refine ⟨(buf.drop at').take size :: recs, ?_, ⟨⟨r, is, seq⟩, are⟩, ?_⟩
                      · rw [List.flatten_cons, ← flat,
                          show used - at' = size + (used - (at' + size)) by omega,
                          List.take_add, List.drop_drop]
                      · rw [ends, List.length_cons]
                        omega
      · exact still walked.symm

/-- What a read gives is whole records from the cursor on, and the cursor stands behind them. -/
theorem walCursorRead_consecutive {os os' : Os} {w : Wal} {cur cur' : WalCursor}
    {limit bufLen : Nat} {got : Bytes}
    (read : walCursorRead os w cur limit bufLen = (.ok got, cur', os')) :
    ∃ recs, got = recs.flatten ∧ Consecutive cur.nextSeq recs ∧
      cur'.nextSeq = cur.nextSeq + recs.length := by
  have tries (attempts : Nat) {os : Os} {cur : WalCursor}
      (read : cursorAttempt w limit bufLen attempts os cur = (.ok got, cur', os')) :
      ∃ recs, got = recs.flatten ∧ Consecutive cur.nextSeq recs ∧
        cur'.nextSeq = cur.nextSeq + recs.length := by
    induction attempts generalizing os cur with
    | zero =>
        cases read
        exact ⟨[], rfl, trivial, rfl⟩
    | succ attempts ih =>
        obtain ⟨buf, os1, used, next, _preads, walks, ends⟩ := cursorAttempt_ok read
        rcases ends with ⟨_moved, taken, moved⟩ | ⟨_none, taken, same, _stops⟩ |
          ⟨_none, base, c2, os2, _at, _differ, opens, again⟩
        · obtain ⟨recs, flat, are, ends⟩ := cursorWalk_consecutive walks
          rw [List.drop_zero, Nat.sub_zero] at flat
          rw [moved]
          exact ⟨recs, taken.trans flat, are, ends⟩
        · rw [taken, same]
          exact ⟨[], rfl, trivial, rfl⟩
        · rw [← (cursorOpenSeg_ok opens).2]
          exact ih again
  unfold walCursorRead at read
  split at read
  · cases read
  · split at read
    · cases read
    · split at read
      · cases read
        exact ⟨[], rfl, trivial, rfl⟩
      · exact tries 2 read

/-- A cursor that has sought a sequence stands there. -/
theorem walCursorSeek_stands {os os' : Os} {w : Wal} {cur cur' : WalCursor} {seq scratchLen : Nat}
    (sought : walCursorSeek os w cur seq scratchLen = (.ok (), cur', os')) :
    cur'.nextSeq = seq := by
  have walks (fuel : Nat) {os : Os} {cur : WalCursor} (left : seq - cur.nextSeq = fuel)
      (low : cur.nextSeq ≤ seq)
      (walked : cursorWalkTo seq fuel os cur = (.ok (), cur', os')) : cur'.nextSeq = seq := by
    induction fuel generalizing os cur with
    | zero =>
        cases walked
        omega
    | succ fuel ih =>
        unfold cursorWalkTo at walked
        split at walked
        · split at walked
          · cases walked
          · split at walked
            · cases walked
            · split at walked
              · cases walked
              · simp only at walked
                split at walked
                · cases walked
                · refine ih ?_ ?_ walked
                  · simp only
                    omega
                  · simp only
                    omega
        · cases walked
          omega
  unfold walCursorSeek at sought
  split at sought
  · cases sought
  · split at sought
    · cases sought
    · cases found : segIndexOf w.segBase seq with
      | none =>
          rw [found] at sought
          cases sought
      | some base =>
          rw [found] at sought
          simp only at sought
          have lower := List.find?_some found
          have below : base ≤ seq := of_decide_eq_true lower
          split at sought
          · cases sought
          · exact walks (seq - base) rfl below sought

theorem Consecutive.flatten_nil {next : Nat} {recs : List Bytes} (are : Consecutive next recs)
    (none' : recs.flatten = []) : recs = [] := by
  cases recs with
  | nil => rfl
  | cons bytes rest =>
      obtain ⟨⟨r, is, _seq⟩, _later⟩ := are
      rw [List.flatten_cons, List.append_eq_nil_iff] at none'
      have sized := is.sized
      rw [is.size, none'.1] at sized
      exact absurd rfl sized

/-! ### What is sent of them -/

/-- The stream is for the record. -/
def LoopSub.wants (sub : LoopSub) (bytes : Bytes) : Bool := sub.allKeys || ofKey sub.key bytes

/-- The NOTIFY of a record: its own sequence, key and type, and its own payload. -/
def recordFrame (bytes : Bytes) (r : WalRec) : Frame :=
  ⟨msgHeaderNew MSG_OP_NOTIFY r.recordType 0 r.len r.partitionKey r.seq,
    slice bytes WAL_REC_HEADER_SIZE r.len⟩

/-- What a subscriber is sent of the records it is for. -/
def LoopSub.frames (sub : LoopSub) (recs : List Bytes) : List Frame :=
  (recs.filter sub.wants).filterMap (fun bytes => (walRecDecode bytes).map (recordFrame bytes))

/-- The notes of one record that has been read, and of all of them, newest first. -/
def pushNote (slot session : Nat) (sub : LoopSub) (durable : Nat) (bytes : Bytes) : List Note :=
  match walRecDecode bytes with
  | none => []
  | some r =>
      if sub.wants bytes then
        [.pushed slot sub durable r true, .staged slot session (recordFrame bytes r)]
      else []

def pushNotes (slot session : Nat) (sub : LoopSub) (durable : Nat) (recs : List Bytes) :
    List Note :=
  recs.reverse.flatMap (pushNote slot session sub durable)

/-- One batch to a replica. -/
def batchFrame (next : Nat) (recs : List Bytes) : Frame :=
  ⟨msgHeaderNew MSG_OP_REPL_DATA MSG_RECORD_NONE 0 recs.flatten.length 0 next, recs.flatten⟩

/-- What the op says of the payload: an ACK answers a write or a stream, the text of an ERR is
as long as it says, a PONG and the end of a stream are bare.  Nothing else is ever sent. -/
def Frame.bodied (frame : Frame) : Bool :=
  if frame.header.op = MSG_OP_ACK then
    frame.payload.length == 0 || frame.payload.length == MSG_ACK_SIZE
  else if frame.header.op = MSG_OP_ERR then
    (msgDecodeErrPayload frame.payload).any (fun p => msgErrValid p frame.payload.length)
  else if frame.header.op = MSG_OP_PONG then frame.payload.length == 0
  else if frame.header.op = MSG_OP_NOTIFY then
    !hasFlag frame.header.flags MSG_FLAG_LAST || frame.payload.length == 0
  else frame.header.op == MSG_OP_REPL_DATA

/-- A frame of this protocol. -/
def Frame.formed (frame : Frame) : Bool :=
  frame.header.magic == MSG_MAGIC && frame.header.version == MSG_VERSION && frame.bodied

/-- A frame that carries no record. -/
def Frame.plain (frame : Frame) : Bool :=
  frame.formed && decide (frame.header.op ≠ MSG_OP_REPL_DATA) &&
    (decide (frame.header.op ≠ MSG_OP_NOTIFY) || hasFlag frame.header.flags MSG_FLAG_LAST)

/-! ### Where the streams stand -/

@[ext] structure Course where
  sub : Nat → LoopSub
  closing : Nat → Bool
  replica : Nat → Option Nat
  live : Nat → Bool
  /-- where the replicas' cursors stand -/
  next : Nat → Nat
  trace : List Note

def Loop.course (l : Loop) : Course where
  sub slot := (l.conns slot).sub
  closing slot := (l.conns slot).closing
  replica slot := (l.conns slot).replica
  live idx := (l.peer idx).live
  next idx := (l.peer idx).cursor.nextSeq
  trace := l.trace

/-- A note that says nothing of a stream: no record is in it, and none begins or ends. -/
def Note.plain : Note → Bool
  | .opened _ | .released _ | .began _ _ _ | .pushed _ _ _ _ _ | .ended _ _ _ | .attached _ _ _
  | .detached _ => false
  | .staged _ _ frame => frame.plain
  | _ => true

def Course.note (c : Course) (note : Note) : Course := { c with trace := note :: c.trace }

open Function (update)

/-- One change to where the streams stand. -/
inductive Course.Step : Course → Course → Prop where
  | noted {c : Course} {note : Note} (plain : note.plain = true) : Step c (c.note note)
  | shut {c : Course} (slot : Nat) : Step c { c with closing := update c.closing slot true }
  | opened {c : Course} {slot : Nat} :
      Step c
        { c with
          sub := update c.sub slot subNone
          closing := update c.closing slot false
          replica := update c.replica slot none
          trace := .opened slot :: c.trace }
  | released {c : Course} {slot : Nat} :
      Step c
        { c with
          sub := update c.sub slot subNone
          closing := update c.closing slot false
          replica := update c.replica slot none
          trace := .released slot :: c.trace }
  | detached {c : Course} {slot idx : Nat} (next : Nat) (of : c.replica slot = some idx) :
      Step c
        { c with
          replica := update c.replica slot none
          live := update c.live idx false
          next := update c.next idx next
          trace := .detached idx :: c.trace }
  | attached {c : Course} {slot idx next : Nat} (free : c.live idx = false) :
      Step c
        { c with
          replica := update c.replica slot (some idx)
          live := update c.live idx true
          next := update c.next idx next
          trace := .attached slot idx (next - 1) :: c.trace }
  /-- a replica slot that nobody has is sought in vain -/
  | sought {c : Course} {idx : Nat} (next : Nat) (free : c.live idx = false) :
      Step c { c with next := update c.next idx next }
  /-- a stream that is not running is changed, and does not run -/
  | tuned {c : Course} {slot : Nat} {sub : LoopSub}
      (idle : (c.sub slot).active = false ∨ (c.sub slot).waiting = true)
      (kept : sub.active = (c.sub slot).active) :
      Step c { c with sub := update c.sub slot sub }
  | began {c : Course} {slot : Nat} {sub : LoopSub} (durable : Nat)
      (idle : (c.sub slot).active = false ∨ (c.sub slot).waiting = true)
      (active : sub.active = true) (waiting : sub.waiting = false) :
      Step c
        { c with sub := update c.sub slot sub, trace := .began slot sub durable :: c.trace }
  | read {c : Course} {slot : Nat} {cursor : WalCursor} {recs : List Bytes} (session durable : Nat)
      (stays : c.closing slot = false) (active : (c.sub slot).active = true)
      (waiting : (c.sub slot).waiting = false)
      (are : Consecutive (c.sub slot).cursor.nextSeq recs)
      (ends : cursor.nextSeq = (c.sub slot).cursor.nextSeq + recs.length) :
      Step c
        { c with
          sub := update c.sub slot { c.sub slot with cursor := cursor }
          trace := pushNotes slot session { c.sub slot with cursor := cursor } durable recs ++
            c.trace }
  /-- a read that fails is the connection's last -/
  | failed {c : Course} {slot : Nat} (cursor : WalCursor) :
      Step c
        { c with
          sub := update c.sub slot { c.sub slot with cursor := cursor }
          closing := update c.closing slot true }
  | ended {c : Course} {slot : Nat} (cursor : WalCursor) (durable : Nat)
      (stays : c.closing slot = false) (active : (c.sub slot).active = true)
      (waiting : (c.sub slot).waiting = false)
      (past : (c.sub slot).untilSeq < (c.sub slot).cursor.nextSeq) :
      Step c
        { c with
          sub := update c.sub slot { c.sub slot with active := false, cursor := cursor }
          trace := .ended slot (c.sub slot) durable :: c.trace }
  | batch {c : Course} {slot idx : Nat} {recs : List Bytes} (session : Nat)
      (stays : c.closing slot = false) (of : c.replica slot = some idx)
      (are : Consecutive (c.next idx) recs) (some' : recs ≠ []) :
      Step c
        { c with
          next := update c.next idx (c.next idx + recs.length)
          trace := .staged slot session (batchFrame (c.next idx) recs) :: c.trace }
  | broken {c : Course} {slot idx : Nat} (next : Nat) (of : c.replica slot = some idx) :
      Step c
        { c with
          next := update c.next idx next
          closing := update c.closing slot true }

/-- The loop takes such steps. -/
def Coursing (l l' : Loop) : Prop := Relation.ReflTransGen Course.Step l.course l'.course

variable {l l' l'' : Loop} {slot : Nat} {c : LoopConn} {note : Note}

theorem Coursing.same (same : l'.course = l.course) : Coursing l l' := by
  unfold Coursing
  rw [same]

theorem Coursing.refl (l : Loop) : Coursing l l := .same rfl

theorem Coursing.trans (left : Coursing l l') (right : Coursing l' l'') : Coursing l l'' :=
  Relation.ReflTransGen.trans left right

/-- From a loop on the same course. -/
theorem Coursing.after (coursing : Coursing l' l'') (same : l'.course = l.course) :
    Coursing l l'' :=
  (Coursing.same same).trans coursing

/-- To a loop on the same course. -/
theorem Coursing.before (coursing : Coursing l l') (same : l''.course = l'.course) :
    Coursing l l'' :=
  coursing.trans (.same same)

theorem Coursing.step {c : Course} (step : Course.Step l.course c) (same : l'.course = c) :
    Coursing l l' := by
  unfold Coursing
  rw [same]
  exact Relation.ReflTransGen.single step

theorem Coursing.foldl {α : Type} {f : Loop → α → Loop} (each : ∀ l a, Coursing l (f l a))
    (items : List α) (l : Loop) : Coursing l (items.foldl f l) := by
  induction items generalizing l with
  | nil => exact .refl l
  | cons item rest ih => exact (each l item).trans (ih (f l item))

theorem Coursing.tell (plain : note.plain = true) : Coursing l (l.note note) :=
  .step (.noted plain) rfl

theorem course_note (l : Loop) (note : Note) : (l.note note).course = l.course.note note := rfl

theorem course_setConn (l : Loop) (slot : Nat) (c : LoopConn) :
    (l.setConn slot c).course =
      { l.course with
        sub := update l.course.sub slot c.sub
        closing := update l.course.closing slot c.closing
        replica := update l.course.replica slot c.replica } := by
  have field {α : Type} (f : LoopConn → α) :
      (fun other => f ((l.setConn slot c).conns other)) =
        update (fun other => f (l.conns other)) slot (f c) := by
    funext other
    unfold update Loop.setConn
    by_cases here : other = slot
    · subst here
      simp
    · simp [here]
  ext1
  · exact field LoopConn.sub
  · exact field LoopConn.closing
  · exact field LoopConn.replica
  · rfl
  · rfl
  · rfl

theorem course_setPeer (l : Loop) (idx : Nat) (p : LoopPeer) :
    (l.setPeer idx p).course =
      { l.course with
        live := update l.course.live idx p.live
        next := update l.course.next idx p.cursor.nextSeq } := by
  have field {α : Type} (f : LoopPeer → α) :
      (fun other => f ((l.setPeer idx p).peer other)) =
        update (fun other => f (l.peer other)) idx (f p) := by
    funext other
    unfold update Loop.setPeer
    by_cases here : other = idx
    · subst here
      simp
    · simp [here]
  ext1
  · rfl
  · rfl
  · rfl
  · exact field LoopPeer.live
  · exact field (fun p => p.cursor.nextSeq)
  · rfl

/-- Nothing that bears on a stream is changed, or the connection is given up besides. -/
theorem Coursing.aside (sub : c.sub = (l.conns slot).sub)
    (replica : c.replica = (l.conns slot).replica)
    (closing : c.closing = (l.conns slot).closing ∨ c.closing = true) :
    Coursing l (l.setConn slot c) := by
  have subs : update l.course.sub slot c.sub = l.course.sub := by
    rw [sub]
    exact Function.update_eq_self slot l.course.sub
  have replicas : update l.course.replica slot c.replica = l.course.replica := by
    rw [replica]
    exact Function.update_eq_self slot l.course.replica
  rcases closing with same | shut
  · refine .same ?_
    have closings : update l.course.closing slot c.closing = l.course.closing := by
      rw [same]
      exact Function.update_eq_self slot l.course.closing
    rw [course_setConn, subs, replicas, closings]
  · refine .step (.shut slot) ?_
    rw [course_setConn, subs, replicas, shut]

end Msgsrvd

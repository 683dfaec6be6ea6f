/-
What becomes of an owed acknowledgement when the pass is served.

`acks_emit` clears the slot whatever `reply` says, so a connection without room for
the frame loses the answer.
-/

import Mathlib.Algebra.Order.BigOperators.Group.List
import Msgsrvd.Server.Serving

namespace Msgsrvd

open Bytestring

variable {l l' l'' : Loop} {slot : Nat} {c : LoopConn}

/-! ### The law -/

/-- The frames that answered what one connection was owed. -/
structure Answers where
  atLocal : Option Frame
  atRepl : Option Frame

def Answers.frames (answers : Answers) : List Frame :=
  answers.atLocal.toList ++ answers.atRepl.toList

def Frame.isAck (frame : Frame) : Bool := frame.header.op == MSG_OP_ACK

def LoopCounts.acks (counts : LoopCounts) : Nat :=
  counts.acksAppend + counts.acksSync + counts.acksRepl

def LoopAck.ack (a : LoopAck) (flags : Nat) : Frame := ackFrame flags a.walSeq a.clientSeq

def LoopAck.refusal (a : LoopAck) : Frame := errFrame MSG_ERR_NO_REPLICAS a.clientSeq []

/-- What was owed is still owed, or was answered by a whole frame, or the connection
is at its end. -/
structure Answers.Keep (answers : Answers) (before after : LoopConn) : Prop where
  placed : after.sendBuf = before.sendBuf ++ answers.frames.flatMap Frame.bytes
  atLocal : before.ackLocal.due = true → after.ackLocal = before.ackLocal ∨
    before.closing = true ∨ answers.atLocal = some (before.ackLocal.ack before.ackLocal.flags)
  atRepl : before.ackRepl.due = true → after.ackRepl = before.ackRepl ∨
    before.closing = true ∨
    answers.atRepl = some (before.ackRepl.ack before.ackRepl.flags) ∨
    answers.atRepl =
      some (before.ackRepl.ack (before.ackRepl.flags ||| MSG_FLAG_DEGRADED)) ∨
    answers.atRepl = some before.ackRepl.refusal

/-- How many acknowledgements may be counted for a connection. -/
def Answers.countable (answers : Answers) (before : LoopConn) : Nat :=
  if before.closing then before.ackLocal.due.toNat + before.ackRepl.due.toNat
  else answers.frames.countP Frame.isAck

/-- An acknowledgement is cleared and counted only with its frame in the send buffer. -/
def OwedKept (l : Loop) : Prop :=
  ∃ answers : Nat → Answers,
    (∀ slot < LOOP_MAX_CONNS,
      (answers slot).Keep (l.conns slot) ((acksEmit l).conns slot)) ∧
    (acksEmit l).counts.acks ≤ l.counts.acks +
      ((List.range LOOP_MAX_CONNS).map
        (fun slot => (answers slot).countable (l.conns slot))).sum

/-- How many answers a connection is due: one for the flush, one for the end of a wait
for a replica. -/
def LoopConn.dues (c : LoopConn) (best durable : Nat) (live : Bool) (tick : Nat) : Nat :=
  c.ackLocal.due.toNat +
    (c.ackRepl.due && (c.ackRepl.verdict best durable live tick).isSome).toNat

def Loop.dues (l : Loop) (slot : Nat) : Nat :=
  (l.conns slot).dues (replBest l) (walDurableSeq l.wal) (replLive l) l.tick

/-- Every connection that stays has room for the answers it is due. -/
def Loop.AnswersFit (l : Loop) : Prop :=
  ∀ slot < LOOP_MAX_CONNS, (l.conns slot).inUse = true → (l.conns slot).closing = false →
    l.dues slot * (MSG_HEADER_SIZE + MSG_ACK_SIZE) ≤ (l.conns slot).room

/-! ### One connection -/

/-- The frame, if there is room for it. -/
def LoopConn.fit (c : LoopConn) (frame : Frame) : Option Frame :=
  if c.room < frame.size then none else some frame

def LoopConn.put (c : LoopConn) (placed : Option Frame) : LoopConn :=
  { c with sendBuf := c.sendBuf ++ placed.toList.flatMap Frame.bytes }

def LoopConn.dueLocal (c : LoopConn) : Option Frame :=
  if c.inUse ∧ c.ackLocal.due then some (c.ackLocal.ack c.ackLocal.flags) else none

def LoopAck.answer (a : LoopAck) (verdict : Bool × Nat) : Frame :=
  if verdict.1 then a.refusal else a.ack verdict.2

def LoopConn.dueRepl (c : LoopConn) (best durable : Nat) (live : Bool) (tick : Nat) :
    Option Frame :=
  if c.inUse ∧ c.ackRepl.due then
    (c.ackRepl.verdict best durable live tick).map c.ackRepl.answer
  else none

def LoopConn.clearLocal (c : LoopConn) : LoopConn :=
  match c.dueLocal with
  | none => c
  | some frame => { c.put (c.fit frame) with ackLocal := ackNone }

def LoopConn.clearRepl (c : LoopConn) (best durable : Nat) (live : Bool) (tick : Nat) :
    LoopConn :=
  match c.dueRepl best durable live tick with
  | none => c
  | some frame => { c.put (c.fit frame) with ackRepl := ackNone }

/-- Nothing but one connection and the counters has changed. -/
structure Turned (slot : Nat) (l l' : Loop) (c : LoopConn) (counted : Nat) : Prop where
  conns : l'.conns = (l.setConn slot c).conns
  acks : l'.counts.acks = l.counts.acks + counted
  peer : l'.peer = l.peer
  wal : l'.wal = l.wal
  tick : l'.tick = l.tick

theorem Turned.refl (l : Loop) (slot : Nat) : Turned slot l l (l.conns slot) 0 :=
  ⟨(conns_setConn_kept l slot).symm, rfl, rfl, rfl, rfl⟩

theorem Turned.at' {counted : Nat} (turned : Turned slot l l' c counted) : l'.conns slot = c := by
  rw [turned.conns]
  exact conns_setConn l slot c

theorem Turned.other {counted : Nat} (turned : Turned slot l l' c counted) {other : Nat}
    (differ : other ≠ slot) : l'.conns other = l.conns other := by
  rw [turned.conns]
  exact conns_setConn_other l c differ

theorem Turned.trans {c' : LoopConn} {first second : Nat} (left : Turned slot l l' c first)
    (right : Turned slot l' l'' c' second) : Turned slot l l'' c' (first + second) := by
  refine ⟨?_, ?_, right.peer.trans left.peer, right.wal.trans left.wal,
    right.tick.trans left.tick⟩
  · funext other
    rw [right.conns]
    by_cases same : other = slot
    · rw [same, conns_setConn, conns_setConn]
    · rw [conns_setConn_other _ _ same, conns_setConn_other _ _ same, left.other same]
  · rw [right.acks, left.acks, Nat.add_assoc]

theorem replyFrame_turned (l : Loop) (slot : Nat) (frame : Frame) :
    Turned slot l (replyFrame l slot frame).2 ((l.conns slot).put ((l.conns slot).fit frame))
      0 := by
  unfold replyFrame LoopConn.put LoopConn.fit Frame.size
  simp only
  split
  · simp only [Option.toList_none, List.flatMap_nil, List.append_nil]
    exact .refl l slot
  · simp only [Option.toList_some, List.flatMap_cons, List.flatMap_nil, List.append_nil]
    exact ⟨rfl, rfl, rfl, rfl, rfl⟩

theorem ackCount_turned (l : Loop) (slot flags : Nat) :
    Turned slot l (ackCount l flags) (l.conns slot) 1 := by
  rw [ackCount_rest]
  refine ⟨(conns_setConn_kept l slot).symm, ?_, rfl, rfl, rfl⟩
  unfold ackCount LoopCounts.acks
  split
  · rfl
  · split
    · simp only
      omega
    · simp only
      omega

theorem Turned.setConn {c' stored : LoopConn} {counted : Nat} (turned : Turned slot l l' c counted)
    (is : stored = c') (note : Note) :
    Turned slot l ((l'.setConn slot stored).note note) c' counted := by
  subst is
  refine ⟨?_, turned.acks, turned.peer, turned.wal, turned.tick⟩
  funext other
  by_cases same : other = slot
  · rw [same, conns_setConn]
    exact conns_setConn l' slot stored
  · rw [conns_setConn_other _ _ same, ← turned.other same]
    exact conns_setConn_other l' stored same

/-- An answer is staged, if it can be, and counted. -/
theorem counted_turned (l : Loop) (slot : Nat) (frame : Frame) (flags : Nat) :
    Turned slot l (ackCount (replyFrame l slot frame).2 flags)
      ((l.conns slot).put ((l.conns slot).fit frame)) 1 := by
  have first := replyFrame_turned l slot frame
  have second := first.trans (ackCount_turned _ slot flags)
  rw [first.at'] at second
  exact second

theorem Turned.counts {counted : Nat} (turned : Turned slot l l' c counted) {counts : LoopCounts}
    (same : counts.acks = l'.counts.acks) :
    Turned slot l { l' with counts := counts } c counted :=
  ⟨turned.conns, same.trans turned.acks, turned.peer, turned.wal, turned.tick⟩

theorem emitLocal_turned (used : (l.conns slot).inUse = true) :
    Turned slot l (emitLocal l slot) (l.conns slot).clearLocal
      (l.conns slot).ackLocal.due.toNat := by
  unfold LoopConn.clearLocal LoopConn.dueLocal
  by_cases due : (l.conns slot).ackLocal.due = true
  · rw [if_pos ⟨used, due⟩, due]
    unfold emitLocal
    simp only
    rw [if_neg (not_not.mpr due)]
    have answered := counted_turned l slot
      ((l.conns slot).ackLocal.ack (l.conns slot).ackLocal.flags) (l.conns slot).ackLocal.flags
    exact answered.setConn (congrArg (fun c => { c with ackLocal := ackNone }) answered.at') _
  · have still : emitLocal l slot = l := if_pos due
    rw [if_neg (fun both => due both.2), still, Bool.eq_false_iff.mpr due]
    exact .refl l slot

/-- A refusal is not counted. -/
def LoopConn.countsRepl (c : LoopConn) (best durable : Nat) (live : Bool) (tick : Nat) : Nat :=
  (c.dueRepl best durable live tick).toList.countP Frame.isAck

theorem emitRepl_turned (best : Nat) (live : Bool) (used : (l.conns slot).inUse = true) :
    Turned slot l (emitRepl best live l slot)
      ((l.conns slot).clearRepl best (walDurableSeq l.wal) live l.tick)
      ((l.conns slot).countsRepl best (walDurableSeq l.wal) live l.tick) := by
  unfold LoopConn.clearRepl LoopConn.countsRepl LoopConn.dueRepl
  generalize owed : (l.conns slot).ackRepl = a
  by_cases due : a.due = true
  · rw [if_pos ⟨used, due⟩]
    unfold LoopAck.verdict emitRepl
    simp only [owed]
    rw [if_neg (not_not.mpr due)]
    by_cases confirmed : best ≥ a.walSeq ∧ walDurableSeq l.wal ≥ a.walSeq
    · rw [if_pos confirmed, if_pos confirmed]
      have answered := counted_turned l slot (a.ack a.flags) a.flags
      exact answered.setConn (congrArg (fun c => { c with ackRepl := ackNone }) answered.at') _
    · rw [if_neg confirmed, if_neg confirmed]
      by_cases waiting : live = true ∧ l.tick < a.deadline
      · rw [if_pos waiting, if_pos waiting]
        exact .refl l slot
      · rw [if_neg waiting, if_neg waiting]
        by_cases degradable : a.degradable = true
        · rw [if_pos degradable, if_pos degradable]
          have counted := counted_turned l slot (a.ack (a.flags ||| MSG_FLAG_DEGRADED))
            (a.flags ||| MSG_FLAG_DEGRADED)
          have answered := @Turned.counts _ _ _ _ _ counted
            { (ackCount (replyFrame l slot (a.ack (a.flags ||| MSG_FLAG_DEGRADED))).2
                (a.flags ||| MSG_FLAG_DEGRADED)).counts with
              replDegraded := (ackCount (replyFrame l slot
                (a.ack (a.flags ||| MSG_FLAG_DEGRADED))).2
                  (a.flags ||| MSG_FLAG_DEGRADED)).counts.replDegraded + 1 } rfl
          exact answered.setConn
            (congrArg (fun c => { c with ackRepl := ackNone }) answered.at') _
        · rw [if_neg degradable, if_neg degradable]
          have answered := replyFrame_turned l slot a.refusal
          exact answered.setConn
            (congrArg (fun c => { c with ackRepl := ackNone }) answered.at') _
  · have still : emitRepl best live l slot = l := by
      unfold emitRepl
      simp only [owed]
      rw [if_pos due]
    rw [if_neg (fun both => due both.2), still]
    exact .refl l slot

/-! ### The sweep over the connections -/

section Emitted

variable (best durable : Nat) (live : Bool) (tick : Nat)

def LoopConn.afterEmit (c : LoopConn) : LoopConn := c.clearLocal.clearRepl best durable live tick

def LoopConn.countsEmit (c : LoopConn) : Nat :=
  c.dueLocal.toList.length + c.countsRepl best durable live tick

/-- The answers there was room for. -/
def LoopConn.given (c : LoopConn) : Answers :=
  ⟨c.dueLocal.bind c.fit, (c.dueRepl best durable live tick).bind c.clearLocal.fit⟩

theorem clearLocal_beside (c : LoopConn) :
    c.clearLocal.inUse = c.inUse ∧ c.clearLocal.ackRepl = c.ackRepl := by
  unfold LoopConn.clearLocal
  split
  · exact ⟨rfl, rfl⟩
  · exact ⟨rfl, rfl⟩

theorem clearLocal_dueRepl (c : LoopConn) :
    c.clearLocal.dueRepl best durable live tick = c.dueRepl best durable live tick := by
  unfold LoopConn.dueRepl
  rw [(clearLocal_beside c).1, (clearLocal_beside c).2]

theorem clearLocal_sendBuf (c : LoopConn) :
    c.clearLocal.sendBuf =
      c.sendBuf ++ (c.dueLocal.bind c.fit).toList.flatMap Frame.bytes := by
  unfold LoopConn.clearLocal
  cases c.dueLocal with
  | none => exact (List.append_nil _).symm
  | some frame => rfl

theorem clearRepl_sendBuf (c : LoopConn) :
    (c.clearRepl best durable live tick).sendBuf = c.sendBuf ++
      ((c.dueRepl best durable live tick).bind c.fit).toList.flatMap Frame.bytes := by
  unfold LoopConn.clearRepl
  cases c.dueRepl best durable live tick with
  | none => exact (List.append_nil _).symm
  | some frame => rfl

theorem afterEmit_placed (c : LoopConn) :
    (c.afterEmit best durable live tick).sendBuf =
      c.sendBuf ++ (c.given best durable live tick).frames.flatMap Frame.bytes := by
  unfold LoopConn.afterEmit LoopConn.given Answers.frames
  rw [clearRepl_sendBuf, clearLocal_sendBuf, clearLocal_dueRepl, List.flatMap_append,
    List.append_assoc]

end Emitted

theorem acksEmitOne_turned (best : Nat) (live : Bool) (l : Loop) (slot : Nat) :
    Turned slot l (acksEmitOne best live l slot)
      ((l.conns slot).afterEmit best (walDurableSeq l.wal) live l.tick)
      ((l.conns slot).countsEmit best (walDurableSeq l.wal) live l.tick) := by
  unfold acksEmitOne LoopConn.afterEmit LoopConn.countsEmit
  by_cases used : (l.conns slot).inUse = true
  · rw [if_neg (not_not.mpr used)]
    have first := emitLocal_turned used
    have used' : ((emitLocal l slot).conns slot).inUse = true := by
      rw [first.at', (clearLocal_beside _).1, used]
    have second := emitRepl_turned best live used'
    rw [first.at', first.wal, first.tick] at second
    have counted : (l.conns slot).clearLocal.countsRepl best (walDurableSeq l.wal) live l.tick =
        (l.conns slot).countsRepl best (walDurableSeq l.wal) live l.tick := by
      unfold LoopConn.countsRepl
      rw [clearLocal_dueRepl]
    have owed : (l.conns slot).dueLocal.toList.length = (l.conns slot).ackLocal.due.toNat := by
      unfold LoopConn.dueLocal
      cases (l.conns slot).ackLocal.due <;> simp [used]
    rw [owed, ← counted]
    exact first.trans second
  · rw [if_pos used]
    have atLocal : (l.conns slot).dueLocal = none := if_neg (fun both => used both.1)
    have atRepl : (l.conns slot).dueRepl best (walDurableSeq l.wal) live l.tick = none :=
      if_neg (fun both => used both.1)
    unfold LoopConn.clearLocal LoopConn.clearRepl LoopConn.countsRepl
    rw [atLocal]
    simp only [atRepl]
    exact .refl l slot

/-- Every connection is looked at once, and as it was before the sweep. -/
theorem acksEmitOne_each (best : Nat) (live : Bool) (slots : List Nat) (distinct : slots.Nodup)
    (l : Loop) :
    let l' := slots.foldl (acksEmitOne best live) l
    (∀ slot ∈ slots, l'.conns slot =
      (l.conns slot).afterEmit best (walDurableSeq l.wal) live l.tick) ∧
    (∀ other, other ∉ slots → l'.conns other = l.conns other) ∧
    l'.counts.acks = l.counts.acks + (slots.map (fun slot =>
      (l.conns slot).countsEmit best (walDurableSeq l.wal) live l.tick)).sum := by
  induction slots generalizing l with
  | nil => exact ⟨fun _ absent => (by cases absent), fun _ _ => rfl, rfl⟩
  | cons slot rest ih =>
      obtain ⟨absent, distinct⟩ := List.nodup_cons.mp distinct
      have turned := acksEmitOne_turned best live l slot
      obtain ⟨each, others, acks⟩ := ih distinct (acksEmitOne best live l slot)
      rw [turned.wal, turned.tick] at each acks
      refine ⟨?_, ?_, ?_⟩
      · intro other inside
        rw [List.foldl_cons]
        rcases List.mem_cons.mp inside with same | inRest
        · rw [same, others slot absent, turned.at']
        · rw [each other inRest,
            turned.other (fun same => absent (same ▸ inRest))]
      · intro other outside
        rw [List.mem_cons, not_or] at outside
        rw [List.foldl_cons, others other outside.2, turned.other outside.1]
      · have same : rest.map (fun other => ((acksEmitOne best live l slot).conns other).countsEmit
            best (walDurableSeq l.wal) live l.tick) =
            rest.map (fun other =>
              (l.conns other).countsEmit best (walDurableSeq l.wal) live l.tick) := by
          refine List.map_congr_left (fun other inRest => ?_)
          rw [turned.other (fun same => absent (same ▸ inRest))]
        rw [List.foldl_cons, acks, turned.acks, same, List.map_cons, List.sum_cons,
          Nat.add_assoc]

theorem acksEmit_each (l : Loop) :
    (∀ slot < LOOP_MAX_CONNS, (acksEmit l).conns slot =
      (l.conns slot).afterEmit (replBest l) (walDurableSeq l.wal) (replLive l) l.tick) ∧
    (acksEmit l).counts.acks = l.counts.acks + ((List.range LOOP_MAX_CONNS).map (fun slot =>
      (l.conns slot).countsEmit (replBest l) (walDurableSeq l.wal) (replLive l) l.tick)).sum := by
  have swept := acksEmitOne_each (replBest l) (replLive l) (List.range LOOP_MAX_CONNS)
    List.nodup_range l
  unfold acksEmit
  simp only at swept ⊢
  generalize (List.range LOOP_MAX_CONNS).foldl (acksEmitOne (replBest l) (replLive l)) l = after
    at swept ⊢
  obtain ⟨each, _others, acks⟩ := swept
  exact ⟨fun slot low => each slot (List.mem_range.mpr low), acks⟩

/-! ### Room for the answers -/

theorem bytes_size (frame : Frame) : frame.bytes.length = frame.size := by
  unfold Frame.bytes Frame.size
  rw [List.length_append, length_msgEncodeHeader]

theorem ack_size (a : LoopAck) (flags : Nat) :
    (a.ack flags).size = MSG_HEADER_SIZE + MSG_ACK_SIZE := by
  unfold LoopAck.ack ackFrame Frame.size msgEncodeAck
  rw [length_le]
  rfl

theorem refusal_size (a : LoopAck) : a.refusal.size = MSG_HEADER_SIZE + MSG_ACK_SIZE := by
  unfold LoopAck.refusal errFrame Frame.size msgEncodeErr
  simp only [List.take_nil, List.length_append, length_le, List.length_nil]
  rfl

theorem answer_size (a : LoopAck) (verdict : Bool × Nat) :
    (a.answer verdict).size = MSG_HEADER_SIZE + MSG_ACK_SIZE := by
  unfold LoopAck.answer
  split
  · exact refusal_size a
  · exact ack_size a _

theorem fit_bytes (c : LoopConn) (frame : Option Frame) :
    ((frame.bind c.fit).toList.flatMap Frame.bytes).length ≤ c.room := by
  cases frame with
  | none => exact Nat.zero_le _
  | some frame =>
      simp only [Option.bind_some]
      unfold LoopConn.fit
      split
      · exact Nat.zero_le _
      · rename_i fits
        simp only [Option.toList_some, List.flatMap_cons, List.flatMap_nil, List.append_nil,
          bytes_size]
        omega

theorem given_bytes (best durable : Nat) (live : Bool) (tick : Nat) (c : LoopConn) :
    ((c.given best durable live tick).frames.flatMap Frame.bytes).length ≤ c.room := by
  have first := fit_bytes c c.dueLocal
  have second := fit_bytes c.clearLocal (c.dueRepl best durable live tick)
  have cap : c.clearLocal.sendCap = c.sendCap := by
    unfold LoopConn.clearLocal
    split <;> rfl
  have longer := congrArg List.length (clearLocal_sendBuf c)
  unfold LoopConn.given Answers.frames
  rw [List.flatMap_append, List.length_append]
  rw [List.length_append] at longer
  unfold LoopConn.room at first second ⊢
  rw [cap] at second
  simp only
  omega

theorem fit_some {c : LoopConn} {frame : Frame} (fits : frame.size ≤ c.room) :
    c.fit frame = some frame := if_neg (Nat.not_lt.mpr fits)

theorem frames_bytes {frame : Option Frame} {size : Nat}
    (sized : ∀ f, frame = some f → f.size = size) :
    (frame.toList.flatMap Frame.bytes).length = frame.toList.length * size := by
  cases frame with
  | none => exact (Nat.zero_mul _).symm
  | some f =>
      simp only [Option.toList_some, List.flatMap_cons, List.flatMap_nil, List.append_nil,
        bytes_size, List.length_singleton, Nat.one_mul]
      exact sized f rfl

section Room

variable {best durable : Nat} {live : Bool} {tick : Nat}

theorem dueLocal_some {frame : Frame} (due : c.dueLocal = some frame) :
    frame = c.ackLocal.ack c.ackLocal.flags := by
  unfold LoopConn.dueLocal at due
  split at due
  · exact (Option.some.inj due).symm
  · cases due

theorem dueRepl_some {frame : Frame} (due : c.dueRepl best durable live tick = some frame) :
    ∃ verdict, c.ackRepl.verdict best durable live tick = some verdict ∧
      frame = c.ackRepl.answer verdict := by
  unfold LoopConn.dueRepl at due
  split at due
  · obtain ⟨verdict, found, same⟩ := Option.map_eq_some_iff.mp due
    exact ⟨verdict, found, same.symm⟩
  · cases due

theorem dues_frames (used : c.inUse = true) :
    c.dues best durable live tick =
      c.dueLocal.toList.length + (c.dueRepl best durable live tick).toList.length := by
  unfold LoopConn.dues LoopConn.dueLocal LoopConn.dueRepl
  cases c.ackLocal.due with
  | false =>
      cases c.ackRepl.due <;> cases c.ackRepl.verdict best durable live tick <;> simp [used]
  | true =>
      cases c.ackRepl.due <;> cases c.ackRepl.verdict best durable live tick <;> simp [used]

/-- With room for every answer, every answer is staged. -/
theorem given_all (used : c.inUse = true)
    (fits : c.dues best durable live tick * (MSG_HEADER_SIZE + MSG_ACK_SIZE) ≤ c.room) :
    c.given best durable live tick = ⟨c.dueLocal, c.dueRepl best durable live tick⟩ := by
  rw [dues_frames used, Nat.add_mul] at fits
  have first : c.dueLocal.bind c.fit = c.dueLocal := by
    cases due : c.dueLocal with
    | none => rfl
    | some frame =>
        rw [due, Option.toList_some, List.length_singleton, Nat.one_mul] at fits
        have size : frame.size = MSG_HEADER_SIZE + MSG_ACK_SIZE := by
          rw [dueLocal_some due]
          exact ack_size _ _
        exact fit_some (by omega)
  have second : (c.dueRepl best durable live tick).bind c.clearLocal.fit =
      c.dueRepl best durable live tick := by
    cases due : c.dueRepl best durable live tick with
    | none => rfl
    | some frame =>
        obtain ⟨verdict, _found, same⟩ := dueRepl_some due
        have size : frame.size = MSG_HEADER_SIZE + MSG_ACK_SIZE := by
          rw [same]
          exact answer_size _ _
        have longer := congrArg List.length (clearLocal_sendBuf c)
        rw [first, List.length_append, @frames_bytes c.dueLocal (MSG_HEADER_SIZE + MSG_ACK_SIZE)
          (fun f is => by rw [dueLocal_some is]; exact ack_size _ _)] at longer
        have cap : c.clearLocal.sendCap = c.sendCap := by
          unfold LoopConn.clearLocal
          split <;> rfl
        rw [due, Option.toList_some, List.length_singleton, Nat.one_mul] at fits
        refine fit_some ?_
        unfold LoopConn.room at fits ⊢
        rw [cap]
        omega
  unfold LoopConn.given
  rw [first, second]

theorem afterEmit_local (used : c.inUse = true) :
    (c.afterEmit best durable live tick).ackLocal.due = false := by
  have kept : (c.afterEmit best durable live tick).ackLocal = c.clearLocal.ackLocal := by
    unfold LoopConn.afterEmit LoopConn.clearRepl
    split <;> rfl
  rw [kept]
  unfold LoopConn.clearLocal LoopConn.dueLocal
  by_cases due : c.ackLocal.due = true
  · rw [if_pos ⟨used, due⟩]
    rfl
  · rw [if_neg (fun both => due both.2)]
    exact Bool.eq_false_iff.mpr due

theorem afterEmit_repl :
    (c.afterEmit best durable live tick).ackRepl =
      if (c.dueRepl best durable live tick).isSome then ackNone else c.ackRepl := by
  unfold LoopConn.afterEmit LoopConn.clearRepl
  rw [clearLocal_dueRepl]
  cases c.dueRepl best durable live tick with
  | none => exact (clearLocal_beside c).2
  | some frame => rfl

/-- A connection whose answers were all staged had the room for them. -/
theorem Answers.Keep.fits {answers : Answers}
    (keep : answers.Keep c (c.afterEmit best durable live tick)) (used : c.inUse = true)
    (stays : c.closing = false) :
    c.dues best durable live tick * (MSG_HEADER_SIZE + MSG_ACK_SIZE) ≤ c.room := by
  have placed := congrArg List.length
    (keep.placed.symm.trans (afterEmit_placed best durable live tick c))
  rw [List.length_append, List.length_append] at placed
  have within := given_bytes best durable live tick c
  generalize (c.given best durable live tick).frames = given at placed within
  unfold Answers.frames at placed
  rw [List.flatMap_append, List.length_append] at placed
  have atLocal : c.ackLocal.due.toNat * (MSG_HEADER_SIZE + MSG_ACK_SIZE) ≤
      (answers.atLocal.toList.flatMap Frame.bytes).length := by
    cases due : c.ackLocal.due with
    | false => simp only [Bool.toNat_false, Nat.zero_mul, Nat.zero_le]
    | true =>
        rcases keep.atLocal due with same | closing | staged
        · have cleared := @afterEmit_local c best durable live tick used
          rw [same, due] at cleared
          cases cleared
        · rw [stays] at closing
          cases closing
        · rw [staged]
          simp only [Bool.toNat_true, Option.toList_some, List.flatMap_cons, List.flatMap_nil,
            List.append_nil, bytes_size, ack_size, Nat.one_mul, Nat.le_refl]
  have atRepl : (c.ackRepl.due && (c.ackRepl.verdict best durable live tick).isSome).toNat *
      (MSG_HEADER_SIZE + MSG_ACK_SIZE) ≤
      (answers.atRepl.toList.flatMap Frame.bytes).length := by
    cases ends : (c.ackRepl.due && (c.ackRepl.verdict best durable live tick).isSome) with
    | false => simp only [Bool.toNat_false, Nat.zero_mul, Nat.zero_le]
    | true =>
        rw [Bool.and_eq_true] at ends
        obtain ⟨due, decided⟩ := ends
        have framed : (c.dueRepl best durable live tick).isSome = true := by
          unfold LoopConn.dueRepl
          rw [if_pos ⟨used, due⟩, Option.isSome_map]
          exact decided
        have cleared := @afterEmit_repl c best durable live tick
        rw [framed, if_pos rfl] at cleared
        rcases keep.atRepl due with same | closing | staged | staged | staged
        · rw [cleared] at same
          rw [← same] at due
          cases due
        · rw [stays] at closing
          cases closing
        · rw [staged]
          simp only [Bool.toNat_true, Option.toList_some, List.flatMap_cons, List.flatMap_nil,
            List.append_nil, bytes_size, ack_size, Nat.one_mul, Nat.le_refl]
        · rw [staged]
          simp only [Bool.toNat_true, Option.toList_some, List.flatMap_cons, List.flatMap_nil,
            List.append_nil, bytes_size, ack_size, Nat.one_mul, Nat.le_refl]
        · rw [staged]
          simp only [Bool.toNat_true, Option.toList_some, List.flatMap_cons, List.flatMap_nil,
            List.append_nil, bytes_size, refusal_size, Nat.one_mul, Nat.le_refl]
  unfold LoopConn.dues
  rw [Nat.add_mul]
  omega

theorem verdict_flags {refused : Bool} {flags : Nat} {a : LoopAck}
    (verdict : a.verdict best durable live tick = some (refused, flags)) :
    a.answer (refused, flags) = a.ack a.flags ∨
      a.answer (refused, flags) = a.ack (a.flags ||| MSG_FLAG_DEGRADED) ∨
      a.answer (refused, flags) = a.refusal := by
  unfold LoopAck.verdict at verdict
  split at verdict
  · cases verdict
    exact .inl rfl
  · split at verdict
    · cases verdict
    · split at verdict
      · cases verdict
        exact .inr (.inl rfl)
      · cases verdict
        exact .inr (.inr rfl)

/-- With room for them, the answers are staged, and nothing else is counted. -/
theorem given_keep
    (fits : c.inUse = true → c.closing = false →
      c.dues best durable live tick * (MSG_HEADER_SIZE + MSG_ACK_SIZE) ≤ c.room) :
    (c.given best durable live tick).Keep c (c.afterEmit best durable live tick) ∧
      c.countsEmit best durable live tick ≤ (c.given best durable live tick).countable c := by
  have placed := afterEmit_placed best durable live tick c
  have least : c.countsEmit best durable live tick ≤
      c.ackLocal.due.toNat + c.ackRepl.due.toNat := by
    refine Nat.add_le_add ?_ ?_
    · unfold LoopConn.dueLocal
      cases c.ackLocal.due with
      | false => simp only [Bool.false_eq_true, and_false, if_false, Option.toList_none,
          List.length_nil, Nat.zero_le]
      | true => split <;> simp
    · unfold LoopConn.countsRepl
      refine (List.countP_le_length).trans ?_
      unfold LoopConn.dueRepl
      cases c.ackRepl.due with
      | false => simp only [Bool.false_eq_true, and_false, if_false, Option.toList_none,
          List.length_nil, Nat.zero_le]
      | true => cases c.ackRepl.verdict best durable live tick <;> split <;> simp
  by_cases used : c.inUse = true
  · by_cases stays : c.closing = false
    · have all := given_all used (fits used stays)
      refine ⟨⟨placed, ?_, ?_⟩, ?_⟩
      · intro due
        refine .inr (.inr ?_)
        rw [all]
        exact if_pos ⟨used, due⟩
      · intro due
        rw [all, afterEmit_repl]
        cases framed : c.dueRepl best durable live tick with
        | none => exact .inl rfl
        | some frame =>
            obtain ⟨⟨refused, flags⟩, verdict, same⟩ := dueRepl_some framed
            refine .inr (.inr ?_)
            rw [same]
            rcases verdict_flags verdict with one | two | three
            · exact .inl (congrArg some one)
            · exact .inr (.inl (congrArg some two))
            · exact .inr (.inr (congrArg some three))
      · unfold Answers.countable LoopConn.countsEmit LoopConn.countsRepl Answers.frames
        rw [stays, all, List.countP_append]
        simp only [Bool.false_eq_true, if_false]
        have acks : c.dueLocal.toList.countP Frame.isAck = c.dueLocal.toList.length := by
          cases framed : c.dueLocal with
          | none => rfl
          | some frame =>
              rw [dueLocal_some framed]
              rfl
        rw [acks]
    · have closing : c.closing = true := (Bool.not_eq_false _).mp stays
      refine ⟨⟨placed, fun _ => .inr (.inl closing), fun _ => .inr (.inl closing)⟩, ?_⟩
      unfold Answers.countable
      rw [closing, if_pos rfl]
      exact least
  · have atLocal : c.dueLocal = none := if_neg (fun both => used both.1)
    have atRepl : c.dueRepl best durable live tick = none := if_neg (fun both => used both.1)
    have same : c.clearLocal = c := by
      unfold LoopConn.clearLocal
      rw [atLocal]
    have still : c.afterEmit best durable live tick = c := by
      unfold LoopConn.afterEmit LoopConn.clearRepl
      rw [same, atRepl]
    refine ⟨⟨placed, fun _ => .inl (by rw [still]), fun _ => .inl (by rw [still])⟩, ?_⟩
    unfold LoopConn.countsEmit LoopConn.countsRepl
    rw [atLocal, atRepl]
    exact Nat.zero_le _

end Room

theorem OwedKept.fits {l : Loop} (kept : OwedKept l) : l.AnswersFit := by
  obtain ⟨answers, keep, _counted⟩ := kept
  intro slot low used stays
  have kept := keep slot low
  rw [(acksEmit_each l).1 slot low] at kept
  exact kept.fits used stays

/-- **No owed answer is dropped exactly where every connection that stays has room for
the answers it is due.** -/
theorem owed_kept (l : Loop) : OwedKept l ↔ l.AnswersFit := by
  obtain ⟨each, acks⟩ := acksEmit_each l
  refine ⟨OwedKept.fits, fun fits => ?_⟩
  have given (slot : Nat) (low : slot < LOOP_MAX_CONNS) := given_keep (fits slot low)
  refine ⟨fun slot =>
    (l.conns slot).given (replBest l) (walDurableSeq l.wal) (replLive l) l.tick, ?_, ?_⟩
  · intro slot low
    rw [each slot low]
    exact (given slot low).1
  · rw [acks]
    refine Nat.add_le_add_left (List.sum_le_sum (fun slot inside => ?_)) _
    exact (given slot (List.mem_range.mp inside)).2

/-- A client that has not read 256 PONGs, and has since written a record. -/
def unreadLeader : Loop :=
  (leaderAlone.fresh 4096).setConn 0
    { slotEmpty with
      conn := connInit LOOP_RECV_CAP .client
      sendBuf := (List.range 256).flatMap (fun n =>
        Frame.bytes ⟨msgHeaderNew MSG_OP_PONG MSG_RECORD_NONE 0 0 0 n, []⟩)
      session := 7
      ackLocal := ackStage ackNone (MSG_FLAG_ACK_REQ ||| MSG_FLAG_SYNC) false 1 1 0
      inUse := true
      wantOut := true }

theorem owed_dropped : ¬ ∀ l, OwedKept l := by
  intro kept
  have fits := (kept unreadLeader).fits 0 (by decide) rfl rfl
  revert fits
  decide +kernel

end Msgsrvd

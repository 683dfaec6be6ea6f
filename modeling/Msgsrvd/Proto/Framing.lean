/-
What the framing layer makes of a stream does not depend on how the bytes arrive.

The reference parser takes a whole stream apart.  A connection that is fed in
pieces, drained in batches and compacted in between gives the same frames.
-/

import Msgsrvd.Lib.Runs
import Msgsrvd.Proto.Conn

namespace Msgsrvd

open Bytestring

/-! ### The reference parser -/

/-- What the framing layer hands up, apart from the close that follows an error. -/
inductive ConnOut where
  | frame (header : MsgHeader) (payload : Bytes)
  | replyErr (code sequence : Nat)
  deriving DecidableEq, Repr

/-- The frames at the front of a stream up to its first error, and whether there was one. -/
def wireFrom (bufCap : Nat) (mode : ConnMode) : Nat → Bool → Bytes → List ConnOut × Bool
  | 0, _, _ => ([], false)
  | fuel + 1, opened, stream =>
      if stream.length < MSG_HEADER_SIZE then ([], false)
      else
        let hdr := msgHeaderAt stream
        match headerFault bufCap mode opened hdr with
        | some (code, echoSeq) => ([.replyErr code echoSeq], true)
        | none =>
            let total := MSG_HEADER_SIZE + hdr.payloadLen
            if stream.length < total then ([], false)
            else
              let (outs, closed) :=
                wireFrom bufCap mode fuel (opened || opens hdr.op) (stream.drop total)
              (.frame hdr (slice stream MSG_HEADER_SIZE hdr.payloadLen) :: outs, closed)

/-- Each frame takes at least a byte, so a stream's length is fuel enough. -/
def wireRest (bufCap : Nat) (mode : ConnMode) (opened : Bool) (stream : Bytes) :
    List ConnOut × Bool :=
  wireFrom bufCap mode (stream.length + 1) opened stream

def wire (bufCap : Nat) (mode : ConnMode) (stream : Bytes) : List ConnOut × Bool :=
  wireRest bufCap mode false stream

variable {bufCap : Nat} {mode : ConnMode}

theorem wireFrom_fuel {fuel fuel' : Nat} {opened : Bool} {stream : Bytes}
    (enough : stream.length < fuel) (enough' : stream.length < fuel') :
    wireFrom bufCap mode fuel opened stream = wireFrom bufCap mode fuel' opened stream := by
  induction fuel generalizing fuel' opened stream with
  | zero => omega
  | succ fuel ih =>
      cases fuel' with
      | zero => omega
      | succ fuel' =>
          unfold wireFrom
          simp only
          split
          · rfl
          · cases headerFault bufCap mode opened (msgHeaderAt stream) with
            | some fault => rfl
            | none =>
                simp only
                split
                · rfl
                · have header : MSG_HEADER_SIZE = 32 := rfl
                  have shorter : (stream.drop
                      (MSG_HEADER_SIZE + (msgHeaderAt stream).payloadLen)).length < stream.length := by
                    rw [List.length_drop]
                    omega
                  rw [@ih fuel' _ _ (by omega) (by omega)]

theorem wireRest_short {opened : Bool} {stream : Bytes}
    (short : stream.length < MSG_HEADER_SIZE) : wireRest bufCap mode opened stream = ([], false) := by
  unfold wireRest wireFrom
  rw [if_pos short]

theorem wireRest_fault {opened : Bool} {stream : Bytes} {code echoSeq : Nat}
    (long : ¬ stream.length < MSG_HEADER_SIZE)
    (fault : headerFault bufCap mode opened (msgHeaderAt stream) = some (code, echoSeq)) :
    wireRest bufCap mode opened stream = ([.replyErr code echoSeq], true) := by
  unfold wireRest wireFrom
  simp only [if_neg long, fault]

theorem wireRest_cut {opened : Bool} {stream : Bytes} (long : ¬ stream.length < MSG_HEADER_SIZE)
    (sound : headerFault bufCap mode opened (msgHeaderAt stream) = none)
    (cut : stream.length < MSG_HEADER_SIZE + (msgHeaderAt stream).payloadLen) :
    wireRest bufCap mode opened stream = ([], false) := by
  unfold wireRest wireFrom
  simp only [if_neg long, sound, if_pos cut]

theorem wireRest_frame {opened : Bool} {stream : Bytes}
    (long : ¬ stream.length < MSG_HEADER_SIZE)
    (sound : headerFault bufCap mode opened (msgHeaderAt stream) = none)
    (whole : ¬ stream.length < MSG_HEADER_SIZE + (msgHeaderAt stream).payloadLen) :
    wireRest bufCap mode opened stream =
      (.frame (msgHeaderAt stream)
          (slice stream MSG_HEADER_SIZE (msgHeaderAt stream).payloadLen) ::
        (wireRest bufCap mode (opened || opens (msgHeaderAt stream).op)
          (stream.drop (MSG_HEADER_SIZE + (msgHeaderAt stream).payloadLen))).1,
      (wireRest bufCap mode (opened || opens (msgHeaderAt stream).op)
        (stream.drop (MSG_HEADER_SIZE + (msgHeaderAt stream).payloadLen))).2) := by
  have header : MSG_HEADER_SIZE = 32 := rfl
  unfold wireRest
  rw [wireFrom]
  simp only [if_neg long, sound, if_neg whole]
  generalize behind : stream.drop (MSG_HEADER_SIZE + (msgHeaderAt stream).payloadLen) = rest
  have shorter : rest.length < stream.length := by
    rw [← behind, List.length_drop]
    omega
  rw [wireFrom_fuel shorter (Nat.lt_succ_self rest.length)]

/-- A header is read from its own bytes. -/
theorem msgHeaderAt_append {stream : Bytes} (extra : Bytes)
    (long : ¬ stream.length < MSG_HEADER_SIZE) :
    msgHeaderAt (stream ++ extra) = msgHeaderAt stream := by
  have header : MSG_HEADER_SIZE = 32 := rfl
  unfold msgHeaderAt
  rw [slice_append_left _ _ 0 4 (by omega), slice_append_left _ _ 4 2 (by omega),
    slice_append_left _ _ 6 2 (by omega), slice_append_left _ _ 8 2 (by omega),
    slice_append_left _ _ 10 2 (by omega), slice_append_left _ _ 12 4 (by omega),
    slice_append_left _ _ 16 8 (by omega), slice_append_left _ _ 24 8 (by omega)]

/-! ### Reading a connection -/

/-- What a caller finds when it looks at an action, with the buffer as it then is. -/
def ConnAction.read (buf : Bytes) : ConnAction → List ConnOut
  | .frame header payload => [.frame header (slice buf payload header.payloadLen)]
  | .replyErr code sequence => [.replyErr code sequence]
  | .close => []

/-- A connection being read: the actions it has emitted that wait to be handled, what
was found in those that have been, and every byte that has arrived. -/
structure Reading where
  conn : Conn
  held : List ConnAction
  handled : List ConnOut
  received : Bytes
  deriving DecidableEq, Repr

inductive ConnEvent where
  | recv (bytes : Bytes)
  | append (bytes : Bytes)
  | feed (outCap : Nat)
  | handle
  | compact
  deriving DecidableEq, Repr

def Reading.start (bufCap : Nat) (mode : ConnMode) : Reading := ⟨connInit bufCap mode, [], [], []⟩

/-- A caller receives no more than there is space for, feeds with room for an action,
and takes the space back only when nothing is left to handle. -/
def Reading.next (r : Reading) : ConnEvent → Option Reading
  | .recv bytes =>
      if bytes.length ≤ connRecvSpace r.conn then
        some { r with conn := connRecvCommit r.conn bytes, received := r.received ++ bytes }
      else none
  | .append bytes =>
      if r.held = [] ∧ bytes.length ≤ connRecvSpace (connCompact r.conn) then
        some { r with conn := connRecvAppend r.conn bytes, received := r.received ++ bytes }
      else none
  | .feed outCap =>
      if outCap = 0 then none
      else
        some { r with
          conn := (connFeed r.conn outCap).2
          held := r.held ++ (connFeed r.conn outCap).1 }
  | .handle =>
      match r.held with
      | [] => none
      | action :: rest =>
          some { r with held := rest, handled := r.handled ++ action.read r.conn.buf }
  | .compact => if r.held = [] then some { r with conn := connCompact r.conn } else none

/-! ### One feed -/

/-- The outputs that come before what is still to come. -/
def ahead (outs : List ConnOut) (rest : List ConnOut × Bool) : List ConnOut × Bool :=
  (outs ++ rest.1, rest.2)

theorem ahead_append (front back : List ConnOut) (rest : List ConnOut × Bool) :
    ahead (front ++ back) rest = ahead front (ahead back rest) := by
  unfold ahead
  rw [List.append_assoc]

/-- What the reference parser makes of the bytes not parsed yet and those to come. -/
def Conn.rest (c : Conn) (extra : Bytes) : List ConnOut × Bool :=
  if c.closed then ([], true)
  else wireRest c.bufCap c.mode c.opened (c.buf.drop c.bufOff ++ extra)

/-- The payloads these actions point at lie in the buffer. -/
def Within (actions : List ConnAction) (buf : Bytes) : Prop :=
  ∀ header payload, .frame header payload ∈ actions → payload + header.payloadLen ≤ buf.length

@[simp] theorem read_frame (buf : Bytes) (header : MsgHeader) (payload : Nat) :
    (ConnAction.frame header payload).read buf =
      [.frame header (slice buf payload header.payloadLen)] := rfl

theorem flatMap_read_append {actions : List ConnAction} {buf : Bytes}
    (within : Within actions buf) (more : Bytes) :
    actions.flatMap (ConnAction.read (buf ++ more)) = actions.flatMap (ConnAction.read buf) := by
  induction actions with
  | nil => rfl
  | cons action rest ih =>
      have later : Within rest buf := fun header payload present =>
        within header payload (List.mem_cons_of_mem _ present)
      rw [List.flatMap_cons, List.flatMap_cons, ih later]
      cases action with
      | frame header payload =>
          rw [read_frame, read_frame,
            slice_append_left _ _ _ _ (within header payload (List.mem_cons_self ..))]
      | replyErr code sequence => rfl
      | close => rfl

/-- However little room there is, the error itself is emitted. -/
theorem emitFatal_read (room code echoSeq : Nat) (buf : Bytes) :
    (emitFatal (room + 1) code echoSeq).flatMap (ConnAction.read buf) =
      [.replyErr code echoSeq] := by
  cases room with
  | zero => rfl
  | succ room =>
      unfold emitFatal
      rw [List.take_succ_cons, List.take_succ_cons, List.take_nil]
      rfl

theorem emitFatal_within (room code echoSeq : Nat) (buf : Bytes) :
    Within (emitFatal room code echoSeq) buf := by
  intro header payload present
  have listed := List.mem_of_mem_take present
  simp only [List.mem_cons, List.not_mem_nil, or_false, reduceCtorEq] at listed

/-- A feed from the unparsed byte at `cursor`. -/
structure Fed (c : Conn) (cursor : Nat) (actions : List ConnAction) (c' : Conn) : Prop where
  buf : c'.buf = c.buf
  bufCap : c'.bufCap = c.bufCap
  mode : c'.mode = c.mode
  inside : c'.bufOff ≤ c.buf.length
  within : Within actions c.buf
  reads : ∀ extra, wireRest c.bufCap c.mode c.opened (c.buf.drop cursor ++ extra) =
    ahead (actions.flatMap (ConnAction.read c.buf)) (c'.rest extra)

/-- Nothing is parsed. -/
theorem Fed.stuck {c : Conn} {cursor : Nat} (unclosed : c.closed = false)
    (inside : cursor ≤ c.buf.length) : Fed c cursor [] { c with bufOff := cursor } where
  buf := rfl
  bufCap := rfl
  mode := rfl
  inside := inside
  within := by
    intro header payload present
    cases present
  reads := by
    intro extra
    unfold Conn.rest
    simp only [unclosed, Bool.false_eq_true, if_false]
    rfl

theorem connFeedFrom_fed (room : Nat) {c : Conn} {cursor : Nat} (unclosed : c.closed = false)
    (inside : cursor ≤ c.buf.length) :
    Fed c cursor (connFeedFrom room c cursor).1 (connFeedFrom room c cursor).2 := by
  induction room generalizing c cursor with
  | zero => exact .stuck unclosed inside
  | succ room ih =>
      have unparsed : (c.buf.drop cursor).length = c.buf.length - cursor := List.length_drop
      unfold connFeedFrom
      split
      · exact .stuck unclosed inside
      · rename_i long
        rw [← unparsed] at long
        have longer (extra : Bytes) :
            ¬ (c.buf.drop cursor ++ extra).length < MSG_HEADER_SIZE := by
          rw [List.length_append]
          omega
        simp only
        cases fault : headerFault c.bufCap c.mode c.opened (msgHeaderAt (c.buf.drop cursor)) with
        | some report =>
            obtain ⟨code, echoSeq⟩ := report
            refine ⟨rfl, rfl, rfl, Nat.le_refl _, emitFatal_within _ _ _ _, ?_⟩
            intro extra
            rw [← msgHeaderAt_append extra long] at fault
            rw [wireRest_fault (longer extra) fault, emitFatal_read]
            rfl
        | none =>
            simp only
            split
            · exact .stuck unclosed inside
            · rename_i whole
              generalize size : (msgHeaderAt (c.buf.drop cursor)).payloadLen = len at whole ⊢
              have next := @ih { c with opened := c.opened || opens (msgHeaderAt
                (c.buf.drop cursor)).op } (cursor + (MSG_HEADER_SIZE + len)) unclosed
                (by simp only; omega)
              refine ⟨next.buf, next.bufCap, next.mode, next.inside, ?_, ?_⟩
              · intro header payload present
                rcases List.mem_cons.mp present with here | later
                · cases here
                  rw [size]
                  omega
                · exact next.within header payload later
              · intro extra
                have same := msgHeaderAt_append extra long
                rw [← same] at fault
                have whole' : ¬ (c.buf.drop cursor ++ extra).length <
                    MSG_HEADER_SIZE + (msgHeaderAt (c.buf.drop cursor ++ extra)).payloadLen := by
                  rw [same, size, List.length_append]
                  omega
                rw [wireRest_frame (longer extra) fault whole', same, size]
                have behind : (c.buf.drop cursor ++ extra).drop (MSG_HEADER_SIZE + len) =
                    c.buf.drop (cursor + (MSG_HEADER_SIZE + len)) ++ extra := by
                  rw [List.drop_append_of_le_length (by omega), List.drop_drop]
                have payload : slice (c.buf.drop cursor ++ extra) MSG_HEADER_SIZE len =
                    slice c.buf (cursor + MSG_HEADER_SIZE) len := by
                  rw [slice_append_left _ _ _ _ (by omega)]
                  unfold slice
                  rw [List.drop_drop]
                rw [behind, payload, next.reads extra, List.flatMap_cons, read_frame, size]
                rfl

theorem connFeed_fed {c : Conn} (outCap : Nat) (unclosed : c.closed = false)
    (inside : c.bufOff ≤ c.buf.length) :
    Fed c c.bufOff (connFeed c outCap).1 (connFeed c outCap).2 := by
  unfold connFeed
  split
  · exact .stuck unclosed inside
  · exact connFeedFrom_fed outCap unclosed inside

/-! ### Every way of reading -/

/-- What has been found so far, counting the actions that wait as they stand. -/
def Reading.seen (r : Reading) : List ConnOut :=
  r.handled ++ r.held.flatMap (ConnAction.read r.conn.buf)

structure Reading.Fits (bufCap : Nat) (mode : ConnMode) (r : Reading) : Prop where
  cap : r.conn.bufCap = bufCap
  kind : r.conn.mode = mode
  inside : r.conn.bufOff ≤ r.conn.buf.length
  room : r.conn.buf.length ≤ bufCap
  within : Within r.held r.conn.buf
  reads : ∀ extra, wire bufCap mode (r.received ++ extra) = ahead r.seen (r.conn.rest extra)

theorem Reading.Fits.start (bufCap : Nat) (mode : ConnMode) :
    (Reading.start bufCap mode).Fits bufCap mode where
  cap := rfl
  kind := rfl
  inside := Nat.le_refl _
  room := Nat.zero_le _
  within := by
    intro header payload present
    cases present
  reads := fun _ => rfl

/-- Bytes at the end of the buffer, as far as the connection is open. -/
theorem Reading.Fits.arrive {r : Reading} (fits : r.Fits bufCap mode) {bytes : Bytes}
    (space : bytes.length ≤ connRecvSpace r.conn) :
    ({ r with conn := connRecvCommit r.conn bytes, received := r.received ++ bytes } :
      Reading).Fits bufCap mode := by
  unfold connRecvCommit
  cases closed : r.conn.closed with
  | true =>
      refine ⟨fits.cap, fits.kind, fits.inside, fits.room, fits.within, ?_⟩
      intro extra
      have reads := fits.reads (bytes ++ extra)
      unfold Conn.rest at reads ⊢
      rw [List.append_assoc, reads, if_pos closed]
      simp only [if_true, closed]
      rfl
  | false =>
      simp only [Bool.false_eq_true, if_false, List.take_of_length_le space]
      unfold connRecvSpace at space
      have cap := fits.cap
      have room := fits.room
      refine ⟨fits.cap, fits.kind, ?_, ?_, ?_, ?_⟩
      · simp only [List.length_append]
        exact Nat.le_trans fits.inside (Nat.le_add_right _ _)
      · simp only [List.length_append]
        omega
      · intro header payload present
        simp only [List.length_append]
        exact Nat.le_trans (fits.within header payload present) (Nat.le_add_right _ _)
      · intro extra
        have reads := fits.reads (bytes ++ extra)
        unfold Conn.rest at reads ⊢
        unfold Reading.seen at reads ⊢
        rw [List.append_assoc, reads]
        simp only [closed, Bool.false_eq_true, if_false]
        rw [flatMap_read_append fits.within, List.drop_append_of_le_length fits.inside,
          List.append_assoc]

theorem Reading.Fits.compact {r : Reading} (fits : r.Fits bufCap mode) (idle : r.held = []) :
    ({ r with conn := connCompact r.conn } : Reading).Fits bufCap mode := by
  unfold connCompact
  split
  · exact fits
  · refine ⟨fits.cap, fits.kind, Nat.zero_le _, ?_, ?_, ?_⟩
    · simp only [List.length_drop]
      exact Nat.le_trans (Nat.sub_le _ _) fits.room
    · intro header payload present
      simp only [idle, List.not_mem_nil] at present
    · intro extra
      have reads := fits.reads extra
      unfold Reading.seen at reads ⊢
      simp only [idle, List.flatMap_nil] at reads ⊢
      rw [reads]
      rfl

theorem connCompact_closed (c : Conn) : (connCompact c).closed = c.closed := by
  unfold connCompact
  split
  · rfl
  · rfl

/-- A copying receive is a compaction and a receive, unless there is nothing to take. -/
theorem Reading.Fits.copy {r : Reading} (fits : r.Fits bufCap mode) (idle : r.held = [])
    {bytes : Bytes} (space : bytes.length ≤ connRecvSpace (connCompact r.conn)) :
    ({ r with conn := connRecvAppend r.conn bytes, received := r.received ++ bytes } :
      Reading).Fits bufCap mode := by
  unfold connRecvAppend
  cases closed : r.conn.closed with
  | true =>
      simp only [true_or, if_true]
      refine ⟨fits.cap, fits.kind, fits.inside, fits.room, fits.within, ?_⟩
      intro extra
      have reads := fits.reads (bytes ++ extra)
      unfold Conn.rest at reads ⊢
      rw [List.append_assoc, reads, if_pos closed]
      simp only [if_true, closed]
      rfl
  | false =>
      by_cases empty : bytes = []
      · simp only [empty, or_true, if_true, List.append_nil]
        exact fits
      · have taken := (fits.compact idle).arrive space
        unfold connRecvCommit at taken
        simp only [connCompact_closed, closed, Bool.false_eq_true, if_false] at taken
        simp only [Bool.false_eq_true, empty, or_false, if_false, connCompact_closed, closed]
        exact taken

theorem Reading.Fits.feed {r : Reading} (fits : r.Fits bufCap mode) (outCap : Nat) :
    ({ r with
      conn := (connFeed r.conn outCap).2
      held := r.held ++ (connFeed r.conn outCap).1 } : Reading).Fits bufCap mode := by
  cases closed : r.conn.closed with
  | true =>
      have silent : connFeed r.conn outCap = ([], r.conn) := if_pos (Or.inl closed)
      rw [silent, List.append_nil]
      exact fits
  | false =>
      have fed := connFeed_fed outCap closed fits.inside
      refine ⟨fed.bufCap.trans fits.cap, fed.mode.trans fits.kind, ?_, ?_, ?_, ?_⟩
      · simp only [fed.buf]
        exact fed.inside
      · simp only [fed.buf]
        exact fits.room
      · simp only [fed.buf]
        intro header payload present
        rcases List.mem_append.mp present with before | now
        · exact fits.within header payload before
        · exact fed.within header payload now
      · intro extra
        have reads := fits.reads extra
        have here : r.conn.rest extra =
            wireRest r.conn.bufCap r.conn.mode r.conn.opened
              (r.conn.buf.drop r.conn.bufOff ++ extra) := by
          unfold Conn.rest
          rw [closed]
          rfl
        rw [reads, here, fed.reads extra, ← ahead_append]
        unfold Reading.seen
        simp only [fed.buf, List.flatMap_append, List.append_assoc]

theorem Reading.Fits.handle {r : Reading} (fits : r.Fits bufCap mode) {action : ConnAction}
    {rest : List ConnAction} (holds : r.held = action :: rest) :
    ({ r with held := rest, handled := r.handled ++ action.read r.conn.buf } : Reading).Fits
      bufCap mode := by
  refine ⟨fits.cap, fits.kind, fits.inside, fits.room, ?_, ?_⟩
  · intro header payload present
    apply fits.within header payload
    rw [holds]
    exact List.mem_cons_of_mem _ present
  · intro extra
    rw [fits.reads extra]
    unfold Reading.seen
    rw [holds, List.flatMap_cons, List.append_assoc]

theorem Reading.Fits.next {r r' : Reading} {event : ConnEvent} (fits : r.Fits bufCap mode)
    (moves : r.next event = some r') : r'.Fits bufCap mode := by
  cases event with
  | recv bytes =>
      simp only [Reading.next, Option.ite_none_right_eq_some, Option.some.injEq] at moves
      obtain ⟨space, rfl⟩ := moves
      exact fits.arrive space
  | append bytes =>
      simp only [Reading.next, Option.ite_none_right_eq_some, Option.some.injEq] at moves
      obtain ⟨⟨idle, space⟩, rfl⟩ := moves
      exact fits.copy idle space
  | feed outCap =>
      simp only [Reading.next, Option.ite_none_left_eq_some, Option.some.injEq] at moves
      obtain ⟨_some, rfl⟩ := moves
      exact fits.feed outCap
  | handle =>
      unfold Reading.next at moves
      cases holds : r.held with
      | nil => simp only [holds, reduceCtorEq] at moves
      | cons action rest =>
          simp only [holds, Option.some.injEq] at moves
          rw [← moves]
          exact fits.handle holds
  | compact =>
      simp only [Reading.next, Option.ite_none_right_eq_some, Option.some.injEq] at moves
      obtain ⟨idle, rfl⟩ := moves
      exact fits.compact idle

/-! ### A drained connection -/

theorem headerFault_len {opened : Bool} {hdr : MsgHeader}
    (sound : headerFault bufCap mode opened hdr = none) :
    hdr.payloadLen ≤ bufCap - MSG_HEADER_SIZE := by
  unfold headerFault at sound
  split at sound
  · cases sound
  · split at sound
    · cases sound
    · split at sound
      · cases sound
      · split at sound
        · cases sound
        · rename_i small
          omega

/-- An open connection that has nothing to emit holds the front of one frame, if anything. -/
theorem connFeed_drained {c : Conn} {outCap : Nat} (unclosed : c.closed = false)
    (room : 0 < outCap) (wide : MSG_HEADER_SIZE ≤ c.bufCap)
    (drained : (connFeed c outCap).1 = []) :
    (connFeed c outCap).2 = c ∧
      wireRest c.bufCap c.mode c.opened (c.buf.drop c.bufOff) = ([], false) ∧
      (c.buf.drop c.bufOff).length < c.bufCap := by
  have header : MSG_HEADER_SIZE = 32 := rfl
  have unparsed : (c.buf.drop c.bufOff).length = c.buf.length - c.bufOff := List.length_drop
  obtain ⟨more, rfl⟩ : ∃ more, outCap = more + 1 := ⟨outCap - 1, by omega⟩
  have opened : connFeed c (more + 1) = connFeedFrom (more + 1) c c.bufOff := by
    unfold connFeed
    rw [unclosed]
    rfl
  rw [opened] at drained ⊢
  unfold connFeedFrom at drained ⊢
  by_cases short : c.buf.length - c.bufOff < MSG_HEADER_SIZE
  · rw [if_pos short]
    rw [← unparsed] at short
    exact ⟨rfl, wireRest_short short, by omega⟩
  · rw [if_neg short] at drained ⊢
    rw [← unparsed] at short
    simp only at drained ⊢
    cases fault : headerFault c.bufCap c.mode c.opened (msgHeaderAt (c.buf.drop c.bufOff)) with
    | some report =>
        rw [fault] at drained
        cases drained
    | none =>
        rw [fault] at drained
        simp only at drained ⊢
        by_cases cut : c.buf.length - c.bufOff <
            MSG_HEADER_SIZE + (msgHeaderAt (c.buf.drop c.bufOff)).payloadLen
        · rw [if_pos cut]
          rw [← unparsed] at cut
          have bounded := headerFault_len fault
          exact ⟨rfl, wireRest_cut short fault cut, by omega⟩
        · rw [if_neg cut] at drained
          cases drained

/-- **However a stream is received, fed and compacted, a connection that has been
drained has handed up what the reference parser finds in the stream, and an open one
has space for more.** -/
theorem framing_independent {bufCap : Nat} {mode : ConnMode} (wide : MSG_HEADER_SIZE ≤ bufCap)
    {events : List ConnEvent} {r : Reading}
    (played : Runs.replay Reading.next (Reading.start bufCap mode) events = some r)
    (idle : r.held = []) {outCap : Nat} (room : 0 < outCap)
    (drained : (connFeed r.conn outCap).1 = []) :
    (r.handled, r.conn.closed) = wire bufCap mode r.received ∧
      (r.conn.closed = false →
        0 < connRecvSpace (connCompact (connFeed r.conn outCap).2)) := by
  have fits : r.Fits bufCap mode :=
    Runs.replay_invariant (fun _ _ _ before moves => before.next moves) (.start bufCap mode) played
  have reads := fits.reads []
  rw [List.append_nil] at reads
  unfold Reading.seen at reads
  rw [idle, List.flatMap_nil, List.append_nil] at reads
  cases closed : r.conn.closed with
  | true =>
      unfold Conn.rest at reads
      rw [if_pos closed] at reads
      refine ⟨?_, fun unclosed => by cases unclosed⟩
      rw [reads]
      unfold ahead
      rw [List.append_nil]
  | false =>
      have cap := fits.cap
      obtain ⟨same, nothing, shorter⟩ :=
        connFeed_drained closed room (by rw [cap]; exact wide) drained
      unfold Conn.rest at reads
      rw [closed, List.append_nil, nothing, if_neg Bool.false_ne_true] at reads
      refine ⟨?_, fun _ => ?_⟩
      · rw [reads]
        unfold ahead
        rw [List.append_nil]
      · rw [same]
        unfold connRecvSpace connCompact
        split
        · rename_i whole
          rw [whole, List.drop_zero] at shorter
          omega
        · simp only
          omega

/-- An opening frame with no session and no name. -/
def helloHeader : MsgHeader := msgHeaderNew MSG_OP_HELLO MSG_RECORD_NONE 0 MSG_HELLO_SIZE 0 1

def helloPayload : Bytes := List.replicate MSG_HELLO_SIZE 0

theorem framing_independent_twoCuts :
    (([.frame helloHeader helloPayload], false) : List ConnOut × Bool) =
        wire 64 .client (msgEncodeHeader helloHeader ++ helloPayload) ∧
      (false = false → 0 < connRecvSpace (connCompact (connFeed
        ⟨[], 64, 0, false, .client, true⟩ 1).2)) :=
  @framing_independent 64 .client (by decide)
    [.recv ((msgEncodeHeader helloHeader ++ helloPayload).take 40), .feed 1, .compact,
      .recv ((msgEncodeHeader helloHeader ++ helloPayload).drop 40), .feed 1, .handle, .compact]
    ⟨⟨[], 64, 0, false, .client, true⟩, [], [.frame helloHeader helloPayload],
      msgEncodeHeader helloHeader ++ helloPayload⟩
    (by decide +kernel) rfl 1 (by decide) (by decide +kernel)

end Msgsrvd

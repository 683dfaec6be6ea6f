/-
A follower after its leader: the batches that are staged for a replica, as they arrive in
whatever pieces, bring the follower's log to where the replica's cursor stands.
-/

import Msgsrvd.Server.Whole

namespace Msgsrvd

open Bytestring

/-! ### A stream of frames -/

/-- Frames of records that go on one where the other ends. -/
inductive Replicates : Nat → List Frame → List Bytes → Prop where
  | nil (first : Nat) : Replicates first [] []
  | cons {first : Nat} {frame : Frame} {recs : List Bytes} {frames : List Frame}
      {more : List Bytes} (is : ReplFrame frame first recs)
      (later : Replicates (first + recs.length) frames more) :
      Replicates first (frame :: frames) (recs ++ more)

variable {frame : Frame} {first : Nat} {recs : List Bytes} {frames : List Frame}

theorem Replicates.append {more : List Bytes} {others : List Frame}
    (front : Replicates first frames recs)
    (back : Replicates (first + recs.length) others more) :
    Replicates first (frames ++ others) (recs ++ more) := by
  induction front with
  | nil first => exact back
  | @cons first frame own frames rest is later ih =>
      rw [List.length_append, ← Nat.add_assoc] at back
      rw [List.append_assoc]
      exact .cons is (ih back)

theorem ReplFrame.bytes_pos (is : ReplFrame frame first recs) :
    MSG_HEADER_SIZE ≤ frame.bytes.length := by
  rw [is.length.1]
  exact Nat.le_add_right _ _

/-- Until all of a frame is there, nothing comes out. -/
theorem ReplFrame.stuck (is : ReplFrame frame first recs) {c : Conn} {cursor : Nat}
    {got rest : Bytes} (mode : c.mode = .internal) (cap : c.bufCap = LOOP_REPL_CAP)
    (pending : c.buf.drop cursor = got) (part : got ++ rest = frame.bytes) (more : rest ≠ [])
    (room : Nat) : connFeedFrom room c cursor = ([], { c with bufOff := cursor }) := by
  have length : got.length + rest.length = frame.bytes.length := by
    rw [← part, List.length_append]
  have left : c.buf.length - cursor = got.length := by
    rw [← pending, List.length_drop]
  have positive := List.length_pos_iff.mpr more
  cases room with
  | zero => rfl
  | succ room =>
      unfold connFeedFrom
      rw [left]
      by_cases short : got.length < MSG_HEADER_SIZE
      · rw [if_pos short]
      · rw [if_neg short]
        have sound : headerFault c.bufCap c.mode c.opened frame.header = none := by
          rw [cap, mode]
          exact is.sound c.opened
        have len : frame.header.payloadLen = frame.payload.length := by
          rw [is.header]
          rfl
        simp only
        rw [pending, is.headerAt part short, sound]
        simp only
        rw [if_pos (by rw [len]; have whole := is.length.1; omega)]

/-- A frame that is there comes out, and the next one is looked for behind it. -/
theorem ReplFrame.out (is : ReplFrame frame first recs) {c : Conn} {cursor : Nat} {rest : Bytes}
    (mode : c.mode = .internal) (cap : c.bufCap = LOOP_REPL_CAP)
    (pending : c.buf.drop cursor = frame.bytes ++ rest) (room : Nat) :
    connFeedFrom (room + 1) c cursor =
        (.frame frame.header (cursor + MSG_HEADER_SIZE) ::
            (connFeedFrom room c (cursor + frame.bytes.length)).1,
          (connFeedFrom room c (cursor + frame.bytes.length)).2) ∧
      slice c.buf (cursor + MSG_HEADER_SIZE) frame.header.payloadLen = frame.payload := by
  have whole := is.length.1
  have left : c.buf.length - cursor = frame.bytes.length + rest.length := by
    rw [← List.length_drop, pending, List.length_append]
  have len : frame.header.payloadLen = frame.payload.length := by
    rw [is.header]
    rfl
  have long : ¬ frame.bytes.length < MSG_HEADER_SIZE := Nat.not_lt.mpr is.bytes_pos
  constructor
  · have sound : headerFault c.bufCap c.mode c.opened frame.header = none := by
      rw [cap, mode]
      exact is.sound c.opened
    have opened : ({ c with opened := c.opened || opens frame.header.op } : Conn) = c := by
      rw [is.header, show opens _ = false from rfl, Bool.or_false]
    rw [connFeedFrom]
    rw [left, if_neg (by omega)]
    simp only
    rw [pending, msgHeaderAt_append rest long, is.headerAt (List.append_nil _) long, sound]
    simp only
    rw [len, if_neg (by omega), ← whole, opened]
  · unfold slice
    rw [← List.drop_drop, pending, len]
    unfold Frame.bytes
    rw [List.append_assoc, ← length_msgEncodeHeader frame.header, List.drop_left, List.take_left]

/-- These actions hand these frames out of the buffer. -/
def Handed (buf : Bytes) : List ConnAction → List Frame → Prop :=
  List.Forall₂ (fun action frame =>
    ∃ at', action = .frame frame.header at' ∧ slice buf at' frame.header.payloadLen = frame.payload)

/-- What one look into the buffer hands out of a stream of frames, and what it leaves. -/
structure HandsOut (room : Nat) (c : Conn) (cursor : Nat) (frames : List Frame) (later : Bytes)
    (out left : List Frame) : Prop where
  split : frames = out ++ left
  handed : Handed c.buf (connFeedFrom room c cursor).1 out
  conn : (connFeedFrom room c cursor).2 =
    { c with bufOff := cursor + (outputBytes out).length }
  pending : c.buf.drop (cursor + (outputBytes out).length) ++ later = outputBytes left
  drained : out.length < room → ∀ frame ∈ left.head?,
    (c.buf.drop (cursor + (outputBytes out).length)).length < frame.bytes.length

theorem Replicates.feeds {c : Conn} {later : Bytes} (are : Replicates first frames recs)
    (mode : c.mode = .internal) (cap : c.bufCap = LOOP_REPL_CAP) (room cursor : Nat)
    (bytes : c.buf.drop cursor ++ later = outputBytes frames) :
    ∃ out left, HandsOut room c cursor frames later out left := by
  induction room generalizing first frames recs cursor with
  | zero =>
      exact ⟨[], frames, rfl, .nil, rfl, bytes, fun less => absurd less (Nat.not_lt_zero _)⟩
  | succ room ih =>
      cases are with
      | nil =>
          have none' : c.buf.drop cursor = [] := (List.append_eq_nil_iff.mp bytes).1
          have left : c.buf.length - cursor = 0 := by
            rw [← List.length_drop, none']
            rfl
          have idle : connFeedFrom (room + 1) c cursor = ([], { c with bufOff := cursor }) := by
            unfold connFeedFrom
            rw [left, if_pos (by decide)]
          refine ⟨[], [], rfl, ?_, ?_, bytes, fun _ frame absent => by cases absent⟩
          · rw [idle]
            exact .nil
          · rw [idle]
            rfl
      | @cons _ frame own frames more is rest =>
          have all : outputBytes (frame :: frames) = frame.bytes ++ outputBytes frames := by
            unfold outputBytes
            rw [List.flatMap_cons]
          rw [all] at bytes
          by_cases short : (c.buf.drop cursor).length < frame.bytes.length
          · obtain ⟨tail, part⟩ : c.buf.drop cursor <+: frame.bytes :=
              List.prefix_of_prefix_length_le ⟨later, rfl⟩ ⟨outputBytes frames, bytes.symm⟩
                (Nat.le_of_lt short)
            have some' : tail ≠ [] := by
              rintro rfl
              rw [List.append_nil] at part
              rw [part] at short
              exact Nat.lt_irrefl _ short
            have idle := is.stuck mode cap rfl part some' (room + 1)
            refine ⟨[], frame :: frames, rfl, ?_, ?_, bytes.trans all.symm, ?_⟩
            · rw [idle]
              exact .nil
            · rw [idle]
              rfl
            · intro _ other head
              cases head
              exact short
          · obtain ⟨behind, pending⟩ : frame.bytes <+: c.buf.drop cursor :=
              List.prefix_of_prefix_length_le ⟨outputBytes frames, bytes.symm⟩ ⟨later, rfl⟩
                (Nat.not_lt.mp short)
            obtain ⟨fed, carried⟩ := is.out mode cap pending.symm room
            have next : c.buf.drop (cursor + frame.bytes.length) = behind := by
              rw [← List.drop_drop, ← pending, List.drop_left]
            obtain ⟨out, left, feeds⟩ := ih rest (cursor + frame.bytes.length) (by
              rw [next]
              rw [← pending, List.append_assoc] at bytes
              exact List.append_cancel_left bytes)
            have moved : cursor + (outputBytes (frame :: out)).length =
                cursor + frame.bytes.length + (outputBytes out).length := by
              unfold outputBytes
              rw [List.flatMap_cons, List.length_append, Nat.add_assoc]
            refine ⟨frame :: out, left, ?_, ?_, ?_, ?_, ?_⟩
            · rw [feeds.split, List.cons_append]
            · rw [fed]
              exact .cons ⟨_, rfl, carried⟩ feeds.handed
            · rw [fed, moved]
              exact feeds.conn
            · rw [moved]
              exact feeds.pending
            · rw [moved, List.length_cons]
              exact fun less => feeds.drained (Nat.lt_of_succ_lt_succ less)

/-! ### The frames of one receive -/

theorem numbered_append (seq : Nat) (front back : List Bytes) :
    numbered seq (front ++ back) = numbered seq front ++ numbered (seq + front.length) back := by
  induction front generalizing seq with
  | nil => rfl
  | cons bytes rest ih =>
      have next : seq + (bytes :: rest).length = seq + 1 + rest.length := by
        rw [List.length_cons]
        omega
      rw [next]
      exact congrArg ((seq, bytes) :: ·) (ih (seq + 1))

theorem Loop.Gains.refl {l : Loop} (logs : l.Logs) : l.Gains [] l :=
  ⟨logs, rfl, fun _ => ⟨.inl, fun either => either.resolve_right List.not_mem_nil⟩⟩

theorem Loop.Gains.trans {l l' l'' : Loop} {front back : List Bytes} (left : l.Gains front l')
    (right : l'.Gains back l'') : l.Gains (front ++ back) l'' := by
  refine ⟨right.logs, ?_, fun p => ?_⟩
  · rw [right.next, left.next, List.length_append, Nat.add_assoc]
  · rw [right.records, left.records, left.next, numbered_append, List.mem_append, or_assoc]

theorem Loop.Fills.trans {l l' l'' : Loop} {front back : List Bytes} (left : l.Fills front l')
    (right : l'.Fills back l'') : l.Fills (front ++ back) l'' := by
  refine ⟨right.capacity.trans left.capacity, fun more => ?_⟩
  rw [right.places, left.places, List.append_assoc]

/-- A follower that has taken these records of a stream, and nothing else of it. -/
structure Loop.Took (l : Loop) (recs : List Bytes) (l' : Loop) : Prop where
  gains : l.Gains recs l'
  fills : l.Fills recs l'

theorem Loop.Took.trans {l l' l'' : Loop} {front back : List Bytes} (left : l.Took front l')
    (right : l'.Took back l'') : l.Took (front ++ back) l'' :=
  ⟨left.gains.trans right.gains, left.fills.trans right.fills⟩

/-- Only the log matters. -/
theorem Loop.Took.of_same {l l1 l' : Loop} (took : l1.Took recs l') (wal : l1.wal = l.wal)
    (os : l1.os = l.os) : l.Took recs l' := by
  obtain ⟨gains, fills⟩ := took
  refine ⟨⟨gains.logs, ?_, fun p => ?_⟩, ?_, fun more => ?_⟩
  · rw [gains.next, wal]
  · rw [gains.records, wal, os]
  · rw [fills.capacity, wal]
  · rw [fills.places, wal]

/-- Frames that have been handed out are applied one after the other. -/
theorem Replicates.applied {l : Loop} {actions : List ConnAction}
    (are : Replicates (walNextSeq l.wal) frames recs)
    (handed : Handed l.stream.conn.buf actions frames) (logs : l.Logs)
    (small : ∀ bytes ∈ recs, bytes.length ≤ l.wal.segCapacity)
    (places : l.wal.places recs = true) :
    l.Took recs (actions.foldl onStreamAction l) ∧
      ∃ lastErr, (actions.foldl onStreamAction l).stream =
        { l.stream with lastErr := lastErr } := by
  generalize started : walNextSeq l.wal = first at are
  induction are generalizing l actions with
  | nil first =>
      cases handed
      exact ⟨⟨.refl logs, rfl, fun _ => rfl⟩, l.stream.lastErr, rfl⟩
  | @cons first frame own frames more is later ih =>
      obtain ⟨action, rest, ⟨at', rfl, carried⟩, others, rfl⟩ :=
        List.forall₂_cons_right_iff.mp handed
      obtain ⟨gains, fills, lastErr, stream⟩ := is.action carried logs started
        (fun bytes inside => small bytes (List.mem_append_left _ inside)) (Wal.places_left places)
      rw [List.foldl_cons]
      generalize onStreamAction l (.frame frame.header at') = l1 at gains fills stream
      obtain ⟨took, lastErr', stream'⟩ := @ih l1 rest
        (by rw [stream]; exact others) gains.logs
        (by
          rw [fills.capacity]
          exact fun bytes inside => small bytes (List.mem_append_right _ inside))
        (by rw [fills.places]; exact places) (by rw [gains.next, started])
      exact ⟨(Loop.Took.mk gains fills).trans took, lastErr', by rw [stream', stream]⟩

/-- What a follower still has to be given of a stream: this much of it is in its buffer. -/
structure Loop.Offered (l : Loop) (frames : List Frame) (recs : List Bytes) (got later : Bytes) :
    Prop where
  hears : l.Hears got
  logs : l.Logs
  are : Replicates (walNextSeq l.wal) frames recs
  bytes : got ++ later = outputBytes frames
  small : ∀ bytes ∈ recs, bytes.length ≤ l.wal.segCapacity
  places : l.wal.places recs = true

/-- No frame is whole in the buffer. -/
def Drained (frames : List Frame) (got : Bytes) : Prop :=
  ∀ frame ∈ frames.head?, got.length < frame.bytes.length

theorem Replicates.split {out left : List Frame} (are : Replicates first (out ++ left) recs) :
    ∃ taken ahead, recs = taken ++ ahead ∧ Replicates first out taken ∧
      Replicates (first + taken.length) left ahead := by
  induction out generalizing first recs with
  | nil => exact ⟨[], recs, rfl, .nil first, are⟩
  | cons frame out ih =>
      cases are with
      | @cons _ _ own _ more is later =>
          obtain ⟨taken, ahead, rfl, front, back⟩ := ih later
          refine ⟨own ++ taken, ahead, (List.append_assoc ..).symm, .cons is front, ?_⟩
          rw [List.length_append, ← Nat.add_assoc]
          exact back

/-- A receive goes on until no frame is whole in the buffer, and applies the others. -/
theorem Loop.Offered.receives {l : Loop} {got later : Bytes} {fuel : Nat}
    (offered : l.Offered frames recs got later) (enough : got.length < fuel) :
    ∃ taken ahead left rest, recs = taken ++ ahead ∧ l.Took taken (onReplRecvLoop fuel l) ∧
      (onReplRecvLoop fuel l).Offered left ahead rest later ∧ Drained left rest := by
  induction fuel generalizing l frames recs got with
  | zero => exact absurd enough (Nat.not_lt_zero _)
  | succ fuel ih =>
      obtain ⟨hears, logs, are, bytes, small, places⟩ := offered
      rw [← hears.conn.got] at bytes
      obtain ⟨out, left, handsOut⟩ :=
        are.feeds hears.conn.mode hears.conn.cap 4 l.stream.conn.bufOff bytes
      have fed : connFeed l.stream.conn 4 = connFeedFrom 4 l.stream.conn l.stream.conn.bufOff := by
        unfold connFeed
        rw [if_neg (by rw [hears.conn.closed]; decide)]
      have whole := handsOut.pending
      obtain ⟨split, handed, conn, pending, drained⟩ := handsOut
      rw [split] at are
      obtain ⟨taken, ahead, rfl, front, back⟩ := are.split
      have inside : l.stream.conn.bufOff + (outputBytes out).length ≤ l.stream.conn.buf.length := by
        rw [split] at bytes
        unfold outputBytes at bytes whole
        rw [List.flatMap_append, ← whole, ← List.append_assoc] at bytes
        have total := congrArg List.length (List.append_cancel_right bytes)
        rw [List.length_append, List.length_drop, List.length_drop] at total
        have below := hears.conn.inside
        unfold outputBytes
        omega
      have shorter : (l.stream.conn.buf.drop
          (l.stream.conn.bufOff + (outputBytes out).length)).length + (outputBytes out).length =
            got.length := by
        rw [← hears.conn.got, List.length_drop, List.length_drop]
        omega
      unfold onReplRecvLoop
      simp only
      rw [fed, conn]
      generalize moved : ({ l with stream := { l.stream with conn := _ } } : Loop) = l1
      have wal1 : l1.wal = l.wal := by
        rw [← moved]
      have os1 : l1.os = l.os := by
        rw [← moved]
      have stream1 : l1.stream = { l.stream with conn := { l.stream.conn with
          bufOff := l.stream.conn.bufOff + (outputBytes out).length } } := by
        rw [← moved]
      obtain ⟨took, lastErr, stream⟩ := @Replicates.applied taken out l1 _
        (by rw [wal1]; exact front) (by rw [stream1]; exact handed)
        ⟨by rw [os1]; exact logs.calm, by rw [wal1, os1]; exact logs.working⟩
        (by
          rw [wal1]
          exact fun bytes inside => small bytes (List.mem_append_left _ inside))
        (by rw [wal1]; exact Wal.places_left places)
      have took := took.of_same wal1 os1
      generalize (connFeedFrom 4 l.stream.conn l.stream.conn.bufOff).1 = actions at *
      generalize behind : l.stream.conn.buf.drop
        (l.stream.conn.bufOff + (outputBytes out).length) = rest at *
      have stream2 : (actions.foldl onStreamAction l1).stream = { l.stream with
          lastErr := lastErr
          conn := { l.stream.conn with
            bufOff := l.stream.conn.bufOff + (outputBytes out).length } } := by
        rw [stream, stream1]
      have offered : (actions.foldl onStreamAction l1).Offered left ahead rest later := by
        refine ⟨⟨?_, ?_, ?_⟩, took.gains.logs, ?_, pending, ?_, ?_⟩
        · rw [stream2]
          exact hears.fd
        · rw [stream2]
          exact hears.closing
        · rw [stream2]
          exact ⟨hears.conn.closed, hears.conn.mode, hears.conn.cap, inside, behind⟩
        · rw [took.gains.next]
          exact back
        · rw [took.fills.capacity]
          exact fun bytes inside => small bytes (List.mem_append_right _ inside)
        · rw [took.fills.places]
          exact places
      cases out with
      | nil =>
          cases handed
          rw [if_pos rfl]
          exact ⟨taken, ahead, left, rest, rfl, took, offered, drained (by decide)⟩
      | cons frame out =>
          have some' : actions ≠ [] := by
            rintro rfl
            cases handed
          have positive : MSG_HEADER_SIZE ≤ (outputBytes (frame :: out)).length := by
            cases front with
            | cons is _later =>
                unfold outputBytes
                rw [List.flatMap_cons, List.length_append]
                exact Nat.le_trans is.bytes_pos (Nat.le_add_right _ _)
          unfold MSG_HEADER_SIZE at positive
          rw [if_neg some', if_neg (by rw [stream2, hears.closing]; decide)]
          obtain ⟨next, ahead, left, rest, rfl, took', offered, drained⟩ :=
            ih offered (by omega)
          exact ⟨taken ++ next, ahead, left, rest, (List.append_assoc ..).symm, took.trans took',
            offered, drained⟩

/-! ### A whole session -/

/-- What a follower does between two receives: its buffer may be compacted, and its log stays
the log it was. -/
structure Loop.Pauses (l l' : Loop) : Prop where
  fd : l'.stream.fd = l.stream.fd
  closing : l'.stream.closing = l.stream.closing
  conn : l'.stream.conn = l.stream.conn ∨ l'.stream.conn = connCompact l.stream.conn
  took : l.Logs → l.Took [] l'

/-- A flush leaves the log what it was. -/
theorem walSync_takes {os : Os} {w : Wal} (calm : os.script = [])
    (working : OpenLog.Working ⟨os.disk, w⟩) :
    ∃ os', walSync os w = (.ok (), w.synced, os') ∧ os'.script = [] ∧
      OpenLog.Working ⟨os'.disk, w.synced⟩ ∧
      ∀ p, p ∈ walRecords os'.disk w.synced ↔ p ∈ walRecords os.disk w := by
  obtain ⟨⟨front, last, holds⟩, tidy, named, able⟩ := working
  rcases @walSync_walk os w holds.sound tidy with
    ⟨fails, _⟩ | ⟨_passes, os', flushes, dir, script⟩
  · rw [calm, show flushFails w [] = false from Bool.and_false _] at fails
    cases fails
  · have held := walSync_holds holds flushes
    refine ⟨os', flushes, by rw [script, calm, List.drop_nil], ⟨⟨front, last, held⟩,
      fun _ => rfl, ?_, able⟩, fun p => ?_⟩
    · exact (@named_iff ⟨os.disk, w⟩ ⟨os'.disk, w.synced⟩ rfl dir).mpr named
    · rw [held.records, holds.records]

/-- The flush of a pass comes between two receives. -/
theorem loopFlush_pauses (l : Loop) : l.Pauses (loopFlush l).2 := by
  unfold loopFlush
  split
  · exact ⟨rfl, rfl, .inl rfl, fun logs => ⟨.refl logs, rfl, fun _ => rfl⟩⟩
  · have same : (l.flushes false).wal = l.wal ∧ (l.flushes false).os = l.os ∧
        (l.flushes false).stream = l.stream := by
      unfold Loop.flushes
      split
      · exact ⟨rfl, rfl, rfl⟩
      · exact ⟨rfl, rfl, rfl⟩
    obtain ⟨wal, os, stream⟩ := same
    simp only
    rw [wal, os]
    refine ⟨by rw [stream], by rw [stream], .inl (by rw [stream]), fun logs => ?_⟩
    obtain ⟨os', flushes, calm, working, records⟩ := walSync_takes logs.calm logs.working
    simp only [flushes]
    refine ⟨⟨⟨calm, working⟩, rfl, fun p => ?_⟩, rfl, fun _ => rfl⟩
    exact (records p).trans ⟨.inl, fun either => either.resolve_right List.not_mem_nil⟩

/-! ### What the leader stages -/

/-- The frames of a connection are whole, and none is longer than a replica's buffers. -/
structure Roomy (slot : Nat) (c : LoopConn) (t : List Note) : Prop where
  caps : c.sendCap ≤ LOOP_REPL_CAP
  short : ∀ frame ∈ outputOf slot t, frame.bytes.length ≤ LOOP_REPL_CAP ∧ frame.Whole

theorem Roomy.turn {may : Prop} {slot : Nat} {c c' : LoopConn} {t t' : List Note}
    (roomy : Roomy slot c t) (turn : Turn may slot (c, t) (c', t')) : Roomy slot c' t' := by
  have fresh {note : Note} (none' : outputOf slot (note :: t) = []) (cap : c'.sendCap ≤ LOOP_REPL_CAP) :
      Roomy slot c' (note :: t) := by
    refine ⟨cap, fun frame inside => ?_⟩
    rw [none'] at inside
    cases inside
  cases turn with
  | aside same =>
      refine ⟨?_, roomy.short⟩
      rw [same.sendCap]
      exact roomy.caps
  | noted suits =>
      refine ⟨roomy.caps, ?_⟩
      rw [(suits_output suits t).1]
      exact roomy.short
  | tuned turns => exact ⟨roomy.caps, roomy.short⟩
  | opened => exact fresh (if_pos rfl) (by decide)
  | released => exact fresh (if_pos rfl) (by decide)
  | @staged _ _ session frame room length =>
      refine ⟨roomy.caps, fun other inside => ?_⟩
      have grown : outputOf slot (.staged slot session frame :: t) = outputOf slot t ++ [frame] :=
        if_pos rfl
      rw [grown] at inside
      rcases List.mem_append.mp inside with earlier | last
      · exact roomy.short other earlier
      · rw [List.mem_singleton.mp last]
        have caps := roomy.caps
        have short : frame.bytes.length ≤ LOOP_REPL_CAP := by omega
        exact ⟨short, Frame.whole length short⟩
  | switched empty => exact ⟨Nat.le_refl _, roomy.short⟩
  | took n => exact ⟨roomy.caps, roomy.short⟩
  | broke fails => exact ⟨roomy.caps, roomy.short⟩

theorem Roomy.turns {may : Prop} {slot : Nat} {s s' : LoopConn × List Note}
    (roomy : Roomy slot s.1 s.2) (turns : Turns may slot s s') : Roomy slot s'.1 s'.2 := by
  induction turns with
  | refl => exact roomy
  | tail _earlier turn ih => exact ih.turn turn

theorem running_roomy {config : Config} {l m : Loop} {pass : Pass} {fails : Nat → Prop}
    (running : Running config l) (going : l.stop = false) (possible : pass.Possible l)
    (moment : Moment l pass m fails) (slot : Nat) : Roomy slot (m.conns slot) m.trace := by
  obtain ⟨⟨first, phase, lit, _starts, sound, _moves, resting⟩, start, started, turned⟩ :=
    running_turns running
  obtain ⟨rfl, rfl⟩ := resting going
  have begun : Roomy slot (start.conns slot) start.trace := by
    obtain ⟨os, listing, capacity, info, w, recs, os', _opened, rfl⟩ := started
    have empty : Roomy slot slotEmpty [.recovered recs] :=
      ⟨by decide, fun frame absent => (by cases absent)⟩
    unfold Config.start
    split
    · exact empty
    · exact empty
  exact Roomy.turns begun (turned.trans
    ((moment_turns sound possible moment).mono (fun _ _ => trivial)) slot)

/-- As long as a connection lives, its socket has accepted what was staged on it, but for what
is in the send buffer. -/
theorem accepted_staged {config : Config} {l m : Loop} {pass : Pass} {fails : Nat → Prop}
    {slot : Nat} (running : Running config l) (going : l.stop = false)
    (possible : pass.Possible l) (moment : Moment l pass m fails)
    (stays : (m.conns slot).closing = false) :
    acceptedOf slot m.trace ++ (m.conns slot).sendBuf = outputBytes (outputOf slot m.trace) := by
  obtain ⟨start, phase, lit, _starts, sound, _moves, resting⟩ := running_moves running
  obtain ⟨rfl, rfl⟩ := resting going
  have flows := (running_rests running going).moment sound possible moment slot
  refine flows.order.resolve_left (fun broken => ?_)
  rw [broken.2.1] at stays
  cases stays

/-- Whole records that begin a run of records are the first of it. -/
theorem Consecutive.begins {all : List Bytes} (are : Consecutive first recs)
    (reads : ∀ bytes ∈ all, ∃ d, ReadsAs bytes d) (within : recs.flatten <+: all.flatten) :
    recs <+: all := by
  induction recs generalizing first all with
  | nil => exact List.nil_prefix
  | cons bytes rest ih =>
      obtain ⟨⟨r, is, _seq⟩, later⟩ := are
      have header := header_le_walRecSize is.sized
      rw [is.size] at header
      cases all with
      | nil =>
          rw [List.flatten_cons, List.flatten_nil, List.prefix_nil, List.append_eq_nil_iff] at within
          rw [within.1] at header
          exact absurd header (by decide)
      | cons other more =>
          obtain ⟨d, own⟩ := reads other (List.mem_cons_self ..)
          have header' := header_le_walRecSize own.sized
          rw [own.size] at header'
          rw [List.flatten_cons, List.flatten_cons] at within
          obtain ⟨tail, shape⟩ := within
          rw [List.append_assoc] at shape
          -- both are read from the same bytes
          have decoded := congrArg walRecDecode shape
          rw [walRecDecode_append _ _ header, walRecDecode_append _ _ header', is.decoded,
            own.decoded, Option.some.injEq] at decoded
          subst decoded
          obtain ⟨rfl, left⟩ := List.append_inj shape (is.size.symm.trans own.size)
          rw [List.prefix_cons_inj]
          exact ih later (fun bytes inside => reads bytes (List.mem_cons_of_mem _ inside))
            ⟨tail, left⟩

theorem Consecutive.numbered (are : Consecutive first recs)
    (reads : ∀ bytes ∈ recs, ∃ d, ReadsAs bytes d) : Numbered first recs := by
  induction recs generalizing first with
  | nil => trivial
  | cons bytes rest ih =>
      obtain ⟨⟨r, is, seq⟩, later⟩ := are
      obtain ⟨d, own⟩ := reads bytes (List.mem_cons_self ..)
      have same := is.decoded
      rw [own.decoded, Option.some.injEq] at same
      exact ⟨⟨d, own, by rw [same, seq]⟩,
        ih later (fun bytes inside => reads bytes (List.mem_cons_of_mem _ inside))⟩

end Msgsrvd

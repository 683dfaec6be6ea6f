/-
A follower and the frames its leader builds.

A frame of records arrives in pieces; nothing happens until the last of its bytes, and
then every record is checked and appended at the sequence it carries.
-/

import Msgsrvd.Server.Output
import Msgsrvd.Wal.Copies

namespace Msgsrvd

open Bytestring

/-! ### Applying a frame -/

/-- Records that read as numbered from this sequence on. -/
def Numbered : Nat → List Bytes → Prop
  | _, [] => True
  | seq, bytes :: rest => (∃ d, ReadsAs bytes d ∧ d.seq = seq) ∧ Numbered (seq + 1) rest

/-- A log that can go on, with no call to fail. -/
structure Loop.Logs (l : Loop) : Prop where
  calm : l.os.script = []
  working : OpenLog.Working ⟨l.os.disk, l.wal⟩

/-- The log of the one loop holds the other's records and these behind them. -/
structure Loop.Gains (l : Loop) (recs : List Bytes) (l' : Loop) : Prop where
  logs : l'.Logs
  next : walNextSeq l'.wal = walNextSeq l.wal + recs.length
  records : ∀ p, p ∈ walRecords l'.os.disk l'.wal ↔
    p ∈ walRecords l.os.disk l.wal ∨ p ∈ numbered (walNextSeq l.wal) recs

/-- So much of its room have these records taken. -/
structure Loop.Fills (l : Loop) (recs : List Bytes) (l' : Loop) : Prop where
  capacity : l'.wal.segCapacity = l.wal.segCapacity
  places : ∀ more, l'.wal.places more = l.wal.places (recs ++ more)

theorem logAppendAt_shape (l : Loop) (r : WalRec) (payload : Bytes) :
    ∃ trace, logAppendAt l r payload =
      ((walAppendAt l.os l.wal r payload SCRATCH_LEN).1,
        { l with
          wal := (walAppendAt l.os l.wal r payload SCRATCH_LEN).2.1
          os := (walAppendAt l.os l.wal r payload SCRATCH_LEN).2.2
          trace := trace }) := by
  unfold logAppendAt Loop.flushes Loop.note
  simp only
  split
  · split
    · exact ⟨_, rfl⟩
    · exact ⟨_, rfl⟩
  · exact ⟨_, rfl⟩

/-- **A follower applies every record of a frame**, wherever in it they begin. -/
theorem replApplyFrom_gains {recs : List Bytes} {l : Loop} {done : Bytes} {fuel : Nat}
    (logs : l.Logs) (are : Numbered (walNextSeq l.wal) recs)
    (small : ∀ bytes ∈ recs, bytes.length ≤ l.wal.segCapacity)
    (places : l.wal.places recs = true) (enough : recs.flatten.length ≤ fuel) :
    ∃ l', replApplyFrom (done ++ recs.flatten) fuel l done.length = l' ∧ l.Gains recs l' ∧
      l.Fills recs l' ∧ ∃ lastErr, l'.stream = { l.stream with lastErr := lastErr } := by
  induction recs generalizing l done fuel with
  | nil =>
      refine ⟨l, ?_, ⟨logs, rfl, fun p => ⟨Or.inl, fun found => found.resolve_right
        (List.not_mem_nil)⟩⟩, ⟨rfl, fun more => rfl⟩, l.stream.lastErr, rfl⟩
      cases fuel with
      | zero => rfl
      | succ fuel =>
          unfold replApplyFrom
          rw [List.flatten_nil, List.append_nil, if_neg (Nat.lt_irrefl _)]
  | cons bytes rest ih =>
      obtain ⟨⟨d, reads, seq⟩, later⟩ := are
      have header := header_le_walRecSize reads.sized
      rw [reads.size] at header
      unfold WAL_REC_HEADER_SIZE at header
      rw [List.flatten_cons, List.length_append] at enough
      cases fuel with
      | zero => omega
      | succ fuel =>
          have left : (done ++ (bytes :: rest).flatten).drop done.length =
              bytes ++ rest.flatten := by
            rw [List.flatten_cons, List.drop_left]
          have total : (done ++ (bytes :: rest).flatten).length =
              done.length + bytes.length + rest.flatten.length := by
            rw [List.flatten_cons, List.length_append, List.length_append]
            omega
          have decoded : walRecDecode (bytes ++ rest.flatten) = some d := by
            rw [walRecDecode_append _ _ (by unfold WAL_REC_HEADER_SIZE; omega)]
            exact reads.decoded
          have verified : walRecVerify (bytes ++ rest.flatten) d = true := by
            have same := walRecVerify_take (bytes ++ rest.flatten) d bytes.length
              (Nat.le_of_eq reads.size)
            rw [List.take_left' rfl] at same
            rw [← same]
            exact reads.verified
          have payload : slice (done ++ (bytes :: rest).flatten)
              (done.length + WAL_REC_HEADER_SIZE)
              ((done ++ (bytes :: rest).flatten).length - (done.length + WAL_REC_HEADER_SIZE)) =
                (bytes ++ rest.flatten).drop WAL_REC_HEADER_SIZE := by
            unfold slice
            rw [← List.drop_drop, left, List.take_of_length_le]
            rw [List.length_drop, total, List.length_append]
            omega
          obtain ⟨w', os', appends, stores⟩ := @walAppendAt_copies l.os l.wal bytes rest.flatten d
            _ rest reads logs.calm logs.working seq (small bytes (List.mem_cons_self ..))
            (Nat.le_refl _) places
          obtain ⟨trace, shape⟩ := logAppendAt_shape l d ((bytes ++ rest.flatten).drop
            WAL_REC_HEADER_SIZE)
          have accepted : ¬ (walRecSize (i32 d.len) = 0 ∨
              done.length + walRecSize (i32 d.len) > (done ++ (bytes :: rest).flatten).length ∨
              ¬ walRecVerify (bytes ++ rest.flatten) d = true ∨ d.seq ≠ walNextSeq l.wal) := by
            rw [reads.size, verified, total]
            rintro (zero | past | never | other)
            · omega
            · omega
            · exact never rfl
            · exact other seq
          unfold replApplyFrom
          rw [if_pos (by omega), left, decoded]
          simp only
          rw [if_neg accepted, payload, shape]
          unfold SCRATCH_LEN
          rw [appends, reads.size]
          simp only
          generalize moved : (Loop.note _ (.applied d) : Loop) = l1
          have wal : l1.wal = w' := by
            rw [← moved]
            rfl
          have os1 : l1.os = os' := by
            rw [← moved]
            rfl
          have stream : l1.stream = { l.stream with lastErr := 0 } := by
            rw [← moved]
            rfl
          have capacity : l1.wal.segCapacity = l.wal.segCapacity := by
            rw [wal, stores.capacity]
          have next : walNextSeq l1.wal = walNextSeq l.wal + 1 := by
            rw [wal, stores.next]
          have logs1 : l1.Logs := by
            constructor
            · rw [os1]
              exact stores.calm
            · rw [wal, os1]
              exact stores.working
          obtain ⟨l', applied, gains, fills, lastErr, same⟩ := @ih l1 (done ++ bytes) fuel logs1
            (by rw [next]; exact later)
            (by
              rw [capacity]
              exact fun other inside => small other (List.mem_cons_of_mem _ inside))
            (by rw [wal, stores.places]; exact places) (by omega)
          refine ⟨l', ?_, ⟨gains.logs, ?_, ?_⟩, ⟨fills.capacity.trans capacity, ?_⟩, lastErr, ?_⟩
          · rw [List.append_assoc, ← List.flatten_cons, List.length_append] at applied
            exact applied
          · rw [gains.next, next, List.length_cons]
            omega
          · intro p
            have here : numbered (walNextSeq l.wal) (bytes :: rest) =
                (walNextSeq l.wal, bytes) :: numbered (walNextSeq l.wal + 1) rest := rfl
            rw [gains.records, next, here, List.mem_cons, ← or_assoc, wal, os1, stores.records]
          · intro more
            rw [fills.places, wal, stores.places, List.cons_append]
          · rw [same, stream]

/-! ### Framing -/

/-- A frame of records that fits a follower's buffer. -/
structure ReplFrame (frame : Frame) (first : Nat) (recs : List Bytes) : Prop where
  header : frame.header =
    msgHeaderNew MSG_OP_REPL_DATA MSG_RECORD_NONE 0 frame.payload.length 0 first
  payload : frame.payload = recs.flatten
  short : frame.payload.length ≤ LOOP_REPL_CAP - MSG_HEADER_SIZE
  low : first < 2 ^ 64
  are : Numbered first recs

variable {frame : Frame} {first : Nat} {recs : List Bytes}

theorem ReplFrame.length (is : ReplFrame frame first recs) :
    frame.bytes.length = MSG_HEADER_SIZE + frame.payload.length ∧
      frame.bytes.length ≤ LOOP_REPL_CAP := by
  have short := is.short
  rw [frame_length]
  unfold LOOP_REPL_CAP MSG_HEADER_SIZE at *
  omega

/-- As soon as its bytes are there, the header is the frame's. -/
theorem ReplFrame.headerAt (is : ReplFrame frame first recs) {got rest : Bytes}
    (part : got ++ rest = frame.bytes) (long : ¬ got.length < MSG_HEADER_SIZE) :
    msgHeaderAt got = frame.header := by
  have short := is.short
  have low := is.low
  rw [← msgHeaderAt_append rest long, part]
  unfold Frame.bytes
  rw [msgHeaderAt_encode, is.header]
  unfold MsgHeader.cut msgHeaderNew
  have len : frame.payload.length % 256 ^ 4 = frame.payload.length := by
    apply Nat.mod_eq_of_lt
    unfold LOOP_REPL_CAP at short
    omega
  have seq : first % 256 ^ 8 = first := Nat.mod_eq_of_lt low
  simp only [len, seq]
  rfl

theorem ReplFrame.sound (is : ReplFrame frame first recs) (opened : Bool) :
    headerFault LOOP_REPL_CAP .internal opened frame.header = none := by
  have short := is.short
  have fits : ¬ (frame.payload.length > MSG_MAX_PAYLOAD ∨
      frame.payload.length > LOOP_REPL_CAP - MSG_HEADER_SIZE) := by
    unfold LOOP_REPL_CAP MSG_HEADER_SIZE at *
    unfold MSG_MAX_PAYLOAD
    omega
  rw [is.header]
  unfold headerFault msgHeaderNew
  simp only
  rw [if_neg (not_not.mpr rfl), if_neg (by decide), if_neg (by decide), if_neg fits,
    if_neg (by rintro ⟨client, _⟩; cases client)]

/-- A connection to a leader on which this much of a frame has arrived. -/
structure Conn.Hears (c : Conn) (got : Bytes) : Prop where
  closed : c.closed = false
  mode : c.mode = .internal
  cap : c.bufCap = LOOP_REPL_CAP
  inside : c.bufOff ≤ c.buf.length
  got : c.buf.drop c.bufOff = got

/-- Less than the frame: nothing comes out. -/
theorem ReplFrame.feed_part (is : ReplFrame frame first recs) {c : Conn} {got rest : Bytes}
    (hears : c.Hears got) (part : got ++ rest = frame.bytes) (more : rest ≠ []) :
    connFeed c 4 = ([], c) := by
  have length : got.length + rest.length = frame.bytes.length := by
    rw [← part, List.length_append]
  have left : c.buf.length - c.bufOff = got.length := by
    rw [← hears.got, List.length_drop]
  have positive := List.length_pos_iff.mpr more
  unfold connFeed
  rw [if_neg (by rw [hears.closed]; decide)]
  unfold connFeedFrom
  rw [left]
  by_cases short : got.length < MSG_HEADER_SIZE
  · rw [if_pos short]
  · rw [if_neg short]
    have sound : headerFault c.bufCap c.mode c.opened frame.header = none := by
      rw [hears.cap, hears.mode]
      exact is.sound c.opened
    simp only
    rw [hears.got, is.headerAt part short, sound]
    have len : frame.header.payloadLen = frame.payload.length := by
      rw [is.header]
      rfl
    simp only
    rw [if_pos (by rw [len]; have whole := is.length.1; omega)]

/-- All of the frame: the frame comes out, and nothing is left. -/
theorem ReplFrame.feed_whole (is : ReplFrame frame first recs) {c : Conn}
    (hears : c.Hears frame.bytes) :
    connFeed c 4 = ([.frame frame.header (c.bufOff + MSG_HEADER_SIZE)],
        { c with opened := c.opened || opens frame.header.op, bufOff := c.buf.length }) ∧
      slice c.buf (c.bufOff + MSG_HEADER_SIZE) frame.header.payloadLen = frame.payload := by
  have left : c.buf.length - c.bufOff = frame.bytes.length := by
    rw [← hears.got, List.length_drop]
  have whole := is.length.1
  have inside := hears.inside
  have len : frame.header.payloadLen = frame.payload.length := by
    rw [is.header]
    rfl
  have at_end : c.bufOff + (MSG_HEADER_SIZE + frame.payload.length) = c.buf.length := by omega
  constructor
  · unfold connFeed
    rw [if_neg (by rw [hears.closed]; decide)]
    unfold connFeedFrom
    rw [left, if_neg (by omega)]
    have sound : headerFault c.bufCap c.mode c.opened frame.header = none := by
      rw [hears.cap, hears.mode]
      exact is.sound c.opened
    simp only
    rw [hears.got, is.headerAt (List.append_nil _) (by omega), sound]
    simp only
    rw [len, if_neg (by omega), at_end]
    unfold connFeedFrom
    simp only [Nat.sub_self]
    rw [if_pos (by unfold MSG_HEADER_SIZE; omega)]
  · unfold slice
    rw [← List.drop_drop, hears.got, len]
    unfold Frame.bytes
    rw [← length_msgEncodeHeader frame.header, List.drop_left, List.take_length]

/-! ### Receiving -/

theorem Conn.Hears.compact {c : Conn} {got : Bytes} (hears : c.Hears got) :
    (connCompact c).Hears got := by
  unfold connCompact
  split
  · exact hears
  · exact ⟨hears.closed, hears.mode, hears.cap, Nat.zero_le _, hears.got⟩

theorem Conn.Hears.commit {c : Conn} {got chunk : Bytes} (hears : c.Hears got)
    (space : chunk.length ≤ connRecvSpace c) : (connRecvCommit c chunk).Hears (got ++ chunk) := by
  have inside := hears.inside
  unfold connRecvCommit
  rw [if_neg (by rw [hears.closed]; decide), List.take_of_length_le space]
  refine ⟨hears.closed, hears.mode, hears.cap, ?_, ?_⟩
  · change c.bufOff ≤ (c.buf ++ chunk).length
    rw [List.length_append]
    omega
  · change (c.buf ++ chunk).drop c.bufOff = _
    rw [List.drop_append_of_le_length inside, hears.got]

/-- The stream to the leader is up, and this much of a frame has arrived on it. -/
structure Loop.Hears (l : Loop) (got : Bytes) : Prop where
  fd : l.stream.fd = true
  closing : l.stream.closing = false
  conn : l.stream.conn.Hears got

/-- The receives of a follower from an empty buffer on.  Between two of them its loop does
other things, and may compact the buffer. -/
inductive Loop.Receives : Bytes → Loop → Prop where
  | start {l : Loop} (empty : l.Hears []) : Loop.Receives [] l
  | between {got : Bytes} {l l' : Loop} (earlier : Loop.Receives got l)
      (fd : l'.stream.fd = l.stream.fd) (closing : l'.stream.closing = l.stream.closing)
      (conn : l'.stream.conn = l.stream.conn ∨ l'.stream.conn = connCompact l.stream.conn) :
      Loop.Receives got l'
  | received {got chunk : Bytes} {l : Loop} (earlier : Loop.Receives got l) (some' : chunk ≠ [])
      (space : chunk.length ≤ connRecvSpace l.stream.conn) :
      Loop.Receives (got ++ chunk) (doReplRecv l (.data chunk))

/-- A receive on a stream that is up. -/
theorem Loop.Hears.receive {l : Loop} {got chunk : Bytes} (hears : l.Hears got)
    (some' : chunk ≠ []) (space : chunk.length ≤ connRecvSpace l.stream.conn) :
    ∃ trace, doReplRecv l (.data chunk) = onReplRecvLoop
      ((connRecvCommit l.stream.conn chunk).buf.length + 2)
      { l with
        stream := { l.stream with conn := connRecvCommit l.stream.conn chunk }, trace := trace } := by
  have positive := List.length_pos_iff.mpr some'
  have up : ¬ (¬ l.stream.fd = true ∨ l.stream.closing = true ∨
      connRecvSpace l.stream.conn = 0) := by
    rw [hears.fd, hears.closing]
    rintro (down | closing | full)
    · exact down rfl
    · cases closing
    · omega
  unfold doReplRecv
  rw [if_neg up]
  simp only
  unfold onReplRecv
  rw [if_neg some']
  exact ⟨_, rfl⟩

/-- Before its last bytes are there nothing happens to the frame. -/
theorem ReplFrame.receive_part (is : ReplFrame frame first recs) {l : Loop} {got chunk rest : Bytes}
    (hears : l.Hears got) (some' : chunk ≠ []) (space : chunk.length ≤ connRecvSpace l.stream.conn)
    (part : got ++ chunk ++ rest = frame.bytes) (more : rest ≠ []) :
    (doReplRecv l (.data chunk)).Hears (got ++ chunk) := by
  obtain ⟨trace, receives⟩ := hears.receive some' space
  have hears' := hears.conn.commit space
  rw [receives]
  unfold onReplRecvLoop
  simp only
  rw [is.feed_part hears' part more]
  simp only [if_true]
  exact ⟨hears.fd, hears.closing, hears'⟩

/-- However the frame is split, the buffer holds as much of it as has been received. -/
theorem ReplFrame.hears (is : ReplFrame frame first recs) {l : Loop} {got rest : Bytes}
    (receives : Loop.Receives got l) (part : got ++ rest = frame.bytes) (more : rest ≠ []) :
    l.Hears got := by
  induction receives generalizing rest with
  | start empty => exact empty
  | between earlier fd closing conn ih =>
      have hears := ih part more
      refine ⟨fd.trans hears.fd, closing.trans hears.closing, ?_⟩
      rcases conn with same | compacted
      · rw [same]
        exact hears.conn
      · rw [compacted]
        exact hears.conn.compact
  | @received got chunk l earlier some' space ih =>
      have hears := ih ((List.append_assoc got chunk rest).symm.trans part)
        (List.append_ne_nil_of_left_ne_nil some' rest)
      exact is.receive_part hears some' space part more

/-- Once it is compacted, the buffer has room for more of the frame. -/
theorem ReplFrame.room (is : ReplFrame frame first recs) {l : Loop} {got rest : Bytes}
    (receives : Loop.Receives got l) (part : got ++ rest = frame.bytes) (more : rest ≠ []) :
    0 < connRecvSpace (connCompact l.stream.conn) := by
  have hears := (is.hears receives part more).conn.compact
  have length : got.length + rest.length = frame.bytes.length := by
    rw [← part, List.length_append]
  have positive := List.length_pos_iff.mpr more
  have short := is.length.2
  have start : (connCompact l.stream.conn).bufOff = 0 := by
    unfold connCompact
    split
    · assumption
    · rfl
  have buffered : (connCompact l.stream.conn).buf.length = got.length := by
    have got := hears.got
    rw [start, List.drop_zero] at got
    rw [got]
  unfold connRecvSpace
  rw [buffered, hears.cap]
  omega

/-- A frame that has come out of the buffer is applied. -/
theorem ReplFrame.action (is : ReplFrame frame first recs) {l : Loop} {at' : Nat}
    (carried : slice l.stream.conn.buf at' frame.header.payloadLen = frame.payload)
    (logs : l.Logs) (next : walNextSeq l.wal = first)
    (small : ∀ bytes ∈ recs, bytes.length ≤ l.wal.segCapacity) (places : l.wal.places recs = true) :
    l.Gains recs (onStreamAction l (.frame frame.header at')) ∧
      l.Fills recs (onStreamAction l (.frame frame.header at')) ∧
      ∃ lastErr, (onStreamAction l (.frame frame.header at')).stream =
        { l.stream with lastErr := lastErr } := by
  obtain ⟨l', applied, gains, fills, stream⟩ := @replApplyFrom_gains recs l [] frame.payload.length logs
    (by rw [next]; exact is.are) small places (by rw [is.payload])
  rw [List.nil_append, ← is.payload] at applied
  have op : frame.header.op = MSG_OP_REPL_DATA := by
    rw [is.header]
    rfl
  have whole : onStreamAction l (.frame frame.header at') = l' := by
    unfold onStreamAction
    simp only
    rw [carried]
    unfold onStreamFrame replApply
    rw [if_pos op]
    exact applied
  rw [whole]
  exact ⟨gains, fills, stream⟩

/-- With its last bytes the frame is applied. -/
theorem ReplFrame.receive_whole (is : ReplFrame frame first recs) {l : Loop} {got chunk : Bytes}
    (hears : l.Hears got) (some' : chunk ≠ []) (space : chunk.length ≤ connRecvSpace l.stream.conn)
    (whole : got ++ chunk = frame.bytes) (logs : l.Logs) (next : walNextSeq l.wal = first)
    (small : ∀ bytes ∈ recs, bytes.length ≤ l.wal.segCapacity) (places : l.wal.places recs = true) :
    l.Gains recs (doReplRecv l (.data chunk)) ∧
      (doReplRecv l (.data chunk)).stream.closing = false := by
  obtain ⟨trace, receives⟩ := hears.receive some' space
  have hears' := hears.conn.commit space
  rw [whole] at hears'
  obtain ⟨fed, carried⟩ := is.feed_whole hears'
  rw [receives]
  generalize connRecvCommit l.stream.conn chunk = c at hears' fed carried
  unfold onReplRecvLoop
  simp only
  rw [fed]
  simp only
  rw [if_neg (List.cons_ne_nil _ _), List.foldl_cons, List.foldl_nil]
  generalize fed' : ({ l with stream := _, trace := trace } : Loop) = l1
  have stream1 : l1.stream = { l.stream with conn := { c with
      opened := c.opened || opens frame.header.op, bufOff := c.buf.length } } := by
    rw [← fed']
  have same : l1.wal = l.wal ∧ l1.os = l.os := by
    rw [← fed']
    exact ⟨rfl, rfl⟩
  obtain ⟨wal, os⟩ := same
  obtain ⟨gains, _fills, lastErr, stream⟩ := @ReplFrame.action _ _ _ is l1 (c.bufOff + MSG_HEADER_SIZE)
    (by rw [stream1]; exact carried)
    ⟨by rw [os]; exact logs.calm, by rw [wal, os]; exact logs.working⟩ (by rw [wal, next])
    (by rw [wal]; exact small) (by rw [wal]; exact places)
  generalize onStreamAction l1 (.frame frame.header (c.bufOff + MSG_HEADER_SIZE)) = l2 at gains stream
  have closing : l2.stream.closing = false := by
    rw [stream, stream1]
    exact hears.closing
  have conn : l2.stream.conn = { c with
      opened := c.opened || opens frame.header.op, bufOff := c.buf.length } := by
    rw [stream, stream1]
  -- nothing is left in the buffer
  have idle : connFeed l2.stream.conn 4 = ([], l2.stream.conn) := by
    rw [conn]
    unfold connFeed
    rw [if_neg (by rw [show _ = false from hears'.closed]; decide)]
    unfold connFeedFrom
    simp only [Nat.sub_self]
    rw [if_pos (by unfold MSG_HEADER_SIZE; omega)]
  rw [if_neg (by rw [closing]; decide)]
  unfold onReplRecvLoop
  simp only
  rw [idle]
  simp only [if_true]
  refine ⟨⟨gains.logs, ?_, ?_⟩, closing⟩
  · rw [← wal]
    exact gains.next
  · intro p
    rw [← wal, ← os]
    exact gains.records p

/-! ### The leader's frames -/

/-- A walk over a buffer that goes on with these records takes whole ones of them, each at
the sequence it was read for. -/
theorem cursorWalk_whole {buf : Bytes} {limit fuel at' next used next' : Nat} {all : List Bytes}
    (reads : ∀ bytes ∈ all, ∃ d, ReadsAs bytes d)
    (walked : cursorWalk buf limit fuel at' next = (.ok (), used, next'))
    (within : (buf.drop at').take (used - at') <+: all.flatten) :
    ∃ recs, recs <+: all ∧ (buf.drop at').take (used - at') = recs.flatten ∧
      Numbered next recs ∧ next' = next + recs.length := by
  induction fuel generalizing at' next all with
  | zero =>
      cases walked
      exact ⟨[], List.nil_prefix, by rw [Nat.sub_self]; rfl, trivial, rfl⟩
  | succ fuel ih =>
      have still (same : ((.ok (), used, next') : Except Err Unit × Nat × Nat) = (.ok (), at', next)) :
          ∃ recs, recs <+: all ∧ (buf.drop at').take (used - at') = recs.flatten ∧
            Numbered next recs ∧ next' = next + recs.length := by
        cases same
        exact ⟨[], List.nil_prefix, by rw [Nat.sub_self]; rfl, trivial, rfl⟩
      unfold cursorWalk at walked
      split at walked
      · cases decoded : walRecDecode (buf.drop at') with
        | none =>
            rw [decoded] at walked
            exact still walked.symm
        | some r =>
            rw [decoded] at walked
            simp only at walked
            split at walked
            · exact still walked.symm
            · split at walked
              · cases walked
              · rename_i seq
                rw [not_not] at seq
                split at walked
                · exact still walked.symm
                · split at walked
                  · cases walked
                  · rename_i sized
                    split at walked
                    · exact still walked.symm
                    · rename_i inside
                      have header := header_le_walRecSize sized
                      unfold WAL_REC_HEADER_SIZE at header
                      obtain ⟨low, _grows, _same⟩ := cursorWalk_used walked
                      generalize taken : (buf.drop at').take (used - at') = front at within ⊢
                      have length : front.length = min (used - at') (buf.length - at') := by
                        rw [← taken, List.length_take, List.length_drop]
                      cases all with
                      | nil =>
                          have none' := List.prefix_nil.mp within
                          rw [none', List.length_nil] at length
                          omega
                      | cons bytes rest =>
                          obtain ⟨d, is⟩ := reads bytes (List.mem_cons_self ..)
                          have long := header_le_walRecSize is.sized
                          rw [is.size] at long
                          unfold WAL_REC_HEADER_SIZE at long
                          obtain ⟨tail, shape⟩ := within
                          rw [List.flatten_cons] at shape
                          -- the header the walk has read is the record's
                          have same : r = d := by
                            have read : walRecDecode (front ++ tail) = some r := by
                              rw [walRecDecode_append _ _ (by unfold WAL_REC_HEADER_SIZE; omega),
                                ← decoded]
                              conv_rhs => rw [← List.take_append_drop (used - at') (buf.drop at')]
                              rw [taken, walRecDecode_append _ _
                                (by unfold WAL_REC_HEADER_SIZE; omega)]
                            rw [shape, walRecDecode_append _ _
                              (by unfold WAL_REC_HEADER_SIZE; omega), is.decoded] at read
                            exact (Option.some.inj read).symm
                          subst same
                          rw [is.size] at walked low inside
                          have split : front = bytes ++
                              (buf.drop (at' + bytes.length)).take (used - (at' + bytes.length)) := by
                            have first : front.take bytes.length = bytes := by
                              have early : (front ++ tail).take bytes.length =
                                  front.take bytes.length :=
                                List.take_append_of_le_length (by omega)
                              rw [← early, shape, List.take_left' rfl]
                            rw [← List.take_append_drop bytes.length front, first, ← taken,
                              List.drop_take, List.drop_drop]
                            rw [Nat.sub_sub]
                          have later : (buf.drop (at' + bytes.length)).take
                              (used - (at' + bytes.length)) <+: rest.flatten := by
                            rw [split, List.append_assoc] at shape
                            exact ⟨tail, List.append_cancel_left shape⟩
                          obtain ⟨recs, early, flat, numbered, ends⟩ := ih
                            (fun other inside => reads other (List.mem_cons_of_mem _ inside))
                            walked later
                          refine ⟨bytes :: recs, ?_, ?_, ⟨⟨r, is, seq⟩, numbered⟩, ?_⟩
                          · exact (List.prefix_cons_inj bytes).mpr early
                          · rw [split, flat, List.flatten_cons]
                          · rw [ends, List.length_cons]
                            omega
      · exact still walked.symm

/-- A read of a log of these records is of whole ones, and the cursor stands behind them. -/
theorem walCursorRead_whole {os os' : Os} {w : Wal} {cur cur' : WalCursor} {limit bufLen : Nat}
    {got : Bytes} {all : List Bytes} (reads : ∀ bytes ∈ all, ∃ d, ReadsAs bytes d)
    (read : walCursorRead os w cur limit bufLen = (.ok got, cur', os'))
    (within : got <+: all.flatten) :
    ∃ recs, recs <+: all ∧ got = recs.flatten ∧ Numbered cur.nextSeq recs ∧
      cur'.nextSeq = cur.nextSeq + recs.length := by
  have tries (attempts : Nat) {os : Os} {cur : WalCursor}
      (read : cursorAttempt w limit bufLen attempts os cur = (.ok got, cur', os')) :
      ∃ recs, recs <+: all ∧ got = recs.flatten ∧ Numbered cur.nextSeq recs ∧
        cur'.nextSeq = cur.nextSeq + recs.length := by
    induction attempts generalizing os cur with
    | zero =>
        cases read
        exact ⟨[], List.nil_prefix, rfl, trivial, rfl⟩
    | succ attempts ih =>
        obtain ⟨buf, os1, used, next, _preads, walks, ends⟩ := cursorAttempt_ok read
        rcases ends with ⟨_moved, taken, moved⟩ | ⟨_none, taken, same, _stops⟩ |
          ⟨_none, base, c2, os2, _at, _differ, opens, again⟩
        · have whole := @cursorWalk_whole buf limit buf.length 0 cur.nextSeq used next all reads walks
          rw [List.drop_zero, Nat.sub_zero, ← taken] at whole
          rw [moved]
          exact whole within
        · rw [taken, same]
          exact ⟨[], List.nil_prefix, rfl, trivial, rfl⟩
        · rw [← (cursorOpenSeg_ok opens).2]
          exact ih again
  unfold walCursorRead at read
  split at read
  · cases read
  · split at read
    · cases read
    · split at read
      · cases read
        exact ⟨[], List.nil_prefix, rfl, trivial, rfl⟩
      · exact tries 2 read

/-- The state in which `repl_stream` comes to a slot. -/
def Loop.streamedTo (l : Loop) (slot : Nat) : Loop :=
  (List.range slot).foldl (replStreamOne (walDurableSeq l.wal)) l

/-- `repl_stream` builds this frame for the replica on the slot, whose cursor then stands at
this sequence. -/
structure Loop.Builds (l : Loop) (slot : Nat) (frame : Frame) (next : Nat) : Prop where
  slotted : slot < LOOP_MAX_CONNS
  staged : ∃ session, (replStreamOne (walDurableSeq l.wal) (l.streamedTo slot) slot).trace =
    .staged slot session frame :: (l.streamedTo slot).trace
  cursor : ∃ idx, ((l.streamedTo slot).conns slot).replica = some idx ∧
    next = ((replStreamOne (walDurableSeq l.wal) (l.streamedTo slot) slot).peer idx).cursor.nextSeq

/-- A frame is built from one read, of as much as the send buffer takes. -/
theorem Loop.Builds.read {l : Loop} {slot next : Nat} (builds : l.Builds slot frame next) :
    ∃ os w cur limit cur' os', walCursorRead os w cur limit
        (((l.streamedTo slot).conns slot).sendCap - MSG_HEADER_SIZE) = (.ok frame.payload, cur', os') ∧
      frame.payload ≠ [] ∧ cur'.nextSeq = next ∧
      frame.header = msgHeaderNew MSG_OP_REPL_DATA MSG_RECORD_NONE 0 frame.payload.length 0
        cur.nextSeq := by
  obtain ⟨_inside, ⟨session, staged⟩, idx, of, ends⟩ := builds
  generalize walDurableSeq l.wal = limit at staged ends
  generalize l.streamedTo slot = before at staged of ends ⊢
  have still (same : before.trace = .staged slot session frame :: before.trace) : False :=
    List.cons_ne_self _ _ same.symm
  unfold replStreamOne at staged ends
  simp only at staged ends
  rw [of] at staged ends
  simp only at staged ends
  split at staged
  · exact (still staged).elim
  · rename_i free
    rw [if_neg free] at ends
    cases read : walCursorRead before.os before.wal (before.peer idx).cursor limit
        ((before.conns slot).sendCap - MSG_HEADER_SIZE) with
    | mk res rest =>
        obtain ⟨cur', os'⟩ := rest
        rw [read] at staged ends
        cases res with
        | error e => exact (still staged).elim
        | ok bytes =>
            simp only at staged ends
            split at staged
            · exact (still staged).elim
            · rename_i some'
              rw [if_neg some'] at ends
              have same := (List.cons.inj staged).1
              injection same with _slot _session made
              have stands : cur'.nextSeq = next := by
                rw [ends]
                change _ = (if idx = idx then (⟨_, _, cur'⟩ : LoopPeer) else _).cursor.nextSeq
                rw [if_pos rfl]
              subst made
              exact ⟨before.os, before.wal, (before.peer idx).cursor, limit, cur', os', read, some',
                stands, rfl⟩

variable {config : Config} {l l1 m : Loop} {pass : Pass} {events : List Event} {slot next : Nat}

/-- A frame over records that appends have stored carries whole ones, and fits a follower's
buffer. -/
theorem Loop.Builds.whole {all : List Bytes} (builds : l.Builds slot frame next)
    (caps : ((l.streamedTo slot).conns slot).sendCap ≤ LOOP_REPL_CAP)
    (carries : frame.payload <+: all.flatten) (produced : ∀ bytes ∈ all, Produced bytes) :
    ∃ recs, recs <+: all ∧ ReplFrame frame frame.header.sequence recs ∧
      next = frame.header.sequence + recs.length := by
  obtain ⟨os, w, cur, limit, cur', os', read, some', ends, header⟩ := builds.read
  have short := walCursorRead_length read
  obtain ⟨recs, early, flat, are, moved⟩ :=
    walCursorRead_whole (fun bytes inside => (produced bytes inside).reads) read carries
  have sequence : frame.header.sequence = cur.nextSeq := by
    rw [header]
    rfl
  rw [sequence]
  refine ⟨recs, early, ⟨header, flat, by omega, ?_, are⟩, by rw [← ends, moved]⟩
  cases recs with
  | nil => exact absurd flat some'
  | cons bytes rest =>
      obtain ⟨⟨d, is, seq⟩, _later⟩ := are
      rw [← seq]
      exact is.low

/-- In a run no send buffer is larger than a replica's. -/
theorem streamedTo_caps (running : Running config l) (going : l.stop = false)
    (possible : pass.Possible l) (waits : pass.wait = some events)
    (flushes : loopFlush (loopDispatch (l.armed pass) events) = (.ok (), l1)) (slot : Nat) :
    (((acksEmit l1).streamedTo slot).conns slot).sendCap ≤ LOOP_REPL_CAP := by
  obtain ⟨start, phase, lit, _starts, sound, _moves, resting⟩ := running_moves running
  obtain ⟨rfl, rfl⟩ := resting going
  have flows := (running_rests running going).moment sound possible (.swept waits flushes) slot
  generalize acksEmit l1 = m at flows ⊢
  have turns : Turning (pass.failed events) m (m.streamedTo slot) :=
    Turning.foldl (replStreamOne_turns (walDurableSeq m.wal)) (List.range slot) m
  exact (Flows.turns flows (turns slot)).caps

/-- The receive hands the frame out of the buffer whole, and nothing else. -/
def Loop.Delivers (l : Loop) (chunk : Bytes) (frame : Frame) : Prop :=
  ∃ at' conn, connFeed (connRecvCommit l.stream.conn chunk) 4 = ([.frame frame.header at'], conn) ∧
    slice conn.buf at' frame.header.payloadLen = frame.payload

/-- **A follower with room for its segments takes every frame its leader builds** over records
that appends have stored, however the frame is split. -/
theorem repl_data_applied {all : List Bytes} {got chunk : Bytes} (running : Running config l)
    (going : l.stop = false) (possible : pass.Possible l) (waits : pass.wait = some events)
    (flushes : loopFlush (loopDispatch (l.armed pass) events) = (.ok (), l1))
    (builds : (acksEmit l1).Builds slot frame next) (carries : frame.payload <+: all.flatten)
    (produced : ∀ bytes ∈ all, Produced bytes) (receives : Loop.Receives got m)
    (some' : chunk ≠ []) (space : chunk.length ≤ connRecvSpace m.stream.conn)
    (whole : got ++ chunk = frame.bytes) (logs : m.Logs)
    (follows : walNextSeq m.wal = frame.header.sequence)
    (hold : ∀ bytes ∈ all, bytes.length ≤ m.wal.segCapacity) :
    m.Delivers chunk frame ∧ ∃ recs, recs <+: all ∧ frame.payload = recs.flatten ∧
      (m.wal.places recs = true → m.Gains recs (doReplRecv m (.data chunk)) ∧
        (doReplRecv m (.data chunk)).stream.closing = false ∧
        walNextSeq (doReplRecv m (.data chunk)).wal = next) := by
  obtain ⟨recs, early, is, ends⟩ := builds.whole
    (streamedTo_caps running going possible waits flushes slot) carries produced
  have hears := is.hears receives whole some'
  constructor
  · have hears' := hears.conn.commit space
    rw [whole] at hears'
    obtain ⟨fed, carried⟩ := is.feed_whole hears'
    exact ⟨_, _, fed, carried⟩
  · refine ⟨recs, early, is.payload, fun places => ?_⟩
    obtain ⟨gains, closing⟩ := is.receive_whole hears some' space whole logs follows
      (fun bytes inside => hold bytes (early.subset inside)) places
    refine ⟨gains, closing, ?_⟩
    rw [gains.next, ends, follows]

/-! ### A frame the segment table has no room for -/

/-- A frame whose first record finds no place ends the stream. -/
theorem ReplFrame.refused {bytes : Bytes} (is : ReplFrame frame first [bytes]) {l : Loop}
    {got chunk : Bytes} (hears : l.Hears got) (some' : chunk ≠ [])
    (space : chunk.length ≤ connRecvSpace l.stream.conn) (whole : got ++ chunk = frame.bytes)
    (capacity : l.wal.active.capacity = l.wal.segCapacity) (full : l.wal.places [bytes] = false) :
    (doReplRecv l (.data chunk)).stream.closing = true := by
  obtain ⟨trace, receives⟩ := hears.receive some' space
  have hears' := hears.conn.commit space
  rw [whole] at hears'
  obtain ⟨fed, carried⟩ := is.feed_whole hears'
  obtain ⟨⟨d, reads, seq⟩, _later⟩ := is.are
  have payload : frame.payload = bytes := by
    rw [is.payload, List.flatten_singleton]
  have op : frame.header.op = MSG_OP_REPL_DATA := by
    rw [is.header]
    rfl
  have long := header_le_walRecSize reads.sized
  rw [reads.size] at long
  unfold WAL_REC_HEADER_SIZE at long
  have none' : placesAll l.wal.segCapacity l.wal.active.writeOff l.wal.segBase.length
      [walRecSize (i32 d.len)] = false := by
    rw [reads.size]
    exact full
  rw [receives]
  generalize connRecvCommit l.stream.conn chunk = c at hears' fed carried
  unfold onReplRecvLoop
  simp only
  rw [fed]
  simp only
  rw [if_neg (List.cons_ne_nil _ _), List.foldl_cons, List.foldl_nil]
  generalize fed' : ({ l with stream := _, trace := trace } : Loop) = l1
  have buf : l1.stream.conn.buf = c.buf := by
    rw [← fed']
  have wal : l1.wal = l.wal := by
    rw [← fed']
  -- the one record is refused, whatever is wrong with it otherwise
  have closes : (onStreamAction l1 (.frame frame.header (c.bufOff + MSG_HEADER_SIZE))).stream.closing
      = true := by
    unfold onStreamAction
    simp only
    rw [buf, carried]
    unfold onStreamFrame replApply
    rw [if_pos op, payload]
    obtain ⟨n, length⟩ := Nat.exists_eq_add_of_le' (show 1 ≤ bytes.length by omega)
    rw [length]
    unfold replApplyFrom
    rw [if_pos (by omega), List.drop_zero, reads.decoded]
    simp only
    split
    · rfl
    · obtain ⟨trace', shape⟩ := logAppendAt_shape l1 d (slice bytes (0 + WAL_REC_HEADER_SIZE)
        (bytes.length - (0 + WAL_REC_HEADER_SIZE)))
      obtain ⟨e, refused⟩ := walAppendAt_full (w := l1.wal) (r := d) (by rw [wal]; exact capacity)
        (by rw [wal]; exact none') l1.os (slice bytes (0 + WAL_REC_HEADER_SIZE)
          (bytes.length - (0 + WAL_REC_HEADER_SIZE))) SCRATCH_LEN
      rw [shape, refused]
      rfl
  rw [if_pos closes]
  exact closes

/-- A log of so many empty records. -/
def blankLog (capacity : Nat) : Nat → OpenLog
  | 0 =>
      { disk := (walOpen emptyNode.disk.os [] capacity WAL_REC_MAX_SIZE).2.disk
        wal := openedWal capacity [] ⟨1, []⟩ }
  | count + 1 => (blankLog capacity count).after [] (.append emptyRec [] WAL_REC_HEADER_SIZE)

/-- Records of their size. -/
def blanks (count : Nat) : List Bytes := List.replicate count (zeros WAL_REC_HEADER_SIZE)

theorem blanks_push (w : Wal) (count : Nat) {bytes : Bytes}
    (length : bytes.length = WAL_REC_HEADER_SIZE) :
    w.places (blanks count ++ [bytes]) = w.places (blanks (count + 1)) := by
  apply Wal.places_congr
  unfold blanks
  rw [List.map_append, List.map_replicate, List.map_replicate, List.map_singleton, length,
    show (zeros WAL_REC_HEADER_SIZE).length = _ from List.length_replicate, List.replicate_succ']

structure Filled (capacity count : Nat) (log : OpenLog) : Prop where
  working : log.Working
  next : walNextSeq log.wal = count + 1
  sized : log.wal.segCapacity = capacity
  places : ∀ more, log.wal.places more =
    (openedWal capacity [] ⟨1, []⟩).places (blanks count ++ more)

/-- The log takes such records while they find a place. -/
theorem blankLog_filled {capacity count : Nat} (header : WAL_REC_HEADER_SIZE ≤ capacity)
    (low : count < 2 ^ 63)
    (places : (openedWal capacity [] ⟨1, []⟩).places (blanks count) = true) :
    Filled capacity count (blankLog capacity count) := by
  induction count with
  | zero =>
      obtain ⟨report, opens⟩ := @walOpen_empty WAL_REC_MAX_SIZE capacity (Nat.le_refl _) header
        emptyNode.disk.os rfl rfl
      obtain ⟨held, tidy⟩ := @OpenLog.Reached.held (blankLog capacity 0)
        (.start ⟨_, _, _, _, _, _, _, opens, congrArg (fun done => done.2.disk) opens⟩)
      refine ⟨⟨held, tidy, ?_, rfl⟩, rfl, rfl, fun more => rfl⟩
      intro base present
      have dir : (blankLog capacity 0).disk.dir = [1] := by
        change (walOpen _ _ _ _).2.disk.dir = _
        rw [opens]
        exact Disk.dir_created _ _ _
      rw [dir] at present
      exact present
  | succ count ih =>
      have split : blanks (count + 1) = blanks count ++ blanks 1 :=
        List.replicate_add count 1 _
      rw [split] at places
      have before := ih (by omega) (Wal.places_left places)
      change Filled _ _ ((blankLog capacity count).after [] _)
      generalize blankLog capacity count = log at before ⊢
      obtain ⟨bytes, out, encoded, length⟩ : ∃ bytes out, walRecEncode WAL_REC_HEADER_SIZE
          { emptyRec with seq := walNextSeq log.wal } [] = some (bytes, out) ∧
            bytes.length = WAL_REC_HEADER_SIZE := by
        unfold walRecEncode
        simp only
        rw [if_neg (by decide), if_neg (by decide)]
        refine ⟨_, _, rfl, ?_⟩
        rw [List.length_append, header_length]
        rfl
      have same (more : List Bytes) : log.wal.places (bytes :: more) =
          (openedWal capacity [] ⟨1, []⟩).places (blanks (count + 1) ++ more) := by
        rw [split, List.append_assoc, ← before.places]
        apply Wal.places_congr
        rw [List.map_cons, length]
        rfl
      obtain ⟨w', os', appends, stores⟩ := @walAppend_stores (log.os []) log.wal emptyRec []
        WAL_REC_HEADER_SIZE [] bytes out rfl before.working (by rw [before.next]; omega)
        (Nat.le_refl _) (by rw [length, before.sized]; exact header) encoded
        (by rw [same, List.append_nil, split]; exact places)
      have after' : log.after [] (.append emptyRec [] WAL_REC_HEADER_SIZE) = ⟨os'.disk, w'⟩ := by
        simp only [OpenLog.after, appends]
      rw [after']
      refine ⟨stores.working, ?_, ?_, fun more => ?_⟩
      · rw [stores.next, before.next]
      · rw [stores.capacity, before.sized]
      · rw [stores.places, same]

/-- What `repl_stream` builds from a read that returned something. -/
theorem builds_of_read {idx : Nat} {bytes : Bytes} (slotted : slot < LOOP_MAX_CONNS)
    (of : ((l.streamedTo slot).conns slot).replica = some idx)
    (used : ((l.streamedTo slot).conns slot).inUse = true)
    (stays : ((l.streamedTo slot).conns slot).closing = false)
    (empty : ((l.streamedTo slot).conns slot).sendBuf = [])
    (read : (walCursorRead (l.streamedTo slot).os (l.streamedTo slot).wal
      ((l.streamedTo slot).peer idx).cursor (walDurableSeq l.wal)
      (((l.streamedTo slot).conns slot).sendCap - MSG_HEADER_SIZE)).1 = .ok bytes)
    (some' : bytes ≠ []) :
    l.Builds slot ⟨msgHeaderNew MSG_OP_REPL_DATA MSG_RECORD_NONE 0 bytes.length 0
        ((l.streamedTo slot).peer idx).cursor.nextSeq, bytes⟩
      ((replStreamOne (walDurableSeq l.wal) (l.streamedTo slot) slot).peer idx).cursor.nextSeq := by
  refine ⟨slotted, ⟨((l.streamedTo slot).conns slot).session, ?_⟩, idx, of, rfl⟩
  generalize walDurableSeq l.wal = limit at read ⊢
  generalize l.streamedTo slot = before at of used stays empty read ⊢
  have free : ¬ (¬ (before.conns slot).inUse = true ∨ (before.conns slot).closing = true ∨
      (before.conns slot).sendBuf ≠ []) := by
    rw [used, stays, empty]
    rintro (idle | ends | full)
    · exact idle rfl
    · cases ends
    · exact full rfl
  unfold replStreamOne
  simp only
  rw [of]
  simp only
  rw [if_neg free]
  cases reads : walCursorRead before.os before.wal (before.peer idx).cursor limit
      ((before.conns slot).sendCap - MSG_HEADER_SIZE) with
  | mk res rest =>
      obtain ⟨cur', os'⟩ := rest
      rw [reads] at read
      change res = .ok bytes at read
      rw [read]
      simp only
      rw [if_neg some']
      rfl

/-- A segment of one empty record with a late sequence. -/
def lateRecord : Bytes :=
  ((walRecEncode WAL_REC_HEADER_SIZE { emptyRec with seq := 1025 } []).map Prod.fst).getD []

def lateOs : Os :=
  { disk := { file := fun _ => ⟨lateRecord, lateRecord⟩, dirStab := [1025], dirOps := [] }
    script := [], seen := [] }

/-- A leader whose log begins late. -/
def lateLeader : Loop :=
  match walOpen lateOs [1025] WAL_REC_HEADER_SIZE SCRATCH_LEN with
  | (.ok (_, w, recs), os) => leaderAlone.start w os recs
  | (.error _, os) => leaderAlone.start (walClosed 0) os []

theorem lateLeader_running
    (opens : (walOpen lateOs [1025] WAL_REC_HEADER_SIZE SCRATCH_LEN).1.isOk = true) :
    Running leaderAlone lateLeader := by
  apply Runs.Reach.start
  unfold lateLeader
  cases opened : walOpen lateOs [1025] WAL_REC_HEADER_SIZE SCRATCH_LEN with
  | mk res os =>
      cases res with
      | error e =>
          rw [opened] at opens
          cases opens
      | ok found =>
          obtain ⟨info, w, recs⟩ := found
          exact ⟨_, _, _, info, w, recs, os, opened, rfl⟩

/-- A replica has connected to it. -/
def lateJoined : Loop := lateLeader.after [calmPass [] [.listen (some true)]]

/-- It asks for the log from that sequence on. -/
def lateStart : List Event := [arrives 0 (requestBytes MSG_OP_REPL_START 0 0 1025 [])]

def lateFlushed : Loop :=
  (loopFlush (loopDispatch (lateJoined.armed (calmPass [] lateStart)) lateStart)).2

def lateFrame : Frame :=
  ⟨msgHeaderNew MSG_OP_REPL_DATA MSG_RECORD_NONE 0 lateRecord.length 0 1025, lateRecord⟩

/-- What the pass in which it asks comes to. -/
theorem late_run : (walOpen lateOs [1025] WAL_REC_HEADER_SIZE SCRATCH_LEN).1.isOk = true ∧
    lateJoined.stop = false ∧ (calmPass [] lateStart).quiet = true ∧
    (loopFlush (loopDispatch (lateJoined.armed (calmPass [] lateStart)) lateStart)).1 = .ok () := by
  decide +kernel

theorem lateJoined_running : Running leaderAlone lateJoined :=
  after_running (lateLeader_running late_run.1) _

theorem lateFlushed_flushes :
    loopFlush (loopDispatch (lateJoined.armed (calmPass [] lateStart)) lateStart) =
      (.ok (), lateFlushed) := by
  obtain ⟨_opens, _going, _quiet, done⟩ := late_run
  unfold lateFlushed
  generalize loopFlush (loopDispatch (lateJoined.armed (calmPass [] lateStart)) lateStart) = flushed
    at done ⊢
  rw [← done]

theorem lateFrame_built : (acksEmit lateFlushed).Builds 0 lateFrame 1026 := by
  have stands : (((acksEmit lateFlushed).streamedTo 0).conns 0).replica = some 0 ∧
      (((acksEmit lateFlushed).streamedTo 0).conns 0).inUse = true ∧
      (((acksEmit lateFlushed).streamedTo 0).conns 0).closing = false ∧
      (((acksEmit lateFlushed).streamedTo 0).conns 0).sendBuf = [] ∧
      (walCursorRead ((acksEmit lateFlushed).streamedTo 0).os
        ((acksEmit lateFlushed).streamedTo 0).wal
        (((acksEmit lateFlushed).streamedTo 0).peer 0).cursor
        (walDurableSeq (acksEmit lateFlushed).wal)
        ((((acksEmit lateFlushed).streamedTo 0).conns 0).sendCap - MSG_HEADER_SIZE)).1 =
          .ok lateRecord ∧
      lateRecord ≠ [] ∧ (((acksEmit lateFlushed).streamedTo 0).peer 0).cursor.nextSeq = 1025 ∧
      ((replStreamOne (walDurableSeq (acksEmit lateFlushed).wal)
        ((acksEmit lateFlushed).streamedTo 0) 0).peer 0).cursor.nextSeq = 1026 := by
    decide +kernel
  obtain ⟨of, used, stays, empty, read, some', first, ends⟩ := stands
  have built := @builds_of_read (acksEmit lateFlushed) 0 0 lateRecord (by decide) of used stays
    empty read some'
  rw [first, ends] at built
  exact built

def lateRec : WalRec := { emptyRec with seq := 1025, crc := ofLe (lateRecord.take 4) }

/-- The record, and the frame that carries it. -/
theorem late_facts :
    (walAppend emptyOs (openedWal 4096 [] ⟨1025, []⟩) emptyRec [] WAL_REC_HEADER_SIZE).1 =
        .ok lateRec ∧
      walRecEncode WAL_REC_HEADER_SIZE
        { emptyRec with seq := walNextSeq (openedWal 4096 [] ⟨1025, []⟩) } [] =
          some (lateRecord, lateRec) ∧
      lateRecord.length = WAL_REC_HEADER_SIZE ∧ (walRecDecode lateRecord).map WalRec.seq = some 1025 ∧
      lateFrame.bytes ≠ [] ∧ lateFrame.bytes.length ≤ LOOP_REPL_CAP ∧
      lateFrame.payload.length ≤ LOOP_REPL_CAP - MSG_HEADER_SIZE := by
  decide +kernel

theorem lateRecord_produced : Produced lateRecord := by
  obtain ⟨done, encoded, _facts⟩ := late_facts
  obtain ⟨w', os', appends⟩ : ∃ w' os', walAppend emptyOs (openedWal 4096 [] ⟨1025, []⟩) emptyRec []
      WAL_REC_HEADER_SIZE = (.ok lateRec, w', os') := by
    generalize walAppend emptyOs (openedWal 4096 [] ⟨1025, []⟩) emptyRec [] WAL_REC_HEADER_SIZE =
      appended at done
    exact ⟨appended.2.1, appended.2.2, Prod.ext done rfl⟩
  exact ⟨_, _, _, _, _, _, _, _, appends, Nat.le_refl _, encoded⟩

/-- A follower with this log. -/
def followerOf (log : OpenLog) : Loop :=
  let l := Config.start ⟨some [], 0, 0⟩ log.wal (log.os []) []
  { l with stream := { l.stream with fd := true } }

theorem followerOf_hears (log : OpenLog) : (followerOf log).Hears [] :=
  ⟨rfl, rfl, rfl, rfl, rfl, Nat.le_refl _, rfl⟩

theorem followerOf_space (log : OpenLog) :
    connRecvSpace (followerOf log).stream.conn = LOOP_REPL_CAP := rfl

theorem followerOf_logs {log : OpenLog} (working : log.Working) : (followerOf log).Logs :=
  ⟨rfl, working⟩

theorem lateRecord_length : lateRecord.length = WAL_REC_HEADER_SIZE := late_facts.2.2.1

theorem lateFrame_payload : lateFrame.payload = [lateRecord].flatten := by
  rw [List.flatten_singleton]
  rfl

/-- What a follower with this log knows of the frame. -/
theorem followerOf_late {capacity : Nat} {log : OpenLog} (filled : Filled capacity 1024 log)
    (header : WAL_REC_HEADER_SIZE ≤ capacity) :
    walNextSeq (followerOf log).wal = lateFrame.header.sequence ∧
      (∀ bytes ∈ [lateRecord], bytes.length ≤ (followerOf log).wal.segCapacity) ∧
      (followerOf log).wal.places [lateRecord] =
        (openedWal capacity [] ⟨1, []⟩).places (blanks 1025) := by
  refine ⟨filled.next, ?_, ?_⟩
  · intro bytes inside
    rw [List.mem_singleton.mp inside, lateRecord_length]
    exact header.trans (Nat.le_of_eq filled.sized.symm)
  · rw [← blanks_push _ 1024 lateRecord_length]
    exact filled.places [lateRecord]

theorem lateFrame_is : ReplFrame lateFrame 1025 [lateRecord] := by
  obtain ⟨d, reads⟩ := lateRecord_produced.reads
  obtain ⟨_done, _encoded, _length, decoded, _some, _space, short⟩ := late_facts
  rw [reads.decoded] at decoded
  exact ⟨rfl, lateFrame_payload, short, by decide, ⟨d, reads, Option.some.inj decoded⟩, trivial⟩

/-- A follower that has read nothing has room for the frame. -/
theorem lateFrame_room (log : OpenLog) : lateFrame.bytes ≠ [] ∧
    lateFrame.bytes.length ≤ connRecvSpace (followerOf log).stream.conn := by
  obtain ⟨_done, _encoded, _length, _decoded, some', space, _short⟩ := late_facts
  rw [followerOf_space]
  exact ⟨some', space⟩

theorem followerOf_refuses {log : OpenLog} (filled : Filled 56 1024 log) :
    (doReplRecv (followerOf log) (.data lateFrame.bytes)).stream.closing = true := by
  obtain ⟨_follows, _hold, places⟩ := followerOf_late filled (by decide)
  obtain ⟨some', space⟩ := lateFrame_room log
  have full : (followerOf log).wal.places [lateRecord] = false := by
    rw [places]
    decide +kernel
  obtain ⟨front, last, holds⟩ := filled.working.held
  have capacity : (followerOf log).wal.active.capacity = (followerOf log).wal.segCapacity :=
    holds.sound.capacity
  exact lateFrame_is.refused (followerOf_hears log) some' space (List.nil_append _) capacity full

/-- The next segment takes the record. -/
theorem repl_data_applied_late :
    (followerOf (blankLog 57344 1024)).Delivers lateFrame.bytes lateFrame ∧
      (followerOf (blankLog 57344 1024)).Gains [lateRecord]
        (doReplRecv (followerOf (blankLog 57344 1024)) (.data lateFrame.bytes)) := by
  have filled : Filled 57344 1024 (blankLog 57344 1024) :=
    blankLog_filled (by decide) (by decide) (by decide +kernel)
  generalize blankLog 57344 1024 = log at filled ⊢
  obtain ⟨follows, hold, places⟩ := followerOf_late filled (by decide)
  have within : lateFrame.payload <+: [lateRecord].flatten :=
    ⟨[], by rw [List.append_nil, lateFrame_payload]⟩
  obtain ⟨_opens, going, quiet, _done⟩ := late_run
  obtain ⟨some', space⟩ := lateFrame_room log
  obtain ⟨delivers, recs, early, flat, applies⟩ := @repl_data_applied lateFrame leaderAlone lateJoined
    lateFlushed (followerOf log) (calmPass [] lateStart) lateStart 0 1026 [lateRecord] []
    lateFrame.bytes lateJoined_running going (quiet_possible quiet _) rfl lateFlushed_flushes
    lateFrame_built within
    (fun bytes inside => by rw [List.mem_singleton.mp inside]; exact lateRecord_produced)
    (.start (followerOf_hears log)) some' space (List.nil_append _) (followerOf_logs filled.working)
    follows hold
  have one : recs = [lateRecord] := by
    rcases List.prefix_cons_iff.mp early with none' | ⟨rest, shape, later⟩
    · rw [none', lateFrame_payload, List.flatten_singleton, List.flatten_nil] at flat
      have long := lateRecord_length
      rw [flat] at long
      cases long
    · rw [shape, List.prefix_nil.mp later]
  rw [one] at applies
  exact ⟨delivers, (applies (by rw [places]; decide +kernel)).1⟩

/-- The table of the follower is full, and so is its last segment. -/
theorem full_table_refuses : ¬ ∀ (config : Config) (l l1 m : Loop) (pass : Pass)
    (events : List Event) (slot next : Nat) (frame : Frame) (all : List Bytes) (got chunk : Bytes),
    Running config l → l.stop = false → pass.Possible l → pass.wait = some events →
    loopFlush (loopDispatch (l.armed pass) events) = (.ok (), l1) →
    (acksEmit l1).Builds slot frame next → frame.payload <+: all.flatten →
    (∀ bytes ∈ all, Produced bytes) → Loop.Receives got m → chunk ≠ [] →
    chunk.length ≤ connRecvSpace m.stream.conn → got ++ chunk = frame.bytes → m.Logs →
    walNextSeq m.wal = frame.header.sequence →
    (∀ bytes ∈ all, bytes.length ≤ m.wal.segCapacity) →
      (doReplRecv m (.data chunk)).stream.closing = false := by
  intro takes
  have filled : Filled 56 1024 (blankLog 56 1024) :=
    blankLog_filled (by decide) (by decide) (by decide +kernel)
  generalize blankLog 56 1024 = log at filled
  obtain ⟨follows, hold, places⟩ := followerOf_late filled (by decide)
  have within : lateFrame.payload <+: [lateRecord].flatten :=
    ⟨[], by rw [List.append_nil, lateFrame_payload]⟩
  have whole : [] ++ lateFrame.bytes = lateFrame.bytes := List.nil_append _
  obtain ⟨some', space⟩ := lateFrame_room log
  obtain ⟨_opens, going, quiet, _done⟩ := late_run
  have stays := takes leaderAlone lateJoined lateFlushed (followerOf log) (calmPass [] lateStart)
    lateStart 0 1026 lateFrame [lateRecord] [] lateFrame.bytes lateJoined_running going
    (quiet_possible quiet _) rfl lateFlushed_flushes lateFrame_built within
    (fun bytes inside => by rw [List.mem_singleton.mp inside]; exact lateRecord_produced)
    (.start (followerOf_hears log)) some' space whole (followerOf_logs filled.working) follows hold
  rw [followerOf_refuses filled] at stays
  cases stays

end Msgsrvd

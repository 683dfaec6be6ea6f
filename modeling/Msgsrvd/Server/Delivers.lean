/-
What a client may store and what its own streams can give back.

A record on disk is longer than the frame that brought it, and a client's send buffer is
as long as its receive buffer, so the longest records that can be written do not fit in
one read.
-/

import Msgsrvd.Proto.Framing
import Msgsrvd.Server.Streams

namespace Msgsrvd

open Bytestring

/-! ### A block of records -/

/-- From here on the headers are those of the records due, or an end, as far as a walk up
to this limit looks. -/
inductive Ordered (limit : Nat) : Nat → Bytes → Prop where
  | short {next : Nat} {bytes : Bytes} : walRecDecode bytes = none → Ordered limit next bytes
  | ended {next : Nat} {bytes : Bytes} {r : WalRec} : walRecDecode bytes = some r →
      walRecIsEnd r = true → Ordered limit next bytes
  | beyond {next : Nat} {bytes : Bytes} {r : WalRec} : walRecDecode bytes = some r →
      r.seq = next → limit < next → Ordered limit next bytes
  | cut {next : Nat} {bytes : Bytes} {r : WalRec} : walRecDecode bytes = some r →
      r.seq = next → walRecSize (i32 r.len) ≠ 0 → bytes.length < walRecSize (i32 r.len) →
      Ordered limit next bytes
  | record {next : Nat} {bytes : Bytes} {r : WalRec} : walRecDecode bytes = some r →
      r.seq = next → walRecSize (i32 r.len) ≠ 0 → walRecSize (i32 r.len) ≤ bytes.length →
      Ordered limit (next + 1) (bytes.drop (walRecSize (i32 r.len))) →
      Ordered limit next bytes

variable {limit next : Nat} {bytes : Bytes} {r : WalRec}

/-- A header that a walk goes on past is that of the record due, and the rest is in
order. -/
theorem Ordered.inv (ordered : Ordered limit next bytes) (decoded : walRecDecode bytes = some r)
    (more : walRecIsEnd r = false) :
    r.seq = next ∧ (limit < next ∨ (walRecSize (i32 r.len) ≠ 0 ∧
      (walRecSize (i32 r.len) ≤ bytes.length →
        Ordered limit (next + 1) (bytes.drop (walRecSize (i32 r.len)))))) := by
  cases ordered with
  | short none =>
      rw [decoded] at none
      cases none
  | ended found ends =>
      rw [decoded] at found
      cases found
      rw [more] at ends
      cases ends
  | beyond found seq above =>
      rw [decoded] at found
      cases found
      exact ⟨seq, .inl above⟩
  | cut found seq sized long =>
      rw [decoded] at found
      cases found
      exact ⟨seq, .inr ⟨sized, fun fits => absurd long (Nat.not_lt.mpr fits)⟩⟩
  | record found seq sized fits rest =>
      rw [decoded] at found
      cases found
      exact ⟨seq, .inr ⟨sized, fun _ => rest⟩⟩

/-- The walk over a buffer comes to no error exactly where the buffer is in order. -/
theorem cursorWalk_ordered {buf : Bytes} (fuel at' next : Nat) (enough : buf.length ≤ at' + fuel) :
    (cursorWalk buf limit fuel at' next).1 = .ok () ↔ Ordered limit next (buf.drop at') := by
  induction fuel generalizing at' next with
  | zero =>
      have nothing : walRecDecode (buf.drop at') = none := by
        unfold walRecDecode
        rw [List.length_drop, if_pos (by unfold WAL_REC_HEADER_SIZE; omega)]
      exact ⟨fun _ => .short nothing, fun _ => rfl⟩
  | succ fuel ih =>
      unfold cursorWalk
      by_cases inside : at' < buf.length
      · rw [if_pos inside]
        cases decoded : walRecDecode (buf.drop at') with
        | none => exact ⟨fun _ => .short decoded, fun _ => rfl⟩
        | some r =>
            simp only
            cases ends : walRecIsEnd r with
            | true => exact ⟨fun _ => .ended decoded ends, fun _ => by rw [if_pos rfl]⟩
            | false =>
                rw [if_neg Bool.false_ne_true]
                have left : (buf.drop at').length = buf.length - at' := List.length_drop
                by_cases seq : r.seq = next
                · rw [if_neg (not_not.mpr seq)]
                  by_cases above : next > limit
                  · rw [if_pos above]
                    exact ⟨fun _ => .beyond decoded seq above, fun _ => rfl⟩
                  · rw [if_neg above]
                    by_cases sized : walRecSize (i32 r.len) = 0
                    · rw [if_pos sized]
                      refine ⟨fun ok => (by cases ok), fun ordered => ?_⟩
                      rcases (ordered.inv decoded ends).2 with past | ⟨positive, _rest⟩
                      · exact absurd past above
                      · exact absurd sized positive
                    · rw [if_neg sized]
                      by_cases long : at' + walRecSize (i32 r.len) > buf.length
                      · rw [if_pos long]
                        exact ⟨fun _ => .cut decoded seq sized (by omega), fun _ => rfl⟩
                      · rw [if_neg long, ih (at' + walRecSize (i32 r.len)) (next + 1)
                          (by have positive := Nat.pos_of_ne_zero sized; omega), ← List.drop_drop]
                        constructor
                        · exact fun rest => .record decoded seq sized (by omega) rest
                        · intro ordered
                          rcases (ordered.inv decoded ends).2 with past | ⟨_positive, rest⟩
                          · exact absurd past above
                          · exact rest (by omega)
                · rw [if_pos seq]
                  refine ⟨fun ok => (by cases ok), fun ordered => ?_⟩
                  exact absurd (ordered.inv decoded ends).1 seq
      · have nothing : walRecDecode (buf.drop at') = none := by
          unfold walRecDecode
          rw [List.length_drop, if_pos (by unfold WAL_REC_HEADER_SIZE; omega)]
        rw [if_neg inside]
        exact ⟨fun _ => .short nothing, fun _ => rfl⟩

/-! ### A stream and the record it stands on -/

/-- A WRITE that the framing of a client's connection hands on, with its payload. -/
def AcceptedWrite (h : MsgHeader) (payload : Bytes) : Prop :=
  ∃ (conn : Conn) (outCap at' : Nat), conn.mode = .client ∧ conn.bufCap = LOOP_RECV_CAP ∧
    .frame h at' ∈ (connFeed conn outCap).1 ∧ h.op = MSG_OP_WRITE ∧
    payload = slice conn.buf at' h.payloadLen

/-- The record a WRITE is stored as. -/
def storedRec (session : Nat) (h : MsgHeader) (payload : Bytes) (seq : Nat) : WalRec :=
  { writeRec session h payload with seq := seq }

/-- The cursor of a client's stream stands on the record of this WRITE, which is durable
and which the stream covers. -/
structure StandsOn (l : Loop) (slot session : Nat) (h : MsgHeader) (payload : Bytes) : Prop where
  inside : slot < LOOP_MAX_CONNS
  used : (l.conns slot).inUse = true
  stays : (l.conns slot).closing = false
  active : (l.conns slot).sub.active = true
  started : (l.conns slot).sub.waiting = false
  cap : (l.conns slot).sendCap = LOOP_SEND_CAP
  drained : (l.conns slot).sendBuf = []
  opened : (l.conns slot).sub.cursor.fd = some (l.conns slot).sub.cursor.segBase
  segment : segIndexOf l.wal.segBase (l.conns slot).sub.cursor.nextSeq =
    some (l.conns slot).sub.cursor.segBase
  retained : walFirstSeq l.wal ≤ (l.conns slot).sub.cursor.nextSeq
  durable : (l.conns slot).sub.cursor.nextSeq ≤ walDurableSeq l.wal
  numbered : 0 < (l.conns slot).sub.cursor.nextSeq ∧ (l.conns slot).sub.cursor.nextSeq < 2 ^ 64
  covered : (l.conns slot).sub.once = true →
    (l.conns slot).sub.cursor.nextSeq ≤ (l.conns slot).sub.untilSeq
  stored : ∃ bytes r rest,
    walRecEncode SCRATCH_LEN (storedRec session h payload (l.conns slot).sub.cursor.nextSeq)
      payload = some (bytes, r) ∧
    (l.os.disk.file (l.conns slot).sub.cursor.segBase).vol.drop (l.conns slot).sub.cursor.off =
      bytes ++ rest

/-- The NOTIFY of a stored WRITE. -/
def notifyFrame (h : MsgHeader) (payload : Bytes) (seq : Nat) : Frame :=
  ⟨msgHeaderNew MSG_OP_NOTIFY h.recordType 0 payload.length h.partitionKey seq, payload⟩

/-- One push takes the stream past the record, and stages it if it is asked for. -/
def Delivers (l : Loop) (slot : Nat) (h : MsgHeader) (payload : Bytes) : Prop :=
  let sub := (l.conns slot).sub
  let c := (subsPush l).conns slot
  c.closing = false ∧ sub.cursor.nextSeq < c.sub.cursor.nextSeq ∧
    (sub.allKeys = true ∨ h.partitionKey = sub.key →
      (notifyFrame h payload sub.cursor.nextSeq).bytes <+: c.sendBuf)

/-- The next call the kernel answers succeeds. -/
def Os.goesOn (os : Os) : Bool :=
  match os.script with
  | .fails _ _ :: _ => false
  | _ => true

/-- How far the stream may read in this push. -/
def Loop.limitAt (l : Loop) (slot : Nat) : Nat :=
  if (l.conns slot).sub.once then min (l.capAt slot) (l.conns slot).sub.untilSeq
  else l.capAt slot

/-- What one read can get of the stream's segment. -/
def Loop.blockAt (l : Loop) (slot : Nat) : Bytes :=
  slice (l.os.disk.file (l.conns slot).sub.cursor.segBase).vol (l.conns slot).sub.cursor.off
    LOOP_SEND_CAP

theorem connFeedFrom_frame {room cursor at' : Nat} {c : Conn} {h : MsgHeader}
    (out : .frame h at' ∈ (connFeedFrom room c cursor).1) :
    ∃ opened front, h = msgHeaderAt front ∧ headerFault c.bufCap c.mode opened h = none ∧
      at' + h.payloadLen ≤ c.buf.length := by
  induction room generalizing c cursor with
  | zero => cases out
  | succ room ih =>
      unfold connFeedFrom at out
      split at out
      · cases out
      · rename_i long
        simp only at out
        cases fault : headerFault c.bufCap c.mode c.opened (msgHeaderAt (c.buf.drop cursor)) with
        | some fatal =>
            rw [fault] at out
            obtain ⟨code, echoSeq⟩ := fatal
            have never : ∀ action ∈ [ConnAction.replyErr code echoSeq, .close],
                action ≠ .frame h at' := by
              intro action inside
              rcases List.mem_cons.mp inside with one | two
              · rw [one]
                exact fun same => by cases same
              · rw [List.mem_singleton.mp two]
                exact fun same => by cases same
            exact absurd rfl (never _ (List.mem_of_mem_take out))
        | none =>
            rw [fault] at out
            simp only at out
            split at out
            · cases out
            · rename_i whole
              rcases List.mem_cons.mp out with here | later
              · cases here
                refine ⟨c.opened, c.buf.drop cursor, rfl, fault, ?_⟩
                unfold MSG_HEADER_SIZE at long whole ⊢
                omega
              · exact @ih _ { c with opened := c.opened || opens (msgHeaderAt _).op } later

theorem ofLe_slice_lt (bytes : Bytes) (offset width : Nat) :
    ofLe (slice bytes offset width) < 256 ^ width := by
  refine Nat.lt_of_lt_of_le (ofLe_lt _) (Nat.pow_le_pow_right (by decide) ?_)
  rw [length_slice]
  exact Nat.min_le_left _ _

variable {h : MsgHeader} {payload : Bytes}

/-- The payload is as long as its header says and fits behind it in the receive buffer. -/
theorem AcceptedWrite.sizes (accepted : AcceptedWrite h payload) :
    payload.length = h.payloadLen ∧ payload.length ≤ LOOP_RECV_CAP - MSG_HEADER_SIZE ∧
      h.recordType < 256 ^ 2 ∧ h.partitionKey < 256 ^ 8 := by
  obtain ⟨conn, outCap, at', client, cap, out, _op, given⟩ := accepted
  have fed : .frame h at' ∈ (connFeedFrom outCap conn conn.bufOff).1 := by
    unfold connFeed at out
    split at out
    · cases out
    · exact out
  obtain ⟨opened, front, header, fault, inside⟩ := connFeedFrom_frame fed
  have length : payload.length = h.payloadLen := by
    rw [given, length_slice]
    omega
  refine ⟨length, ?_, ?_, ?_⟩
  · rw [length]
    unfold headerFault at fault
    rw [cap] at fault
    by_contra long
    simp only [not_le] at long
    rw [if_pos (show h.payloadLen > MSG_MAX_PAYLOAD ∨
      h.payloadLen > LOOP_RECV_CAP - MSG_HEADER_SIZE from .inr long)] at fault
    split at fault
    · cases fault
    · split at fault
      · cases fault
      · split at fault
        · cases fault
        · cases fault
  · rw [header]
    exact ofLe_slice_lt front 10 2
  · rw [header]
    exact ofLe_slice_lt front 16 8

theorem i32_small {value : Nat} (small : value < 2 ^ 31) : i32 value = value := by
  unfold i32
  have low : value % 2 ^ 32 = value := Nat.mod_eq_of_lt (by omega)
  rw [low, if_pos small]

/-- What a read finds of the record of a WRITE. -/
structure Found (h : MsgHeader) (payload : Bytes) (seq : Nat) (content : Bytes) (r : WalRec) :
    Prop where
  decoded : walRecDecode content = some r
  numbered : r.seq = seq
  is_len : i32 r.len = payload.length
  sized : walRecSize payload.length ≠ 0
  whole : walRecSize payload.length ≤ content.length
  notified : r.recordType = h.recordType ∧ r.len = payload.length ∧
    r.partitionKey = h.partitionKey ∧ slice content WAL_REC_HEADER_SIZE r.len = payload

theorem AcceptedWrite.found (accepted : AcceptedWrite h payload) {session seq : Nat}
    (low : seq < 2 ^ 64) {r : WalRec} {bytes rest : Bytes}
    (encoded : walRecEncode SCRATCH_LEN (storedRec session h payload seq) payload =
      some (bytes, r)) :
    Found h payload seq (bytes ++ rest) r.cut := by
  obtain ⟨_same, short, type, key⟩ := accepted.sizes
  have small : payload.length < 2 ^ 31 := by
    unfold LOOP_RECV_CAP MSG_HEADER_SIZE at short
    omega
  have len : i32 (storedRec session h payload seq).len = payload.length := i32_small small
  have full : (i32 (storedRec session h payload seq).len).toNat ≤ payload.length := by
    rw [len, Int.toNat_natCast]
  obtain ⟨body, shape, size, fields⟩ := walRecEncode_shape full encoded
  have length := walRecEncode_length full encoded
  rw [len] at size length
  have keptLen : r.len = payload.length := by rw [fields]; rfl
  have cutLen : r.cut.len = payload.length := by
    change r.len % 256 ^ 4 = payload.length
    rw [keptLen, Nat.mod_eq_of_lt (by omega)]
  have front : body.take payload.length = payload := by
    unfold walRecEncode at encoded
    simp only [len, Int.toNat_natCast] at encoded
    split at encoded
    · cases encoded
    · split at encoded
      · cases encoded
      · cases encoded
        have bodies := List.append_cancel_left shape
        rw [← bodies, List.take_length, List.take_left' rfl]
  refine ⟨?_, ?_, ?_, ?_, ?_, ?_, cutLen, ?_, ?_⟩
  · rw [shape, List.append_assoc]
    exact walRecDecode_header r (body ++ rest)
  · change r.seq % 256 ^ 8 = seq
    rw [fields]
    exact Nat.mod_eq_of_lt low
  · rw [cutLen, i32_small small]
  · rw [size]
    unfold WAL_REC_HEADER_SIZE
    omega
  · rw [List.length_append, length]
    omega
  · change r.recordType % 256 ^ 2 = h.recordType
    rw [fields]
    exact Nat.mod_eq_of_lt type
  · change r.partitionKey % 256 ^ 8 = h.partitionKey
    rw [fields]
    exact Nat.mod_eq_of_lt key
  · have long : payload.length ≤ body.length := by
      rw [← front, List.length_take] at *
      omega
    rw [cutLen, shape, List.append_assoc, slice_append_right _ _ _ _ (by rw [header_length]),
      header_length, Nat.sub_self]
    unfold slice
    rw [List.drop_zero, List.take_append_of_le_length long, front]

/-! ### One read -/

theorem osPreadFull_goesOn {os : Os} (fd count offset : Nat) :
    if os.goesOn then ∃ os', osPreadFull os (some fd) count offset =
      (.ok (slice (os.disk.file fd).vol offset count), os')
    else (osPreadFull os (some fd) count offset).1.isOk = false := by
  unfold Os.goesOn osPreadFull Os.plain Os.call
  cases os.script with
  | nil => exact ⟨_, rfl⟩
  | cons outcome rest =>
      cases outcome with
      | done => exact ⟨_, rfl⟩
      | fails errno moved => rfl

/-- The first step of the walk, over the record at the cursor. -/
theorem Found.walk {seq : Nat} {content : Bytes} (found : Found h payload seq content r)
    (positive : 0 < seq) (reach : seq ≤ limit) :
    cursorWalk (content.take LOOP_SEND_CAP) limit (content.take LOOP_SEND_CAP).length 0 seq =
      if walRecSize payload.length ≤ LOOP_SEND_CAP then
        cursorWalk (content.take LOOP_SEND_CAP) limit ((content.take LOOP_SEND_CAP).length - 1)
          (walRecSize payload.length) (seq + 1)
      else (.ok (), 0, seq) := by
  have least := header_le_walRecSize found.sized
  have whole := found.whole
  have length : (content.take LOOP_SEND_CAP).length = min LOOP_SEND_CAP content.length :=
    List.length_take
  have decoded : walRecDecode (content.take LOOP_SEND_CAP) = some r := by
    rw [walRecDecode_take _ _ (by decide)]
    exact found.decoded
  have some' : 0 < (content.take LOOP_SEND_CAP).length := by
    rw [length]
    unfold WAL_REC_HEADER_SIZE at least
    unfold LOOP_SEND_CAP
    omega
  have more : walRecIsEnd r = false := by
    unfold walRecIsEnd
    rw [found.numbered]
    exact beq_eq_false_iff_ne.mpr (by omega)
  obtain ⟨fuel, fuelIs⟩ : ∃ fuel, (content.take LOOP_SEND_CAP).length = fuel + 1 :=
    ⟨_, (Nat.succ_pred_eq_of_pos some').symm⟩
  rw [fuelIs, Nat.add_sub_cancel]
  conv_lhs => unfold cursorWalk
  rw [if_pos some', List.drop_zero, decoded]
  simp only
  rw [more, if_neg Bool.false_ne_true, if_neg (not_not.mpr found.numbered),
    if_neg (Nat.not_lt.mpr reach), found.is_len, if_neg found.sized, Nat.zero_add]
  by_cases fits : walRecSize payload.length ≤ LOOP_SEND_CAP
  · rw [if_pos fits, if_neg (by rw [length]; omega)]
  · rw [if_neg fits, if_pos (by rw [length]; omega)]

section Read

variable {os : Os} {w : Wal} {c : WalCursor} {content : Bytes}

/-- A cursor before a stored record, in the segment that the table names for it. -/
structure AtRecord (os : Os) (w : Wal) (c : WalCursor) (content : Bytes) : Prop where
  opened : c.fd = some c.segBase
  segment : segIndexOf w.segBase c.nextSeq = some c.segBase
  retained : walFirstSeq w ≤ c.nextSeq
  positive : 0 < c.nextSeq
  content : (os.disk.file c.segBase).vol.drop c.off = content

theorem AtRecord.attempt (before : AtRecord os w c content)
    (reach : c.nextSeq ≤ limit) (goes : os.goesOn = true) :
    ∃ os', walCursorRead os w c limit LOOP_SEND_CAP =
      match cursorWalk (content.take LOOP_SEND_CAP) limit (content.take LOOP_SEND_CAP).length 0
          c.nextSeq with
      | (.error e, _, next) => (.error e, { c with nextSeq := next }, os')
      | (.ok (), used, next) =>
          if used > 0 then
            (.ok ((content.take LOOP_SEND_CAP).take used),
              { c with nextSeq := next, off := c.off + used }, os')
          else (.ok [], { c with nextSeq := next, off := c.off + used }, os') := by
  have pread := @osPreadFull_goesOn os c.segBase LOOP_SEND_CAP c.off
  rw [if_pos goes] at pread
  obtain ⟨os', pread⟩ := pread
  have block : slice (os.disk.file c.segBase).vol c.off LOOP_SEND_CAP =
      content.take LOOP_SEND_CAP := by
    unfold slice
    rw [before.content]
  rw [block] at pread
  refine ⟨os', ?_⟩
  unfold walCursorRead
  rw [if_neg (by rw [before.opened]; exact fun none => by cases none),
    if_neg (Nat.not_lt.mpr before.retained), if_neg (Nat.not_lt.mpr reach)]
  unfold cursorAttempt
  rw [before.opened, pread]
  simp only
  cases walked : cursorWalk (content.take LOOP_SEND_CAP) limit
      (content.take LOOP_SEND_CAP).length 0 c.nextSeq with
  | mk res moved =>
      obtain ⟨used, next⟩ := moved
      cases res with
      | error e => rfl
      | ok done =>
          simp only
          by_cases some' : used > 0
          · rw [if_pos some', if_pos some']
          · rw [if_neg some', if_neg some']
            have stuck : next = c.nextSeq := (cursorWalk_used walked).2.2.mp (by omega)
            rw [stuck, before.segment]
            simp only
            rw [if_pos trivial]

/-- A read takes the record exactly where it is within the limit and the buffer, and the
block it lies in is in order. -/
theorem AtRecord.takes (before : AtRecord os w c content)
    (found : Found h payload c.nextSeq content r) :
    (walCursorRead os w c limit LOOP_SEND_CAP).1.isOk = true ∧
        c.nextSeq < (walCursorRead os w c limit LOOP_SEND_CAP).2.1.nextSeq ↔
      c.nextSeq ≤ limit ∧ os.goesOn = true ∧ walRecSize payload.length ≤ LOOP_SEND_CAP ∧
        Ordered limit c.nextSeq (content.take LOOP_SEND_CAP) := by
  have ordered := @cursorWalk_ordered limit (content.take LOOP_SEND_CAP)
    (content.take LOOP_SEND_CAP).length 0 c.nextSeq (by omega)
  rw [List.drop_zero] at ordered
  by_cases reach : c.nextSeq ≤ limit
  · cases goes : os.goesOn with
    | false =>
        have pread := @osPreadFull_goesOn os c.segBase LOOP_SEND_CAP c.off
        rw [goes, if_neg Bool.false_ne_true] at pread
        refine ⟨fun taken => absurd taken.1 ?_, fun given => absurd given.2.1 Bool.false_ne_true⟩
        unfold walCursorRead
        rw [if_neg (by rw [before.opened]; exact fun none => by cases none),
          if_neg (Nat.not_lt.mpr before.retained), if_neg (Nat.not_lt.mpr reach)]
        unfold cursorAttempt
        rw [before.opened]
        cases failed : osPreadFull os (some c.segBase) LOOP_SEND_CAP c.off with
        | mk res os' =>
            rw [failed] at pread
            cases res with
            | error e => exact Bool.false_ne_true
            | ok buf => cases pread
    | true =>
        obtain ⟨os', read⟩ := before.attempt reach goes
        have walk := found.walk before.positive reach
        rw [read]
        by_cases fits : walRecSize payload.length ≤ LOOP_SEND_CAP
        · rw [if_pos fits] at walk
          cases walked : cursorWalk (content.take LOOP_SEND_CAP) limit
              (content.take LOOP_SEND_CAP).length 0 c.nextSeq with
          | mk res moved =>
              obtain ⟨used, next⟩ := moved
              rw [walked] at ordered walk
              have moves := cursorWalk_used walk.symm
              have positive := header_le_walRecSize found.sized
              unfold WAL_REC_HEADER_SIZE at positive
              cases res with
              | error e =>
                  refine ⟨fun taken => (by cases taken.1), fun given => ?_⟩
                  have never := ordered.mpr given.2.2.2
                  cases never
              | ok done =>
                  simp only
                  rw [if_pos (show used > 0 by omega)]
                  exact ⟨fun _ => ⟨reach, trivial, fits, ordered.mp rfl⟩,
                    fun _ => ⟨rfl, show c.nextSeq < next by omega⟩⟩
        · rw [if_neg fits] at walk
          rw [walk]
          simp only
          rw [if_neg (Nat.lt_irrefl 0)]
          exact ⟨fun taken => absurd taken.2 (Nat.lt_irrefl _),
            fun given => absurd given.2.2.1 fits⟩
  · refine ⟨fun taken => absurd taken.2 ?_, fun given => absurd given.1 reach⟩
    unfold walCursorRead
    rw [if_neg (by rw [before.opened]; exact fun none => by cases none),
      if_neg (Nat.not_lt.mpr before.retained), if_pos (Nat.lt_of_not_le reach)]
    exact Nat.lt_irrefl _

/-- What such a read returns begins with the record. -/
theorem AtRecord.got (before : AtRecord os w c content)
    (found : Found h payload c.nextSeq content r) (reach : c.nextSeq ≤ limit)
    (goes : os.goesOn = true) (fits : walRecSize payload.length ≤ LOOP_SEND_CAP)
    (ordered : Ordered limit c.nextSeq (content.take LOOP_SEND_CAP)) :
    ∃ count, walRecSize payload.length ≤ count ∧
      (walCursorRead os w c limit LOOP_SEND_CAP).1 = .ok (content.take count) := by
  obtain ⟨os', read⟩ := before.attempt reach goes
  have walk := found.walk before.positive reach
  rw [if_pos fits] at walk
  have clean := (@cursorWalk_ordered limit (content.take LOOP_SEND_CAP)
    (content.take LOOP_SEND_CAP).length 0 c.nextSeq (by omega)).mpr (by
      rw [List.drop_zero]
      exact ordered)
  rw [read]
  cases walked : cursorWalk (content.take LOOP_SEND_CAP) limit
      (content.take LOOP_SEND_CAP).length 0 c.nextSeq with
  | mk res moved =>
      obtain ⟨used, next⟩ := moved
      rw [walked] at clean walk
      have moves := cursorWalk_used walk.symm
      have positive := header_le_walRecSize found.sized
      unfold WAL_REC_HEADER_SIZE at positive
      cases clean
      simp only
      rw [if_pos (show used > 0 by omega), List.take_take]
      exact ⟨min used LOOP_SEND_CAP, by omega, rfl⟩

end Read

/-! ### What is pushed of it -/

theorem replyFrame_extends (l : Loop) (slot : Nat) (frame : Frame) :
    (l.conns slot).sendBuf <+: ((replyFrame l slot frame).2.conns slot).sendBuf := by
  unfold replyFrame
  simp only
  split
  · exact List.prefix_rfl
  · rw [show (((l.setConn slot _).note _).conns slot) = _ from if_pos rfl]
    exact List.prefix_append _ _

theorem pushRecords_extends (buf : Bytes) (fuel : Nat) (l : Loop) (slot at' : Nat) :
    (l.conns slot).sendBuf <+: ((pushRecords slot buf fuel l at').conns slot).sendBuf := by
  induction fuel generalizing l at' with
  | zero => exact List.prefix_rfl
  | succ fuel ih =>
      unfold pushRecords
      split
      · cases walRecDecode (buf.drop at') with
        | none => exact List.prefix_rfl
        | some r =>
            simp only
            split
            · exact List.prefix_rfl
            · split
              · exact (replyFrame_extends l slot _).trans (ih (pushRecord l slot r _) _)
              · exact ih l _
      · exact List.prefix_rfl

/-- The first record of what was read is the first frame staged. -/
theorem Found.pushed {seq count slot : Nat} {l : Loop} {content : Bytes}
    (found : Found h payload seq content r) (enough : walRecSize payload.length ≤ count)
    (drained : (l.conns slot).sendBuf = [])
    (room : MSG_HEADER_SIZE + payload.length ≤ (l.conns slot).sendCap)
    (asked : (l.conns slot).sub.allKeys = true ∨ h.partitionKey = (l.conns slot).sub.key) :
    (notifyFrame h payload seq).bytes <+:
      ((pushRecords slot (content.take count) (content.take count).length l 0).conns
        slot).sendBuf := by
  have least := header_le_walRecSize found.sized
  have whole := found.whole
  have length : (content.take count).length = min count content.length := List.length_take
  have decoded : walRecDecode (content.take count) = some r := by
    rw [walRecDecode_take _ _ (by omega)]
    exact found.decoded
  obtain ⟨type, len, key, body⟩ := found.notified
  have some' : 0 < (content.take count).length := by
    rw [length]
    unfold WAL_REC_HEADER_SIZE at least
    omega
  have payloadOf : slice (content.take count) WAL_REC_HEADER_SIZE r.len = payload := by
    rw [slice_take _ _ _ _ ?_, body]
    have size : walRecSize payload.length = WAL_REC_HEADER_SIZE + (payload.length + 7) / 8 * 8 := by
      have sized := found.sized
      unfold walRecSize at sized ⊢
      split at sized
      · exact absurd rfl sized
      · rename_i inRange
        rw [if_neg inRange, Int.toNat_natCast]
    rw [len]
    omega
  obtain ⟨fuel, fuelIs⟩ : ∃ fuel, (content.take count).length = fuel + 1 :=
    ⟨_, (Nat.succ_pred_eq_of_pos some').symm⟩
  rw [fuelIs]
  unfold pushRecords
  rw [if_pos some', List.drop_zero, decoded]
  simp only
  rw [found.is_len, if_neg (by rw [not_or]; exact ⟨found.sized, by omega⟩), key, if_pos asked,
    Nat.zero_add, payloadOf]
  refine List.IsPrefix.trans ?_ (pushRecords_extends _ fuel (pushRecord l slot r payload) slot _)
  have framed : (⟨msgHeaderNew MSG_OP_NOTIFY r.recordType 0 r.len r.partitionKey r.seq, payload⟩ :
      Frame) = notifyFrame h payload seq := by
    unfold notifyFrame
    rw [type, len, key, found.numbered]
  unfold pushRecord replyRecord
  rw [framed]
  have staged : ((replyFrame l slot (notifyFrame h payload seq)).2.conns slot).sendBuf =
      (notifyFrame h payload seq).bytes := by
    unfold replyFrame
    simp only
    rw [if_neg (by
      change ¬ (l.conns slot).room < MSG_HEADER_SIZE + payload.length
      unfold LoopConn.room
      rw [drained, List.length_nil]
      omega)]
    rw [show (((l.setConn slot _).note _).conns slot) = _ from if_pos rfl]
    simp only
    rw [drained, List.nil_append]
  change _ <+: ((replyFrame l slot (notifyFrame h payload seq)).2.conns slot).sendBuf
  exact staged.symm ▸ List.prefix_rfl

/-- The same, once the cursor has moved and the pass has been marked. -/
theorem Found.staged {seq count slot : Nat} {l : Loop} {content : Bytes} {cursor : WalCursor}
    (found : Found h payload seq content r) (enough : walRecSize payload.length ≤ count)
    (drained : (l.conns slot).sendBuf = [])
    (room : MSG_HEADER_SIZE + payload.length ≤ (l.conns slot).sendCap)
    (asked : (l.conns slot).sub.allKeys = true ∨ h.partitionKey = (l.conns slot).sub.key) :
    (notifyFrame h payload seq).bytes <+:
      ((subsRead slot (l.conns slot).sub (.ok (content.take count)) cursor l).conns
        slot).sendBuf := by
  have conn (l2 : Loop) (is : l2.conns slot =
      { l.conns slot with sub := { (l.conns slot).sub with cursor := cursor } }) :
      (notifyFrame h payload seq).bytes <+:
        ((pushRecords slot (content.take count) (content.take count).length l2 0).conns
          slot).sendBuf := by
    refine found.pushed enough ?_ ?_ ?_
    · rw [is]
      exact drained
    · rw [is]
      exact room
    · rw [is]
      exact asked
  unfold subsRead
  simp only
  split
  · exact conn _ (if_pos rfl)
  · exact conn _ (if_pos rfl)

/-! ### The push -/

theorem StandsOn.part {l : Loop} {slot session : Nat} (stands : StandsOn l slot session h payload)
    (ready : (l.conns slot).wantOut = false) :
    (l.conns slot).part = if (l.conns slot).sub.once then .bounded else .live := by
  have room : ¬ (l.conns slot).room < MSG_HEADER_SIZE := by
    unfold LoopConn.room
    rw [stands.cap, stands.drained]
    decide
  unfold LoopConn.part
  rw [stands.used, stands.stays, stands.started, stands.active, ready]
  simp only [not_true, Bool.false_eq_true, or_self, if_false, if_neg room]
  cases once : (l.conns slot).sub.once with
  | false => simp only [Bool.false_eq_true, not_false_eq_true, if_true, if_false]
  | true =>
      have covered := stands.covered once
      simp only [not_true, if_false, if_true]
      rw [if_neg (by omega)]

theorem subsPushRead_of {l : Loop} {slot limit room : Nat} {c : LoopConn} {w : Wal} {os : Os}
    (conn : l.conns slot = c) (wal : l.wal = w) (answers : l.os = os) :
    ∃ l', l'.conns slot = c ∧ (subsPushRead limit room l slot).conns slot =
      (subsRead slot c.sub (walCursorRead os w c.sub.cursor limit room).1
        (walCursorRead os w c.sub.cursor limit room).2.1 l').conns slot := by
  subst conn wal answers
  rw [subsPushRead_eq]
  refine ⟨_, ?_, rfl⟩
  rfl

/-- The turn of the slot is a read up to its limit. -/
theorem StandsOn.turned {l : Loop} {slot session : Nat}
    (stands : StandsOn l slot session h payload) (ready : (l.conns slot).wantOut = false) :
    ∃ l', l'.conns slot = l.conns slot ∧
      ((subsPush l).conns slot) =
        (subsRead slot (l.conns slot).sub
          (walCursorRead (l.turn slot).1.os l.wal (l.conns slot).sub.cursor (l.limitAt slot)
            LOOP_SEND_CAP).1
          (walCursorRead (l.turn slot).1.os l.wal (l.conns slot).sub.cursor (l.limitAt slot)
            LOOP_SEND_CAP).2.1 l').conns slot := by
  have before := turn_before l (Nat.le_refl slot)
  have own := (subsPush_own l stands.inside).conn
  have room : min (l.conns slot).room SCRATCH_LEN = LOOP_SEND_CAP := by
    unfold LoopConn.room
    rw [stands.cap, stands.drained]
    decide
  rw [subsPushOne_part, before.conn, stands.part ready] at own
  unfold Loop.limitAt
  cases once : (l.conns slot).sub.once with
  | false =>
      rw [once] at own
      simp only [Bool.false_eq_true, if_false] at own ⊢
      rw [room] at own
      obtain ⟨l', same, read⟩ := subsPushRead_of before.conn before.wal rfl
      exact ⟨l', same, own.trans read⟩
  | true =>
      rw [once] at own
      simp only [if_true] at own ⊢
      rw [room] at own
      obtain ⟨l', same, read⟩ := @subsPushRead_of
        ((l.turn slot).1.note (.bounded slot (l.conns slot).sub)) slot _ _ _ _ _ before.conn
        before.wal rfl
      exact ⟨l', same, own.trans read⟩

/-- A connection that still waits for the socket is passed over. -/
theorem StandsOn.passed {l : Loop} {slot session : Nat}
    (stands : StandsOn l slot session h payload) (behind : (l.conns slot).wantOut = true) :
    (subsPush l).conns slot = l.conns slot := by
  have before := turn_before l (Nat.le_refl slot)
  have own := (subsPush_own l stands.inside).conn
  have idle : (l.conns slot).part = .idle := by
    unfold LoopConn.part
    rw [stands.used, stands.stays, stands.started, stands.active, behind]
    rfl
  rw [subsPushOne_part, before.conn, idle] at own
  exact own.trans before.conn

theorem StandsOn.atRecord {l : Loop} {slot session : Nat}
    (stands : StandsOn l slot session h payload) :
    AtRecord (l.turn slot).1.os l.wal (l.conns slot).sub.cursor
      ((l.os.disk.file (l.conns slot).sub.cursor.segBase).vol.drop
        (l.conns slot).sub.cursor.off) where
  opened := stands.opened
  segment := stands.segment
  retained := stands.retained
  positive := stands.numbered.1
  content := by rw [(turn_before l (Nat.le_refl slot)).disk]

theorem StandsOn.found {l : Loop} {slot session : Nat} (accepted : AcceptedWrite h payload)
    (stands : StandsOn l slot session h payload) :
    ∃ r, Found h payload (l.conns slot).sub.cursor.nextSeq
      ((l.os.disk.file (l.conns slot).sub.cursor.segBase).vol.drop
        (l.conns slot).sub.cursor.off) r := by
  obtain ⟨bytes, r, rest, encoded, content⟩ := stands.stored
  rw [content]
  exact ⟨r.cut, accepted.found stands.numbered.2 encoded⟩

theorem StandsOn.reaches {l : Loop} {slot session : Nat}
    (stands : StandsOn l slot session h payload) :
    (l.conns slot).sub.cursor.nextSeq ≤ l.limitAt slot ↔
      (l.conns slot).sub.cursor.nextSeq ≤ l.capAt slot := by
  unfold Loop.limitAt
  cases once : (l.conns slot).sub.once with
  | false => rw [if_neg Bool.false_ne_true]
  | true =>
      have covered := stands.covered once
      rw [if_pos rfl]
      omega

/-- When the read of the slot takes the record. -/
theorem StandsOn.takes {l : Loop} {slot session : Nat} (accepted : AcceptedWrite h payload)
    (stands : StandsOn l slot session h payload) :
    (walCursorRead (l.turn slot).1.os l.wal (l.conns slot).sub.cursor (l.limitAt slot)
        LOOP_SEND_CAP).1.isOk = true ∧
      (l.conns slot).sub.cursor.nextSeq <
        (walCursorRead (l.turn slot).1.os l.wal (l.conns slot).sub.cursor (l.limitAt slot)
          LOOP_SEND_CAP).2.1.nextSeq ↔
      (l.conns slot).sub.cursor.nextSeq ≤ l.capAt slot ∧ (l.turn slot).1.os.goesOn = true ∧
        walRecSize payload.length ≤ LOOP_SEND_CAP ∧
        Ordered (l.limitAt slot) (l.conns slot).sub.cursor.nextSeq (l.blockAt slot) := by
  obtain ⟨r, found⟩ := StandsOn.found accepted stands
  have takes := @AtRecord.takes (l.limitAt slot) r h payload _ _ _ _ stands.atRecord found
  have block : ((l.os.disk.file (l.conns slot).sub.cursor.segBase).vol.drop
      (l.conns slot).sub.cursor.off).take LOOP_SEND_CAP = l.blockAt slot := rfl
  rw [block, stands.reaches] at takes
  exact takes

/-- What its read leaves the connection with. -/
theorem StandsOn.read {l : Loop} {slot session : Nat}
    (stands : StandsOn l slot session h payload) (ready : (l.conns slot).wantOut = false) :
    ((subsPush l).conns slot).sub.cursor =
        (walCursorRead (l.turn slot).1.os l.wal (l.conns slot).sub.cursor (l.limitAt slot)
          LOOP_SEND_CAP).2.1 ∧
      ((subsPush l).conns slot).closing =
        !(walCursorRead (l.turn slot).1.os l.wal (l.conns slot).sub.cursor (l.limitAt slot)
          LOOP_SEND_CAP).1.isOk := by
  obtain ⟨l', same, turned⟩ := stands.turned ready
  have conn := subsRead_conn slot (l.conns slot).sub
    (walCursorRead (l.turn slot).1.os l.wal (l.conns slot).sub.cursor (l.limitAt slot)
      LOOP_SEND_CAP).1
    (walCursorRead (l.turn slot).1.os l.wal (l.conns slot).sub.cursor (l.limitAt slot)
      LOOP_SEND_CAP).2.1 l'
  rw [← turned, same, stands.stays, Bool.false_or] at conn
  exact conn

end Msgsrvd

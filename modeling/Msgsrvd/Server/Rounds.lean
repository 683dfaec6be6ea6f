/-
The turns of a pass: what arrives and is sent, the sweep, the replicas' batches, the
streams, and the arm phase.
-/

import Msgsrvd.Server.Reached
import Msgsrvd.Server.Turns
import Msgsrvd.Wal.Holds

namespace Msgsrvd

open Bytestring

variable {may : Nat → Prop} {lit : Nat → Bool} {l l' : Loop} {slot : Nat}

/-! ### Sending -/

/-- `os_send` returns an error, or nothing sent. -/
def SendAnswer.fails (answer : SendAnswer) : Prop := answer.res ≤ 0 ∧ answer.res ≠ -EAGAIN

theorem connWantOut_turns (l : Loop) (slot : Nat) (want ctl : Bool) :
    Turning may l (connWantOut l slot want ctl) := by
  unfold connWantOut
  simp only
  split
  · exact .refl l
  · split
    · exact close_turns l slot
    · exact .aside ⟨rfl, rfl, rfl, rfl, id⟩

theorem connSend_turns {answer : SendAnswer} (used : (l.conns slot).inUse = true)
    (fails : answer.fails → may slot) : Turning may l (connSend l slot answer) := by
  have others (bytes : Bytes) (taken : Nat) : ∀ other, other ≠ slot →
      (Note.handed slot (walDurableSeq l.wal) bytes taken).suits other (l.conns other) :=
    fun other differ => Ne.symm differ
  unfold connSend
  simp only
  by_cases again : answer.res = -EAGAIN
  · rw [if_pos again]
    refine Turning.trans ?_ (connWantOut_turns _ slot true answer.ctl)
    have none : takenOf answer.res (l.conns slot).sendBuf = min 0 (l.conns slot).sendBuf.length := by
      unfold takenOf
      rw [again]
      rfl
    rw [none]
    have kept : Turning may l ((l.setConn slot { l.conns slot with
        sendBuf := (l.conns slot).sendBuf.drop 0 }).note (.handed slot (walDurableSeq l.wal)
          (l.conns slot).sendBuf (min 0 (l.conns slot).sendBuf.length))) :=
      .putNote (.took 0) (others _ _)
    refine kept.before ?_ rfl
    exact (conns_setConn_kept l slot).symm
  · rw [if_neg again]
    refine Turning.trans ?_ (connWantOut_turns _ slot _ answer.ctl)
    unfold loopSendDone
    have used' : ((l.note (.handed slot (walDurableSeq l.wal) (l.conns slot).sendBuf
        (takenOf answer.res (l.conns slot).sendBuf))).conns slot).inUse = true := used
    simp only
    rw [if_neg (not_not.mpr used')]
    by_cases broken : answer.res ≤ 0
    · rw [if_pos broken]
      have none : takenOf answer.res (l.conns slot).sendBuf = 0 := by
        unfold takenOf
        rw [Int.toNat_of_nonpos broken, Nat.zero_min]
      rw [none]
      exact Turning.putNote (.broke (fails ⟨broken, again⟩)) (others _ _)
    · rw [if_neg broken]
      exact Turning.putNote (.took answer.res.toNat) (others _ _)

theorem doSend_turns {answer : SendAnswer} (fails : answer.fails → may slot) :
    Turning may l (doSend l slot answer) := by
  unfold doSend
  simp only
  by_cases used : (l.conns slot).inUse = true
  · rw [if_neg (not_not.mpr used)]
    split
    · exact connWantOut_turns l slot _ _
    · exact connSend_turns used fails
  · rw [if_pos used]
    exact .refl l

/-! ### Receiving -/

/-- What holds of placing the framing and of handling a round's actions holds of all the
rounds, and what comes first on a connection finds it as it was opened. -/
theorem onRecvLoop_rounds {R : Loop → Loop → Prop} (refl : ∀ l, R l l)
    (trans : ∀ {l l' l''}, R l l' → R l' l'' → R l l'')
    (place : ∀ l conn, R l (l.setConn slot { l.conns slot with conn := conn }))
    (act : ∀ {l opened actions}, (l.conns slot).Busy → Opens opened actions →
      (opened = false → l.Blank slot lit) → R l (actions.foldl (onAction slot) l))
    (fuel : Nat) (sound : l.Sound lit) (used : (l.conns slot).inUse = true) :
    R l (onRecvLoop fuel l slot) := by
  induction fuel generalizing l with
  | zero => exact refl l
  | succ fuel ih =>
      have fits := sound.conns slot
      have feeds := connFeed_feeds (l.conns slot).conn 8 (fits.client used)
      unfold onRecvLoop
      simp only
      cases fed : connFeed (l.conns slot).conn 8 with
      | mk actions conn =>
          rw [fed] at feeds
          simp only
          have placed := place l conn
          by_cases none : actions = []
          · rw [if_pos none]
            exact placed
          · rw [if_neg none]
            have mode : conn.mode = .client := feeds.mode.trans (fits.client used)
            have busy : ({ l.conns slot with conn := conn } : LoopConn).Busy :=
              ⟨used, mode, feeds.begun none⟩
            have sound1 : (l.setConn slot { l.conns slot with conn := conn }).Sound lit :=
              sound.setConn (busy.sound _) (fun _ => sound.inside slot used)
            have here := conns_setConn l slot { l.conns slot with conn := conn }
            generalize l.setConn slot { l.conns slot with conn := conn } = l1 at *
            have blank (unopened : (l.conns slot).conn.opened = false) : l1.Blank slot lit := by
              have open' : (l.conns slot).conn.closed = false := by
                cases closed : (l.conns slot).conn.closed with
                | false => rfl
                | true =>
                    unfold connFeed at fed
                    rw [if_pos (Or.inl closed)] at fed
                    cases fed
                    exact absurd rfl none
              obtain ⟨shape, unlit⟩ := fits.fresh used unopened open'
              refine ⟨?_, unlit⟩
              rw [here, shape]
            have busy1 : (l1.conns slot).Busy := by
              rw [here]
              exact busy
            have acted := trans placed (act busy1 feeds.order blank)
            split
            · exact acted
            · have handled := onActions_first feeds.order sound1 busy1 blank
              exact trans acted (ih handled.sound (handled.busy busy1).used)

theorem onRecvLoop_turns (fuel : Nat) (sound : l.Sound lit)
    (used : (l.conns slot).inUse = true) : Turning may l (onRecvLoop fuel l slot) := by
  refine onRecvLoop_rounds (R := Turning may) .refl Turning.trans
    (fun l conn => .aside ⟨rfl, rfl, rfl, rfl, id⟩)
    (fun {l opened actions} _busy order blank => ?_) fuel sound used
  refine onActions_turns_first order (fun unopened => ?_)
  rw [(blank unopened).blank]
  rfl

theorem onRecv_turns (sound : l.Sound lit) (used : (l.conns slot).inUse = true) (bytes : Bytes) :
    Turning may l (onRecv l slot bytes) := by
  have made := heard_makes sound used bytes
  unfold onRecv
  simp only
  have placed : Turning may l (l.setConn slot
      { l.conns slot with conn := connRecvCommit (l.conns slot).conn bytes }) :=
    .aside ⟨rfl, rfl, rfl, rfl, id⟩
  have heard := placed.trans (@Turning.tell may _ (.heard slot bytes) (fun _ => trivial))
  refine heard.trans (onRecvLoop_turns _ made.sound ?_)
  change ((l.setConn slot _).conns slot).inUse = true
  rw [conns_setConn]
  exact used

theorem doRecv_turns (sound : l.Sound lit) (slot : Nat) (received : Received) :
    Turning may l (doRecv l slot received) := by
  unfold doRecv
  simp only
  by_cases idle : ¬ (l.conns slot).inUse = true ∨ connRecvSpace (l.conns slot).conn = 0
  · rw [if_pos idle]
    exact .refl l
  · rw [if_neg idle]
    rw [not_or, not_not] at idle
    cases received with
    | again => exact .refl l
    | failed => exact close_turns l slot
    | data bytes =>
        simp only
        split
        · exact close_turns l slot
        · exact onRecv_turns sound idle.1 bytes

theorem onAccept_turns (l : Loop) (accepted : Bool) : Turning may l (onAccept l accepted) := by
  unfold onAccept
  split
  · exact .refl l
  · split
    · exact .refl l
    · exact .putNote .opened (fun other differ => Ne.symm differ)

/-! ### The follower's stream -/

theorem streamFrame_turns (l : Loop) (op sequence : Nat) :
    Turning may l (streamFrame l op sequence) := by
  unfold streamFrame
  split
  · exact .refl l
  · simp only
    exact Turning.after (Turning.tell (fun _ => trivial)) rfl rfl

theorem replApplyFrom_turns (p : Bytes) (fuel at' : Nat) (l : Loop) :
    Turning may l (replApplyFrom p fuel l at') := by
  induction fuel generalizing l at' with
  | zero => exact .refl l
  | succ fuel ih =>
      unfold replApplyFrom
      split
      · split
        · exact .of_same rfl rfl
        · rename_i r decoded
          simp only
          split
          · exact .of_same rfl rfl
          · have kept := @logAppendAt_turns may l r (slice p (at' + WAL_REC_HEADER_SIZE)
              (p.length - (at' + WAL_REC_HEADER_SIZE)))
            split
            · rename_i appended
              rw [appended] at kept
              exact kept.before rfl rfl
            · rename_i r1 l1 appended
              rw [appended] at kept
              refine kept.trans (Turning.trans ?_ (ih _ _))
              exact Turning.after (Turning.tell (fun _ => trivial)) rfl rfl
      · exact .refl l

theorem onStreamAction_turns (l : Loop) (action : ConnAction) :
    Turning may l (onStreamAction l action) := by
  unfold onStreamAction onStreamFrame
  cases action with
  | replyErr code sequence => exact .of_same rfl rfl
  | close => exact .of_same rfl rfl
  | frame h payload =>
      simp only
      split
      · exact replApplyFrom_turns _ _ _ l
      · split
        · exact .of_same rfl rfl
        · exact .of_same rfl rfl

theorem onReplRecvLoop_turns (fuel : Nat) (l : Loop) : Turning may l (onReplRecvLoop fuel l) := by
  induction fuel generalizing l with
  | zero => exact .refl l
  | succ fuel ih =>
      unfold onReplRecvLoop
      simp only
      have fed : Turning may l { l with stream := { l.stream with
          conn := (connFeed l.stream.conn 4).2 } } := .of_same rfl rfl
      refine fed.trans ?_
      split
      · exact .refl _
      · have handled := Turning.foldl (@onStreamAction_turns may) (connFeed l.stream.conn 4).1
          { l with stream := { l.stream with conn := (connFeed l.stream.conn 4).2 } }
        split
        · exact handled
        · exact handled.trans (ih _)

theorem onReplRecv_turns (l : Loop) (bytes : Bytes) : Turning may l (onReplRecv l bytes) := by
  unfold onReplRecv
  split
  · exact .of_same rfl rfl
  · simp only
    refine Turning.trans ?_ (onReplRecvLoop_turns _ _)
    exact Turning.after (Turning.tell (fun _ => trivial)) rfl rfl

theorem streamWantOut_turns (l : Loop) (want ctl : Bool) :
    Turning may l (streamWantOut l want ctl) := by
  unfold streamWantOut
  split
  · exact .refl l
  · split
    · exact .of_same rfl rfl
    · exact .of_same rfl rfl

theorem streamSend_turns (l : Loop) (answer : SendAnswer) : Turning may l (streamSend l answer) := by
  unfold streamSend
  simp only
  refine Turning.trans (@Turning.tell may l (.handedUp (walDurableSeq l.wal) l.stream.sendBuf
    (takenOf answer.res l.stream.sendBuf)) (fun _ => trivial)) ?_
  split
  · exact streamWantOut_turns _ _ _
  · refine Turning.trans ?_ (streamWantOut_turns _ _ _)
    unfold onReplSend
    split
    · exact .of_same rfl rfl
    · exact .of_same rfl rfl

theorem doReplSend_turns (l : Loop) (answer : SendAnswer) : Turning may l (doReplSend l answer) := by
  unfold doReplSend
  split
  · exact .refl l
  · split
    · exact streamWantOut_turns l _ _
    · exact streamSend_turns l answer

theorem doReplRecv_turns (l : Loop) (received : Received) :
    Turning may l (doReplRecv l received) := by
  unfold doReplRecv
  split
  · exact .refl l
  · cases received with
    | again => exact .refl l
    | failed => exact .of_same rfl rfl
    | data bytes => exact onReplRecv_turns l bytes

theorem onReplDial_turns (l : Loop) (connected ctl : Bool) :
    Turning may l (onReplDial l connected ctl) := by
  unfold onReplDial
  simp only
  split
  · exact .of_same rfl rfl
  · split
    · exact .of_same rfl rfl
    · refine Turning.trans ?_ (streamFrame_turns _ _ _)
      exact Turning.after (Turning.tell (fun _ => trivial)) rfl rfl

theorem streamReport_turns (l : Loop) : Turning may l (streamReport l) := by
  unfold streamReport
  split
  · exact .refl l
  · split
    · exact .refl l
    · split
      · exact .refl l
      · exact (streamFrame_turns l _ _).before rfl rfl

theorem replDial_turns (l : Loop) (answer : DialAnswer) : Turning may l (replDial l answer) := by
  unfold replDial
  split
  · exact .refl l
  · split
    · exact .refl l
    · split
      · exact .refl l
      · have dialing : Turning may l { l with stream := { l.stream with
            fd := true, connecting := true } } := .of_same rfl rfl
        cases answer with
        | connected ctl => exact dialing.trans (onReplDial_turns _ _ _)
        | refused => exact dialing.trans (onReplDial_turns _ _ _)
        | noSocket => exact .of_same rfl rfl
        | noWatch => exact .of_same rfl rfl
        | inProgress => exact .of_same rfl rfl

theorem armStream_turns (l : Loop) (answer : SendAnswer) : Turning may l (armStream l answer) := by
  unfold armStream streamRelease
  simp only
  split
  · exact .refl l
  · split
    · split
      · exact .refl l
      · exact .of_same rfl rfl
    · have sent : Turning may l (if l.stream.sendBuf ≠ [] ∧ ¬ l.stream.wantOut = true then
          streamSend l answer else l) := by
        split
        · exact streamSend_turns l answer
        · exact .refl l
      refine sent.trans ?_
      generalize (if l.stream.sendBuf ≠ [] ∧ ¬ l.stream.wantOut = true then
        streamSend l answer else l) = l1
      split
      · exact .refl l1
      · split
        · exact .of_same rfl rfl
        · exact .of_same rfl rfl

/-! ### Events -/

/-- The event answers a send on the slot with a failure. -/
def Event.fails (slot : Nat) : Event → Prop
  | .conn other _ (some answer) => other = slot ∧ answer.fails
  | _ => False

theorem tickEvent_turns (sound : l.Sound lit) {event : Event}
    (fails : ∀ slot, event.fails slot → may slot) : Turning may l (tickEvent l event) := by
  cases event with
  | listen accepted =>
      cases accepted with
      | none => exact .refl l
      | some accepted =>
          unfold tickEvent
          simp only
          split
          · exact .refl l
          · exact onAccept_turns l accepted
  | conn slot readable writable =>
      have sent (l : Loop) (answer : SendAnswer) (same : writable = some answer) :
          Turning may l (doSend l slot answer) := by
        refine doSend_turns (fun bad => fails slot ?_)
        rw [same]
        exact ⟨rfl, bad⟩
      cases readable with
      | none =>
          cases writable with
          | none => exact .refl l
          | some answer => exact sent l answer rfl
      | some received =>
          have received := @doRecv_turns may lit l sound slot received
          cases writable with
          | none => exact received
          | some answer => exact received.trans (sent _ answer rfl)
  | signal => exact .of_same rfl rfl
  | timer fired =>
      unfold tickEvent
      simp only
      split
      · exact .of_same rfl rfl
      · exact .refl l
  | stream connected ctl readable writable =>
      unfold tickEvent
      simp only
      split
      · exact onReplDial_turns l _ _
      · cases readable with
        | none =>
            cases writable with
            | none => exact .refl l
            | some answer => exact doReplSend_turns l answer
        | some received =>
            have received := @doReplRecv_turns may l received
            cases writable with
            | none => exact received
            | some answer => exact received.trans (doReplSend_turns _ answer)

/-! ### The sweep -/

theorem ackCount_turns (l : Loop) (flags : Nat) : Turning may l (ackCount l flags) := by
  unfold ackCount
  split
  · exact .of_same rfl rfl
  · split
    · exact .of_same rfl rfl
    · exact .of_same rfl rfl

/-- An answer clears what was owed. -/
theorem settled_turns (l : Loop) (slot : Nat) {c : LoopConn} (same : (l.conns slot).Aside c)
    (session : Nat) (answer : Answer) :
    Turning may l ((l.setConn slot c).note (.answered slot session answer)) :=
  (Turning.aside same).trans (.tell (fun _ => trivial))

theorem acksEmitOne_turns (best : Nat) (live : Bool) (l : Loop) (slot : Nat) :
    Turning may l (acksEmitOne best live l slot) := by
  have first (l : Loop) : Turning may l (emitLocal l slot) := by
    unfold emitLocal
    simp only
    split
    · exact .refl l
    · generalize (l.conns slot).ackLocal = a
      have replied := (@replyAck_turns may l slot a.flags a.walSeq a.clientSeq).trans
        (ackCount_turns _ a.flags)
      refine replied.trans (settled_turns _ slot ?_ _ _)
      exact ⟨rfl, rfl, rfl, rfl, id⟩
  have second (l : Loop) : Turning may l (emitRepl best live l slot) := by
    have settled (l : Loop) (refused : Bool) (flags room : Nat) (sent : Bool) :
        Turning may l (settleRepl l slot refused flags room sent) := by
      refine settled_turns l slot ?_ _ _
      exact ⟨rfl, rfl, rfl, rfl, id⟩
    unfold emitRepl
    simp only
    split
    · exact .refl l
    · split
      · exact ((replyAck_turns l slot _ _ _).trans (ackCount_turns _ _)).trans (settled _ _ _ _ _)
      · split
        · exact .refl l
        · split
          · refine Turning.trans ?_ (settled _ _ _ _ _)
            exact ((replyAck_turns l slot _ _ _).trans (ackCount_turns _ _)).before rfl rfl
          · exact (replyErrText_turns l slot _ _ _).trans (settled _ _ _ _ _)
  unfold acksEmitOne
  split
  · exact .refl l
  · exact (first l).trans (second _)

theorem acksEmit_turns (l : Loop) : Turning may l (acksEmit l) := by
  unfold acksEmit
  simp only
  exact (Turning.foldl (acksEmitOne_turns (replBest l) (replLive l))
    (List.range LOOP_MAX_CONNS) l).trans (.tell (fun _ => trivial))

/-! ### The replicas' batches -/

theorem walCursorRead_length {os os' : Os} {w : Wal} {cur cur' : WalCursor} {limit bufLen : Nat}
    {got : Bytes} (read : walCursorRead os w cur limit bufLen = (.ok got, cur', os')) :
    got.length ≤ bufLen := by
  have tries (attempts : Nat) {os : Os} {cur : WalCursor}
      (read : cursorAttempt w limit bufLen attempts os cur = (.ok got, cur', os')) :
      got.length ≤ bufLen := by
    induction attempts generalizing os cur with
    | zero =>
        cases read
        exact Nat.zero_le _
    | succ attempts ih =>
        obtain ⟨buf, os1, used, next, preads, _walks, ends⟩ := cursorAttempt_ok read
        rcases ends with ⟨_moved, taken, _⟩ | ⟨_none, taken, _⟩ | ⟨_none, base, c2, os2, _, _, _, again⟩
        · have whole : buf.length ≤ bufLen := by
            cases opened : cur.fd with
            | none =>
                rw [opened] at preads
                cases preads
            | some fd =>
                rw [opened] at preads
                rw [(osPreadFull_ok preads).1, length_slice]
                exact Nat.min_le_left _ _
          rw [taken, List.length_take]
          exact Nat.le_trans (Nat.min_le_right _ _) whole
        · rw [taken]
          exact Nat.zero_le _
        · exact ih again
  unfold walCursorRead at read
  split at read
  · cases read
  · split at read
    · cases read
    · split at read
      · cases read
        exact Nat.zero_le _
      · exact tries 2 read

theorem replStreamOne_turns (limit : Nat) (l : Loop) (slot : Nat) :
    Turning may l (replStreamOne limit l slot) := by
  unfold replStreamOne
  simp only
  cases of : (l.conns slot).replica with
  | none => exact .refl l
  | some idx =>
      simp only
      split
      · exact .refl l
      · rename_i free
        rw [not_or, not_or, not_not, ne_eq, not_not] at free
        cases read : walCursorRead l.os l.wal (l.peer idx).cursor limit
            ((l.conns slot).sendCap - MSG_HEADER_SIZE) with
        | mk res rest =>
            obtain ⟨cursor, os⟩ := rest
            cases res with
            | error e => exact (close_turns _ slot).after rfl rfl
            | ok bytes =>
                have fits := walCursorRead_length read
                simp only
                split
                · exact .of_same rfl rfl
                · rename_i some'
                  generalize framed : (⟨msgHeaderNew MSG_OP_REPL_DATA MSG_RECORD_NONE 0 bytes.length
                    0 (l.peer idx).cursor.nextSeq, bytes⟩ : Frame) = frame
                  have size : frame.bytes.length = MSG_HEADER_SIZE + bytes.length := by
                    rw [frame_length, ← framed]
                  have length : 0 < bytes.length := List.length_pos_of_ne_nil some'
                  have placed : Turning may l ((l.setConn slot { l.conns slot with
                      sendBuf := (l.conns slot).sendBuf ++ frame.bytes }).note
                        (.staged slot (l.conns slot).session frame)) := by
                    refine .putNote (.staged ?_ ?_) (fun other differ => Ne.symm differ)
                    · rw [free.2.2, size, List.length_nil]
                      omega
                    · rw [← framed]
                      rfl
                  rw [free.2.2, List.nil_append] at placed
                  rw [← of]
                  exact placed.before rfl rfl

theorem replStream_turns (l : Loop) : Turning may l (replStream l) :=
  Turning.foldl (replStreamOne_turns (walDurableSeq l.wal)) (List.range LOOP_MAX_CONNS) l

/-! ### The streams -/

/-- A record has room for its payload. -/
theorem payload_le_walRecSize {buf : Bytes} {r : WalRec} (decoded : walRecDecode buf = some r)
    (sized : walRecSize (i32 r.len) ≠ 0) :
    WAL_REC_HEADER_SIZE + r.len ≤ walRecSize (i32 r.len) := by
  have small : r.len < 2 ^ 32 := by
    unfold walRecDecode at decoded
    split at decoded
    · cases decoded
    · cases decoded
      refine Nat.lt_of_lt_of_le (ofLe_lt _) ?_
      rw [length_slice]
      exact Nat.pow_le_pow_right (by decide) (Nat.min_le_left _ _)
  have half : r.len < 2 ^ 31 := by
    by_contra high
    unfold walRecSize i32 at sized
    rw [Nat.mod_eq_of_lt small, if_neg high, if_pos (.inl (by omega))] at sized
    exact sized rfl
  unfold walRecSize i32 at sized ⊢
  rw [Nat.mod_eq_of_lt small, if_pos half] at sized ⊢
  by_cases ranged : (r.len : Int) < 0 ∨ (r.len : Int) > WAL_MAX_PAYLOAD
  · rw [if_pos ranged] at sized
    exact absurd rfl sized
  · rw [if_neg ranged, Int.toNat_natCast]
    omega

/-- A record that lies whole in a buffer has the payload its header says. -/
theorem slice_record {buf : Bytes} {at' : Nat} {r : WalRec}
    (decoded : walRecDecode (buf.drop at') = some r) (sized : walRecSize (i32 r.len) ≠ 0)
    (inside : at' + walRecSize (i32 r.len) ≤ buf.length) :
    r.len = (slice buf (at' + WAL_REC_HEADER_SIZE) r.len).length := by
  have fits := payload_le_walRecSize decoded sized
  rw [length_slice]
  omega

theorem pushRecords_turns (slot : Nat) (buf : Bytes) (fuel : Nat) (l : Loop) (at' : Nat) :
    Turning may l (pushRecords slot buf fuel l at') := by
  induction fuel generalizing l at' with
  | zero => exact .refl l
  | succ fuel ih =>
      unfold pushRecords
      split
      · split
        · exact .refl l
        · rename_i r decoded
          simp only
          split
          · exact .refl l
          · rename_i whole
            rw [not_or, not_lt] at whole
            split
            · refine Turning.trans ?_ (ih _ _)
              have replied : Turning may l (replyRecord l slot r
                  (slice buf (at' + WAL_REC_HEADER_SIZE) r.len)).2 :=
                replyFrame_turns l slot (slice_record decoded whole.1 whole.2)
              exact replied.trans (.tell (fun _ => trivial))
            · exact ih l _
      · exact .refl l

theorem subsPushRead_turns (limit room : Nat) (l : Loop) (slot : Nat) :
    Turning may l (subsPushRead limit room l slot) := by
  unfold subsPushRead
  simp only
  cases walCursorRead l.os l.wal (l.conns slot).sub.cursor limit room with
  | mk res rest =>
      obtain ⟨cursor, os⟩ := rest
      have moved : Turning may l ({ l with os := os }.setSub slot
          { (l.conns slot).sub with cursor := cursor }) :=
        setSub_os_turns l os (.moved slot l.trace _ _)
      cases res with
      | error e => exact moved.trans (replyErr_close_turns _ slot _ _)
      | ok got =>
          simp only
          split
          · exact moved.trans (pushRecords_turns slot _ _ _ _)
          · exact moved.trans ((pushRecords_turns slot _ _ _ _).after rfl rfl)

/-- What is done with a stream that is held. -/
theorem subsPushWaiting_turns (durable : Nat) (waiting : (l.conns slot).sub.waiting = true) :
    Turning may l (subsPushWaiting durable l slot) := by
  unfold subsPushWaiting
  simp only
  split
  · generalize served : ({ (l.conns slot).sub with
      waiting := false
      active := true
      untilSeq := if (l.conns slot).sub.once = true then durable
        else (l.conns slot).sub.untilSeq } : LoopSub) = sub
    have turned : Turning may l (l.setSub slot sub) := by
      refine setSub_turns (.of_idle (.inr waiting) ?_)
      rw [← served]
      exact id
    have answered : Turning may (l.setSub slot sub) (subAnswer (l.setSub slot sub) slot
        (l.conns slot).sub.cursor.nextSeq) := by
      refine subAnswer_turns _ ?_ ?_
      · rw [setSub_setSub, ← served]
      · rw [setSub_setSub, ← served]
    exact (turned.trans answered).before rfl rfl
  · split
    · have turned : Turning may l (l.setSub slot { (l.conns slot).sub with waiting := false }) :=
        setSub_turns (.of_idle (.inr waiting) id)
      have replied := turned.trans
        (replyErr_turns _ slot MSG_ERR_BEHIND (l.conns slot).sub.minSeq)
      refine replied.trans (Turning.trans (@Turning.tell may _ (.behind slot (l.conns slot).sub
        (walDurableSeq (replyErr (l.setSub slot { (l.conns slot).sub with waiting := false }) slot
          MSG_ERR_BEHIND (l.conns slot).sub.minSeq).wal)
        (replyErr (l.setSub slot { (l.conns slot).sub with waiting := false }) slot
          MSG_ERR_BEHIND (l.conns slot).sub.minSeq).tick) (fun _ => trivial)) ?_)
      exact setSub_os_turns _ _ (.moved slot _ _ _)
    · exact .refl l

/-- Only a READ comes to its end. -/
theorem subsPushLast_turns (once : (l.conns slot).sub.once = true) :
    Turning may l (subsPushLast l slot) := by
  unfold subsPushLast
  simp only
  have kept := replyFrame_sub l slot ⟨msgHeaderNew MSG_OP_NOTIFY MSG_RECORD_NONE MSG_FLAG_LAST
    ([] : Bytes).length 0 (l.conns slot).sub.untilSeq, []⟩
  have replied := @reply_turns may l slot MSG_OP_NOTIFY MSG_FLAG_LAST
    (l.conns slot).sub.untilSeq []
  change ((reply l slot MSG_OP_NOTIFY MSG_FLAG_LAST (l.conns slot).sub.untilSeq []).2.conns
    slot).sub = _ at kept
  generalize (reply l slot MSG_OP_NOTIFY MSG_FLAG_LAST (l.conns slot).sub.untilSeq []).2 = l1
    at kept replied ⊢
  refine replied.trans (Turning.trans (@Turning.tell may l1 (.ended slot (l.conns slot).sub
    (walDurableSeq l.wal)) ?_) ?_)
  · intro other same
    rw [← same, kept]
    exact once
  · refine setSub_os_turns _ _ ⟨.inl, fun _ _ goes => ?_⟩
    change (l1.conns slot).sub.once = false at goes
    rw [kept, once] at goes
    cases goes

theorem subsPushOne_turns (state : Loop × Nat) (slot : Nat) :
    Turning may state.1 (subsPushOne state slot).1 := by
  obtain ⟨l, durable⟩ := state
  unfold subsPushOne
  simp only
  split
  · exact .refl l
  · split
    · rename_i waiting
      exact subsPushWaiting_turns durable waiting
    · split
      · exact .refl l
      · split
        · exact .refl l
        · split
          · exact subsPushRead_turns _ _ l slot
          · rename_i once
            rw [not_not] at once
            split
            · exact subsPushLast_turns once
            · refine Turning.trans (@Turning.tell may l (.bounded slot (l.conns slot).sub) ?_)
                (subsPushRead_turns _ _ _ slot)
              intro other same
              rw [← same]
              exact once

theorem subsPush_turns (l : Loop) : Turning may l (subsPush l) := by
  have folded (slots : List Nat) (state : Loop × Nat) :
      Turning may state.1 (slots.foldl subsPushOne state).1 := by
    induction slots generalizing state with
    | nil => exact .refl _
    | cons slot rest ih => exact (subsPushOne_turns state slot).trans (ih _)
  exact folded (List.range LOOP_MAX_CONNS) (l, walDurableSeq l.wal)

/-! ### The rest of a pass -/

theorem retainPass_turns (l : Loop) : Turning may l (retainPass l) := by
  unfold retainPass
  simp only
  split
  · exact .refl l
  · split
    · exact .refl l
    · split
      · exact .of_same rfl rfl
      · generalize (if l.replicasWant > 0 ∧ l.retainFloor + 1 < walRetainMark l.wal l.retainSegments
          then l.retainFloor + 1 else walRetainMark l.wal l.retainSegments) = keepFrom
        split
        · exact .of_same rfl rfl
        · generalize walRetain l.os l.wal keepFrom = retained
          obtain ⟨res, removed, w, os⟩ := retained
          have told := @Turning.tell may l (.retained (walFirstSeq l.wal) (walFirstSeq w))
            (fun _ => trivial)
          cases res with
          | ok done => exact told.before rfl rfl
          | error e => exact told.before rfl rfl

theorem loopFlush_turns (l : Loop) : Turning may l (loopFlush l).2 := by
  unfold loopFlush
  split
  · exact .refl l
  · exact (flushes_turns l false).before rfl rfl

theorem loopServe_turns (l : Loop) : Turning may l (loopServe l) := by
  unfold loopServe
  simp only
  have second (l : Loop) : Turning may l (if l.isFollower then streamReport l else replStream l) := by
    split
    · exact streamReport_turns l
    · exact replStream_turns l
  exact ((acksEmit_turns l).trans (second _)).trans
    ((subsPush_turns _).trans (retainPass_turns _))

/-! ### The arm phase -/

theorem slotRelease_turns (l : Loop) (slot : Nat) : Turning may l (slotRelease l slot) := by
  have detached (l : Loop) (idx : Nat) : Turning may l (replicaRelease l idx) := by
    unfold replicaRelease
    split
    · exact .refl l
    · simp only
      exact Turning.after (Turning.tell (fun _ => trivial)) rfl rfl
  have reset (l : Loop) : Turning may l ((slotReset l slot).note (.released slot)) :=
    .putNote .released (fun other differ => Ne.symm differ)
  unfold slotRelease
  simp only
  split
  · exact .refl l
  · cases (l.conns slot).replica with
    | none =>
        cases (l.conns slot).sub.cursor.fd with
        | none => exact reset l
        | some fd => exact (reset _).after rfl rfl
    | some idx =>
        cases (l.conns slot).sub.cursor.fd with
        | none => exact (detached l idx).trans (reset _)
        | some fd => exact (detached l idx).trans ((reset _).after rfl rfl)

theorem armConn_turns {sends : Nat → SendAnswer} (fails : (sends slot).fails → may slot) :
    Turning may l (armConn sends l slot) := by
  unfold armConn
  by_cases used : (l.conns slot).inUse = true
  · rw [if_neg (not_not.mpr used)]
    simp only
    have sent : Turning may l (if (l.conns slot).sendBuf ≠ [] ∧ ¬ (l.conns slot).wantOut = true then
        connSend l slot (sends slot) else l) := by
      split
      · exact connSend_turns used fails
      · exact .refl l
    refine sent.trans ?_
    generalize (if (l.conns slot).sendBuf ≠ [] ∧ ¬ (l.conns slot).wantOut = true then
      connSend l slot (sends slot) else l) = l1
    split
    · exact slotRelease_turns l1 slot
    · have compacted : Turning may l1 (l1.setConn slot { l1.conns slot with
          conn := connCompact (l1.conns slot).conn }) := .aside ⟨rfl, rfl, rfl, rfl, id⟩
      refine compacted.trans ?_
      split
      · exact (close_turns _ slot).trans (slotRelease_turns _ slot)
      · exact .refl _
  · rw [if_pos used]
    exact .refl l

theorem armPhase_turns {arm : Arm} (fails : ∀ slot, (arm.sends slot).fails → may slot) (l : Loop) :
    Turning may l (armPhase l arm) := by
  unfold armPhase armConns
  refine (replDial_turns l arm.dial).trans (Turning.trans ?_ (armStream_turns _ arm.stream))
  exact Turning.foldl (fun l slot => armConn_turns (fails slot)) (List.range LOOP_MAX_CONNS) _

/-! ### The moments of a pass -/

/-- The loop when it waits for events. -/
def Loop.armed (l : Loop) (pass : Pass) : Loop :=
  { armPhase (l.prepare pass) pass.arm with progress := false }

/-- The slots on which a send has failed by the time these events have been handled. -/
def Pass.failed (pass : Pass) (events : List Event) (slot : Nat) : Prop :=
  (pass.arm.sends slot).fails ∨ ∃ event ∈ events, event.fails slot

/-- The states a pass goes through, each with the slots on which a send has failed in the
pass by then. -/
inductive Moment (l : Loop) (pass : Pass) : Loop → (Nat → Prop) → Prop where
  | begins : Moment l pass l (fun _ => False)
  | armed : Moment l pass (l.armed pass) (fun slot => (pass.arm.sends slot).fails)
  | met {front back : List Event} (waits : pass.wait = some (front ++ back)) :
      Moment l pass (loopDispatch (l.armed pass) front) (pass.failed front)
  | flushed {events : List Event} {res : Except Err Unit} {l1 : Loop}
      (waits : pass.wait = some events)
      (flushes : loopFlush (loopDispatch (l.armed pass) events) = (res, l1)) :
      Moment l pass l1 (pass.failed events)
  | swept {events : List Event} {l1 : Loop} (waits : pass.wait = some events)
      (flushes : loopFlush (loopDispatch (l.armed pass) events) = (.ok (), l1)) :
      Moment l pass (acksEmit l1) (pass.failed events)
  | streamed {events : List Event} {l1 : Loop} (waits : pass.wait = some events)
      (flushes : loopFlush (loopDispatch (l.armed pass) events) = (.ok (), l1)) :
      Moment l pass (if (acksEmit l1).isFollower then streamReport (acksEmit l1)
        else replStream (acksEmit l1)) (pass.failed events)
  | served {events : List Event} {l1 : Loop} (waits : pass.wait = some events)
      (flushes : loopFlush (loopDispatch (l.armed pass) events) = (.ok (), l1)) :
      Moment l pass (loopServe l1) (pass.failed events)
  | rearmed {events : List Event} {l1 : Loop} (waits : pass.wait = some events)
      (flushes : loopFlush (loopDispatch (l.armed pass) events) = (.ok (), l1)) :
      Moment l pass (armPhase (loopServe l1) pass.rearm)
        (fun slot => pass.failed events slot ∨ (pass.rearm.sends slot).fails)

theorem Turn.mono {may may' : Prop} (implies : may → may') {s s' : LoopConn × List Note}
    (turn : Turn may slot s s') : Turn may' slot s s' := by
  cases turn with
  | aside same => exact .aside same
  | noted suits => exact .noted suits
  | tuned turns => exact .tuned turns
  | opened => exact .opened
  | released => exact .released
  | staged room length => exact .staged room length
  | switched empty => exact .switched empty
  | took n => exact .took n
  | broke fails => exact .broke (implies fails)

theorem Turning.mono {may' : Nat → Prop} (implies : ∀ slot, may slot → may' slot)
    (turning : Turning may l l') : Turning may' l l' :=
  fun slot => Relation.ReflTransGen.mono (fun _ _ (turn : Turn (may slot) slot _ _) =>
    turn.mono (implies slot)) _ _ (turning slot)

theorem events_turns {events : List Event} (sound : l.Sound lit)
    (shown : ∀ event ∈ events, event.Shown lit)
    (fails : ∀ event ∈ events, ∀ slot, event.fails slot → may slot) :
    Turning may l (events.foldl tickEvent l) := by
  induction events generalizing l with
  | nil => exact .refl l
  | cons event rest ih =>
      have first := tickEvent_makes sound (shown event (List.mem_cons_self ..))
      refine Turning.trans (tickEvent_turns sound (fails event (List.mem_cons_self ..))) ?_
      exact ih first.sound (fun event inside => shown event (List.mem_cons_of_mem _ inside))
        (fun event inside => fails event (List.mem_cons_of_mem _ inside))

theorem armed_watched (l : Loop) (pass : Pass) :
    (l.armed pass).watched = (armPhase (l.prepare pass) pass.arm).watched := by
  unfold Loop.armed
  generalize armPhase (l.prepare pass) pass.arm = l1
  rfl

theorem armed_makes (sound : l.Sound dark) (pass : Pass) : Makes .arming dark l (l.armed pass) := by
  have prepared : Serves .arming dark l (l.prepare pass) :=
    serves_aside sound rfl rfl rfl rfl rfl
  have armed := armPhase_makes prepared.sound pass.arm
  unfold Loop.armed
  generalize armPhase (l.prepare pass) pass.arm = l1 at armed ⊢
  have still : Serves .arming dark l1 { l1 with progress := false } :=
    serves_aside armed.sound rfl rfl rfl rfl rfl
  exact prepared.makes.trans (armed.trans still.makes)

theorem armed_sound (sound : l.Sound dark) (pass : Pass) : (l.armed pass).Sound dark :=
  (armed_makes sound pass).sound

/-- What the pass reports writable is watched. -/
theorem Pass.Possible.shown {pass : Pass} {events : List Event} (possible : pass.Possible l)
    (waits : pass.wait = some events) : ∀ event ∈ events, event.Shown (l.armed pass).watched := by
  intro event inside
  cases event with
  | conn slot readable writable =>
      cases writable with
      | none => trivial
      | some answer =>
          change (l.armed pass).watched slot = true
          rw [armed_watched]
          exact possible _ waits slot readable answer inside
  | _ => trivial

theorem loopDispatch_turns {events : List Event} (sound : l.Sound dark)
    (shown : ∀ event ∈ events, event.Shown l.watched)
    (fails : ∀ event ∈ events, ∀ slot, event.fails slot → may slot) :
    Turning may l (loopDispatch l events) := by
  have clean : ({ l with walDirty := false } : Loop).Sound l.watched := { sound.watched with }
  have handled : Turning may { l with walDirty := false } (loopDispatch l events) :=
    events_turns clean shown fails
  exact handled.after rfl rfl

/-- Every moment of a pass is reached by turns. -/
theorem moment_turns {m : Loop} {fails : Nat → Prop} {pass : Pass} (sound : l.Sound dark)
    (possible : pass.Possible l) (moment : Moment l pass m fails) : Turning fails l m := by
  have sound1 := armed_sound sound pass
  have arms : Turning (fun slot => (pass.arm.sends slot).fails) l (l.armed pass) := by
    have turned := @armPhase_turns (fun slot => (pass.arm.sends slot).fails) pass.arm
      (fun _ bad => bad) (l.prepare pass)
    have entered : Turning (fun slot => (pass.arm.sends slot).fails) l (l.prepare pass) :=
      .of_same rfl rfl
    unfold Loop.armed
    generalize armPhase (l.prepare pass) pass.arm = l1 at turned ⊢
    exact (entered.trans turned).before rfl rfl
  have meets {front back : List Event} (waits : pass.wait = some (front ++ back)) :
      Turning (pass.failed front) l (loopDispatch (l.armed pass) front) := by
    refine (arms.mono (fun slot bad => .inl bad)).trans (loopDispatch_turns sound1 ?_ ?_)
    · exact fun event inside => possible.shown waits event (List.mem_append_left _ inside)
    · exact fun event inside slot bad => .inr ⟨event, inside, bad⟩
  have all {events : List Event} (waits : pass.wait = some events) :
      Turning (pass.failed events) l (loopDispatch (l.armed pass) events) :=
    @meets events [] (by rw [List.append_nil]; exact waits)
  have flushes {events : List Event} {res : Except Err Unit} {l1 : Loop}
      (waits : pass.wait = some events)
      (flush : loopFlush (loopDispatch (l.armed pass) events) = (res, l1)) :
      Turning (pass.failed events) l l1 := by
    have flushed := @loopFlush_turns (pass.failed events) (loopDispatch (l.armed pass) events)
    rw [flush] at flushed
    exact (all waits).trans flushed
  cases moment with
  | begins => exact .refl l
  | armed => exact arms
  | met waits => exact meets waits
  | flushed waits flush => exact flushes waits flush
  | swept waits flush => exact (flushes waits flush).trans (acksEmit_turns _)
  | streamed waits flush =>
      refine ((flushes waits flush).trans (acksEmit_turns _)).trans ?_
      split
      · exact streamReport_turns _
      · exact replStream_turns _
  | served waits flush => exact (flushes waits flush).trans (loopServe_turns _)
  | rearmed waits flush =>
      refine (((flushes waits flush).trans (loopServe_turns _)).mono (fun slot bad => .inl bad)).trans ?_
      exact armPhase_turns (fun slot bad => .inr bad) _

/-! ### Runs -/

theorem loopTick_eq (l : Loop) (pass : Pass) :
    loopTick l pass = match pass.wait with
      | none => (.error ⟨.syscall, 0⟩, l.armed pass)
      | some events =>
          match loopFlush (loopDispatch (l.armed pass) events) with
          | (.error e, l) => (.error e, l)
          | (.ok (), l) => (.ok (), armPhase (loopServe l) pass.rearm) := rfl

/-- A pass that is completed ends with its second arm phase. -/
theorem loopTick_ends {pass : Pass} (served : (loopTick l pass).1 = .ok ()) : ∃ events l1,
    pass.wait = some events ∧ loopFlush (loopDispatch (l.armed pass) events) = (.ok (), l1) ∧
      (loopTick l pass).2 = armPhase (loopServe l1) pass.rearm := by
  rw [loopTick_eq] at served ⊢
  cases waits : pass.wait with
  | none =>
      rw [waits] at served
      cases served
  | some events =>
      rw [waits] at served
      simp only at served ⊢
      cases flushes : loopFlush (loopDispatch (l.armed pass) events) with
      | mk res l1 =>
          rw [flushes] at served
          cases res with
          | error e => cases served
          | ok done =>
              refine ⟨events, l1, rfl, flushes, ?_⟩
              simp only

theorem met_sound {pass : Pass} (sound : l.Sound dark) (possible : pass.Possible l) {front back : List Event}
    (waits : pass.wait = some (front ++ back)) :
    (loopDispatch (l.armed pass) front).Sound (l.armed pass).watched :=
  (loopDispatch_moves (armed_sound sound pass)
    (fun event inside => possible.shown waits event (List.mem_append_left back inside))).1

theorem served_sound {pass : Pass} (sound : l.Sound dark) (possible : pass.Possible l) {events : List Event}
    {l1 : Loop} (waits : pass.wait = some events)
    (flushes : loopFlush (loopDispatch (l.armed pass) events) = (.ok (), l1)) :
    (loopServe l1).Sound (l.armed pass).watched := by
  have met := @met_sound l pass sound possible events [] (by rw [List.append_nil]; exact waits)
  obtain ⟨flushed, _⟩ := loopFlush_moves met flushes
  exact (loopServe_makes flushed).sound

theorem running_sound {config : Config} (running : Running config l) (going : l.stop = false) :
    l.Sound dark := by
  obtain ⟨start, phase, lit, _starts, sound, _moves, resting⟩ := running_moves running
  obtain ⟨rfl, rfl⟩ := resting going
  exact sound

/-- A pass ends at one of its moments, and at its last one where the loop goes on. -/
theorem loopPass_ends (l : Loop) (pass : Pass) :
    (∃ m fails, Moment l pass m fails ∧ loopPass l pass = { m with stop := true }) ∨
      ∃ events l1, pass.wait = some events ∧
        loopFlush (loopDispatch (l.armed pass) events) = (.ok (), l1) ∧
        loopPass l pass = armPhase (loopServe l1) pass.rearm := by
  unfold loopPass
  rw [loopTick_eq]
  cases waits : pass.wait with
  | none => exact .inl ⟨_, _, .armed, rfl⟩
  | some events =>
      simp only
      cases flushes : loopFlush (loopDispatch (l.armed pass) events) with
      | mk res l1 =>
          cases res with
          | error e => exact .inl ⟨_, _, .flushed waits flushes, rfl⟩
          | ok done => exact .inr ⟨events, l1, rfl, flushes, rfl⟩

theorem loopPass_turns {pass : Pass} (sound : l.Sound dark) (possible : pass.Possible l) :
    Turning (fun _ => True) l (loopPass l pass) := by
  rcases loopPass_ends l pass with ⟨m, fails, moment, ended⟩ | ⟨events, l1, waits, flushes, ended⟩
  · rw [ended]
    have turned := moment_turns sound possible moment
    exact (turned.mono (fun _ _ => trivial)).before rfl rfl
  · rw [ended]
    exact (moment_turns sound possible (.rearmed waits flushes)).mono (fun _ _ => trivial)

/-- The loop is one that turns reach from a start. -/
def Loop.Turned (config : Config) (l : Loop) : Prop :=
  l.Reaches config ∧ ∃ start, Started config start ∧ Turning (fun _ => True) start l

/-- **Every run of the node is a run of turns on every slot.** -/
theorem running_turns {config : Config} (running : Running config l) : l.Turned config := by
  refine Runs.Reach.invariant ?_ ?_ running
  · exact fun l started => ⟨running_moves (.start started), l, started, .refl l⟩
  · rintro l pass l' ⟨⟨first, phase, lit, starts, sound, moves, resting⟩, start, started, turned⟩
      _admitted ⟨going, possible, rfl⟩
    obtain ⟨rfl, rfl⟩ := resting going
    obtain ⟨phase', lit', sound', moves', resting'⟩ := loopPass_moves sound possible
    exact ⟨⟨first, phase', lit', starts, sound', moves.trans moves', resting'⟩, start, started,
      turned.trans (loopPass_turns sound possible)⟩

end Msgsrvd

/-
The replica slots: each that is live is held by one connection, which sends from that
slot's area, and is free again once the connection is.
-/

import Msgsrvd.Server.Beside
import Msgsrvd.Server.Output

namespace Msgsrvd

open Bytestring

variable {o : Owners} {l l' l'' : Loop} {lit : Nat → Bool} {slot idx : Nat}

/-! ### Who holds what -/

/-- A connection in use carries the replica's stream. -/
def Owners.Streams (o : Owners) (slot idx : Nat) : Prop :=
  (o.conn slot).inUse = true ∧ (o.conn slot).replica = some idx

theorem streams_used (streams : l.owners.Streams slot idx) : (l.conns slot).inUse = true :=
  streams.1

/-- Nobody streams from the replica slot. -/
def Owners.Free (o : Owners) (idx : Nat) : Prop := o.peer idx = ⟨false, 0⟩

/-- Live replica slots and the connections that hold them, one to one. -/
structure Owners.Exact (o : Owners) : Prop where
  held : ∀ idx, (o.peer idx).live = true → ∃ slot, o.Streams slot idx
  alone : ∀ slot other idx, o.Streams slot idx → o.Streams other idx → slot = other
  live : ∀ slot idx, o.Streams slot idx → (o.peer idx).live = true
  area : ∀ slot idx, o.Streams slot idx →
    (o.conn slot).sendFrom = some idx ∧ (o.conn slot).sendCap = LOOP_REPL_CAP
  own : ∀ slot, (o.conn slot).replica = none →
    (o.conn slot).sendFrom = none ∧ (o.conn slot).sendCap = LOOP_SEND_CAP
  dead : ∀ idx, (o.peer idx).live = false → (o.peer idx).durable = 0
  inside : ∀ idx, (o.peer idx).live = true → idx < LOOP_MAX_REPLICAS

def Owners.setConn (o : Owners) (slot : Nat) (c : Owner) : Owners :=
  { o with conn := fun other => if other = slot then c else o.conn other }

def Owners.setPeer (o : Owners) (idx : Nat) (p : Standing) : Owners :=
  { o with peer := fun other => if other = idx then p else o.peer other }

theorem setConn_owners (l : Loop) (slot : Nat) (c : LoopConn) :
    (l.setConn slot c).owners = l.owners.setConn slot c.owner := by
  unfold Loop.owners Loop.setConn Owners.setConn
  congr 1
  funext other
  by_cases same : other = slot
  · simp only [same, if_true]
  · simp only [if_neg same]

theorem setPeer_owners (l : Loop) (idx : Nat) (p : LoopPeer) :
    (l.setPeer idx p).owners = l.owners.setPeer idx p.standing := by
  unfold Loop.owners Loop.setPeer Owners.setPeer
  congr 1
  funext other
  by_cases same : other = idx
  · simp only [same, if_true]
  · simp only [if_neg same]

theorem Owners.conn_setConn (o : Owners) (slot : Nat) (c : Owner) :
    (o.setConn slot c).conn slot = c := if_pos rfl

theorem Owners.conn_setConn_other (o : Owners) {slot other : Nat} (c : Owner)
    (differ : other ≠ slot) : (o.setConn slot c).conn other = o.conn other := if_neg differ

theorem Owners.peer_setPeer (o : Owners) (idx : Nat) (p : Standing) :
    (o.setPeer idx p).peer idx = p := if_pos rfl

theorem Owners.peer_setPeer_other (o : Owners) {idx other : Nat} (p : Standing)
    (differ : other ≠ idx) : (o.setPeer idx p).peer other = o.peer other := if_neg differ

theorem streams_setConn_other {c : Owner} {other : Nat} (differ : other ≠ slot) :
    (o.setConn slot c).Streams other idx ↔ o.Streams other idx := by
  unfold Owners.Streams
  rw [o.conn_setConn_other c differ]

theorem streams_setConn {c : Owner} :
    (o.setConn slot c).Streams slot idx ↔ c.inUse = true ∧ c.replica = some idx := by
  unfold Owners.Streams
  rw [o.conn_setConn]

/-- A connection that holds no replica slot is not missed. -/
theorem Owners.Exact.place (exact' : o.Exact) {c : Owner}
    (idle : ∀ idx, ¬ o.Streams slot idx) (plain : c.replica = none)
    (own : c.sendFrom = none ∧ c.sendCap = LOOP_SEND_CAP) : (o.setConn slot c).Exact := by
  have same (other idx : Nat) : (o.setConn slot c).Streams other idx ↔ o.Streams other idx := by
    by_cases at_slot : other = slot
    · subst at_slot
      rw [streams_setConn, plain]
      exact ⟨fun streams => (Option.some_ne_none _ streams.2.symm).elim,
        fun streams => (idle idx streams).elim⟩
    · exact streams_setConn_other at_slot
  refine ⟨?_, ?_, ?_, ?_, ?_, exact'.dead, exact'.inside⟩
  · intro idx live
    obtain ⟨other, streams⟩ := exact'.held idx live
    exact ⟨other, (same other idx).mpr streams⟩
  · intro left right idx streams streams'
    exact exact'.alone left right idx ((same left idx).mp streams) ((same right idx).mp streams')
  · exact fun other idx streams => exact'.live other idx ((same other idx).mp streams)
  · intro other idx streams
    have before := (same other idx).mp streams
    have differ : other ≠ slot := fun at_slot => idle idx (at_slot ▸ before)
    rw [o.conn_setConn_other c differ]
    exact exact'.area other idx before
  · intro other bare
    by_cases at_slot : other = slot
    · subst at_slot
      rw [o.conn_setConn]
      exact own
    · rw [o.conn_setConn_other c at_slot] at bare ⊢
      exact exact'.own other bare

/-- A replica takes a slot that is free. -/
theorem Owners.Exact.attach (exact' : o.Exact) {c : Owner} {durable : Nat}
    (plain : (o.conn slot).replica = none) (free : (o.peer idx).live = false)
    (inside : idx < LOOP_MAX_REPLICAS) (used : c.inUse = true) (takes : c.replica = some idx)
    (area : c.sendFrom = some idx ∧ c.sendCap = LOOP_REPL_CAP) :
    ((o.setConn slot c).setPeer idx ⟨true, durable⟩).Exact := by
  have streams (other at' : Nat) : ((o.setConn slot c).setPeer idx ⟨true, durable⟩).Streams other
      at' ↔ (other = slot ∧ at' = idx) ∨ (other ≠ slot ∧ o.Streams other at') := by
    change (o.setConn slot c).Streams other at' ↔ _
    by_cases at_slot : other = slot
    · subst at_slot
      rw [streams_setConn, takes]
      exact ⟨fun streams => .inl ⟨rfl, (Option.some.inj streams.2).symm⟩,
        fun either => either.elim (fun here => ⟨used, congrArg some here.2.symm⟩)
          (fun other => (other.1 rfl).elim)⟩
    · rw [streams_setConn_other at_slot]
      exact ⟨fun streams => .inr ⟨at_slot, streams⟩,
        fun either => either.elim (fun here => (at_slot here.1).elim) And.right⟩
  have elsewhere {other at' : Nat} (before : o.Streams other at') : at' ≠ idx := by
    intro same
    rw [same] at before
    rw [exact'.live other idx before] at free
    cases free
  refine ⟨?_, ?_, ?_, ?_, ?_, ?_, ?_⟩
  · intro at' live
    by_cases same : at' = idx
    · exact ⟨slot, (streams slot at').mpr (.inl ⟨rfl, same⟩)⟩
    · rw [Owners.peer_setPeer_other _ _ same] at live
      obtain ⟨other, before⟩ := exact'.held at' live
      refine ⟨other, (streams other at').mpr (.inr ⟨fun at_slot => ?_, before⟩)⟩
      rw [at_slot] at before
      rw [before.2] at plain
      cases plain
  · intro left right at' of of'
    rcases (streams left at').mp of with ⟨left_slot, here⟩ | ⟨_, before⟩
    · rcases (streams right at').mp of' with ⟨right_slot, _⟩ | ⟨_, before'⟩
      · rw [left_slot, right_slot]
      · exact (elsewhere before' here).elim
    · rcases (streams right at').mp of' with ⟨_, here⟩ | ⟨_, before'⟩
      · exact (elsewhere before here).elim
      · exact exact'.alone left right at' before before'
  · intro other at' of
    rcases (streams other at').mp of with ⟨_, here⟩ | ⟨_, before⟩
    · rw [here, Owners.peer_setPeer]
    · rw [Owners.peer_setPeer_other _ _ (elsewhere before)]
      exact exact'.live other at' before
  · intro other at' of
    change ((o.setConn slot c).conn other).sendFrom = some at' ∧
      ((o.setConn slot c).conn other).sendCap = LOOP_REPL_CAP
    rcases (streams other at').mp of with ⟨at_slot, here⟩ | ⟨differ, before⟩
    · rw [at_slot, here, o.conn_setConn]
      exact area
    · rw [o.conn_setConn_other c differ]
      exact exact'.area other at' before
  · intro other bare
    change ((o.setConn slot c).conn other).replica = none at bare
    change ((o.setConn slot c).conn other).sendFrom = none ∧
      ((o.setConn slot c).conn other).sendCap = LOOP_SEND_CAP
    by_cases at_slot : other = slot
    · rw [at_slot, o.conn_setConn, takes] at bare
      cases bare
    · rw [o.conn_setConn_other c at_slot] at bare ⊢
      exact exact'.own other bare
  · intro at' dead
    by_cases same : at' = idx
    · rw [same, Owners.peer_setPeer] at dead
      cases dead
    · rw [Owners.peer_setPeer_other _ _ same] at dead ⊢
      exact exact'.dead at' dead
  · intro at' live
    by_cases same : at' = idx
    · rw [same]
      exact inside
    · rw [Owners.peer_setPeer_other _ _ same] at live
      exact exact'.inside at' live

/-- A replica says how far it has got. -/
theorem Owners.Exact.confirm (exact' : o.Exact) (streams : o.Streams slot idx) (durable : Nat) :
    (o.setPeer idx ⟨true, durable⟩).Exact := by
  have live := exact'.live slot idx streams
  have still (at' : Nat) : ((o.setPeer idx ⟨true, durable⟩).peer at').live = (o.peer at').live := by
    by_cases same : at' = idx
    · rw [same, Owners.peer_setPeer, live]
    · rw [Owners.peer_setPeer_other _ _ same]
  refine ⟨?_, exact'.alone, ?_, exact'.area, exact'.own, ?_, ?_⟩
  · intro at' live
    exact exact'.held at' ((still at').symm.trans live)
  · intro other at' of
    exact (still at').trans (exact'.live other at' of)
  · intro at' dead
    have differ : at' ≠ idx := by
      intro same
      rw [still at', same, live] at dead
      cases dead
    rw [Owners.peer_setPeer_other _ _ differ] at dead ⊢
    exact exact'.dead at' dead
  · intro at' live
    exact exact'.inside at' ((still at').symm.trans live)

/-- A connection is given up, and its replica slot with it. -/
theorem Owners.Exact.release (exact' : o.Exact) (streams : o.Streams slot idx) :
    ((o.setPeer idx ⟨false, 0⟩).setConn slot slotEmpty.owner).Exact := by
  have before (other at' : Nat) : ((o.setPeer idx ⟨false, 0⟩).setConn slot
      slotEmpty.owner).Streams other at' ↔ other ≠ slot ∧ o.Streams other at' := by
    by_cases at_slot : other = slot
    · subst at_slot
      rw [streams_setConn]
      exact ⟨fun streams => (Bool.false_ne_true streams.1).elim, fun both => (both.1 rfl).elim⟩
    · rw [streams_setConn_other at_slot]
      exact ⟨fun streams => ⟨at_slot, streams⟩, And.right⟩
  have elsewhere {other at' : Nat} (differ : other ≠ slot) (of : o.Streams other at') :
      at' ≠ idx := fun same => differ (exact'.alone other slot idx (same ▸ of) streams)
  have kept {at' : Nat} (live : ((o.setPeer idx ⟨false, 0⟩).peer at').live = true) :
      at' ≠ idx ∧ (o.peer at').live = true := by
    have differ : at' ≠ idx := by
      intro same
      rw [same, Owners.peer_setPeer] at live
      cases live
    rw [Owners.peer_setPeer_other _ _ differ] at live
    exact ⟨differ, live⟩
  refine ⟨?_, ?_, ?_, ?_, ?_, ?_, fun at' live => exact'.inside at' (kept live).2⟩
  · intro at' live
    obtain ⟨differ, live⟩ := kept live
    obtain ⟨other, of⟩ := exact'.held at' live
    refine ⟨other, (before other at').mpr ⟨fun at_slot => ?_, of⟩⟩
    rw [at_slot] at of
    exact differ (Option.some.inj (of.2.symm.trans streams.2))
  · intro left right at' of of'
    exact exact'.alone left right at' ((before left at').mp of).2 ((before right at').mp of').2
  · intro other at' of
    obtain ⟨differ, of⟩ := (before other at').mp of
    change ((o.setPeer idx ⟨false, 0⟩).peer at').live = true
    rw [Owners.peer_setPeer_other _ _ (elsewhere differ of)]
    exact exact'.live other at' of
  · intro other at' of
    obtain ⟨differ, of⟩ := (before other at').mp of
    rw [Owners.conn_setConn_other _ _ differ]
    exact exact'.area other at' of
  · intro other bare
    by_cases at_slot : other = slot
    · rw [at_slot, Owners.conn_setConn]
      exact ⟨rfl, rfl⟩
    · rw [Owners.conn_setConn_other _ _ at_slot] at bare ⊢
      exact exact'.own other bare
  · intro at' dead
    change ((o.setPeer idx ⟨false, 0⟩).peer at').live = false at dead
    change ((o.setPeer idx ⟨false, 0⟩).peer at').durable = 0
    by_cases same : at' = idx
    · rw [same, Owners.peer_setPeer]
    · rw [Owners.peer_setPeer_other _ _ same] at dead ⊢
      exact exact'.dead at' dead

/-! ### Handling and serving -/

/-- Nothing that is held is lost. -/
structure Attends (l l' : Loop) : Prop where
  exact' : l.owners.Exact → l'.owners.Exact
  stays : l.owners.Exact → ∀ slot idx, l.owners.Streams slot idx → l'.owners.Streams slot idx

theorem Attends.of_owners (same : l'.owners = l.owners) : Attends l l' where
  exact' := fun exact' => same ▸ exact'
  stays := fun _ _ _ streams => same ▸ streams

theorem Attends.refl (l : Loop) : Attends l l := .of_owners rfl

theorem Attends.trans (left : Attends l l') (right : Attends l' l'') : Attends l l'' where
  exact' := fun exact' => right.exact' (left.exact' exact')
  stays := fun exact' slot idx streams =>
    right.stays (left.exact' exact') slot idx (left.stays exact' slot idx streams)

theorem Beside.attends (beside : Beside l l') : Attends l l' := .of_owners beside.owners

theorem logAppend_owners (l : Loop) (r : WalRec) (payload : Bytes) :
    (logAppend l r payload).2.owners = l.owners := by
  unfold logAppend
  simp only
  split
  · exact (flushes_beside l true).owners
  · rfl

theorem logAppendAt_owners (l : Loop) (r : WalRec) (payload : Bytes) :
    (logAppendAt l r payload).2.owners = l.owners := by
  unfold logAppendAt
  simp only
  split
  · exact (flushes_beside l true).owners
  · rfl

theorem handleWrite_owners (l : Loop) (slot : Nat) (h : MsgHeader) (payload : Bytes) :
    (handleWrite l slot h payload).owners = l.owners := by
  unfold handleWrite
  split
  · exact ((refuseWrite_beside l slot h _ _).trans (close_beside _ slot)).owners
  · split
    · exact (refuseWrite_beside l slot h _ _).owners
    · split
      · exact (refuseWrite_beside l slot h _ _).owners
      · split
        · exact (resendWrite_beside l slot h _).owners
        · have kept := logAppend_owners l (writeRec (l.conns slot).session h payload) payload
          split
          · rename_i appended
            rw [appended] at kept
            exact (refuseWrite_beside _ slot h _ _).owners.trans kept
          · rename_i appended
            rw [appended] at kept
            exact (storedWrite_beside _ slot h _).owners.trans kept

/-- The opening frame of a connection finds it without a replica slot. -/
theorem handleReplStart_attends (h : MsgHeader) (used : (l.conns slot).inUse = true)
    (plain : (l.conns slot).replica = none) : Attends l (handleReplStart l slot h) := by
  unfold handleReplStart
  split
  · exact ((replyErrText_beside l slot _ _ _).trans (close_beside _ slot)).attends
  · cases free : freePeer l with
    | none => exact (replyErr_close_beside l slot _ _).attends
    | some idx =>
        obtain ⟨inside, idle⟩ := freePeer_some free
        simp only
        cases walCursorSeek l.os l.wal walCursorInit h.sequence SCRATCH_LEN with
        | mk res rest =>
            obtain ⟨cursor, os⟩ := rest
            cases res with
            | error e =>
                have moved : Beside l
                    ({ l with os := os }.setPeer idx { l.peer idx with cursor := cursor }) :=
                  ⟨rfl, rfl, owners_setPeer rfl⟩
                exact (moved.trans (replyErr_close_beside _ slot _ _)).attends
            | ok done =>
                simp only
                generalize placed : ({ l with os := os }.setConn slot { l.conns slot with
                  replica := some idx
                  sendBuf := []
                  sendCap := LOOP_REPL_CAP
                  sendFrom := some idx }) = l1
                have owners1 : l1.owners = l.owners.setConn slot
                    ⟨true, some idx, some idx, LOOP_REPL_CAP⟩ := by
                  rw [← placed, setConn_owners]
                  change l.owners.setConn slot ⟨(l.conns slot).inUse, _, _, _⟩ = _
                  rw [used]
                have owners2 : ((l1.setPeer idx ⟨true, h.sequence - 1, cursor⟩).note
                    (.attached slot idx (h.sequence - 1))).owners =
                    (l.owners.setConn slot ⟨true, some idx, some idx, LOOP_REPL_CAP⟩).setPeer idx
                      ⟨true, h.sequence - 1⟩ := by
                  rw [← owners1]
                  exact setPeer_owners l1 idx _
                have attached : Attends l ((l1.setPeer idx ⟨true, h.sequence - 1, cursor⟩).note
                    (.attached slot idx (h.sequence - 1))) := by
                  refine ⟨fun exact' => ?_, fun exact' other at' streams => ?_⟩
                  · rw [owners2]
                    exact exact'.attach plain idle inside rfl rfl ⟨rfl, rfl⟩
                  · rw [owners2]
                    have differ : other ≠ slot := by
                      intro same
                      rw [same] at streams
                      have none := streams.2.symm.trans plain
                      cases none
                    exact (streams_setConn_other differ).mpr streams
                exact attached.trans
                  ((retainFloorUpdate_beside _).trans (armTimerNow_beside _)).attends

theorem handleReplAck_attends (h : MsgHeader) (used : (l.conns slot).inUse = true) :
    Attends l (handleReplAck l slot h) := by
  unfold handleReplAck
  cases held : (l.conns slot).replica with
  | none => exact .refl l
  | some idx =>
      simp only
      refine Attends.trans ?_ (retainFloorUpdate_beside _).attends
      refine ⟨fun exact' => ?_, fun _ _ _ streams => streams⟩
      have streams : l.owners.Streams slot idx := ⟨used, held⟩
      have owners : ((l.setPeer idx { l.peer idx with durable := h.sequence }).note
          (.confirmed slot idx h.sequence)).owners = l.owners.setPeer idx ⟨true, h.sequence⟩ := by
        refine (setPeer_owners l idx _).trans ?_
        change l.owners.setPeer idx ⟨(l.peer idx).live, h.sequence⟩ = _
        rw [show (l.peer idx).live = true from exact'.live slot idx streams]
      rw [owners]
      exact exact'.confirm streams h.sequence

theorem handleFrame_attends {h : MsgHeader} (payload : Bytes) (used : (l.conns slot).inUse = true)
    (plain : opens h.op = true → (l.conns slot).replica = none) :
    Attends l (handleFrame l slot h payload) := by
  by_cases write : h.op = MSG_OP_WRITE
  · unfold handleFrame
    rw [write]
    exact .of_owners (handleWrite_owners l slot h payload)
  · by_cases start : h.op = MSG_OP_REPL_START
    · unfold handleFrame
      rw [start]
      exact handleReplStart_attends h used (plain (by rw [start]; rfl))
    · by_cases ack : h.op = MSG_OP_REPL_ACK
      · unfold handleFrame
        rw [ack]
        exact handleReplAck_attends h used
      · exact (handleFrame_beside write start ack l slot payload).attends

theorem onAction_attends {action : ConnAction} (used : (l.conns slot).inUse = true)
    (plain : ∀ h payload, action = .frame h payload → opens h.op = true →
      (l.conns slot).replica = none) : Attends l (onAction slot l action) := by
  cases action with
  | frame h payload => exact handleFrame_attends _ used (plain h payload rfl)
  | replyErr code sequence => exact (replyErr_beside l slot _ _).attends
  | close => exact (close_beside l slot).attends

theorem onActions_attends {actions : List ConnAction} (order : Opens true actions)
    (used : (l.conns slot).inUse = true) : Attends l (actions.foldl (onAction slot) l) := by
  induction actions generalizing l with
  | nil => exact .refl l
  | cons action rest ih =>
      have used' : ((onAction slot l action).conns slot).inUse = true :=
        (onAction_handled slot l action slot).inUse.trans used
      cases action with
      | frame h payload =>
          refine (onAction_attends used ?_).trans (ih order.2 used')
          intro h' payload' same begins
          cases same
          rw [order.1] at begins
          cases begins
      | replyErr code sequence =>
          exact (replyErr_beside l slot code sequence).attends.trans (ih (.closes order) used')
      | close => exact (close_beside l slot).attends.trans (ih (.closes order) used')

/-- Only the first action of a connection may open it. -/
theorem onActions_attends_first {opened : Bool} {actions : List ConnAction}
    (order : Opens opened actions) (used : (l.conns slot).inUse = true)
    (plain : opened = false → (l.conns slot).replica = none) :
    Attends l (actions.foldl (onAction slot) l) := by
  cases opened with
  | true => exact onActions_attends order used
  | false =>
      cases actions with
      | nil => exact .refl l
      | cons action rest =>
          have later : Opens true rest := by
            cases action with
            | frame h payload => exact order.2
            | replyErr code sequence => exact .closes order
            | close => exact .closes order
          have used' : ((onAction slot l action).conns slot).inUse = true :=
            (onAction_handled slot l action slot).inUse.trans used
          exact (onAction_attends used (fun _ _ _ _ => plain rfl)).trans
            (onActions_attends later used')

theorem onRecvLoop_attends (fuel : Nat) (sound : l.Sound lit)
    (used : (l.conns slot).inUse = true) : Attends l (onRecvLoop fuel l slot) := by
  have place (l : Loop) (conn : Conn) :
      Beside l (l.setConn slot { l.conns slot with conn := conn }) := .put rfl
  refine onRecvLoop_rounds (R := Attends) .refl Attends.trans (fun l conn => (place l conn).attends)
    (fun {l opened actions} busy order blank => ?_) fuel sound used
  refine onActions_attends_first order busy.used (fun unopened => ?_)
  rw [(blank unopened).blank]
  rfl

theorem onRecv_attends (sound : l.Sound lit) (used : (l.conns slot).inUse = true)
    (bytes : Bytes) : Attends l (onRecv l slot bytes) := by
  have made := heard_makes sound used bytes
  unfold onRecv
  simp only
  have heard : Beside l ((l.setConn slot { l.conns slot with
      conn := connRecvCommit (l.conns slot).conn bytes }).note (.heard slot bytes)) := .putNote rfl
  refine heard.attends.trans (onRecvLoop_attends _ made.sound ?_)
  change ((l.setConn slot _).conns slot).inUse = true
  rw [conns_setConn]
  exact used

theorem doRecv_attends (sound : l.Sound lit) (slot : Nat) (received : Received) :
    Attends l (doRecv l slot received) := by
  unfold doRecv
  simp only
  by_cases idle : ¬ (l.conns slot).inUse = true ∨ connRecvSpace (l.conns slot).conn = 0
  · rw [if_pos idle]
    exact .refl l
  · rw [if_neg idle]
    rw [not_or, not_not] at idle
    cases received with
    | again => exact .refl l
    | failed => exact (close_beside l slot).attends
    | data bytes =>
        simp only
        split
        · exact (close_beside l slot).attends
        · exact onRecv_attends sound idle.1 bytes

/-- A new connection holds no replica slot. -/
theorem onAccept_attends (l : Loop) (accepted : Bool) : Attends l (onAccept l accepted) := by
  unfold onAccept
  cases free : slotAlloc l with
  | none => exact .refl l
  | some slot =>
      simp only
      split
      · exact .refl l
      · have vacant : (l.conns slot).inUse = false := by
          unfold slotAlloc at free
          have idle := List.find?_some free
          simpa using idle
        have idle (idx : Nat) : ¬ l.owners.Streams slot idx := by
          intro streams
          have used : (l.conns slot).inUse = true := streams.1
          rw [vacant] at used
          cases used
        have owners : ((l.setConn slot { slotEmpty with
            inUse := true, conn := connInit LOOP_RECV_CAP .client }).note (.opened slot)).owners =
            l.owners.setConn slot ⟨true, none, none, LOOP_SEND_CAP⟩ := setConn_owners l slot _
        refine ⟨fun exact' => ?_, fun _exact other idx streams => ?_⟩
        · rw [owners]
          exact exact'.place idle rfl ⟨rfl, rfl⟩
        · rw [owners]
          have differ : other ≠ slot := fun same => idle idx (same ▸ streams)
          exact (streams_setConn_other differ).mpr streams

/-! ### The follower's stream -/

theorem replApplyFrom_owners (p : Bytes) (fuel at' : Nat) (l : Loop) :
    (replApplyFrom p fuel l at').owners = l.owners := by
  induction fuel generalizing l at' with
  | zero => rfl
  | succ fuel ih =>
      unfold replApplyFrom
      split
      · split
        · rfl
        · simp only
          split
          · rfl
          · have kept (r : WalRec) (payload : Bytes) := logAppendAt_owners l r payload
            split
            · rename_i appended
              have appended := congrArg Prod.snd appended
              simp only at appended
              rw [(closeStream_beside _).owners, ← appended, kept]
            · rename_i appended
              have appended := congrArg Prod.snd appended
              simp only at appended
              rw [ih]
              change _ = l.owners
              rw [← kept _ _, appended]
              rfl
      · rfl

theorem onStreamAction_owners (l : Loop) (action : ConnAction) :
    (onStreamAction l action).owners = l.owners := by
  unfold onStreamAction onStreamFrame
  cases action with
  | replyErr code sequence => rfl
  | close => rfl
  | frame h payload =>
      simp only
      split
      · exact replApplyFrom_owners _ _ _ l
      · split
        · rfl
        · rfl

theorem onReplRecvLoop_owners (fuel : Nat) (l : Loop) :
    (onReplRecvLoop fuel l).owners = l.owners := by
  have acts (actions : List ConnAction) (l : Loop) :
      (actions.foldl onStreamAction l).owners = l.owners := by
    induction actions generalizing l with
    | nil => rfl
    | cons action rest ih => exact (ih _).trans (onStreamAction_owners l action)
  induction fuel generalizing l with
  | zero => rfl
  | succ fuel ih =>
      unfold onReplRecvLoop
      simp only
      split
      · rfl
      · split
        · exact acts _ _
        · exact (ih _).trans (acts _ _)

theorem doReplRecv_owners (l : Loop) (received : Received) :
    (doReplRecv l received).owners = l.owners := by
  unfold doReplRecv
  split
  · rfl
  · cases received with
    | again => rfl
    | failed => rfl
    | data bytes =>
        simp only
        unfold onReplRecv
        split
        · rfl
        · exact onReplRecvLoop_owners _ _

/-! ### Events, the flush and what is served -/

theorem tickEvent_attends (sound : l.Sound lit) (event : Event) :
    Attends l (tickEvent l event) := by
  cases event with
  | listen accepted =>
      cases accepted with
      | none => exact .refl l
      | some accepted =>
          unfold tickEvent
          simp only
          split
          · exact .refl l
          · exact onAccept_attends l accepted
  | conn slot readable writable =>
      cases readable with
      | none =>
          cases writable with
          | none => exact .refl l
          | some answer => exact (doSend_beside l slot answer).attends
      | some received =>
          have received := doRecv_attends sound slot received
          cases writable with
          | none => exact received
          | some answer => exact received.trans (doSend_beside _ slot answer).attends
  | signal => exact .of_owners rfl
  | timer fired =>
      unfold tickEvent
      simp only
      split
      · exact .of_owners rfl
      · exact .refl l
  | stream connected ctl readable writable =>
      unfold tickEvent
      simp only
      split
      · exact (onReplDial_beside l connected ctl).attends
      · cases readable with
        | none =>
            cases writable with
            | none => exact .refl l
            | some answer => exact (doReplSend_beside l answer).attends
        | some received =>
            have received := Attends.of_owners (doReplRecv_owners l received)
            cases writable with
            | none => exact received
            | some answer => exact received.trans (doReplSend_beside _ answer).attends

theorem events_attend {events : List Event} (sound : l.Sound lit)
    (shown : ∀ event ∈ events, event.Shown lit) : Attends l (events.foldl tickEvent l) := by
  induction events generalizing l with
  | nil => exact .refl l
  | cons event rest ih =>
      have first := tickEvent_makes sound (shown event (List.mem_cons_self ..))
      exact (tickEvent_attends sound event).trans
        (ih first.sound (fun event inside => shown event (List.mem_cons_of_mem _ inside)))

theorem loopDispatch_attends {events : List Event} (sound : l.Sound dark)
    (shown : ∀ event ∈ events, event.Shown l.watched) : Attends l (loopDispatch l events) := by
  have clean : ({ l with walDirty := false } : Loop).Sound l.watched := { sound.watched with }
  have handled : Attends { l with walDirty := false } (loopDispatch l events) :=
    events_attend clean shown
  exact ⟨handled.exact', handled.stays⟩

theorem loopFlush_owners (l : Loop) : (loopFlush l).2.owners = l.owners := by
  unfold loopFlush
  split
  · rfl
  · exact (flushes_beside l false).owners

theorem retainPass_owners (l : Loop) : (retainPass l).owners = l.owners := by
  obtain ⟨w, os, failed, seen, counts, trace, same⟩ := retainPass_only l
  rw [same]
  rfl

theorem pushed_owners (l : Loop) : (retainPass (subsPush l)).owners = l.owners :=
  (retainPass_owners _).trans (subsPush_beside l).owners

theorem loopServe_owners (l : Loop) : (loopServe l).owners = l.owners := by
  unfold loopServe
  exact (retainPass_owners _).trans (served_beside l).owners

/-! ### The arm phase -/

/-- Nobody gets a replica slot. -/
def Gives (l l' : Loop) : Prop :=
  l.owners.Exact → l'.owners.Exact ∧
    ∀ slot idx, l'.owners.Streams slot idx → l.owners.Streams slot idx

theorem Gives.of_owners (same : l'.owners = l.owners) : Gives l l' := by
  intro exact'
  rw [same]
  exact ⟨exact', fun _ _ streams => streams⟩

theorem Gives.refl (l : Loop) : Gives l l := .of_owners rfl

theorem Gives.trans (left : Gives l l') (right : Gives l' l'') : Gives l l'' := by
  intro exact'
  obtain ⟨exact1, only1⟩ := left exact'
  obtain ⟨exact2, only2⟩ := right exact1
  exact ⟨exact2, fun slot idx streams => only1 slot idx (only2 slot idx streams)⟩

theorem Beside.gives (beside : Beside l l') : Gives l l' := .of_owners beside.owners

theorem streams_emptied {other : Nat} (streams : (o.setConn slot slotEmpty.owner).Streams other
    idx) : other ≠ slot ∧ o.Streams other idx := by
  have differ : other ≠ slot := by
    intro same
    rw [same] at streams
    exact Bool.false_ne_true (streams_setConn.mp streams).1
  exact ⟨differ, (streams_setConn_other differ).mp streams⟩

theorem slotReset_owners (l : Loop) (slot : Nat) :
    ((slotReset l slot).note (.released slot)).owners = l.owners.setConn slot slotEmpty.owner :=
  setConn_owners l slot slotEmpty

theorem slotRelease_plain (used : (l.conns slot).inUse = true)
    (plain : (l.conns slot).replica = none) :
    (slotRelease l slot).owners = l.owners.setConn slot slotEmpty.owner := by
  unfold slotRelease
  simp only
  rw [if_neg (not_not.mpr used), plain]
  cases (l.conns slot).sub.cursor.fd with
  | none => exact slotReset_owners l slot
  | some fd => exact slotReset_owners _ slot

theorem replicaRelease_owners (inside : idx < LOOP_MAX_REPLICAS) :
    (replicaRelease l idx).owners = l.owners.setPeer idx ⟨false, 0⟩ := by
  unfold replicaRelease
  rw [if_neg (Nat.not_le.mpr inside)]
  exact setPeer_owners { l with os := (walCursorClose l.os (l.peer idx).cursor).2 } idx _

theorem slotRelease_held (used : (l.conns slot).inUse = true)
    (held : (l.conns slot).replica = some idx) (inside : idx < LOOP_MAX_REPLICAS) :
    (slotRelease l slot).owners =
      (l.owners.setPeer idx ⟨false, 0⟩).setConn slot slotEmpty.owner := by
  rw [← replicaRelease_owners inside]
  unfold slotRelease
  simp only
  rw [if_neg (not_not.mpr used), held]
  cases (l.conns slot).sub.cursor.fd with
  | none => exact slotReset_owners _ slot
  | some fd => exact slotReset_owners _ slot

/-- The slot of a connection is given up with the replica slot it holds. -/
theorem slotRelease_gives (l : Loop) (slot : Nat) : Gives l (slotRelease l slot) := by
  intro exact'
  by_cases used : (l.conns slot).inUse = true
  · cases held : (l.conns slot).replica with
    | none =>
        rw [slotRelease_plain used held]
        have idle (idx : Nat) : ¬ l.owners.Streams slot idx := by
          intro streams
          have none := held.symm.trans streams.2
          cases none
        exact ⟨exact'.place idle rfl ⟨rfl, rfl⟩,
          fun other idx streams => (streams_emptied streams).2⟩
    | some idx =>
        have streams : l.owners.Streams slot idx := ⟨used, held⟩
        have inside := exact'.inside idx (exact'.live slot idx streams)
        rw [slotRelease_held used held inside]
        exact ⟨exact'.release streams, fun other idx streams => (streams_emptied streams).2⟩
  · have still : slotRelease l slot = l := by
      unfold slotRelease
      simp only
      rw [if_pos used]
    rw [still]
    exact ⟨exact', fun _ _ streams => streams⟩

theorem armConn_gives (sends : Nat → SendAnswer) (l : Loop) (slot : Nat) :
    Gives l (armConn sends l slot) := by
  unfold armConn
  split
  · exact .refl l
  · have sent : Beside l (if (l.conns slot).sendBuf ≠ [] ∧ ¬ (l.conns slot).wantOut = true then
        connSend l slot (sends slot) else l) := by
      split
      · exact connSend_beside l slot _
      · exact .refl l
    refine sent.gives.trans ?_
    generalize (if (l.conns slot).sendBuf ≠ [] ∧ ¬ (l.conns slot).wantOut = true then
      connSend l slot (sends slot) else l) = l1
    simp only
    split
    · exact slotRelease_gives l1 slot
    · have compacted : Beside l1 (l1.setConn slot { l1.conns slot with
          conn := connCompact (l1.conns slot).conn }) := .put rfl
      refine compacted.gives.trans ?_
      split
      · exact (close_beside _ slot).gives.trans (slotRelease_gives _ slot)
      · exact .refl _

theorem armPhase_gives (l : Loop) (arm : Arm) : Gives l (armPhase l arm) := by
  have conns (slots : List Nat) (l : Loop) : Gives l (slots.foldl (armConn arm.sends) l) := by
    induction slots generalizing l with
    | nil => exact .refl l
    | cons slot rest ih => exact (armConn_gives arm.sends l slot).trans (ih _)
  unfold armPhase armConns
  refine (replDial_beside l arm.dial).gives.trans
    (Gives.trans ?_ (armStream_beside _ arm.stream).gives)
  exact conns (List.range LOOP_MAX_CONNS) _

/-- Whoever held the replica slot is gone, and the slot is free. -/
theorem armPhase_frees {arm : Arm} (exact' : l.owners.Exact) (streams : l.owners.Streams slot idx)
    (gone : ((armPhase l arm).conns slot).inUse = false) : (armPhase l arm).owners.Free idx := by
  obtain ⟨exact1, only⟩ := armPhase_gives l arm exact'
  generalize armPhase l arm = l1 at exact1 only gone ⊢
  have dead : (l1.owners.peer idx).live = false := by
    by_contra live
    obtain ⟨other, holds⟩ := exact1.held idx ((Bool.not_eq_false _).mp live)
    have same := exact'.alone other slot idx (only other idx holds) streams
    rw [same] at holds
    have used := streams_used holds
    rw [gone] at used
    cases used
  have durable := exact1.dead idx dead
  unfold Owners.Free
  generalize l1.owners.peer idx = p at dead durable ⊢
  obtain ⟨live, confirmed⟩ := p
  rw [show live = false from dead, show confirmed = 0 from durable]

/-! ### Runs -/

variable {pass : Pass} {m : Loop} {fails : Nat → Prop}

theorem started_exact {config : Config} (started : Started config l) : l.owners.Exact := by
  obtain ⟨os, listing, capacity, info, w, recs, os', _opened, rfl⟩ := started
  have exact' : (loopInit w os' recs).owners.Exact := by
    refine ⟨?_, ?_, ?_, ?_, fun _ _ => ⟨rfl, rfl⟩, fun _ _ => rfl, ?_⟩
    · exact fun idx live => (Bool.false_ne_true live).elim
    · exact fun slot other idx streams => (Bool.false_ne_true streams.1).elim
    · exact fun slot idx streams => (Bool.false_ne_true streams.1).elim
    · exact fun slot idx streams => (Bool.false_ne_true streams.1).elim
    · exact fun idx live => (Bool.false_ne_true live).elim
  unfold Config.start
  split
  · exact exact'
  · exact exact'

theorem armed_owners (l : Loop) (pass : Pass) :
    (l.armed pass).owners = (armPhase (l.prepare pass) pass.arm).owners := by
  unfold Loop.armed
  generalize armPhase (l.prepare pass) pass.arm = l1
  rfl

theorem armed_gives (l : Loop) (pass : Pass) : Gives l (l.armed pass) :=
  (Gives.of_owners rfl).trans ((armPhase_gives (l.prepare pass) pass.arm).trans
    (.of_owners (armed_owners l pass)))

theorem met_attends (sound : l.Sound dark) (possible : pass.Possible l) {front back : List Event}
    (waits : pass.wait = some (front ++ back)) :
    Attends (l.armed pass) (loopDispatch (l.armed pass) front) :=
  loopDispatch_attends (armed_sound sound pass)
    (fun event inside => possible.shown waits event (List.mem_append_left _ inside))

theorem flushed_attends (sound : l.Sound dark) (possible : pass.Possible l) {events : List Event}
    {res : Except Err Unit} {l1 : Loop} (waits : pass.wait = some events)
    (flushes : loopFlush (loopDispatch (l.armed pass) events) = (res, l1)) :
    Attends (l.armed pass) l1 := by
  have flushed := loopFlush_owners (loopDispatch (l.armed pass) events)
  rw [flushes] at flushed
  have met := @met_attends l pass sound possible events [] (by rw [List.append_nil]; exact waits)
  exact met.trans (.of_owners flushed)

theorem Owners.Exact.moment (exact' : l.owners.Exact) (sound : l.Sound dark)
    (possible : pass.Possible l) (moment : Moment l pass m fails) : m.owners.Exact := by
  have armed := (armed_gives l pass exact').1
  cases moment with
  | begins => exact exact'
  | armed => exact armed
  | met waits => exact (met_attends sound possible waits).exact' armed
  | flushed waits flushes => exact (flushed_attends sound possible waits flushes).exact' armed
  | swept waits flushes =>
      exact (acksEmit_beside _).attends.exact'
        ((flushed_attends sound possible waits flushes).exact' armed)
  | streamed waits flushes =>
      have swept := (acksEmit_beside _).attends.exact'
        ((flushed_attends sound possible waits flushes).exact' armed)
      split
      · exact (streamReport_beside _).attends.exact' swept
      · exact (replStream_beside _).attends.exact' swept
  | served waits flushes =>
      rw [loopServe_owners]
      exact (flushed_attends sound possible waits flushes).exact' armed
  | rearmed waits flushes =>
      refine (armPhase_gives _ pass.rearm ?_).1
      rw [loopServe_owners]
      exact (flushed_attends sound possible waits flushes).exact' armed

/-- A loop as it is reached, with its replica slots in order. -/
def Loop.Owning (config : Config) (l : Loop) : Prop := l.Reaches config ∧ l.owners.Exact

theorem running_exact {config : Config} (running : Running config l) : l.owners.Exact := by
  have reaches : l.Owning config := by
    refine Runs.Reach.invariant ?_ ?_ running
    · exact fun l started => ⟨running_moves (.start started), started_exact started⟩
    · rintro l pass l' ⟨⟨start, phase, lit, starts, sound, moves, resting⟩, exact'⟩ _admitted
        ⟨going, possible, rfl⟩
      obtain ⟨rfl, rfl⟩ := resting going
      obtain ⟨phase', lit', sound', moves', resting'⟩ := loopPass_moves sound possible
      refine ⟨⟨start, phase', lit', starts, sound', moves.trans moves', resting'⟩, ?_⟩
      rcases loopPass_ends l pass with ⟨m, fails, moment, ended⟩ | ⟨events, l1, waits, flushes, ended⟩
      · have here := exact'.moment sound possible moment
        rw [ended]
        exact here
      · rw [ended]
        exact exact'.moment sound possible (.rearmed waits flushes)
  exact reaches.2

/-! ### A replica's connection fails -/

/-- The kernel tells that the connection has failed, or that its peer has closed it. -/
def Event.breaks (l : Loop) (slot : Nat) : Event → Prop
  | .conn other readable writable => other = slot ∧
      ((connRecvSpace (l.conns slot).conn ≠ 0 ∧
          (readable = some .failed ∨ readable = some (.data []))) ∨
        ∃ answer, writable = some answer ∧ answer.fails ∧
          ((tickEvent l (.conn slot readable none)).conns slot).sendBuf ≠ [])
  | _ => False

/-- The arm phase has something to send on the connection, and the send fails. -/
def Arm.breaks (arm : Arm) (l : Loop) (slot : Nat) : Prop :=
  (l.conns slot).sendBuf ≠ [] ∧ (l.conns slot).wantOut = false ∧ (arm.sends slot).fails

/-- The pass learns that the connection of the replica slot has failed, has been closed by
its peer, or is to be closed. -/
inductive Notices (l : Loop) (pass : Pass) (slot idx : Nat) : Prop where
  | event {front back : List Event} {event : Event}
      (waits : pass.wait = some (front ++ event :: back))
      (streams : (l.meets pass front).owners.Streams slot idx)
      (breaks : event.breaks (l.meets pass front) slot)
  | marked {m : Loop} {fails : Nat → Prop} (moment : Moment l pass m fails)
      (streams : m.owners.Streams slot idx) (marked : (m.conns slot).closing = true)
  | sends {events : List Event} {l1 : Loop} (waits : pass.wait = some events)
      (flushes : loopFlush (loopDispatch (l.armed pass) events) = (.ok (), l1))
      (streams : (loopServe l1).owners.Streams slot idx)
      (breaks : pass.rearm.breaks (loopServe l1) slot)

theorem connSend_breaks {answer : SendAnswer} (used : (l.conns slot).inUse = true)
    (fails : answer.fails) : (connSend l slot answer).ends slot := by
  unfold connSend
  simp only
  rw [if_neg fails.2]
  refine (connWantOut_handled _ slot _ _).ends ?_
  unfold loopSendDone
  simp only
  rw [if_neg (not_not.mpr (show ((l.note _).conns slot).inUse = true from used)), if_pos fails.1]
  unfold Loop.ends
  rw [conns_setConn]
  exact ⟨used, rfl⟩

theorem doSend_breaks {answer : SendAnswer} (used : (l.conns slot).inUse = true)
    (left : (l.conns slot).sendBuf ≠ []) (fails : answer.fails) :
    (doSend l slot answer).ends slot := by
  unfold doSend
  simp only
  rw [if_neg (not_not.mpr used), if_neg left]
  exact connSend_breaks used fails

theorem close_ends (used : (l.conns slot).inUse = true) : (l.close slot).ends slot := by
  unfold Loop.ends Loop.close
  rw [conns_setConn]
  exact ⟨used, rfl⟩

theorem doRecv_used (l : Loop) (slot : Nat) (received : Received) :
    ((doRecv l slot received).conns slot).inUse = (l.conns slot).inUse := by
  have closed : ((l.close slot).conns slot).inUse = (l.conns slot).inUse := by
    unfold Loop.close
    rw [conns_setConn]
  unfold doRecv
  simp only
  split
  · rfl
  · cases received with
    | again => rfl
    | failed => exact closed
    | data bytes =>
        simp only
        split
        · exact closed
        · exact onRecv_used l slot bytes

/-- The connection is marked in the event that tells of it. -/
theorem Event.breaks.ends {event : Event} (used : (l.conns slot).inUse = true)
    (breaks : event.breaks l slot) : (tickEvent l event).ends slot := by
  cases event with
  | conn other readable writable =>
      obtain ⟨rfl, ⟨space, lost⟩ | ⟨answer, rfl, fails, left⟩⟩ := breaks
      · have received : (tickEvent l (.conn other readable none)).ends other := by
          have idle : ¬ (¬ (l.conns other).inUse = true ∨ connRecvSpace (l.conns other).conn = 0) := by
            rw [not_or, not_not]
            exact ⟨used, space⟩
          rcases lost with rfl | rfl
          · change (doRecv l other .failed).ends other
            unfold doRecv
            simp only
            rw [if_neg idle]
            exact close_ends used
          · change (doRecv l other (.data [])).ends other
            unfold doRecv
            simp only
            rw [if_neg idle]
            exact close_ends used
        cases writable with
        | none => exact received
        | some answer => exact (doSend_handled _ other answer).ends received
      · have still : ((tickEvent l (.conn other readable none)).conns other).inUse = true := by
          cases readable with
          | none => exact used
          | some received => exact (doRecv_used l other received).trans used
        exact doSend_breaks still left fails
  | listen accepted => exact breaks.elim
  | signal => exact breaks.elim
  | timer fired => exact breaks.elim
  | stream connected ctl readable writable => exact breaks.elim

theorem Arm.breaks.gone {arm : Arm} (inside : slot < LOOP_MAX_CONNS)
    (used : (l.conns slot).inUse = true) (breaks : arm.breaks l slot) :
    ((armPhase l arm).conns slot).inUse = false := by
  have settles (l : Loop) (broken : (l.conns slot).inUse = true ∧ (l.conns slot).sendBuf ≠ [] ∧
      (l.conns slot).wantOut = false) : ((armConn arm.sends l slot).conns slot).inUse = false := by
    obtain ⟨used, left, unwatched⟩ := broken
    unfold armConn
    rw [if_neg (not_not.mpr used)]
    simp only
    have sends : (if (l.conns slot).sendBuf ≠ [] ∧ ¬ (l.conns slot).wantOut = true then
        connSend l slot (arm.sends slot) else l) = connSend l slot (arm.sends slot) :=
      if_pos ⟨left, by rw [unwatched]; exact Bool.false_ne_true⟩
    have sent := connSend_breaks used breaks.2.2
    rw [sends, if_pos sent.2, slotRelease_conns _ slot sent.1]
    exact congrArg LoopConn.inUse (if_pos rfl)
  unfold armPhase armConns
  rw [armStream_conns]
  refine armConns_settle (P := fun c => c.inUse = true ∧ c.sendBuf ≠ [] ∧ c.wantOut = false)
    settles (List.mem_range.mpr inside) ?_
  rw [replDial_conns]
  exact ⟨used, breaks.1, breaks.2.1⟩

/-- A connection that streams and is marked. -/
def Loop.Leaving (l : Loop) (slot idx : Nat) : Prop :=
  l.owners.Streams slot idx ∧ (l.conns slot).closing = true

theorem Loop.Leaving.ends (leaving : l.Leaving slot idx) : l.ends slot :=
  ⟨leaving.1.1, leaving.2⟩

theorem Loop.Leaving.beside (leaving : l.Leaving slot idx) (same : l'.owners = l.owners)
    (handled : Handled l l') : l'.Leaving slot idx := by
  refine ⟨?_, (handled.ends leaving.ends).2⟩
  rw [same]
  exact leaving.1

theorem served_leaving (leaving : l.Leaving slot idx) : (loopServe l).Leaving slot idx :=
  leaving.beside (loopServe_owners l) (loopServe_handled l)

/-- The events that are left do not lose it. -/
theorem events_leaving (exact' : l.owners.Exact) (sound : l.Sound dark)
    (possible : pass.Possible l) {front back : List Event}
    (waits : pass.wait = some (front ++ back))
    (leaving : (loopDispatch (l.armed pass) front).Leaving slot idx) :
    (loopDispatch (l.armed pass) (front ++ back)).Leaving slot idx := by
  have shown := possible.shown waits
  have sound1 := (loopDispatch_moves (armed_sound sound pass)
    (fun event inside => shown event (List.mem_append_left back inside))).1
  have exact1 := exact'.moment sound possible (.met waits)
  have whole : loopDispatch (l.armed pass) (front ++ back) =
      back.foldl tickEvent (loopDispatch (l.armed pass) front) := by
    unfold loopDispatch
    rw [List.foldl_append]
  rw [whole]
  generalize loopDispatch (l.armed pass) front = l1 at leaving sound1 exact1 ⊢
  have attends := events_attend sound1 (fun event inside => shown event
    (List.mem_append_right front inside))
  refine ⟨attends.stays exact1 slot idx leaving.1, ?_⟩
  exact (events_ended back leaving.ends).2

/-- What is marked at any moment of a completed pass is served marked. -/
theorem moment_leaving (exact' : l.owners.Exact) (sound : l.Sound dark) (rests : l.Rests)
    (possible : pass.Possible l) (moment : Moment l pass m fails) (leaving : m.Leaving slot idx)
    {events : List Event} {l1 : Loop} (waits : pass.wait = some events)
    (flushes : loopFlush (loopDispatch (l.armed pass) events) = (.ok (), l1)) :
    (loopServe l1).Leaving slot idx := by
  have flushed (met : (loopDispatch (l.armed pass) events).Leaving slot idx) :
      l1.Leaving slot idx := by
    have owners := loopFlush_owners (loopDispatch (l.armed pass) events)
    have conns := loopFlush_conns (loopDispatch (l.armed pass) events)
    rw [flushes] at owners conns
    exact met.beside owners (.of_conns conns)
  have same {events' : List Event} {res : Except Err Unit} {l1' : Loop}
      (waits' : pass.wait = some events')
      (flushes' : loopFlush (loopDispatch (l.armed pass) events') = (res, l1')) : l1' = l1 := by
    rw [waits] at waits'
    cases waits'
    rw [flushes] at flushes'
    cases flushes'
    rfl
  -- No connection is marked when an arm phase is done.
  have settled {l : Loop} {arm : Arm} {lit : Nat → Bool} (sound : (armPhase l arm).Sound lit)
      (leaving : (armPhase l arm).Leaving slot idx) : False := by
    have used : ((armPhase l arm).conns slot).inUse = true := leaving.ends.1
    have stays := armPhase_stays (sound.inside slot used) used
    rw [leaving.2] at stays
    cases stays
  cases moment with
  | begins =>
      have stays := (rests slot).2
      rw [leaving.2] at stays
      cases stays
  | armed =>
      have conns : (l.armed pass).conns = (armPhase (l.prepare pass) pass.arm).conns := by
        unfold Loop.armed
        generalize armPhase (l.prepare pass) pass.arm = l2
        rfl
      have prepared : Serves .arming dark l (l.prepare pass) :=
        serves_aside sound rfl rfl rfl rfl rfl
      have armed := leaving.beside (armed_owners l pass).symm (.of_conns conns.symm)
      exact (settled (armPhase_makes prepared.sound pass.arm).sound armed).elim
  | met waits' =>
      rw [waits] at waits'
      cases waits'
      exact served_leaving (flushed (events_leaving exact' sound possible waits leaving))
  | flushed waits' flushes' =>
      rw [same waits' flushes'] at leaving
      exact served_leaving leaving
  | swept waits' flushes' =>
      rw [same waits' flushes'] at leaving
      refine leaving.beside ?_ ((streamed_handled _).trans (pushed_handled _))
      exact (loopServe_owners l1).trans (acksEmit_beside l1).owners.symm
  | streamed waits' flushes' =>
      rw [same waits' flushes'] at leaving
      unfold loopServe
      simp only
      generalize (if (acksEmit l1).isFollower = true then streamReport (acksEmit l1)
        else replStream (acksEmit l1)) = l2 at leaving ⊢
      exact leaving.beside (pushed_owners l2) (pushed_handled l2)
  | served waits' flushes' =>
      rw [same waits' flushes'] at leaving
      exact leaving
  | rearmed waits' flushes' =>
      rw [same waits' flushes'] at leaving
      obtain ⟨phase, lit, sound', _moves, _resting⟩ := loopPass_moves sound possible
      have ended : loopPass l pass = armPhase (loopServe l1) pass.rearm := by
        unfold loopPass
        rw [loopTick_eq, waits]
        simp only
        rw [flushes]
      rw [ended] at sound'
      exact (settled sound' leaving).elim

/-- A connection that breaks is marked by the event, and still streams. -/
theorem Event.breaks.leaving (exact' : l.owners.Exact) (sound : l.Sound dark)
    (possible : pass.Possible l) {front back : List Event} {event : Event}
    (waits : pass.wait = some (front ++ event :: back))
    (streams : (l.meets pass front).owners.Streams slot idx)
    (breaks : event.breaks (l.meets pass front) slot) :
    (loopDispatch (l.armed pass) (front ++ [event])).Leaving slot idx := by
  have met := met_sound sound possible waits
  have shown := possible.shown waits event (List.mem_append_right front (List.mem_cons_self ..))
  have exact1 := exact'.moment sound possible (.met waits)
  have last : loopDispatch (l.armed pass) (front ++ [event]) =
      tickEvent (loopDispatch (l.armed pass) front) event := by
    unfold loopDispatch
    rw [List.foldl_append]
    rfl
  rw [last]
  have here : l.meets pass front = loopDispatch (l.armed pass) front := rfl
  rw [here] at streams breaks
  generalize loopDispatch (l.armed pass) front = l1 at *
  exact ⟨(tickEvent_attends met event).stays exact1 slot idx streams, (breaks.ends streams.1).2⟩

/-- Whose connection a completed pass finds broken leaves the replica slot free. -/
theorem Notices.frees (exact' : l.owners.Exact) (sound : l.Sound dark) (rests : l.Rests)
    (possible : pass.Possible l) (notices : Notices l pass slot idx)
    (served : (loopTick l pass).1 = .ok ()) : (loopTick l pass).2.owners.Free idx := by
  obtain ⟨events, l1, waits, flushes, ended⟩ := loopTick_ends served
  rw [ended]
  have exact1 := exact'.moment sound possible (.served waits flushes)
  have sound1 := served_sound sound possible waits flushes
  have leaves (leaving : (loopServe l1).Leaving slot idx) :
      (armPhase (loopServe l1) pass.rearm).owners.Free idx :=
    armPhase_frees exact1 leaving.1
      (armPhase_releases pass.rearm (sound1.inside slot leaving.ends.1) leaving.ends)
  cases notices with
  | marked moment streams marked =>
      exact leaves
        (moment_leaving exact' sound rests possible moment ⟨streams, marked⟩ waits flushes)
  | sends waits' flushes' streams breaks =>
      rw [waits] at waits'
      cases waits'
      rw [flushes] at flushes'
      cases flushes'
      have used := streams_used streams
      exact armPhase_frees exact1 streams (breaks.gone (sound1.inside slot used) used)
  | @event front back event waits' streams breaks =>
      have leaving := breaks.leaving exact' sound possible waits' streams
      have parts : pass.wait = some ((front ++ [event]) ++ back) := by
        rw [List.append_assoc]
        exact waits'
      exact leaves
        (moment_leaving exact' sound rests possible (.met parts) leaving waits flushes)

/-- **In every state of every run each live replica slot is held by one connection, which
sends from that slot's area; and it is free at the end of the arm phase of the pass that
finds the connection failed, closed by its peer or to be closed.** -/
theorem replicas_owned {config : Config} (running : Running config l) :
    l.owners.Exact ∧ (l.stop = false → ∀ pass : Pass, pass.Possible l →
      (∀ m fails, Moment l pass m fails → m.owners.Exact) ∧
      (∀ slot idx, l.owners.Streams slot idx → pass.arm.breaks l slot →
        (l.armed pass).owners.Free idx) ∧
      ∀ slot idx, Notices l pass slot idx → (loopTick l pass).1 = .ok () →
        (loopTick l pass).2.owners.Free idx) := by
  have exact' := running_exact running
  refine ⟨exact', fun going pass possible => ?_⟩
  have sound := running_sound running going
  have rests := running_rests running going
  refine ⟨fun m fails moment => exact'.moment sound possible moment, ?_, ?_⟩
  · intro slot idx streams breaks
    have used := streams_used streams
    have gone : ((armPhase (l.prepare pass) pass.arm).conns slot).inUse = false :=
      Arm.breaks.gone (sound.inside slot used) used breaks
    rw [show (l.armed pass).owners.Free idx =
      (armPhase (l.prepare pass) pass.arm).owners.Free idx by rw [armed_owners]]
    exact armPhase_frees exact' streams gone
  · exact fun slot idx notices served => notices.frees exact' sound rests possible served

/-- A client is accepted, and its opening frame starts a replica's stream. -/
def streamed : Loop := (leaderAlone.fresh 120).after
  [calmPass [7] [.listen (some true)],
    calmPass [7] [arrives 0 (requestBytes MSG_OP_REPL_START 0 0 1 [])]]

set_option maxRecDepth 8000 in
/-- The replica hangs up. -/
theorem replicas_owned_hungUp : streamed.owners.Streams 0 0 ∧
    (loopTick streamed (calmPass [7] [.conn 0 (some (.data [])) none])).2.owners.Free 0 := by
  have running : Running leaderAlone streamed :=
    after_running (fresh_running leaderAlone (by decide +kernel)) _
  have streams : streamed.owners.Streams 0 0 := by
    unfold Owners.Streams
    decide +kernel
  refine ⟨streams, ((replicas_owned running).2 (by decide +kernel) _
    (quiet_possible (by decide +kernel) _)).2.2 0 0 ?_ (by decide +kernel)⟩
  refine @Notices.event streamed _ 0 0 [] [] (.conn 0 (some (.data [])) none) rfl ?_ ⟨rfl, .inl ?_⟩
  · unfold Owners.Streams
    decide +kernel
  · decide +kernel

end Msgsrvd

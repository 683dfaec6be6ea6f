/-
The moves a frame and an event make.
-/

import Msgsrvd.Server.Refines

namespace Msgsrvd

open Bytestring

variable {phase : Phase} {lit : Nat → Bool} {l l' : Loop} {slot : Nat}

/-! ### Subscriptions and reads -/

/-- A step that leaves everything alone but a connection off its framing. -/
structure Touches (slot : Nat) (l l' : Loop) : Prop where
  wal : l'.wal = l.wal
  follower : l'.isFollower = l.isFollower
  stream : l'.stream = l.stream
  conns : ∃ c, (l.conns slot).SameFraming c ∧ l'.conns = (l.setConn slot c).conns

theorem Touches.serves (touches : Touches slot l l') (sound : l.Sound lit)
    (busy : (l.conns slot).Busy) (moves : Moves (l.desk phase lit) (l'.desk phase lit)) :
    Serves phase lit l l' :=
  serves_owing sound busy ((congrArg Wal.Sound touches.wal).mpr sound.wal) touches.follower
    touches.stream touches.conns moves

theorem Touches.trans {l'' : Loop} (left : Touches slot l l') (right : Touches slot l' l'') :
    Touches slot l l'' where
  wal := right.wal.trans left.wal
  follower := right.follower.trans left.follower
  stream := right.stream.trans left.stream
  conns := by
    obtain ⟨c, same, conns⟩ := left.conns
    obtain ⟨c', same', conns'⟩ := right.conns
    have middle : l'.conns slot = c := by
      rw [conns]
      exact conns_setConn l slot c
    rw [middle] at same'
    refine ⟨c', ⟨same'.conn.trans same.conn, same'.inUse.trans same.inUse⟩, ?_⟩
    rw [conns']
    funext other
    unfold Loop.setConn
    by_cases at_slot : other = slot
    · simp only [if_pos at_slot]
    · simp only [if_neg at_slot, conns]
      exact conns_setConn_other l c at_slot

theorem setSub_touches (l : Loop) (slot : Nat) (sub : LoopSub) :
    Touches slot l (l.setSub slot sub) :=
  ⟨rfl, rfl, rfl, { l.conns slot with sub := sub }, ⟨rfl, rfl⟩, rfl⟩

theorem reply_touches (l : Loop) (slot : Nat) (frame : Frame) :
    Touches slot l (replyFrame l slot frame).2 := by
  obtain ⟨wal, follower, stream, conns⟩ := replyFrame_frame l slot frame
  exact ⟨wal, follower, stream, conns⟩

theorem note_touches {l' : Loop} (touches : Touches slot l l') (note : Note) :
    Touches slot l (l'.note note) :=
  ⟨touches.wal, touches.follower, touches.stream, touches.conns⟩

theorem stageIf_setSub (d : Desk) (sent : Bool) (slot : Nat) (frame : Frame) (sub : LoopSub) :
    (d.stageIf sent slot frame).setSub slot sub = (d.setSub slot sub).stageIf sent slot frame := by
  unfold Desk.stageIf
  split
  · unfold Desk.stage Desk.setSub Desk.setParty Desk.note
    simp only [if_true]
    congr 1
    funext other
    by_cases same : other = slot
    · simp only [if_pos same]
    · simp only [if_neg same]
  · rfl

theorem os_serves (sound : l.Sound lit) (os : Os) : Serves phase lit l { l with os := os } :=
  serves_aside sound rfl rfl rfl rfl rfl

theorem armTimerNow_serves (sound : l.Sound lit) : Serves phase lit l (armTimerNow l) := by
  unfold armTimerNow
  split
  · exact .refl sound
  · exact serves_aside sound rfl rfl rfl rfl rfl

/-- Between two streams the subscription may be set up freely. -/
theorem tune_serves (sound : l.Sound lit) (busy : (l.conns slot).Busy) {sub : LoopSub}
    (before : (l.conns slot).sub.Idle) (after : sub.Idle) :
    Serves .dispatching lit l (l.setSub slot sub) :=
  setSub_serves sound busy
    (Relation.ReflTransGen.single
      (@Move.tuned (l.desk .dispatching lit) slot sub rfl busy.used before after))

/-- The log is looked at, and only the cursor moves. -/
structure Sought (lit : Nat → Bool) (slot : Nat) (l l' : Loop) : Prop where
  serves : Serves .dispatching lit l l'
  trace : l'.trace = l.trace
  wal : l'.wal = l.wal
  tick : l'.tick = l.tick
  sub : ∃ cursor, (l'.conns slot).sub = { (l.conns slot).sub with cursor := cursor }

theorem subSeek_sought (sound : l.Sound lit) (busy : (l.conns slot).Busy)
    (idle : (l.conns slot).sub.Idle) (fromSeq : Nat) :
    Sought lit slot l (subSeek l slot fromSeq).2 := by
  unfold subSeek
  split
  rename_i cursor os _
  have moved : Serves .dispatching lit l { l with os := os } := os_serves sound os
  have tuned : Serves .dispatching lit { l with os := os }
      ({ l with os := os }.setSub slot { (l.conns slot).sub with cursor := cursor }) :=
    tune_serves moved.sound (moved.busy busy) idle idle
  refine ⟨moved.trans tuned, rfl, rfl, rfl, cursor, ?_⟩
  unfold Loop.setSub
  rw [conns_setConn]

/-- The newest note is of this request. -/
def Loop.Asking (l : Loop) (slot op minSeq : Nat) (known : Bool) : Prop :=
  l.trace.head? = some (.asked slot op minSeq (walDurableSeq l.wal) known)

theorem Sought.asking {op minSeq : Nat} {known : Bool} (sought : Sought lit slot l l')
    (asking : l.Asking slot op minSeq known) : l'.Asking slot op minSeq known := by
  unfold Loop.Asking
  rw [sought.trace, sought.wal]
  exact asking

theorem Sought.idle (sought : Sought lit slot l l') (idle : (l.conns slot).sub.Idle) :
    (l'.conns slot).sub.Idle := by
  obtain ⟨cursor, sub⟩ := sought.sub
  rw [sub]
  exact idle

theorem asked_serves (sound : l.Sound lit) (busy : (l.conns slot).Busy)
    (idle : (l.conns slot).sub.Idle) (op minSeq : Nat) (known : Bool) :
    Serves .dispatching lit l (l.note (.asked slot op minSeq (walDurableSeq l.wal) known)) :=
  note_serves sound (@Move.asked (l.desk .dispatching lit) slot op minSeq known rfl busy.used idle)

theorem subWait_serves (sound : l.Sound lit) (busy : (l.conns slot).Busy)
    (idle : (l.conns slot).sub.Idle) {op : Nat} {known : Bool}
    (asking : l.Asking slot op (l.conns slot).sub.minSeq known)
    (read : op = MSG_OP_READ → (l.conns slot).sub.once = true) :
    Serves .dispatching lit l (subWait l slot) := by
  unfold subWait
  have held : Serves .dispatching lit l (l.setSub slot
      { (l.conns slot).sub with
        waiting := true, deadline := u32Add l.tick LOOP_SUB_DEADLINE_TICKS }) :=
    setSub_serves sound busy (Relation.ReflTransGen.single
      (@Move.held (l.desk .dispatching lit) slot op _ known rfl busy.used idle idle.1 rfl
        asking read rfl))
  exact held.trans (armTimerNow_serves held.sound)

theorem subStart_serves (sound : l.Sound lit) (busy : (l.conns slot).Busy)
    (idle : (l.conns slot).sub.Idle) (sequence : Nat) {op : Nat} {known : Bool}
    (asking : l.Asking slot op (l.conns slot).sub.minSeq known)
    (starts : (l.desk .dispatching lit).Starts op
      { (l.conns slot).sub with active := true } known) :
    Serves .dispatching lit l (subStart l slot sequence) := by
  generalize running : ({ (l.conns slot).sub with active := true } : LoopSub) = sub at starts
  have waiting : sub.waiting = false := by
    rw [← running]
    exact idle.2
  have active : sub.active = true := by
    rw [← running]
  have minSeq : sub.minSeq = (l.conns slot).sub.minSeq := by
    rw [← running]
  have here : ((l.setSub slot sub).conns slot).sub = sub := by
    unfold Loop.setSub
    rw [conns_setConn]
  have shape : subStart l slot sequence =
      (replyFrame (l.setSub slot sub) slot (emptyAck sequence)).2.note
        (.began slot sub (walDurableSeq l.wal)) := by
    have durable : walDurableSeq (replyFrame (l.setSub slot sub) slot (emptyAck sequence)).2.wal =
        walDurableSeq l.wal := by
      rw [(reply_touches (l.setSub slot sub) slot (emptyAck sequence)).wal]
      rfl
    unfold subStart subAnswer
    rw [running, here]
    rfl
  rw [shape]
  have touches := note_touches ((setSub_touches l slot sub).trans
    (reply_touches (l.setSub slot sub) slot (emptyAck sequence)))
    (.began slot sub (walDurableSeq l.wal))
  refine touches.serves sound busy ?_
  have move := @Move.began (l.desk .dispatching lit) slot op sequence sub known
    (replyFrame (l.setSub slot sub) slot (emptyAck sequence)).1 rfl busy.used idle active waiting
    (by rw [minSeq]; exact asking) starts
  rw [stageIf_setSub, ← desk_setSub, ← replyFrame_desk] at move
  exact Relation.ReflTransGen.single move

theorem handleSubscribe_serves (sound : l.Sound lit) (busy : (l.conns slot).Busy) (h : MsgHeader)
    (payload : Bytes) : Serves .dispatching lit l (handleSubscribe l slot h payload) := by
  unfold handleSubscribe
  cases msgDecodeSubscribe payload with
  | none => exact replyErr_close_serves sound busy _ _
  | some req =>
      simp only
      by_cases taken : (l.conns slot).sub.active = true ∨ (l.conns slot).sub.waiting = true
      · rw [if_pos taken]
        exact replyErr_serves sound busy _ _
      · rw [if_neg taken]
        have idle : (l.conns slot).sub.Idle := by
          rw [not_or, Bool.not_eq_true, Bool.not_eq_true] at taken
          exact taken
        have asked := asked_serves sound busy idle MSG_OP_SUBSCRIBE req.minSeq true
        have asking : (l.note (.asked slot MSG_OP_SUBSCRIBE req.minSeq (walDurableSeq l.wal)
            true)).Asking slot MSG_OP_SUBSCRIBE req.minSeq true := rfl
        have idle0 : ((l.note (.asked slot MSG_OP_SUBSCRIBE req.minSeq (walDurableSeq l.wal)
            true)).conns slot).sub.Idle := idle
        have busy0 := asked.busy busy
        refine asked.trans ?_
        have sound0 := asked.sound
        generalize l.note (.asked slot MSG_OP_SUBSCRIBE req.minSeq (walDurableSeq l.wal)
          true) = l0 at asking idle0 busy0 sound0 ⊢
        generalize (ite (hasFlag h.flags MSG_FLAG_ALL_KEYS = true) _ _ : Nat) = fromSeq
        have sought := subSeek_sought sound0 busy0 idle0 fromSeq
        cases seeks : subSeek l0 slot fromSeq with
        | mk res l1 =>
            rw [seeks] at sought
            have busy1 := sought.serves.busy busy0
            have idle1 := sought.idle idle0
            have asking1 := sought.asking asking
            have sound1 := sought.serves.sound
            refine sought.serves.trans ?_
            cases res with
            | error e => exact replyErr_serves sound1 busy1 _ _
            | ok done =>
                simp only
                generalize tuning : ({ (l1.conns slot).sub with
                    key := h.partitionKey
                    allKeys := hasFlag h.flags MSG_FLAG_ALL_KEYS
                    minSeq := req.minSeq } : LoopSub) = sub
                have idle2 : sub.Idle := by
                  rw [← tuning]
                  exact idle1
                have minSeq : sub.minSeq = req.minSeq := by
                  rw [← tuning]
                have tuned := tune_serves sound1 busy1 idle1 idle2
                have here : ((l1.setSub slot sub).conns slot).sub = sub := by
                  unfold Loop.setSub
                  rw [conns_setConn]
                have asking2 : (l1.setSub slot sub).Asking slot MSG_OP_SUBSCRIBE
                    ((l1.setSub slot sub).conns slot).sub.minSeq true := by
                  rw [here, minSeq]
                  exact asking1
                refine tuned.trans ?_
                split
                · exact subWait_serves tuned.sound (tuned.busy busy1) (by rw [here]; exact idle2)
                    asking2 (fun other => by cases other)
                · rename_i reached
                  refine subStart_serves tuned.sound (tuned.busy busy1)
                    (by rw [here]; exact idle2) _ asking2 ?_
                  rw [here]
                  refine Or.inl ⟨rfl, ?_, fun other => by cases other⟩
                  rw [show ({ sub with active := true } : LoopSub).minSeq = req.minSeq from minSeq]
                  exact Nat.le_of_not_lt reached

theorem readFrom_serves (sound : l.Sound lit) (busy : (l.conns slot).Busy) (h : MsgHeader)
    {minSeq : Nat} (fromSeq : Nat) {untilSeq : Nat} (idle : (l.conns slot).sub.Idle)
    (once : (l.conns slot).sub.once = true) (same : (l.conns slot).sub.minSeq = minSeq)
    (asking : l.Asking slot MSG_OP_READ minSeq true) (below : untilSeq ≤ walDurableSeq l.wal) :
    Serves .dispatching lit l (readFrom l slot h minSeq fromSeq untilSeq) := by
  unfold readFrom
  simp only
  generalize tuning : ({ (l.conns slot).sub with untilSeq := untilSeq } : LoopSub) = sub
  have idle0 : sub.Idle := by
    rw [← tuning]
    exact idle
  have tuned := tune_serves sound busy idle idle0
  have here : ((l.setSub slot sub).conns slot).sub = sub := by
    unfold Loop.setSub
    rw [conns_setConn]
  have asking0 : (l.setSub slot sub).Asking slot MSG_OP_READ minSeq true := asking
  have busy0 := tuned.busy busy
  refine tuned.trans ?_
  have sought := subSeek_sought tuned.sound busy0 (by rw [here]; exact idle0) fromSeq
  cases seeks : subSeek (l.setSub slot sub) slot fromSeq with
  | mk res l1 =>
      rw [seeks] at sought
      have busy1 := sought.serves.busy busy0
      have sound1 := sought.serves.sound
      have idle1 := sought.idle (by rw [here]; exact idle0)
      have asking1 := sought.asking asking0
      have wal : l1.wal = l.wal := sought.wal
      obtain ⟨cursor, kept⟩ := sought.sub
      rw [here, ← tuning] at kept
      have minSeq1 : (l1.conns slot).sub.minSeq = minSeq := by
        rw [kept]
        exact same
      have once1 : (l1.conns slot).sub.once = true := by
        rw [kept]
        exact once
      have until1 : (l1.conns slot).sub.untilSeq = untilSeq := by
        rw [kept]
      rw [← minSeq1] at asking1
      refine sought.serves.trans ?_
      cases res with
      | error e => exact replyErr_serves sound1 busy1 _ _
      | ok done =>
          simp only
          split
          · exact subWait_serves sound1 busy1 idle1 asking1 (fun _ => once1)
          · rename_i reached
            refine subStart_serves sound1 busy1 idle1 _ asking1 (Or.inl ⟨rfl, ?_, fun _ => ?_⟩)
            · change (l1.conns slot).sub.minSeq ≤ walDurableSeq l1.wal
              rw [minSeq1, wal]
              omega
            · refine ⟨once1, ?_⟩
              change (l1.conns slot).sub.minSeq ≤ (l1.conns slot).sub.untilSeq
              rw [minSeq1, until1]
              omega

theorem walIndexRange_none {ix : WalIndex} {key fromSeq : Nat}
    (absent : walIndexRange ix key fromSeq = none) : ∀ k ∈ ix.keys, k.key ≠ key := by
  unfold walIndexRange at absent
  split at absent
  · cases absent
  · rename_i none
    intro k present same
    exact List.find?_eq_none.mp none k present (decide_eq_true same)

theorem handleRead_serves (sound : l.Sound lit) (busy : (l.conns slot).Busy) (h : MsgHeader)
    (payload : Bytes) : Serves .dispatching lit l (handleRead l slot h payload) := by
  unfold handleRead
  cases msgDecodeRead payload with
  | none => exact replyErr_close_serves sound busy _ _
  | some minSeq =>
      simp only
      by_cases taken : (l.conns slot).sub.active = true ∨ (l.conns slot).sub.waiting = true
      · rw [if_pos taken]
        exact replyErr_serves sound busy _ _
      · rw [if_neg taken]
        have idle : (l.conns slot).sub.Idle := by
          rw [not_or, Bool.not_eq_true, Bool.not_eq_true] at taken
          exact taken
        generalize knows : (hasFlag h.flags MSG_FLAG_ALL_KEYS ||
          (walIndexRange l.wal.index h.partitionKey (walFirstSeq l.wal)).isSome ||
          !walIndexComplete l.wal.index) = known
        have asked := asked_serves sound busy idle MSG_OP_READ minSeq known
        refine asked.trans ?_
        have busy0 := asked.busy busy
        have asking : (l.note (.asked slot MSG_OP_READ minSeq (walDurableSeq l.wal)
            known)).Asking slot MSG_OP_READ minSeq known := rfl
        have sound0 := asked.sound
        have idle0 : ((l.note (.asked slot MSG_OP_READ minSeq (walDurableSeq l.wal)
            known)).conns slot).sub.Idle := idle
        have wal0 : (l.note (.asked slot MSG_OP_READ minSeq (walDurableSeq l.wal) known)).wal =
          l.wal := rfl
        have sub0 : ((l.note (.asked slot MSG_OP_READ minSeq (walDurableSeq l.wal) known)).conns
          slot).sub = (l.conns slot).sub := rfl
        generalize l.note (.asked slot MSG_OP_READ minSeq (walDurableSeq l.wal) known) = l0
          at asking idle0 busy0 sound0 wal0 sub0 ⊢
        generalize tuning : ({ (l.conns slot).sub with
            key := h.partitionKey
            allKeys := hasFlag h.flags MSG_FLAG_ALL_KEYS
            minSeq := minSeq
            once := true
            untilSeq := walDurableSeq l.wal } : LoopSub) = sub
        have idle1 : sub.Idle := by
          rw [← tuning]
          exact idle
        have minSeq1 : sub.minSeq = minSeq := by
          rw [← tuning]
        have once1 : sub.once = true := by
          rw [← tuning]
        have tuned := tune_serves sound0 busy0 idle0 idle1
        have here : ((l0.setSub slot sub).conns slot).sub = sub := by
          unfold Loop.setSub
          rw [conns_setConn]
        have asking1 : (l0.setSub slot sub).Asking slot MSG_OP_READ minSeq known := asking
        have busy1 := tuned.busy busy0
        have wal1 : (l0.setSub slot sub).wal = l.wal := wal0
        have allKeys1 : sub.allKeys = hasFlag h.flags MSG_FLAG_ALL_KEYS := by
          rw [← tuning]
        have key1 : sub.key = h.partitionKey := by
          rw [← tuning]
        have sound1 := tuned.sound
        refine tuned.trans ?_
        -- Every way but the shortcut is a read of a key that may be there.
        have reads (fromSeq untilSeq : Nat) (may : known = true)
            (below : untilSeq ≤ walDurableSeq l.wal) :
            Serves .dispatching lit (l0.setSub slot sub)
              (readFrom (l0.setSub slot sub) slot h minSeq fromSeq untilSeq) := by
          rw [may] at asking1
          refine readFrom_serves sound1 busy1 h fromSeq ?_ ?_ ?_ asking1 ?_
          · rw [here]
            exact idle1
          · rw [here]
            exact once1
          · rw [here]
            exact minSeq1
          · rw [wal1]
            exact below
        by_cases all : hasFlag h.flags MSG_FLAG_ALL_KEYS = true
        · rw [if_pos all]
          refine reads _ _ ?_ (Nat.le_refl _)
          rw [← knows, all]
          rfl
        · rw [if_neg all]
          rw [wal1]
          cases range : walIndexRange l.wal.index h.partitionKey (walFirstSeq l.wal) with
          | some bounds =>
              obtain ⟨keyFrom, keyLast⟩ := bounds
              refine reads _ _ ?_ ?_
              · rw [← knows, range, Option.isSome_some, Bool.or_true, Bool.true_or]
              · split
                · omega
                · exact Nat.le_refl _
          | none =>
              simp only
              by_cases complete : walIndexComplete l.wal.index = true
              · rw [if_pos complete]
                have unknown : known = false := by
                  rw [Bool.not_eq_true] at all
                  rw [← knows, all, range, complete]
                  rfl
                rw [here]
                generalize ending : ({ sub with
                  untilSeq := 0, cursor := { sub.cursor with nextSeq := 1 } } : LoopSub) = sub2
                have idle2 : sub2.Idle := by
                  rw [← ending]
                  exact idle1
                have ended : Serves .dispatching lit (l0.setSub slot sub)
                    ((l0.setSub slot sub).setSub slot sub2) :=
                  tune_serves sound1 busy1 (by rw [here]; exact idle1) idle2
                have here2 : (((l0.setSub slot sub).setSub slot sub2).conns slot).sub = sub2 := by
                  unfold Loop.setSub
                  rw [conns_setConn]
                have asking2 : ((l0.setSub slot sub).setSub slot sub2).Asking slot MSG_OP_READ
                    (((l0.setSub slot sub).setSub slot sub2).conns slot).sub.minSeq known := by
                  rw [here2, ← ending]
                  change _ = some (Note.asked slot MSG_OP_READ sub.minSeq _ known)
                  rw [minSeq1]
                  exact asking1
                refine ended.trans (subStart_serves ended.sound (ended.busy busy1)
                  (by rw [here2]; exact idle2) 0 asking2 ?_)
                rw [here2, unknown, ← ending]
                refine Or.inr ⟨rfl, rfl, once1, rfl, rfl, ?_, ?_, ?_⟩
                · rw [Bool.not_eq_true] at all
                  exact allKeys1.trans all
                · change walIndexComplete ((l0.setSub slot sub).setSub slot sub2).wal.index = true
                  rw [show ((l0.setSub slot sub).setSub slot sub2).wal = l.wal from wal1]
                  exact complete
                · change ∀ k ∈ ((l0.setSub slot sub).setSub slot sub2).wal.index.keys,
                    k.key ≠ sub.key
                  rw [show ((l0.setSub slot sub).setSub slot sub2).wal = l.wal from wal1, key1]
                  exact walIndexRange_none range
              · rw [if_neg complete]
                refine reads _ _ ?_ (Nat.le_refl _)
                rw [Bool.not_eq_true] at complete
                rw [← knows, complete, Bool.not_false, Bool.or_true]

/-! ### Replicas -/

theorem desk_setPeer (phase : Phase) (lit : Nat → Bool) (l : Loop) (idx : Nat) (p : LoopPeer) :
    (l.setPeer idx p).desk phase lit = (l.desk phase lit).setPeer idx p.confirmed := by
  unfold Loop.desk Desk.setPeer Loop.setPeer
  congr 1
  funext other
  by_cases same : other = idx
  · simp only [if_pos same]
  · simp only [if_neg same]

theorem setPeer_serves (sound : l.Sound lit) (idx : Nat) (p : LoopPeer)
    (same : p.confirmed = (l.peer idx).confirmed) : Serves phase lit l (l.setPeer idx p) := by
  refine serves_aside sound rfl rfl rfl rfl ?_
  rw [desk_setPeer, same]
  unfold Desk.setPeer Loop.desk
  congr 1
  funext other
  by_cases at_idx : other = idx
  · rw [if_pos at_idx, at_idx]
  · rw [if_neg at_idx]

theorem desk_lowest (phase : Phase) (lit : Nat → Bool) (l : Loop) :
    (l.desk phase lit).lowest = replLowest l := by
  unfold Desk.lowest replLowest
  congr 1
  funext seen idx
  obtain ⟨lowest, live⟩ := seen
  simp only [Loop.desk, LoopPeer.confirmed]
  cases (l.peer idx).live <;> rfl

theorem retainFloorUpdate_desk (phase : Phase) (lit : Nat → Bool) (l : Loop) :
    (retainFloorUpdate l).desk phase lit = (l.desk phase lit).raised := by
  unfold retainFloorUpdate Desk.raised
  rw [desk_lowest]
  change _ = if l.replicasWant = 0 ∨ (replLowest l).2 < l.replicasWant ∨
    (replLowest l).1 ≤ l.retainFloor then _ else _
  by_cases none : l.replicasWant = 0
  · rw [if_pos none, if_pos (Or.inl none)]
  · rw [if_neg none]
    obtain ⟨lowest, live⟩ := replLowest l
    simp only
    by_cases few : live < l.replicasWant
    · rw [if_pos few, if_pos (Or.inr (Or.inl few))]
    · rw [if_neg few]
      by_cases higher : lowest > l.retainFloor
      · rw [if_pos higher, if_neg (by omega)]
        rfl
      · rw [if_neg higher, if_pos (by omega)]

theorem retainFloorUpdate_frame (l : Loop) :
    (retainFloorUpdate l).wal = l.wal ∧ (retainFloorUpdate l).conns = l.conns ∧
      (retainFloorUpdate l).isFollower = l.isFollower ∧
      (retainFloorUpdate l).stream = l.stream := by
  unfold retainFloorUpdate
  split
  · exact ⟨rfl, rfl, rfl, rfl⟩
  · simp only
    split
    · exact ⟨rfl, rfl, rfl, rfl⟩
    · split
      · exact ⟨rfl, rfl, rfl, rfl⟩
      · exact ⟨rfl, rfl, rfl, rfl⟩

theorem retainFloorUpdate_serves (sound : l.Sound lit) :
    Serves .dispatching lit l (retainFloorUpdate l) := by
  obtain ⟨wal, conns, follower, stream⟩ := retainFloorUpdate_frame l
  refine ⟨?_, ?_, ?_⟩
  · exact
      { wal := by rw [wal]; exact sound.wal
        conns := by rw [conns]; exact sound.conns
        inside := by rw [conns]; exact sound.inside
        alone := by rw [follower, stream]; exact sound.alone }
  · rw [retainFloorUpdate_desk]
    exact Relation.ReflTransGen.single (.raised rfl)
  · intro slot
    rw [conns]
    exact ⟨rfl, rfl⟩

theorem freePeer_some {idx : Nat} (free : freePeer l = some idx) :
    idx < LOOP_MAX_REPLICAS ∧ (l.peer idx).live = false := by
  unfold freePeer at free
  have idle := List.find?_some free
  have inside := List.mem_of_find?_eq_some free
  exact ⟨List.mem_range.mp inside, by simpa using idle⟩

theorem handleReplStart_serves (sound : l.Sound lit) (busy : (l.conns slot).Busy)
    (h : MsgHeader) : Serves .dispatching lit l (handleReplStart l slot h) := by
  unfold handleReplStart
  by_cases follower : l.isFollower = true
  · rw [if_pos follower]
    have told : Serves .dispatching lit l
        (replyErrText l slot MSG_ERR_NOT_LEADER h.sequence l.leaderText).2 :=
      replyErrText_serves sound busy _ _ _
    exact told.trans (close_serves told.sound (told.busy busy))
  · rw [if_neg follower]
    have leading : (l.desk .dispatching lit).leading = true := by
      rw [Bool.not_eq_true] at follower
      unfold Loop.desk
      rw [follower]
      rfl
    cases free : freePeer l with
    | none => exact replyErr_close_serves sound busy _ _
    | some idx =>
        obtain ⟨inside, idle⟩ := freePeer_some free
        have vacant : (l.peer idx).confirmed = none := by
          unfold LoopPeer.confirmed
          rw [idle]
          rfl
        cases seeks : walCursorSeek l.os l.wal walCursorInit h.sequence SCRATCH_LEN with
        | mk res rest =>
            obtain ⟨cursor, os⟩ := rest
            cases res with
            | error e =>
                simp only
                have looked : Serves .dispatching lit l { l with os := os } := os_serves sound os
                have kept : Serves .dispatching lit { l with os := os }
                    ({ l with os := os }.setPeer idx { l.peer idx with cursor := cursor }) :=
                  setPeer_serves looked.sound idx _ rfl
                have both := looked.trans kept
                exact both.trans (replyErr_close_serves both.sound (both.busy busy) _ _)
            | ok done =>
                simp only
                have attached : Serves .dispatching lit l
                    ((({ l with os := os }.setConn slot
                      { l.conns slot with
                        replica := some idx, sendBuf := [],
                        sendCap := LOOP_REPL_CAP, sendFrom := some idx }).setPeer idx
                      ⟨true, h.sequence - 1, cursor⟩).note
                      (.attached slot idx (h.sequence - 1))) := by
                  have same : (l.conns slot).SameFraming { l.conns slot with
                      replica := some idx, sendBuf := [],
                      sendCap := LOOP_REPL_CAP, sendFrom := some idx } :=
                    ⟨rfl, rfl⟩
                  refine serves_owing sound busy sound.wal rfl rfl ⟨_, same, rfl⟩ ?_
                  have move := @Move.attached (l.desk .dispatching lit) slot idx (h.sequence - 1)
                    rfl leading busy.used vacant inside
                  apply Relation.ReflTransGen.single
                  refine Eq.subst ?_ move
                  show _ = (Loop.desk (({ l with os := os }.setConn slot
                    { l.conns slot with
                      replica := some idx, sendBuf := [],
                      sendCap := LOOP_REPL_CAP, sendFrom := some idx }).setPeer idx
                    ⟨true, h.sequence - 1, cursor⟩) .dispatching lit).note _
                  rw [desk_setPeer, desk_setConn]
                  rfl
                have floor : Serves .dispatching lit _ _ := retainFloorUpdate_serves attached.sound
                exact attached.trans (floor.trans (armTimerNow_serves floor.sound))

theorem handleReplAck_serves (sound : l.Sound lit) (slot : Nat) (h : MsgHeader) :
    Serves .dispatching lit l (handleReplAck l slot h) := by
  unfold handleReplAck
  cases of : (l.conns slot).replica with
  | none => exact .refl sound
  | some idx =>
      simp only
      have confirmed : Serves .dispatching lit l
          ((l.setPeer idx { l.peer idx with durable := h.sequence }).note
            (.confirmed slot idx h.sequence)) := by
        refine ⟨{ sound with }, ?_, fun _ => ⟨rfl, rfl⟩⟩
        have move := @Move.confirmed (l.desk .dispatching lit) slot idx h.sequence rfl of
        apply Relation.ReflTransGen.single
        refine Eq.subst ?_ move
        show _ = ((l.setPeer idx { l.peer idx with durable := h.sequence }).desk .dispatching
          lit).note _
        rw [desk_setPeer]
        congr 2
        change (l.peer idx).confirmed.map (fun _ => h.sequence) = _
        unfold LoopPeer.confirmed
        cases (l.peer idx).live <;> rfl
      exact confirmed.trans (retainFloorUpdate_serves confirmed.sound)

/-! ### The handshake -/

/-- The state in which an opening frame finds its connection. -/
structure Loop.Blank (l : Loop) (slot : Nat) (lit : Nat → Bool) : Prop where
  blank : l.conns slot = { slotEmpty with
    inUse := true, conn := (l.conns slot).conn, closing := (l.conns slot).closing }
  unlit : lit slot = false

theorem greet_serves (sound : l.Sound lit) (busy : (l.conns slot).Busy)
    (blank : l.Blank slot lit) {s : Session} (known : sessionLookup l.sessions s.id = some s) :
    Serves .dispatching lit l (greet l slot s) := by
  have fresh : (l.desk .dispatching lit).party slot = Party.fresh := by
    change (l.conns slot).party = Party.fresh
    rw [blank.blank]
    rfl
  have move := @Move.greeted (l.desk .dispatching lit) slot s rfl blank.unlit fresh known
  generalize bound : { l.conns slot with session := s.id } = c at *
  have room : ¬ c.room < MSG_HEADER_SIZE + (msgEncodeAck s.lastClientSeq).length := by
    rw [← bound, blank.blank, msgEncodeAck, length_le]
    change ¬ (LOOP_SEND_CAP - 0 < MSG_HEADER_SIZE + 8)
    decide
  have replied : greet l slot s = (((l.setConn slot c).note (.joined slot s.id)).setConn slot
      { c with sendBuf := c.sendBuf ++
        (ackFrame MSG_FLAG_ACK_REQ s.id s.lastClientSeq).bytes }).note
      (.staged slot s.id (ackFrame MSG_FLAG_ACK_REQ s.id s.lastClientSeq)) := by
    unfold greet replyAck reply replyFrame
    have here : ((l.setConn slot c).note (.joined slot s.id)).conns slot = c :=
      conns_setConn l slot c
    rw [bound]
    simp only [here, if_neg room]
    rw [← bound]
    rfl
  rw [replied]
  have same : (l.conns slot).SameFraming { c with sendBuf := c.sendBuf ++
      (ackFrame MSG_FLAG_ACK_REQ s.id s.lastClientSeq).bytes } := by
    rw [← bound]
    exact ⟨rfl, rfl⟩
  refine serves_owing sound busy sound.wal rfl rfl ⟨_, same, ?_⟩ ?_
  · funext other
    unfold Loop.setConn Loop.note
    by_cases at_slot : other = slot
    · simp only [if_pos at_slot]
    · simp only [if_neg at_slot]
  · apply Relation.ReflTransGen.single
    refine Eq.subst ?_ move
    show _ = (Loop.desk (((l.setConn slot c).note (.joined slot s.id)).setConn slot
      { c with sendBuf := c.sendBuf ++
        (ackFrame MSG_FLAG_ACK_REQ s.id s.lastClientSeq).bytes }) .dispatching lit).note _
    rw [desk_setConn]
    show _ = (((Loop.desk (l.setConn slot c) .dispatching lit).note
      (.joined slot s.id)).setParty slot _).note _
    rw [desk_setConn, ← bound]
    unfold Desk.stage Desk.setParty Desk.note
    simp only [if_true]
    rfl

theorem handleHello_serves (sound : l.Sound lit) (busy : (l.conns slot).Busy)
    (blank : l.Blank slot lit) (h : MsgHeader) (payload : Bytes) :
    Serves .dispatching lit l (handleHello l slot h payload) := by
  unfold handleHello
  cases (msgDecodeHello payload).filter (fun hello => msgHelloValid hello payload.length) with
  | none => exact replyErr_close_serves sound busy _ _
  | some hello =>
      simp only
      split
      · cases creates : sessionCreate l.sessions l.draws with
        | mk res rest =>
            obtain ⟨sessions, draws⟩ := rest
            cases res with
            | none =>
                simp only
                have same := sessionCreate_none creates
                have drawn : Serves .dispatching lit l
                    { l with sessions := sessions, draws := draws } := by
                  refine serves_aside sound rfl rfl rfl rfl ?_
                  unfold Loop.desk
                  rw [same]
                exact drawn.trans (replyErr_close_serves drawn.sound (drawn.busy busy) _ _)
            | some s =>
                simp only
                obtain ⟨named, absent, table, known⟩ := sessionCreate_some creates
                have drawn : Serves .dispatching lit l
                    ({ l with sessions := sessions, draws := draws }.note
                      (.drew s.id (walFirstSeq l.wal))) := by
                  refine ⟨{ sound with }, ?_, fun _ => ⟨rfl, rfl⟩⟩
                  apply Relation.ReflTransGen.single
                  refine Eq.subst ?_ (@Move.drew (l.desk .dispatching lit) s.id named absent)
                  rw [table]
                  rfl
                exact drawn.trans (greet_serves drawn.sound (drawn.busy busy)
                  ⟨blank.blank, blank.unlit⟩ known)
      · cases known : sessionLookup l.sessions hello.session with
        | none => exact replyErr_serves sound busy _ _
        | some s =>
            have same := (sessionLookup_id known).1
            exact greet_serves sound busy blank (by rw [same]; exact known)

end Msgsrvd

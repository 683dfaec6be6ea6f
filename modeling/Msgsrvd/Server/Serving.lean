/-
The moves of what is served after the flush: owed acknowledgements, the replicas'
batches, the follower's report, the streams, and retention.
-/

import Msgsrvd.Server.Receives
import Msgsrvd.Server.Streams

namespace Msgsrvd

open Bytestring

variable {phase : Phase} {lit : Nat → Bool} {l l' l'' : Loop} {slot : Nat}

/-! ### Owed acknowledgements -/

/-- A connection that shows anything on the desk has had its opening frame handled. -/
theorem LoopConn.Sound.busy_shown {c : LoopConn} {lit : Bool} (sound : c.Sound lit)
    (used : c.inUse = true) (shown : c.party ≠ Party.fresh) : c.Busy where
  used := used
  client := sound.client used
  begun := by
    cases opened : c.conn.opened with
    | true => exact Or.inl rfl
    | false =>
        cases closed : c.conn.closed with
        | true => exact Or.inr rfl
        | false =>
            obtain ⟨shape, _unlit⟩ := sound.fresh used opened closed
            apply absurd _ shown
            rw [shape]
            rfl

theorem busy_of_local {c : LoopConn} {lit : Bool} (sound : c.Sound lit) (used : c.inUse = true)
    (due : c.ackLocal.due = true) : c.Busy := by
  refine sound.busy_shown used ?_
  intro fresh
  have none : c.ackLocal = ackNone := congrArg Party.ackLocal fresh
  rw [none] at due
  cases due

theorem busy_of_repl {c : LoopConn} {lit : Bool} (sound : c.Sound lit) (used : c.inUse = true)
    (due : c.ackRepl.due = true) : c.Busy := by
  refine sound.busy_shown used ?_
  intro fresh
  have none : c.ackRepl = ackNone := congrArg Party.ackRepl fresh
  rw [none] at due
  cases due

/-- A change to a party that has nothing to do with what is staged. -/
structure OffBuffer (change : Party → Party) : Prop where
  session : ∀ p, (change p).session = p.session
  sendBuf : ∀ p, (change p).sendBuf = p.sendBuf
  commutes : ∀ p buf, change { p with sendBuf := buf } = { change p with sendBuf := buf }

theorem stageIf_change (d : Desk) (sent : Bool) (slot : Nat) (frame : Frame)
    {change : Party → Party} (off : OffBuffer change) :
    (d.setParty slot (change (d.party slot))).stageIf sent slot frame =
      (d.stageIf sent slot frame).setParty slot
        (change ((d.stageIf sent slot frame).party slot)) := by
  unfold Desk.stageIf
  split
  · have commutes := off.commutes (d.party slot) ((d.party slot).sendBuf ++ frame.bytes)
    unfold Desk.stage Desk.setParty Desk.note
    simp only [if_true, off.session, off.sendBuf]
    congr 1
    funext other
    by_cases same : other = slot
    · simp only [if_pos same]
      rw [commutes]
      simp only [off.session]
    · simp only [if_neg same]
  · rfl

/-- Staging a frame tells nothing but what is staged. -/
theorem stageIf_party (d : Desk) (sent : Bool) (slot : Nat) (frame : Frame) (other : Nat) :
    ∃ buf, (d.stageIf sent slot frame).party other = { d.party other with sendBuf := buf } := by
  unfold Desk.stageIf
  split
  · unfold Desk.stage Desk.setParty Desk.note
    simp only
    by_cases same : other = slot
    · rw [if_pos same, same]
      exact ⟨_, rfl⟩
    · rw [if_neg same]
      exact ⟨_, rfl⟩
  · exact ⟨_, rfl⟩

theorem replyFrame_sent (l : Loop) (slot : Nat) (frame : Frame) :
    (replyFrame l slot frame).1 = decide (¬ (l.conns slot).room < frame.size) := by
  unfold replyFrame Frame.size
  simp only
  split
  · rename_i full
    exact (decide_eq_false (not_not.mpr full)).symm
  · rename_i fits
    exact (decide_eq_true fits).symm

/-- A reply, and the end of what was owed in one of the connection's slots. -/
def Loop.settled (l : Loop) (slot : Nat) (counts : LoopCounts) (c : LoopConn) (level : Level)
    (refused : Bool) (flags : Nat) (a : LoopAck) (frame : Frame) : Loop :=
  (({ (replyFrame l slot frame).2 with counts := counts }).setConn slot c).note
    (.answered slot (l.conns slot).session
      ⟨level, refused, flags, a.clientSeq, a.walSeq, walDurableSeq l.wal, (l.conns slot).room,
        (replyFrame l slot frame).1⟩)

theorem settled_serves {frame : Frame} {c : LoopConn} {change : Party → Party}
    (sound : l.Sound lit) (busy : (l.conns slot).Busy) (off : OffBuffer change)
    (counts : LoopCounts) {level : Level} {refused : Bool} {flags : Nat} {a : LoopAck}
    (framed : frame = if refused then errFrame MSG_ERR_NO_REPLICAS a.clientSeq []
      else ackFrame flags a.walSeq a.clientSeq)
    (same : ((replyFrame l slot frame).2.conns slot).SameFraming c)
    (party : c.party = change ((replyFrame l slot frame).2.conns slot).party)
    (move : Move (l.desk phase lit)
      (((l.desk phase lit).setParty slot (change (l.conns slot).party)).answer slot level refused
        flags (l.conns slot).room a)) :
    Serves phase lit l (l.settled slot counts c level refused flags a frame) := by
  have reply := reply_touches l slot frame
  have touches : Touches slot l (l.settled slot counts c level refused flags a frame) := by
    refine reply.trans ⟨rfl, rfl, rfl, c, same, rfl⟩
  refine touches.serves sound busy (Relation.ReflTransGen.single ?_)
  have desk : (l.settled slot counts c level refused flags a frame).desk phase lit =
      ((l.desk phase lit).setParty slot (change (l.conns slot).party)).answer slot level refused
        flags (l.conns slot).room a := by
    have deskOf : (l.settled slot counts c level refused flags a frame).desk phase lit =
        (({ (replyFrame l slot frame).2 with counts := counts }.setConn slot c).desk phase
          lit).note (.answered slot (l.conns slot).session ⟨level, refused, flags, a.clientSeq,
            a.walSeq, walDurableSeq l.wal, (l.conns slot).room, (replyFrame l slot frame).1⟩) :=
      rfl
    rw [deskOf, desk_setConn, party]
    change (((replyFrame l slot frame).2.desk phase lit).setParty slot
      (change (((replyFrame l slot frame).2.desk phase lit).party slot))).note _ = _
    rw [replyFrame_desk, ← stageIf_change _ _ _ _ off]
    unfold Desk.answer
    simp only [← framed, replyFrame_sent]
    congr 2
    have named : (l.conns slot).session = (change (l.conns slot).party).session :=
      (off.session (l.conns slot).party).symm
    rw [named]
    unfold Desk.setParty
    simp only [if_true]
  rw [desk]
  exact move

theorem ackCount_rest (l : Loop) (flags : Nat) :
    ackCount l flags = { l with counts := (ackCount l flags).counts } := by
  unfold ackCount
  split
  · rfl
  · split <;> rfl

def Party.clearLocal (p : Party) : Party := { p with ackLocal := ackNone }

def Party.clearRepl (p : Party) : Party := { p with ackRepl := ackNone }

theorem clearLocal_off : OffBuffer Party.clearLocal := ⟨fun _ => rfl, fun _ => rfl, fun _ _ => rfl⟩

theorem clearRepl_off : OffBuffer Party.clearRepl := ⟨fun _ => rfl, fun _ => rfl, fun _ _ => rfl⟩

theorem replyFrame_durable (l : Loop) (slot : Nat) (frame : Frame) :
    (replyFrame l slot frame).2.wal = l.wal ∧
      ((replyFrame l slot frame).2.conns slot).session = (l.conns slot).session ∧
      ((replyFrame l slot frame).2.conns slot).ackLocal = (l.conns slot).ackLocal ∧
      ((replyFrame l slot frame).2.conns slot).ackRepl = (l.conns slot).ackRepl := by
  unfold replyFrame
  simp only
  split
  · exact ⟨rfl, rfl, rfl, rfl⟩
  · simp only [Loop.note, Loop.setConn, if_true, and_self]

theorem emitLocal_settled {frame : Frame} {a : LoopAck} (owed : (l.conns slot).ackLocal = a)
    (due : a.due = true) (framed : ackFrame a.flags a.walSeq a.clientSeq = frame) :
    ∃ counts, emitLocal l slot =
      l.settled slot counts { (replyFrame l slot frame).2.conns slot with ackLocal := ackNone }
        .local' false a.flags a frame := by
  obtain ⟨wal, session, _local, _repl⟩ := replyFrame_durable l slot frame
  have replied : replyAck l slot a.flags a.walSeq a.clientSeq = replyFrame l slot frame := by
    rw [← framed]
    rfl
  refine ⟨(ackCount (replyFrame l slot frame).2 a.flags).counts, ?_⟩
  unfold emitLocal Loop.settled
  simp only
  rw [owed, if_neg (not_not.mpr due), replied, ← session, ← wal, ackCount_rest]

/-- One connection has been looked at: nothing else has changed. -/
structure Emits (lit : Nat → Bool) (slot : Nat) (l l' : Loop) : Prop where
  serves : Serves .serving lit l l'
  touches : Touches slot l l'
  peer : l'.peer = l.peer
  tick : l'.tick = l.tick

theorem Emits.refl (sound : l.Sound lit) (slot : Nat) : Emits lit slot l l := by
  have same : (l.conns slot).SameFraming (l.conns slot) := ⟨rfl, rfl⟩
  exact ⟨.refl sound, ⟨rfl, rfl, rfl, _, same, (conns_setConn_kept l slot).symm⟩, rfl, rfl⟩

theorem Emits.trans (left : Emits lit slot l l') (right : Emits lit slot l' l'') :
    Emits lit slot l l'' :=
  ⟨left.serves.trans right.serves, left.touches.trans right.touches,
    right.peer.trans left.peer, right.tick.trans left.tick⟩

theorem replyFrame_peer_tick (l : Loop) (slot : Nat) (frame : Frame) :
    (replyFrame l slot frame).2.peer = l.peer ∧ (replyFrame l slot frame).2.tick = l.tick := by
  unfold replyFrame
  simp only
  split
  · exact ⟨rfl, rfl⟩
  · exact ⟨rfl, rfl⟩

theorem settled_emits {frame : Frame} {c : LoopConn} {change : Party → Party}
    (sound : l.Sound lit) (busy : (l.conns slot).Busy) (off : OffBuffer change)
    (counts : LoopCounts) {level : Level} {refused : Bool} {flags : Nat} {a : LoopAck}
    (framed : frame = if refused then errFrame MSG_ERR_NO_REPLICAS a.clientSeq []
      else ackFrame flags a.walSeq a.clientSeq)
    (same : ((replyFrame l slot frame).2.conns slot).SameFraming c)
    (party : c.party = change ((replyFrame l slot frame).2.conns slot).party)
    (move : Move (l.desk .serving lit)
      (((l.desk .serving lit).setParty slot (change (l.conns slot).party)).answer slot level
        refused flags (l.conns slot).room a)) :
    Emits lit slot l (l.settled slot counts c level refused flags a frame) where
  serves := settled_serves sound busy off counts framed same party move
  touches := (reply_touches l slot frame).trans ⟨rfl, rfl, rfl, c, same, rfl⟩
  peer := (replyFrame_peer_tick l slot frame).1
  tick := (replyFrame_peer_tick l slot frame).2

theorem emitLocal_emits (sound : l.Sound lit) (used : (l.conns slot).inUse = true) :
    Emits lit slot l (emitLocal l slot) ∧ ((emitLocal l slot).conns slot).ackLocal.due = false := by
  by_cases due : (l.conns slot).ackLocal.due = true
  · obtain ⟨counts, settled⟩ := emitLocal_settled rfl due rfl
    have busy := busy_of_local (sound.conns slot) used due
    rw [settled]
    refine ⟨settled_emits sound busy clearLocal_off counts rfl ⟨rfl, rfl⟩ rfl
      (@Move.answeredLocal (l.desk .serving lit) slot _ rfl used due), ?_⟩
    change ((Loop.setConn _ slot _).conns slot).ackLocal.due = false
    rw [conns_setConn]
    rfl
  · have still : emitLocal l slot = l := if_pos due
    rw [still]
    exact ⟨.refl sound slot, Bool.not_eq_true _ ▸ due⟩

theorem desk_best (phase : Phase) (lit : Nat → Bool) (l : Loop) :
    (l.desk phase lit).best = replBest l := by
  unfold Desk.best replBest
  congr 1
  funext best idx
  change max best ((l.peer idx).confirmed.getD 0) = _
  unfold LoopPeer.confirmed
  cases (l.peer idx).live with
  | false => simp
  | true =>
      simp only [if_true, Option.getD_some, true_and]
      split <;> omega

/-- What the replicated slot comes to, when it is looked at. -/
theorem emitRepl_settled {a : LoopAck} (best : Nat) (live : Bool)
    (owed : (l.conns slot).ackRepl = a) (due : a.due = true) :
    match a.verdict best (walDurableSeq l.wal) live l.tick with
    | none => emitRepl best live l slot = l
    | some (refused, flags) => ∀ frame,
        (frame = if refused then errFrame MSG_ERR_NO_REPLICAS a.clientSeq []
          else ackFrame flags a.walSeq a.clientSeq) →
        ∃ counts, emitRepl best live l slot =
          l.settled slot counts
            { (replyFrame l slot frame).2.conns slot with ackRepl := ackNone }
            .repl refused flags a frame := by
  have settles (refused : Bool) (flags : Nat) (frame : Frame) (counts : LoopCounts) :
      settleRepl { (replyFrame l slot frame).2 with counts := counts } slot refused flags
        (l.conns slot).room (replyFrame l slot frame).1 =
      l.settled slot counts { (replyFrame l slot frame).2.conns slot with ackRepl := ackNone }
        .repl refused flags a frame := by
    obtain ⟨wal, session, _local, repl⟩ := replyFrame_durable l slot frame
    unfold settleRepl Loop.settled
    simp only
    rw [repl, owed, session, wal]
  unfold LoopAck.verdict emitRepl
  simp only [owed]
  by_cases confirmed : best ≥ a.walSeq ∧ walDurableSeq l.wal ≥ a.walSeq
  · rw [if_pos confirmed, if_neg (not_not.mpr due), if_pos confirmed]
    intro frame framed
    have replied : replyAck l slot a.flags a.walSeq a.clientSeq = replyFrame l slot frame := by
      rw [framed]
      rfl
    refine ⟨(ackCount (replyFrame l slot frame).2 a.flags).counts, ?_⟩
    rw [replied, ← settles, ← ackCount_rest]
  · rw [if_neg confirmed, if_neg (not_not.mpr due), if_neg confirmed]
    by_cases waiting : live = true ∧ l.tick < a.deadline
    · rw [if_pos waiting, if_pos waiting]
    · rw [if_neg waiting, if_neg waiting]
      by_cases degradable : a.degradable = true
      · rw [if_pos degradable, if_pos degradable]
        intro frame framed
        have replied : replyAck l slot (a.flags ||| MSG_FLAG_DEGRADED) a.walSeq a.clientSeq =
            replyFrame l slot frame := by
          rw [framed]
          rfl
        generalize counted : ackCount (replyFrame l slot frame).2
          (a.flags ||| MSG_FLAG_DEGRADED) = l2
        have rest := ackCount_rest (replyFrame l slot frame).2 (a.flags ||| MSG_FLAG_DEGRADED)
        rw [counted] at rest
        refine ⟨{ l2.counts with replDegraded := l2.counts.replDegraded + 1 }, ?_⟩
        rw [replied, ← settles]
        simp only [counted]
        rw [rest]
      · rw [if_neg degradable, if_neg degradable]
        intro frame framed
        have replied : replyErrText l slot MSG_ERR_NO_REPLICAS a.clientSeq [] =
            replyFrame l slot frame := by
          rw [framed]
          rfl
        refine ⟨(replyFrame l slot frame).2.counts, ?_⟩
        rw [replied]
        exact settles true a.flags frame _

/-- Nothing is left to answer in the slots of a connection. -/
def LoopConn.Answered (c : LoopConn) (best durable : Nat) (live : Bool) (tick : Nat) : Prop :=
  c.ackLocal.due = false ∧
    (c.ackRepl.due = true → c.ackRepl.verdict best durable live tick = none)

theorem emitRepl_emits (sound : l.Sound lit) (used : (l.conns slot).inUse = true)
    (settled : (l.conns slot).ackLocal.due = false) :
    Emits lit slot l (emitRepl (replBest l) (replLive l) l slot) ∧
      ((emitRepl (replBest l) (replLive l) l slot).conns slot).Answered (replBest l)
        (walDurableSeq l.wal) (replLive l) l.tick := by
  by_cases due : (l.conns slot).ackRepl.due = true
  · have comes := emitRepl_settled (replBest l) (replLive l) rfl due
    cases verdict : (l.conns slot).ackRepl.verdict (replBest l) (walDurableSeq l.wal) (replLive l)
        l.tick with
    | none =>
        rw [verdict] at comes
        rw [show emitRepl (replBest l) (replLive l) l slot = l from comes]
        exact ⟨.refl sound slot, settled, fun _ => verdict⟩
    | some ends =>
        obtain ⟨refused, flags⟩ := ends
        rw [verdict] at comes
        obtain ⟨counts, emits⟩ := comes _ rfl
        have busy := busy_of_repl (sound.conns slot) used due
        rw [emits]
        refine ⟨settled_emits sound busy clearRepl_off counts rfl ⟨rfl, rfl⟩ rfl ?_, ?_⟩
        · refine @Move.answeredRepl (l.desk .serving lit) slot refused flags _ rfl used due ?_
          rw [desk_best, desk_live]
          exact verdict
        · change ((Loop.setConn _ slot _).conns slot).Answered _ _ _ _
          rw [conns_setConn]
          refine ⟨?_, fun due => by cases due⟩
          change ((replyFrame l slot _).2.conns slot).ackLocal.due = false
          rw [(replyFrame_durable l slot _).2.2.1]
          exact settled
  · have still : emitRepl (replBest l) (replLive l) l slot = l := by
      unfold emitRepl
      simp only
      rw [if_pos due]
    rw [still]
    exact ⟨.refl sound slot, settled, fun owed => absurd owed due⟩

theorem Emits.same (emits : Emits lit slot l l') :
    replBest l' = replBest l ∧ replLive l' = replLive l ∧ l'.wal = l.wal ∧ l'.tick = l.tick := by
  refine ⟨?_, ?_, emits.touches.wal, emits.tick⟩
  · unfold replBest
    rw [emits.peer]
  · unfold replLive
    rw [emits.peer]

theorem acksEmitOne_emits (sound : l.Sound lit) (slot : Nat) :
    Emits lit slot l (acksEmitOne (replBest l) (replLive l) l slot) ∧
      (((acksEmitOne (replBest l) (replLive l) l slot).conns slot).inUse = true →
        ((acksEmitOne (replBest l) (replLive l) l slot).conns slot).Answered (replBest l)
          (walDurableSeq l.wal) (replLive l) l.tick) := by
  unfold acksEmitOne
  by_cases used : (l.conns slot).inUse = true
  · rw [if_neg (not_not.mpr used)]
    obtain ⟨first, settled⟩ := emitLocal_emits sound used
    obtain ⟨best, live, wal, tick⟩ := first.same
    have used' : ((emitLocal l slot).conns slot).inUse = true :=
      (first.serves.framing slot).inUse.trans used
    obtain ⟨second, answered⟩ := emitRepl_emits first.serves.sound used' settled
    rw [best, live] at second answered
    rw [wal, tick] at answered
    exact ⟨first.trans second, fun _ => answered⟩
  · rw [if_pos used]
    exact ⟨.refl sound slot, fun owed => absurd owed used⟩

/-- A connection that another's turn has not touched. -/
theorem Emits.other (emits : Emits lit slot l l') {other : Nat} (differ : other ≠ slot) :
    l'.conns other = l.conns other := by
  obtain ⟨c, _same, conns⟩ := emits.touches.conns
  rw [conns]
  exact conns_setConn_other l c differ

/-- The sweep over some of the slots: those in use are settled afterwards. -/
structure Sweeps (lit : Nat → Bool) (slots : List Nat) (l l' : Loop) : Prop where
  serves : Serves .serving lit l l'
  peer : l'.peer = l.peer
  tick : l'.tick = l.tick
  wal : l'.wal = l.wal
  others : ∀ other, other ∉ slots → l'.conns other = l.conns other
  answered : ∀ slot ∈ slots, (l'.conns slot).inUse = true →
    (l'.conns slot).Answered (replBest l) (walDurableSeq l.wal) (replLive l) l.tick

theorem acksEmit_sweeps (slots : List Nat) (distinct : slots.Nodup) (sound : l.Sound lit) :
    Sweeps lit slots l (slots.foldl (acksEmitOne (replBest l) (replLive l)) l) := by
  induction slots generalizing l with
  | nil => exact ⟨.refl sound, rfl, rfl, rfl, fun _ _ => rfl, fun _ absent => by cases absent⟩
  | cons slot rest ih =>
      obtain ⟨absent, distinct⟩ := List.nodup_cons.mp distinct
      obtain ⟨first, answered⟩ := acksEmitOne_emits sound slot
      obtain ⟨best, live, wal, tick⟩ := first.same
      have later := ih distinct first.serves.sound
      rw [best, live] at later
      rw [List.foldl_cons]
      refine ⟨first.serves.trans later.serves, later.peer.trans first.peer,
        later.tick.trans first.tick, later.wal.trans wal, ?_, ?_⟩
      · intro other outside
        rw [List.mem_cons, not_or] at outside
        rw [later.others other outside.2, first.other outside.1]
      · intro other inside used
        rcases List.mem_cons.mp inside with same | inRest
        · subst same
          rw [later.others other absent] at used ⊢
          exact answered used
        · have settled := later.answered other inRest used
          rw [best, live, wal, tick] at settled
          exact settled

theorem acksEmit_serves (sound : l.Sound lit) : Serves .serving lit l (acksEmit l) := by
  have sweeps := acksEmit_sweeps (List.range LOOP_MAX_CONNS) List.nodup_range sound
  unfold acksEmit
  simp only
  generalize (List.range LOOP_MAX_CONNS).foldl (acksEmitOne (replBest l) (replLive l)) l = swept
    at sweeps ⊢
  have best : replBest swept = replBest l := by
    unfold replBest
    rw [sweeps.peer]
  have live : replLive swept = replLive l := by
    unfold replLive
    rw [sweeps.peer]
  have move := @Move.swept (swept.desk .serving lit) rfl (by
    intro slot used
    rw [desk_best, desk_live, best, live]
    have inside := sweeps.serves.sound.inside slot used
    have settled := sweeps.answered slot (List.mem_range.mpr inside) used
    rw [← sweeps.wal, ← sweeps.tick] at settled
    exact settled)
  rw [desk_best, desk_live, best, live] at move
  refine sweeps.serves.trans (note_serves sweeps.serves.sound ?_)
  rw [← sweeps.tick]
  exact move

/-! ### What a cursor reads -/

/-- The records that a walk has passed are no later than its limit. -/
theorem cursorWalk_below {buf : Bytes} {limit fuel at' next used next' : Nat}
    {res : Except Err Unit} (walked : cursorWalk buf limit fuel at' next = (res, used, next'))
    (fuel' : Nat) : ∀ r ∈ streamRecs (buf.take used) fuel' at', r.seq ≤ limit := by
  have stopped (used at' : Nat) (same : used = at') (fuel' : Nat) :
      ∀ r ∈ streamRecs (buf.take used) fuel' at', r.seq ≤ limit := by
    intro r present
    cases fuel' with
    | zero => cases present
    | succ fuel' =>
        unfold streamRecs at present
        rw [if_neg (by rw [List.length_take]; omega)] at present
        cases present
  induction fuel generalizing at' next fuel' with
  | zero =>
      cases walked
      exact stopped _ _ rfl fuel'
  | succ fuel ih =>
      unfold cursorWalk at walked
      split at walked
      · cases decoded : walRecDecode (buf.drop at') with
        | none =>
            rw [decoded] at walked
            cases walked
            exact stopped _ _ rfl fuel'
        | some r =>
            rw [decoded] at walked
            simp only at walked
            split at walked
            · cases walked
              exact stopped _ _ rfl fuel'
            · split at walked
              · cases walked
                exact stopped _ _ rfl fuel'
              · rename_i at_next
                split at walked
                · cases walked
                  exact stopped _ _ rfl fuel'
                · rename_i within
                  split at walked
                  · cases walked
                    exact stopped _ _ rfl fuel'
                  · rename_i sized
                    split at walked
                    · cases walked
                      exact stopped _ _ rfl fuel'
                    · rename_i whole
                      have on := (cursorWalk_used walked).1
                      have again : walRecDecode ((buf.take used).drop at') = some r := by
                        rw [List.drop_take, walRecDecode_take _ _ ?_, decoded]
                        have header := header_le_walRecSize sized
                        omega
                      cases fuel' with
                      | zero =>
                          intro r' present
                          cases present
                      | succ fuel' =>
                          have rest := ih walked fuel'
                          unfold streamRecs
                          split
                          · rw [again]
                            simp only
                            rw [if_neg sized]
                            intro r' present
                            rcases List.mem_cons.mp present with same | later
                            · rw [same]
                              omega
                            · exact rest r' later
                          · intro r' present
                            cases present
      · cases walked
        exact stopped _ _ rfl fuel'

theorem walCursorRead_below {os os' : Os} {w : Wal} {c c' : WalCursor} {limit bufLen : Nat}
    {got : Bytes} (read : walCursorRead os w c limit bufLen = (.ok got, c', os')) (fuel : Nat) :
    ∀ r ∈ streamRecs got fuel 0, r.seq ≤ limit := by
  have nothing (fuel : Nat) : ∀ r ∈ streamRecs [] fuel 0, r.seq ≤ limit := by
    intro r present
    cases fuel <;> cases present
  have tries (attempts : Nat) {os : Os} {c : WalCursor}
      (read : cursorAttempt w limit bufLen attempts os c = (.ok got, c', os')) :
      ∀ r ∈ streamRecs got fuel 0, r.seq ≤ limit := by
    induction attempts generalizing os c with
    | zero =>
        cases read
        exact nothing fuel
    | succ attempts ih =>
        obtain ⟨buf, os1, used, next, _preads, walks, ends⟩ := cursorAttempt_ok read
        rcases ends with ⟨_moved, taken, _⟩ | ⟨_none, taken, _⟩ | ⟨_none, base, c2, os2, _, _, _, again⟩
        · rw [taken]
          exact cursorWalk_below walks fuel
        · rw [taken]
          exact nothing fuel
        · exact ih again
  unfold walCursorRead at read
  split at read
  · cases read
  · split at read
    · cases read
    · split at read
      · cases read
        exact nothing fuel
      · exact tries 2 read

/-! ### The replicas' batches and the follower's report -/

/-- A step that every element of a list takes, and what each of them keeps. -/
theorem foldl_serves {α : Type} {f : Loop → α → Loop} (keeps : Loop → Prop) (list : List α)
    (each : ∀ l, l.Sound lit → keeps l → ∀ x ∈ list,
      Serves phase lit l (f l x) ∧ keeps (f l x))
    (sound : l.Sound lit) (kept : keeps l) :
    Serves phase lit l (list.foldl f l) ∧ keeps (list.foldl f l) := by
  induction list generalizing l with
  | nil => exact ⟨.refl sound, kept⟩
  | cons x rest ih =>
      obtain ⟨first, after⟩ := each l sound kept x (List.mem_cons_self ..)
      obtain ⟨later, last⟩ := ih
        (fun l sound kept y inRest => each l sound kept y (List.mem_cons_of_mem _ inRest))
        first.sound after
      exact ⟨first.trans later, last⟩

theorem replStreamOne_serves {limit : Nat} (sound : l.Sound lit)
    (flushed : limit = walDurableSeq l.wal) (slot : Nat) :
    Serves .serving lit l (replStreamOne limit l slot) ∧
      (replStreamOne limit l slot).wal = l.wal := by
  unfold replStreamOne
  simp only
  cases of : (l.conns slot).replica with
  | none => exact ⟨.refl sound, rfl⟩
  | some idx =>
      simp only
      split
      · exact ⟨.refl sound, rfl⟩
      · rename_i free
        rw [not_or, not_or, not_not] at free
        obtain ⟨used, _open, empty⟩ := free
        rw [ne_eq, not_not] at empty
        have busy : (l.conns slot).Busy := by
          refine (sound.conns slot).busy_shown used ?_
          intro fresh
          have none : (l.conns slot).replica = none := congrArg Party.replica fresh
          rw [of] at none
          cases none
        cases reads : walCursorRead l.os l.wal (l.peer idx).cursor limit
            ((l.conns slot).sendCap - MSG_HEADER_SIZE) with
        | mk res rest =>
            obtain ⟨cursor, os⟩ := rest
            have looked : Serves .serving lit l { l with os := os } := os_serves sound os
            have moved : Serves .serving lit { l with os := os }
                ({ l with os := os }.setPeer idx { l.peer idx with cursor := cursor }) :=
              setPeer_serves looked.sound idx _ rfl
            have both := looked.trans moved
            cases res with
            | error e =>
                exact ⟨both.trans (close_serves both.sound (both.busy busy)), rfl⟩
            | ok bytes =>
                simp only
                split
                · exact ⟨both, rfl⟩
                · refine ⟨both.trans ?_, rfl⟩
                  rw [← of]
                  generalize at_peer : ({ l with os := os } : Loop).setPeer idx
                    { l.peer idx with cursor := cursor } = l1 at both ⊢
                  have conns : l1.conns slot = l.conns slot := by
                    rw [← at_peer]
                    rfl
                  have wal : l1.wal = l.wal := by
                    rw [← at_peer]
                    rfl
                  generalize framed : (⟨msgHeaderNew MSG_OP_REPL_DATA MSG_RECORD_NONE 0
                    bytes.length 0 (l.peer idx).cursor.nextSeq, bytes⟩ : Frame) = frame
                  have founded : Founded (walDurableSeq l1.wal) frame := by
                    rw [← framed]
                    refine ⟨fun isAck => (by cases isAck), fun isNotify => (by cases isNotify), ?_⟩
                    intro _isData r present
                    rw [wal, ← flushed]
                    exact walCursorRead_below reads _ r present
                  have busy1 := both.busy busy
                  have same : (l1.conns slot).SameFraming
                      { l.conns slot with sendBuf := frame.bytes } := by
                    rw [conns]
                    exact ⟨rfl, rfl⟩
                  refine serves_owing both.sound busy1 both.sound.wal rfl rfl ⟨_, same, rfl⟩ ?_
                  have move := @Move.staged (l1.desk .serving lit) slot frame busy1.used founded
                  apply Relation.ReflTransGen.single
                  refine Eq.subst ?_ move
                  unfold Desk.stage
                  change _ = ((l1.setConn slot { l.conns slot with sendBuf := frame.bytes }).desk
                    .serving lit).note _
                  rw [desk_setConn]
                  change ((l1.desk .serving lit).setParty slot
                    { (l1.conns slot).party with
                      sendBuf := (l1.conns slot).party.sendBuf ++ frame.bytes }).note
                      (.staged slot (l1.conns slot).session frame) = _
                  rw [conns]
                  have bytes : (l.conns slot).party.sendBuf ++ frame.bytes = frame.bytes := by
                    rw [show (l.conns slot).party.sendBuf = [] from empty, List.nil_append]
                  rw [bytes]
                  rfl

theorem replStream_serves (sound : l.Sound lit) : Serves .serving lit l (replStream l) := by
  have steps := @foldl_serves .serving lit l Nat (replStreamOne (walDurableSeq l.wal))
    (fun now => walDurableSeq l.wal = walDurableSeq now.wal) (List.range LOOP_MAX_CONNS)
    (fun now sound kept slot _inside => by
      obtain ⟨serves, wal⟩ := replStreamOne_serves sound kept slot
      refine ⟨serves, ?_⟩
      rw [wal]
      exact kept) sound rfl
  exact steps.1

theorem streamReport_streams (sound : l.Sound lit) (following : l.isFollower = true) :
    Streams .serving lit l (streamReport l) := by
  unfold streamReport
  split
  · exact .refl sound
  · split
    · exact .refl sound
    · split
      · exact .refl sound
      · simp only
        have framed : Streams .serving lit l
            (streamFrame l MSG_OP_REPL_ACK (walDurableSeq l.wal)) :=
          streamFrame_streams sound following (fun _ => Nat.le_refl _)
        have following' := framed.follower.trans following
        have marked : Streams .serving lit _ { streamFrame l MSG_OP_REPL_ACK (walDurableSeq l.wal) with
            stream := { (streamFrame l MSG_OP_REPL_ACK (walDurableSeq l.wal)).stream with
              acked := walDurableSeq (streamFrame l MSG_OP_REPL_ACK (walDurableSeq l.wal)).wal } } :=
          setStream_same framed.makes.sound following' rfl
        exact framed.trans marked

/-! ### Streams -/

theorem busy_of_sub {c : LoopConn} {lit : Bool} (sound : c.Sound lit) (used : c.inUse = true)
    (running : ¬ c.sub.Idle) : c.Busy := by
  refine sound.busy_shown used ?_
  intro fresh
  have none : c.sub = subNone := congrArg Party.sub fresh
  rw [none] at running
  exact running ⟨rfl, rfl⟩

/-- What a step leaves of the log and of how far the streams see. -/
structure Shows (l l' : Loop) : Prop where
  wal : l'.wal = l.wal
  view : ∀ durable, viewOf durable l'.trace = viewOf durable l.trace

theorem Shows.refl (l : Loop) : Shows l l := ⟨rfl, fun _ => rfl⟩

theorem Shows.trans (left : Shows l l') (right : Shows l' l'') : Shows l l'' :=
  ⟨right.wal.trans left.wal, fun durable => (right.view durable).trans (left.view durable)⟩

theorem replyFrame_shows (l : Loop) (slot : Nat) (frame : Frame) :
    Shows l (replyFrame l slot frame).2 := by
  unfold replyFrame
  simp only
  split
  · exact .refl l
  · exact ⟨rfl, fun _ => rfl⟩

theorem setSub_same (d : Desk) (slot : Nat) (sub : LoopSub) (again : LoopSub) :
    (d.setSub slot sub).setSub slot again = d.setSub slot again := by
  unfold Desk.setSub Desk.setParty
  simp only [if_true]
  congr 1
  funext other
  by_cases same : other = slot
  · simp only [if_pos same]
  · simp only [if_neg same]

theorem setSub_setSub (l : Loop) (slot : Nat) (sub : LoopSub) :
    ((l.setSub slot sub).conns slot).sub = sub := by
  unfold Loop.setSub
  rw [conns_setConn]

theorem replyFrame_sub (l : Loop) (slot : Nat) (frame : Frame) :
    ((replyFrame l slot frame).2.conns slot).sub = (l.conns slot).sub := by
  unfold replyFrame
  simp only
  split
  · rfl
  · change ((l.setConn slot _).conns slot).sub = _
    rw [conns_setConn]

/-- A held stream whose `min_seq` has been reached. -/
theorem waiting_serves {view : Nat} (sound : l.Sound lit) (used : (l.conns slot).inUse = true)
    (waiting : (l.conns slot).sub.waiting = true) (reached : (l.conns slot).sub.minSeq ≤ view)
    (below : view ≤ walDurableSeq l.wal) (sequence : Nat) :
    Serves .serving lit l
      (subAnswer (l.setSub slot ((l.conns slot).sub.serve view)) slot sequence) ∧
    Shows l (subAnswer (l.setSub slot ((l.conns slot).sub.serve view)) slot sequence) := by
  have busy : (l.conns slot).Busy := by
    refine busy_of_sub (sound.conns slot) used ?_
    intro idle
    rw [idle.2] at waiting
    cases waiting
  generalize serving : (l.conns slot).sub.serve view = sub
  have shape : subAnswer (l.setSub slot sub) slot sequence =
      (replyFrame (l.setSub slot sub) slot (emptyAck sequence)).2.note
        (.began slot sub (walDurableSeq l.wal)) := by
    unfold subAnswer
    rw [setSub_setSub]
    rfl
  rw [shape]
  have replied := reply_touches (l.setSub slot sub) slot (emptyAck sequence)
  have touches := note_touches ((setSub_touches l slot sub).trans replied)
    (.began slot sub (walDurableSeq l.wal))
  refine ⟨touches.serves sound busy ?_, touches.wal, ?_⟩
  · have move := @Move.served (l.desk .serving lit) slot sequence view
      (replyFrame (l.setSub slot sub) slot (emptyAck sequence)).1 rfl used waiting reached below
    have same : (l.desk .serving lit).party slot = (l.conns slot).party := rfl
    rw [show ((l.desk .serving lit).party slot).sub.serve view = sub from serving,
      stageIf_setSub, ← desk_setSub, ← replyFrame_desk] at move
    exact Relation.ReflTransGen.single move
  · intro durable
    exact (replyFrame_shows (l.setSub slot sub) slot (emptyAck sequence)).view durable

/-- What staging a frame leaves alone. -/
structure Staged (slot : Nat) (d d' : Desk) : Prop where
  phase : d'.phase = d.phase
  durable : d'.durable = d.durable
  tick : d'.tick = d.tick
  inUse : (d'.party slot).inUse = (d.party slot).inUse
  sub : (d'.party slot).sub = (d.party slot).sub
  view : ∀ durable, viewOf durable d'.trace = viewOf durable d.trace

theorem stageIf_staged (d : Desk) (sent : Bool) (slot : Nat) (frame : Frame) :
    Staged slot d (d.stageIf sent slot frame) := by
  unfold Desk.stageIf
  split
  · refine ⟨rfl, rfl, rfl, ?_, ?_, fun _ => rfl⟩
    · unfold Desk.stage Desk.setParty Desk.note
      simp only [if_true]
    · unfold Desk.stage Desk.setParty Desk.note
      simp only [if_true]
  · exact ⟨rfl, rfl, rfl, rfl, rfl, fun _ => rfl⟩

theorem stageIf_moves {d : Desk} (used : (d.party slot).inUse = true) {frame : Frame}
    (founded : Founded d.durable frame) (sent : Bool) :
    Moves d (d.stageIf sent slot frame) := by
  unfold Desk.stageIf
  split
  · exact Relation.ReflTransGen.single (.staged used founded)
  · exact Relation.ReflTransGen.refl

theorem errFrame_founded (durable code sequence : Nat) (text : Bytes) :
    Founded durable (errFrame code sequence text) :=
  ⟨fun isAck => (by cases isAck), fun isNotify => (by cases isNotify),
    fun isData => (by cases isData)⟩

/-- The last that is said of a stream, and its cursor closed. -/
theorem noted_touches (l : Loop) (slot : Nat) (note : Note) (os : Os) (sub : LoopSub) :
    Touches slot l (({ l.note note with os := os } : Loop).setSub slot sub) := by
  have same : (l.conns slot).SameFraming { l.conns slot with sub := sub } := ⟨rfl, rfl⟩
  exact ⟨rfl, rfl, rfl, _, same, rfl⟩

theorem subsPushWaiting_serves {view : Nat} (sound : l.Sound lit)
    (used : (l.conns slot).inUse = true) (waiting : (l.conns slot).sub.waiting = true)
    (seen : view = viewOf (walDurableSeq l.wal) l.trace) (below : view ≤ walDurableSeq l.wal) :
    Serves .serving lit l (subsPushWaiting view l slot) ∧
      Shows l (subsPushWaiting view l slot) := by
  unfold subsPushWaiting
  simp only
  split
  · rename_i reached
    obtain ⟨serves, shows⟩ := waiting_serves sound used waiting reached below
      (l.conns slot).sub.cursor.nextSeq
    have aside : Serves .serving lit _ { subAnswer (l.setSub slot ((l.conns slot).sub.serve view))
        slot (l.conns slot).sub.cursor.nextSeq with progress := true } :=
      serves_aside serves.sound rfl rfl rfl rfl rfl
    exact ⟨serves.trans aside, shows.wal, shows.view⟩
  · rename_i short
    split
    · rename_i late
      have busy : (l.conns slot).Busy := by
        refine busy_of_sub (sound.conns slot) used ?_
        intro idle
        rw [idle.2] at waiting
        cases waiting
      generalize stopping : ({ (l.conns slot).sub with waiting := false } : LoopSub) = stopped
      generalize refusing : errFrame MSG_ERR_BEHIND (l.conns slot).sub.minSeq [] = frame
      have replied : replyErr (l.setSub slot stopped) slot MSG_ERR_BEHIND
          (l.conns slot).sub.minSeq = (replyFrame (l.setSub slot stopped) slot frame).2 := by
        rw [← refusing]
        rfl
      rw [replied]
      have founded : Founded (walDurableSeq l.wal) frame := by
        rw [← refusing]
        exact errFrame_founded _ _ _ _
      have touched := reply_touches (l.setSub slot stopped) slot frame
      have tick := (replyFrame_peer_tick (l.setSub slot stopped) slot frame).2
      have shown := replyFrame_shows (l.setSub slot stopped) slot frame
      have deskOf := replyFrame_desk .serving lit (l.setSub slot stopped) slot frame
      have subOf := replyFrame_sub (l.setSub slot stopped) slot frame
      rw [setSub_setSub] at subOf
      generalize (replyFrame (l.setSub slot stopped) slot frame).1 = sent at deskOf
      generalize (replyFrame (l.setSub slot stopped) slot frame).2 = l1 at *
      have wal : l1.wal = l.wal := touched.wal
      generalize walCursorClose _ (l.conns slot).sub.cursor = ended
      obtain ⟨cursor, os⟩ := ended
      have touches : Touches slot l ({ l1.note (.behind slot (l.conns slot).sub
          (walDurableSeq l1.wal) l1.tick) with os := os }.setSub slot
            { stopped with cursor := cursor }) :=
        ((setSub_touches l slot stopped).trans touched).trans (noted_touches l1 slot _ os _)
      simp only
      rw [show (({ l1.note (.behind slot (l.conns slot).sub (walDurableSeq l1.wal) l1.tick) with
        os := os } : Loop).conns slot).sub = stopped from subOf]
      refine ⟨touches.serves sound busy ?_, touches.wal, shown.view⟩
      have kept := stageIf_staged (l.desk .serving lit) sent slot frame
      have staged := @stageIf_moves slot (l.desk .serving lit) used frame founded sent
      have move := @Move.behind ((l.desk .serving lit).stageIf sent slot frame) slot cursor
        kept.phase (kept.inUse.trans used) (by rw [kept.sub]; exact waiting)
        (by
          rw [kept.view, kept.durable, kept.sub]
          change viewOf (walDurableSeq l.wal) l.trace < (l.conns slot).sub.minSeq
          omega)
        (by rw [kept.sub, kept.tick]; exact late)
      refine staged.tail (Eq.subst ?_ move)
      rw [desk_setSub]
      change _ = Desk.setSub ((l1.desk .serving lit).note (.behind slot (l.conns slot).sub
        (walDurableSeq l1.wal) l1.tick)) slot { stopped with cursor := cursor }
      rw [deskOf, desk_setSub, ← stageIf_setSub, wal, tick, kept.sub, kept.durable, kept.tick]
      change _ = Desk.setSub (Desk.setSub (((l.desk .serving lit).stageIf sent slot frame).note
        (.behind slot (l.conns slot).sub (walDurableSeq l.wal) l.tick)) slot stopped) slot
          { stopped with cursor := cursor }
      rw [setSub_same, ← stopping]
      rfl
    · exact ⟨.refl sound, .refl l⟩

theorem busy_of_active {c : LoopConn} {lit : Bool} (sound : c.Sound lit) (used : c.inUse = true)
    (active : c.sub.active = true) : c.Busy := by
  refine busy_of_sub sound used ?_
  intro idle
  rw [idle.1] at active
  cases active

theorem subsPushLast_serves (sound : l.Sound lit) (used : (l.conns slot).inUse = true)
    (active : (l.conns slot).sub.active = true)
    (past : (l.conns slot).sub.untilSeq < (l.conns slot).sub.cursor.nextSeq) :
    Serves .serving lit l (subsPushLast l slot) ∧ Shows l (subsPushLast l slot) := by
  unfold subsPushLast
  simp only
  have busy := busy_of_active (sound.conns slot) used active
  generalize framed : (⟨msgHeaderNew MSG_OP_NOTIFY MSG_RECORD_NONE MSG_FLAG_LAST 0 0
    (l.conns slot).sub.untilSeq, []⟩ : Frame) = frame
  have replied : reply l slot MSG_OP_NOTIFY MSG_FLAG_LAST (l.conns slot).sub.untilSeq [] =
      replyFrame l slot frame := by
    rw [← framed]
    rfl
  rw [replied]
  have founded : Founded (walDurableSeq l.wal) frame := by
    rw [← framed]
    have last : hasFlag MSG_FLAG_LAST MSG_FLAG_LAST = true := by decide
    exact ⟨fun isAck => (by cases isAck), fun _ => Or.inl last, fun isData => (by cases isData)⟩
  have touched := reply_touches l slot frame
  have shown := replyFrame_shows l slot frame
  have deskOf := replyFrame_desk .serving lit l slot frame
  have subOf := replyFrame_sub l slot frame
  generalize (replyFrame l slot frame).1 = sent at deskOf
  generalize (replyFrame l slot frame).2 = l1 at *
  generalize walCursorClose _ (l.conns slot).sub.cursor = ended
  obtain ⟨cursor, os⟩ := ended
  simp only
  rw [show ((l1.note (.ended slot (l.conns slot).sub (walDurableSeq l.wal))).conns slot).sub =
    (l.conns slot).sub from subOf]
  have touches := touched.trans (noted_touches l1 slot
    (.ended slot (l.conns slot).sub (walDurableSeq l.wal)) os
    { (l.conns slot).sub with active := false, cursor := cursor })
  refine ⟨touches.serves sound busy ?_, touches.wal, shown.view⟩
  have kept := stageIf_staged (l.desk .serving lit) sent slot frame
  have staged := @stageIf_moves slot (l.desk .serving lit) used frame founded sent
  have move := @Move.ended ((l.desk .serving lit).stageIf sent slot frame) slot cursor
    kept.phase (kept.inUse.trans used) (by rw [kept.sub]; exact active)
    (by rw [kept.sub]; exact past)
  refine staged.tail (Eq.subst ?_ move)
  rw [desk_setSub]
  change _ = Desk.setSub ((l1.desk .serving lit).note (.ended slot (l.conns slot).sub
    (walDurableSeq l.wal))) slot _
  rw [deskOf, kept.sub, kept.durable]
  rfl

/-- A record that the log is flushed as far as, on a stream that is running. -/
theorem pushRecord_serves {r : WalRec} (sound : l.Sound lit)
    (used : (l.conns slot).inUse = true) (active : (l.conns slot).sub.active = true)
    (below : r.seq ≤ walDurableSeq l.wal) (payload : Bytes) :
    Serves .serving lit l (pushRecord l slot r payload) ∧ Shows l (pushRecord l slot r payload) ∧
      ((pushRecord l slot r payload).conns slot).sub = (l.conns slot).sub := by
  have busy := busy_of_active (sound.conns slot) used active
  unfold pushRecord replyRecord
  generalize framed : (⟨msgHeaderNew MSG_OP_NOTIFY r.recordType 0 r.len r.partitionKey r.seq,
    payload⟩ : Frame) = frame
  have founded : Founded (walDurableSeq l.wal) frame := by
    rw [← framed]
    exact ⟨fun isAck => (by cases isAck), fun _ => Or.inr below,
      fun isData => (by cases isData)⟩
  have staged : Serves .serving lit l (replyFrame l slot frame).2 :=
    replyFrame_serves sound busy founded
  have shown := replyFrame_shows l slot frame
  have subOf := replyFrame_sub l slot frame
  simp only
  generalize (replyFrame l slot frame).1 = sent
  generalize (replyFrame l slot frame).2 = l1 at *
  have pushed : Serves .serving lit l1 (l1.note (.pushed slot (l1.conns slot).sub
      (walDurableSeq l1.wal) r sent)) := by
    refine note_serves staged.sound (@Move.pushed (l1.desk .serving lit) slot r sent rfl
      (staged.busy busy).used ?_ ?_)
    · change (l1.conns slot).sub.active = true
      rw [subOf]
      exact active
    · change r.seq ≤ walDurableSeq l1.wal
      rw [shown.wal]
      exact below
  exact ⟨staged.trans pushed, ⟨shown.wal, shown.view⟩, subOf⟩

theorem pushRecords_serves (buf : Bytes) (fuel at' : Nat) (sound : l.Sound lit)
    (used : (l.conns slot).inUse = true) (active : (l.conns slot).sub.active = true)
    (below : ∀ r ∈ streamRecs buf fuel at', r.seq ≤ walDurableSeq l.wal) :
    Serves .serving lit l (pushRecords slot buf fuel l at') ∧
      Shows l (pushRecords slot buf fuel l at') := by
  induction fuel generalizing l at' with
  | zero => exact ⟨.refl sound, .refl l⟩
  | succ fuel ih =>
      unfold pushRecords
      unfold streamRecs at below
      split
      · rename_i inside
        rw [if_pos inside] at below
        cases decoded : walRecDecode (buf.drop at') with
        | none => exact ⟨.refl sound, .refl l⟩
        | some r =>
            rw [decoded] at below
            simp only at below ⊢
            split
            · exact ⟨.refl sound, .refl l⟩
            · rename_i whole
              rw [not_or] at whole
              rw [if_neg whole.1] at below
              have first := below r (List.mem_cons_self ..)
              have rest := fun r' present => below r' (List.mem_cons_of_mem r present)
              have pushed : ∃ l1, (if (l.conns slot).sub.allKeys = true ∨
                    r.partitionKey = (l.conns slot).sub.key then
                  pushRecord l slot r (slice buf (at' + WAL_REC_HEADER_SIZE) r.len) else l) = l1 ∧
                  Serves .serving lit l l1 ∧ Shows l l1 ∧
                    (l1.conns slot).sub = (l.conns slot).sub := by
                refine ⟨_, rfl, ?_⟩
                split
                · exact pushRecord_serves sound used active first _
                · exact ⟨.refl sound, .refl l, rfl⟩
              obtain ⟨l1, same, serves, shows, sub⟩ := pushed
              rw [same]
              have later := ih (at' + walRecSize (i32 r.len)) serves.sound
                ((serves.framing slot).inUse.trans used) (by rw [sub]; exact active)
                (by rw [shows.wal]; exact rest)
              exact ⟨serves.trans later.1, shows.trans later.2⟩
      · exact ⟨.refl sound, .refl l⟩

theorem subsPushRead_serves {view : Nat} (room : Nat) (sound : l.Sound lit)
    (used : (l.conns slot).inUse = true) (active : (l.conns slot).sub.active = true)
    (below : view ≤ walDurableSeq l.wal) :
    Serves .serving lit l (subsPushRead view room l slot) ∧
      Shows l (subsPushRead view room l slot) := by
  have busy := busy_of_active (sound.conns slot) used active
  unfold subsPushRead
  simp only
  cases reads : walCursorRead l.os l.wal (l.conns slot).sub.cursor view room with
  | mk res rest =>
      obtain ⟨cursor, os⟩ := rest
      have looked : Serves .serving lit l { l with os := os } := os_serves sound os
      have moved : Serves .serving lit { l with os := os }
          ({ l with os := os }.setSub slot { (l.conns slot).sub with cursor := cursor }) :=
        setSub_serves looked.sound (looked.busy busy) (Relation.ReflTransGen.single
          (@Move.advanced ({ l with os := os }.desk .serving lit) slot cursor rfl used active))
      have both := looked.trans moved
      have here := setSub_setSub { l with os := os } slot
        { (l.conns slot).sub with cursor := cursor }
      have wal : ({ l with os := os }.setSub slot
        { (l.conns slot).sub with cursor := cursor }).wal = l.wal := rfl
      have trace : ({ l with os := os }.setSub slot
        { (l.conns slot).sub with cursor := cursor }).trace = l.trace := rfl
      obtain ⟨l1, at_cursor⟩ : ∃ l1, ({ l with os := os } : Loop).setSub slot
        { (l.conns slot).sub with cursor := cursor } = l1 := ⟨_, rfl⟩
      rw [at_cursor] at both here wal trace
      have busy1 := both.busy busy
      have shows : Shows l l1 := ⟨wal, fun durable => by rw [trace]⟩
      cases res with
      | error e =>
          simp only
          rw [at_cursor]
          refine ⟨both.trans (replyErr_close_serves both.sound busy1 _ _), ?_⟩
          have refused := shows.trans (replyFrame_shows l1 slot
            (errFrame MSG_ERR_NO_HISTORY cursor.nextSeq []))
          exact ⟨refused.wal, refused.view⟩
      | ok got =>
          simp only
          rw [at_cursor]
          have gone : ∃ l2, (if got = [] then l1 else { l1 with progress := true }) = l2 ∧
              Serves .serving lit l1 l2 ∧ Shows l1 l2 ∧
                (l2.conns slot).sub = (l1.conns slot).sub := by
            refine ⟨_, rfl, ?_⟩
            split
            · exact ⟨.refl both.sound, .refl l1, rfl⟩
            · exact ⟨serves_aside both.sound rfl rfl rfl rfl rfl, ⟨rfl, fun _ => rfl⟩, rfl⟩
          obtain ⟨l2, same, serves, shown, sub⟩ := gone
          rw [same]
          have pushes := pushRecords_serves got got.length 0 serves.sound
            (serves.busy busy1).used (by rw [sub, here]; exact active)
            (by
              rw [shown.wal, wal]
              intro r present
              exact Nat.le_trans (walCursorRead_below reads _ r present) below)
          exact ⟨both.trans (serves.trans pushes.1), shows.trans (shown.trans pushes.2)⟩

theorem viewOf_le (durable : Nat) (trace : List Note) : viewOf durable trace ≤ durable := by
  fun_induction viewOf durable trace with
  | case1 => exact Nat.le_refl _
  | case2 => exact Nat.le_refl _
  | case3 slot sub earlier ih => exact Nat.le_trans (Nat.min_le_right _ _) ih
  | case4 note earlier _ _ ih => exact ih

/-- How far the loop's own variable has come in the pass. -/
def Viewed (at' : Loop × Nat) : Prop := at'.2 = viewOf (walDurableSeq at'.1.wal) at'.1.trace

theorem Shows.viewed {view : Nat} (shows : Shows l l') (viewed : Viewed (l, view)) :
    Viewed (l', view) := by
  unfold Viewed at *
  rw [shows.wal, shows.view]
  exact viewed

theorem subsPushOne_serves {view : Nat} (sound : l.Sound lit) (viewed : Viewed (l, view))
    (slot : Nat) :
    Serves .serving lit l (subsPushOne (l, view) slot).1 ∧
      Viewed (subsPushOne (l, view) slot) := by
  have below : view ≤ walDurableSeq l.wal := by
    rw [show view = _ from viewed]
    exact viewOf_le _ _
  unfold subsPushOne
  simp only
  split
  · exact ⟨.refl sound, viewed⟩
  · rename_i free
    rw [not_or, not_not] at free
    have used := free.1
    split
    · rename_i waiting
      obtain ⟨serves, shows⟩ := subsPushWaiting_serves sound used waiting viewed below
      exact ⟨serves, shows.viewed viewed⟩
    · split
      · exact ⟨.refl sound, viewed⟩
      · rename_i running
        rw [not_or, not_not] at running
        have active := running.1
        split
        · exact ⟨.refl sound, viewed⟩
        · split
          · obtain ⟨serves, shows⟩ := subsPushRead_serves
              (min (l.conns slot).room SCRATCH_LEN) sound used active below
            exact ⟨serves, shows.viewed viewed⟩
          · split
            · rename_i past
              obtain ⟨serves, shows⟩ := subsPushLast_serves sound used active past
              exact ⟨serves, shows.viewed viewed⟩
            · have noted : Serves .serving lit l (l.note (.bounded slot (l.conns slot).sub)) :=
                note_serves sound (@Move.bounded (l.desk .serving lit) slot rfl used active)
              have capped : Viewed (l.note (.bounded slot (l.conns slot).sub),
                  if view > (l.conns slot).sub.untilSeq then (l.conns slot).sub.untilSeq
                  else view) := by
                unfold Viewed
                change _ = min (l.conns slot).sub.untilSeq (viewOf (walDurableSeq l.wal) l.trace)
                rw [← show view = _ from viewed]
                split <;> omega
              obtain ⟨serves, shows⟩ := @subsPushRead_serves lit
                (l.note (.bounded slot (l.conns slot).sub)) slot
                (if view > (l.conns slot).sub.untilSeq then (l.conns slot).sub.untilSeq else view)
                (min (l.conns slot).room SCRATCH_LEN) noted.sound used active
                (by
                  change _ ≤ walDurableSeq l.wal
                  split <;> omega)
              exact ⟨noted.trans serves, shows.viewed capped⟩

theorem subsPush_serves (sound : l.Sound lit)
    (opened : viewOf (walDurableSeq l.wal) l.trace = walDurableSeq l.wal) :
    Serves .serving lit l (subsPush l) := by
  have turns (slots : List Nat) : ∀ (l : Loop) (view : Nat), l.Sound lit → Viewed (l, view) →
      Serves .serving lit l (slots.foldl subsPushOne (l, view)).1 := by
    induction slots with
    | nil => exact fun l view sound _ => .refl sound
    | cons slot rest ih =>
        intro l view sound viewed
        obtain ⟨first, after⟩ := subsPushOne_serves sound viewed slot
        exact first.trans (ih _ _ first.sound after)
  exact turns _ l _ sound opened.symm

/-! ### Retention -/

theorem retained_makes {keepFrom removed : Nat} {res : Except Err Unit} {w : Wal} {os : Os}
    (sound : l.Sound lit) (retains : walRetain l.os l.wal keepFrom = (res, removed, w, os))
    (held : l.replicasWant = 0 ∨ keepFrom ≤ l.retainFloor + 1) :
    Makes .serving lit l
      (({ l with wal := w, os := os } : Loop).note
        (.retained (walFirstSeq l.wal) (walFirstSeq w))) := by
  obtain ⟨kept, grows, active, index⟩ := walRetain_sound sound.wal retains
  refine ⟨{ sound with wal := kept }, ?_⟩
  have move := @Move.retained (l.desk .serving lit) (walFirstSeq w) rfl grows (by
    rcases walRetain_first retains with same | low
    · exact Or.inl same
    · rcases held with none | bound
      · exact Or.inr (Or.inl none)
      · exact Or.inr (Or.inr (Nat.le_trans low bound)))
  apply Relation.ReflTransGen.single
  refine Eq.subst ?_ move
  unfold Loop.desk Desk.note Loop.note walNextSeq walDurableSeq
  rw [active, index]

theorem retainPass_makes (sound : l.Sound lit) : Makes .serving lit l (retainPass l) := by
  unfold retainPass
  simp only
  split
  · exact .refl sound
  · split
    · exact .refl sound
    · have aside : Serves .serving lit l
          { l with retainFailed := false, retainSeenSegs := l.wal.segBase.length } :=
        serves_aside sound rfl rfl rfl rfl rfl
      refine aside.makes.trans ?_
      have held (mark : Nat) : l.replicasWant = 0 ∨
          (if l.replicasWant > 0 ∧ l.retainFloor + 1 < mark then l.retainFloor + 1 else mark) ≤
            l.retainFloor + 1 := by
        by_cases none : l.replicasWant = 0
        · exact Or.inl none
        · right
          split <;> omega
      have sound := aside.sound
      split
      · exact .refl sound
      · have held := held (walRetainMark l.wal l.retainSegments)
        generalize (if l.replicasWant > 0 ∧
          l.retainFloor + 1 < walRetainMark l.wal l.retainSegments then l.retainFloor + 1
            else walRetainMark l.wal l.retainSegments) = keepFrom at held ⊢
        split
        · exact .refl sound
        · cases retains : walRetain l.os l.wal keepFrom with
          | mk res rest =>
              obtain ⟨removed, w, os⟩ := rest
              have retained := retained_makes sound retains held
              refine retained.trans ?_
              apply Serves.makes
              cases res with
              | ok done => exact serves_aside retained.sound rfl rfl rfl rfl rfl
              | error e => exact serves_aside retained.sound rfl rfl rfl rfl rfl

end Msgsrvd

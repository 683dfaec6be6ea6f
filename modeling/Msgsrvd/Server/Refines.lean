/-
The loop makes the desk's moves and no others.

Each function of the loop is a run of moves between the desks before and after it,
and keeps what the loop relies on: a sound log, and connections that are blank until
their opening frame has been handled.
-/

import Msgsrvd.Server.Desk
import Msgsrvd.Wal.Memory

namespace Msgsrvd

open Bytestring

/-! ### The desk of a loop -/

def LoopConn.party (c : LoopConn) : Party :=
  ⟨c.inUse, c.session, c.replica, c.ackLocal, c.ackRepl, c.sub, c.sendBuf⟩

def LoopPeer.confirmed (p : LoopPeer) : Option Nat := if p.live then some p.durable else none

def Loop.desk (l : Loop) (phase : Phase) (lit : Nat → Bool) : Desk :=
  { phase := phase
    leading := !l.isFollower
    sessions := l.sessions
    index := l.wal.index
    first := walFirstSeq l.wal
    next := walNextSeq l.wal
    durable := walDurableSeq l.wal
    dirty := l.walDirty
    want := l.replicasWant
    floor := l.retainFloor
    peers := fun idx => (l.peer idx).confirmed
    party := fun slot => (l.conns slot).party
    watched := lit
    up := l.stream.sendBuf
    tick := l.tick
    trace := l.trace }

/-- A connection is blank until its opening frame, and again once it is given up. -/
structure LoopConn.Sound (c : LoopConn) (lit : Bool) : Prop where
  empty : c.inUse = false → c = slotEmpty ∧ lit = false
  client : c.inUse = true → c.conn.mode = .client
  fresh : c.inUse = true → c.conn.opened = false → c.conn.closed = false →
    c = { slotEmpty with inUse := true, conn := c.conn, closing := c.closing } ∧ lit = false

structure Loop.Sound (l : Loop) (lit : Nat → Bool) : Prop where
  wal : l.wal.Sound
  conns : ∀ slot, (l.conns slot).Sound (lit slot)
  inside : ∀ slot, (l.conns slot).inUse = true → slot < LOOP_MAX_CONNS
  alone : l.isFollower = false → l.stream.fd = false ∧ l.stream.connecting = false

/-- Its opening frame has been handled, or its framing is closed. -/
structure LoopConn.Busy (c : LoopConn) : Prop where
  used : c.inUse = true
  client : c.conn.mode = .client
  begun : c.conn.opened = true ∨ c.conn.closed = true

theorem LoopConn.Busy.sound {c : LoopConn} (busy : c.Busy) (lit : Bool) : c.Sound lit where
  empty := by
    intro free
    rw [busy.used] at free
    cases free
  client := fun _ => busy.client
  fresh := by
    intro _used unopened unclosed
    rcases busy.begun with opened | closed
    · rw [opened] at unopened
      cases unopened
    · rw [closed] at unclosed
      cases unclosed

/-- The same connection as far as framing goes. -/
structure LoopConn.SameFraming (c c' : LoopConn) : Prop where
  conn : c'.conn = c.conn
  inUse : c'.inUse = c.inUse

theorem LoopConn.SameFraming.busy {c c' : LoopConn} (same : c.SameFraming c') (busy : c.Busy) :
    c'.Busy where
  used := by rw [same.inUse]; exact busy.used
  client := by rw [same.conn]; exact busy.client
  begun := by rw [same.conn]; exact busy.begun

/-- A run of moves that leaves every connection's framing as it was. -/
structure Serves (phase : Phase) (lit : Nat → Bool) (l l' : Loop) : Prop where
  sound : l'.Sound lit
  moves : Moves (l.desk phase lit) (l'.desk phase lit)
  framing : ∀ slot, (l.conns slot).SameFraming (l'.conns slot)

variable {phase : Phase} {lit : Nat → Bool} {l l' l'' : Loop} {slot : Nat}

theorem Serves.refl (sound : l.Sound lit) : Serves phase lit l l :=
  ⟨sound, Relation.ReflTransGen.refl, fun _ => ⟨rfl, rfl⟩⟩

theorem Serves.trans (left : Serves phase lit l l') (right : Serves phase lit l' l'') :
    Serves phase lit l l'' where
  sound := right.sound
  moves := left.moves.trans right.moves
  framing := fun slot =>
    ⟨(right.framing slot).conn.trans (left.framing slot).conn,
      (right.framing slot).inUse.trans (left.framing slot).inUse⟩

theorem Serves.busy (serves : Serves phase lit l l') (busy : (l.conns slot).Busy) :
    (l'.conns slot).Busy :=
  (serves.framing slot).busy busy

/-! ### One connection at a time -/

@[simp] theorem conns_setConn (l : Loop) (slot : Nat) (c : LoopConn) :
    (l.setConn slot c).conns slot = c := if_pos rfl

theorem conns_setConn_kept (l : Loop) (slot : Nat) :
    (l.setConn slot (l.conns slot)).conns = l.conns := by
  unfold Loop.setConn
  funext other
  by_cases same : other = slot
  · simp only [same, if_true]
  · simp only [if_neg same]

theorem conns_setConn_other (l : Loop) {slot other : Nat} (c : LoopConn) (differ : other ≠ slot) :
    (l.setConn slot c).conns other = l.conns other := if_neg differ

theorem desk_setConn (phase : Phase) (lit : Nat → Bool) (l : Loop) (slot : Nat) (c : LoopConn) :
    (l.setConn slot c).desk phase lit = (l.desk phase lit).setParty slot c.party := by
  unfold Loop.desk Desk.setParty Loop.setConn
  congr 1
  funext other
  by_cases same : other = slot
  · simp only [if_pos same]
  · simp only [if_neg same]

theorem setParty_same (d : Desk) (slot : Nat) : d.setParty slot (d.party slot) = d := by
  unfold Desk.setParty
  congr 1
  funext other
  by_cases same : other = slot
  · rw [if_pos same, same]
  · rw [if_neg same]

/-- A change to a connection that does not show on the desk. -/
theorem desk_setConn_same (l : Loop) {slot : Nat} {c : LoopConn}
    (same : c.party = (l.conns slot).party) :
    (l.setConn slot c).desk phase lit = l.desk phase lit := by
  rw [desk_setConn, same]
  exact setParty_same (l.desk phase lit) slot

theorem Loop.Sound.setConn (sound : l.Sound lit) {c : LoopConn} (fits : c.Sound (lit slot))
    (inside : c.inUse = true → slot < LOOP_MAX_CONNS) : (l.setConn slot c).Sound lit where
  wal := sound.wal
  conns := by
    intro other
    by_cases same : other = slot
    · subst same
      rw [conns_setConn]
      exact fits
    · rw [conns_setConn_other l c same]
      exact sound.conns other
  inside := by
    intro other used
    by_cases same : other = slot
    · subst same
      rw [conns_setConn] at used
      exact inside used
    · rw [conns_setConn_other l c same] at used
      exact sound.inside other used
  alone := sound.alone

/-- Changing a busy connection, with its framing kept, moves the desk as its party moves. -/
theorem serves_setConn (sound : l.Sound lit) (busy : (l.conns slot).Busy) {c : LoopConn}
    (same : (l.conns slot).SameFraming c)
    (moves : Moves (l.desk phase lit) ((l.desk phase lit).setParty slot c.party)) :
    Serves phase lit l (l.setConn slot c) where
  sound := sound.setConn ((same.busy busy).sound _) (fun _ => sound.inside slot busy.used)
  moves := by
    rw [desk_setConn]
    exact moves
  framing := by
    intro other
    by_cases at_slot : other = slot
    · subst at_slot
      rw [conns_setConn]
      exact same
    · rw [conns_setConn_other l c at_slot]
      exact ⟨rfl, rfl⟩

theorem serves_setConn_same (sound : l.Sound lit) (busy : (l.conns slot).Busy) {c : LoopConn}
    (same : (l.conns slot).SameFraming c) (party : c.party = (l.conns slot).party) :
    Serves phase lit l (l.setConn slot c) := by
  apply serves_setConn sound busy same
  rw [party]
  rw [show (l.conns slot).party = (l.desk phase lit).party slot from rfl, setParty_same]
  exact Relation.ReflTransGen.refl

theorem close_serves (sound : l.Sound lit) (busy : (l.conns slot).Busy) :
    Serves phase lit l (l.close slot) :=
  serves_setConn_same sound busy ⟨rfl, rfl⟩ rfl

theorem desk_setSub (phase : Phase) (lit : Nat → Bool) (l : Loop) (slot : Nat) (sub : LoopSub) :
    (l.setSub slot sub).desk phase lit = (l.desk phase lit).setSub slot sub :=
  desk_setConn phase lit l slot _

/-- Changing a subscription moves the desk as it changes there. -/
theorem setSub_serves (sound : l.Sound lit) (busy : (l.conns slot).Busy) {sub : LoopSub}
    (moves : Moves (l.desk phase lit) ((l.desk phase lit).setSub slot sub)) :
    Serves phase lit l (l.setSub slot sub) :=
  serves_setConn sound busy ⟨rfl, rfl⟩ moves

/-- A change the desk does not show and the loop does not rely on. -/
theorem serves_aside (sound : l.Sound lit) (wal : l'.wal = l.wal) (conns : l'.conns = l.conns)
    (follower : l'.isFollower = l.isFollower) (stream : l'.stream = l.stream)
    (desk : l'.desk phase lit = l.desk phase lit) : Serves phase lit l l' where
  sound :=
    { wal := by rw [wal]; exact sound.wal
      conns := by rw [conns]; exact sound.conns
      inside := by rw [conns]; exact sound.inside
      alone := by rw [follower, stream]; exact sound.alone }
  moves := by
    rw [desk]
    exact Relation.ReflTransGen.refl
  framing := by
    intro slot
    rw [conns]
    exact ⟨rfl, rfl⟩

theorem note_serves (sound : l.Sound lit) {note : Note}
    (move : Move (l.desk phase lit) ((l.desk phase lit).note note)) :
    Serves phase lit l (l.note note) where
  sound := { sound with }
  moves := Relation.ReflTransGen.single move
  framing := fun _ => ⟨rfl, rfl⟩

/-- A loop that differs from a sound one in a busy connection's debts and on the desk. -/
theorem serves_owing (sound : l.Sound lit) (busy : (l.conns slot).Busy) (walSound : l'.wal.Sound)
    (follower : l'.isFollower = l.isFollower) (stream : l'.stream = l.stream)
    (conns : ∃ c, (l.conns slot).SameFraming c ∧ l'.conns = (l.setConn slot c).conns)
    (moves : Moves (l.desk phase lit) (l'.desk phase lit)) : Serves phase lit l l' := by
  obtain ⟨c, same, conns⟩ := conns
  have changed := sound.setConn ((same.busy busy).sound (lit slot))
    (fun _ => sound.inside slot busy.used)
  refine ⟨⟨walSound, ?_, ?_, ?_⟩, moves, ?_⟩
  · rw [conns]
    exact changed.conns
  · rw [conns]
    exact changed.inside
  · rw [follower, stream]
    exact sound.alone
  · intro other
    rw [conns]
    by_cases at_slot : other = slot
    · subst at_slot
      rw [conns_setConn]
      exact same
    · rw [conns_setConn_other l c at_slot]
      exact ⟨rfl, rfl⟩

/-! ### Replies -/

theorem replyFrame_desk (phase : Phase) (lit : Nat → Bool) (l : Loop) (slot : Nat)
    (frame : Frame) :
    (replyFrame l slot frame).2.desk phase lit =
      (l.desk phase lit).stageIf (replyFrame l slot frame).1 slot frame := by
  unfold replyFrame
  simp only
  split
  · rfl
  · unfold Desk.stageIf Desk.stage
    rw [if_pos rfl]
    change (Loop.desk (l.setConn slot
      { l.conns slot with sendBuf := (l.conns slot).sendBuf ++ frame.bytes }) phase lit).note _ = _
    rw [desk_setConn]
    rfl

/-- A reply changes nothing but the buffer it is staged in. -/
theorem replyFrame_frame (l : Loop) (slot : Nat) (frame : Frame) :
    let l' := (replyFrame l slot frame).2
    l'.wal = l.wal ∧ l'.isFollower = l.isFollower ∧ l'.stream = l.stream ∧
      ∃ c, (l.conns slot).SameFraming c ∧ l'.conns = (l.setConn slot c).conns := by
  unfold replyFrame
  simp only
  split
  · refine ⟨rfl, rfl, rfl, _, ?_, (conns_setConn_kept l slot).symm⟩
    exact ⟨rfl, rfl⟩
  · refine ⟨rfl, rfl, rfl, _, ?_, rfl⟩
    exact ⟨rfl, rfl⟩

theorem replyFrame_serves (sound : l.Sound lit) (busy : (l.conns slot).Busy) {frame : Frame}
    (founded : Founded (walDurableSeq l.wal) frame) :
    Serves phase lit l (replyFrame l slot frame).2 := by
  obtain ⟨wal, follower, stream, conns⟩ := replyFrame_frame l slot frame
  refine serves_owing sound busy (wal ▸ sound.wal) follower stream conns ?_
  rw [replyFrame_desk]
  unfold Desk.stageIf
  split
  · exact Relation.ReflTransGen.single (.staged busy.used founded)
  · exact Relation.ReflTransGen.refl

theorem replyErrText_serves (sound : l.Sound lit) (busy : (l.conns slot).Busy)
    (code sequence : Nat) (text : Bytes) :
    Serves phase lit l (replyErrText l slot code sequence text).2 :=
  replyFrame_serves sound busy
    ⟨fun isAck => (by cases isAck), fun isNotify => (by cases isNotify),
      fun isData => (by cases isData)⟩

theorem replyErr_serves (sound : l.Sound lit) (busy : (l.conns slot).Busy)
    (code sequence : Nat) : Serves phase lit l (replyErr l slot code sequence) :=
  replyErrText_serves sound busy code sequence []

/-- An ERR, after which the connection ends. -/
theorem replyErr_close_serves (sound : l.Sound lit) (busy : (l.conns slot).Busy)
    (code sequence : Nat) : Serves phase lit l ((replyErr l slot code sequence).close slot) := by
  have first : Serves phase lit l (replyErr l slot code sequence) :=
    replyErr_serves sound busy code sequence
  exact first.trans (close_serves first.sound (first.busy busy))

/-! ### What a write is owed -/

theorem desk_live (phase : Phase) (lit : Nat → Bool) (l : Loop) :
    (l.desk phase lit).live = replLive l := by
  have same (idx : Nat) : (l.peer idx).confirmed.isSome = (l.peer idx).live := by
    unfold LoopPeer.confirmed
    cases (l.peer idx).live <;> rfl
  unfold Desk.live replLive
  congr 1
  funext idx
  exact same idx

theorem wrote_note (phase : Phase) (lit : Nat → Bool) (l : Loop) (slot : Nat) (h : MsgHeader)
    (fate : Fate) :
    l.wrote slot h fate = l.note (.wrote ((l.desk phase lit).write slot h fate)) := by
  unfold Loop.wrote Desk.write
  rw [desk_live]
  rfl

theorem refuseWrite_serves (sound : l.Sound lit) (busy : (l.conns slot).Busy) (h : MsgHeader)
    (code : Nat) (text : Bytes) : Serves phase lit l (refuseWrite l slot h code text) := by
  unfold refuseWrite
  rw [wrote_note phase lit]
  have noted : Serves phase lit l
      (l.note (.wrote ((l.desk phase lit).write slot h (.refused code)))) :=
    note_serves sound (.refused slot h code)
  exact noted.trans (replyErrText_serves noted.sound (noted.busy busy) _ _ _)

/-- What `ackWrite` does for a write that asks for an acknowledgement. -/
theorem ackWrite_desk (l : Loop) (slot : Nat) {flags : Nat} (clientSeq walSeq : Nat)
    (asked : hasFlag flags MSG_FLAG_ACK_REQ = true) :
    (ackWrite l slot (ackFlagsOf flags) (hasFlag flags MSG_FLAG_REPLICATED)
      (hasFlag flags MSG_FLAG_ALLOW_DEGRADED) clientSeq walSeq).desk phase lit =
      (l.desk phase lit).setParty slot
        ((l.conns slot).party.owe (replLive l) l.tick flags clientSeq walSeq) := by
  unfold ackWrite Party.owe
  simp only [asked, not_true_eq_false, if_false]
  split
  · rw [desk_setConn]
    rfl
  · split
    · exact desk_setConn phase lit l slot _
    · rw [desk_setConn]
      rfl

theorem ackWrite_frame (l : Loop) (slot ackFlags : Nat) (wantsRepl degradable : Bool)
    (clientSeq walSeq : Nat) :
    let l' := ackWrite l slot ackFlags wantsRepl degradable clientSeq walSeq
    l'.wal = l.wal ∧ l'.isFollower = l.isFollower ∧ l'.stream = l.stream ∧
      ∃ c, (l.conns slot).SameFraming c ∧ l'.conns = (l.setConn slot c).conns := by
  unfold ackWrite
  simp only
  split
  · refine ⟨rfl, rfl, rfl, _, ?_, rfl⟩
    exact ⟨rfl, rfl⟩
  · split
    · refine ⟨rfl, rfl, rfl, _, ?_, rfl⟩
      exact ⟨rfl, rfl⟩
    · refine ⟨rfl, rfl, rfl, _, ?_, rfl⟩
      exact ⟨rfl, rfl⟩

theorem owe_silent {p : Party} {live : Bool} {tick flags clientSeq walSeq : Nat}
    (silent : ¬ hasFlag flags MSG_FLAG_ACK_REQ = true) :
    p.owe live tick flags clientSeq walSeq = p := if_pos silent

theorem resendWrite_serves (sound : l.Sound lit) (busy : (l.conns slot).Busy) {h : MsgHeader}
    {s : Session} (leading : l.isFollower = false)
    (known : sessionLookup l.sessions (l.conns slot).session = some s)
    (able : wantsCopy h.flags (replLive l) = false) (low : h.sequence ≤ s.lastClientSeq) :
    Serves .dispatching lit l (resendWrite l slot h s.lastClientSeq) := by
  have move := @Move.resent (l.desk .dispatching lit) slot h s rfl
    (by unfold Loop.desk; rw [leading]; rfl) busy.used known (by rw [desk_live]; exact able) low
  rw [desk_live] at move
  unfold resendWrite
  rw [wrote_note .dispatching lit]
  simp only
  split
  · rename_i asked
    obtain ⟨wal, follower, stream, conns⟩ := ackWrite_frame
      (l.note (.wrote ((l.desk .dispatching lit).write slot h .resent))) slot
      (ackFlagsOf h.flags) (hasFlag h.flags MSG_FLAG_REPLICATED)
      (hasFlag h.flags MSG_FLAG_ALLOW_DEGRADED) s.lastClientSeq (walDurableSeq l.wal)
    refine serves_owing sound busy ((congrArg Wal.Sound wal).mpr sound.wal) follower stream
      conns ?_
    apply Relation.ReflTransGen.single
    rw [ackWrite_desk _ _ _ _ asked]
    exact move
  · rename_i silent
    rw [owe_silent silent] at move
    refine note_serves sound ?_
    have kept : ((l.desk .dispatching lit).note
        (.wrote ((l.desk .dispatching lit).write slot h .resent))).setParty slot
          ((l.desk .dispatching lit).party slot) =
        (l.desk .dispatching lit).note
          (.wrote ((l.desk .dispatching lit).write slot h .resent)) :=
      setParty_same _ slot
    rw [kept] at move
    exact move

/-! ### Appending -/

theorem flushes_rest (l : Loop) (rollover : Bool) :
    l.flushes rollover = { l with trace := (l.flushes rollover).trace } := by
  unfold Loop.flushes
  split <;> rfl

/-- A flush that is recorded is one move of the desk, or none. -/
theorem flushes_moves (sound : l.Sound lit) (rollover : Bool) {res : Except Err Unit} {w : Wal}
    {os : Os} (flushes : walSync l.os l.wal = (res, w, os)) :
    Moves (l.desk .dispatching lit)
      { l.desk .dispatching lit with
        durable := walDurableSeq w
        phase := if res.isOk || rollover then .dispatching else .stopped
        trace := (l.flushes rollover).trace } := by
  have flushed := walSync_sound sound.wal flushes
  unfold Loop.flushes
  by_cases settled : l.wal.active.syncedOff = l.wal.active.writeOff
  · rw [if_pos settled]
    unfold walSync walSegSync at flushes
    rw [if_pos settled] at flushes
    cases flushes
    exact Relation.ReflTransGen.refl
  · rw [if_neg settled, flushes]
    apply Relation.ReflTransGen.single
    refine @Move.synced (l.desk .dispatching lit) (walDurableSeq w) rollover res.isOk rfl ?_ ?_
      flushed.durable
    · intro ok
      cases res with
      | error e => cases ok
      | ok done => exact (flushed.settled rfl).trans flushed.next
    · intro failed
      cases res with
      | error e => exact walSync_failed flushes
      | ok done => cases failed

/-- An append leaves the loop alone but for the log, after one flush or none. -/
structure Logged (lit : Nat → Bool) (l l' : Loop) (stored : Option WalRec) : Prop where
  rest : l' = { l with wal := l'.wal, os := l'.os, trace := l'.trace }
  moved : Moved l.wal l'.wal stored
  index : l'.wal.index = (stored.map (walIndexAdd l.wal.index)).getD l.wal.index
  moves : Moves (l.desk .dispatching lit)
    { l.desk .dispatching lit with durable := walDurableSeq l'.wal, trace := l'.trace }

theorem rolled_moves (sound : l.Sound lit) (r : WalRec) {l1 : Loop}
    (flushed : l1 = if walRollsOver l.wal r then l.flushes true else l) :
    l1 = { l with trace := l1.trace } ∧ Moves (l.desk .dispatching lit)
      { l.desk .dispatching lit with
        durable := walRolledDurable l.os l.wal r, trace := l1.trace } := by
  subst flushed
  unfold walRolledDurable
  split
  · refine ⟨flushes_rest l true, ?_⟩
    have moves := @flushes_moves lit l sound true _ _ _ rfl
    rw [Bool.or_true, if_pos rfl] at moves
    exact moves
  · exact ⟨rfl, Relation.ReflTransGen.refl⟩

theorem logAppend_logged {r : WalRec} {payload : Bytes} {res : Except Err WalRec}
    (sound : l.Sound lit) (appends : logAppend l r payload = (res, l')) :
    Logged lit l l' res.toOption ∧ ∀ out, res = .ok out → Carries out r := by
  unfold logAppend at appends
  generalize flushed : (if walRollsOver l.wal r = true then l.flushes true else l) = l1 at appends
  obtain ⟨rest, moves⟩ := rolled_moves sound r flushed.symm
  rw [rest] at appends
  cases stores : walAppend l.os l.wal r payload SCRATCH_LEN with
  | mk done log =>
      obtain ⟨w, os⟩ := log
      simp only [stores] at appends
      cases appends
      obtain ⟨moved, carries⟩ := walAppend_sound sound.wal stores
      obtain ⟨durable, index⟩ := walAppend_beside stores
      rw [← durable] at moves
      exact ⟨⟨rfl, moved, index, moves⟩, carries⟩

theorem logAppendAt_logged {r : WalRec} {payload : Bytes} {res : Except Err WalRec}
    (sound : l.Sound lit) (appends : logAppendAt l r payload = (res, l')) :
    Logged lit l l' res.toOption ∧ ∀ out, res = .ok out → Carries out r := by
  unfold logAppendAt at appends
  generalize flushed : (if r.seq = walNextSeq l.wal ∧ walRollsOver l.wal r = true then
    l.flushes true else l) = l1 at appends
  have both : l1 = { l with trace := l1.trace } ∧ Moves (l.desk .dispatching lit)
      { l.desk .dispatching lit with
        durable := if r.seq = walNextSeq l.wal then walRolledDurable l.os l.wal r
          else walDurableSeq l.wal
        trace := l1.trace } := by
    by_cases expected : r.seq = walNextSeq l.wal
    · simp only [expected, true_and, if_true] at flushed ⊢
      exact rolled_moves sound r flushed.symm
    · simp only [expected, false_and, if_false] at flushed ⊢
      rw [← flushed]
      exact ⟨rfl, Relation.ReflTransGen.refl⟩
  obtain ⟨rest, moves⟩ := both
  rw [rest] at appends
  cases stores : walAppendAt l.os l.wal r payload SCRATCH_LEN with
  | mk done log =>
      obtain ⟨w, os⟩ := log
      simp only [stores] at appends
      cases appends
      obtain ⟨moved, carries⟩ := walAppendAt_sound sound.wal stores
      obtain ⟨durable, index⟩ := walAppendAt_beside sound.wal stores
      rw [← durable] at moves
      exact ⟨⟨rfl, moved, index, moves⟩, carries⟩

/-- An append that stored nothing may still have flushed. -/
theorem unlogged_serves (sound : l.Sound lit) (logged : Logged lit l l' none) :
    Serves .dispatching lit l l' := by
  obtain ⟨rest, moved, index, moves⟩ := logged
  have first : walFirstSeq l'.wal = walFirstSeq l.wal := moved.first
  have next : walNextSeq l'.wal = walNextSeq l.wal := moved.next
  have index : l'.wal.index = l.wal.index := index
  have desk : l'.desk .dispatching lit = { l.desk .dispatching lit with
      durable := walDurableSeq l'.wal, trace := l'.trace } := by
    rw [rest]
    unfold Loop.desk
    simp only [first, next, index]
  have walSound := moved.sound
  refine ⟨?_, by rw [desk]; exact moves, ?_⟩
  · rw [rest]
    exact { sound with wal := walSound }
  · intro slot
    rw [rest]
    exact ⟨rfl, rfl⟩

/-! ### Writes -/

theorem storedWrite_serves {r : WalRec} {h : MsgHeader} {s : Session}
    (sound : l.Sound lit) (busy : (l.conns slot).Busy) (leading : l.isFollower = false)
    (known : sessionLookup l.sessions (l.conns slot).session = some s)
    (able : wantsCopy h.flags (replLive l) = false) (high : s.lastClientSeq < h.sequence)
    (logged : Logged lit l l' (some r)) (session : r.session = (l.conns slot).session)
    (clientSeq : r.clientSeq = h.sequence) :
    Serves .dispatching lit l (storedWrite l' slot h r) := by
  obtain ⟨rest, moved, index, moves⟩ := logged
  obtain ⟨seq, below⟩ := moved.at_next r rfl
  have first : walFirstSeq l'.wal = walFirstSeq l.wal := moved.first
  have next : walNextSeq l'.wal = walNextSeq l.wal + 1 := moved.next
  have index : l'.wal.index = walIndexAdd l.wal.index r := index
  have walSound := moved.sound
  have live : (l.desk .dispatching lit).live = replLive l := desk_live _ _ l
  have move := @Move.stored { l.desk .dispatching lit with
      durable := walDurableSeq l'.wal, trace := l'.trace } slot h s r rfl
    (by unfold Loop.desk; rw [leading]; rfl) busy.used known
    (by change wantsCopy h.flags (l.desk .dispatching lit).live = false; rw [live]; exact able)
    high seq session clientSeq below
  rw [show ({ l.desk .dispatching lit with
    durable := walDurableSeq l'.wal, trace := l'.trace } : Desk).live = replLive l from live] at move
  have arrives : Moves (l.desk .dispatching lit) _ := moves.tail move
  generalize l'.wal = w at *
  generalize l'.os = os at *
  generalize l'.trace = trace at *
  subst rest
  have noted : ({ l with wal := w, os := os, trace := trace } : Loop).wrote slot h (.stored r) =
      ({ l with wal := w, os := os, trace := trace } : Loop).note
        (.wrote (({ l.desk .dispatching lit with
          durable := walDurableSeq w, trace := trace } : Desk).write slot h (.stored r))) := by
    unfold Loop.wrote Desk.write
    rw [show ({ l.desk .dispatching lit with
      durable := walDurableSeq w, trace := trace } : Desk).live = replLive l from live]
    rfl
  unfold storedWrite
  rw [noted]
  simp only
  split
  · rename_i asked
    obtain ⟨wal, follower, stream, conns⟩ := ackWrite_frame
      { (({ l with wal := w, os := os, trace := trace } : Loop).note
          (.wrote (({ l.desk .dispatching lit with
            durable := walDurableSeq w, trace := trace } : Desk).write slot h (.stored r)))) with
        walDirty := true
        sessions := sessionTouch (sessionStore l.sessions (l.conns slot).session
          (fun s => { s with lastClientSeq := h.sequence })) (l.conns slot).session }
      slot (ackFlagsOf h.flags) (hasFlag h.flags MSG_FLAG_REPLICATED)
      (hasFlag h.flags MSG_FLAG_ALLOW_DEGRADED) h.sequence r.seq
    refine serves_owing sound busy ((congrArg Wal.Sound wal).mpr walSound) follower stream
      conns ?_
    refine Eq.subst ?_ arrives
    rw [ackWrite_desk _ _ _ _ asked]
    unfold Loop.desk Loop.note Desk.setParty
    simp only [first, next, index]
    congr 1
  · rename_i silent
    have conns : ∃ c, (l.conns slot).SameFraming c ∧ l.conns = (l.setConn slot c).conns :=
      ⟨l.conns slot, ⟨rfl, rfl⟩, (conns_setConn_kept l slot).symm⟩
    refine serves_owing sound busy walSound rfl rfl conns ?_
    refine Eq.subst ?_ arrives
    rw [owe_silent silent]
    unfold Loop.desk Loop.note Desk.setParty
    simp only [first, next, index]
    congr 1
    funext other
    by_cases same : other = slot
    · rw [if_pos same, same]
    · rw [if_neg same]

theorem handleWrite_serves (sound : l.Sound lit) (busy : (l.conns slot).Busy) (h : MsgHeader)
    (payload : Bytes) : Serves .dispatching lit l (handleWrite l slot h payload) := by
  unfold handleWrite
  cases known : sessionLookup l.sessions (l.conns slot).session with
  | none =>
      have refused : Serves .dispatching lit l (refuseWrite l slot h MSG_ERR_NO_SESSION []) :=
        refuseWrite_serves sound busy h _ _
      exact refused.trans (close_serves refused.sound (refused.busy busy))
  | some s =>
      simp only
      by_cases follower : l.isFollower = true
      · rw [if_pos follower]
        exact refuseWrite_serves sound busy h _ _
      · rw [if_neg follower]
        rw [Bool.not_eq_true] at follower
        by_cases unable : hasFlag h.flags MSG_FLAG_REPLICATED ∧ ¬ replLive l ∧
            ¬ hasFlag h.flags MSG_FLAG_ALLOW_DEGRADED
        · rw [if_pos unable]
          exact refuseWrite_serves sound busy h _ _
        · rw [if_neg unable]
          have able : wantsCopy h.flags (replLive l) = false := by
            unfold wantsCopy
            rw [← Bool.not_eq_true]
            simpa only [Bool.and_eq_true, Bool.not_eq_true', Bool.not_eq_true, and_assoc]
              using unable
          by_cases low : h.sequence ≤ s.lastClientSeq
          · rw [if_pos low]
            exact resendWrite_serves sound busy follower known able low
          · rw [if_neg low]
            cases appends : logAppend l (writeRec (l.conns slot).session h payload) payload with
            | mk res l1 =>
                obtain ⟨logged, carries⟩ := logAppend_logged sound appends
                cases res with
                | error e =>
                    have kept : Serves .dispatching lit l l1 := unlogged_serves sound logged
                    exact kept.trans (refuseWrite_serves kept.sound (kept.busy busy) h _ _)
                | ok r =>
                    have same := carries r rfl
                    exact storedWrite_serves sound busy follower known able (by omega) logged
                      same.session same.clientSeq

end Msgsrvd

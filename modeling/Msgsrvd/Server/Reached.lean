/-
The moves of whole passes, and of whole runs.
-/

import Msgsrvd.Server.Serving

namespace Msgsrvd

open Bytestring

variable {lit : Nat → Bool} {l l' : Loop} {slot : Nat}

/-- Outside the dispatch no connection is waited on. -/
def dark : Nat → Bool := fun _ => false

/-! ### The arm phase -/

theorem setParty_setParty (d : Desk) (slot : Nat) (p q : Party) :
    (d.setParty slot p).setParty slot q = d.setParty slot q := by
  unfold Desk.setParty
  congr 1
  funext other
  by_cases same : other = slot
  · change (if other = slot then q else if other = slot then p else d.party other) =
      if other = slot then q else d.party other
    rw [if_pos same, if_pos same]
  · change (if other = slot then q else if other = slot then p else d.party other) =
      if other = slot then q else d.party other
    rw [if_neg same, if_neg same, if_neg same]

theorem slotReset_makes (sound : l.Sound dark) (used : (l.conns slot).inUse = true) :
    Makes .arming dark l ((slotReset l slot).note (.released slot)) := by
  have empty : slotEmpty.Sound (dark slot) :=
    { empty := fun _ => ⟨rfl, rfl⟩
      client := fun busy => by cases busy
      fresh := fun busy => by cases busy }
  refine ⟨{ (sound.setConn empty (fun busy => by cases busy)) with }, ?_⟩
  have move := @Move.released (l.desk .arming dark) slot rfl used
  apply Relation.ReflTransGen.single
  refine Eq.subst ?_ move
  change _ = ((l.setConn slot slotEmpty).desk .arming dark).note _
  rw [desk_setConn]
  rfl

/-- The replica that held the connection leaves, and then the connection does. -/
theorem slotReset_detached {idx : Nat} (sound : l.Sound dark)
    (used : (l.conns slot).inUse = true) (of : (l.conns slot).replica = some idx)
    (cursor : WalCursor) (os : Os) :
    Makes .arming dark l ((slotReset (({ l with os := os }.setPeer idx ⟨false, 0, cursor⟩).note
      (.detached idx)) slot).note (.released slot)) := by
  have empty : slotEmpty.Sound (dark slot) :=
    { empty := fun _ => ⟨rfl, rfl⟩
      client := fun busy => by cases busy
      fresh := fun busy => by cases busy }
  refine ⟨{ (sound.setConn empty (fun busy => by cases busy)) with }, ?_⟩
  have leaves := @Move.detached (l.desk .arming dark) slot idx rfl used of
  refine Relation.ReflTransGen.tail (Relation.ReflTransGen.single leaves) ?_
  have resets := @Move.released (((((l.desk .arming dark).setParty slot
    { (l.desk .arming dark).party slot with replica := none }).setPeer idx none).note
      (.detached idx))) slot rfl ?_
  · refine Eq.subst ?_ resets
    change _ = ((((({ l with os := os } : Loop).setPeer idx ⟨false, 0, cursor⟩).note
      (.detached idx)).setConn slot slotEmpty).desk .arming dark).note (.released slot)
    rw [desk_setConn]
    change _ = ((((({ l with os := os } : Loop).setPeer idx ⟨false, 0, cursor⟩).desk .arming
      dark).note (.detached idx)).setParty slot Party.idle).note (.released slot)
    rw [desk_setPeer]
    have once := setParty_setParty (l.desk .arming dark) slot
      { (l.desk .arming dark).party slot with replica := none } Party.idle
    exact congrArg (fun d => ((d.setPeer idx none).note (.detached idx)).note (.released slot)) once
  · change (((l.desk .arming dark).setParty slot _).party slot).inUse = true
    rw [show ((l.desk .arming dark).setParty slot
      { (l.desk .arming dark).party slot with replica := none }).party slot = _ from if_pos rfl]
    exact used

theorem slotRelease_makes (sound : l.Sound dark) (slot : Nat) :
    Makes .arming dark l (slotRelease l slot) := by
  unfold slotRelease
  by_cases used : (l.conns slot).inUse = true
  · simp only
    rw [if_neg (not_not.mpr used)]
    have closed (os : Os) : Makes .arming dark l ((slotReset { l with os := os } slot).note
        (.released slot)) := by
      have shut : Serves .arming dark l { l with os := os } := os_serves sound os
      exact shut.makes.trans (slotReset_makes shut.sound used)
    cases of : (l.conns slot).replica with
    | none =>
        cases (l.conns slot).sub.cursor.fd with
        | none => exact slotReset_makes sound used
        | some fd => exact closed _
    | some idx =>
        simp only
        unfold replicaRelease
        by_cases beyond : LOOP_MAX_REPLICAS ≤ idx
        · rw [if_pos beyond]
          cases (l.conns slot).sub.cursor.fd with
          | none => exact slotReset_makes sound used
          | some fd => exact closed _
        · rw [if_neg beyond]
          generalize walCursorClose l.os (l.peer idx).cursor = freed
          obtain ⟨cursor, os⟩ := freed
          cases (l.conns slot).sub.cursor.fd with
          | none => exact slotReset_detached sound used of cursor os
          | some fd => exact slotReset_detached sound used of cursor _
  · rw [if_pos used]
    exact .refl sound

theorem armConn_makes (sends : Nat → SendAnswer) (sound : l.Sound dark) (slot : Nat) :
    Makes .arming dark l (armConn sends l slot) := by
  unfold armConn
  by_cases used : (l.conns slot).inUse = true
  · rw [if_neg (not_not.mpr used)]
    have sent : ∃ l1, (if (l.conns slot).sendBuf ≠ [] ∧ ¬ (l.conns slot).wantOut = true then
          connSend l slot (sends slot) else l) = l1 ∧ Serves .arming dark l l1 := by
      refine ⟨_, rfl, ?_⟩
      split
      · rename_i some'
        exact connSend_serves sound ((sound.conns slot).busy used some'.1) _ (Or.inl rfl)
      · exact .refl sound
    obtain ⟨l1, same, serves⟩ := sent
    rw [same]
    have used1 : (l1.conns slot).inUse = true := (serves.framing slot).inUse.trans used
    refine serves.makes.trans ?_
    simp only
    split
    · exact slotRelease_makes serves.sound slot
    · have compacted : Makes .arming dark l1 (l1.setConn slot
          { l1.conns slot with conn := connCompact (l1.conns slot).conn }) := by
        have same : (connCompact (l1.conns slot).conn).mode = (l1.conns slot).conn.mode ∧
            (connCompact (l1.conns slot).conn).opened = (l1.conns slot).conn.opened ∧
            (connCompact (l1.conns slot).conn).closed = (l1.conns slot).conn.closed := by
          unfold connCompact
          split
          · exact ⟨rfl, rfl, rfl⟩
          · exact ⟨rfl, rfl, rfl⟩
        obtain ⟨mode, opened, closed⟩ := same
        have fits := serves.sound.conns slot
        refine setConn_makes serves.sound
          (fits.reframed used1 (mode.trans (fits.client used1)) ?_) used1 rfl
        intro unopened unclosed
        exact ⟨opened.symm.trans unopened, closed.symm.trans unclosed⟩
      have used2 : ((l1.setConn slot { l1.conns slot with
          conn := connCompact (l1.conns slot).conn }).conns slot).inUse = true := by
        rw [conns_setConn]
        exact used1
      refine compacted.trans ?_
      split
      · have closed : Makes .arming dark _ _ := close_makes compacted.sound used2
        exact closed.trans (slotRelease_makes closed.sound slot)
      · exact .refl compacted.sound
  · rw [if_pos used]
    exact .refl sound

theorem replDial_makes (sound : l.Sound dark) (answer : DialAnswer) :
    Makes .arming dark l (replDial l answer) := by
  unfold replDial
  by_cases leading : ¬ l.isFollower = true ∨ l.stop = true
  · rw [if_pos leading]
    exact .refl sound
  · rw [if_neg leading]
    rw [not_or, not_not] at leading
    have following := leading.1
    split
    · exact .refl sound
    · split
      · exact .refl sound
      · simp only
        have dialing : Streams .arming dark l
            { l with stream := { l.stream with fd := true, connecting := true } } :=
          setStream_same sound following rfl
        have later : Streams .arming dark l { l with
            stream := { l.stream with nextDial := u32Add l.tick LOOP_REDIAL_TICKS } } :=
          setStream_same sound following rfl
        cases answer with
        | noSocket => exact later.makes
        | noWatch => exact later.makes
        | connected ctl =>
            exact (dialing.trans (onReplDial_streams dialing.makes.sound following true ctl)).makes
        | inProgress => exact dialing.makes
        | refused =>
            exact (dialing.trans
              (onReplDial_streams dialing.makes.sound following false false)).makes

theorem armStream_makes (sound : l.Sound dark) (answer : SendAnswer) :
    Makes .arming dark l (armStream l answer) := by
  unfold armStream
  by_cases idle : ¬ l.stream.fd = true ∨ l.stream.connecting = true ∨ l.stop = true
  · rw [if_pos idle]
    exact .refl sound
  · rw [if_neg idle]
    rw [not_or, not_not] at idle
    -- Only a follower has a stream.
    have following : l.isFollower = true := by
      cases follower : l.isFollower with
      | true => rfl
      | false =>
          have none := (sound.alone follower).1
          rw [idle.1] at none
          cases none
    split
    · unfold streamRelease
      split
      · exact .refl sound
      · have released : Streams .arming dark l { l with
            stream :=
              { l.stream with
                fd := false
                closing := false
                wantOut := false
                sendBuf := []
                nextDial := u32Add l.tick LOOP_REDIAL_TICKS } } :=
          setStream_streams sound following (Relation.ReflTransGen.single
            (@Move.sentUp (l.desk .arming dark) [] List.nil_suffix))
        exact released.makes
    · have sent : ∃ l1, (if l.stream.sendBuf ≠ [] ∧ ¬ l.stream.wantOut = true then
            streamSend l answer else l) = l1 ∧ Streams .arming dark l l1 := by
        refine ⟨_, rfl, ?_⟩
        split
        · exact streamSend_streams sound following answer (Or.inl rfl)
        · exact .refl sound
      obtain ⟨l1, same, streams⟩ := sent
      rw [same]
      refine streams.makes.trans ?_
      have following1 := streams.follower.trans following
      simp only
      split
      · exact .refl streams.makes.sound
      · have compacted : Streams .arming dark l1
            { l1 with stream := { l1.stream with conn := connCompact l1.stream.conn } } :=
          setStream_same streams.makes.sound following1 rfl
        refine compacted.makes.trans ?_
        split
        · exact (closeStream_streams compacted.makes.sound following1).makes
        · exact .refl compacted.makes.sound

theorem armPhase_makes (sound : l.Sound dark) (arm : Arm) :
    Makes .arming dark l (armPhase l arm) := by
  have dialed := replDial_makes sound arm.dial
  have conns := foldl_makes (List.range LOOP_MAX_CONNS)
    (fun l sound slot _inside => armConn_makes arm.sends sound slot) dialed.sound
  exact dialed.trans (conns.trans (armStream_makes conns.sound arm.stream))

/-! ### What is served -/

theorem shows_foldl {α : Type} {f : Loop → α → Loop} (each : ∀ l x, Shows l (f l x))
    (list : List α) (l : Loop) : Shows l (list.foldl f l) := by
  induction list generalizing l with
  | nil => exact .refl l
  | cons x rest ih => exact (each l x).trans (ih (f l x))

theorem replStream_shows (l : Loop) : Shows l (replStream l) := by
  refine shows_foldl ?_ _ l
  intro l slot
  unfold replStreamOne
  simp only
  split
  · exact .refl l
  · split
    · exact .refl l
    · split
      · exact ⟨rfl, fun _ => rfl⟩
      · split
        · exact ⟨rfl, fun _ => rfl⟩
        · exact ⟨rfl, fun _ => rfl⟩

theorem streamReport_shows (l : Loop) : Shows l (streamReport l) := by
  unfold streamReport
  split
  · exact .refl l
  · split
    · exact .refl l
    · split
      · exact .refl l
      · unfold streamFrame
        simp only
        split
        · exact ⟨rfl, fun _ => rfl⟩
        · exact ⟨rfl, fun _ => rfl⟩

theorem loopServe_makes (sound : l.Sound lit) : Makes .serving lit l (loopServe l) := by
  have emitted := acksEmit_serves sound
  have opened (durable : Nat) : viewOf durable (acksEmit l).trace = durable := rfl
  unfold loopServe
  generalize acksEmit l = l1 at emitted opened
  have streamed : Makes .serving lit l1 (if l1.isFollower then streamReport l1 else replStream l1) ∧
      Shows l1 (if l1.isFollower then streamReport l1 else replStream l1) := by
    split
    · rename_i following
      exact ⟨(streamReport_streams emitted.sound following).makes, streamReport_shows l1⟩
    · exact ⟨(replStream_serves emitted.sound).makes, replStream_shows l1⟩
  simp only
  generalize (if l1.isFollower = true then streamReport l1 else replStream l1) = l2 at streamed
  obtain ⟨streamed, shows⟩ := streamed
  have pushed := subsPush_serves streamed.sound (by
    rw [shows.view, shows.wal]
    exact opened _)
  exact emitted.makes.trans (streamed.trans (pushed.makes.trans (retainPass_makes pushed.sound)))

/-! ### One pass -/

theorem Loop.Sound.dark (sound : l.Sound lit) : l.Sound dark where
  wal := sound.wal
  conns := by
    intro slot
    have fits := sound.conns slot
    exact
      { empty := fun free => ⟨(fits.empty free).1, rfl⟩
        client := fits.client
        fresh := fun used unopened unclosed => ⟨(fits.fresh used unopened unclosed).1, rfl⟩ }
  inside := sound.inside
  alone := sound.alone

/-- The connections the pass waits to send on. -/
def Loop.watched (l : Loop) (slot : Nat) : Bool := (l.conns slot).wantOut

/-- A connection that is waited on has had its opening frame handled. -/
theorem Loop.Sound.watched (sound : l.Sound lit) : l.Sound l.watched where
  wal := sound.wal
  conns := by
    intro slot
    have fits := sound.conns slot
    refine ⟨?_, fits.client, ?_⟩
    · intro free
      obtain ⟨shape, _unlit⟩ := fits.empty free
      refine ⟨shape, ?_⟩
      unfold Loop.watched
      rw [shape]
      rfl
    · intro used unopened unclosed
      obtain ⟨shape, _unlit⟩ := fits.fresh used unopened unclosed
      refine ⟨shape, ?_⟩
      unfold Loop.watched
      rw [shape]
      rfl
  inside := sound.inside
  alone := sound.alone

theorem loopDispatch_moves {events : List Event} (sound : l.Sound dark)
    (shown : ∀ event ∈ events, event.Shown l.watched) :
    (loopDispatch l events).Sound l.watched ∧
      Moves (l.desk .arming dark) ((loopDispatch l events).desk .dispatching l.watched) := by
  unfold loopDispatch
  have waited : Moves (l.desk .arming dark)
      (({ l with walDirty := false } : Loop).desk .dispatching l.watched) :=
    Relation.ReflTransGen.single (@Move.waited (l.desk .arming dark) l.watched rfl)
  have clean : ({ l with walDirty := false } : Loop).Sound l.watched :=
    { sound.watched with }
  have handled := foldl_makes events
    (fun l' sound event present => tickEvent_makes sound (shown event present)) clean
  exact ⟨handled.sound, waited.trans handled.moves⟩

/-- The flush at the end of a pass: what has been appended is flushed, or the loop stops. -/
theorem loopFlush_moves {res : Except Err Unit} (sound : l.Sound lit)
    (flushes : loopFlush l = (res, l')) :
    l'.Sound lit ∧ ∃ phase, Moves (l.desk .dispatching lit) (l'.desk phase lit) ∧
      (res = .ok () → phase = .serving) := by
  unfold loopFlush at flushes
  by_cases dirty : l.walDirty = true
  · rw [if_neg (not_not.mpr dirty)] at flushes
    simp only at flushes
    have rest := flushes_rest l false
    generalize noted : l.flushes false = l1 at flushes rest
    rw [rest] at flushes
    cases syncs : walSync l.os l.wal with
    | mk done log =>
        obtain ⟨w, os⟩ := log
        have moves := @flushes_moves lit l sound false _ _ _ syncs
        have flushed := walSync_sound sound.wal syncs
        have index := walSync_index syncs
        simp only [syncs] at flushes
        cases flushes
        rw [noted, Bool.or_false] at moves
        have deskOf (phase : Phase) : ({ l with
            wal := w, os := os, trace := l1.trace } : Loop).desk phase lit =
            { l.desk .dispatching lit with
              durable := walDurableSeq w, phase := phase, trace := l1.trace } := by
          have next : walNextSeq w = walNextSeq l.wal := flushed.next
          have first : walFirstSeq w = walFirstSeq l.wal := congrArg (fun t => t.headD 0) flushed.table
          unfold Loop.desk
          simp only [index, next, first]
        refine ⟨{ sound with wal := flushed.sound }, ?_⟩
        cases res with
        | error e => exact ⟨.stopped, by rw [deskOf]; exact moves, fun other => by cases other⟩
        | ok done =>
            refine ⟨.serving, ?_, fun _ => rfl⟩
            rw [deskOf]
            refine moves.tail (Move.flushed rfl (Or.inl ?_))
            exact (flushed.settled rfl).trans flushed.next
  · rw [if_pos dirty] at flushes
    cases flushes
    refine ⟨sound, .serving, ?_, fun _ => rfl⟩
    exact Relation.ReflTransGen.single (@Move.flushed (l.desk .dispatching lit) rfl
      (Or.inr (Bool.not_eq_true _ ▸ dirty)))

/-- A pass is a run of moves, and ends in its arm phase unless the loop has stopped. -/
theorem loopPass_moves {pass : Pass} (sound : l.Sound dark) (possible : pass.Possible l) :
    ∃ phase lit, (loopPass l pass).Sound lit ∧
      Moves (l.desk .arming dark) ((loopPass l pass).desk phase lit) ∧
      ((loopPass l pass).stop = false → phase = .arming ∧ lit = dark) := by
  have prepared : Serves .arming dark l (l.prepare pass) :=
    serves_aside sound rfl rfl rfl rfl rfl
  have armed := armPhase_makes prepared.sound pass.arm
  unfold loopPass loopTick
  simp only
  unfold Pass.Possible at possible
  generalize armPhase (l.prepare pass) pass.arm = l1 at armed possible
  have still : Serves .arming dark l1 { l1 with progress := false } :=
    serves_aside armed.sound rfl rfl rfl rfl rfl
  have before := prepared.makes.trans (armed.trans still.makes)
  cases waited : pass.wait with
  | none =>
      refine ⟨.arming, dark, ?_, ?_, fun going => by cases going⟩
      · exact { before.sound with }
      · exact before.moves
  | some events =>
      have shown : ∀ event ∈ events,
          event.Shown ({ l1 with progress := false } : Loop).watched := by
        intro event present
        cases event with
        | conn slot readable writable =>
            cases writable with
            | none => trivial
            | some answer => exact possible events waited slot readable answer present
        | _ => trivial
      obtain ⟨dispatched, arrives⟩ := loopDispatch_moves before.sound shown
      generalize ({ l1 with progress := false } : Loop).watched = lit at dispatched arrives
      simp only
      cases flushes : loopFlush (loopDispatch { l1 with progress := false } events) with
      | mk res l2 =>
          obtain ⟨sound2, phase, flushed, serving⟩ := loopFlush_moves dispatched flushes
          have here := before.moves.trans (arrives.trans flushed)
          cases res with
          | error e =>
              refine ⟨phase, lit, ?_, ?_, fun going => by cases going⟩
              · exact { sound2 with }
              · exact here
          | ok done =>
              rw [serving rfl] at here
              have served := loopServe_makes sound2
              simp only
              generalize loopServe l2 = l3 at served
              have rested : Moves (l3.desk .serving lit) (l3.desk .arming dark) :=
                Relation.ReflTransGen.single (@Move.rested (l3.desk .serving lit) rfl)
              have rearmed := armPhase_makes served.sound.dark pass.rearm
              exact ⟨.arming, dark, rearmed.sound,
                here.trans (served.moves.trans (rested.trans rearmed.moves)),
                fun _ => ⟨rfl, rfl⟩⟩

/-! ### Runs -/

theorem started_sound {config : Config} (started : Started config l) : l.Sound dark := by
  obtain ⟨os, listing, capacity, info, w, recs, os', opened, rfl⟩ := started
  have empty : slotEmpty.Sound false :=
    { empty := fun _ => ⟨rfl, rfl⟩
      client := fun busy => by cases busy
      fresh := fun busy => by cases busy }
  have sound := (walOpen_sound opened).1
  unfold Config.start
  split
  · exact
      { wal := sound
        conns := fun _ => empty
        inside := fun _ busy => by cases busy
        alone := fun other => by cases other }
  · exact
      { wal := sound
        conns := fun _ => empty
        inside := fun _ busy => by cases busy
        alone := fun _ => ⟨rfl, rfl⟩ }

/-- The desk of a node as it starts. -/
def DeskStarts (config : Config) (d : Desk) : Prop :=
  ∃ l, Started config l ∧ d = l.desk .arming dark

/-- The loop's desk is one that a run of moves reaches. -/
def Loop.Reaches (config : Config) (l : Loop) : Prop :=
  ∃ start phase lit, DeskStarts config start ∧ l.Sound lit ∧ Moves start (l.desk phase lit) ∧
    (l.stop = false → phase = .arming ∧ lit = dark)

/-- **Every run of the node is a run of the desk's moves.** -/
theorem running_moves {config : Config} (running : Running config l) : l.Reaches config := by
  refine Runs.Reach.invariant ?_ ?_ running
  · intro l started
    exact ⟨_, .arming, dark, ⟨l, started, rfl⟩, started_sound started,
      Relation.ReflTransGen.refl, fun _ => ⟨rfl, rfl⟩⟩
  · rintro l pass l' ⟨start, phase, lit, starts, sound, moves, resting⟩ _admitted
      ⟨going, possible, rfl⟩
    obtain ⟨rfl, rfl⟩ := resting going
    obtain ⟨phase', lit', sound', moves', resting'⟩ := loopPass_moves sound possible
    exact ⟨start, phase', lit', starts, sound', moves.trans moves', resting'⟩

end Msgsrvd

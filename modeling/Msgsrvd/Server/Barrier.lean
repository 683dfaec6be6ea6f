/-
Reading one's own writes: what a stream waits for, and how much of the log a READ covers.
-/

import Msgsrvd.Server.Ledger

namespace Msgsrvd

open Bytestring

variable {d d' : Desk} {slot : Nat}

/-! ### Requests -/

/-- The last SUBSCRIBE or READ on a connection, and its `min_seq`. -/
def lastAsk (slot : Nat) : List Note → Option (Nat × Nat)
  | [] => none
  | .asked other op minSeq _ _ :: earlier =>
      if other = slot then some (op, minSeq) else lastAsk slot earlier
  | _ :: earlier => lastAsk slot earlier

/-- Where the READs of this pass end, in the slots before. -/
def boundsOf : List Note → List Nat
  | [] => []
  | .swept _ _ _ :: _ => []
  | .bounded _ sub :: earlier => sub.untilSeq :: boundsOf earlier
  | _ :: earlier => boundsOf earlier

theorem viewed_of_bounds {durable minSeq : Nat} {trace : List Note}
    (above : ∀ bound ∈ boundsOf trace, minSeq ≤ bound) (reached : minSeq ≤ durable) :
    minSeq ≤ viewOf durable trace := by
  fun_induction viewOf durable trace with
  | case1 => exact reached
  | case2 => exact reached
  | case3 slot sub earlier ih =>
      refine Nat.le_min.mpr ⟨above _ (List.mem_cons_self ..), ih ?_⟩
      exact fun bound present => above bound (List.mem_cons_of_mem _ present)
  | case4 note earlier notSwept notBounded ih =>
      refine ih ?_
      cases note with
      | swept best live tick => exact absurd rfl (notSwept best live tick)
      | bounded slot sub => exact absurd rfl (notBounded slot sub)
      | _ => exact above

/-- The read goes as far as was asked, or no record of its key is that early. -/
def LoopSub.Covers (sub : LoopSub) (recs : List WalRec) : Prop :=
  sub.minSeq ≤ sub.untilSeq ∨ ∀ r ∈ recs, r.partitionKey = sub.key → sub.minSeq < r.seq

/-- A stream is answered, and told anything, once the log is flushed as far as its
`min_seq`; it is refused after its deadline and short of that; and a READ that has
ended has gone as far as was asked. -/
def BarrierKept : Note → List Note → Prop
  | .began slot sub durable, earlier =>
      ∃ op, lastAsk slot earlier = some (op, sub.minSeq) ∧ sub.minSeq ≤ durable
  | .pushed slot sub durable _ _, earlier =>
      ∃ op, lastAsk slot earlier = some (op, sub.minSeq) ∧ sub.minSeq ≤ durable
  | .ended slot sub durable, earlier =>
      ∃ op, lastAsk slot earlier = some (op, sub.minSeq) ∧ sub.minSeq ≤ durable ∧
        sub.untilSeq < sub.cursor.nextSeq ∧
        (op = MSG_OP_READ → sub.Covers (recorded earlier))
  | .behind slot sub durable tick, earlier =>
      (∃ op, lastAsk slot earlier = some (op, sub.minSeq)) ∧ durable < sub.minSeq ∧
        sub.deadline ≤ tick
  | _, _ => True

/-- A READ of a key that the index says is not in the log asks for nothing that is yet
to be flushed; and where the deadline of a held stream has passed, a log that is flushed
as far as its `min_seq` is not hidden from it by a READ in a slot before. -/
def barrierFits : Note → List Note → Bool
  | .asked _ op minSeq durable known, _ =>
      decide (op = MSG_OP_READ → known = false → minSeq ≤ durable)
  | .behind _ sub durable _, earlier =>
      decide (sub.minSeq ≤ durable → ∀ bound ∈ boundsOf earlier, sub.minSeq ≤ bound)
  | _, _ => true

/-- The condition on a whole history. -/
def BarrierFits (trace : List Note) : Prop :=
  Traces.Always (fun note earlier => barrierFits note earlier = true) trace

/-! ### What a move does to a stream -/

/-- The same request, going on or ending. -/
structure LoopSub.Goes (sub sub' : LoopSub) : Prop where
  active : sub'.active = true → sub.active = true
  waiting : sub'.waiting = true → sub.waiting = true
  minSeq : sub'.minSeq = sub.minSeq
  untilSeq : sub'.untilSeq = sub.untilSeq
  key : sub'.key = sub.key
  once : sub'.once = sub.once

inductive SubStep (slot : Nat) (d d' : Desk) : Prop where
  | goes (on : (d.party slot).sub.Goes (d'.party slot).sub)
      (same : lastAsk slot d'.trace = lastAsk slot d.trace)
  | idle (after : (d'.party slot).sub.Idle)
  | began {op : Nat} {known : Bool} (waiting : (d'.party slot).sub.waiting = false)
      (asking : d.trace.head? =
        some (.asked slot op (d'.party slot).sub.minSeq d.durable known))
      (starts : d.Starts op (d'.party slot).sub known) (same : lastAsk slot d'.trace =
        lastAsk slot d.trace)
      (recs : recorded d'.trace = recorded d.trace) (durable : d'.durable = d.durable)
  | held {op : Nat} (active : (d'.party slot).sub.active = false)
      (asking : lastAsk slot d'.trace = some (op, (d'.party slot).sub.minSeq))
      (read : op = MSG_OP_READ → (d'.party slot).sub.once = true)
  | served {view : Nat} (waiting : (d.party slot).sub.waiting = true)
      (after : (d'.party slot).sub = (d.party slot).sub.serve view)
      (reached : (d.party slot).sub.minSeq ≤ view) (below : view ≤ d.durable)
      (same : lastAsk slot d'.trace = lastAsk slot d.trace) (durable : d'.durable = d.durable)

theorem LoopSub.Goes.refl (sub : LoopSub) : sub.Goes sub :=
  ⟨fun on => on, fun on => on, rfl, rfl, rfl, rfl⟩

theorem SubStep.same (sub : (d'.party slot).sub = (d.party slot).sub)
    (ask : lastAsk slot d'.trace = lastAsk slot d.trace) : SubStep slot d d' :=
  .goes (by rw [sub]; exact .refl _) ask

theorem party_setParty (d : Desk) (slot : Nat) (p : Party) : (d.setParty slot p).party slot = p :=
  if_pos rfl

theorem party_setParty_other (d : Desk) {slot other : Nat} (p : Party) (differ : other ≠ slot) :
    (d.setParty slot p).party other = d.party other := if_neg differ

/-- A change to a party that leaves its stream alone. -/
theorem sub_setParty (d : Desk) {slot : Nat} {p : Party} (same : p.sub = (d.party slot).sub)
    (other : Nat) : ((d.setParty slot p).party other).sub = (d.party other).sub := by
  by_cases at_slot : other = slot
  · rw [at_slot, party_setParty, same]
  · rw [party_setParty_other d p at_slot]

theorem sub_stageIf (d : Desk) (sent : Bool) (slot : Nat) (frame : Frame) (other : Nat) :
    ((d.stageIf sent slot frame).party other).sub = (d.party other).sub := by
  obtain ⟨buf, same⟩ := stageIf_party d sent slot frame other
  rw [same]

theorem lastAsk_stageIf (d : Desk) (sent : Bool) (slot : Nat) (frame : Frame) (other : Nat) :
    lastAsk other (d.stageIf sent slot frame).trace = lastAsk other d.trace := by
  rw [stageIf_trace]
  split
  · rfl
  · rfl

theorem owe_sub (p : Party) (live : Bool) (tick flags clientSeq walSeq : Nat) :
    (p.owe live tick flags clientSeq walSeq).sub = p.sub := by
  unfold Party.owe
  split
  · rfl
  · split
    · rfl
    · split <;> rfl

theorem sub_setSub (d : Desk) (slot : Nat) (sub : LoopSub) :
    ((d.setSub slot sub).party slot).sub = sub := by
  unfold Desk.setSub
  rw [party_setParty]

theorem sub_setSub_other (d : Desk) {slot other : Nat} (sub : LoopSub) (differ : other ≠ slot) :
    ((d.setSub slot sub).party other).sub = (d.party other).sub := by
  unfold Desk.setSub
  rw [party_setParty_other _ _ differ]

theorem Move.sub (move : Move d d') (slot : Nat) : SubStep slot d d' := by
  cases move with
  | opened dispatching free unlit inside =>
      rename_i at'
      by_cases same : slot = at'
      · subst same
        refine .idle ?_
        change ((d.setParty slot Party.fresh).party slot).sub.Idle
        rw [party_setParty]
        exact ⟨rfl, rfl⟩
      · exact .same (congrArg Party.sub (party_setParty_other d Party.fresh same)) rfl
  | released arming used =>
      rename_i at'
      by_cases same : slot = at'
      · subst same
        refine .idle ?_
        change ((d.setParty slot Party.idle).party slot).sub.Idle
        rw [party_setParty]
        exact ⟨rfl, rfl⟩
      · exact .same (congrArg Party.sub (party_setParty_other d Party.idle same)) rfl
  | greeted dispatching unlit fresh known =>
      rename_i at' s
      refine .same ?_ rfl
      have staged := @sub_setParty ((d.setParty at' { d.party at' with session := s.id }).note
        (.joined at' s.id)) at'
          { ((d.setParty at' { d.party at' with session := s.id }).party at') with
            sendBuf := ((d.setParty at' { d.party at' with session := s.id }).party at').sendBuf ++
              (ackFrame MSG_FLAG_ACK_REQ s.id s.lastClientSeq).bytes } rfl slot
      exact staged.trans (sub_setParty d (by rfl) slot)
  | resent => exact .same (sub_setParty d (owe_sub ..) slot) rfl
  | stored => exact .same (sub_setParty d (owe_sub ..) slot) rfl
  | attached | detached => exact .same (sub_setParty d (by rfl) slot) rfl
  | staged => exact .same (sub_setParty d (by rfl) slot) rfl
  | sent => exact .same (sub_setParty d (by rfl) slot) rfl
  | answeredLocal room | answeredRepl room =>
      refine .same ?_ ?_
      · exact (sub_stageIf _ _ _ _ slot).trans (sub_setParty d (by rfl) slot)
      · exact lastAsk_stageIf _ _ _ _ slot
  | raised =>
      unfold Desk.raised
      split
      · exact .same rfl rfl
      · exact .same rfl rfl
  | tuned dispatching used before after =>
      rename_i at' sub
      by_cases same : slot = at'
      · subst same
        refine .idle ?_
        rw [sub_setSub]
        exact after
      · exact .same (sub_setSub_other d sub same) rfl
  | asked op minSeq known dispatching used idle =>
      rename_i at'
      by_cases same : slot = at'
      · subst same
        exact .idle idle
      · exact .same rfl (if_neg (Ne.symm same))
  | began sent dispatching used idle active waiting asking starts =>
      rename_i at' op sequence sub known
      have ask : lastAsk slot (((d.stageIf sent at' (emptyAck sequence)).setSub at' sub).note
          (.began at' sub d.durable)).trace = lastAsk slot d.trace :=
        lastAsk_stageIf d sent at' _ slot
      by_cases same : slot = at'
      · subst same
        have here := sub_setSub (d.stageIf sent slot (emptyAck sequence)) slot sub
        refine @SubStep.began slot d _ op known ?_ ?_ ?_ ask ?_ ?_
        · exact (congrArg LoopSub.waiting here).trans waiting
        · change _ = some (Note.asked slot op ((Desk.setSub _ slot sub).party slot).sub.minSeq _ _)
          rw [here]
          exact asking
        · change d.Starts op ((Desk.setSub _ slot sub).party slot).sub known
          rw [here]
          exact starts
        · exact (recorded_cons rfl).trans (recorded_stageIf d sent slot _)
        · exact (stageIf_log d sent slot _).2.2
      · exact .same ((sub_setSub_other _ sub same).trans (sub_stageIf d sent at' _ slot)) ask
  | held dispatching used idle active waiting asking read deadline =>
      rename_i at' op sub known
      by_cases same : slot = at'
      · subst same
        have asked : lastAsk slot d.trace = some (op, sub.minSeq) := by
          cases trace : d.trace with
          | nil =>
              rw [trace] at asking
              cases asking
          | cons note earlier =>
              rw [trace] at asking
              cases asking
              exact if_pos rfl
        refine @SubStep.held slot d _ op ?_ ?_ ?_
        · rw [sub_setSub]
          exact active
        · rw [sub_setSub]
          exact asked
        · rw [sub_setSub]
          exact read
      · exact .same (sub_setSub_other d sub same) rfl
  | served sent serving used waiting reached below =>
      rename_i at' sequence view
      have ask : lastAsk slot (((d.stageIf sent at' (emptyAck sequence)).setSub at'
          ((d.party at').sub.serve view)).note
            (.began at' ((d.party at').sub.serve view) d.durable)).trace = lastAsk slot d.trace :=
        lastAsk_stageIf d sent at' _ slot
      by_cases same : slot = at'
      · subst same
        exact .served waiting (sub_setSub _ slot _) reached below ask
          (stageIf_log d sent slot _).2.2
      · exact .same ((sub_setSub_other _ _ same).trans (sub_stageIf d sent at' _ slot)) ask
  | behind cursor serving used waiting short late =>
      rename_i at'
      by_cases same : slot = at'
      · subst same
        refine .goes ?_ rfl
        rw [sub_setSub]
        exact ⟨fun on => on, fun on => (by cases on), rfl, rfl, rfl, rfl⟩
      · exact .same (sub_setSub_other _ _ same) rfl
  | advanced cursor serving used active =>
      rename_i at'
      by_cases same : slot = at'
      · subst same
        refine .goes ?_ rfl
        rw [sub_setSub]
        exact ⟨fun on => on, fun on => on, rfl, rfl, rfl, rfl⟩
      · exact .same (sub_setSub_other _ _ same) rfl
  | ended cursor serving used active past =>
      rename_i at'
      by_cases same : slot = at'
      · subst same
        refine .goes ?_ rfl
        rw [sub_setSub]
        exact ⟨fun on => (by cases on), fun on => on, rfl, rfl, rfl, rfl⟩
      · exact .same (sub_setSub_other _ _ same) rfl
  | _ => exact .same rfl rfl

/-! ### The barrier -/

/-- What a stream that is held or running has behind it. -/
structure StreamKept (slot : Nat) (d : Desk) : Prop where
  held : (d.party slot).sub.waiting = true → ∃ op,
    lastAsk slot d.trace = some (op, (d.party slot).sub.minSeq) ∧
      (op = MSG_OP_READ → (d.party slot).sub.once = true)
  running : (d.party slot).sub.active = true → ∃ op,
    lastAsk slot d.trace = some (op, (d.party slot).sub.minSeq) ∧
      (d.party slot).sub.minSeq ≤ d.durable ∧
      (op = MSG_OP_READ → (d.party slot).sub.Covers (recorded d.trace))

/-- A key that a complete index does not know has no record in it. -/
theorem walIndexAdd_complete {ix : WalIndex} {r : WalRec}
    (complete : walIndexComplete (walIndexAdd ix r) = true) :
    walIndexComplete ix = true ∧ (r.seq ≠ 0 → ∃ k ∈ (walIndexAdd ix r).keys,
      k.key = r.partitionKey) ∧
      ∀ k ∈ ix.keys, ∃ k' ∈ (walIndexAdd ix r).keys, k'.key = k.key := by
  have bump (key seq : Nat) (keys : List WalIndexKey) : ∀ k ∈ keys,
      ∃ k' ∈ walIndexBump key seq keys, k'.key = k.key := by
    induction keys with
    | nil =>
        intro k present
        cases present
    | cons head rest ih =>
        intro k present
        unfold walIndexBump
        split
        · rcases List.mem_cons.mp present with same | inRest
          · rw [same]
            exact ⟨_, List.mem_cons_self .., rfl⟩
          · exact ⟨k, List.mem_cons_of_mem _ inRest, rfl⟩
        · rcases List.mem_cons.mp present with same | inRest
          · rw [same]
            exact ⟨head, List.mem_cons_self .., rfl⟩
          · obtain ⟨k', inside, same⟩ := ih k inRest
            exact ⟨k', List.mem_cons_of_mem _ inside, same⟩
  unfold walIndexAdd at complete ⊢
  split
  · rename_i zero
    rw [if_pos zero] at complete
    exact ⟨complete, fun nonzero => absurd zero nonzero, fun k present => ⟨k, present, rfl⟩⟩
  · rename_i nonzero
    rw [if_neg nonzero] at complete
    split
    · rename_i found at_key
      rw [at_key] at complete
      refine ⟨complete, fun _ => ?_, bump _ _ _⟩
      have same := List.find?_some at_key
      obtain ⟨k', inside, key⟩ := bump r.partitionKey r.seq _ found (List.mem_of_find?_eq_some at_key)
      exact ⟨k', inside, key.trans (of_decide_eq_true same)⟩
    · rename_i none
      rw [none] at complete
      simp only at complete
      split
      · rename_i full
        rw [if_pos full] at complete
        unfold walIndexComplete at complete
        rw [beq_iff_eq] at complete
        cases complete
      · rename_i room
        rw [if_neg room] at complete
        refine ⟨complete, fun _ => ⟨_, List.mem_append_right _ (List.mem_singleton.mpr rfl), rfl⟩, ?_⟩
        intro k present
        exact ⟨k, List.mem_append_left _ present, rfl⟩

theorem walIndex_complete {recs : List WalRec} {ix : WalIndex}
    (complete : walIndexComplete (recs.foldl walIndexAdd ix) = true) :
    walIndexComplete ix = true ∧
      (∀ r ∈ recs, r.seq ≠ 0 → ∃ k ∈ (recs.foldl walIndexAdd ix).keys, k.key = r.partitionKey) ∧
      ∀ k ∈ ix.keys, ∃ k' ∈ (recs.foldl walIndexAdd ix).keys, k'.key = k.key := by
  induction recs generalizing ix with
  | nil => exact ⟨complete, fun _ none => (by cases none), fun k present => ⟨k, present, rfl⟩⟩
  | cons head rest ih =>
      obtain ⟨middle, later, kept⟩ := ih complete
      obtain ⟨before, added, kept'⟩ := walIndexAdd_complete middle
      refine ⟨before, ?_, ?_⟩
      · intro r present nonzero
        rcases List.mem_cons.mp present with same | inRest
        · rw [same] at nonzero ⊢
          obtain ⟨k, inside, key⟩ := added nonzero
          obtain ⟨k', inside', same'⟩ := kept k inside
          exact ⟨k', inside', same'.trans key⟩
        · exact later r inRest nonzero
      · intro k present
        obtain ⟨k', inside', same'⟩ := kept' k present
        obtain ⟨k'', inside'', same''⟩ := kept k' inside'
        exact ⟨k'', inside'', same''.trans same'⟩

/-- What a stream that starts at once has behind it. -/
theorem Desk.Numbered.starts (numbered : d.Numbered) {op : Nat} {sub : LoopSub} {known : Bool}
    (starts : d.Starts op sub known)
    (fits : op = MSG_OP_READ → known = false → sub.minSeq ≤ d.durable) :
    sub.minSeq ≤ d.durable ∧ (op = MSG_OP_READ → sub.Covers (recorded d.trace)) := by
  rcases starts with ⟨_known, reached, read⟩ | ⟨unknown, isRead, _once, _until, _cursor, _keyed,
    complete, absent⟩
  · exact ⟨reached, fun isRead => Or.inl (read isRead).2⟩
  · refine ⟨fits isRead unknown, fun _ => Or.inr ?_⟩
    intro r present same
    rw [numbered.index] at complete absent
    obtain ⟨_, known, _⟩ := walIndex_complete complete
    have positive := (numbered.bounds r present).1
    obtain ⟨k, inside, key⟩ := known r present (by omega)
    exact absurd (key.trans same) (absent k inside)

theorem LoopSub.Covers.goes {sub sub' : LoopSub} {recs recs' : List WalRec} {durable : Nat}
    (covers : sub.Covers recs) (on : sub.Goes sub') (flushed : sub.minSeq ≤ durable)
    (later : ∀ r ∈ recs', r ∈ recs ∨ durable < r.seq) : sub'.Covers recs' := by
  unfold LoopSub.Covers at *
  rw [on.minSeq, on.untilSeq, on.key]
  rcases covers with far | absent
  · exact Or.inl far
  · right
    intro r present same
    rcases later r present with early | beyond
    · exact absent r early same
    · omega

theorem head_always {fits : Note → List Note → Prop} {note : Note} {trace : List Note}
    (meets : Traces.Always fits trace) (newest : trace.head? = some note) :
    ∃ earlier, trace = note :: earlier ∧ fits note earlier := by
  cases trace with
  | nil => cases newest
  | cons head earlier =>
      cases newest
      exact ⟨earlier, rfl, meets.newest⟩

theorem StreamKept.move (kept : StreamKept slot d) (numbered : d.Numbered) (move : Move d d')
    (meets : BarrierFits d.trace) : StreamKept slot d' := by
  have grows := move.log.durable
  have later := move.log.recs_after
  cases move.sub slot with
  | goes on same =>
      constructor
      · intro waiting
        obtain ⟨op, asked, read⟩ := kept.held (on.waiting waiting)
        refine ⟨op, ?_, ?_⟩
        · rw [same, on.minSeq]
          exact asked
        · rw [on.once]
          exact read
      · intro active
        obtain ⟨op, asked, flushed, covers⟩ := kept.running (on.active active)
        refine ⟨op, ?_, ?_, fun isRead => (covers isRead).goes on flushed later⟩
        · rw [same, on.minSeq]
          exact asked
        · rw [on.minSeq]
          omega
  | idle after =>
      constructor
      · intro waiting
        rw [after.2] at waiting
        cases waiting
      · intro active
        rw [after.1] at active
        cases active
  | began waiting asking starts same recs durable =>
      rename_i op known
      obtain ⟨earlier, trace, fits⟩ := head_always meets asking
      constructor
      · intro held
        rw [waiting] at held
        cases held
      · intro _active
        obtain ⟨flushed, covers⟩ := numbered.starts starts (of_decide_eq_true fits)
        refine ⟨op, ?_, ?_, ?_⟩
        · rw [same, trace]
          exact if_pos rfl
        · rw [durable]
          exact flushed
        · rw [recs]
          exact covers
  | held active asking read =>
      constructor
      · intro _waiting
        exact ⟨_, asking, read⟩
      · intro running
        rw [active] at running
        cases running
  | served waiting after reached below same durable =>
      rename_i view
      obtain ⟨op, asked, read⟩ := kept.held waiting
      constructor
      · intro held
        rw [after] at held
        cases held
      · intro _active
        rw [after]
        refine ⟨op, ?_, ?_, ?_⟩
        · rw [same]
          exact asked
        · rw [durable]
          exact Nat.le_trans reached below
        · intro isRead
          left
          change (d.party slot).sub.minSeq ≤
            if (d.party slot).sub.once = true then view else (d.party slot).sub.untilSeq
          rw [if_pos (read isRead)]
          exact reached

theorem starts_streams {config : Config} (starts : DeskStarts config d) (slot : Nat) :
    StreamKept slot d ∧ Traces.Always BarrierKept d.trace := by
  obtain ⟨l, ⟨os, listing, capacity, info, w, recs, os', _opened, rfl⟩, rfl⟩ := starts
  unfold Config.start
  split
  · exact ⟨⟨fun held => (by cases held), fun runs => (by cases runs)⟩, trivial, trivial⟩
  · exact ⟨⟨fun held => (by cases held), fun runs => (by cases runs)⟩, trivial, trivial⟩

theorem barrier_stageIf {d : Desk} (always : Traces.Always BarrierKept d.trace) (sent : Bool)
    (slot : Nat) (frame : Frame) :
    Traces.Always BarrierKept (d.stageIf sent slot frame).trace := by
  rw [stageIf_trace]
  split
  · exact ⟨trivial, always⟩
  · exact always

/-- A move adds only notes that keep the barrier. -/
theorem barrier_move (kept : ∀ slot, StreamKept slot d) (numbered : d.Numbered)
    (always : Traces.Always BarrierKept d.trace) (move : Move d d')
    (before : BarrierFits d.trace) (meets : BarrierFits d'.trace) :
    Traces.Always BarrierKept d'.trace := by
  cases move with
  | began sent dispatching used idle active waiting asking starts =>
      rename_i slot op sequence sub known
      obtain ⟨earlier, trace, fits⟩ := head_always before asking
      refine ⟨⟨op, ?_, (numbered.starts starts (of_decide_eq_true fits)).1⟩, barrier_stageIf always _ _ _⟩
      refine (lastAsk_stageIf d sent slot _ slot).trans ?_
      rw [trace]
      exact if_pos rfl
  | served sent serving used waiting reached below =>
      rename_i slot sequence view
      obtain ⟨op, asked, _read⟩ := (kept slot).held waiting
      refine ⟨⟨op, ?_, ?_⟩, barrier_stageIf always _ _ _⟩
      · exact (lastAsk_stageIf d sent slot _ slot).trans asked
      · exact Nat.le_trans reached below
  | pushed sent serving used active below =>
      rename_i slot r
      obtain ⟨op, asked, flushed, _covers⟩ := (kept slot).running active
      exact ⟨⟨op, asked, flushed⟩, always⟩
  | ended cursor serving used active past =>
      rename_i slot
      obtain ⟨op, asked, flushed, covers⟩ := (kept slot).running active
      exact ⟨⟨op, asked, flushed, past, covers⟩, always⟩
  | behind cursor serving used waiting short late =>
      rename_i slot
      obtain ⟨op, asked, _read⟩ := (kept slot).held waiting
      refine ⟨⟨⟨op, asked⟩, ?_, late⟩, always⟩
      by_contra reached
      have flushed : (d.party slot).sub.minSeq ≤ d.durable := by omega
      have seen := viewed_of_bounds (of_decide_eq_true meets.newest flushed) flushed
      omega
  | answeredLocal room | answeredRepl room =>
      exact ⟨trivial, @barrier_stageIf (d.setParty _ _) always _ _ _⟩
  | greeted => exact ⟨trivial, trivial, always⟩
  | raised =>
      unfold Desk.raised
      split
      · exact always
      · exact always
  | sent | ticked | waited | flushed | rested | tuned | held | advanced | sentUp => exact always
  | _ => exact ⟨trivial, always⟩

/-- **Where no READ takes the index's word for a key before the log is flushed as far as
was asked, and no READ hides what is flushed from a stream in a later slot, every stream
is answered only once its barrier is reached, refused only after its deadline and short
of it, and every READ covers the log as far as was asked.** -/
theorem reads_own_writes {config : Config} {l : Loop} (running : Running config l)
    (meets : BarrierFits l.trace) : Traces.Always BarrierKept l.trace := by
  obtain ⟨start, phase, lit, starts, _sound, moves, _resting⟩ := running_moves running
  have keeps : (l.desk phase lit).Numbered ∧ (∀ slot, StreamKept slot (l.desk phase lit)) ∧
      Traces.Always BarrierKept (l.desk phase lit).trace := by
    refine @moves_keep _ (fun note earlier => barrierFits note earlier = true) (fun d => d.Numbered ∧ (∀ slot, StreamKept slot d) ∧
      Traces.Always BarrierKept d.trace) ?_ start moves ?_ meets
    · rintro d d' ⟨numbered, kept, always⟩ move fits
      obtain ⟨notes, same⟩ := move.trace
      have before := fits
      rw [same] at before
      have before := before.of_append
      exact ⟨numbered.move move, fun slot => (kept slot).move numbered move before,
        barrier_move kept numbered always move before fits⟩
    · exact ⟨starts_numbered starts, fun slot => (starts_streams starts slot).1,
        (starts_streams starts 0).2⟩
  exact keeps.2.2

/-- A client reads a key nobody has written, and asks for the fifth record to be there. -/
def readTooEarly : List Pass :=
  [calmPass [7] [.listen (some true)],
    calmPass [7] [arrives 0 (helloBytes 0 ++ requestBytes MSG_OP_READ 0 3 2 (le 8 5))]]

/-- A client writes one record, and reads it in the next pass. -/
def readInTime : List Pass :=
  [calmPass [7] [.listen (some true)],
    calmPass [7] [arrives 0 (helloBytes 0 ++ requestBytes MSG_OP_WRITE 0 3 2 (zeros 8))],
    calmPass [7] [arrives 0 (requestBytes MSG_OP_READ 0 3 3 (le 8 1))]]

def Note.early : Note → Bool
  | .began _ sub durable => durable < sub.minSeq
  | _ => false

set_option maxRecDepth 8000 in
/-- An empty log answers that the key is not there, whatever the barrier. -/
theorem read_before_flush : ¬ ∀ config l, Running config l →
    Traces.Always BarrierKept l.trace := by
  intro always
  have started : Running leaderAlone (leaderAlone.fresh 120) :=
    fresh_running leaderAlone (by decide +kernel)
  have kept := always _ _ (after_running started readTooEarly)
  have never : ((leaderAlone.fresh 120).after readTooEarly).trace.any Note.early = false := by
    refine kept.none ?_
    intro note earlier fits
    cases note with
    | began slot sub durable =>
        obtain ⟨_op, _asked, flushed⟩ := fits
        exact decide_eq_false (by omega)
    | _ => rfl
  revert never
  decide +kernel

set_option maxRecDepth 8000 in
theorem reads_own_write :
    Traces.Always BarrierKept ((leaderAlone.fresh 120).after readInTime).trace :=
  reads_own_writes (after_running (fresh_running leaderAlone (by decide +kernel)) readInTime)
    (by unfold BarrierFits; decide +kernel)

end Msgsrvd

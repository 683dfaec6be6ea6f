/-
What the history of a node says: the records it holds, and how runs of moves extend it.
-/

import Msgsrvd.Lib.Traces
import Msgsrvd.Server.Reached

namespace Msgsrvd

open Bytestring

variable {d d' : Desk} {slot : Nat}

/-! ### Histories -/

/-- The records a note says the log has taken in. -/
def Note.records : Note → List WalRec
  | .recovered recs => recs
  | .wrote write =>
      match write.fate with
      | .stored r => [r]
      | _ => []
  | .applied r => [r]
  | _ => []

/-- The records the log has taken in, the oldest first. -/
def recorded : List Note → List WalRec
  | [] => []
  | note :: earlier => recorded earlier ++ note.records

theorem stageIf_trace (d : Desk) (sent : Bool) (slot : Nat) (frame : Frame) :
    (d.stageIf sent slot frame).trace =
      if sent then .staged slot (d.party slot).session frame :: d.trace else d.trace := by
  unfold Desk.stageIf
  split
  · rfl
  · rfl

/-- A move adds to the history and takes nothing back. -/
theorem Move.trace (move : Move d d') : ∃ notes, d'.trace = notes ++ d.trace := by
  have staging (sent : Bool) (slot : Nat) (frame : Frame) (d : Desk) :
      ∃ notes, (d.stageIf sent slot frame).trace = notes ++ d.trace := by
    rw [stageIf_trace]
    split
    · exact ⟨[_], rfl⟩
    · exact ⟨[], rfl⟩
  cases move with
  | began sent =>
      obtain ⟨notes, same⟩ := staging sent _ _ d
      exact ⟨_ :: notes, congrArg (List.cons _) same⟩
  | served sent =>
      obtain ⟨notes, same⟩ := staging sent _ _ d
      exact ⟨_ :: notes, congrArg (List.cons _) same⟩
  | answeredLocal room =>
      obtain ⟨notes, same⟩ := staging _ _ _ _
      exact ⟨_ :: notes, congrArg (List.cons _) same⟩
  | answeredRepl room =>
      obtain ⟨notes, same⟩ := staging _ _ _ _
      exact ⟨_ :: notes, congrArg (List.cons _) same⟩
  | greeted => exact ⟨[_, _], rfl⟩
  | raised =>
      unfold Desk.raised
      split
      · exact ⟨[], rfl⟩
      · exact ⟨[], rfl⟩
  | sent => exact ⟨[], rfl⟩
  | ticked => exact ⟨[], rfl⟩
  | waited => exact ⟨[], rfl⟩
  | flushed => exact ⟨[], rfl⟩
  | rested => exact ⟨[], rfl⟩
  | tuned => exact ⟨[], rfl⟩
  | held => exact ⟨[], rfl⟩
  | advanced => exact ⟨[], rfl⟩
  | sentUp => exact ⟨[], rfl⟩
  | _ => exact ⟨[_], rfl⟩

/-- What every move keeps, in runs whose history meets a condition. -/
theorem moves_keep {fits : Note → List Note → Prop} {Inv : Desk → Prop}
    (kept : ∀ d d', Inv d → Move d d' → Traces.Always fits d'.trace → Inv d')
    {start : Desk} (moves : Moves start d) (initial : Inv start)
    (meets : Traces.Always fits d.trace) : Inv d := by
  induction moves with
  | refl => exact initial
  | tail _before move ih =>
      obtain ⟨notes, same⟩ := move.trace
      have earlier := meets
      rw [same] at earlier
      exact kept _ _ (ih earlier.of_append) move meets

/-! ### The log -/

/-- What a move does to the log: nothing but a flush, or one record at its end. -/
inductive LogStep (d d' : Desk) : Prop where
  | still (recs : recorded d'.trace = recorded d.trace) (index : d'.index = d.index)
      (next : d'.next = d.next) (grows : d.durable ≤ d'.durable) (below : d.durable < d.next →
        d'.durable < d'.next)
  | added (r : WalRec) (recs : recorded d'.trace = recorded d.trace ++ [r])
      (index : d'.index = walIndexAdd d.index r) (seq : r.seq = d.next)
      (next : d'.next = d.next + 1) (durable : d'.durable = d.durable) (below : d.durable < r.seq)

theorem LogStep.durable (step : LogStep d d') : d.durable ≤ d'.durable := by
  cases step with
  | still _ _ _ grows _ => exact grows
  | added _ _ _ _ _ same _ => exact Nat.le_of_eq same.symm

/-- What has been recorded since lies beyond what was flushed. -/
theorem LogStep.recs_after (step : LogStep d d') :
    ∀ r ∈ recorded d'.trace, r ∈ recorded d.trace ∨ d.durable < r.seq := by
  cases step with
  | still recs _ _ _ _ =>
      rw [recs]
      exact fun r present => Or.inl present
  | added r recs _ _ _ _ below =>
      rw [recs]
      intro r' present
      rcases List.mem_append.mp present with early | here
      · exact Or.inl early
      · rw [List.mem_singleton.mp here]
        exact Or.inr below

theorem recorded_cons {note : Note} {trace : List Note} (silent : note.records = []) :
    recorded (note :: trace) = recorded trace := by
  change recorded trace ++ note.records = recorded trace
  rw [silent, List.append_nil]

theorem recorded_stageIf (d : Desk) (sent : Bool) (slot : Nat) (frame : Frame) :
    recorded (d.stageIf sent slot frame).trace = recorded d.trace := by
  rw [stageIf_trace]
  split
  · exact recorded_cons rfl
  · rfl

theorem stageIf_log (d : Desk) (sent : Bool) (slot : Nat) (frame : Frame) :
    (d.stageIf sent slot frame).index = d.index ∧ (d.stageIf sent slot frame).next = d.next ∧
      (d.stageIf sent slot frame).durable = d.durable := by
  unfold Desk.stageIf
  split
  · exact ⟨rfl, rfl, rfl⟩
  · exact ⟨rfl, rfl, rfl⟩

/-- A move that has nothing to do with the log. -/
theorem LogStep.aside (recs : recorded d'.trace = recorded d.trace) (index : d'.index = d.index)
    (next : d'.next = d.next) (durable : d'.durable = d.durable) : LogStep d d' :=
  .still recs index next (Nat.le_of_eq durable.symm) (fun below => by
    rw [durable, next]
    exact below)

theorem Move.log (move : Move d d') : LogStep d d' := by
  cases move with
  | stored _ _ _ _ _ _ seq _ _ below => exact .added _ rfl rfl seq rfl rfl below
  | applied _ _ seq below => exact .added _ rfl rfl seq rfl rfl below
  | synced rollover dispatching done failed grows =>
      rename_i durable ok
      refine .still (recorded_cons rfl) rfl rfl grows ?_
      intro below
      change durable < d.next
      cases ok with
      | true =>
          have reaches := done rfl
          omega
      | false =>
          have same := failed rfl
          omega
  | began sent | served sent =>
      obtain ⟨index, next, durable⟩ := stageIf_log d sent _ _
      exact .aside ((recorded_cons rfl).trans (recorded_stageIf ..)) index next durable
  | answeredLocal room | answeredRepl room =>
      obtain ⟨index, next, durable⟩ := stageIf_log (d.setParty _ _) _ _ _
      exact .aside ((recorded_cons rfl).trans (recorded_stageIf ..)) index next durable
  | greeted => exact .aside ((recorded_cons rfl).trans (recorded_cons rfl)) rfl rfl rfl
  | raised =>
      unfold Desk.raised
      split
      · exact .aside rfl rfl rfl rfl
      · exact .aside rfl rfl rfl rfl
  | refused | resent => exact .aside (recorded_cons rfl) rfl rfl rfl
  | sent | ticked | waited | flushed | rested | tuned | held | advanced | sentUp =>
      exact .aside rfl rfl rfl rfl
  | _ => exact .aside (recorded_cons rfl) rfl rfl rfl

/-- The index and the numbering follow the history. -/
structure Desk.Numbered (d : Desk) : Prop where
  index : d.index = (recorded d.trace).foldl walIndexAdd walIndexInit
  seqs : ∃ base, 1 ≤ base ∧ SeqsFrom base (recorded d.trace) ∧
    base + (recorded d.trace).length = d.next
  below : d.durable < d.next

theorem Desk.Numbered.move (numbered : d.Numbered) (move : Move d d') : d'.Numbered := by
  obtain ⟨base, positive, seqs, next⟩ := numbered.seqs
  cases move.log with
  | still recs index next' _grows below =>
      refine ⟨?_, ⟨base, positive, ?_, ?_⟩, below numbered.below⟩
      · rw [index, recs]
        exact numbered.index
      · rw [recs]
        exact seqs
      · rw [recs, next']
        exact next
  | added r recs index seq next' durable below =>
      refine ⟨?_, ⟨base, positive, ?_, ?_⟩, ?_⟩
      · rw [index, recs, List.foldl_append, numbered.index]
        rfl
      · rw [recs]
        refine seqs.append ⟨?_, trivial⟩
        rw [seq, next]
      · rw [recs, List.length_append, List.length_singleton, next']
        omega
      · omega

/-- Every record lies between the start of the history and the end of the log. -/
theorem Desk.Numbered.bounds (numbered : d.Numbered) :
    ∀ r ∈ recorded d.trace, 1 ≤ r.seq ∧ r.seq < d.next := by
  obtain ⟨base, positive, seqs, next⟩ := numbered.seqs
  intro r present
  have bound := seqs.bounds r present
  omega

/-- A node starts with the records it recovered, all of them flushed, and nobody there. -/
structure Desk.Blank (config : Config) (recs : List WalRec) (d : Desk) : Prop where
  phase : d.phase = .arming
  leading : d.leading = config.leader.isNone
  sessions : d.sessions = recs.foldl sessionFromRecord sessionTableInit
  index : d.index = recs.foldl walIndexAdd walIndexInit
  positive : 1 ≤ d.first
  seqs : SeqsFrom d.first recs
  next : d.first + recs.length = d.next
  durable : d.durable + 1 = d.next
  want : config.leader = none → d.want = min config.replicas LOOP_MAX_REPLICAS
  floor : d.floor = 0
  peers : ∀ idx, d.peers idx = none
  party : ∀ slot, d.party slot = Party.idle
  up : d.up = []
  trace : d.trace = [.recovered recs]

theorem starts_blank {config : Config} (starts : DeskStarts config d) :
    ∃ recs, d.Blank config recs := by
  obtain ⟨l, ⟨os, listing, capacity, info, w, recs, os', opened, rfl⟩, rfl⟩ := starts
  obtain ⟨_sound, settled, seqs, reaches, index, positive⟩ := walOpen_sound opened
  refine ⟨recs, ?_⟩
  cases leader : config.leader with
  | none =>
      unfold Config.start
      rw [leader]
      exact ⟨rfl, by rw [leader]; rfl, rfl, index, positive, seqs, reaches, settled,
        fun _ => rfl, rfl, fun _ => rfl, fun _ => rfl, rfl, rfl⟩
  | some text =>
      unfold Config.start
      rw [leader]
      exact ⟨rfl, by rw [leader]; rfl, rfl, index, positive, seqs, reaches, settled,
        fun none => (by rw [leader] at none; cases none), rfl, fun _ => rfl, fun _ => rfl, rfl, rfl⟩

theorem starts_numbered {config : Config} (starts : DeskStarts config d) : d.Numbered := by
  obtain ⟨recs, blank⟩ := starts_blank starts
  have same : recorded d.trace = recs := by rw [blank.trace]; rfl
  refine ⟨?_, ⟨d.first, blank.positive, ?_, ?_⟩, ?_⟩
  · rw [same]
    exact blank.index
  · rw [same]
    exact blank.seqs
  · rw [same]
    exact blank.next
  · have settled := blank.durable
    omega

theorem moves_numbered {config : Config} {start : Desk} (starts : DeskStarts config start)
    (moves : Moves start d) : d.Numbered := by
  induction moves with
  | refl => exact starts_numbered starts
  | tail _before move ih => exact ih.move move

end Msgsrvd

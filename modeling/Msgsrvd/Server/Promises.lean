/-
What a frame speaks for, and that none goes out before its records are flushed.
-/

import Msgsrvd.Server.Ledger

namespace Msgsrvd

open Bytestring

variable {d d' : Desk} {slot : Nat}

/-! ### What frames speak for -/

/-- A frame staged for this session speaks for the record: an ACK for those of the
session up to its client sequence, a NOTIFY for the one it carries, a batch for each
of its own. -/
def Frame.Covers (frame : Frame) (session : Nat) (recs : List WalRec) (seq : Nat) : Prop :=
  (frame.header.op = MSG_OP_ACK ∧ ∃ n, msgDecodeAck frame.payload = some n ∧
    ∃ r ∈ recs, r.session = session ∧ r.clientSeq ≤ n ∧ r.seq = seq) ∨
  (frame.header.op = MSG_OP_NOTIFY ∧ hasFlag frame.header.flags MSG_FLAG_LAST = false ∧
    frame.header.sequence = seq) ∨
  (frame.header.op = MSG_OP_REPL_DATA ∧
    ∃ r ∈ streamRecs frame.payload frame.payload.length 0, r.seq = seq)

theorem Founded.covers {durable session seq : Nat} {frame : Frame} {recs : List WalRec}
    (founded : Founded durable frame) (covers : frame.Covers session recs seq) :
    seq ≤ durable := by
  obtain ⟨ack, notify, data⟩ := founded
  rcases covers with ⟨isAck, n, decoded, _⟩ | ⟨isNotify, notLast, same⟩ | ⟨isData, r, inside, same⟩
  · rw [ack isAck] at decoded
    cases decoded
  · rcases notify isNotify with last | below
    · rw [notLast] at last
      cases last
    · omega
  · have below := data isData r inside
    omega

theorem emptyAck_founded (durable sequence : Nat) : Founded durable (emptyAck sequence) :=
  ⟨fun _ => rfl, fun isNotify => (by cases isNotify), fun isData => (by cases isData)⟩

/-- Everything staged on a connection, one frame after the other. -/
def stagedOn (slot : Nat) : List Note → Bytes
  | [] => []
  | .staged other _ frame :: earlier =>
      if other = slot then stagedOn slot earlier ++ frame.bytes else stagedOn slot earlier
  | _ :: earlier => stagedOn slot earlier

/-- What every frame staged on a connection keeps to the records there were by then. -/
def EachStaged (slot : Nat) (fits : Nat → Frame → List WalRec → Prop) : List Note → Prop
  | [] => True
  | .staged other session frame :: earlier =>
      (other = slot → fits session frame (recorded earlier)) ∧ EachStaged slot fits earlier
  | _ :: earlier => EachStaged slot fits earlier

/-- Every frame staged on the connection speaks for flushed records only. -/
def Vouched (durable slot : Nat) (trace : List Note) : Prop :=
  EachStaged slot (fun session frame recs => ∀ seq, frame.Covers session recs seq →
    seq ≤ durable) trace

/-- The same of all but the ACKs. -/
def VouchedStreams (durable slot : Nat) (trace : List Note) : Prop :=
  EachStaged slot (fun session frame recs => frame.header.op ≠ MSG_OP_ACK →
    ∀ seq, frame.Covers session recs seq → seq ≤ durable) trace

theorem EachStaged.imp {fits weaker : Nat → Frame → List WalRec → Prop} {trace : List Note}
    (each : EachStaged slot fits trace)
    (implies : ∀ session frame recs, (∀ r ∈ recs, r ∈ recorded trace) →
      fits session frame recs → weaker session frame recs) :
    EachStaged slot weaker trace := by
  induction trace with
  | nil => trivial
  | cons note earlier ih =>
      have rest (each : EachStaged slot fits earlier) : EachStaged slot weaker earlier :=
        ih each (fun session frame recs inside => implies session frame recs (fun r present =>
          List.mem_append_left _ (inside r present)))
      cases note with
      | staged other session frame =>
          obtain ⟨newest, each⟩ := each
          refine ⟨fun same => implies _ _ _ ?_ (newest same), rest each⟩
          exact fun r present => List.mem_append_left _ present
      | _ => exact rest each

/-- Once everything is flushed, every ACK speaks for flushed records. -/
theorem VouchedStreams.settled {durable : Nat} {trace : List Note}
    (streams : VouchedStreams durable slot trace)
    (flushed : ∀ r ∈ recorded trace, r.seq ≤ durable) : Vouched durable slot trace := by
  refine EachStaged.imp streams ?_
  intro session frame recs inside others seq covers
  by_cases isAck : frame.header.op = MSG_OP_ACK
  · rcases covers with ⟨_isAck, n, _decoded, r, present, _session, _low, same⟩ |
      ⟨isNotify, _⟩ | ⟨isData, _⟩
    · rw [← same]
      exact flushed r (inside r present)
    · rw [isAck] at isNotify
      cases isNotify
    · rw [isAck] at isData
      cases isData
  · exact others isAck seq covers

theorem Vouched.grows {durable durable' : Nat} {trace : List Note}
    (vouched : Vouched durable slot trace) (grows : durable ≤ durable') :
    Vouched durable' slot trace :=
  EachStaged.imp vouched (fun _ _ _ _ below seq covers => Nat.le_trans (below seq covers) grows)

theorem VouchedStreams.grows {durable durable' : Nat} {trace : List Note}
    (vouched : VouchedStreams durable slot trace) (grows : durable ≤ durable') :
    VouchedStreams durable' slot trace :=
  EachStaged.imp vouched
    (fun _ _ _ _ below other seq covers => Nat.le_trans (below other seq covers) grows)

/-! ### What is staged for the leader -/

def reportedUp : List Note → Bytes
  | [] => []
  | .reported frame :: earlier => reportedUp earlier ++ frame.bytes
  | _ :: earlier => reportedUp earlier

/-- The flush at the end of a pass failed. -/
def Note.stops : Note → Bool
  | .flushed false false _ _ => true
  | _ => false

/-- What is handed to the kernel has been staged, speaks for nothing beyond what is
flushed by then, and nothing is handed over once the flush of a pass has failed. -/
def PromiseKept : Note → List Note → Prop
  | .handed slot durable bytes _, earlier =>
      bytes <:+ stagedOn slot earlier ∧ Vouched durable slot earlier ∧
        earlier.any Note.stops = false
  | .handedUp durable bytes _, earlier =>
      bytes <:+ reportedUp earlier ∧
        (∀ frame, .reported frame ∈ earlier → frame.header.op = MSG_OP_REPL_ACK →
          frame.header.sequence ≤ durable) ∧
        earlier.any Note.stops = false
  | _, _ => True

/-! ### What a move stages -/

/-- What is left in a buffer is the end of what has been staged there. -/
def Desk.Buffered (d : Desk) : Prop := ∀ slot, (d.party slot).sendBuf <:+ stagedOn slot d.trace

theorem Desk.Buffered.setParty (buffered : d.Buffered) {p : Party}
    (less : p.sendBuf <:+ (d.party slot).sendBuf) : (d.setParty slot p).Buffered := by
  intro other
  by_cases same : other = slot
  · subst same
    change ((d.setParty other p).party other).sendBuf <:+ stagedOn other d.trace
    rw [show (d.setParty other p).party other = p from if_pos rfl]
    exact less.trans (buffered other)
  · change ((d.setParty slot p).party other).sendBuf <:+ stagedOn other d.trace
    rw [show (d.setParty slot p).party other = d.party other from if_neg same]
    exact buffered other

theorem Desk.Buffered.stage (buffered : d.Buffered) (slot : Nat) (frame : Frame) :
    (d.stage slot frame).Buffered := by
  intro other
  unfold Desk.stage
  change ((d.setParty slot _).party other).sendBuf <:+
    if slot = other then stagedOn other d.trace ++ frame.bytes else stagedOn other d.trace
  by_cases same : other = slot
  · subst same
    rw [if_pos rfl, show (d.setParty other
      { d.party other with sendBuf := (d.party other).sendBuf ++ frame.bytes }).party other =
        { d.party other with sendBuf := (d.party other).sendBuf ++ frame.bytes } from if_pos rfl]
    obtain ⟨front, whole⟩ := buffered other
    refine ⟨front, ?_⟩
    rw [← whole, List.append_assoc]
  · rw [if_neg (Ne.symm same), show (d.setParty slot
      { d.party slot with sendBuf := (d.party slot).sendBuf ++ frame.bytes }).party other =
        d.party other from if_neg same]
    exact buffered other

theorem Desk.Buffered.stageIf (buffered : d.Buffered) (sent : Bool) (slot : Nat) (frame : Frame) :
    (d.stageIf sent slot frame).Buffered := by
  unfold Desk.stageIf
  split
  · exact buffered.stage slot frame
  · exact buffered

theorem owe_sendBuf (p : Party) (live : Bool) (tick flags clientSeq walSeq : Nat) :
    (p.owe live tick flags clientSeq walSeq).sendBuf = p.sendBuf := by
  unfold Party.owe
  split
  · rfl
  · split
    · rfl
    · split <;> rfl

theorem Desk.Buffered.move (buffered : d.Buffered) (move : Move d d') : d'.Buffered := by
  have same {slot : Nat} {p : Party} (kept : p.sendBuf = (d.party slot).sendBuf) :
      (d.setParty slot p).Buffered := by
    exact buffered.setParty (kept.symm ▸ List.suffix_refl _)
  cases move with
  | opened | released | attached => exact buffered.setParty List.nil_suffix
  | greeted =>
      rename_i slot s _ _ _ _
      have bound : (d.setParty slot { d.party slot with session := s.id }).Buffered := same rfl
      have joined : ((d.setParty slot { d.party slot with session := s.id }).note
        (.joined slot s.id)).Buffered := bound
      exact joined.stage _ _
  | resent | stored => exact same (owe_sendBuf ..)
  | staged => exact buffered.stage _ _
  | began sent | served sent =>
      exact Desk.Buffered.setParty (buffered.stageIf sent _ _) (List.suffix_refl _)
  | answeredLocal room | answeredRepl room =>
      exact Desk.Buffered.stageIf (same (by rfl)) _ _ _
  | sent left => exact buffered.setParty left
  | detached | tuned | held | behind | advanced | ended => exact same rfl
  | raised =>
      unfold Desk.raised
      split
      · exact buffered
      · exact buffered
  | _ => exact buffered

theorem up_stage (up : d.up <:+ reportedUp d.trace) (slot : Nat) (frame : Frame) :
    (d.stage slot frame).up <:+ reportedUp (d.stage slot frame).trace := up

theorem up_stageIf (up : d.up <:+ reportedUp d.trace) (sent : Bool) (slot : Nat) (frame : Frame) :
    (d.stageIf sent slot frame).up <:+ reportedUp (d.stageIf sent slot frame).trace := by
  unfold Desk.stageIf
  split
  · exact up_stage up slot frame
  · exact up

theorem up_move (up : d.up <:+ reportedUp d.trace) (move : Move d d') :
    d'.up <:+ reportedUp d'.trace := by
  have cleared {slot : Nat} {p : Party} :
      (d.setParty slot p).up <:+ reportedUp (d.setParty slot p).trace := up
  cases move with
  | greeted =>
      rename_i slot s _ _ _ _
      have joined {p : Party} : ((d.setParty slot p).note (.joined slot s.id)).up <:+
          reportedUp ((d.setParty slot p).note (.joined slot s.id)).trace := up
      exact up_stage joined slot _
  | began sent | served sent => exact up_stageIf up sent _ _
  | answeredLocal room | answeredRepl room => exact up_stageIf cleared _ _ _
  | dialed => exact List.nil_suffix
  | reported =>
      rename_i frame _
      obtain ⟨front, whole⟩ := up
      refine ⟨front, ?_⟩
      change front ++ (d.up ++ frame.bytes) = reportedUp d.trace ++ frame.bytes
      rw [← whole, List.append_assoc]
  | sentUp left => exact left.trans up
  | raised =>
      unfold Desk.raised
      split
      · exact up
      · exact up
  | _ => exact up

/-! ### Phases -/

/-- The pass is where it was, with as much to flush and as much flushed. -/
structure SamePass (d d' : Desk) : Prop where
  phase : d'.phase = d.phase
  dirty : d'.dirty = d.dirty
  durable : d'.durable = d.durable
  next : d'.next = d.next
  watched : d'.watched = d.watched
  stops : d'.trace.any Note.stops = d.trace.any Note.stops

theorem SamePass.stage (same : SamePass d d') (slot : Nat) (frame : Frame) :
    SamePass d (d'.stage slot frame) :=
  ⟨same.phase, same.dirty, same.durable, same.next, same.watched, same.stops⟩

theorem SamePass.stageIf (same : SamePass d d') (sent : Bool) (slot : Nat) (frame : Frame) :
    SamePass d (d'.stageIf sent slot frame) := by
  unfold Desk.stageIf
  split
  · exact same.stage slot frame
  · exact same

/-- How a move changes the phase, what there is to flush, and how far it is flushed. -/
inductive PhaseStep (d d' : Desk) : Prop where
  | same (kept : SamePass d d')
  | wrote (before : d.phase = .dispatching) (after : d'.phase = .dispatching)
      (dirty : d'.dirty = true) (durable : d'.durable = d.durable) (watched : d'.watched = d.watched)
      (stops : d'.trace.any Note.stops = d.trace.any Note.stops)
  | synced (before : d.phase = .dispatching) (watched : d'.watched = d.watched)
      (going : d'.phase = .dispatching ∧ d'.trace.any Note.stops = d.trace.any Note.stops ∨
        d'.phase = .stopped)
      (next : d'.next = d.next) (dirty : d'.dirty = d.dirty)
      (ends : d'.durable + 1 = d'.next ∨ d'.durable = d.durable)
  | waited (before : d.phase = .arming) (after : d'.phase = .dispatching)
      (durable : d'.durable = d.durable) (next : d'.next = d.next) (trace : d'.trace = d.trace)
  | flushed (before : d.phase = .dispatching) (after : d'.phase = .serving)
      (settled : d.durable + 1 = d.next ∨ d.dirty = false) (durable : d'.durable = d.durable)
      (next : d'.next = d.next) (trace : d'.trace = d.trace)
  | rested (before : d.phase = .serving) (after : d'.phase = .arming)
      (durable : d'.durable = d.durable) (next : d'.next = d.next) (trace : d'.trace = d.trace)

theorem Move.phases (move : Move d d') : PhaseStep d d' := by
  have still : SamePass d d := ⟨rfl, rfl, rfl, rfl, rfl, rfl⟩
  have cleared {slot : Nat} {p : Party} : SamePass d (d.setParty slot p) :=
    ⟨rfl, rfl, rfl, rfl, rfl, rfl⟩
  cases move with
  | greeted =>
      rename_i slot s _ _ _ _
      have joined {p : Party} : SamePass d ((d.setParty slot p).note (.joined slot s.id)) :=
        ⟨rfl, rfl, rfl, rfl, rfl, rfl⟩
      exact .same (joined.stage _ _)
  | began sent | served sent =>
      obtain ⟨phase, dirty, durable, next, watched, stops⟩ := still.stageIf sent _ (emptyAck _)
      exact .same ⟨phase, dirty, durable, next, watched, stops⟩
  | answeredLocal room | answeredRepl room =>
      obtain ⟨phase, dirty, durable, next, watched, stops⟩ := cleared.stageIf _ _ _
      exact .same ⟨phase, dirty, durable, next, watched, stops⟩
  | stored dispatching => exact .wrote dispatching dispatching rfl rfl rfl rfl
  | applied dispatching => exact .wrote dispatching dispatching rfl rfl rfl rfl
  | synced rollover dispatching done failed grows =>
      rename_i durable ok
      refine .synced dispatching rfl ?_ rfl rfl ?_
      · cases rollover with
        | true =>
            left
            rw [Bool.or_true, if_pos rfl]
            exact ⟨rfl, rfl⟩
        | false =>
            cases ok with
            | true => exact Or.inl ⟨rfl, rfl⟩
            | false => exact Or.inr rfl
      · cases ok with
        | true => exact Or.inl (done rfl)
        | false => exact Or.inr (failed rfl)
  | waited watched arming => exact .waited arming rfl rfl rfl rfl
  | flushed dispatching settled => exact .flushed dispatching rfl settled rfl rfl rfl
  | rested serving => exact .rested serving rfl rfl rfl rfl
  | raised =>
      unfold Desk.raised
      split
      · exact .same still
      · exact .same ⟨rfl, rfl, rfl, rfl, rfl, rfl⟩
  | _ => exact .same ⟨rfl, rfl, rfl, rfl, rfl, rfl⟩

/-- Outside the dispatch, and in it before anything is appended, all is flushed. -/
def Desk.Settled (d : Desk) : Prop :=
  d.phase = .arming ∨ d.phase = .serving ∨ (d.phase = .dispatching ∧ d.dirty = false) →
    d.durable + 1 = d.next

theorem Desk.Settled.move (settled : d.Settled) (move : Move d d') : d'.Settled := by
  intro at'
  cases move.phases with
  | same kept =>
      rw [kept.phase, kept.dirty] at at'
      rw [kept.durable, kept.next]
      exact settled at'
  | wrote _ after dirty _ _ _ =>
      rw [after, dirty] at at'
      rcases at' with other | other | ⟨_, other⟩ <;> cases other
  | synced before _ going next dirty ends =>
      rcases ends with ends | durable
      · exact ends
      · rw [durable, next]
        apply settled
        rw [dirty] at at'
        rcases going with ⟨phase, _⟩ | phase
        · rw [phase] at at'
          rcases at' with other | other | ⟨_, clean⟩
          · cases other
          · cases other
          · exact Or.inr (Or.inr ⟨before, clean⟩)
        · rw [phase] at at'
          rcases at' with other | other | ⟨other, _⟩ <;> cases other
  | waited before _ durable next _ =>
      rw [durable, next]
      exact settled (Or.inl before)
  | flushed before _ ends durable next _ =>
      rw [durable, next]
      rcases ends with ends | clean
      · exact ends
      · exact settled (Or.inr (Or.inr ⟨before, clean⟩))
  | rested before _ durable next _ =>
      rw [durable, next]
      exact settled (Or.inr (Or.inl before))

/-- Once the flush of a pass has failed the node is at its end. -/
def Desk.Stopped (d : Desk) : Prop := d.trace.any Note.stops = true → d.phase = .stopped

theorem Desk.Stopped.move (stopped : d.Stopped) (move : Move d d') : d'.Stopped := by
  intro failed
  have running (before : Phase) (phase : d.phase = before) (other : before ≠ .stopped)
      (failed : d.trace.any Note.stops = true) : d'.phase = .stopped :=
    absurd (phase.symm.trans (stopped failed)) other
  cases move.phases with
  | same kept =>
      rw [kept.stops] at failed
      exact kept.phase.trans (stopped failed)
  | wrote before _ _ _ _ stops =>
      rw [stops] at failed
      exact running _ before Phase.noConfusion failed
  | synced before _ going _ _ _ =>
      rcases going with ⟨_, stops⟩ | after
      · rw [stops] at failed
        exact running _ before Phase.noConfusion failed
      · exact after
  | waited before _ _ _ trace =>
      rw [trace] at failed
      exact running _ before Phase.noConfusion failed
  | flushed before _ _ _ _ trace =>
      rw [trace] at failed
      exact running _ before Phase.noConfusion failed
  | rested before _ _ _ trace =>
      rw [trace] at failed
      exact running _ before Phase.noConfusion failed

/-! ### What the staged frames speak for -/

theorem each_stageIf {fits : Nat → Frame → List WalRec → Prop} {d : Desk} {frame : Frame}
    {at' : Nat} (each : EachStaged slot fits d.trace) (sent : Bool)
    (own : at' = slot → fits (d.party at').session frame (recorded d.trace)) :
    EachStaged slot fits (d.stageIf sent at' frame).trace := by
  rw [stageIf_trace]
  split
  · exact ⟨own, each⟩
  · exact each

/-- The move stages this frame on the connection, or nothing. -/
def StagesOnly (slot : Nat) (d d' : Desk) (frame : Frame) : Prop :=
  ∀ fits : Nat → Frame → List WalRec → Prop,
    (∀ session, fits session frame (recorded d.trace)) → EachStaged slot fits d.trace →
      EachStaged slot fits d'.trace

theorem stagesOnly_stageIf (d : Desk) (sent : Bool) (at' : Nat) (frame : Frame) :
    StagesOnly slot d (d.stageIf sent at' frame) frame :=
  fun _fits own each => each_stageIf each sent (fun _ => own _)

/-- What a move stages on a connection: nothing, a frame that promises nothing new, or an
ACK, and that only where it cannot be sent before the flush. -/
inductive StageStep (slot : Nat) (d d' : Desk) : Prop where
  | none (kept : ∀ fits, EachStaged slot fits d.trace → EachStaged slot fits d'.trace)
  | founded (frame : Frame) (founded : Founded d.durable frame)
      (only : StagesOnly slot d d' frame)
  | ack (frame : Frame) (isAck : frame.header.op = MSG_OP_ACK)
      (closed : d'.phase = .serving ∨ d'.watched slot = false) (only : StagesOnly slot d d' frame)

theorem Move.stages (move : Move d d') (slot : Nat) : StageStep slot d d' := by
  cases move with
  | began sent | served sent =>
      exact .founded _ (emptyAck_founded d.durable _) (stagesOnly_stageIf d sent _ _)
  | answeredLocal room serving =>
      refine .ack _ rfl (Or.inl ?_) (stagesOnly_stageIf (d.setParty _ _) _ _ (ackFrame _ _ _))
      exact (stageIf_staged (d.setParty _ _) _ _ _).phase.trans serving
  | answeredRepl room serving =>
      rename_i at' refused flags _ _ _
      cases refused with
      | true =>
          exact .founded _ (errFrame_founded d.durable _ _ _)
            (stagesOnly_stageIf (d.setParty _ _) _ _ _)
      | false =>
          refine .ack _ rfl (Or.inl ?_) (stagesOnly_stageIf (d.setParty _ _) _ _ (ackFrame _ _ _))
          exact (stageIf_staged (d.setParty _ _) _ _ _).phase.trans serving
  | greeted dispatching unlit =>
      rename_i at' s _ _
      by_cases same : at' = slot
      · subst same
        have log : recorded (.joined at' s.id :: d.trace) = recorded d.trace := recorded_cons rfl
        exact .ack (ackFrame MSG_FLAG_ACK_REQ s.id s.lastClientSeq) rfl (Or.inr unlit)
          (fun fits own each => ⟨fun _ => Eq.mpr (congrArg (fits _ _) log) (own _), each⟩)
      · exact .none (fun fits each => ⟨fun other => absurd other same, each⟩)
  | staged _ founded => exact .founded _ founded (fun fits own each => ⟨fun _ => own _, each⟩)
  | raised =>
      unfold Desk.raised
      split
      · exact .none (fun _ each => each)
      · exact .none (fun _ each => each)
  | _ => exact .none (fun _ each => each)

theorem streams_move (streams : VouchedStreams d.durable slot d.trace) (move : Move d d') :
    VouchedStreams d'.durable slot d'.trace := by
  have before : VouchedStreams d'.durable slot d.trace := streams.grows move.log.durable
  cases move.stages slot with
  | none kept => exact kept _ before
  | founded frame founded only =>
      refine only _ (fun _ _ seq covers => ?_) before
      exact Nat.le_trans (founded.covers covers) move.log.durable
  | ack frame isAck _ only => exact only _ (fun _ other => absurd isAck other) before

/-- What may go out during a dispatch was staged before it or says nothing new. -/
theorem vouched_move (vouched : d.phase = .dispatching → d.watched slot = true →
      Vouched d.durable slot d.trace)
    (streams : VouchedStreams d.durable slot d.trace) (numbered : d.Numbered)
    (settled : d.Settled) (move : Move d d') : d'.phase = .dispatching → d'.watched slot = true →
      Vouched d'.durable slot d'.trace := by
  intro phase' watched'
  have before : Vouched d.durable slot d.trace := by
    cases move.phases with
    | same kept =>
        rw [kept.phase] at phase'
        rw [kept.watched] at watched'
        exact vouched phase' watched'
    | wrote before _ _ _ watched _ =>
        rw [watched] at watched'
        exact vouched before watched'
    | synced before watched _ _ _ _ =>
        rw [watched] at watched'
        exact vouched before watched'
    | waited arming _ _ _ _ =>
        refine streams.settled (fun r present => ?_)
        have bound := (numbered.bounds r present).2
        have all := settled (Or.inl arming)
        omega
    | flushed _ after _ _ _ _ =>
        rw [after] at phase'
        cases phase'
    | rested _ after _ _ _ =>
        rw [after] at phase'
        cases phase'
  have before : Vouched d'.durable slot d.trace := before.grows move.log.durable
  cases move.stages slot with
  | none kept => exact kept _ before
  | founded frame founded only =>
      refine only _ (fun _ seq covers => ?_) before
      exact Nat.le_trans (founded.covers covers) move.log.durable
  | ack frame isAck closed _ =>
      rcases closed with serving | unlit
      · rw [serving] at phase'
        cases phase'
      · rw [unlit] at watched'
        cases watched'

/-- No report goes beyond what is flushed. -/
def Desk.Reports (d : Desk) : Prop :=
  ∀ frame, .reported frame ∈ d.trace → frame.header.op = MSG_OP_REPL_ACK →
    frame.header.sequence ≤ d.durable

theorem reported_stageIf (d : Desk) (sent : Bool) (slot : Nat) (frame other : Frame)
    (present : .reported frame ∈ (d.stageIf sent slot other).trace) :
    .reported frame ∈ d.trace := by
  rw [stageIf_trace] at present
  split at present
  · rcases List.mem_cons.mp present with here | early
    · cases here
    · exact early
  · exact present

theorem Desk.Reports.move (reports : d.Reports) (move : Move d d') : d'.Reports := by
  intro frame present isAck
  refine Nat.le_trans ?_ move.log.durable
  cases move with
  | reported founded =>
      rcases List.mem_cons.mp present with here | early
      · cases here
        exact founded isAck
      · exact reports frame early isAck
  | began sent | served sent =>
      rcases List.mem_cons.mp present with here | early
      · cases here
      · exact reports frame (reported_stageIf d sent _ frame _ early) isAck
  | answeredLocal room | answeredRepl room =>
      rcases List.mem_cons.mp present with here | early
      · cases here
      · exact reports frame (reported_stageIf (d.setParty _ _) _ _ frame _ early) isAck
  | greeted =>
      rcases List.mem_cons.mp present with here | staged
      · cases here
      · rcases List.mem_cons.mp staged with here | early
        · cases here
        · exact reports frame early isAck
  | raised =>
      unfold Desk.raised at present
      split at present
      · exact reports frame present isAck
      · exact reports frame present isAck
  | sent | ticked | waited | flushed | rested | tuned | held | advanced | sentUp =>
      exact reports frame present isAck
  | _ =>
      rcases List.mem_cons.mp present with here | early
      · cases here
      · exact reports frame early isAck

/-! ### The flush comes first -/

/-- What holds between any two moves. -/
structure Desk.Promised (d : Desk) : Prop where
  numbered : d.Numbered
  settled : d.Settled
  stopped : d.Stopped
  buffered : d.Buffered
  up : d.up <:+ reportedUp d.trace
  streams : ∀ slot, VouchedStreams d.durable slot d.trace
  vouched : ∀ slot, d.phase = .dispatching → d.watched slot = true →
    Vouched d.durable slot d.trace
  reports : d.Reports
  kept : Traces.Always PromiseKept d.trace

theorem promises_stageIf {d : Desk} (kept : Traces.Always PromiseKept d.trace) (sent : Bool)
    (slot : Nat) (frame : Frame) : Traces.Always PromiseKept (d.stageIf sent slot frame).trace := by
  rw [stageIf_trace]
  split
  · exact ⟨trivial, kept⟩
  · exact kept

theorem Desk.Stopped.going (stopped : d.Stopped) {phase : Phase} (now : d.phase = phase)
    (other : phase ≠ .stopped) : d.trace.any Note.stops = false := by
  rw [← Bool.not_eq_true]
  exact fun failed => other (now.symm.trans (stopped failed))

/-- While the node waits, everything it has recorded is flushed. -/
theorem Desk.Promised.waiting (promised : d.Promised) (arming : d.phase = .arming) (slot : Nat) :
    Vouched d.durable slot d.trace := by
  refine (promised.streams slot).settled (fun r present => ?_)
  have bound := (promised.numbered.bounds r present).2
  have all := promised.settled (Or.inl arming)
  omega

theorem promises_move (promised : d.Promised) (move : Move d d') :
    Traces.Always PromiseKept d'.trace := by
  have kept := promised.kept
  cases move with
  | handed taken sends =>
      rename_i slot
      refine ⟨⟨promised.buffered slot, ?_, ?_⟩, kept⟩
      · rcases sends with arming | ⟨dispatching, lit⟩
        · exact promised.waiting arming slot
        · exact promised.vouched slot dispatching lit
      · rcases sends with arming | ⟨dispatching, lit⟩
        · exact promised.stopped.going arming Phase.noConfusion
        · exact promised.stopped.going dispatching Phase.noConfusion
  | handedUp taken sends =>
      refine ⟨⟨promised.up, promised.reports, ?_⟩, kept⟩
      rcases sends with arming | dispatching
      · exact promised.stopped.going arming Phase.noConfusion
      · exact promised.stopped.going dispatching Phase.noConfusion
  | began sent | served sent => exact ⟨trivial, promises_stageIf kept sent _ _⟩
  | answeredLocal room | answeredRepl room =>
      exact ⟨trivial, @promises_stageIf (d.setParty _ _) kept _ _ _⟩
  | greeted => exact ⟨trivial, trivial, kept⟩
  | raised =>
      unfold Desk.raised
      split
      · exact kept
      · exact kept
  | sent | ticked | waited | flushed | rested | tuned | held | advanced | sentUp => exact kept
  | _ => exact ⟨trivial, kept⟩

theorem Desk.Promised.move (promised : d.Promised) (move : Move d d') : d'.Promised where
  numbered := promised.numbered.move move
  settled := promised.settled.move move
  stopped := promised.stopped.move move
  buffered := promised.buffered.move move
  up := up_move promised.up move
  streams slot := streams_move (promised.streams slot) move
  vouched slot := vouched_move (promised.vouched slot) (promised.streams slot) promised.numbered
    promised.settled move
  reports := promised.reports.move move
  kept := promises_move promised move

theorem starts_promised {config : Config} (starts : DeskStarts config d) : d.Promised := by
  have numbered := starts_numbered starts
  obtain ⟨recs, blank⟩ := starts_blank starts
  refine ⟨numbered, fun _ => blank.durable, ?_, ?_, ?_, ?_, ?_, ?_, ?_⟩
  · intro failed
    rw [blank.trace] at failed
    cases failed
  · intro slot
    rw [blank.party slot]
    exact List.nil_suffix
  · rw [blank.up]
    exact List.nil_suffix
  · intro slot
    rw [blank.trace]
    trivial
  · intro slot dispatching
    rw [blank.phase] at dispatching
    cases dispatching
  · intro frame present
    rw [blank.trace] at present
    rcases List.mem_cons.mp present with here | none
    · cases here
    · cases none
  · rw [blank.trace]
    exact ⟨trivial, trivial⟩

theorem moves_promised {config : Config} {start : Desk} (starts : DeskStarts config start)
    (moves : Moves start d) : d.Promised := by
  induction moves with
  | refl => exact starts_promised starts
  | tail _before move ih => exact ih.move move

/-- **Whatever is handed to the kernel, on a client's connection, a replica's or the
leader's, was staged there and speaks for nothing beyond what was flushed by then; and
nothing is handed over any more once the flush of a pass has failed.** -/
theorem nothing_before_flush {config : Config} {l : Loop} (running : Running config l) :
    Traces.Always PromiseKept l.trace := by
  obtain ⟨start, phase, lit, starts, _sound, moves, _resting⟩ := running_moves running
  exact (moves_promised starts moves).kept

/-- A client writes one record, and is answered once it is flushed. -/
def writeAnswered : List Pass :=
  [calmPass [7] [.listen (some true)],
    calmPass [7] [arrives 0 (helloBytes 0 ++ requestBytes MSG_OP_WRITE MSG_FLAG_ACK_REQ 3 1 [])],
    calmPass [7] []]

set_option maxRecDepth 8000 in
theorem nothing_before_flush_written :
    Traces.Always PromiseKept ((leaderAlone.fresh 120).after writeAnswered).trace :=
  nothing_before_flush (after_running (fresh_running leaderAlone (by decide +kernel)) writeAnswered)

/-! ### Failed flushes -/

instance Frame.Covers.decidable (frame : Frame) (session : Nat) (recs : List WalRec) (seq : Nat) :
    Decidable (frame.Covers session recs seq) :=
  have : Decidable (∃ n ∈ msgDecodeAck frame.payload,
      ∃ r ∈ recs, r.session = session ∧ r.clientSeq ≤ n ∧ r.seq = seq) := inferInstance
  have : Decidable (∃ n, msgDecodeAck frame.payload = some n ∧
      ∃ r ∈ recs, r.session = session ∧ r.clientSeq ≤ n ∧ r.seq = seq) := this
  inferInstanceAs (Decidable (_ ∨ _ ∨ _))

instance EachStaged.decidable {slot : Nat} {fits : Nat → Frame → List WalRec → Prop}
    [∀ session frame recs, Decidable (fits session frame recs)] :
    ∀ trace, Decidable (EachStaged slot fits trace)
  | [] => inferInstanceAs (Decidable True)
  | note :: earlier => by
      have rest := @EachStaged.decidable slot fits _ earlier
      cases note with
      | staged other session frame =>
          exact inferInstanceAs (Decidable ((other = slot → fits session frame (recorded earlier)) ∧
            EachStaged slot fits earlier))
      | _ => exact rest

/-- Where the log was flushed to, and where it ended, when a flush of it failed. -/
def failures : List Note → List (Nat × Nat)
  | [] => []
  | .flushed _ false durable next :: earlier => (durable, next) :: failures earlier
  | _ :: earlier => failures earlier

/-- What is handed to the kernel speaks for no record that a failed flush has left behind. -/
def NotPapered : Note → List Note → Prop
  | .handed slot _ _ _, earlier => ∀ lost ∈ failures earlier,
      EachStaged slot (fun session frame recs => ∀ seq < lost.2, lost.1 < seq →
        ¬ frame.Covers session recs seq) earlier
  | _, _ => True

instance NotPapered.decidable : ∀ note earlier, Decidable (NotPapered note earlier)
  | .handed slot _ _ _, earlier =>
      inferInstanceAs (Decidable (∀ lost ∈ failures earlier,
        EachStaged slot (fun session frame recs => ∀ seq < lost.2, lost.1 < seq →
          ¬ frame.Covers session recs seq) earlier))
  | .recovered _, _ | .opened _, _ | .released _, _ | .drew _ _, _ | .joined _ _, _
  | .wrote _, _ | .answered _ _ _, _ | .flushed _ _ _ _, _ | .swept _ _ _, _
  | .staged _ _ _, _ | .asked _ _ _ _ _, _ | .began _ _ _, _ | .behind _ _ _ _, _
  | .pushed _ _ _ _ _, _ | .ended _ _ _, _ | .bounded _ _, _ | .retained _ _, _ | .heard _ _, _
  | .attached _ _ _, _ | .confirmed _ _ _, _ | .detached _, _ | .applied _, _ | .dialed, _
  | .reported _, _ | .handedUp _ _ _, _ | .heardDown _, _ => inferInstanceAs (Decidable True)

/-- No flush succeeds once one has failed and left records behind. -/
def flushFits : Note → List Note → Bool
  | .flushed _ true _ _, earlier => decide (∀ lost ∈ failures earlier, lost.2 ≤ lost.1 + 1)
  | _, _ => true

/-- The condition on a whole history. -/
def FlushFits (trace : List Note) : Prop :=
  Traces.Always (fun note earlier => flushFits note earlier = true) trace

/-- How a move flushes: not at all, with success, or in vain. -/
inductive FlushStep (d d' : Desk) : Prop where
  | none (durable : d'.durable = d.durable) (same : failures d'.trace = failures d.trace)
  | done (rollover : Bool) (trace : d'.trace = .flushed rollover true d.durable d.next :: d.trace)
  | failed (durable : d'.durable = d.durable)
      (lost : failures d'.trace = (d.durable, d.next) :: failures d.trace)

theorem FlushStep.stageIf (sent : Bool) (slot : Nat) (frame : Frame) :
    failures (d.stageIf sent slot frame).trace = failures d.trace := by
  rw [stageIf_trace]
  split
  · rfl
  · rfl

theorem Move.flushes (move : Move d d') : FlushStep d d' := by
  cases move with
  | began sent | served sent =>
      exact .none (stageIf_log d sent _ _).2.2 (FlushStep.stageIf sent _ _)
  | answeredLocal room | answeredRepl room =>
      exact .none (stageIf_log (d.setParty _ _) _ _ _).2.2
        (@FlushStep.stageIf (d.setParty _ _) _ _ _)
  | synced rollover dispatching done failed grows =>
      rename_i durable ok
      cases ok with
      | true => exact .done rollover rfl
      | false => exact .failed (failed rfl) rfl
  | raised =>
      unfold Desk.raised
      split
      · exact .none rfl rfl
      · exact .none rfl rfl
  | _ => exact .none rfl rfl

/-- Where a flush has left records behind, nothing has been flushed since. -/
def Desk.Lost (d : Desk) : Prop :=
  ∀ lost ∈ failures d.trace, lost.1 + 1 < lost.2 → d.durable = lost.1

theorem Desk.Lost.move (lost : d.Lost) (move : Move d d') (meets : FlushFits d'.trace) :
    d'.Lost := by
  intro pair present left
  cases move.flushes with
  | none durable same =>
      rw [same] at present
      rw [durable]
      exact lost pair present left
  | done rollover trace =>
      unfold FlushFits at meets
      rw [trace] at meets present
      have recovered := of_decide_eq_true meets.newest pair present
      omega
  | failed durable same =>
      rw [same] at present
      rw [durable]
      rcases List.mem_cons.mp present with here | early
      · rw [here]
      · exact lost pair early left

theorem papered_stageIf {d : Desk} (kept : Traces.Always NotPapered d.trace) (sent : Bool)
    (slot : Nat) (frame : Frame) : Traces.Always NotPapered (d.stageIf sent slot frame).trace := by
  rw [stageIf_trace]
  split
  · exact ⟨trivial, kept⟩
  · exact kept

theorem papered_move (promised : d.Promised) (lost : d.Lost)
    (kept : Traces.Always NotPapered d.trace) (move : Move d d') :
    Traces.Always NotPapered d'.trace := by
  cases move with
  | handed taken sends =>
      rename_i slot
      refine ⟨fun pair present => ?_, kept⟩
      have vouched : Vouched d.durable slot d.trace := by
        rcases sends with arming | ⟨dispatching, lit⟩
        · exact promised.waiting arming slot
        · exact promised.vouched slot dispatching lit
      refine EachStaged.imp vouched (fun _ _ _ _ below seq inside beyond covers => ?_)
      have flushed := below seq covers
      have left := lost pair present (by omega)
      omega
  | began sent | served sent => exact ⟨trivial, papered_stageIf kept sent _ _⟩
  | answeredLocal room | answeredRepl room =>
      exact ⟨trivial, @papered_stageIf (d.setParty _ _) kept _ _ _⟩
  | greeted => exact ⟨trivial, trivial, kept⟩
  | raised =>
      unfold Desk.raised
      split
      · exact kept
      · exact kept
  | sent | ticked | waited | flushed | rested | tuned | held | advanced | sentUp => exact kept
  | _ => exact ⟨trivial, kept⟩

/-- **Where no flush succeeds once one has failed and left records behind, nothing that is
handed over from then on speaks for one of these records.** -/
theorem failed_flush_kept {config : Config} {l : Loop} (running : Running config l)
    (meets : FlushFits l.trace) : Traces.Always NotPapered l.trace := by
  obtain ⟨start, phase, lit, starts, _sound, moves, _resting⟩ := running_moves running
  have keeps : (l.desk phase lit).Promised ∧ (l.desk phase lit).Lost ∧
      Traces.Always NotPapered (l.desk phase lit).trace := by
    refine @moves_keep _ (fun note earlier => flushFits note earlier = true) (fun d => d.Promised ∧
      d.Lost ∧ Traces.Always NotPapered d.trace) ?_ start moves ?_ meets
    · rintro d d' ⟨promised, lost, kept⟩ move fits
      exact ⟨promised.move move, lost.move move fits, papered_move promised lost kept move⟩
    · obtain ⟨recs, blank⟩ := starts_blank starts
      refine ⟨starts_promised starts, ?_, ?_⟩
      · intro pair present
        rw [blank.trace] at present
        cases present
      · rw [blank.trace]
        exact ⟨trivial, trivial⟩
  exact keeps.2.2

/-- A client writes twice and asks for both ACKs; the second record needs a new segment, and
these are the outcomes of the calls to the system from the first write on. -/
def flushRetried (outcomes : List Outcome) : List Pass :=
  [calmPass [7] [.listen (some true)],
    { calmPass [7] [arrives 0 (helloBytes 0 ++ requestBytes MSG_OP_WRITE MSG_FLAG_ACK_REQ 3 1 [] ++
        requestBytes MSG_OP_WRITE MSG_FLAG_ACK_REQ 3 2 (zeros 16))] with
      script := outcomes },
    calmPass [7] []]

set_option maxRecDepth 8000 in
/-- The rollover's `fdatasync` fails; the pass goes on to another, which succeeds, and the
first write is answered. -/
theorem failed_flush_papered : ¬ ∀ config l, Running config l →
    Traces.Always NotPapered l.trace := by
  intro always
  have started : Running leaderAlone (leaderAlone.fresh 120) :=
    fresh_running leaderAlone (by decide +kernel)
  have kept := always _ _ (after_running started (flushRetried [.done, .fails 5 0]))
  revert kept
  decide +kernel

set_option maxRecDepth 8000 in
/-- The second `fdatasync` fails as well, and the loop stops. -/
theorem failed_flush_kept_twice : Traces.Always NotPapered ((leaderAlone.fresh 120).after
    (flushRetried [.done, .fails 5 0, .fails 5 0])).trace :=
  failed_flush_kept (after_running (fresh_running leaderAlone (by decide +kernel)) _)
    (by unfold FlushFits; decide +kernel)

end Msgsrvd

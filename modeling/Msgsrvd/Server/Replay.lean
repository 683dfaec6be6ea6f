/-
A replay from deleted history is refused, as long as the index it starts from was
fed the deleted records.

A restart rebuilds the index from what the log still holds, so a key whose oldest
records are gone looks as if it began with the records that are left.
-/

import Msgsrvd.Server.Run
import Msgsrvd.Wal.Indexed

namespace Msgsrvd

open Bytestring

/-! ### Requests -/

/-- What a SUBSCRIBE asks for. -/
structure Ask where
  key : Nat
  allKeys : Bool
  fromSeq : Nat
  deriving DecidableEq, Repr

def askOf (h : MsgHeader) (payload : Bytes) : Option Ask :=
  (msgDecodeSubscribe payload).map
    (fun req => ⟨h.partitionKey, hasFlag h.flags MSG_FLAG_ALL_KEYS, req.fromSeq⟩)

def Ask.covers (ask : Ask) (p : Nat × Bytes) : Bool :=
  ask.fromSeq ≤ p.1 &&
    (ask.allKeys || (walRecDecode p.2).any (fun r => r.partitionKey == ask.key))

/-- Where the index makes a replay start. -/
def Ask.start (ask : Ask) (ix : WalIndex) : Nat :=
  if ask.allKeys then ask.fromSeq
  else
    match walIndexRange ix ask.key ask.fromSeq with
    | none => ask.fromSeq
    | some (keyFrom, _) => keyFrom

theorem replyErr_sub (l : Loop) (slot code sequence : Nat) :
    ((replyErr l slot code sequence).conns slot).sub = (l.conns slot).sub := by
  unfold replyErr replyErrText reply replyFrame
  simp only
  split
  · rfl
  · simp only [Loop.note, Loop.setConn, if_true]

theorem subSeek_sub (l : Loop) (slot fromSeq : Nat) :
    ((subSeek l slot fromSeq).2.conns slot).sub.active = (l.conns slot).sub.active ∧
      ((subSeek l slot fromSeq).2.conns slot).sub.waiting = (l.conns slot).sub.waiting := by
  unfold subSeek
  simp only [Loop.setSub, Loop.setConn, if_true, and_self]

/-- The request is answered with MSG_ERR_NO_HISTORY, and there is no stream. -/
def RefusesReplay (l : Loop) (slot : Nat) (h : MsgHeader) (payload : Bytes) : Prop :=
  ∃ l', handleSubscribe l slot h payload = replyErr l' slot MSG_ERR_NO_HISTORY h.sequence ∧
    ((handleSubscribe l slot h payload).conns slot).sub.active = false ∧
    ((handleSubscribe l slot h payload).conns slot).sub.waiting = false

/-- A start below the log is refused. -/
theorem handleSubscribe_refuses {l : Loop} {slot : Nat} {h : MsgHeader} {payload : Bytes}
    {ask : Ask} (asked : askOf h payload = some ask) (positive : ask.fromSeq ≠ 0)
    (active : (l.conns slot).sub.active = false) (waiting : (l.conns slot).sub.waiting = false)
    (low : ask.start l.wal.index < walFirstSeq l.wal) : RefusesReplay l slot h payload := by
  obtain ⟨req, decoded, same⟩ := Option.map_eq_some_iff.mp asked
  let noted := l.note (.asked slot MSG_OP_SUBSCRIBE req.minSeq (walDurableSeq l.wal) true)
  have sought (start : Nat) (low : start < walFirstSeq l.wal) :
      (subSeek noted slot start).1 = .error ⟨.invalid, start⟩ := by
    unfold subSeek walCursorSeek
    have low : start < walFirstSeq noted.wal := low
    rw [if_neg (by decide), if_pos (Or.inl low)]
  have idle : ¬ ((l.conns slot).sub.active = true ∨ (l.conns slot).sub.waiting = true) := by
    rw [active, waiting]
    decide
  have positive : ¬ req.fromSeq = 0 := by
    rw [← same] at positive
    exact positive
  have answered : ∃ l', handleSubscribe l slot h payload =
      replyErr l' slot MSG_ERR_NO_HISTORY h.sequence ∧
        (l'.conns slot).sub.active = (l.conns slot).sub.active ∧
        (l'.conns slot).sub.waiting = (l.conns slot).sub.waiting := by
    unfold handleSubscribe
    rw [decoded]
    simp only
    rw [if_neg idle, if_neg positive]
    have fails := sought _ low
    have still := subSeek_sub noted slot (ask.start l.wal.index)
    rw [← same] at fails still
    split
    · rename_i e l' seeks
      have seeks : subSeek noted slot (Ask.start ⟨h.partitionKey, hasFlag h.flags MSG_FLAG_ALL_KEYS,
          req.fromSeq⟩ l.wal.index) = (.error e, l') := seeks
      rw [seeks] at still
      exact ⟨l', rfl, still⟩
    · rename_i l' seeks
      have seeks : subSeek noted slot (Ask.start ⟨h.partitionKey, hasFlag h.flags MSG_FLAG_ALL_KEYS,
          req.fromSeq⟩ l.wal.index) = (.ok (), l') := seeks
      rw [seeks] at fails
      cases fails
  obtain ⟨l', same, active', waiting'⟩ := answered
  refine ⟨l', same, ?_, ?_⟩
  · rw [same, replyErr_sub, active', active]
  · rw [same, replyErr_sub, waiting', waiting]

/-! ### Runs -/

/-- A log and the requests accepted on it that wait for their `min_seq`. -/
structure Replays where
  story : Story
  held : List Ask

inductive ReplayEvent where
  | log (event : WalEvent)
  | subscribe (l : Loop) (slot : Nat) (h : MsgHeader) (payload : Bytes)
  /-- a held request is answered, or its connection ends -/
  | settle (ask : Ask)

/-- The node receives this request, for history, on a connection with no stream. -/
structure Replays.Receives (s : Replays) (l : Loop) (slot : Nat) (h : MsgHeader)
    (payload : Bytes) (ask : Ask) : Prop where
  running : s.story.node.wal = some l.wal
  disk : l.os.disk = s.story.node.disk
  asked : askOf h payload = some ask
  positive : 1 ≤ ask.fromSeq
  active : (l.conns slot).sub.active = false
  waiting : (l.conns slot).sub.waiting = false

inductive ReplayStep (capacity : Nat) : Replays → ReplayEvent → Replays → Prop where
  | log {s : Replays} {event : WalEvent} {node' : Node}
      (moves : WalStep capacity s.story.node event node') :
      ReplayStep capacity s (.log event)
        ⟨s.story.follow event node', if node'.wal.isSome then s.held else []⟩
  | subscribe {s : Replays} {l : Loop} {slot : Nat} {h : MsgHeader} {payload : Bytes} {ask : Ask}
      (received : s.Receives l slot h payload ask) :
      ReplayStep capacity s (.subscribe l slot h payload)
        { s with
          held :=
            if ((handleSubscribe l slot h payload).conns slot).sub.waiting then ask :: s.held
            else s.held }
  | settle {s : Replays} {ask : Ask} :
      ReplayStep capacity s (.settle ask) { s with held := s.held.erase ask }

def Replays.fresh (s : Replays) : Prop := s.story.fresh ∧ s.held = []

/-- What a call deletes of the log. -/
def Story.deletes (capacity : Nat) (story : Story) : WalEvent → List (Nat × Bytes)
  | .call call =>
      match (story.node.perform capacity call).1 with
      | none => []
      | some w => story.deleted w
  | _ => []

/-- The index was told of the records the request asks for, or knows nothing of the key
that would move the start into the log. -/
def Ask.told (ask : Ask) (story : Story) (w : Wal) : Prop :=
  ask.allKeys = true ∨ (∀ p ∈ story.earlier, ask.covers p = false) ∨
    ∀ k ∈ w.index.keys, k.key = ask.key → k.first < walFirstSeq w

/-- Nothing a held request asks for is deleted, and no request asks by key for what was
deleted before the log was last opened while the log still holds the key. -/
def Replays.clear (capacity : Nat) (s : Replays) : ReplayEvent → Prop
  | .log event =>
      s.story.node.narrow event ∧
        ∀ ask ∈ s.held, ∀ p ∈ s.story.deletes capacity event, ask.covers p = false
  | .subscribe l _ h payload =>
      ∀ ask, askOf h payload = some ask → ask.told s.story l.wal
  | .settle _ => True

def Replays.Reached (capacity : Nat) : Replays → Prop :=
  Runs.Reach Replays.fresh (ReplayStep capacity) (Replays.clear capacity)

/-! ### What every such run keeps -/

section Replaying

variable {capacity : Nat}

/-- Where a replay starts if a record it asks for is gone. -/
theorem Ask.start_low {ask : Ask} {story : Story} {w : Wal} (inv : StoryInv capacity story)
    (opened : story.node.wal = some w) (told : ask.told story w) {p : Nat × Bytes}
    (gone : p ∈ story.gone) (covered : ask.covers p = true) :
    ask.start w.index < walFirstSeq w := by
  obtain ⟨front, last, log⟩ := inv.live.2 w opened
  have low : p.1 < walFirstSeq w := inv.low p gone _ log.first_mem
  unfold Ask.covers at covered
  rw [Bool.and_eq_true, decide_eq_true_eq] at covered
  obtain ⟨asked, keyed⟩ := covered
  have early : ask.fromSeq < walFirstSeq w := Nat.lt_of_le_of_lt asked low
  unfold Ask.start
  by_cases all : ask.allKeys = true
  · rw [if_pos all]
    exact early
  · rw [if_neg all]
    unfold walIndexRange
    cases found : w.index.keys.find? (fun k => k.key = ask.key) with
    | none => exact early
    | some k =>
        have first : k.first < walFirstSeq w := by
          have listed := List.mem_of_find?_eq_some found
          have named : k.key = ask.key := by
            have holds := List.find?_some found
            exact of_decide_eq_true holds
          rcases told with every | unknown | below
          · exact absurd every all
          · -- The record was deleted since, so the index was told of it.
            rcases List.mem_append.mp gone with before | since
            · have missed := unknown p before
              unfold Ask.covers at missed
              rw [decide_eq_true asked, keyed] at missed
              cases missed
            · have known := (inv.opened w opened).sees p (List.mem_append_right _ since)
              cases decoded : walRecDecode p.2 with
              | none =>
                  rw [decoded, Option.any_none, Bool.or_false] at keyed
                  exact absurd keyed all
              | some r =>
                  have same : r.partitionKey = ask.key := by
                    rw [decoded, Option.any_some, Bool.or_eq_true, beq_iff_eq] at keyed
                    exact keyed.resolve_left all
                  have sees := known r decoded
                  rw [same] at sees
                  rcases sees with ⟨k', found', bound⟩ | ⟨absent, _full⟩
                  · rw [found] at found'
                    cases found'
                    exact Nat.lt_of_le_of_lt bound low
                  · rw [found] at absent
                    cases absent
          · exact below k listed named
        simp only
        split
        · exact first
        · exact early

/-- What is gone after an event was gone before, or the event deleted it. -/
theorem Story.follow_gone {story : Story} {event : WalEvent} {node' : Node}
    (moves : WalStep capacity story.node event node') (opened : node'.wal.isSome = true)
    {p : Nat × Bytes} (gone : p ∈ (story.follow event node').gone) :
    p ∈ story.gone ∨ p ∈ story.deletes capacity event := by
  cases moves with
  | kill => cases opened
  | idleLoss crashed => cases opened
  | callLoss legal interrupted crashed => cases opened
  | @call call legal =>
      unfold Story.follow at gone
      unfold Story.deletes
      cases found : (story.node.perform capacity call).1 with
      | none =>
          unfold Node.after at opened
          rw [found] at opened
          cases opened
      | some w =>
          have running : (story.node.after capacity call).wal = some w := found
          simp only [running] at gone
          simp only [found]
          unfold Story.gone at gone ⊢
          simp only at gone
          split at gone
          · rw [List.append_nil] at gone
            exact List.mem_append.mp gone
          · rw [← List.append_assoc] at gone
            exact List.mem_append.mp gone

structure ReplaysInv (capacity : Nat) (s : Replays) : Prop where
  story : StoryInv capacity s.story
  held : ∀ ask ∈ s.held, ∀ p ∈ s.story.gone, ask.covers p = false

/-- A request that is not refused asks for nothing that is gone. -/
theorem ReplaysInv.answered {s : Replays} (inv : ReplaysInv capacity s) {l : Loop} {slot : Nat}
    {h : MsgHeader} {payload : Bytes} {ask : Ask} (received : s.Receives l slot h payload ask)
    (told : ask.told s.story l.wal) :
    RefusesReplay l slot h payload ∨ ∀ p ∈ s.story.gone, ask.covers p = false := by
  by_cases covered : ∃ p ∈ s.story.gone, ask.covers p = true
  · left
    obtain ⟨p, gone, covers⟩ := covered
    have low := Ask.start_low inv.story received.running told gone covers
    have positive := received.positive
    exact handleSubscribe_refuses received.asked (by omega) received.active received.waiting low
  · right
    intro p gone
    exact Bool.eq_false_iff.mpr (fun covers => covered ⟨p, gone, covers⟩)

theorem ReplaysInv.step {s s' : Replays} {event : ReplayEvent} (inv : ReplaysInv capacity s)
    (clear : s.clear capacity event) (moves : ReplayStep capacity s event s') :
    ReplaysInv capacity s' := by
  cases moves with
  | log moves =>
      obtain ⟨narrow, kept⟩ := clear
      refine ⟨inv.story.step narrow moves, ?_⟩
      intro ask held p gone
      simp only at held gone
      split at held
      · rename_i opened
        rcases Story.follow_gone moves opened gone with before | now
        · exact inv.held ask held p before
        · exact kept ask held p now
      · cases held
  | @subscribe l slot h payload ask received =>
      refine ⟨inv.story, ?_⟩
      intro other held p gone
      simp only at held gone
      split at held
      · rename_i waits
        rcases List.mem_cons.mp held with same | before
        · rw [same]
          rcases inv.answered received (clear ask received.asked) with refused | kept
          · obtain ⟨_l, _same, _active, waiting⟩ := refused
            rw [waiting] at waits
            cases waits
          · exact kept p gone
        · exact inv.held other before p gone
      · exact inv.held other held p gone
  | settle =>
      exact ⟨inv.story, fun ask held p gone => inv.held ask (List.mem_of_mem_erase held) p gone⟩

/-- **A replay that is not refused asks for nothing that was deleted**, neither when it
is accepted nor while it waits to be answered. -/
theorem deleted_replay_refused {capacity : Nat} (s : Replays) (reached : s.Reached capacity) :
    (∀ ask ∈ s.held, ∀ p ∈ s.story.gone, ask.covers p = false) ∧
      ∀ l slot h payload ask, s.Receives l slot h payload ask →
        s.clear capacity (.subscribe l slot h payload) →
          RefusesReplay l slot h payload ∨ ∀ p ∈ s.story.gone, ask.covers p = false := by
  have inv : ReplaysInv capacity s := by
    refine @Runs.Reach.invariant _ _ _ _ _ (ReplaysInv capacity) ?_ ?_ s reached
    · rintro start ⟨fresh, none⟩
      refine ⟨.fresh fresh, ?_⟩
      intro ask held
      rw [none] at held
      cases held
    · intro s event s' inv clear moves
      exact inv.step clear moves
  refine ⟨inv.held, ?_⟩
  intro l slot h payload ask received clear
  exact inv.answered received (clear ask received.asked)

end Replaying

/-! ### A restart forgets what was deleted -/

def Story.call (story : Story) (call : WalCall) : Story :=
  story.follow (.call call) (story.node.after 120 call)

/-- A segment's worth for key 7. -/
def keyedAppend : WalCall :=
  .append { plainRec 8 with partitionKey := 7 } (List.replicate 8 7) WAL_REC_MAX_SIZE

def emptyStory : Story := ⟨emptyNode, [], [], []⟩

/-- Two records of one key in a segment each, the first of them deleted. -/
def retainedStory : Story :=
  ((((emptyStory.call (.open' [] WAL_REC_MAX_SIZE)).call keyedAppend).call keyedAppend).call
    .sync).call (.retain 2)

def restartedStory : Story :=
  (retainedStory.call .close).call (.open' [2] WAL_REC_MAX_SIZE)

/-- SUBSCRIBE to key 7, from sequence 1 on. -/
def subscribeSeven : MsgHeader := msgHeaderNew MSG_OP_SUBSCRIBE MSG_RECORD_NONE 0 16 7 0

def fromOne : Bytes := le 8 0 ++ le 8 1

/-- A node that serves this log. -/
def Story.serving (story : Story) : Loop :=
  loopInit (story.node.wal.getD (walClosed 120)) story.node.disk.os []

def Replays.of (story : Story) : Replays := ⟨story, []⟩

theorem Replays.of_story (story : Story) : (Replays.of story).story = story := rfl

theorem Replays.called {guard : Replays → ReplayEvent → Prop} {story : Story} {call : WalCall}
    (reached : Runs.Reach Replays.fresh (ReplayStep 120) guard (.of story))
    (admitted : guard (.of story) (.log (.call call))) (legal : story.node.legal call) :
    Runs.Reach Replays.fresh (ReplayStep 120) guard (.of (story.call call)) := by
  have moved := reached.next _ admitted (.log (.call legal))
  have same : Replays.mk (story.call call)
      (if (story.node.after 120 call).wal.isSome then [] else []) = .of (story.call call) :=
    congrArg _ (ite_self _)
  rw [← same]
  exact moved

/-- A run that deletes the first record of a key, under any guard. -/
theorem retainedStory_reached {guard : Replays → ReplayEvent → Prop}
    (admitted : ∀ story : Story, (∀ w ∈ story.node.wal, w.active.nextSeq < 2 ^ 64) →
      ∀ call ∈ [.open' [] WAL_REC_MAX_SIZE, keyedAppend, .sync, .retain 2],
        guard (.of story) (.log (.call call))) :
    Runs.Reach Replays.fresh (ReplayStep 120) guard (.of retainedStory) := by
  have zero : Runs.Reach Replays.fresh (ReplayStep 120) guard (.of emptyStory) :=
    .start ⟨⟨emptyNode_fresh, rfl, rfl, rfl⟩, rfl⟩
  have one := Replays.called zero (admitted _ (by decide +kernel) _ (by simp))
    (show emptyNode.legal (.open' [] WAL_REC_MAX_SIZE) from ⟨rfl, List.Perm.nil, Nat.le_refl _⟩)
  have two := Replays.called one (admitted _ (by decide +kernel) keyedAppend (by simp))
    ⟨by decide +kernel, by decide⟩
  have three := Replays.called two (admitted _ (by decide +kernel) keyedAppend (by simp))
    ⟨by decide +kernel, by decide⟩
  have four := Replays.called three (admitted _ (by decide +kernel) .sync (by simp))
    (show _ ≠ none by decide +kernel)
  exact Replays.called four (admitted _ (by decide +kernel) (.retain 2) (by simp))
    (show _ ≠ none by decide +kernel)

theorem serving_receives {story : Story} {w : Wal} (running : story.node.wal = some w) :
    (Replays.of story).Receives story.serving 0 subscribeSeven fromOne ⟨7, false, 1⟩ where
  running := by
    unfold Story.serving
    rw [running]
    exact running
  disk := rfl
  asked := by decide
  positive := by decide
  active := rfl
  waiting := rfl

/-- After the restart the same request is answered with an ACK. -/
theorem deleted_replay_answered :
    ¬ ∀ s : Replays, Runs.Reach Replays.fresh (ReplayStep 120) (fun _ _ => True) s →
      ∀ l slot h payload ask, s.Receives l slot h payload ask →
        RefusesReplay l slot h payload ∨ ∀ p ∈ s.story.gone, ask.covers p = false := by
  intro always
  have one := @retainedStory_reached (fun _ _ => True) (fun _ _ _ _ => trivial)
  have two := @Replays.called _ _ .close one trivial
    (show retainedStory.node.wal ≠ none by decide +kernel)
  have reached : Runs.Reach Replays.fresh (ReplayStep 120) (fun _ _ => True)
      (.of restartedStory) :=
    Replays.called two trivial ⟨by decide +kernel, by decide +kernel, Nat.le_refl _⟩
  cases running : restartedStory.node.wal with
  | none =>
      have opened : restartedStory.node.wal.isSome = true := by decide +kernel
      rw [running] at opened
      cases opened
  | some w =>
      rcases always _ reached _ _ _ _ _ (serving_receives running) with refused | kept
      · obtain ⟨_l, _same, active, _waiting⟩ := refused
        have begun : ((handleSubscribe restartedStory.serving 0 subscribeSeven fromOne).conns
            0).sub.active = true := by decide +kernel
        rw [active] at begun
        cases begun
      · rw [Replays.of_story] at kept
        have covered : restartedStory.gone.any (Ask.covers ⟨7, false, 1⟩) = true := by
          decide +kernel
        obtain ⟨p, gone, covers⟩ := List.any_eq_true.mp covered
        rw [kept p gone] at covers
        cases covers

/-- Without a restart the request is refused. -/
theorem deleted_replay_refused_running :
    RefusesReplay retainedStory.serving 0 subscribeSeven fromOne := by
  have reached : Replays.Reached 120 (.of retainedStory) := by
    refine retainedStory_reached ?_
    intro story small call listed
    have none : ∀ ask ∈ (Replays.of story).held,
        ∀ p ∈ (Replays.of story).story.deletes 120 (.call call), ask.covers p = false := by
      intro ask held
      cases held
    simp only [List.mem_cons, List.not_mem_nil, or_false] at listed
    rcases listed with same | same | same | same
    · rw [same] at none ⊢
      exact ⟨⟨trivial, trivial⟩, none⟩
    · rw [same] at none ⊢
      exact ⟨⟨small, show 7 < 2 ^ 64 by decide⟩, none⟩
    · rw [same] at none ⊢
      exact ⟨⟨trivial, trivial⟩, none⟩
    · rw [same] at none ⊢
      exact ⟨⟨trivial, trivial⟩, none⟩
  cases running : retainedStory.node.wal with
  | none =>
      have opened : retainedStory.node.wal.isSome = true := by decide +kernel
      rw [running] at opened
      cases opened
  | some w =>
      have told : Replays.clear 120 (.of retainedStory)
          (.subscribe retainedStory.serving 0 subscribeSeven fromOne) := by
        intro ask asked
        right
        left
        have none : retainedStory.earlier = [] := by decide +kernel
        intro p present
        rw [show (Replays.of retainedStory).story.earlier = [] from none] at present
        cases present
      rcases (deleted_replay_refused _ reached).2 _ _ _ _ _ (serving_receives running) told with
        refused | kept
      · exact refused
      · rw [Replays.of_story] at kept
        have covered : retainedStory.gone.any (Ask.covers ⟨7, false, 1⟩) = true := by
          decide +kernel
        obtain ⟨p, gone, covers⟩ := List.any_eq_true.mp covered
        rw [kept p gone] at covers
        cases covers

end Msgsrvd

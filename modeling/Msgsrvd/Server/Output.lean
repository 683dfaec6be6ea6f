/-
The output stream of a connection: whole frames, in the order they were staged.

What the socket has taken, followed by the send buffer, is what was staged since the
connection was opened, through partial sends and through the switch to a replica's buffer.
-/

import Msgsrvd.Server.Closing
import Msgsrvd.Server.Rounds

namespace Msgsrvd

open Bytestring

variable {may : Prop} {slot : Nat} {l m : Loop} {pass : Pass}

/-! ### The history of one connection -/

/-- The frames staged on the connection that the slot holds, in order. -/
def outputOf (slot : Nat) : List Note → List Frame
  | [] => []
  | .opened other :: earlier => if other = slot then [] else outputOf slot earlier
  | .released other :: earlier => if other = slot then [] else outputOf slot earlier
  | .staged other _ frame :: earlier =>
      if other = slot then outputOf slot earlier ++ [frame] else outputOf slot earlier
  | _ :: earlier => outputOf slot earlier

/-- The bytes the socket of that connection has accepted. -/
def acceptedOf (slot : Nat) : List Note → Bytes
  | [] => []
  | .opened other :: earlier => if other = slot then [] else acceptedOf slot earlier
  | .released other :: earlier => if other = slot then [] else acceptedOf slot earlier
  | .handed other _ bytes taken :: earlier =>
      if other = slot then acceptedOf slot earlier ++ bytes.take taken else acceptedOf slot earlier
  | _ :: earlier => acceptedOf slot earlier

/-- A send on that connection has taken nothing. -/
def tookNothing (slot : Nat) : List Note → Bool
  | [] => false
  | .opened other :: earlier => if other = slot then false else tookNothing slot earlier
  | .released other :: earlier => if other = slot then false else tookNothing slot earlier
  | .handed other _ _ taken :: earlier =>
      (decide (other = slot) && decide (taken = 0)) || tookNothing slot earlier
  | _ :: earlier => tookNothing slot earlier

def outputBytes (frames : List Frame) : Bytes := frames.flatMap Frame.bytes

/-- The header says how many bytes follow it. -/
def Frame.Whole (frame : Frame) : Prop :=
  (msgHeaderAt frame.bytes).payloadLen = frame.payload.length

theorem Frame.whole {frame : Frame} (length : frame.header.payloadLen = frame.payload.length)
    (short : frame.bytes.length ≤ LOOP_REPL_CAP) : frame.Whole := by
  have small : frame.payload.length < 256 ^ 4 := by
    rw [frame_length] at short
    unfold LOOP_REPL_CAP at short
    omega
  unfold Frame.Whole Frame.bytes
  rw [msgHeaderAt_encode]
  change frame.header.payloadLen % 256 ^ 4 = _
  rw [length, Nat.mod_eq_of_lt small]

/-! ### What a turn keeps -/

/-- A connection is ending after a send that may have failed. -/
def Broken (may : Prop) (slot : Nat) (c : LoopConn) (t : List Note) : Prop :=
  may ∧ c.closing = true ∧ tookNothing slot t = true

/-- Whole frames in order, as long as no send has failed. -/
structure Flows (may : Prop) (slot : Nat) (c : LoopConn) (t : List Note) : Prop where
  fits : c.sendBuf.length ≤ c.sendCap
  caps : c.sendCap ≤ LOOP_REPL_CAP
  whole : ∀ frame ∈ outputOf slot t, frame.Whole
  order : Broken may slot c t ∨
    acceptedOf slot t ++ c.sendBuf = outputBytes (outputOf slot t)

/-- A note that suits the connection leaves its output alone. -/
theorem suits_output {c : LoopConn} {note : Note} (suits : note.suits slot c) (t : List Note) :
    outputOf slot (note :: t) = outputOf slot t ∧ acceptedOf slot (note :: t) = acceptedOf slot t ∧
      tookNothing slot (note :: t) = tookNothing slot t := by
  cases note with
  | opened other => exact ⟨if_neg suits, if_neg suits, if_neg suits⟩
  | released other => exact ⟨if_neg suits, if_neg suits, if_neg suits⟩
  | staged other session frame => exact ⟨if_neg suits, rfl, rfl⟩
  | handed other durable bytes taken =>
      refine ⟨rfl, if_neg suits, ?_⟩
      change (decide (other = slot) && decide (taken = 0) || tookNothing slot t) = _
      rw [decide_eq_false suits, Bool.false_and, Bool.false_or]
  | _ => exact ⟨rfl, rfl, rfl⟩

theorem Flows.turn {c c' : LoopConn} {t t' : List Note} (flows : Flows may slot c t)
    (turn : Turn may slot (c, t) (c', t')) : Flows may slot c' t' := by
  cases turn with
  | aside same =>
      refine ⟨?_, ?_, flows.whole, ?_⟩
      · rw [same.sendBuf, same.sendCap]
        exact flows.fits
      · rw [same.sendCap]
        exact flows.caps
      · rw [same.sendBuf]
        exact flows.order.imp_left (fun broken => ⟨broken.1, same.closing broken.2.1, broken.2.2⟩)
  | noted suits =>
      obtain ⟨frames, taken, nothing⟩ := suits_output suits t
      refine ⟨flows.fits, flows.caps, ?_, ?_⟩
      · rw [frames]
        exact flows.whole
      · rw [frames, taken]
        unfold Broken
        rw [nothing]
        exact flows.order
  | tuned turns => exact ⟨flows.fits, flows.caps, flows.whole, flows.order⟩
  | opened =>
      have frames : outputOf slot (.opened slot :: t) = [] := if_pos rfl
      have taken : acceptedOf slot (.opened slot :: t) = [] := if_pos rfl
      refine ⟨Nat.zero_le _, by decide, ?_, .inr ?_⟩
      · rw [frames]
        intro frame absent
        cases absent
      · rw [frames, taken]
        rfl
  | released =>
      have frames : outputOf slot (.released slot :: t) = [] := if_pos rfl
      have taken : acceptedOf slot (.released slot :: t) = [] := if_pos rfl
      refine ⟨Nat.zero_le _, by decide, ?_, .inr ?_⟩
      · rw [frames]
        intro frame absent
        cases absent
      · rw [frames, taken]
        rfl
  | @staged _ _ session frame room length =>
      have frames : outputOf slot (.staged slot session frame :: t) = outputOf slot t ++ [frame] :=
        if_pos rfl
      refine ⟨?_, flows.caps, ?_, ?_⟩
      · rw [List.length_append]
        exact room
      · rw [frames]
        intro f inside
        rcases List.mem_append.mp inside with earlier | last
        · exact flows.whole f earlier
        · rw [List.mem_singleton.mp last]
          have caps := flows.caps
          exact Frame.whole length (by omega)
      · refine flows.order.imp id (fun order => ?_)
        rw [frames]
        change acceptedOf slot t ++ (c.sendBuf ++ frame.bytes) = _
        unfold outputBytes at order ⊢
        rw [List.flatMap_append, ← order, List.append_assoc]
        simp only [List.flatMap_cons, List.flatMap_nil, List.append_nil]
  | switched empty =>
      refine ⟨Nat.zero_le _, Nat.le_refl _, flows.whole, flows.order.imp id (fun order => ?_)⟩
      rw [empty] at order
      exact order
  | @took _ _ durable n =>
      have taken : acceptedOf slot (.handed slot durable c.sendBuf (min n c.sendBuf.length) :: t) =
          acceptedOf slot t ++ c.sendBuf.take (min n c.sendBuf.length) := if_pos rfl
      refine ⟨?_, flows.caps, flows.whole, ?_⟩
      · have fits := flows.fits
        change (c.sendBuf.drop n).length ≤ c.sendCap
        rw [List.length_drop]
        omega
      · rcases flows.order with broken | order
        · refine .inl ⟨broken.1, broken.2.1, ?_⟩
          change (decide (slot = slot) && decide (min n c.sendBuf.length = 0) ||
            tookNothing slot t) = true
          rw [broken.2.2, Bool.or_true]
        · right
          rw [taken]
          change _ ++ c.sendBuf.drop n = outputBytes (outputOf slot t)
          rw [← order, List.append_assoc, ← List.take_eq_take_min, List.take_append_drop]
  | @broke _ _ durable fails =>
      refine ⟨Nat.zero_le _, flows.caps, flows.whole, .inl ⟨fails, rfl, ?_⟩⟩
      change (decide (slot = slot) && decide (0 = 0) || tookNothing slot t) = true
      rw [decide_eq_true rfl, decide_eq_true rfl]
      rfl

theorem Flows.turns {s s' : LoopConn × List Note} (flows : Flows may slot s.1 s.2)
    (turns : Turns may slot s s') : Flows may slot s'.1 s'.2 := by
  induction turns with
  | refl => exact flows
  | tail _earlier last ih => exact ih.turn last

/-! ### Between passes -/

/-- The arm phase gives up every connection that ends. -/
theorem armConn_stays (sends : Nat → SendAnswer) (l : Loop) (slot : Nat)
    (used : ((armConn sends l slot).conns slot).inUse = true) :
    ((armConn sends l slot).conns slot).closing = false := by
  have released (l : Loop) : ((slotRelease l slot).conns slot).inUse = false := by
    by_cases busy : (l.conns slot).inUse = true
    · rw [slotRelease_conns l slot busy, conns_setConn]
      rfl
    · unfold slotRelease
      simp only
      rw [if_pos busy]
      exact (Bool.not_eq_true _).mp busy
  unfold armConn at used ⊢
  by_cases busy : (l.conns slot).inUse = true
  · rw [if_neg (not_not.mpr busy)] at used ⊢
    simp only at used ⊢
    generalize (if (l.conns slot).sendBuf ≠ [] ∧ ¬ (l.conns slot).wantOut = true then
      connSend l slot (sends slot) else l) = l1 at used ⊢
    by_cases ends : (l1.conns slot).closing = true
    · rw [if_pos ends, released l1] at used
      cases used
    · rw [if_neg ends] at used ⊢
      by_cases full : connRecvSpace ((l1.setConn slot { l1.conns slot with
          conn := connCompact (l1.conns slot).conn }).conns slot).conn = 0
      · rw [if_pos full, released] at used
        cases used
      · rw [if_neg full, conns_setConn]
        exact (Bool.not_eq_true _).mp ends
  · rw [if_pos busy] at used
    exact absurd used busy

theorem armPhase_stays {arm : Arm} (inside : slot < LOOP_MAX_CONNS)
    (used : ((armPhase l arm).conns slot).inUse = true) :
    ((armPhase l arm).conns slot).closing = false := by
  have stays (slots : List Nat) (l : Loop)
      (before : (l.conns slot).inUse = true → (l.conns slot).closing = false)
      (used : ((slots.foldl (armConn arm.sends) l).conns slot).inUse = true) :
      ((slots.foldl (armConn arm.sends) l).conns slot).closing = false := by
    induction slots generalizing l with
    | nil => exact before used
    | cons other rest ih =>
        refine ih _ ?_ used
        by_cases same : slot = other
        · rw [← same]
          exact armConn_stays arm.sends l slot
        · rw [armConn_other arm.sends l other same]
          exact before
  have listed (slots : List Nat) (l : Loop) (listed : slot ∈ slots)
      (used : ((slots.foldl (armConn arm.sends) l).conns slot).inUse = true) :
      ((slots.foldl (armConn arm.sends) l).conns slot).closing = false := by
    induction slots generalizing l with
    | nil => cases listed
    | cons other rest ih =>
        by_cases same : slot = other
        · subst same
          exact stays rest _ (armConn_stays arm.sends l slot) used
        · exact ih _ ((List.mem_cons.mp listed).resolve_left same) used
  unfold armPhase armConns at used ⊢
  rw [armStream_conns] at used ⊢
  exact listed _ _ (List.mem_range.mpr inside) used

/-- What every connection of a loop that goes on keeps from pass to pass. -/
def Loop.Rests (l : Loop) : Prop :=
  ∀ slot, Flows False slot (l.conns slot) l.trace ∧ (l.conns slot).closing = false

theorem Flows.settle {c : LoopConn} {t : List Note} (flows : Flows may slot c t)
    (stays : c.closing = false) : Flows False slot c t := by
  refine ⟨flows.fits, flows.caps, flows.whole, ?_⟩
  rcases flows.order with broken | order
  · have ends := broken.2.1
    rw [stays] at ends
    cases ends
  · exact .inr order

theorem Flows.mono {may' : Prop} (implies : may → may') {c : LoopConn} {t : List Note}
    (flows : Flows may slot c t) : Flows may' slot c t :=
  ⟨flows.fits, flows.caps, flows.whole,
    flows.order.imp_left (fun broken => ⟨implies broken.1, broken.2⟩)⟩

theorem Loop.Rests.moment {fails : Nat → Prop} (rests : l.Rests) (sound : l.Sound dark)
    (possible : pass.Possible l) (moment : Moment l pass m fails) (slot : Nat) :
    Flows (fails slot) slot (m.conns slot) m.trace :=
  Flows.turns ((rests slot).1.mono False.elim) (moment_turns sound possible moment slot)

theorem started_rests {config : Config} (started : Started config l) : l.Rests := by
  obtain ⟨os, listing, capacity, info, w, recs, os', _opened, rfl⟩ := started
  intro slot
  have flows : Flows False slot slotEmpty [.recovered recs] :=
    ⟨Nat.zero_le _, by decide, fun frame absent => (by cases absent), .inr rfl⟩
  unfold Config.start
  split
  · exact ⟨flows, rfl⟩
  · exact ⟨flows, rfl⟩

/-- A loop as it is reached, between passes while it goes on. -/
def Loop.Between (config : Config) (l : Loop) : Prop :=
  l.Reaches config ∧ (l.stop = false → l.Rests)

theorem running_rests {config : Config} (running : Running config l) (going : l.stop = false) :
    l.Rests := by
  have rests : l.Between config := by
    refine Runs.Reach.invariant ?_ ?_ running
    · intro l started
      exact ⟨running_moves (.start started), fun _ => started_rests started⟩
    · rintro l pass l' ⟨reaches, rests⟩ _admitted ⟨going, possible, rfl⟩
      obtain ⟨start, phase, lit, starts, sound, moves, resting⟩ := reaches
      obtain ⟨rfl, rfl⟩ := resting going
      obtain ⟨phase', lit', sound', moves', resting'⟩ := loopPass_moves sound possible
      refine ⟨⟨start, phase', lit', starts, sound', moves.trans moves', resting'⟩, fun going' => ?_⟩
      rcases loopPass_ends l pass with ⟨m, fails, _moment, ended⟩ |
        ⟨events, l1, waits, flushes, ended⟩
      · rw [ended] at going'
        cases going'
      · intro slot
        have flows := (rests going).moment sound possible (.rearmed waits flushes) slot
        rw [ended] at sound' ⊢
        have stays : ((armPhase (loopServe l1) pass.rearm).conns slot).closing = false := by
          by_cases used : ((armPhase (loopServe l1) pass.rearm).conns slot).inUse = true
          · exact armPhase_stays (sound'.inside slot used) used
          · rw [((sound'.conns slot).empty ((Bool.not_eq_true _).mp used)).1]
            rfl
        exact ⟨flows.settle stays, stays⟩
  exact rests.2 going

/-- **At every moment of every run, on every connection: what the socket has accepted,
followed by the send buffer, is the whole frames that were staged, in order, up to the
first send that fails.** -/
theorem output_whole {config : Config} {fails : Nat → Prop} (running : Running config l)
    (going : l.stop = false) (possible : pass.Possible l) (moment : Moment l pass m fails)
    (slot : Nat) : Flows (fails slot) slot (m.conns slot) m.trace := by
  obtain ⟨start, phase, lit, _starts, sound, _moves, resting⟩ := running_moves running
  obtain ⟨rfl, rfl⟩ := resting going
  exact (running_rests running going).moment sound possible moment slot

/-- The pass in which the client says HELLO. -/
def greetPass : Pass := calmPass [7] [arrives 0 (helloBytes 0)]

set_option maxRecDepth 8000 in
theorem output_whole_greeted :
    Flows (greetPass.failed [arrives 0 (helloBytes 0)] 0) 0
      ((loopDispatch (accepted.armed greetPass) [arrives 0 (helloBytes 0)]).conns 0)
      (loopDispatch (accepted.armed greetPass) [arrives 0 (helloBytes 0)]).trace :=
  output_whole (after_running (fresh_running leaderAlone (by decide +kernel)) _)
    (by decide +kernel) (quiet_possible (by decide +kernel) _) (.met rfl) 0

end Msgsrvd

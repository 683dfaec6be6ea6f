/-
What a node says is of its own protocol: every frame it ever stages is formed as its op asks,
and the bytes a socket has accepted read back as just those frames.
-/

import Msgsrvd.Proto.Framing
import Msgsrvd.Server.Follower

namespace Msgsrvd

open Bytestring

/-! ### Frames that are formed -/

def Note.formed : Note → Bool
  | .staged _ _ frame => frame.formed
  | _ => true

variable {c c' : Course}

theorem plain_formed {note : Note} (plain : note.plain = true) : note.formed = true := by
  cases note with
  | staged slot session frame =>
      unfold Note.plain Frame.plain at plain
      rw [Bool.and_eq_true, Bool.and_eq_true] at plain
      exact plain.1.1
  | _ => rfl

theorem recordFrame_formed (bytes : Bytes) (r : WalRec) : (recordFrame bytes r).formed = true := by
  have unflagged : hasFlag 0 MSG_FLAG_LAST = false := by decide
  have bodied : (recordFrame bytes r).bodied = true := by
    change (!hasFlag 0 MSG_FLAG_LAST || (recordFrame bytes r).payload.length == 0) = true
    rw [unflagged]
    rfl
  unfold Frame.formed
  rw [bodied]
  rfl

theorem pushNotes_formed (slot session : Nat) (sub : LoopSub) (durable : Nat) (recs : List Bytes) :
    ∀ note ∈ pushNotes slot session sub durable recs, note.formed = true := by
  intro note listed
  obtain ⟨bytes, -, pushed⟩ := List.mem_flatMap.mp listed
  unfold pushNote at pushed
  split at pushed
  · cases pushed
  · split at pushed
    · rcases List.mem_cons.mp pushed with rfl | pushed
      · rfl
      · rw [List.mem_singleton.mp pushed]
        exact recordFrame_formed bytes _
    · cases pushed

theorem Course.Step.formed (step : Course.Step c c')
    (formed : ∀ note ∈ c.trace, note.formed = true) : ∀ note ∈ c'.trace, note.formed = true := by
  have more {note : Note} (of : note.formed = true) :
      ∀ other ∈ note :: c.trace, other.formed = true := by
    intro other listed
    rcases List.mem_cons.mp listed with rfl | earlier
    · exact of
    · exact formed other earlier
  cases step with
  | noted plain => exact more (plain_formed plain)
  | shut | sought | tuned | failed | broken => exact formed
  | opened | released | detached | attached | began | ended => exact more rfl
  | batch => exact more rfl
  | read session durable stays active waiting are ends =>
      intro note listed
      rcases List.mem_append.mp listed with pushed | earlier
      · exact pushNotes_formed _ _ _ _ _ note pushed
      · exact formed note earlier

theorem formed_run (run : Relation.ReflTransGen Course.Step c c')
    (formed : ∀ note ∈ c.trace, note.formed = true) : ∀ note ∈ c'.trace, note.formed = true := by
  induction run with
  | refl => exact formed
  | tail before step ih => exact step.formed ih

theorem running_formed {config : Config} {l m : Loop} {pass : Pass} {fails : Nat → Prop}
    (running : Running config l) (moment : Moment l pass m fails) :
    ∀ note ∈ m.trace, note.formed = true := by
  obtain ⟨start, started, course⟩ := running_course running
  have begun : ∀ note ∈ start.trace, note.formed = true := by
    obtain ⟨os, listing, capacity, info, w, recs, os', _opened, rfl⟩ := started
    have only : ∀ note ∈ [Note.recovered recs], note.formed = true := by
      intro note listed
      rw [List.mem_singleton.mp listed]
      rfl
    unfold Config.start
    split
    · exact only
    · exact only
  exact formed_run (course.trans (moment_course moment)) begun

/-- The output of a connection is of what has been staged. -/
theorem outputOf_staged {slot : Nat} {t : List Note} {frame : Frame} (out : frame ∈ outputOf slot t) :
    ∃ session, .staged slot session frame ∈ t := by
  induction t with
  | nil => cases out
  | cons note earlier ih =>
      have later (known : frame ∈ outputOf slot earlier) :
          ∃ session, .staged slot session frame ∈ note :: earlier := by
        obtain ⟨session, staged⟩ := ih known
        exact ⟨session, List.mem_cons_of_mem _ staged⟩
      cases note with
      | opened other =>
          unfold outputOf at out
          split at out
          · cases out
          · exact later out
      | released other =>
          unfold outputOf at out
          split at out
          · cases out
          · exact later out
      | staged other session own =>
          unfold outputOf at out
          split at out
          · rename_i same
            rcases List.mem_append.mp out with known | last
            · exact later known
            · rw [List.mem_singleton.mp last, same]
              exact ⟨session, List.mem_cons_self ..⟩
          · exact later out
      | _ => exact later out

/-! ### Reading them back -/

/-- What the peer's framing layer makes of a frame; its header has lost what the fields of the
wire do not hold. -/
def Frame.heard (frame : Frame) : ConnOut := .frame frame.header.cut frame.payload

/-- The ops that are ever sent. -/
theorem formed_op {frame : Frame} (formed : frame.formed = true) :
    frame.header.magic = MSG_MAGIC ∧ frame.header.version = MSG_VERSION ∧
      MSG_OP_MIN ≤ frame.header.op ∧ frame.header.op ≤ MSG_OP_MAX := by
  unfold Frame.formed at formed
  rw [Bool.and_eq_true, Bool.and_eq_true, beq_iff_eq, beq_iff_eq] at formed
  obtain ⟨⟨magic, version⟩, bodied⟩ := formed
  refine ⟨magic, version, ?_⟩
  unfold Frame.bodied at bodied
  split at bodied
  · rename_i ack
    rw [ack]
    decide
  · split at bodied
    · rename_i err
      rw [err]
      decide
    · split at bodied
      · rename_i pong
        rw [pong]
        decide
      · split at bodied
        · rename_i notice
          rw [notice]
          decide
        · rw [beq_iff_eq] at bodied
          rw [bodied]
          decide

/-- A frame at the front of a stream is read back, and the rest is read on its own. -/
theorem wireRest_formed {frame : Frame} (formed : frame.formed = true) (whole : frame.Whole)
    (short : frame.bytes.length ≤ LOOP_REPL_CAP) (opened : Bool) (rest : Bytes) :
    ∃ opened', wireRest LOOP_REPL_CAP .internal opened (frame.bytes ++ rest) =
      (frame.heard :: (wireRest LOOP_REPL_CAP .internal opened' rest).1,
        (wireRest LOOP_REPL_CAP .internal opened' rest).2) := by
  obtain ⟨magic, version, low, high⟩ := formed_op formed
  have length := frame_length frame
  have own : msgHeaderAt frame.bytes = frame.header.cut := by
    unfold Frame.bytes
    exact msgHeaderAt_encode _ _
  have len : frame.header.cut.payloadLen = frame.payload.length := by
    rw [← own]
    exact whole
  have sound : headerFault LOOP_REPL_CAP .internal opened frame.header.cut = none := by
    have magic' : frame.header.cut.magic = MSG_MAGIC := by
      change frame.header.magic % 256 ^ 4 = _
      rw [magic]
      rfl
    have version' : frame.header.cut.version = MSG_VERSION := by
      change frame.header.version % 256 ^ 2 = _
      rw [version]
      rfl
    have op : frame.header.cut.op = frame.header.op := by
      refine Nat.mod_eq_of_lt ?_
      unfold MSG_OP_MAX MSG_OP_REPL_ACK at high
      omega
    unfold LOOP_REPL_CAP MSG_HEADER_SIZE at *
    unfold headerFault MSG_MAX_PAYLOAD MSG_HEADER_SIZE
    rw [if_neg (not_not.mpr magic'), if_neg (by rw [version']; decide), if_neg (by rw [op]; omega),
      if_neg (by rw [len]; omega), if_neg (by rintro ⟨client, _⟩; cases client)]
  have stream : (frame.bytes ++ rest).length = MSG_HEADER_SIZE + frame.payload.length + rest.length := by
    rw [List.length_append, length]
  have long : ¬ frame.bytes.length < MSG_HEADER_SIZE := by omega
  have header : msgHeaderAt (frame.bytes ++ rest) = frame.header.cut := by
    rw [msgHeaderAt_append rest long, own]
  have read := @wireRest_frame LOOP_REPL_CAP .internal opened (frame.bytes ++ rest)
    (by omega) (by rw [header]; exact sound) (by rw [header, len]; omega)
  have payload : slice (frame.bytes ++ rest) MSG_HEADER_SIZE frame.payload.length =
      frame.payload := by
    unfold slice Frame.bytes
    rw [List.append_assoc, ← length_msgEncodeHeader frame.header, List.drop_left, List.take_left]
  have behind : (frame.bytes ++ rest).drop (MSG_HEADER_SIZE + frame.payload.length) = rest := by
    rw [← length, List.drop_left]
  rw [header, len, payload, behind] at read
  exact ⟨_, read⟩

/-- **The bytes of formed frames read back as those frames**, and as nothing else. -/
theorem wireRest_output {frames : List Frame}
    (each : ∀ frame ∈ frames, frame.formed = true ∧ frame.Whole ∧
      frame.bytes.length ≤ LOOP_REPL_CAP) (opened : Bool) :
    wireRest LOOP_REPL_CAP .internal opened (outputBytes frames) =
      (frames.map Frame.heard, false) := by
  induction frames generalizing opened with
  | nil => exact wireRest_short (by decide)
  | cons frame rest ih =>
      obtain ⟨formed, whole, short⟩ := each frame (List.mem_cons_self ..)
      obtain ⟨opened', read⟩ := wireRest_formed formed whole short opened (outputBytes rest)
      have later := ih (fun other inside => each other (List.mem_cons_of_mem _ inside)) opened'
      rw [later] at read
      unfold outputBytes
      rw [List.flatMap_cons]
      exact read

/-- **At every moment of every run, what a live connection's socket has accepted and what its
send buffer still holds read back, by the node's own framing, as the frames that were staged,
every one of them formed as its op asks, and as no violation.** -/
theorem output_formed {config : Config} {l m : Loop} {pass : Pass} {fails : Nat → Prop} {slot : Nat}
    (running : Running config l) (going : l.stop = false) (possible : pass.Possible l)
    (moment : Moment l pass m fails) (stays : (m.conns slot).closing = false) :
    (∀ frame ∈ outputOf slot m.trace, frame.formed = true) ∧
      wire LOOP_REPL_CAP .internal (acceptedOf slot m.trace ++ (m.conns slot).sendBuf) =
        ((outputOf slot m.trace).map Frame.heard, false) := by
  have formed : ∀ frame ∈ outputOf slot m.trace, frame.formed = true := by
    intro frame out
    obtain ⟨session, staged⟩ := outputOf_staged out
    exact running_formed running moment _ staged
  refine ⟨formed, ?_⟩
  have short := (running_roomy running going possible moment slot).short
  rw [accepted_staged running going possible moment stays]
  exact wireRest_output (fun frame out => ⟨formed frame out, (short frame out).2,
    (short frame out).1⟩) false

set_option maxRecDepth 8000 in
theorem keySubscribed_going :
    keySubscribed.stop = false ∧ (outputOf 0 keySubscribed.trace).length = 4 := by
  unfold keySubscribed
  decide +kernel

/-- Two records and the two answers before them are read back. -/
theorem output_formed_subscribed :
    (outputOf 0 keySubscribed.trace).length = 4 ∧
      (∀ frame ∈ outputOf 0 keySubscribed.trace, frame.formed = true) ∧
      wire LOOP_REPL_CAP .internal
          (acceptedOf 0 keySubscribed.trace ++ (keySubscribed.conns 0).sendBuf) =
        ((outputOf 0 keySubscribed.trace).map Frame.heard, false) := by
  obtain ⟨going, count⟩ := keySubscribed_going
  exact ⟨count, @output_formed leaderAlone keySubscribed keySubscribed (calmPass [] [])
    (fun _ => False) 0 keySubscribed_running going (quiet_possible (by decide) _) .begins
    keySubscribed_state.2.1⟩

end Msgsrvd

/-
Writes that a replica has confirmed while they wait for that: how they are answered.
-/

import Msgsrvd.Server.Consent

namespace Msgsrvd

open Bytestring

variable {d d' : Desk} {slot : Nat} {level : Level}

/-! ### Confirmed in time -/

/-- An attached replica has confirmed a record that the write is about. -/
def Write.held (w : Write) (trace : List Note) : Bool :=
  (w.records trace).any (fun r => r.seq ≤ bestHeld trace)

/-- The tick that was read last. -/
def seenTick : List Note → Nat
  | [] => 0
  | .wrote w :: _ => w.tick
  | .swept _ _ tick :: _ => tick
  | _ :: earlier => seenTick earlier

/-- The deadline of the write's slot, which is that of the first to wait, is still to come. -/
def Write.inTime (w : Write) (trace : List Note) : Bool :=
  (owed w.slot .repl trace).getLast?.any (fun first => seenTick trace < first.deadline)

/-- The write waits no longer after this. -/
def Note.settles (note : Note) (w : Write) : Bool :=
  match note with
  | .opened slot | .released slot => w.slot == slot
  | .answered slot _ a => w.slot == slot && w.owedAt == a.level
  | _ => false

/-- The writes that wait for a copy, and that a replica has been seen to hold, before the
deadline, since they came. -/
def reached : List Note → List Write
  | [] => []
  | note :: earlier =>
      (awaited (note :: earlier)).filter (fun w =>
        w.owedAt == .repl && (w.held (note :: earlier) && w.inTime (note :: earlier))) ++
      (reached earlier).filter (fun w => !note.settles w)

/-! ### The law -/

/-- A write that a replica has held in time is answered by an ACK at or above it that does
not say DEGRADED, and by no other; and it is not left waiting without a replica, or beyond
the deadline. -/
def HeldAnswered : Note → List Note → Prop
  | .answered slot _ a, earlier => ∀ w ∈ reached earlier, w.slot = slot →
      (a.level = .repl → a.sent = true ∧ a.refused = false ∧
        hasFlag a.flags MSG_FLAG_DEGRADED = false ∧ w.header.sequence ≤ a.clientSeq) ∧
      (a.level = .local' → a.sent = true → hasFlag a.flags MSG_FLAG_DEGRADED = true →
        a.clientSeq < w.header.sequence)
  | .swept _ live tick, earlier => ∀ w ∈ reached earlier,
      live = true ∧ ∃ first ∈ owed w.slot .repl earlier, tick < first.deadline
  | _, _ => True

/-- Nothing that waits for a copy is held by a replica. -/
def noneHeld (trace : List Note) : Bool :=
  (awaited trace).all (fun w => w.owedAt != .repl || !w.held trace)

/-- Replicas have confirmed all that a replicated slot waits for, or nothing in it: when it
is answered, and when all slots have been looked at, and when a replica goes; what is
confirmed is not taken back; there is room for the ACK; and no slot that is answered at
once as degraded covers what a replica holds. -/
def heldFits : Note → List Note → Bool
  | .answered slot _ a, earlier =>
      match a.level with
      | .repl =>
          let high := owedSeq slot .repl earlier
          if high ≤ bestHeld earlier ∧ high ≤ a.durable then
            decide (MSG_HEADER_SIZE + MSG_ACK_SIZE ≤ a.room)
          else (owed slot .repl earlier).all (fun w => !w.held earlier)
      | .local' =>
          (owed slot .local' earlier).all (fun w => !w.replicated) ||
            (owed slot .repl earlier).all (fun w =>
              !w.held earlier || decide (a.clientSeq < w.header.sequence))
  | .swept _ _ _, earlier => noneHeld earlier
  | .detached _, earlier => noneHeld earlier
  | .confirmed _ idx sequence, earlier => (heldBy idx earlier).all (fun held => held ≤ sequence)
  | _, _ => true

/-- The condition on a whole history. -/
def HeldFits (trace : List Note) : Prop :=
  Traces.Always (fun note earlier => heldFits note earlier = true) trace

/-! ### What waits -/

theorem awaited_kept {note : Note} {earlier : List Note} {w : Write} (waits : w ∈ awaited earlier)
    (open' : note.settles w = false) : w ∈ awaited (note :: earlier) := by
  have stays {keep : Write → Bool} (kept : keep w = true) : w ∈ (awaited earlier).filter keep :=
    List.mem_filter.mpr ⟨waits, kept⟩
  cases note with
  | wrote v =>
      rw [awaited_wrote]
      split
      · exact List.mem_cons_of_mem _ waits
      · exact waits
  | opened slot | released slot =>
      refine stays ?_
      change (w.slot == slot) = false at open'
      rw [bne, open']
      rfl
  | answered slot session a =>
      refine stays ?_
      rw [show (w.slot == slot && w.owedAt == a.level) = false from open']
      rfl
  | _ => exact waits

theorem reached_awaited {w : Write} {trace : List Note} (present : w ∈ reached trace) :
    w ∈ awaited trace ∧ w.owedAt = .repl := by
  induction trace with
  | nil => cases present
  | cons note earlier ih =>
      rcases List.mem_append.mp present with new | old
      · obtain ⟨waits, rest⟩ := List.mem_filter.mp new
        exact ⟨waits, eq_of_beq (Bool.and_eq_true_iff.mp rest).1⟩
      · obtain ⟨before, open'⟩ := List.mem_filter.mp old
        obtain ⟨waits, level⟩ := ih before
        exact ⟨awaited_kept waits (by rwa [Bool.not_eq_true'] at open'), level⟩

theorem Write.records_grow (w : Write) (note : Note) (earlier : List Note) :
    ∀ r ∈ w.records earlier, r ∈ w.records (note :: earlier) := by
  intro r present
  unfold Write.records at present ⊢
  cases fate : w.fate with
  | refused code | stored => simpa only [fate] using present
  | resent =>
      simp only [fate] at present ⊢
      obtain ⟨listed, same⟩ := List.mem_filter.mp present
      exact List.mem_filter.mpr ⟨List.mem_append_left _ listed, same⟩

/-- What is held stays so while the best replica does not fall back. -/
theorem Write.held_kept {w : Write} {note : Note} {earlier : List Note}
    (grows : bestHeld earlier ≤ bestHeld (note :: earlier)) (held : w.held earlier = true) :
    w.held (note :: earlier) = true := by
  obtain ⟨r, present, low⟩ := List.any_eq_true.mp held
  refine List.any_eq_true.mpr ⟨r, w.records_grow note earlier r present, decide_eq_true ?_⟩
  exact Nat.le_trans (of_decide_eq_true low) grows

/-! ### The best replica -/

theorem foldl_max_grows {held held' : Nat → Nat} (grows : ∀ idx, held idx ≤ held' idx)
    (slots : List Nat) {best best' : Nat} (low : best ≤ best') :
    slots.foldl (fun best idx => max best (held idx)) best ≤
      slots.foldl (fun best idx => max best (held' idx)) best' := by
  induction slots generalizing best best' with
  | nil => exact low
  | cons idx rest ih => exact ih (max_le_max low (grows idx))

theorem bestHeld_grows {earlier later : List Note}
    (grows : ∀ idx, (heldBy idx earlier).getD 0 ≤ (heldBy idx later).getD 0) :
    bestHeld earlier ≤ bestHeld later :=
  foldl_max_grows grows _ (Nat.le_refl 0)

/-- A replica that comes takes nothing from the others. -/
theorem bestHeld_attached {earlier : List Note} {slot idx sequence : Nat}
    (free : heldBy idx earlier = none) :
    bestHeld earlier ≤ bestHeld (.attached slot idx sequence :: earlier) := by
  refine bestHeld_grows (fun other => ?_)
  change _ ≤ (if idx = other then some sequence else heldBy other earlier).getD 0
  split
  · rename_i same
    rw [← same, free]
    exact Nat.zero_le _
  · exact Nat.le_refl _

theorem bestHeld_confirmed {earlier : List Note} {slot idx sequence : Nat}
    (rises : (heldBy idx earlier).all (fun held => held ≤ sequence) = true) :
    bestHeld earlier ≤ bestHeld (.confirmed slot idx sequence :: earlier) := by
  refine bestHeld_grows (fun other => ?_)
  change _ ≤ (if idx = other then (heldBy other earlier).map (fun _ => sequence)
    else heldBy other earlier).getD 0
  split
  · rename_i same
    rw [← same]
    cases held : heldBy idx earlier with
    | none => exact Nat.le_refl _
    | some before =>
        rw [held] at rises
        exact of_decide_eq_true rises
  · exact Nat.le_refl _

/-! ### The invariant -/

/-- What has been held while it waited still is. -/
def StillHeld (trace : List Note) : Prop := ∀ w ∈ reached trace, w.held trace = true

theorem StillHeld.cons {note : Note} {earlier : List Note} (still : StillHeld earlier)
    (grows : bestHeld earlier ≤ bestHeld (note :: earlier)) : StillHeld (note :: earlier) := by
  intro w present
  rcases List.mem_append.mp present with new | old
  · obtain ⟨_waits, rest⟩ := List.mem_filter.mp new
    exact (Bool.and_eq_true_iff.mp (Bool.and_eq_true_iff.mp rest).2).1
  · exact Write.held_kept grows (still w (List.mem_filter.mp old).1)

theorem StillHeld.none {trace : List Note} (still : StillHeld trace)
    (none' : noneHeld trace = true) {w : Write} (present : w ∈ reached trace) : False := by
  obtain ⟨waits, level⟩ := reached_awaited present
  have free := List.all_eq_true.mp none' w waits
  rw [level, bne_self_eq_false, Bool.false_or, still w present] at free
  cases free

theorem Asides.stillHeld {earlier later : List Note} (asides : Asides earlier later)
    (still : StillHeld earlier) : StillHeld later := by
  induction asides with
  | refl => exact still
  | cons aside _before ih =>
      refine (ih still).cons (bestHeld_grows (fun idx => ?_))
      rw [(Asides.one aside _).heldBy idx]

structure Desk.Holding (d : Desk) : Prop where
  consenting : d.Consenting
  still : StillHeld d.trace

theorem Desk.Holding.aside (holding : d.Holding) (aside : Aside d d') : d'.Holding :=
  ⟨holding.consenting.aside aside, aside.trace.stillHeld holding.still⟩

theorem Desk.Holding.deal (holding : d.Holding) (deal : Deal d d') (fits : HeldFits d'.trace) :
    d'.Holding := by
  refine ⟨holding.consenting.deal deal, ?_⟩
  have still := holding.still
  cases deal with
  | attached _ _ free =>
      rw [holding.consenting.attended] at free
      exact still.cons (bestHeld_attached free)
  | confirmed => exact still.cons (bestHeld_confirmed fits.newest)
  | detached =>
      intro w present
      rcases List.mem_append.mp present with new | old
      · obtain ⟨_waits, rest⟩ := List.mem_filter.mp new
        exact (Bool.and_eq_true_iff.mp (Bool.and_eq_true_iff.mp rest).2).1
      · exact (still.none fits.newest (List.mem_filter.mp old).1).elim
  | raised =>
      unfold Desk.raised
      split
      · exact still
      · exact still
  | ticked | turned => exact still
  | _ => exact still.cons (Nat.le_refl _)

/-! ### Answers -/

instance HeldAnswered.decidable : ∀ note earlier, Decidable (HeldAnswered note earlier)
  | .answered slot _ a, earlier =>
      inferInstanceAs (Decidable (∀ w ∈ reached earlier, w.slot = slot →
        (a.level = .repl → a.sent = true ∧ a.refused = false ∧
          hasFlag a.flags MSG_FLAG_DEGRADED = false ∧ w.header.sequence ≤ a.clientSeq) ∧
        (a.level = .local' → a.sent = true → hasFlag a.flags MSG_FLAG_DEGRADED = true →
          a.clientSeq < w.header.sequence)))
  | .swept _ live tick, earlier =>
      inferInstanceAs (Decidable (∀ w ∈ reached earlier,
        live = true ∧ ∃ first ∈ owed w.slot .repl earlier, tick < first.deadline))
  | .recovered _, _ | .opened _, _ | .released _, _ | .drew _ _, _ | .joined _ _, _
  | .wrote _, _ | .handed _ _ _ _, _ | .flushed _ _ _ _, _
  | .staged _ _ _, _ | .asked _ _ _ _ _, _ | .began _ _ _, _ | .behind _ _ _ _, _
  | .pushed _ _ _ _ _, _ | .ended _ _ _, _ | .bounded _ _, _ | .retained _ _, _ | .heard _ _, _
  | .attached _ _ _, _ | .confirmed _ _ _, _ | .detached _, _ | .applied _, _ | .dialed, _
  | .reported _, _ | .handedUp _ _ _, _ | .heardDown _, _ => inferInstanceAs (Decidable True)

end Msgsrvd

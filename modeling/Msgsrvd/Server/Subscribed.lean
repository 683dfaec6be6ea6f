/-
A subscription stays a subscription: what a READ leaves in the connection's one stream,
and what a SUBSCRIBE that follows it makes of that.
-/

import Msgsrvd.Server.Barrier
import Msgsrvd.Server.Output

namespace Msgsrvd

open Bytestring

variable {may : Prop} {slot : Nat} {l m : Loop} {pass : Pass} {c c' : LoopConn} {t t' : List Note}

/-! ### The history of one connection's streams -/

/-- A READ has been accepted on the connection that the slot holds. -/
def readAsked (slot : Nat) : List Note → Bool
  | [] => false
  | .opened other :: earlier => if other = slot then false else readAsked slot earlier
  | .asked other op _ _ _ :: earlier =>
      (decide (other = slot) && decide (op = MSG_OP_READ)) || readAsked slot earlier
  | _ :: earlier => readAsked slot earlier

/-- The last request that was accepted on it is a SUBSCRIBE, and has been answered. -/
def subscribedOn (slot : Nat) : List Note → Bool
  | [] => false
  | .opened other :: earlier => if other = slot then false else subscribedOn slot earlier
  | .released other :: earlier => if other = slot then false else subscribedOn slot earlier
  | .asked other _ _ _ _ :: earlier => if other = slot then false else subscribedOn slot earlier
  | .began other _ _ :: earlier =>
      if other = slot then (lastAsk slot earlier).any (fun ask => ask.1 == MSG_OP_SUBSCRIBE)
      else subscribedOn slot earlier
  | _ :: earlier => subscribedOn slot earlier

/-- A subscription comes to no end, and stops at no bound. -/
def SubscriptionKept (slot : Nat) : Note → List Note → Prop
  | .ended other _ _, earlier => other = slot → subscribedOn slot earlier = false
  | .bounded other _, earlier => other = slot → subscribedOn slot earlier = false
  | _, _ => True

instance SubscriptionKept.decidable (slot : Nat) :
    ∀ note earlier, Decidable (SubscriptionKept slot note earlier)
  | .ended other _ _, earlier =>
      inferInstanceAs (Decidable (other = slot → subscribedOn slot earlier = false))
  | .bounded other _, earlier =>
      inferInstanceAs (Decidable (other = slot → subscribedOn slot earlier = false))
  | .recovered _, _ | .opened _, _ | .released _, _ | .drew _ _, _ | .joined _ _, _
  | .wrote _, _ | .answered _ _ _, _ | .flushed _ _ _ _, _ | .swept _ _ _, _
  | .staged _ _ _, _ | .asked _ _ _ _ _, _ | .began _ _ _, _ | .behind _ _ _ _, _
  | .pushed _ _ _ _ _, _ | .retained _ _, _ | .handed _ _ _ _, _ | .heard _ _, _
  | .attached _ _ _, _ | .confirmed _ _ _, _ | .detached _, _ | .applied _, _ | .dialed, _
  | .reported _, _ | .handedUp _ _ _, _ | .heardDown _, _ => inferInstanceAs (Decidable True)

/-- No SUBSCRIBE is accepted on a connection on which a READ has been. -/
def subscribeFits (slot : Nat) : Note → List Note → Bool
  | .asked other op _ _ _, earlier =>
      decide (other = slot → op = MSG_OP_SUBSCRIBE → readAsked slot earlier = false)
  | _, _ => true

def SubscribeFits (slot : Nat) (t : List Note) : Prop :=
  Traces.Always (fun note earlier => subscribeFits slot note earlier = true) t

/-- Where the last request is a SUBSCRIBE, no READ has been accepted. -/
theorem unread_lastAsk {minSeq : Nat} (fits : SubscribeFits slot t)
    (asked : lastAsk slot t = some (MSG_OP_SUBSCRIBE, minSeq)) : readAsked slot t = false := by
  induction t with
  | nil => rfl
  | cons note earlier ih =>
      cases note with
      | asked other op minSeq' durable known =>
          have newest := of_decide_eq_true fits.newest
          unfold lastAsk at asked
          change (decide (other = slot) && decide (op = MSG_OP_READ) || readAsked slot earlier) = false
          by_cases here : other = slot
          · rw [if_pos here] at asked
            cases asked
            rw [newest here rfl, decide_eq_false (show ¬ MSG_OP_SUBSCRIBE = MSG_OP_READ by decide),
              Bool.and_false]
            rfl
          · rw [if_neg here] at asked
            rw [decide_eq_false here, Bool.false_and, Bool.false_or]
            exact ih fits.earlier asked
      | opened other =>
          change (if other = slot then false else readAsked slot earlier) = false
          split
          · rfl
          · exact ih fits.earlier asked
      | _ => exact ih fits.earlier asked

theorem unread_subscribed (fits : SubscribeFits slot t) (streams : subscribedOn slot t = true) :
    readAsked slot t = false := by
  induction t with
  | nil => rfl
  | cons note earlier ih =>
      cases note with
      | asked other op minSeq durable known =>
          change (if other = slot then false else subscribedOn slot earlier) = true at streams
          by_cases here : other = slot
          · rw [if_pos here] at streams
            cases streams
          · rw [if_neg here] at streams
            change (decide (other = slot) && decide (op = MSG_OP_READ) ||
              readAsked slot earlier) = false
            rw [decide_eq_false here, Bool.false_and, Bool.false_or]
            exact ih fits.earlier streams
      | began other sub durable =>
          change readAsked slot earlier = false
          change (if other = slot then (lastAsk slot earlier).any
            (fun ask => ask.1 == MSG_OP_SUBSCRIBE) else subscribedOn slot earlier) = true at streams
          by_cases here : other = slot
          · rw [if_pos here] at streams
            cases asked : lastAsk slot earlier with
            | none =>
                rw [asked] at streams
                cases streams
            | some ask =>
                obtain ⟨op, minSeq⟩ := ask
                rw [asked, Option.any_some, beq_iff_eq] at streams
                simp only at streams
                rw [streams] at asked
                exact unread_lastAsk fits.earlier asked
          · rw [if_neg here] at streams
            exact ih fits.earlier streams
      | opened other =>
          change (if other = slot then false else readAsked slot earlier) = false
          change (if other = slot then false else subscribedOn slot earlier) = true at streams
          by_cases here : other = slot
          · rw [if_pos here]
          · rw [if_neg here] at streams ⊢
            exact ih fits.earlier streams
      | released other =>
          change readAsked slot earlier = false
          change (if other = slot then false else subscribedOn slot earlier) = true at streams
          by_cases here : other = slot
          · rw [if_pos here] at streams
            cases streams
          · rw [if_neg here] at streams
            exact ih fits.earlier streams
      | _ => exact ih fits.earlier streams

/-! ### What a turn keeps -/

/-- Only a READ has made the stream one that ends, and a subscription runs. -/
structure Streaming (slot : Nat) (c : LoopConn) (t : List Note) : Prop where
  once : c.sub.once = true → readAsked slot t = true
  runs : subscribedOn slot t = true → c.sub.active = true ∧ c.sub.waiting = false
  kept : Traces.Always (SubscriptionKept slot) t

theorem Turn.trace (turn : Turn may slot (c, t) (c', t')) : ∃ notes, t' = notes ++ t := by
  cases turn with
  | aside same => exact ⟨[], rfl⟩
  | tuned turns => exact ⟨[], rfl⟩
  | noted suits => exact ⟨[_], rfl⟩
  | opened => exact ⟨[_], rfl⟩
  | released => exact ⟨[_], rfl⟩
  | staged room length => exact ⟨[_], rfl⟩
  | switched empty => exact ⟨[_], rfl⟩
  | took n => exact ⟨[_], rfl⟩
  | broke fails => exact ⟨[_], rfl⟩

/-- A stream that ends is no subscription. -/
theorem Streaming.unsubscribed (streaming : Streaming slot c t) (fits : SubscribeFits slot t)
    (once : c.sub.once = true) : subscribedOn slot t = false := by
  cases streams : subscribedOn slot t with
  | false => rfl
  | true =>
      have unread := unread_subscribed fits streams
      rw [streaming.once once] at unread
      cases unread

theorem Streaming.noted {note : Note} (streaming : Streaming slot c t)
    (suits : note.suits slot c) (fits : SubscribeFits slot t) :
    Streaming slot c (note :: t) := by
  cases note with
  | opened other =>
      have read : readAsked slot (.opened other :: t) = readAsked slot t := if_neg suits
      have streams : subscribedOn slot (.opened other :: t) = subscribedOn slot t := if_neg suits
      exact ⟨by rw [read]; exact streaming.once, by rw [streams]; exact streaming.runs,
        trivial, streaming.kept⟩
  | released other =>
      have streams : subscribedOn slot (.released other :: t) = subscribedOn slot t := if_neg suits
      exact ⟨streaming.once, by rw [streams]; exact streaming.runs, trivial, streaming.kept⟩
  | asked other op minSeq durable known =>
      refine ⟨?_, ?_, trivial, streaming.kept⟩
      · intro once
        change (decide (other = slot) && decide (op = MSG_OP_READ) || readAsked slot t) = true
        rw [streaming.once once, Bool.or_true]
      · intro streams
        change (if other = slot then false else subscribedOn slot t) = true at streams
        by_cases here : other = slot
        · rw [if_pos here] at streams
          cases streams
        · rw [if_neg here] at streams
          exact streaming.runs streams
  | began other sub durable =>
      refine ⟨streaming.once, ?_, trivial, streaming.kept⟩
      intro streams
      by_cases here : other = slot
      · exact suits here
      · rw [show subscribedOn slot (.began other sub durable :: t) = subscribedOn slot t from
          if_neg here] at streams
        exact streaming.runs streams
  | ended other sub durable =>
      exact ⟨streaming.once, streaming.runs,
        fun here => streaming.unsubscribed fits (suits here), streaming.kept⟩
  | bounded other sub =>
      exact ⟨streaming.once, streaming.runs,
        fun here => streaming.unsubscribed fits (suits here), streaming.kept⟩
  | _ => exact ⟨streaming.once, streaming.runs, trivial, streaming.kept⟩

theorem Streaming.turn (streaming : Streaming slot c t) (turn : Turn may slot (c, t) (c', t'))
    (fits : SubscribeFits slot t) : Streaming slot c' t' := by
  cases turn with
  | aside same =>
      refine ⟨?_, ?_, streaming.kept⟩
      · rw [same.sub]
        exact streaming.once
      · rw [same.sub]
        exact streaming.runs
  | noted suits => exact streaming.noted suits fits
  | tuned turns =>
      refine ⟨?_, ?_, streaming.kept⟩
      · intro once
        rcases turns.once once with before | now
        · exact streaming.once before
        · obtain ⟨minSeq, durable, known, earlier, asked⟩ := now
          rw [asked]
          change (decide (slot = slot) && decide (MSG_OP_READ = MSG_OP_READ) || _) = true
          rw [decide_eq_true rfl, decide_eq_true rfl]
          rfl
      · intro streams
        obtain ⟨active, waiting⟩ := streaming.runs streams
        refine turns.runs active waiting ?_
        cases once : c.sub.once with
        | false => rfl
        | true =>
            have none := streaming.unsubscribed fits once
            rw [streams] at none
            cases none
  | opened =>
      refine ⟨fun once => (by cases once), fun streams => ?_, trivial, streaming.kept⟩
      rw [show subscribedOn slot (.opened slot :: t) = false from if_pos rfl] at streams
      cases streams
  | released =>
      refine ⟨fun once => (by cases once), fun streams => ?_, trivial, streaming.kept⟩
      rw [show subscribedOn slot (.released slot :: t) = false from if_pos rfl] at streams
      cases streams
  | staged room length => exact ⟨streaming.once, streaming.runs, trivial, streaming.kept⟩
  | switched empty => exact ⟨streaming.once, streaming.runs, trivial, streaming.kept⟩
  | took n => exact ⟨streaming.once, streaming.runs, trivial, streaming.kept⟩
  | broke fails => exact ⟨streaming.once, streaming.runs, trivial, streaming.kept⟩

theorem Streaming.turns {s s' : LoopConn × List Note} (streaming : Streaming slot s.1 s.2)
    (turns : Turns may slot s s') (fits : SubscribeFits slot s'.2) :
    Streaming slot s'.1 s'.2 := by
  induction turns with
  | refl => exact streaming
  | @tail middle last _earlier turn ih =>
      obtain ⟨notes, grown⟩ := turn.trace
      rw [grown] at fits
      exact (ih fits.of_append).turn turn fits.of_append

/-! ### What a subscription is given -/

end Msgsrvd

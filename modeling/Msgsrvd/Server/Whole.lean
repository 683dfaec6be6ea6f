/-
What a subscriber and a replica are given: every record from where they started to where they
stand, each once and in order.
-/

import Msgsrvd.Lib.Traces
import Msgsrvd.Server.Courses

namespace Msgsrvd

open Bytestring

open Function (update)

/-! ### The history of a subscriber's stream -/

/-- The stream that was answered last on the connection that the slot holds, as it started. -/
def startedOn (slot : Nat) : List Note → Option LoopSub
  | [] => none
  | .opened other :: earlier => if other = slot then none else startedOn slot earlier
  | .released other :: earlier => if other = slot then none else startedOn slot earlier
  | .began other sub _ :: earlier => if other = slot then some sub else startedOn slot earlier
  | _ :: earlier => startedOn slot earlier

/-- A NOTIFY with a record in it. -/
def Frame.record (frame : Frame) : Bool :=
  decide (frame.header.op = MSG_OP_NOTIFY) && !hasFlag frame.header.flags MSG_FLAG_LAST

/-- The records that have been staged for it since. -/
def noticedOn (slot : Nat) : List Note → List Frame
  | [] => []
  | .opened other :: earlier => if other = slot then [] else noticedOn slot earlier
  | .released other :: earlier => if other = slot then [] else noticedOn slot earlier
  | .began other _ _ :: earlier => if other = slot then [] else noticedOn slot earlier
  | .staged other _ frame :: earlier =>
      if other = slot ∧ frame.record = true then noticedOn slot earlier ++ [frame]
      else noticedOn slot earlier
  | _ :: earlier => noticedOn slot earlier

/-- The stream has been given what it is for of the records from its start up to where it
stands, each once, in order and as it was read. -/
def StreamWhole (slot : Nat) (sub : LoopSub) (t : List Note) : Prop :=
  ∃ start recs, startedOn slot t = some start ∧ sub.key = start.key ∧
    sub.allKeys = start.allKeys ∧ Consecutive start.cursor.nextSeq recs ∧
    sub.cursor.nextSeq = start.cursor.nextSeq + recs.length ∧
    noticedOn slot t = start.frames recs

/-- No record is lost for want of room, and a stream that ends has been given all of it. -/
def StreamNote (slot : Nat) : Note → List Note → Prop
  | .pushed other _ _ _ sent, _ => other = slot → sent = true
  | .ended other sub _, earlier =>
      other = slot → StreamWhole slot sub earlier ∧ sub.untilSeq < sub.cursor.nextSeq
  | _, _ => True

/-- The streams of a slot's connection are whole. -/
structure Course.Streams (c : Course) (slot : Nat) : Prop where
  whole : (c.sub slot).active = true → c.closing slot = false →
    StreamWhole slot (c.sub slot) c.trace
  held : (c.sub slot).waiting = true → (c.sub slot).active = false
  kept : Traces.Always (StreamNote slot) c.trace

variable {c c' : Course} {slot : Nat} {t : List Note} {note : Note} {sub : LoopSub}

/-- A note that is not about the stream of the slot's connection. -/
def Note.besides (slot : Nat) : Note → Prop
  | .opened other | .released other | .began other _ _ | .ended other _ _
  | .pushed other _ _ _ _ => other ≠ slot
  | .staged other _ frame => other = slot → frame.record = false
  | _ => True

theorem besides_history (besides : note.besides slot) :
    startedOn slot (note :: t) = startedOn slot t ∧ noticedOn slot (note :: t) = noticedOn slot t ∧
      StreamNote slot note t := by
  cases note with
  | opened other => exact ⟨if_neg besides, if_neg besides, trivial⟩
  | released other => exact ⟨if_neg besides, if_neg besides, trivial⟩
  | began other sub durable => exact ⟨if_neg besides, if_neg besides, trivial⟩
  | ended other sub durable => exact ⟨rfl, rfl, fun same => absurd same besides⟩
  | pushed other sub durable r sent => exact ⟨rfl, rfl, fun same => absurd same besides⟩
  | staged other session frame =>
      refine ⟨rfl, if_neg ?_, trivial⟩
      rintro ⟨same, record⟩
      rw [besides same] at record
      cases record
  | _ => exact ⟨rfl, rfl, trivial⟩

theorem StreamWhole.besides {notes : List Note} (whole : StreamWhole slot sub t)
    (besides : ∀ note ∈ notes, note.besides slot) : StreamWhole slot sub (notes ++ t) := by
  induction notes with
  | nil => exact whole
  | cons note earlier ih =>
      obtain ⟨start, recs, started, key, allKeys, are, stands, noticed⟩ :=
        ih (fun other listed => besides other (List.mem_cons_of_mem _ listed))
      obtain ⟨same, frames, -⟩ := @besides_history slot (earlier ++ t) note
        (besides note (List.mem_cons_self ..))
      exact ⟨start, recs, same.trans started, key, allKeys, are, stands, frames.trans noticed⟩

theorem kept_besides {notes : List Note} (kept : Traces.Always (StreamNote slot) t)
    (besides : ∀ note ∈ notes, note.besides slot) :
    Traces.Always (StreamNote slot) (notes ++ t) := by
  induction notes with
  | nil => exact kept
  | cons note earlier ih =>
      exact ⟨(besides_history (besides note (List.mem_cons_self ..))).2.2,
        ih (fun other listed => besides other (List.mem_cons_of_mem _ listed))⟩

/-- Nothing of the slot's has changed but that there may be notes besides. -/
theorem Course.Streams.besides {notes : List Note} (streams : c.Streams slot)
    (sub : c'.sub slot = c.sub slot)
    (closing : c'.closing slot = false → c.closing slot = false)
    (trace : c'.trace = notes ++ c.trace) (besides : ∀ note ∈ notes, note.besides slot) :
    c'.Streams slot := by
  refine ⟨?_, ?_, ?_⟩
  · rw [sub, trace]
    exact fun active stays => (streams.whole active (closing stays)).besides besides
  · rw [sub]
    exact streams.held
  · rw [trace]
    exact kept_besides streams.kept besides

/-- A plain note is besides any stream. -/
theorem plain_besides (plain : note.plain = true) (slot : Nat) : note.besides slot := by
  cases note with
  | opened => cases plain
  | released => cases plain
  | began => cases plain
  | ended => cases plain
  | pushed => cases plain
  | staged other session frame =>
      intro _
      unfold Note.plain Frame.plain at plain
      unfold Frame.record
      rw [Bool.and_eq_true, Bool.and_eq_true, Bool.or_eq_true] at plain
      rw [Bool.and_eq_false_iff]
      rcases plain.2 with other | last
      · exact .inl (decide_eq_false (of_decide_eq_true other))
      · right
        rw [last]
        rfl
  | _ => trivial

/-! ### What a read adds -/

theorem pushNote_besides {other session durable : Nat} {bytes : Bytes} (apart : other ≠ slot) :
    ∀ note ∈ pushNote other session sub durable bytes, note.besides slot := by
  intro note listed
  unfold pushNote at listed
  split at listed
  · cases listed
  · split at listed
    · rcases List.mem_cons.mp listed with rfl | listed
      · exact apart
      · rw [List.mem_singleton.mp listed]
        exact fun same => absurd same apart
    · cases listed

theorem pushNotes_cons (slot session : Nat) (sub : LoopSub) (durable : Nat) (bytes : Bytes)
    (recs : List Bytes) :
    pushNotes slot session sub durable (bytes :: recs) =
      pushNotes slot session sub durable recs ++ pushNote slot session sub durable bytes := by
  unfold pushNotes
  rw [List.reverse_cons, List.flatMap_append, List.flatMap_singleton]

theorem frames_cons (sub : LoopSub) (bytes : Bytes) (recs : List Bytes) :
    sub.frames (bytes :: recs) = sub.frames [bytes] ++ sub.frames recs := by
  unfold LoopSub.frames
  rw [← List.filterMap_append, ← List.filter_append, List.singleton_append]

theorem recordFrame_record (bytes : Bytes) (r : WalRec) : (recordFrame bytes r).record = true := by
  have unflagged : hasFlag 0 MSG_FLAG_LAST = false := by decide
  unfold Frame.record
  rw [Bool.and_eq_true]
  refine ⟨decide_eq_true rfl, ?_⟩
  change (!hasFlag 0 MSG_FLAG_LAST) = true
  rw [unflagged]
  rfl

/-- What one record adds to the history. -/
theorem pushNote_history (session durable : Nat) (bytes : Bytes) :
    startedOn slot (pushNote slot session sub durable bytes ++ t) = startedOn slot t ∧
      noticedOn slot (pushNote slot session sub durable bytes ++ t) =
        noticedOn slot t ++ sub.frames [bytes] ∧
      (Traces.Always (StreamNote slot) t →
        Traces.Always (StreamNote slot) (pushNote slot session sub durable bytes ++ t)) := by
  unfold pushNote LoopSub.frames
  cases decoded : walRecDecode bytes with
  | none =>
      refine ⟨rfl, ?_, id⟩
      cases wants : sub.wants bytes with
      | true => simp [wants, decoded]
      | false => simp [wants]
  | some r =>
      simp only
      cases wants : sub.wants bytes with
      | false =>
          rw [if_neg Bool.false_ne_true]
          refine ⟨rfl, ?_, id⟩
          simp [wants]
      | true =>
          rw [if_pos rfl]
          refine ⟨rfl, ?_, ?_⟩
          · have listed : [bytes].filter sub.wants = [bytes] := by simp [wants]
            rw [listed, List.filterMap_cons_some (by rw [decoded]; rfl), List.filterMap_nil]
            exact if_pos ⟨rfl, recordFrame_record bytes r⟩
          · exact fun kept => ⟨fun _ => rfl, trivial, kept⟩

/-- What a whole read adds to it. -/
theorem pushNotes_history (session durable : Nat) (recs : List Bytes) :
    startedOn slot (pushNotes slot session sub durable recs ++ t) = startedOn slot t ∧
      noticedOn slot (pushNotes slot session sub durable recs ++ t) =
        noticedOn slot t ++ sub.frames recs ∧
      (Traces.Always (StreamNote slot) t →
        Traces.Always (StreamNote slot) (pushNotes slot session sub durable recs ++ t)) := by
  induction recs generalizing t with
  | nil =>
      refine ⟨rfl, ?_, id⟩
      change noticedOn slot t = noticedOn slot t ++ []
      rw [List.append_nil]
  | cons bytes rest ih =>
      obtain ⟨started, noticed, kept⟩ := @pushNote_history slot t sub session durable bytes
      obtain ⟨started', noticed', kept'⟩ := @ih (pushNote slot session sub durable bytes ++ t)
      rw [pushNotes_cons, List.append_assoc, frames_cons]
      refine ⟨started'.trans started, ?_, fun all => kept' (kept all)⟩
      rw [noticed', noticed, List.append_assoc]

/-- The records read next go on where the stream stands. -/
theorem StreamWhole.read {recs : List Bytes} {cursor : WalCursor} (session durable : Nat)
    (whole : StreamWhole slot sub t) (are : Consecutive sub.cursor.nextSeq recs)
    (ends : cursor.nextSeq = sub.cursor.nextSeq + recs.length) :
    StreamWhole slot { sub with cursor := cursor }
      (pushNotes slot session { sub with cursor := cursor } durable recs ++ t) := by
  obtain ⟨start, before, started, key, allKeys, first, stands, noticed⟩ := whole
  obtain ⟨started', noticed', -⟩ :=
    @pushNotes_history slot t { sub with cursor := cursor } session durable recs
  refine ⟨start, before ++ recs, started'.trans started, key, allKeys, ?_, ?_, ?_⟩
  · rw [stands] at are
    exact first.append are
  · rw [List.length_append]
    simp only
    omega
  · have same : ({ sub with cursor := cursor } : LoopSub).frames recs = start.frames recs := by
      unfold LoopSub.frames
      have wants : ({ sub with cursor := cursor } : LoopSub).wants = start.wants := by
        funext bytes
        unfold LoopSub.wants
        simp only [key, allKeys]
      rw [wants]
    rw [noticed', noticed, same]
    unfold LoopSub.frames
    rw [List.filter_append, List.filterMap_append]

/-! ### Runs -/

/-- One step keeps a connection's streams whole. -/
theorem Course.Step.streams (step : Course.Step c c') (streams : c.Streams slot) :
    c'.Streams slot := by
  have closings {other : Nat} {value : Bool} (shut : value = true ∨ other ≠ slot) :
      update c.closing other value slot = false → c.closing slot = false := by
    intro stays
    rw [Function.update_apply] at stays
    split at stays
    · rename_i same
      rcases shut with rfl | apart
      · cases stays
      · exact absurd same.symm apart
    · exact stays
  have away {α : Type} {f : Nat → α} {other : Nat} {value : α} (apart : other ≠ slot) :
      update f other value slot = f slot := Function.update_of_ne (Ne.symm apart) _ _
  have only {P : Note → Prop} {note : Note} (of : P note) : ∀ other ∈ [note], P other := by
    intro other listed
    rw [List.mem_singleton.mp listed]
    exact of
  have nothing {P : Note → Prop} : ∀ other ∈ ([] : List Note), P other := by
    intro other listed
    cases listed
  cases step with
  | noted plain =>
      exact @Course.Streams.besides _ _ slot [_] streams rfl id rfl
        (only (plain_besides plain slot))
  | shut other => exact streams.besides rfl (closings (.inl rfl)) (List.nil_append _).symm nothing
  | @opened other =>
      by_cases here : other = slot
      · subst here
        refine ⟨?_, ?_, trivial, streams.kept⟩
        · simp only [Function.update_self]
          exact fun active => nomatch active
        · simp only [Function.update_self]
          exact fun waiting => nomatch waiting
      · exact @Course.Streams.besides _ _ slot [_] streams (away here) (closings (.inr here)) rfl
          (only here)
  | @released other =>
      by_cases here : other = slot
      · subst here
        refine ⟨?_, ?_, trivial, streams.kept⟩
        · simp only [Function.update_self]
          exact fun active => nomatch active
        · simp only [Function.update_self]
          exact fun waiting => nomatch waiting
      · exact @Course.Streams.besides _ _ slot [_] streams (away here) (closings (.inr here)) rfl
          (only here)
  | detached next of => exact @Course.Streams.besides _ _ slot [_] streams rfl id rfl (only trivial)
  | attached free => exact @Course.Streams.besides _ _ slot [_] streams rfl id rfl (only trivial)
  | sought next free => exact streams.besides rfl id (List.nil_append _).symm nothing
  | @tuned other sub idle same =>
      by_cases here : other = slot
      · subst here
        have stopped : sub.active = false := by
          rw [same]
          exact idle.elim id streams.held
        refine ⟨?_, ?_, streams.kept⟩
        · simp only [Function.update_self]
          intro active
          rw [stopped] at active
          cases active
        · simp only [Function.update_self]
          exact fun _ => stopped
      · exact streams.besides (away here) id (List.nil_append _).symm nothing
  | @began other sub durable idle active waiting =>
      by_cases here : other = slot
      · subst here
        refine ⟨?_, ?_, trivial, streams.kept⟩
        · simp only [Function.update_self]
          exact fun _ _ => ⟨sub, [], if_pos rfl, rfl, rfl, trivial, rfl, if_pos rfl⟩
        · simp only [Function.update_self]
          intro held
          rw [waiting] at held
          cases held
      · exact @Course.Streams.besides _ _ slot [_] streams (away here) id rfl (only here)
  | @read other cursor recs session durable stays active waiting are ends =>
      by_cases here : other = slot
      · subst here
        refine ⟨?_, ?_, (pushNotes_history session durable recs).2.2 streams.kept⟩
        · simp only [Function.update_self]
          exact fun _ _ => (streams.whole active stays).read session durable are ends
        · simp only [Function.update_self]
          exact streams.held
      · refine streams.besides (away here) id rfl ?_
        intro note listed
        obtain ⟨bytes, -, pushed⟩ := List.mem_flatMap.mp listed
        exact pushNote_besides here note pushed
  | @failed other cursor =>
      by_cases here : other = slot
      · subst here
        refine ⟨?_, ?_, streams.kept⟩
        · simp only [Function.update_self]
          exact fun _ stays => nomatch stays
        · simp only [Function.update_self]
          exact streams.held
      · exact streams.besides (away here) (closings (.inl rfl)) (List.nil_append _).symm nothing
  | @ended other cursor durable stays active waiting past =>
      by_cases here : other = slot
      · subst here
        refine ⟨?_, ?_, fun _ => ⟨streams.whole active stays, past⟩, streams.kept⟩
        · simp only [Function.update_self]
          exact fun active => nomatch active
        · simp only [Function.update_self]
          exact fun _ => trivial
      · exact @Course.Streams.besides _ _ slot [_] streams (away here) id rfl (only here)
  | batch session stays of are some' =>
      exact @Course.Streams.besides _ _ slot [_] streams rfl id rfl (only (fun _ => rfl))
  | @broken other idx next of =>
      exact streams.besides rfl (closings (.inl rfl)) (List.nil_append _).symm nothing

/-- A client writes under two keys, and subscribes to one of them from the start of the log. -/
def writesAndSubscribes : List Pass :=
  [calmPass [7] [.listen (some true)],
    calmPass [7] [arrives 0 (helloBytes 0 ++ requestBytes MSG_OP_WRITE 0 3 2 (zeros 4) ++
      requestBytes MSG_OP_WRITE 0 5 3 (zeros 4) ++ requestBytes MSG_OP_WRITE 0 3 4 (zeros 4) ++
      requestBytes MSG_OP_SUBSCRIBE 0 3 5 (le 8 0 ++ le 8 1))],
    calmPass [7] []]

@[irreducible] def keySubscribed : Loop := (leaderAlone.fresh 4096).after writesAndSubscribes

set_option maxRecDepth 8000 in
theorem keySubscribed_state :
    (keySubscribed.conns 0).sub.active = true ∧ (keySubscribed.conns 0).closing = false ∧
      (keySubscribed.conns 0).sub.cursor.nextSeq = 4 ∧
      (noticedOn 0 keySubscribed.trace).length = 2 := by
  unfold keySubscribed
  decide +kernel

set_option maxRecDepth 8000 in
theorem keySubscribed_running : Running leaderAlone keySubscribed := by
  unfold keySubscribed
  exact after_running (fresh_running leaderAlone (by decide +kernel)) _

/-- The replica that the slot's connection attached as, and what it said it held then. -/
def attachedOn (slot : Nat) : List Note → Option (Nat × Nat)
  | [] => none
  | .opened other :: earlier => if other = slot then none else attachedOn slot earlier
  | .released other :: earlier => if other = slot then none else attachedOn slot earlier
  | .attached other idx sequence :: earlier =>
      if other = slot then some (idx, sequence) else attachedOn slot earlier
  | _ :: earlier => attachedOn slot earlier

/-- The batches that have been staged for it since. -/
def batchesOn (slot : Nat) : List Note → List Frame
  | [] => []
  | .opened other :: earlier => if other = slot then [] else batchesOn slot earlier
  | .released other :: earlier => if other = slot then [] else batchesOn slot earlier
  | .attached other _ _ :: earlier => if other = slot then [] else batchesOn slot earlier
  | .staged other _ frame :: earlier =>
      if other = slot ∧ frame.header.op = MSG_OP_REPL_DATA then batchesOn slot earlier ++ [frame]
      else batchesOn slot earlier
  | _ :: earlier => batchesOn slot earlier

/-- Batches that go on one where the other ends, from this sequence up to that. -/
inductive Batched (first : Nat) : List Frame → Nat → Prop where
  | none : Batched first [] first
  | more {frames : List Frame} {next : Nat} {recs : List Bytes} (before : Batched first frames next)
      (are : Consecutive next recs) (some' : recs ≠ []) :
      Batched first (frames ++ [batchFrame next recs]) (next + recs.length)

/-- Together they carry all the records between. -/
theorem Batched.records {first next : Nat} {frames : List Frame}
    (batched : Batched first frames next) :
    ∃ recs, Consecutive first recs ∧ frames.flatMap Frame.payload = recs.flatten ∧
      next = first + recs.length := by
  induction batched with
  | none => exact ⟨[], trivial, rfl, rfl⟩
  | @more frames next recs before are some' ih =>
      obtain ⟨earlier, first', payloads, stands⟩ := ih
      rw [stands] at are
      refine ⟨earlier ++ recs, first'.append are, ?_, ?_⟩
      · rw [List.flatMap_append, payloads, List.flatMap_singleton, List.flatten_append]
        rfl
      · rw [stands, List.length_append]
        omega

/-- The replica has been given all of the log from where it attached up to where it stands. -/
def ReplicaWhole (slot idx next : Nat) (t : List Note) : Prop :=
  ∃ first, attachedOn slot t = some (idx, first - 1) ∧ Batched first (batchesOn slot t) next

/-- The batches of a slot's connection are whole. -/
structure Course.Copies (c : Course) : Prop where
  held : ∀ slot idx, c.replica slot = some idx → c.live idx = true
  alone : ∀ slot other idx, c.replica slot = some idx → c.replica other = some idx → slot = other
  whole : ∀ slot idx, c.replica slot = some idx → c.closing slot = false →
    ReplicaWhole slot idx (c.next idx) c.trace

/-- A note that is not about the replica of the slot's connection. -/
def Note.apart (slot : Nat) : Note → Prop
  | .opened other | .released other | .attached other _ _ => other ≠ slot
  | .staged other _ frame => other = slot → frame.header.op ≠ MSG_OP_REPL_DATA
  | _ => True

theorem apart_history (apart : note.apart slot) :
    attachedOn slot (note :: t) = attachedOn slot t ∧
      batchesOn slot (note :: t) = batchesOn slot t := by
  cases note with
  | opened other => exact ⟨if_neg apart, if_neg apart⟩
  | released other => exact ⟨if_neg apart, if_neg apart⟩
  | attached other idx sequence => exact ⟨if_neg apart, if_neg apart⟩
  | staged other session frame => exact ⟨rfl, if_neg fun both => apart both.1 both.2⟩
  | _ => exact ⟨rfl, rfl⟩

theorem ReplicaWhole.apart {notes : List Note} {idx next : Nat}
    (whole : ReplicaWhole slot idx next t) (apart : ∀ note ∈ notes, note.apart slot) :
    ReplicaWhole slot idx next (notes ++ t) := by
  induction notes with
  | nil => exact whole
  | cons note earlier ih =>
      obtain ⟨first, attached, batched⟩ :=
        ih (fun other listed => apart other (List.mem_cons_of_mem _ listed))
      obtain ⟨same, frames⟩ := @apart_history slot (earlier ++ t) note
        (apart note (List.mem_cons_self ..))
      refine ⟨first, same.trans attached, ?_⟩
      rw [List.cons_append, frames]
      exact batched

theorem plain_apart (plain : note.plain = true) (slot : Nat) : note.apart slot := by
  cases note with
  | opened => cases plain
  | released => cases plain
  | attached => cases plain
  | staged other session frame =>
      intro _
      unfold Note.plain Frame.plain at plain
      rw [Bool.and_eq_true, Bool.and_eq_true] at plain
      exact of_decide_eq_true plain.1.2
  | _ => trivial

/-- No record of a stream is a batch. -/
theorem pushNotes_apart (other session : Nat) (sub : LoopSub) (durable : Nat) (recs : List Bytes) :
    ∀ note ∈ pushNotes other session sub durable recs, note.apart slot := by
  intro note listed
  obtain ⟨bytes, -, pushed⟩ := List.mem_flatMap.mp listed
  unfold pushNote at pushed
  split at pushed
  · cases pushed
  · split at pushed
    · rcases List.mem_cons.mp pushed with rfl | pushed
      · trivial
      · rw [List.mem_singleton.mp pushed]
        intro _ data
        cases data
    · cases pushed

/-- The replicas are who they were, and there may be notes that are about none of them. -/
theorem Course.Copies.apart {notes : List Note} (copies : c.Copies)
    (replica : ∀ slot idx, c'.replica slot = some idx → c.replica slot = some idx)
    (live : ∀ slot idx, c'.replica slot = some idx → c.live idx = true → c'.live idx = true)
    (stands : ∀ slot idx, c'.replica slot = some idx → c'.closing slot = false →
      c'.next idx = c.next idx ∧ c.closing slot = false ∧ ∀ note ∈ notes, note.apart slot)
    (trace : c'.trace = notes ++ c.trace) : c'.Copies := by
  refine ⟨?_, ?_, ?_⟩
  · intro slot idx of
    exact live slot idx of (copies.held slot idx (replica slot idx of))
  · intro slot other idx of also
    exact copies.alone slot other idx (replica slot idx of) (replica other idx also)
  · intro slot idx of stays
    obtain ⟨next, stayed, apart⟩ := stands slot idx of stays
    rw [next, trace]
    exact (copies.whole slot idx (replica slot idx of) stayed).apart apart

/-- One step keeps the batches whole. -/
theorem Course.Step.copies (step : Course.Step c c') (copies : c.Copies) : c'.Copies := by
  have only {P : Note → Prop} {note : Note} (of : P note) : ∀ other ∈ [note], P other := by
    intro other listed
    rw [List.mem_singleton.mp listed]
    exact of
  have nothing {P : Note → Prop} : ∀ other ∈ ([] : List Note), P other := by
    intro other listed
    cases listed
  -- a slot that is cleared, as far as the replicas go
  have cleared {here slot idx : Nat} (of : update c.replica here none slot = some idx) :
      slot ≠ here ∧ c.replica slot = some idx := by
    rw [Function.update_apply] at of
    split at of
    · cases of
    · rename_i away
      exact ⟨away, of⟩
  have stayed {here slot : Nat} (stays : update c.closing here true slot = false) :
      slot ≠ here ∧ c.closing slot = false := by
    rw [Function.update_apply] at stays
    split at stays
    · cases stays
    · rename_i away
      exact ⟨away, stays⟩
  -- no other slot has the replica
  have others {here slot idx other : Nat} (of : c.replica here = some idx)
      (also : c.replica slot = some other) (away : slot ≠ here) : other ≠ idx := by
    rintro rfl
    exact away (copies.alone slot here other also of)
  cases step with
  | @noted note plain =>
      exact @Course.Copies.apart _ _ [_] copies (fun _ _ of => of) (fun _ _ _ live => live)
        (fun slot _ _ stays => ⟨rfl, stays, only (plain_apart plain slot)⟩) rfl
  | shut other =>
      exact copies.apart (fun _ _ of => of) (fun _ _ _ live => live)
        (fun _ _ _ stays => ⟨rfl, (stayed stays).2, nothing⟩) (List.nil_append _).symm
  | @opened here =>
      refine @Course.Copies.apart _ _ [_] copies (fun _ _ of => (cleared of).2)
        (fun _ _ _ live => live) (fun slot _ of stays => ?_) rfl
      have away := (cleared of).1
      exact ⟨rfl, (Function.update_of_ne away _ _).symm.trans stays, only away.symm⟩
  | @released here =>
      refine @Course.Copies.apart _ _ [_] copies (fun _ _ of => (cleared of).2)
        (fun _ _ _ live => live) (fun slot _ of stays => ?_) rfl
      have away := (cleared of).1
      exact ⟨rfl, (Function.update_of_ne away _ _).symm.trans stays, only away.symm⟩
  | @detached here gone next of =>
      refine @Course.Copies.apart _ _ [_] copies (fun _ _ also => (cleared also).2)
        (fun slot idx also live => ?_) (fun slot idx also stays => ?_) rfl
      · obtain ⟨away, also⟩ := cleared also
        exact (Function.update_of_ne (others of also away) _ _).trans live
      · obtain ⟨away, also⟩ := cleared also
        exact ⟨Function.update_of_ne (others of also away) _ _, stays, only trivial⟩
  | @attached here idx next free =>
      -- nobody has a replica slot that is free
      have unheld {slot other : Nat} (of : c.replica slot = some other) : other ≠ idx := by
        rintro rfl
        have live := copies.held slot other of
        rw [free] at live
        cases live
      have before {slot other : Nat} (of : update c.replica here (some idx) slot = some other) :
          (slot = here ∧ other = idx) ∨ (slot ≠ here ∧ c.replica slot = some other) := by
        rw [Function.update_apply] at of
        split at of
        · rename_i same
          exact .inl ⟨same, (Option.some.inj of).symm⟩
        · rename_i away
          exact .inr ⟨away, of⟩
      refine ⟨?_, ?_, ?_⟩
      · intro slot other of
        rcases before of with ⟨-, rfl⟩ | ⟨-, of⟩
        · exact Function.update_self ..
        · exact (Function.update_of_ne (unheld of) _ _).trans (copies.held slot other of)
      · intro slot slot' other of also
        rcases before of with ⟨rfl, rfl⟩ | ⟨-, had⟩
        · rcases before also with ⟨rfl, -⟩ | ⟨-, also⟩
          · rfl
          · exact absurd rfl (unheld also)
        · rcases before also with ⟨-, rfl⟩ | ⟨-, also⟩
          · exact absurd rfl (unheld had)
          · exact copies.alone slot slot' other had also
      · intro slot other of stays
        rcases before of with ⟨rfl, rfl⟩ | ⟨away, had⟩
        · simp only [Function.update_self]
          exact ⟨next, if_pos rfl, by unfold batchesOn; rw [if_pos rfl]; exact .none⟩
        · simp only
          rw [Function.update_of_ne (unheld had)]
          exact @ReplicaWhole.apart slot _ [_] other (c.next other)
            (copies.whole slot other had stays) (only away.symm)
  | @sought gone next free =>
      refine copies.apart (fun _ _ of => of) (fun _ _ _ live => live)
        (fun slot idx of stays => ⟨?_, stays, nothing⟩) (List.nil_append _).symm
      refine Function.update_of_ne ?_ _ _
      rintro rfl
      have live := copies.held slot idx of
      rw [free] at live
      cases live
  | tuned idle same =>
      exact copies.apart (fun _ _ of => of) (fun _ _ _ live => live)
        (fun _ _ _ stays => ⟨rfl, stays, nothing⟩) (List.nil_append _).symm
  | began durable idle active waiting =>
      refine @Course.Copies.apart _ _ [_] copies (fun _ _ of => of) (fun _ _ _ live => live)
        (fun _ _ _ stays => ⟨rfl, stays, ?_⟩) rfl
      exact only trivial
  | read session durable stays active waiting are ends =>
      exact copies.apart (fun _ _ of => of) (fun _ _ _ live => live)
        (fun _ _ _ stays => ⟨rfl, stays, pushNotes_apart _ _ _ _ _⟩) rfl
  | failed cursor =>
      exact copies.apart (fun _ _ of => of) (fun _ _ _ live => live)
        (fun _ _ _ stays => ⟨rfl, (stayed stays).2, nothing⟩) (List.nil_append _).symm
  | ended cursor durable stays active waiting past =>
      refine @Course.Copies.apart _ _ [_] copies (fun _ _ of => of) (fun _ _ _ live => live)
        (fun _ _ _ stays => ⟨rfl, stays, ?_⟩) rfl
      exact only trivial
  | @batch here idx recs session stays of are some' =>
      refine ⟨copies.held, copies.alone, fun slot other also stays' => ?_⟩
      by_cases same : slot = here
      · subst same
        rw [of] at also
        cases also
        obtain ⟨first, attached, batched⟩ := copies.whole slot idx of stays
        simp only [Function.update_self]
        refine ⟨first, attached, ?_⟩
        unfold batchesOn
        rw [if_pos ⟨rfl, rfl⟩]
        exact batched.more are some'
      · simp only
        rw [Function.update_of_ne (others of also same)]
        exact @ReplicaWhole.apart slot _ [_] other (c.next other)
          (copies.whole slot other also stays') (only fun back => absurd back.symm same)
  | @broken here idx next of =>
      refine copies.apart (fun _ _ of => of) (fun _ _ _ live => live)
        (fun slot other also stays => ?_) (List.nil_append _).symm
      obtain ⟨away, stays⟩ := stayed stays
      exact ⟨Function.update_of_ne (others of also away) _ _, stays, nothing⟩

theorem copies_run (run : Relation.ReflTransGen Course.Step c c') (copies : c.Copies) :
    c'.Copies := by
  induction run with
  | refl => exact copies
  | tail before step ih => exact step.copies ih

theorem started_copies {config : Config} {l : Loop} (started : Started config l) :
    l.course.Copies := by
  obtain ⟨os, listing, capacity, info, w, recs, os', _opened, rfl⟩ := started
  unfold Config.start
  split
  · exact ⟨fun _ _ of => (nomatch of), fun _ _ _ of => (nomatch of), fun _ _ of => (nomatch of)⟩
  · exact ⟨fun _ _ of => (nomatch of), fun _ _ _ of => (nomatch of), fun _ _ of => (nomatch of)⟩

/-- **A replica has been given the log from where it attached up to where it stands, batch
after batch without a gap, at every moment of every run.** -/
theorem batches_whole {config : Config} {l m : Loop} {pass : Pass} {fails : Nat → Prop}
    (running : Running config l) (moment : Moment l pass m fails) {slot idx : Nat}
    (of : (m.conns slot).replica = some idx) (stays : (m.conns slot).closing = false) :
    ∃ first recs, attachedOn slot m.trace = some (idx, first - 1) ∧
      Batched first (batchesOn slot m.trace) (m.peer idx).cursor.nextSeq ∧
      Consecutive first recs ∧ (batchesOn slot m.trace).flatMap Frame.payload = recs.flatten ∧
      (m.peer idx).cursor.nextSeq = first + recs.length := by
  obtain ⟨start, started, course⟩ := running_course running
  have copies : m.course.Copies :=
    copies_run (course.trans (moment_course moment)) (started_copies started)
  obtain ⟨first, attached, batched⟩ := copies.whole slot idx of stays
  obtain ⟨recs, are, payloads, stands⟩ := batched.records
  exact ⟨first, recs, attached, batched, are, payloads, stands⟩

/-- The pass in which a replica asks for a log of one record is over. -/
@[irreducible] def lateStreamed : Loop := lateJoined.after [calmPass [] lateStart]

set_option maxRecDepth 8000 in
theorem lateStreamed_state :
    (lateStreamed.conns 0).replica = some 0 ∧ (lateStreamed.conns 0).closing = false ∧
      (batchesOn 0 lateStreamed.trace).length = 1 := by
  unfold lateStreamed
  decide +kernel

theorem lateStreamed_running : Running leaderAlone lateStreamed := by
  unfold lateStreamed
  exact after_running lateJoined_running _

/-- Its one batch holds the record. -/
theorem batches_whole_one :
    (batchesOn 0 lateStreamed.trace).length = 1 ∧
      ∃ first recs, attachedOn 0 lateStreamed.trace = some (0, first - 1) ∧
        Batched first (batchesOn 0 lateStreamed.trace) (lateStreamed.peer 0).cursor.nextSeq ∧
        Consecutive first recs ∧
        (batchesOn 0 lateStreamed.trace).flatMap Frame.payload = recs.flatten ∧
        (lateStreamed.peer 0).cursor.nextSeq = first + recs.length := by
  obtain ⟨of, stays, count⟩ := lateStreamed_state
  exact ⟨count, @batches_whole leaderAlone lateStreamed lateStreamed (calmPass [] [])
    (fun _ => False) lateStreamed_running .begins 0 0 of stays⟩

end Msgsrvd

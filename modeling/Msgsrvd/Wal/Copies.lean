/-
What a log stores of the records another log wrote.

A record is copied by decoding it and appending it at the sequence it carries.  The
copy's own encoder writes the bytes it was read from.
-/

import Msgsrvd.Wal.Failed
import Msgsrvd.Wal.Indexed

namespace Msgsrvd

open Bytestring

/-! ### Records of an append -/

/-- The bytes an append has stored as its record. -/
def Produced (bytes : Bytes) : Prop :=
  ∃ os w r payload scratchLen out w' os',
    walAppend os w r payload scratchLen = (.ok out, w', os') ∧
      (i32 r.len).toNat ≤ payload.length ∧
      walRecEncode scratchLen { r with seq := walNextSeq w } payload = some (bytes, out)

/-- What a reader of the record finds. -/
structure ReadsAs (bytes : Bytes) (d : WalRec) : Prop where
  decoded : walRecDecode bytes = some d
  size : walRecSize (i32 d.len) = bytes.length
  sized : walRecSize (i32 d.len) ≠ 0
  verified : walRecVerify bytes d = true
  given : (i32 d.len).toNat ≤ (bytes.drop WAL_REC_HEADER_SIZE).length
  again : ∀ back bufLen, bytes.length ≤ bufLen →
    walRecEncode bufLen d ((bytes ++ back).drop WAL_REC_HEADER_SIZE) = some (bytes, d)
  low : d.seq < 2 ^ 64

theorem Produced.reads {bytes : Bytes} (produced : Produced bytes) : ∃ d, ReadsAs bytes d := by
  obtain ⟨os, w, r, payload, scratchLen, out, w', os', _appends, given, encoded⟩ := produced
  have given : (i32 ({ r with seq := walNextSeq w } : WalRec).len).toNat ≤ payload.length := given
  obtain ⟨decoded, size, verified, _seq, cutLen⟩ := walRecEncode_reads given encoded
  obtain ⟨body, shape, whole, _fields⟩ := walRecEncode_shape given encoded
  have sized : walRecSize (i32 out.cut.len) ≠ 0 := by
    rw [cutLen, whole]
    unfold WAL_REC_HEADER_SIZE
    omega
  refine ⟨out.cut, decoded, size, sized, verified, ?_,
    fun back bufLen room => walRecEncode_again given encoded back room,
    Nat.mod_lt _ (by decide)⟩
  rw [List.length_drop, ← size]
  unfold walRecSize at sized ⊢
  split
  · rename_i outside
    rw [if_pos outside] at sized
    exact absurd rfl sized
  · omega

/-! ### Room for them -/

/-- The records of these sizes find a place, each in the active segment or in a new one
that the table still has room for. -/
def placesAll (capacity : Nat) : Nat → Nat → List Nat → Bool
  | _, _, [] => true
  | off, segs, size :: rest =>
      if off + size ≤ capacity then placesAll capacity (off + size) segs rest
      else decide (segs < WAL_MAX_SEGMENTS) && placesAll capacity size (segs + 1) rest

theorem placesAll_cons (capacity off segs size : Nat) (rest : List Nat) :
    placesAll capacity off segs (size :: rest) =
      if off + size ≤ capacity then placesAll capacity (off + size) segs rest
      else decide (segs < WAL_MAX_SEGMENTS) && placesAll capacity size (segs + 1) rest := rfl

def Wal.places (w : Wal) (recs : List Bytes) : Bool :=
  placesAll w.segCapacity w.active.writeOff w.segBase.length (recs.map List.length)

/-- The first of them does not fit and the table is full, or it and the others find a place. -/
theorem Wal.places_cons (w : Wal) (bytes : Bytes) (rest : List Bytes) :
    w.places (bytes :: rest) =
      if w.active.writeOff + bytes.length ≤ w.segCapacity then
        placesAll w.segCapacity (w.active.writeOff + bytes.length) w.segBase.length
          (rest.map List.length)
      else
        decide (w.segBase.length < WAL_MAX_SEGMENTS) &&
          placesAll w.segCapacity bytes.length (w.segBase.length + 1) (rest.map List.length) :=
  placesAll_cons ..

/-! ### One record -/

/-- The log after one more record. -/
structure Stores (os : Os) (w : Wal) (bytes : Bytes) (os' : Os) (w' : Wal) : Prop where
  calm : os'.script = []
  working : OpenLog.Working ⟨os'.disk, w'⟩
  next : walNextSeq w' = walNextSeq w + 1
  capacity : w'.segCapacity = w.segCapacity
  places : ∀ rest, w'.places rest = w.places (bytes :: rest)
  records : ∀ p, p ∈ walRecords os'.disk w' ↔
    p ∈ walRecords os.disk w ∨ p = (walNextSeq w, bytes)

/-- The records of a log with one more at its end. -/
theorem records_pushed {disk disk' : Disk} {w w' : Wal} {front : List SegView} {last : SegView}
    {bytes : Bytes} (holds : Holds disk w front last)
    (holds' : Holds disk' w' front ⟨last.base, last.recs ++ [bytes]⟩) (p : Nat × Bytes) :
    p ∈ walRecords disk' w' ↔ p ∈ walRecords disk w ∨ p = (last.next, bytes) := by
  rw [holds.records, holds'.records]
  constructor
  · intro found
    rcases found.of_push with known | ⟨seq, same⟩
    · exact .inl known
    · exact .inr (Prod.ext seq same)
  · rintro (known | rfl)
    · exact known.push bytes
    · refine ⟨_, List.mem_append_right _ (List.mem_cons_self ..), last.recs.length, rfl, ?_⟩
      exact List.getElem?_concat_length

/-- An empty segment holds no record. -/
theorem Contains.of_roll {views : List SegView} {base seq : Nat} {found : Bytes}
    (known : Contains (views ++ [⟨base, []⟩]) seq found) : Contains views seq found := by
  obtain ⟨v, present, index, at_seq, at_index⟩ := known
  rcases List.mem_append.mp present with early | atEnd
  · exact ⟨v, early, index, at_seq, at_index⟩
  · rw [List.mem_singleton.mp atEnd] at at_index
    cases at_index

theorem records_rolled {disk disk' : Disk} {w w' : Wal} {front : List SegView} {last : SegView}
    {bytes : Bytes} (holds : Holds disk w front last)
    (holds' : Holds disk' w' (front ++ [last]) ⟨last.next, [bytes]⟩) (p : Nat × Bytes) :
    p ∈ walRecords disk' w' ↔ p ∈ walRecords disk w ∨ p = (last.next, bytes) := by
  rw [holds.records, holds'.records]
  constructor
  · intro found
    rcases @Contains.of_push _ ⟨last.next, []⟩ bytes _ _ found with known | ⟨seq, same⟩
    · exact .inl known.of_roll
    · exact .inr (Prod.ext seq same)
  · rintro (known | rfl)
    · exact (known.roll last.next).push bytes
    · exact ⟨_, List.mem_append_right _ (List.mem_cons_self ..), 0, rfl, rfl⟩

theorem Holds.segments {disk : Disk} {w : Wal} {front : List SegView} {last : SegView}
    (holds : Holds disk w front last) : w.segBase.length = front.length + 1 := by
  rw [holds.table, List.length_map, List.length_append]
  rfl

/-- The write of a record that goes through. -/
theorem walAppendActive_stores {os os' : Os} {w w' : Wal} {front : List SegView} {last : SegView}
    {r out out' : WalRec} {payload bytes : Bytes} {scratchLen : Nat} (calm : os.script = [])
    (holds : Holds os.disk w front last) (tidy : w.Tidy) (named : OpenLog.Named ⟨os.disk, w⟩)
    (low : walNextSeq w < 2 ^ 64) (given : (i32 r.len).toNat ≤ payload.length)
    (encoded : walRecEncode scratchLen { r with seq := walNextSeq w } payload =
      some (bytes, out))
    (appends : walAppendActive os w r payload scratchLen = (.ok out', w', os')) :
    out' = out ∧ os'.script = [] ∧ OpenLog.Working ⟨os'.disk, w'⟩ ∧
      Holds os'.disk w' front ⟨last.base, last.recs ++ [bytes]⟩ := by
  have wrote := walAppendActive_wrote appends
  rcases walAppendActive_either holds given low appends with
    ⟨_e, failed, _holds⟩ | ⟨bytes', out'', done, again, holds'⟩
  · cases failed
  · cases done
    rw [show walRecEncode scratchLen { r with seq := w.active.nextSeq } payload = _ from encoded]
      at again
    cases again
    refine ⟨rfl, wrote.calm calm, ⟨⟨_, _, holds'⟩, walAppendActive_tidy tidy appends, ?_, ?_⟩, holds'⟩
    · exact (@named_iff ⟨os.disk, w⟩ ⟨os'.disk, w'⟩ wrote.table wrote.dir).mpr named
    · unfold Wal.able
      rw [wrote.fd, wrote.opened _ rfl, Bool.true_or]

/-- **An append of a log that can go on stores its record** behind the others. -/
theorem walAppend_stores {os : Os} {w : Wal} {r : WalRec} {payload : Bytes} {scratchLen : Nat}
    {rest : List Bytes} {bytes : Bytes} {out : WalRec} (calm : os.script = [])
    (working : OpenLog.Working ⟨os.disk, w⟩) (low : walNextSeq w < 2 ^ 64)
    (given : (i32 r.len).toNat ≤ payload.length) (small : bytes.length ≤ w.segCapacity)
    (encoded : walRecEncode scratchLen { r with seq := walNextSeq w } payload =
      some (bytes, out)) (places : w.places (bytes :: rest) = true) :
    ∃ w' os', walAppend os w r payload scratchLen = (.ok out, w', os') ∧
      Stores os w bytes os' w' := by
  have length : bytes.length = walRecSize (i32 r.len) :=
    @walRecEncode_length scratchLen { r with seq := walNextSeq w } out payload bytes given encoded
  obtain ⟨sized, scratch⟩ : walRecSize (i32 r.len) ≠ 0 ∧ walRecSize (i32 r.len) ≤ scratchLen := by
    unfold walRecEncode at encoded
    simp only at encoded
    split at encoded
    · cases encoded
    · split at encoded
      · cases encoded
      · omega
  obtain ⟨⟨front, last, holds⟩, tidy, named, able⟩ := id working
  have sound : w.Sound := holds.sound
  have capacity := sound.capacity
  have fitting : walSegFits w.active (i32 r.len) = true ↔
      w.active.writeOff + bytes.length ≤ w.segCapacity := by
    unfold walSegFits
    rw [if_neg sized, decide_eq_true_eq, capacity, length]
  rw [Wal.places_cons] at places
  have takes : w.Takes r payload scratchLen := by
    refine ⟨sized, by omega, given, scratch, ?_⟩
    by_cases fits : w.active.writeOff + bytes.length ≤ w.segCapacity
    · exact Or.inl (fitting.mpr fits)
    · rw [if_neg fits, Bool.and_eq_true, decide_eq_true_eq] at places
      exact Or.inr places.1
  obtain ⟨out', w', os', appends, _seq⟩ := walAppend_goes calm working takes
  rcases walAppend_parts os w r payload scratchLen with
    ⟨rolls, _broke, goes⟩ | ⟨_stays, fits, whole⟩ | ⟨stays, e, _other, _whole⟩
  · obtain ⟨os1, past, script, named1⟩ := walRollover_goes calm sound tidy named rolls
    have unfit := (walRollsOver_iff.mp rolls).2.2.1
    have outside : ¬ w.active.writeOff + bytes.length ≤ w.segCapacity := by
      intro fits
      rw [fitting.mpr fits] at unfit
      cases unfit
    rw [if_neg outside, Bool.and_eq_true, decide_eq_true_eq] at places
    rcases walRollover_either holds (nonempty_of_unfit sound rolls) past with
      ⟨_e, failed, _holds⟩ | ⟨_done, holds1⟩
    · cases failed
    have whole := goes _ _ past
    rw [appends] at whole
    obtain ⟨rfl, calm', working', holds'⟩ := walAppendActive_stores script holds1
      (fun never => by cases never) named1 low given encoded whole.symm
    have wrote := walAppendActive_wrote whole.symm
    refine ⟨w', os', appends, calm', working', ?_, wrote.capacity, fun more => ?_, ?_⟩
    · change w'.active.nextSeq = w.active.nextSeq + 1
      rw [holds'.nextSeq, holds.nextSeq]
      rfl
    · have off : w'.active.writeOff = bytes.length := by
        rw [holds'.writeOff, SegView.size, List.nil_append, List.flatten_singleton]
      have segs : w'.segBase.length = w.segBase.length + 1 := by
        rw [wrote.table]
        exact List.length_append
      rw [Wal.places_cons, if_neg outside, decide_eq_true places.1, Bool.true_and]
      unfold Wal.places
      rw [wrote.capacity, off, segs]
      rfl
    · intro p
      rw [records_rolled holds holds' p, ← holds.nextSeq]
      rfl
  · rw [appends] at whole
    obtain ⟨rfl, calm', working', holds'⟩ := walAppendActive_stores calm holds tidy named low given
      encoded whole.symm
    have wrote := walAppendActive_wrote whole.symm
    refine ⟨w', os', appends, calm', working', ?_, wrote.capacity, fun more => ?_, ?_⟩
    · change w'.active.nextSeq = w.active.nextSeq + 1
      rw [holds'.nextSeq, holds.nextSeq, SegView.next_append]
      rfl
    · have off : w'.active.writeOff = w.active.writeOff + bytes.length := by
        rw [holds'.writeOff, holds.writeOff, SegView.size_append, List.flatten_singleton]
      rw [Wal.places_cons, if_pos (fitting.mp fits)]
      unfold Wal.places
      rw [wrote.capacity, off, wrote.table]
    · intro p
      rw [records_pushed holds holds' p, ← holds.nextSeq]
      rfl
  · exact absurd ⟨takes.sized, takes.small, takes.place⟩ stays

/-! ### A copy -/

/-- **A record that an append has stored is stored by an append at its sequence with the
same bytes**, checksum and padding among them. -/
theorem walAppendAt_copies {os : Os} {w : Wal} {bytes back : Bytes} {d : WalRec}
    {scratchLen : Nat} {rest : List Bytes} (reads : ReadsAs bytes d) (calm : os.script = [])
    (working : OpenLog.Working ⟨os.disk, w⟩) (seq : d.seq = walNextSeq w)
    (small : bytes.length ≤ w.segCapacity) (scratch : WAL_REC_MAX_SIZE ≤ scratchLen)
    (places : w.places (bytes :: rest) = true) :
    ∃ w' os', walAppendAt os w d ((bytes ++ back).drop WAL_REC_HEADER_SIZE) scratchLen =
        (.ok d, w', os') ∧ Stores os w bytes os' w' := by
  have short : bytes.length ≤ scratchLen := by
    rw [← reads.size]
    exact Nat.le_trans (walRecSize_le _) scratch
  have given : (i32 d.len).toNat ≤ ((bytes ++ back).drop WAL_REC_HEADER_SIZE).length := by
    have front := reads.given
    rw [List.length_drop] at front ⊢
    rw [List.length_append]
    omega
  have encoded : walRecEncode scratchLen { d with seq := walNextSeq w }
      ((bytes ++ back).drop WAL_REC_HEADER_SIZE) = some (bytes, d) := by
    rw [← seq]
    exact reads.again back scratchLen short
  obtain ⟨w', os', appends, stores⟩ := walAppend_stores calm working (seq ▸ reads.low) given small
    encoded places
  refine ⟨w', os', ?_, stores⟩
  unfold walAppendAt
  rw [if_neg (not_not.mpr seq), appends]
  simp only
  rw [if_neg (not_not.mpr rfl)]

/-! ### No room -/

theorem placesAll_left {capacity : Nat} {sizes more : List Nat} {off segs : Nat}
    (places : placesAll capacity off segs (sizes ++ more) = true) :
    placesAll capacity off segs sizes = true := by
  induction sizes generalizing off segs with
  | nil => rfl
  | cons size rest ih =>
      rw [List.cons_append, placesAll_cons] at places
      rw [placesAll_cons]
      split
      · rename_i fits
        rw [if_pos fits] at places
        exact ih places
      · rename_i unfit
        rw [if_neg unfit, Bool.and_eq_true] at places
        rw [Bool.and_eq_true]
        exact ⟨places.1, ih places.2⟩

theorem Wal.places_left {w : Wal} {recs more : List Bytes} (places : w.places (recs ++ more) = true) :
    w.places recs = true := by
  unfold Wal.places at places ⊢
  rw [List.map_append] at places
  exact placesAll_left places

/-- Only the lengths of the records matter. -/
theorem Wal.places_congr (w : Wal) {recs recs' : List Bytes}
    (same : recs.map List.length = recs'.map List.length) : w.places recs = w.places recs' := by
  unfold Wal.places
  rw [same]

/-- A record that finds no place is refused. -/
theorem walAppendAt_full {w : Wal} {r : WalRec} (capacity : w.active.capacity = w.segCapacity)
    (full : placesAll w.segCapacity w.active.writeOff w.segBase.length [walRecSize (i32 r.len)] =
      false) (os : Os) (payload : Bytes) (scratchLen : Nat) :
    ∃ e, walAppendAt os w r payload scratchLen = (.error e, w, os) := by
  simp only [placesAll, Bool.and_true] at full
  split at full
  · cases full
  · rename_i unfit
    rw [decide_eq_false_iff_not] at full
    unfold walAppendAt
    split
    · exact ⟨_, rfl⟩
    · rcases walAppend_parts os w r payload scratchLen with
        ⟨rolls, _⟩ | ⟨_stays, fits, _⟩ | ⟨_stays, e, _other, whole⟩
      · exact absurd (walRollsOver_iff.mp rolls).2.2.2 full
      · unfold walSegFits at fits
        simp only at fits
        split at fits
        · cases fits
        · rw [decide_eq_true_eq, capacity] at fits
          exact absurd fits unfit
      · rw [whole]
        exact ⟨e, rfl⟩

end Msgsrvd

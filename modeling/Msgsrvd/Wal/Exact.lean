/-
What the key index knows of everything it was fed, through the point where it is full.

A key that found no room never finds room later, so the records counted as unknown are
those of the keys that are not in the table.  The sequences are distinct words above 0, so
none of the counts reaches the end of its own word.
-/

import Mathlib.Data.List.Induction
import Mathlib.Data.List.Nodup
import Mathlib.Order.Bounds.Basic
import Msgsrvd.Wal.Index

namespace Msgsrvd

/-! ### What was fed -/

def walIndexFed (fed : List WalRec) : WalIndex := fed.foldl walIndexAdd walIndexInit

/-- The sequences that were fed with this key. -/
def seqsOf (fed : List WalRec) (key : Nat) : Set Nat :=
  {seq | ∃ r ∈ fed, r.partitionKey = key ∧ r.seq = seq}

def countOf (fed : List WalRec) (key : Nat) : Nat := fed.countP fun r => r.partitionKey = key

/-- The keys in the table. -/
def WalIndex.known (ix : WalIndex) : List Nat := ix.keys.map WalIndexKey.key

/-- The table against what was fed. -/
structure WalIndex.Counts (ix : WalIndex) (fed : List WalRec) : Prop where
  once : ix.known.Nodup
  entry : ∀ k ∈ ix.keys, IsLeast (seqsOf fed k.key) k.first ∧
    IsGreatest (seqsOf fed k.key) k.last ∧ k.count = countOf fed k.key
  unknown : ix.unknown = fed.countP fun r => r.partitionKey ∉ ix.known

/-- What its readers are told. -/
structure WalIndex.Answers (ix : WalIndex) (fed : List WalRec) : Prop extends ix.Counts fed where
  complete : ix.unknown = 0 ↔ ∀ r ∈ fed, r.partitionKey ∈ ix.known
  absent : ∀ key fromSeq, walIndexRange ix key fromSeq = none → walIndexComplete ix = true →
    ∀ r ∈ fed, r.partitionKey ≠ key
  skips : ∀ key fromSeq outFrom outLast,
    walIndexRange ix key fromSeq = some (outFrom, outLast) → ∀ r ∈ fed, r.partitionKey = key →
      ¬ (fromSeq ≤ r.seq ∧ r.seq < outFrom) ∧ ¬ outLast < r.seq

/-- A record is unknown only where there is no room left. -/
structure WalIndex.Fed (ix : WalIndex) (fed : List WalRec) : Prop extends ix.Counts fed where
  full : ix.unknown ≠ 0 → WAL_INDEX_KEYS ≤ ix.keys.length

/-! ### One record -/

theorem find_key_some {keys : List WalIndexKey} {key : Nat} {k : WalIndexKey}
    (found : keys.find? (fun k => k.key = key) = some k) : k ∈ keys ∧ k.key = key := by
  have same := List.find?_some found
  rw [decide_eq_true_eq] at same
  exact ⟨List.mem_of_find?_eq_some found, same⟩

theorem find_key_none {ix : WalIndex} {key : Nat} :
    ix.keys.find? (fun k => k.key = key) = none ↔ key ∉ ix.known := by
  unfold WalIndex.known
  rw [List.find?_eq_none, List.mem_map]
  constructor
  · rintro none' ⟨k, present, same⟩
    exact none' k present (decide_eq_true same)
  · intro absent k present same
    exact absent ⟨k, present, of_decide_eq_true same⟩

theorem walIndexBump_known (key seq : Nat) (keys : List WalIndexKey) :
    (walIndexBump key seq keys).map WalIndexKey.key = keys.map WalIndexKey.key := by
  induction keys with
  | nil => rfl
  | cons k rest ih =>
      unfold walIndexBump
      split
      · rfl
      · rw [List.map_cons, List.map_cons, ih]

/-- In a table that holds each key once a bump changes the key's entry and no other. -/
theorem mem_walIndexBump {key seq : Nat} {keys : List WalIndexKey}
    (once : (keys.map WalIndexKey.key).Nodup) {k : WalIndexKey}
    (present : k ∈ walIndexBump key seq keys) :
    (k ∈ keys ∧ k.key ≠ key) ∨
      ∃ old ∈ keys, old.key = key ∧ k = { old with last := seq, count := old.count + 1 } := by
  induction keys with
  | nil => cases present
  | cons head rest ih =>
      rw [List.map_cons, List.nodup_cons] at once
      unfold walIndexBump at present
      by_cases same : head.key = key
      · rw [if_pos same] at present
        rcases List.mem_cons.mp present with here | behind
        · exact Or.inr ⟨head, List.mem_cons_self, same, here⟩
        · refine Or.inl ⟨List.mem_cons_of_mem _ behind, fun again => once.1 ?_⟩
          rw [same, ← again]
          exact List.mem_map_of_mem behind
      · rw [if_neg same] at present
        rcases List.mem_cons.mp present with here | behind
        · rw [here]
          exact Or.inl ⟨List.mem_cons_self, same⟩
        · rcases ih once.2 behind with ⟨older, other⟩ | ⟨old, older, changed⟩
          · exact Or.inl ⟨List.mem_cons_of_mem _ older, other⟩
          · exact Or.inr ⟨old, List.mem_cons_of_mem _ older, changed⟩

variable {fed : List WalRec} {r : WalRec}

theorem seqsOf_same {key : Nat} (same : r.partitionKey = key) :
    seqsOf (fed ++ [r]) key = insert r.seq (seqsOf fed key) := by
  ext seq
  simp only [seqsOf, List.mem_append, List.mem_singleton, Set.mem_ofPred_eq, Set.mem_insert_iff]
  constructor
  · rintro ⟨r', older | new, is, at_seq⟩
    · exact Or.inr ⟨r', older, is, at_seq⟩
    · exact Or.inl (by rw [← at_seq, new])
  · rintro (new | ⟨r', older, is, at_seq⟩)
    · exact ⟨r, Or.inr rfl, same, new.symm⟩
    · exact ⟨r', Or.inl older, is, at_seq⟩

theorem seqsOf_other {key : Nat} (other : r.partitionKey ≠ key) :
    seqsOf (fed ++ [r]) key = seqsOf fed key := by
  ext seq
  simp only [seqsOf, List.mem_append, List.mem_singleton, Set.mem_ofPred_eq]
  constructor
  · rintro ⟨r', older | new, is, at_seq⟩
    · exact ⟨r', older, is, at_seq⟩
    · rw [new] at is
      exact absurd is other
  · rintro ⟨r', older, is, at_seq⟩
    exact ⟨r', Or.inl older, is, at_seq⟩

theorem countOf_append (key : Nat) :
    countOf (fed ++ [r]) key = countOf fed key + if r.partitionKey = key then 1 else 0 := by
  unfold countOf
  rw [List.countP_append, List.countP_singleton]
  simp only [decide_eq_true_eq]

theorem unknown_append (known : List Nat) :
    (fed ++ [r]).countP (fun r => r.partitionKey ∉ known) =
      fed.countP (fun r => r.partitionKey ∉ known) + if r.partitionKey ∈ known then 0 else 1 := by
  rw [List.countP_append, List.countP_singleton]
  by_cases present : r.partitionKey ∈ known
  · rw [if_pos present, if_neg (by simpa using present)]
  · rw [if_neg present, if_pos (by simpa using present)]

variable {ix : WalIndex}

theorem WalIndex.Counts.complete_iff (counts : ix.Counts fed) :
    ix.unknown = 0 ↔ ∀ r ∈ fed, r.partitionKey ∈ ix.known := by
  rw [counts.unknown, List.countP_eq_zero]
  simp only [decide_not, Bool.not_eq_eq_eq_not, Bool.not_true, decide_eq_false_iff_not, not_not]

/-- A later record of a known key. -/
theorem WalIndex.Fed.bump (holds : ix.Fed fed) (later : ∀ older ∈ fed, older.seq < r.seq)
    {k : WalIndexKey} (found : ix.keys.find? (fun k => k.key = r.partitionKey) = some k) :
    ({ ix with keys := walIndexBump r.partitionKey r.seq ix.keys } : WalIndex).Fed
      (fed ++ [r]) := by
  have known : ({ ix with keys := walIndexBump r.partitionKey r.seq ix.keys } : WalIndex).known =
      ix.known := walIndexBump_known _ _ _
  obtain ⟨present, same⟩ := find_key_some found
  have listed : r.partitionKey ∈ ix.known := List.mem_map.mpr ⟨k, present, same⟩
  refine ⟨⟨?_, ?_, ?_⟩, ?_⟩
  · rw [known]
    exact holds.once
  · intro entry changed
    rcases mem_walIndexBump holds.once changed with ⟨older, other⟩ | ⟨old, older, is, new⟩
    · rw [seqsOf_other (Ne.symm other), countOf_append, if_neg (Ne.symm other)]
      exact holds.entry entry older
    · obtain ⟨least, greatest, count⟩ := holds.entry old older
      obtain ⟨first, inFed, -, at_first⟩ := least.1
      obtain ⟨last, inFed', -, at_last⟩ := greatest.1
      have low := later first inFed
      have high := later last inFed'
      have smallest := least.insert r.seq
      have largest := greatest.insert r.seq
      rw [Nat.min_eq_right (by omega)] at smallest
      rw [Nat.max_eq_left (by omega)] at largest
      rw [new]
      simp only
      rw [seqsOf_same is.symm, countOf_append, if_pos is.symm, ← count]
      exact ⟨smallest, largest, rfl⟩
  · rw [known, unknown_append, if_pos listed]
    exact holds.unknown
  · intro some'
    simp only
    rw [← List.length_map WalIndexKey.key, walIndexBump_known, List.length_map]
    exact holds.full some'

/-- A record of a new key, where there is no room. -/
theorem WalIndex.Fed.drop (holds : ix.Fed fed) (absent : r.partitionKey ∉ ix.known)
    (full : WAL_INDEX_KEYS ≤ ix.keys.length) :
    ({ ix with unknown := ix.unknown + 1 } : WalIndex).Fed (fed ++ [r]) := by
  refine ⟨⟨holds.once, ?_, ?_⟩, fun _ => full⟩
  · intro k present
    have other : r.partitionKey ≠ k.key := by
      intro same
      rw [same] at absent
      exact absent (List.mem_map_of_mem present)
    rw [seqsOf_other other, countOf_append, if_neg other]
    exact holds.entry k present
  · rw [unknown_append]
    unfold WalIndex.known at absent ⊢
    simp only
    rw [if_neg absent, holds.unknown]
    rfl

/-- A record of a new key, where there is room: none was dropped before it. -/
theorem WalIndex.Fed.grow (holds : ix.Fed fed) (absent : r.partitionKey ∉ ix.known)
    (room : ¬ WAL_INDEX_KEYS ≤ ix.keys.length) :
    ({ ix with keys := ix.keys ++ [⟨r.partitionKey, r.seq, r.seq, 1⟩] } : WalIndex).Fed
      (fed ++ [r]) := by
  have none' : ix.unknown = 0 := by
    by_contra some'
    exact room (holds.full some')
  have complete := holds.complete_iff.mp none'
  have new : seqsOf fed r.partitionKey = ∅ := by
    rw [Set.eq_empty_iff_forall_notMem]
    rintro seq ⟨older, inFed, same, -⟩
    rw [← same] at absent
    exact absent (complete older inFed)
  have zero : countOf fed r.partitionKey = 0 := by
    unfold countOf
    rw [List.countP_eq_zero]
    intro older inFed same
    rw [decide_eq_true_eq] at same
    rw [← same] at absent
    exact absent (complete older inFed)
  have known : ({ ix with keys := ix.keys ++ [⟨r.partitionKey, r.seq, r.seq, 1⟩] } :
      WalIndex).known = ix.known ++ [r.partitionKey] := by
    unfold WalIndex.known
    rw [List.map_append]
    rfl
  refine ⟨⟨?_, ?_, ?_⟩, ?_⟩
  · rw [known, List.nodup_append]
    refine ⟨holds.once, List.nodup_singleton _, fun key older key' is => ?_⟩
    rw [List.mem_singleton.mp is]
    intro same
    rw [same] at older
    exact absent older
  · intro k present
    rcases List.mem_append.mp present with older | is
    · have other : r.partitionKey ≠ k.key := by
        intro same
        rw [same] at absent
        exact absent (List.mem_map_of_mem older)
      rw [seqsOf_other other, countOf_append, if_neg other]
      exact holds.entry k older
    · rw [List.mem_singleton.mp is]
      simp only
      rw [seqsOf_same rfl, countOf_append, if_pos rfl, new, zero, insert_empty_eq]
      exact ⟨isLeast_singleton, isGreatest_singleton, rfl⟩
  · rw [known]
    simp only
    rw [none', eq_comm, List.countP_eq_zero]
    intro r' fed' unlisted
    rw [decide_eq_true_eq] at unlisted
    apply unlisted
    rcases List.mem_append.mp fed' with older | is
    · exact List.mem_append_left _ (complete r' older)
    · rw [List.mem_singleton.mp is]
      exact List.mem_append_right _ (List.mem_singleton.mpr rfl)
  · intro some'
    exact absurd none' some'

theorem WalIndex.Fed.add (holds : ix.Fed fed) (some' : r.seq ≠ 0)
    (later : ∀ older ∈ fed, older.seq < r.seq) : (walIndexAdd ix r).Fed (fed ++ [r]) := by
  unfold walIndexAdd
  rw [if_neg some']
  cases found : ix.keys.find? (fun k => k.key = r.partitionKey) with
  | some k => exact holds.bump later found
  | none =>
      have absent := find_key_none.mp found
      simp only
      by_cases full : WAL_INDEX_KEYS ≤ ix.keys.length
      · rw [if_pos full]
        exact holds.drop absent full
      · rw [if_neg full]
        exact holds.grow absent full

/-! ### Any feed -/

/-- A record with sequence 0 is no record of a log, and it is not taken. -/
def taken (fed : List WalRec) : List WalRec := fed.filter fun r => r.seq ≠ 0

theorem walIndexFed_fed (rising : fed.Pairwise fun r r' => r.seq < r'.seq) :
    (walIndexFed fed).Fed (taken fed) := by
  induction fed using List.reverseRecOn with
  | nil =>
      refine ⟨⟨List.nodup_nil, ?_, rfl⟩, fun some' => absurd rfl some'⟩
      intro k none'
      cases none'
  | append_singleton fed r ih =>
      rw [List.pairwise_append] at rising
      obtain ⟨before, -, later⟩ := rising
      have holds := ih before
      unfold walIndexFed at holds ⊢
      unfold taken at holds ⊢
      rw [List.foldl_append, List.foldl_cons, List.foldl_nil, List.filter_append]
      by_cases zero : r.seq = 0
      · rw [walIndexAdd, if_pos zero, List.filter_cons_of_neg (by simpa using zero),
          List.filter_nil, List.append_nil]
        exact holds
      · rw [List.filter_cons_of_pos (by simpa using zero), List.filter_nil]
        refine holds.add zero fun older inFed => later older (List.mem_filter.mp inFed).1 r ?_
        exact List.mem_singleton.mpr rfl

theorem WalIndex.Counts.answers (counts : ix.Counts fed) : ix.Answers fed := by
  refine ⟨counts, counts.complete_iff, ?_, ?_⟩
  · intro key fromSeq unfound complete r present same
    have zero : ix.unknown = 0 := eq_of_beq complete
    unfold walIndexRange at unfound
    cases found : ix.keys.find? (fun k => k.key = key) with
    | some k =>
        rw [found] at unfound
        cases unfound
    | none =>
        have listed := counts.complete_iff.mp zero r present
        rw [same] at listed
        exact find_key_none.mp found listed
  · intro key fromSeq outFrom outLast range r present same
    unfold walIndexRange at range
    cases found : ix.keys.find? (fun k => k.key = key) with
    | none =>
        rw [found] at range
        cases range
    | some k =>
        obtain ⟨inTable, is⟩ := find_key_some found
        obtain ⟨least, greatest, -⟩ := counts.entry k inTable
        have fed' : r.seq ∈ seqsOf fed k.key := ⟨r, present, same.trans is.symm, rfl⟩
        have low := least.2 fed'
        have high := greatest.2 fed'
        rw [found] at range
        simp only [Option.some.injEq, Prod.mk.injEq] at range
        obtain ⟨at_from, at_last⟩ := range
        rw [← at_last]
        split at at_from <;> omega

/--
**The key index is exact about the records it takes, however many keys it was fed.**

A table that never filled knows every key, and one that did says so: its ranges leave out no
record, and a key is called absent only where no record of it was fed.
-/
theorem walIndex_exact (rising : fed.Pairwise fun r r' => r.seq < r'.seq) :
    (walIndexFed fed).Answers (taken fed) :=
  (walIndexFed_fed rising).toCounts.answers

/-- A record of this key at this sequence. -/
def keyRec (key seq : Nat) : WalRec := ⟨0, 0, 0, seq, 0, 0, 0, 0, 0, key⟩

/-- Two keys, one of them again, after a record that is not taken. -/
theorem walIndex_exact_interleaved :
    (walIndexFed [keyRec 7 0, keyRec 10 1, keyRec 20 2, keyRec 10 3]).Answers
      (taken [keyRec 7 0, keyRec 10 1, keyRec 20 2, keyRec 10 3]) :=
  walIndex_exact (by decide)

/-- A key that is fed at sequence 0 alone is called absent. -/
theorem walIndex_zero :
    ¬ ∀ fed : List WalRec, fed.Pairwise (fun r r' => r.seq < r'.seq) →
      (walIndexFed fed).Answers fed := by
  intro exact'
  have answers := exact' [keyRec 7 0] (List.pairwise_singleton _ _)
  exact answers.absent 7 1 (by decide) (by decide) (keyRec 7 0) List.mem_cons_self rfl

end Msgsrvd

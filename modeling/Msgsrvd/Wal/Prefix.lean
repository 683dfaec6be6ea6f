/-
What recovery of one segment accepts: the longest run of records from its start, and of
a file that was cut short the records that are whole in it.
-/

import Msgsrvd.Wal.Runs

namespace Msgsrvd

open Bytestring

/-! ### The longest run of records -/

/-- Records back to back from the start of the content, numbered from the base and
inside the capacity. -/
def IsFront (capacity base : Nat) (content : Bytes) (recs : List Bytes) : Prop :=
  IsRecs base recs ∧ recs.flatten <+: content ∧ recs.flatten.length ≤ capacity

/-- Every such run is the beginning of this one. -/
def IsLongest (capacity base : Nat) (content : Bytes) (recs : List Bytes) : Prop :=
  IsFront capacity base content recs ∧
    ∀ others, IsFront capacity base content others → others <+: recs

/-- A whole header follows within the capacity, and its sequence is not 0. -/
def tornAfter (capacity : Nat) (content : Bytes) (off : Nat) : Bool :=
  match walRecDecode ((content.take capacity).drop off) with
  | none => false
  | some r => !walRecIsEnd r

theorem Scans.longest {capacity base : Nat} {content : Bytes} {recs : List Bytes}
    {reason : ScanEnd} (scan : Scans capacity base (content.take capacity) recs reason) :
    IsLongest capacity base content recs := by
  obtain ⟨front, fits⟩ := scan.front
  refine ⟨⟨scan.isRecs, ?_, fits⟩, ?_⟩
  · refine List.IsPrefix.trans ?_ (List.take_prefix capacity content)
    exact ⟨_, front⟩
  · rintro others ⟨are, ⟨rest, whole⟩, fits'⟩
    have cut : content.take capacity =
        others.flatten ++ rest.take (capacity - others.flatten.length) := by
      rw [← whole, List.take_append, List.take_of_length_le fits']
    obtain ⟨later, reason', scan'⟩ := Scans.exists (capacity - others.flatten.length)
      (base + others.length) (rest.take (capacity - others.flatten.length))
    have joined := Scans.prepend are fits' scan'
    rw [← cut] at joined
    exact ⟨later, (scan.unique joined).1.symm⟩

/-- A scan of a file that is as long as the segment never runs off its end. -/
theorem Scans.reason {capacity base : Nat} {content : Bytes} {recs : List Bytes}
    {reason : ScanEnd} (scan : Scans capacity base (content.take capacity) recs reason)
    (long : capacity ≤ content.length) :
    reason = if tornAfter capacity content recs.flatten.length then .torn else .clean := by
  have ends := scan.ends
  have left : ((content.take capacity).drop recs.flatten.length).length =
      capacity - recs.flatten.length := by
    rw [List.length_drop, List.length_take, Nat.min_eq_left long]
  unfold tornAfter
  unfold scanHead at ends
  cases decoded : walRecDecode ((content.take capacity).drop recs.flatten.length) with
  | none =>
      rw [decoded] at ends
      cases ends
      rfl
  | some r =>
      simp only [decoded] at ends
      by_cases isEnd : walRecIsEnd r = true
      · rw [if_pos isEnd] at ends
        cases ends
        simp only [isEnd, Bool.not_true, Bool.false_eq_true, if_false]
      · rw [if_neg isEnd, left] at ends
        rw [Bool.not_eq_true] at isEnd
        simp only [isEnd, Bool.not_false, if_true]
        split at ends
        · cases ends
          rfl
        · rename_i inside
          rw [if_neg (by omega)] at ends
          split at ends
          · cases ends
            rfl
          · cases ends

/-- **Recovery accepts exactly the longest run of records, whatever the scratch buffer, and
reports a torn tail exactly where more than an end follows.** -/
theorem walSegRecover_longest (s : WalSeg) {fd : Nat} (opened : s.fd = some fd)
    (content : Bytes) (long : s.capacity ≤ content.length) :
    ∃ recs, IsLongest s.capacity s.baseSeq content recs ∧
      ∀ os scratchLen, os.script = [] → (os.disk.file fd).vol = content →
        WAL_REC_MAX_SIZE ≤ scratchLen → ∃ os', Reads os os' ∧
          walSegRecover os s scratchLen = (.ok (recovered s recs
            (tornAfter s.capacity content recs.flatten.length)), os') := by
  obtain ⟨recs, reason, scan⟩ := Scans.exists s.capacity s.baseSeq (content.take s.capacity)
  refine ⟨recs, scan.longest, ?_⟩
  intro os scratchLen calm file scratch
  have why := scan.reason long
  rw [← file] at scan
  cases torn : tornAfter s.capacity content recs.flatten.length with
  | true =>
      rw [torn, if_pos rfl] at why
      subst why
      exact walSegRecover_scans scratch opened calm scan
  | false =>
      rw [torn, if_neg Bool.false_ne_true] at why
      subst why
      exact walSegRecover_scans scratch opened calm scan

/-! ### Files cut short -/

/-- The records that end at or before the cut. -/
def wholeIn : Nat → List Bytes → List Bytes
  | _, [] => []
  | cut, bytes :: rest =>
      if bytes.length ≤ cut then bytes :: wholeIn (cut - bytes.length) rest else []

/-- The records that are whole in it, then less than one record, or what follows the last. -/
theorem wholeIn_shape {base : Nat} {recs : List Bytes} (are : IsRecs base recs) (tail : Bytes)
    (cut : Nat) :
    (wholeIn cut recs = recs ∧ (recs.flatten ++ tail).take cut =
        recs.flatten ++ tail.take (cut - recs.flatten.length)) ∨
      ∃ bytes later, recs = wholeIn cut recs ++ bytes :: later ∧
        cut < (wholeIn cut recs).flatten.length + bytes.length ∧
        (wholeIn cut recs).flatten.length ≤ cut ∧
        (recs.flatten ++ tail).take cut = (wholeIn cut recs).flatten ++
          bytes.take (cut - (wholeIn cut recs).flatten.length) := by
  induction recs generalizing base cut with
  | nil => exact Or.inl ⟨rfl, rfl⟩
  | cons head rest ih =>
      unfold wholeIn
      by_cases inside : head.length ≤ cut
      · rw [if_pos inside]
        have split' : ((head :: rest).flatten ++ tail).take cut =
            head ++ (rest.flatten ++ tail).take (cut - head.length) := by
          rw [List.flatten_cons, List.append_assoc, List.take_append, List.take_of_length_le inside]
        rw [split', List.flatten_cons, List.length_append]
        rcases ih are.2 (cut - head.length) with ⟨all, taken⟩ | ⟨bytes, later, shape, beyond, below, taken⟩
        · left
          rw [all, taken, List.append_assoc, Nat.sub_sub]
          exact ⟨rfl, rfl⟩
        · right
          refine ⟨bytes, later, ?_, ?_, ?_, ?_⟩
          · rw [List.cons_append, ← shape]
          · rw [List.flatten_cons, List.length_append]
            omega
          · rw [List.flatten_cons, List.length_append]
            omega
          · rw [taken, List.flatten_cons, List.length_append, List.append_assoc, Nat.sub_sub]
      · rw [if_neg inside]
        right
        refine ⟨head, rest, rfl, ?_, Nat.zero_le _, ?_⟩
        · rw [List.flatten_nil, List.length_nil]
          omega
        · rw [List.flatten_cons, List.append_assoc, List.take_append, List.flatten_nil,
            List.length_nil, List.nil_append, Nat.sub_zero,
            show cut - head.length = 0 by omega, List.take_zero, List.append_nil]

/-- A header in front of a record is whole in it, and its length runs past the cut. -/
theorem scanHead_cut {room expected seq count : Nat} {bytes : Bytes} (is : IsRec seq bytes)
    (fits : bytes.length ≤ room) (header : WAL_REC_HEADER_SIZE ≤ count)
    (short : count < bytes.length) :
    scanHead room expected (bytes.take count) = .stop (.cut bytes.length) := by
  obtain ⟨r, decoded, seq', low, sized, _verified⟩ := is
  have notEnd : walRecIsEnd r = false := by
    simp only [walRecIsEnd, seq', beq_eq_false_iff_ne, ne_eq]
    exact low
  have left : (bytes.take count).length < bytes.length := by
    rw [List.length_take]
    omega
  unfold scanHead
  rw [walRecDecode_take _ _ header, decoded]
  simp only [notEnd, sized, Bool.false_eq_true, if_false]
  rw [if_neg (by omega), if_pos left]

/-- **A file that was cut short is recovered, with the records that are whole in it, if and
only if less than a header is left of the record that was cut.** -/
theorem walSegRecover_cut {s : WalSeg} {fd : Nat} (opened : s.fd = some fd) {recs : List Bytes}
    (are : IsRecs s.baseSeq recs) (fits : recs.flatten.length ≤ s.capacity) (count : Nat)
    {cut : Nat} (short : cut < s.capacity) {os : Os} (calm : os.script = [])
    (file : (os.disk.file fd).vol = (recs.flatten ++ zeros count).take cut) {scratchLen : Nat}
    (scratch : WAL_REC_MAX_SIZE ≤ scratchLen) :
    (∃ torn os', walSegRecover os s scratchLen = (.ok (recovered s (wholeIn cut recs) torn), os')) ↔
      wholeIn cut recs = recs ∨
        cut < (wholeIn cut recs).flatten.length + WAL_REC_HEADER_SIZE := by
  have whole : (os.disk.file fd).vol.take s.capacity = (recs.flatten ++ zeros count).take cut := by
    rw [file, List.take_take, Nat.min_eq_right (Nat.le_of_lt short)]
  have scans {rest : Bytes} {reason : ScanEnd}
      (shape : (recs.flatten ++ zeros count).take cut = (wholeIn cut recs).flatten ++ rest)
      (front : IsRecs s.baseSeq (wholeIn cut recs))
      (room : (wholeIn cut recs).flatten.length ≤ s.capacity)
      (head : scanHead (s.capacity - (wholeIn cut recs).flatten.length)
        (s.baseSeq + (wholeIn cut recs).length) rest = .stop reason) :
      Scans s.capacity s.baseSeq ((os.disk.file fd).vol.take s.capacity) (wholeIn cut recs)
        reason := by
    have scan := Scans.prepend front room (.stop head)
    rw [← shape, ← whole, List.append_nil] at scan
    exact scan
  rcases wholeIn_shape are (zeros count) cut with ⟨all, taken⟩ |
    ⟨bytes, later, parts, beyond, below, taken⟩
  · refine ⟨fun _ => Or.inl all, fun _ => ?_⟩
    have blank : ∀ byte ∈ (zeros count).take (cut - recs.flatten.length), byte = 0 :=
      fun byte present => List.eq_of_mem_replicate (List.mem_of_mem_take present)
    have scan := scans (by rw [all]; exact taken) (by rw [all]; exact are)
      (by rw [all]; exact fits) (scanHead_blank blank)
    obtain ⟨os', _reads, result⟩ := walSegRecover_scans scratch opened calm scan
    exact ⟨false, os', result⟩
  · have joined : IsRecs s.baseSeq (wholeIn cut recs ++ bytes :: later) := by
      rw [← parts]
      exact are
    have front : IsRecs s.baseSeq (wholeIn cut recs) := joined.left
    have is : IsRec (s.baseSeq + (wholeIn cut recs).length) bytes := joined.right.1
    have total : recs.flatten.length = (wholeIn cut recs).flatten.length + bytes.length +
        later.flatten.length := by
      rw [congrArg (fun recs => recs.flatten.length) parts, List.flatten_append, List.length_append,
        List.flatten_cons, List.length_append, Nat.add_assoc]
    have cutShort : wholeIn cut recs ≠ recs := by
      intro all
      have counted := congrArg List.length parts
      rw [all, List.length_append, List.length_cons] at counted
      omega
    by_cases header : cut < (wholeIn cut recs).flatten.length + WAL_REC_HEADER_SIZE
    · refine ⟨fun _ => Or.inr header, fun _ => ?_⟩
      have scan := scans taken front (by omega) (scanHead_short (by
        rw [List.length_take]
        omega))
      obtain ⟨os', _reads, result⟩ := walSegRecover_scans scratch opened calm scan
      exact ⟨false, os', result⟩
    · refine ⟨?_, fun fine => ?_⟩
      · rintro ⟨torn, os', result⟩
        have scan := scans taken front (by omega)
          (scanHead_cut is (by omega) (by omega) (by omega))
        obtain ⟨os'', _reads, fails⟩ := walSegRecover_scans scratch opened calm scan
        rw [fails] at result
        cases result
      · rcases fine with all | short'
        · exact absurd all cutShort
        · exact absurd short' header

/-- A segment that was just opened. -/
def openedSeg (capacity : Nat) : WalSeg := segReset 1 1 capacity

/-- Nothing but this file, and calls that succeed. -/
def fileOs (content : Bytes) : Os := ⟨⟨fun _ => ⟨content, content⟩, [1], []⟩, [], []⟩

/-- The first record of a log, with 8 bytes of payload. -/
def firstRec : Bytes :=
  (walRecEncode WAL_REC_MAX_SIZE { plainRec 8 with seq := 1 } (List.replicate 8 7)).elim [] Prod.fst

theorem firstRec_is : IsRecs 1 [firstRec] := by
  refine ⟨⟨(walRecDecode firstRec).getD (plainRec 0), ?_⟩, trivial⟩
  decide +kernel

/-- The whole header is there, eight bytes of the payload are not. -/
theorem walSegRecover_cut_fails : ¬ ∀ (s : WalSeg) fd recs count cut os scratchLen,
    s.fd = some fd → IsRecs s.baseSeq recs → recs.flatten.length ≤ s.capacity →
    cut < s.capacity → os.script = [] →
    (os.disk.file fd).vol = (recs.flatten ++ zeros count).take cut →
    WAL_REC_MAX_SIZE ≤ scratchLen →
    ∃ torn os', walSegRecover os s scratchLen =
      (.ok (recovered s (wholeIn cut recs) torn), os') := by
  intro always
  obtain ⟨torn, os', recovers⟩ := always (openedSeg 176) 1 [firstRec] 112 56
    (fileOs (firstRec.take 56)) WAL_REC_MAX_SIZE rfl firstRec_is (by decide +kernel)
    (by decide +kernel) rfl (by decide +kernel) (Nat.le_refl _)
  have fails : (walSegRecover (fileOs (firstRec.take 56)) (openedSeg 176)
      WAL_REC_MAX_SIZE).1.isOk = false := by decide +kernel
  rw [recovers] at fails
  cases fails

theorem walSegRecover_cut_header : ∃ torn os', walSegRecover (fileOs (firstRec.take 40))
    (openedSeg 176) WAL_REC_MAX_SIZE = (.ok (recovered (openedSeg 176) [] torn), os') :=
  (@walSegRecover_cut (openedSeg 176) 1 rfl [firstRec] firstRec_is (by decide +kernel) 112 40
    (by decide +kernel) (fileOs (firstRec.take 40)) rfl (by decide +kernel) WAL_REC_MAX_SIZE
    (Nat.le_refl _)).mpr (Or.inr (by decide +kernel))

theorem walSegRecover_longest_oneRecord : ∃ recs, IsLongest 64 1 firstRec recs ∧
    ∀ os scratchLen, os.script = [] → (os.disk.file 1).vol = firstRec →
      WAL_REC_MAX_SIZE ≤ scratchLen → ∃ os', Reads os os' ∧
        walSegRecover os (openedSeg 64) scratchLen = (.ok (recovered (openedSeg 64) recs
          (tornAfter 64 firstRec recs.flatten.length)), os') :=
  walSegRecover_longest (openedSeg 64) rfl firstRec (by decide +kernel)

end Msgsrvd

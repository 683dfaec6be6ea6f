/-
Recovery of one segment, compared with a scan that reads no blocks.

`Scans` walks the bytes of a segment record by record.  The block-wise loop of
recovery finds exactly what it finds, whatever the size of the scratch buffer, as
long as that holds the largest record.
-/

import Msgsrvd.Wal.Segment
import Msgsrvd.Wal.Codec

namespace Msgsrvd

open Bytestring

/-! ### Calls that succeed -/

/-- Nothing was written between the two, and every call so far has succeeded. -/
structure Reads (os os' : Os) : Prop where
  disk : os'.disk = os.disk
  script : os'.script = []
  seen : ∀ disk ∈ os'.seen, disk ∈ os.seen ∨ disk = os.disk

theorem Reads.refl {os : Os} (calm : os.script = []) : Reads os os :=
  ⟨rfl, calm, fun _ present => Or.inl present⟩

theorem Reads.trans {first second third : Os} (left : Reads first second)
    (right : Reads second third) : Reads first third := by
  refine ⟨right.disk.trans left.disk, right.script, ?_⟩
  intro disk present
  rcases right.seen disk present with earlier | same
  · exact left.seen disk earlier
  · right
    rw [same, left.disk]

theorem plain_id_calm {os : Os} (calm : os.script = []) :
    os.plain id = (.ok (), os.land [] os.disk) := by
  unfold Os.plain Os.call
  rw [calm]
  rfl

theorem land_reads (os : Os) : Reads os (os.land [] os.disk) := by
  refine ⟨rfl, rfl, ?_⟩
  intro disk present
  rcases List.mem_cons.mp present with same | earlier
  · exact Or.inr same
  · exact Or.inl earlier

theorem osPreadFull_calm {os : Os} (calm : os.script = []) (fd count offset : Nat) :
    ∃ os', osPreadFull os (some fd) count offset =
        (.ok (slice (os.disk.file fd).vol offset count), os') ∧ Reads os os' := by
  refine ⟨os.land [] os.disk, ?_, land_reads os⟩
  unfold osPreadFull
  rw [plain_id_calm calm]
  rfl

theorem osClose_calm {os : Os} (calm : os.script = []) :
    osClose os = (.ok (), os.land [] os.disk) :=
  plain_id_calm calm

/-! ### The scan without blocks -/

inductive ScanEnd where
  | clean
  | torn
  /-- the record runs past the end of the file, though not of the segment -/
  | cut (size : Nat)
  deriving DecidableEq, Repr

inductive ScanHead where
  | stop (reason : ScanEnd)
  | record (size : Nat)
  deriving DecidableEq, Repr

/-- What stands at the front of `bytes`, with `room` bytes left in the segment. -/
def scanHead (room expected : Nat) (bytes : Bytes) : ScanHead :=
  match walRecDecode bytes with
  | none => .stop .clean
  | some r =>
      if walRecIsEnd r then .stop .clean
      else
        let size := walRecSize (i32 r.len)
        if size = 0 ∨ room < size then .stop .torn
        else if bytes.length < size then .stop (.cut size)
        else if ¬ walRecVerify bytes r ∨ r.seq ≠ expected then .stop .torn
        else .record size

inductive Scans : Nat → Nat → Bytes → List Bytes → ScanEnd → Prop where
  | stop {room expected : Nat} {bytes : Bytes} {reason : ScanEnd}
      (head : scanHead room expected bytes = .stop reason) :
      Scans room expected bytes [] reason
  | record {room expected size : Nat} {bytes : Bytes} {recs : List Bytes} {reason : ScanEnd}
      (head : scanHead room expected bytes = .record size)
      (tail : Scans (room - size) (expected + 1) (bytes.drop size) recs reason) :
      Scans room expected bytes (bytes.take size :: recs) reason

theorem scanHead_record {room expected size : Nat} {bytes : Bytes}
    (head : scanHead room expected bytes = .record size) :
    ∃ r, walRecDecode bytes = some r ∧ r.seq = expected ∧ expected ≠ 0 ∧
      walRecSize (i32 r.len) = size ∧ size ≠ 0 ∧ size ≤ room ∧ size ≤ bytes.length ∧
      walRecVerify bytes r = true := by
  unfold scanHead at head
  cases decoded : walRecDecode bytes with
  | none =>
      rw [decoded] at head
      cases head
  | some r =>
      simp only [decoded] at head
      split at head
      · cases head
      · rename_i notEnd
        split at head
        · cases head
        · rename_i sized
          split at head
          · cases head
          · rename_i whole
            split at head
            · cases head
            · rename_i good
              cases head
              rw [not_or] at sized good
              have sameSeq : r.seq = expected := not_not.mp good.2
              refine ⟨r, rfl, sameSeq, ?_, rfl, sized.1, by omega, by omega, ?_⟩
              · intro zero
                apply notEnd
                simp only [walRecIsEnd, sameSeq, zero, beq_self_eq_true]
              · exact not_not.mp good.1

/-- An accepted record is one in the sense of the codec. -/
theorem scanHead_isRec {room expected size : Nat} {bytes : Bytes}
    (head : scanHead room expected bytes = .record size) :
    IsRec expected (bytes.take size) := by
  obtain ⟨r, decoded, seq, low, sized, positive, _room, inside, verified⟩ :=
    scanHead_record head
  have header : WAL_REC_HEADER_SIZE ≤ size := by
    rw [← sized]
    apply header_le_walRecSize
    rw [sized]
    exact positive
  refine ⟨r, ?_, seq, low, ?_, ?_⟩
  · rw [walRecDecode_take _ _ header, decoded]
  · rw [sized, List.length_take]
    omega
  · rw [walRecVerify_take _ _ _ (by omega), verified]

/-- A record in front is accepted, whatever follows it. -/
theorem scanHead_of_isRec {room expected : Nat} {bytes tail : Bytes}
    (is : IsRec expected bytes) (fits : bytes.length ≤ room) :
    scanHead room expected (bytes ++ tail) = .record bytes.length := by
  have header := is.header_le
  have positive := is.length_pos
  obtain ⟨r, decoded, seq, low, sized, verified⟩ := is
  have front : walRecDecode (bytes ++ tail) = some r := by
    rw [walRecDecode_append bytes tail header, decoded]
  have good : walRecVerify (bytes ++ tail) r = true := by
    rw [← walRecVerify_take (bytes ++ tail) r bytes.length (by omega), List.take_left' rfl,
      verified]
  have notEnd : walRecIsEnd r = false := by
    simp only [walRecIsEnd, seq, beq_eq_false_iff_ne, ne_eq]
    exact low
  have enough : ¬ (bytes ++ tail).length < bytes.length := by
    rw [List.length_append]
    omega
  unfold scanHead
  simp only [front, notEnd, sized, good, seq, Bool.false_eq_true, if_false, ne_eq,
    not_true_eq_false, or_self]
  rw [if_neg (by omega), if_neg enough]

theorem Scans.isRecs {room expected : Nat} {bytes : Bytes} {recs : List Bytes}
    {reason : ScanEnd} (scan : Scans room expected bytes recs reason) : IsRecs expected recs := by
  induction scan with
  | stop head => trivial
  | record head tail ih => exact ⟨scanHead_isRec head, ih⟩

/-- What was accepted is the front of what was read, and fits the segment. -/
theorem Scans.front {room expected : Nat} {bytes : Bytes} {recs : List Bytes}
    {reason : ScanEnd} (scan : Scans room expected bytes recs reason) :
    recs.flatten ++ bytes.drop recs.flatten.length = bytes ∧ recs.flatten.length ≤ room := by
  induction scan with
  | stop head =>
      rw [List.flatten_nil, List.length_nil, List.drop_zero]
      exact ⟨rfl, Nat.zero_le _⟩
  | @record room expected size bytes recs reason head tail ih =>
      obtain ⟨_r, _decoded, _seq, _low, _sized, _positive, fits, inside, _verified⟩ :=
        scanHead_record head
      have front : (bytes.take size).length = size := by
        rw [List.length_take]
        omega
      rw [List.flatten_cons, List.length_append, front, ← List.drop_drop, List.append_assoc,
        ih.1, List.take_append_drop]
      refine ⟨rfl, ?_⟩
      have later := ih.2
      omega

theorem Scans.exists (room expected : Nat) (bytes : Bytes) :
    ∃ recs reason, Scans room expected bytes recs reason := by
  induction length : bytes.length using Nat.strong_induction_on generalizing room expected bytes with
  | _ count ih =>
      cases head : scanHead room expected bytes with
      | stop reason => exact ⟨[], reason, .stop head⟩
      | record size =>
          obtain ⟨_r, _decoded, _seq, _low, _sized, positive, _fits, inside, _verified⟩ :=
            scanHead_record head
          obtain ⟨recs, reason, tail⟩ :=
            ih (bytes.drop size).length (by rw [List.length_drop]; omega)
              (room - size) (expected + 1) (bytes.drop size) rfl
          exact ⟨bytes.take size :: recs, reason, .record head tail⟩

/-- Where a scan ends, no record is accepted. -/
theorem Scans.ends {room expected : Nat} {bytes : Bytes} {recs : List Bytes}
    {reason : ScanEnd} (scan : Scans room expected bytes recs reason) :
    scanHead (room - recs.flatten.length) (expected + recs.length)
      (bytes.drop recs.flatten.length) = .stop reason := by
  induction scan with
  | stop head => exact head
  | @record room expected size bytes recs reason head tail ih =>
      obtain ⟨_r, _decoded, _seq, _low, _sized, _positive, _fits, inside, _verified⟩ :=
        scanHead_record head
      have front : (bytes.take size).length = size := by
        rw [List.length_take]
        omega
      rw [List.flatten_cons, List.length_append, List.length_cons, front, ← List.drop_drop,
        ← Nat.sub_sub, Nat.add_comm recs.length, ← Nat.add_assoc]
      exact ih

/-- A scan ends in one way only. -/
theorem Scans.unique {room expected : Nat} {bytes : Bytes} {recs recs' : List Bytes}
    {reason reason' : ScanEnd} (left : Scans room expected bytes recs reason)
    (right : Scans room expected bytes recs' reason') : recs = recs' ∧ reason = reason' := by
  induction left generalizing recs' with
  | stop head =>
      cases right with
      | stop head' =>
          rw [head] at head'
          cases head'
          exact ⟨rfl, rfl⟩
      | record head' tail' =>
          rw [head] at head'
          cases head'
  | record head tail ih =>
      cases right with
      | stop head' =>
          rw [head] at head'
          cases head'
      | record head' tail' =>
          rw [head] at head'
          cases head'
          obtain ⟨same, ends⟩ := ih tail'
          rw [same]
          exact ⟨rfl, ends⟩

/-- Records in front are accepted one after the other. -/
theorem Scans.prepend {room expected : Nat} {front : List Bytes} {rest : Bytes}
    {recs : List Bytes} {reason : ScanEnd} (are : IsRecs expected front)
    (fits : front.flatten.length ≤ room)
    (scan : Scans (room - front.flatten.length) (expected + front.length) rest recs reason) :
    Scans room expected (front.flatten ++ rest) (front ++ recs) reason := by
  induction front generalizing room expected with
  | nil => exact scan
  | cons bytes later ih =>
      rw [List.flatten_cons, List.length_append] at fits
      have head : scanHead room expected (bytes ++ (later.flatten ++ rest)) =
          .record bytes.length := scanHead_of_isRec are.1 (by omega)
      have taken : (bytes ++ (later.flatten ++ rest)).take bytes.length = bytes :=
        List.take_left' rfl
      have dropped : (bytes ++ (later.flatten ++ rest)).drop bytes.length =
          later.flatten ++ rest := List.drop_left' rfl
      have less : later.flatten.length ≤ room - bytes.length := by omega
      have tail := ih are.2 less (by
        rw [List.flatten_cons, List.length_append, List.length_cons] at scan
        rw [Nat.sub_sub, Nat.add_right_comm, Nat.add_assoc expected]
        exact scan)
      have step := Scans.record head (by rw [dropped]; exact tail)
      rw [taken] at step
      rw [List.flatten_cons, List.append_assoc, List.cons_append]
      exact step

theorem scanHead_short {room expected : Nat} {bytes : Bytes}
    (short : bytes.length < WAL_REC_HEADER_SIZE) :
    scanHead room expected bytes = .stop .clean := by
  unfold scanHead walRecDecode
  rw [if_pos short]

theorem Scans.short {room expected : Nat} {bytes : Bytes} {recs : List Bytes}
    {reason : ScanEnd} (scan : Scans room expected bytes recs reason)
    (short : bytes.length < WAL_REC_HEADER_SIZE) : recs = [] ∧ reason = .clean := by
  have head : scanHead room expected bytes = .stop .clean := scanHead_short short
  cases scan with
  | stop found =>
      rw [head] at found
      cases found
      exact ⟨rfl, rfl⟩
  | record found tail =>
      rw [head] at found
      cases found

/-! ### The block-wise loop -/

/-- The headers of accepted records, as the callback sees them. -/
def headers (recs : List Bytes) : List WalRec := recs.filterMap walRecDecode

theorem headers_cons {seq : Nat} {bytes : Bytes} (is : IsRec seq bytes) (rest : List Bytes) :
    ∃ r, walRecDecode bytes = some r ∧ headers (bytes :: rest) = r :: headers rest := by
  obtain ⟨r, decoded, _⟩ := is
  refine ⟨r, decoded, ?_⟩
  unfold headers
  rw [List.filterMap_cons, decoded]

theorem headers_append (front back : List Bytes) :
    headers (front ++ back) = headers front ++ headers back := List.filterMap_append

theorem headers_length {base : Nat} {recs : List Bytes} (are : IsRecs base recs) :
    (headers recs).length = recs.length := by
  induction recs generalizing base with
  | nil => rfl
  | cons bytes rest ih =>
      obtain ⟨r, _decoded, shape⟩ := headers_cons are.1 rest
      rw [shape, List.length_cons, List.length_cons, ih are.2]

/-- What the walk over one block leaves: the scan either ended inside the block,
or goes on from a later position. -/
def BlockResult (room : Nat) (bytes : Bytes) (blockLen pos expected : Nat) (acc : List WalRec)
    (recs : List Bytes) (reason : ScanEnd) :
    BlockEnd × Nat × Nat × List WalRec → Prop
  | (.finish torn, pos', expected', acc') =>
      reason = (if torn then .torn else .clean) ∧ pos' = pos + recs.flatten.length ∧
        expected' = expected + recs.length ∧ acc' = acc ++ headers recs
  | (.nomem size, _, _, _) => pos = 0 ∧ recs = [] ∧ reason = .cut size
  | (.refill, pos', expected', acc') =>
      ∃ front back, recs = front ++ back ∧ pos' = pos + front.flatten.length ∧
        expected' = expected + front.length ∧ acc' = acc ++ headers front ∧
        IsRecs expected front ∧
        Scans (room - pos') expected' (bytes.drop pos') back reason ∧
        (pos' = 0 → blockLen < WAL_REC_HEADER_SIZE)

private theorem refill_here {room : Nat} {bytes : Bytes} {blockLen pos expected : Nat}
    {acc : List WalRec} {recs : List Bytes} {reason : ScanEnd}
    (scan : Scans (room - pos) expected (bytes.drop pos) recs reason)
    (spin : pos = 0 → blockLen < WAL_REC_HEADER_SIZE) :
    BlockResult room bytes blockLen pos expected acc recs reason (.refill, pos, expected, acc) :=
  ⟨[], recs, rfl, rfl, rfl, by simp [headers], trivial, scan, spin⟩

theorem walSegScanBlock_scans {capacity off scratchLen : Nat} {bytes : Bytes}
    (scratch : WAL_REC_MAX_SIZE ≤ scratchLen)
    (fuel pos expected : Nat) (acc : List WalRec) (recs : List Bytes) (reason : ScanEnd)
    (enough : (bytes.take scratchLen).length ≤ pos + fuel)
    (scan : Scans (capacity - off - pos) expected (bytes.drop pos) recs reason) :
    BlockResult (capacity - off) bytes (bytes.take scratchLen).length pos expected acc recs reason
      (walSegScanBlock capacity off (bytes.take scratchLen) fuel pos expected acc) := by
  induction fuel generalizing pos expected acc recs with
  | zero =>
      unfold walSegScanBlock
      apply refill_here scan
      intro front
      rw [front] at enough
      have empty : (bytes.take scratchLen).length = 0 := by omega
      rw [empty]
      decide
  | succ fuel ih =>
      unfold walSegScanBlock
      by_cases inside : pos + WAL_REC_HEADER_SIZE ≤ (bytes.take scratchLen).length
      · rw [if_pos inside]
        have blockLen : (bytes.take scratchLen).length = min scratchLen bytes.length :=
          List.length_take
        have dropped : (bytes.take scratchLen).drop pos = (bytes.drop pos).take (scratchLen - pos) :=
          List.drop_take
        have header : WAL_REC_HEADER_SIZE ≤ scratchLen - pos := by omega
        have sameHead : walRecDecode ((bytes.take scratchLen).drop pos) =
            walRecDecode (bytes.drop pos) := by
          rw [dropped, walRecDecode_take _ _ header]
        obtain ⟨r, decoded⟩ := walRecDecode_isSome (bytes.drop pos) (by
          rw [List.length_drop]
          omega)
        simp only [sameHead, decoded]
        have restLen : (bytes.drop pos).length = bytes.length - pos := List.length_drop
        have sizeLe := walRecSize_le (i32 r.len)
        -- the same tests as the scan's, against the block instead of the file
        cases scan with
        | @stop _ _ _ reason head =>
            unfold scanHead at head
            simp only [decoded] at head
            split at head
            · rename_i isEnd
              rw [if_pos isEnd]
              cases head
              exact ⟨rfl, rfl, rfl, by simp [headers]⟩
            · rename_i notEnd
              rw [if_neg notEnd]
              split at head
              · rename_i sized
                rw [if_pos (by omega)]
                cases head
                exact ⟨rfl, rfl, rfl, by simp [headers]⟩
              · rename_i sized
                rw [if_neg (by omega)]
                split at head
                · rename_i short
                  cases head
                  rw [if_pos (by omega)]
                  by_cases front : pos = 0
                  · rw [if_pos front]
                    exact ⟨front, rfl, rfl⟩
                  · rw [if_neg front]
                    refine refill_here (.stop ?_) (fun at_front => absurd at_front front)
                    unfold scanHead
                    simp only [decoded]
                    rw [if_neg notEnd, if_neg sized, if_pos short]
                · rename_i whole
                  split at head
                  · rename_i bad
                    cases head
                    by_cases beyond : pos + walRecSize (i32 r.len) > (bytes.take scratchLen).length
                    · rw [if_pos beyond]
                      have front : pos ≠ 0 := by omega
                      rw [if_neg front]
                      refine refill_here (.stop ?_) (fun at_front => absurd at_front front)
                      unfold scanHead
                      simp only [decoded]
                      rw [if_neg notEnd, if_neg sized, if_neg whole, if_pos bad]
                    · rw [if_neg beyond]
                      have sameSum : walRecVerify ((bytes.take scratchLen).drop pos) r =
                          walRecVerify (bytes.drop pos) r := by
                        rw [dropped, walRecVerify_take _ _ _ (by omega)]
                      rw [sameSum, if_pos bad]
                      exact ⟨rfl, rfl, rfl, by simp [headers]⟩
                  · cases head
        | @record _ _ size _ recs reason head tail =>
            have is := scanHead_isRec head
            obtain ⟨r', decoded', seq, low, sized, positive, fits, whole, verified⟩ :=
              scanHead_record head
            rw [decoded] at decoded'
            cases decoded'
            have notEnd : ¬ walRecIsEnd r = true := by
              simp only [walRecIsEnd, seq, beq_iff_eq]
              exact low
            rw [if_neg notEnd, if_neg (by omega)]
            by_cases beyond : pos + walRecSize (i32 r.len) > (bytes.take scratchLen).length
            · rw [if_pos beyond]
              have front : pos ≠ 0 := by omega
              rw [if_neg front]
              exact refill_here (.record head tail) (fun at_front => absurd at_front front)
            · rw [if_neg beyond]
              have sameSum : walRecVerify ((bytes.take scratchLen).drop pos) r =
                  walRecVerify (bytes.drop pos) r := by
                rw [dropped, walRecVerify_take _ _ _ (by omega)]
              rw [sameSum, if_neg (by
                rw [not_or, not_not, not_not]
                exact ⟨verified, seq⟩), sized]
              rw [List.drop_drop, Nat.sub_sub, ] at tail
              have later := ih (pos + size) (expected + 1) (acc ++ [r]) recs (by omega) tail
              obtain ⟨q, decodedFront, headersFront⟩ := headers_cons is recs
              have sameFront : q = r := by
                have header : WAL_REC_HEADER_SIZE ≤ size := by
                  rw [← sized]
                  apply header_le_walRecSize
                  omega
                rw [walRecDecode_take _ _ header, decoded] at decodedFront
                exact (Option.some.inj decodedFront).symm
              have taken : ((bytes.drop pos).take size).length = size := by
                rw [List.length_take]
                omega
              revert later
              cases walSegScanBlock capacity off (bytes.take scratchLen) fuel (pos + size)
                  (expected + 1) (acc ++ [r]) with
              | mk ending state =>
                  obtain ⟨pos', expected', acc'⟩ := state
                  cases ending with
                  | finish torn =>
                      rintro ⟨why, at_pos, at_seq, gathered⟩
                      refine ⟨why, ?_, ?_, ?_⟩
                      · rw [at_pos, List.flatten_cons, List.length_append, taken]
                        omega
                      · rw [at_seq, List.length_cons]
                        omega
                      · rw [gathered, headersFront, sameFront, List.append_assoc]
                        rfl
                  | nomem size' =>
                      rintro ⟨at_front, _⟩
                      omega
                  | refill =>
                      rintro ⟨front, back, split', at_pos, at_seq, gathered, are, rest, spin⟩
                      refine ⟨(bytes.drop pos).take size :: front, back, ?_, ?_, ?_, ?_, ?_, rest,
                        spin⟩
                      · rw [split', List.cons_append]
                      · rw [at_pos, List.flatten_cons, List.length_append, taken]
                        omega
                      · rw [at_seq, List.length_cons]
                        omega
                      · obtain ⟨q', decodedFront', headersFront'⟩ := headers_cons is front
                        rw [decodedFront] at decodedFront'
                        cases decodedFront'
                        rw [gathered, headersFront', sameFront, List.append_assoc]
                        rfl
                      · exact ⟨is, are⟩
      · rw [if_neg inside]
        apply refill_here scan
        intro front
        omega

/-- The result of a scan that ended for this reason. -/
def scanResult (off expected : Nat) (acc : List WalRec) (recs : List Bytes) :
    ScanEnd → Except Err ScanPoint
  | .cut size => .error ⟨.nomem, size⟩
  | .clean => .ok ⟨off + recs.flatten.length, expected + recs.length, false, acc ++ headers recs⟩
  | .torn => .ok ⟨off + recs.flatten.length, expected + recs.length, true, acc ++ headers recs⟩

theorem scanResult_append (off expected : Nat) (acc : List WalRec) (front back : List Bytes)
    (reason : ScanEnd) :
    scanResult (off + front.flatten.length) (expected + front.length) (acc ++ headers front)
        back reason =
      scanResult off expected acc (front ++ back) reason := by
  have offs : off + front.flatten.length + back.flatten.length =
      off + (front ++ back).flatten.length := by
    rw [List.flatten_append, List.length_append]
    omega
  have seqs : expected + front.length + back.length = expected + (front ++ back).length := by
    rw [List.length_append]
    omega
  have heads : acc ++ headers front ++ headers back = acc ++ headers (front ++ back) := by
    rw [headers, headers, headers, List.filterMap_append, List.append_assoc]
  cases reason with
  | clean => simp only [scanResult, offs, seqs, heads]
  | torn => simp only [scanResult, offs, seqs, heads]
  | cut size => rfl

/-- A block read from the file is the front of what is left of the segment. -/
theorem slice_block (content : Bytes) (off capacity scratchLen : Nat) :
    slice content off (min scratchLen (capacity - off)) =
      ((content.take capacity).drop off).take scratchLen := by
  rw [slice, List.drop_take, List.take_take]

theorem walSegScan_scans {capacity scratchLen : Nat} (scratch : WAL_REC_MAX_SIZE ≤ scratchLen)
    (fd fuel : Nat) (os : Os) (calm : os.script = []) (off expected : Nat) (acc : List WalRec)
    (recs : List Bytes) (reason : ScanEnd) (enough : capacity < off + fuel)
    (scan : Scans (capacity - off) expected
      (((os.disk.file fd).vol.take capacity).drop off) recs reason) :
    ∃ os', walSegScan (some fd) capacity scratchLen fuel os off expected acc =
        (scanResult off expected acc recs reason, os') ∧ Reads os os' := by
  have stopped (os' : Os) (reads : Reads os os') (short :
      (((os.disk.file fd).vol.take capacity).drop off).length < WAL_REC_HEADER_SIZE) :
      (Except.ok (ε := Err) (⟨off, expected, false, acc⟩ : ScanPoint), os') =
        (scanResult off expected acc recs reason, os') := by
    obtain ⟨none, why⟩ := scan.short short
    subst none why
    simp [scanResult, headers]
  induction fuel generalizing os off expected acc recs with
  | zero =>
      refine ⟨os, ?_, Reads.refl calm⟩
      unfold walSegScan
      apply stopped os (Reads.refl calm)
      rw [List.length_drop, List.length_take]
      have header : 0 < WAL_REC_HEADER_SIZE := by decide
      omega
  | succ fuel ih =>
      unfold walSegScan
      by_cases inside : off < capacity
      · rw [if_pos inside]
        obtain ⟨os', read, reads⟩ :=
          osPreadFull_calm calm fd (min scratchLen (capacity - off)) off
        rw [slice_block] at read
        rw [read]
        simp only
        have scratchHeader : WAL_REC_HEADER_SIZE ≤ scratchLen :=
          Nat.le_trans (by decide) scratch
        by_cases short : ((((os.disk.file fd).vol.take capacity).drop off).take
            scratchLen).length < WAL_REC_HEADER_SIZE
        · rw [if_pos short]
          refine ⟨os', stopped os' reads ?_, reads⟩
          rw [List.length_take] at short
          omega
        · rw [if_neg short]
          have scan' : Scans (capacity - off - 0) expected
              ((((os.disk.file fd).vol.take capacity).drop off).drop 0) recs reason := by
            rw [Nat.sub_zero, List.drop_zero]
            exact scan
          have walked := walSegScanBlock_scans scratch
            ((((os.disk.file fd).vol.take capacity).drop off).take scratchLen).length 0 expected
            acc recs reason (by omega) scan'
          revert walked
          cases walSegScanBlock capacity off
              ((((os.disk.file fd).vol.take capacity).drop off).take scratchLen)
              ((((os.disk.file fd).vol.take capacity).drop off).take scratchLen).length 0
              expected acc with
          | mk ending state =>
              obtain ⟨pos', expected', acc'⟩ := state
              cases ending with
              | finish torn =>
                  rintro ⟨why, at_pos, at_seq, gathered⟩
                  refine ⟨os', ?_, reads⟩
                  simp only [why, at_pos, at_seq, gathered]
                  cases torn <;> simp [scanResult]
              | nomem size =>
                  rintro ⟨_front, _none, why⟩
                  refine ⟨os', ?_, reads⟩
                  simp only [why, scanResult]
              | refill =>
                  rintro ⟨front, back, shape, at_pos, at_seq, gathered, _are, rest, spin⟩
                  have moved : pos' ≠ 0 := fun zero => short (spin zero)
                  simp only [if_neg moved]
                  rw [Nat.zero_add] at at_pos
                  rw [Nat.sub_sub, List.drop_drop, ← reads.disk] at rest
                  obtain ⟨os'', found, later⟩ := ih os' reads.script (off + pos') expected' acc'
                    back (by omega) rest (by
                      intro os'' _reads tail
                      obtain ⟨none, why⟩ := rest.short tail
                      subst none why
                      simp [scanResult, headers])
                  refine ⟨os'', ?_, reads.trans later⟩
                  rw [found, at_pos, at_seq, gathered, scanResult_append, shape]
      · rw [if_neg inside]
        refine ⟨os, stopped os (Reads.refl calm) ?_, Reads.refl calm⟩
        rw [List.length_drop, List.length_take]
        have header : 0 < WAL_REC_HEADER_SIZE := by decide
        omega

/-! ### Recovery -/

/-- The segment and the report that recovery leaves when it accepted these records. -/
def recovered (s : WalSeg) (recs : List Bytes) (torn : Bool) :
    WalSegScan × WalSeg × List WalRec :=
  ({ records := recs.length
     lastSeq := s.baseSeq + recs.length - 1
     endOff := recs.flatten.length
     torn := torn },
   { s with
     nextSeq := s.baseSeq + recs.length
     durableSeq := s.baseSeq + recs.length - 1
     writeOff := recs.flatten.length
     syncedOff := recs.flatten.length },
   headers recs)

/-- **Recovery accepts what the scan accepts, however it reads it.** -/
theorem walSegRecover_scans {scratchLen : Nat} (scratch : WAL_REC_MAX_SIZE ≤ scratchLen)
    {s : WalSeg} {fd : Nat} (opened : s.fd = some fd) {os : Os} (calm : os.script = [])
    {recs : List Bytes} {reason : ScanEnd}
    (scan : Scans s.capacity s.baseSeq ((os.disk.file fd).vol.take s.capacity) recs reason) :
    ∃ os', Reads os os' ∧ walSegRecover os s scratchLen =
      (match reason with
        | .cut size => .error ⟨.nomem, size⟩
        | .clean => .ok (recovered s recs false)
        | .torn => .ok (recovered s recs true), os') := by
  have enough : s.capacity < 0 + (s.capacity + 1) := by omega
  obtain ⟨os', found, reads⟩ := walSegScan_scans scratch fd
    (s.capacity + 1) os calm 0 s.baseSeq []
    recs reason enough (by rw [Nat.sub_zero, List.drop_zero]; exact scan)
  refine ⟨os', reads, ?_⟩
  have scratchHeader : ¬ scratchLen < WAL_REC_HEADER_SIZE := by
    have big : WAL_REC_HEADER_SIZE ≤ WAL_REC_MAX_SIZE := by decide
    omega
  have counted := headers_length scan.isRecs
  unfold walSegRecover
  rw [if_neg scratchHeader, opened, found]
  cases reason <;>
    simp only [scanResult, recovered, Nat.zero_add, List.nil_append, counted, opened]

end Msgsrvd

/-
What the record codec guarantees, stated for byte strings.

`IsRec seq bytes` is what recovery accepts as the record of a sequence.  Every
record the encoder writes satisfies it, and it can be decided from the record's
own bytes, whatever follows them.
-/

import Msgsrvd.Wal.Record

namespace Msgsrvd

open Bytestring

/-! ### Sizes -/

theorem i32_mod (value : Nat) : i32 (value % 2 ^ 32) = i32 value := by
  unfold i32
  rw [Nat.mod_mod]

theorem walRecSize_le (len : Int) : walRecSize len ≤ WAL_REC_MAX_SIZE := by
  unfold walRecSize WAL_REC_MAX_SIZE
  split
  · omega
  · rename_i inRange
    have bound : len.toNat ≤ WAL_MAX_PAYLOAD := by omega
    omega

theorem header_le_walRecSize {len : Int} (sized : walRecSize len ≠ 0) :
    WAL_REC_HEADER_SIZE ≤ walRecSize len := by
  unfold walRecSize at sized ⊢
  split at sized
  · exact absurd rfl sized
  · rename_i inRange
    rw [if_neg inRange]
    omega

theorem header_length (r : WalRec) : r.header.length = WAL_REC_HEADER_SIZE := by
  simp only [WalRec.header, List.length_append, length_le]
  rfl

/-! ### Decoding -/

/-- The record as it reads back: each field cut to its width. -/
def WalRec.cut (r : WalRec) : WalRec :=
  { crc := r.crc % 256 ^ 4
    len := r.len % 256 ^ 4
    term := r.term % 256 ^ 8
    seq := r.seq % 256 ^ 8
    session := r.session % 256 ^ 8
    clientSeq := r.clientSeq % 256 ^ 8
    recordType := r.recordType % 256 ^ 2
    flags := r.flags % 256 ^ 2
    pad := r.pad % 256 ^ 4
    partitionKey := r.partitionKey % 256 ^ 8 }

theorem walRecDecode_header (r : WalRec) (body : Bytes) :
    walRecDecode (r.header ++ body) = some r.cut := by
  have long : ¬ (r.header ++ body).length < WAL_REC_HEADER_SIZE := by
    rw [List.length_append, header_length]
    omega
  have field (front value : Bytes) (back : Bytes) (offset width : Nat)
      (same : r.header ++ body = front ++ (value ++ back))
      (at_front : offset = front.length) (is_field : width = value.length) :
      slice (r.header ++ body) offset width = value := by
    rw [same]
    exact slice_field front value back offset width at_front is_field
  have crc := field [] (le 4 r.crc) _ 0 4 (by
    simp only [WalRec.header, List.append_assoc, List.nil_append]; rfl) rfl (by simp)
  have len := field (le 4 r.crc) (le 4 r.len) _ 4 4 (by
    simp only [WalRec.header, List.append_assoc]; rfl) (by simp) (by simp)
  have term := field (le 4 r.crc ++ le 4 r.len) (le 8 r.term) _ 8 8 (by
    simp only [WalRec.header, List.append_assoc]; rfl) (by simp) (by simp)
  have seq := field (le 4 r.crc ++ le 4 r.len ++ le 8 r.term) (le 8 r.seq) _ 16 8 (by
    simp only [WalRec.header, List.append_assoc]; rfl) (by simp) (by simp)
  have session := field (le 4 r.crc ++ le 4 r.len ++ le 8 r.term ++ le 8 r.seq)
    (le 8 r.session) _ 24 8 (by
    simp only [WalRec.header, List.append_assoc]; rfl) (by simp) (by simp)
  have clientSeq := field (le 4 r.crc ++ le 4 r.len ++ le 8 r.term ++ le 8 r.seq ++
    le 8 r.session) (le 8 r.clientSeq) _ 32 8 (by
    simp only [WalRec.header, List.append_assoc]; rfl) (by simp) (by simp)
  have recordType := field (le 4 r.crc ++ le 4 r.len ++ le 8 r.term ++ le 8 r.seq ++
    le 8 r.session ++ le 8 r.clientSeq) (le 2 r.recordType) _ 40 2 (by
    simp only [WalRec.header, List.append_assoc]; rfl) (by simp) (by simp)
  have flags := field (le 4 r.crc ++ le 4 r.len ++ le 8 r.term ++ le 8 r.seq ++
    le 8 r.session ++ le 8 r.clientSeq ++ le 2 r.recordType) (le 2 r.flags) _ 42 2 (by
    simp only [WalRec.header, List.append_assoc]; rfl) (by simp) (by simp)
  have pad := field (le 4 r.crc ++ le 4 r.len ++ le 8 r.term ++ le 8 r.seq ++
    le 8 r.session ++ le 8 r.clientSeq ++ le 2 r.recordType ++ le 2 r.flags)
    (le 4 r.pad) _ 44 4 (by
    simp only [WalRec.header, List.append_assoc]; rfl) (by simp) (by simp)
  have partitionKey := field (le 4 r.crc ++ le 4 r.len ++ le 8 r.term ++ le 8 r.seq ++
    le 8 r.session ++ le 8 r.clientSeq ++ le 2 r.recordType ++ le 2 r.flags ++
    le 4 r.pad) (le 8 r.partitionKey) body 48 8 (by
    simp only [WalRec.header, List.append_assoc]) (by simp) (by simp)
  rw [walRecDecode, if_neg long, crc, len, term, seq, session, clientSeq, recordType, flags,
    pad, partitionKey]
  simp only [ofLe_le]
  rfl

/-- Decoding looks at the header's bytes only. -/
theorem walRecDecode_take (buf : Bytes) (count : Nat) (enough : WAL_REC_HEADER_SIZE ≤ count) :
    walRecDecode (buf.take count) = walRecDecode buf := by
  unfold WAL_REC_HEADER_SIZE at enough
  unfold walRecDecode WAL_REC_HEADER_SIZE
  rw [List.length_take]
  by_cases short : buf.length < 56
  · rw [if_pos short, if_pos (by omega)]
  · rw [if_neg short, if_neg (by omega)]
    simp only [slice_take _ _ _ count (show 0 + 4 ≤ count by omega),
      slice_take _ _ _ count (show 4 + 4 ≤ count by omega),
      slice_take _ _ _ count (show 8 + 8 ≤ count by omega),
      slice_take _ _ _ count (show 16 + 8 ≤ count by omega),
      slice_take _ _ _ count (show 24 + 8 ≤ count by omega),
      slice_take _ _ _ count (show 32 + 8 ≤ count by omega),
      slice_take _ _ _ count (show 40 + 2 ≤ count by omega),
      slice_take _ _ _ count (show 42 + 2 ≤ count by omega),
      slice_take _ _ _ count (show 44 + 4 ≤ count by omega),
      slice_take _ _ _ count (show 48 + 8 ≤ count by omega)]

theorem walRecDecode_append (bytes rest : Bytes) (enough : WAL_REC_HEADER_SIZE ≤ bytes.length) :
    walRecDecode (bytes ++ rest) = walRecDecode bytes := by
  have front : (bytes ++ rest).take bytes.length = bytes := List.take_left' rfl
  rw [← walRecDecode_take (bytes ++ rest) bytes.length enough, front]

theorem walRecDecode_isSome (buf : Bytes) (enough : WAL_REC_HEADER_SIZE ≤ buf.length) :
    ∃ r, walRecDecode buf = some r := by
  unfold walRecDecode
  rw [if_neg (by omega)]
  exact ⟨_, rfl⟩

/-- The checksum covers the record's own bytes only. -/
theorem walRecVerify_take (buf : Bytes) (r : WalRec) (count : Nat)
    (enough : walRecSize (i32 r.len) ≤ count) :
    walRecVerify (buf.take count) r = walRecVerify buf r := by
  unfold walRecVerify
  rw [List.length_take]
  by_cases sized : walRecSize (i32 r.len) = 0
  · simp only [sized, true_or, if_true]
  · have header := header_le_walRecSize sized
    unfold WAL_REC_HEADER_SIZE at header
    by_cases short : buf.length < walRecSize (i32 r.len)
    · have shorter : min count buf.length < walRecSize (i32 r.len) := by omega
      simp only [short, shorter, or_true, if_true]
    · have longer : ¬ min count buf.length < walRecSize (i32 r.len) := by omega
      simp only [sized, short, longer, or_self, if_false]
      rw [slice_take]
      unfold CRC_OFFSET
      omega

/-! ### Records as bytes -/

/-- The bytes of a record recovery accepts at this sequence, and nothing more. -/
def IsRec (seq : Nat) (bytes : Bytes) : Prop :=
  ∃ r, walRecDecode bytes = some r ∧ r.seq = seq ∧ seq ≠ 0 ∧
    walRecSize (i32 r.len) = bytes.length ∧ walRecVerify bytes r = true

/-- Consecutive records from a base sequence on. -/
def IsRecs : Nat → List Bytes → Prop
  | _, [] => True
  | base, bytes :: rest => IsRec base bytes ∧ IsRecs (base + 1) rest

theorem IsRec.header_le {seq : Nat} {bytes : Bytes} (is : IsRec seq bytes) :
    WAL_REC_HEADER_SIZE ≤ bytes.length := by
  obtain ⟨r, _decoded, _seq, _pos, size, verified⟩ := is
  rw [← size]
  apply header_le_walRecSize
  intro zero
  simp only [walRecVerify, zero, true_or, if_true, Bool.false_eq_true] at verified

theorem IsRec.length_pos {seq : Nat} {bytes : Bytes} (is : IsRec seq bytes) :
    0 < bytes.length :=
  Nat.lt_of_lt_of_le (by decide) is.header_le

theorem IsRec.length_le {seq : Nat} {bytes : Bytes} (is : IsRec seq bytes) :
    bytes.length ≤ WAL_REC_MAX_SIZE := by
  obtain ⟨r, _decoded, _seq, _pos, size, _verified⟩ := is
  rw [← size]
  exact walRecSize_le _

theorem IsRecs.append {base : Nat} {front back : List Bytes}
    (left : IsRecs base front) (right : IsRecs (base + front.length) back) :
    IsRecs base (front ++ back) := by
  induction front generalizing base with
  | nil => exact right
  | cons bytes rest ih =>
      refine ⟨left.1, ih left.2 ?_⟩
      rw [List.length_cons] at right
      rw [Nat.add_right_comm, Nat.add_assoc]
      exact right

theorem IsRecs.left {base : Nat} {front back : List Bytes}
    (whole : IsRecs base (front ++ back)) : IsRecs base front := by
  induction front generalizing base with
  | nil => trivial
  | cons bytes rest ih => exact ⟨whole.1, ih whole.2⟩

theorem IsRecs.right {base : Nat} {front back : List Bytes}
    (whole : IsRecs base (front ++ back)) : IsRecs (base + front.length) back := by
  induction front generalizing base with
  | nil => exact whole
  | cons bytes rest ih =>
      have later := ih whole.2
      rw [Nat.add_right_comm, Nat.add_assoc] at later
      exact later

theorem IsRecs.get {base : Nat} {recs : List Bytes} (are : IsRecs base recs)
    {index : Nat} {bytes : Bytes} (found : recs[index]? = some bytes) :
    IsRec (base + index) bytes := by
  induction recs generalizing base index with
  | nil => cases found
  | cons head rest ih =>
      cases index with
      | zero =>
          cases found
          exact are.1
      | succ index =>
          have later := ih are.2 found
          rw [Nat.add_right_comm, Nat.add_assoc] at later
          exact later

/-! ### What the encoder writes -/

/-- The header with the checksum and pad fields cleared, which is what is summed. -/
def WalRec.blank (r : WalRec) : WalRec := { r with crc := 0, pad := 0 }

theorem walRecEncode_shape {bufLen : Nat} {r out : WalRec} {payload bytes : Bytes}
    (full : (i32 r.len).toNat ≤ payload.length)
    (encoded : walRecEncode bufLen r payload = some (bytes, out)) :
    ∃ body, bytes = out.header ++ body ∧
      walRecSize (i32 r.len) = WAL_REC_HEADER_SIZE + body.length ∧
      out = { r with
        crc := (crc32c 0 ((r.blank.header ++ body).drop CRC_OFFSET)).toNat, pad := 0 } := by
  unfold walRecEncode at encoded
  simp only at encoded
  split at encoded
  · cases encoded
  · split at encoded
    · cases encoded
    · rename_i _given fits
      rw [not_or] at fits
      cases encoded
      refine ⟨_, rfl, ?_, rfl⟩
      have sized := fits.1
      rw [List.length_append, List.length_take, List.length_replicate]
      unfold walRecSize at sized ⊢
      split at sized
      · exact absurd rfl sized
      · rename_i inRange
        simp only [if_neg inRange]
        omega

theorem walRecEncode_length {bufLen : Nat} {r out : WalRec} {payload bytes : Bytes}
    (full : (i32 r.len).toNat ≤ payload.length)
    (encoded : walRecEncode bufLen r payload = some (bytes, out)) :
    bytes.length = walRecSize (i32 r.len) := by
  obtain ⟨body, shape, size, _fields⟩ := walRecEncode_shape full encoded
  rw [shape, List.length_append, header_length, size]

/-- Past its checksum a header does not depend on it. -/
theorem header_drop_crc (r : WalRec) (crc : Nat) (body : Bytes) :
    ({ r with crc := crc }.header ++ body).drop CRC_OFFSET =
      (r.header ++ body).drop CRC_OFFSET := by
  have four (value : Nat) : CRC_OFFSET = (le 4 value).length := (length_le 4 value).symm
  simp only [WalRec.header, List.append_assoc]
  conv_lhs => rw [four crc, List.drop_left]
  conv_rhs => rw [four r.crc, List.drop_left]

theorem walRecVerify_encoded (r : WalRec) (body : Bytes)
    (size : walRecSize (i32 r.len) = WAL_REC_HEADER_SIZE + body.length)
    (summed : r.crc = (crc32c 0 ((r.header ++ body).drop CRC_OFFSET)).toNat) :
    walRecVerify (r.header ++ body) r.cut = true := by
  have sameLen : i32 r.cut.len = i32 r.len := i32_mod r.len
  have total : (r.header ++ body).length = walRecSize (i32 r.len) := by
    rw [List.length_append, header_length, size]
  have positive : walRecSize (i32 r.len) ≠ 0 := by
    rw [size]
    unfold WAL_REC_HEADER_SIZE
    omega
  have whole : slice (r.header ++ body) CRC_OFFSET (walRecSize (i32 r.len) - CRC_OFFSET) =
      (r.header ++ body).drop CRC_OFFSET := by
    unfold slice
    rw [List.take_of_length_le (by rw [List.length_drop, total])]
  have small : r.cut.crc = r.crc := by
    change r.crc % 256 ^ 4 = r.crc
    rw [summed]
    exact Nat.mod_eq_of_lt (BitVec.isLt _)
  unfold walRecVerify
  simp only [sameLen]
  rw [if_neg (by rw [not_or, total]; exact ⟨positive, Nat.lt_irrefl _⟩), whole, small, ← summed,
    beq_self_eq_true]

/-- What the encoder writes reads back as the record it returns, and verifies. -/
theorem walRecEncode_reads {bufLen : Nat} {r out : WalRec} {payload bytes : Bytes}
    (full : (i32 r.len).toNat ≤ payload.length)
    (encoded : walRecEncode bufLen r payload = some (bytes, out)) :
    walRecDecode bytes = some out.cut ∧ walRecSize (i32 out.cut.len) = bytes.length ∧
      walRecVerify bytes out.cut = true ∧ out.seq = r.seq ∧ i32 out.cut.len = i32 r.len := by
  obtain ⟨body, shape, size, fields⟩ := walRecEncode_shape full encoded
  have keptSeq : out.seq = r.seq := by rw [fields]
  have keptLen : out.len = r.len := by rw [fields]
  have cutLen : i32 out.cut.len = i32 r.len := by
    change i32 (out.len % 256 ^ 4) = i32 r.len
    rw [keptLen]
    exact i32_mod r.len
  have summed : out.crc = (crc32c 0 ((out.header ++ body).drop CRC_OFFSET)).toNat := by
    have same : (out.header ++ body).drop CRC_OFFSET =
        (r.blank.header ++ body).drop CRC_OFFSET := by
      rw [fields]
      exact header_drop_crc r.blank _ body
    rw [same, fields]
  subst shape
  refine ⟨walRecDecode_header out body, ?_, ?_, keptSeq, cutLen⟩
  · rw [cutLen, List.length_append, header_length, size]
  · apply walRecVerify_encoded out body _ summed
    rw [keptLen, size]

/-- **Every record the encoder writes is one recovery accepts.** -/
theorem walRecEncode_isRec {bufLen : Nat} {r out : WalRec} {payload bytes : Bytes}
    (full : (i32 r.len).toNat ≤ payload.length)
    (low : r.seq ≠ 0) (high : r.seq < 2 ^ 64)
    (encoded : walRecEncode bufLen r payload = some (bytes, out)) :
    IsRec r.seq bytes := by
  obtain ⟨decoded, size, verified, keptSeq, _cutLen⟩ := walRecEncode_reads full encoded
  refine ⟨out.cut, decoded, ?_, low, size, verified⟩
  change out.seq % 256 ^ 8 = r.seq
  rw [keptSeq, Nat.mod_eq_of_lt]
  exact high

/-! ### Encoding again -/

theorem header_cut (r : WalRec) : r.cut.header = r.header := by
  unfold WalRec.header WalRec.cut
  simp only [le_mod]

/-- What stands behind the header: the payload and zeros up to the size. -/
theorem walRecEncode_body {bufLen : Nat} {r out : WalRec} {payload bytes : Bytes}
    (encoded : walRecEncode bufLen r payload = some (bytes, out)) :
    bytes = out.header ++ (payload.take (i32 r.len).toNat ++
      List.replicate (walRecSize (i32 r.len) - WAL_REC_HEADER_SIZE - (i32 r.len).toNat) 0) := by
  unfold walRecEncode at encoded
  simp only at encoded
  split at encoded
  · cases encoded
  · split at encoded
    · cases encoded
    · cases encoded
      rfl

/-- **A record read back is encoded into the bytes it was read from**, whatever follows
them. -/
theorem walRecEncode_again {bufLen bufLen' : Nat} {r out : WalRec} {payload bytes : Bytes}
    (full : (i32 r.len).toNat ≤ payload.length)
    (encoded : walRecEncode bufLen r payload = some (bytes, out)) (back : Bytes)
    (room : bytes.length ≤ bufLen') :
    walRecEncode bufLen' out.cut ((bytes ++ back).drop WAL_REC_HEADER_SIZE) =
      some (bytes, out.cut) := by
  have length := walRecEncode_length full encoded
  have shape := walRecEncode_body encoded
  obtain ⟨body, shape', size, fields⟩ := walRecEncode_shape full encoded
  have same : body = payload.take (i32 r.len).toNat ++
      List.replicate (walRecSize (i32 r.len) - WAL_REC_HEADER_SIZE - (i32 r.len).toNat) 0 :=
    List.append_cancel_left (shape'.symm.trans shape)
  have cutLen := (walRecEncode_reads full encoded).2.2.2.2
  have taken : (payload.take (i32 r.len).toNat).length = (i32 r.len).toNat :=
    List.length_take_of_le full
  have behind : (bytes ++ back).drop WAL_REC_HEADER_SIZE = body ++ back := by
    rw [shape', List.append_assoc, ← header_length out, List.drop_left]
  have front : (body ++ back).take (i32 r.len).toNat = payload.take (i32 r.len).toNat := by
    rw [same, List.append_assoc]
    exact List.take_left' taken
  have blank : { out.cut with crc := 0, pad := 0 }.header = r.blank.header := by
    rw [← header_cut r.blank]
    rw [fields]
    rfl
  have positive : walRecSize (i32 r.len) ≠ 0 := by
    rw [size]
    unfold WAL_REC_HEADER_SIZE
    omega
  unfold walRecEncode
  simp only [cutLen, behind, front]
  rw [if_neg, if_neg, ← same, blank]
  · have summed : (crc32c 0 ((r.blank.header ++ body).drop CRC_OFFSET)).toNat = out.crc := by
      rw [fields]
    have small : out.cut.crc = out.crc := by
      change out.crc % 256 ^ 4 = out.crc
      rw [← summed]
      exact Nat.mod_eq_of_lt (BitVec.isLt _)
    have zero : out.cut.pad = 0 := by
      have pad : out.pad = 0 := by rw [fields]
      change out.pad % 256 ^ 4 = 0
      rw [pad]
      rfl
    have again : { { out.cut with crc := 0, pad := 0 } with crc := out.crc } = out.cut := by
      rw [← small, ← zero]
    rw [summed, again, header_cut, ← shape']
  · omega
  · rintro ⟨more, nothing⟩
    have long : (body ++ back).length = 0 := by
      rw [nothing]
      rfl
    rw [List.length_append, same, List.length_append, taken] at long
    omega

end Msgsrvd

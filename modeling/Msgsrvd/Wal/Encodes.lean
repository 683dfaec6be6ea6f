/-
The record codec on the buffers it works in.

The encoder copies the header and the payload into the caller's buffer, zeroes the padding,
and sums what the buffer then holds.  What the buffer held before does not matter.
-/

import Msgsrvd.Wal.Codec

namespace Msgsrvd

open Bytestring

/-! ### The encoder on its buffer -/

/-- `mem_copy(buf + offset, src, ...)` -/
def memCopy (buf : Bytes) (offset : Nat) (src : Bytes) : Bytes :=
  buf.take offset ++ src ++ buf.drop (offset + src.length)

/-- `wal_rec_encode`: what it returns, and the buffer and the record after it. -/
def walRecEncodeBuf (buf : Bytes) (r : WalRec) (payload : Bytes) : Nat × Bytes × WalRec :=
  let len := i32 r.len
  if len > 0 ∧ payload = [] then (0, buf, r)
  else
    let total := walRecSize len
    if total = 0 ∨ buf.length < total then (0, buf, r)
    else
      let padded := total - WAL_REC_HEADER_SIZE
      let r := { r with crc := 0, pad := 0 }
      let buf := memCopy buf 0 r.header
      let buf := if len > 0 then memCopy buf WAL_REC_HEADER_SIZE (payload.take len.toNat) else buf
      let buf :=
        if padded > len.toNat then
          memCopy buf (WAL_REC_HEADER_SIZE + len.toNat) (List.replicate (padded - len.toNat) 0)
        else buf
      let r := { r with
        crc := (crc32c 0 (slice buf CRC_OFFSET (total - CRC_OFFSET))).toNat }
      (total, memCopy buf 0 (le 4 r.crc), r)

/-- A copy over a stretch of the same length. -/
theorem memCopy_middle {front middle back src : Bytes} {offset : Nat} (at_front : offset = front.length)
    (length : src.length = middle.length) :
    memCopy (front ++ middle ++ back) offset src = front ++ src ++ back := by
  unfold memCopy
  simp only [List.append_assoc]
  rw [at_front, length, List.take_left' rfl, ← List.drop_drop, List.drop_left' rfl,
    List.drop_left' rfl]

/-- The copy of a stretch, which may be left out when there is nothing to copy. -/
theorem memCopy_given {front middle back src : Bytes} {offset : Nat} {given : Prop} [Decidable given]
    (at_front : offset = front.length) (length : src.length = middle.length)
    (nothing : ¬ given → src = []) :
    (if given then memCopy (front ++ middle ++ back) offset src else front ++ middle ++ back) =
      front ++ src ++ back := by
  split
  · exact memCopy_middle at_front length
  · rename_i absent
    have empty := nothing absent
    have none' : middle = [] := by
      rw [empty] at length
      exact List.length_eq_zero_iff.mp length.symm
    rw [empty, none']

theorem walRecEncode_fits {bufLen : Nat} {r out : WalRec} {payload bytes : Bytes}
    (encoded : walRecEncode bufLen r payload = some (bytes, out)) :
    ¬ (i32 r.len > 0 ∧ payload = []) ∧
      ¬ (walRecSize (i32 r.len) = 0 ∨ bufLen < walRecSize (i32 r.len)) := by
  unfold walRecEncode at encoded
  simp only at encoded
  split at encoded
  · cases encoded
  · rename_i some'
    split at encoded
    · cases encoded
    · rename_i fits
      exact ⟨some', fits⟩

/-- Past its checksum a header is what it was before it. -/
theorem memCopy_crc (r : WalRec) (crc : Nat) (back : Bytes) :
    memCopy (r.blank.header ++ back) 0 (le 4 crc) =
      { r.blank with crc := crc }.header ++ back := by
  have copied := @memCopy_middle [] (le 4 0) (le 4 r.len ++ (le 8 r.term ++ (le 8 r.seq ++
    (le 8 r.session ++ (le 8 r.clientSeq ++ (le 2 r.recordType ++ (le 2 r.flags ++ (le 4 0 ++
      (le 8 r.partitionKey ++ back))))))))) (le 4 crc) 0 rfl (by rw [length_le, length_le])
  simp only [List.nil_append] at copied
  unfold WalRec.header WalRec.blank
  simp only [List.append_assoc]
  exact copied

/-- **The encoder leaves the record at the front of its buffer**, and the rest as it was. -/
theorem walRecEncodeBuf_encoded {buf payload bytes : Bytes} {r out : WalRec}
    (given : (i32 r.len).toNat ≤ payload.length)
    (encoded : walRecEncode buf.length r payload = some (bytes, out)) :
    walRecEncodeBuf buf r payload = (bytes.length, bytes ++ buf.drop bytes.length, out) := by
  have length := walRecEncode_length given encoded
  have shape := walRecEncode_body encoded
  obtain ⟨some', fits⟩ := walRecEncode_fits encoded
  obtain ⟨body, shape', size, fields⟩ := walRecEncode_shape given encoded
  have same : body = payload.take (i32 r.len).toNat ++
      List.replicate (walRecSize (i32 r.len) - WAL_REC_HEADER_SIZE - (i32 r.len).toNat) 0 :=
    List.append_cancel_left (shape'.symm.trans shape)
  have header := header_length r.blank
  have long : CRC_OFFSET ≤ walRecSize (i32 r.len) := by
    rw [size]
    exact Nat.le_trans (by decide) (Nat.le_add_right _ _)
  have filled : body.length = walRecSize (i32 r.len) - WAL_REC_HEADER_SIZE := by omega
  rw [same, List.length_append, List.length_take_of_le given, List.length_replicate] at filled
  -- the header, the payload and the padding are copied over what the buffer held
  have one : memCopy buf 0 r.blank.header = r.blank.header ++ buf.drop WAL_REC_HEADER_SIZE := by
    have whole := @memCopy_middle [] (buf.take WAL_REC_HEADER_SIZE) (buf.drop WAL_REC_HEADER_SIZE)
      r.blank.header 0 rfl (by rw [header, List.length_take]; omega)
    rw [List.nil_append, List.nil_append, List.take_append_drop] at whole
    exact whole
  have two : (if i32 r.len > 0 then memCopy (r.blank.header ++ buf.drop WAL_REC_HEADER_SIZE)
        WAL_REC_HEADER_SIZE (payload.take (i32 r.len).toNat)
      else r.blank.header ++ buf.drop WAL_REC_HEADER_SIZE) =
      r.blank.header ++ payload.take (i32 r.len).toNat ++
        buf.drop (WAL_REC_HEADER_SIZE + (i32 r.len).toNat) := by
    have whole := @memCopy_given r.blank.header
      ((buf.drop WAL_REC_HEADER_SIZE).take (i32 r.len).toNat)
      ((buf.drop WAL_REC_HEADER_SIZE).drop (i32 r.len).toNat) (payload.take (i32 r.len).toNat)
      WAL_REC_HEADER_SIZE (i32 r.len > 0) _ header.symm
      (by
        rw [List.length_take_of_le given, List.length_take_of_le]
        rw [List.length_drop]
        omega)
      (fun zero => by
        have none' : (i32 r.len).toNat = 0 := by omega
        rw [none', List.take_zero])
    rw [List.append_assoc, List.take_append_drop, List.drop_drop] at whole
    exact whole
  have three : (if walRecSize (i32 r.len) - WAL_REC_HEADER_SIZE > (i32 r.len).toNat then
        memCopy (r.blank.header ++ payload.take (i32 r.len).toNat ++
            buf.drop (WAL_REC_HEADER_SIZE + (i32 r.len).toNat))
          (WAL_REC_HEADER_SIZE + (i32 r.len).toNat)
          (List.replicate (walRecSize (i32 r.len) - WAL_REC_HEADER_SIZE - (i32 r.len).toNat) 0)
      else r.blank.header ++ payload.take (i32 r.len).toNat ++
        buf.drop (WAL_REC_HEADER_SIZE + (i32 r.len).toNat)) =
      r.blank.header ++ body ++ buf.drop (walRecSize (i32 r.len)) := by
    have whole := @memCopy_given (r.blank.header ++ payload.take (i32 r.len).toNat)
      ((buf.drop (WAL_REC_HEADER_SIZE + (i32 r.len).toNat)).take
        (walRecSize (i32 r.len) - WAL_REC_HEADER_SIZE - (i32 r.len).toNat))
      ((buf.drop (WAL_REC_HEADER_SIZE + (i32 r.len).toNat)).drop
        (walRecSize (i32 r.len) - WAL_REC_HEADER_SIZE - (i32 r.len).toNat))
      (List.replicate (walRecSize (i32 r.len) - WAL_REC_HEADER_SIZE - (i32 r.len).toNat) 0)
      (WAL_REC_HEADER_SIZE + (i32 r.len).toNat)
      (walRecSize (i32 r.len) - WAL_REC_HEADER_SIZE > (i32 r.len).toNat) _
      (by rw [List.length_append, header, List.length_take_of_le given])
      (by
        rw [List.length_replicate, List.length_take_of_le]
        rw [List.length_drop]
        omega)
      (fun none' => by
        have zero : walRecSize (i32 r.len) - WAL_REC_HEADER_SIZE - (i32 r.len).toNat = 0 := by omega
        rw [zero, List.replicate_zero])
    have total : WAL_REC_HEADER_SIZE + (i32 r.len).toNat +
        (walRecSize (i32 r.len) - WAL_REC_HEADER_SIZE - (i32 r.len).toNat) =
          walRecSize (i32 r.len) := by omega
    rw [List.append_assoc (r.blank.header ++ _), List.take_append_drop, List.drop_drop, total]
      at whole
    rw [same, ← List.append_assoc r.blank.header]
    exact whole
  have summed : slice (r.blank.header ++ body ++ buf.drop (walRecSize (i32 r.len))) CRC_OFFSET
      (walRecSize (i32 r.len) - CRC_OFFSET) = (r.blank.header ++ body).drop CRC_OFFSET := by
    rw [slice_append_left _ _ _ _ (by
      rw [List.length_append, header, ← size]
      omega)]
    unfold slice
    rw [List.take_of_length_le]
    rw [List.length_drop, List.length_append, header, ← size]
  unfold walRecEncodeBuf
  simp only
  rw [if_neg some', if_neg fits]
  rw [show ({ r with crc := 0, pad := 0 } : WalRec).header = r.blank.header from rfl, one, two, three,
    summed, List.append_assoc, memCopy_crc, ← List.append_assoc, length, shape', fields]
  rfl

/-- What it cannot encode it leaves alone. -/
theorem walRecEncodeBuf_refused {buf payload : Bytes} {r : WalRec}
    (refused : walRecEncode buf.length r payload = none) :
    walRecEncodeBuf buf r payload = (0, buf, r) := by
  unfold walRecEncode at refused
  unfold walRecEncodeBuf
  simp only at refused ⊢
  split at refused
  · rename_i missing
    rw [if_pos missing]
  · rename_i some'
    rw [if_neg some']
    split at refused
    · rename_i unfit
      rw [if_pos unfit]
    · cases refused

/-! ### The round trip -/

/-- Each field fits its width. -/
def WalRec.Fits (r : WalRec) : Prop := r.cut = r

/-- The length is one a record may have. -/
theorem i32_payload {len : Nat} (small : len ≤ WAL_MAX_PAYLOAD) : i32 len = len := by
  unfold WAL_MAX_PAYLOAD MSG_MAX_PAYLOAD at small
  unfold i32
  rw [Nat.mod_eq_of_lt (by omega), if_pos (by omega)]

/-- What a header and a payload become, and come back as. -/
structure RoundTrips (r : WalRec) (payload bytes : Bytes) (out : WalRec) : Prop where
  size : bytes.length = walRecSize (i32 r.len)
  writes : ∀ buf : Bytes, bytes.length ≤ buf.length →
    walRecEncodeBuf buf r payload = (bytes.length, bytes ++ buf.drop bytes.length, out)
  same : ∀ (r' : WalRec) (buf : Bytes), r'.blank = r.blank → bytes.length ≤ buf.length →
    walRecEncodeBuf buf r' payload = (bytes.length, bytes ++ buf.drop bytes.length, out)
  fields : out = { r with crc := out.crc, pad := 0 }
  reads : ∀ rest, walRecDecode (bytes ++ rest) = some out
  verified : ∀ rest, walRecVerify (bytes ++ rest) out = true
  carried : slice bytes WAL_REC_HEADER_SIZE r.len = payload
  again : ∀ buf : Bytes, bytes.length ≤ buf.length →
    walRecEncodeBuf buf out payload = (bytes.length, bytes ++ buf.drop bytes.length, out)

/-- The encoder clears the checksum and the pad before it looks at them. -/
theorem walRecEncode_blank (bufLen : Nat) (r : WalRec) (payload : Bytes) :
    walRecEncode bufLen r.blank payload = walRecEncode bufLen r payload := rfl

theorem walRecEncode_enough {bufLen bufLen' : Nat} {r : WalRec} {payload : Bytes}
    (enough : walRecSize (i32 r.len) ≤ bufLen) (enough' : walRecSize (i32 r.len) ≤ bufLen') :
    walRecEncode bufLen' r payload = walRecEncode bufLen r payload := by
  have iff : (walRecSize (i32 r.len) = 0 ∨ bufLen' < walRecSize (i32 r.len)) ↔
      (walRecSize (i32 r.len) = 0 ∨ bufLen < walRecSize (i32 r.len)) := by omega
  unfold walRecEncode
  simp only [iff]

/-- A length no record may have, also one that is negative as `int32_t`. -/
theorem walRecSize_outside {len : Nat} (word : len < 2 ^ 32) (big : WAL_MAX_PAYLOAD < len) :
    walRecSize (i32 len) = 0 := by
  unfold walRecSize
  apply if_pos
  unfold i32
  rw [Nat.mod_eq_of_lt word]
  split
  · right
    omega
  · left
    omega

theorem walRecEncode_none {bufLen : Nat} {r : WalRec} (payload : Bytes)
    (unfit : walRecSize (i32 r.len) = 0 ∨ bufLen < walRecSize (i32 r.len)) :
    walRecEncode bufLen r payload = none := by
  unfold walRecEncode
  simp only
  rw [if_pos unfit]
  split <;> rfl

theorem walRecEncode_some {bufLen : Nat} {r : WalRec} {payload : Bytes}
    (given : payload.length = r.len) (small : r.len ≤ WAL_MAX_PAYLOAD)
    (room : walRecSize (i32 r.len) ≤ bufLen) :
    ∃ bytes out, walRecEncode bufLen r payload = some (bytes, out) := by
  have len := i32_payload small
  have some' : ¬ (i32 r.len > 0 ∧ payload = []) := by
    rintro ⟨positive, nothing⟩
    rw [nothing, List.length_nil] at given
    omega
  have sized : walRecSize (i32 r.len) ≠ 0 := by
    rw [len]
    unfold walRecSize WAL_REC_HEADER_SIZE
    rw [if_neg (by omega)]
    omega
  unfold walRecEncode
  simp only
  rw [if_neg some', if_neg (by omega)]
  exact ⟨_, _, rfl⟩

/-- **The record codec round trip**, for every header, payload and buffer. -/
theorem walRec_roundTrip (r : WalRec) (payload : Bytes) (fits : r.Fits)
    (given : payload.length = r.len) :
    (r.len ≤ WAL_MAX_PAYLOAD → ∃ bytes out, RoundTrips r payload bytes out) ∧
      ∀ buf : Bytes, WAL_MAX_PAYLOAD < r.len ∨ buf.length < walRecSize (i32 r.len) →
        (walRecEncodeBuf buf r payload).1 = 0 ∧ walRecVerify buf r = false := by
  constructor
  · intro small
    have long : (i32 r.len).toNat ≤ payload.length := by
      rw [i32_payload small, given]
      exact Nat.le_refl _
    obtain ⟨bytes, out, encoded⟩ := walRecEncode_some given small (Nat.le_refl _)
    have size := walRecEncode_length long encoded
    obtain ⟨decoded, own, verified, _seq, _len⟩ := walRecEncode_reads long encoded
    obtain ⟨body, shape, _size, fields⟩ := walRecEncode_shape long encoded
    have cut : out.cut = out := by
      have crc := Nat.mod_eq_of_lt
        (crc32c 0 ((r.blank.header ++ body).drop CRC_OFFSET)).isLt
      have whole (crc : Nat) : ({ r with crc := crc, pad := 0 } : WalRec).cut =
          { r.cut with crc := crc % 2 ^ 32, pad := 0 } := rfl
      rw [fields, whole, crc, fits]
    rw [cut] at decoded own verified
    have writes (r' : WalRec) (buf : Bytes) (same : r'.blank = r.blank)
        (room : bytes.length ≤ buf.length) : walRecEncodeBuf buf r' payload =
          (bytes.length, bytes ++ buf.drop bytes.length, out) := by
      have len : r'.len = r.len := show r'.blank.len = r.blank.len from congrArg WalRec.len same
      apply walRecEncodeBuf_encoded
      · rw [len]
        exact long
      · rw [← encoded, ← walRecEncode_blank, same, walRecEncode_blank]
        exact walRecEncode_enough (Nat.le_refl _) (size ▸ room)
    refine ⟨bytes, out, size, fun buf => writes r buf rfl, writes, ?_, ?_, ?_, ?_, ?_⟩
    · rw [fields]
    · intro rest
      rw [walRecDecode_append _ _ ?_]
      · exact decoded
      · rw [shape, List.length_append, header_length]
        exact Nat.le_add_right _ _
    · intro rest
      have whole := walRecVerify_take (bytes ++ rest) out bytes.length (Nat.le_of_eq own)
      rw [List.take_left' rfl, verified] at whole
      exact whole.symm
    · rw [walRecEncode_body encoded, i32_payload small, Int.toNat_natCast, ← given,
        List.take_length]
      exact slice_field _ _ _ _ _ (header_length out).symm rfl
    · intro buf
      apply writes
      rw [fields]
      rfl
  · intro buf outside
    have unfit : walRecSize (i32 r.len) = 0 ∨ buf.length < walRecSize (i32 r.len) := by
      have word : r.len % 256 ^ 4 = r.len := show r.cut.len = r.len from congrArg WalRec.len fits
      exact outside.imp_left (walRecSize_outside (word ▸ Nat.mod_lt _ (by decide)))
    rw [walRecEncodeBuf_refused (walRecEncode_none payload unfit)]
    refine ⟨rfl, ?_⟩
    unfold walRecVerify
    simp only
    rw [if_pos unfit]

/-- A header with a length, and three bytes of payload. -/
theorem walRec_roundTrip_three : ∃ bytes out,
    RoundTrips ⟨7, 3, 0, 1, 2, 3, 0, 0, 9, 0⟩ [1, 2, 3] bytes out :=
  (walRec_roundTrip ⟨7, 3, 0, 1, 2, 3, 0, 0, 9, 0⟩ [1, 2, 3] (by unfold WalRec.Fits; decide) rfl).1
    (by decide)

end Msgsrvd

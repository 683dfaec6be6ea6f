/-
Damage to a record that its checksum catches.

The register divides by a polynomial whose constant term is not zero, so that two messages
of one length that differ in a window no wider than the register never sum to the same.
-/

import Msgsrvd.Core.Checksum
import Msgsrvd.Wal.Codec

namespace Msgsrvd

open Bytestring

theorem crc32cPoly_top : crc32cPoly.msb = true := by decide

/-- Up to four bytes take the register to different states. -/
theorem feed_burst (c : BitVec 32) {burst burst' : Bytes} (window : burst.length ≤ 4)
    (length : burst'.length = burst.length)
    (same : Crc.feedAll crc32cPoly c (bitsOf burst') = Crc.feedAll crc32cPoly c (bitsOf burst)) :
    burst' = burst := by
  have folded := @crcBits_feed 32 (Nat.le_refl _) c burst (by omega)
  have folded' := @crcBits_feed 32 (Nat.le_refl _) c burst' (by omega)
  rw [same, ← folded, length, crcBits_steps, crcBits_steps] at folded'
  have top : (crc32cPoly.setWidth 32).msb = true := by
    rw [BitVec.setWidth_eq]
    exact crc32cPoly_top
  have words := (BitVec.xor_left_inj _).mp (Crc.steps_injective top _ folded')
  have small (bytes : Bytes) (short : bytes.length ≤ 4) : ofLe bytes < 2 ^ 32 :=
    Nat.lt_of_lt_of_le (ofLe_lt bytes) (Nat.pow_le_pow_right (by decide) short)
  have value : ofLe burst' = ofLe burst := by
    have read := congrArg BitVec.toNat words
    rw [BitVec.toNat_ofNat, BitVec.toNat_ofNat, Nat.mod_eq_of_lt (small burst' (by omega)),
      Nat.mod_eq_of_lt (small burst window)] at read
    exact read
  rw [← le_ofLe burst', ← le_ofLe burst, value, length]

/-- A window of up to four bytes that differs is in the sum. -/
theorem crc32c_burst (crc : BitVec 32) {front burst burst' back : Bytes} (window : burst.length ≤ 4)
    (length : burst'.length = burst.length) (differs : burst' ≠ burst) :
    crc32c crc (front ++ burst' ++ back) ≠ crc32c crc (front ++ burst ++ back) := by
  intro same
  rw [crc32c_feed, crc32c_feed] at same
  have states := BitVec.not_inj.mp same
  simp only [bitsOf_append, Crc.feedAll_append] at states
  exact differs (feed_burst _ window length (Crc.feedAll_injective crc32cPoly_top states))

/-- The first two fields of a header are read from its first eight bytes. -/
theorem walRecDecode_front {front rest rest' : Bytes} {r r' : WalRec} (long : 8 ≤ front.length)
    (decoded : walRecDecode (front ++ rest) = some r)
    (decoded' : walRecDecode (front ++ rest') = some r') : r'.crc = r.crc ∧ r'.len = r.len := by
  unfold walRecDecode at decoded decoded'
  split at decoded
  · cases decoded
  · split at decoded'
    · cases decoded'
    · cases decoded
      cases decoded'
      simp only
      rw [slice_append_left _ _ _ _ (by omega), slice_append_left _ _ _ _ (by omega),
        slice_append_left _ _ _ _ (by omega), slice_append_left _ _ _ _ (by omega)]
      exact ⟨rfl, rfl⟩

/-- **A record with a window of four bytes changed, behind its checksum and length, is refused**,
whatever follows it. -/
theorem walRecVerify_flipped {bufLen : Nat} {r out d : WalRec} {payload bytes : Bytes}
    {front burst burst' back behind : Bytes} (given : (i32 r.len).toNat ≤ payload.length)
    (encoded : walRecEncode bufLen r payload = some (bytes, out))
    (shape : front ++ burst ++ back = bytes) (from' : 8 ≤ front.length) (window : burst.length ≤ 4)
    (length : burst'.length = burst.length) (differs : burst' ≠ burst)
    (decoded : walRecDecode (front ++ burst' ++ back) = some d) :
    walRecVerify (front ++ burst' ++ back ++ behind) d = false := by
  obtain ⟨read, size, verified, _seq, _len⟩ := walRecEncode_reads given encoded
  rw [← shape, List.append_assoc] at read
  rw [List.append_assoc] at decoded
  obtain ⟨crc, len⟩ := walRecDecode_front from' read decoded
  have total : (front ++ burst' ++ back).length = bytes.length := by
    rw [← shape]
    simp only [List.length_append, length]
  have dropped (middle : Bytes) : slice (front ++ middle ++ back) CRC_OFFSET
      ((front ++ middle ++ back).length - CRC_OFFSET) = front.drop 4 ++ middle ++ back := by
    unfold slice CRC_OFFSET
    rw [List.append_assoc, List.append_assoc, List.drop_append_of_le_length (by omega),
      List.take_of_length_le]
    simp only [List.length_append, List.length_drop]
    omega
  have sized : walRecSize (i32 out.cut.len) ≠ 0 := by
    intro zero
    rw [size, ← shape] at zero
    simp only [List.length_append] at zero
    omega
  have own := walRecVerify_take (front ++ burst' ++ back ++ behind) d bytes.length
    (by rw [len, size])
  rw [← total, List.take_left' rfl] at own
  rw [← own]
  unfold walRecVerify at verified ⊢
  simp only [len, crc, size] at verified ⊢
  rw [size] at sized
  rw [if_neg (by omega), beq_iff_eq] at verified
  rw [if_neg (by omega), beq_eq_false_iff_ne, ← verified]
  have summed : slice bytes CRC_OFFSET (bytes.length - CRC_OFFSET) =
      front.drop 4 ++ burst ++ back := by
    rw [← shape]
    exact dropped burst
  have summed' : slice (front ++ burst' ++ back) CRC_OFFSET (bytes.length - CRC_OFFSET) =
      front.drop 4 ++ burst' ++ back := by
    rw [← total]
    exact dropped burst'
  rw [summed, summed']
  intro equal
  exact crc32c_burst 0 window length differs (BitVec.eq_of_toNat_eq equal)

/-- A record without a payload. -/
def bareRec : WalRec := ⟨0, 0, 0, 1, 0, 0, 0, 0, 0, 0⟩

def bareRecord : Bytes :=
  ((walRecEncode WAL_REC_HEADER_SIZE bareRec []).map Prod.fst).getD []

/-- The last bit of it is flipped. -/
theorem walRecVerify_flipped_bare :
    walRecVerify (bareRecord.take 55 ++ [128]) { bareRec with
      crc := ofLe (bareRecord.take 4), partitionKey := 2 ^ 63 } = false := by
  have encoded : walRecEncode WAL_REC_HEADER_SIZE bareRec [] =
      some (bareRecord, { bareRec with crc := ofLe (bareRecord.take 4) }) := by decide +kernel
  have flipped := @walRecVerify_flipped _ _ _ { bareRec with
      crc := ofLe (bareRecord.take 4), partitionKey := 2 ^ 63 } [] bareRecord (bareRecord.take 55) [0]
    [128] [] [] (by decide) encoded (by decide +kernel) (by decide +kernel) (by decide) rfl
    (by decide) (by decide +kernel)
  rw [List.append_nil, List.append_nil] at flipped
  exact flipped

end Msgsrvd

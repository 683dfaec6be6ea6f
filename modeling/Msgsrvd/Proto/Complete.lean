/-
The stand-alone test for a whole frame, beside the framing layer.

The test checks the magic alone, and it adds the length as a signed word.
-/

import Msgsrvd.Proto.Conn

namespace Msgsrvd

open Bytestring

def msgDecodeHeader (buf : Bytes) : Option MsgHeader :=
  if buf.length < MSG_HEADER_SIZE then none
  else
    let hdr := msgHeaderAt buf
    if hdr.magic ≠ MSG_MAGIC then none else some hdr

def msgHeaderValid (hdr : MsgHeader) : Bool :=
  if hdr.magic ≠ MSG_MAGIC then false
  else if hdr.version < MSG_VERSION_MIN ∨ hdr.version > MSG_VERSION then false
  else if hdr.op < MSG_OP_MIN ∨ hdr.op > MSG_OP_MAX then false
  else if hdr.payloadLen > MSG_MAX_PAYLOAD then false
  else true

/-- The total message size, or 0 if incomplete or invalid. -/
def msgCompleteSize (buf : Bytes) : Int :=
  match msgDecodeHeader buf with
  | none => 0
  | some hdr =>
      let total := (MSG_HEADER_SIZE + i32 hdr.payloadLen).bmod (2 ^ 32)
      if total > buf.length then 0 else total

/-! ### The length as a word -/

/-- The length of the frame that a header announces. -/
def MsgHeader.size (hdr : MsgHeader) : Nat := MSG_HEADER_SIZE + hdr.payloadLen

/-- The sum stays a positive word, or it wraps to 0. -/
def MsgHeader.SizeFits (hdr : MsgHeader) : Prop := hdr.size < 2 ^ 31 ∨ hdr.size = 2 ^ 32

theorem msgHeaderAt_payloadLen (buf : Bytes) : (msgHeaderAt buf).payloadLen < 2 ^ 32 := by
  have below := ofLe_lt (slice buf 12 4)
  rw [length_slice] at below
  have width : 256 ^ min 4 (buf.length - 12) ≤ 256 ^ 4 :=
    Nat.pow_le_pow_right (by decide) (Nat.min_le_left _ _)
  exact Nat.lt_of_lt_of_le below width

theorem header_size_word {payloadLen : Nat} (word : payloadLen < 2 ^ 32) :
    (MSG_HEADER_SIZE + i32 payloadLen).bmod (2 ^ 32) =
      if MSG_HEADER_SIZE + payloadLen < 2 ^ 31 then ((MSG_HEADER_SIZE + payloadLen : Nat) : Int)
      else (MSG_HEADER_SIZE + payloadLen : Nat) - 2 ^ 32 := by
  have header : MSG_HEADER_SIZE = 32 := rfl
  unfold i32
  rw [Nat.mod_eq_of_lt word, header, Int.bmod_def]
  split <;> split <;> split <;> omega

theorem msgDecodeHeader_some {buf : Bytes} {hdr : MsgHeader} :
    msgDecodeHeader buf = some hdr ↔
      MSG_HEADER_SIZE ≤ buf.length ∧ (msgHeaderAt buf).magic = MSG_MAGIC ∧
        msgHeaderAt buf = hdr := by
  unfold msgDecodeHeader
  simp only [Option.ite_none_left_eq_some, Option.some.injEq, not_lt, ne_eq, not_not]

/-! ### The test -/

/-- The buffer starts with a header of the right magic, and all its bytes are there. -/
def WholeFrame (buf : Bytes) : Prop :=
  ∃ hdr, msgDecodeHeader buf = some hdr ∧ hdr.size ≤ buf.length

theorem msgCompleteSize_none {buf : Bytes} (invalid : msgDecodeHeader buf = none) :
    msgCompleteSize buf = 0 := by
  unfold msgCompleteSize
  rw [invalid]

theorem msgCompleteSize_some {buf : Bytes} {hdr : MsgHeader}
    (decodes : msgDecodeHeader buf = some hdr) :
    msgCompleteSize buf =
      if hdr.size < 2 ^ 31 then if hdr.size ≤ buf.length then (hdr.size : Int) else 0
      else hdr.size - 2 ^ 32 := by
  obtain ⟨long, -, same⟩ := msgDecodeHeader_some.mp decodes
  have word := header_size_word (msgHeaderAt_payloadLen buf)
  rw [same] at word
  have payloadLen := msgHeaderAt_payloadLen buf
  rw [same] at payloadLen
  have header : MSG_HEADER_SIZE = 32 := rfl
  unfold msgCompleteSize
  rw [decodes]
  simp only
  rw [word]
  unfold MsgHeader.size
  by_cases small : MSG_HEADER_SIZE + hdr.payloadLen < 2 ^ 31
  · rw [if_pos small, if_pos small]
    by_cases whole : MSG_HEADER_SIZE + hdr.payloadLen ≤ buf.length
    · rw [if_neg (by omega), if_pos whole]
    · rw [if_pos (by omega), if_neg whole]
  · rw [if_neg small, if_neg small, if_neg (by omega)]

/-! ### The framing layer -/

theorem msgHeaderValid_iff {hdr : MsgHeader} :
    msgHeaderValid hdr = true ↔ ¬ hdr.magic ≠ MSG_MAGIC ∧
      ¬ (hdr.version < MSG_VERSION_MIN ∨ hdr.version > MSG_VERSION) ∧
      ¬ (hdr.op < MSG_OP_MIN ∨ hdr.op > MSG_OP_MAX) ∧ ¬ hdr.payloadLen > MSG_MAX_PAYLOAD := by
  unfold msgHeaderValid
  simp only [Bool.if_false_left, Bool.and_true, Bool.and_eq_true, Bool.not_eq_true',
    decide_eq_false_iff_not]

theorem msgHeaderValid_fault {hdr : MsgHeader} (valid : msgHeaderValid hdr = true)
    {bufCap : Nat} (room : hdr.size ≤ bufCap) (opened : Bool) :
    headerFault bufCap .internal opened hdr = none := by
  have header : MSG_HEADER_SIZE = 32 := rfl
  unfold MsgHeader.size at room
  obtain ⟨magic, version, op, len⟩ := msgHeaderValid_iff.mp valid
  unfold headerFault
  rw [if_neg magic, if_neg version, if_neg op, if_neg (by omega), if_neg]
  rintro ⟨client, -⟩
  cases client

/-- An internal connection whose next bytes are these emits their first frame exactly where
all of it is there. -/
theorem connFeed_first {c : Conn} {hdr : MsgHeader} {outCap : Nat} (unclosed : c.closed = false)
    (internal : c.mode = .internal) (decodes : msgDecodeHeader (c.buf.drop c.bufOff) = some hdr)
    (valid : msgHeaderValid hdr = true) (room : hdr.size ≤ c.bufCap) (out : 0 < outCap) :
    (∃ rest, (connFeed c outCap).1 = .frame hdr (c.bufOff + MSG_HEADER_SIZE) :: rest) ↔
      hdr.size ≤ (c.buf.drop c.bufOff).length := by
  obtain ⟨long, -, same⟩ := msgDecodeHeader_some.mp decodes
  obtain ⟨more, rfl⟩ : ∃ more, outCap = more + 1 := ⟨outCap - 1, by omega⟩
  rw [List.length_drop] at long ⊢
  unfold connFeed
  rw [unclosed, if_neg (by simp), connFeedFrom, if_neg (by omega)]
  simp only
  rw [internal, same, msgHeaderValid_fault valid room]
  simp only
  unfold MsgHeader.size
  by_cases cut : c.buf.length - c.bufOff < MSG_HEADER_SIZE + hdr.payloadLen
  · rw [if_pos cut]
    constructor
    · rintro ⟨rest, first⟩
      cases first
    · omega
  · rw [if_neg cut]
    exact ⟨fun _ => by omega, fun _ => ⟨_, rfl⟩⟩

/-! ### Agreement -/

/-- What the test says of a buffer, and that the framing layer says the same. -/
structure CompleteAgrees (buf : Bytes) : Prop where
  finds : 0 < msgCompleteSize buf ↔ WholeFrame buf
  length : 0 < msgCompleteSize buf → ∃ hdr, msgDecodeHeader buf = some hdr ∧
    msgCompleteSize buf = hdr.size
  nonneg : 0 ≤ msgCompleteSize buf
  header : 0 < msgCompleteSize buf → MSG_HEADER_SIZE ≤ msgCompleteSize buf
  feeds : ∀ hdr, msgDecodeHeader buf = some hdr → msgHeaderValid hdr = true →
    ∀ (c : Conn) (outCap : Nat), c.closed = false → c.mode = .internal →
      c.buf.drop c.bufOff = buf → hdr.size ≤ c.bufCap → 0 < outCap →
      (0 < msgCompleteSize buf ↔ ∃ rest,
        (connFeed c outCap).1 = .frame hdr (c.bufOff + MSG_HEADER_SIZE) :: rest ∧
          msgCompleteSize buf = hdr.size)

/--
**The stand-alone test finds a whole frame, and its length, exactly where no header of the
right magic announces a length that wraps to anything but 0; and on a valid header it agrees
with the framing layer.**
-/
theorem msgCompleteSize_agrees {buf : Bytes} (sized : buf.length < 2 ^ 31) :
    CompleteAgrees buf ↔ ∀ hdr, msgDecodeHeader buf = some hdr → hdr.SizeFits := by
  have header : MSG_HEADER_SIZE = 32 := rfl
  constructor
  · intro agrees hdr decodes
    have size := msgCompleteSize_some decodes
    have nonneg := agrees.nonneg
    have least := agrees.header
    have payloadLen := msgHeaderAt_payloadLen buf
    rw [(msgDecodeHeader_some.mp decodes).2.2] at payloadLen
    unfold MsgHeader.SizeFits
    by_contra wraps
    obtain ⟨large, other⟩ := not_or.mp wraps
    rw [if_neg large] at size
    unfold MsgHeader.size at size other
    omega
  · intro fits
    cases decodes : msgDecodeHeader buf with
    | none =>
        have size := msgCompleteSize_none decodes
        refine ⟨?_, ?_, ?_, ?_, ?_⟩
        · rw [size]
          refine ⟨fun some' => absurd some' (by decide), ?_⟩
          rintro ⟨hdr, found, -⟩
          rw [decodes] at found
          cases found
        · intro some'
          omega
        · omega
        · intro some'
          omega
        · intro hdr found
          rw [decodes] at found
          cases found
    | some hdr =>
        have size := msgCompleteSize_some decodes
        have whole : WholeFrame buf ↔ hdr.size ≤ buf.length := by
          unfold WholeFrame
          rw [decodes]
          simp only [Option.some.injEq, exists_eq_left']
        have positive : 0 < hdr.size := by
          unfold MsgHeader.size
          omega
        have finds : 0 < msgCompleteSize buf ↔ hdr.size ≤ buf.length := by
          rcases fits hdr decodes with small | wrapped
          · rw [size, if_pos small]
            split <;> omega
          · rw [size, if_neg (by omega)]
            omega
        have length : 0 < msgCompleteSize buf → msgCompleteSize buf = hdr.size := by
          intro found
          have within := finds.mp found
          rw [size, if_pos (by omega), if_pos within]
        refine ⟨finds.trans whole.symm, fun found => ⟨hdr, decodes, length found⟩, ?_, ?_, ?_⟩
        · by_cases found : 0 < msgCompleteSize buf
          · omega
          · rcases fits hdr decodes with small | wrapped
            · rw [if_pos small] at size
              split at size <;> omega
            · rw [if_neg (by omega)] at size
              omega
        · intro found
          rw [length found]
          unfold MsgHeader.size
          omega
        · intro hdr' same valid c outCap unclosed internal front room out
          rw [decodes, Option.some.injEq] at same
          rw [← same] at valid room ⊢
          rw [← front] at decodes
          have first := connFeed_first unclosed internal decodes valid room out
          rw [front] at first
          constructor
          · intro found
            obtain ⟨rest, emitted⟩ := first.mpr (finds.mp found)
            exact ⟨rest, emitted, length found⟩
          · rintro ⟨rest, emitted, -⟩
            exact finds.mpr (first.mp ⟨rest, emitted⟩)

/-- A header alone, whose length is the largest word, is taken for a message of 31 bytes. -/
theorem msgCompleteSize_wrapped :
    ¬ CompleteAgrees (msgEncodeHeader { msgHeaderNew MSG_OP_PING 0 0 0 0 0 with
      payloadLen := 0xFFFFFFFF }) := by
  intro agrees
  exact absurd (agrees.header (by decide +kernel)) (by decide +kernel)

theorem msgCompleteSize_agrees_ping :
    CompleteAgrees (msgEncodeHeader (msgHeaderNew MSG_OP_PING 0 0 0 0 0)) := by
  refine (msgCompleteSize_agrees (by decide +kernel)).mpr fun hdr decodes => Or.inl ?_
  rw [← (msgDecodeHeader_some.mp decodes).2.2]
  decide +kernel

end Msgsrvd

/-
The loops around pread and pwrite.

The kernel may move a part of what it is asked to, and the loop asks for the rest.  What
comes of that is what one call of the model does, and the model's calls do nothing else.
-/

import Msgsrvd.Sys.Os

namespace Msgsrvd

open Bytestring

/-! ### One system call after another -/

/-- An answer of the kernel: an errno, or how many bytes it is ready to move. -/
inductive Transfer where
  | failed (errno : Nat)
  | moved (count : Nat)
  deriving DecidableEq, Repr

/-- The loop of `os_pwrite_full`, with `done` bytes behind it.  Past the last answer the
kernel takes all it is given. -/
def pwriteFullFrom (buf : Bytes) (offset : Nat) :
    List Transfer → Nat → Bytes → Except Err Unit × Bytes
  | [], done, content =>
      if done < buf.length then (.ok (), overwrite content (offset + done) (buf.drop done))
      else (.ok (), content)
  | answer :: rest, done, content =>
      if done < buf.length then
        match answer with
        | .failed errno => (.error ⟨.syscall, errno⟩, content)
        | .moved count =>
            let piece := (buf.drop done).take count
            if piece = [] then (.error ⟨.storage, 0⟩, content)
            else
              pwriteFullFrom buf offset rest (done + piece.length)
                (overwrite content (offset + done) piece)
      else (.ok (), content)

/-- `os_pwrite_full`, call by call. -/
def pwriteFull (disk : Disk) (fd : Nat) (buf : Bytes) (offset : Nat) (answers : List Transfer) :
    Except Err Unit × Disk :=
  match pwriteFullFrom buf offset answers 0 (disk.file fd).vol with
  | (res, content) => (res, disk.setFile fd { disk.file fd with vol := content })

/-- The loop of `os_pread_full`.  A read moves nothing only at the end of the file, and
past the last answer it moves all that is there. -/
def preadFullFrom (content : Bytes) (count offset : Nat) : List Transfer → Bytes → Except Err Bytes
  | [], buf => .ok (buf ++ slice content (offset + buf.length) (count - buf.length))
  | answer :: rest, buf =>
      if buf.length < count then
        match answer with
        | .failed errno => .error ⟨.syscall, errno⟩
        | .moved ready =>
            let piece :=
              (slice content (offset + buf.length) (count - buf.length)).take (max 1 ready)
            if piece = [] then .ok buf
            else preadFullFrom content count offset rest (buf ++ piece)
      else .ok buf

/-- `os_pread_full`, call by call. -/
def preadFull (disk : Disk) (fd count offset : Nat) (answers : List Transfer) : Except Err Bytes :=
  preadFullFrom (disk.file fd).vol count offset answers []

/-! ### Pieces put together -/

variable {content buf piece : Bytes} {offset count : Nat}

theorem overwrite_nothing (inside : offset ≤ content.length) :
    overwrite content offset [] = content := by
  have hole : offset - content.length = 0 := Nat.sub_eq_zero_of_le inside
  unfold overwrite
  rw [hole, List.length_nil, Nat.add_zero, List.append_nil]
  change content.take offset ++ [] ++ content.drop offset = content
  rw [List.append_nil, List.take_append_drop]

/-- A write that goes on where one has ended is one write of both. -/
theorem overwrite_append (content first second : Bytes) (offset : Nat) :
    overwrite (overwrite content offset first) (offset + first.length) second =
      overwrite content offset (first ++ second) := by
  have front : (content.take offset ++ zeros (offset - content.length)).length = offset := by
    rw [List.length_append, List.length_take]
    unfold zeros
    rw [List.length_replicate]
    omega
  have before : (content.take offset ++ zeros (offset - content.length) ++ first).length =
      offset + first.length := by
    rw [List.length_append, front]
  have hole : offset + first.length - (overwrite content offset first).length = 0 := by
    unfold overwrite
    rw [List.length_append, before]
    omega
  unfold overwrite at hole ⊢
  rw [hole, List.take_left' before, List.drop_append, before, List.length_append]
  have passed : (content.take offset ++ zeros (offset - content.length) ++ first).drop
      (offset + first.length + second.length) = [] := by
    apply List.drop_eq_nil_of_le
    omega
  have left : offset + first.length + second.length - (offset + first.length) =
      second.length := by omega
  rw [passed, left, List.drop_drop]
  change _ ++ [] ++ second ++ ([] ++ _) = _
  rw [List.append_nil, List.nil_append, List.append_assoc _ first second, Nat.add_assoc]

/-- The loop writes a prefix of what it was given, and all of it exactly where it succeeds. -/
theorem pwriteFullFrom_writes (answers : List Transfer) (done : Nat) (behind : done ≤ buf.length) : ∃ moved ≤ buf.length,
      (pwriteFullFrom buf offset answers done (overwrite content offset (buf.take done))).2 =
        overwrite content offset (buf.take moved) ∧
      ((pwriteFullFrom buf offset answers done
        (overwrite content offset (buf.take done))).1.isOk = true ↔ moved = buf.length) := by
  have length : (buf.take done).length = done := by
    rw [List.length_take]
    omega
  have whole (finished : ¬ done < buf.length) : buf.take done = buf.take buf.length := by
    rw [Nat.le_antisymm behind (Nat.not_lt.mp finished)]
  induction answers generalizing done with
  | nil =>
      unfold pwriteFullFrom
      refine ⟨buf.length, Nat.le_refl _, ?_⟩
      by_cases more : done < buf.length
      · rw [if_pos more]
        refine ⟨?_, fun _ => rfl, fun _ => rfl⟩
        have joined := overwrite_append content (buf.take done) (buf.drop done) offset
        rw [length, List.take_append_drop] at joined
        rw [List.take_length]
        exact joined
      · rw [if_neg more]
        exact ⟨by rw [whole more], fun _ => rfl, fun _ => rfl⟩
  | cons answer rest ih =>
      unfold pwriteFullFrom
      by_cases more : done < buf.length
      · rw [if_pos more]
        have short : ¬ done = buf.length := by omega
        cases answer with
        | failed errno => exact ⟨done, behind, rfl, fun ok => (by cases ok), fun all => absurd all short⟩
        | moved count =>
            simp only
            by_cases nothing : (buf.drop done).take count = []
            · rw [if_pos nothing]
              exact ⟨done, behind, rfl, fun ok => (by cases ok), fun all => absurd all short⟩
            · rw [if_neg nothing]
              have size : ((buf.drop done).take count).length = min count (buf.length - done) := by
                rw [List.length_take, List.length_drop]
              have joined := overwrite_append content (buf.take done)
                ((buf.drop done).take count) offset
              have next : buf.take done ++ (buf.drop done).take count =
                  buf.take (done + ((buf.drop done).take count).length) := by
                rw [List.take_add, size]
                congr 1
                rw [← List.length_drop, ← List.take_take, List.take_length]
              rw [length, next] at joined
              rw [joined]
              refine ih _ (by omega) ?_ ?_
              · rw [List.length_take]
                omega
              · intro finished
                rw [Nat.le_antisymm (by omega) (Nat.not_lt.mp finished)]
      · rw [if_neg more]
        exact ⟨buf.length, Nat.le_refl _, by rw [whole more], fun _ => rfl, fun _ => rfl⟩

/-- The loop reads what one read would have, up to the end of the file, or the kernel fails. -/
theorem preadFullFrom_reads (answers : List Transfer) (got : Bytes)
    (front : got = (content.drop offset).take got.length) (within : got.length ≤ count) :
    preadFullFrom content count offset answers got = .ok (slice content offset count) ∨
      ∃ errno : Nat, preadFullFrom content count offset answers got =
        .error ⟨.syscall, errno⟩ := by
  have joined (width : Nat) : got ++ slice content (offset + got.length) width =
      (content.drop offset).take (got.length + width) := by
    unfold slice
    rw [← List.drop_drop, List.take_add, ← front]
  induction answers generalizing got with
  | nil =>
      left
      unfold preadFullFrom
      rw [joined, Nat.add_sub_cancel' within]
      rfl
  | cons answer rest ih =>
      unfold preadFullFrom
      by_cases more : got.length < count
      · rw [if_pos more]
        cases answer with
        | failed errno => exact .inr ⟨errno, rfl⟩
        | moved ready =>
            simp only
            generalize pieced : (slice content (offset + got.length) (count - got.length)).take
              (max 1 ready) = piece
            by_cases nothing : piece = []
            · rw [if_pos nothing]
              left
              -- Nothing is left where a read of at least one byte moves none.
              have ended : slice content (offset + got.length) (count - got.length) = [] := by
                rw [nothing] at pieced
                rcases List.take_eq_nil_iff.mp pieced with never | ended
                · omega
                · exact ended
              have whole := joined (count - got.length)
              rw [ended, List.append_nil, Nat.add_sub_cancel' within] at whole
              exact congrArg Except.ok whole
            · rw [if_neg nothing]
              have short : piece.length ≤ count - got.length := by
                rw [← pieced, List.length_take]
                unfold slice
                rw [List.length_take]
                omega
              have further : got ++ piece =
                  (content.drop offset).take (got ++ piece).length := by
                have longer := joined (count - got.length)
                have prefixed : got ++ piece <+:
                    got ++ slice content (offset + got.length) (count - got.length) := by
                  rw [← pieced]
                  exact (List.prefix_append_right_inj got).mpr (List.take_prefix _ _)
                rw [longer] at prefixed
                exact List.prefix_iff_eq_take.mp (prefixed.trans (List.take_prefix _ _))
              refine ih (got ++ piece) further ?_ (fun width => ?_)
              · rw [List.length_append]
                omega
              · unfold slice
                rw [← List.drop_drop, List.take_add, ← further]
      · rw [if_neg more]
        left
        have all : got.length = count := Nat.le_antisymm within (Nat.not_lt.mp more)
        rw [all] at front
        exact congrArg Except.ok front

/-! ### The model's calls -/

variable {os : Os} {fd : Nat}

theorem pwriteFull_writes (disk : Disk) (fd : Nat) (buf : Bytes) (offset : Nat)
    (inside : offset ≤ (disk.file fd).vol.length) (answers : List Transfer) :
    ∃ moved ≤ buf.length,
      (pwriteFull disk fd buf offset answers).2 = disk.write fd offset (buf.take moved) ∧
      ((pwriteFull disk fd buf offset answers).1.isOk = true ↔ moved = buf.length) := by
  have writes := @pwriteFullFrom_writes (disk.file fd).vol buf offset answers 0 (Nat.zero_le _)
  rw [List.take_zero, overwrite_nothing inside] at writes
  obtain ⟨moved, within, content, ok⟩ := writes
  refine ⟨moved, within, ?_, ok⟩
  unfold pwriteFull Disk.write
  rw [← content]

/-- **A write that the kernel takes in pieces does what one call of the model does, and a
call of the model does nothing that the kernel's answers could not.** -/
theorem osPwriteFull_behaves (some' : buf ≠ []) (inside : offset ≤ (os.disk.file fd).vol.length)
    (ok : Bool) (disk : Disk) :
    (∃ answers, (pwriteFull os.disk fd buf offset answers).1.isOk = ok ∧
        (pwriteFull os.disk fd buf offset answers).2 = disk) ↔
      ∃ outcome, (osPwriteFull { os with script := [outcome] } (some fd) buf offset).1.isOk = ok ∧
        (osPwriteFull { os with script := [outcome] } (some fd) buf offset).2.disk = disk := by
  have size := List.length_pos_iff.mpr some'
  constructor
  · rintro ⟨answers, rfl, rfl⟩
    obtain ⟨moved, within, written, finished⟩ := pwriteFull_writes os.disk fd buf offset inside answers
    rw [written]
    by_cases all : moved = buf.length
    · refine ⟨.done, ?_, ?_⟩
      · exact (finished.mpr all).symm
      · rw [all, List.take_length]
        rfl
    · refine ⟨.fails 5 moved, ?_, ?_⟩
      · rw [Bool.eq_false_iff.mpr (fun done => all (finished.mp done))]
        rfl
      · have kept : min moved (buf.length - 1) = moved := by omega
        change os.disk.write fd offset (buf.take (min moved (buf.length - 1))) = _
        rw [kept]
  · rintro ⟨outcome, rfl, rfl⟩
    cases outcome with
    | done =>
        refine ⟨[], ?_, ?_⟩
        · unfold pwriteFull pwriteFullFrom
          rw [if_pos size]
          rfl
        · unfold pwriteFull pwriteFullFrom
          rw [if_pos size]
          rfl
    | fails errno moved =>
        -- The kernel takes what the model says is moved, and then fails.
        have stops : ∃ e, pwriteFullFrom buf offset
            [.moved (min moved (buf.length - 1)), .failed errno] 0 (os.disk.file fd).vol =
              (.error e, overwrite (os.disk.file fd).vol offset
                (buf.take (min moved (buf.length - 1)))) := by
          unfold pwriteFullFrom
          rw [if_pos size]
          simp only [List.drop_zero, Nat.zero_add, Nat.add_zero]
          by_cases nothing : buf.take (min moved (buf.length - 1)) = []
          · rw [if_pos nothing, nothing, overwrite_nothing inside]
            exact ⟨_, rfl⟩
          · rw [if_neg nothing]
            unfold pwriteFullFrom
            have more : (buf.take (min moved (buf.length - 1))).length < buf.length := by
              rw [List.length_take]
              omega
            rw [if_pos more]
            exact ⟨_, rfl⟩
        obtain ⟨e, stops⟩ := stops
        refine ⟨[.moved (min moved (buf.length - 1)), .failed errno], ?_, ?_⟩
        · unfold pwriteFull
          rw [stops]
          rfl
        · unfold pwriteFull
          rw [stops]
          rfl

/-- Half of a record is taken, and then the disk is full. -/
theorem osPwriteFull_behaves_torn : ∃ outcome,
    (osPwriteFull { disk := ⟨fun _ => ⟨[0, 0, 0, 0], []⟩, [], []⟩, script := [outcome], seen := [] }
      (some 1) [7, 8, 9, 10] 0).1.isOk = false ∧
    (osPwriteFull { disk := ⟨fun _ => ⟨[0, 0, 0, 0], []⟩, [], []⟩, script := [outcome], seen := [] }
      (some 1) [7, 8, 9, 10] 0).2.disk =
        (pwriteFull ⟨fun _ => ⟨[0, 0, 0, 0], []⟩, [], []⟩ 1 [7, 8, 9, 10] 0
          [.moved 1, .moved 1, .failed 28]).2 :=
  (@osPwriteFull_behaves [7, 8, 9, 10] 0
    { disk := ⟨fun _ => ⟨[0, 0, 0, 0], []⟩, [], []⟩, script := [], seen := [] } 1 (by decide)
    (by decide) false _).mp ⟨[.moved 1, .moved 1, .failed 28], rfl, rfl⟩

/-- **A read that the kernel answers in pieces gives what one call of the model does, and a
call of the model gives nothing else.** -/
theorem osPreadFull_behaves (some' : 0 < count) (res : Except Err Bytes) :
    (∃ answers, preadFull os.disk fd count offset answers = res) ↔
      ∃ outcome, (osPreadFull { os with script := [outcome] } (some fd) count offset).1 = res := by
  constructor
  · rintro ⟨answers, rfl⟩
    unfold preadFull
    rcases @preadFullFrom_reads (os.disk.file fd).vol offset count answers [] rfl (Nat.zero_le _)
      with whole | ⟨errno, failed⟩
    · rw [whole]
      exact ⟨.done, rfl⟩
    · rw [failed]
      exact ⟨.fails errno 0, rfl⟩
  · rintro ⟨outcome, rfl⟩
    cases outcome with
    | done =>
        refine ⟨[], ?_⟩
        unfold preadFull preadFullFrom
        rfl
    | fails errno moved =>
        refine ⟨[.failed errno], ?_⟩
        unfold preadFull preadFullFrom
        exact if_pos some'

/-- Three reads of a byte each, with the end of the file behind them. -/
theorem osPreadFull_behaves_short : ∃ outcome,
    (osPreadFull { disk := ⟨fun _ => ⟨[7, 8, 9], []⟩, [], []⟩, script := [outcome], seen := [] }
      (some 1) 8 0).1 =
      preadFull ⟨fun _ => ⟨[7, 8, 9], []⟩, [], []⟩ 1 8 0 [.moved 1, .moved 1, .moved 1] :=
  (@osPreadFull_behaves 0 8
    { disk := ⟨fun _ => ⟨[7, 8, 9], []⟩, [], []⟩, script := [], seen := [] } 1 (by decide) _).mp
    ⟨[.moved 1, .moved 1, .moved 1], rfl⟩

end Msgsrvd

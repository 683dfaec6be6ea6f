/-
What an append that failed in a system call leaves of the log.

An append makes up to seven calls: a rollover flushes and closes the active segment,
opens, allocates and flushes the next file and flushes the directory, and the record
is written last.  The walk over them is done once, by the first call that fails.
-/

import Msgsrvd.Wal.Represents
import Msgsrvd.Wal.Resize

namespace Msgsrvd

open Bytestring

/-! ### The calls of a rollover -/

/-- The next call fails. -/
def failing : List Outcome → Bool
  | .fails _ _ :: _ => true
  | _ => false

/-- The flush of a segment with something to flush. -/
def flushCalls (w : Wal) : Nat := if w.active.syncedOff = w.active.writeOff then 0 else 1

def closeCalls (w : Wal) : Nat := if w.active.fd.isSome then 1 else 0

def flushFails (w : Wal) (script : List Outcome) : Bool :=
  flushCalls w = 1 && failing script

def closeFails (w : Wal) (script : List Outcome) : Bool :=
  closeCalls w = 1 && failing (script.drop (flushCalls w))

/-- The outcomes from the creation of the next segment on. -/
def creation (w : Wal) (script : List Outcome) : List Outcome :=
  script.drop (flushCalls w + closeCalls w)

/-- Of the calls after the open, one fails. -/
def creationFails (script : List Outcome) : Bool :=
  failing (script.drop 1) || failing (script.drop 2) || failing (script.drop 3)

/-! ### Logs that can go on -/

/-- No record fits the segment any more. -/
def WalSeg.spent (s : WalSeg) : Bool := decide (s.capacity < s.writeOff + WAL_REC_HEADER_SIZE)

/-- The next record can be written, or it rolls over. -/
def Wal.able (w : Wal) : Bool := w.active.fd.isSome || w.active.spent

/-- The directory holds no segment the table does not name. -/
def OpenLog.Named (log : OpenLog) : Prop := ∀ base ∈ log.disk.dir, base ∈ log.wal.segBase

/-- Nothing but a system call keeps the log from taking the record. -/
structure Wal.Takes (w : Wal) (r : WalRec) (payload : Bytes) (scratchLen : Nat) : Prop where
  sized : walRecSize (i32 r.len) ≠ 0
  small : walRecSize (i32 r.len) ≤ w.segCapacity
  given : (i32 r.len).toNat ≤ payload.length
  scratch : walRecSize (i32 r.len) ≤ scratchLen
  place : walSegFits w.active (i32 r.len) = true ∨ w.segBase.length < WAL_MAX_SEGMENTS

/-- What appends and flushes whose calls all succeed lead to. -/
def OpenLog.Calmly (start : OpenLog) : OpenLog → Prop :=
  Runs.Reach (fun log => log = start) (fun log call log' => log' = log.after [] call)
    (fun log call => log.admits (call, []) ∧ call.adds)

/-- The table and the active segment are as they were, or one empty segment follows. -/
def OpenLog.Grown (log log' : OpenLog) : Prop :=
  (log'.wal.segBase = log.wal.segBase ∧ log'.wal.active.baseSeq = log.wal.active.baseSeq ∧
      log'.wal.active.writeOff = log.wal.active.writeOff) ∨
    (log'.wal.segBase = log.wal.segBase ++ [walNextSeq log.wal] ∧
      log'.wal.active.baseSeq = walNextSeq log.wal ∧ log'.wal.active.writeOff = 0)

/-- The failed append left a working log. -/
structure OpenLog.Survived (log log' : OpenLog) : Prop where
  records : ∀ p, p ∈ walRecords log'.disk log'.wal ↔ p ∈ walRecords log.disk log.wal
  next : walNextSeq log'.wal = walNextSeq log.wal
  table : log.Grown log'
  represents : Represents log'.disk log'.wal
  named : log'.Named
  goes : ∀ later, log'.Calmly later → walNextSeq later.wal < 2 ^ 64 - 1 →
    ∀ r payload scratchLen, later.wal.Takes r payload scratchLen →
      ∃ out w os, walAppend (later.os []) later.wal r payload scratchLen = (.ok out, w, os) ∧
        out.seq = walNextSeq later.wal

/-- An append leaves a working log wherever it fails, but for these places: behind the
open of the next file, which stays; before it with the descriptor closed while a record
still fits; and at the write of a record, through a descriptor closed before. -/
def Wal.outlives (w : Wal) (r : WalRec) (script : List Outcome) : Bool :=
  if walRollsOver w r then
    if flushFails w script then true
    else if closeFails w script || failing (creation w script) then w.active.spent
    else !creationFails (creation w script)
  else w.active.fd.isSome

/-! ### One call -/

theorem plain_done {os : Os} (calm : failing os.script = false) (effect : Disk → Disk) :
    os.plain effect = (.ok (), os.land (os.script.drop 1) (effect os.disk)) := by
  unfold Os.plain Os.call
  cases script : os.script with
  | nil => rfl
  | cons outcome rest =>
      cases outcome with
      | done => rfl
      | fails errno moved =>
          rw [script] at calm
          cases calm

theorem plain_failed {os : Os} (fails : failing os.script = true) (effect : Disk → Disk) :
    ∃ errno, os.plain effect = (.error ⟨.syscall, errno⟩, os.land (os.script.drop 1) os.disk) := by
  unfold Os.plain Os.call
  cases script : os.script with
  | nil =>
      rw [script] at fails
      cases fails
  | cons outcome rest =>
      cases outcome with
      | done =>
          rw [script] at fails
          cases fails
      | fails errno moved => exact ⟨errno, rfl⟩

/-- A close does nothing to the disk, whatever it answers. -/
theorem osClose_lands (os : Os) : (osClose os).2 = os.land (os.script.drop 1) os.disk := by
  unfold osClose
  cases fails : failing os.script with
  | false => rw [plain_done fails, id]
  | true =>
      obtain ⟨errno, failed⟩ := plain_failed fails id
      rw [failed]

/-! ### Creating a segment -/

/-- How the creation of a segment ends, by the first of its calls that fails. -/
inductive Created (os : Os) (base capacity : Nat) : Except Err WalSeg × Os → Prop where
  | taken (present : base ∈ os.disk.dir) :
      Created os base capacity (.error ⟨.syscall, EEXIST⟩, os)
  | unopened {errno : Int} {os' : Os} (absent : base ∉ os.disk.dir)
      (fails : failing os.script = true) (dir : os'.disk.dir = os.disk.dir) :
      Created os base capacity (.error ⟨.syscall, errno⟩, os')
  | left {errno : Int} {os' : Os} (absent : base ∉ os.disk.dir)
      (opens : failing os.script = false) (fails : creationFails os.script = true)
      (dir : os'.disk.dir = os.disk.dir ++ [base]) :
      Created os base capacity (.error ⟨.syscall, errno⟩, os')
  | made {os' : Os} (absent : base ∉ os.disk.dir) (opens : failing os.script = false)
      (passes : creationFails os.script = false) (dir : os'.disk.dir = os.disk.dir ++ [base])
      (rest : os'.script = os.script.drop 4) :
      Created os base capacity (.ok (segReset base base capacity), os')

theorem walSegCreate_walk (os : Os) {base capacity : Nat} (positive : base ≠ 0)
    (header : WAL_REC_HEADER_SIZE ≤ capacity) :
    Created os base capacity (walSegCreate os base capacity) := by
  obtain ⟨disk, script, seen⟩ := os
  unfold walSegCreate osCreate
  rw [if_neg (by omega)]
  by_cases present : base ∈ disk.dir
  · rw [if_pos present]
    exact .taken present
  · rw [if_neg present]
    have linked : (disk.linked base).dir = disk.dir ++ [base] := by
      rw [Disk.linked, Disk.dir_addDirOp, Disk.dir_setFile]
      rfl
    -- by the first of the four calls that fails
    rcases script with _ | ⟨_ | ⟨errno, moved⟩, _ | ⟨_ | ⟨errno, moved⟩, _ | ⟨_ | ⟨errno, moved⟩,
      _ | ⟨_ | ⟨errno, moved⟩, rest⟩⟩⟩⟩
    all_goals first
      | exact .made present rfl rfl linked rfl
      | exact .unopened present rfl rfl
      | exact .left present rfl rfl ((congrArg (fun os => os.disk.dir) (osClose_lands _)).trans linked)

/-! ### Rolling over -/

def Wal.closed (w : Wal) : Wal := { w with active := { w.active with fd := none } }

/-- How a rollover with room in the table ends. -/
inductive RolledOver (os : Os) (w : Wal) : Except Err Unit × Wal × Os → Prop where
  | unflushed {errno : Int} {os' : Os} (fails : flushFails w os.script = true)
      (dir : os'.disk.dir = os.disk.dir) : RolledOver os w (.error ⟨.syscall, errno⟩, w, os')
  | unclosed {errno : Int} {os' : Os} (flushes : flushFails w os.script = false)
      (fails : closeFails w os.script = true) (dir : os'.disk.dir = os.disk.dir) :
      RolledOver os w (.error ⟨.syscall, errno⟩, w.synced.closed, os')
  | uncreated {os1 os' : Os} {e : Err} (flushes : flushFails w os.script = false)
      (closes : closeFails w os.script = false) (dir : os1.disk.dir = os.disk.dir)
      (script : os1.script = creation w os.script)
      (creates : Created os1 w.active.nextSeq w.segCapacity (.error e, os')) :
      RolledOver os w (.error e, w.synced.closed, os')
  | rolled {os1 os' : Os} {seg : WalSeg} (flushes : flushFails w os.script = false)
      (closes : closeFails w os.script = false) (dir : os1.disk.dir = os.disk.dir)
      (script : os1.script = creation w os.script)
      (creates : Created os1 w.active.nextSeq w.segCapacity (.ok seg, os')) :
      RolledOver os w (.ok (),
        { w.synced with active := seg, segBase := w.segBase ++ [w.active.nextSeq] }, os')

/-- A closed segment has nothing to flush: it was flushed before it was closed. -/
def Wal.Tidy (w : Wal) : Prop := w.active.fd = none → w.active.syncedOff = w.active.writeOff

/-- The flush of a rollover, and what it leaves of the script. -/
theorem walSync_walk {os : Os} {w : Wal} (sound : w.Sound) (tidy : w.Tidy) :
    (flushFails w os.script = true ∧ ∃ errno os', walSync os w = (.error ⟨.syscall, errno⟩, w, os') ∧
        os'.disk.dir = os.disk.dir) ∨
      (flushFails w os.script = false ∧ ∃ os', walSync os w = (.ok (), w.synced, os') ∧
        os'.disk.dir = os.disk.dir ∧ os'.script = os.script.drop (flushCalls w)) := by
  unfold walSync walSegSync flushFails
  by_cases same : w.active.syncedOff = w.active.writeOff
  · right
    have none' : flushCalls w = 0 := if_pos same
    have settled := sound.flushed same
    have durable : w.active.nextSeq - 1 = w.active.durableSeq := by omega
    rw [none', if_pos same]
    refine ⟨rfl, os, ?_, rfl, rfl⟩
    unfold Wal.synced
    rw [durable, ← same]
  · have one : flushCalls w = 1 := if_neg same
    rw [one, if_neg same]
    cases opened : w.active.fd with
    | none => exact absurd (tidy opened) same
    | some fd =>
        unfold osFdatasync
        cases fails : failing os.script with
        | true =>
            obtain ⟨errno, failed⟩ := plain_failed fails (fun disk => disk.flushFile fd)
            simp only
            rw [failed]
            exact Or.inl ⟨rfl, errno, _, rfl, rfl⟩
        | false =>
            simp only
            rw [plain_done fails]
            right
            refine ⟨rfl, os.land (os.script.drop 1) (os.disk.flushFile fd), ?_, rfl, rfl⟩
            unfold Wal.synced
            rw [← opened]

theorem walSegClose_walk (os : Os) (w : Wal) :
    ((closeCalls w = 1 && failing os.script) = true ∧ ∃ errno os',
        walSegClose os w.active = (.error ⟨.syscall, errno⟩, w.closed.active, os') ∧
          os'.disk = os.disk) ∨
      ((closeCalls w = 1 && failing os.script) = false ∧ ∃ os',
        walSegClose os w.active = (.ok (), w.closed.active, os') ∧ os'.disk = os.disk ∧
          os'.script = os.script.drop (closeCalls w)) := by
  unfold walSegClose
  cases opened : w.active.fd with
  | none =>
      have none' : closeCalls w = 0 := by
        unfold closeCalls
        rw [opened]
        rfl
      right
      rw [none']
      refine ⟨rfl, os, ?_, rfl, rfl⟩
      simp only [Wal.closed]
      rw [← opened]
  | some fd =>
      have one : closeCalls w = 1 := by
        unfold closeCalls
        rw [opened]
        rfl
      rw [one]
      unfold osClose
      cases fails : failing os.script with
      | true =>
          obtain ⟨errno, failed⟩ := plain_failed fails id
          simp only
          rw [failed]
          exact Or.inl ⟨rfl, errno, _, rfl, rfl⟩
      | false =>
          simp only
          rw [plain_done fails]
          exact Or.inr ⟨rfl, _, rfl, rfl, rfl⟩

theorem walRollover_walk {os : Os} {w : Wal} (sound : w.Sound) (tidy : w.Tidy)
    (header : WAL_REC_HEADER_SIZE ≤ w.segCapacity) (room : w.segBase.length < WAL_MAX_SEGMENTS) :
    RolledOver os w (walRollover os w) := by
  have below := sound.durable
  unfold walRollover
  rw [if_neg (by omega)]
  rcases @walSync_walk os _ sound tidy with
    ⟨fails, errno, os', flushes, dir⟩ | ⟨passes, os1, flushes, dir, script⟩
  · rw [flushes]
    exact .unflushed fails dir
  · rw [flushes]
    simp only
    have nextBase : w.synced.active.durableSeq + 1 = w.active.nextSeq := by
      simp only [Wal.synced]
      omega
    rcases walSegClose_walk os1 w.synced with
      ⟨fails, errno, os2, closes, same⟩ | ⟨done, os2, closes, same, script2⟩
    · rw [closes]
      refine .unclosed passes ?_ ((congrArg Disk.dir same).trans dir)
      unfold closeFails
      rw [← script]
      exact fails
    · rw [closes, nextBase]
      have closed : closeFails w os.script = false := by
        unfold closeFails
        rw [← script]
        exact done
      have left : os2.script = creation w os.script := by
        rw [script2, script, List.drop_drop]
        rfl
      have walked := @walSegCreate_walk os2 w.active.nextSeq w.segCapacity (by omega) header
      simp only
      rw [show w.synced.segCapacity = w.segCapacity from rfl]
      cases creates : walSegCreate os2 w.active.nextSeq w.segCapacity with
      | mk res os3 =>
          rw [creates] at walked
          cases res with
          | error e =>
              exact .uncreated passes closed ((congrArg Disk.dir same).trans dir) left walked
          | ok seg => exact .rolled passes closed ((congrArg Disk.dir same).trans dir) left walked

/-! ### Writing the record -/

/-- What a write leaves, and when it can succeed. -/
structure Wrote (os : Os) (w : Wal) (res : Except Err WalRec) (w' : Wal) (os' : Os) : Prop where
  fd : w'.active.fd = w.active.fd
  table : w'.segBase = w.segBase
  dir : os'.disk.dir = os.disk.dir
  failed : ∀ e, res = .error e → w' = w
  opened : ∀ out, res = .ok out → w.active.fd.isSome = true
  calm : os.script = [] → os'.script = []
  capacity : w'.segCapacity = w.segCapacity

theorem pwrite_dir {os os' : Os} {fd : Option Nat} {bytes : Bytes} {offset : Nat}
    {res : Except Err Unit} (writes : osPwriteFull os fd bytes offset = (res, os')) :
    os'.disk.dir = os.disk.dir ∧ (res = .ok () → fd.isSome = true) ∧
      (os.script = [] → os'.script = []) := by
  cases fd with
  | none =>
      cases writes
      exact ⟨rfl, fun ok => (by cases ok), id⟩
  | some fd =>
      unfold osPwriteFull Os.call at writes
      cases script : os.script with
      | nil =>
          rw [script] at writes
          cases writes
          exact ⟨Disk.dir_write .., fun _ => rfl, fun _ => rfl⟩
      | cons outcome rest =>
          rw [script] at writes
          cases outcome with
          | done =>
              cases writes
              exact ⟨Disk.dir_write .., fun _ => rfl, fun calm => (by cases calm)⟩
          | fails errno moved =>
              cases writes
              exact ⟨Disk.dir_write .., fun ok => (by cases ok), fun calm => (by cases calm)⟩

theorem walAppendActive_wrote {os os' : Os} {w w' : Wal} {res : Except Err WalRec} {r : WalRec}
    {payload : Bytes} {scratchLen : Nat}
    (appends : walAppendActive os w r payload scratchLen = (res, w', os')) :
    Wrote os w res w' os' := by
  unfold walAppendActive walSegAppend at appends
  cases encoded : walRecEncode scratchLen { r with seq := w.active.nextSeq } payload with
  | none =>
      rw [encoded] at appends
      cases appends
      exact ⟨rfl, rfl, rfl, fun _ _ => rfl, fun _ ok => (by cases ok), id, rfl⟩
  | some result =>
      obtain ⟨bytes, out⟩ := result
      rw [encoded] at appends
      simp only at appends
      by_cases past : w.active.writeOff + bytes.length > w.active.capacity
      · rw [if_pos past] at appends
        cases appends
        exact ⟨rfl, rfl, rfl, fun _ _ => rfl, fun _ ok => (by cases ok), id, rfl⟩
      · rw [if_neg past] at appends
        cases writes : osPwriteFull os w.active.fd bytes w.active.writeOff with
        | mk done os1 =>
            obtain ⟨dir, opened, calm⟩ := pwrite_dir writes
            rw [writes] at appends
            cases done with
            | error e =>
                cases appends
                exact ⟨rfl, rfl, dir, fun _ _ => rfl, fun _ ok => (by cases ok), calm, rfl⟩
            | ok done =>
                cases appends
                exact ⟨rfl, rfl, dir, fun _ failed => (by cases failed), fun _ _ => opened rfl, calm,
                  rfl⟩

/-! ### The whole append -/

/-- A segment some record still fits is not spent. -/
theorem walSegFits_unspent {s : WalSeg} {len : Int} (fits : walSegFits s len = true) :
    s.spent = false := by
  unfold walSegFits at fits
  unfold WalSeg.spent
  by_cases none' : walRecSize len = 0
  · rw [if_pos none'] at fits
    cases fits
  · rw [if_neg none', decide_eq_true_eq] at fits
    have header := header_le_walRecSize none'
    rw [decide_eq_false_iff_not]
    omega

/-- The next base is in no table. -/
theorem Wal.Sound.next_unnamed {w : Wal} (sound : w.Sound) (nonempty : w.active.writeOff ≠ 0) :
    w.active.nextSeq ∉ w.segBase := by
  intro present
  obtain ⟨front, table⟩ := sound.last
  have bound := pairwise_le_last (table ▸ sound.sorted) w.active.nextSeq (table ▸ present)
  rcases sound.filled with empty | more
  · exact nonempty empty
  · omega

/-- An append that rolls over has a record in its segment and room in its table. -/
theorem walRollsOver_iff {w : Wal} {r : WalRec} : walRollsOver w r = true ↔
    walRecSize (i32 r.len) ≠ 0 ∧ walRecSize (i32 r.len) ≤ w.segCapacity ∧
      walSegFits w.active (i32 r.len) = false ∧ w.segBase.length < WAL_MAX_SEGMENTS := by
  unfold walRollsOver
  simp only
  by_cases tooBig : walRecSize (i32 r.len) = 0 ∨ walRecSize (i32 r.len) > w.segCapacity
  · rw [if_pos tooBig]
    constructor
    · intro never
      cases never
    · rintro ⟨sized, small, _⟩
      omega
  · rw [if_neg tooBig]
    rw [not_or] at tooBig
    cases fits : walSegFits w.active (i32 r.len) with
    | true =>
        rw [if_pos rfl]
        constructor
        · intro never
          cases never
        · rintro ⟨_, _, never, _⟩
          cases never
    | false =>
        rw [if_neg Bool.false_ne_true, decide_eq_true_eq]
        constructor
        · intro room
          exact ⟨tooBig.1, by omega, rfl, room⟩
        · intro all
          exact all.2.2.2

theorem nonempty_of_unfit {w : Wal} {r : WalRec} (sound : w.Sound)
    (rolls : walRollsOver w r = true) : w.active.writeOff ≠ 0 := by
  obtain ⟨sized, small, unfit, _room⟩ := walRollsOver_iff.mp rolls
  intro empty
  have capacity := sound.capacity
  unfold walSegFits at unfit
  rw [if_neg sized, decide_eq_false_iff_not] at unfit
  omega

/-- An append rolls over first, or writes, or does nothing at all. -/
theorem walAppend_parts (os : Os) (w : Wal) (r : WalRec) (payload : Bytes) (scratchLen : Nat) :
    (walRollsOver w r = true ∧
        (∀ e w1 os1, walRollover os w = (.error e, w1, os1) →
          walAppend os w r payload scratchLen = (.error e, w1, os1)) ∧
        ∀ w1 os1, walRollover os w = (.ok (), w1, os1) →
          walAppend os w r payload scratchLen = walAppendActive os1 w1 r payload scratchLen) ∨
      (walRollsOver w r = false ∧ walSegFits w.active (i32 r.len) = true ∧
        walAppend os w r payload scratchLen = walAppendActive os w r payload scratchLen) ∨
      (¬ (walRecSize (i32 r.len) ≠ 0 ∧ walRecSize (i32 r.len) ≤ w.segCapacity ∧
          (walSegFits w.active (i32 r.len) = true ∨ w.segBase.length < WAL_MAX_SEGMENTS)) ∧
        ∃ e, e.code ≠ .syscall ∧
          walAppend os w r payload scratchLen = (.error e, w, os)) := by
  unfold walAppend walRollsOver
  simp only
  by_cases tooBig : walRecSize (i32 r.len) = 0 ∨ walRecSize (i32 r.len) > w.segCapacity
  · rw [if_pos tooBig, if_pos tooBig]
    refine Or.inr (Or.inr ⟨?_, _, by decide, rfl⟩)
    rintro ⟨sized, small, _⟩
    omega
  · rw [if_neg tooBig, if_neg tooBig]
    cases fits : walSegFits w.active (i32 r.len) with
    | true =>
        rw [if_pos rfl, if_pos rfl]
        exact Or.inr (Or.inl ⟨rfl, rfl, rfl⟩)
    | false =>
        rw [if_neg Bool.false_ne_true, if_neg Bool.false_ne_true]
        by_cases room : w.segBase.length < WAL_MAX_SEGMENTS
        · rw [decide_eq_true room]
          refine Or.inl ⟨rfl, fun e w1 os1 rolls => ?_, fun w1 os1 rolls => ?_⟩
          · rw [rolls]
          · rw [rolls]
        · rw [decide_eq_false room]
          refine Or.inr (Or.inr ⟨fun takes => ?_, ⟨.nomem, w.segBase.length⟩,
            fun same => (by cases same), ?_⟩)
          · rcases takes.2.2 with never | room'
            · cases never
            · exact room room'
          · unfold walRollover
            rw [if_pos (by omega)]

/-! ### A failed append -/

theorem outlives_stays {w : Wal} {r : WalRec} {script : List Outcome}
    (stays : walRollsOver w r = false) : w.outlives r script = w.active.fd.isSome := by
  unfold Wal.outlives
  rw [if_neg (by rw [stays]; exact Bool.false_ne_true)]

theorem outlives_rolls {w : Wal} {r : WalRec} {script : List Outcome}
    (rolls : walRollsOver w r = true) : w.outlives r script =
      if flushFails w script then true
      else if closeFails w script || failing (creation w script) then w.active.spent
      else !creationFails (creation w script) := by
  unfold Wal.outlives
  rw [if_pos rolls]

/-- The new file's name is in the directory, or was. -/
theorem not_named {log log' : OpenLog} (table : log'.wal.segBase = log.wal.segBase)
    {base : Nat} (unnamed : base ∉ log.wal.segBase) (present : base ∈ log'.disk.dir) :
    ¬ log'.Named := by
  intro named
  have known := named base present
  rw [table] at known
  exact unnamed known

theorem named_iff {log log' : OpenLog} (table : log'.wal.segBase = log.wal.segBase)
    (dir : log'.disk.dir = log.disk.dir) : log'.Named ↔ log.Named := by
  unfold OpenLog.Named
  rw [table, dir]

/-- A rollover that failed left a log that can go on exactly when it can. -/
theorem RolledOver.failed {os os' : Os} {w w' : Wal} {r : WalRec} {e : Err} (sound : w.Sound)
    (tidy : w.Tidy) (rolls : walRollsOver w r = true)
    (past : RolledOver os w (.error e, w', os')) :
    OpenLog.Grown ⟨os.disk, w⟩ ⟨os'.disk, w'⟩ ∧ w'.Tidy ∧
      (OpenLog.Named ⟨os'.disk, w'⟩ ∧ w'.able = true ↔
        OpenLog.Named ⟨os.disk, w⟩ ∧ w.outlives r os.script = true) := by
  have unnamed := sound.next_unnamed (nonempty_of_unfit sound rolls)
  have closedAble : w.synced.closed.able = w.active.spent := rfl
  have closedTidy : w.synced.closed.Tidy := fun _ => rfl
  have stays : OpenLog.Grown ⟨os.disk, w⟩ ⟨os'.disk, w.synced.closed⟩ := Or.inl ⟨rfl, rfl, rfl⟩
  rw [outlives_rolls rolls]
  cases past with
  | unflushed fails dir =>
      refine ⟨Or.inl ⟨rfl, rfl, rfl⟩, tidy, ?_⟩
      have opened : w.able = true := by
        unfold flushFails flushCalls at fails
        unfold Wal.able
        cases fd : w.active.fd with
        | some fd => rfl
        | none =>
            rw [if_pos (tidy fd)] at fails
            cases fails
      rw [fails, opened, @named_iff ⟨os.disk, w⟩ ⟨os'.disk, w⟩ rfl dir]
      exact Iff.rfl
  | unclosed flushes fails dir =>
      refine ⟨stays, closedTidy, ?_⟩
      rw [flushes, fails, closedAble, @named_iff ⟨os.disk, w⟩ ⟨os'.disk, w.synced.closed⟩ rfl dir]
      exact Iff.rfl
  | @uncreated os1 _ _ flushes closes dir script creates =>
      refine ⟨stays, closedTidy, ?_⟩
      rw [flushes, closes, closedAble, ← script]
      have left (present : w.active.nextSeq ∈ os'.disk.dir) :
          ¬ OpenLog.Named ⟨os'.disk, w.synced.closed⟩ :=
        @not_named ⟨os.disk, w⟩ ⟨os'.disk, w.synced.closed⟩ rfl _ unnamed present
      cases creates with
      | taken present =>
          constructor
          · rintro ⟨named, _⟩
            exact absurd named (left present)
          · rintro ⟨named, _⟩
            rw [dir] at present
            exact absurd (named _ present) unnamed
      | unopened absent fails dir2 =>
          rw [fails, @named_iff ⟨os.disk, w⟩ ⟨os'.disk, w.synced.closed⟩ rfl (dir2.trans dir)]
          exact Iff.rfl
      | left absent opens fails dir2 =>
          rw [opens, fails]
          constructor
          · rintro ⟨named, _⟩
            refine absurd named (left ?_)
            rw [dir2]
            exact List.mem_append_right _ (List.mem_singleton.mpr rfl)
          · rintro ⟨_, never⟩
            cases never

/-- A rollover that succeeded took a base the directory did not hold, and left an empty
segment open. -/
theorem RolledOver.done {os os' : Os} {w w' : Wal} (past : RolledOver os w (.ok (), w', os')) :
    w' = w.rolled ∧ os'.disk.dir = os.disk.dir ++ [w.active.nextSeq] ∧
      w.active.nextSeq ∉ os.disk.dir ∧ flushFails w os.script = false ∧
      closeFails w os.script = false ∧ failing (creation w os.script) = false ∧
      creationFails (creation w os.script) = false := by
  cases past with
  | rolled flushes closes dir script creates =>
      cases creates with
      | made absent opens passes dir2 _rest =>
          rw [dir] at absent dir2
          rw [script] at opens passes
          exact ⟨rfl, dir2, absent, flushes, closes, opens, passes⟩

/-- The next base joins the directory and the table together. -/
theorem named_rolled {disk disk' : Disk} {w : Wal} (absent : w.active.nextSeq ∉ disk.dir)
    (dir : disk'.dir = disk.dir ++ [w.active.nextSeq]) :
    OpenLog.Named ⟨disk', w.rolled⟩ ↔ OpenLog.Named ⟨disk, w⟩ := by
  constructor
  · intro named base present
    have known := named base (by
      rw [dir]
      exact List.mem_append_left _ present)
    rcases List.mem_append.mp known with early | new
    · exact early
    · rw [List.mem_singleton.mp new] at present
      exact absurd present absent
  · intro named base present
    rw [dir] at present
    rcases List.mem_append.mp present with early | new
    · exact List.mem_append_left _ (named base early)
    · exact List.mem_append_right _ new

/-- **An append that failed in a system call** left the table as it was or one empty segment
longer, and a log that can go on exactly where `Wal.outlives` says. -/
theorem walAppend_failed {os os' : Os} {w w' : Wal} {r : WalRec} {payload : Bytes}
    {scratchLen : Nat} {e : Err} (sound : w.Sound) (tidy : w.Tidy)
    (appends : walAppend os w r payload scratchLen = (.error e, w', os'))
    (call : e.code = .syscall) :
    OpenLog.Grown ⟨os.disk, w⟩ ⟨os'.disk, w'⟩ ∧
      (OpenLog.Named ⟨os'.disk, w'⟩ ∧ w'.able = true ↔
        OpenLog.Named ⟨os.disk, w⟩ ∧ w.outlives r os.script = true) := by
  rcases walAppend_parts os w r payload scratchLen with
    ⟨rolls, broke, goes⟩ | ⟨stays, fits, whole⟩ | ⟨_stays, e', other, whole⟩
  · obtain ⟨sized, small, _unfit, room⟩ := walRollsOver_iff.mp rolls
    have walked := @walRollover_walk os _ sound tidy
      (Nat.le_trans (header_le_walRecSize sized) small) room
    cases past : walRollover os w with
    | mk done rest =>
        obtain ⟨w1, os1⟩ := rest
        rw [past] at walked
        cases done with
        | error e1 =>
            have whole := broke _ _ _ past
            rw [appends] at whole
            cases whole
            obtain ⟨grown, _tidy, exact'⟩ := walked.failed sound tidy rolls
            exact ⟨grown, exact'⟩
        | ok done =>
            have whole := goes _ _ past
            rw [appends] at whole
            obtain ⟨same, dir, absent, flushes, closes, opens, passes⟩ := walked.done
            subst same
            have wrote := walAppendActive_wrote whole.symm
            have left := wrote.failed e rfl
            subst left
            refine ⟨Or.inr ⟨rfl, rfl, rfl⟩, ?_⟩
            rw [outlives_rolls rolls, flushes, closes, opens, passes,
              named_rolled absent (wrote.dir.trans dir)]
            exact Iff.rfl
  · rw [appends] at whole
    have wrote := walAppendActive_wrote whole.symm
    have left := wrote.failed e rfl
    subst left
    refine ⟨Or.inl ⟨rfl, rfl, rfl⟩, ?_⟩
    rw [outlives_stays stays, Wal.able, walSegFits_unspent fits, Bool.or_false,
      @named_iff ⟨os.disk, w'⟩ ⟨os'.disk, w'⟩ rfl wrote.dir]
  · rw [appends] at whole
    cases whole
    exact absurd call other

/-! ### Closed segments are flushed -/

theorem walSync_tidy {os os' : Os} {w w' : Wal} {res : Except Err Unit} (sound : w.Sound)
    (tidy : w.Tidy) (flushes : walSync os w = (res, w', os')) : w'.Tidy := by
  rcases @walSync_walk os _ sound tidy with ⟨_, _, _, failed, _⟩ | ⟨_, _, done, _, _⟩
  · rw [failed] at flushes
    cases flushes
    exact tidy
  · rw [done] at flushes
    cases flushes
    exact fun _ => rfl

theorem walAppendActive_tidy {os os' : Os} {w w' : Wal} {res : Except Err WalRec} {r : WalRec}
    {payload : Bytes} {scratchLen : Nat} (tidy : w.Tidy)
    (appends : walAppendActive os w r payload scratchLen = (res, w', os')) : w'.Tidy := by
  have wrote := walAppendActive_wrote appends
  cases res with
  | error e =>
      rw [wrote.failed e rfl]
      exact tidy
  | ok out =>
      intro closed
      have opened := wrote.opened out rfl
      rw [← wrote.fd, closed] at opened
      cases opened

theorem walAppend_tidy {os os' : Os} {w w' : Wal} {res : Except Err WalRec} {r : WalRec}
    {payload : Bytes} {scratchLen : Nat} (sound : w.Sound) (tidy : w.Tidy)
    (appends : walAppend os w r payload scratchLen = (res, w', os')) : w'.Tidy := by
  rcases walAppend_parts os w r payload scratchLen with
    ⟨rolls, broke, goes⟩ | ⟨_stays, _fits, whole⟩ | ⟨_stays, e', _other, whole⟩
  · obtain ⟨sized, small, _unfit, room⟩ := walRollsOver_iff.mp rolls
    have walked := @walRollover_walk os _ sound tidy
      (Nat.le_trans (header_le_walRecSize sized) small) room
    cases past : walRollover os w with
    | mk done rest =>
        obtain ⟨w1, os1⟩ := rest
        rw [past] at walked
        cases done with
        | error e =>
            have whole := broke _ _ _ past
            rw [appends] at whole
            cases whole
            exact (walked.failed sound tidy rolls).2.1
        | ok done =>
            have whole := goes _ _ past
            rw [appends] at whole
            have fresh : w1.Tidy := by
              rw [walked.done.1]
              exact fun never => by cases never
            exact walAppendActive_tidy fresh whole.symm
  · rw [appends] at whole
    exact walAppendActive_tidy tidy whole.symm
  · rw [appends] at whole
    cases whole
    exact tidy

/-- An append at a given sequence is an append, or nothing. -/
theorem walAppendAt_parts (os : Os) (w : Wal) (r : WalRec) (payload : Bytes) (scratchLen : Nat) :
    (walAppendAt os w r payload scratchLen).2 = (walAppend os w r payload scratchLen).2 ∨
      (walAppendAt os w r payload scratchLen).2 = (w, os) := by
  unfold walAppendAt
  split
  · exact Or.inr rfl
  · left
    cases walAppend os w r payload scratchLen with
    | mk res rest =>
        cases res with
        | error e => rfl
        | ok out =>
            simp only
            split <;> rfl

theorem OpenLog.after_tidy {log : OpenLog} (sound : log.wal.Sound) (tidy : log.wal.Tidy)
    (call : LogCall) (script : List Outcome) : (log.after script call).wal.Tidy := by
  cases call with
  | append r payload scratchLen => exact walAppend_tidy sound tidy rfl
  | appendAt r payload scratchLen =>
      change (walAppendAt (log.os script) log.wal r payload scratchLen).2.1.Tidy
      rcases walAppendAt_parts (log.os script) log.wal r payload scratchLen with same | same
      · rw [congrArg Prod.fst same]
        exact walAppend_tidy sound tidy rfl
      · rw [congrArg Prod.fst same]
        exact tidy
  | sync => exact walSync_tidy sound tidy rfl
  | retain keepFrom =>
      cases retains : walRetain (log.os script) log.wal keepFrom with
      | mk res rest =>
          obtain ⟨removed, w', os'⟩ := rest
          have kept := (walRetain_sound sound retains).2.2.1
          simp only [OpenLog.after, retains]
          unfold Wal.Tidy
          rw [kept]
          exact tidy

/-- What every reached log keeps. -/
theorem OpenLog.Reached.held {log : OpenLog} (reached : log.Reached) :
    log.Held ∧ log.wal.Tidy := by
  refine @Runs.Reach.invariant _ _ _ _ _ (fun log => log.Held ∧ log.wal.Tidy) ?_ ?_ log reached
  · intro start ⟨os, listing, capacity, scratchLen, info, recs, os', opens, same⟩
    obtain ⟨front, last, holds⟩ := walOpen_holds opens
    have settled := (walOpen_sound opens).2.1
    rw [← same] at holds
    exact ⟨⟨front, last, holds⟩, fun _ => holds.unflushed settled⟩
  · intro log event log' ⟨⟨front, last, holds⟩, tidy⟩ admitted moves
    obtain ⟨front', last', holds', _kept⟩ := OpenLog.after_holds holds admitted
    rw [moves]
    exact ⟨⟨front', last', holds'⟩, OpenLog.after_tidy holds.sound tidy event.1 event.2⟩

/-! ### A log that can go on goes on -/

theorem walAppendActive_takes {os : Os} {w : Wal} {r : WalRec} {payload : Bytes}
    {scratchLen : Nat} (calm : os.script = []) (capacity : w.active.capacity = w.segCapacity)
    (opened : w.active.fd.isSome = true) (takes : w.Takes r payload scratchLen)
    (fits : walSegFits w.active (i32 r.len) = true) :
    ∃ out w' os', walAppendActive os w r payload scratchLen = (.ok out, w', os') := by
  have given : ¬ (i32 r.len > 0 ∧ payload = []) := by
    rintro ⟨more, none'⟩
    have full := takes.given
    rw [none', List.length_nil] at full
    omega
  have sized : ¬ (walRecSize (i32 r.len) = 0 ∨ scratchLen < walRecSize (i32 r.len)) := by
    have scratch := takes.scratch
    have positive := takes.sized
    omega
  obtain ⟨bytes, out, encoded⟩ : ∃ bytes out,
      walRecEncode scratchLen { r with seq := w.active.nextSeq } payload = some (bytes, out) := by
    unfold walRecEncode
    simp only
    rw [if_neg given, if_neg sized]
    exact ⟨_, _, rfl⟩
  have length : bytes.length = walRecSize (i32 r.len) := by
    obtain ⟨body, shape, size, _fields⟩ :=
      walRecEncode_shape (r := { r with seq := w.active.nextSeq }) takes.given encoded
    rw [shape, List.length_append, header_length]
    exact size.symm
  unfold walSegFits at fits
  rw [if_neg takes.sized, decide_eq_true_eq] at fits
  unfold walAppendActive walSegAppend
  rw [encoded]
  simp only
  rw [if_neg (by omega)]
  cases fd : w.active.fd with
  | none =>
      rw [fd] at opened
      cases opened
  | some fd =>
      unfold osPwriteFull Os.call
      rw [calm]
      exact ⟨_, _, _, rfl⟩

/-- With no call failing, a rollover of a log whose directory is named succeeds. -/
theorem walRollover_goes {os : Os} {w : Wal} {r : WalRec} (calm : os.script = [])
    (sound : w.Sound) (tidy : w.Tidy) (named : OpenLog.Named ⟨os.disk, w⟩)
    (rolls : walRollsOver w r = true) :
    ∃ os', walRollover os w = (.ok (), w.rolled, os') ∧ os'.script = [] ∧
      OpenLog.Named ⟨os'.disk, w.rolled⟩ := by
  obtain ⟨sized, small, _unfit, room⟩ := walRollsOver_iff.mp rolls
  have unnamed := sound.next_unnamed (nonempty_of_unfit sound rolls)
  have walked := @walRollover_walk os _ sound tidy
    (Nat.le_trans (header_le_walRecSize sized) small) room
  have quiet : flushFails w [] = false := Bool.and_false _
  have still : closeFails w [] = false := by
    unfold closeFails
    rw [List.drop_nil]
    exact Bool.and_false _
  have rest : creation w [] = [] := List.drop_nil
  cases past : walRollover os w with
  | mk done rest =>
      obtain ⟨w1, os1⟩ := rest
      rw [past] at walked
      cases walked with
      | unflushed fails dir =>
          rw [calm, quiet] at fails
          cases fails
      | unclosed flushes fails dir =>
          rw [calm, still] at fails
          cases fails
      | uncreated flushes closes dir left creates =>
          rw [calm, rest] at left
          cases creates with
          | taken present =>
              rw [dir] at present
              exact absurd (named _ present) unnamed
          | unopened absent fails dir2 =>
              rw [left] at fails
              cases fails
          | left absent opens fails dir2 =>
              rw [left] at fails
              cases fails
      | rolled flushes closes dir left creates =>
          cases creates with
          | made absent opens passes dir2 last =>
              rw [dir] at absent dir2
              rw [left, calm, rest, List.drop_nil] at last
              exact ⟨os1, rfl, last, (named_rolled absent dir2).mpr named⟩

/-- A log that can go on: the next append of a record it takes goes through. -/
structure OpenLog.Working (log : OpenLog) : Prop where
  held : log.Held
  tidy : log.wal.Tidy
  named : log.Named
  able : log.wal.able = true

theorem walAppend_able {os os' : Os} {w w' : Wal} {res : Except Err WalRec} {r : WalRec}
    {payload : Bytes} {scratchLen : Nat} (calm : os.script = []) (sound : w.Sound)
    (tidy : w.Tidy) (named : OpenLog.Named ⟨os.disk, w⟩) (able : w.able = true)
    (appends : walAppend os w r payload scratchLen = (res, w', os')) :
    OpenLog.Named ⟨os'.disk, w'⟩ ∧ w'.able = true := by
  -- a write that succeeds went through an open descriptor
  have wrote_able {os os' : Os} {w w' : Wal} {res : Except Err WalRec}
      (named : OpenLog.Named ⟨os.disk, w⟩) (able : w.able = true)
      (wrote : Wrote os w res w' os') : OpenLog.Named ⟨os'.disk, w'⟩ ∧ w'.able = true := by
    refine ⟨(@named_iff ⟨os.disk, w⟩ ⟨os'.disk, w'⟩ wrote.table wrote.dir).mpr named, ?_⟩
    cases res with
    | error e =>
        rw [wrote.failed e rfl]
        exact able
    | ok out =>
        unfold Wal.able
        rw [wrote.fd, wrote.opened out rfl, Bool.true_or]
  rcases walAppend_parts os w r payload scratchLen with
    ⟨rolls, _broke, goes⟩ | ⟨_stays, _fits, whole⟩ | ⟨_stays, e', _other, whole⟩
  · obtain ⟨os1, past, _script, named1⟩ := walRollover_goes calm sound tidy named rolls
    have whole := goes _ _ past
    rw [appends] at whole
    exact wrote_able named1 rfl (walAppendActive_wrote whole.symm)
  · rw [appends] at whole
    exact wrote_able named able (walAppendActive_wrote whole.symm)
  · rw [appends] at whole
    cases whole
    exact ⟨named, able⟩

theorem OpenLog.Working.after {log : OpenLog} (working : log.Working) {call : LogCall}
    (admitted : log.admits (call, [])) (adds : call.adds) : (log.after [] call).Working := by
  obtain ⟨⟨front, last, holds⟩, tidy, named, able⟩ := working
  obtain ⟨front', last', holds', _kept⟩ := OpenLog.after_holds holds admitted
  have sound := holds.sound
  have goes : (log.after [] call).Named ∧ (log.after [] call).wal.able = true := by
    cases call with
    | append r payload scratchLen =>
        exact @walAppend_able (log.os []) _ _ _ _ _ _ _ rfl sound tidy named able rfl
    | appendAt r payload scratchLen =>
        change OpenLog.Named ⟨(walAppendAt (log.os []) log.wal r payload scratchLen).2.2.disk,
            (walAppendAt (log.os []) log.wal r payload scratchLen).2.1⟩ ∧
          (walAppendAt (log.os []) log.wal r payload scratchLen).2.1.able = true
        rcases walAppendAt_parts (log.os []) log.wal r payload scratchLen with same | same
        · rw [same]
          exact @walAppend_able (log.os []) _ _ _ _ _ _ _ rfl sound tidy named able rfl
        · rw [same]
          exact ⟨named, able⟩
    | sync =>
        rcases @walSync_walk (log.os []) _ sound tidy with
          ⟨fails, _⟩ | ⟨_passes, os', flushes, dir, _script⟩
        · rw [show flushFails log.wal (log.os []).script = false from Bool.and_false _] at fails
          cases fails
        · simp only [OpenLog.after, flushes]
          exact ⟨(@named_iff log ⟨os'.disk, log.wal.synced⟩ rfl dir).mpr named, able⟩
    | retain keepFrom => exact absurd adds id
  exact ⟨⟨front', last', holds'⟩, OpenLog.after_tidy sound tidy call [], goes.1, goes.2⟩

/-- **A log that can go on takes the record.** -/
theorem walAppend_goes {os : Os} {w : Wal} {r : WalRec} {payload : Bytes} {scratchLen : Nat}
    (calm : os.script = []) (working : OpenLog.Working ⟨os.disk, w⟩)
    (takes : w.Takes r payload scratchLen) :
    ∃ out w' os', walAppend os w r payload scratchLen = (.ok out, w', os') ∧
      out.seq = walNextSeq w := by
  obtain ⟨⟨front, last, holds⟩, tidy, named, able⟩ := working
  have sound : w.Sound := holds.sound
  have ends {out : WalRec} {w' : Wal} {os' : Os}
      (appends : walAppend os w r payload scratchLen = (.ok out, w', os')) :
      out.seq = walNextSeq w := ((walAppend_sound sound appends).1.at_next out rfl).1
  rcases walAppend_parts os w r payload scratchLen with
    ⟨rolls, _broke, goes⟩ | ⟨_stays, fits, whole⟩ | ⟨stays, e, _other, whole⟩
  · obtain ⟨os1, past, script, _named⟩ := walRollover_goes calm sound tidy named rolls
    have empty : walSegFits w.rolled.active (i32 r.len) = true := by
      unfold walSegFits
      rw [if_neg takes.sized, decide_eq_true_eq]
      have small := takes.small
      simp only [Wal.rolled, segReset]
      omega
    obtain ⟨out, w', os', appends⟩ := @walAppendActive_takes os1 w.rolled r payload scratchLen
      script rfl rfl
      { sized := takes.sized, small := takes.small, given := takes.given
        scratch := takes.scratch, place := Or.inl empty } empty
    have whole := goes _ _ past
    rw [appends] at whole
    exact ⟨out, w', os', whole, ends whole⟩
  · have opened : w.active.fd.isSome = true := by
      change (w.active.fd.isSome || w.active.spent) = true at able
      rw [walSegFits_unspent fits, Bool.or_false] at able
      exact able
    obtain ⟨out, w', os', appends⟩ := @walAppendActive_takes os w r payload scratchLen
      calm sound.capacity opened takes fits
    rw [appends] at whole
    exact ⟨out, w', os', whole, ends whole⟩
  · exact absurd ⟨takes.sized, takes.small, takes.place⟩ stays

/-- The shortest record there is. -/
def emptyRec : WalRec := ⟨0, 0, 0, 0, 0, 0, 0, 0, 0, 0⟩

/-- A closed segment with space left takes no record: each write goes to the descriptor
that was closed. -/
theorem unable_stuck {log : OpenLog} (sound : log.wal.Sound) (unable : log.wal.able = false) :
    log.wal.Takes emptyRec [] WAL_REC_HEADER_SIZE ∧
      ∃ e w os, walAppend (log.os []) log.wal emptyRec [] WAL_REC_HEADER_SIZE = (.error e, w, os) := by
  unfold Wal.able at unable
  rw [Bool.or_eq_false_iff] at unable
  obtain ⟨closed, unspent⟩ := unable
  unfold WalSeg.spent at unspent
  rw [decide_eq_false_iff_not] at unspent
  have size : walRecSize (i32 emptyRec.len) = WAL_REC_HEADER_SIZE := by decide
  have header : WAL_REC_HEADER_SIZE = 56 := rfl
  have capacity := sound.capacity
  have fits : walSegFits log.wal.active (i32 emptyRec.len) = true := by
    unfold walSegFits
    rw [size, if_neg (by omega), decide_eq_true_eq]
    omega
  refine ⟨⟨by decide, by omega, by decide, Nat.le_of_eq size, Or.inl fits⟩, ?_⟩
  have never : walRollsOver log.wal emptyRec = false := by
    cases rolls : walRollsOver log.wal emptyRec with
    | false => rfl
    | true =>
        have unfit := (walRollsOver_iff.mp rolls).2.2.1
        rw [fits] at unfit
        cases unfit
  rcases walAppend_parts (log.os []) log.wal emptyRec [] WAL_REC_HEADER_SIZE with
    ⟨rolls, _⟩ | ⟨_stays, _fits, whole⟩ | ⟨_stays, e, _other, whole⟩
  · rw [never] at rolls
    cases rolls
  · cases appends : walAppendActive (log.os []) log.wal emptyRec [] WAL_REC_HEADER_SIZE with
    | mk res rest =>
        obtain ⟨w', os'⟩ := rest
        cases res with
        | error e => exact ⟨e, w', os', whole.trans appends⟩
        | ok out =>
            have opened := (walAppendActive_wrote appends).opened out rfl
            rw [closed] at opened
            cases opened
  · exact ⟨e, _, _, whole⟩

/-! ### The same records -/

/-- Every sequence between the ends has its record. -/
theorem Joined.contains {seq : Nat} {views : List SegView} (joined : Joined seq views) {wanted : Nat}
    (from' : seq ≤ wanted) (before : wanted < endOf seq views) :
    ∃ bytes, Contains views wanted bytes := by
  induction views generalizing seq with
  | nil =>
      simp only [endOf] at before
      omega
  | cons head rest ih =>
      obtain ⟨base, later⟩ := joined
      by_cases here : wanted < head.next
      · have inside : wanted - head.base < head.recs.length := by
          unfold SegView.next at here
          omega
        exact ⟨head.recs[wanted - head.base], head, List.mem_cons_self .., wanted - head.base,
          by omega, List.getElem?_eq_getElem inside⟩
      · obtain ⟨bytes, v, present, found⟩ := ih later (by omega) before
        exact ⟨bytes, v, List.mem_cons_of_mem _ present, found⟩

theorem Holds.ends {disk : Disk} {w : Wal} {front : List SegView} {last : SegView}
    (holds : Holds disk w front last) :
    Joined (walFirstSeq w) (front ++ [last]) ∧
      endOf (walFirstSeq w) (front ++ [last]) = walNextSeq w := by
  obtain ⟨first, _positive, joined⟩ := holds.joined
  have head : walFirstSeq w = first := by
    unfold walFirstSeq
    rw [holds.table]
    cases front with
    | nil => exact joined.1
    | cons v rest => exact joined.1
  rw [head]
  refine ⟨joined, ?_⟩
  rw [endOf_append]
  exact holds.nextSeq.symm

/-- A log that kept every record and grew at neither end holds the same records. -/
theorem Keeps.same {disk disk' : Disk} {w w' : Wal} {front front' : List SegView}
    {last last' : SegView} (holds : Holds disk w front last) (holds' : Holds disk' w' front' last')
    (kept : Keeps (front ++ [last]) (front' ++ [last'])) (first : walFirstSeq w' = walFirstSeq w)
    (next : walNextSeq w' = walNextSeq w) (p : Nat × Bytes) :
    p ∈ walRecords disk' w' ↔ p ∈ walRecords disk w := by
  rw [holds.records, holds'.records]
  constructor
  · intro found
    obtain ⟨joined, ends⟩ := holds.ends
    obtain ⟨joined', ends'⟩ := holds'.ends
    obtain ⟨v, present, index, at_seq, at_index⟩ := id found
    obtain ⟨low, high⟩ := joined'.bounds.1 v present
    have inside : index < v.recs.length := (List.getElem?_eq_some_iff.mp at_index).1
    unfold SegView.next at high
    obtain ⟨bytes, known⟩ := @Joined.contains _ _ joined p.1 (by omega) (by omega)
    rw [Contains.unique joined' found (kept _ _ known)]
    exact known
  · exact kept p.1 p.2

/-! ### The main result -/

theorem OpenLog.Working.calmly {log later : OpenLog} (working : log.Working)
    (calmly : log.Calmly later) : later.Working := by
  refine @Runs.Reach.invariant _ _ _ _ _ OpenLog.Working ?_ ?_ later calmly
  · intro first same
    rw [same]
    exact working
  · intro before call after working admitted moves
    rw [moves]
    exact working.after admitted.1 admitted.2

/-- **An append that failed in a system call leaves a working log exactly when** the directory
was named before it and its failure is none of those `Wal.outlives` excludes. -/
theorem failed_append_survived (log : OpenLog) (reached : log.Reached) (r : WalRec)
    (payload : Bytes) (scratchLen : Nat) (script : List Outcome)
    (admitted : log.admits (.append r payload scratchLen, script)) (e : Err)
    (fails : (walAppend (log.os script) log.wal r payload scratchLen).1 = .error e)
    (call : e.code = .syscall) :
    log.Survived (log.after script (.append r payload scratchLen)) ↔
      log.Named ∧ log.wal.outlives r script = true := by
  obtain ⟨⟨front, last, holds⟩, tidy⟩ := reached.held
  have tidy' := OpenLog.after_tidy holds.sound tidy (.append r payload scratchLen) script
  have low : log.wal.active.nextSeq < 2 ^ 64 := Nat.lt_of_lt_of_le admitted.2 (Nat.sub_le _ _)
  simp only [OpenLog.after] at tidy' ⊢
  cases appends : walAppend (log.os script) log.wal r payload scratchLen with
  | mk res rest =>
      obtain ⟨w', os'⟩ := rest
      rw [appends] at fails tidy'
      have failed : res = .error e := fails
      subst failed
      have moved := (walAppend_sound holds.sound appends).1
      have next : walNextSeq w' = walNextSeq log.wal := moved.next
      obtain ⟨front', last', holds', kept⟩ :=
        @walAppend_holds _ _ _ _ (log.os script) _ _ _ _ _ holds admitted.1 low appends
      obtain ⟨grown, exact'⟩ := walAppend_failed holds.sound tidy appends call
      refine Iff.trans ?_ exact'
      constructor
      · intro survived
        refine ⟨survived.named, ?_⟩
        cases able : w'.able with
        | true => rfl
        | false =>
            obtain ⟨takes, e', w2, os2, stuck⟩ :=
              @unable_stuck ⟨os'.disk, w'⟩ holds'.sound able
            obtain ⟨out, w3, os3, done, _seq⟩ := survived.goes ⟨os'.disk, w'⟩ (.start rfl)
              (by rw [next]; exact admitted.2) _ _ _ takes
            rw [stuck] at done
            cases done
      · rintro ⟨named, able⟩
        have working : OpenLog.Working ⟨os'.disk, w'⟩ :=
          ⟨⟨front', last', holds'⟩, tidy', named, able⟩
        exact
          { records := fun p => kept.same holds holds' moved.first next p
            next := next
            table := grown
            represents := holds'.represents
            named := named
            goes := fun later calmly _low _r _payload _scratchLen takes =>
              @walAppend_goes (later.os []) _ _ _ _ rfl (working.calmly calmly) takes }

/-- A log of one record, with no room for one of 64 bytes more. -/
def shortStored : OpenLog :=
  OpenLog.after
    { disk := (walOpen emptyNode.disk.os [] 176 WAL_REC_MAX_SIZE).2.disk
      wal := openedWal 176 [] ⟨1, []⟩ } []
    (.append (plainRec 8) (List.replicate 8 7) WAL_REC_MAX_SIZE)

theorem shortStored_reached : shortStored.Reached := by
  obtain ⟨report, opens⟩ := @walOpen_empty WAL_REC_MAX_SIZE 176 (Nat.le_refl _) (by decide)
    emptyNode.disk.os rfl rfl
  refine Runs.Reach.next (.start ⟨_, _, _, _, _, _, _, opens, congrArg (fun done => done.2.disk) opens⟩)
    (.append (plainRec 8) (List.replicate 8 7) WAL_REC_MAX_SIZE, []) ⟨?_, by decide +kernel⟩ rfl
  exact show (i32 8).toNat ≤ (List.replicate 8 (7 : UInt8)).length by decide

/-- The append of a record that rolls over. -/
def longAppend : LogCall := .append (plainRec 64) (List.replicate 64 7) WAL_REC_MAX_SIZE

theorem longAppend_admitted (script : List Outcome) : shortStored.admits (longAppend, script) :=
  ⟨show (i32 64).toNat ≤ (List.replicate 64 (7 : UInt8)).length by decide,
    show walNextSeq shortStored.wal < _ by decide +kernel⟩

/-- The rollover goes through and the write of the record fails. -/
theorem failed_append_survived_write :
    shortStored.Survived
      (shortStored.after (List.replicate 6 .done ++ [.fails 5 0]) longAppend) :=
  (failed_append_survived shortStored shortStored_reached _ _ _ _ (longAppend_admitted _) ⟨.syscall, 5⟩
    (by decide +kernel) rfl).mpr ⟨by unfold OpenLog.Named; decide +kernel, by decide +kernel⟩

/-- The allocation of the next segment fails: its file stays, and no table names it. -/
theorem failed_append_leaves_file :
    ¬ ∀ log : OpenLog, log.Reached → ∀ r payload scratchLen script,
      log.admits (.append r payload scratchLen, script) → ∀ e,
      (walAppend (log.os script) log.wal r payload scratchLen).1 = .error e → e.code = .syscall →
        log.Survived (log.after script (.append r payload scratchLen)) := by
  intro survives
  have survived := survives shortStored shortStored_reached _ _ _
    [.done, .done, .done, .fails 28 0] (longAppend_admitted _) ⟨.syscall, 28⟩ (by decide +kernel) rfl
  exact absurd (survived.named 2 (by decide +kernel)) (by decide +kernel)

end Msgsrvd

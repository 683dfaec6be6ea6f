/-
A log reopens after its crashes, and keeps what was durable, on every run that stays
clear of three steps: sealing a segment whose tail is not clean, sealing or losing bytes
that were read back unflushed, and writing to a file whose preallocation was lost.
-/

import Msgsrvd.Wal.Survival

namespace Msgsrvd

open Bytestring

/-! ### Guards -/

/-- Whether a run is followed for what reopens, or for what stays durable. -/
inductive Aim where
  | reopening
  | keeping
  deriving DecidableEq

def Node.admits (aim : Aim) (node : Node) : WalCall → Prop
  | .append r _ _ => ∀ w, node.wal = some w →
      w.active.nextSeq < 2 ^ 64 ∧
      (walSegFits w.active (i32 r.len) = true →
        w.segCapacity ≤ (node.disk.file w.active.baseSeq).stab.length) ∧
      (walRollsOver w r = true → tailClean node.disk w = true ∧
        (aim = .reopening →
          w.active.baseSeq ∉ node.owed ∨ w.active.syncedOff ≠ w.active.writeOff))
  | _ => True

def Node.guard (aim : Aim) (node : Node) : WalEvent → Prop
  | .call call => node.admits aim call
  | .kill => True
  | .powerLoss during _ =>
      (∀ call, during = some call → node.admits aim call) ∧ (aim = .keeping → node.owed = [])

/-! ### The invariant -/

structure Good (aim : Aim) (capacity : Nat) (disk : Disk) (w : Wal) (owed : List Nat)
    (durable : List (Nat × Bytes)) (front : List SegView) (last : SegView) : Prop where
  steady : Steady capacity disk w front last owed
  sealed : aim = .reopening → ∀ v ∈ front, v.base ∉ owed
  held : aim = .keeping → ∀ p ∈ durable,
    Contains (front ++ [last]) p.1 p.2 ∧ p.1 ≤ w.active.durableSeq

/-- A log at rest stands as some log left it. -/
def Stopped (aim : Aim) (capacity : Nat) (disk : Disk) (owed : List Nat)
    (durable : List (Nat × Bytes)) : Prop :=
  (disk.dirOps = [] ∧ disk.dir = [] ∧ (aim = .keeping → durable = [])) ∨
    ∃ w front last, Good aim capacity disk w owed durable front last

def NodeInv (aim : Aim) (capacity : Nat) (node : Node) : Prop :=
  match node.wal with
  | none => Stopped aim capacity node.disk node.owed node.durable
  | some w => ∃ front last, Good aim capacity node.disk w node.owed node.durable front last

/-- The records a run of this aim answers for. -/
def Aim.kept (aim : Aim) (durable : List (Nat × Bytes)) : List (Nat × Bytes) :=
  match aim with
  | .reopening => []
  | .keeping => durable

section Good

variable {aim : Aim} {capacity : Nat} {disk : Disk} {w : Wal} {owed : List Nat}
  {durable : List (Nat × Bytes)} {front : List SegView} {last : SegView}

theorem Good.kept_held (good : Good aim capacity disk w owed durable front last) :
    ∀ p ∈ aim.kept durable, Contains (front ++ [last]) p.1 p.2 ∧ p.1 ≤ w.active.durableSeq := by
  intro p present
  cases aim with
  | reopening => cases present
  | keeping => exact good.held rfl p present

theorem Good.rest (good : Good aim capacity disk w owed durable front last) :
    Resting (aim = .reopening) capacity (aim.kept durable) disk :=
  good.steady.rest (fun p present => (good.kept_held p present).1) good.sealed

/-- With nothing owed that matters, no segment of the log is. -/
theorem Good.paid (good : Good aim capacity disk w owed durable front last)
    (clear : aim = .keeping → owed = []) :
    (∀ v ∈ front, v.base ∉ owed) ∧ (aim.kept durable ≠ [] → last.base ∉ owed) := by
  cases aim with
  | reopening => exact ⟨good.sealed rfl, fun some' => absurd rfl some'⟩
  | keeping =>
      rw [clear rfl]
      exact ⟨fun _ _ => List.not_mem_nil, fun _ => List.not_mem_nil⟩

theorem Good.crash (good : Good aim capacity disk w owed durable front last)
    (clear : aim = .keeping → owed = []) {stage left : Disk}
    (same : ∀ v ∈ front ++ [last], stage.file v.base = disk.file v.base)
    (crashed : Crashed stage left) (names : left.dir = disk.dir) :
    Resting (aim = .reopening) capacity (aim.kept durable) left :=
  good.steady.crash same (good.paid clear).1 (good.paid clear).2 good.kept_held crashed names

/-- The records a log reports durable are among those it holds. -/
theorem Good.extend (good : Good aim capacity disk w owed durable front last) :
    Good aim capacity disk w owed (durable ++ durableRecords disk (some w)) front last where
  steady := good.steady
  sealed := good.sealed
  held := by
    intro keeping p present
    rcases List.mem_append.mp present with old | new
    · exact good.held keeping p old
    · obtain ⟨found, low⟩ := List.mem_filter.mp new
      exact ⟨(good.steady.log.records p).mp found, of_decide_eq_true low⟩

/-- Opening a directory fit to be opened gives a good log. -/
theorem Openable.good {reason : ScanEnd} (fit : Openable capacity disk front last reason)
    (header : WAL_REC_HEADER_SIZE ≤ capacity) (settled : disk.dirOps = [])
    (sized : Full capacity (disk.file last.base) ∨ Blank (disk.file last.base))
    (flushed : aim = .reopening → ∀ v ∈ front, (disk.file v.base).stab = (disk.file v.base).vol)
    (held : ∀ p ∈ aim.kept durable, Contains (front ++ [last]) p.1 p.2) :
    Good aim capacity disk (openedWal capacity front last)
      (disk.dir.filter (fun base => (disk.file base).vol != (disk.file base).stab)) durable
      front last where
  steady := fit.steady header settled sized
  sealed := by
    intro reopening v early present
    have differ := (List.mem_filter.mp present).2
    rw [bne_iff_ne] at differ
    exact differ (flushed reopening v early).symm
  held := by
    intro keeping p present
    subst keeping
    have found := held p present
    have below := (fit.log header).contains_lt found
    refine ⟨found, ?_⟩
    change p.1 ≤ last.next - 1
    omega

/-- After a power loss nothing is owed any more. -/
theorem Resting.stopped (resting : Resting (aim = .reopening) capacity (aim.kept durable) disk)
    (header : WAL_REC_HEADER_SIZE ≤ capacity)
    (flushed : ∀ base, (disk.file base).stab = (disk.file base).vol) :
    Stopped aim capacity disk [] durable := by
  obtain ⟨settled, empty | ⟨front, last, reason, fit, sized, sealed, held⟩⟩ := resting
  · left
    refine ⟨settled, empty.1, ?_⟩
    intro keeping
    subst keeping
    exact empty.2
  · right
    have good := fit.good header settled sized sealed held
    have none : disk.dir.filter (fun base => (disk.file base).vol != (disk.file base).stab) =
        [] := by
      rw [List.filter_eq_nil_iff]
      intro base _present differ
      rw [bne_iff_ne] at differ
      exact differ (flushed base).symm
    rw [none] at good
    exact ⟨_, front, last, good⟩

theorem Stopped.crash (stopped : Stopped aim capacity disk owed durable)
    (header : WAL_REC_HEADER_SIZE ≤ capacity) (clear : aim = .keeping → owed = []) {left : Disk}
    (crashed : Crashed disk left) : Stopped aim capacity left [] durable := by
  rcases stopped with ⟨settled, empty, none⟩ | ⟨w, front, last, good⟩
  · left
    refine ⟨crashed.settled, ?_, none⟩
    rw [crashed.dir_settled settled, empty]
  · exact (good.crash clear (fun _ _ => rfl) crashed
      (crashed.dir_settled good.steady.settled)).stopped header crashed.flushed

/-- **A log at rest opens**, whatever the order of its names, and no call it makes on the
way leaves it unfit. -/
theorem Stopped.opens (stopped : Stopped aim capacity disk owed durable)
    (header : WAL_REC_HEADER_SIZE ≤ capacity) {listing : List Nat}
    (listed : listing.Perm disk.dir) {scratchLen : Nat} (scratch : WAL_REC_MAX_SIZE ≤ scratchLen) :
    ∃ report recs w front last os', walOpen disk.os listing capacity scratchLen =
        (.ok (report, w, recs), os') ∧
      Good aim capacity os'.disk w
        (disk.dir.filter (fun base => (disk.file base).vol != (disk.file base).stab)) durable
        front last ∧
      recs = headers (recordsOf (front ++ [last])) ∧
      ∀ stage ∈ os'.seen, stage = disk ∨
        (disk.dirOps = [] ∧ disk.dir = [] ∧ (aim = .keeping → durable = []) ∧
          stage ∈ disk.creating 1 capacity) := by
  have reading (resting : Resting (aim = .reopening) capacity (aim.kept durable) disk)
      (some' : disk.dir ≠ []) :
      ∃ report recs w front last os', walOpen disk.os listing capacity scratchLen =
          (.ok (report, w, recs), os') ∧
        Good aim capacity os'.disk w
          (disk.dir.filter (fun base => (disk.file base).vol != (disk.file base).stab)) durable
          front last ∧
        recs = headers (recordsOf (front ++ [last])) ∧
        ∀ stage ∈ os'.seen, stage = disk ∨
          (disk.dirOps = [] ∧ disk.dir = [] ∧ (aim = .keeping → durable = []) ∧
            stage ∈ disk.creating 1 capacity) := by
    obtain ⟨settled, empty | ⟨front, last, reason, fit, sized, sealed, held⟩⟩ := resting
    · exact absurd empty.1 some'
    · obtain ⟨report, os', reads, _torn, opened⟩ :=
        walOpen_openable scratch header (show disk.os.script = [] from rfl) fit listed
      refine ⟨report, _, _, front, last, os', opened, ?_, rfl, ?_⟩
      · rw [reads.disk]
        exact fit.good header settled sized sealed held
      · intro stage present
        rcases reads.seen stage present with early | same
        · cases early
        · exact Or.inl same
  rcases stopped with ⟨settled, empty, none⟩ | ⟨w, front, last, good⟩
  · rw [empty, List.perm_nil] at listed
    subst listed
    obtain ⟨report, opened⟩ := walOpen_empty scratch header (show disk.os.script = [] from rfl) empty
    refine ⟨report, _, _, [], ⟨1, []⟩, _, opened, ?_, rfl, ?_⟩
    · have names : (disk.created 1 capacity).dir = [1] := by
        rw [Disk.dir_created, empty]
        rfl
      have fit : Openable capacity (disk.created 1 capacity) [] ⟨1, []⟩ .clean :=
        created_openable names (by
          rw [Disk.file_created_same]
          exact fun byte present => List.eq_of_mem_replicate present)
      have good : Good aim capacity _ _ _ durable _ _ := fit.good header rfl
        (Or.inl (by
          simp only [Disk.file_created_same, Full, zeros, List.length_replicate, Nat.le_refl,
            and_self]))
        (fun _ _ none => by cases none)
        (by
          intro p present
          cases aim with
          | reopening => cases present
          | keeping =>
              rw [none rfl] at present
              cases present)
      rw [names, List.filter_cons, Disk.file_created_same] at good
      simp only [bne_self_eq_false, Bool.false_eq_true, if_false, List.filter_nil] at good
      rw [empty, List.filter_nil]
      exact good
    · intro stage present
      simp only [List.mem_append, List.mem_cons] at present
      rcases present with creating | first | second | early
      · exact Or.inr ⟨settled, empty, none, creating⟩
      · exact Or.inl first
      · exact Or.inl second
      · cases early
  · apply reading good.rest
    intro empty
    have present : last.base ∈ disk.dir := by
      rw [good.steady.log.named, good.steady.log.table]
      exact List.mem_map_of_mem (List.mem_append_right _ (List.mem_cons_self ..))
    rw [empty] at present
    cases present

/-! ### What each call keeps -/

theorem Good.synced (good : Good aim capacity disk w owed durable front last) :
    Good aim capacity (disk.synced w) w.synced (owedSynced w owed) durable front last where
  steady := good.steady.synced
  sealed := by
    intro reopening v early present
    apply good.sealed reopening v early
    unfold owedSynced at present
    split at present
    · exact present
    · exact (List.mem_filter.mp present).1
  held := by
    intro keeping p present
    obtain ⟨found, _low⟩ := good.held keeping p present
    have below := good.steady.log.contains_lt found
    refine ⟨found, ?_⟩
    change p.1 ≤ w.active.nextSeq - 1
    rw [good.steady.log.nextSeq]
    omega

theorem owedSynced_nil (w : Wal) : owedSynced w [] = [] := by
  unfold owedSynced
  split <;> rfl

theorem Good.pushed (good : Good aim capacity disk w owed durable front last) {bytes : Bytes}
    (is : IsRec last.next bytes) (fits : last.size + bytes.length ≤ w.segCapacity) (out : WalRec)
    (full : w.segCapacity ≤ (disk.file last.base).stab.length) :
    Good aim capacity (disk.write last.base last.size bytes) (w.pushed out bytes.length) owed
      durable front ⟨last.base, last.recs ++ [bytes]⟩ where
  steady := by
    rw [good.steady.log.segCapacity] at fits full
    refine good.steady.pushed is fits out full ?_
    rcases good.steady.sized with long | blank
    · exact long.1
    · exact Nat.le_trans full blank.2.2
  sealed := good.sealed
  held := by
    intro keeping p present
    obtain ⟨found, low⟩ := good.held keeping p present
    refine ⟨found.mono ?_, low⟩
    intro v member
    rcases List.mem_append.mp member with early | atLast
    · exact ⟨v, List.mem_append_left _ early, rfl, [], (List.append_nil _).symm⟩
    · refine ⟨_, List.mem_append_right _ (List.mem_cons_self ..), ?_, [bytes], ?_⟩ <;>
        rw [List.mem_singleton.mp atLast]

/-- Sealing a segment that is not owed for, or is flushed now. -/
theorem paid_of_guard (log : LogAt capacity disk w front last)
    (sealing : w.active.baseSeq ∉ owed ∨ w.active.syncedOff ≠ w.active.writeOff) :
    last.base ∉ owedSynced w owed := by
  unfold owedSynced
  rw [← log.baseSeq]
  split
  · rename_i clean
    exact sealing.resolve_right (fun dirty => dirty clean)
  · intro present
    have differ := (List.mem_filter.mp present).2
    rw [bne_iff_ne] at differ
    exact differ rfl

theorem Good.rolled (good : Good aim capacity disk w owed durable front last)
    (some' : last.recs ≠ []) (room : w.segBase.length < WAL_MAX_SEGMENTS)
    (clean : tailClean disk w = true)
    (sealing : aim = .reopening →
      w.active.baseSeq ∉ owed ∨ w.active.syncedOff ≠ w.active.writeOff) :
    Good aim capacity ((disk.synced w).created w.active.nextSeq w.segCapacity) w.rolled
      (owedSynced w owed) durable (front ++ [last]) ⟨last.next, []⟩ where
  steady := good.steady.rolled some' room clean
  sealed := by
    intro reopening v present
    rcases List.mem_append.mp present with early | atLast
    · exact good.synced.sealed reopening v early
    · rw [List.mem_singleton.mp atLast]
      exact paid_of_guard good.steady.log (sealing reopening)
  held := by
    intro keeping p present
    obtain ⟨found, low⟩ := good.synced.held keeping p present
    refine ⟨?_, low⟩
    apply found.mono
    intro v member
    exact ⟨v, List.mem_append_left _ member, rfl, [], (List.append_nil _).symm⟩

theorem tailClean_synced (disk : Disk) (w : Wal) :
    tailClean (disk.synced w) w.synced = tailClean disk w := by
  unfold tailClean
  rw [Disk.vol_synced]
  rfl

/-- A power loss while the log rolls over. -/
theorem Good.crash_rolling (good : Good aim capacity disk w owed durable front last)
    (clear : aim = .keeping → owed = []) (some' : last.recs ≠ [])
    (room : w.segBase.length < WAL_MAX_SEGMENTS) (clean : tailClean disk w = true)
    (sealing : aim = .reopening →
      w.active.baseSeq ∉ owed ∨ w.active.syncedOff ≠ w.active.writeOff)
    {stage left : Disk} (at_stage : stage ∈ (disk.os.rolled w).seen)
    (crashed : Crashed stage left) :
    Resting (aim = .reopening) capacity (aim.kept durable) left := by
  have after := good.synced
  have clear' : aim = .keeping → owedSynced w owed = [] := by
    intro keeping
    rw [clear keeping, owedSynced_nil]
  have flushed (same : stage = disk.synced w) :
      Resting (aim = .reopening) capacity (aim.kept durable) left := by
    subst same
    exact after.crash clear' (fun _ _ => rfl) crashed (crashed.dir_settled after.steady.settled)
  rcases List.mem_append.mp at_stage with creating | earlier
  · rw [show (disk.os.disk.synced w) = disk.synced w from rfl,
      good.steady.log.segCapacity] at creating
    refine after.steady.crash_creating rfl some' ?_ ?_ ?_ after.kept_held creating crashed
    · rw [good.steady.log.table, List.length_map, List.length_append] at room
      exact room
    · rw [tailClean_synced]
      exact clean
    · intro v present
      rcases List.mem_append.mp present with early | atLast
      · exact (after.paid clear').1 v early
      · rw [List.mem_singleton.mp atLast]
        cases aim with
        | reopening => exact paid_of_guard good.steady.log (sealing rfl)
        | keeping =>
            rw [clear' rfl]
            exact List.not_mem_nil
  · rcases List.mem_cons.mp earlier with closing | syncing
    · exact flushed closing
    · unfold Os.synced at syncing
      split at syncing
      · cases syncing
      · rcases List.mem_cons.mp syncing with same | none
        · exact flushed same
        · cases none

end Good

/-! ### Calls -/

/-- What a call leaves, done or interrupted. -/
structure CallKeeps (aim : Aim) (capacity : Nat) (node : Node) (call : WalCall) : Prop where
  done : NodeInv aim capacity (node.after capacity call)
  lost : (aim = .keeping → node.owed = []) → ∀ stage ∈ node.stages capacity (some call),
    ∀ left, Crashed stage left → Stopped aim capacity left [] (node.unretired call)

section Calls

variable {aim : Aim} {capacity : Nat} {node : Node}

theorem open_keeps (header : WAL_REC_HEADER_SIZE ≤ capacity) {listing : List Nat}
    {scratchLen : Nat} (inv : NodeInv aim capacity node)
    (legal : node.legal (.open' listing scratchLen)) :
    CallKeeps aim capacity node (.open' listing scratchLen) := by
  obtain ⟨closed, listed, scratch⟩ := legal
  unfold NodeInv at inv
  rw [closed] at inv
  obtain ⟨report, recs, w, front, last, os', opened, good, _returned, stages⟩ :=
    inv.opens header listed scratch
  have ran : node.perform capacity (.open' listing scratchLen) = (some w, os') := by
    simp only [Node.perform, opened]
  constructor
  · unfold NodeInv Node.after
    rw [ran]
    exact ⟨front, last, good.extend⟩
  · intro clear stage present left crashed
    have from_start (same : stage = node.disk) :
        Stopped aim capacity left [] (node.unretired (.open' listing scratchLen)) := by
      subst same
      exact inv.crash header clear crashed
    rcases List.mem_cons.mp present with first | later
    · exact from_start first
    · rw [ran] at later
      rcases stages stage later with same | ⟨settled, empty, none, creating⟩
      · exact from_start same
      · have nothing : aim.kept node.durable = [] := by
          cases aim with
          | reopening => rfl
          | keeping => exact none rfl
        have blank := creating_blank creating
        have resting : Resting (aim = .reopening) capacity (aim.kept node.durable) left := by
          refine ⟨crashed.settled, ?_⟩
          rcases crashed.dir_creating creating settled with names | names
          · exact Or.inl ⟨by rw [names, empty], nothing⟩
          · have only : left.dir = [1] := by
              rw [names, empty]
              rfl
            have here : 1 ∈ left.dir := by
              rw [only]
              exact List.mem_cons_self ..
            refine Or.inr ⟨[], ⟨1, []⟩, .clean, ?_, sized_after crashed here (Or.inr blank), ?_, ?_⟩
            · exact created_openable only ((crashed.files 1 here).blank blank)
            · intro _ v none
              cases none
            · rw [nothing]
              intro p none
              cases none
        exact resting.stopped header crashed.flushed

/-- An append in place on a good log. -/
theorem pushed_keeps {os : Os} {w : Wal} {owed : List Nat} {durable : List (Nat × Bytes)}
    {front : List SegView} {last : SegView}
    (good : Good aim capacity os.disk w owed durable front last) {r : WalRec} {payload : Bytes}
    {scratchLen : Nat} {res : Except Err WalRec × Wal × Os}
    (full : w.segCapacity ≤ (os.disk.file last.base).stab.length)
    (pushed : Pushed os w last r payload scratchLen res) :
    ∃ last', Good aim capacity res.2.2.disk res.2.1 owed durable front last' ∧
      ∀ stage ∈ res.2.2.seen, stage ∈ os.seen ∨ stage = res.2.2.disk := by
  cases pushed with
  | refused e => exact ⟨last, good, fun stage present => Or.inl present⟩
  | written encoded is fits =>
      refine ⟨_, good.pushed is fits _ full, ?_⟩
      intro stage present
      rcases List.mem_cons.mp present with newest | earlier
      · exact Or.inr newest
      · exact Or.inl earlier

theorem appended_keeps {w : Wal} {owed : List Nat} {durable : List (Nat × Bytes)} {disk : Disk}
    {front : List SegView} {last : SegView}
    (good : Good aim capacity disk w owed durable front last) {r : WalRec} {payload : Bytes}
    {scratchLen : Nat} {res : Except Err WalRec × Wal × Os}
    (sized : walSegFits w.active (i32 r.len) = true →
      w.segCapacity ≤ (disk.file last.base).stab.length)
    (sealing : walRollsOver w r = true → tailClean disk w = true ∧ (aim = .reopening →
      w.active.baseSeq ∉ owed ∨ w.active.syncedOff ≠ w.active.writeOff))
    (appended : Appended disk.os w last r payload scratchLen res) :
    (∃ front' last', Good aim capacity res.2.2.disk res.2.1
        (if walRollsOver w r then owedSynced w owed else owed) durable front' last') ∧
      ((aim = .keeping → owed = []) → ∀ stage ∈ res.2.2.seen, ∀ left, Crashed stage left →
        Resting (aim = .reopening) capacity (aim.kept durable) left) := by
  cases appended with
  | refused e stays =>
      rw [stays]
      exact ⟨⟨front, last, good⟩, fun _ stage none => by cases none⟩
  | here fits pushed =>
      have stays : walRollsOver w r = false := by
        unfold walRollsOver
        simp only [fits, if_true, ite_self]
      obtain ⟨last', good', stages⟩ := pushed_keeps (show Good _ _ disk.os.disk _ _ _ _ _ from good)
        (sized fits) pushed
      rw [stays]
      refine ⟨⟨front, last', good'⟩, ?_⟩
      intro clear stage present left crashed
      rcases stages stage present with none | same
      · cases none
      · subst same
        exact good'.crash clear (fun _ _ => rfl) crashed (crashed.dir_settled good'.steady.settled)
  | next past some' room pushed =>
      obtain ⟨clean, paid⟩ := sealing past
      have rolled := good.rolled some' room clean paid
      have full : w.rolled.segCapacity ≤
          ((disk.os.rolled w).disk.file last.next).stab.length := by
        change w.segCapacity ≤
          (((disk.synced w).created w.active.nextSeq w.segCapacity).file last.next).stab.length
        rw [← good.steady.log.nextSeq, Disk.file_created_same]
        simp only [zeros, List.length_replicate, Nat.le_refl]
      obtain ⟨last', good', stages⟩ := pushed_keeps (show Good _ _ (disk.os.rolled w).disk _ _ _ _ _
        from rolled) full pushed
      rw [past]
      refine ⟨⟨_, last', good'⟩, ?_⟩
      intro clear stage present left crashed
      rcases stages stage present with earlier | same
      · exact good.crash_rolling clear some' room clean paid earlier crashed
      · subst same
        have clear' : aim = .keeping → owedSynced w owed = [] := by
          intro keeping
          rw [clear keeping, owedSynced_nil]
        exact good'.crash clear' (fun _ _ => rfl) crashed
          (crashed.dir_settled good'.steady.settled)

theorem append_keeps (header : WAL_REC_HEADER_SIZE ≤ capacity) {r : WalRec} {payload : Bytes}
    {scratchLen : Nat} (inv : NodeInv aim capacity node)
    (legal : node.legal (.append r payload scratchLen))
    (admitted : node.admits aim (.append r payload scratchLen)) :
    CallKeeps aim capacity node (.append r payload scratchLen) := by
  obtain ⟨running, given⟩ := legal
  cases opened : node.wal with
  | none => exact absurd opened running
  | some w =>
      obtain ⟨low, sized, sealing⟩ := admitted w opened
      unfold NodeInv at inv
      rw [opened] at inv
      obtain ⟨front, last, good⟩ := inv
      have log := good.steady.log
      rw [log.nextSeq] at low
      rw [log.baseSeq] at sized
      have ran : node.perform capacity (.append r payload scratchLen) =
          (some (walAppend node.disk.os w r payload scratchLen).2.1,
            (walAppend node.disk.os w r payload scratchLen).2.2) := by
        simp only [Node.perform, opened]
      obtain ⟨⟨front', last', good'⟩, stages⟩ := appended_keeps good sized sealing
        (walAppend_log (show node.disk.os.script = [] from rfl) log given low scratchLen)
      constructor
      · unfold NodeInv Node.after
        rw [ran]
        simp only [Node.owedAfter, opened, Wal.syncs]
        exact ⟨front', last', good'.extend⟩
      · intro clear stage present left crashed
        rcases List.mem_cons.mp present with first | later
        · subst first
          exact (good.crash clear (fun _ _ => rfl) crashed
            (crashed.dir_settled good.steady.settled)).stopped header crashed.flushed
        · rw [ran] at later
          exact (stages clear stage later left crashed).stopped header crashed.flushed

theorem sync_keeps (header : WAL_REC_HEADER_SIZE ≤ capacity) (inv : NodeInv aim capacity node)
    (legal : node.legal .sync) : CallKeeps aim capacity node .sync := by
  cases opened : node.wal with
  | none => exact absurd opened legal
  | some w =>
      unfold NodeInv at inv
      rw [opened] at inv
      obtain ⟨front, last, good⟩ := inv
      have ran : node.perform capacity .sync = (some w.synced, node.disk.os.synced w) := by
        simp only [Node.perform, opened,
          walSync_log (show node.disk.os.script = [] from rfl) good.steady.log]
      have after := good.synced
      constructor
      · unfold NodeInv Node.after
        rw [ran]
        simp only [Node.owedAfter, opened, Wal.syncs, if_true, Os.synced_disk]
        exact ⟨front, last, after.extend⟩
      · intro clear stage present left crashed
        have settled := good.steady.settled
        rcases List.mem_cons.mp present with first | later
        · subst first
          exact (good.crash clear (fun _ _ => rfl) crashed
            (crashed.dir_settled settled)).stopped header crashed.flushed
        · rw [ran] at later
          unfold Os.synced at later
          split at later
          · cases later
          · rcases List.mem_cons.mp later with same | none
            · subst same
              have clear' : aim = .keeping → owedSynced w node.owed = [] := by
                intro keeping
                rw [clear keeping, owedSynced_nil]
              exact (after.crash clear' (fun _ _ => rfl) crashed
                (crashed.dir_settled after.steady.settled)).stopped header crashed.flushed
            · cases none

/-- What is not below the first segment kept lies in a segment kept. -/
theorem LogAt.contains_dropped {capacity : Nat} {disk : Disk} {w : Wal} {front : List SegView}
    {last : SegView} (log : LogAt capacity disk w front last) {drop : Nat}
    (inside : drop ≤ front.length) {seq : Nat} {bytes : Bytes}
    (found : Contains (front ++ [last]) seq bytes)
    (kept : (w.segBase.drop drop).headD 0 ≤ seq) :
    Contains (front.drop drop ++ [last]) seq bytes := by
  obtain ⟨first, _positive, joined⟩ := log.joined
  have shape : front ++ [last] = front.take drop ++ (front.drop drop ++ [last]) := by
    rw [← List.append_assoc, List.take_append_drop]
  have table : w.segBase.drop drop = (front.drop drop ++ [last]).map SegView.base := by
    rw [log.table, ← List.map_drop, List.drop_append_of_le_length inside]
  rw [shape] at joined
  have head : (w.segBase.drop drop).headD 0 = endOf first (front.take drop) := by
    rw [table]
    have later := joined.right
    cases rest : front.drop drop with
    | nil =>
        rw [rest] at later
        exact later.1
    | cons v others =>
        rw [rest] at later
        exact later.1
  obtain ⟨v, present, index, at_seq, found⟩ := found
  rw [shape] at present
  rcases List.mem_append.mp present with gone | stays
  · have below := (joined.left.bounds.1 v gone).2
    have short : index < v.recs.length := (List.getElem?_eq_some_iff.mp found).1
    unfold SegView.next at below
    omega
  · exact ⟨v, stays, index, at_seq, found⟩

theorem retain_keeps (header : WAL_REC_HEADER_SIZE ≤ capacity) {keepFrom : Nat}
    (inv : NodeInv aim capacity node) (legal : node.legal (.retain keepFrom)) :
    CallKeeps aim capacity node (.retain keepFrom) := by
  cases opened : node.wal with
  | none => exact absurd opened legal
  | some w =>
      unfold NodeInv at inv
      rw [opened] at inv
      obtain ⟨front, last, good⟩ := inv
      have log := good.steady.log
      have inside := log.drop_le keepFrom
      obtain ⟨removed, os', retained, calm, log', disk', stages⟩ :=
        walRetain_log (show node.disk.os.script = [] from rfl) log keepFrom
      have ran : node.perform capacity (.retain keepFrom) =
          (some { w with segBase := w.segBase.drop (walRetainDrop keepFrom w.segBase) }, os') := by
        simp only [Node.perform, opened, retained]
      have unretired : node.unretired (.retain keepFrom) = node.durable.filter (fun p =>
          (w.segBase.drop (walRetainDrop keepFrom w.segBase)).headD 0 ≤ p.1) := by
        simp only [Node.unretired, opened]
      have held (keeping : aim = .keeping) : ∀ p ∈ node.unretired (.retain keepFrom),
          Contains (front.drop (walRetainDrop keepFrom w.segBase) ++ [last]) p.1 p.2 ∧
            p.1 ≤ w.active.durableSeq := by
        intro p present
        rw [unretired] at present
        obtain ⟨old, kept⟩ := List.mem_filter.mp present
        obtain ⟨found, low⟩ := good.held keeping p old
        exact ⟨log.contains_dropped inside found (of_decide_eq_true kept), low⟩
      have files : os'.disk.file = node.disk.file ∧ os'.disk.dirOps = [] := by
        rcases disk' with same | same
        · rw [same]
          exact ⟨rfl, good.steady.settled⟩
        · rw [same]
          exact ⟨rfl, rfl⟩
      have after : Good aim capacity os'.disk
          { w with segBase := w.segBase.drop (walRetainDrop keepFrom w.segBase) } node.owed
          (node.unretired (.retain keepFrom))
          (front.drop (walRetainDrop keepFrom w.segBase)) last :=
        { steady := good.steady.dropped files.1 files.2 log'
          sealed := fun reopening v present =>
            good.sealed reopening v (List.mem_of_mem_drop present)
          held := held }
      constructor
      · unfold NodeInv Node.after
        rw [ran]
        simp only [Node.owedAfter, opened, Wal.syncs, Bool.false_eq_true, if_false]
        exact ⟨_, last, after.extend⟩
      · intro clear stage present left crashed
        have paid := good.paid clear
        have unlinked {count : Nat} (few : count ≤ walRetainDrop keepFrom w.segBase)
            (same : stage = node.disk.unlinked (w.segBase.take count)) :
            Stopped aim capacity left [] (node.unretired (.retain keepFrom)) := by
          subst same
          exact (good.steady.crash_unlinked paid.1 inside (after.paid clear).2 after.kept_held
            few crashed).stopped header crashed.flushed
        rcases List.mem_cons.mp present with first | later
        · apply unlinked (Nat.zero_le _)
          rw [first, List.take_zero]
          simp only [Disk.unlinked, List.map_nil, List.append_nil]
        · rw [ran] at later
          rcases stages stage later with none | same | ⟨count, few, same⟩
          · cases none
          · subst same
            exact (after.crash clear (fun _ _ => rfl) crashed
              (crashed.dir_settled files.2)).stopped header crashed.flushed
          · exact unlinked few same

theorem close_keeps (header : WAL_REC_HEADER_SIZE ≤ capacity) (inv : NodeInv aim capacity node)
    (legal : node.legal .close) : CallKeeps aim capacity node .close := by
  cases opened : node.wal with
  | none => exact absurd opened legal
  | some w =>
      unfold NodeInv at inv
      rw [opened] at inv
      obtain ⟨front, last, good⟩ := inv
      have log := good.steady.log
      obtain ⟨none', disk', stages⟩ := close_performed opened log
      constructor
      · unfold NodeInv Node.after
        rw [none', disk']
        simp only [Node.owedAfter, opened, Wal.syncs, Bool.false_eq_true, if_false,
          Node.unretired, durableRecords, List.append_nil]
        exact Or.inr ⟨w, front, last, good⟩
      · intro clear stage present left crashed
        have same : stage = node.disk := by
          rcases List.mem_cons.mp present with first | later
          · exact first
          · exact stages stage later
        subst same
        exact (good.crash clear (fun _ _ => rfl) crashed
          (crashed.dir_settled good.steady.settled)).stopped header crashed.flushed

theorem call_keeps (header : WAL_REC_HEADER_SIZE ≤ capacity) (inv : NodeInv aim capacity node)
    {call : WalCall} (legal : node.legal call) (admitted : node.admits aim call) :
    CallKeeps aim capacity node call := by
  cases call with
  | open' listing scratchLen => exact open_keeps header inv legal
  | append r payload scratchLen => exact append_keeps header inv legal admitted
  | sync => exact sync_keeps header inv legal
  | retain keepFrom => exact retain_keeps header inv legal
  | close => exact close_keeps header inv legal

theorem NodeInv.stopped (inv : NodeInv aim capacity node) :
    Stopped aim capacity node.disk node.owed node.durable := by
  unfold NodeInv at inv
  cases opened : node.wal with
  | none =>
      rw [opened] at inv
      exact inv
  | some w =>
      rw [opened] at inv
      exact Or.inr ⟨w, inv⟩

end Calls

/-! ### Runs -/

theorem Reached.inv {aim : Aim} {capacity : Nat} (header : WAL_REC_HEADER_SIZE ≤ capacity)
    {node : Node} (reached : Reached capacity (Node.guard aim) node) :
    NodeInv aim capacity node := by
  apply Runs.Reach.invariant _ _ reached
  · rintro start ⟨closed, empty, settled, _owed, durable⟩
    unfold NodeInv
    rw [closed]
    exact Or.inl ⟨settled, empty, fun _ => durable⟩
  · intro before event after inv admitted moves
    cases moves with
    | call legal => exact (call_keeps header inv legal admitted).done
    | kill => exact inv.stopped
    | idleLoss crashed => exact inv.stopped.crash header admitted.2 crashed
    | callLoss legal interrupted crashed =>
        exact (call_keeps header inv legal (admitted.1 _ rfl)).lost admitted.2 _ interrupted _
          crashed

/-- Opening succeeds, whatever order the names come in. -/
def Reopens (capacity : Nat) (node : Node) : Prop :=
  node.wal = none → ∀ listing scratchLen, listing.Perm node.disk.dir →
    WAL_REC_MAX_SIZE ≤ scratchLen → ∃ report w recs os',
      walOpen node.disk.os listing capacity scratchLen = (.ok (report, w, recs), os')

/-- Opening returns every record that was durable once, byte for byte. -/
def KeepsDurable (capacity : Nat) (node : Node) : Prop :=
  node.wal = none → ∀ listing scratchLen, listing.Perm node.disk.dir →
    WAL_REC_MAX_SIZE ≤ scratchLen → ∃ report w recs os',
      walOpen node.disk.os listing capacity scratchLen = (.ok (report, w, recs), os') ∧
        ∀ p ∈ node.durable, p ∈ walRecords os'.disk w ∧
          ∃ r ∈ recs, walRecDecode p.2 = some r ∧ r.seq = p.1

/-! ### A small run -/

theorem oneRecord_guarded (aim : Aim) : Reached 176 (Node.guard aim) oneRecord := by
  apply oneRecord_reached
  · trivial
  · intro w opened
    have same : (emptyNode.after 176 (.open' [] WAL_REC_MAX_SIZE)).wal =
        some (openedWal 176 [] ⟨1, []⟩) := by rfl
    rw [same] at opened
    cases opened
    refine ⟨by decide +kernel, fun _ => by decide +kernel, ?_⟩
    intro past
    exact absurd past (by decide +kernel)

/-- **The log always reopens after its own crashes**, on a run that never seals a segment
with bytes left past its end or read back unflushed, and never writes to a file that lost
its preallocation. -/
theorem log_reopens (capacity : Nat) (header : WAL_REC_HEADER_SIZE ≤ capacity) (node : Node)
    (reached : Reached capacity (Node.guard .reopening) node) : Reopens capacity node := by
  intro _closed listing scratchLen listed scratch
  obtain ⟨report, recs, w, _front, _last, os', opened, _good, _returned, _stages⟩ :=
    (reached.inv header).stopped.opens header listed scratch
  exact ⟨report, w, recs, os', opened⟩

theorem log_reopens_oneRecord : Reopens 176 (oneRecord.after 176 .close) :=
  log_reopens 176 (by decide) _
    (.next (oneRecord_guarded .reopening) (.call .close) trivial
      (.call (by
        change oneRecord.wal ≠ none
        decide +kernel)))

/-- Two records, of which the second reached the disk in part only. -/
def tornRecord : Node :=
  { disk := diskOf ((((oneRecord.after 176 (appendOf 8)).disk.file 1).vol.take 120) ++ zeros 56)
    wal := none, owed := [], durable := (oneRecord.after 176 (appendOf 8)).durable }

/-- The torn record is left behind when the next one starts a new segment. -/
def tornSealed : Node :=
  ((tornRecord.after 176 (.open' [1] WAL_REC_MAX_SIZE)).after 176 (appendOf 64)).after 176 .close

theorem tornRecord_reached : Reached 176 (fun _ _ => True) tornRecord := by
  have one := oneRecord_reached (fun _ _ => True) trivial trivial
  have two := one.next (.call (appendOf 8)) trivial
    (.call ⟨by decide +kernel, by decide +kernel⟩)
  refine two.next (.powerLoss none tornRecord.disk) trivial (.idleLoss ?_)
  refine ⟨?_, fun _ => rfl, ⟨0, by decide +kernel⟩, rfl⟩
  intro base present
  have only : base = 1 := List.mem_singleton.mp present
  subst only
  exact Mixed.of_mixes (by decide +kernel) (by decide +kernel) (by decide +kernel)

theorem tornSealed_reached : Reached 176 (fun _ _ => True) tornSealed := by
  have opened := tornRecord_reached.next (.call (.open' [1] WAL_REC_MAX_SIZE)) trivial
    (.call ⟨rfl, List.Perm.refl _, Nat.le_refl _⟩)
  have rolled := opened.next (.call (appendOf 64)) trivial
    (.call ⟨by decide +kernel, by decide +kernel⟩)
  exact rolled.next (.call .close) trivial (.call (by
    change Node.wal _ ≠ none
    decide +kernel))

/-- Two crashes are not needed: a torn tail, a rollover and a restart are enough. -/
theorem log_not_reopened :
    ¬ ∀ node, Reached 176 (fun _ _ => True) node → Reopens 176 node := by
  intro always
  obtain ⟨report, w, recs, os', opened⟩ :=
    always tornSealed tornSealed_reached (by decide +kernel) [1, 2] WAL_REC_MAX_SIZE
      (by decide +kernel) (Nat.le_refl _)
  have failed : (walOpen tornSealed.disk.os [1, 2] 176 WAL_REC_MAX_SIZE).1.isOk = false := by
    decide +kernel
  rw [opened] at failed
  cases failed

/-- **What was durable stays durable**, on a run that loses power only while nothing read
back unflushed is still unflushed, and seals only segments that end cleanly. -/
theorem durable_records_kept (capacity : Nat) (header : WAL_REC_HEADER_SIZE ≤ capacity)
    (node : Node) (reached : Reached capacity (Node.guard .keeping) node) :
    KeepsDurable capacity node := by
  intro _closed listing scratchLen listed scratch
  obtain ⟨report, recs, w, front, last, os', opened, good, returned, _stages⟩ :=
    (reached.inv header).stopped.opens header listed scratch
  refine ⟨report, w, recs, os', opened, ?_⟩
  intro p present
  have found := (good.held rfl p present).1
  refine ⟨(good.steady.log.records p).mpr found, ?_⟩
  rw [returned]
  exact good.steady.log.returned found

theorem durable_records_kept_oneRecord :
    KeepsDurable 176 ((oneRecord.after 176 .sync).after 176 .close) := by
  have synced := (oneRecord_guarded .keeping).next (.call .sync) trivial
    (.call (by
      change oneRecord.wal ≠ none
      decide +kernel))
  exact durable_records_kept 176 (by decide) _
    (synced.next (.call .close) trivial
      (.call (by
        change Node.wal _ ≠ none
        decide +kernel)))

/-- The record of `oneRecord`, read back after a kill and so counted as durable. -/
def readBack : Node :=
  { oneRecord with wal := none }.after 176 (.open' [1] WAL_REC_MAX_SIZE)

/-- The power loss that takes it. -/
def lostRecord : Node :=
  { disk := diskOf (zeros 176), wal := none, owed := [], durable := readBack.durable }

theorem lostRecord_reached : Reached 176 (fun _ _ => True) lostRecord := by
  have one := oneRecord_reached (fun _ _ => True) trivial trivial
  have killed := one.next .kill trivial .kill
  have opened : Reached 176 (fun _ _ => True) readBack :=
    killed.next (.call (.open' [1] WAL_REC_MAX_SIZE)) trivial (.call ⟨rfl, by decide +kernel, Nat.le_refl _⟩)
  refine opened.next (.powerLoss none lostRecord.disk) trivial (.idleLoss ?_)
  refine ⟨?_, fun _ => rfl, ⟨0, by decide +kernel⟩, rfl⟩
  intro base present
  have only : base = 1 := List.mem_singleton.mp present
  subst only
  exact Mixed.of_mixes (by decide +kernel) (by decide +kernel) (by decide +kernel)

/-- A record that was read back and counted as durable is gone after a power loss. -/
theorem durable_record_lost :
    ¬ ∀ node, Reached 176 (fun _ _ => True) node → KeepsDurable 176 node := by
  intro always
  obtain ⟨report, w, recs, os', opened, kept⟩ :=
    always lostRecord lostRecord_reached rfl [1] WAL_REC_MAX_SIZE (List.Perm.refl _)
      (Nat.le_refl _)
  have none : (walOpen lostRecord.disk.os [1] 176 WAL_REC_MAX_SIZE).1.toOption.map
      (fun found => found.2.2) = some [] := by decide +kernel
  rw [opened] at none
  have returned : recs = [] := Option.some.inj none
  have some' : lostRecord.durable ≠ [] := by decide +kernel
  obtain ⟨p, present⟩ := List.exists_mem_of_ne_nil _ some'
  obtain ⟨_found, r, member, _⟩ := kept p present
  rw [returned] at member
  cases member

end Msgsrvd

/-
Whatever happened before, a log that is open stands in `LogAt`.

No guard is needed for this but that sequences stay within their width: a run may
seal torn segments and lose bytes it counted as flushed, as long as the log opens.
-/

import Msgsrvd.Wal.Runs

namespace Msgsrvd

open Bytestring

/-- Sequences stay within their width. -/
def Node.counts (node : Node) : WalEvent → Prop
  | .call (.append _ _ _) | .powerLoss (some (.append _ _ _)) _ =>
      ∀ w, node.wal = some w → w.active.nextSeq < 2 ^ 64
  | _ => True

/-- No directory operation is pending, and no name appears twice. -/
def Disk.Tidy (disk : Disk) : Prop := disk.dirOps = [] ∧ disk.dir.Nodup

/-- Any power loss at this point leaves a tidy directory. -/
def Disk.Survives (disk : Disk) : Prop := ∀ left, Crashed disk left → left.Tidy

def Live (capacity : Nat) (node : Node) : Prop :=
  node.disk.Tidy ∧ ∀ w, node.wal = some w → ∃ front last, LogAt capacity node.disk w front last

theorem Disk.Tidy.survives {disk stage : Disk} (tidy : disk.Tidy) (names : stage.dir = disk.dir)
    (settled : stage.dirOps = []) : stage.Survives := by
  intro left crashed
  refine ⟨crashed.settled, ?_⟩
  rw [crashed.dir_settled settled, names]
  exact tidy.2

theorem Disk.Tidy.created {disk : Disk} (tidy : disk.Tidy) {base : Nat}
    (absent : base ∉ disk.dir) : (disk.dir ++ [base]).Nodup := by
  rw [List.nodup_append]
  refine ⟨tidy.2, List.pairwise_singleton _ _, ?_⟩
  intro other present again alone same
  rw [List.mem_singleton.mp alone] at same
  rw [same] at present
  exact absent present

theorem Disk.Tidy.creating {disk stage : Disk} (tidy : disk.Tidy) {base size : Nat}
    (absent : base ∉ disk.dir) (at_stage : stage ∈ disk.creating base size) :
    stage.Survives := by
  intro left crashed
  refine ⟨crashed.settled, ?_⟩
  rcases crashed.dir_creating at_stage tidy.1 with names | names
  · rw [names]
    exact tidy.2
  · rw [names]
    exact tidy.created absent

theorem Disk.Tidy.unlinked {disk : Disk} (tidy : disk.Tidy) (bases : List Nat) :
    (disk.unlinked bases).Survives := by
  intro left crashed
  refine ⟨crashed.settled, ?_⟩
  obtain ⟨count, _few, names⟩ := crashed.dir_unlinked tidy.1
  rw [names, Disk.dir_unlinked]
  exact (mem_foldl_erase tidy.2).1

theorem Disk.Tidy.synced {disk : Disk} (tidy : disk.Tidy) (w : Wal) : (disk.synced w).Tidy := by
  refine ⟨?_, ?_⟩
  · unfold Disk.synced
    split
    · exact tidy.1
    · exact tidy.1
  · rw [Disk.dir_synced]
    exact tidy.2

/-! ### Calls -/

/-- What a call leaves, done or interrupted. -/
structure CallLives (capacity : Nat) (node : Node) (call : WalCall) : Prop where
  done : Live capacity (node.after capacity call)
  stages : ∀ stage ∈ (node.perform capacity call).2.seen, stage.Survives

section Calls

variable {capacity : Nat} {node : Node}

theorem walOpenScan_reads {scratchLen : Nat} (scratch : WAL_REC_MAX_SIZE ≤ scratchLen)
    (header : WAL_REC_HEADER_SIZE ≤ capacity) {table : List Nat} {os : Os}
    (calm : os.script = []) (acc : OpenScan) (named : ∀ base ∈ table, base ∈ os.disk.dir) :
    Reads os (walOpenScan capacity scratchLen table os acc).2 := by
  induction table generalizing os acc with
  | nil => exact Reads.refl calm
  | cons base rest ih =>
      unfold walOpenScan
      by_cases at_expected : base ≠ acc.expected
      · rw [if_pos at_expected]
        exact Reads.refl calm
      · rw [if_neg at_expected]
        by_cases positive : 1 ≤ base
        · obtain ⟨recs, reason, scan⟩ := Scans.exists capacity base
            ((os.disk.file base).vol.take capacity)
          have segment : (⟨base, recs⟩ : SegView).base = base := rfl
          obtain ⟨opening, seg, opened, recovering, reads, found⟩ := segment_recovered scratch
            header calm (show 1 ≤ (⟨base, recs⟩ : SegView).base from positive)
            (named base (List.mem_cons_self ..)) scan
          rw [segment] at opened
          rw [opened]
          simp only
          rw [found]
          have closed := land_reads recovering
          have later (acc : OpenScan) := ih (show (recovering.land [] recovering.disk).script = []
            from rfl) acc (by
              intro other present
              rw [closed.disk, reads.disk]
              exact named other (List.mem_cons_of_mem _ present))
          cases reason with
          | cut size =>
              simp only [SegView.result, osClose_calm reads.script]
              exact reads.trans closed
          | torn =>
              cases rest with
              | nil => exact reads
              | cons second others =>
                  simp only [SegView.result, if_true, osClose_calm reads.script]
                  exact reads.trans closed
          | clean =>
              cases rest with
              | nil => exact reads
              | cons second others =>
                  simp only [SegView.result, Bool.false_eq_true, if_false,
                    osClose_calm reads.script]
                  exact reads.trans (closed.trans (later _))
        · unfold walSegOpen
          rw [if_pos (Or.inl (by omega))]
          exact Reads.refl calm

/-- Opening a directory with names in it only reads. -/
theorem walOpen_reads {scratchLen : Nat} (scratch : WAL_REC_MAX_SIZE ≤ scratchLen) {os : Os}
    (calm : os.script = []) {listing : List Nat} (listed : listing.Perm os.disk.dir)
    (some' : os.disk.dir ≠ []) : Reads os (walOpen os listing capacity scratchLen).2 := by
  unfold walOpen
  by_cases sizes : capacity < WAL_REC_HEADER_SIZE ∨ scratchLen < WAL_REC_HEADER_SIZE
  · rw [if_pos sizes]
    exact Reads.refl calm
  · rw [if_neg sizes, plain_id_calm calm]
    rw [not_or] at sizes
    have header : WAL_REC_HEADER_SIZE ≤ capacity := by omega
    simp only
    rw [segTableLoad_calm rfl]
    have listing' : Reads os ((os.land [] os.disk).land [] os.disk) :=
      (land_reads os).trans (land_reads _)
    cases filled : segTableFill [] listing with
    | error e =>
        exact listing'.trans (land_reads _)
    | ok table =>
        obtain ⟨_sorted, _few, members⟩ :=
          segTableFill_ok filled List.Pairwise.nil (Nat.zero_le _)
        have names (base : Nat) (present : base ∈ table) : base ∈ os.disk.dir := by
          rw [members, listed.mem_iff] at present
          exact present.resolve_left List.not_mem_nil
        cases table with
        | nil =>
            obtain ⟨base, present⟩ := List.exists_mem_of_ne_nil _ some'
            have impossible := (members base).mpr (Or.inr (listed.mem_iff.mpr present))
            cases impossible
        | cons first rest =>
            have reads := walOpenScan_reads scratch header
              (show ((os.land [] os.disk).land [] os.disk).script = [] from rfl)
              ⟨first, 0, (walClosed capacity).active, false, []⟩ names
            have same : (os.land [] os.disk).disk = os.disk := rfl
            simp only [same]
            cases scanned : walOpenScan capacity scratchLen (first :: rest)
                ((os.land [] os.disk).land [] os.disk)
                ⟨first, 0, (walClosed capacity).active, false, []⟩ with
            | mk res os' =>
                rw [scanned] at reads
                change Reads _ os' at reads
                cases res with
                | error e =>
                    simp only [osClose_calm reads.script]
                    exact listing'.trans (reads.trans (land_reads _))
                | ok acc => exact listing'.trans reads

theorem open_lives (live : Live capacity node) {listing : List Nat} {scratchLen : Nat}
    (legal : node.legal (.open' listing scratchLen)) :
    CallLives capacity node (.open' listing scratchLen) := by
  obtain ⟨closed, listed, scratch⟩ := legal
  obtain ⟨tidy, _⟩ := live
  by_cases empty : node.disk.dir = []
  · by_cases header : WAL_REC_HEADER_SIZE ≤ capacity
    · rw [empty, List.perm_nil] at listed
      subst listed
      obtain ⟨report, opened⟩ := walOpen_empty scratch header
        (show node.disk.os.script = [] from rfl) empty
      have absent : 1 ∉ node.disk.dir := by
        rw [empty]
        exact List.not_mem_nil
      have names : (node.disk.created 1 capacity).dir = [1] := by
        rw [Disk.dir_created, empty]
        rfl
      have fit : Openable capacity (node.disk.created 1 capacity) [] ⟨1, []⟩ .clean :=
        created_openable names (by
          rw [Disk.file_created_same]
          exact fun byte present => List.eq_of_mem_replicate present)
      constructor
      · unfold Live Node.after
        simp only [Node.perform, opened]
        refine ⟨⟨rfl, ?_⟩, ?_⟩
        · rw [Disk.dir_created]
          exact tidy.created absent
        · intro w same
          cases same
          exact ⟨_, _, fit.log header⟩
      · simp only [Node.perform, opened]
        intro stage present
        simp only [List.mem_append, List.mem_cons] at present
        rcases present with creating | first | second | early
        · exact tidy.creating absent creating
        · rw [first]
          exact tidy.survives rfl tidy.1
        · rw [second]
          exact tidy.survives rfl tidy.1
        · cases early
    · have refused : walOpen node.disk.os listing capacity scratchLen =
          (.error ⟨.invalid, 0⟩, node.disk.os) := by
        unfold walOpen
        rw [if_pos (Or.inl (by omega))]
      constructor
      · unfold Live Node.after
        simp only [Node.perform, refused]
        exact ⟨tidy, fun _ none => by cases none⟩
      · simp only [Node.perform, refused]
        intro stage none
        cases none
  · have reads : Reads node.disk.os (walOpen node.disk.os listing capacity scratchLen).2 :=
      walOpen_reads scratch rfl listed empty
    have performed : (node.perform capacity (.open' listing scratchLen)).2 =
        (walOpen node.disk.os listing capacity scratchLen).2 := by
      simp only [Node.perform]
      cases walOpen node.disk.os listing capacity scratchLen with
      | mk res os' =>
          cases res with
          | error e => rfl
          | ok found => rfl
    constructor
    · refine ⟨?_, ?_⟩
      · unfold Node.after
        rw [performed, reads.disk]
        exact tidy
      · intro w same
        unfold Node.after at same ⊢
        rw [performed, reads.disk]
        simp only at same
        simp only [Node.perform] at same
        cases opened : walOpen node.disk.os listing capacity scratchLen with
        | mk res os' =>
            rw [opened] at same
            cases res with
            | error e => cases same
            | ok found =>
                obtain ⟨report, w', recs⟩ := found
                cases same
                obtain ⟨header, fit⟩ := walOpen_ok scratch rfl tidy.2 listed opened
                rcases fit with none | ⟨front, last, reason, fit⟩
                · exact absurd none empty
                · obtain ⟨report', os'', _reads, _torn, found⟩ := walOpen_openable scratch header
                    (show node.disk.os.script = [] from rfl) fit listed
                  rw [opened] at found
                  cases found
                  exact ⟨front, last, fit.log header⟩
    · intro stage present
      rw [performed] at present
      rcases reads.seen stage present with none | same
      · cases none
      · rw [same]
        exact tidy.survives rfl tidy.1

theorem append_lives (live : Live capacity node) {r : WalRec} {payload : Bytes}
    {scratchLen : Nat} (legal : node.legal (.append r payload scratchLen))
    (low : ∀ w, node.wal = some w → w.active.nextSeq < 2 ^ 64) :
    CallLives capacity node (.append r payload scratchLen) := by
  obtain ⟨running, given⟩ := legal
  obtain ⟨tidy, logs⟩ := live
  cases opened : node.wal with
  | none => exact absurd opened running
  | some w =>
      obtain ⟨front, last, log⟩ := logs w opened
      have low := low w opened
      rw [log.nextSeq] at low
      have appended := walAppend_log (show node.disk.os.script = [] from rfl) log given low
        scratchLen
      have ran : node.perform capacity (.append r payload scratchLen) =
          (some (walAppend node.disk.os w r payload scratchLen).2.1,
            (walAppend node.disk.os w r payload scratchLen).2.2) := by
        simp only [Node.perform, opened]
      have result : (walAppend node.disk.os w r payload scratchLen).2.2.disk.Tidy ∧
          (∃ front last, LogAt capacity (walAppend node.disk.os w r payload scratchLen).2.2.disk
            (walAppend node.disk.os w r payload scratchLen).2.1 front last) ∧
          ∀ stage ∈ (walAppend node.disk.os w r payload scratchLen).2.2.seen,
            stage.Survives := by
        have absent (some' : last.recs ≠ []) : w.active.nextSeq ∉ (node.disk.synced w).dir := by
          rw [Disk.dir_synced, log.nextSeq]
          exact log.next_absent some'
        have rolledTidy (some' : last.recs ≠ []) : (node.disk.os.rolled w).disk.Tidy := by
          refine ⟨rfl, ?_⟩
          change ((node.disk.synced w).created w.active.nextSeq w.segCapacity).dir.Nodup
          rw [Disk.dir_created]
          exact (tidy.synced w).created (absent some')
        have rolledSeen (some' : last.recs ≠ []) :
            ∀ stage ∈ (node.disk.os.rolled w).seen, stage.Survives := by
          intro stage present
          rcases List.mem_append.mp present with creating | earlier
          · exact (tidy.synced w).creating (absent some') creating
          · have flushed (same : stage = node.disk.synced w) : stage.Survives := by
              rw [same]
              exact (tidy.synced w).survives rfl (tidy.synced w).1
            rcases List.mem_cons.mp earlier with closing | syncing
            · exact flushed closing
            · unfold Os.synced at syncing
              split at syncing
              · cases syncing
              · rcases List.mem_cons.mp syncing with same | none
                · exact flushed same
                · cases none
        revert appended
        cases walAppend node.disk.os w r payload scratchLen with
        | mk res state =>
            intro appended
            cases appended with
            | refused e stays => exact ⟨tidy, ⟨_, _, log⟩, fun stage none => by cases none⟩
            | here fits pushed =>
                cases pushed with
                | refused e => exact ⟨tidy, ⟨_, _, log⟩, fun stage none => by cases none⟩
                | written encoded is fits =>
                    rw [log.segCapacity] at fits
                    refine ⟨tidy, ⟨_, _, log.pushed is fits _⟩, ?_⟩
                    intro stage present
                    rcases List.mem_cons.mp present with same | none
                    · rw [same]
                      exact tidy.survives rfl tidy.1
                    · cases none
            | next past some' room pushed =>
                have rolled := log.rolled some'
                cases pushed with
                | refused e => exact ⟨rolledTidy some', ⟨_, _, rolled⟩, rolledSeen some'⟩
                | written encoded is fits =>
                    change _ ≤ w.segCapacity at fits
                    rw [log.segCapacity] at fits
                    refine ⟨rolledTidy some', ⟨_, _, rolled.pushed is fits _⟩, ?_⟩
                    intro stage present
                    rcases List.mem_cons.mp present with same | earlier
                    · rw [same]
                      exact (rolledTidy some').survives rfl (rolledTidy some').1
                    · exact rolledSeen some' stage earlier
      obtain ⟨tidy', log', stages⟩ := result
      constructor
      · unfold Live Node.after
        rw [ran]
        refine ⟨tidy', ?_⟩
        intro w' same
        cases same
        exact log'
      · rw [ran]
        exact stages

theorem sync_lives (live : Live capacity node) (legal : node.legal .sync) :
    CallLives capacity node .sync := by
  obtain ⟨tidy, logs⟩ := live
  cases opened : node.wal with
  | none => exact absurd opened legal
  | some w =>
      obtain ⟨front, last, log⟩ := logs w opened
      have ran : node.perform capacity .sync = (some w.synced, node.disk.os.synced w) := by
        simp only [Node.perform, opened,
          walSync_log (show node.disk.os.script = [] from rfl) log]
      constructor
      · unfold Live Node.after
        rw [ran]
        simp only [Os.synced_disk]
        refine ⟨tidy.synced w, ?_⟩
        intro w' same
        cases same
        exact ⟨_, _, log.synced⟩
      · rw [ran]
        intro stage present
        unfold Os.synced at present
        split at present
        · cases present
        · rcases List.mem_cons.mp present with same | none
          · rw [same]
            exact (tidy.synced w).survives rfl (tidy.synced w).1
          · cases none

theorem retain_lives (live : Live capacity node) {keepFrom : Nat}
    (legal : node.legal (.retain keepFrom)) : CallLives capacity node (.retain keepFrom) := by
  obtain ⟨tidy, logs⟩ := live
  cases opened : node.wal with
  | none => exact absurd opened legal
  | some w =>
      obtain ⟨front, last, log⟩ := logs w opened
      obtain ⟨removed, os', retained, _calm, log', disk', stages⟩ :=
        walRetain_log (show node.disk.os.script = [] from rfl) log keepFrom
      have ran : node.perform capacity (.retain keepFrom) =
          (some { w with segBase := w.segBase.drop (walRetainDrop keepFrom w.segBase) }, os') := by
        simp only [Node.perform, opened, retained]
      have tidy' : os'.disk.Tidy := by
        refine ⟨?_, log'.distinct⟩
        rcases disk' with same | same
        · rw [same]
          exact tidy.1
        · rw [same]
          rfl
      constructor
      · unfold Live Node.after
        rw [ran]
        refine ⟨tidy', ?_⟩
        intro w' same
        cases same
        exact ⟨_, _, log'⟩
      · rw [ran]
        intro stage present
        rcases stages stage present with none | same | ⟨count, _few, same⟩
        · cases none
        · rw [same]
          exact tidy'.survives rfl tidy'.1
        · rw [same]
          exact tidy.unlinked _

theorem close_lives (live : Live capacity node) (legal : node.legal .close) :
    CallLives capacity node .close := by
  obtain ⟨tidy, logs⟩ := live
  cases opened : node.wal with
  | none => exact absurd opened legal
  | some w =>
      obtain ⟨front, last, log⟩ := logs w opened
      obtain ⟨none', disk', stages⟩ := close_performed opened log
      constructor
      · unfold Live Node.after
        rw [none', disk']
        exact ⟨tidy, fun w none => by cases none⟩
      · intro stage present
        rw [stages stage present]
        exact tidy.survives rfl tidy.1

theorem call_lives (live : Live capacity node) {call : WalCall} (legal : node.legal call)
    (counts : node.counts (.call call)) : CallLives capacity node call := by
  cases call with
  | open' listing scratchLen => exact open_lives live legal
  | append r payload scratchLen => exact append_lives live legal counts
  | sync => exact sync_lives live legal
  | retain keepFrom => exact retain_lives live legal
  | close => exact close_lives live legal

end Calls

/-! ### Runs -/

/-- **On every run, a log that is open is well formed.** -/
theorem Reached.live {capacity : Nat} {node : Node}
    (reached : Reached capacity Node.counts node) : Live capacity node := by
  apply Runs.Reach.invariant _ _ reached
  · rintro start ⟨closed, empty, settled, _owed, _durable⟩
    refine ⟨⟨settled, ?_⟩, ?_⟩
    · rw [empty]
      exact List.Pairwise.nil
    · intro w opened
      rw [closed] at opened
      cases opened
  · intro before event after live counts moves
    have lost {left : Disk} (tidy : left.Tidy) (owed : List Nat) (durable : List (Nat × Bytes)) :
        Live capacity { disk := left, wal := none, owed := owed, durable := durable } :=
      ⟨tidy, fun w none => by cases none⟩
    cases moves with
    | call legal => exact (call_lives live legal counts).done
    | kill => exact lost live.1 _ _
    | idleLoss crashed => exact lost (live.1.survives rfl live.1.1 _ crashed) _ _
    | @callLoss call stage left legal interrupted crashed =>
        apply lost
        have counts' : before.counts (.call call) := by
          cases call with
          | append r payload scratchLen => exact counts
          | open' listing scratchLen => trivial
          | sync => trivial
          | retain keepFrom => trivial
          | close => trivial
        rcases List.mem_cons.mp interrupted with first | later
        · subst first
          exact live.1.survives rfl live.1.1 _ crashed
        · exact (call_lives live legal counts').stages stage later _ crashed

end Msgsrvd

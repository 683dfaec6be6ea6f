/-
The names a power loss leaves in a log's directory.

Wherever it interrupts a call, a name that is new is above all the old ones, and a
directory that had names keeps some.
-/

import Msgsrvd.Wal.Live

namespace Msgsrvd

open Bytestring

/-- A new name is above the old ones, and a directory that had names keeps some. -/
structure NamesKept (disk left : Disk) : Prop where
  each : ∀ base ∈ left.dir, base ∈ disk.dir ∨ ∀ other ∈ disk.dir, other < base
  some : left.dir = [] → disk.dir = []

theorem NamesKept.same {disk left : Disk} (names : left.dir = disk.dir) : NamesKept disk left := by
  refine ⟨fun base present => Or.inl ?_, fun empty => ?_⟩
  · rw [← names]
    exact present
  · rw [← names]
    exact empty

theorem NamesKept.one_more {disk left : Disk} {base : Nat}
    (names : left.dir = disk.dir ∨ left.dir = disk.dir ++ [base])
    (above : ∀ other ∈ disk.dir, other < base) : NamesKept disk left := by
  rcases names with names | names
  · exact .same names
  · refine ⟨?_, ?_⟩
    · intro other present
      rw [names, List.mem_append, List.mem_singleton] at present
      rcases present with old | new
      · exact Or.inl old
      · rw [new]
        exact Or.inr above
    · intro empty
      rw [names] at empty
      exact absurd empty (List.append_ne_nil_of_right_ne_nil _ (List.cons_ne_nil _ _))

/-- Before and after a file of this name is made. -/
theorem NamesKept.creating {disk settled stage left : Disk} {base size : Nat}
    (names : settled.dir = disk.dir) (flushed : settled.dirOps = [])
    (above : ∀ other ∈ disk.dir, other < base)
    (at_stage : stage ∈ settled.creating base size ∨ stage.dir = settled.dir ∧ stage.dirOps = [] ∨
      stage.dir = settled.dir ++ [base] ∧ stage.dirOps = [])
    (crashed : Crashed stage left) : NamesKept disk left := by
  refine .one_more ?_ above
  rw [← names]
  rcases at_stage with creating | ⟨same, idle⟩ | ⟨same, idle⟩
  · exact crashed.dir_creating creating flushed
  · rw [crashed.dir_settled idle, same]
    exact Or.inl rfl
  · rw [crashed.dir_settled idle, same]
    exact Or.inr rfl

section Interrupted

variable {capacity : Nat} {node : Node}

/-- No base of a log with records is at or above its next sequence. -/
theorem LogAt.below_next {disk : Disk} {w : Wal} {front : List SegView} {last : SegView}
    (log : LogAt capacity disk w front last) (some' : last.recs ≠ []) :
    ∀ other ∈ disk.dir, other < w.active.nextSeq := by
  intro other present
  have differ : other ≠ last.next := fun same => log.next_absent some' (same ▸ present)
  rw [log.named, log.table, List.mem_map] at present
  obtain ⟨v, member, same⟩ := present
  obtain ⟨first, _positive, joined⟩ := log.joined
  have bound := (joined.bounds.1 v member).2
  rw [endOf_append] at bound
  simp only [endOf] at bound
  rw [log.nextSeq]
  unfold SegView.next at bound differ ⊢
  omega

theorem append_names (live : Live capacity node) {r : WalRec} {payload : Bytes}
    {scratchLen : Nat} (legal : node.legal (.append r payload scratchLen))
    (low : ∀ w, node.wal = some w → w.active.nextSeq < 2 ^ 64) {stage left : Disk}
    (present : stage ∈ (node.perform capacity (.append r payload scratchLen)).2.seen)
    (crashed : Crashed stage left) : NamesKept node.disk left := by
  obtain ⟨running, given⟩ := legal
  obtain ⟨tidy, logs⟩ := live
  cases opened : node.wal with
  | none => exact absurd opened running
  | some w =>
      obtain ⟨front, last, log⟩ := logs w opened
      have low := low w opened
      rw [log.nextSeq] at low
      have appended := walAppend_log (show node.disk.os.script = [] from rfl) log given low
        scratchLen
      have ran : node.perform capacity (.append r payload scratchLen) =
          (some (walAppend node.disk.os w r payload scratchLen).2.1,
            (walAppend node.disk.os w r payload scratchLen).2.2) := by
        simp only [Node.perform, opened]
      rw [ran] at present
      have settled : (node.disk.synced w).dirOps = [] := (tidy.synced w).1
      have names : (node.disk.synced w).dir = node.disk.dir := Disk.dir_synced ..
      -- The stages of a rollover, before the record is written.
      have rolled (some' : last.recs ≠ []) (early : stage ∈ (node.disk.os.rolled w).seen) :
          NamesKept node.disk left := by
        refine @NamesKept.creating _ _ stage left _ w.segCapacity names settled
          (log.below_next some') ?_ crashed
        rcases List.mem_append.mp early with creating | earlier
        · exact Or.inl creating
        · right
          left
          rcases List.mem_cons.mp earlier with closing | syncing
          · rw [closing]
            exact ⟨rfl, settled⟩
          · unfold Os.synced at syncing
            split at syncing
            · cases syncing
            · rcases List.mem_cons.mp syncing with same | none
              · rw [same]
                exact ⟨rfl, settled⟩
              · cases none
      revert appended present
      generalize walAppend node.disk.os w r payload scratchLen = res
      intro present appended
      cases appended with
      | refused e stays => cases present
      | here fits pushed =>
          cases pushed with
          | refused e => cases present
          | written encoded is fits =>
              rcases List.mem_cons.mp present with same | none
              · refine .same ?_
                rw [crashed.dir_settled (by rw [same]; exact tidy.1), same]
                rfl
              · cases none
      | next past some' room pushed =>
          cases pushed with
          | refused e => exact rolled some' present
          | written encoded is fits =>
              rcases List.mem_cons.mp present with same | earlier
              · refine @NamesKept.creating _ _ stage left _ 0 names settled (log.below_next some') ?_
                  crashed
                right
                right
                rw [same]
                refine ⟨?_, rfl⟩
                exact Disk.dir_created ..
              · exact rolled some' earlier

theorem retain_names (live : Live capacity node) {keepFrom : Nat}
    (legal : node.legal (.retain keepFrom)) {stage left : Disk}
    (present : stage ∈ (node.perform capacity (.retain keepFrom)).2.seen)
    (crashed : Crashed stage left) : NamesKept node.disk left := by
  obtain ⟨tidy, logs⟩ := live
  cases opened : node.wal with
  | none => exact absurd opened legal
  | some w =>
      obtain ⟨front, last, log⟩ := logs w opened
      obtain ⟨removed, os', retained, _calm, log', disk', stages⟩ :=
        walRetain_log (show node.disk.os.script = [] from rfl) log keepFrom
      have inside := log.drop_le keepFrom
      have ran : node.perform capacity (.retain keepFrom) =
          (some { w with segBase := w.segBase.drop (walRetainDrop keepFrom w.segBase) }, os') := by
        simp only [Node.perform, opened, retained]
      rw [ran] at present
      -- Some of the oldest names are gone, the newest is there.
      have fewer : ∃ count ≤ front.length, ∀ base, base ∈ left.dir ↔ base ∈ w.segBase.drop count := by
        rcases stages stage present with none | done | ⟨count, few, between⟩
        · cases none
        · refine ⟨_, inside, ?_⟩
          intro base
          have idle : os'.disk.dirOps = [] := by
            rcases disk' with same | same
            · rw [same]
              exact tidy.1
            · rw [same]
              rfl
          rw [crashed.dir_settled (by rw [done]; exact idle), done]
          exact log'.named base
        · rw [between] at crashed
          obtain ⟨count', _few, names⟩ := crashed.dir_unlinked tidy.1
          refine ⟨min count' count, by omega, ?_⟩
          intro base
          rw [names, List.take_take]
          exact (log.unlinked_names _).2 base
      obtain ⟨count, few, names⟩ := fewer
      refine ⟨?_, ?_⟩
      · intro base listed
        exact Or.inl ((log.named base).mpr (List.mem_of_mem_drop ((names base).mp listed)))
      · intro empty
        have newest : last.base ∈ w.segBase.drop count := by
          rw [log.table, List.map_append, List.drop_append_of_le_length (by
            rw [List.length_map]
            exact few)]
          exact List.mem_append_right _ (List.mem_cons_self ..)
        have listed := (names last.base).mpr newest
        rw [empty] at listed
        cases listed

/-- What a power loss leaves of the names, wherever it interrupts a call. -/
theorem call_names (live : Live capacity node) {call : WalCall} (legal : node.legal call)
    (counts : node.counts (.call call)) {stage left : Disk}
    (present : stage ∈ (node.perform capacity call).2.seen) (crashed : Crashed stage left) :
    NamesKept node.disk left := by
  have still (names : stage.dir = node.disk.dir) (idle : stage.dirOps = []) :
      NamesKept node.disk left := .same (by rw [crashed.dir_settled idle, names])
  cases call with
  | append r payload scratchLen => exact append_names live legal counts present crashed
  | retain keepFrom => exact retain_names live legal present crashed
  | open' listing scratchLen =>
      obtain ⟨_closed, listed, scratch⟩ := legal
      have seen : (node.perform capacity (.open' listing scratchLen)).2 =
          (walOpen node.disk.os listing capacity scratchLen).2 := by
        simp only [Node.perform]
        cases walOpen node.disk.os listing capacity scratchLen with
        | mk res os' =>
            cases res with
            | error e => rfl
            | ok found => rfl
      rw [seen] at present
      by_cases empty : node.disk.dir = []
      · rw [empty, List.perm_nil] at listed
        subst listed
        have above : ∀ other ∈ node.disk.dir, other < 1 := by
          rw [empty]
          intro other none
          cases none
        by_cases header : WAL_REC_HEADER_SIZE ≤ capacity
        · obtain ⟨report, opened⟩ := walOpen_empty scratch header
            (show node.disk.os.script = [] from rfl) empty
          rw [opened] at present
          simp only [List.mem_append, List.mem_cons] at present
          rcases present with creating | first | second | early
          · exact NamesKept.creating rfl live.1.1 above (Or.inl creating) crashed
          · exact still (by rw [first]; rfl) (by rw [first]; exact live.1.1)
          · exact still (by rw [second]; rfl) (by rw [second]; exact live.1.1)
          · cases early
        · have refused : walOpen node.disk.os [] capacity scratchLen =
              (.error ⟨.invalid, 0⟩, node.disk.os) := by
            unfold walOpen
            rw [if_pos (Or.inl (by omega))]
          rw [refused] at present
          cases present
      · have reads := @walOpen_reads capacity _ scratch node.disk.os rfl _ listed empty
        rcases reads.seen stage present with none | same
        · cases none
        · exact still (by rw [same]; rfl) (by rw [same]; exact live.1.1)
  | sync =>
      cases opened : node.wal with
      | none => exact absurd opened legal
      | some w =>
          obtain ⟨front, last, log⟩ := live.2 w opened
          have ran : node.perform capacity .sync = (some w.synced, node.disk.os.synced w) := by
            simp only [Node.perform, opened,
              walSync_log (show node.disk.os.script = [] from rfl) log]
          rw [ran] at present
          unfold Os.synced at present
          split at present
          · cases present
          · rcases List.mem_cons.mp present with same | none
            · refine still ?_ ?_
              · rw [same]
                exact Disk.dir_synced ..
              · rw [same]
                exact (live.1.synced w).1
            · cases none
  | close =>
      cases opened : node.wal with
      | none => exact absurd opened legal
      | some w =>
          obtain ⟨front, last, log⟩ := live.2 w opened
          obtain ⟨_none, _disk, stages⟩ := close_performed opened log
          have same := stages stage present
          exact still (by rw [same]) (by rw [same]; exact live.1.1)

end Interrupted

end Msgsrvd

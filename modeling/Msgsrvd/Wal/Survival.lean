/-
What a log needs so that it can be opened again, and what keeps it so.

`Steady` adds to `LogAt` what crashes depend on: which segments end cleanly, which
were flushed, which were preallocated.  The guard names the steps that would lose it.
-/

import Msgsrvd.Wal.Runs

namespace Msgsrvd

open Bytestring

/-! ### Steady logs -/

structure Steady (capacity : Nat) (disk : Disk) (w : Wal) (front : List SegView)
    (last : SegView) (owed : List Nat) : Prop where
  log : LogAt capacity disk w front last
  settled : disk.dirOps = []
  room : front.length < WAL_MAX_SEGMENTS
  clean : ∀ v ∈ front, Scans capacity v.base ((disk.file v.base).vol.take capacity) v.recs .clean
  sealed : ∀ v ∈ front, v.base ∉ owed → (disk.file v.base).stab = (disk.file v.base).vol
  stable : last.base ∉ owed → ∀ kept, w.active.durableSeq + 1 = last.base + kept →
    ∃ tail, (disk.file last.base).stab = (last.recs.take kept).flatten ++ tail
  same : last.base ∉ owed → w.active.syncedOff = w.active.writeOff →
    (disk.file last.base).stab = (disk.file last.base).vol
  sized : Full capacity (disk.file last.base) ∨ Blank (disk.file last.base)

theorem mem_owedSynced {w : Wal} {owed : List Nat} {base : Nat}
    (differ : base ≠ w.active.baseSeq) (paid : base ∉ owedSynced w owed) : base ∉ owed := by
  unfold owedSynced at paid
  split at paid
  · exact paid
  · intro present
    apply paid
    rw [List.mem_filter]
    exact ⟨present, by simpa using differ⟩

theorem length_le_overwrite (content : Bytes) (offset : Nat) (bytes : Bytes) :
    content.length ≤ (overwrite content offset bytes).length := by
  simp only [overwrite, List.length_append, List.length_take, zeros, List.length_replicate,
    List.length_drop]
  omega

section Steady

variable {capacity : Nat} {disk : Disk} {w : Wal} {front : List SegView} {last : SegView}
  {owed : List Nat}

theorem Disk.file_synced_other (disk : Disk) (w : Wal) {base : Nat}
    (differ : base ≠ w.active.baseSeq) : (disk.synced w).file base = disk.file base := by
  unfold Disk.synced
  split
  · rfl
  · rw [Disk.flushFile, Disk.file_setFile_other _ _ differ]

theorem Disk.file_synced_same (disk : Disk) (w : Wal)
    (dirty : w.active.syncedOff ≠ w.active.writeOff) :
    (disk.synced w).file w.active.baseSeq =
      ⟨(disk.file w.active.baseSeq).vol, (disk.file w.active.baseSeq).vol⟩ := by
  unfold Disk.synced
  rw [if_neg dirty, Disk.flushFile, Disk.file_setFile_same]

/-- After a sync the last file is as stable as it is written, unless it was owed for. -/
theorem Steady.synced_stab (steady : Steady capacity disk w front last owed)
    (paid : last.base ∉ owedSynced w owed) :
    ((disk.synced w).file last.base).stab = ((disk.synced w).file last.base).vol := by
  by_cases clean : w.active.syncedOff = w.active.writeOff
  · unfold owedSynced at paid
    rw [if_pos clean] at paid
    unfold Disk.synced
    rw [if_pos clean]
    exact steady.same paid clean
  · rw [← steady.log.baseSeq, Disk.file_synced_same disk w clean]

theorem Steady.synced_sized (steady : Steady capacity disk w front last owed) :
    Full capacity ((disk.synced w).file last.base) ∨ Blank ((disk.synced w).file last.base) := by
  by_cases clean : w.active.syncedOff = w.active.writeOff
  · unfold Disk.synced
    rw [if_pos clean]
    exact steady.sized
  · have sized := steady.sized
    rw [← steady.log.baseSeq] at sized ⊢
    rw [Disk.file_synced_same disk w clean]
    unfold Full Blank at *
    rcases sized with long | blank
    · exact Or.inl ⟨long.1, long.1⟩
    · exact Or.inr ⟨blank.1, blank.1, Nat.le_refl _⟩

theorem Steady.synced (steady : Steady capacity disk w front last owed) :
    Steady capacity (disk.synced w) w.synced front last (owedSynced w owed) where
  log := steady.log.synced
  settled := by
    have settled := steady.settled
    unfold Disk.synced
    split <;> exact settled
  room := steady.room
  clean := by
    intro v early
    rw [Disk.vol_synced]
    exact steady.clean v early
  sealed := by
    intro v early paid
    have differ : v.base ≠ w.active.baseSeq := by
      rw [steady.log.baseSeq]
      exact steady.log.base_ne early
    rw [Disk.file_synced_other disk w differ]
    exact steady.sealed v early (mem_owedSynced differ paid)
  stable := by
    intro paid kept durable
    rw [steady.synced_stab paid, Disk.vol_synced]
    obtain ⟨_are, _fits, tail, shape⟩ := steady.log.last_stored
    refine ⟨(last.recs.drop kept).flatten ++ tail, ?_⟩
    rw [shape, ← List.append_assoc, ← List.flatten_append, List.take_append_drop]
  same := fun paid _ => steady.synced_stab paid
  sized := steady.synced_sized

theorem Steady.pushed (steady : Steady capacity disk w front last owed) {bytes : Bytes}
    (is : IsRec last.next bytes) (fits : last.size + bytes.length ≤ capacity) (out : WalRec)
    (full : capacity ≤ (disk.file last.base).stab.length)
    (long : capacity ≤ (disk.file last.base).vol.length) :
    Steady capacity (disk.write last.base last.size bytes) (w.pushed out bytes.length) front
      ⟨last.base, last.recs ++ [bytes]⟩ owed where
  log := steady.log.pushed is fits out
  settled := steady.settled
  room := steady.room
  clean := by
    intro v early
    rw [Disk.write, Disk.file_setFile_other _ _ (steady.log.base_ne early)]
    exact steady.clean v early
  sealed := by
    intro v early paid
    rw [Disk.write, Disk.file_setFile_other _ _ (steady.log.base_ne early)]
    exact steady.sealed v early paid
  stable := by
    intro paid kept durable
    rw [Disk.write, Disk.file_setFile_same]
    obtain ⟨kept', inside, durable', _offset⟩ := steady.log.flushed
    change w.active.durableSeq + 1 = last.base + kept at durable
    have same : kept = kept' := by omega
    rw [List.take_append_of_le_length (by omega)]
    exact steady.stable paid kept durable
  same := by
    intro _paid impossible
    obtain ⟨kept, _inside, _durable, offset⟩ := steady.log.flushed
    have positive := is.length_pos
    have shorter : (last.recs.take kept).flatten.length ≤ last.recs.flatten.length := by
      conv_rhs => rw [← List.take_append_drop kept last.recs, List.flatten_append,
        List.length_append]
      exact Nat.le_add_right _ _
    have at_end := steady.log.writeOff
    unfold SegView.size at at_end
    simp only [Wal.pushed] at impossible
    omega
  sized := by
    left
    rw [Disk.write, Disk.file_setFile_same]
    exact ⟨Nat.le_trans long (length_le_overwrite ..), full⟩

theorem tailClean_scans (steady : LogAt capacity disk w front last)
    (clean : tailClean disk w = true) :
    Scans capacity last.base ((disk.file last.base).vol.take capacity) last.recs .clean := by
  obtain ⟨are, fits, tail, shape⟩ := steady.last_stored
  unfold SegView.size at fits
  unfold tailClean at clean
  rw [steady.baseSeq, steady.segCapacity, steady.writeOff, SegView.size] at clean
  have taken : (disk.file last.base).vol.take capacity =
      last.recs.flatten ++ tail.take (capacity - last.recs.flatten.length) := by
    rw [shape, List.take_append, List.take_of_length_le fits]
  rw [taken, List.drop_left' rfl] at clean
  rw [taken]
  have stop : scanHead (capacity - last.recs.flatten.length) (last.base + last.recs.length)
      (tail.take (capacity - last.recs.flatten.length)) = .stop .clean := by
    unfold scanHead
    cases decoded : walRecDecode (tail.take (capacity - last.recs.flatten.length)) with
    | none => rfl
    | some r =>
        rw [decoded] at clean
        simp only at clean
        simp only [clean, if_true]
  have scan := Scans.prepend are fits (.stop stop)
  rw [List.append_nil] at scan
  exact scan

/-- The next segment after a flushed and clean one. -/
theorem Steady.rolled (steady : Steady capacity disk w front last owed)
    (some' : last.recs ≠ []) (room : w.segBase.length < WAL_MAX_SEGMENTS)
    (clean : tailClean disk w = true) :
    Steady capacity ((disk.synced w).created w.active.nextSeq w.segCapacity) w.rolled
      (front ++ [last]) ⟨last.next, []⟩ (owedSynced w owed) := by
  have next := steady.log.nextSeq
  have after := steady.synced
  have away (v : SegView) (present : v ∈ front ++ [last]) : v.base ≠ w.active.nextSeq := by
    intro same
    apply steady.log.next_absent some'
    rw [steady.log.named, steady.log.table, ← next, ← same]
    exact List.mem_map_of_mem present
  refine {
    log := steady.log.rolled some'
    settled := rfl
    room := ?_
    clean := ?_
    sealed := ?_
    stable := ?_
    same := ?_
    sized := ?_ }
  · rw [steady.log.table, List.length_map] at room
    exact room
  · intro v present
    rw [Disk.file_created_other _ _ (away v present), Disk.vol_synced]
    rcases List.mem_append.mp present with early | atLast
    · exact steady.clean v early
    · rw [List.mem_singleton.mp atLast]
      exact tailClean_scans steady.log clean
  · intro v present paid
    rw [Disk.file_created_other _ _ (away v present)]
    rcases List.mem_append.mp present with early | atLast
    · exact after.sealed v early paid
    · rw [List.mem_singleton.mp atLast] at paid ⊢
      exact after.same paid rfl
  · intro _paid kept _durable
    rw [List.take_nil, List.flatten_nil]
    exact ⟨_, rfl⟩
  · intro _paid _synced
    simp only
    rw [← next, Disk.file_created_same]
  · left
    simp only
    rw [← next, Disk.file_created_same, steady.log.segCapacity]
    simp only [Full, zeros, List.length_replicate, and_self, Nat.le_refl]

theorem Steady.dropped (steady : Steady capacity disk w front last owed) {count : Nat}
    {disk' : Disk} (files : disk'.file = disk.file) (settled : disk'.dirOps = [])
    (log : LogAt capacity disk' { w with segBase := w.segBase.drop count } (front.drop count)
      last) :
    Steady capacity disk' { w with segBase := w.segBase.drop count } (front.drop count) last
      owed where
  log := log
  settled := settled
  room := by
    have room := steady.room
    rw [List.length_drop]
    omega
  clean := by
    intro v present
    rw [files]
    exact steady.clean v (List.mem_of_mem_drop present)
  sealed := by
    intro v present
    rw [files]
    exact steady.sealed v (List.mem_of_mem_drop present)
  stable := by
    rw [files]
    exact steady.stable
  same := by
    rw [files]
    exact steady.same
  sized := by
    rw [files]
    exact steady.sized

end Steady

/-! ### Opening -/

theorem Openable.steady {capacity : Nat} {disk : Disk} {front : List SegView} {last : SegView}
    {reason : ScanEnd} (fit : Openable capacity disk front last reason)
    (header : WAL_REC_HEADER_SIZE ≤ capacity) (settled : disk.dirOps = [])
    (sized : Full capacity (disk.file last.base) ∨ Blank (disk.file last.base)) :
    Steady capacity disk (openedWal capacity front last) front last
      (disk.dir.filter (fun base => (disk.file base).vol != (disk.file base).stab)) := by
  have paid {v : SegView} (present : v ∈ front ++ [last])
      (absent : v.base ∉ disk.dir.filter
        (fun base => (disk.file base).vol != (disk.file base).stab)) :
      (disk.file v.base).stab = (disk.file v.base).vol := by
    by_contra differ
    apply absent
    rw [List.mem_filter]
    refine ⟨(fit.named v.base).mpr (List.mem_map_of_mem present), ?_⟩
    rw [bne_iff_ne]
    exact fun same => differ same.symm
  have atLast : last ∈ front ++ [last] := List.mem_append_right _ (List.mem_cons_self ..)
  refine {
    log := fit.log header
    settled := settled
    room := fit.room
    clean := fit.clean
    sealed := fun v early absent => paid (List.mem_append_left _ early) absent
    stable := ?_
    same := fun absent _ => paid atLast absent
    sized := sized }
  intro absent kept _durable
  obtain ⟨_are, _fits, tail, shape⟩ := fit.tail.stored
  refine ⟨(last.recs.drop kept).flatten ++ tail, ?_⟩
  rw [paid atLast absent, shape, ← List.append_assoc, ← List.flatten_append,
    List.take_append_drop]

/-! ### Power losses -/

/-- What a directory at rest needs to be opened with these records in it.  `flushed`
asks that the segments before the last reached the disk. -/
def Resting (flushed : Prop) (capacity : Nat) (kept : List (Nat × Bytes)) (disk : Disk) : Prop :=
  disk.dirOps = [] ∧
    ((disk.dir = [] ∧ kept = []) ∨
      ∃ front last reason, Openable capacity disk front last reason ∧
        (Full capacity (disk.file last.base) ∨ Blank (disk.file last.base)) ∧
        (flushed → ∀ v ∈ front, (disk.file v.base).stab = (disk.file v.base).vol) ∧
        ∀ p ∈ kept, Contains (front ++ [last]) p.1 p.2)

section Loss

variable {capacity : Nat} {disk disk' : Disk} {w : Wal} {front : List SegView} {last : SegView}
  {owed : List Nat}

/-- A record at or below the durable sequence is among those flushed. -/
theorem contains_flushed {kept : Nat} (durable : w.active.durableSeq + 1 = last.base + kept) {seq : Nat} {bytes : Bytes}
    (found : Contains (front ++ [last]) seq bytes) (low : seq ≤ w.active.durableSeq)
    (extra : List Bytes) :
    Contains (front ++ [⟨last.base, last.recs.take kept ++ extra⟩]) seq bytes := by
  obtain ⟨v, present, index, at_seq, found⟩ := found
  rcases List.mem_append.mp present with early | atLast
  · exact ⟨v, List.mem_append_left _ early, index, at_seq, found⟩
  · rw [List.mem_singleton.mp atLast] at at_seq found
    refine ⟨_, List.mem_append_right _ (List.mem_cons_self ..), index, at_seq, ?_⟩
    have inside : index < last.recs.length := (List.getElem?_eq_some_iff.mp found).1
    have before : index < (last.recs.take kept).length := by
      rw [List.length_take]
      omega
    simp only
    rw [List.getElem?_append_left before, List.getElem?_take_of_lt (by omega), found]

/-- **A steady log can be opened after a power loss**, and holds what was durable.  The
power may be lost at a later stage, as long as the log's own files and names are the same. -/
theorem Steady.crash (steady : Steady capacity disk w front last owed) {stage : Disk}
    (same : ∀ v ∈ front ++ [last], stage.file v.base = disk.file v.base)
    (paid : ∀ v ∈ front, v.base ∉ owed) {durable : List (Nat × Bytes)}
    (kept : durable ≠ [] → last.base ∉ owed)
    (held : ∀ p ∈ durable, Contains (front ++ [last]) p.1 p.2 ∧ p.1 ≤ w.active.durableSeq)
    (crashed : Crashed stage disk') (names : disk'.dir = disk.dir) {flushed : Prop} :
    Resting flushed capacity durable disk' := by
  obtain ⟨first, positive, joined⟩ := steady.log.joined
  have atLast : last ∈ front ++ [last] := List.mem_append_right _ (List.mem_cons_self ..)
  have sized := steady.sized
  rw [← same last atLast] at sized
  obtain ⟨are, fits, tail, shape⟩ := steady.log.last_stored
  have cut : ∃ count, (last.base ∉ owed → w.active.durableSeq + 1 = last.base + count) ∧
      ∃ tail, (disk.file last.base).stab = (last.recs.take count).flatten ++ tail := by
    by_cases debt : last.base ∈ owed
    · refine ⟨0, fun absent => absurd debt absent, ?_⟩
      rw [List.take_zero, List.flatten_nil]
      exact ⟨_, rfl⟩
    · obtain ⟨count, _inside, at_count, _offset⟩ := steady.log.flushed
      exact ⟨count, fun _ => at_count, steady.stable debt count at_count⟩
  obtain ⟨count, at_count, stab⟩ := cut
  have front' : (last.recs.take count).flatten ++ (last.recs.drop count).flatten =
      last.recs.flatten := by
    rw [← List.flatten_append, List.take_append_drop]
  have shorter : (last.recs.take count).flatten.length ≤ last.recs.flatten.length := by
    rw [← front', List.length_append]
    exact Nat.le_add_right _ _
  have named (other : Nat) :
      other ∈ disk'.dir ↔ other ∈ front.map SegView.base ++ [last.base] := by
    rw [names, steady.log.named, steady.log.table, List.map_append]
    rfl
  obtain ⟨extra, reason, fit⟩ := openable_after crashed.files named
    (by
      rw [names]
      exact steady.log.distinct)
    steady.room positive joined.left joined.right.1 steady.log.full
    (by
      intro v early
      rw [same v (List.mem_append_left _ early)]
      exact steady.clean v early)
    (by
      intro v early
      rw [same v (List.mem_append_left _ early)]
      exact steady.sealed v early (paid v early))
    (by
      rw [← List.take_append_drop count last.recs] at are
      exact are.left)
    (Nat.le_trans shorter fits)
    (by
      rw [same last atLast]
      exact stab)
    ⟨(last.recs.drop count).flatten ++ tail, by
      rw [same last atLast, shape, ← List.append_assoc, front']⟩
    sized
  refine ⟨crashed.settled, Or.inr ⟨_, _, _, fit, sized_after crashed fit.last_named sized,
    fun _ v _ => crashed.flushed v.base, ?_⟩⟩
  intro p present
  have known := held p present
  exact contains_flushed (at_count (kept (List.ne_nil_of_mem present))) known.1 known.2
    extra

theorem Steady.rest (steady : Steady capacity disk w front last owed)
    {durable : List (Nat × Bytes)}
    (held : ∀ p ∈ durable, Contains (front ++ [last]) p.1 p.2) {flushed : Prop}
    (sealed : flushed → ∀ v ∈ front, v.base ∉ owed) : Resting flushed capacity durable disk := by
  obtain ⟨are, fits, front', shape⟩ := steady.log.last_stored
  obtain ⟨first, positive, joined⟩ := steady.log.joined
  obtain ⟨extra, reason, scan, whole⟩ := scans_kept are fits ⟨front', shape⟩
    (steady.sized.imp And.left And.left)
  refine ⟨steady.settled, Or.inr ⟨front, ⟨last.base, last.recs ++ extra⟩, reason, ?_,
    steady.sized, fun needed v early => steady.sealed v early (sealed needed v early), ?_⟩⟩
  · refine ⟨?_, steady.log.distinct, steady.room,
      ⟨first, positive, joined.left.append ⟨joined.right.1, trivial⟩⟩, steady.log.full,
      steady.clean, scan, whole⟩
    intro base
    rw [steady.log.named, steady.log.table, List.map_append, List.map_append]
    rfl
  · intro p present
    apply (held p present).mono
    intro v member
    rcases List.mem_append.mp member with early | atLast
    · exact ⟨v, List.mem_append_left _ early, rfl, [], (List.append_nil _).symm⟩
    · refine ⟨_, List.mem_append_right _ (List.mem_cons_self ..), ?_, extra, ?_⟩
      · rw [List.mem_singleton.mp atLast]
      · rw [List.mem_singleton.mp atLast]

/-- A power loss while the next segment is made leaves it out or leaves it empty. -/
theorem Steady.crash_creating (steady : Steady capacity disk w front last owed)
    (synced : w.active.syncedOff = w.active.writeOff)
    (some' : last.recs ≠ []) (room : front.length + 1 < WAL_MAX_SEGMENTS)
    (clean : tailClean disk w = true) (paid : ∀ v ∈ front ++ [last], v.base ∉ owed)
    {durable : List (Nat × Bytes)}
    (held : ∀ p ∈ durable, Contains (front ++ [last]) p.1 p.2 ∧ p.1 ≤ w.active.durableSeq)
    {stage : Disk} (at_stage : stage ∈ disk.creating w.active.nextSeq capacity)
    (crashed : Crashed stage disk') {flushed : Prop} : Resting flushed capacity durable disk' := by
  have next := steady.log.nextSeq
  have atLast : last ∈ front ++ [last] := List.mem_append_right _ (List.mem_cons_self ..)
  have away (v : SegView) (present : v ∈ front ++ [last]) : v.base ≠ w.active.nextSeq := by
    intro same
    apply steady.log.next_absent some'
    rw [steady.log.named, steady.log.table, ← next, ← same]
    exact List.mem_map_of_mem present
  have new : Blank (stage.file w.active.nextSeq) := creating_blank at_stage
  have log (v : SegView) (present : v ∈ front ++ [last]) : stage.file v.base = disk.file v.base :=
    creating_other at_stage (away v present)
  rcases crashed.dir_creating at_stage steady.settled with names | names
  · -- The link was lost, and the names are those before.
    exact steady.crash log (fun v early => paid v (List.mem_append_left _ early))
      (fun _ => paid last atLast) held crashed names
  · obtain ⟨first, positive, joined⟩ := steady.log.joined
    have ends : w.active.nextSeq = endOf first (front ++ [last]) := by
      rw [next, endOf_append]
      rfl
    have named (other : Nat) : other ∈ disk'.dir ↔
        other ∈ (front ++ [last]).map SegView.base ++ [w.active.nextSeq] := by
      rw [names, List.mem_append, List.mem_append, steady.log.named, steady.log.table]
    have nothing : IsRecs w.active.nextSeq [] := trivial
    obtain ⟨extra, reason, fit⟩ := openable_after crashed.files named
      (by
        rw [names, List.nodup_append]
        refine ⟨steady.log.distinct, List.pairwise_singleton _ _, ?_⟩
        intro base present other alone same
        rw [List.mem_singleton.mp alone, next] at same
        rw [same] at present
        exact steady.log.next_absent some' present)
      (by
        rw [List.length_append]
        exact room)
      positive joined ends
      (by
        intro v present
        rcases List.mem_append.mp present with early | same
        · exact steady.log.full v early
        · rw [List.mem_singleton.mp same]
          exact some')
      (by
        intro v present
        rw [log v present]
        rcases List.mem_append.mp present with early | same
        · exact steady.clean v early
        · rw [List.mem_singleton.mp same]
          exact tailClean_scans steady.log clean)
      (by
        intro v present
        rw [log v present]
        rcases List.mem_append.mp present with early | same
        · exact steady.sealed v early (paid v present)
        · rw [List.mem_singleton.mp same]
          exact steady.same (paid last atLast) synced)
      nothing (Nat.zero_le _) ⟨_, rfl⟩ ⟨_, rfl⟩ (Or.inr new)
    refine ⟨crashed.settled, Or.inr ⟨_, _, _, fit, sized_after crashed fit.last_named (Or.inr new),
      fun _ v _ => crashed.flushed v.base, ?_⟩⟩
    intro p present
    apply (held p present).1.mono
    intro v member
    exact ⟨v, List.mem_append_left _ member, rfl, [], (List.append_nil _).symm⟩

/-- A power loss during retention leaves a log with some of the segments dropped. -/
theorem Steady.crash_unlinked (steady : Steady capacity disk w front last owed)
    (paid : ∀ v ∈ front, v.base ∉ owed) {drop : Nat} (inside : drop ≤ front.length)
    {durable : List (Nat × Bytes)} (kept : durable ≠ [] → last.base ∉ owed)
    (held : ∀ p ∈ durable,
      Contains (front.drop drop ++ [last]) p.1 p.2 ∧ p.1 ≤ w.active.durableSeq)
    {count : Nat} (few : count ≤ drop)
    (crashed : Crashed (disk.unlinked (w.segBase.take count)) disk') {flushed : Prop} :
    Resting flushed capacity durable disk' := by
  obtain ⟨gone, fewer, names⟩ := crashed.dir_unlinked steady.settled
  rw [List.take_take] at names
  have less : min gone count ≤ front.length := by omega
  obtain ⟨nodup, members⟩ := steady.log.unlinked_names (min gone count)
  have log : LogAt capacity (disk.retained w.segBase (min gone count)) _ _ last :=
    steady.log.dropped less rfl nodup members
  have after : Steady capacity (disk.retained w.segBase (min gone count)) _ _ last owed :=
    steady.dropped rfl rfl log
  have same : ∀ v ∈ front.drop (min gone count) ++ [last],
      (disk.unlinked (w.segBase.take count)).file v.base =
        (disk.retained w.segBase (min gone count)).file v.base := fun _ _ => rfl
  refine after.crash same
    (fun v present => paid v (List.mem_of_mem_drop present)) kept ?_ crashed names
  intro p present
  refine ⟨?_, (held p present).2⟩
  apply (held p present).1.mono
  intro v member
  refine ⟨v, ?_, rfl, [], (List.append_nil _).symm⟩
  rcases List.mem_append.mp member with early | same
  · refine List.mem_append_left _ ?_
    have split : drop = min gone count + (drop - min gone count) := by omega
    rw [split, ← List.drop_drop] at early
    exact List.mem_of_mem_drop early
  · exact List.mem_append_right _ same

end Loss

end Msgsrvd

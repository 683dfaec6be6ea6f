/-
What the count of removed segments says of the segments that have left the log.

Of the three ends of a retention two report what went.  The third, where the directory
cannot be flushed once the segments have gone, reports nothing, and no later call makes up
for it.
-/

import Msgsrvd.Server.Retaining

namespace Msgsrvd

open Bytestring

variable {l l' l'' : Loop} {w w' : Wal} {os os' : Os}

/-! ### One retention -/

/-- Every segment below the line is unlinked, and then the directory cannot be flushed. -/
def Unsynced (os : Os) (w : Wal) (keepFrom : Nat) : Prop :=
  let unlinks := walRetainUnlink (w.segBase.take (walRetainDrop keepFrom w.segBase)) 0 os
  walRetainDrop keepFrom w.segBase ≠ 0 ∧ unlinks.1.isOk = true ∧
    (osFsyncDir unlinks.2).1.isOk = false

instance (os : Os) (w : Wal) (keepFrom : Nat) : Decidable (Unsynced os w keepFrom) :=
  inferInstanceAs (Decidable (_ ∧ _ ∧ _))

/-- A name that is unlinked was in the directory, once. -/
theorem osUnlinkat_names {base : Nat} {res : Except Err Unit}
    (unlinks : osUnlinkat os base = (res, os')) :
    (res = .ok () ∧ os'.disk.dir.length + 1 = os.disk.dir.length) ∨
      (∃ e, res = .error e) ∧ os'.disk.dir = os.disk.dir := by
  unfold osUnlinkat at unlinks
  by_cases present : base ∈ os.disk.dir
  · rw [if_pos present] at unlinks
    rcases plain_leaves unlinks with ⟨ok, disk⟩ | ⟨fails, disk⟩
    · refine .inl ⟨ok, ?_⟩
      have some' := List.length_pos_of_mem present
      rw [disk, Disk.dir_addDirOp, DirOp.apply, List.length_erase_of_mem present]
      omega
    · exact .inr ⟨fails, congrArg Disk.dir disk⟩
  · rw [if_neg present] at unlinks
    cases unlinks
    exact .inr ⟨⟨_, rfl⟩, rfl⟩

/-- As many names have gone as the unlinks say: all, or those before the one that failed. -/
theorem walRetainUnlink_names {bases : List Nat} {gone : Nat} {res : Except (Err × Nat) Unit}
    (unlinks : walRetainUnlink bases gone os = (res, os')) :
    (res = .ok () ∧ os'.disk.dir.length + bases.length = os.disk.dir.length) ∨
      ∃ e count, res = .error (e, gone + count) ∧ count ≤ bases.length ∧
        os'.disk.dir.length + count = os.disk.dir.length := by
  induction bases generalizing gone os with
  | nil =>
      cases unlinks
      exact .inl ⟨rfl, rfl⟩
  | cons base rest ih =>
      unfold walRetainUnlink at unlinks
      cases removes : osUnlinkat os base with
      | mk done os1 =>
          rw [removes] at unlinks
          rcases osUnlinkat_names removes with ⟨rfl, names⟩ | ⟨⟨e, rfl⟩, names⟩
          · rcases ih unlinks with ⟨ok, left⟩ | ⟨e, count, fails, few, left⟩
            · refine .inl ⟨ok, ?_⟩
              rw [List.length_cons]
              omega
            · refine .inr ⟨e, count + 1, ?_, Nat.succ_le_succ few, by omega⟩
              rw [fails, Nat.add_assoc, Nat.add_comm 1]
          · cases unlinks
            exact .inr ⟨e, 0, rfl, Nat.zero_le _, by rw [names]; rfl⟩

/-- What a retention took from the table it took from the directory, and it reports as much
unless the directory could not be flushed. -/
theorem walRetain_counts {keepFrom removed : Nat} {res : Except Err Unit}
    (retains : walRetain os w keepFrom = (res, removed, w', os')) :
    ∃ gone, gone ≤ w.segBase.length ∧ w'.segBase = w.segBase.drop gone ∧
      os'.disk.dir.length + gone = os.disk.dir.length ∧
      (¬ Unsynced os w keepFrom ∧ removed = gone ∨
        Unsynced os w keepFrom ∧ removed = 0 ∧ 0 < gone) := by
  unfold walRetain at retains
  unfold Unsynced
  have within := walRetainDrop_le keepFrom w.segBase
  have length : (w.segBase.take (walRetainDrop keepFrom w.segBase)).length =
      walRetainDrop keepFrom w.segBase := by
    rw [List.length_take]
    omega
  simp only at retains ⊢
  by_cases none' : walRetainDrop keepFrom w.segBase = 0
  · rw [if_pos none'] at retains
    cases retains
    exact ⟨0, Nat.zero_le _, rfl, rfl, .inl ⟨fun fails => fails.1 none', rfl⟩⟩
  · rw [if_neg none'] at retains
    cases unlinks : walRetainUnlink (w.segBase.take (walRetainDrop keepFrom w.segBase)) 0 os with
    | mk done os1 =>
        rw [unlinks] at retains
        rcases walRetainUnlink_names unlinks with ⟨rfl, names⟩ | ⟨e, count, rfl, few, names⟩
        · rw [length] at names
          have flushed : (osFsyncDir os1).2.disk.dir = os1.disk.dir := by
            cases syncs : osFsyncDir os1 with
            | mk done os2 =>
                rcases plain_leaves syncs with ⟨-, disk⟩ | ⟨-, disk⟩
                · rw [disk, Disk.dir_flushDir]
                · rw [disk]
          simp only at retains
          cases syncs : osFsyncDir os1 with
          | mk done os2 =>
              rw [syncs] at retains flushed
              cases done with
              | error e =>
                  cases retains
                  refine ⟨_, within, rfl, by rw [flushed]; exact names, .inr ⟨?_, rfl, by omega⟩⟩
                  exact ⟨none', rfl, rfl⟩
              | ok done =>
                  cases retains
                  refine ⟨_, within, rfl, by rw [flushed]; exact names, .inl ⟨?_, rfl⟩⟩
                  rintro ⟨-, -, fails⟩
                  cases fails
        · rw [length] at few
          rw [Nat.zero_add] at retains
          cases retains
          refine ⟨_, Nat.le_trans few within, rfl, names, .inl ⟨?_, rfl⟩⟩
          rintro ⟨-, fails, -⟩
          cases fails

/-! ### One call -/

/-- The line up to which the call deletes, if it calls on the log at all. -/
def Loop.retainLine (l : Loop) : Option Nat :=
  if l.retainSegments = 0 then none
  else if l.retainFailed ∧ l.wal.segBase.length = l.retainSeenSegs then none
  else if walRetainMark l.wal l.retainSegments = 0 then none
  else
    let keepFrom :=
      if l.replicasWant > 0 ∧ l.retainFloor + 1 < walRetainMark l.wal l.retainSegments then
        l.retainFloor + 1
      else walRetainMark l.wal l.retainSegments
    if keepFrom ≤ walFirstSeq l.wal then none else some keepFrom

/-- The call deletes segments, and then cannot flush the directory. -/
def Loop.Unsynced (l : Loop) : Prop :=
  ∃ keepFrom, l.retainLine = some keepFrom ∧ Msgsrvd.Unsynced l.os l.wal keepFrom

/-- What a call of `retain_pass` leaves of the log. -/
theorem retainPass_cases (l : Loop) :
    (l.retainLine = none ∧ (retainPass l).wal = l.wal ∧ (retainPass l).os = l.os ∧
        (retainPass l).counts.retainRemoved = l.counts.retainRemoved) ∨
      ∃ keepFrom res removed w os, l.retainLine = some keepFrom ∧
        walRetain l.os l.wal keepFrom = (res, removed, w, os) ∧ (retainPass l).wal = w ∧
        (retainPass l).os = os ∧
        (retainPass l).counts.retainRemoved = l.counts.retainRemoved + removed := by
  unfold retainPass Loop.retainLine
  simp only
  split
  · exact .inl ⟨rfl, rfl, rfl, rfl⟩
  · split
    · exact .inl ⟨rfl, rfl, rfl, rfl⟩
    · split
      · exact .inl ⟨rfl, rfl, rfl, rfl⟩
      · generalize (if l.replicasWant > 0 ∧ l.retainFloor + 1 < walRetainMark l.wal l.retainSegments
          then l.retainFloor + 1 else walRetainMark l.wal l.retainSegments) = keepFrom
        split
        · exact .inl ⟨rfl, rfl, rfl, rfl⟩
        · cases retains : walRetain l.os l.wal keepFrom with
          | mk res rest =>
              obtain ⟨removed, w, os⟩ := rest
              refine .inr ⟨keepFrom, res, removed, w, os, rfl, retains, ?_⟩
              cases res with
              | ok done => exact ⟨rfl, rfl, rfl⟩
              | error e => exact ⟨rfl, rfl, rfl⟩

/-- The segments that go leave the front of the table, and as many names the directory. -/
theorem retainPass_counts (l : Loop) :
    ∃ gone, l.wal.segBase = gone ++ (retainPass l).wal.segBase ∧
      (retainPass l).os.disk.dir.length + gone.length = l.os.disk.dir.length ∧
      (¬ l.Unsynced ∧
          (retainPass l).counts.retainRemoved = l.counts.retainRemoved + gone.length ∨
        l.Unsynced ∧ (retainPass l).counts.retainRemoved = l.counts.retainRemoved ∧
          0 < gone.length) := by
  rcases retainPass_cases l with
    ⟨line, wal, os, removed⟩ | ⟨keepFrom, res, removed, w, os, line, retains, wal, os', counted⟩
  · refine ⟨[], by rw [wal]; rfl, by rw [os]; rfl, .inl ⟨?_, removed⟩⟩
    rintro ⟨keepFrom, some', -⟩
    rw [line] at some'
    cases some'
  · obtain ⟨gone, within, table, names, reported⟩ := walRetain_counts retains
    have length : (l.wal.segBase.take gone).length = gone := by
      rw [List.length_take]
      omega
    refine ⟨l.wal.segBase.take gone, ?_, ?_, ?_⟩
    · rw [wal, table, List.take_append_drop]
    · rw [os', length]
      exact names
    · rw [length, counted]
      rcases reported with ⟨synced, same⟩ | ⟨unsynced, zero, some'⟩
      · refine .inl ⟨?_, by rw [same]⟩
        rintro ⟨keepFrom', line', fails⟩
        rw [line, Option.some.injEq] at line'
        rw [← line'] at fails
        exact synced fails
      · exact .inr ⟨⟨keepFrom, line, unsynced⟩, by rw [zero]; rfl, some'⟩

/-! ### Runs of calls -/

/-- Meanwhile two calls the rest of the loop adds segments to the table, and counts none. -/
structure Meanwhile (l l' : Loop) : Prop where
  counted : l'.counts.retainRemoved = l.counts.retainRemoved
  table : ∃ more, l'.wal.segBase = l.wal.segBase ++ more

/-- A loop after some calls of `retain_pass`: every segment that has been in its table, how
many names the calls took out of the directory, and what each call found, newest first. -/
structure RetainRun where
  loop : Loop
  opened : List Nat
  unlinked : Nat
  calls : List Loop

def RetainRun.start (l : Loop) : RetainRun := ⟨l, l.wal.segBase, 0, []⟩

/-- The call, on what the rest of the loop has made of the table. -/
def RetainRun.next (r : RetainRun) (found : Loop) : RetainRun :=
  { loop := retainPass found
    opened := r.opened ++ found.wal.segBase.drop r.loop.wal.segBase.length
    unlinked := r.unlinked +
      (found.os.disk.dir.length - (retainPass found).os.disk.dir.length)
    calls := found :: r.calls }

theorem RetainRun.next_loop (r : RetainRun) (found : Loop) :
    (r.next found).loop = retainPass found := rfl

/-- Whatever the unlinks and the flushes of the directory answer. -/
def Retentions : RetainRun → Prop :=
  Runs.Reach (fun r => ∃ l, l.counts.retainRemoved = 0 ∧ r = .start l)
    (fun r found r' => Meanwhile r.loop found ∧ r' = r.next found) (fun _ _ => True)

/-- The count is that of the segments that have left the table, and the directory. -/
def RetainRun.Counts (r : RetainRun) : Prop :=
  ∃ gone, r.opened = gone ++ r.loop.wal.segBase ∧
    r.loop.counts.retainRemoved = gone.length ∧ r.loop.counts.retainRemoved = r.unlinked

/-- What the count has missed: nothing, unless a call could not flush the directory. -/
def RetainRun.Misses (r : RetainRun) (missed : Nat) : Prop :=
  ∃ gone, r.opened = gone ++ r.loop.wal.segBase ∧ r.unlinked = gone.length ∧
    r.loop.counts.retainRemoved + missed = gone.length ∧
    (missed = 0 ↔ ∀ found ∈ r.calls, ¬ found.Unsynced)

theorem RetainRun.Misses.next {r : RetainRun} {missed : Nat} (misses : r.Misses missed)
    {found : Loop} (meanwhile : Meanwhile r.loop found) : ∃ missed, (r.next found).Misses missed := by
  obtain ⟨gone, opened, unlinked, counts, exactly⟩ := misses
  obtain ⟨more, table⟩ := meanwhile.table
  obtain ⟨left, split, names, reported⟩ := retainPass_counts found
  have opened' : (r.next found).opened = gone ++ left ++ (retainPass found).wal.segBase := by
    unfold RetainRun.next
    simp only
    rw [table, List.drop_left, opened, List.append_assoc, ← table, split, List.append_assoc]
  have unlinked' : (r.next found).unlinked = (gone ++ left).length := by
    unfold RetainRun.next
    simp only
    rw [unlinked, List.length_append]
    omega
  rcases reported with ⟨synced, counted⟩ | ⟨unsynced, counted, some'⟩
  · refine ⟨missed, gone ++ left, opened', unlinked', ?_, ?_⟩
    · change (retainPass found).counts.retainRemoved + missed = _
      rw [counted, meanwhile.counted, List.length_append]
      omega
    · change missed = 0 ↔ ∀ found' ∈ found :: r.calls, ¬ found'.Unsynced
      rw [List.forall_mem_cons, exactly]
      exact ⟨fun all => ⟨synced, all⟩, fun all => all.2⟩
  · refine ⟨missed + left.length, gone ++ left, opened', unlinked', ?_, ?_⟩
    · change (retainPass found).counts.retainRemoved + (missed + left.length) = _
      rw [counted, meanwhile.counted, List.length_append]
      omega
    · change missed + left.length = 0 ↔ ∀ found' ∈ found :: r.calls, ¬ found'.Unsynced
      rw [List.forall_mem_cons]
      exact ⟨fun zero => by omega, fun all => absurd unsynced all.1⟩

theorem Retentions.misses {r : RetainRun} (reached : Retentions r) : ∃ missed, r.Misses missed := by
  refine @Runs.Reach.invariant _ _ _ _ _ (fun r => ∃ missed, r.Misses missed) ?_ ?_ r reached
  · rintro r ⟨l, zero, rfl⟩
    refine ⟨0, [], rfl, rfl, ?_, fun _ found none' => absurd none' List.not_mem_nil, fun _ => rfl⟩
    change l.counts.retainRemoved + 0 = 0
    rw [zero]
  · rintro r found r' ⟨missed, misses⟩ - ⟨meanwhile, rfl⟩
    exact misses.next meanwhile

/-! ### The server's runs -/

theorem Meanwhile.refl (l : Loop) : Meanwhile l l := ⟨rfl, [], by rw [List.append_nil]⟩

theorem Meanwhile.trans (left : Meanwhile l l') (right : Meanwhile l' l'') : Meanwhile l l'' := by
  obtain ⟨more, table⟩ := left.table
  obtain ⟨more', table'⟩ := right.table
  refine ⟨right.counted.trans left.counted, more ++ more', ?_⟩
  rw [table', table, List.append_assoc]

theorem Chained.grows {calls : List AppendCall} (chained : Chained w calls w') :
    ∃ more, w'.segBase = w.segBase ++ more := by
  induction chained with
  | done w => exact ⟨[], by rw [List.append_nil]⟩
  | @call c calls w' rest ih =>
      obtain ⟨more, grown⟩ := ih
      rcases c.answer_table with kept | ⟨-, base, added⟩
      · exact ⟨more, by rw [grown, kept]⟩
      · exact ⟨[base] ++ more, by rw [grown, added, List.append_assoc]⟩

theorem retainRemoved_of (settings : l'.settings = l.settings) :
    l'.counts.retainRemoved = l.counts.retainRemoved :=
  congrArg (fun all => all.2.2.2.2) settings

theorem Explained.meanwhile {calls : List AppendCall} (explained : Explained l calls l') :
    Meanwhile l l' := ⟨retainRemoved_of explained.settings, explained.chained.grows⟩

theorem loopFlush_meanwhile (l : Loop) : Meanwhile l (loopFlush l).2 := by
  obtain ⟨settings, table⟩ := loopFlush_settings l
  exact ⟨retainRemoved_of settings, [], by rw [table, List.append_nil]⟩

theorem Loop.stopped_meanwhile (l : Loop) : Meanwhile l { l with stop := true } :=
  ⟨rfl, [], (List.append_nil _).symm⟩

theorem dispatch_meanwhile {pass : Pass} {events : List Event} (l : Loop)
    (waits : pass.wait = some events) :
    Meanwhile l (loopFlush (loopDispatch (l.armed pass) events)).2 :=
  (armed_explained l pass).meanwhile.trans
    ((dispatch_explained l waits).meanwhile.trans (loopFlush_meanwhile _))

/-- A pass that fails does not get to retention. -/
theorem loopTick_failed {pass : Pass} {e : Err} (fails : loopTick l pass = (.error e, l')) :
    Meanwhile l l' := by
  unfold loopTick at fails
  simp only at fails
  cases waits : pass.wait with
  | none =>
      rw [waits] at fails
      cases fails
      exact (armed_explained l pass).meanwhile
  | some events =>
      have before := dispatch_meanwhile l waits
      unfold Loop.armed at before
      rw [waits] at fails
      simp only at fails
      generalize ({ armPhase (l.prepare pass) pass.arm with progress := false } : Loop) = l1
        at before fails
      cases flushes : loopFlush (loopDispatch l1 events) with
      | mk res l2 =>
          rw [flushes] at fails before
          cases res with
          | error e' =>
              cases fails
              exact before
          | ok done => cases fails

/-- Every run of the server is a run of `retain_pass` calls, one in each pass that gets to it. -/
theorem running_retentions {config : Config} (running : Running config l) :
    ∃ r, Retentions r ∧ Meanwhile r.loop l := by
  refine @Runs.Reach.invariant _ _ _ _ _ (fun l => ∃ r, Retentions r ∧ Meanwhile r.loop l) ?_ ?_ l
    running
  · rintro l ⟨os, listing, capacity, info, w, recs, os', -, rfl⟩
    refine ⟨.start (config.start w os' recs), .start ⟨_, ?_, rfl⟩, .refl _⟩
    unfold Config.start
    cases config.leader with
    | none => rfl
    | some text => rfl
  · rintro l pass l' ⟨r, reached, meanwhile⟩ - ⟨-, -, rfl⟩
    unfold loopPass
    cases ticked : loopTick l pass with
    | mk res l1 =>
        cases res with
        | error e =>
            exact ⟨r, reached, meanwhile.trans ((loopTick_failed ticked).trans l1.stopped_meanwhile)⟩
        | ok done =>
            have served : (loopTick l pass).1 = .ok () := by rw [ticked]
            obtain ⟨events, l2, waits, flushes, ended⟩ := loopTick_ends served
            have before := dispatch_meanwhile l waits
            rw [flushes] at before
            have found := meanwhile.trans (before.trans (served_beside l2).explained.meanwhile)
            refine ⟨r.next l2.pushed, .next reached l2.pushed trivial ⟨found, rfl⟩, ?_⟩
            rw [ticked] at ended
            simp only at ended ⊢
            rw [ended, loopServe_eq, RetainRun.next_loop]
            generalize retainPass l2.pushed = l3
            exact (armPhase_explained l3 pass.rearm).meanwhile

/-! ### The count -/

/--
**The count of removed segments is right in a run of `retain_pass` calls exactly where none
of them deletes segments and then fails to flush the directory.**

An unlink that fails is counted rightly, and so is the retry: what a call deletes before it
fails is reported, and leaves the table.
-/
theorem retainRemoved_counts {r : RetainRun} (reached : Retentions r) :
    r.Counts ↔ ∀ found ∈ r.calls, ¬ found.Unsynced := by
  obtain ⟨missed, gone, opened, unlinked, counts, exactly⟩ := reached.misses
  rw [← exactly]
  constructor
  · rintro ⟨gone', opened', table, -⟩
    rw [opened] at opened'
    rw [← List.append_cancel_right opened'] at table
    omega
  · intro none'
    exact ⟨gone, opened, by omega, by omega⟩

/-- A call whose unlink succeeds and whose flush of the directory fails, in a run of the
server: the second record has made a second segment. -/
def keepOneFound : Loop :=
  let pass := { fillPass 2 with script := List.replicate 8 .done ++ [.fails 5 0] }
  (loopFlush (loopDispatch (keepOneWritten.armed pass) (pass.wait.getD []))).2.pushed

theorem Retentions.once {found : Loop} (zero : found.counts.retainRemoved = 0) :
    Retentions ((RetainRun.start found).next found) :=
  .next (.start ⟨found, zero, rfl⟩) found trivial ⟨.refl found, rfl⟩

theorem keepOneFound_zero : keepOneFound.counts.retainRemoved = 0 := by decide +kernel

theorem retainRemoved_counts_keepOne :
    ((RetainRun.start keepOneFound).next keepOneFound).Counts ↔
      ∀ found ∈ ((RetainRun.start keepOneFound).next keepOneFound).calls, ¬ found.Unsynced :=
  retainRemoved_counts (.once keepOneFound_zero)

/-- One segment has left the table and the directory, and none is counted. -/
theorem retainRemoved_misses : ¬ ∀ r, Retentions r → r.Counts := by
  intro counts
  obtain ⟨gone, opened, removed, -⟩ := counts _ (.once keepOneFound_zero)
  have lengths := congrArg List.length opened
  have facts : ((RetainRun.start keepOneFound).next keepOneFound).opened.length = 2 ∧
      ((RetainRun.start keepOneFound).next keepOneFound).loop.wal.segBase.length = 1 ∧
      ((RetainRun.start keepOneFound).next keepOneFound).loop.counts.retainRemoved = 0 := by
    decide +kernel
  rw [List.length_append] at lengths
  omega

end Msgsrvd

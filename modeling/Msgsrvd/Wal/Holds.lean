/-
What the files hold of an open log whatever the file operations answer.

`Holds` relates the segments seen to the files and to the log in memory, as `LogAt`
does, but promises nothing of the directory or of the descriptor, which a failed
call can leave behind.
-/

import Msgsrvd.Lib.Runs
import Msgsrvd.Wal.Memory

namespace Msgsrvd

open Bytestring

structure Holds (disk : Disk) (w : Wal) (front : List SegView) (last : SegView) : Prop where
  sound : w.Sound
  table : w.segBase = (front ++ [last]).map SegView.base
  joined : ∃ first, 1 ≤ first ∧ Joined first (front ++ [last])
  stored : ∀ v ∈ front ++ [last], Stored w.segCapacity (disk.file v.base).vol v
  fd : ∀ fd, w.active.fd = some fd → fd = last.base
  nextSeq : w.active.nextSeq = last.next
  writeOff : w.active.writeOff = last.size
  unflushed : w.active.durableSeq + 1 = w.active.nextSeq →
    w.active.syncedOff = w.active.writeOff

variable {disk disk' : Disk} {w w' : Wal} {front : List SegView} {last : SegView} {os os' : Os}

theorem Holds.baseSeq (holds : Holds disk w front last) : w.active.baseSeq = last.base := by
  obtain ⟨early, table⟩ := holds.sound.last
  have ends := holds.table
  rw [table, List.map_append] at ends
  exact List.singleton_inj.mp (List.append_inj_right' ends rfl)

theorem Holds.last_stored (holds : Holds disk w front last) :
    Stored w.segCapacity (disk.file last.base).vol last :=
  holds.stored last (List.mem_append_right _ (List.mem_singleton.mpr rfl))

/-- Every base is below the next sequence, unless the active segment is empty. -/
theorem Holds.base_lt (holds : Holds disk w front last) (nonempty : w.active.writeOff ≠ 0)
    {v : SegView} (present : v ∈ front ++ [last]) : v.base < w.active.nextSeq := by
  obtain ⟨early, table⟩ := holds.sound.last
  have listed : v.base ∈ w.segBase := by
    rw [holds.table]
    exact List.mem_map_of_mem present
  have bound := pairwise_le_last (table ▸ holds.sound.sorted) v.base (table ▸ listed)
  rcases holds.sound.filled with empty | more
  · exact absurd empty nonempty
  · omega

/-- The same log over files that hold at least what they held. -/
theorem Holds.congr (holds : Holds disk w front last)
    (contents : ∀ v ∈ front ++ [last], (disk'.file v.base).vol = (disk.file v.base).vol) :
    Holds disk' w front last :=
  { holds with
    stored := by
      intro v present
      rw [contents v present]
      exact holds.stored v present }

/-! ### What the calls leave of the files -/

/-- Whatever it answers, a call that changes nothing of a file's content leaves it. -/
theorem plain_vol (os : Os) {effect : Disk → Disk} {base : Nat}
    (same : ((effect os.disk).file base).vol = (os.disk.file base).vol) :
    ((os.plain effect).2.disk.file base).vol = (os.disk.file base).vol := by
  unfold Os.plain Os.call
  cases os.script with
  | nil => exact same
  | cons outcome rest =>
      cases outcome with
      | done => exact same
      | fails errno moved => rfl

theorem flushFile_vol (disk : Disk) (fd base : Nat) :
    ((disk.flushFile fd).file base).vol = (disk.file base).vol := by
  unfold Disk.flushFile
  by_cases same : base = fd
  · rw [same, Disk.file_setFile_same]
  · rw [Disk.file_setFile_other _ _ same]

theorem walSegSync_vol (os : Os) (s : WalSeg) (base : Nat) :
    ((walSegSync os s).2.2.disk.file base).vol = (os.disk.file base).vol := by
  have flushed (fd : Option Nat) :
      ((osFdatasync os fd).2.disk.file base).vol = (os.disk.file base).vol := by
    cases fd with
    | none => rfl
    | some fd => exact plain_vol os (flushFile_vol os.disk fd base)
  unfold walSegSync
  split
  · rfl
  · have after := flushed s.fd
    split
    · rename_i failed
      rw [failed] at after
      exact after
    · rename_i done
      rw [done] at after
      exact after

theorem osClose_vol (os : Os) (base : Nat) :
    ((osClose os).2.disk.file base).vol = (os.disk.file base).vol := plain_vol os rfl

theorem walSegClose_vol (os : Os) (s : WalSeg) (base : Nat) :
    ((walSegClose os s).2.2.disk.file base).vol = (os.disk.file base).vol := by
  unfold walSegClose
  split
  · rfl
  · exact osClose_vol os base

theorem osCreate_vol {os os' : Os} {created base : Nat} {res : Except Err Nat}
    (differ : base ≠ created) (creates : osCreate os created = (res, os')) :
    (os'.disk.file base).vol = (os.disk.file base).vol ∧ ∀ fd, res = .ok fd → fd = created := by
  unfold osCreate at creates
  split at creates
  · cases creates
    exact ⟨rfl, fun _ none => by cases none⟩
  · have after := @plain_vol os
      (fun disk => (disk.setFile created ⟨[], []⟩).addDirOp (.link created)) base
      (congrArg File.vol (Disk.file_setFile_other _ _ differ))
    split at creates
    · rename_i failed
      rw [failed] at after
      cases creates
      exact ⟨after, fun _ none => by cases none⟩
    · rename_i done
      rw [done] at after
      cases creates
      exact ⟨after, fun _ same => (Except.ok.inj same).symm⟩

/-- Creating a segment touches no other file, however far it gets. -/
theorem walSegCreate_vol (os : Os) {created capacity base : Nat} (differ : base ≠ created) :
    ((walSegCreate os created capacity).2.disk.file base).vol = (os.disk.file base).vol := by
  unfold walSegCreate
  split
  · rfl
  · cases creates : osCreate os created with
    | mk res os1 =>
        obtain ⟨made, named⟩ := osCreate_vol differ creates
        cases res with
        | error e => exact made
        | ok fd =>
            simp only
            have sized := @plain_vol os1
              (fun disk => disk.setFile fd { disk.file fd with
                vol := extendTo (disk.file fd).vol capacity }) base
              (congrArg File.vol (Disk.file_setFile_other _ _ (by rw [named fd rfl]; exact differ)))
            cases sizes : osFallocate os1 fd capacity with
            | mk res2 os2 =>
                have sized : (os2.disk.file base).vol = (os1.disk.file base).vol := by
                  rw [← sized]
                  unfold osFallocate at sizes
                  rw [sizes]
                cases res2 with
                | error e => exact (osClose_vol os2 base).trans (sized.trans made)
                | ok done =>
                    simp only
                    have synced := @plain_vol os2 (fun disk => disk.flushFile fd) base
                      (flushFile_vol os2.disk fd base)
                    cases syncs : osFsync os2 fd with
                    | mk res3 os3 =>
                        have synced : (os3.disk.file base).vol = (os2.disk.file base).vol := by
                          rw [← synced]
                          unfold osFsync at syncs
                          rw [syncs]
                        cases res3 with
                        | error e =>
                            exact (osClose_vol os3 base).trans (synced.trans (sized.trans made))
                        | ok done =>
                            simp only
                            have listed := @plain_vol os3 Disk.flushDir base rfl
                            cases lists : osFsyncDir os3 with
                            | mk res4 os4 =>
                                have listed : (os4.disk.file base).vol =
                                    (os3.disk.file base).vol := by
                                  rw [← listed]
                                  unfold osFsyncDir at lists
                                  rw [lists]
                                have whole := listed.trans (synced.trans (sized.trans made))
                                cases res4 with
                                | error e => exact (osClose_vol os4 base).trans whole
                                | ok done => exact whole

/-! ### Flushing -/

theorem walSync_holds {res : Except Err Unit} (holds : Holds os.disk w front last)
    (flushes : walSync os w = (res, w', os')) : Holds os'.disk w' front last := by
  have flushed := walSync_sound holds.sound flushes
  have contents (base : Nat) : (os'.disk.file base).vol = (os.disk.file base).vol := by
    have kept := walSegSync_vol os w.active base
    unfold walSync at flushes
    cases syncs : walSegSync os w.active with
    | mk done rest =>
        rw [syncs] at flushes kept
        cases flushes
        exact kept
  have same : w'.segCapacity = w.segCapacity ∧ w'.active.fd = w.active.fd ∧
      (w'.active = w.active ∨ w'.active.syncedOff = w'.active.writeOff) := by
    unfold walSync at flushes
    cases syncs : walSegSync os w.active with
    | mk done rest =>
        rw [syncs] at flushes
        cases flushes
        unfold walSegSync at syncs
        split at syncs
        · cases syncs
          exact ⟨rfl, rfl, Or.inl rfl⟩
        · split at syncs
          · cases syncs
            exact ⟨rfl, rfl, Or.inl rfl⟩
          · cases syncs
            exact ⟨rfl, rfl, Or.inr rfl⟩
  obtain ⟨capacity, fd, offsets⟩ := same
  refine ⟨flushed.sound, ?_, holds.joined, ?_, ?_, ?_, ?_, ?_⟩
  · rw [flushed.table]
    exact holds.table
  · intro v present
    rw [contents v.base, capacity]
    exact holds.stored v present
  · rw [fd]
    exact holds.fd
  · exact flushed.next.trans holds.nextSeq
  · exact flushed.writeOff.trans holds.writeOff
  · rcases offsets with same | settled
    · rw [same]
      exact holds.unflushed
    · exact fun _ => settled

/-! ### Appending -/

/-- Every record of the one log is one of the other. -/
def Keeps (views views' : List SegView) : Prop :=
  ∀ seq bytes, Contains views seq bytes → Contains views' seq bytes

theorem Keeps.refl (views : List SegView) : Keeps views views := fun _ _ known => known

theorem Keeps.trans {views views' views'' : List SegView} (left : Keeps views views')
    (right : Keeps views' views'') : Keeps views views'' :=
  fun seq bytes known => right seq bytes (left seq bytes known)

/-- Bytes written behind the records of a file leave them. -/
theorem Stored.behind {capacity : Nat} {content : Bytes} {v : SegView}
    (stored : Stored capacity content v) (bytes : Bytes) :
    Stored capacity (overwrite content v.size bytes) v := by
  obtain ⟨are, fits, tail, shape⟩ := stored
  refine ⟨are, fits, bytes ++ tail.drop bytes.length, ?_⟩
  rw [shape, SegView.size, overwrite_records]

theorem file_write_same (disk : Disk) (fd offset : Nat) (bytes : Bytes) :
    ((disk.write fd offset bytes).file fd).vol = overwrite (disk.file fd).vol offset bytes := by
  unfold Disk.write
  rw [Disk.file_setFile_same]

theorem file_write_other (disk : Disk) {fd base : Nat} (offset : Nat) (bytes : Bytes)
    (differ : base ≠ fd) : (disk.write fd offset bytes).file base = disk.file base :=
  Disk.file_setFile_other _ _ differ

theorem Holds.base_ne (holds : Holds disk w front last) {v : SegView} (early : v ∈ front) :
    v.base ≠ last.base := by
  have sorted := holds.sound.sorted
  rw [holds.table, List.map_append, List.pairwise_append] at sorted
  have less := sorted.2.2 v.base (List.mem_map_of_mem early) last.base
    (List.mem_singleton.mpr rfl)
  omega

/-- Bytes written at the append point leave every record, however many arrive. -/
theorem Holds.wrote (holds : Holds disk w front last) (bytes : Bytes) :
    Holds (disk.write last.base last.size bytes) w front last :=
  { holds with
    stored := by
      intro v present
      rcases List.mem_append.mp present with early | atEnd
      · rw [file_write_other _ _ _ (holds.base_ne early)]
        exact holds.stored v present
      · rw [List.mem_singleton.mp atEnd, file_write_same]
        exact holds.last_stored.behind bytes }

/-- A write puts down all of its bytes, or fails with some of them put down. -/
theorem osPwriteFull_either (os : Os) (fd : Nat) (bytes : Bytes) (offset : Nat) :
    (∃ os', osPwriteFull os (some fd) bytes offset = (.ok (), os') ∧
        os'.disk = os.disk.write fd offset bytes) ∨
      ∃ e os' part, osPwriteFull os (some fd) bytes offset = (.error e, os') ∧
        os'.disk = os.disk.write fd offset part := by
  unfold osPwriteFull Os.call
  cases os.script with
  | nil => exact Or.inl ⟨_, rfl, rfl⟩
  | cons outcome rest =>
      cases outcome with
      | done => exact Or.inl ⟨_, rfl, rfl⟩
      | fails errno moved => exact Or.inr ⟨_, _, _, rfl, rfl⟩

/-- The log with one more record, and the bytes of it in the file. -/
theorem Holds.pushed (holds : Holds disk w front last) {bytes : Bytes} (is : IsRec last.next bytes)
    (fits : last.size + bytes.length ≤ w.segCapacity) {index : WalIndex}
    (sound : Wal.Sound { w with
      active := { w.active with
        writeOff := w.active.writeOff + bytes.length, nextSeq := w.active.nextSeq + 1 }
      index := index }) :
    Holds (disk.write last.base last.size bytes)
      { w with
        active := { w.active with
          writeOff := w.active.writeOff + bytes.length, nextSeq := w.active.nextSeq + 1 }
        index := index } front ⟨last.base, last.recs ++ [bytes]⟩ := by
  have below := holds.sound.durable
  obtain ⟨first, positive, joined⟩ := holds.joined
  refine ⟨sound, ?_, ⟨first, positive, ?_⟩, ?_, holds.fd, ?_, ?_, ?_⟩
  · rw [holds.table, List.map_append, List.map_append]
    rfl
  · exact joined.left.append ⟨joined.right.1, trivial⟩
  · intro v present
    rcases List.mem_append.mp present with early | atEnd
    · rw [file_write_other _ _ _ (holds.base_ne early)]
      exact holds.stored v (List.mem_append_left _ early)
    · rw [List.mem_singleton.mp atEnd]
      simp only
      rw [file_write_same]
      exact holds.last_stored.push is fits
  · rw [SegView.next_append]
    simp only [holds.nextSeq]
    rfl
  · rw [SegView.size_append, List.flatten_cons, List.flatten_nil, List.append_nil]
    simp only [holds.writeOff]
  · simp only
    intro settled
    omega

/-- A write to the active segment fails and leaves every record, or adds the record's bytes. -/
theorem walAppendActive_either {res : Except Err WalRec} {r : WalRec} {payload : Bytes}
    {scratchLen : Nat} (holds : Holds os.disk w front last)
    (given : (i32 r.len).toNat ≤ payload.length) (low : w.active.nextSeq < 2 ^ 64)
    (appends : walAppendActive os w r payload scratchLen = (res, w', os')) :
    (∃ e, res = .error e ∧ Holds os'.disk w' front last) ∨
      ∃ bytes out, res = .ok out ∧
        walRecEncode scratchLen { r with seq := w.active.nextSeq } payload = some (bytes, out) ∧
        Holds os'.disk w' front ⟨last.base, last.recs ++ [bytes]⟩ := by
  have moved := (walAppendActive_sound holds.sound appends).1
  unfold walAppendActive at appends
  cases pushes : walSegAppend os w.active r payload scratchLen with
  | mk done rest =>
      obtain ⟨seg, os1⟩ := rest
      rw [pushes] at appends
      unfold walSegAppend at pushes
      cases encoded : walRecEncode scratchLen { r with seq := w.active.nextSeq } payload with
      | none =>
          rw [encoded] at pushes
          cases pushes
          cases appends
          exact .inl ⟨_, rfl, holds⟩
      | some result =>
          obtain ⟨bytes, out⟩ := result
          rw [encoded] at pushes
          simp only at pushes
          split at pushes
          · cases pushes
            cases appends
            exact .inl ⟨_, rfl, holds⟩
          · rename_i fits
            cases opened : w.active.fd with
            | none =>
                rw [opened] at pushes
                cases pushes
                cases appends
                exact .inl ⟨_, rfl, holds⟩
            | some fd =>
                have at_last := holds.fd fd opened
                have below := holds.sound.durable
                have is : IsRec w.active.nextSeq bytes :=
                  @walRecEncode_isRec scratchLen { r with seq := w.active.nextSeq } out payload bytes
                    given (by simp only; omega) low encoded
                rw [holds.nextSeq] at is
                have inside : last.size + bytes.length ≤ w.segCapacity := by
                  rw [← holds.writeOff, ← holds.sound.capacity]
                  omega
                -- A write that fails may have moved some of its bytes.
                rcases osPwriteFull_either os fd bytes w.active.writeOff with
                  ⟨os2, wrote, disk⟩ | ⟨e, os2, part, failed, disk⟩
                · rw [← opened] at wrote
                  rw [wrote] at pushes
                  cases pushes
                  cases appends
                  have at_end : os'.disk = os.disk.write last.base last.size bytes := by
                    rw [disk, at_last, holds.writeOff]
                  rw [at_end]
                  exact .inr ⟨bytes, _, rfl, rfl, holds.pushed is inside moved.sound⟩
                · rw [← opened] at failed
                  rw [failed] at pushes
                  cases pushes
                  cases appends
                  rw [disk, at_last, holds.writeOff]
                  exact .inl ⟨_, rfl, holds.wrote part⟩

theorem walAppendActive_holds {res : Except Err WalRec} {r : WalRec} {payload : Bytes}
    {scratchLen : Nat} (holds : Holds os.disk w front last)
    (given : (i32 r.len).toNat ≤ payload.length) (low : w.active.nextSeq < 2 ^ 64)
    (appends : walAppendActive os w r payload scratchLen = (res, w', os')) :
    ∃ last', Holds os'.disk w' front last' ∧ Keeps (front ++ [last]) (front ++ [last']) := by
  rcases walAppendActive_either holds given low appends with
    ⟨_e, _failed, holds'⟩ | ⟨bytes, _out, _done, _encoded, holds'⟩
  · exact ⟨last, holds', .refl _⟩
  · exact ⟨_, holds', fun _ _ known => known.push bytes⟩

/-- A new segment behind the last one. -/
theorem Holds.rolled (holds : Holds disk w front last)
    (settled : walDurableSeq w + 1 = walNextSeq w) (nonempty : w.active.writeOff ≠ 0)
    {disk' : Disk} (contents : ∀ v ∈ front ++ [last],
      (disk'.file v.base).vol = (disk.file v.base).vol) {fd : Nat}
    (named : fd = walDurableSeq w + 1) :
    Holds disk' { w with
      active := segReset fd (walDurableSeq w + 1) w.segCapacity
      segBase := w.segBase ++ [walDurableSeq w + 1] } (front ++ [last]) ⟨last.next, []⟩ := by
  have next : walDurableSeq w + 1 = last.next := settled.trans holds.nextSeq
  obtain ⟨first, positive, joined⟩ := holds.joined
  refine ⟨segReset_sound holds.sound fd settled nonempty, ?_, ⟨first, positive, ?_⟩, ?_, ?_, ?_,
    rfl, fun _ => rfl⟩
  · rw [List.map_append, ← holds.table, next]
    rfl
  · refine joined.append ⟨?_, trivial⟩
    rw [endOf_append]
    rfl
  · intro v present
    rcases List.mem_append.mp present with early | atEnd
    · rw [contents v early]
      exact holds.stored v early
    · rw [List.mem_singleton.mp atEnd]
      exact ⟨trivial, Nat.zero_le _, _, rfl⟩
  · intro fd' opened
    cases opened
    rw [named, next]
  · exact next

theorem walSegCreate_fd {os os' : Os} {baseSeq capacity : Nat} {seg : WalSeg}
    (creates : walSegCreate os baseSeq capacity = (.ok seg, os')) :
    seg = segReset baseSeq baseSeq capacity := by
  unfold walSegCreate at creates
  split at creates
  · cases creates
  · cases made : osCreate os baseSeq with
    | mk res os1 =>
        rw [made] at creates
        cases res with
        | error e => cases creates
        | ok fd =>
            have named : fd = baseSeq :=
              (osCreate_vol (show baseSeq + 1 ≠ baseSeq by omega) made).2 fd rfl
            subst named
            simp only at creates
            repeat' split at creates
            all_goals first
              | cases creates; rfl
              | cases creates

/-- A closed descriptor changes nothing of what the files hold. -/
theorem Holds.closed (holds : Holds disk w front last) {fd : Option Nat}
    (either : fd = w.active.fd ∨ fd = none) :
    Holds disk { w with active := { w.active with fd := fd } } front last :=
  { holds with
    sound := { holds.sound with }
    fd := by
      intro fd' opened
      rcases either with same | none'
      · exact holds.fd fd' (same ▸ opened)
      · simp only [none', reduceCtorEq] at opened }

theorem walSegClose_fd {os os' : Os} {s seg : WalSeg} {res : Except Err Unit}
    (closes : walSegClose os s = (res, seg, os')) :
    ∃ fd, (fd = s.fd ∨ fd = none) ∧ seg = { s with fd := fd } := by
  unfold walSegClose at closes
  split at closes
  · cases closes
    exact ⟨s.fd, Or.inl rfl, rfl⟩
  · cases closes
    exact ⟨none, Or.inr rfl, rfl⟩

/-- A rollover fails and leaves every record, or begins an empty segment behind them. -/
theorem walRollover_either {res : Except Err Unit} (holds : Holds os.disk w front last)
    (nonempty : w.active.writeOff ≠ 0) (rolls : walRollover os w = (res, w', os')) :
    (∃ e, res = .error e ∧ Holds os'.disk w' front last) ∨
      (res = .ok () ∧ Holds os'.disk w' (front ++ [last]) ⟨last.next, []⟩) := by
  unfold walRollover at rolls
  by_cases full : WAL_MAX_SEGMENTS ≤ w.segBase.length
  · rw [if_pos full] at rolls
    cases rolls
    exact .inl ⟨_, rfl, holds⟩
  · rw [if_neg full] at rolls
    cases flushes : walSync os w with
    | mk done rest =>
        obtain ⟨w1, os1⟩ := rest
        have flushed := walSync_sound holds.sound flushes
        have holds1 := walSync_holds holds flushes
        rw [flushes] at rolls
        cases done with
        | error e =>
            cases rolls
            exact .inl ⟨_, rfl, holds1⟩
        | ok done =>
            simp only at rolls
            cases closes : walSegClose os1 w1.active with
            | mk done2 rest2 =>
                obtain ⟨seg, os2⟩ := rest2
                obtain ⟨fd, either, shape⟩ := walSegClose_fd closes
                have kept (base : Nat) :
                    (os2.disk.file base).vol = (os1.disk.file base).vol := by
                  have after := walSegClose_vol os1 w1.active base
                  rw [closes] at after
                  exact after
                have holds2 := (holds1.closed either).congr (fun v _ => kept v.base)
                rw [closes] at rolls
                cases done2 with
                | error e =>
                    cases rolls
                    rw [shape]
                    exact .inl ⟨_, rfl, holds2⟩
                | ok done2 =>
                    simp only at rolls
                    have nonempty1 : w1.active.writeOff ≠ 0 := by
                      rw [flushed.writeOff]
                      exact nonempty
                    have settled := flushed.settled rfl
                    have apart (v : SegView) (present : v ∈ front ++ [last]) :
                        v.base ≠ w1.active.durableSeq + 1 := by
                      have less := holds1.base_lt nonempty1 present
                      have next : w1.active.durableSeq + 1 = w1.active.nextSeq := settled
                      omega
                    cases creates : walSegCreate os2 (w1.active.durableSeq + 1) w1.segCapacity with
                    | mk done3 os3 =>
                        have contents (v : SegView) (present : v ∈ front ++ [last]) :
                            (os3.disk.file v.base).vol = (os2.disk.file v.base).vol := by
                          have after := @walSegCreate_vol os2 (w1.active.durableSeq + 1)
                            w1.segCapacity v.base (apart v present)
                          rw [creates] at after
                          exact after
                        rw [creates] at rolls
                        cases done3 with
                        | error e =>
                            cases rolls
                            rw [shape]
                            exact .inl ⟨_, rfl, holds2.congr contents⟩
                        | ok seg3 =>
                            cases rolls
                            rw [walSegCreate_fd creates]
                            exact .inr ⟨rfl, holds1.rolled settled nonempty1
                              (fun v present => (contents v present).trans (kept v.base)) rfl⟩

theorem walRollover_holds {res : Except Err Unit} (holds : Holds os.disk w front last)
    (nonempty : w.active.writeOff ≠ 0) (rolls : walRollover os w = (res, w', os')) :
    ∃ front' last', Holds os'.disk w' front' last' ∧
      Keeps (front ++ [last]) (front' ++ [last']) := by
  rcases walRollover_either holds nonempty rolls with ⟨_e, _failed, holds'⟩ | ⟨_done, holds'⟩
  · exact ⟨front, last, holds', .refl _⟩
  · exact ⟨_, _, holds', fun _ _ known => known.roll last.next⟩

theorem walAppend_holds {res : Except Err WalRec} {r : WalRec} {payload : Bytes}
    {scratchLen : Nat} (holds : Holds os.disk w front last)
    (given : (i32 r.len).toNat ≤ payload.length) (low : w.active.nextSeq < 2 ^ 64)
    (appends : walAppend os w r payload scratchLen = (res, w', os')) :
    ∃ front' last', Holds os'.disk w' front' last' ∧
      Keeps (front ++ [last]) (front' ++ [last']) := by
  unfold walAppend at appends
  simp only at appends
  by_cases tooBig : walRecSize (i32 r.len) = 0 ∨ walRecSize (i32 r.len) > w.segCapacity
  · rw [if_pos tooBig] at appends
    cases appends
    exact ⟨front, last, holds, .refl _⟩
  · rw [if_neg tooBig] at appends
    rw [not_or] at tooBig
    by_cases fits : walSegFits w.active (i32 r.len) = true
    · rw [if_pos fits] at appends
      exact ⟨front, walAppendActive_holds holds given low appends⟩
    · rw [if_neg fits] at appends
      have nonempty : w.active.writeOff ≠ 0 := by
        intro empty
        apply fits
        unfold walSegFits
        have capacity := holds.sound.capacity
        simp only [if_neg tooBig.1, decide_eq_true_eq]
        omega
      cases rolls : walRollover os w with
      | mk done rest =>
          obtain ⟨w1, os1⟩ := rest
          obtain ⟨front1, last1, holds1, kept1⟩ := walRollover_holds holds nonempty rolls
          have next : w1.active.nextSeq = w.active.nextSeq :=
            (walRollover_sound holds.sound nonempty rolls).next
          rw [rolls] at appends
          cases done with
          | error e =>
              cases appends
              exact ⟨front1, last1, holds1, kept1⟩
          | ok done =>
              obtain ⟨last2, holds2, kept2⟩ :=
                walAppendActive_holds holds1 given (by rw [next]; exact low) appends
              exact ⟨front1, last2, holds2, kept1.trans kept2⟩

theorem walAppendAt_holds {res : Except Err WalRec} {r : WalRec} {payload : Bytes}
    {scratchLen : Nat} (holds : Holds os.disk w front last)
    (given : (i32 r.len).toNat ≤ payload.length) (low : w.active.nextSeq < 2 ^ 64)
    (appends : walAppendAt os w r payload scratchLen = (res, w', os')) :
    ∃ front' last', Holds os'.disk w' front' last' ∧
      Keeps (front ++ [last]) (front' ++ [last']) := by
  unfold walAppendAt at appends
  split at appends
  · cases appends
    exact ⟨front, last, holds, .refl _⟩
  · cases stores : walAppend os w r payload scratchLen with
    | mk done rest =>
        obtain ⟨w1, os1⟩ := rest
        have holds1 := walAppend_holds holds given low stores
        rw [stores] at appends
        cases done with
        | error e =>
            cases appends
            exact holds1
        | ok out =>
            simp only at appends
            split at appends
            · cases appends
              exact holds1
            · cases appends
              exact holds1

/-! ### Retention -/

theorem plain_file (os : Os) {effect : Disk → Disk} (same : (effect os.disk).file = os.disk.file) :
    (os.plain effect).2.disk.file = os.disk.file := by
  unfold Os.plain Os.call
  cases os.script with
  | nil => exact same
  | cons outcome rest =>
      cases outcome with
      | done => exact same
      | fails errno moved => rfl

theorem walRetainUnlink_file {bases : List Nat} {gone : Nat} {os os' : Os}
    {res : Except (Err × Nat) Unit} (unlinks : walRetainUnlink bases gone os = (res, os')) :
    os'.disk.file = os.disk.file := by
  induction bases generalizing gone os with
  | nil =>
      cases unlinks
      rfl
  | cons base rest ih =>
      unfold walRetainUnlink at unlinks
      have kept : (osUnlinkat os base).2.disk.file = os.disk.file := by
        unfold osUnlinkat
        split
        · exact plain_file os rfl
        · rfl
      split at unlinks
      · rename_i failed
        rw [failed] at kept
        cases unlinks
        exact kept
      · rename_i done
        rw [done] at kept
        exact (ih unlinks).trans kept

/-- Dropping leading segments leaves what the others hold. -/
theorem Holds.drop (holds : Holds disk w front last) {count : Nat}
    (few : count < w.segBase.length) (files : disk'.file = disk.file) :
    Holds disk' { w with segBase := w.segBase.drop count } (front.drop count) last := by
  have inside : count ≤ front.length := by
    rw [holds.table, List.length_map, List.length_append, List.length_singleton] at few
    omega
  have rest : (front ++ [last]).drop count = front.drop count ++ [last] :=
    List.drop_append_of_le_length inside
  obtain ⟨first, positive, joined⟩ := holds.joined
  refine ⟨(holds.sound.drop few).1, ?_, ?_, ?_, holds.fd, holds.nextSeq, holds.writeOff,
    holds.unflushed⟩
  · simp only [holds.table]
    rw [← List.map_drop, rest]
  · have whole : front ++ [last] = front.take count ++ (front.drop count ++ [last]) := by
      rw [← List.append_assoc, List.take_append_drop]
    rw [whole] at joined
    have grows := joined.left.bounds.2
    exact ⟨endOf first (front.take count), Nat.le_trans positive grows, joined.right⟩
  · intro v present
    rw [files]
    refine holds.stored v ?_
    rw [← rest] at present
    exact List.mem_of_mem_drop present

/-- Retention drops leading segments, however far it gets. -/
theorem walRetain_cuts {keepFrom removed : Nat} {res : Except Err Unit}
    (holds : Holds os.disk w front last)
    (retains : walRetain os w keepFrom = (res, removed, w', os')) :
    ∃ count, Holds os'.disk w' (front.drop count) last := by
  have given : w.segBase ≠ [] := by
    rw [holds.table, List.map_append]
    exact List.append_ne_nil_of_right_ne_nil _ (List.cons_ne_nil _ _)
  have less := walRetainDrop_lt keepFrom given
  unfold walRetain at retains
  simp only at retains
  split at retains
  · cases retains
    exact ⟨0, holds⟩
  · cases unlinks : walRetainUnlink (w.segBase.take (walRetainDrop keepFrom w.segBase)) 0 os with
    | mk done os1 =>
        have files := walRetainUnlink_file unlinks
        rw [unlinks] at retains
        cases done with
        | error failed =>
            obtain ⟨e, gone⟩ := failed
            have bound := walRetainUnlink_gone unlinks
            rw [List.length_take] at bound
            cases retains
            exact ⟨_, holds.drop (by omega) files⟩
        | ok done =>
            simp only at retains
            have flushed : (osFsyncDir os1).2.disk.file = os1.disk.file := plain_file os1 rfl
            cases syncs : osFsyncDir os1 with
            | mk done2 os2 =>
                rw [syncs] at retains flushed
                cases done2 with
                | error e =>
                    cases retains
                    exact ⟨_, holds.drop less (flushed.trans files)⟩
                | ok done2 =>
                    cases retains
                    exact ⟨_, holds.drop less (flushed.trans files)⟩

theorem walRetain_holds {keepFrom removed : Nat} {res : Except Err Unit}
    (holds : Holds os.disk w front last)
    (retains : walRetain os w keepFrom = (res, removed, w', os')) :
    ∃ front', Holds os'.disk w' front' last := by
  obtain ⟨count, holds'⟩ := walRetain_cuts holds retains
  exact ⟨_, holds'⟩

/-! ### Opening -/

/-- What a stretch of scanning accepted, as bytes. -/
structure Taken (capacity : Nat) (content : Bytes) (off expected : Nat) (acc : List WalRec)
    (off' expected' : Nat) (acc' : List WalRec) (recs : List Bytes) : Prop where
  are : IsRecs expected recs
  shape : ∃ tail, content.drop off = recs.flatten ++ tail
  off : off' = off + recs.flatten.length
  expected : expected' = expected + recs.length
  acc : acc' = acc ++ headers recs
  fits : recs ≠ [] → off' ≤ capacity

theorem Taken.none (capacity : Nat) (content : Bytes) (off expected : Nat) (acc : List WalRec) :
    Taken capacity content off expected acc off expected acc [] :=
  ⟨trivial, ⟨_, rfl⟩, rfl, rfl, (List.append_nil acc).symm, fun some' => absurd rfl some'⟩

theorem Taken.trans {capacity : Nat} {content : Bytes} {off off' off'' expected expected'
    expected'' : Nat} {acc acc' acc'' : List WalRec} {front back : List Bytes}
    (left : Taken capacity content off expected acc off' expected' acc' front)
    (right : Taken capacity content off' expected' acc' off'' expected'' acc'' back) :
    Taken capacity content off expected acc off'' expected'' acc'' (front ++ back) := by
  obtain ⟨tail, shape⟩ := left.shape
  obtain ⟨tail', shape'⟩ := right.shape
  have offs := left.off
  refine ⟨?_, ⟨tail', ?_⟩, ?_, ?_, ?_, ?_⟩
  · refine left.are.append ?_
    rw [← left.expected]
    exact right.are
  · rw [offs, ← List.drop_drop, shape, List.drop_left' rfl] at shape'
    rw [shape, shape', List.flatten_append, List.append_assoc]
  · rw [right.off, offs, List.flatten_append, List.length_append]
    omega
  · rw [right.expected, left.expected, List.length_append]
    omega
  · rw [right.acc, left.acc, headers_append, List.append_assoc]
  · intro some'
    by_cases more : back = []
    · have still := right.off
      rw [more, List.flatten_nil, List.length_nil, Nat.add_zero] at still
      rw [still]
      apply left.fits
      intro none'
      exact some' (by rw [none', more]; rfl)
    · exact right.fits more

/-- The walk over a block takes records of the file the block was read from. -/
theorem walSegScanBlock_taken {capacity off : Nat} {content block rest : Bytes}
    (read : content.drop off = block ++ rest) {fuel pos expected : Nat} {acc : List WalRec}
    {stop : BlockEnd} {pos' expected' : Nat} {acc' : List WalRec}
    (walked : walSegScanBlock capacity off block fuel pos expected acc =
      (stop, pos', expected', acc')) :
    ∃ recs, Taken capacity content (off + pos) expected acc (off + pos') expected' acc' recs := by
  induction fuel generalizing pos expected acc with
  | zero =>
      cases walked
      exact ⟨[], .none _ _ _ _ _⟩
  | succ fuel ih =>
      unfold walSegScanBlock at walked
      simp only at walked
      split at walked
      · cases decoded : walRecDecode (block.drop pos) with
        | none =>
            rw [decoded] at walked
            cases walked
            exact ⟨[], .none _ _ _ _ _⟩
        | some r =>
            rw [decoded] at walked
            simp only at walked
            split at walked
            · cases walked
              exact ⟨[], .none _ _ _ _ _⟩
            · rename_i notEnd
              split at walked
              · cases walked
                exact ⟨[], .none _ _ _ _ _⟩
              · rename_i sized
                split at walked
                · split at walked
                  · cases walked
                    exact ⟨[], .none _ _ _ _ _⟩
                  · cases walked
                    exact ⟨[], .none _ _ _ _ _⟩
                · rename_i whole
                  split at walked
                  · cases walked
                    exact ⟨[], .none _ _ _ _ _⟩
                  · rename_i good
                    obtain ⟨recs, later⟩ := ih walked
                    rw [not_or] at sized
                    rw [not_or, not_not] at good
                    rw [← Nat.add_assoc] at later
                    have front : (block.drop pos).length = block.length - pos := List.length_drop
                    have head : scanHead (capacity - (off + pos)) expected (block.drop pos) =
                        .record (walRecSize (i32 r.len)) := by
                      unfold scanHead
                      simp only [decoded]
                      rw [if_neg notEnd, if_neg (by omega), if_neg (by omega),
                        if_neg (by rw [not_or, not_not]; exact good)]
                    have is := scanHead_isRec head
                    have size : ((block.drop pos).take (walRecSize (i32 r.len))).length =
                        walRecSize (i32 r.len) := by
                      rw [List.length_take]
                      omega
                    have one : Taken capacity content (off + pos) expected acc
                        (off + pos + walRecSize (i32 r.len)) (expected + 1) (acc ++ [r])
                        [(block.drop pos).take (walRecSize (i32 r.len))] := by
                      refine ⟨⟨is, trivial⟩,
                        ⟨(block.drop pos).drop (walRecSize (i32 r.len)) ++ rest, ?_⟩, ?_, rfl, ?_,
                        fun _ => by omega⟩
                      · rw [← List.drop_drop, read, List.drop_append_of_le_length (by omega),
                          List.flatten_cons, List.flatten_nil, List.append_nil,
                          ← List.append_assoc, List.take_append_drop]
                      · rw [List.flatten_cons, List.flatten_nil, List.append_nil, size]
                      · have header := is.header_le
                        rw [size] at header
                        rw [headers, List.filterMap_cons, walRecDecode_take _ _ header, decoded]
                        rfl
                    exact ⟨_, one.trans later⟩
      · cases walked
        exact ⟨[], .none _ _ _ _ _⟩

theorem osPreadFull_ok {os os' : Os} {fd count offset : Nat} {block : Bytes}
    (reads : osPreadFull os (some fd) count offset = (.ok block, os')) :
    block = slice (os.disk.file fd).vol offset count ∧ os'.disk = os.disk := by
  have same : (os.plain id).2.disk = os.disk := by
    unfold Os.plain Os.call
    cases os.script with
    | nil => rfl
    | cons outcome rest => cases outcome <;> rfl
  unfold osPreadFull at reads
  cases calls : os.plain id with
  | mk res os1 =>
      rw [calls] at reads same
      cases res with
      | error e => cases reads
      | ok done =>
          cases reads
          exact ⟨by rw [same], same⟩

theorem walSegScan_taken {fd capacity scratchLen fuel : Nat} {os os' : Os} {off expected : Nat}
    {acc : List WalRec} {point : ScanPoint}
    (scanned : walSegScan (some fd) capacity scratchLen fuel os off expected acc =
      (.ok point, os')) :
    os'.disk = os.disk ∧ ∃ recs, Taken capacity (os.disk.file fd).vol off expected acc
      point.off point.expected point.recs recs := by
  induction fuel generalizing os off expected acc with
  | zero =>
      cases scanned
      exact ⟨rfl, [], .none _ _ _ _ _⟩
  | succ fuel ih =>
      unfold walSegScan at scanned
      split at scanned
      · split at scanned
        · cases scanned
        · rename_i block os1 reads
          obtain ⟨shape, same⟩ := osPreadFull_ok reads
          split at scanned
          · cases scanned
            exact ⟨same, [], .none _ _ _ _ _⟩
          · have read : (os.disk.file fd).vol.drop off = block ++
                ((os.disk.file fd).vol.drop off).drop (min scratchLen (capacity - off)) := by
              rw [shape, slice, List.take_append_drop]
            cases walked : walSegScanBlock capacity off block block.length 0 expected acc with
            | mk stop rest =>
                obtain ⟨pos', expected', acc'⟩ := rest
                obtain ⟨recs, taken⟩ := walSegScanBlock_taken read walked
                rw [Nat.add_zero] at taken
                rw [walked] at scanned
                cases stop with
                | nomem size => cases scanned
                | finish torn =>
                    cases scanned
                    exact ⟨same, recs, taken⟩
                | refill =>
                    simp only at scanned
                    split at scanned
                    · rename_i still
                      cases scanned
                      rw [still, Nat.add_zero] at taken
                      exact ⟨same, recs, taken⟩
                    · obtain ⟨same', more, later⟩ := ih scanned
                      rw [same] at later
                      exact ⟨same'.trans same, recs ++ more, taken.trans later⟩
      · cases scanned
        exact ⟨rfl, [], .none _ _ _ _ _⟩

/-- What recovery accepts is at the front of the file. -/
theorem walSegRecover_stored {os os' : Os} {base capacity scratchLen : Nat} {scan : WalSegScan}
    {seg : WalSeg} {recs : List WalRec}
    (recovers : walSegRecover os (segReset base base capacity) scratchLen =
      (.ok (scan, seg, recs), os')) :
    os'.disk = os.disk ∧ ∃ v : SegView, v.base = base ∧ seg = v.seg capacity ∧
      Stored capacity (os.disk.file base).vol v ∧ scan.lastSeq = v.next - 1 ∧
      recs = headers v.recs := by
  unfold walSegRecover at recovers
  split at recovers
  · cases recovers
  · split at recovers
    · cases recovers
    · rename_i point os1 scanned
      cases recovers
      obtain ⟨same, recs, taken⟩ := walSegScan_taken scanned
      have size : point.off = (⟨base, recs⟩ : SegView).size := by
        have off := taken.off
        rw [Nat.zero_add] at off
        exact off
      have next : point.expected = (⟨base, recs⟩ : SegView).next := taken.expected
      refine ⟨same, ⟨base, recs⟩, rfl, ?_, ⟨taken.are, ?_, taken.shape⟩, by simp only [next],
        taken.acc⟩
      · simp only [SegView.seg, next, size, segReset]
      · rw [← size]
        by_cases empty : recs = []
        · have none : point.off = 0 := by
            rw [size, empty]
            rfl
          omega
        · exact taken.fits empty

theorem walSegOpen_named {os os' : Os} {base capacity : Nat} {seg : WalSeg}
    (opens : walSegOpen os base capacity = (.ok seg, os')) :
    1 ≤ base ∧ seg = segReset base base capacity ∧ os'.disk = os.disk := by
  have same : (os.plain id).2.disk = os.disk := by
    unfold Os.plain Os.call
    cases os.script with
    | nil => rfl
    | cons outcome rest => cases outcome <;> rfl
  unfold walSegOpen at opens
  split at opens
  · cases opens
  · rename_i valid
    rw [not_or] at valid
    unfold osOpenat at opens
    split at opens
    · cases opens
    · rename_i fd os1 found
      cases opens
      split at found
      · cases calls : os.plain id with
        | mk res os2 =>
            rw [calls] at found same
            cases res with
            | error e => cases found
            | ok done =>
                cases found
                exact ⟨by omega, rfl, same⟩
      · cases found

theorem osClose_disk (os : Os) : (osClose os).2.disk = os.disk := by
  unfold osClose Os.plain Os.call
  cases os.script with
  | nil => rfl
  | cons outcome rest => cases outcome <;> rfl

theorem walOpenScan_stored {capacity scratchLen : Nat} {table : List Nat} {os os' : Os}
    {acc acc' : OpenScan} (given : table ≠ [])
    (scanned : walOpenScan capacity scratchLen table os acc = (.ok acc', os')) :
    os'.disk = os.disk ∧ 1 ≤ acc.expected ∧ ∃ front last,
      table = (front ++ [last]).map SegView.base ∧ Joined acc.expected (front ++ [last]) ∧
      (∀ v ∈ front ++ [last], Stored capacity (os.disk.file v.base).vol v) ∧
      acc'.active = last.seg capacity ∧
      acc'.recs = acc.recs ++ headers (recordsOf (front ++ [last])) := by
  induction table generalizing os acc with
  | nil => exact absurd rfl given
  | cons first rest ih =>
      unfold walOpenScan at scanned
      split at scanned
      · cases scanned
      · rename_i expected
        rw [not_not] at expected
        cases opens : walSegOpen os first capacity with
        | mk res os1 =>
            rw [opens] at scanned
            cases res with
            | error e => cases scanned
            | ok seg0 =>
                obtain ⟨positive, reset, same1⟩ := walSegOpen_named opens
                subst reset
                simp only at scanned
                cases recovers : walSegRecover os1 (segReset first first capacity) scratchLen with
                | mk res2 os2 =>
                    rw [recovers] at scanned
                    cases res2 with
                    | error e => cases scanned
                    | ok found =>
                        obtain ⟨scan, seg, recs⟩ := found
                        obtain ⟨same2, v, base, is, stored, lastSeq, recs⟩ :=
                          walSegRecover_stored recovers
                        subst base
                        rw [same1] at stored
                        simp only at scanned
                        cases rest with
                        | nil =>
                            cases scanned
                            refine ⟨same2.trans same1, by omega, [], v, rfl, ⟨expected, trivial⟩, ?_,
                              is, ?_⟩
                            · intro other alone
                              rw [List.mem_singleton.mp alone]
                              exact stored
                            · rw [recs, List.nil_append, recordsOf, List.flatMap_singleton]
                        | cons second others =>
                            simp only at scanned
                            split at scanned
                            · cases scanned
                            · obtain ⟨same3, _positive, front, last, table, joined, later,
                                active, gathered⟩ := ih (List.cons_ne_nil _ _) scanned
                              have disks : (osClose os2).2.disk = os.disk :=
                                (osClose_disk os2).trans (same2.trans same1)
                              have next : scan.lastSeq + 1 = v.next := by
                                rw [lastSeq, SegView.next]
                                omega
                              simp only [next] at joined
                              rw [disks] at same3 later
                              refine ⟨same3, by omega, v :: front, last, ?_, ⟨expected, joined⟩, ?_,
                                active, ?_⟩
                              · rw [table]
                                rfl
                              · intro other present
                                rcases List.mem_cons.mp present with same | inRest
                                · rw [same]
                                  exact stored
                                · exact later other inRest
                              · rw [gathered, recs, List.append_assoc, ← headers_append,
                                  List.cons_append, recordsOf, recordsOf, List.flatMap_cons]

/-- **A log that opens holds what it found, whatever the directory held**, and its index
was fed exactly that. -/
theorem walOpen_found {os os' : Os} {listing : List Nat} {capacity scratchLen : Nat}
    {info : WalOpen} {w : Wal} {recs : List WalRec}
    (opens : walOpen os listing capacity scratchLen = (.ok (info, w, recs), os')) :
    ∃ front last, Holds os'.disk w front last ∧
      w.index = (headers (recordsOf (front ++ [last]))).foldl walIndexAdd walIndexInit := by
  have sound := (walOpen_sound opens).1
  unfold walOpen at opens
  split at opens
  · cases opens
  · split at opens
    · cases opens
    · rename_i os1 _opened
      cases loads : segTableLoad os1 listing with
      | mk res os2 =>
          rw [loads] at opens
          cases res with
          | error e => cases opens
          | ok table =>
              cases table with
              | nil =>
                  simp only at opens
                  cases creates : walSegCreate os2 1 capacity with
                  | mk res2 os3 =>
                      rw [creates] at opens
                      cases res2 with
                      | error e => cases opens
                      | ok seg =>
                          have fresh := walSegCreate_fd creates
                          subst fresh
                          cases opens
                          refine ⟨[], ⟨1, []⟩, ⟨sound, rfl, ⟨1, Nat.le_refl _, rfl, trivial⟩, ?_,
                            ?_, rfl, rfl, fun _ => rfl⟩, rfl⟩
                          · intro v alone
                            rw [List.mem_singleton.mp alone]
                            exact ⟨trivial, Nat.zero_le _, _, rfl⟩
                          · intro fd opened
                            exact (Option.some.inj opened).symm
              | cons first rest =>
                  simp only at opens
                  split at opens
                  · cases opens
                  · rename_i acc os3 scanned
                    cases opens
                    obtain ⟨same, positive, front, last, table, joined, stored, active, gathered⟩ :=
                      walOpenScan_stored (List.cons_ne_nil _ _) scanned
                    refine ⟨front, last, ⟨sound, table, ⟨_, positive, joined⟩, ?_, ?_, ?_, ?_, ?_⟩,
                      by rw [gathered, List.nil_append]⟩
                    · intro v present
                      rw [same]
                      exact stored v present
                    · simp only [active]
                      intro fd opened
                      exact (Option.some.inj opened).symm
                    · simp only [active]
                      rfl
                    · simp only [active]
                      rfl
                    · simp only [active]
                      exact fun _ => rfl

theorem walOpen_holds {os os' : Os} {listing : List Nat} {capacity scratchLen : Nat}
    {info : WalOpen} {w : Wal} {recs : List WalRec}
    (opens : walOpen os listing capacity scratchLen = (.ok (info, w, recs), os')) :
    ∃ front last, Holds os'.disk w front last := by
  obtain ⟨front, last, holds, _index⟩ := walOpen_found opens
  exact ⟨front, last, holds⟩

end Msgsrvd

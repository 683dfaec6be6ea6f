/-
What the operations of an open log do when every call succeeds.

Each operation is inverted once: the inductive relations below list its outcomes
with the exact log and disk it leaves, and `LogAt` holds of each of them.
-/

import Msgsrvd.Wal.Log

namespace Msgsrvd

open Bytestring

theorem plain_calm {os : Os} (calm : os.script = []) (effect : Disk → Disk) :
    os.plain effect = (.ok (), os.land [] (effect os.disk)) := by
  unfold Os.plain Os.call
  rw [calm]

theorem osFdatasync_calm {os : Os} (calm : os.script = []) (fd : Nat) :
    osFdatasync os (some fd) = (.ok (), os.land [] (os.disk.flushFile fd)) :=
  plain_calm calm _

/-! ### Files and names -/

@[simp] theorem Disk.file_setFile_same (disk : Disk) (base : Nat) (file : File) :
    (disk.setFile base file).file base = file := by
  simp only [Disk.setFile, if_true]

theorem Disk.file_setFile_other (disk : Disk) {base other : Nat} (file : File)
    (differ : other ≠ base) : (disk.setFile base file).file other = disk.file other := by
  simp only [Disk.setFile, if_neg differ]

@[simp] theorem Disk.dir_setFile (disk : Disk) (base : Nat) (file : File) :
    (disk.setFile base file).dir = disk.dir := rfl

@[simp] theorem Disk.dir_addDirOp (disk : Disk) (op : DirOp) :
    (disk.addDirOp op).dir = op.apply disk.dir := by
  simp only [Disk.dir, Disk.addDirOp, List.foldl_append, List.foldl_cons, List.foldl_nil]

@[simp] theorem Disk.dir_flushDir (disk : Disk) : disk.flushDir.dir = disk.dir := rfl

@[simp] theorem Disk.file_flushDir (disk : Disk) (base : Nat) :
    disk.flushDir.file base = disk.file base := rfl

@[simp] theorem Disk.file_addDirOp (disk : Disk) (op : DirOp) (base : Nat) :
    (disk.addDirOp op).file base = disk.file base := rfl

@[simp] theorem Disk.dir_flushFile (disk : Disk) (fd : Nat) :
    (disk.flushFile fd).dir = disk.dir := rfl

@[simp] theorem Disk.dir_write (disk : Disk) (fd offset : Nat) (bytes : Bytes) :
    (disk.write fd offset bytes).dir = disk.dir := rfl

/-- A flush changes no content. -/
@[simp] theorem Disk.vol_flushFile (disk : Disk) (fd base : Nat) :
    ((disk.flushFile fd).file base).vol = (disk.file base).vol := by
  by_cases same : base = fd
  · subst same
    simp only [Disk.flushFile, Disk.file_setFile_same]
  · rw [Disk.flushFile, Disk.file_setFile_other _ _ same]

/-! ### Creating a segment -/

def Disk.linked (disk : Disk) (base : Nat) : Disk :=
  (disk.setFile base ⟨[], []⟩).addDirOp (.link base)

def Disk.sized (disk : Disk) (base size : Nat) : Disk :=
  disk.setFile base { disk.file base with vol := extendTo (disk.file base).vol size }

/-- The disk after a segment was created, and the disks on the way. -/
def Disk.created (disk : Disk) (base size : Nat) : Disk :=
  (((disk.linked base).sized base size).flushFile base).flushDir

def Disk.creating (disk : Disk) (base size : Nat) : List Disk :=
  [disk.created base size, ((disk.linked base).sized base size).flushFile base,
    (disk.linked base).sized base size, disk.linked base]

theorem walSegCreate_calm {os : Os} (calm : os.script = []) {base capacity : Nat}
    (positive : base ≠ 0) (header : WAL_REC_HEADER_SIZE ≤ capacity)
    (absent : base ∉ os.disk.dir) :
    walSegCreate os base capacity =
      (.ok (segReset base base capacity),
        { disk := os.disk.created base capacity
          script := []
          seen := os.disk.creating base capacity ++ os.seen }) := by
  unfold walSegCreate
  rw [if_neg (by omega)]
  unfold osCreate
  rw [if_neg absent, plain_calm calm]
  simp only
  unfold osFallocate
  rw [plain_calm rfl]
  simp only
  unfold osFsync
  rw [plain_calm rfl]
  simp only
  unfold osFsyncDir
  rw [plain_calm rfl]
  rfl

theorem Disk.dir_created (disk : Disk) (base size : Nat) :
    (disk.created base size).dir = disk.dir ++ [base] := by
  simp only [Disk.created, Disk.dir_flushDir, Disk.dir_flushFile, Disk.sized, Disk.dir_setFile,
    Disk.linked, Disk.dir_addDirOp, DirOp.apply]

theorem Disk.file_created_same (disk : Disk) (base size : Nat) :
    (disk.created base size).file base = ⟨zeros size, zeros size⟩ := by
  simp only [Disk.created, Disk.flushFile, Disk.file_flushDir, Disk.sized,
    Disk.file_setFile_same, Disk.linked, Disk.file_addDirOp, extendTo, List.nil_append,
    List.length_nil, Nat.sub_zero]

theorem Disk.file_created_other (disk : Disk) {base other : Nat} (size : Nat)
    (differ : other ≠ base) : (disk.created base size).file other = disk.file other := by
  simp only [Disk.created, Disk.flushFile, Disk.file_flushDir, Disk.sized, Disk.linked,
    Disk.file_setFile_other _ _ differ, Disk.file_addDirOp]

/-! ### What an append leaves of a file -/

theorem overwrite_records {front tail bytes : Bytes} :
    overwrite (front ++ tail) front.length bytes = front ++ (bytes ++ tail.drop bytes.length) := by
  unfold overwrite
  have whole : front.length - (front ++ tail).length = 0 := by
    rw [List.length_append]
    omega
  rw [whole, List.take_left' rfl, ← List.drop_drop, List.drop_left' rfl]
  simp only [zeros, List.replicate_zero, List.append_nil, List.append_assoc]

theorem Stored.push {capacity : Nat} {content bytes : Bytes} {v : SegView}
    (stored : Stored capacity content v) (is : IsRec v.next bytes)
    (fits : v.size + bytes.length ≤ capacity) :
    Stored capacity (overwrite content v.size bytes) ⟨v.base, v.recs ++ [bytes]⟩ := by
  obtain ⟨are, _fits, tail, shape⟩ := stored
  refine ⟨are.append ⟨is, trivial⟩, ?_, tail.drop bytes.length, ?_⟩
  · rw [SegView.size_append, List.flatten_cons, List.flatten_nil, List.append_nil]
    exact fits
  · rw [shape, SegView.size, overwrite_records, List.flatten_append, List.flatten_cons,
      List.flatten_nil, List.append_nil, List.append_assoc]

/-! ### Sync -/

def Wal.synced (w : Wal) : Wal :=
  { w with active :=
      { w.active with syncedOff := w.active.writeOff, durableSeq := w.active.nextSeq - 1 } }

/-- Only a segment with something to flush is flushed. -/
def Disk.synced (disk : Disk) (w : Wal) : Disk :=
  if w.active.syncedOff = w.active.writeOff then disk else disk.flushFile w.active.baseSeq

def Os.synced (os : Os) (w : Wal) : Os :=
  if w.active.syncedOff = w.active.writeOff then os else os.land [] (os.disk.synced w)

theorem Os.synced_disk (os : Os) (w : Wal) : (os.synced w).disk = os.disk.synced w := by
  unfold Os.synced Disk.synced
  split <;> rfl

theorem Os.synced_calm {os : Os} (calm : os.script = []) (w : Wal) : (os.synced w).script = [] := by
  unfold Os.synced
  split
  · exact calm
  · rfl

@[simp] theorem Disk.dir_synced (disk : Disk) (w : Wal) : (disk.synced w).dir = disk.dir := by
  unfold Disk.synced
  split <;> rfl

@[simp] theorem Disk.vol_synced (disk : Disk) (w : Wal) (base : Nat) :
    ((disk.synced w).file base).vol = (disk.file base).vol := by
  unfold Disk.synced
  split
  · rfl
  · exact Disk.vol_flushFile _ _ _

/-- Records before a cut are as long as the whole only if none was cut off. -/
theorem IsRecs.flatten_take {base : Nat} {recs : List Bytes} (are : IsRecs base recs)
    {count : Nat} (inside : count ≤ recs.length)
    (whole : (recs.take count).flatten.length = recs.flatten.length) : count = recs.length := by
  by_contra differ
  have split : recs = recs.take count ++ recs.drop count := (List.take_append_drop _ _).symm
  rw [split] at are
  have later := are.right
  cases rest : recs.drop count with
  | nil =>
      have short : (recs.drop count).length = 0 := by
        rw [rest]
        rfl
      rw [List.length_drop] at short
      omega
  | cons bytes more =>
      rw [rest] at later
      have positive := later.1.length_pos
      have total : recs.flatten.length =
          (recs.take count).flatten.length + (bytes :: more).flatten.length := by
        conv_lhs => rw [split]
        rw [List.flatten_append, List.length_append, rest]
      rw [List.flatten_cons, List.length_append] at total
      omega

section Log

variable {capacity : Nat} {disk : Disk} {w : Wal} {front : List SegView} {last : SegView}

theorem LogAt.last_stored (log : LogAt capacity disk w front last) :
    Stored capacity (disk.file last.base).vol last :=
  log.stored last (List.mem_append_right _ (List.mem_cons_self ..))

/-- Nothing written and not flushed means that every record was flushed. -/
theorem LogAt.all_flushed (log : LogAt capacity disk w front last)
    (same : w.active.syncedOff = w.active.writeOff) : w.active.durableSeq + 1 = last.next := by
  obtain ⟨kept, inside, durable, offset⟩ := log.flushed
  have all : kept = last.recs.length := by
    apply log.last_stored.1.flatten_take inside
    rw [← offset, same, log.writeOff, SegView.size]
  rw [durable, all, SegView.next]

/-- No segment before the last shares its file. -/
theorem LogAt.base_ne (log : LogAt capacity disk w front last) {v : SegView}
    (early : v ∈ front) : v.base ≠ last.base := by
  obtain ⟨first, _positive, joined⟩ := log.joined
  have bound := (joined.left.bounds.1 v early).2
  have next := joined.right.1
  have positive : 0 < v.recs.length := List.length_pos_iff.mpr (log.full v early)
  unfold SegView.next at bound
  omega

theorem LogAt.first_le (log : LogAt capacity disk w front last) : 1 ≤ last.base := by
  obtain ⟨first, positive, joined⟩ := log.joined
  have bound := (joined.bounds.1 last (List.mem_append_right _ (List.mem_cons_self ..))).1
  omega

theorem LogAt.synced_of_same (log : LogAt capacity disk w front last)
    (same : w.active.syncedOff = w.active.writeOff) : w = w.synced := by
  have durable : w.active.durableSeq = w.active.nextSeq - 1 := by
    have all := log.all_flushed same
    have next := log.nextSeq
    omega
  unfold Wal.synced
  rw [← same, ← durable]

/-- **A sync leaves everything appended durable.** -/
theorem walSync_log {os : Os} (calm : os.script = []) (log : LogAt capacity os.disk w front last) :
    walSync os w = (.ok (), w.synced, os.synced w) := by
  unfold walSync walSegSync Os.synced
  by_cases same : w.active.syncedOff = w.active.writeOff
  · rw [if_pos same, if_pos same]
    simp only
    rw [← log.synced_of_same same]
  · rw [if_neg same, if_neg same, log.fd]
    rw [osFdatasync_calm calm]
    simp only [Wal.synced, Disk.synced, if_neg same, log.baseSeq, log.fd]

/-- Only names and contents matter. -/
theorem LogAt.congr {disk' : Disk} (log : LogAt capacity disk w front last)
    (names : disk'.dir = disk.dir)
    (contents : ∀ v ∈ front ++ [last], (disk'.file v.base).vol = (disk.file v.base).vol) :
    LogAt capacity disk' w front last where
  opened := log.opened
  segCapacity := log.segCapacity
  header := log.header
  table := log.table
  named := by
    intro base
    rw [names]
    exact log.named base
  distinct := by
    rw [names]
    exact log.distinct
  joined := log.joined
  stored := by
    intro v present
    rw [contents v present]
    exact log.stored v present
  full := log.full
  capacity := log.capacity
  fd := log.fd
  baseSeq := log.baseSeq
  nextSeq := log.nextSeq
  writeOff := log.writeOff
  flushed := log.flushed

theorem LogAt.synced (log : LogAt capacity disk w front last) :
    LogAt capacity (disk.synced w) w.synced front last := by
  have same : LogAt capacity (disk.synced w) w front last :=
    log.congr (Disk.dir_synced _ _) (fun v _ => Disk.vol_synced _ _ _)
  refine { same with flushed := ⟨last.recs.length, Nat.le_refl _, ?_, ?_⟩ }
  · have next := log.nextSeq
    have base := log.first_le
    simp only [Wal.synced, next, SegView.next]
    omega
  · rw [List.take_length]
    exact log.writeOff

/-! ### Append -/

/-- The log after a record of this size went to the active segment. -/
def Wal.pushed (w : Wal) (out : WalRec) (size : Nat) : Wal :=
  { w with
    active :=
      { w.active with writeOff := w.active.writeOff + size, nextSeq := w.active.nextSeq + 1 }
    index := walIndexAdd w.index out }

theorem LogAt.pushed (log : LogAt capacity disk w front last) {bytes : Bytes}
    (is : IsRec last.next bytes) (fits : last.size + bytes.length ≤ capacity) (out : WalRec) :
    LogAt capacity (disk.write last.base last.size bytes) (w.pushed out bytes.length) front
      ⟨last.base, last.recs ++ [bytes]⟩ := by
  obtain ⟨first, positive, joined⟩ := log.joined
  have next := joined.right.1
  refine {
    opened := log.opened
    segCapacity := log.segCapacity
    header := log.header
    table := ?_
    named := log.named
    distinct := log.distinct
    joined := ⟨first, positive, joined.left.append ⟨next, trivial⟩⟩
    stored := ?_
    full := log.full
    capacity := log.capacity
    fd := log.fd
    baseSeq := log.baseSeq
    nextSeq := ?_
    writeOff := ?_
    flushed := ?_ }
  · have table := log.table
    rw [List.map_append] at table ⊢
    exact table
  · intro v present
    rcases List.mem_append.mp present with early | atLast
    · rw [Disk.write, Disk.file_setFile_other _ _ (log.base_ne early)]
      exact log.stored v (List.mem_append_left _ early)
    · rw [List.mem_singleton.mp atLast, Disk.write, Disk.file_setFile_same]
      exact log.last_stored.push is fits
  · rw [SegView.next_append]
    simp only [Wal.pushed, log.nextSeq]
    rfl
  · rw [SegView.size_append]
    simp only [Wal.pushed, log.writeOff, List.flatten_cons, List.flatten_nil, List.append_nil]
  · obtain ⟨kept, inside, durable, offset⟩ := log.flushed
    refine ⟨kept, ?_, durable, ?_⟩
    · rw [List.length_append]
      omega
    · rw [List.take_append_of_le_length inside]
      exact offset

/-- What an append to the active segment can do. -/
inductive Pushed (os : Os) (w : Wal) (last : SegView) (r : WalRec) (payload : Bytes)
    (scratchLen : Nat) : Except Err WalRec × Wal × Os → Prop where
  | refused (e : Err) : Pushed os w last r payload scratchLen (.error e, w, os)
  | written {out : WalRec} {bytes : Bytes}
      (encoded : walRecEncode scratchLen { r with seq := last.next } payload = some (bytes, out))
      (is : IsRec last.next bytes) (fits : last.size + bytes.length ≤ w.segCapacity) :
      Pushed os w last r payload scratchLen
        (.ok out, w.pushed out bytes.length,
          os.land [] (os.disk.write last.base last.size bytes))

theorem walAppendActive_log {os : Os} (calm : os.script = [])
    (log : LogAt capacity os.disk w front last) {r : WalRec} {payload : Bytes}
    (given : (i32 r.len).toNat ≤ payload.length) (low : last.next < 2 ^ 64) (scratchLen : Nat) :
    Pushed os w last r payload scratchLen (walAppendActive os w r payload scratchLen) := by
  have positive : last.next ≠ 0 := by
    have first := log.first_le
    unfold SegView.next
    omega
  unfold walAppendActive walSegAppend
  rw [log.nextSeq]
  cases encoded : walRecEncode scratchLen { r with seq := last.next } payload with
  | none => exact .refused _
  | some result =>
      obtain ⟨bytes, out⟩ := result
      simp only
      by_cases past : w.active.writeOff + bytes.length > w.active.capacity
      · rw [if_pos past]
        exact .refused _
      · rw [if_neg past, log.fd]
        unfold osPwriteFull Os.call
        rw [calm, log.writeOff]
        simp only
        have is := walRecEncode_isRec (r := { r with seq := last.next }) given positive low encoded
        have fits : last.size + bytes.length ≤ w.segCapacity := by
          rw [log.writeOff, log.capacity, ← log.segCapacity] at past
          omega
        have result : Pushed os w last r payload scratchLen _ := .written encoded is fits
        simp only [Wal.pushed, log.writeOff, log.nextSeq, log.fd] at result
        exact result

/-! ### Rollover -/

/-- The log after the active segment was closed and the next one begun. -/
def Wal.rolled (w : Wal) : Wal :=
  { w with
    active := segReset w.active.nextSeq w.active.nextSeq w.segCapacity
    segBase := w.segBase ++ [w.active.nextSeq] }

def Os.rolled (os : Os) (w : Wal) : Os :=
  { disk := (os.disk.synced w).created w.active.nextSeq w.segCapacity
    script := []
    seen := (os.disk.synced w).creating w.active.nextSeq w.segCapacity ++
      (os.disk.synced w :: (os.synced w).seen) }

theorem LogAt.next_absent (log : LogAt capacity disk w front last) (some' : last.recs ≠ []) :
    last.next ∉ disk.dir := by
  intro present
  rw [log.named, log.table] at present
  obtain ⟨v, member, base⟩ := List.mem_map.mp present
  obtain ⟨first, _positive, joined⟩ := log.joined
  have bound := (joined.bounds.1 v member).2
  rw [endOf_append] at bound
  have full : 0 < v.recs.length := by
    rcases List.mem_append.mp member with early | atLast
    · exact List.length_pos_iff.mpr (log.full v early)
    · rw [List.mem_singleton.mp atLast]
      exact List.length_pos_iff.mpr some'
  simp only [endOf] at bound
  unfold SegView.next at bound base
  omega

theorem LogAt.rolled (log : LogAt capacity disk w front last) (some' : last.recs ≠ []) :
    LogAt capacity ((disk.synced w).created w.active.nextSeq w.segCapacity) w.rolled
      (front ++ [last]) ⟨last.next, []⟩ := by
  obtain ⟨first, positive, joined⟩ := log.joined
  have absent := log.next_absent some'
  have names := Disk.dir_created (disk.synced w) w.active.nextSeq w.segCapacity
  rw [Disk.dir_synced, log.nextSeq] at names
  have ends : endOf first (front ++ [last]) = last.next := by
    rw [endOf_append]
    rfl
  refine {
    opened := log.opened
    segCapacity := log.segCapacity
    header := log.header
    table := ?_
    named := ?_
    distinct := ?_
    joined := ⟨first, positive, joined.append ⟨ends.symm, trivial⟩⟩
    stored := ?_
    full := ?_
    capacity := log.segCapacity
    fd := ?_
    baseSeq := log.nextSeq
    nextSeq := log.nextSeq
    writeOff := rfl
    flushed := ⟨0, Nat.le_refl _, ?_, rfl⟩ }
  · simp only [Wal.rolled, log.table, log.nextSeq, List.map_append, List.map_cons, List.map_nil]
  · intro base
    rw [log.nextSeq, names]
    simp only [Wal.rolled, List.mem_append, log.named, log.nextSeq]
  · rw [log.nextSeq, names, List.nodup_append]
    refine ⟨log.distinct, List.pairwise_singleton _ _, ?_⟩
    intro base present other alone same
    rw [List.mem_singleton.mp alone] at same
    rw [same] at present
    exact absent present
  · intro v present
    rcases List.mem_append.mp present with early | new
    · have differ : v.base ≠ w.active.nextSeq := by
        intro same
        apply absent
        rw [log.named, log.table, ← log.nextSeq, ← same]
        exact List.mem_map_of_mem early
      rw [Disk.file_created_other _ _ differ, Disk.vol_synced]
      exact log.stored v early
    · rw [List.mem_singleton.mp new, log.nextSeq, Disk.file_created_same]
      exact ⟨trivial, Nat.zero_le _, _, rfl⟩
  · intro v present
    rcases List.mem_append.mp present with early | atLast
    · exact log.full v early
    · rw [List.mem_singleton.mp atLast]
      exact some'
  · simp only [Wal.rolled, segReset, log.nextSeq]
  · have next := log.nextSeq
    have base := log.first_le
    simp only [Wal.rolled, segReset, next, SegView.next]
    omega

theorem walRollover_log {os : Os} (calm : os.script = [])
    (log : LogAt capacity os.disk w front last) (some' : last.recs ≠ []) :
    walRollover os w =
      if WAL_MAX_SEGMENTS ≤ w.segBase.length then (.error ⟨.nomem, w.segBase.length⟩, w, os)
      else (.ok (), w.rolled, os.rolled w) := by
  unfold walRollover
  by_cases full : WAL_MAX_SEGMENTS ≤ w.segBase.length
  · rw [if_pos full, if_pos full]
  · rw [if_neg full, if_neg full, walSync_log calm log]
    have base := log.first_le
    have next := log.nextSeq
    have nextBase : w.synced.active.durableSeq + 1 = w.active.nextSeq := by
      simp only [Wal.synced, next, SegView.next]
      omega
    have open' : w.synced.active.fd = some last.base := log.fd
    have absent := log.next_absent some'
    simp only [nextBase]
    unfold walSegClose
    rw [open']
    simp only
    rw [osClose_calm (Os.synced_calm calm w)]
    simp only
    rw [walSegCreate_calm rfl (by rw [next, SegView.next]; omega)
      (by rw [show w.synced.segCapacity = w.segCapacity from rfl, log.segCapacity]; exact log.header)
      (by
        change w.active.nextSeq ∉ (os.synced w).disk.dir
        rw [Os.synced_disk, Disk.dir_synced, next]
        exact absent)]
    simp only [Os.land, Os.synced_disk, Os.rolled, Wal.rolled, Wal.synced]

/-! ### The whole append -/

/-- What `walAppend` can do. -/
inductive Appended (os : Os) (w : Wal) (last : SegView) (r : WalRec) (payload : Bytes)
    (scratchLen : Nat) : Except Err WalRec × Wal × Os → Prop where
  | here {res : Except Err WalRec × Wal × Os}
      (fits : walSegFits w.active (i32 r.len) = true)
      (pushed : Pushed os w last r payload scratchLen res) :
      Appended os w last r payload scratchLen res
  | refused (e : Err) (stays : walRollsOver w r = false) :
      Appended os w last r payload scratchLen (.error e, w, os)
  | next {res : Except Err WalRec × Wal × Os} (past : walRollsOver w r = true)
      (some' : last.recs ≠ []) (room : w.segBase.length < WAL_MAX_SEGMENTS)
      (pushed : Pushed (os.rolled w) w.rolled ⟨last.next, []⟩ r payload scratchLen res) :
      Appended os w last r payload scratchLen res

theorem walAppend_log {os : Os} (calm : os.script = [])
    (log : LogAt capacity os.disk w front last) {r : WalRec} {payload : Bytes}
    (given : (i32 r.len).toNat ≤ payload.length) (low : last.next < 2 ^ 64) (scratchLen : Nat) :
    Appended os w last r payload scratchLen (walAppend os w r payload scratchLen) := by
  unfold walAppend
  simp only
  by_cases sized : walRecSize (i32 r.len) = 0 ∨ walRecSize (i32 r.len) > w.segCapacity
  · rw [if_pos sized]
    refine .refused _ ?_
    unfold walRollsOver
    simp only
    rw [if_pos sized]
  · rw [if_neg sized]
    cases fits : walSegFits w.active (i32 r.len) with
    | true =>
        rw [if_pos rfl]
        exact .here fits (walAppendActive_log calm log given low scratchLen)
    | false =>
        have some' : last.recs ≠ [] := by
          intro none
          rw [not_or] at sized
          unfold walSegFits at fits
          rw [if_neg sized.1, decide_eq_false_iff_not, log.writeOff, log.capacity, SegView.size,
            none, List.flatten_nil, List.length_nil] at fits
          rw [log.segCapacity] at sized
          omega
        rw [if_neg (by simp), walRollover_log calm log some']
        by_cases full : WAL_MAX_SEGMENTS ≤ w.segBase.length
        · rw [if_pos full]
          refine .refused _ ?_
          unfold walRollsOver
          simp only
          rw [if_neg sized, fits, if_neg (by simp), decide_eq_false_iff_not]
          omega
        · rw [if_neg full]
          simp only
          refine .next ?_ some' (by omega)
            (walAppendActive_log (show (os.rolled w).script = [] from rfl) (log.rolled some') given
              (by simpa [SegView.next] using low) scratchLen)
          unfold walRollsOver
          simp only
          rw [if_neg sized, fits, if_neg (by simp), decide_eq_true_iff]
          omega

end Log

end Msgsrvd

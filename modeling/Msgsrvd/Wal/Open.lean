/-
What opening a log finds, and that it finds it on every directory fit to be opened.

`Openable` speaks of the directory alone: which names it has and how the scan of each
file ends.  Opening succeeds on it, leaves the log it describes, and succeeds on no
other directory.
-/

import Mathlib.Data.List.Sort
import Msgsrvd.Wal.Ops

namespace Msgsrvd

open Bytestring

/-! ### The segment table -/

theorem mem_segTablePlace (base other : Nat) (table : List Nat) :
    other ∈ segTablePlace base table ↔ other = base ∨ other ∈ table := by
  induction table with
  | nil => simp only [segTablePlace, List.mem_singleton, List.not_mem_nil, or_false]
  | cons head rest ih =>
      unfold segTablePlace
      split
      · rename_i same
        subst same
        simp only [List.mem_cons, or_self_left]
      · split
        · exact List.mem_cons
        · rw [List.mem_cons, ih, List.mem_cons]
          constructor
          · rintro (atHead | same | inRest)
            · exact Or.inr (Or.inl atHead)
            · exact Or.inl same
            · exact Or.inr (Or.inr inRest)
          · rintro (same | atHead | inRest)
            · exact Or.inr (Or.inl same)
            · exact Or.inl atHead
            · exact Or.inr (Or.inr inRest)

theorem segTablePlace_sorted (base : Nat) {table : List Nat}
    (sorted : table.Pairwise (· < ·)) : (segTablePlace base table).Pairwise (· < ·) := by
  induction table with
  | nil => exact List.pairwise_singleton _ _
  | cons head rest ih =>
      obtain ⟨least, later⟩ := List.pairwise_cons.mp sorted
      unfold segTablePlace
      split
      · exact sorted
      · rename_i differ
        split
        · rename_i before
          refine List.pairwise_cons.mpr ⟨?_, sorted⟩
          intro other present
          rcases List.mem_cons.mp present with same | inRest
          · omega
          · have bound := least other inRest
            omega
        · refine List.pairwise_cons.mpr ⟨?_, ih later⟩
          intro other present
          rcases (mem_segTablePlace base other rest).mp present with same | inRest
          · omega
          · exact least other inRest

theorem length_segTablePlace_le (base : Nat) (table : List Nat) :
    (segTablePlace base table).length ≤ table.length + 1 := by
  induction table with
  | nil => exact Nat.le_refl _
  | cons head rest ih =>
      unfold segTablePlace
      split
      · exact Nat.le_succ _
      · split
        · exact Nat.le_refl _
        · exact Nat.succ_le_succ ih

theorem segTableFill_ok {start listing table : List Nat}
    (filled : segTableFill start listing = .ok table) (sorted : start.Pairwise (· < ·))
    (few : start.length ≤ WAL_MAX_SEGMENTS) :
    table.Pairwise (· < ·) ∧ table.length ≤ WAL_MAX_SEGMENTS ∧
      ∀ base, base ∈ table ↔ base ∈ start ∨ base ∈ listing := by
  induction listing generalizing start with
  | nil =>
      cases filled
      refine ⟨sorted, few, ?_⟩
      intro base
      simp only [List.not_mem_nil, or_false]
  | cons head rest ih =>
      unfold segTableFill segTableInsert at filled
      split at filled
      · cases filled
      · rename_i middle placed
        split at placed
        · cases placed
        · rename_i room
          cases placed
          have grown := length_segTablePlace_le head start
          obtain ⟨ordered, fewer, members⟩ :=
            ih filled (segTablePlace_sorted head sorted) (by omega)
          refine ⟨ordered, fewer, ?_⟩
          intro base
          rw [members, mem_segTablePlace, List.mem_cons, or_comm (a := base = head), or_assoc]

theorem segTableFill_room {start listing : List Nat}
    (room : start.length + listing.length ≤ WAL_MAX_SEGMENTS) :
    ∃ table, segTableFill start listing = .ok table := by
  induction listing generalizing start with
  | nil => exact ⟨start, rfl⟩
  | cons head rest ih =>
      rw [List.length_cons] at room
      unfold segTableFill segTableInsert
      rw [if_neg (by omega)]
      apply ih
      have grown := length_segTablePlace_le head start
      omega

/-- **Whatever the order of the listing, the table holds its names in ascending order.** -/
theorem segTableFill_perm {listing table : List Nat} (few : table.length ≤ WAL_MAX_SEGMENTS)
    (sorted : table.Pairwise (· < ·)) (perm : listing.Perm table) :
    segTableFill [] listing = .ok table := by
  have room : ([] : List Nat).length + listing.length ≤ WAL_MAX_SEGMENTS := by
    rw [perm.length_eq, List.length_nil, Nat.zero_add]
    exact few
  obtain ⟨found, filled⟩ := segTableFill_room room
  obtain ⟨ordered, _fewer, members⟩ := segTableFill_ok filled List.Pairwise.nil (Nat.zero_le _)
  have same : found.Perm table := by
    rw [List.perm_ext_iff_of_nodup (ordered.imp Nat.ne_of_lt) (sorted.imp Nat.ne_of_lt)]
    intro base
    rw [members, perm.mem_iff]
    simp only [List.not_mem_nil, false_or]
  rw [filled, same.eq_of_pairwise (fun _ _ _ _ less more => absurd less (Nat.lt_asymm more))
    ordered sorted]

/-! ### A directory fit to be opened -/

structure Openable (capacity : Nat) (disk : Disk) (front : List SegView) (last : SegView)
    (reason : ScanEnd) : Prop where
  named : ∀ base, base ∈ disk.dir ↔ base ∈ (front ++ [last]).map SegView.base
  distinct : disk.dir.Nodup
  room : front.length < WAL_MAX_SEGMENTS
  joined : ∃ first, 1 ≤ first ∧ Joined first (front ++ [last])
  full : ∀ v ∈ front, v.recs ≠ []
  clean : ∀ v ∈ front, Scans capacity v.base ((disk.file v.base).vol.take capacity) v.recs .clean
  tail : Scans capacity last.base ((disk.file last.base).vol.take capacity) last.recs reason
  whole : ∀ size, reason ≠ .cut size

/-- The records of the segments, in order. -/
def recordsOf (views : List SegView) : List Bytes := views.flatMap SegView.recs

/-- A segment as recovery leaves it. -/
def SegView.seg (v : SegView) (capacity : Nat) : WalSeg :=
  { fd := some v.base
    baseSeq := v.base
    nextSeq := v.next
    durableSeq := v.next - 1
    capacity := capacity
    writeOff := v.size
    syncedOff := v.size }

def openedWal (capacity : Nat) (front : List SegView) (last : SegView) : Wal :=
  { dirOpen := true
    segCapacity := capacity
    active := last.seg capacity
    segBase := (front ++ [last]).map SegView.base
    index := (headers (recordsOf (front ++ [last]))).foldl walIndexAdd walIndexInit }

def isTorn (reason : ScanEnd) : Bool := decide (reason = .torn)

theorem Scans.stored {capacity base : Nat} {content : Bytes} {recs : List Bytes}
    {reason : ScanEnd} (scan : Scans capacity base (content.take capacity) recs reason) :
    Stored capacity content ⟨base, recs⟩ := by
  obtain ⟨front, fits⟩ := scan.front
  refine ⟨scan.isRecs, fits, (content.take capacity).drop recs.flatten.length ++
    content.drop capacity, ?_⟩
  rw [← List.append_assoc, front, List.take_append_drop]

theorem Openable.last_named {capacity : Nat} {disk : Disk} {front : List SegView}
    {last : SegView} {reason : ScanEnd} (fit : Openable capacity disk front last reason) :
    last.base ∈ disk.dir :=
  (fit.named last.base).mpr
    (List.mem_map_of_mem (List.mem_append_right _ (List.mem_cons_self ..)))

theorem Openable.log {capacity : Nat} {disk : Disk} {front : List SegView} {last : SegView}
    {reason : ScanEnd} (fit : Openable capacity disk front last reason)
    (header : WAL_REC_HEADER_SIZE ≤ capacity) :
    LogAt capacity disk (openedWal capacity front last) front last where
  opened := rfl
  segCapacity := rfl
  header := header
  table := rfl
  named := fit.named
  distinct := fit.distinct
  joined := fit.joined
  stored := by
    intro v present
    rcases List.mem_append.mp present with early | atLast
    · exact (fit.clean v early).stored
    · rw [List.mem_singleton.mp atLast]
      exact fit.tail.stored
  full := fit.full
  capacity := rfl
  fd := rfl
  baseSeq := rfl
  nextSeq := rfl
  writeOff := rfl
  flushed := by
    refine ⟨last.recs.length, Nat.le_refl _, ?_, ?_⟩
    · obtain ⟨first, positive, joined⟩ := fit.joined
      have bound := (joined.bounds.1 last (List.mem_append_right _ (List.mem_cons_self ..))).1
      simp only [openedWal, SegView.seg, SegView.next]
      omega
    · rw [List.take_length]
      rfl

/-! ### The scan over the segments -/

theorem walSegOpen_calm {os : Os} (calm : os.script = []) {base capacity : Nat}
    (positive : base ≠ 0) (header : WAL_REC_HEADER_SIZE ≤ capacity) (present : base ∈ os.disk.dir) :
    walSegOpen os base capacity = (.ok (segReset base base capacity), os.land [] os.disk) := by
  unfold walSegOpen osOpenat
  rw [if_neg (by omega), if_pos present, plain_id_calm calm]

/-- What recovery returns for a segment whose scan ends so. -/
def SegView.result (v : SegView) (capacity : Nat) :
    ScanEnd → Except Err (WalSegScan × WalSeg × List WalRec)
  | .cut size => .error ⟨.nomem, size⟩
  | .clean => .ok (⟨v.recs.length, v.next - 1, v.size, false⟩, v.seg capacity, headers v.recs)
  | .torn => .ok (⟨v.recs.length, v.next - 1, v.size, true⟩, v.seg capacity, headers v.recs)

/-- Opening and recovering one segment. -/
theorem segment_recovered {scratchLen capacity : Nat} (scratch : WAL_REC_MAX_SIZE ≤ scratchLen)
    (header : WAL_REC_HEADER_SIZE ≤ capacity) {os : Os} (calm : os.script = []) {v : SegView}
    {reason : ScanEnd} (positive : 1 ≤ v.base) (present : v.base ∈ os.disk.dir)
    (scan : Scans capacity v.base ((os.disk.file v.base).vol.take capacity) v.recs reason) :
    ∃ os' seg, walSegOpen os v.base capacity = (.ok seg, os') ∧
      ∃ os'', Reads os os'' ∧
        walSegRecover os' seg scratchLen = (v.result capacity reason, os'') := by
  refine ⟨_, _, walSegOpen_calm calm (by omega) header present, ?_⟩
  obtain ⟨os'', reads, found⟩ := walSegRecover_scans scratch
    (s := segReset v.base v.base capacity) rfl
    (show (os.land [] os.disk).script = [] from rfl) scan
  refine ⟨os'', (land_reads os).trans reads, ?_⟩
  rw [found]
  cases reason <;> rfl

theorem walOpenScan_openable {scratchLen capacity : Nat} (scratch : WAL_REC_MAX_SIZE ≤ scratchLen)
    (header : WAL_REC_HEADER_SIZE ≤ capacity) {reason : ScanEnd}
    (whole : ∀ size, reason ≠ .cut size) {front : List SegView} {last : SegView} {os : Os}
    (calm : os.script = []) {acc : OpenScan} (positive : 1 ≤ acc.expected)
    (joined : Joined acc.expected (front ++ [last]))
    (named : ∀ v ∈ front ++ [last], v.base ∈ os.disk.dir)
    (clean : ∀ v ∈ front,
      Scans capacity v.base ((os.disk.file v.base).vol.take capacity) v.recs .clean)
    (tail : Scans capacity last.base ((os.disk.file last.base).vol.take capacity) last.recs
      reason) :
    ∃ os', Reads os os' ∧
      walOpenScan capacity scratchLen ((front ++ [last]).map SegView.base) os acc =
        (.ok
          { expected := last.next
            records := acc.records + (recordsOf (front ++ [last])).length
            active := last.seg capacity
            torn := isTorn reason
            recs := acc.recs ++ headers (recordsOf (front ++ [last])) }, os') := by
  induction front generalizing os acc with
  | nil =>
      have base : last.base = acc.expected := joined.1
      obtain ⟨os', seg, opened, os'', reads, found⟩ := segment_recovered scratch header calm
        (by omega) (named last (List.mem_cons_self ..)) tail
      refine ⟨os'', reads, ?_⟩
      have next : last.next - 1 + 1 = last.next := by
        unfold SegView.next
        omega
      simp only [List.nil_append, List.map_cons, List.map_nil, recordsOf, List.flatMap_cons,
        List.flatMap_nil, List.append_nil]
      unfold walOpenScan
      rw [if_neg (by rw [not_not]; exact base), opened]
      simp only
      rw [found]
      cases reason with
      | cut size => exact absurd rfl (whole size)
      | clean =>
          simp only [SegView.result, next, isTorn]
          rfl
      | torn =>
          simp only [SegView.result, next, isTorn]
          rfl
  | cons head rest ih =>
      obtain ⟨base, later⟩ := joined
      obtain ⟨os', seg, opened, os'', reads, found⟩ := segment_recovered scratch header calm
        (by omega) (named head (List.mem_cons_self ..)) (clean head (List.mem_cons_self ..))
      have next : head.next - 1 + 1 = head.next := by
        unfold SegView.next
        omega
      have closed := (land_reads os'')
      have calm'' := reads.script
      let gathered : OpenScan :=
        { expected := head.next
          records := acc.records + head.recs.length
          active := head.seg capacity
          torn := false
          recs := acc.recs ++ headers head.recs }
      have low : 1 ≤ gathered.expected := by
        change 1 ≤ head.base + head.recs.length
        omega
      obtain ⟨final, readsLater, scanned⟩ := ih
        (show (os''.land [] os''.disk).script = [] from rfl) low later
        (by
          intro v present
          rw [closed.disk, reads.disk]
          exact named v (List.mem_cons_of_mem _ present))
        (by
          intro v present
          rw [closed.disk, reads.disk]
          exact clean v (List.mem_cons_of_mem _ present))
        (by
          rw [closed.disk, reads.disk]
          exact tail)
      refine ⟨final, reads.trans (closed.trans readsLater), ?_⟩
      rw [List.cons_append, List.map_cons]
      unfold walOpenScan
      rw [if_neg (by rw [not_not]; exact base), opened]
      simp only
      rw [found]
      simp only [SegView.result, next]
      have more : ∃ second others, (rest ++ [last]).map SegView.base = second :: others := by
        cases rest with
        | nil => exact ⟨_, _, rfl⟩
        | cons second others => exact ⟨_, _, rfl⟩
      obtain ⟨second, others, shape⟩ := more
      rw [shape] at scanned ⊢
      simp only [Bool.false_eq_true, if_false, osClose_calm calm'']
      rw [scanned]
      simp only [gathered, recordsOf, List.flatMap_cons, List.length_append, headers,
        List.filterMap_append, List.append_assoc, Nat.add_assoc]

/-- A scan that succeeds met only segments such as these. -/
theorem walOpenScan_ok {scratchLen capacity : Nat} (scratch : WAL_REC_MAX_SIZE ≤ scratchLen)
    (header : WAL_REC_HEADER_SIZE ≤ capacity) {table : List Nat} (given : table ≠ []) {os : Os}
    (calm : os.script = []) {acc : OpenScan} (named : ∀ base ∈ table, base ∈ os.disk.dir)
    {out : OpenScan} {os' : Os}
    (scanned : walOpenScan capacity scratchLen table os acc = (.ok out, os')) :
    ∃ front last reason, table = (front ++ [last]).map SegView.base ∧ 1 ≤ acc.expected ∧
      Joined acc.expected (front ++ [last]) ∧
      (∀ v ∈ front,
        Scans capacity v.base ((os.disk.file v.base).vol.take capacity) v.recs .clean) ∧
      Scans capacity last.base ((os.disk.file last.base).vol.take capacity) last.recs reason ∧
      ∀ size, reason ≠ .cut size := by
  induction table generalizing os acc with
  | nil => exact absurd rfl given
  | cons base rest ih =>
      unfold walOpenScan at scanned
      split at scanned
      · cases scanned
      · rename_i at_expected
        rw [not_not] at at_expected
        by_cases positive : 1 ≤ base
        · obtain ⟨recs, reason, scan⟩ := Scans.exists capacity base
            ((os.disk.file base).vol.take capacity)
          obtain ⟨opening, seg, opened, recovering, reads, found⟩ := segment_recovered scratch
            header calm (v := ⟨base, recs⟩) positive (named base (List.mem_cons_self ..)) scan
          have next : (⟨base, recs⟩ : SegView).next - 1 + 1 = (⟨base, recs⟩ : SegView).next := by
            simp only [SegView.next]
            omega
          rw [opened] at scanned
          simp only at scanned
          rw [found] at scanned
          cases rest with
          | nil =>
              refine ⟨[], ⟨base, recs⟩, reason, rfl, by omega, ⟨at_expected, trivial⟩, ?_, scan, ?_⟩
              · intro v none
                cases none
              · intro size cut
                rw [cut] at scanned
                cases scanned
          | cons second others =>
              cases reason with
              | cut size => cases scanned
              | torn => cases scanned
              | clean =>
                  simp only [SegView.result, Bool.false_eq_true, if_false, osClose_calm reads.script, next]
                    at scanned
                  have closed := land_reads recovering
                  obtain ⟨front, last, reason, shape, _low, joined, clean, tail, whole⟩ :=
                    ih (List.cons_ne_nil _ _)
                      (show (recovering.land [] recovering.disk).script = [] from rfl)
                      (by
                        intro other present
                        rw [closed.disk, reads.disk]
                        exact named other (List.mem_cons_of_mem _ present))
                      scanned
                  rw [closed.disk, reads.disk] at tail
                  refine ⟨⟨base, recs⟩ :: front, last, reason, ?_, by omega,
                    ⟨at_expected, joined⟩, ?_, tail, whole⟩
                  · rw [List.cons_append, List.map_cons, ← shape]
                  · intro v present
                    rcases List.mem_cons.mp present with same | inRest
                    · rw [same]
                      exact scan
                    · have later := clean v inRest
                      rw [closed.disk, reads.disk] at later
                      exact later
        · have zero : base = 0 := by omega
          unfold walSegOpen at scanned
          rw [if_pos (Or.inl zero)] at scanned
          cases scanned

/-! ### Opening -/

theorem segTableLoad_calm {os : Os} (calm : os.script = []) (listing : List Nat) :
    segTableLoad os listing = (segTableFill [] listing, os.land [] os.disk) := by
  unfold segTableLoad
  rw [plain_id_calm calm]

/-- **A directory fit to be opened is opened, and the log is what it described.** -/
theorem walOpen_openable {scratchLen capacity : Nat} (scratch : WAL_REC_MAX_SIZE ≤ scratchLen)
    (header : WAL_REC_HEADER_SIZE ≤ capacity) {os : Os} (calm : os.script = [])
    {front : List SegView} {last : SegView} {reason : ScanEnd}
    (fit : Openable capacity os.disk front last reason) {listing : List Nat}
    (listed : listing.Perm os.disk.dir) :
    ∃ report os', Reads os os' ∧ report.torn = isTorn reason ∧
      walOpen os listing capacity scratchLen =
        (.ok (report, openedWal capacity front last, headers (recordsOf (front ++ [last]))),
          os') := by
  obtain ⟨first, positive, joined⟩ := fit.joined
  have sorted := joined.sorted fit.full
  have perm : listing.Perm ((front ++ [last]).map SegView.base) := by
    refine listed.trans ?_
    rw [List.perm_ext_iff_of_nodup fit.distinct (sorted.imp Nat.ne_of_lt)]
    exact fit.named
  have few : ((front ++ [last]).map SegView.base).length ≤ WAL_MAX_SEGMENTS := by
    have room := fit.room
    rw [List.length_map, List.length_append]
    exact room
  have filled := segTableFill_perm few sorted perm
  have head : ∃ rest, (front ++ [last]).map SegView.base = first :: rest := by
    cases front with
    | nil => exact ⟨[], by rw [← joined.1]; rfl⟩
    | cons v others => exact ⟨_, by rw [← joined.1]; rfl⟩
  obtain ⟨rest, shape⟩ := head
  have reads : Reads os ((os.land [] os.disk).land [] os.disk) :=
    (land_reads os).trans (land_reads _)
  let start : OpenScan := ⟨first, 0, (walClosed capacity).active, false, []⟩
  obtain ⟨os', scanReads, scanned⟩ := walOpenScan_openable scratch header fit.whole
    (show ((os.land [] os.disk).land [] os.disk).script = [] from rfl)
    (show 1 ≤ start.expected from positive) joined
    (fun v present => (fit.named v.base).mpr (List.mem_map_of_mem present)) fit.clean fit.tail
  have scratchHeader : WAL_REC_HEADER_SIZE ≤ scratchLen := Nat.le_trans (by decide) scratch
  refine ⟨{ segments := (first :: rest).length, created := false, torn := isTorn reason
            firstSeq := first, lastSeq := last.next - 1
            records := 0 + (recordsOf (front ++ [last])).length },
    os', reads.trans scanReads, rfl, ?_⟩
  unfold walOpen
  rw [if_neg (by omega), plain_id_calm calm]
  simp only
  rw [segTableLoad_calm rfl, filled, shape]
  simp only
  rw [← shape, show (os.land [] os.disk).disk = os.disk from rfl, scanned]
  simp only [start, openedWal, List.nil_append]

/-- An empty directory becomes a log that starts at sequence 1. -/
theorem walOpen_empty {scratchLen capacity : Nat} (scratch : WAL_REC_MAX_SIZE ≤ scratchLen)
    (header : WAL_REC_HEADER_SIZE ≤ capacity) {os : Os} (calm : os.script = [])
    (empty : os.disk.dir = []) :
    ∃ report, walOpen os [] capacity scratchLen =
      (.ok (report, openedWal capacity [] ⟨1, []⟩, []),
        { disk := os.disk.created 1 capacity
          script := []
          seen := os.disk.creating 1 capacity ++ (os.disk :: os.disk :: os.seen) }) := by
  have scratchHeader : WAL_REC_HEADER_SIZE ≤ scratchLen := Nat.le_trans (by decide) scratch
  refine ⟨{ segments := 1, created := true, torn := false, firstSeq := 1, lastSeq := 0,
            records := 0 }, ?_⟩
  unfold walOpen
  rw [if_neg (by omega), plain_id_calm calm]
  simp only
  rw [segTableLoad_calm rfl]
  simp only [segTableFill]
  rw [walSegCreate_calm rfl (by decide) header (by
    change 1 ∉ os.disk.dir
    rw [empty]
    exact List.not_mem_nil)]
  rfl

/-- **Only a directory fit to be opened is opened.** -/
theorem walOpen_ok {scratchLen capacity : Nat} (scratch : WAL_REC_MAX_SIZE ≤ scratchLen)
    {os : Os} (calm : os.script = []) (distinct : os.disk.dir.Nodup) {listing : List Nat}
    (listed : listing.Perm os.disk.dir) {report : WalOpen} {w : Wal} {recs : List WalRec} {os' : Os}
    (opened : walOpen os listing capacity scratchLen = (.ok (report, w, recs), os')) :
    WAL_REC_HEADER_SIZE ≤ capacity ∧
      (os.disk.dir = [] ∨ ∃ front last reason, Openable capacity os.disk front last reason) := by
  unfold walOpen at opened
  split at opened
  · cases opened
  · rename_i sizes
    rw [not_or] at sizes
    have header : WAL_REC_HEADER_SIZE ≤ capacity := by omega
    refine ⟨header, ?_⟩
    rw [plain_id_calm calm] at opened
    simp only at opened
    rw [segTableLoad_calm rfl] at opened
    cases filled : segTableFill [] listing with
    | error e =>
        rw [filled] at opened
        cases opened
    | ok table =>
        obtain ⟨sorted, few, members⟩ :=
          segTableFill_ok filled List.Pairwise.nil (Nat.zero_le _)
        have names (base : Nat) : base ∈ table ↔ base ∈ os.disk.dir := by
          rw [members, listed.mem_iff]
          simp only [List.not_mem_nil, false_or]
        rw [filled] at opened
        cases table with
        | nil =>
            left
            cases dir : os.disk.dir with
            | nil => rfl
            | cons base rest =>
                have impossible := (names base).mpr (by rw [dir]; exact List.mem_cons_self ..)
                cases impossible
        | cons first rest =>
            right
            simp only at opened
            split at opened
            · cases opened
            · rename_i acc final scanned
              obtain ⟨front, last, reason, shape, low, joined, clean, tail, whole⟩ :=
                walOpenScan_ok scratch header (List.cons_ne_nil _ _)
                  (show ((os.land [] os.disk).land [] os.disk).script = [] from rfl)
                  (fun base present => (names base).mp present) scanned
              rw [shape] at sorted
              refine ⟨front, last, reason, ?_, distinct, ?_, ⟨first, low, joined⟩,
                joined.full sorted, clean, tail, whole⟩
              · intro base
                rw [← shape]
                exact (names base).symm
              · rw [shape, List.length_map, List.length_append] at few
                exact few

end Msgsrvd

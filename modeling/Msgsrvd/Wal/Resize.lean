/-
The same files opened with another segment capacity.

A call that succeeds does what it does when nothing fails, so what an open returns
is known from the files alone.  The scan is bounded by the capacity it is given:
the last segment loses what lies beyond it, every other segment makes the open fail.
-/

import Msgsrvd.Wal.Live
import Msgsrvd.Wal.Represents

namespace Msgsrvd

open Bytestring

/-! ### Success does not depend on the script -/

def Os.calm (os : Os) : Os := { os with script := [] }

theorem call_calmed {os os' : Os} {effect : Disk → Disk} {failed : Nat → Disk → Disk}
    (calls : os.call effect failed = (.ok (), os')) :
    os.calm.call effect failed = (.ok (), os'.calm) := by
  unfold Os.call at calls
  split at calls
  · cases calls
    rfl
  · cases calls
    rfl
  · cases calls

theorem plain_calmed {os os' : Os} {effect : Disk → Disk}
    (calls : os.plain effect = (.ok (), os')) : os.calm.plain effect = (.ok (), os'.calm) :=
  call_calmed calls

theorem osClose_calmed (os : Os) : (osClose os.calm).2 = (osClose os).2.calm := by
  unfold osClose Os.plain Os.call Os.calm
  cases os.script with
  | nil => rfl
  | cons outcome rest => cases outcome <;> rfl

theorem osPreadFull_calmed {os os' : Os} {fd : Option Nat} {count offset : Nat} {block : Bytes}
    (reads : osPreadFull os fd count offset = (.ok block, os')) :
    osPreadFull os.calm fd count offset = (.ok block, os'.calm) := by
  unfold osPreadFull at reads ⊢
  cases fd with
  | none => cases reads
  | some fd =>
      cases calls : os.plain id with
      | mk res os1 =>
          rw [calls] at reads
          cases res with
          | error e => cases reads
          | ok done =>
              cases reads
              simp only [plain_calmed calls]
              rfl

theorem walSegCreate_calmed {os os' : Os} {baseSeq capacity : Nat} {seg : WalSeg}
    (creates : walSegCreate os baseSeq capacity = (.ok seg, os')) :
    walSegCreate os.calm baseSeq capacity = (.ok seg, os'.calm) := by
  unfold walSegCreate at creates ⊢
  split at creates
  · cases creates
  · rename_i valid
    rw [if_neg valid]
    cases makes : osCreate os baseSeq with
    | mk res os1 =>
        rw [makes] at creates
        cases res with
        | error e => cases creates
        | ok fd =>
            have makes' : osCreate os.calm baseSeq = (.ok fd, os1.calm) := by
              unfold osCreate at makes ⊢
              split at makes
              · cases makes
              · rename_i absent
                rw [if_neg (show baseSeq ∉ os.calm.disk.dir from absent)]
                split at makes
                · cases makes
                · rename_i os2 calls
                  cases makes
                  rw [plain_calmed calls]
            rw [makes']
            simp only at creates ⊢
            split at creates
            · cases creates
            · rename_i os2 sizes
              rw [show osFallocate os1.calm fd capacity = (.ok (), os2.calm) from plain_calmed sizes]
              simp only
              split at creates
              · cases creates
              · rename_i os3 syncs
                rw [show osFsync os2.calm fd = (.ok (), os3.calm) from plain_calmed syncs]
                simp only
                split at creates
                · cases creates
                · rename_i os4 lists
                  rw [show osFsyncDir os3.calm = (.ok (), os4.calm) from plain_calmed lists]
                  cases creates
                  rfl

theorem walSegOpen_calmed {os os' : Os} {baseSeq capacity : Nat} {seg : WalSeg}
    (opens : walSegOpen os baseSeq capacity = (.ok seg, os')) :
    walSegOpen os.calm baseSeq capacity = (.ok seg, os'.calm) := by
  unfold walSegOpen osOpenat at opens ⊢
  split at opens
  · cases opens
  · rename_i valid
    rw [if_neg valid]
    by_cases present : baseSeq ∈ os.disk.dir
    · rw [if_pos present] at opens
      rw [if_pos (show baseSeq ∈ os.calm.disk.dir from present)]
      cases calls : os.plain id with
      | mk res os1 =>
          rw [calls] at opens
          cases res with
          | error e => cases opens
          | ok done =>
              cases opens
              rw [plain_calmed calls]
    · rw [if_neg present] at opens
      cases opens

theorem walSegScan_calmed {fd : Option Nat} {capacity scratchLen fuel : Nat} {os os' : Os}
    {off expected : Nat} {acc : List WalRec} {point : ScanPoint}
    (scanned : walSegScan fd capacity scratchLen fuel os off expected acc = (.ok point, os')) :
    walSegScan fd capacity scratchLen fuel os.calm off expected acc = (.ok point, os'.calm) := by
  induction fuel generalizing os off expected acc with
  | zero =>
      cases scanned
      rfl
  | succ fuel ih =>
      unfold walSegScan at scanned ⊢
      by_cases inside : off < capacity
      · rw [if_pos inside] at scanned ⊢
        cases reads : osPreadFull os fd (min scratchLen (capacity - off)) off with
        | mk res os1 =>
            rw [reads] at scanned
            cases res with
            | error e => cases scanned
            | ok block =>
                rw [osPreadFull_calmed reads]
                simp only at scanned ⊢
                split at scanned
                · rename_i short
                  cases scanned
                  rw [if_pos short]
                · rename_i long
                  rw [if_neg long]
                  cases walked : walSegScanBlock capacity off block block.length 0 expected acc with
                  | mk stop rest =>
                      obtain ⟨pos', expected', acc'⟩ := rest
                      rw [walked] at scanned
                      cases stop with
                      | nomem size => cases scanned
                      | finish torn =>
                          cases scanned
                          rfl
                      | refill =>
                          simp only at scanned ⊢
                          split at scanned
                          · rename_i still
                            cases scanned
                            rw [if_pos still]
                          · rename_i moved
                            rw [if_neg moved]
                            exact ih scanned
      · rw [if_neg inside] at scanned ⊢
        cases scanned
        rfl

theorem walSegRecover_calmed {os os' : Os} {s : WalSeg} {scratchLen : Nat}
    {found : WalSegScan × WalSeg × List WalRec}
    (recovers : walSegRecover os s scratchLen = (.ok found, os')) :
    walSegRecover os.calm s scratchLen = (.ok found, os'.calm) := by
  unfold walSegRecover at recovers ⊢
  split at recovers
  · cases recovers
  · rename_i valid
    rw [if_neg valid]
    split at recovers
    · cases recovers
    · rename_i point os1 scanned
      rw [walSegScan_calmed scanned]
      cases recovers
      rfl

theorem walOpenScan_calmed {capacity scratchLen : Nat} {table : List Nat} {os os' : Os}
    {acc acc' : OpenScan}
    (scanned : walOpenScan capacity scratchLen table os acc = (.ok acc', os')) :
    walOpenScan capacity scratchLen table os.calm acc = (.ok acc', os'.calm) := by
  induction table generalizing os acc with
  | nil =>
      cases scanned
      rfl
  | cons first rest ih =>
      unfold walOpenScan at scanned ⊢
      split at scanned
      · cases scanned
      · rename_i expected
        rw [if_neg expected]
        split at scanned
        · cases scanned
        · rename_i seg os1 opens
          rw [walSegOpen_calmed opens]
          simp only
          split at scanned
          · cases scanned
          · rename_i scan seg' recs os2 recovers
            rw [walSegRecover_calmed recovers]
            simp only
            cases rest with
            | nil =>
                cases scanned
                rfl
            | cons second others =>
                simp only at scanned ⊢
                split at scanned
                · cases scanned
                · rename_i whole
                  rw [if_neg whole, osClose_calmed]
                  exact ih scanned

/-- **What an open returns when it succeeds is what it returns when nothing fails.** -/
theorem walOpen_calmed {os os' : Os} {listing : List Nat} {capacity scratchLen : Nat}
    {found : WalOpen × Wal × List WalRec}
    (opens : walOpen os listing capacity scratchLen = (.ok found, os')) :
    walOpen os.calm listing capacity scratchLen = (.ok found, os'.calm) := by
  unfold walOpen at opens ⊢
  split at opens
  · cases opens
  · rename_i valid
    rw [if_neg valid]
    split at opens
    · cases opens
    · rename_i os1 calls
      rw [plain_calmed calls]
      simp only
      cases loads : segTableLoad os1 listing with
      | mk res os2 =>
          rw [loads] at opens
          cases res with
          | error e => cases opens
          | ok table =>
              have loads' : segTableLoad os1.calm listing = (.ok table, os2.calm) := by
                unfold segTableLoad at loads ⊢
                split at loads
                · cases loads
                · rename_i os3 lists
                  rw [Prod.mk.injEq] at loads
                  rw [plain_calmed lists, ← loads.1, ← loads.2]
              rw [loads']
              cases table with
              | nil =>
                  simp only at opens ⊢
                  split at opens
                  · cases opens
                  · rename_i seg os3 creates
                    rw [walSegCreate_calmed creates]
                    cases opens
                    rfl
              | cons first rest =>
                  simp only at opens ⊢
                  split at opens
                  · cases opens
                  · rename_i acc os3 scanned
                    rw [walOpenScan_calmed scanned]
                    cases opens
                    rfl

/-! ### Where each segment ends -/

/-- The records of a sealed segment lie within this capacity, and what follows them
reads as the end of the segment. -/
def segmentEnds (capacity : Nat) (disk : Disk) (base next : Nat) : Bool :=
  let content := (disk.file base).vol
  let size := (takeRecs (next - base) content).flatten.length
  decide (size ≤ capacity) &&
    match walRecDecode ((content.take capacity).drop size) with
    | none => true
    | some r => walRecIsEnd r

/-- Every segment but the last. -/
def sealedEnd (capacity : Nat) (disk : Disk) : List Nat → Bool
  | base :: next :: rest =>
      segmentEnds capacity disk base next && sealedEnd capacity disk (next :: rest)
  | _ => true

/-- The last segment's records lie within the capacity, or an earlier segment does not end
within it. -/
def Wal.resizes (w : Wal) (disk : Disk) (capacity : Nat) : Bool :=
  decide (w.active.writeOff ≤ capacity) || !sealedEnd capacity disk w.segBase

theorem scanHead_stop {room expected : Nat} {bytes : Bytes} :
    scanHead room expected bytes = .stop .clean ↔
      (match walRecDecode bytes with
        | none => true
        | some r => walRecIsEnd r) = true := by
  unfold scanHead
  cases walRecDecode bytes with
  | none => simp only
  | some r =>
      simp only
      by_cases ends : walRecIsEnd r = true
      · rw [if_pos ends]
        simp only [ends]
      · rw [if_neg ends]
        constructor
        · intro head
          repeat' split at head
          all_goals cases head
        · exact fun is => absurd is ends

theorem Stored.taken {capacity : Nat} {content : Bytes} {v : SegView}
    (stored : Stored capacity content v) : takeRecs (v.next - v.base) content = v.recs := by
  obtain ⟨are, _fits, tail, shape⟩ := stored
  have count : v.next - v.base = v.recs.length := by
    unfold SegView.next
    omega
  rw [count, shape, takeRecs_records are]

/-- A segment ends so when a scan of it finds its records and a clean end. -/
theorem segmentEnds_iff {capacity capacity' : Nat} {disk : Disk} {v : SegView}
    (stored : Stored capacity' (disk.file v.base).vol v) :
    segmentEnds capacity disk v.base v.next = true ↔
      Scans capacity v.base ((disk.file v.base).vol.take capacity) v.recs .clean := by
  unfold segmentEnds
  simp only [stored.taken, Bool.and_eq_true, decide_eq_true_eq]
  rw [← @scanHead_stop (capacity - v.recs.flatten.length) v.next]
  obtain ⟨are, _fits, tail, shape⟩ := stored
  constructor
  · rintro ⟨fits, stops⟩
    have front : (disk.file v.base).vol.take capacity =
        v.recs.flatten ++ ((disk.file v.base).vol.take capacity).drop v.recs.flatten.length := by
      rw [shape, List.take_append, List.take_of_length_le fits, List.drop_left' rfl]
    have scan := Scans.prepend are fits (.stop stops)
    rw [List.append_nil, ← front] at scan
    exact scan
  · intro scan
    exact ⟨scan.front.2, scan.ends⟩

theorem sealedEnd_iff {capacity capacity' : Nat} {disk : Disk} {first : Nat}
    {front : List SegView} {last : SegView} (joined : Joined first (front ++ [last]))
    (stored : ∀ v ∈ front ++ [last], Stored capacity' (disk.file v.base).vol v) :
    sealedEnd capacity disk ((front ++ [last]).map SegView.base) = true ↔
      ∀ v ∈ front,
        Scans capacity v.base ((disk.file v.base).vol.take capacity) v.recs .clean := by
  induction front generalizing first with
  | nil => exact ⟨fun _ v none => absurd none List.not_mem_nil, fun _ => rfl⟩
  | cons head rest ih =>
      obtain ⟨_base, later⟩ := joined
      have next : ∃ others, (rest ++ [last]).map SegView.base = head.next :: others := by
        cases rest with
        | nil => exact ⟨_, by rw [← later.1]; rfl⟩
        | cons w more => exact ⟨_, by rw [← later.1]; rfl⟩
      obtain ⟨others, shape⟩ := next
      have tail := ih later (fun v inRest => stored v (List.mem_cons_of_mem _ inRest))
      rw [List.cons_append, List.map_cons, shape, sealedEnd, Bool.and_eq_true, ← shape, tail,
        segmentEnds_iff (stored head (List.mem_cons_self ..)), List.forall_mem_cons]

/-! ### The same directory -/

section Same

variable {capacity capacity' : Nat} {disk : Disk} {w w' : Wal} {front front' : List SegView}
  {last last' : SegView}

theorem LogAt.sorted (log : LogAt capacity disk w front last) :
    w.segBase.Pairwise (· < ·) := by
  obtain ⟨first, _positive, joined⟩ := log.joined
  rw [log.table]
  exact joined.sorted log.full

/-- The table is the directory in order. -/
theorem LogAt.table_eq (log : LogAt capacity disk w front last)
    (log' : LogAt capacity' disk w' front' last') : w.segBase = w'.segBase := by
  have perm : w.segBase.Perm w'.segBase := by
    rw [List.perm_ext_iff_of_nodup (log.sorted.imp Nat.ne_of_lt) (log'.sorted.imp Nat.ne_of_lt)]
    intro base
    rw [← log.named, log'.named]
  refine perm.eq_of_pairwise ?_ log.sorted log'.sorted
  intro left right _ _ less more
  omega

theorem LogAt.last_eq (log : LogAt capacity disk w front last)
    (log' : LogAt capacity' disk w' front' last') : last.base = last'.base := by
  have same := log.table_eq log'
  rw [log.table, log'.table, List.map_append, List.map_append] at same
  exact List.singleton_inj.mp (List.append_inj_right' same rfl)

theorem takeRecs_prefix {count count' : Nat} (more : count ≤ count') (content : Bytes) :
    takeRecs count content <+: takeRecs count' content := by
  induction count generalizing count' content with
  | zero => exact List.nil_prefix
  | succ count ih =>
      obtain ⟨rest, shape⟩ : ∃ rest, count' = rest + 1 := ⟨count' - 1, by omega⟩
      subst shape
      unfold takeRecs
      cases walRecDecode content with
      | none => exact List.prefix_refl _
      | some r => exact List.cons_prefix_cons.mpr ⟨rfl, ih (Nat.le_of_succ_le_succ more) _⟩

theorem walContents_mono {next next' : Nat} (more : next ≤ next') {table : List Nat}
    {p : Nat × Bytes} (present : p ∈ walContents disk next table) :
    p ∈ walContents disk next' table := by
  induction table with
  | nil => exact present
  | cons base rest ih =>
      cases rest with
      | nil =>
          unfold walContents at present ⊢
          rw [mem_numbered] at present ⊢
          obtain ⟨index, seq, found⟩ := present
          obtain ⟨extra, shape⟩ :=
            takeRecs_prefix (Nat.sub_le_sub_right more base) (disk.file base).vol
          refine ⟨index, seq, ?_⟩
          rw [← shape, List.getElem?_append_left (List.getElem?_eq_some_iff.mp found).1]
          exact found
      | cons after others =>
          unfold walContents at present ⊢
          rcases List.mem_append.mp present with here | later
          · exact List.mem_append_left _ here
          · exact List.mem_append_right _ (ih later)

/-- Records within the capacity are all found. -/
theorem LogAt.next_le (log : LogAt capacity disk w front last)
    (log' : LogAt capacity' disk w' front' last') {reason : ScanEnd}
    (tail : Scans capacity' last'.base ((disk.file last'.base).vol.take capacity') last'.recs
      reason) (inside : last.size ≤ capacity') : last.next ≤ last'.next := by
  have base := log.last_eq log'
  obtain ⟨are, _fits, rest, shape⟩ := log.stored last
    (List.mem_append_right _ (List.mem_singleton.mpr rfl))
  obtain ⟨extra, ended, more⟩ := Scans.exists (capacity' - last.size) last.next
    (rest.take (capacity' - last.size))
  have scan := Scans.prepend are inside more
  have taken : (disk.file last.base).vol.take capacity' =
      last.recs.flatten ++ rest.take (capacity' - last.size) := by
    rw [shape, List.take_append, List.take_of_length_le inside]
    rfl
  rw [← taken, base] at scan
  have same := (tail.unique scan).1
  unfold SegView.next
  rw [base, same, List.length_append]
  omega

end Same

/-! ### The table stays within its bound -/

theorem walAppendActive_table {os os' : Os} {w w' : Wal} {res : Except Err WalRec} {r : WalRec}
    {payload : Bytes} {scratchLen : Nat}
    (appends : walAppendActive os w r payload scratchLen = (res, w', os')) :
    w'.segBase = w.segBase := by
  unfold walAppendActive at appends
  split at appends
  · cases appends
    rfl
  · cases appends
    rfl

theorem walRollover_room {os os' : Os} {w w' : Wal} {res : Except Err Unit}
    (room : w.segBase.length ≤ WAL_MAX_SEGMENTS) (rolls : walRollover os w = (res, w', os')) :
    w'.segBase.length ≤ WAL_MAX_SEGMENTS := by
  unfold walRollover at rolls
  split at rolls
  · cases rolls
    exact room
  · rename_i below
    cases flushes : walSync os w with
    | mk done rest =>
        obtain ⟨w1, os1⟩ := rest
        have table : w1.segBase = w.segBase :=
          congrArg (fun done => done.2.1.segBase) flushes.symm
        rw [flushes] at rolls
        cases done with
        | error e =>
            cases rolls
            rw [table]
            exact room
        | ok done =>
            simp only at rolls
            split at rolls
            · cases rolls
              simp only [table]
              exact room
            · split at rolls
              · cases rolls
                simp only [table]
                exact room
              · cases rolls
                simp only [table, List.length_append, List.length_singleton]
                omega

theorem walAppend_room {os os' : Os} {w w' : Wal} {res : Except Err WalRec} {r : WalRec}
    {payload : Bytes} {scratchLen : Nat} (room : w.segBase.length ≤ WAL_MAX_SEGMENTS)
    (appends : walAppend os w r payload scratchLen = (res, w', os')) :
    w'.segBase.length ≤ WAL_MAX_SEGMENTS := by
  unfold walAppend at appends
  simp only at appends
  split at appends
  · cases appends
    exact room
  · split at appends
    · rw [walAppendActive_table appends]
      exact room
    · cases rolls : walRollover os w with
      | mk done rest =>
          obtain ⟨w1, os1⟩ := rest
          have room1 := walRollover_room room rolls
          rw [rolls] at appends
          cases done with
          | error e =>
              cases appends
              exact room1
          | ok done =>
              rw [walAppendActive_table appends]
              exact room1

theorem walOpen_room {os os' : Os} {listing : List Nat} {capacity scratchLen : Nat}
    {info : WalOpen} {w : Wal} {recs : List WalRec}
    (opens : walOpen os listing capacity scratchLen = (.ok (info, w, recs), os')) :
    w.segBase.length ≤ WAL_MAX_SEGMENTS := by
  unfold walOpen at opens
  split at opens
  · cases opens
  · split at opens
    · cases opens
    · rename_i os1 _opened
      cases loads : segTableLoad os1 listing with
      | mk res os2 =>
          rw [loads] at opens
          cases res with
          | error e => cases opens
          | ok table =>
              have few : table.length ≤ WAL_MAX_SEGMENTS := by
                unfold segTableLoad at loads
                split at loads
                · cases loads
                · have filled := congrArg Prod.fst loads
                  exact (segTableFill_ok filled List.Pairwise.nil (Nat.zero_le _)).2.1
              cases table with
              | nil =>
                  simp only at opens
                  split at opens
                  · cases opens
                  · cases opens
                    simp only [List.length_singleton]
                    decide
              | cons first rest =>
                  simp only at opens
                  split at opens
                  · cases opens
                  · cases opens
                    exact few

theorem walRetain_room {os os' : Os} {w w' : Wal} {keepFrom removed : Nat} {res : Except Err Unit}
    (room : w.segBase.length ≤ WAL_MAX_SEGMENTS)
    (retains : walRetain os w keepFrom = (res, removed, w', os')) :
    w'.segBase.length ≤ WAL_MAX_SEGMENTS := by
  have fewer (count : Nat) : (w.segBase.drop count).length ≤ WAL_MAX_SEGMENTS := by
    rw [List.length_drop]
    omega
  unfold walRetain at retains
  simp only at retains
  split at retains
  · cases retains
    exact room
  · split at retains
    · cases retains
      exact fewer _
    · split at retains
      · cases retains
        exact fewer _
      · cases retains
        exact fewer _

/-- The table of an open log has room for every entry. -/
theorem Reached.room {capacity : Nat} {guard : Node → WalEvent → Prop} {node : Node}
    (reached : Reached capacity guard node) :
    ∀ w, node.wal = some w → w.segBase.length ≤ WAL_MAX_SEGMENTS := by
  refine @Runs.Reach.invariant _ _ _ _ _
    (fun node => ∀ w, node.wal = some w → w.segBase.length ≤ WAL_MAX_SEGMENTS) ?_ ?_ node reached
  · rintro start ⟨closed, _⟩ w opened
    rw [closed] at opened
    cases opened
  · intro before event after room _admitted moves w' opened
    cases moves with
    | kill => cases opened
    | idleLoss crashed => cases opened
    | callLoss legal interrupted crashed => cases opened
    | @call call legal =>
        have opened : (before.perform capacity call).1 = some w' := opened
        cases call with
        | open' listing scratchLen =>
            simp only [Node.perform] at opened
            split at opened
            · rename_i opens
              cases opened
              exact walOpen_room opens
            · cases opened
        | append r payload scratchLen =>
            cases running : before.wal with
            | none => exact absurd running legal.1
            | some w =>
                simp only [Node.perform, running, Option.some.injEq] at opened
                rw [← opened]
                exact walAppend_room (room w running) rfl
        | sync =>
            cases running : before.wal with
            | none => exact absurd running legal
            | some w =>
                simp only [Node.perform, running, Option.some.injEq] at opened
                rw [← opened]
                exact room w running
        | retain keepFrom =>
            cases running : before.wal with
            | none => exact absurd running legal
            | some w =>
                simp only [Node.perform, running, Option.some.injEq] at opened
                rw [← opened]
                exact walRetain_room (room w running) rfl
        | close =>
            cases running : before.wal with
            | none => exact absurd running legal
            | some w =>
                simp only [Node.perform, running] at opened
                cases opened

/-! ### Opening with another capacity -/

/-- The logs that appends and flushes lead to from this one. -/
def OpenLog.Appended (start : OpenLog) : OpenLog → Prop :=
  Runs.Reach (fun log => log = start) (fun log event log' => log' = log.after event.2 event.1)
    (fun log event => log.admits event ∧ event.1.adds)

theorem Holds.records {disk : Disk} {w : Wal} {front : List SegView} {last : SegView}
    (holds : Holds disk w front last) (p : Nat × Bytes) :
    p ∈ walRecords disk w ↔ Contains (front ++ [last]) p.1 p.2 := by
  obtain ⟨first, _positive, joined⟩ := holds.joined
  unfold walRecords walNextSeq
  rw [holds.table, holds.nextSeq]
  exact walContents_views joined holds.stored p

/-- Appends overwrite no record. -/
theorem OpenLog.Appended.keeps {start log : OpenLog} {front : List SegView} {last : SegView}
    (appended : start.Appended log) (holds : Holds start.disk start.wal front last)
    {p : Nat × Bytes} (present : p ∈ walRecords start.disk start.wal) :
    p ∈ walRecords log.disk log.wal := by
  have inv : ∃ front' last', Holds log.disk log.wal front' last' ∧
      Keeps (front ++ [last]) (front' ++ [last']) := by
    refine @Runs.Reach.invariant _ _ _ _ _ (fun log => ∃ front' last',
      Holds log.disk log.wal front' last' ∧ Keeps (front ++ [last]) (front' ++ [last'])) ?_ ?_ log
      appended
    · intro first same
      rw [same]
      exact ⟨front, last, holds, .refl _⟩
    · intro before event after ⟨front1, last1, holds1, kept1⟩ admitted moves
      obtain ⟨front2, last2, holds2, kept2⟩ := OpenLog.after_holds holds1 admitted.1
      rw [moves]
      exact ⟨front2, last2, holds2, kept1.trans (kept2 admitted.2)⟩
  obtain ⟨front', last', holds', kept⟩ := inv
  rw [holds.records] at present
  rw [holds'.records]
  exact kept _ _ present

/-- An open with this capacity fails, or returns every record of the log, and no append
after it overwrites one. -/
def ResizeKeeps (capacity : Nat) (disk : Disk) (w : Wal) : Prop :=
  ∀ listing scratchLen script info w' recs os', listing.Perm disk.dir →
    WAL_REC_MAX_SIZE ≤ scratchLen →
      walOpen ⟨disk, script, []⟩ listing capacity scratchLen = (.ok (info, w', recs), os') →
        ∀ p ∈ walRecords disk w,
          (∃ r ∈ recs, walRecDecode p.2 = some r ∧ r.seq = p.1) ∧
            ∀ log, OpenLog.Appended ⟨os'.disk, w'⟩ log → p ∈ walRecords log.disk log.wal

section Resize

variable {capacity capacity' : Nat} {disk : Disk} {w : Wal} {front : List SegView}
  {last : SegView}

/-- What an open with this capacity finds, when it succeeds. -/
theorem LogAt.reopened (log : LogAt capacity disk w front last) {listing : List Nat}
    {scratchLen : Nat} {script : List Outcome} (listed : listing.Perm disk.dir)
    (scratch : WAL_REC_MAX_SIZE ≤ scratchLen) {info : WalOpen} {w' : Wal} {recs : List WalRec}
    {os' : Os} (opens : walOpen ⟨disk, script, []⟩ listing capacity' scratchLen =
      (.ok (info, w', recs), os')) :
    WAL_REC_HEADER_SIZE ≤ capacity' ∧ os'.disk = disk ∧ ∃ front' last' reason,
      Openable capacity' disk front' last' reason ∧ w' = openedWal capacity' front' last' ∧
        recs = headers (recordsOf (front' ++ [last'])) := by
  have calm := walOpen_calmed opens
  obtain ⟨header, either⟩ := @walOpen_ok scratchLen capacity' scratch _ rfl log.distinct
    listing listed info w' recs _ calm
  have given : disk.dir ≠ [] := by
    intro empty
    have listed : last.base ∈ disk.dir := by
      rw [log.named, log.table, List.map_append]
      exact List.mem_append_right _ (List.mem_singleton.mpr rfl)
    rw [empty] at listed
    cases listed
  rcases either with empty | ⟨front', last', reason, fit⟩
  · exact absurd empty given
  · obtain ⟨report, final, reads, _torn, found⟩ := @walOpen_openable scratchLen capacity' scratch
      header (Os.calm ⟨disk, script, []⟩) rfl front' last' reason fit listing listed
    rw [found] at calm
    simp only [Prod.mk.injEq, Except.ok.injEq] at calm
    obtain ⟨⟨_report, opened, records⟩, same⟩ := calm
    have disks : os'.calm.disk = final.disk := congrArg Os.disk same.symm
    exact ⟨header, disks.trans reads.disk, front', last', reason, fit, opened.symm, records.symm⟩

theorem resize_keeps (log : LogAt capacity disk w front last)
    (resizes : w.resizes disk capacity' = true) : ResizeKeeps capacity' disk w := by
  intro listing scratchLen script info w' recs os' listed scratch opens p present
  obtain ⟨header, disks, front', last', reason, fit, opened, records⟩ :=
    log.reopened listed scratch opens
  obtain ⟨front2, last2, holds⟩ := walOpen_holds opens
  have log' := fit.log header
  have table := log.table_eq log'
  have inside : last.size ≤ capacity' := by
    rw [Wal.resizes, Bool.or_eq_true, decide_eq_true_eq, log.writeOff] at resizes
    rcases resizes with inside | damaged
    · exact inside
    · -- A success means that every earlier segment ended cleanly.
      obtain ⟨first, _positive, joined⟩ := log'.joined
      have clean := (sealedEnd_iff joined log'.stored).mpr fit.clean
      rw [table, log'.table, clean] at damaged
      cases damaged
  have more := log.next_le log' fit.tail inside
  have kept : p ∈ walRecords disk w' := by
    unfold walRecords walNextSeq at present ⊢
    rw [table, log.nextSeq] at present
    rw [opened, log'.nextSeq]
    exact walContents_mono more present
  refine ⟨?_, ?_⟩
  · rw [opened, log'.records] at kept
    rw [records]
    exact log'.returned kept
  · intro later appended
    rw [disks] at appended holds
    exact appended.keeps holds kept

/-- Records of the last segment that the capacity leaves out are lost without an error. -/
theorem resize_loses (log : LogAt capacity disk w front last)
    (header : WAL_REC_HEADER_SIZE ≤ capacity') (few : front.length < WAL_MAX_SEGMENTS)
    (cut : w.resizes disk capacity' = false) : ¬ ResizeKeeps capacity' disk w := by
  intro keeps
  rw [Wal.resizes, Bool.or_eq_false_iff, decide_eq_false_iff_not, Bool.not_eq_false',
    log.writeOff, log.table] at cut
  obtain ⟨beyond, ends⟩ := cut
  obtain ⟨first, positive, joined⟩ := log.joined
  have clean := (sealedEnd_iff joined log.stored).mp ends
  obtain ⟨are, fits, rest, shape⟩ := log.stored last
    (List.mem_append_right _ (List.mem_singleton.mpr rfl))
  obtain ⟨recs, reason, scan⟩ := Scans.exists capacity' last.base
    ((disk.file last.base).vol.take capacity')
  have whole : ∀ size, reason ≠ .cut size := by
    apply scan.whole
    have long : last.size ≤ (disk.file last.base).vol.length := by
      rw [shape, List.length_append]
      exact Nat.le_add_right _ _
    rw [List.length_take]
    omega
  let found : SegView := ⟨last.base, recs⟩
  have fit : Openable capacity' disk front found reason := by
    refine ⟨?_, log.distinct, few, ⟨first, positive, ?_⟩, log.full, clean, scan, whole⟩
    · intro base
      rw [log.named, log.table, List.map_append, List.map_append]
      exact Iff.rfl
    · exact joined.left.append ⟨joined.right.1, trivial⟩
  -- Fewer records fit than there are.
  have fewer : found.next < last.next := by
    by_contra more
    have count : last.recs.length ≤ recs.length := by
      simp only [found, SegView.next] at more
      omega
    -- The records of the shorter list are the first ones of the longer.
    obtain ⟨extra, more⟩ := takeRecs_prefix count (disk.file last.base).vol
    have all := scan.stored.taken
    have some' : takeRecs last.recs.length (disk.file last.base).vol = last.recs := by
      rw [shape, takeRecs_records are]
    simp only [SegView.next, Nat.add_sub_cancel_left] at all
    rw [all, some'] at more
    have size := scan.front.2
    rw [← more, List.flatten_append, List.length_append] at size
    unfold SegView.size at beyond
    omega
  obtain ⟨bytes, known⟩ : ∃ bytes, (found.next, bytes) ∈ walRecords disk w := by
    have inside : found.next - last.base < last.recs.length := by
      simp only [found, SegView.next] at fewer ⊢
      omega
    refine ⟨last.recs[found.next - last.base], ?_⟩
    rw [log.records]
    refine ⟨last, List.mem_append_right _ (List.mem_singleton.mpr rfl), found.next - last.base, ?_,
      List.getElem?_eq_getElem inside⟩
    simp only [found, SegView.next]
    omega
  obtain ⟨report, os', reads, _torn, opens⟩ := @walOpen_openable WAL_REC_MAX_SIZE capacity'
    (Nat.le_refl _) header ⟨disk, [], []⟩ rfl front found reason fit disk.dir (.refl _)
  have lost := (keeps disk.dir WAL_REC_MAX_SIZE [] report _ _ os' (.refl _) (Nat.le_refl _) opens
    _ known).2 _ (.start rfl)
  rw [reads.disk] at lost
  exact Nat.lt_irrefl _ ((fit.log header).contains_lt (((fit.log header).records _).mp lost))

theorem Reached.segments {node : Node} (reached : Reached capacity Node.counts node)
    (opened : node.wal = some w) : ∃ front last, LogAt capacity node.disk w front last ∧
      front.length < WAL_MAX_SEGMENTS ∧ (node.after capacity .close).disk = node.disk := by
  obtain ⟨front, last, log⟩ := reached.live.2 w opened
  have room := reached.room w opened
  rw [log.table, List.length_map, List.length_append, List.length_singleton] at room
  exact ⟨front, last, log, room, (close_performed opened log).2.1⟩

end Resize

/-- **A change of the segment size loses nothing exactly when** the last segment's records
lie within the new size, or an earlier segment does not end within it. -/
theorem segment_size_changed (capacity capacity' : Nat) (node : Node)
    (reached : Reached capacity Node.counts node) (w : Wal) (opened : node.wal = some w)
    (accepted : WAL_REC_MAX_SIZE ≤ capacity') :
    ResizeKeeps capacity' (node.after capacity .close).disk w ↔
      w.resizes (node.after capacity .close).disk capacity' = true := by
  obtain ⟨front, last, log, few, closed⟩ := reached.segments opened
  rw [closed]
  constructor
  · intro keeps
    cases cut : w.resizes node.disk capacity' with
    | true => rfl
    | false =>
        exact absurd keeps (resize_loses log (Nat.le_trans (by decide) accepted) few cut)
  · exact resize_keeps log

theorem segment_size_changed_oneRecord :
    ∃ w, oneRecord.wal = some w ∧
      ResizeKeeps (2 * WAL_REC_MAX_SIZE) (oneRecord.after 176 .close).disk w := by
  have reached := oneRecord_reached Node.counts trivial (by
    intro w opened
    have low : ∀ w ∈ (emptyNode.after 176 (.open' [] WAL_REC_MAX_SIZE)).wal,
        w.active.nextSeq < 2 ^ 64 := by decide +kernel
    exact low w opened)
  obtain ⟨w, opened, small⟩ : ∃ w, oneRecord.wal = some w ∧ w.active.writeOff ≤ 176 := by
    have found : (oneRecord.wal.map (fun w => decide (w.active.writeOff ≤ 176))) = some true := by
      decide +kernel
    rw [Option.map_eq_some_iff] at found
    obtain ⟨w, opened, small⟩ := found
    exact ⟨w, opened, of_decide_eq_true small⟩
  have inside : w.active.writeOff ≤ 2 * WAL_REC_MAX_SIZE := Nat.le_trans small (by decide)
  refine ⟨w, opened, ?_⟩
  refine (segment_size_changed 176 (2 * WAL_REC_MAX_SIZE) oneRecord reached w opened
    (by decide)).mpr ?_
  rw [Wal.resizes, decide_eq_true inside, Bool.true_or]

/-! ### A log that a smaller segment size cuts -/

theorem walRecEncode_isSome {bufLen : Nat} {r : WalRec} {payload : Bytes} (given : payload ≠ [])
    (sized : walRecSize (i32 r.len) ≠ 0) (room : walRecSize (i32 r.len) ≤ bufLen) :
    ∃ bytes out, walRecEncode bufLen r payload = some (bytes, out) := by
  unfold walRecEncode
  simp only
  rw [if_neg (fun none => given none.2), if_neg (by omega)]
  exact ⟨_, _, rfl⟩

/-- The log with one more record of this size in its active segment. -/
structure Grown (w w' : Wal) (size : Nat) : Prop where
  fd : w'.active.fd = w.active.fd
  segCapacity : w'.segCapacity = w.segCapacity
  capacity : w'.active.capacity = w.active.capacity
  table : w'.segBase = w.segBase
  nextSeq : w'.active.nextSeq = w.active.nextSeq + 1
  writeOff : w'.active.writeOff = w.active.writeOff + size
  syncedOff : w'.active.syncedOff = w.active.syncedOff

theorem append_grows {capacity scratchLen size : Nat} {node : Node} {w : Wal} {r : WalRec}
    {payload : Bytes} (opened : node.wal = some w) {fd : Nat} (named : w.active.fd = some fd)
    (given : payload ≠ []) (full : (i32 r.len).toNat ≤ payload.length)
    (sized : walRecSize (i32 r.len) = size) (positive : size ≠ 0) (room : size ≤ scratchLen)
    (small : size ≤ w.segCapacity) (fits : w.active.writeOff + size ≤ w.active.capacity) :
    ∃ w', (node.after capacity (.append r payload scratchLen)).wal = some w' ∧
      Grown w w' size := by
  obtain ⟨bytes, out, encoded⟩ := @walRecEncode_isSome scratchLen
    { r with seq := w.active.nextSeq } payload given (by rw [sized]; exact positive)
    (by rw [sized]; exact room)
  have long := walRecEncode_length (by exact full) encoded
  simp only [sized] at long
  have wrote : osPwriteFull node.disk.os w.active.fd bytes w.active.writeOff =
      (.ok (), node.disk.os.land [] (node.disk.os.disk.write fd w.active.writeOff bytes)) := by
    rw [named]
    rfl
  let w' : Wal := { w with
    active := { w.active with
      writeOff := w.active.writeOff + size, nextSeq := w.active.nextSeq + 1 }
    index := walIndexAdd w.index out }
  refine ⟨w', ?_, ⟨rfl, rfl, rfl, rfl, rfl, rfl, rfl⟩⟩
  simp only [Node.after, Node.perform, opened, walAppend, walAppendActive, walSegAppend,
    walSegFits, sized, encoded, long, wrote]
  rw [if_neg (by omega), if_neg positive, decide_eq_true fits, if_pos rfl, if_neg (by omega)]

theorem Reached.append {capacity scratchLen : Nat} {node : Node} {w : Wal} {r : WalRec}
    {payload : Bytes} (reached : Reached capacity Node.counts node) (opened : node.wal = some w)
    (full : (i32 r.len).toNat ≤ payload.length) (low : w.active.nextSeq < 2 ^ 64) :
    Reached capacity Node.counts (node.after capacity (.append r payload scratchLen)) := by
  refine Runs.Reach.next reached (.call (.append r payload scratchLen)) ?_ (.call ⟨?_, full⟩)
  · intro other same
    rw [opened] at same
    cases same
    exact low
  · rw [opened]
    exact Option.some_ne_none w

theorem sync_flushes {capacity : Nat} {node : Node} {w : Wal} (opened : node.wal = some w)
    {fd : Nat} (named : w.active.fd = some fd)
    (unsynced : ¬ w.active.syncedOff = w.active.writeOff) :
    (node.after capacity .sync).wal = some { w with
      active := { w.active with
        syncedOff := w.active.writeOff, durableSeq := w.active.nextSeq - 1 } } := by
  have done : osFdatasync node.disk.os w.active.fd =
      (.ok (), node.disk.os.land [] (node.disk.flushFile fd)) := by
    rw [named]
    rfl
  simp only [Node.after, Node.perform, opened, walSync, walSegSync, if_neg unsynced, done]

/-- A segment of two of the largest records. -/
def wideSegment : Nat := 2 * WAL_REC_MAX_SIZE

/-- One record of the largest payload and one of 8 bytes, flushed. -/
def longLog : Node :=
  (((emptyNode.after wideSegment (.open' [] WAL_REC_MAX_SIZE)).after wideSegment
    (appendOf MSG_MAX_PAYLOAD)).after wideSegment (appendOf 8)).after wideSegment .sync

theorem longLog_reached :
    Reached wideSegment Node.counts longLog ∧ ∃ w, longLog.wal = some w ∧
      walDurableSeq w + 1 = walNextSeq w ∧ w.segBase = [1] ∧
      w.active.writeOff = WAL_REC_MAX_SIZE + 64 := by
  have payload (len : Nat) (positive : len ≠ 0) : List.replicate len (7 : UInt8) ≠ [] := by
    apply List.ne_nil_of_length_pos
    rw [List.length_replicate]
    exact Nat.pos_of_ne_zero positive
  have given (len : Nat) (same : (i32 (plainRec len).len).toNat = len) :
      (i32 (plainRec len).len).toNat ≤ (List.replicate len (7 : UInt8)).length := by
    rw [List.length_replicate, same]
  -- The log after the open and after each append.
  obtain ⟨report, opens⟩ := @walOpen_empty WAL_REC_MAX_SIZE wideSegment (Nat.le_refl _) (by decide)
    emptyNode.disk.os rfl rfl
  have opened : (emptyNode.after wideSegment (.open' [] WAL_REC_MAX_SIZE)).wal =
      some (openedWal wideSegment [] ⟨1, []⟩) := by
    simp only [Node.after, Node.perform, opens]
  have long := given MSG_MAX_PAYLOAD (by decide +kernel)
  have short := given 8 (by decide +kernel)
  have longSize : walRecSize (i32 (plainRec MSG_MAX_PAYLOAD).len) = WAL_REC_MAX_SIZE := by
    decide +kernel
  have shortSize : walRecSize (i32 (plainRec 8).len) = 64 := by decide +kernel
  obtain ⟨w1, opened1, grown1⟩ := @append_grows wideSegment WAL_REC_MAX_SIZE
    WAL_REC_MAX_SIZE _ _ (plainRec MSG_MAX_PAYLOAD) _ opened 1 rfl
    (payload MSG_MAX_PAYLOAD (by decide)) long longSize (by decide) (Nat.le_refl _) (by decide)
    (by decide)
  have off1 : w1.active.writeOff = WAL_REC_MAX_SIZE := grown1.writeOff.trans (Nat.zero_add _)
  have next1 : w1.active.nextSeq = 2 := grown1.nextSeq
  have capacity1 : w1.active.capacity = wideSegment := grown1.capacity
  have segCapacity1 : w1.segCapacity = wideSegment := grown1.segCapacity
  obtain ⟨w2, opened2, grown2⟩ := @append_grows wideSegment WAL_REC_MAX_SIZE
    64 _ _ (plainRec 8) _ opened1 1 grown1.fd (payload 8 (by decide)) short
    shortSize (by decide) (by decide) (by rw [segCapacity1]; decide)
    (by rw [off1, capacity1]; decide)
  have off2 : w2.active.writeOff = WAL_REC_MAX_SIZE + 64 := by rw [grown2.writeOff, off1]
  have synced2 : w2.active.syncedOff = 0 := grown2.syncedOff.trans grown1.syncedOff
  have fd2 : w2.active.fd = some 1 := grown2.fd.trans grown1.fd
  have next2 : w2.active.nextSeq = 3 := by rw [grown2.nextSeq, next1]
  have unsynced : ¬ w2.active.syncedOff = w2.active.writeOff := by
    rw [synced2, off2]
    decide
  have first : Reached wideSegment Node.counts
      (emptyNode.after wideSegment (.open' [] WAL_REC_MAX_SIZE)) :=
    Runs.Reach.next (.start emptyNode_fresh) (.call (.open' [] WAL_REC_MAX_SIZE)) trivial
      (.call ⟨rfl, List.Perm.nil, Nat.le_refl _⟩)
  have second := @Reached.append _ WAL_REC_MAX_SIZE _ _ _ _ first opened long (by decide)
  have third := @Reached.append _ WAL_REC_MAX_SIZE _ _ _ _ second opened1 short
    (by rw [next1]; decide)
  have fourth : Reached wideSegment Node.counts longLog :=
    Runs.Reach.next third (.call .sync) trivial (.call (by
      intro none
      exact absurd (opened2.symm.trans none) (Option.some_ne_none w2)))
  refine ⟨fourth, _, sync_flushes opened2 fd2 unsynced, ?_, ?_, off2⟩
  · unfold walDurableSeq walNextSeq
    simp only [next2]
  · exact grown2.table.trans grown1.table

/-- The smaller size leaves the second record out, and the open does not say so. -/
theorem segment_size_loses :
    ¬ ∀ (capacity capacity' : Nat) (node : Node) (w : Wal), Reached capacity Node.counts node →
      node.wal = some w → walDurableSeq w + 1 = walNextSeq w → WAL_REC_MAX_SIZE ≤ capacity' →
        ResizeKeeps capacity' (node.after capacity .close).disk w := by
  intro always
  obtain ⟨reached, w, opened, flushed, table, off⟩ := longLog_reached
  have keeps := always wideSegment WAL_REC_MAX_SIZE longLog w reached opened flushed (Nat.le_refl _)
  obtain ⟨front, last, log, few, closed⟩ := reached.segments opened
  rw [closed] at keeps
  refine resize_loses log (by decide) few ?_ keeps
  have beyond : ¬ WAL_REC_MAX_SIZE + 64 ≤ WAL_REC_MAX_SIZE := by omega
  rw [Wal.resizes, off, table, decide_eq_false beyond]
  rfl

end Msgsrvd

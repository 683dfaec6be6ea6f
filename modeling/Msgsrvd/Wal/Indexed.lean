/-
What the key index knows of a log's records, and what retention has deleted.

The index is fed by the recovery scan and by appends, and never forgets while the log
is open.  Between two opens a key's first entry is at or below every record of the key
that was in the log since the first of them; what was deleted earlier it does not know.
-/

import Msgsrvd.Wal.Names

namespace Msgsrvd

open Bytestring

/-! ### The index -/

/-- A reader of this key from earlier on starts no later than this sequence: the key is
known from here or before, or the table has no room for it. -/
def WalIndex.Sees (ix : WalIndex) (seq key : Nat) : Prop :=
  (∃ k, ix.keys.find? (fun k => k.key = key) = some k ∧ k.first ≤ seq) ∨
    (ix.keys.find? (fun k => k.key = key) = none ∧ WAL_INDEX_KEYS ≤ ix.keys.length)

/-- No key begins at this sequence or later. -/
def WalIndex.Below (ix : WalIndex) (next : Nat) : Prop := ∀ k ∈ ix.keys, k.first < next

theorem walIndexBump_length (key seq : Nat) (keys : List WalIndexKey) :
    (walIndexBump key seq keys).length = keys.length := by
  induction keys with
  | nil => rfl
  | cons k rest ih =>
      unfold walIndexBump
      split
      · rfl
      · rw [List.length_cons, List.length_cons, ih]

/-- A bump moves no key and no first sequence. -/
theorem walIndexBump_find (key seq wanted : Nat) (keys : List WalIndexKey) :
    ((walIndexBump key seq keys).find? (fun k => k.key = wanted)).map WalIndexKey.first =
      (keys.find? (fun k => k.key = wanted)).map WalIndexKey.first := by
  induction keys with
  | nil => rfl
  | cons k rest ih =>
      unfold walIndexBump
      split
      · simp only [List.find?_cons]
        by_cases same : k.key = wanted
        · simp only [same, decide_true, Option.map_some]
        · simp only [same, decide_false]
      · simp only [List.find?_cons]
        by_cases same : k.key = wanted
        · simp only [same, decide_true]
        · simp only [same, decide_false]
          exact ih

theorem walIndexBump_firsts (key seq : Nat) (keys : List WalIndexKey) :
    (walIndexBump key seq keys).map WalIndexKey.first = keys.map WalIndexKey.first := by
  induction keys with
  | nil => rfl
  | cons k rest ih =>
      unfold walIndexBump
      split
      · rfl
      · rw [List.map_cons, List.map_cons, ih]

theorem find_some_of_map {keys keys' : List WalIndexKey} {key : Nat} {k : WalIndexKey}
    (same : (keys'.find? (fun k => k.key = key)).map WalIndexKey.first =
      (keys.find? (fun k => k.key = key)).map WalIndexKey.first)
    (found : keys.find? (fun k => k.key = key) = some k) :
    ∃ k', keys'.find? (fun k => k.key = key) = some k' ∧ k'.first = k.first := by
  rw [found, Option.map_some, Option.map_eq_some_iff] at same
  exact same

/-- What the index sees it keeps seeing. -/
theorem WalIndex.Sees.add {ix : WalIndex} {seq key : Nat} (sees : ix.Sees seq key) (r : WalRec) :
    (walIndexAdd ix r).Sees seq key := by
  unfold walIndexAdd
  split
  · exact sees
  · split
    · -- The record's key is known: a bump.
      rcases sees with ⟨k, found, low⟩ | ⟨absent, full⟩
      · obtain ⟨k', found', first⟩ :=
          find_some_of_map (walIndexBump_find r.partitionKey r.seq key ix.keys) found
        exact Or.inl ⟨k', found', by rw [first]; exact low⟩
      · right
        have same := walIndexBump_find r.partitionKey r.seq key ix.keys
        rw [absent, Option.map_none, Option.map_eq_none_iff] at same
        exact ⟨same, by rw [walIndexBump_length]; exact full⟩
    · split
      · exact sees
      · rename_i room
        rcases sees with ⟨k, found, low⟩ | ⟨_, full⟩
        · left
          refine ⟨k, ?_, low⟩
          rw [List.find?_append, found]
          rfl
        · omega

/-- A new record is seen where it stands. -/
theorem walIndexAdd_sees {ix : WalIndex} {r : WalRec} (low : r.seq ≠ 0)
    (below : ix.Below r.seq) : (walIndexAdd ix r).Sees r.seq r.partitionKey := by
  unfold walIndexAdd
  rw [if_neg low]
  split
  · rename_i k found
    obtain ⟨k', found', first⟩ :=
      find_some_of_map (walIndexBump_find r.partitionKey r.seq r.partitionKey ix.keys) found
    have less := below k (List.mem_of_find?_eq_some found)
    exact Or.inl ⟨k', found', by omega⟩
  · rename_i absent
    split
    · rename_i full
      exact Or.inr ⟨absent, full⟩
    · left
      refine ⟨⟨r.partitionKey, r.seq, r.seq, 1⟩, ?_, Nat.le_refl _⟩
      rw [List.find?_append, absent]
      simp only [List.find?_cons, decide_true, Option.none_or]

theorem walIndexAdd_below {ix : WalIndex} {r : WalRec} {next : Nat} (below : ix.Below next)
    (less : r.seq < next) : (walIndexAdd ix r).Below next := by
  unfold walIndexAdd
  split
  · exact below
  · split
    · intro k present
      have listed : k.first ∈ (walIndexBump r.partitionKey r.seq ix.keys).map WalIndexKey.first :=
        List.mem_map_of_mem present
      rw [walIndexBump_firsts, List.mem_map] at listed
      obtain ⟨k', present', same⟩ := listed
      have bound := below k' present'
      omega
    · split
      · exact below
      · intro k present
        rcases List.mem_append.mp present with old | new
        · exact below k old
        · rw [List.mem_singleton.mp new]
          exact less

/-- A rebuilt index sees every record it was fed. -/
theorem foldl_walIndexAdd {base : Nat} {recs : List Bytes} (are : IsRecs base recs)
    {ix : WalIndex} (below : ix.Below base) :
    ((headers recs).foldl walIndexAdd ix).Below (base + recs.length) ∧
      (∀ seq key, ix.Sees seq key → ((headers recs).foldl walIndexAdd ix).Sees seq key) ∧
      ∀ r ∈ headers recs, ((headers recs).foldl walIndexAdd ix).Sees r.seq r.partitionKey := by
  induction recs generalizing base ix with
  | nil => exact ⟨below, fun _ _ sees => sees, fun r none => by cases none⟩
  | cons bytes rest ih =>
      obtain ⟨r, decoded, shape⟩ := headers_cons are.1 rest
      have at_base : r.seq = base ∧ base ≠ 0 := by
        obtain ⟨r', decoded', seq, low, _⟩ := are.1
        rw [decoded] at decoded'
        cases decoded'
        exact ⟨seq, low⟩
      have grown : (walIndexAdd ix r).Below (base + 1) :=
        walIndexAdd_below (fun k present => Nat.lt_succ_of_lt (below k present)) (by omega)
      obtain ⟨below', keeps, sees⟩ := ih are.2 grown
      rw [shape, List.foldl_cons, List.length_cons]
      refine ⟨?_, fun seq key known => keeps seq key (known.add r), ?_⟩
      · rw [Nat.add_right_comm, Nat.add_assoc] at below'
        exact below'
      · intro r' present
        rcases List.mem_cons.mp present with same | later
        · rw [same]
          refine keeps _ _ (walIndexAdd_sees ?_ ?_)
          · rw [at_base.1]
            exact at_base.2
          · rw [at_base.1]
            exact below
        · exact sees r' later

/-! ### The story of a log -/

structure Story where
  node : Node
  /-- the log's records when it was last open -/
  live : List (Nat × Bytes)
  /-- deleted by retention before the log was last opened -/
  earlier : List (Nat × Bytes)
  /-- deleted by retention since -/
  since : List (Nat × Bytes)

def Story.gone (story : Story) : List (Nat × Bytes) := story.earlier ++ story.since

/-- What a log that begins where this one does no longer holds. -/
def Story.deleted (story : Story) (w : Wal) : List (Nat × Bytes) :=
  story.live.filter (fun p => p.1 < walFirstSeq w)

def WalEvent.reopens : WalEvent → Bool
  | .call (.open' _ _) => true
  | _ => false

def Story.follow (story : Story) (event : WalEvent) (node : Node) : Story :=
  match node.wal with
  | none => { story with node := node }
  | some w =>
      { node := node
        live := walRecords node.disk w
        earlier :=
          if event.reopens then story.earlier ++ story.since ++ story.deleted w else story.earlier
        since := if event.reopens then [] else story.since ++ story.deleted w }

/-- An empty directory. -/
def Story.fresh (story : Story) : Prop :=
  story.node.fresh ∧ story.live = [] ∧ story.earlier = [] ∧ story.since = []

/-- Numbers stay within their width. -/
def Node.narrow (node : Node) (event : WalEvent) : Prop :=
  node.counts event ∧
    match event with
    | .call (.append r _ _) => r.partitionKey < 2 ^ 64
    | _ => True

/-! ### How a call feeds the index -/

section Log

variable {capacity : Nat} {disk disk' : Disk} {w w' : Wal} {front : List SegView} {last : SegView}

theorem LogAt.first_mem (log : LogAt capacity disk w front last) : walFirstSeq w ∈ disk.dir := by
  rw [log.named]
  unfold walFirstSeq
  cases table : w.segBase with
  | nil =>
      rw [log.table, List.map_append] at table
      exact absurd table (List.append_ne_nil_of_right_ne_nil _ (List.cons_ne_nil _ _))
  | cons base rest => exact List.mem_cons_self ..

theorem LogAt.first_head (log : LogAt capacity disk w front last) {first : Nat}
    (joined : Joined first (front ++ [last])) : walFirstSeq w = first := by
  unfold walFirstSeq
  rw [log.table]
  cases front with
  | nil => exact joined.1
  | cons v rest => exact joined.1

theorem LogAt.first_le_base (log : LogAt capacity disk w front last) {base : Nat}
    (present : base ∈ disk.dir) : walFirstSeq w ≤ base := by
  obtain ⟨first, _positive, joined⟩ := log.joined
  rw [log.named, log.table, List.mem_map] at present
  obtain ⟨v, member, same⟩ := present
  rw [log.first_head joined, ← same]
  exact (joined.bounds.1 v member).1

/-- What a call did to the index and the records. -/
inductive Indexes (disk disk' : Disk) (w w' : Wal) : Prop where
  | still (index : w'.index = w.index) (next : walNextSeq w' = walNextSeq w)
      (records : ∀ p ∈ walRecords disk' w', p ∈ walRecords disk w)
  | added (out : WalRec) (index : w'.index = walIndexAdd w.index out)
      (seq : out.seq = walNextSeq w) (next : walNextSeq w' = walNextSeq w + 1)
      (records : ∀ p ∈ walRecords disk' w', p ∈ walRecords disk w ∨
        p.1 = out.seq ∧ ∀ r, walRecDecode p.2 = some r → r.partitionKey = out.partitionKey)

theorem Contains.of_push {bytes : Bytes} {seq : Nat} {found : Bytes}
    (known : Contains (front ++ [⟨last.base, last.recs ++ [bytes]⟩]) seq found) :
    Contains (front ++ [last]) seq found ∨ seq = last.next ∧ found = bytes := by
  obtain ⟨v, member, index, at_seq, at_index⟩ := known
  rcases List.mem_append.mp member with early | atLast
  · exact Or.inl ⟨v, List.mem_append_left _ early, index, at_seq, at_index⟩
  · rw [List.mem_singleton.mp atLast] at at_seq at_index
    simp only at at_seq at_index
    by_cases inside : index < last.recs.length
    · rw [List.getElem?_append_left inside] at at_index
      exact Or.inl ⟨last, List.mem_append_right _ (List.mem_cons_self ..), index, at_seq,
        at_index⟩
    · rw [List.getElem?_append_right (by omega)] at at_index
      right
      cases offset : index - last.recs.length with
      | zero =>
          rw [offset] at at_index
          refine ⟨?_, (Option.some.inj at_index).symm⟩
          unfold SegView.next
          omega
      | succ more =>
          rw [offset] at at_index
          cases at_index

theorem walRecEncode_key {bufLen : Nat} {r out : WalRec} {payload bytes : Bytes}
    (given : (i32 r.len).toNat ≤ payload.length) (narrow : r.partitionKey < 2 ^ 64)
    (encoded : walRecEncode bufLen r payload = some (bytes, out)) :
    out.seq = r.seq ∧ ∀ r', walRecDecode bytes = some r' → r'.partitionKey = out.partitionKey := by
  obtain ⟨body, shape, _size, fields⟩ := walRecEncode_shape given encoded
  refine ⟨by rw [fields], ?_⟩
  intro r' decoded
  rw [shape, walRecDecode_header] at decoded
  cases decoded
  have key : out.partitionKey = r.partitionKey := by rw [fields]
  change out.partitionKey % 256 ^ 8 = out.partitionKey
  rw [key]
  exact Nat.mod_eq_of_lt narrow

theorem Pushed.fed {os : Os} (log : LogAt capacity os.disk w front last) {r : WalRec}
    {payload : Bytes} {scratchLen : Nat} {res : Except Err WalRec × Wal × Os}
    (pushed : Pushed os w last r payload scratchLen res)
    (given : (i32 r.len).toNat ≤ payload.length) (narrow : r.partitionKey < 2 ^ 64) :
    Indexes os.disk res.2.2.disk w res.2.1 ∧ res.2.1.segBase = w.segBase ∧
      ∃ last', LogAt capacity res.2.2.disk res.2.1 front last' := by
  cases pushed with
  | refused e => exact ⟨.still rfl rfl (fun _ present => present), rfl, last, log⟩
  | @written out bytes encoded is fits =>
      rw [log.segCapacity] at fits
      have log' := log.pushed is fits out
      obtain ⟨seq, key⟩ := @walRecEncode_key scratchLen { r with seq := last.next } out payload
        bytes given narrow encoded
      refine ⟨.added out rfl (by rw [seq]; exact log.nextSeq.symm) rfl ?_, rfl, _, log'⟩
      intro p present
      simp only [Os.land] at present
      rw [log'.records] at present
      rw [log.records]
      rcases present.of_push with old | ⟨at_next, same⟩
      · exact Or.inl old
      · right
        rw [seq, same]
        exact ⟨at_next, key⟩

/-- **An append feeds the index its record**, or changes neither. -/
theorem append_fed {os : Os} (log : LogAt capacity os.disk w front last) {r : WalRec}
    {payload : Bytes} {scratchLen : Nat} {res : Except Err WalRec × Wal × Os}
    (appended : Appended os w last r payload scratchLen res)
    (given : (i32 r.len).toNat ≤ payload.length) (narrow : r.partitionKey < 2 ^ 64) :
    Indexes os.disk res.2.2.disk w res.2.1 ∧ walFirstSeq res.2.1 = walFirstSeq w ∧
      ∃ front' last', LogAt capacity res.2.2.disk res.2.1 front' last' := by
  cases appended with
  | here fits pushed =>
      obtain ⟨fed, table, last', log'⟩ := pushed.fed log given narrow
      refine ⟨fed, ?_, front, last', log'⟩
      unfold walFirstSeq
      rw [table]
  | refused e stays => exact ⟨.still rfl rfl (fun _ present => present), rfl, front, last, log⟩
  | next past some' room pushed =>
      have rolled := log.rolled some'
      obtain ⟨fed, table, last', log'⟩ :=
        pushed.fed (show LogAt capacity (os.rolled w).disk _ _ _ from rolled) given narrow
      have records (p : Nat × Bytes) (present : p ∈ walRecords (os.rolled w).disk w.rolled) :
          p ∈ walRecords os.disk w := by
        rw [show p ∈ walRecords (os.rolled w).disk w.rolled ↔ _ from rolled.records p] at present
        rw [log.records]
        obtain ⟨v, member, index, at_seq, at_index⟩ := present
        rcases List.mem_append.mp member with early | atLast
        · exact ⟨v, early, index, at_seq, at_index⟩
        · rw [List.mem_singleton.mp atLast] at at_index
          cases at_index
      refine ⟨?_, ?_, _, last', log'⟩
      · cases fed with
        | still index next kept => exact .still index next (fun p present => records p (kept p present))
        | added out index seq next kept =>
            exact .added out index seq next (fun p present => (kept p present).imp_left (records p))
      · unfold walFirstSeq
        rw [table]
        change (w.segBase ++ [w.active.nextSeq]).headD 0 = w.segBase.headD 0
        cases given' : w.segBase with
        | nil =>
            rw [log.table, List.map_append] at given'
            exact absurd given' (List.append_ne_nil_of_right_ne_nil _ (List.cons_ne_nil _ _))
        | cons base rest => rfl

end Log

/-! ### Opening rebuilds the index -/

theorem Joined.records {first : Nat} {views : List SegView} (joined : Joined first views)
    (are : ∀ v ∈ views, IsRecs v.base v.recs) :
    IsRecs first (recordsOf views) ∧ first + (recordsOf views).length = endOf first views := by
  induction views generalizing first with
  | nil => exact ⟨trivial, rfl⟩
  | cons v rest ih =>
      obtain ⟨base, later⟩ := joined
      obtain ⟨tail, ends⟩ := ih later (fun v' inRest => are v' (List.mem_cons_of_mem _ inRest))
      have head := are v (List.mem_cons_self ..)
      rw [base] at head
      have next : v.next = first + v.recs.length := by
        rw [SegView.next, base]
      refine ⟨?_, ?_⟩
      · unfold recordsOf at tail ⊢
        rw [List.flatMap_cons]
        refine head.append ?_
        rw [← next]
        exact tail
      · unfold recordsOf at ends ⊢
        rw [List.flatMap_cons, List.length_append, ← Nat.add_assoc, ← next]
        exact ends

section Stories

variable {capacity : Nat}

/-- What a successful open makes of a directory. -/
theorem open_performed {node : Node} (live : Live capacity node) {listing : List Nat}
    {scratchLen : Nat} (legal : node.legal (.open' listing scratchLen)) {w : Wal}
    (opened : (node.perform capacity (.open' listing scratchLen)).1 = some w) :
    ∃ front last, w = openedWal capacity front last ∧
      LogAt capacity (node.perform capacity (.open' listing scratchLen)).2.disk w front last := by
  obtain ⟨_closed, listed, scratch⟩ := legal
  simp only [Node.perform] at opened ⊢
  cases opens : walOpen node.disk.os listing capacity scratchLen with
  | mk res os' =>
      rw [opens] at opened
      cases res with
      | error e => cases opened
      | ok found =>
          obtain ⟨info, w', recs⟩ := found
          cases opened
          obtain ⟨header, either⟩ := @walOpen_ok scratchLen capacity scratch node.disk.os rfl
            live.1.2 listing listed info w recs os' opens
          rcases either with empty | ⟨front, last, reason, fit⟩
          · have empty : node.disk.dir = [] := empty
            rw [empty, List.perm_nil] at listed
            subst listed
            obtain ⟨report, created⟩ := walOpen_empty scratch header
              (show node.disk.os.script = [] from rfl) empty
            rw [created] at opens
            cases opens
            refine ⟨[], ⟨1, []⟩, rfl, @Openable.log capacity _ _ _ .clean ?_ header⟩
            refine created_openable ?_ ?_
            · change (node.disk.created 1 capacity).dir = [1]
              rw [Disk.dir_created, empty]
              rfl
            · change ∀ byte ∈ ((node.disk.created 1 capacity).file 1).vol, byte = 0
              rw [Disk.file_created_same]
              exact fun byte present => List.eq_of_mem_replicate present
          · obtain ⟨report, final, reads, _torn, found⟩ := @walOpen_openable scratchLen capacity
              scratch header node.disk.os rfl front last reason fit listing listed
            rw [found] at opens
            cases opens
            refine ⟨front, last, rfl, ?_⟩
            rw [show os'.disk = node.disk from reads.disk]
            exact fit.log header

/-- Opening a directory with segments writes nothing to it. -/
theorem open_disk {node : Node} {listing : List Nat} {scratchLen : Nat}
    (legal : node.legal (.open' listing scratchLen)) (given : node.disk.dir ≠ []) :
    (node.perform capacity (.open' listing scratchLen)).2.disk = node.disk := by
  obtain ⟨_closed, listed, scratch⟩ := legal
  have reads := @walOpen_reads capacity _ scratch node.disk.os rfl _ listed given
  rw [← show (walOpen node.disk.os listing capacity scratchLen).2.disk = node.disk from reads.disk]
  simp only [Node.perform]
  cases walOpen node.disk.os listing capacity scratchLen with
  | mk res os' =>
      cases res with
      | error e => rfl
      | ok found => rfl

/-- An open that fails leaves the names. -/
theorem open_refused {node : Node} {listing : List Nat} {scratchLen : Nat}
    (legal : node.legal (.open' listing scratchLen))
    (refused : (node.after capacity (.open' listing scratchLen)).wal = none) :
    (node.after capacity (.open' listing scratchLen)).disk.dir = node.disk.dir := by
  by_cases empty : node.disk.dir = []
  · obtain ⟨_closed, listed, scratch⟩ := legal
    rw [empty, List.perm_nil] at listed
    subst listed
    unfold Node.after at refused ⊢
    simp only [Node.perform] at refused ⊢
    by_cases header : WAL_REC_HEADER_SIZE ≤ capacity
    · obtain ⟨report, opened⟩ := walOpen_empty scratch header
        (show node.disk.os.script = [] from rfl) empty
      rw [opened] at refused
      cases refused
    · have fails : walOpen node.disk.os [] capacity scratchLen =
          (.error ⟨.invalid, 0⟩, node.disk.os) := by
        unfold walOpen
        rw [if_pos (Or.inl (by omega))]
      rw [fails]
      rfl
  · exact congrArg Disk.dir (open_disk legal empty)

/-- A rebuilt index sees what the log still holds. -/
theorem opened_sees {disk : Disk} {front : List SegView} {last : SegView}
    (log : LogAt capacity disk (openedWal capacity front last) front last) :
    (openedWal capacity front last).index.Below last.next ∧
      ∀ p ∈ walRecords disk (openedWal capacity front last), ∀ r, walRecDecode p.2 = some r →
        (openedWal capacity front last).index.Sees p.1 r.partitionKey := by
  obtain ⟨first, positive, joined⟩ := log.joined
  obtain ⟨are, ends⟩ := joined.records (fun v present => (log.stored v present).1)
  have empty : walIndexInit.Below first := by
    intro k none
    cases none
  obtain ⟨below, _keeps, sees⟩ := foldl_walIndexAdd are empty
  constructor
  · rw [ends, endOf_append] at below
    exact below
  · intro p present r decoded
    rw [log.records] at present
    obtain ⟨r', listed, decoded', seq⟩ := log.returned present
    rw [decoded] at decoded'
    cases decoded'
    rw [← seq]
    exact sees r listed

/-! ### The invariant -/

/-- What an open log's index knows. -/
structure Indexed (story : Story) (w : Wal) : Prop where
  below : w.index.Below (walNextSeq w)
  same : story.live = walRecords story.node.disk w
  sees : ∀ p ∈ story.live ++ story.since, ∀ r, walRecDecode p.2 = some r →
    w.index.Sees p.1 r.partitionKey

structure StoryInv (capacity : Nat) (story : Story) : Prop where
  live : Live capacity story.node
  low : ∀ p ∈ story.gone, ∀ base ∈ story.node.disk.dir, p.1 < base
  empty : story.node.disk.dir = [] → story.gone = []
  opened : ∀ w, story.node.wal = some w → Indexed story w

theorem StoryInv.fresh {story : Story} (fresh : story.fresh) : StoryInv capacity story := by
  obtain ⟨⟨closed, empty, settled, _owed, _durable⟩, _live, earlier, since⟩ := fresh
  have none : story.gone = [] := by
    rw [Story.gone, earlier, since]
    rfl
  refine ⟨⟨⟨settled, ?_⟩, ?_⟩, ?_, fun _ => none, ?_⟩
  · rw [empty]
    exact List.Pairwise.nil
  · intro w opened
    rw [closed] at opened
    cases opened
  · intro p present
    rw [none] at present
    cases present
  · intro w opened
    rw [closed] at opened
    cases opened

/-- What was deleted lies below a log that begins no earlier. -/
theorem low_moves {story : Story} {disk' : Disk} {w' : Wal} {front' : List SegView}
    {last' : SegView} (log' : LogAt capacity disk' w' front' last')
    (low : ∀ p ∈ story.gone, p.1 < walFirstSeq w') :
    ∀ p ∈ story.gone ++ story.deleted w', ∀ base ∈ disk'.dir, p.1 < base := by
  intro p present base named
  have first := log'.first_le_base named
  rcases List.mem_append.mp present with old | new
  · have bound := low p old
    omega
  · have bound := of_decide_eq_true (List.mem_filter.mp new).2
    omega

/-- A call on the open log keeps what the index knows. -/
theorem StoryInv.fed {story : Story} {w w' : Wal} {node' : Node} {event : WalEvent}
    {front' : List SegView} {last' : SegView} (inv : StoryInv capacity story)
    (opened : story.node.wal = some w) (stays : event.reopens = false)
    (opened' : node'.wal = some w') (live' : Live capacity node')
    (log' : LogAt capacity node'.disk w' front' last')
    (first : walFirstSeq w ≤ walFirstSeq w') (fed : Indexes story.node.disk node'.disk w w') :
    StoryInv capacity (story.follow event node') := by
  obtain ⟨front, last, log⟩ := inv.live.2 w opened
  obtain ⟨below, same, sees⟩ := inv.opened w opened
  have low (p : Nat × Bytes) (present : p ∈ story.gone) : p.1 < walFirstSeq w' :=
    Nat.lt_of_lt_of_le (inv.low p present _ log.first_mem) first
  have known (p : Nat × Bytes) (present : p ∈ walRecords story.node.disk w ++
      (story.since ++ story.deleted w')) : p ∈ story.live ++ story.since := by
    rcases List.mem_append.mp present with old | gone
    · rw [same]
      exact List.mem_append_left _ old
    · rcases List.mem_append.mp gone with before | now
      · exact List.mem_append_right _ before
      · exact List.mem_append_left _ (List.mem_filter.mp now).1
  unfold Story.follow
  simp only [opened', stays, Bool.false_eq_true, if_false]
  refine ⟨live', ?_, ?_, ?_⟩
  · have moved := low_moves log' low
    unfold Story.gone at moved ⊢
    rw [List.append_assoc] at moved
    exact moved
  · intro empty
    have named := log'.first_mem
    rw [empty] at named
    cases named
  · intro other running
    rw [opened'] at running
    cases running
    cases fed with
    | still index next records =>
        refine ⟨by rw [index, next]; exact below, rfl, ?_⟩
        intro p present r decoded
        rw [index]
        refine sees p (known p ?_) r decoded
        rcases List.mem_append.mp present with now | gone
        · exact List.mem_append_left _ (records p now)
        · exact List.mem_append_right _ gone
    | added out index seq next records =>
        have positive : out.seq ≠ 0 := by
          have bound := log.first_le
          have next := log.nextSeq
          rw [seq]
          unfold walNextSeq
          rw [next]
          unfold SegView.next
          omega
        refine ⟨?_, rfl, ?_⟩
        · rw [index, next]
          refine walIndexAdd_below (fun k present => Nat.lt_succ_of_lt (below k present)) ?_
          omega
        · intro p present r decoded
          rw [index]
          have old (listed : p ∈ story.live ++ story.since) := (sees p listed r decoded).add out
          rcases List.mem_append.mp present with now | gone
          · rcases records p now with before | ⟨at_end, key⟩
            · exact old (known p (List.mem_append_left _ before))
            · rw [at_end, key r decoded]
              exact walIndexAdd_sees positive (by rw [seq]; exact below)
          · exact old (known p (List.mem_append_right _ gone))

/-- Ending the process, or losing power, keeps what was deleted below the log. -/
theorem StoryInv.stopped {story : Story} {node' : Node} {event : WalEvent}
    (inv : StoryInv capacity story) (closed : node'.wal = none) (tidy : node'.disk.Tidy)
    (kept : NamesKept story.node.disk node'.disk) :
    StoryInv capacity (story.follow event node') := by
  unfold Story.follow
  rw [closed]
  refine ⟨⟨tidy, ?_⟩, ?_, ?_, ?_⟩
  · intro w opened
    rw [closed] at opened
    cases opened
  · intro p present base named
    rcases kept.each base named with old | above
    · exact inv.low p present base old
    · cases names : story.node.disk.dir with
      | nil =>
          have none : story.gone = [] := inv.empty names
          change p ∈ story.gone at present
          rw [none] at present
          cases present
      | cons other rest =>
          have listed : other ∈ story.node.disk.dir := by
            rw [names]
            exact List.mem_cons_self ..
          exact Nat.lt_trans (inv.low p present other listed) (above other listed)
  · intro empty
    exact inv.empty (kept.some empty)
  · intro w opened
    rw [closed] at opened
    cases opened

/-- A successful open knows every record the log holds, and what it lacks is below it. -/
theorem StoryInv.reopened {story : Story} {listing : List Nat} {scratchLen : Nat} {w : Wal}
    (inv : StoryInv capacity story) (legal : story.node.legal (.open' listing scratchLen))
    (opened : (story.node.after capacity (.open' listing scratchLen)).wal = some w) :
    StoryInv capacity (story.follow (.call (.open' listing scratchLen))
      (story.node.after capacity (.open' listing scratchLen))) := by
  have live' := (call_lives inv.live legal trivial).done
  obtain ⟨front, last, shape, log⟩ := open_performed inv.live legal opened
  have log : LogAt capacity (story.node.after capacity (.open' listing scratchLen)).disk w front
    last := log
  have low (p : Nat × Bytes) (present : p ∈ story.gone) : p.1 < walFirstSeq w := by
    by_cases empty : story.node.disk.dir = []
    · rw [inv.empty empty] at present
      cases present
    · refine inv.low p present _ ?_
      have same := @open_disk capacity _ _ _ legal empty
      have named := log.first_mem
      rw [show (story.node.after capacity (.open' listing scratchLen)).disk = _ from same] at named
      exact named
  unfold Story.follow
  rw [opened]
  refine ⟨live', ?_, ?_, ?_⟩
  · have moved := low_moves log low
    simp only [WalEvent.reopens, if_true, Story.gone, List.append_nil]
    exact moved
  · intro empty
    have named := log.first_mem
    rw [empty] at named
    cases named
  · intro w' running
    have same : w' = w := by
      rw [opened] at running
      exact (Option.some.inj running).symm
    subst same
    subst shape
    obtain ⟨below, sees⟩ := opened_sees log
    refine ⟨?_, rfl, ?_⟩
    · rw [walNextSeq, log.nextSeq]
      exact below
    · simp only [WalEvent.reopens, if_true, List.append_nil]
      exact sees

/-- **What the index knows is kept by every step.** -/
theorem StoryInv.step {story : Story} {event : WalEvent} {node' : Node}
    (inv : StoryInv capacity story) (narrow : story.node.narrow event)
    (moves : WalStep capacity story.node event node') :
    StoryInv capacity (story.follow event node') := by
  obtain ⟨live, low, empty, knows⟩ := id inv
  cases moves with
  | kill => exact inv.stopped rfl live.1 (.same rfl)
  | idleLoss crashed =>
      exact inv.stopped rfl (live.1.survives rfl live.1.1 _ crashed)
        (.same (crashed.dir_settled live.1.1))
  | @callLoss call stage left legal interrupted crashed =>
      have counts : story.node.counts (.call call) := by
        cases call with
        | append r payload scratchLen => exact narrow.1
        | open' listing scratchLen => trivial
        | sync => trivial
        | retain keepFrom => trivial
        | close => trivial
      rcases List.mem_cons.mp interrupted with first | later
      · subst first
        exact inv.stopped rfl (live.1.survives rfl live.1.1 _ crashed)
          (.same (crashed.dir_settled live.1.1))
      · exact inv.stopped rfl ((call_lives live legal counts).stages stage later _ crashed)
          (call_names live legal counts later crashed)
  | @call call legal =>
      have live' := (call_lives live legal narrow.1).done
      cases call with
      | open' listing scratchLen =>
          cases opened : (story.node.after capacity (.open' listing scratchLen)).wal with
          | some w => exact inv.reopened legal opened
          | none =>
              refine inv.stopped opened live'.1 (.same ?_)
              exact open_refused legal opened
      | append r payload scratchLen =>
          obtain ⟨running, given⟩ := legal
          cases opened : story.node.wal with
          | none => exact absurd opened running
          | some w =>
              obtain ⟨front, last, log⟩ := live.2 w opened
              have low := narrow.1 w opened
              rw [log.nextSeq] at low
              have appended := walAppend_log (show story.node.disk.os.script = [] from rfl) log
                given low scratchLen
              obtain ⟨fed, first, front', last', log'⟩ := append_fed log appended given narrow.2
              have ran : story.node.perform capacity (.append r payload scratchLen) =
                  (some (walAppend story.node.disk.os w r payload scratchLen).2.1,
                    (walAppend story.node.disk.os w r payload scratchLen).2.2) := by
                simp only [Node.perform, opened]
              have disk' : (story.node.after capacity (.append r payload scratchLen)).disk =
                  (walAppend story.node.disk.os w r payload scratchLen).2.2.disk :=
                congrArg (fun done => done.2.disk) ran
              have log' : LogAt capacity
                  (story.node.after capacity (.append r payload scratchLen)).disk
                  (walAppend story.node.disk.os w r payload scratchLen).2.1 front' last' := by
                rw [disk']
                exact log'
              refine inv.fed opened rfl (congrArg Prod.fst ran) live' log'
                (Nat.le_of_eq first.symm) ?_
              rw [disk']
              exact fed
      | sync =>
          cases opened : story.node.wal with
          | none => exact absurd opened legal
          | some w =>
              obtain ⟨front, last, log⟩ := live.2 w opened
              have ran : story.node.perform capacity .sync =
                  (some w.synced, story.node.disk.os.synced w) := by
                simp only [Node.perform, opened,
                  walSync_log (show story.node.disk.os.script = [] from rfl) log]
              have disk' : (story.node.after capacity .sync).disk = story.node.disk.synced w := by
                unfold Node.after
                rw [ran]
                exact Os.synced_disk ..
              have log' : LogAt capacity (story.node.after capacity .sync).disk w.synced front
                  last := by
                rw [disk']
                exact log.synced
              refine inv.fed opened rfl (congrArg Prod.fst ran) live' log' (Nat.le_refl _)
                (.still rfl rfl ?_)
              intro p present
              rw [log'.records] at present
              rw [log.records]
              exact present
      | retain keepFrom =>
          cases opened : story.node.wal with
          | none => exact absurd opened legal
          | some w =>
              obtain ⟨front, last, log⟩ := live.2 w opened
              obtain ⟨removed, os', retained, _calm, log', _disk, _stages⟩ :=
                walRetain_log (show story.node.disk.os.script = [] from rfl) log keepFrom
              have ran : story.node.perform capacity (.retain keepFrom) =
                  (some { w with
                    segBase := w.segBase.drop (walRetainDrop keepFrom w.segBase) }, os') := by
                simp only [Node.perform, opened, retained]
              have disk' : (story.node.after capacity (.retain keepFrom)).disk = os'.disk :=
                congrArg (fun done => done.2.disk) ran
              have log' : LogAt capacity (story.node.after capacity (.retain keepFrom)).disk
                  { w with segBase := w.segBase.drop (walRetainDrop keepFrom w.segBase) }
                  (front.drop (walRetainDrop keepFrom w.segBase)) last := by
                rw [disk']
                exact log'
              refine inv.fed opened rfl (congrArg Prod.fst ran) live' log' ?_ (.still rfl rfl ?_)
              · have named := (log'.named _).mp log'.first_mem
                exact log.first_le_base ((log.named _).mpr (List.mem_of_mem_drop named))
              · intro p present
                rw [log'.records] at present
                rw [log.records]
                obtain ⟨v, member, found⟩ := present
                refine ⟨v, ?_, found⟩
                rcases List.mem_append.mp member with early | atLast
                · exact List.mem_append_left _ (List.mem_of_mem_drop early)
                · exact List.mem_append_right _ atLast
      | close =>
          cases opened : story.node.wal with
          | none => exact absurd opened legal
          | some w =>
              obtain ⟨front, last, log⟩ := live.2 w opened
              obtain ⟨none', disk', _stages⟩ := close_performed opened log
              exact inv.stopped none' live'.1 (.same (congrArg Disk.dir disk'))

end Stories

end Msgsrvd

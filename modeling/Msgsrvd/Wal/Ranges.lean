/-
What the bounds of the key index say of the whole log, over any calls and any failures.

A key's entry runs from its first record since the log was opened to its last, also where
retention deleted the first and where the last is not flushed.  Every record the log holds
of the key lies between the two, and a key without an entry has no record in the log
unless some record found no room.
-/

import Msgsrvd.Wal.Indexed
import Msgsrvd.Wal.Failed

namespace Msgsrvd

open Bytestring

/-! ### The end of an entry -/

/-- The key's entry ends no earlier than this sequence, or it is known that some keys have
no entry. -/
def WalIndex.Reaches (ix : WalIndex) (seq key : Nat) : Prop :=
  (∀ k, ix.keys.find? (fun k => k.key = key) = some k → seq ≤ k.last) ∧
    (ix.keys.find? (fun k => k.key = key) = none → ix.unknown ≠ 0)

theorem walIndexBump_same {key seq : Nat} {keys : List WalIndexKey} {k : WalIndexKey}
    (found : keys.find? (fun k => k.key = key) = some k) :
    (walIndexBump key seq keys).find? (fun k => k.key = key) =
      some { k with last := seq, count := k.count + 1 } := by
  induction keys with
  | nil => cases found
  | cons head rest ih =>
      unfold walIndexBump
      rw [List.find?_cons] at found
      by_cases same : head.key = key
      · simp only [same, decide_true, Option.some.injEq] at found
        rw [if_pos same, List.find?_cons]
        simp only [same, decide_true, ← found]
      · simp only [same, decide_false] at found
        rw [if_neg same, List.find?_cons]
        simp only [same, decide_false]
        exact ih found

theorem walIndexBump_other {key seq wanted : Nat} (differ : wanted ≠ key)
    (keys : List WalIndexKey) :
    (walIndexBump key seq keys).find? (fun k => k.key = wanted) =
      keys.find? (fun k => k.key = wanted) := by
  induction keys with
  | nil => rfl
  | cons head rest ih =>
      unfold walIndexBump
      by_cases same : head.key = key
      · rw [if_pos same, List.find?_cons, List.find?_cons]
        simp only [same, differ.symm, decide_false]
      · rw [if_neg same, List.find?_cons, List.find?_cons, ih]

/-- What a record changes of a key's entry: its end, if the key is the record's. -/
theorem walIndexAdd_entry {ix : WalIndex} {r : WalRec} (positive : r.seq ≠ 0) (key : Nat) :
    (key = r.partitionKey ∧ ∃ k, (walIndexAdd ix r).keys.find? (fun k => k.key = key) = some k ∧
        k.last = r.seq) ∨
      ((walIndexAdd ix r).keys.find? (fun k => k.key = key) = ix.keys.find? (fun k => k.key = key) ∧
        ix.unknown ≤ (walIndexAdd ix r).unknown ∧
        (key = r.partitionKey → ix.keys.find? (fun k => k.key = key) = none ∧
          (walIndexAdd ix r).unknown ≠ 0)) := by
  unfold walIndexAdd
  rw [if_neg positive]
  by_cases same : key = r.partitionKey
  · subst same
    split
    · rename_i k found
      exact Or.inl ⟨rfl, _, walIndexBump_same found, rfl⟩
    · rename_i absent
      split
      · exact Or.inr ⟨rfl, Nat.le_succ _, fun _ => ⟨absent, Nat.succ_ne_zero _⟩⟩
      · refine Or.inl ⟨rfl, ⟨r.partitionKey, r.seq, r.seq, 1⟩, ?_, rfl⟩
        rw [List.find?_append, absent]
        simp only [List.find?_cons, decide_true, Option.none_or]
  · refine Or.inr ⟨?_, ?_, fun is => absurd is same⟩
    · split
      · exact walIndexBump_other same _
      · split
        · rfl
        · rw [List.find?_append, List.find?_cons]
          simp only [Ne.symm same, decide_false, List.find?_nil, Option.or_none]
    · split
      · exact Nat.le_refl _
      · split
        · exact Nat.le_succ _
        · exact Nat.le_refl _

/-- A later record moves an entry's end past every earlier one. -/
theorem WalIndex.Reaches.add {ix : WalIndex} {seq key : Nat} (reaches : ix.Reaches seq key)
    {r : WalRec} (later : seq < r.seq) : (walIndexAdd ix r).Reaches seq key := by
  rcases @walIndexAdd_entry ix r (by omega) key with
    ⟨_same, k, found, last⟩ | ⟨kept, more, _new⟩
  · constructor
    · intro k' found'
      rw [found] at found'
      cases found'
      omega
    · intro absent
      rw [found] at absent
      cases absent
  · rw [WalIndex.Reaches, kept]
    refine ⟨reaches.1, fun absent => ?_⟩
    have known := reaches.2 absent
    omega

theorem walIndexAdd_reaches {ix : WalIndex} {r : WalRec} (positive : r.seq ≠ 0) :
    (walIndexAdd ix r).Reaches r.seq r.partitionKey := by
  rcases @walIndexAdd_entry ix r positive r.partitionKey with
    ⟨_same, k, found, last⟩ | ⟨kept, _more, new⟩
  · constructor
    · intro k' found'
      rw [found] at found'
      cases found'
      exact Nat.le_of_eq last.symm
    · intro absent
      rw [found] at absent
      cases absent
  · obtain ⟨absent, unknown⟩ := new rfl
    rw [WalIndex.Reaches, kept, absent]
    exact ⟨fun k none => (by cases none), fun _ => unknown⟩

/-- A rebuilt index reaches every record it was fed. -/
theorem foldl_reaches {base : Nat} {recs : List Bytes} (are : IsRecs base recs) (ix : WalIndex) :
    (∀ seq key, seq < base → ix.Reaches seq key →
        ((headers recs).foldl walIndexAdd ix).Reaches seq key) ∧
      ∀ r ∈ headers recs, ((headers recs).foldl walIndexAdd ix).Reaches r.seq r.partitionKey := by
  induction recs generalizing base ix with
  | nil => exact ⟨fun _ _ _ reaches => reaches, fun r none => by cases none⟩
  | cons bytes rest ih =>
      obtain ⟨r, decoded, shape⟩ := headers_cons are.1 rest
      obtain ⟨r', decoded', seq, low, _⟩ := are.1
      rw [decoded] at decoded'
      cases decoded'
      obtain ⟨keeps, reaches⟩ := ih are.2 (walIndexAdd ix r)
      rw [shape, List.foldl_cons]
      constructor
      · intro seq' key before known
        exact keeps seq' key (by omega) (known.add (by omega))
      · intro r' present
        rcases List.mem_cons.mp present with same | later
        · rw [same]
          exact keeps _ _ (by omega) (walIndexAdd_reaches (by omega))
        · exact reaches r' later

/-! ### The index of a log -/

/-- What an index knows of the records in these segments. -/
structure WalIndex.Knows (ix : WalIndex) (views : List SegView) (next : Nat) : Prop where
  below : ix.Below next
  sees : ∀ seq bytes, Contains views seq bytes → ∀ r, walRecDecode bytes = some r →
    ix.Sees seq r.partitionKey
  reaches : ∀ seq bytes, Contains views seq bytes → ∀ r, walRecDecode bytes = some r →
    ix.Reaches seq r.partitionKey

theorem WalIndex.Knows.fewer {ix : WalIndex} {views views' : List SegView} {next : Nat}
    (knows : ix.Knows views next)
    (fewer : ∀ seq bytes, Contains views' seq bytes → Contains views seq bytes) :
    ix.Knows views' next :=
  ⟨knows.below, fun seq bytes found => knows.sees seq bytes (fewer seq bytes found),
    fun seq bytes found => knows.reaches seq bytes (fewer seq bytes found)⟩

variable {os os' : Os} {disk : Disk} {w w' : Wal} {front : List SegView} {last : SegView}

theorem Holds.first_le (holds : Holds disk w front last) : 1 ≤ last.next := by
  obtain ⟨first, positive, joined⟩ := holds.joined
  have bound := (joined.bounds.1 last
    (List.mem_append_right _ (List.mem_singleton.mpr rfl))).1
  unfold SegView.next
  omega

theorem Holds.contains_lt (holds : Holds disk w front last) {seq : Nat} {bytes : Bytes}
    (found : Contains (front ++ [last]) seq bytes) : seq < last.next := by
  obtain ⟨first, _positive, joined⟩ := holds.joined
  have bound := (joined.within found).2
  rw [endOf_append] at bound
  exact bound

theorem Holds.knows_pushed (holds : Holds disk w front last) {ix : WalIndex}
    (knows : ix.Knows (front ++ [last]) last.next) {bytes : Bytes} {out : WalRec}
    (seq : out.seq = last.next)
    (key : ∀ r, walRecDecode bytes = some r → r.partitionKey = out.partitionKey) :
    (walIndexAdd ix out).Knows (front ++ [⟨last.base, last.recs ++ [bytes]⟩]) (last.next + 1) := by
  have positive : out.seq ≠ 0 := by
    have low := holds.first_le
    omega
  refine ⟨?_, ?_, ?_⟩
  · refine walIndexAdd_below (fun k present => Nat.lt_succ_of_lt (knows.below k present)) ?_
    omega
  · intro seq' bytes' found r decoded
    rcases found.of_push with old | ⟨at_next, same⟩
    · exact (knows.sees seq' bytes' old r decoded).add out
    · subst same
      rw [at_next, key r decoded, ← seq]
      exact walIndexAdd_sees positive (by rw [seq]; exact knows.below)
  · intro seq' bytes' found r decoded
    rcases found.of_push with old | ⟨at_next, same⟩
    · exact (knows.reaches seq' bytes' old r decoded).add (by rw [seq]; exact holds.contains_lt old)
    · subst same
      rw [at_next, key r decoded, ← seq]
      exact walIndexAdd_reaches positive

/-- An index rebuilt from these segments knows their records. -/
theorem Holds.knows_rebuilt (holds : Holds disk w front last) :
    ((headers (recordsOf (front ++ [last]))).foldl walIndexAdd walIndexInit).Knows
      (front ++ [last]) last.next := by
  obtain ⟨first, _positive, joined⟩ := holds.joined
  obtain ⟨are, ends⟩ := joined.records (fun v present => (holds.stored v present).1)
  have empty : walIndexInit.Below first := by
    intro k none
    cases none
  obtain ⟨below, _keeps, sees⟩ := foldl_walIndexAdd are empty
  obtain ⟨_kept, reaches⟩ := foldl_reaches are walIndexInit
  rw [ends, endOf_append] at below
  refine ⟨below, ?_, ?_⟩
  · intro seq bytes found r decoded
    obtain ⟨r', listed, decoded', at_seq⟩ := found.returned holds.stored
    rw [decoded] at decoded'
    cases decoded'
    rw [← at_seq]
    exact sees r listed
  · intro seq bytes found r decoded
    obtain ⟨r', listed, decoded', at_seq⟩ := found.returned holds.stored
    rw [decoded] at decoded'
    cases decoded'
    rw [← at_seq]
    exact reaches r listed

/-! ### Every call keeps it -/

/-- What an open log's files and index agree on. -/
structure Ranged (disk : Disk) (w : Wal) (front : List SegView) (last : SegView) : Prop where
  holds : Holds disk w front last
  knows : w.index.Knows (front ++ [last]) last.next

theorem Ranged.appendedActive (ranged : Ranged os.disk w front last) {res : Except Err WalRec}
    {r : WalRec} {payload : Bytes} {scratchLen : Nat}
    (given : (i32 r.len).toNat ≤ payload.length) (narrow : r.partitionKey < 2 ^ 64)
    (low : w.active.nextSeq < 2 ^ 64)
    (appends : walAppendActive os w r payload scratchLen = (res, w', os')) :
    ∃ last', Ranged os'.disk w' front last' := by
  obtain ⟨holds, knows⟩ := ranged
  have fed := (walAppendActive_beside appends).2
  rcases walAppendActive_either holds given low appends with
    ⟨e, failed, holds'⟩ | ⟨bytes, out, done, encoded, holds'⟩
  · subst failed
    refine ⟨last, holds', ?_⟩
    rw [fed]
    exact knows
  · subst done
    obtain ⟨seq, key⟩ := @walRecEncode_key scratchLen { r with seq := w.active.nextSeq } out
      payload bytes given narrow encoded
    refine ⟨_, holds', ?_⟩
    rw [fed, SegView.next_append]
    exact holds.knows_pushed knows (seq.trans holds.nextSeq) key

theorem Ranged.appended (ranged : Ranged os.disk w front last) {res : Except Err WalRec}
    {r : WalRec} {payload : Bytes} {scratchLen : Nat}
    (given : (i32 r.len).toNat ≤ payload.length) (narrow : r.partitionKey < 2 ^ 64)
    (low : w.active.nextSeq < 2 ^ 64)
    (appends : walAppend os w r payload scratchLen = (res, w', os')) :
    ∃ front' last', Ranged os'.disk w' front' last' := by
  have sound := ranged.holds.sound
  rcases walAppend_parts os w r payload scratchLen with
    ⟨rolls, fails, goes⟩ | ⟨_stays, _fits, same⟩ | ⟨_refuses, e, _code, same⟩
  · have nonempty := nonempty_of_unfit sound rolls
    cases rolled : walRollover os w with
    | mk done rest =>
        obtain ⟨w1, os1⟩ := rest
        have next := (walRollover_beside rolled).1
        have either := walRollover_either ranged.holds nonempty rolled
        cases done with
        | error e =>
            rw [fails e w1 os1 rolled] at appends
            cases appends
            rcases either with ⟨_e, _failed, holds'⟩ | ⟨ok, _holds⟩
            · exact ⟨front, last, holds', by rw [next]; exact ranged.knows⟩
            · cases ok
        | ok done =>
            rw [goes w1 os1 rolled] at appends
            rcases either with ⟨_e, failed, _holds⟩ | ⟨_ok, holds'⟩
            · cases failed
            · have kept : w1.active.nextSeq = w.active.nextSeq :=
                (walRollover_sound sound nonempty rolled).next
              have knows' : w1.index.Knows ((front ++ [last]) ++ [⟨last.next, []⟩])
                  (⟨last.next, []⟩ : SegView).next := by
                rw [next]
                refine ranged.knows.fewer ?_
                rintro seq bytes ⟨v, member, index, at_seq, at_index⟩
                rcases List.mem_append.mp member with early | atLast
                · exact ⟨v, early, index, at_seq, at_index⟩
                · rw [List.mem_singleton.mp atLast] at at_index
                  cases at_index
              obtain ⟨last', ranged'⟩ := Ranged.appendedActive ⟨holds', knows'⟩ given narrow
                (by rw [kept]; exact low) appends
              exact ⟨_, last', ranged'⟩
  · rw [same] at appends
    exact ⟨front, ranged.appendedActive given narrow low appends⟩
  · rw [same] at appends
    cases appends
    exact ⟨front, last, ranged⟩

/-! ### Runs -/

/-- The key fits its field. -/
def LogCall.keyed : LogCall → Prop
  | .append r _ _ | .appendAt r _ _ => r.partitionKey < 2 ^ 64
  | _ => True

/-- The logs and indexes any calls leave, with any of their system calls failing. -/
def OpenLog.Keyed : OpenLog → Prop :=
  Runs.Reach OpenLog.opened (fun log event log' => log' = log.after event.2 event.1)
    (fun log event => log.admits event ∧ event.1.keyed)

/-- **Every call keeps what the index knows**, wherever it fails. -/
theorem OpenLog.after_ranged {log : OpenLog} (ranged : Ranged log.disk log.wal front last)
    {call : LogCall} {script : List Outcome} (admitted : log.admits (call, script))
    (keyed : call.keyed) :
    ∃ front' last', Ranged (log.after script call).disk (log.after script call).wal front'
      last' := by
  obtain ⟨legal, low⟩ := admitted
  have low : log.wal.active.nextSeq < 2 ^ 64 := Nat.lt_of_lt_of_le low (Nat.sub_le _ _)
  have start : Ranged (log.os script).disk log.wal front last := ranged
  cases call with
  | append r payload scratchLen =>
      cases appends : walAppend (log.os script) log.wal r payload scratchLen with
      | mk res rest =>
          simp only [OpenLog.after, appends]
          exact start.appended legal keyed low appends
  | appendAt r payload scratchLen =>
      have parts := walAppendAt_parts (log.os script) log.wal r payload scratchLen
      cases stores : walAppendAt (log.os script) log.wal r payload scratchLen with
      | mk res rest =>
          rw [stores] at parts
          simp only [OpenLog.after, stores]
          rcases parts with same | same
          · cases appends : walAppend (log.os script) log.wal r payload scratchLen with
            | mk res' rest' =>
                rw [appends] at same
                cases same
                exact start.appended legal keyed low appends
          · cases same
            exact ⟨front, last, start⟩
  | sync =>
      cases flushes : walSync (log.os script) log.wal with
      | mk res rest =>
          simp only [OpenLog.after, flushes]
          refine ⟨front, last, walSync_holds start.holds flushes, ?_⟩
          rw [walSync_index flushes]
          exact ranged.knows
  | retain keepFrom =>
      cases retains : walRetain (log.os script) log.wal keepFrom with
      | mk res rest =>
          obtain ⟨removed, w', os'⟩ := rest
          obtain ⟨count, holds'⟩ := walRetain_cuts start.holds retains
          simp only [OpenLog.after, retains]
          refine ⟨_, last, holds', ?_⟩
          rw [(walRetain_sound start.holds.sound retains).2.2.2]
          refine ranged.knows.fewer ?_
          rintro seq bytes ⟨v, member, found⟩
          refine ⟨v, ?_, found⟩
          rcases List.mem_append.mp member with early | atLast
          · exact List.mem_append_left _ (List.mem_of_mem_drop early)
          · exact List.mem_append_right _ atLast

/-- The index of every log a run reaches knows the log's records. -/
theorem OpenLog.Keyed.ranged {log : OpenLog} (reached : log.Keyed) :
    ∃ front last, Ranged log.disk log.wal front last := by
  refine @Runs.Reach.invariant _ _ _ _ _
    (fun log => ∃ front last, Ranged log.disk log.wal front last) ?_ ?_ log reached
  · intro start opened
    obtain ⟨os, listing, capacity, scratchLen, info, recs, os', opens, same⟩ := opened
    obtain ⟨front, last, holds, index⟩ := walOpen_found opens
    rw [same]
    refine ⟨front, last, holds, ?_⟩
    rw [index]
    exact holds.knows_rebuilt
  · intro log event log' known admitted moves
    obtain ⟨front, last, ranged⟩ := known
    rw [moves]
    exact OpenLog.after_ranged ranged admitted.1 admitted.2

end Msgsrvd

/-
How long the flushes took: what is counted as each is done, and what a scrape reports of it.
-/

import Msgsrvd.Lib.Histogram
import Msgsrvd.Server.Metrics

namespace Msgsrvd

open Bytestring

/-- Upper bounds of the flush latency buckets, in nanoseconds. -/
def fsyncBoundNs : List Nat := [500000, 1000000, 2000000, 5000000, 10000000, 20000000, 50000000]

/-- A flush, by the clock before it and the clock after; either is zero where the clock would
not answer. -/
structure Flush where
  began : Nat
  now : Nat

def Flush.took (flush : Flush) : Nat :=
  if flush.began > 0 ∧ flush.now > flush.began then flush.now - flush.began else 0

/-- Record how long a flush took. -/
def fsyncObserve (s : LoopStats) (flush : Flush) : LoopStats :=
  let ns := flush.took
  let landed := fsyncBoundNs.findIdx (fun bound => decide (ns ≤ bound))
  { s with
    fsyncNsTotal := u64Add s.fsyncNsTotal ns
    fsyncBucket := fun i =>
      if i = landed then u64Add (s.fsyncBucket i) 1 else s.fsyncBucket i }

/-- The loop has flushed. -/
def LoopStats.flushed (s : LoopStats) (flush : Flush) : LoopStats :=
  fsyncObserve { s with flushes := u64Add s.flushes 1 } flush

/-! ### What the counters hold -/

/-- How long each flush took. -/
def tookAll (flushes : List Flush) : List Nat := flushes.map Flush.took

variable {s : LoopStats} {flushes : List Flush}

theorem u64Add_mod (left right : Nat) : u64Add (left % 2 ^ 64) right = (left + right) % 2 ^ 64 := by
  unfold u64Add
  omega

/-- The counters are those of the flushes so far. -/
structure LoopStats.Timed (s : LoopStats) (flushes : List Flush) : Prop where
  count : s.flushes = flushes.length % 2 ^ 64
  total : s.fsyncNsTotal = (tookAll flushes).sum % 2 ^ 64
  bucket : ∀ i, s.fsyncBucket i = Histogram.landed fsyncBoundNs (tookAll flushes) i % 2 ^ 64

theorem statsFresh_timed : statsFresh.Timed [] where
  count := rfl
  total := rfl
  bucket _ := rfl

theorem LoopStats.Timed.flushed (timed : s.Timed flushes) (flush : Flush) :
    (s.flushed flush).Timed (flush :: flushes) := by
  refine ⟨?_, ?_, ?_⟩
  · change u64Add s.flushes 1 = _
    rw [timed.count, u64Add_mod, List.length_cons]
  · change u64Add s.fsyncNsTotal flush.took = (flush.took + (tookAll flushes).sum) % 2 ^ 64
    rw [timed.total, u64Add_mod, Nat.add_comm]
  · intro i
    change (if i = Histogram.bucketOf fsyncBoundNs flush.took then u64Add (s.fsyncBucket i) 1
      else s.fsyncBucket i) = Histogram.landed fsyncBoundNs (flush.took :: tookAll flushes) i % 2 ^ 64
    rw [Histogram.landed_cons, timed.bucket]
    by_cases here : i = Histogram.bucketOf fsyncBoundNs flush.took
    · rw [if_pos here, if_pos here.symm, u64Add_mod]
    · rw [if_neg here, if_neg (Ne.symm here), Nat.add_zero]

theorem flushed_timed (flushes : List Flush) :
    (flushes.foldr (fun flush s => s.flushed flush) statsFresh).Timed flushes := by
  induction flushes with
  | nil => exact statsFresh_timed
  | cons flush earlier ih => exact ih.flushed flush

/-! ### What is reported -/

theorem fsyncUpTo_timed (timed : s.Timed flushes) (count : Nat) :
    fsyncUpTo s count = Histogram.upTo fsyncBoundNs (tookAll flushes) count % 2 ^ 64 := by
  unfold fsyncUpTo
  induction count with
  | zero => rfl
  | succ count ih =>
      rw [List.range_succ, List.foldl_append, ih, Histogram.upTo_succ]
      simp only [List.foldl_cons, List.foldl_nil]
      rw [u64Add_mod, timed.bucket]
      omega

/-- How many flushes took no longer. -/
def within (flushes : List Flush) (ns : Nat) : Nat :=
  flushes.countP (fun flush => decide (flush.took ≤ ns))

theorem tookAll_countP (flushes : List Flush) (ns : Nat) :
    (tookAll flushes).countP (fun took => decide (took ≤ ns)) = within flushes ns :=
  List.countP_map

theorem fsyncBoundNs_sorted : fsyncBoundNs.Pairwise (· ≤ ·) := by decide

/-- Each bound is written the way a duration is, without the zeros at its end. -/
theorem fsyncBound_texts : ∀ i < LOOP_FSYNC_BUCKETS, ∃ zeros,
    (secondsPieces (fsyncBoundNs.getD i 0)).flatten =
      ascii (fsyncBoundText.getD i "") ++ List.replicate zeros 48 := by
  have texts : ∀ i < LOOP_FSYNC_BUCKETS, (secondsPieces (fsyncBoundNs.getD i 0)).flatten =
      ascii (fsyncBoundText.getD i "") ++
        List.replicate ([5, 6, 6, 6, 7, 7, 7].getD i 0) 48 := by decide +kernel
  exact fun i inside => ⟨_, texts i inside⟩

/-- The report that the flushes call for: for each bound the flushes that took no longer, then
all of them, how long they took together, and all of them once more. -/
def flushReport (flushes : List Flush) : List Bytes :=
  typePieces "msgsrvd_fsync_seconds" "histogram" ++
    (List.range LOOP_FSYNC_BUCKETS).flatMap (fun i =>
      labelPieces "msgsrvd_fsync_seconds_bucket" "le" (fsyncBoundText.getD i "")
        (within flushes (fsyncBoundNs.getD i 0) % 2 ^ 64)) ++
    labelPieces "msgsrvd_fsync_seconds_bucket" "le" "+Inf" (flushes.length % 2 ^ 64) ++
    [ascii "msgsrvd_fsync_seconds_sum "] ++
    secondsPieces ((flushes.map Flush.took).sum % 2 ^ 64) ++ [ascii "\n"] ++
    [ascii "msgsrvd_fsync_seconds_count ", decimal (flushes.length % 2 ^ 64), ascii "\n"]

theorem fsyncUpTo_within (timed : s.Timed flushes) {i : Nat} (inside : i < LOOP_FSYNC_BUCKETS) :
    fsyncUpTo s (i + 1) = within flushes (fsyncBoundNs.getD i 0) % 2 ^ 64 := by
  have inside' : i < fsyncBoundNs.length := inside
  rw [fsyncUpTo_timed timed, Histogram.upTo_bound fsyncBoundNs_sorted inside', tookAll_countP,
    List.getD_eq_getElem?_getD, List.getElem?_eq_getElem inside', Option.getD_some]

theorem fsyncUpTo_all (timed : s.Timed flushes) :
    fsyncUpTo s (LOOP_FSYNC_BUCKETS + 1) = flushes.length % 2 ^ 64 := by
  have all := Histogram.upTo_all fsyncBoundNs (tookAll flushes)
  rw [fsyncUpTo_timed timed]
  rw [show LOOP_FSYNC_BUCKETS = fsyncBoundNs.length from rfl, all]
  unfold tookAll
  rw [List.length_map]

/-- **The latency histogram.** Whatever flushes a loop has done since it started, newest first,
a scrape is told for each bound how many of them took no longer, under `+Inf` and as the count
how many there were, and how long they took together, all modulo `2^64`; and the bounds are told
as they are compared against, in seconds. -/
theorem fsync_reported (flushes : List Flush) (room : Nat) (buf : Bytes) :
    let s := flushes.foldr (fun flush s => s.flushed flush) statsFresh
    s.flushes = flushes.length % 2 ^ 64 ∧
      metricsFsync s room buf = Packing.pack room buf (flushReport flushes) ∧
      ∀ i < LOOP_FSYNC_BUCKETS, ∃ zeros,
        (secondsPieces (fsyncBoundNs.getD i 0)).flatten =
          ascii (fsyncBoundText.getD i "") ++ List.replicate zeros 48 := by
  have timed := flushed_timed flushes
  refine ⟨timed.count, ?_, fsyncBound_texts⟩
  rw [metricsFsync_pack]
  unfold fsyncPieces flushReport
  have buckets : (List.range LOOP_FSYNC_BUCKETS).flatMap (fun i =>
      labelPieces "msgsrvd_fsync_seconds_bucket" "le" (fsyncBoundText.getD i "")
        (fsyncUpTo (flushes.foldr (fun flush s => s.flushed flush) statsFresh) (i + 1))) =
      (List.range LOOP_FSYNC_BUCKETS).flatMap (fun i =>
        labelPieces "msgsrvd_fsync_seconds_bucket" "le" (fsyncBoundText.getD i "")
          (within flushes (fsyncBoundNs.getD i 0) % 2 ^ 64)) := by
    refine List.flatMap_congr ?_
    intro i listed
    rw [fsyncUpTo_within timed (List.mem_range.mp listed)]
  rw [buckets, fsyncUpTo_all timed, timed.total]
  rfl

end Msgsrvd

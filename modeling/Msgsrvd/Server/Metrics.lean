/-
The metrics document: text written field by field into a buffer of fixed room, and
served only where it is taken to be whole.
-/

import Msgsrvd.Lib.Packing
import Msgsrvd.Server.Run

namespace Msgsrvd

open Bytestring Packing

/-! ### Text out of numbers -/

/-- The characters of `s`, all of them ASCII. -/
def ascii (s : String) : Bytes := s.toList.map (fun c => UInt8.ofNat c.toNat)

/-- `'0' + digit` -/
def digit (v : Nat) : UInt8 := UInt8.ofNat (48 + v % 10)

/-- Append `s`; the result is `buf[0..len)`. -/
def fmtStr (cap : Int) (buf : Bytes) (s : String) : Bytes :=
  if cap < buf.length then buf
  else if (ascii s).length > cap - buf.length then buf
  else buf ++ ascii s

/-- `tmp[0..n)`: the digits of `v`, the lowest first. -/
def decimalBack : Nat → Nat → Bytes
  | 0, _ => []
  | room + 1, v => digit v :: if v / 10 > 0 then decimalBack room (v / 10) else []

/-- Append `v` in decimal. -/
def fmtU64 (cap : Int) (buf : Bytes) (v : Nat) : Bytes :=
  let tmp := decimalBack 20 v
  if cap < buf.length then buf
  else if tmp.length > cap - buf.length then buf
  else buf ++ tmp.reverse

/-- The lowest `width` digits of `v`, the lowest first. -/
def fractionBack : Nat → Nat → Bytes
  | 0, _ => []
  | width + 1, v => digit v :: fractionBack width (v / 10)

/-- Append `ns` as seconds, with the point nine digits in. -/
def fmtNsSeconds (cap : Int) (buf : Bytes) (ns : Nat) : Bytes :=
  let frac := ns % 1000000000
  let buf := fmtU64 cap buf (ns / 1000000000)
  let buf := fmtStr cap buf "."
  if cap < buf.length ∨ cap - buf.length < 9 then buf
  else buf ++ (fractionBack 9 frac).reverse

/-! ### Samples -/

/-- One metric family carrying a single unlabelled sample. -/
def mOne (cap : Int) (buf : Bytes) (name type : String) (v : Nat) : Bytes :=
  let buf := fmtStr cap buf "# TYPE "
  let buf := fmtStr cap buf name
  let buf := fmtStr cap buf " "
  let buf := fmtStr cap buf type
  let buf := fmtStr cap buf "\n"
  let buf := fmtStr cap buf name
  let buf := fmtStr cap buf " "
  let buf := fmtU64 cap buf v
  fmtStr cap buf "\n"

/-- A sample of an already-declared family, with one label. -/
def mLabel (cap : Int) (buf : Bytes) (name label value : String) (v : Nat) : Bytes :=
  let buf := fmtStr cap buf name
  let buf := fmtStr cap buf "\x7b"
  let buf := fmtStr cap buf label
  let buf := fmtStr cap buf "=\""
  let buf := fmtStr cap buf value
  let buf := fmtStr cap buf "\"\x7d "
  let buf := fmtU64 cap buf v
  fmtStr cap buf "\n"

def mType (cap : Int) (buf : Bytes) (name type : String) : Bytes :=
  let buf := fmtStr cap buf "# TYPE "
  let buf := fmtStr cap buf name
  let buf := fmtStr cap buf " "
  let buf := fmtStr cap buf type
  fmtStr cap buf "\n"

/-! ### What is reported -/

def LOOP_REFUSED_KINDS : Nat := 6
def LOOP_FSYNC_BUCKETS : Nat := 7

def slotText : List String := ["0", "1"]

def refusedText : List String :=
  ["not_leader", "no_replicas", "behind", "no_history", "storage", "other"]

def fsyncBoundText : List String :=
  ["0.0005", "0.001", "0.002", "0.005", "0.01", "0.02", "0.05"]

/-- The counters of the loop that nothing but the document reads. -/
structure LoopStats where
  accepted : Nat
  closed : Nat
  writes : Nat
  dedupHits : Nat
  flushes : Nat
  replRecords : Nat
  notified : Nat
  scrapesServed : Nat
  scrapesRefused : Nat
  refused : Nat → Nat
  fsyncNsTotal : Nat
  fsyncBucket : Nat → Nat
  peerAckNs : Nat → Nat

/-- The sum of two `uint64_t`. -/
def u64Add (left right : Nat) : Nat := (left + right) % 2 ^ 64

/-- `wal_segments` -/
def walSegments (w : Wal) : Nat := w.segBase.length

def loopLiveConns (l : Loop) : Nat :=
  (List.range LOOP_MAX_CONNS).countP (fun slot => (l.conns slot).inUse)

/-- How long since the replica last said where it had got to. -/
def ackAge (s : LoopStats) (now idx : Nat) : Nat :=
  if s.peerAckNs idx > 0 ∧ now > s.peerAckNs idx then now - s.peerAckNs idx else 0

/-- Replication, from whichever side this node is on. -/
def metricsRepl (l : Loop) (s : LoopStats) (now : Nat) (cap : Int) (buf : Bytes) : Bytes :=
  if l.isFollower then
    let buf := mOne cap buf "msgsrvd_leader_connected" "gauge"
      (if l.stream.fd ∧ ¬ l.stream.connecting then 1 else 0)
    mOne cap buf "msgsrvd_repl_applied_total" "counter" s.replRecords
  else
    let buf := mType cap buf "msgsrvd_follower_live" "gauge"
    let buf := (List.range LOOP_MAX_REPLICAS).foldl
      (fun buf i =>
        mLabel cap buf "msgsrvd_follower_live" "slot" (slotText.getD i "")
          (if (l.peer i).live then 1 else 0)) buf
    let buf := mType cap buf "msgsrvd_follower_durable_seq" "gauge"
    let buf := (List.range LOOP_MAX_REPLICAS).foldl
      (fun buf i =>
        mLabel cap buf "msgsrvd_follower_durable_seq" "slot" (slotText.getD i "")
          (l.peer i).durable) buf
    let buf := mType cap buf "msgsrvd_follower_ack_age_seconds" "gauge"
    let buf := (List.range LOOP_MAX_REPLICAS).foldl
      (fun buf i =>
        let buf := fmtStr cap buf "msgsrvd_follower_ack_age_seconds\x7bslot=\""
        let buf := fmtStr cap buf (slotText.getD i "")
        let buf := fmtStr cap buf "\"\x7d "
        let buf := fmtNsSeconds cap buf (ackAge s now i)
        fmtStr cap buf "\n") buf
    mOne cap buf "msgsrvd_repl_records_total" "counter" s.replRecords

/-- Flushes, and how long they took. -/
def metricsFsync (s : LoopStats) (cap : Int) (buf : Bytes) : Bytes :=
  let buf := mType cap buf "msgsrvd_fsync_seconds" "histogram"
  let (buf, cumulative) := (List.range LOOP_FSYNC_BUCKETS).foldl
    (fun (buf, cumulative) i =>
      let cumulative := u64Add cumulative (s.fsyncBucket i)
      (mLabel cap buf "msgsrvd_fsync_seconds_bucket" "le" (fsyncBoundText.getD i "") cumulative,
        cumulative)) (buf, 0)
  let cumulative := u64Add cumulative (s.fsyncBucket LOOP_FSYNC_BUCKETS)
  let buf := mLabel cap buf "msgsrvd_fsync_seconds_bucket" "le" "+Inf" cumulative
  let buf := fmtStr cap buf "msgsrvd_fsync_seconds_sum "
  let buf := fmtNsSeconds cap buf s.fsyncNsTotal
  let buf := fmtStr cap buf "\n"
  let buf := fmtStr cap buf "msgsrvd_fsync_seconds_count "
  let buf := fmtU64 cap buf cumulative
  fmtStr cap buf "\n"

/-- What `loop_metrics` has written when it comes to look at the length. -/
def metricsBody (l : Loop) (s : LoopStats) (now : Nat) (cap : Int) : Bytes :=
  let buf := mType cap [] "msgsrvd_role" "gauge"
  let buf := mLabel cap buf "msgsrvd_role" "role" "leader" (if l.isFollower then 0 else 1)
  let buf := mLabel cap buf "msgsrvd_role" "role" "follower" (if l.isFollower then 1 else 0)
  let buf := mOne cap buf "msgsrvd_first_seq" "gauge" (walFirstSeq l.wal)
  let buf := mOne cap buf "msgsrvd_durable_seq" "gauge" (walDurableSeq l.wal)
  let buf := mOne cap buf "msgsrvd_next_seq" "gauge" (walNextSeq l.wal)
  let buf := mOne cap buf "msgsrvd_segments" "gauge" (walSegments l.wal)
  let buf := mOne cap buf "msgsrvd_segment_bytes" "gauge" l.wal.segCapacity
  let buf := mOne cap buf "msgsrvd_wal_bytes" "gauge" (walSegments l.wal * l.wal.segCapacity)
  let buf := mOne cap buf "msgsrvd_retain_segments" "gauge" l.retainSegments
  let buf := mOne cap buf "msgsrvd_replicas_expected" "gauge" l.replicasWant
  let buf := mOne cap buf "msgsrvd_retain_floor" "gauge" l.retainFloor
  let buf := mOne cap buf "msgsrvd_retain_removed_total" "counter" l.counts.retainRemoved
  let buf := mOne cap buf "msgsrvd_retain_errors_total" "counter" l.counts.retainErrors
  let buf := mOne cap buf "msgsrvd_connections" "gauge" (loopLiveConns l)
  let buf := mOne cap buf "msgsrvd_sessions" "gauge" l.sessions.entries.length
  let buf := mOne cap buf "msgsrvd_sessions_evicted_total" "counter" l.sessions.evicted
  let buf := mOne cap buf "msgsrvd_accepted_total" "counter" s.accepted
  let buf := mOne cap buf "msgsrvd_closed_total" "counter" s.closed
  let buf := metricsRepl l s now cap buf
  let buf := mOne cap buf "msgsrvd_writes_total" "counter" s.writes
  let buf := mOne cap buf "msgsrvd_dedup_hits_total" "counter" s.dedupHits
  let buf := mType cap buf "msgsrvd_acks_total" "counter"
  let buf := mLabel cap buf "msgsrvd_acks_total" "durability" "append" l.counts.acksAppend
  let buf := mLabel cap buf "msgsrvd_acks_total" "durability" "sync" l.counts.acksSync
  let buf := mLabel cap buf "msgsrvd_acks_total" "durability" "replicated" l.counts.acksRepl
  let buf := mOne cap buf "msgsrvd_acks_degraded_total" "counter" l.counts.replDegraded
  let buf := mType cap buf "msgsrvd_refused_total" "counter"
  let buf := (List.range LOOP_REFUSED_KINDS).foldl
    (fun buf i =>
      mLabel cap buf "msgsrvd_refused_total" "reason" (refusedText.getD i "") (s.refused i)) buf
  let buf := mOne cap buf "msgsrvd_notified_total" "counter" s.notified
  let buf := metricsFsync s cap buf
  let buf := mOne cap buf "msgsrvd_flushes_total" "counter" s.flushes
  let buf := mOne cap buf "msgsrvd_scrapes_total" "counter" s.scrapesServed
  mOne cap buf "msgsrvd_scrapes_refused_total" "counter" s.scrapesRefused

/-- The document, which is `buf[0..n)` for the length `n` that is returned, at the
clock's reading `now`. -/
def loopMetrics (l : Loop) (s : LoopStats) (now : Nat) (cap : Int) : Bytes :=
  if cap ≤ 0 then []
  else
    let buf := metricsBody l s now cap
    if buf.length ≤ 0 ∨ (buf.length : Int) ≥ cap then []
    else if buf.getLast? ≠ some 10 then []
    else buf

/-! ### The document as pieces -/

/-- `v` in decimal. -/
def decimal (v : Nat) : Bytes := (decimalBack 20 v).reverse

def secondsPieces (ns : Nat) : List Bytes :=
  [decimal (ns / 1000000000), ascii ".", (fractionBack 9 (ns % 1000000000)).reverse]

def onePieces (name type : String) (v : Nat) : List Bytes :=
  [ascii "# TYPE ", ascii name, ascii " ", ascii type, ascii "\n", ascii name, ascii " ",
    decimal v, ascii "\n"]

def labelPieces (name label value : String) (v : Nat) : List Bytes :=
  [ascii name, ascii "\x7b", ascii label, ascii "=\"", ascii value, ascii "\"\x7d ", decimal v,
    ascii "\n"]

def typePieces (name type : String) : List Bytes :=
  [ascii "# TYPE ", ascii name, ascii " ", ascii type, ascii "\n"]

def agePieces (slot : String) (ns : Nat) : List Bytes :=
  [ascii "msgsrvd_follower_ack_age_seconds\x7bslot=\"", ascii slot, ascii "\"\x7d "] ++
    secondsPieces ns ++ [ascii "\n"]

def replPieces (l : Loop) (s : LoopStats) (now : Nat) : List Bytes :=
  if l.isFollower then
    onePieces "msgsrvd_leader_connected" "gauge"
        (if l.stream.fd ∧ ¬ l.stream.connecting then 1 else 0) ++
      onePieces "msgsrvd_repl_applied_total" "counter" s.replRecords
  else
    typePieces "msgsrvd_follower_live" "gauge" ++
      (List.range LOOP_MAX_REPLICAS).flatMap (fun i =>
        labelPieces "msgsrvd_follower_live" "slot" (slotText.getD i "")
          (if (l.peer i).live then 1 else 0)) ++
      typePieces "msgsrvd_follower_durable_seq" "gauge" ++
      (List.range LOOP_MAX_REPLICAS).flatMap (fun i =>
        labelPieces "msgsrvd_follower_durable_seq" "slot" (slotText.getD i "")
          (l.peer i).durable) ++
      typePieces "msgsrvd_follower_ack_age_seconds" "gauge" ++
      (List.range LOOP_MAX_REPLICAS).flatMap (fun i =>
        agePieces (slotText.getD i "") (ackAge s now i)) ++
      onePieces "msgsrvd_repl_records_total" "counter" s.replRecords

/-- The flushes counted in the first `count` buckets. -/
def fsyncUpTo (s : LoopStats) (count : Nat) : Nat :=
  (List.range count).foldl (fun cumulative i => u64Add cumulative (s.fsyncBucket i)) 0

def fsyncPieces (s : LoopStats) : List Bytes :=
  typePieces "msgsrvd_fsync_seconds" "histogram" ++
    (List.range LOOP_FSYNC_BUCKETS).flatMap (fun i =>
      labelPieces "msgsrvd_fsync_seconds_bucket" "le" (fsyncBoundText.getD i "")
        (fsyncUpTo s (i + 1))) ++
    labelPieces "msgsrvd_fsync_seconds_bucket" "le" "+Inf"
      (fsyncUpTo s (LOOP_FSYNC_BUCKETS + 1)) ++
    [ascii "msgsrvd_fsync_seconds_sum "] ++ secondsPieces s.fsyncNsTotal ++ [ascii "\n"] ++
    [ascii "msgsrvd_fsync_seconds_count ", decimal (fsyncUpTo s (LOOP_FSYNC_BUCKETS + 1)),
      ascii "\n"]

/-- The document up to its last three families. -/
def frontPieces (l : Loop) (s : LoopStats) (now : Nat) : List Bytes :=
  typePieces "msgsrvd_role" "gauge" ++
    labelPieces "msgsrvd_role" "role" "leader" (if l.isFollower then 0 else 1) ++
    labelPieces "msgsrvd_role" "role" "follower" (if l.isFollower then 1 else 0) ++
    onePieces "msgsrvd_first_seq" "gauge" (walFirstSeq l.wal) ++
    onePieces "msgsrvd_durable_seq" "gauge" (walDurableSeq l.wal) ++
    onePieces "msgsrvd_next_seq" "gauge" (walNextSeq l.wal) ++
    onePieces "msgsrvd_segments" "gauge" (walSegments l.wal) ++
    onePieces "msgsrvd_segment_bytes" "gauge" l.wal.segCapacity ++
    onePieces "msgsrvd_wal_bytes" "gauge" (walSegments l.wal * l.wal.segCapacity) ++
    onePieces "msgsrvd_retain_segments" "gauge" l.retainSegments ++
    onePieces "msgsrvd_replicas_expected" "gauge" l.replicasWant ++
    onePieces "msgsrvd_retain_floor" "gauge" l.retainFloor ++
    onePieces "msgsrvd_retain_removed_total" "counter" l.counts.retainRemoved ++
    onePieces "msgsrvd_retain_errors_total" "counter" l.counts.retainErrors ++
    onePieces "msgsrvd_connections" "gauge" (loopLiveConns l) ++
    onePieces "msgsrvd_sessions" "gauge" l.sessions.entries.length ++
    onePieces "msgsrvd_sessions_evicted_total" "counter" l.sessions.evicted ++
    onePieces "msgsrvd_accepted_total" "counter" s.accepted ++
    onePieces "msgsrvd_closed_total" "counter" s.closed ++
    replPieces l s now ++
    onePieces "msgsrvd_writes_total" "counter" s.writes ++
    onePieces "msgsrvd_dedup_hits_total" "counter" s.dedupHits ++
    typePieces "msgsrvd_acks_total" "counter" ++
    labelPieces "msgsrvd_acks_total" "durability" "append" l.counts.acksAppend ++
    labelPieces "msgsrvd_acks_total" "durability" "sync" l.counts.acksSync ++
    labelPieces "msgsrvd_acks_total" "durability" "replicated" l.counts.acksRepl ++
    onePieces "msgsrvd_acks_degraded_total" "counter" l.counts.replDegraded ++
    typePieces "msgsrvd_refused_total" "counter" ++
    (List.range LOOP_REFUSED_KINDS).flatMap (fun i =>
      labelPieces "msgsrvd_refused_total" "reason" (refusedText.getD i "") (s.refused i)) ++
    onePieces "msgsrvd_notified_total" "counter" s.notified ++
    fsyncPieces s

/-- The last three families. -/
def tailPieces (s : LoopStats) : List Bytes :=
  onePieces "msgsrvd_flushes_total" "counter" s.flushes ++
    onePieces "msgsrvd_scrapes_total" "counter" s.scrapesServed ++
    onePieces "msgsrvd_scrapes_refused_total" "counter" s.scrapesRefused

section
variable (room : Nat) (buf : Bytes)

theorem fmtStr_pack (s : String) : fmtStr room buf s = pack room buf [ascii s] := by
  rw [pack_cons, pack_nil]
  unfold fmtStr put
  by_cases past : (room : Int) < buf.length
  · rw [if_pos past]
    split
    · rename_i fits
      have empty : ascii s = [] := List.eq_nil_of_length_eq_zero (by omega)
      rw [empty, List.append_nil]
    · rfl
  · rw [if_neg past]
    by_cases fits : (ascii s).length ≤ room - buf.length
    · rw [if_pos fits, if_neg (by omega)]
    · rw [if_neg fits, if_pos (by omega)]

theorem decimalBack_pos (v : Nat) : 0 < (decimalBack 20 v).length := Nat.succ_pos _

theorem fmtU64_pack (v : Nat) : fmtU64 room buf v = pack room buf [decimal v] := by
  have some_digit := decimalBack_pos v
  rw [pack_cons, pack_nil]
  unfold fmtU64 put decimal
  rw [List.length_reverse]
  by_cases past : (room : Int) < buf.length
  · rw [if_pos past, if_neg (by omega)]
  · rw [if_neg past]
    by_cases fits : (decimalBack 20 v).length ≤ room - buf.length
    · rw [if_pos fits, if_neg (by omega)]
    · rw [if_neg fits, if_pos (by omega)]

theorem fractionBack_length (width v : Nat) : (fractionBack width v).length = width := by
  induction width generalizing v with
  | zero => rfl
  | succ width hypothesis =>
      simp only [fractionBack, List.length_cons, hypothesis]

theorem fmtNsSeconds_pack (ns : Nat) :
    fmtNsSeconds room buf ns = pack room buf (secondsPieces ns) := by
  unfold fmtNsSeconds secondsPieces
  simp only [fmtU64_pack, fmtStr_pack, pack_cons, pack_nil]
  generalize put room (put room buf (decimal (ns / 1000000000))) (ascii ".") = buf
  unfold put
  rw [List.length_reverse, fractionBack_length]
  by_cases fits : 9 ≤ room - buf.length
  · rw [if_pos fits, if_neg (by omega)]
  · rw [if_neg fits, if_pos (by omega)]

theorem mOne_pack (name type : String) (v : Nat) :
    mOne room buf name type v = pack room buf (onePieces name type v) := by
  unfold mOne onePieces
  simp only [fmtStr_pack, fmtU64_pack, pack_cons, pack_nil]

theorem mLabel_pack (name label value : String) (v : Nat) :
    mLabel room buf name label value v = pack room buf (labelPieces name label value v) := by
  unfold mLabel labelPieces
  simp only [fmtStr_pack, fmtU64_pack, pack_cons, pack_nil]

theorem mType_pack (name type : String) :
    mType room buf name type = pack room buf (typePieces name type) := by
  unfold mType typePieces
  simp only [fmtStr_pack, pack_cons, pack_nil]

theorem metricsRepl_pack (l : Loop) (s : LoopStats) (now : Nat) :
    metricsRepl l s now room buf = pack room buf (replPieces l s now) := by
  unfold metricsRepl replPieces
  by_cases follower : l.isFollower
  · rw [if_pos follower, if_pos follower]
    simp only [mOne_pack, pack_append]
  · rw [if_neg follower, if_neg follower]
    simp only [mOne_pack, mType_pack, mLabel_pack, fmtStr_pack, fmtNsSeconds_pack, agePieces,
      LOOP_MAX_REPLICAS, List.range_succ, List.range_zero, List.nil_append, List.foldl_append,
      List.foldl_cons, List.foldl_nil, List.flatMap_append, List.flatMap_cons, List.flatMap_nil,
      List.append_nil, pack_append, pack_cons, pack_nil]

theorem metricsFsync_pack (s : LoopStats) :
    metricsFsync s room buf = pack room buf (fsyncPieces s) := by
  unfold metricsFsync fsyncPieces fsyncUpTo
  simp only [mType_pack, mLabel_pack, fmtStr_pack, fmtU64_pack, fmtNsSeconds_pack,
    LOOP_FSYNC_BUCKETS, List.range_succ, List.range_zero, List.nil_append, List.foldl_append,
    List.foldl_cons, List.foldl_nil, List.flatMap_append, List.flatMap_cons, List.flatMap_nil,
    List.append_nil, pack_append, pack_cons, pack_nil]

/-- The body is the document's pieces, each put after the others if it fits. -/
theorem metricsBody_pack (l : Loop) (s : LoopStats) (now : Nat) :
    metricsBody l s now room = pack room [] (frontPieces l s now ++ tailPieces s) := by
  unfold metricsBody frontPieces tailPieces
  simp only [mType_pack, mLabel_pack, mOne_pack, metricsRepl_pack, metricsFsync_pack,
    LOOP_REFUSED_KINDS, List.range_succ, List.range_zero, List.nil_append, List.foldl_append,
    List.foldl_cons, List.foldl_nil, List.flatMap_append, List.flatMap_cons, List.flatMap_nil,
    List.append_nil, pack_append]

end

/-! ### How large the pieces are -/

theorem decimalBack_length (room v : Nat) : (decimalBack room v).length ≤ room := by
  induction room generalizing v with
  | zero => exact Nat.le_refl 0
  | succ room hypothesis =>
      have rest := hypothesis (v / 10)
      rw [decimalBack, List.length_cons]
      split
      · omega
      · exact Nat.succ_le_succ (Nat.zero_le room)

theorem decimal_length (v : Nat) : (decimal v).length ≤ 20 := by
  unfold decimal
  rw [List.length_reverse]
  exact decimalBack_length 20 v

/-- No piece is longer than the longest name. -/
def Short (pieces : List Bytes) : Prop := ∀ piece ∈ pieces, piece.length ≤ 39

theorem short_append (front back : List Bytes) :
    Short (front ++ back) ↔ Short front ∧ Short back := List.forall_mem_append

theorem short_cons (piece : Bytes) (pieces : List Bytes) :
    Short (piece :: pieces) ↔ piece.length ≤ 39 ∧ Short pieces := List.forall_mem_cons

theorem short_nil : Short [] := List.forall_mem_nil _

theorem short_decimal (v : Nat) : (decimal v).length ≤ 39 :=
  Nat.le_trans (decimal_length v) (by decide)

theorem short_fraction (ns : Nat) : (fractionBack 9 ns).reverse.length ≤ 39 := by
  rw [List.length_reverse, fractionBack_length]
  decide

theorem short_one {name type : String} (named : (ascii name).length ≤ 39)
    (typed : (ascii type).length ≤ 39) (v : Nat) : Short (onePieces name type v) := by
  unfold onePieces
  simp only [short_cons, short_nil, named, typed, short_decimal, and_true, true_and]
  decide

theorem short_type {name type : String} (named : (ascii name).length ≤ 39)
    (typed : (ascii type).length ≤ 39) : Short (typePieces name type) := by
  unfold typePieces
  simp only [short_cons, short_nil, named, typed, and_true, true_and]
  decide

theorem short_label {name label value : String} (named : (ascii name).length ≤ 39)
    (labelled : (ascii label).length ≤ 39) (valued : (ascii value).length ≤ 39) (v : Nat) :
    Short (labelPieces name label value v) := by
  unfold labelPieces
  simp only [short_cons, short_nil, named, labelled, valued, short_decimal, and_true, true_and]
  decide

theorem short_seconds (ns : Nat) : Short (secondsPieces ns) := by
  unfold secondsPieces
  simp only [short_cons, short_nil, short_decimal, short_fraction, and_true, true_and]
  decide

theorem short_flatMap {count : Nat} {pieces : Nat → List Bytes}
    (each : ∀ i < count, Short (pieces i)) : Short ((List.range count).flatMap pieces) := by
  intro piece inside
  obtain ⟨i, below, at_i⟩ := List.mem_flatMap.mp inside
  exact each i (List.mem_range.mp below) piece at_i

theorem short_values {texts : List String} (fits : ∀ text ∈ texts, (ascii text).length ≤ 39)
    (i : Nat) : (ascii (texts.getD i "")).length ≤ 39 := by
  rw [List.getD_eq_getElem?_getD]
  cases found : texts[i]? with
  | none => decide
  | some text => exact fits text (List.mem_of_getElem? found)

theorem replPieces_short (l : Loop) (s : LoopStats) (now : Nat) : Short (replPieces l s now) := by
  have slots := short_values (show ∀ text ∈ slotText, (ascii text).length ≤ 39 by decide)
  unfold replPieces
  split
  · rw [short_append]
    exact ⟨short_one (by decide) (by decide) _, short_one (by decide) (by decide) _⟩
  · simp only [short_append]
    refine ⟨⟨⟨⟨⟨⟨?_, ?_⟩, ?_⟩, ?_⟩, ?_⟩, ?_⟩, ?_⟩
    · exact short_type (by decide) (by decide)
    · exact short_flatMap (fun i _ => short_label (by decide) (by decide) (slots i) _)
    · exact short_type (by decide) (by decide)
    · exact short_flatMap (fun i _ => short_label (by decide) (by decide) (slots i) _)
    · exact short_type (by decide) (by decide)
    · refine short_flatMap (fun i _ => ?_)
      unfold agePieces
      simp only [short_append, short_cons, short_nil, short_seconds, slots i, and_true, true_and]
      decide
    · exact short_one (by decide) (by decide) _

theorem fsyncPieces_short (s : LoopStats) : Short (fsyncPieces s) := by
  have bounds := short_values (show ∀ text ∈ fsyncBoundText, (ascii text).length ≤ 39 by decide)
  unfold fsyncPieces
  simp only [short_append, short_cons, short_nil, short_seconds, short_decimal, and_true]
  refine ⟨⟨⟨⟨⟨?_, ?_⟩, ?_⟩, ?_⟩, ?_⟩, ?_⟩
  · exact short_type (by decide) (by decide)
  · exact short_flatMap (fun i _ => short_label (by decide) (by decide) (bounds i) _)
  · exact short_label (by decide) (by decide) (by decide) _
  all_goals decide

theorem frontPieces_short (l : Loop) (s : LoopStats) (now : Nat) :
    Short (frontPieces l s now) := by
  have reasons := short_values (show ∀ text ∈ refusedText, (ascii text).length ≤ 39 by decide)
  have refusals : Short ((List.range LOOP_REFUSED_KINDS).flatMap (fun i =>
      labelPieces "msgsrvd_refused_total" "reason" (refusedText.getD i "") (s.refused i))) :=
    short_flatMap (fun i _ => short_label (by decide) (by decide) (reasons i) _)
  unfold frontPieces
  simp only [short_append, refusals, replPieces_short, fsyncPieces_short, and_true]
  repeat' apply And.intro
  all_goals
    first
      | exact short_one (by decide) (by decide) _
      | exact short_type (by decide) (by decide)
      | exact short_label (by decide) (by decide) (by decide) _

/-! ### Complete or refused -/

/-- `doc` is what the loop writes for this state and clock wherever there is room
enough. -/
def MetricsWhole (l : Loop) (s : LoopStats) (now : Nat) (doc : Bytes) : Prop :=
  ∃ enough : Int, ∀ cap ≥ enough, loopMetrics l s now cap = doc

/-- The whole document, field after field. -/
def metricsText (l : Loop) (s : LoopStats) (now : Nat) : Bytes :=
  (frontPieces l s now ++ tailPieces s).flatten

/-- What is left of `room` bytes by the last three families when their fields take it
in order, each that still fits. -/
def tailLeftover (s : LoopStats) (room : Nat) : Nat :=
  leftover room ((tailPieces s).map List.length)

/-- The whole document fits, or the room ends before its last three families begin, or
these use up what there is for them. -/
def MetricsFills (l : Loop) (s : LoopStats) (now : Nat) (cap : Int) : Prop :=
  ((metricsText l s now).length : Int) ≤ cap ∨
    cap ≤ (frontPieces l s now).flatten.length ∨
    tailLeftover s (cap.toNat - (frontPieces l s now).flatten.length) = 0

/-- The sizes of a family's fields, with a name and a number of so many characters. -/
def familySizes (name digits : Nat) : List Nat := [7, name, 1, 7, 1, name, 1, digits, 1]

theorem tailPieces_sizes (s : LoopStats) :
    (tailPieces s).map List.length =
      familySizes 21 (decimal s.flushes).length ++
        (familySizes 21 (decimal s.scrapesServed).length ++
          familySizes 29 (decimal s.scrapesRefused).length) := rfl

/-- What a family leaves of a small room, whatever its number takes. -/
theorem family_leaves {bound left : Nat}
    (named : ∀ room < bound, leftover room [7, 21, 1, 7, 1, 21, 1] ≤ left) {room : Nat}
    (passed : room < bound) (digits : Nat) :
    leftover room (familySizes 21 digits) ≤ left := by
  rw [show familySizes 21 digits = [7, 21, 1, 7, 1, 21, 1] ++ [digits, 1] from rfl,
    leftover_append]
  exact Nat.le_trans (leftover_le _ _) (named room passed)

/-- Once a field before them has been passed over, the last families use up the room. -/
theorem tail_fills (s : LoopStats) {room : Nat} (passed : room < 39) :
    tailLeftover s room = 0 := by
  unfold tailLeftover
  rw [tailPieces_sizes, leftover_append, leftover_append]
  have first : leftover room (familySizes 21 (decimal s.flushes).length) ≤ 10 :=
    family_leaves (by decide +kernel) passed _
  generalize leftover room (familySizes 21 (decimal s.flushes).length) = room at first ⊢
  have small : ∀ room < 11, leftover room [7, 21, 1, 7, 1, 21, 1] ≤ 3 := by decide +kernel
  have second : leftover room (familySizes 21 (decimal s.scrapesServed).length) ≤ 3 :=
    family_leaves small (by omega) _
  generalize leftover room (familySizes 21 (decimal s.scrapesServed).length) = room
    at second ⊢
  have third := leftover_ones (familySizes 29 (decimal s.scrapesRefused).length) room
  have ones : 4 ≤ (familySizes 29 (decimal s.scrapesRefused).length).count 1 := by
    unfold familySizes
    simp only [List.count_cons, List.count_nil, beq_self_eq_true, if_true]
    omega
  omega

theorem tailPieces_last (s : LoopStats) : ∃ fields, tailPieces s = fields ++ [[10]] :=
  ⟨(tailPieces s).dropLast, rfl⟩

theorem loopMetrics_toNat (l : Loop) (s : LoopStats) (now : Nat) (cap : Int) :
    loopMetrics l s now cap = loopMetrics l s now (cap.toNat : Int) := by
  by_cases positive : 0 ≤ cap
  · rw [Int.toNat_of_nonneg positive]
  · unfold loopMetrics
    rw [if_pos (by omega), if_pos (by omega)]

/-- The last line fits wherever a byte is left, so the last byte says nothing more than
the length does. -/
theorem loopMetrics_room (l : Loop) (s : LoopStats) (now room : Nat) :
    loopMetrics l s now room =
      if (pack room [] (frontPieces l s now ++ tailPieces s)).length < room then
        pack room [] (frontPieces l s now ++ tailPieces s)
      else [] := by
  unfold loopMetrics
  rw [metricsBody_pack]
  by_cases served : (pack room [] (frontPieces l s now ++ tailPieces s)).length < room
  · obtain ⟨fields, split⟩ := tailPieces_last s
    rw [if_pos served, if_neg (by omega)]
    rw [split, ← List.append_assoc] at served ⊢
    have last := pack_last served
    rw [last] at served ⊢
    have some_byte : 0 < (pack room [] (frontPieces l s now ++ fields) ++ [10]).length := by
      rw [List.length_append, List.length_singleton]
      exact Nat.succ_pos _
    simp only
    rw [if_neg (by omega), List.getLast?_concat, if_neg (fun differs => differs rfl)]
  · rw [if_neg served]
    split
    · rfl
    · rw [if_pos (by omega)]

/-- What room the body leaves. -/
theorem body_leaves (l : Loop) (s : LoopStats) (now room : Nat) :
    (pack room [] (frontPieces l s now ++ tailPieces s)).length ≤ room ∧
      room - (pack room [] (frontPieces l s now ++ tailPieces s)).length =
        tailLeftover s (leftover room ((frontPieces l s now).map List.length)) := by
  have none_held : ([] : Bytes).length ≤ room := Nat.zero_le room
  have packed := pack_length (frontPieces l s now ++ tailPieces s) none_held
  rw [List.map_append, leftover_append] at packed
  exact packed

theorem pieces_leave (pieces : List Bytes) {room : Nat} (fits : pieces.flatten.length ≤ room) :
    leftover room (pieces.map List.length) = room - pieces.flatten.length := by
  rw [List.length_flatten] at fits ⊢
  exact leftover_sum _ fits

theorem Short.leaves {pieces : List Bytes} (short : Short pieces) {room : Nat}
    (early : room < pieces.flatten.length) : leftover room (pieces.map List.length) < 39 := by
  rw [List.length_flatten] at early
  refine leftover_short _ ?_ early
  intro size inside
  obtain ⟨piece, among, rfl⟩ := List.mem_map.mp inside
  exact short piece among

theorem metricsText_length (l : Loop) (s : LoopStats) (now : Nat) :
    (metricsText l s now).length =
      (frontPieces l s now).flatten.length + (tailPieces s).flatten.length := by
  unfold metricsText
  rw [List.flatten_append, List.length_append]

/-- With room to spare the whole document is served. -/
theorem loopMetrics_spare {l : Loop} {s : LoopStats} {now : Nat} {cap : Int}
    (spare : ((metricsText l s now).length : Int) < cap) :
    loopMetrics l s now cap = metricsText l s now := by
  have fits : ([] : Bytes).length + (frontPieces l s now ++ tailPieces s).flatten.length ≤
      cap.toNat := by
    unfold metricsText at spare
    rw [List.length_nil]
    omega
  have whole := pack_whole _ fits
  rw [List.nil_append] at whole
  rw [loopMetrics_toNat, loopMetrics_room, whole]
  unfold metricsText at spare ⊢
  rw [if_pos (by omega)]

theorem MetricsWhole.text {l : Loop} {s : LoopStats} {now : Nat} {doc : Bytes}
    (whole : MetricsWhole l s now doc) : doc = metricsText l s now := by
  obtain ⟨enough, written⟩ := whole
  rw [← written (max enough ((metricsText l s now).length + 1)) (le_max_left _ _)]
  exact loopMetrics_spare (by omega)

/-- A body with no room left is refused. -/
theorem loopMetrics_filled {l : Loop} {s : LoopStats} {now : Nat} {cap : Int}
    (none_left :
      tailLeftover s (leftover cap.toNat ((frontPieces l s now).map List.length)) = 0) :
    loopMetrics l s now cap = [] := by
  obtain ⟨within, left⟩ := body_leaves l s now cap.toNat
  rw [loopMetrics_toNat, loopMetrics_room, if_neg (by omega)]

/-- Room that a document too long for it leaves over is taken for room to spare. -/
theorem loopMetrics_unfilled {l : Loop} {s : LoopStats} {now : Nat} {cap : Int}
    (long : cap < (metricsText l s now).length)
    (begun : ((frontPieces l s now).flatten.length : Int) ≤ cap)
    (left : tailLeftover s (cap.toNat - (frontPieces l s now).flatten.length) ≠ 0) :
    ¬ (loopMetrics l s now cap = [] ∨ MetricsWhole l s now (loopMetrics l s now cap)) := by
  obtain ⟨within, remains⟩ := body_leaves l s now cap.toNat
  rw [pieces_leave _ (by omega)] at remains
  rw [loopMetrics_toNat, loopMetrics_room, if_pos (by omega)]
  intro served
  rcases served with refused | whole
  · rw [refused, List.length_nil] at remains within
    obtain ⟨fields, split⟩ := tailPieces_last s
    rw [split, ← List.append_assoc] at refused
    have last : pack cap.toNat [] (frontPieces l s now ++ fields ++ [[10]]) =
        pack cap.toNat [] (frontPieces l s now ++ fields) ++ [10] :=
      pack_last (by rw [refused, List.length_nil]; omega)
    rw [refused] at last
    exact List.append_ne_nil_of_right_ne_nil _ (List.cons_ne_nil _ _) last.symm
  · have same := congrArg List.length whole.text
    omega

/-- **A document is complete or refused, exactly where no room is left over.** -/
theorem loopMetrics_complete (l : Loop) (s : LoopStats) (now : Nat) (cap : Int) :
    (loopMetrics l s now cap = [] ∨ MetricsWhole l s now (loopMetrics l s now cap)) ↔
      MetricsFills l s now cap := by
  constructor
  · intro served
    by_contra open_room
    unfold MetricsFills at open_room
    rw [not_or, not_or] at open_room
    obtain ⟨long, begun, left⟩ := open_room
    exact loopMetrics_unfilled (by omega) (by omega) left served
  · intro fills
    have sizes := metricsText_length l s now
    rcases lt_trichotomy ((metricsText l s now).length : Int) cap with spare | full | long
    · refine Or.inr ⟨cap, fun room more => ?_⟩
      rw [loopMetrics_spare spare, loopMetrics_spare (by omega)]
    · refine Or.inl (loopMetrics_filled ?_)
      rw [pieces_leave _ (by omega)]
      unfold tailLeftover
      rw [pieces_leave _ (by omega)]
      omega
    · refine Or.inl (loopMetrics_filled ?_)
      by_cases ended : cap.toNat < (frontPieces l s now).flatten.length
      · exact tail_fills s ((frontPieces_short l s now).leaves ended)
      · rw [pieces_leave _ (by omega)]
        rcases fills with fits | short | used
        · omega
        · exact tail_fills s (by omega)
        · exact used

/-- The counters of a loop that has just started. -/
def statsFresh : LoopStats :=
  { accepted := 0, closed := 0, writes := 0, dedupHits := 0, flushes := 0, replRecords := 0
    notified := 0, scrapesServed := 0, scrapesRefused := 0, refused := fun _ => 0
    fsyncNsTotal := 0, fsyncBucket := fun _ => 0, peerAckNs := fun _ => 0 }

/-- A new leader's document is 2869 bytes long.  Into 2825 bytes goes one that ends in a
family with neither `scrapes_total` nor `scrapes_refused_total` in it. -/
theorem loopMetrics_cut : ¬ ∀ l s now cap,
    loopMetrics l s now cap = [] ∨ MetricsWhole l s now (loopMetrics l s now cap) := by
  intro complete
  have front : (frontPieces (leaderAlone.fresh 4096) statsFresh 5).flatten.length = 2670 := by
    decide +kernel
  have tail : (tailPieces statsFresh).flatten.length = 199 := by decide +kernel
  have long : (2825 : Int) < (metricsText (leaderAlone.fresh 4096) statsFresh 5).length := by
    rw [metricsText_length, front, tail]
    decide
  have begun : ((frontPieces (leaderAlone.fresh 4096) statsFresh 5).flatten.length : Int) ≤ 2825 := by
    rw [front]
    decide
  have left : tailLeftover statsFresh ((2825 : Int).toNat -
      (frontPieces (leaderAlone.fresh 4096) statsFresh 5).flatten.length) ≠ 0 := by
    rw [front]
    decide +kernel
  exact loopMetrics_unfilled long begun left (complete _ _ _ _)

end Msgsrvd

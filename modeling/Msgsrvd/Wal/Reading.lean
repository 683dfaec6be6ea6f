/-
A cursor returns the records of the log, whole and in order, as long as what lies past
the last record of each segment reads as its end.
-/

import Msgsrvd.Wal.Cursor
import Msgsrvd.Wal.Live

namespace Msgsrvd

open Bytestring

/-! ### Past the last record -/

/-- What the walk finds past the last record, with `next` the sequence after it, makes it
stop: an end, or the front of a record of that sequence that is not durable or not whole. -/
def tailStops (durable next : Nat) (tail : Bytes) : Bool :=
  match walRecDecode tail with
  | none => true
  | some r =>
      walRecIsEnd r || (r.seq == next && (decide (durable < next) ||
        (walRecSize (i32 r.len) != 0 && decide (tail.length < walRecSize (i32 r.len)))))

/-- The segments before the last, each with the base that follows it. -/
def sealedQuiet (disk : Disk) (durable : Nat) : List Nat → Bool
  | base :: after :: rest =>
      tailStops durable after ((disk.file base).vol.drop
          (takeRecs (after - base) (disk.file base).vol).flatten.length) &&
        sealedQuiet disk durable (after :: rest)
  | _ => true

/-- Reading up to the durable sequence meets nothing that is not a record or an end.  The
active segment's tail is out of reach while it is empty or has records not yet durable. -/
def tailsQuiet (disk : Disk) (w : Wal) : Bool :=
  sealedQuiet disk (walDurableSeq w) w.segBase &&
    (w.active.writeOff == 0 || decide (walDurableSeq w + 1 < walNextSeq w) ||
      tailStops (walDurableSeq w) (walNextSeq w)
        ((disk.file w.active.baseSeq).vol.drop w.active.writeOff))

theorem tailStops_cases {durable limit next : Nat} (low : limit ≤ durable) {tail : Bytes}
    (stops : tailStops durable next tail = true) {r : WalRec}
    (decoded : walRecDecode tail = some r) :
    walRecIsEnd r = true ∨ (r.seq = next ∧ (limit < next ∨
      (walRecSize (i32 r.len) ≠ 0 ∧ tail.length < walRecSize (i32 r.len)))) := by
  unfold tailStops at stops
  rw [decoded] at stops
  simp only [Bool.or_eq_true, Bool.and_eq_true, beq_iff_eq, decide_eq_true_eq, bne_iff_ne]
    at stops
  rcases stops with ends | ⟨seq, above | cut⟩
  · exact Or.inl ends
  · exact Or.inr ⟨seq, Or.inl (by omega)⟩
  · exact Or.inr ⟨seq, Or.inr cut⟩

/-! ### The walk over one buffer -/

/-- What a walk over a buffer of this length comes to: whole records within the limit, and
at least one if the first fits. -/
def Walked (limit length at' next : Nat) (recs : List Bytes)
    (res : Except Err Unit × Nat × Nat) : Prop :=
  ∃ count, count ≤ recs.length ∧ next + count ≤ limit + 1 ∧
    res = (.ok (), at' + (recs.take count).flatten.length, next + count) ∧
    (count = 0 ∨ at' + (recs.take count).flatten.length ≤ length) ∧
    (∀ bytes rest, recs = bytes :: rest → next ≤ limit → at' + bytes.length ≤ length → 1 ≤ count)

theorem Walked.stay {limit length at' next : Nat} {recs : List Bytes} (below : next ≤ limit + 1)
    (nothing : ∀ bytes rest, recs = bytes :: rest → next ≤ limit →
      ¬ at' + bytes.length ≤ length) :
    Walked limit length at' next recs (.ok (), at', next) := by
  refine ⟨0, Nat.zero_le _, below, ?_, Or.inl rfl, ?_⟩
  · rw [List.take_zero]
    rfl
  · intro bytes rest split inside fits
    exact absurd fits (nothing bytes rest split inside)

theorem Walked.record {limit length at' next : Nat} {record : Bytes} {rest : List Bytes}
    {res : Except Err Unit × Nat × Nat} (whole : at' + record.length ≤ length)
    (later : Walked limit length (at' + record.length) (next + 1) rest res) :
    Walked limit length at' next (record :: rest) res := by
  obtain ⟨count, few, limited, walked, held, _more⟩ := later
  refine ⟨count + 1, ?_, by omega, ?_, Or.inr ?_, fun _ _ _ _ _ => Nat.le_add_left 1 count⟩
  · rw [List.length_cons]
    omega
  · rw [walked, List.take_succ_cons, List.flatten_cons, List.length_append]
    simp only [Nat.add_assoc, Nat.add_comm 1 count]
  · rw [List.take_succ_cons, List.flatten_cons, List.length_append]
    rcases held with none | held
    · rw [none, List.take_zero, List.flatten_nil, List.length_nil]
      omega
    · omega

/-- The walk goes over whole records, as many as the buffer and the limit allow. -/
theorem cursorWalk_records {durable limit bufLen : Nat} (low : limit ≤ durable) {bytes tail : Bytes}
    {recs : List Bytes} (fuel at' next : Nat)
    (enough : (bytes.take bufLen).length ≤ at' + fuel) (below : next ≤ limit + 1)
    (are : IsRecs next recs) (shape : bytes.drop at' = recs.flatten ++ tail)
    (stops : next + recs.length ≤ limit + 1 →
      tailStops durable (next + recs.length) tail = true) :
    Walked limit (bytes.take bufLen).length at' next recs
      (cursorWalk (bytes.take bufLen) limit fuel at' next) := by
  induction fuel generalizing at' next recs with
  | zero =>
      unfold cursorWalk
      apply Walked.stay below
      intro record rest split _inside fits
      rw [split] at are
      have positive := are.1.length_pos
      omega
  | succ fuel ih =>
      have length : (bytes.take bufLen).length = min bufLen bytes.length := List.length_take
      have left : (bytes.drop at').length = bytes.length - at' := List.length_drop
      have dropped : (bytes.take bufLen).drop at' = (bytes.drop at').take (bufLen - at') :=
        List.drop_take
      unfold cursorWalk
      by_cases inside : at' < (bytes.take bufLen).length
      · rw [if_pos inside]
        by_cases header : WAL_REC_HEADER_SIZE ≤ (bytes.take bufLen).length - at'
        · have sameHead : walRecDecode ((bytes.take bufLen).drop at') =
              walRecDecode (bytes.drop at') := by
            rw [dropped, walRecDecode_take _ _ (by omega)]
          rw [sameHead]
          cases recs with
          | nil =>
              rw [List.flatten_nil, List.nil_append] at shape
              rw [shape]
              have here : Walked limit (bytes.take bufLen).length at' next []
                  (.ok (), at', next) := Walked.stay below (fun _ _ none => by cases none)
              cases decoded : walRecDecode tail with
              | none => exact here
              | some r =>
                  simp only
                  by_cases ends : walRecIsEnd r = true
                  · rw [if_pos ends]
                    exact here
                  · obtain ⟨seq, why⟩ :=
                      (tailStops_cases low (stops below) decoded).resolve_left ends
                    rw [List.length_nil, Nat.add_zero] at seq why
                    rw [if_neg ends, if_neg (by rw [not_not]; exact seq)]
                    by_cases above : next > limit
                    · rw [if_pos above]
                      exact here
                    · rw [if_neg above]
                      obtain ⟨sized, cut⟩ := why.resolve_left above
                      rw [shape] at left
                      rw [if_neg sized, if_pos (by omega)]
                      exact here
          | cons record rest =>
              have is := are.1
              rw [List.flatten_cons, List.append_assoc] at shape
              obtain ⟨r, decoded, seq, positive, size, _verified⟩ := are.1
              have front : walRecDecode (bytes.drop at') = some r := by
                rw [shape, walRecDecode_append _ _ is.header_le, decoded]
              have notEnd : ¬ walRecIsEnd r = true := by
                simp only [walRecIsEnd, seq, beq_iff_eq]
                exact positive
              rw [front]
              simp only
              rw [if_neg notEnd, if_neg (by rw [not_not]; exact seq)]
              by_cases above : next > limit
              · rw [if_pos above]
                exact Walked.stay below (fun _ _ _ inside' => by omega)
              · have recordPos := is.length_pos
                rw [if_neg above, if_neg (by omega)]
                by_cases beyond : at' + walRecSize (i32 r.len) > (bytes.take bufLen).length
                · rw [if_pos beyond]
                  apply Walked.stay below
                  intro bytes' rest' split _ fits
                  cases split
                  omega
                · rw [if_neg beyond, size]
                  have shape' : bytes.drop (at' + record.length) = rest.flatten ++ tail := by
                    rw [← List.drop_drop, shape, List.drop_left' rfl]
                  have same : next + (record :: rest).length = next + 1 + rest.length := by
                    rw [List.length_cons]
                    omega
                  rw [same] at stops
                  exact Walked.record (by omega) (ih (at' + record.length) (next + 1) (by omega)
                    (by omega) are.2 shape' stops)
        · -- Less than a header is left of the buffer.
          have short : walRecDecode ((bytes.take bufLen).drop at') = none := by
            unfold walRecDecode
            rw [List.length_drop, if_pos (by omega)]
          rw [short]
          apply Walked.stay below
          intro record rest split _inside fits
          rw [split] at are
          have long := are.1.header_le
          omega
      · rw [if_neg inside]
        apply Walked.stay below
        intro record rest split _inside fits
        rw [split] at are
        have positive := are.1.length_pos
        omega

/-! ### Where a cursor stands -/

/-- Before the record of its next sequence, in the segment it has open. -/
def CursorAt (views : List SegView) (c : WalCursor) : Prop :=
  ∃ before v after count, views = before ++ v :: after ∧ count ≤ v.recs.length ∧
    c.fd = some v.base ∧ c.segBase = v.base ∧ c.off = (v.recs.take count).flatten.length ∧
    c.nextSeq = v.base + count

theorem segIndexOf_found {table before after : List Nat} {base seq : Nat}
    (split : table = before ++ base :: after) (low : base ≤ seq)
    (high : ∀ other ∈ after, seq < other) : segIndexOf table seq = some base := by
  unfold segIndexOf
  rw [split, List.reverse_append, List.reverse_cons, List.append_assoc, List.find?_append]
  have none : after.reverse.find? (fun base => base ≤ seq) = none := by
    rw [List.find?_eq_none]
    intro other present
    have above := high other (List.mem_reverse.mp present)
    simp only [decide_eq_true_eq]
    omega
  rw [none, Option.none_or, List.singleton_append, List.find?_cons_of_pos]
  exact decide_eq_true low

section Log

variable {capacity : Nat} {disk : Disk} {w : Wal} {front : List SegView} {last : SegView}

theorem LogAt.ascending (log : LogAt capacity disk w front last) :
    ((front ++ [last]).map SegView.base).Pairwise (· < ·) := by
  obtain ⟨first, _positive, joined⟩ := log.joined
  exact joined.sorted log.full

/-- The segment of a sequence is the one it lies in, or the last for the sequence after
the last record. -/
theorem LogAt.segment (log : LogAt capacity disk w front last) {before after : List SegView}
    {v : SegView} (split : front ++ [last] = before ++ v :: after) {seq : Nat}
    (low : v.base ≤ seq) (high : seq < v.next ∨ after = []) :
    segIndexOf w.segBase seq = some v.base := by
  obtain ⟨first, _positive, joined⟩ := log.joined
  rw [split] at joined
  rw [log.table, split, List.map_append, List.map_cons]
  apply segIndexOf_found rfl low
  intro other present
  obtain ⟨u, member, base⟩ := List.mem_map.mp present
  rcases high with inside | none
  · have bound := (joined.right.2.bounds.1 u member).1
    omega
  · rw [none] at member
    cases member

/-- At the end of a segment the next one is the one to open. -/
theorem LogAt.segment_after (log : LogAt capacity disk w front last)
    {before after : List SegView} {v u : SegView}
    (split : front ++ [last] = before ++ v :: u :: after) :
    u.base = v.next ∧ v.base < u.base ∧ segIndexOf w.segBase v.next = some u.base := by
  obtain ⟨first, _positive, joined⟩ := log.joined
  rw [split] at joined
  have base : u.base = v.next := joined.right.2.1
  have sorted := log.ascending
  have table := log.table
  rw [split, List.map_append, List.map_cons, List.map_cons] at sorted table
  obtain ⟨_, later, _⟩ := List.pairwise_append.mp sorted
  obtain ⟨least, rest⟩ := List.pairwise_cons.mp later
  obtain ⟨above, _⟩ := List.pairwise_cons.mp rest
  refine ⟨base, least u.base (List.mem_cons_self ..), ?_⟩
  rw [table, ← base]
  have shape : before.map SegView.base ++ v.base :: u.base :: after.map SegView.base =
      (before.map SegView.base ++ [v.base]) ++ u.base :: after.map SegView.base := by
    rw [List.append_assoc]
    rfl
  exact segIndexOf_found shape (Nat.le_refl _) above

end Log

/-! ### Seeking -/

theorem drop_records (recs : List Bytes) (tail : Bytes) (count : Nat) :
    (recs.flatten ++ tail).drop (recs.take count).flatten.length =
      (recs.drop count).flatten ++ tail := by
  conv_lhs => rw [← List.take_append_drop count recs, List.flatten_append, List.append_assoc]
  rw [List.take_append_drop]
  exact List.drop_left' rfl

theorem cursorOpenSeg_calm {os : Os} (calm : os.script = []) (c : WalCursor) {base : Nat}
    (present : base ∈ os.disk.dir) :
    ∃ os', cursorOpenSeg os c base =
        (.ok (), { c with fd := some base, segBase := base, off := 0 }, os') ∧ Reads os os' := by
  unfold cursorOpenSeg osOpenat
  rw [if_pos present, plain_id_calm calm]
  cases c.fd with
  | none => exact ⟨_, rfl, land_reads os⟩
  | some fd =>
      simp only [osClose_calm (show (os.land [] os.disk).script = [] from rfl)]
      exact ⟨_, rfl, (land_reads os).trans (land_reads _)⟩

theorem cursorWalkTo_records {v : SegView} {capacity : Nat} (fuel : Nat) {os : Os}
    (calm : os.script = []) (stored : Stored capacity (os.disk.file v.base).vol v) (c : WalCursor)
    (count : Nat) (opened : c.fd = some v.base) (off : c.off = (v.recs.take count).flatten.length)
    (next : c.nextSeq = v.base + count) (inside : count + fuel ≤ v.recs.length) :
    ∃ os', cursorWalkTo (c.nextSeq + fuel) fuel os c =
        (.ok (), { c with off := (v.recs.take (count + fuel)).flatten.length
                          nextSeq := v.base + (count + fuel) }, os') ∧ Reads os os' := by
  induction fuel generalizing os c count with
  | zero =>
      refine ⟨os, ?_, Reads.refl calm⟩
      unfold cursorWalkTo
      rw [Nat.add_zero, ← off, ← next]
  | succ fuel ih =>
      obtain ⟨are, fits, tail, shape⟩ := stored
      obtain ⟨os', read, reads⟩ :=
        osPreadFull_calm calm v.base WAL_REC_HEADER_SIZE c.off
      have split : v.recs.drop count = v.recs[count] :: v.recs.drop (count + 1) :=
        List.drop_eq_getElem_cons (by omega)
      have is : IsRec (v.base + count) v.recs[count] :=
        are.get (List.getElem?_eq_getElem (by omega))
      have long := is.header_le
      obtain ⟨r, decoded, seq, positive, size, _verified⟩ := is
      have header : walRecDecode (slice (os.disk.file v.base).vol c.off WAL_REC_HEADER_SIZE) =
          some r := by
        unfold slice
        rw [walRecDecode_take _ _ (Nat.le_refl _), off, shape, drop_records, split,
          List.flatten_cons, List.append_assoc, walRecDecode_append _ _ long, decoded]
      have notEnd : ¬ walRecIsEnd r = true := by
        simp only [walRecIsEnd, seq, beq_iff_eq]
        exact positive
      have taken : (v.recs.take (count + 1)).flatten.length =
          (v.recs.take count).flatten.length + v.recs[count].length := by
        rw [List.take_add_one, List.getElem?_eq_getElem (by omega), Option.toList_some,
          List.flatten_append, List.length_append, List.flatten_singleton]
      unfold WAL_REC_HEADER_SIZE at long
      unfold cursorWalkTo
      rw [if_pos (by omega), opened, read]
      simp only
      rw [header]
      simp only
      rw [if_neg notEnd, if_neg (by rw [not_or, not_not]; exact ⟨by omega, by rw [seq, next]⟩), size]
      have stored' : Stored capacity (os'.disk.file v.base).vol v := by
        rw [reads.disk]
        exact ⟨are, fits, tail, shape⟩
      obtain ⟨os'', walked, later⟩ := ih reads.script stored'
        { c with fd := some v.base, off := c.off + v.recs[count].length, nextSeq := c.nextSeq + 1 }
        (count + 1) rfl (by rw [taken, ← off]) (by simp only [next, Nat.add_assoc]) (by omega)
      refine ⟨os'', ?_, reads.trans later⟩
      have goal : c.nextSeq + 1 + fuel = c.nextSeq + (fuel + 1) := by omega
      have ends : count + 1 + fuel = count + (fuel + 1) := by omega
      simp only [goal, ends] at walked
      rw [walked]

theorem Joined.locate {first : Nat} {views : List SegView} (joined : Joined first views)
    (given : views ≠ []) {seq : Nat} (low : first ≤ seq) (high : seq ≤ endOf first views) :
    ∃ before v after, views = before ++ v :: after ∧ v.base ≤ seq ∧ seq ≤ v.next ∧
      (seq < v.next ∨ after = []) := by
  induction views generalizing first with
  | nil => exact absurd rfl given
  | cons head rest ih =>
      obtain ⟨base, later⟩ := joined
      by_cases here : seq < head.next
      · exact ⟨[], head, rest, rfl, by omega, by omega, Or.inl here⟩
      · cases rest with
        | nil => exact ⟨[], head, [], rfl, by omega, high, Or.inr rfl⟩
        | cons second others =>
            obtain ⟨before, v, after, split, at_v, below, where'⟩ :=
              ih later (List.cons_ne_nil _ _) (by omega) high
            exact ⟨head :: before, v, after, by rw [split]; rfl, at_v, below, where'⟩

section Log

variable {capacity : Nat} {w : Wal} {front : List SegView} {last : SegView} {os : Os}

theorem LogAt.first_seq (log : LogAt capacity os.disk w front last) :
    Joined (walFirstSeq w) (front ++ [last]) := by
  obtain ⟨first, _positive, joined⟩ := log.joined
  have head : walFirstSeq w = first := by
    unfold walFirstSeq
    rw [log.table]
    cases front with
    | nil => exact joined.1
    | cons v rest => exact joined.1
  rw [head]
  exact joined

/-- **A seek finds every sequence of the log**, and the one after its last record. -/
theorem walCursorSeek_log (calm : os.script = []) (log : LogAt capacity os.disk w front last)
    (c : WalCursor) {seq scratchLen : Nat} (scratch : WAL_REC_HEADER_SIZE ≤ scratchLen)
    (low : walFirstSeq w ≤ seq) (high : seq ≤ walNextSeq w) :
    ∃ c' os', walCursorSeek os w c seq scratchLen = (.ok (), c', os') ∧ Reads os os' ∧
      c'.nextSeq = seq ∧ CursorAt (front ++ [last]) c' := by
  have joined := log.first_seq
  have ends : endOf (walFirstSeq w) (front ++ [last]) = walNextSeq w := by
    rw [endOf_append]
    exact log.nextSeq.symm
  obtain ⟨before, v, after, split, at_v, below, where'⟩ := joined.locate
    (List.append_ne_nil_of_right_ne_nil _ (List.cons_ne_nil _ _)) low (by rw [ends]; exact high)
  have member : v ∈ front ++ [last] := by
    rw [split]
    exact List.mem_append_right _ (List.mem_cons_self ..)
  have found := log.segment split at_v where'
  have present : v.base ∈ os.disk.dir := by
    rw [log.named, log.table]
    exact List.mem_map_of_mem member
  obtain ⟨os', opened, reads⟩ := cursorOpenSeg_calm calm c present
  have stored : Stored capacity (os'.disk.file v.base).vol v := by
    rw [reads.disk]
    exact log.stored v member
  unfold SegView.next at below
  obtain ⟨os'', walked, later⟩ := cursorWalkTo_records (seq - v.base) reads.script stored
    { c with fd := some v.base, segBase := v.base, off := 0, nextSeq := v.base } 0 rfl rfl rfl
    (by omega)
  unfold walCursorSeek
  rw [if_neg (by omega), if_neg (by omega), found]
  simp only
  rw [opened]
  simp only
  rw [show seq = v.base + (seq - v.base) by omega] at walked ⊢
  simp only [Nat.add_sub_cancel_left] at walked ⊢
  refine ⟨_, os'', walked, reads.trans later, ?_, before, v, after, seq - v.base, split, by omega,
    rfl, rfl, ?_, ?_⟩
  · simp only [Nat.zero_add]
  · simp only [Nat.zero_add]
  · simp only [Nat.zero_add]

end Log

/-! ### Reading -/

theorem sealedQuiet_at {disk : Disk} {durable : Nat} {before rest : List Nat} {base after : Nat}
    (quiet : sealedQuiet disk durable (before ++ base :: after :: rest) = true) :
    tailStops durable after ((disk.file base).vol.drop
      (takeRecs (after - base) (disk.file base).vol).flatten.length) = true := by
  induction before with
  | nil =>
      unfold sealedQuiet at quiet
      exact (Bool.and_eq_true_iff.mp quiet).1
  | cons head others ih =>
      apply ih
      cases others with
      | nil =>
          unfold sealedQuiet at quiet
          exact (Bool.and_eq_true_iff.mp quiet).2
      | cons second more =>
          unfold sealedQuiet at quiet
          exact (Bool.and_eq_true_iff.mp quiet).2

section Log

variable {capacity : Nat} {w : Wal} {front : List SegView} {last : SegView} {os : Os}
  {limit bufLen : Nat}

/-- On a quiet log the walk stops at the end of each segment within its reach. -/
theorem LogAt.tail_stops (log : LogAt capacity os.disk w front last)
    (quiet : tailsQuiet os.disk w = true) (low : limit ≤ walDurableSeq w)
    {before after : List SegView} {v : SegView} (split : front ++ [last] = before ++ v :: after)
    (some' : after = [] → v.recs ≠ []) (reach : v.next ≤ limit + 1) :
    tailStops (walDurableSeq w) v.next ((os.disk.file v.base).vol.drop v.size) = true := by
  obtain ⟨sealed', active⟩ := Bool.and_eq_true_iff.mp quiet
  have member : v ∈ front ++ [last] := by
    rw [split]
    exact List.mem_append_right _ (List.mem_cons_self ..)
  cases after with
  | nil =>
      have same : last = v := (List.append_inj' split rfl).2 |> List.head_eq_of_cons_eq
      subst same
      obtain ⟨record, rest, shape⟩ := List.exists_cons_of_ne_nil (some' rfl)
      have positive : 0 < last.size := by
        have first := log.last_stored.1
        rw [shape] at first
        have long := first.1.length_pos
        rw [SegView.size, shape, List.flatten_cons, List.length_append]
        omega
      have next := log.nextSeq
      simp only [Bool.or_eq_true, beq_iff_eq, decide_eq_true_eq, walNextSeq, next,
        log.writeOff, log.baseSeq] at active
      rcases active with (none | behind) | stops
      · omega
      · omega
      · exact stops
  | cons u others =>
      obtain ⟨base, _less, _found⟩ := log.segment_after split
      obtain ⟨are, _fits, tail, shape⟩ := log.stored v member
      have table := log.table
      rw [split, List.map_append, List.map_cons, List.map_cons] at table
      rw [table] at sealed'
      have stops := sealedQuiet_at sealed'
      have count : u.base - v.base = v.recs.length := by
        rw [base, SegView.next]
        omega
      rw [count, base] at stops
      have taken : takeRecs v.recs.length (os.disk.file v.base).vol = v.recs := by
        rw [shape, takeRecs_records are]
      rw [taken] at stops
      exact stops

/-- One attempt in a segment that has a record within the limit. -/
theorem attempt_here (calm : os.script = []) (log : LogAt capacity os.disk w front last)
    (quiet : tailsQuiet os.disk w = true) (low : limit ≤ walDurableSeq w)
    (large : ∀ seq bytes, Contains (front ++ [last]) seq bytes → seq ≤ limit →
      bytes.length ≤ bufLen)
    {before after : List SegView} {v : SegView} (split : front ++ [last] = before ++ v :: after)
    {c : WalCursor} {count : Nat} (inside : count < v.recs.length) (opened : c.fd = some v.base)
    (base : c.segBase = v.base) (off : c.off = (v.recs.take count).flatten.length)
    (next : c.nextSeq = v.base + count) (reach : c.nextSeq ≤ limit) (attempts : Nat) :
    ∃ read c' os', read ≠ [] ∧ Reads os os' ∧ CursorAt (front ++ [last]) c' ∧
      c'.nextSeq = c.nextSeq + read.length ∧ c'.nextSeq ≤ limit + 1 ∧
      (∀ index bytes, read[index]? = some bytes →
        Contains (front ++ [last]) (c.nextSeq + index) bytes) ∧
      cursorAttempt w limit bufLen (attempts + 1) os c = (.ok read.flatten, c', os') := by
  have member : v ∈ front ++ [last] := by
    rw [split]
    exact List.mem_append_right _ (List.mem_cons_self ..)
  obtain ⟨are, _fits, tail, shape⟩ := log.stored v member
  have rest : v.recs.drop count = v.recs[count] :: v.recs.drop (count + 1) :=
    List.drop_eq_getElem_cons inside
  have held : (os.disk.file v.base).vol.drop c.off = (v.recs.drop count).flatten ++ tail := by
    rw [off, shape, drop_records]
  have areRest : IsRecs c.nextSeq (v.recs.drop count) := by
    rw [← List.take_append_drop count v.recs] at are
    have later := are.right
    rw [List.length_take, Nat.min_eq_left (by omega)] at later
    rw [next]
    exact later
  have ends : c.nextSeq + (v.recs.drop count).length = v.next := by
    rw [next, List.length_drop, SegView.next]
    omega
  have tailHeld : (os.disk.file v.base).vol.drop v.size = tail := by
    rw [shape, SegView.size, List.drop_left' rfl]
  have stops : c.nextSeq + (v.recs.drop count).length ≤ limit + 1 →
      tailStops (walDurableSeq w) (c.nextSeq + (v.recs.drop count).length) tail = true := by
    intro within
    rw [ends] at within ⊢
    rw [← tailHeld]
    apply log.tail_stops quiet low split _ within
    intro _ none
    rw [none] at inside
    cases inside
  have first : Contains (front ++ [last]) c.nextSeq v.recs[count] :=
    ⟨v, member, count, next, List.getElem?_eq_getElem inside⟩
  have fits := large _ _ first reach
  obtain ⟨os', pread, reads⟩ := osPreadFull_calm calm v.base bufLen c.off
  have buffer : slice (os.disk.file v.base).vol c.off bufLen =
      ((os.disk.file v.base).vol.drop c.off).take bufLen := rfl
  have enough : (((os.disk.file v.base).vol.drop c.off).take bufLen).length ≤
      0 + (slice (os.disk.file v.base).vol c.off bufLen).length := by
    rw [buffer, Nat.zero_add]
  obtain ⟨read, few, limited, walked, whole, some'⟩ := cursorWalk_records low _ 0 c.nextSeq
    enough (by omega) areRest (by rw [List.drop_zero]; exact held) stops
  rw [← buffer] at walked whole some'
  have length : (slice (os.disk.file v.base).vol c.off bufLen).length =
      min bufLen ((v.recs.drop count).flatten ++ tail).length := by
    rw [buffer, held, List.length_take]
  have atLeast : 1 ≤ read := by
    apply some' _ _ rest reach
    rw [length, rest, List.flatten_cons, List.length_append, List.length_append]
    omega
  have positive : 0 < ((v.recs.drop count).take read).flatten.length := by
    obtain ⟨less, rfl⟩ : ∃ less, read = less + 1 := ⟨read - 1, by omega⟩
    rw [rest] at areRest ⊢
    have long := areRest.1.length_pos
    rw [List.take_succ_cons, List.flatten_cons, List.length_append]
    omega
  have used : (slice (os.disk.file v.base).vol c.off bufLen).take
      ((v.recs.drop count).take read).flatten.length = ((v.recs.drop count).take read).flatten := by
    have inBuffer := whole.resolve_left (by omega)
    rw [length] at inBuffer
    rw [buffer, held, List.take_take, Nat.min_eq_left (by omega)]
    conv_lhs => rw [← List.take_append_drop read (v.recs.drop count), List.flatten_append,
      List.append_assoc]
    rw [List.take_append_drop]
    exact List.take_left' rfl
  rw [List.length_drop] at few
  refine ⟨(v.recs.drop count).take read,
    { c with
      off := c.off + ((v.recs.drop count).take read).flatten.length
      nextSeq := c.nextSeq + read }, os', ?_, reads, ?_, ?_, limited, ?_, ?_⟩
  · intro none
    rw [none] at positive
    cases positive
  · refine ⟨before, v, after, count + read, split, by omega, opened, base, ?_, ?_⟩
    · simp only [off]
      rw [List.take_add, List.flatten_append, List.length_append]
    · simp only [next, Nat.add_assoc]
  · rw [List.length_take, List.length_drop]
    simp only
    omega
  · intro index bytes found
    have below : index < ((v.recs.drop count).take read).length :=
      (List.getElem?_eq_some_iff.mp found).1
    rw [List.length_take] at below
    rw [List.getElem?_take_of_lt (by omega), List.getElem?_drop] at found
    exact ⟨v, member, count + index, by omega, found⟩
  · unfold cursorAttempt
    rw [opened, pread]
    simp only
    rw [walked]
    simp only [Nat.zero_add]
    rw [if_pos positive, used]

/-- **A read below the limit returns the next records whole**, across the end of a segment
if it has to. -/
theorem walCursorRead_log (calm : os.script = []) (log : LogAt capacity os.disk w front last)
    (quiet : tailsQuiet os.disk w = true) (low : limit ≤ walDurableSeq w)
    (large : ∀ seq bytes, Contains (front ++ [last]) seq bytes → seq ≤ limit →
      bytes.length ≤ bufLen)
    {c : WalCursor} (stands : CursorAt (front ++ [last]) c) (reach : c.nextSeq ≤ limit) :
    ∃ read c' os', read ≠ [] ∧ Reads os os' ∧ CursorAt (front ++ [last]) c' ∧
      c'.nextSeq = c.nextSeq + read.length ∧ c'.nextSeq ≤ limit + 1 ∧
      (∀ index bytes, read[index]? = some bytes →
        Contains (front ++ [last]) (c.nextSeq + index) bytes) ∧
      walCursorRead os w c limit bufLen = (.ok read.flatten, c', os') := by
  obtain ⟨before, v, after, count, split, inside, opened, base, off, next⟩ := stands
  have member : v ∈ front ++ [last] := by
    rw [split]
    exact List.mem_append_right _ (List.mem_cons_self ..)
  have notBefore : ¬ c.nextSeq < walFirstSeq w := by
    have bound := (log.first_seq.bounds.1 v member).1
    omega
  unfold walCursorRead
  rw [if_neg (by rw [opened]; exact fun none => by cases none), if_neg notBefore,
    if_neg (by omega)]
  by_cases more : count < v.recs.length
  · exact attempt_here calm log quiet low large split more opened base off next reach 1
  · -- The segment has no more records, so the one after it has.
    have atEnd : count = v.recs.length := by omega
    have nextIs : c.nextSeq = v.next := by
      rw [next, atEnd]
      rfl
    have durable : walDurableSeq w + 1 ≤ walNextSeq w := by
      obtain ⟨kept, few, flushed, _⟩ := log.flushed
      unfold walDurableSeq walNextSeq
      rw [log.nextSeq, flushed, SegView.next]
      omega
    have nextSeq := log.nextSeq
    cases after with
    | nil =>
        have same : last = v := (List.append_inj' split rfl).2 |> List.head_eq_of_cons_eq
        subst same
        unfold walNextSeq at durable
        omega
    | cons u others =>
        obtain ⟨uBase, less, found⟩ := log.segment_after split
        obtain ⟨are, _fits, tail, shape⟩ := log.stored v member
        have held : (os.disk.file v.base).vol.drop c.off = tail := by
          rw [off, atEnd, List.take_length, shape, List.drop_left' rfl]
        have tailHeld : (os.disk.file v.base).vol.drop v.size = tail := by
          rw [shape, SegView.size, List.drop_left' rfl]
        have stops : c.nextSeq + ([] : List Bytes).length ≤ limit + 1 →
            tailStops (walDurableSeq w) (c.nextSeq + ([] : List Bytes).length) tail = true := by
          intro within
          rw [List.length_nil, Nat.add_zero, nextIs, ← tailHeld]
          exact log.tail_stops quiet low split (fun none => by cases none) (by omega)
        obtain ⟨os', pread, reads⟩ := osPreadFull_calm calm v.base bufLen c.off
        have enough : (((os.disk.file v.base).vol.drop c.off).take bufLen).length ≤
            0 + (slice (os.disk.file v.base).vol c.off bufLen).length := by
          rw [Nat.zero_add]
          exact Nat.le_refl _
        have areNone : IsRecs c.nextSeq [] := trivial
        obtain ⟨read, few, _limited, walked, _whole, _some'⟩ := cursorWalk_records low _ 0
          c.nextSeq enough (by omega) areNone (by rw [List.drop_zero]; exact held) stops
        have nothing : read = 0 := Nat.le_zero.mp few
        subst nothing
        have uMember : u ∈ front ++ [last] := by
          rw [split]
          exact List.mem_append_right _ (List.mem_cons_of_mem _ (List.mem_cons_self ..))
        have present : u.base ∈ os'.disk.dir := by
          rw [reads.disk, log.named, log.table]
          exact List.mem_map_of_mem uMember
        have log' : LogAt capacity os'.disk w front last := by
          rw [reads.disk]
          exact log
        have quiet' : tailsQuiet os'.disk w = true := by
          rw [reads.disk]
          exact quiet
        obtain ⟨os'', opening, readsOpen⟩ := cursorOpenSeg_calm reads.script
          { c with nextSeq := c.nextSeq + 0, off := c.off + (0 + ([] : List Bytes).flatten.length) }
          present
        have log'' : LogAt capacity os''.disk w front last := by
          rw [readsOpen.disk]
          exact log'
        have quiet'' : tailsQuiet os''.disk w = true := by
          rw [readsOpen.disk]
          exact quiet'
        have splitU : front ++ [last] = (before ++ [v]) ++ u :: others := by
          rw [split, List.append_assoc]
          rfl
        have uFull : 0 < u.recs.length := by
          cases others with
          | nil =>
              have same : last = u := (List.append_inj' splitU rfl).2 |> List.head_eq_of_cons_eq
              subst same
              unfold walNextSeq at durable
              unfold SegView.next at nextSeq
              omega
          | cons t rest =>
              obtain ⟨tBase, above, _⟩ := log.segment_after splitU
              unfold SegView.next at tBase
              omega
        obtain ⟨read, c', os3, some', readsLater, stands', counted, limited, known, attempted⟩ :=
          attempt_here readsOpen.script log'' quiet'' low large splitU
            (c := { c with fd := some u.base, segBase := u.base, off := 0
                           nextSeq := c.nextSeq + 0 })
            uFull rfl rfl rfl (by simp only [nextIs, uBase, Nat.add_zero]) reach 0
        refine ⟨read, c', os3, some', reads.trans (readsOpen.trans readsLater), stands', counted,
          limited, known, ?_⟩
        unfold cursorAttempt
        rw [opened, pread]
        simp only
        have whole : ((os.disk.file v.base).vol.drop c.off).take bufLen =
            slice (os.disk.file v.base).vol c.off bufLen := rfl
        rw [whole] at walked
        rw [walked]
        have notUsed : ¬ 0 + (([] : List Bytes).take 0).flatten.length > 0 := Nat.lt_irrefl 0
        simp only
        rw [if_neg notUsed, Nat.add_zero, nextIs, found]
        simp only
        rw [if_neg (by rw [base]; omega)]
        rw [Nat.add_zero, nextIs] at opening
        simp only [List.take_nil] at opening ⊢
        rw [opened] at opening
        rw [opening]
        simp only
        rw [Nat.add_zero, nextIs] at attempted
        exact attempted

theorem walCursorRead_done {c : WalCursor} (log : LogAt capacity os.disk w front last)
    (stands : CursorAt (front ++ [last]) c) (done : limit < c.nextSeq) :
    walCursorRead os w c limit bufLen = (.ok [], c, os) := by
  obtain ⟨before, v, after, count, split, _inside, opened, _base, _off, next⟩ := stands
  have member : v ∈ front ++ [last] := by
    rw [split]
    exact List.mem_append_right _ (List.mem_cons_self ..)
  have bound := (log.first_seq.bounds.1 v member).1
  unfold walCursorRead
  rw [if_neg (by rw [opened]; exact fun none => by cases none), if_neg (by omega), if_pos done]

end Log

/-! ### Appends between two reads -/

/-- The records of a longer log: what was there stays, what is new comes after. -/
structure Extends (views : List SegView) (next : Nat) (views' : List SegView) : Prop where
  cursor : ∀ c, CursorAt views c → CursorAt views' c
  old : ∀ seq bytes, Contains views seq bytes → Contains views' seq bytes
  new : ∀ seq bytes, Contains views' seq bytes → Contains views seq bytes ∨ next ≤ seq

theorem Extends.refl (views : List SegView) (next : Nat) : Extends views next views :=
  ⟨fun _ stands => stands, fun _ _ found => found, fun _ _ found => Or.inl found⟩

theorem Extends.trans {views views' views'' : List SegView} {next next' : Nat}
    (left : Extends views next views') (right : Extends views' next' views'')
    (grows : next ≤ next') : Extends views next views'' := by
  refine ⟨fun c stands => right.cursor c (left.cursor c stands),
    fun seq bytes found => right.old seq bytes (left.old seq bytes found), ?_⟩
  intro seq bytes found
  rcases right.new seq bytes found with earlier | later
  · exact left.new seq bytes earlier
  · exact Or.inr (Nat.le_trans grows later)

theorem Extends.push (front : List SegView) (last : SegView) (bytes : Bytes) :
    Extends (front ++ [last]) last.next (front ++ [⟨last.base, last.recs ++ [bytes]⟩]) where
  cursor := by
    rintro c ⟨before, v, after, count, split, inside, opened, base, off, next⟩
    rcases List.eq_nil_or_concat after with none | ⟨others, final, shape⟩
    · subst none
      obtain ⟨sameFront, same⟩ := List.append_inj' split rfl
      cases same
      refine ⟨before, ⟨last.base, last.recs ++ [bytes]⟩, [], count, by rw [sameFront], ?_, opened,
        base, ?_, next⟩
      · rw [List.length_append]
        omega
      · rw [List.take_append_of_le_length inside]
        exact off
    · rw [shape, List.concat_eq_append, ← List.cons_append, ← List.append_assoc] at split
      obtain ⟨sameFront, _same⟩ := List.append_inj' split rfl
      refine ⟨before, v, others ++ [⟨last.base, last.recs ++ [bytes]⟩], count, ?_, inside, opened,
        base, off, next⟩
      rw [sameFront, ← List.cons_append, List.append_assoc]
  old := fun _ _ known => known.push bytes
  new := by
    rintro seq found ⟨v, member, index, at_seq, at_index⟩
    rcases List.mem_append.mp member with early | atLast
    · exact Or.inl ⟨v, List.mem_append_left _ early, index, at_seq, at_index⟩
    · rw [List.mem_singleton.mp atLast] at at_seq at_index
      by_cases inside : index < last.recs.length
      · simp only at at_index
        rw [List.getElem?_append_left inside] at at_index
        exact Or.inl ⟨last, List.mem_append_right _ (List.mem_cons_self ..), index, at_seq,
          at_index⟩
      · right
        simp only at at_seq
        unfold SegView.next
        omega

theorem Extends.roll (views : List SegView) (next base : Nat) :
    Extends views next (views ++ [⟨base, []⟩]) where
  cursor := by
    rintro c ⟨before, v, after, count, split, rest⟩
    refine ⟨before, v, after ++ [⟨base, []⟩], count, ?_, rest⟩
    rw [split, List.append_assoc, List.cons_append]
  old := fun _ _ known => known.roll base
  new := by
    rintro seq bytes ⟨v, member, index, at_seq, at_index⟩
    rcases List.mem_append.mp member with early | atLast
    · exact Or.inl ⟨v, early, index, at_seq, at_index⟩
    · rw [List.mem_singleton.mp atLast] at at_index
      cases at_index

section Log

variable {capacity : Nat} {w : Wal} {front : List SegView} {last : SegView}

theorem LogAt.durable_le {disk : Disk} (log : LogAt capacity disk w front last) :
    walDurableSeq w + 1 ≤ last.next := by
  obtain ⟨kept, few, durable, _offset⟩ := log.flushed
  unfold walDurableSeq SegView.next
  omega

theorem pushed_extends {os : Os} (log : LogAt capacity os.disk w front last) {r : WalRec}
    {payload : Bytes} {scratchLen : Nat} {res : Except Err WalRec × Wal × Os}
    (pushed : Pushed os w last r payload scratchLen res) :
    ∃ last', LogAt capacity res.2.2.disk res.2.1 front last' ∧
      Extends (front ++ [last]) last.next (front ++ [last']) ∧
      walDurableSeq res.2.1 = walDurableSeq w := by
  cases pushed with
  | refused e => exact ⟨last, log, Extends.refl _ _, rfl⟩
  | @written out bytes encoded is fits =>
      rw [log.segCapacity] at fits
      exact ⟨_, log.pushed is fits _, Extends.push front last bytes, rfl⟩

/-- **An append extends the log**, whatever comes of it. -/
theorem append_extends {os : Os} (log : LogAt capacity os.disk w front last) {r : WalRec}
    {payload : Bytes} {scratchLen : Nat} {res : Except Err WalRec × Wal × Os}
    (appended : Appended os w last r payload scratchLen res) :
    ∃ front' last', LogAt capacity res.2.2.disk res.2.1 front' last' ∧
      Extends (front ++ [last]) last.next (front' ++ [last']) ∧
      walDurableSeq w ≤ walDurableSeq res.2.1 := by
  cases appended with
  | here fits pushed =>
      obtain ⟨last', log', grown, durable⟩ := pushed_extends log pushed
      exact ⟨front, last', log', grown, Nat.le_of_eq durable.symm⟩
  | refused e stays => exact ⟨front, last, log, Extends.refl _ _, Nat.le_refl _⟩
  | next past some' room pushed =>
      obtain ⟨last', log', grown, durable⟩ :=
        pushed_extends (show LogAt capacity (os.rolled w).disk _ _ _ from log.rolled some') pushed
      refine ⟨front ++ [last], last', log', ?_, ?_⟩
      · apply (Extends.roll (front ++ [last]) last.next last.next).trans grown
        exact Nat.le_refl _
      · rw [durable]
        have bound := log.durable_le
        have next := log.nextSeq
        change walDurableSeq w ≤ w.active.nextSeq - 1
        omega

end Log

/-! ### Runs of reads -/

structure ReadState where
  node : Node
  cursor : WalCursor
  /-- what the reads returned, in order -/
  chunks : List Bytes

inductive ReadEvent where
  | read
  | call (call : WalCall)

/-- A read of the open log, or an append or a sync between two reads. -/
inductive ReadStep (capacity limit bufLen : Nat) : ReadState → ReadEvent → ReadState → Prop where
  | read {s : ReadState} {w : Wal} {chunk : Bytes} {c : WalCursor} {os' : Os}
      (running : s.node.wal = some w)
      (returned : walCursorRead s.node.disk.os w s.cursor limit bufLen = (.ok chunk, c, os')) :
      ReadStep capacity limit bufLen s .read
        { node := { s.node with disk := os'.disk }, cursor := c, chunks := s.chunks ++ [chunk] }
  | append {s : ReadState} {r : WalRec} {payload : Bytes} {scratchLen : Nat}
      (legal : s.node.legal (.append r payload scratchLen)) :
      ReadStep capacity limit bufLen s (.call (.append r payload scratchLen))
        { s with node := s.node.after capacity (.append r payload scratchLen) }
  | sync {s : ReadState} (legal : s.node.legal .sync) :
      ReadStep capacity limit bufLen s (.call .sync)
        { s with node := s.node.after capacity .sync }

/-- Every read finds the tails quiet, and sequences stay within their width. -/
def readGuard (s : ReadState) : ReadEvent → Prop
  | .read => ∀ w, s.node.wal = some w → tailsQuiet s.node.disk w = true
  | .call call => s.node.counts (.call call)

/-- The records from `seq` on were returned up to the cursor, and the next read goes on
from there, or returns nothing once the limit is passed. -/
def ReadsExactly (limit bufLen seq : Nat) (s : ReadState) : Prop :=
  ∃ w, s.node.wal = some w ∧
    (∃ all : List Bytes, s.chunks.flatten = all.flatten ∧ s.cursor.nextSeq = seq + all.length ∧
      ∀ index bytes, all[index]? = some bytes →
        (seq + index, bytes) ∈ walRecords s.node.disk w) ∧
    (limit < s.cursor.nextSeq →
      walCursorRead s.node.disk.os w s.cursor limit bufLen =
        (.ok [], s.cursor, s.node.disk.os)) ∧
    (s.cursor.nextSeq ≤ limit → tailsQuiet s.node.disk w = true →
      ∃ (read : List Bytes) (c : WalCursor) (os' : Os), read ≠ [] ∧
        walCursorRead s.node.disk.os w s.cursor limit bufLen = (.ok read.flatten, c, os') ∧
        c.nextSeq = s.cursor.nextSeq + read.length ∧ c.nextSeq ≤ limit + 1 ∧
        ∀ index bytes, read[index]? = some bytes →
          (s.cursor.nextSeq + index, bytes) ∈ walRecords s.node.disk w)

/-- What every step of such a run keeps. -/
structure ReadInv (capacity limit bufLen seq : Nat) (s : ReadState) (w : Wal)
    (front : List SegView) (last : SegView) (all : List Bytes) : Prop where
  running : s.node.wal = some w
  log : LogAt capacity s.node.disk w front last
  stands : CursorAt (front ++ [last]) s.cursor
  low : limit ≤ walDurableSeq w
  large : ∀ seq bytes, Contains (front ++ [last]) seq bytes → seq ≤ limit → bytes.length ≤ bufLen
  returned : s.chunks.flatten = all.flatten
  counted : s.cursor.nextSeq = seq + all.length
  known : ∀ index bytes, all[index]? = some bytes →
    Contains (front ++ [last]) (seq + index) bytes

section ReadRuns

variable {capacity limit bufLen seq : Nat} {s : ReadState} {w : Wal} {front : List SegView}
  {last : SegView} {all : List Bytes}

theorem ReadInv.exactly (inv : ReadInv capacity limit bufLen seq s w front last all) :
    ReadsExactly limit bufLen seq s := by
  refine ⟨w, inv.running, ⟨all, inv.returned, inv.counted, ?_⟩, ?_, ?_⟩
  · intro index bytes found
    exact (inv.log.records _).mpr (inv.known index bytes found)
  · intro done
    exact walCursorRead_done (show LogAt capacity s.node.disk.os.disk w front last from inv.log)
      inv.stands done
  · intro reach quiet
    obtain ⟨read, c, os', some', _reads, _stands, counted, limited, known, ran⟩ :=
      walCursorRead_log (show s.node.disk.os.script = [] from rfl) inv.log quiet inv.low inv.large
        inv.stands reach
    refine ⟨read, c, os', some', ran, counted, limited, ?_⟩
    intro index bytes found
    exact (inv.log.records _).mpr (known index bytes found)

/-- A longer log leaves the cursor where it is. -/
theorem ReadInv.extend (inv : ReadInv capacity limit bufLen seq s w front last all)
    {node : Node} {w' : Wal} {front' : List SegView} {last' : SegView}
    (running : node.wal = some w') (log : LogAt capacity node.disk w' front' last')
    (grown : Extends (front ++ [last]) last.next (front' ++ [last']))
    (durable : walDurableSeq w ≤ walDurableSeq w') :
    ReadInv capacity limit bufLen seq { s with node := node } w' front' last' all where
  running := running
  log := log
  stands := grown.cursor _ inv.stands
  low := Nat.le_trans inv.low durable
  large := by
    intro other bytes found below
    rcases grown.new other bytes found with earlier | later
    · exact inv.large other bytes earlier below
    · have bound := inv.log.durable_le
      have low := inv.low
      omega
  returned := inv.returned
  counted := inv.counted
  known := fun index bytes found => grown.old _ _ (inv.known index bytes found)

theorem ReadInv.read (inv : ReadInv capacity limit bufLen seq s w front last all)
    (quiet : tailsQuiet s.node.disk w = true) {chunk : Bytes} {c : WalCursor} {os' : Os}
    (returned : walCursorRead s.node.disk.os w s.cursor limit bufLen = (.ok chunk, c, os')) :
    ∃ all', ReadInv capacity limit bufLen seq
      { node := { s.node with disk := os'.disk }, cursor := c, chunks := s.chunks ++ [chunk] }
      w front last all' := by
  by_cases done : limit < s.cursor.nextSeq
  · have same : walCursorRead s.node.disk.os w s.cursor limit bufLen = _ := walCursorRead_done
      (show LogAt capacity s.node.disk.os.disk w front last from inv.log) inv.stands done
    rw [same] at returned
    cases returned
    refine ⟨all, { inv with returned := ?_ }⟩
    rw [List.flatten_append, List.flatten_singleton, List.append_nil]
    exact inv.returned
  · obtain ⟨read, c', os'', _some', reads, stands, counted, _limited, known, ran⟩ :=
      walCursorRead_log (show s.node.disk.os.script = [] from rfl) inv.log quiet inv.low inv.large
        inv.stands (by omega)
    rw [ran] at returned
    cases returned
    refine ⟨all ++ read, {
      running := inv.running
      log := ?_
      stands := stands
      low := inv.low
      large := inv.large
      returned := ?_
      counted := ?_
      known := ?_ }⟩
    · simp only
      rw [reads.disk]
      exact inv.log
    · rw [List.flatten_append, List.flatten_singleton, inv.returned, List.flatten_append]
    · simp only
      rw [counted, inv.counted, List.length_append]
      omega
    · intro index bytes found
      by_cases before : index < all.length
      · rw [List.getElem?_append_left before] at found
        exact inv.known index bytes found
      · rw [List.getElem?_append_right (by omega)] at found
        have later := known (index - all.length) bytes found
        rw [inv.counted] at later
        have same : seq + all.length + (index - all.length) = seq + index := by omega
        rw [← same]
        exact later

theorem ReadInv.step {s' : ReadState} {event : ReadEvent}
    (inv : ReadInv capacity limit bufLen seq s w front last all) (guard : readGuard s event)
    (moves : ReadStep capacity limit bufLen s event s') :
    ∃ w front last all, ReadInv capacity limit bufLen seq s' w front last all := by
  cases moves with
  | read running returned =>
      rw [inv.running] at running
      cases running
      obtain ⟨all', inv'⟩ := inv.read (guard w inv.running) returned
      exact ⟨w, front, last, all', inv'⟩
  | @append r payload scratchLen legal =>
      have below : last.next < 2 ^ 64 := by
        rw [← inv.log.nextSeq]
        exact guard w inv.running
      obtain ⟨front', last', log', grown, durable⟩ := append_extends
        (show LogAt capacity s.node.disk.os.disk w front last from inv.log)
        (walAppend_log rfl inv.log legal.2 below scratchLen)
      have ran : s.node.perform capacity (.append r payload scratchLen) =
          (some (walAppend s.node.disk.os w r payload scratchLen).2.1,
            (walAppend s.node.disk.os w r payload scratchLen).2.2) := by
        simp only [Node.perform, inv.running]
      refine ⟨_, front', last', all, inv.extend ?_ ?_ grown durable⟩
      · simp only [Node.after, ran]
      · simp only [Node.after, ran]
        exact log'
  | sync legal =>
      have ran : s.node.perform capacity .sync = (some w.synced, s.node.disk.os.synced w) := by
        simp only [Node.perform, inv.running,
          walSync_log (show s.node.disk.os.script = [] from rfl) inv.log]
      refine ⟨w.synced, front, last, all, inv.extend ?_ ?_ (Extends.refl _ _) ?_⟩
      · simp only [Node.after, ran]
      · simp only [Node.after, ran, Os.synced_disk]
        exact inv.log.synced
      · have bound := inv.log.durable_le
        have next := inv.log.nextSeq
        change walDurableSeq w ≤ w.active.nextSeq - 1
        omega

end ReadRuns

/-- **A cursor reads the log exactly.**  In every log a run reaches, a seek to any of its
sequences succeeds, and as long as the tails are quiet the reads up to a durable limit
return the records from there on, whole, in order and once, and then nothing. -/
theorem cursor_reads_exactly (capacity : Nat) (node : Node)
    (reached : Reached capacity Node.counts node) (w : Wal) (running : node.wal = some w)
    (c : WalCursor) (seq limit bufLen scratchLen : Nat) (low : walFirstSeq w ≤ seq)
    (high : seq ≤ walNextSeq w) (durable : limit ≤ walDurableSeq w)
    (large : ∀ p ∈ walRecords node.disk w, p.2.length ≤ bufLen)
    (scratch : WAL_REC_HEADER_SIZE ≤ scratchLen) :
    ∃ c' os', walCursorSeek node.disk.os w c seq scratchLen = (.ok (), c', os') ∧
      ∀ s, Runs.Reach (fun first => first = ⟨{ node with disk := os'.disk }, c', []⟩)
          (ReadStep capacity limit bufLen) readGuard s →
        ReadsExactly limit bufLen seq s := by
  obtain ⟨front, last, log⟩ := reached.live.2 w running
  obtain ⟨c', os', sought, reads, next, stands⟩ := walCursorSeek_log
    (show node.disk.os.script = [] from rfl) log c scratch low high
  refine ⟨c', os', sought, ?_⟩
  intro s run
  have inv : ∃ w front last all, ReadInv capacity limit bufLen seq s w front last all := by
    apply Runs.Reach.invariant _ _ run
    · rintro first rfl
      refine ⟨w, front, last, [], {
        running := running
        log := ?_
        stands := stands
        low := durable
        large := fun other bytes found _ => large (other, bytes) ((log.records _).mpr found)
        returned := rfl
        counted := next
        known := fun index bytes none => by cases none }⟩
      simp only
      rw [reads.disk]
      exact log
    · rintro before event after ⟨w, front, last, all, inv⟩ guard moves
      exact inv.step guard moves
  obtain ⟨w', front', last', all, inv⟩ := inv
  exact inv.exactly

theorem cursor_reads_oneRecord :
    ∃ w c' os', (oneRecord.after 176 .sync).wal = some w ∧
      walCursorSeek (oneRecord.after 176 .sync).disk.os w walCursorInit 1 56 =
        (.ok (), c', os') ∧
      ∀ s, Runs.Reach
          (fun first => first = ⟨{ oneRecord.after 176 .sync with disk := os'.disk }, c', []⟩)
          (ReadStep 176 1 64) readGuard s →
        ReadsExactly 1 64 1 s := by
  have reached : Reached 176 Node.counts (oneRecord.after 176 .sync) := by
    have one := oneRecord_reached Node.counts trivial (by
      intro w opened
      have same : (emptyNode.after 176 (.open' [] WAL_REC_MAX_SIZE)).wal =
          some (openedWal 176 [] ⟨1, []⟩) := by rfl
      rw [same] at opened
      cases opened
      decide +kernel)
    refine one.next (.call .sync) trivial (.call ?_)
    change oneRecord.wal ≠ none
    decide +kernel
  have running : (oneRecord.after 176 .sync).wal ≠ none := by decide +kernel
  obtain ⟨w, opened⟩ := Option.ne_none_iff_exists'.mp running
  have numbers : (oneRecord.after 176 .sync).wal.map
      (fun w => (walFirstSeq w, walNextSeq w, walDurableSeq w)) = some (1, 2, 1) := by
    decide +kernel
  have sizes : (oneRecord.after 176 .sync).wal.map (fun w =>
      (walRecords (oneRecord.after 176 .sync).disk w).all (fun p => decide (p.2.length ≤ 64))) =
      some true := by decide +kernel
  rw [opened] at numbers sizes
  simp only [Option.map_some, Option.some.injEq, Prod.mk.injEq] at numbers sizes
  obtain ⟨first, next, durable⟩ := numbers
  obtain ⟨c', os', sought, reads⟩ := cursor_reads_exactly 176 _ reached w opened walCursorInit 1 1
    64 56 (by omega) (by omega) (by omega)
    (fun p present => of_decide_eq_true (List.all_eq_true.mp sizes p present)) (by decide)
  exact ⟨w, c', os', opened, sought, reads⟩

/-- A long record without its first bytes, which did not reach the disk. -/
def tornLong : Node :=
  { disk := diskOf (((oneRecord.after 176 (appendOf 24)).disk.file 1).vol.take 64 ++ zeros 8 ++
      ((oneRecord.after 176 (appendOf 24)).disk.file 1).vol.drop 72)
    wal := none, owed := [], durable := (oneRecord.after 176 (appendOf 24)).durable }

/-- A short record over it, flushed: what is left of the long one follows it. -/
def shortOver : Node :=
  ((tornLong.after 176 (.open' [1] WAL_REC_MAX_SIZE)).after 176 (appendOf 0)).after 176 .sync

theorem shortOver_reached : Reached 176 (fun _ _ => True) shortOver := by
  have one := oneRecord_reached (fun _ _ => True) trivial trivial
  have two := one.next (.call (appendOf 24)) trivial
    (.call ⟨by decide +kernel, by decide +kernel⟩)
  have lost : Reached 176 (fun _ _ => True) tornLong := by
    refine two.next (.powerLoss none tornLong.disk) trivial (.idleLoss ?_)
    refine ⟨?_, fun _ => rfl, ⟨0, by decide +kernel⟩, rfl⟩
    intro base present
    have only : base = 1 := List.mem_singleton.mp present
    subst only
    exact Mixed.of_mixes (by decide +kernel) (by decide +kernel) (by decide +kernel)
  have opened := lost.next (.call (.open' [1] WAL_REC_MAX_SIZE)) trivial
    (.call ⟨rfl, List.Perm.refl _, Nat.le_refl _⟩)
  have short := opened.next (.call (appendOf 0)) trivial
    (.call ⟨by decide +kernel, by decide +kernel⟩)
  exact short.next (.call .sync) trivial (.call (by
    change Node.wal _ ≠ none
    decide +kernel))

/-- A durable log whose records a cursor does not return. -/
theorem cursor_misreads :
    ¬ ∀ node, Reached 176 (fun _ _ => True) node → ∀ w, node.wal = some w →
      ∀ seq limit bufLen, walFirstSeq w ≤ seq → seq ≤ limit → limit ≤ walDurableSeq w →
        (∀ p ∈ walRecords node.disk w, p.2.length ≤ bufLen) →
        (walCursorRead node.disk.os w
          (walCursorSeek node.disk.os w walCursorInit seq WAL_REC_MAX_SIZE).2.1 limit
          bufLen).1.isOk = true := by
  intro always
  have running : shortOver.wal ≠ none := by decide +kernel
  obtain ⟨w, opened⟩ := Option.ne_none_iff_exists'.mp running
  have facts : shortOver.wal.map (fun w =>
      (walFirstSeq w, walDurableSeq w,
        (walRecords shortOver.disk w).all (fun p => decide (p.2.length ≤ 176)),
        (walCursorRead shortOver.disk.os w
          (walCursorSeek shortOver.disk.os w walCursorInit 1 WAL_REC_MAX_SIZE).2.1 2
          176).1.isOk)) = some (1, 2, true, false) := by decide +kernel
  rw [opened] at facts
  simp only [Option.map_some, Option.some.injEq, Prod.mk.injEq] at facts
  obtain ⟨first, durable, sizes, failed⟩ := facts
  have found := always shortOver shortOver_reached w opened 1 2 176 (by omega) (by decide)
    (by omega) (fun p present => of_decide_eq_true (List.all_eq_true.mp sizes p present))
  rw [failed] at found
  cases found

end Msgsrvd

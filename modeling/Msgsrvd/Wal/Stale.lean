/-
One segment over several lives: which records a recovery may accept.

Recovery drops a torn tail but leaves its bytes, and the sequences it gives out again
are those of the dropped records.  A leftover is kept apart from a current record by
its place and its sequence only, so it comes back when both line up.
-/

import Msgsrvd.Wal.Resize
import Msgsrvd.Wal.Crash

namespace Msgsrvd

open Bytestring

/-! ### Runs of a segment -/

structure SegNode where
  disk : Disk
  /-- `none` while no process has the segment open -/
  seg : Option WalSeg
  /-- records the last recovery accepted, and those appended since -/
  known : List Bytes

inductive SegEvent where
  | append (r : WalRec) (payload : Bytes) (scratchLen : Nat)
  | sync
  | kill
  | powerLoss (left : Bytes)
  | recover (scratchLen : Nat)

def SegNode.append (base : Nat) (node : SegNode) (r : WalRec) (payload : Bytes)
    (scratchLen : Nat) : SegNode :=
  match node.seg with
  | none => node
  | some s =>
      match walSegAppend node.disk.os s r payload scratchLen with
      | (.error _, s, os) => { node with disk := os.disk, seg := some s }
      | (.ok _, s', os) =>
          { disk := os.disk
            seg := some s'
            known := node.known ++
              [slice (os.disk.file base).vol s.writeOff (s'.writeOff - s.writeOff)] }

def SegNode.sync (node : SegNode) : SegNode :=
  match node.seg with
  | none => node
  | some s =>
      match walSegSync node.disk.os s with
      | (_, s, os) => { node with disk := os.disk, seg := some s }

/-- Open the segment and recover it, whether or not it was open. -/
def SegNode.recover (base capacity : Nat) (node : SegNode) (scratchLen : Nat) : SegNode :=
  match walSegOpen node.disk.os base capacity with
  | (.error _, os) => { node with disk := os.disk, seg := none }
  | (.ok s, os) =>
      match walSegRecover os s scratchLen with
      | (.error _, os) => { node with disk := os.disk, seg := none }
      | (.ok (scan, s, _), os) =>
          { disk := os.disk
            seg := some s
            known := takeRecs scan.records (os.disk.file base).vol }

def SegNode.after (base capacity : Nat) (node : SegNode) : SegEvent → SegNode
  | .append r payload scratchLen => node.append base r payload scratchLen
  | .sync => node.sync
  | .kill => { node with seg := none }
  | .powerLoss left =>
      { node with disk := node.disk.setFile base ⟨left, left⟩, seg := none }
  | .recover scratchLen => node.recover base capacity scratchLen

/-- A payload is as long as its record says, a power loss keeps some of the bytes not
flushed, the scratch buffer holds the largest record. -/
def SegNode.legal (base : Nat) (node : SegNode) : SegEvent → Prop
  | .append r payload _ =>
      (i32 r.len).toNat ≤ payload.length ∧ ∀ s, node.seg = some s → s.nextSeq < 2 ^ 64
  | .powerLoss left => Mixed (node.disk.file base) left
  | .recover scratchLen => WAL_REC_MAX_SIZE ≤ scratchLen
  | _ => True

/-- The segment as it was created. -/
def SegNode.created (base capacity : Nat) (node : SegNode) : Prop :=
  ∃ (disk : Disk) (seg : WalSeg) (os : Os), base ∉ disk.dir ∧ walSegCreate disk.os base capacity = (.ok seg, os) ∧
    node = ⟨os.disk, some seg, []⟩

def SegNode.Reached (base capacity : Nat) (guard : SegNode → SegEvent → Prop) : SegNode → Prop :=
  Runs.Reach (SegNode.created base capacity)
    (fun node event node' => node.legal base event ∧ node' = node.after base capacity event) guard

/-- A whole record of this sequence stands here. -/
def standsAt (room seq : Nat) (bytes : Bytes) : Bool :=
  match scanHead room seq bytes with
  | .record _ => true
  | .stop _ => false

/-- The first record not left whole does not read as a record of its sequence. -/
def tornDetected (room seq : Nat) (left : Bytes) : List Bytes → Bool
  | [] => true
  | rec :: rest =>
      if left.take rec.length = rec then
        tornDetected (room - rec.length) (seq + 1) (left.drop rec.length) rest
      else !standsAt room seq left

/-- No leftover stands right behind a record appended with its next sequence, and the
checksum tells a torn record from a whole one. -/
def SegNode.guard (base capacity : Nat) (node : SegNode) : SegEvent → Prop
  | .append r _ _ => ∀ s, node.seg = some s → walSegFits s (i32 r.len) = true →
      standsAt (capacity - (s.writeOff + walRecSize (i32 r.len))) (s.nextSeq + 1)
        (((node.disk.file base).vol.take capacity).drop
          (s.writeOff + walRecSize (i32 r.len))) = false
  | .powerLoss left => tornDetected capacity base (left.take capacity) node.known = true
  | _ => True

/-! ### The invariant -/

/-- The segment with these records, all of them behind the append point. -/
structure OpenAt (base capacity : Nat) (s : WalSeg) (known : List Bytes) : Prop where
  fd : s.fd = some base
  nextSeq : s.nextSeq = base + known.length
  writeOff : s.writeOff = known.flatten.length
  capacity : s.capacity = capacity

/-- A scan of the file finds the first known records, and stops there. -/
structure SegInv (base capacity : Nat) (node : SegNode) : Prop where
  named : base ∈ node.disk.dir
  positive : base ≠ 0
  header : WAL_REC_HEADER_SIZE ≤ capacity
  are : IsRecs base node.known
  fits : node.known.flatten.length ≤ capacity
  finds : ∃ kept reason, kept <+: node.known ∧
    Scans capacity base ((node.disk.file base).vol.take capacity) kept reason ∧
      ((node.disk.file base).stab = (node.disk.file base).vol ∨
        kept = node.known ∧ (node.disk.file base).vol.drop node.known.flatten.length =
          (node.disk.file base).stab.drop node.known.flatten.length)
  running : ∀ s, node.seg = some s → OpenAt base capacity s node.known ∧
    ∃ reason, Scans capacity base ((node.disk.file base).vol.take capacity) node.known reason

section Steps

variable {base capacity : Nat} {node : SegNode}

theorem standsAt_stop {room seq : Nat} {bytes : Bytes} (none : standsAt room seq bytes = false) :
    ∃ reason, scanHead room seq bytes = .stop reason := by
  unfold standsAt at none
  cases head : scanHead room seq bytes with
  | stop reason => exact ⟨reason, rfl⟩
  | record size =>
      rw [head] at none
      cases none

/-- What a power loss leaves of the known records is scanned as the first of them. -/
theorem torn_scans {room seq : Nat} {left : Bytes} {known : List Bytes}
    (are : IsRecs seq known) (fits : known.flatten.length ≤ room)
    (detected : tornDetected room seq left known = true)
    (behind : ∀ rest, left = known.flatten ++ rest →
      ∃ reason, scanHead (room - known.flatten.length) (seq + known.length) rest =
        .stop reason) :
    ∃ kept reason, kept <+: known ∧ Scans room seq left kept reason := by
  induction known generalizing room seq left with
  | nil =>
      obtain ⟨reason, stops⟩ := behind left rfl
      exact ⟨[], reason, List.prefix_refl _, .stop stops⟩
  | cons bytes rest ih =>
      rw [List.flatten_cons, List.length_append] at fits
      unfold tornDetected at detected
      split at detected
      · rename_i whole
        have shape : left = bytes ++ left.drop bytes.length := by
          conv_lhs => rw [← List.take_append_drop bytes.length left, whole]
        obtain ⟨kept, reason, early, scan⟩ := ih are.2 (by omega) detected (by
          intro more same
          have stops := behind more (by
            rw [shape, same, List.flatten_cons, List.append_assoc])
          rw [List.flatten_cons, List.length_append, List.length_cons] at stops
          rw [Nat.sub_sub, Nat.add_right_comm, Nat.add_assoc seq]
          exact stops)
        have head : scanHead room seq left = .record bytes.length := by
          rw [shape]
          exact scanHead_of_isRec are.1 (by omega)
        have scanned := Scans.record head scan
        rw [whole] at scanned
        exact ⟨bytes :: kept, reason, List.cons_prefix_cons.mpr ⟨rfl, early⟩, scanned⟩
      · rw [Bool.not_eq_true'] at detected
        obtain ⟨reason, stops⟩ := standsAt_stop detected
        exact ⟨[], reason, List.nil_prefix, .stop stops⟩

/-- A power loss leaves what lies behind the append point. -/
theorem Mixed.drop_eq {file : File} {left : Bytes} (mixed : Mixed file left) {count : Nat}
    (same : file.vol.drop count = file.stab.drop count) :
    left.drop count = file.vol.drop count := by
  have lengths := congrArg List.length same
  rw [List.length_drop, List.length_drop] at lengths
  have low := mixed.low
  have high := mixed.high
  apply List.ext_getElem
  · rw [List.length_drop, List.length_drop]
    omega
  · intro index inside inside'
    rw [List.length_drop] at inside inside'
    have byte := mixed.each (count + index) (by omega)
    have flushed : file.stab.getD (count + index) 0 = file.vol.getD (count + index) 0 := by
      have at_index := congrArg (fun bytes => bytes.getD index 0) same
      simp only [List.getD_eq_getElem?_getD, List.getElem?_drop] at at_index ⊢
      exact at_index.symm
    rw [flushed, or_self, List.getD_eq_getElem _ _ (by omega),
      List.getD_eq_getElem _ _ (by omega)] at byte
    rw [List.getElem_drop, List.getElem_drop]
    exact byte

/-- An append writes its record whole, or nothing. -/
theorem walSegAppend_either {os : Os} (calm : os.script = []) {s : WalSeg} {fd : Nat}
    (opened : s.fd = some fd) (r : WalRec) (payload : Bytes) (scratchLen : Nat) :
    (∃ e, walSegAppend os s r payload scratchLen = (.error e, s, os)) ∨
      ∃ bytes out, walRecEncode scratchLen { r with seq := s.nextSeq } payload =
          some (bytes, out) ∧ s.writeOff + bytes.length ≤ s.capacity ∧
        walSegAppend os s r payload scratchLen =
          (.ok out, { s with writeOff := s.writeOff + bytes.length, nextSeq := s.nextSeq + 1 },
            os.land [] (os.disk.write fd s.writeOff bytes)) := by
  unfold walSegAppend
  cases encoded : walRecEncode scratchLen { r with seq := s.nextSeq } payload with
  | none => exact Or.inl ⟨_, rfl⟩
  | some result =>
      obtain ⟨bytes, out⟩ := result
      simp only
      by_cases tooLong : s.writeOff + bytes.length > s.capacity
      · rw [if_pos tooLong]
        exact Or.inl ⟨_, rfl⟩
      · rw [if_neg tooLong, opened]
        refine Or.inr ⟨bytes, out, rfl, by omega, ?_⟩
        unfold osPwriteFull Os.call
        rw [calm]

/-- The scan after an append: what stands behind the record is what stood there. -/
theorem pushed_scans {content bytes : Bytes} {known : List Bytes} (are : IsRecs base known)
    (stored : Stored capacity content ⟨base, known⟩) (is : IsRec (base + known.length) bytes)
    (fits : known.flatten.length + bytes.length ≤ capacity)
    (quiet : standsAt (capacity - (known.flatten.length + bytes.length)) (base + known.length + 1)
      ((content.take capacity).drop (known.flatten.length + bytes.length)) = false) :
    ∃ reason, Scans capacity base
      ((overwrite content known.flatten.length bytes).take capacity) (known ++ [bytes]) reason := by
  obtain ⟨_are, _fits, tail, shape⟩ := stored
  obtain ⟨reason, stops⟩ := standsAt_stop quiet
  have whole : (known ++ [bytes]).flatten = known.flatten ++ bytes := by
    rw [List.flatten_append, List.flatten_cons, List.flatten_nil, List.append_nil]
  have long : (known ++ [bytes]).flatten.length = known.flatten.length + bytes.length := by
    rw [whole, List.length_append]
  have behind : (overwrite content known.flatten.length bytes).take capacity =
      (known ++ [bytes]).flatten ++
        (content.take capacity).drop (known.flatten.length + bytes.length) := by
    simp only at shape
    rw [shape, overwrite_records, whole, ← List.append_assoc, List.take_append,
      List.take_of_length_le (by rw [List.length_append]; exact fits), List.drop_take,
      ← List.drop_drop, List.drop_left' rfl, List.length_append]
  have scan := @Scans.prepend capacity base (known ++ [bytes])
    ((content.take capacity).drop (known.flatten.length + bytes.length)) [] reason
    (are.append ⟨is, trivial⟩) (by rw [long]; exact fits)
    (.stop (by
      rw [long, List.length_append, List.length_singleton, ← Nat.add_assoc]
      exact stops))
  rw [List.append_nil] at scan
  rw [behind]
  exact ⟨reason, scan⟩

theorem SegInv.append (inv : SegInv base capacity node) {r : WalRec} {payload : Bytes}
    {scratchLen : Nat} (legal : node.legal base (.append r payload scratchLen))
    (guarded : node.guard base capacity (.append r payload scratchLen)) :
    SegInv base capacity (node.append base r payload scratchLen) := by
  obtain ⟨given, low⟩ := legal
  cases running : node.seg with
  | none =>
      simp only [SegNode.append, running]
      exact inv
  | some s =>
      obtain ⟨at_end, reason, scan⟩ := inv.running s running
      have calm : node.disk.os.script = [] := rfl
      rcases walSegAppend_either calm at_end.fd r payload scratchLen with
        ⟨e, failed⟩ | ⟨bytes, out, encoded, fits, wrote⟩
      · simp only [SegNode.append, running, failed]
        exact { inv with
          running := fun s' same => by
            cases same
            exact ⟨at_end, reason, scan⟩ }
      · have size : bytes.length = walRecSize (i32 r.len) :=
          @walRecEncode_length scratchLen { r with seq := s.nextSeq } out payload bytes given encoded
        have is : IsRec (base + node.known.length) bytes := by
          rw [← at_end.nextSeq]
          refine @walRecEncode_isRec scratchLen { r with seq := s.nextSeq } out payload bytes given
            ?_ (low s running) encoded
          have positive := inv.positive
          simp only [at_end.nextSeq]
          omega
        have stored := scan.stored
        rw [at_end.writeOff, at_end.capacity] at fits
        have quiet := guarded s running (by
          have header := is.length_pos
          unfold walSegFits
          simp only [← size]
          rw [if_neg (by omega), decide_eq_true_eq, at_end.writeOff, at_end.capacity]
          exact fits)
        rw [at_end.writeOff, at_end.nextSeq, ← size] at quiet
        obtain ⟨reason', scan'⟩ := pushed_scans inv.are stored is fits quiet
        have content : ((node.disk.write base s.writeOff bytes).file base).vol =
            overwrite (node.disk.file base).vol node.known.flatten.length bytes := by
          rw [file_write_same, at_end.writeOff]
        have flushed : ((node.disk.write base s.writeOff bytes).file base).stab =
            (node.disk.file base).stab := by
          unfold Disk.write
          rw [Disk.file_setFile_same]
        have is_last : slice (overwrite (node.disk.file base).vol node.known.flatten.length bytes)
            node.known.flatten.length bytes.length = bytes := by
          obtain ⟨_are, _fits, tail, shape⟩ := stored
          simp only at shape
          rw [shape, overwrite_records]
          exact slice_field _ _ _ _ _ rfl rfl
        have behind :
            (overwrite (node.disk.file base).vol node.known.flatten.length bytes).drop
              (node.known.flatten.length + bytes.length) =
            (node.disk.file base).vol.drop (node.known.flatten.length + bytes.length) := by
          obtain ⟨_are, _fits, tail, shape⟩ := stored
          simp only at shape
          rw [shape, overwrite_records, ← List.drop_drop, ← List.drop_drop, List.drop_left' rfl,
            List.drop_left' rfl, List.drop_left' rfl]
        have drop_eq : (node.disk.file base).vol.drop
              (node.known.flatten.length + bytes.length) =
            (node.disk.file base).stab.drop (node.known.flatten.length + bytes.length) := by
          obtain ⟨kept, _reason, _early, _scan, same | ⟨_all, same⟩⟩ := inv.finds
          · rw [same]
          · rw [← List.drop_drop, same, List.drop_drop]
        have whole : (node.known ++ [bytes]).flatten.length =
            node.known.flatten.length + bytes.length := by
          rw [List.flatten_append, List.flatten_cons, List.flatten_nil, List.append_nil,
            List.length_append]
        have moved : node.append base r payload scratchLen =
            { disk := node.disk.write base s.writeOff bytes
              seg := some { s with
                writeOff := s.writeOff + bytes.length, nextSeq := s.nextSeq + 1 }
              known := node.known ++ [bytes] } := by
          simp only [SegNode.append, running, wrote]
          rw [SegNode.mk.injEq, Nat.add_sub_cancel_left]
          refine ⟨rfl, rfl, ?_⟩
          change node.known ++ [slice ((node.disk.write base s.writeOff bytes).file base).vol
            s.writeOff bytes.length] = _
          rw [content, at_end.writeOff, is_last]
        rw [moved]
        refine ⟨inv.named, inv.positive, inv.header, inv.are.append ⟨is, trivial⟩, ?_, ?_, ?_⟩
        · rw [whole]
          exact fits
        · refine ⟨_, reason', List.prefix_refl _, ?_, Or.inr ⟨rfl, ?_⟩⟩
          · simp only [content]
            exact scan'
          · simp only [content, flushed, whole]
            rw [behind, drop_eq]
        · intro s' same
          cases same
          refine ⟨⟨at_end.fd, ?_, ?_, at_end.capacity⟩, reason', ?_⟩
          · simp only [at_end.nextSeq, List.length_append, List.length_singleton]
            omega
          · simp only [at_end.writeOff, whole]
          · simp only [content]
            exact scan'

theorem flushFile_same (disk : Disk) (base : Nat) :
    (disk.flushFile base).file base =
      ⟨(disk.file base).vol, (disk.file base).vol⟩ := by
  unfold Disk.flushFile
  rw [Disk.file_setFile_same]

theorem SegInv.sync (inv : SegInv base capacity node) : SegInv base capacity node.sync := by
  cases running : node.seg with
  | none =>
      simp only [SegNode.sync, running]
      exact inv
  | some s =>
      obtain ⟨at_end, reason, scan⟩ := inv.running s running
      by_cases idle : s.syncedOff = s.writeOff
      · simp only [SegNode.sync, running, walSegSync, if_pos idle]
        exact { inv with
          running := fun s' same => by
            cases same
            exact ⟨at_end, reason, scan⟩ }
      · have flushes : walSegSync node.disk.os s =
            (.ok (), { s with syncedOff := s.writeOff, durableSeq := s.nextSeq - 1 },
              node.disk.os.land [] (node.disk.flushFile base)) := by
          unfold walSegSync
          rw [if_neg idle, at_end.fd]
          rfl
        simp only [SegNode.sync, running, flushes]
        obtain ⟨kept, reason', early, scan', _⟩ := inv.finds
        have content : ((node.disk.flushFile base).file base).vol = (node.disk.file base).vol := by
          rw [flushFile_same]
        refine ⟨inv.named, inv.positive, inv.header, inv.are, inv.fits,
          ⟨kept, reason', early, ?_, Or.inl ?_⟩, ?_⟩
        · simp only [Os.land, content]
          exact scan'
        · simp only [Os.land, flushFile_same]
        · intro s' same
          cases same
          refine ⟨⟨at_end.fd, at_end.nextSeq, at_end.writeOff, at_end.capacity⟩, reason, ?_⟩
          simp only [Os.land, content]
          exact scan

theorem SegInv.kill (inv : SegInv base capacity node) :
    SegInv base capacity { node with seg := none } :=
  { inv with
    running := fun _ none => by cases none }

theorem SegInv.powerLoss (inv : SegInv base capacity node) {left : Bytes}
    (mixed : Mixed (node.disk.file base) left)
    (detected : tornDetected capacity base (left.take capacity) node.known = true) :
    SegInv base capacity
      { node with disk := node.disk.setFile base ⟨left, left⟩, seg := none } := by
  obtain ⟨kept, reason, early, scan, settled⟩ := inv.finds
  have content : ((node.disk.setFile base ⟨left, left⟩).file base).vol = left := by
    rw [Disk.file_setFile_same]
  have found : ∃ kept reason, kept <+: node.known ∧
      Scans capacity base (left.take capacity) kept reason := by
    rcases settled with same | ⟨all, same⟩
    · rw [mixed.of_flushed same]
      exact ⟨kept, reason, early, scan⟩
    · refine torn_scans inv.are inv.fits detected ?_
      intro rest shape
      -- Nothing behind the append point was still to be flushed.
      rw [all] at scan
      have behind := mixed.drop_eq same
      have rest_eq : rest =
          ((node.disk.file base).vol.take capacity).drop node.known.flatten.length := by
        rw [List.drop_take, ← behind, ← List.drop_take, shape, List.drop_left' rfl]
      rw [rest_eq]
      exact ⟨reason, scan.ends⟩
  obtain ⟨kept', reason', early', scan'⟩ := found
  refine ⟨inv.named, inv.positive, inv.header, inv.are, inv.fits,
    ⟨kept', reason', early', ?_, Or.inl ?_⟩, fun _ none => by cases none⟩
  · simp only [content]
    exact scan'
  · simp only [Disk.file_setFile_same]


/-- What a recovery finds: the records its scan accepts, or an error. -/
theorem recover_either (inv : SegInv base capacity node) {scratchLen : Nat}
    (scratch : WAL_REC_MAX_SIZE ≤ scratchLen) {kept : List Bytes} {reason : ScanEnd}
    (scan : Scans capacity base ((node.disk.file base).vol.take capacity) kept reason) :
    node.recover base capacity scratchLen = { node with seg := none } ∨
      node.recover base capacity scratchLen =
        ⟨node.disk, some ((⟨base, kept⟩ : SegView).seg capacity), kept⟩ := by
  have positive := inv.positive
  obtain ⟨os', seg, opens, os'', reads, recovers⟩ := @segment_recovered scratchLen capacity scratch
    inv.header node.disk.os rfl ⟨base, kept⟩ reason (by simp only; omega) inv.named scan
  have disks : os''.disk = node.disk := reads.disk
  have taken : takeRecs kept.length (node.disk.file base).vol = kept := by
    have found := scan.stored.taken
    simp only [SegView.next, Nat.add_sub_cancel_left] at found
    exact found
  simp only at opens
  unfold SegNode.recover
  rw [opens]
  simp only
  rw [recovers]
  cases reason with
  | cut size =>
      left
      simp only [SegView.result, disks]
  | clean =>
      right
      simp only [SegView.result, disks, taken]
  | torn =>
      right
      simp only [SegView.result, disks, taken]

theorem SegInv.recover (inv : SegInv base capacity node) {scratchLen : Nat}
    (scratch : WAL_REC_MAX_SIZE ≤ scratchLen) :
    SegInv base capacity (node.recover base capacity scratchLen) := by
  obtain ⟨kept, reason, early, scan, settled⟩ := inv.finds
  rcases recover_either inv scratch scan with failed | found
  · rw [failed]
    exact inv.kill
  · rw [found]
    refine ⟨inv.named, inv.positive, inv.header, scan.isRecs, scan.front.2,
      ⟨kept, reason, List.prefix_refl _, scan, ?_⟩, ?_⟩
    · rcases settled with same | ⟨all, same⟩
      · exact Or.inl same
      · right
        rw [← all] at same
        exact ⟨rfl, same⟩
    · intro s' same
      cases same
      exact ⟨⟨rfl, rfl, rfl, rfl⟩, reason, scan⟩

theorem SegInv.created (created : node.created base capacity) : SegInv base capacity node := by
  obtain ⟨disk, seg, os, absent, creates, shape⟩ := created
  have valid : base ≠ 0 ∧ WAL_REC_HEADER_SIZE ≤ capacity := by
    unfold walSegCreate at creates
    split at creates
    · cases creates
    · rename_i valid
      rw [not_or] at valid
      exact ⟨valid.1, by omega⟩
  rw [walSegCreate_calm rfl valid.1 valid.2 absent] at creates
  cases creates
  have content : (disk.created base capacity).file base = ⟨zeros capacity, zeros capacity⟩ :=
    Disk.file_created_same disk base capacity
  have scan : Scans capacity base ((zeros capacity).take capacity) [] .clean :=
    .stop (scanHead_blank (fun byte present =>
      List.eq_of_mem_replicate (List.mem_of_mem_take present)))
  have content' : (disk.os.disk.created base capacity).file base =
      ⟨zeros capacity, zeros capacity⟩ := content
  rw [shape]
  refine ⟨?_, valid.1, valid.2, trivial, Nat.zero_le _, ⟨[], .clean, List.prefix_refl _, ?_,
    Or.inl ?_⟩, ?_⟩
  · change base ∈ (disk.created base capacity).dir
    rw [Disk.dir_created]
    exact List.mem_append_right _ (List.mem_singleton.mpr rfl)
  · simp only [content']
    exact scan
  · simp only [content']
  · intro s' same
    cases same
    refine ⟨⟨rfl, rfl, rfl, rfl⟩, .clean, ?_⟩
    simp only [content']
    exact scan

/-- Every step that meets the condition keeps the invariant. -/
theorem SegInv.step (inv : SegInv base capacity node) {event : SegEvent}
    (guarded : node.guard base capacity event) (legal : node.legal base event) :
    SegInv base capacity (node.after base capacity event) := by
  cases event with
  | append r payload scratchLen => exact inv.append legal guarded
  | sync => exact inv.sync
  | kill => exact inv.kill
  | powerLoss left => exact inv.powerLoss legal guarded
  | recover scratchLen => exact inv.recover legal

end Steps

/-- The loss of one payload byte of the second record, of 64 bytes like the first. -/
def SegNode.torn (node : SegNode) : SegEvent :=
  .powerLoss ((node.disk.file 1).vol.set 120 0)

end Msgsrvd

/-
No lost wakeup: what the streams could be given while the loop waits for events.

A pass that finds nothing for a stream lets the loop wait, and what it finds depends on the
room that the replies staged before leave, and on the reads in the slots before.
-/

import Msgsrvd.Server.Barrier
import Msgsrvd.Server.Floor
import Msgsrvd.Server.Owners
import Msgsrvd.Server.Removed

namespace Msgsrvd

open Bytestring

/-! ### Reads that find nothing -/

/-- Where a cursor may find its next record: where it stands, or at the start of another
segment that the table names for it. -/
def WalCursor.places (c : WalCursor) (w : Wal) : List (Nat × Nat) :=
  c.fd.toList.map (fun fd => (fd, c.off)) ++
    ((segIndexOf w.segBase c.nextSeq).filter (fun base => base ≠ c.segBase)).toList.map
      (fun base => (base, 0))

/-- What lies in a file from a place on. -/
def Disk.from (disk : Disk) (place : Nat × Nat) : Bytes := (disk.file place.1).vol.drop place.2

/-- The record that a place has for a cursor. -/
def Disk.nextAt (disk : Disk) (next : Nat) (place : Nat × Nat) : Option WalRec :=
  (walRecDecode (disk.from place)).filter (fun r => !walRecIsEnd r && r.seq == next)

/-- A block of this size does not hold the record. -/
def Fruitless (disk : Disk) (next room : Nat) (place : Nat × Nat) : Prop :=
  ∀ r, disk.nextAt next place = some r →
    walRecSize (i32 r.len) = 0 ∨
      min room (disk.from place).length < walRecSize (i32 r.len)

/-- A cursor has nothing to read up to the limit, in a buffer of this size. -/
def WalCursor.Dry (c : WalCursor) (disk : Disk) (w : Wal) (limit room : Nat) : Prop :=
  limit < c.nextSeq ∨ ∀ place ∈ c.places w, Fruitless disk c.nextSeq room place

theorem nextAt_some {disk : Disk} {next : Nat} {place : Nat × Nat} {r : WalRec} :
    disk.nextAt next place = some r ↔
      walRecDecode (disk.from place) = some r ∧ walRecIsEnd r = false ∧ r.seq = next := by
  unfold Disk.nextAt
  rw [Option.filter_eq_some_iff, Bool.and_eq_true, Bool.not_eq_true', beq_iff_eq]

/-- The first record of a block, as the walk meets it. -/
theorem cursorWalk_first {buf : Bytes} {limit next used next' : Nat}
    (walked : cursorWalk buf limit buf.length 0 next = (.ok (), used, next')) :
    0 < used ↔ next ≤ limit ∧ ∃ r, walRecDecode buf = some r ∧ walRecIsEnd r = false ∧
      r.seq = next ∧ walRecSize (i32 r.len) ≠ 0 ∧ walRecSize (i32 r.len) ≤ buf.length := by
  cases length : buf.length with
  | zero =>
      rw [length] at walked
      cases walked
      refine ⟨fun moved => absurd moved (Nat.lt_irrefl 0), ?_⟩
      rintro ⟨_reach, r, _decoded, _record, _seq, sized, fits⟩
      omega
  | succ fuel =>
      rw [length] at walked
      unfold cursorWalk at walked
      rw [if_pos (by omega), List.drop_zero] at walked
      cases decoded : walRecDecode buf with
      | none =>
          rw [decoded] at walked
          cases walked
          refine ⟨fun moved => absurd moved (Nat.lt_irrefl 0), ?_⟩
          rintro ⟨_reach, r, some', _rest⟩
          cases some'
      | some r =>
          rw [decoded] at walked
          simp only at walked
          by_cases isEnd : walRecIsEnd r = true
          · rw [if_pos isEnd] at walked
            cases walked
            refine ⟨fun moved => absurd moved (Nat.lt_irrefl 0), ?_⟩
            rintro ⟨_reach, r', same, record, _rest⟩
            cases same
            rw [isEnd] at record
            cases record
          · rw [if_neg isEnd] at walked
            by_cases other : r.seq ≠ next
            · rw [if_pos other] at walked
              cases walked
            · rw [if_neg other] at walked
              by_cases past : next > limit
              · rw [if_pos past] at walked
                cases walked
                exact ⟨fun moved => absurd moved (Nat.lt_irrefl 0),
                  fun given => absurd given.1 (by omega)⟩
              · rw [if_neg past] at walked
                by_cases unsized : walRecSize (i32 r.len) = 0
                · rw [if_pos unsized] at walked
                  cases walked
                · rw [if_neg unsized] at walked
                  by_cases large : 0 + walRecSize (i32 r.len) > buf.length
                  · rw [if_pos large] at walked
                    cases walked
                    refine ⟨fun moved => absurd moved (Nat.lt_irrefl 0), ?_⟩
                    rintro ⟨_reach, r', same, _record, _seq, _sized, fits⟩
                    cases same
                    omega
                  · rw [if_neg large] at walked
                    have moved := (cursorWalk_used walked).1
                    refine ⟨fun _ => ⟨by omega, r, rfl, (Bool.not_eq_true _).mp isEnd,
                      not_not.mp other, unsized, by omega⟩, fun _ => by omega⟩

/-- A walk over the block at a place takes nothing exactly where there is nothing for it. -/
theorem cursorWalk_fruitless {disk : Disk} {place : Nat × Nat} {limit room next used next' : Nat}
    (walked : cursorWalk (slice (disk.file place.1).vol place.2 room) limit
      (slice (disk.file place.1).vol place.2 room).length 0 next = (.ok (), used, next')) :
    used = 0 ↔ limit < next ∨ Fruitless disk next room place := by
  have block : slice (disk.file place.1).vol place.2 room = (disk.from place).take room := rfl
  have first := cursorWalk_first walked
  rw [block, List.length_take] at first
  constructor
  · intro nothing
    by_cases past : limit < next
    · exact .inl past
    · right
      intro r found
      obtain ⟨decoded, record, seq⟩ := nextAt_some.mp found
      by_cases unsized : walRecSize (i32 r.len) = 0
      · exact .inl unsized
      · by_cases large : min room (disk.from place).length < walRecSize (i32 r.len)
        · exact .inr large
        · have header := header_le_walRecSize unsized
          have moved := first.mpr ⟨by omega, r,
            (walRecDecode_take _ _ (by omega)).trans decoded, record, seq, unsized, by omega⟩
          omega
  · intro nothing
    by_cases moved : 0 < used
    · obtain ⟨reach, r, decoded, record, seq, sized, fits⟩ := first.mp moved
      rcases nothing with past | fruitless
      · omega
      · have header := header_le_walRecSize sized
        rw [walRecDecode_take _ _ (by omega)] at decoded
        rcases fruitless r (nextAt_some.mpr ⟨decoded, record, seq⟩) with unsized | large
        · exact absurd unsized sized
        · omega
    · omega

theorem cursorOpenSeg_place {os os' : Os} {c c' : WalCursor} {base : Nat}
    (opened : cursorOpenSeg os c base = (.ok (), c', os')) :
    c' = { c with fd := some base, segBase := base, off := 0 } ∧ os'.disk = os.disk := by
  have kept := (cursorOpenSeg_alike (.refl os) c base).kept
  rw [opened] at kept
  refine ⟨?_, kept⟩
  unfold cursorOpenSeg at opened
  cases opens : osOpenat os base with
  | mk res os1 =>
      rw [opens] at opened
      cases res with
      | error e => cases opened
      | ok fd =>
          have named : fd = base := by
            unfold osOpenat at opens
            split at opens
            · split at opens
              · cases opens
              · cases opens
                rfl
            · cases opens
          cases opened
          rw [named]

/-- Opening the segment that the table names leaves one of the places. -/
theorem places_opened {w : Wal} {c : WalCursor} {base : Nat}
    (table : segIndexOf w.segBase c.nextSeq = some base) :
    ({ c with fd := some base, segBase := base, off := 0 } : WalCursor).places w = [(base, 0)] := by
  unfold WalCursor.places
  rw [table]
  simp

theorem mem_places_table {w : Wal} {c : WalCursor} {base : Nat}
    (table : segIndexOf w.segBase c.nextSeq = some base) (differ : base ≠ c.segBase) :
    (base, 0) ∈ c.places w := by
  unfold WalCursor.places
  rw [table]
  simp [differ]

theorem mem_places_here {w : Wal} {c : WalCursor} {fd : Nat} (opened : c.fd = some fd) :
    (fd, c.off) ∈ c.places w := by
  unfold WalCursor.places
  rw [opened]
  simp

/-- A dry cursor is given nothing, whatever the kernel answers. -/
theorem WalCursor.Dry.attempt {w : Wal} {limit room attempts : Nat} {os os' : Os}
    {c c' : WalCursor} {got : Bytes} (dry : c.Dry os.disk w limit room)
    (read : cursorAttempt w limit room attempts os c = (.ok got, c', os')) : got = [] := by
  induction attempts generalizing os c with
  | zero =>
      cases read
      rfl
  | succ attempts ih =>
      obtain ⟨buf, os1, used, next, preads, walks, ends⟩ := cursorAttempt_ok read
      cases opened : c.fd with
      | none =>
          rw [opened] at preads
          cases preads
      | some fd =>
          rw [opened] at preads
          obtain ⟨rfl, disk⟩ := osPreadFull_ok preads
          have nothing := (@cursorWalk_fruitless os.disk (fd, c.off) _ _ _ _ _ walks).mpr
            (dry.imp id (fun fruitless => fruitless _ (mem_places_here opened)))
          rcases ends with ⟨moved, -, -⟩ | ⟨-, empty, -, -⟩ |
            ⟨-, base, c2, os2, table, differ, opens, again⟩
          · omega
          · exact empty
          · obtain ⟨rfl, disk2⟩ := cursorOpenSeg_place opens
            refine ih ?_ again
            rw [disk2, disk]
            refine dry.imp id (fun fruitless place listed => ?_)
            rw [places_opened table, List.mem_singleton] at listed
            rw [listed]
            exact fruitless _ (mem_places_table table differ)

/-- The read of a dry cursor gives nothing. -/
theorem WalCursor.Dry.read {w : Wal} {limit room : Nat} {os os' : Os} {c c' : WalCursor}
    {got : Bytes} (dry : c.Dry os.disk w limit room)
    (read : walCursorRead os w c limit room = (.ok got, c', os')) : got = [] := by
  unfold walCursorRead at read
  split at read
  · cases read
  · split at read
    · cases read
    · split at read
      · cases read
        rfl
      · exact dry.attempt read

/-- How an attempt goes that takes nothing. -/
theorem cursorAttempt_empty {w : Wal} {limit room attempts : Nat} {os os' : Os}
    {c c' : WalCursor}
    (read : cursorAttempt w limit room (attempts + 1) os c = (.ok [], c', os')) :
    ∃ fd, c.fd = some fd ∧
      (limit < c.nextSeq ∨ Fruitless os.disk c.nextSeq room (fd, c.off)) ∧
      ((c' = c ∧ ∀ base, segIndexOf w.segBase c.nextSeq = some base → base = c.segBase) ∨
        ∃ base os2, segIndexOf w.segBase c.nextSeq = some base ∧ base ≠ c.segBase ∧
          os2.disk = os.disk ∧
          cursorAttempt w limit room attempts os2
            { c with fd := some base, segBase := base, off := 0 } = (.ok [], c', os')) := by
  obtain ⟨buf, os1, used, next, preads, walks, ends⟩ := cursorAttempt_ok read
  cases opened : c.fd with
  | none =>
      rw [opened] at preads
      cases preads
  | some fd =>
      rw [opened] at preads
      obtain ⟨rfl, disk⟩ := osPreadFull_ok preads
      have fruitless := @cursorWalk_fruitless os.disk (fd, c.off) _ _ _ _ _ walks
      rcases ends with ⟨moved, taken, -⟩ | ⟨none', -, still, stops⟩ |
        ⟨none', base, c2, os2, table, differ, opens, again⟩
      · obtain ⟨-, r, -, -, -, sized, fits⟩ := (cursorWalk_first walks).mp moved
        rcases List.take_eq_nil_iff.mp taken.symm with zero | hollow
        · omega
        · rw [hollow, List.length_nil] at fits
          omega
      · exact ⟨fd, rfl, fruitless.mp none', .inl ⟨still, stops⟩⟩
      · obtain ⟨rfl, disk2⟩ := cursorOpenSeg_place opens
        exact ⟨fd, rfl, fruitless.mp none',
          .inr ⟨base, os2, table, differ, disk2.trans disk, again⟩⟩

/-- Two cursors that stand before the same record, the second at a place of the first. -/
structure WalCursor.Stays (c c' : WalCursor) (w : Wal) : Prop where
  nextSeq : c'.nextSeq = c.nextSeq
  places : ∀ place ∈ c'.places w, place ∈ c.places w

theorem WalCursor.Stays.refl (c : WalCursor) (w : Wal) : c.Stays c w :=
  ⟨rfl, fun _ listed => listed⟩

/-- The places of a cursor that has no other segment to go to. -/
theorem places_last {w : Wal} {c : WalCursor} {fd : Nat} (opened : c.fd = some fd)
    (stops : ∀ base, segIndexOf w.segBase c.nextSeq = some base → base = c.segBase) :
    c.places w = [(fd, c.off)] := by
  have nowhere : (segIndexOf w.segBase c.nextSeq).filter (fun base => base ≠ c.segBase) = none := by
    rw [Option.filter_eq_none_iff]
    intro base table
    simp only [stops base table, ne_eq, not_true_eq_false, decide_false, Bool.false_eq_true,
      not_false_eq_true]
  unfold WalCursor.places
  rw [nowhere, opened]
  rfl

/-- A read that gives nothing has found nothing where it leaves the cursor. -/
theorem walCursorRead_dry {w : Wal} {limit room : Nat} {os os' : Os} {c c' : WalCursor}
    (read : walCursorRead os w c limit room = (.ok [], c', os')) :
    c.Stays c' w ∧ c'.Dry os.disk w limit room := by
  unfold walCursorRead at read
  split at read
  · cases read
  · split at read
    · cases read
    · split at read
      · rename_i past
        cases read
        exact ⟨.refl c w, .inl past⟩
      · obtain ⟨fd, opened, here, ⟨rfl, stops⟩ | ⟨base, os2, table, differ, disk, again⟩⟩ :=
          cursorAttempt_empty read
        · refine ⟨.refl c' w, here.imp id (fun fruitless place listed => ?_)⟩
          rw [places_last opened stops, List.mem_singleton] at listed
          rw [listed]
          exact fruitless
        · have listed : ∀ place ∈ ({ c with fd := some base, segBase := base, off := 0 } :
              WalCursor).places w, place = (base, 0) := by
            intro place inside
            rw [places_opened table] at inside
            exact List.mem_singleton.mp inside
          obtain ⟨fd', opened', there, ⟨rfl, -⟩ | ⟨base', os3, table', differ', -⟩⟩ :=
            cursorAttempt_empty again
          · refine ⟨⟨rfl, fun place inside => ?_⟩, ?_⟩
            · rw [listed place inside]
              exact mem_places_table table differ
            · rw [disk] at there
              refine there.imp id (fun fruitless place inside => ?_)
              rw [listed place inside]
              cases opened'
              exact fruitless
          · rw [table] at table'
            cases table'
            exact absurd rfl differ'

theorem Fruitless.widen {disk : Disk} {next room cap : Nat} {place : Nat × Nat}
    (fruitless : Fruitless disk next room place)
    (fits : ∀ r, disk.nextAt next place = some r →
      walRecSize (i32 r.len) ≤ room ∨ cap < walRecSize (i32 r.len)) :
    Fruitless disk next cap place := by
  intro r found
  rcases fruitless r found with unsized | large
  · exact .inl unsized
  · rcases fits r found with small | never
    · exact .inr (by omega)
    · exact .inr (by omega)

/-- What is dry stays so when the log only loses segments from the front. -/
theorem WalCursor.Dry.later {c : WalCursor} {disk disk' : Disk} {w w' : Wal}
    {limit limit' room room' : Nat} {gone : List Nat} (dry : c.Dry disk w limit room)
    (file : disk'.file = disk.file) (table : w.segBase = gone ++ w'.segBase)
    (below : limit' ≤ limit) (less : room' ≤ room) : c.Dry disk' w' limit' room' := by
  rcases dry with past | fruitless
  · exact .inl (by omega)
  · right
    intro place listed
    have kept : place ∈ c.places w := by
      unfold WalCursor.places at listed ⊢
      rw [List.mem_append] at listed ⊢
      refine listed.imp id (fun other => ?_)
      rw [List.mem_map] at other ⊢
      obtain ⟨base, found, rfl⟩ := other
      refine ⟨base, ?_, rfl⟩
      rw [Option.mem_toList, Option.filter_eq_some_iff] at found ⊢
      refine ⟨?_, found.2⟩
      unfold segIndexOf at found ⊢
      rw [table, List.reverse_append, List.find?_append, found.1]
      rfl
    intro r found
    have same : disk'.from place = disk.from place := by
      unfold Disk.from
      rw [file]
    unfold Disk.nextAt at found
    rw [same] at found ⊢
    rcases fruitless place kept r found with unsized | large
    · exact .inl unsized
    · exact .inr (by omega)

/-! ### What an arm phase leaves -/

/-- A connection still in use after it may have been sent from. -/
def LoopConn.Left (c c' : LoopConn) : Prop :=
  c'.inUse = true → c'.closing = false →
    c.inUse = true ∧ c.closing = false ∧ (c'.wantOut = false → c.wantOut = false) ∧
      c'.sendCap = c.sendCap ∧ c'.replica = c.replica ∧ c'.sub = c.sub

structure Settles (l l' : Loop) : Prop where
  wal : l'.wal = l.wal
  disk : l'.os.disk = l.os.disk
  progress : l'.progress = l.progress
  peer : ∀ idx, l'.peer idx = l.peer idx ∨ (l'.peer idx).cursor.fd = none
  conn : ∀ slot, (l.conns slot).Left (l'.conns slot)

variable {l l' l'' m : Loop} {slot : Nat} {pass : Pass}

theorem LoopConn.Left.refl (c : LoopConn) : c.Left c :=
  fun used stays => ⟨used, stays, id, rfl, rfl, rfl⟩

theorem LoopConn.Left.trans {c c' c'' : LoopConn} (left : c.Left c') (right : c'.Left c'') :
    c.Left c'' := by
  intro used stays
  obtain ⟨used', stays', unwatched', cap', replica', sub'⟩ := right used stays
  obtain ⟨used, stays, unwatched, cap, replica, sub⟩ := left used' stays'
  exact ⟨used, stays, fun want => unwatched (unwatched' want), cap'.trans cap,
    replica'.trans replica, sub'.trans sub⟩

theorem Settles.of_same (wal : l'.wal = l.wal) (disk : l'.os.disk = l.os.disk)
    (progress : l'.progress = l.progress) (peer : l'.peer = l.peer) (conns : l'.conns = l.conns) :
    Settles l l' :=
  ⟨wal, disk, progress, fun idx => .inl (by rw [peer]), fun slot => by rw [conns]; exact .refl _⟩

theorem Settles.refl (l : Loop) : Settles l l := .of_same rfl rfl rfl rfl rfl

theorem Settles.trans (left : Settles l l') (right : Settles l' l'') : Settles l l'' where
  wal := right.wal.trans left.wal
  disk := right.disk.trans left.disk
  progress := right.progress.trans left.progress
  peer := by
    intro idx
    rcases right.peer idx with same | closed
    · rw [same]
      exact left.peer idx
    · exact .inr closed
  conn := fun slot => (left.conn slot).trans (right.conn slot)

theorem Settles.foldl {α : Type} {f : Loop → α → Loop} (each : ∀ l a, Settles l (f l a))
    (items : List α) (l : Loop) : Settles l (items.foldl f l) := by
  induction items generalizing l with
  | nil => exact .refl l
  | cons item rest ih => exact (each l item).trans (ih (f l item))

theorem setConn_settles {c : LoopConn} (left : (l.conns slot).Left c) :
    Settles l (l.setConn slot c) where
  wal := rfl
  disk := rfl
  progress := rfl
  peer := fun _ => .inl rfl
  conn := by
    intro other
    by_cases same : other = slot
    · rw [same, conns_setConn]
      exact left
    · rw [conns_setConn_other l c same]
      exact .refl _

theorem close_settles (l : Loop) (slot : Nat) : Settles l (l.close slot) :=
  setConn_settles (fun _ stays => by cases stays)

theorem note_settles (l : Loop) (note : Note) : Settles l (l.note note) :=
  .of_same rfl rfl rfl rfl rfl

theorem connWantOut_settles (l : Loop) (slot : Nat) (ctl : Bool) {want : Bool}
    (unwatched : (l.conns slot).wantOut = false) : Settles l (connWantOut l slot want ctl) := by
  unfold connWantOut
  simp only
  split
  · exact .refl l
  · split
    · exact close_settles l slot
    · exact setConn_settles (fun used stays => ⟨used, stays, fun _ => unwatched, rfl, rfl, rfl⟩)

theorem loopSendDone_settles (l : Loop) (slot : Nat) (res : Int) :
    Settles l (loopSendDone l slot res) := by
  unfold loopSendDone
  simp only
  split
  · exact .refl l
  · split
    · exact setConn_settles (fun _ stays => by cases stays)
    · exact setConn_settles (fun used stays => ⟨used, stays, id, rfl, rfl, rfl⟩)

theorem connSend_settles (l : Loop) (slot : Nat) (answer : SendAnswer)
    (unwatched : (l.conns slot).wantOut = false) : Settles l (connSend l slot answer) := by
  have still : ((loopSendDone (l.note (.handed slot (walDurableSeq l.wal) (l.conns slot).sendBuf
      (takenOf answer.res (l.conns slot).sendBuf))) slot answer.res).conns slot).wantOut =
        false := by
    unfold loopSendDone
    simp only
    split
    · exact unwatched
    · split
      · rw [conns_setConn]
        exact unwatched
      · rw [conns_setConn]
        exact unwatched
  unfold connSend
  simp only
  split
  · exact (note_settles l _).trans (connWantOut_settles _ slot _ unwatched)
  · exact ((note_settles l _).trans (loopSendDone_settles _ slot _)).trans
      (connWantOut_settles _ slot _ still)

theorem closeCursor_disk (os : Os) (c : WalCursor) : (walCursorClose os c).2.disk = os.disk :=
  (walCursorClose_alike (.refl os) c).2.2

theorem replicaRelease_settles (l : Loop) (idx : Nat) : Settles l (replicaRelease l idx) := by
  unfold replicaRelease
  split
  · exact .refl l
  · simp only
    have disk := closeCursor_disk l.os (l.peer idx).cursor
    have cursor := walCursorClose_cursor l.os (l.peer idx).cursor
    generalize walCursorClose l.os (l.peer idx).cursor = closed at disk cursor ⊢
    refine ⟨rfl, disk, rfl, fun other => ?_, fun _ => .refl _⟩
    by_cases same : other = idx
    · right
      rw [same]
      change (if idx = idx then _ else l.peer idx : LoopPeer).cursor.fd = none
      rw [if_pos rfl]
      exact congrArg WalCursor.fd cursor
    · exact .inl (if_neg same)

theorem slotRelease_settles (l : Loop) (slot : Nat) : Settles l (slotRelease l slot) := by
  have reset (l1 : Loop) : Settles l1 ((slotReset l1 slot).note (.released slot)) := by
    have empty : Settles l1 (l1.setConn slot slotEmpty) :=
      setConn_settles (fun used _ => by cases used)
    exact empty.trans (note_settles _ _)
  have closes (l1 : Loop) : Settles l1
      { l1 with os := (walCursorClose l1.os (l.conns slot).sub.cursor).2 } :=
    .of_same rfl (closeCursor_disk _ _) rfl rfl rfl
  unfold slotRelease
  simp only
  split
  · exact .refl l
  · cases (l.conns slot).replica with
    | none =>
        cases (l.conns slot).sub.cursor.fd with
        | none => exact reset l
        | some fd => exact (closes l).trans (reset _)
    | some idx =>
        have released := replicaRelease_settles l idx
        cases (l.conns slot).sub.cursor.fd with
        | none => exact released.trans (reset _)
        | some fd => exact released.trans ((closes _).trans (reset _))

theorem armConn_settles (sends : Nat → SendAnswer) (l : Loop) (slot : Nat) :
    Settles l (armConn sends l slot) := by
  unfold armConn
  split
  · exact .refl l
  · simp only
    have sent : Settles l (if (l.conns slot).sendBuf ≠ [] ∧ ¬ (l.conns slot).wantOut = true then
        connSend l slot (sends slot) else l) := by
      split
      · rename_i sends'
        exact connSend_settles l slot _ ((Bool.not_eq_true _).mp sends'.2)
      · exact .refl l
    generalize (if (l.conns slot).sendBuf ≠ [] ∧ ¬ (l.conns slot).wantOut = true then
      connSend l slot (sends slot) else l) = l1 at sent ⊢
    split
    · exact sent.trans (slotRelease_settles l1 slot)
    · have compacted : Settles l1 (l1.setConn slot
          { l1.conns slot with conn := connCompact (l1.conns slot).conn }) :=
        setConn_settles (fun used stays => ⟨used, stays, id, rfl, rfl, rfl⟩)
      split
      · exact ((sent.trans compacted).trans (close_settles _ slot)).trans
          (slotRelease_settles _ slot)
      · exact sent.trans compacted

/-- Only the follower's stream has changed. -/
def Upstream (l l' : Loop) : Prop :=
  ∃ stream trace, l' = { l with stream := stream, trace := trace }

theorem Upstream.settles (upstream : Upstream l l') : Settles l l' := by
  obtain ⟨stream, trace, rfl⟩ := upstream
  exact .of_same rfl rfl rfl rfl rfl

theorem Upstream.refl (l : Loop) : Upstream l l := ⟨l.stream, l.trace, rfl⟩

theorem Upstream.trans (left : Upstream l l') (right : Upstream l' l'') : Upstream l l'' := by
  obtain ⟨stream, trace, rfl⟩ := left
  obtain ⟨stream', trace', rfl⟩ := right
  exact ⟨stream', trace', rfl⟩

theorem stream_upstream (l : Loop) (stream : LoopStream) : Upstream l { l with stream := stream } :=
  ⟨stream, l.trace, rfl⟩

theorem streamFrame_upstream (l : Loop) (op sequence : Nat) :
    Upstream l (streamFrame l op sequence) := by
  unfold streamFrame
  split
  · exact .refl l
  · exact ⟨_, _, rfl⟩

theorem onReplDial_upstream (l : Loop) (connected ctl : Bool) :
    Upstream l (onReplDial l connected ctl) := by
  unfold onReplDial
  simp only
  split
  · exact ⟨_, _, rfl⟩
  · split
    · exact ⟨_, _, rfl⟩
    · exact Upstream.trans ⟨_, _, rfl⟩ (streamFrame_upstream _ _ _)

theorem replDial_upstream (l : Loop) (answer : DialAnswer) : Upstream l (replDial l answer) := by
  unfold replDial
  split
  · exact .refl l
  · split
    · exact .refl l
    · split
      · exact .refl l
      · cases answer with
        | connected ctl => exact Upstream.trans ⟨_, _, rfl⟩ (onReplDial_upstream _ _ _)
        | refused => exact Upstream.trans ⟨_, _, rfl⟩ (onReplDial_upstream _ _ _)
        | noSocket => exact ⟨_, _, rfl⟩
        | noWatch => exact ⟨_, _, rfl⟩
        | inProgress => exact ⟨_, _, rfl⟩

theorem streamSend_upstream (l : Loop) (answer : SendAnswer) :
    Upstream l (streamSend l answer) := by
  have want (l : Loop) (out ctl : Bool) : Upstream l (streamWantOut l out ctl) := by
    unfold streamWantOut
    split
    · exact .refl l
    · split
      · exact ⟨_, _, rfl⟩
      · exact ⟨_, _, rfl⟩
  have sent (l : Loop) (res : Int) : Upstream l (onReplSend l res) := by
    unfold onReplSend
    split
    · exact ⟨_, _, rfl⟩
    · exact ⟨_, _, rfl⟩
  unfold streamSend
  simp only
  split
  · exact Upstream.trans ⟨_, _, rfl⟩ (want _ _ _)
  · exact (Upstream.trans ⟨_, _, rfl⟩ (sent _ _)).trans (want _ _ _)

theorem armStream_upstream (l : Loop) (answer : SendAnswer) : Upstream l (armStream l answer) := by
  unfold armStream streamRelease
  simp only
  split
  · exact .refl l
  · split
    · split
      · exact .refl l
      · exact ⟨_, _, rfl⟩
    · have sent : Upstream l (if l.stream.sendBuf ≠ [] ∧ ¬ l.stream.wantOut = true then
          streamSend l answer else l) := by
        split
        · exact streamSend_upstream l answer
        · exact .refl l
      generalize (if l.stream.sendBuf ≠ [] ∧ ¬ l.stream.wantOut = true then streamSend l answer
        else l) = l1 at sent ⊢
      split
      · exact sent
      · split
        · exact sent.trans ⟨_, _, rfl⟩
        · exact sent.trans ⟨_, _, rfl⟩

theorem streamReport_upstream (l : Loop) : Upstream l (streamReport l) := by
  unfold streamReport
  split
  · exact .refl l
  · split
    · exact .refl l
    · split
      · exact .refl l
      · exact (streamFrame_upstream l _ _).trans (stream_upstream _ _)

/-- An arm phase changes no stream that goes on. -/
theorem armPhase_settles (l : Loop) (arm : Arm) : Settles l (armPhase l arm) := by
  unfold armPhase armConns
  exact ((replDial_upstream l arm.dial).settles.trans
    (.foldl (armConn_settles arm.sends) _ _)).trans (armStream_upstream _ _).settles

/-! ### What a pass leaves of its streams -/

/-- How far a stream goes in a log that is flushed up to here. -/
def LoopSub.reach (sub : LoopSub) (durable : Nat) : Nat :=
  if sub.once then min durable sub.untilSeq else durable

/-- The block that a stream is read into when nothing is staged ahead of it. -/
def LoopConn.block (c : LoopConn) : Nat := min c.sendCap SCRATCH_LEN

/-- `subs_push` goes on with the stream. -/
structure LoopConn.Streaming (c : LoopConn) : Prop where
  used : c.inUse = true
  stays : c.closing = false
  started : c.sub.waiting = false
  active : c.sub.active = true
  unwatched : c.wantOut = false

/-- There is nothing more for the stream, whatever its buffer holds. -/
structure LoopConn.Sated (c : LoopConn) (disk : Disk) (w : Wal) : Prop where
  goes : c.sub.once = true → c.sub.cursor.nextSeq ≤ c.sub.untilSeq
  dry : c.sub.cursor.Dry disk w (c.sub.reach (walDurableSeq w)) c.block

/-- What is staged ahead of a stream leaves it the room it needs, and no read in a slot
before holds it back: `cap` is how far the reads before let it see. -/
structure LoopConn.Clear (c : LoopConn) (disk : Disk) (w : Wal) (cap : Nat) : Prop where
  last : c.sub.once = true → c.sub.untilSeq < c.sub.cursor.nextSeq → MSG_HEADER_SIZE ≤ c.room
  ahead : c.sub.cursor.nextSeq ≤ c.sub.reach (walDurableSeq w) → c.sub.cursor.nextSeq ≤ cap
  fits : c.sub.cursor.nextSeq ≤ c.sub.reach (walDurableSeq w) →
    ∀ place ∈ c.sub.cursor.places w, ∀ r, disk.nextAt c.sub.cursor.nextSeq place = some r →
      walRecSize (i32 r.len) ≤ c.room ∨ c.block < walRecSize (i32 r.len)

/-- The same connection, apart from its stream and what is staged on it. -/
structure LoopConn.Kept (c c' : LoopConn) : Prop where
  inUse : c'.inUse = c.inUse
  closing : c.closing = true → c'.closing = true
  wantOut : c'.wantOut = c.wantOut
  sendCap : c'.sendCap = c.sendCap
  replica : c'.replica = c.replica

theorem LoopConn.Kept.refl (c : LoopConn) : c.Kept c := ⟨rfl, id, rfl, rfl, rfl⟩

theorem LoopConn.Kept.trans {c c' c'' : LoopConn} (left : c.Kept c') (right : c'.Kept c'') :
    c.Kept c'' :=
  ⟨right.inUse.trans left.inUse, fun ends => right.closing (left.closing ends),
    right.wantOut.trans left.wantOut, right.sendCap.trans left.sendCap,
    right.replica.trans left.replica⟩

/-- Progress once noted stays noted, and the replicas are left alone. -/
structure Rises (l l' : Loop) : Prop where
  progress : l.progress = true → l'.progress = true
  peer : l'.peer = l.peer
  conn : ∀ slot, (l.conns slot).Kept (l'.conns slot)

theorem Rises.of_conns (progress : l.progress = true → l'.progress = true)
    (peer : l'.peer = l.peer) (conns : l'.conns = l.conns) : Rises l l' :=
  ⟨progress, peer, fun slot => by rw [conns]; exact .refl _⟩

theorem Rises.refl (l : Loop) : Rises l l := .of_conns id rfl rfl

theorem Rises.trans (left : Rises l l') (right : Rises l' l'') : Rises l l'' :=
  ⟨fun noted => right.progress (left.progress noted), right.peer.trans left.peer,
    fun slot => (left.conn slot).trans (right.conn slot)⟩

theorem setConn_rises {c : LoopConn} (kept : (l.conns slot).Kept c) :
    Rises l (l.setConn slot c) where
  progress := id
  peer := rfl
  conn := by
    intro other
    by_cases same : other = slot
    · rw [same, conns_setConn]
      exact kept
    · rw [conns_setConn_other l c same]
      exact .refl _

theorem setSub_rises (l : Loop) (slot : Nat) (sub : LoopSub) : Rises l (l.setSub slot sub) :=
  setConn_rises ⟨rfl, id, rfl, rfl, rfl⟩

theorem note_rises (l : Loop) (note : Note) : Rises l (l.note note) := .of_conns id rfl rfl

theorem os_rises (l : Loop) (os : Os) : Rises l { l with os := os } := .of_conns id rfl rfl

theorem replyFrame_rises (l : Loop) (slot : Nat) (frame : Frame) :
    Rises l (replyFrame l slot frame).2 := by
  unfold replyFrame
  simp only
  split
  · exact .refl l
  · have staged : Rises l (l.setConn slot
        { l.conns slot with sendBuf := (l.conns slot).sendBuf ++ frame.bytes }) :=
      setConn_rises ⟨rfl, id, rfl, rfl, rfl⟩
    exact ⟨staged.progress, staged.peer, staged.conn⟩

theorem replyErr_rises (l : Loop) (slot code sequence : Nat) :
    Rises l (replyErr l slot code sequence) := replyFrame_rises l slot _

theorem subAnswer_rises (l : Loop) (slot sequence : Nat) : Rises l (subAnswer l slot sequence) :=
  (replyFrame_rises l slot _).trans (note_rises _ _)

theorem pushRecord_rises (l : Loop) (slot : Nat) (r : WalRec) (payload : Bytes) :
    Rises l (pushRecord l slot r payload) := (replyFrame_rises l slot _).trans (note_rises _ _)

theorem pushRecords_rises (slot : Nat) (buf : Bytes) (fuel : Nat) (l : Loop) (at' : Nat) :
    Rises l (pushRecords slot buf fuel l at') := by
  induction fuel generalizing l at' with
  | zero => exact .refl l
  | succ fuel ih =>
      unfold pushRecords
      split
      · cases walRecDecode (buf.drop at') with
        | none => exact .refl l
        | some r =>
            simp only
            split
            · exact .refl l
            · refine Rises.trans ?_ (ih _ _)
              split
              · exact pushRecord_rises l slot r _
              · exact .refl l
      · exact .refl l

theorem subsPushWaiting_rises (durable : Nat) (l : Loop) (slot : Nat) :
    Rises l (subsPushWaiting durable l slot) := by
  unfold subsPushWaiting
  simp only
  split
  · have answered (sub : LoopSub) : Rises l
        (subAnswer (l.setSub slot sub) slot (l.conns slot).sub.cursor.nextSeq) :=
      (setSub_rises l slot sub).trans (subAnswer_rises _ slot _)
    exact ⟨fun _ => rfl, (answered _).peer, (answered _).conn⟩
  · split
    · exact ((((setSub_rises l slot _).trans (replyErr_rises _ slot _ _)).trans
        (note_rises _ _)).trans (os_rises _ _)).trans (setSub_rises _ slot _)
    · exact .refl l

theorem subsRead_rises (slot : Nat) (sub : LoopSub) (res : Except Err Bytes) (cursor : WalCursor)
    (l : Loop) : Rises l (subsRead slot sub res cursor l) := by
  have moved := setSub_rises l slot { sub with cursor := cursor }
  cases res with
  | error e =>
      exact (moved.trans (replyErr_rises _ slot _ _)).trans
        (setConn_rises ⟨rfl, fun _ => rfl, rfl, rfl, rfl⟩)
  | ok got =>
      have marked : Rises l (if got = [] then l.setSub slot { sub with cursor := cursor }
          else { l.setSub slot { sub with cursor := cursor } with progress := true }) := by
        split
        · exact moved
        · exact moved.trans (.of_conns (fun _ => rfl) rfl rfl)
      exact marked.trans (pushRecords_rises slot got got.length _ 0)

theorem subsPushRead_rises (durable room : Nat) (l : Loop) (slot : Nat) :
    Rises l (subsPushRead durable room l slot) := by
  rw [subsPushRead_eq]
  exact (os_rises l _).trans (subsRead_rises slot _ _ _ _)

theorem subsPushOne_rises (state : Loop × Nat) (slot : Nat) :
    Rises state.1 (subsPushOne state slot).1 := by
  obtain ⟨l, cap⟩ := state
  rw [subsPushOne_part]
  cases (l.conns slot).part with
  | idle => exact .refl l
  | held => exact subsPushWaiting_rises cap l slot
  | live => exact subsPushRead_rises cap _ l slot
  | last =>
      exact (((replyFrame_rises l slot _).trans (note_rises _ _)).trans (os_rises _ _)).trans
        (setSub_rises _ slot _)
  | bounded => exact (note_rises l _).trans (subsPushRead_rises _ _ _ slot)

theorem pushes_rises (slots : List Nat) (state : Loop × Nat) :
    Rises state.1 (slots.foldl subsPushOne state).1 := by
  induction slots generalizing state with
  | nil => exact .refl _
  | cons slot rest ih => exact (subsPushOne_rises state slot).trans (ih _)

/-- A read that is not noted as progress and does not fail has given nothing. -/
theorem subsPushRead_nothing {durable room : Nat}
    (still : (subsPushRead durable room l slot).progress = false)
    (stays : ((subsPushRead durable room l slot).conns slot).closing = false) :
    ∃ cursor os, walCursorRead l.os l.wal (l.conns slot).sub.cursor durable room =
        (.ok [], cursor, os) ∧
      subsPushRead durable room l slot =
        { l with os := os }.setSub slot { (l.conns slot).sub with cursor := cursor } := by
  rw [subsPushRead_eq] at still stays ⊢
  cases read : walCursorRead l.os l.wal (l.conns slot).sub.cursor durable room with
  | mk res rest =>
      obtain ⟨cursor, os⟩ := rest
      rw [read] at still stays
      cases res with
      | error e =>
          have closes := (subsRead_conn slot (l.conns slot).sub (.error e) cursor
            { l with os := os }).2
          simp only at stays
          rw [stays, show (!(Except.error e : Except Err Bytes).isOk) = true from rfl,
            Bool.or_true] at closes
          cases closes
      | ok got =>
          by_cases nothing : got = []
          · subst nothing
            exact ⟨cursor, os, rfl, rfl⟩
          · have noted := (pushRecords_rises slot got got.length
              { { l with os := os }.setSub slot { (l.conns slot).sub with cursor := cursor } with
                progress := true } 0).progress rfl
            unfold subsRead at still
            simp only at still
            rw [if_neg nothing, noted] at still
            cases still

/-- A stream that is held is not running. -/
def LoopSub.Apart (sub : LoopSub) : Prop := sub.waiting = true → sub.active = false

theorem LoopConn.Clear.fruitless {c : LoopConn} {disk : Disk} {w : Wal} {cap room : Nat}
    {cursor : WalCursor} (clear : c.Clear disk w cap) (stays : c.sub.cursor.Stays cursor w)
    (blocked : min c.room SCRATCH_LEN ≤ room)
    (dry : c.sub.cursor.nextSeq ≤ c.sub.reach (walDurableSeq w) →
      ∀ place ∈ cursor.places w, Fruitless disk c.sub.cursor.nextSeq room place) :
    cursor.Dry disk w (c.sub.reach (walDurableSeq w)) c.block := by
  unfold WalCursor.Dry
  rw [stays.nextSeq]
  by_cases past : c.sub.reach (walDurableSeq w) < c.sub.cursor.nextSeq
  · exact .inl past
  · have within := Nat.not_lt.mp past
    right
    intro place listed
    refine (dry within place listed).widen (fun r found => ?_)
    have bounded := walRecSize_le (i32 r.len)
    rcases clear.fits within place (stays.places place listed) r found with small | never
    · left
      unfold SCRATCH_LEN at blocked
      omega
    · exact .inr never

/-- What a read without progress leaves of a stream that has the room it needs. -/
theorem read_sated {c : LoopConn} {os os' : Os} {w : Wal} {cap limit : Nat} {cursor : WalCursor}
    (clear : c.Clear os.disk w cap)
    (goes : c.sub.once = true → c.sub.cursor.nextSeq ≤ c.sub.untilSeq)
    (reaches : c.sub.cursor.nextSeq ≤ c.sub.reach (walDurableSeq w) →
      c.sub.cursor.nextSeq ≤ limit)
    (read : walCursorRead os w c.sub.cursor limit (min c.room SCRATCH_LEN) =
      (.ok [], cursor, os')) :
    ({ c with sub := { c.sub with cursor := cursor } } : LoopConn).Sated os'.disk w := by
  have disk : os'.disk = os.disk := by
    have kept := (walCursorRead_alike (.refl os) w c.sub.cursor limit (min c.room SCRATCH_LEN)).kept
    rw [read] at kept
    exact kept
  obtain ⟨stays, dry⟩ := walCursorRead_dry read
  refine ⟨fun once => ?_, ?_⟩
  · change cursor.nextSeq ≤ c.sub.untilSeq
    rw [stays.nextSeq]
    exact goes once
  · change cursor.Dry os'.disk w (c.sub.reach (walDurableSeq w)) c.block
    rw [disk]
    refine clear.fruitless stays (Nat.le_refl _) (fun within place listed => ?_)
    rcases dry with past | fruitless
    · rw [stays.nextSeq] at past
      have := reaches within
      omega
    · rw [← stays.nextSeq]
      exact fruitless place listed

/-- What the push does with a stream that goes on. -/
theorem LoopConn.Streaming.part {c : LoopConn} (streaming : c.Streaming) :
    (c.room < MSG_HEADER_SIZE ∧ c.part = .idle) ∨
      (MSG_HEADER_SIZE ≤ c.room ∧
        ((c.sub.once = false ∧ c.part = .live) ∨
          (c.sub.once = true ∧ c.sub.untilSeq < c.sub.cursor.nextSeq ∧ c.part = .last) ∨
          (c.sub.once = true ∧ c.sub.cursor.nextSeq ≤ c.sub.untilSeq ∧ c.part = .bounded))) := by
  unfold LoopConn.part
  rw [if_neg (by rw [streaming.used, streaming.stays]; decide),
    if_neg (by rw [streaming.started]; decide),
    if_neg (by rw [streaming.active, streaming.unwatched]; decide)]
  by_cases tight : c.room < MSG_HEADER_SIZE
  · exact .inl ⟨tight, if_pos tight⟩
  · right
    rw [if_neg tight]
    refine ⟨Nat.not_lt.mp tight, ?_⟩
    cases once : c.sub.once with
    | false => exact .inl ⟨rfl, if_pos Bool.false_ne_true⟩
    | true =>
        right
        rw [if_neg (not_not.mpr rfl)]
        by_cases past : c.sub.cursor.nextSeq > c.sub.untilSeq
        · exact .inl ⟨rfl, past, if_pos past⟩
        · exact .inr ⟨rfl, Nat.not_lt.mp past, if_neg past⟩

/-- What the push takes a connection for: nothing to do, held, or a stream that goes on. -/
theorem LoopConn.part_cases (c : LoopConn) :
    c.part = .idle ∨ (c.part = .held ∧ c.sub.waiting = true) ∨ c.Streaming := by
  unfold LoopConn.part
  split
  · exact .inl rfl
  · rename_i free
    rw [not_or, not_not, Bool.not_eq_true] at free
    split
    · rename_i waiting
      exact .inr (.inl ⟨rfl, waiting⟩)
    · rename_i started
      split
      · exact .inl rfl
      · rename_i running
        rw [not_or, not_not, Bool.not_eq_true] at running
        exact .inr (.inr ⟨free.1, free.2, (Bool.not_eq_true _).mp started, running.1, running.2⟩)

/-- A held stream goes on being held, or starts, which is progress, or is refused. -/
theorem subsPushWaiting_streaming {cap : Nat} (apart : (l.conns slot).sub.Apart)
    (waiting : (l.conns slot).sub.waiting = true)
    (still : (subsPushWaiting cap l slot).progress = false) :
    ¬ ((subsPushWaiting cap l slot).conns slot).Streaming := by
  intro streaming
  unfold subsPushWaiting at still streaming
  simp only at still streaming
  split at still
  · cases still
  · rename_i short
    rw [if_neg short] at streaming
    split at streaming
    · have kept := replyFrame_sub (l.setSub slot { (l.conns slot).sub with waiting := false }) slot
        ⟨msgHeaderNew MSG_OP_ERR MSG_RECORD_NONE 0
          (msgEncodeErr MSG_ERR_BEHIND (([] : Bytes).take MSG_MAX_ERR_TEXT).length ++
            ([] : Bytes).take MSG_MAX_ERR_TEXT).length 0 (l.conns slot).sub.minSeq,
          msgEncodeErr MSG_ERR_BEHIND (([] : Bytes).take MSG_MAX_ERR_TEXT).length ++
            ([] : Bytes).take MSG_MAX_ERR_TEXT⟩
      have refused : ((l.setSub slot { (l.conns slot).sub with waiting := false }).conns slot).sub =
          { (l.conns slot).sub with waiting := false } := congrArg LoopConn.sub (if_pos rfl)
      have active := streaming.active
      unfold Loop.setSub at active
      simp only [conns_setConn] at active
      have idle := (congrArg LoopSub.active (kept.trans refused)).symm.trans active
      rw [apart waiting] at idle
      cases idle
    · rw [streaming.started] at waiting
      cases waiting

/-- A stream that is read without progress has nothing more to be given. -/
theorem subsPushRead_sated {cap limit : Nat} (clear : (l.conns slot).Clear l.os.disk l.wal cap)
    (goes : (l.conns slot).sub.once = true →
      (l.conns slot).sub.cursor.nextSeq ≤ (l.conns slot).sub.untilSeq)
    (reaches : (l.conns slot).sub.cursor.nextSeq ≤ (l.conns slot).sub.reach (walDurableSeq l.wal) →
      (l.conns slot).sub.cursor.nextSeq ≤ limit)
    (still : (subsPushRead limit (min (l.conns slot).room SCRATCH_LEN) l slot).progress = false)
    (stays : ((subsPushRead limit (min (l.conns slot).room SCRATCH_LEN) l slot).conns
      slot).closing = false) :
    ((subsPushRead limit (min (l.conns slot).room SCRATCH_LEN) l slot).conns slot).Sated
      (subsPushRead limit (min (l.conns slot).room SCRATCH_LEN) l slot).os.disk
      (subsPushRead limit (min (l.conns slot).room SCRATCH_LEN) l slot).wal := by
  obtain ⟨cursor, os, reads, same⟩ := subsPushRead_nothing still stays
  have sated := read_sated clear goes reaches reads
  rw [same]
  have here : (({ l with os := os } : Loop).setSub slot
      { (l.conns slot).sub with cursor := cursor }).conns slot =
        { l.conns slot with sub := { (l.conns slot).sub with cursor := cursor } } := if_pos rfl
  rw [here]
  exact sated

/-- A turn without progress leaves a stream that goes on with nothing more to be given. -/
theorem subsPushOne_sated {cap : Nat} (apart : (l.conns slot).sub.Apart)
    (clear : (l.conns slot).Streaming → (l.conns slot).Clear l.os.disk l.wal cap)
    (still : (subsPushOne (l, cap) slot).1.progress = false)
    (streaming : ((subsPushOne (l, cap) slot).1.conns slot).Streaming) :
    ((subsPushOne (l, cap) slot).1.conns slot).Sated (subsPushOne (l, cap) slot).1.os.disk
      (subsPushOne (l, cap) slot).1.wal := by
  -- Without the room for a header the push leaves the connection alone.
  have tight (idle : (l.conns slot).part = .idle) :
      ((subsPushOne (l, cap) slot).1.conns slot).Sated (subsPushOne (l, cap) slot).1.os.disk
        (subsPushOne (l, cap) slot).1.wal := by
    rw [subsPushOne_part, idle] at streaming ⊢
    simp only at streaming ⊢
    have clear := clear streaming
    rcases streaming.part with ⟨tight, -⟩ | ⟨-, ⟨-, other⟩ | ⟨-, -, other⟩ | ⟨-, -, other⟩⟩
    · refine ⟨fun once => ?_, clear.fruitless (.refl _ _) (Nat.le_refl _) ?_⟩
      · by_cases past : (l.conns slot).sub.untilSeq < (l.conns slot).sub.cursor.nextSeq
        · have := clear.last once past
          omega
        · exact Nat.not_lt.mp past
      · intro _within place _listed r _found
        by_cases unsized : walRecSize (i32 r.len) = 0
        · exact .inl unsized
        · right
          have header := header_le_walRecSize unsized
          unfold MSG_HEADER_SIZE at tight
          unfold WAL_REC_HEADER_SIZE at header
          omega
    · rw [idle] at other
      cases other
    · rw [idle] at other
      cases other
    · rw [idle] at other
      cases other
  rcases (l.conns slot).part_cases with idle | ⟨held, waiting⟩ | runs
  · exact tight idle
  · rw [subsPushOne_part, held] at still streaming ⊢
    exact absurd streaming (subsPushWaiting_streaming apart waiting still)
  · have clears := clear runs
    rcases runs.part with ⟨-, idle⟩ |
      ⟨-, ⟨endless, live⟩ | ⟨once, past, last⟩ | ⟨once, goes, bounded⟩⟩
    · exact tight idle
    · rw [subsPushOne_part, live] at still streaming ⊢
      refine subsPushRead_sated clears (fun once => ?_) clears.ahead still streaming.stays
      rw [endless] at once
      cases once
    · rw [subsPushOne_part, last] at streaming
      have active := streaming.active
      unfold subsPushLast Loop.setSub at active
      simp only [conns_setConn] at active
      cases active
    · rw [subsPushOne_part, bounded] at still streaming ⊢
      exact @subsPushRead_sated (l.note (.bounded slot (l.conns slot).sub)) slot cap
        (min cap (l.conns slot).sub.untilSeq) clears (fun _ => goes)
        (fun within => Nat.le_min.mpr ⟨clears.ahead within, goes⟩) still streaming.stays

/-- A push without progress leaves every stream that goes on with nothing more to be given. -/
theorem subsPush_sated (inside : slot < LOOP_MAX_CONNS) (apart : (l.conns slot).sub.Apart)
    (clear : (l.conns slot).Streaming →
      (l.conns slot).Clear l.os.disk l.wal (l.capAt slot))
    (still : (subsPush l).progress = false) (streaming : ((subsPush l).conns slot).Streaming) :
    ((subsPush l).conns slot).Sated (subsPush l).os.disk (subsPush l).wal := by
  have before := turn_before l (Nat.le_refl slot)
  obtain ⟨others, absent, split⟩ := subsPush_split l inside
  have after := pushes_before others (subsPushOne ((l.turn slot).1, l.capAt slot) slot).2 absent
    (l := (subsPushOne ((l.turn slot).1, l.capAt slot) slot).1)
  have rises := pushes_rises others (subsPushOne ((l.turn slot).1, l.capAt slot) slot)
  rw [split] at still streaming ⊢
  rw [after.conn] at streaming ⊢
  rw [after.disk, after.wal]
  rw [← before.conn] at apart
  refine subsPushOne_sated apart ?_ ?_ streaming
  · rw [before.conn, before.disk, before.wal]
    exact clear
  · cases noted : (subsPushOne ((l.turn slot).1, l.capAt slot) slot).1.progress with
    | false => rfl
    | true =>
        rw [rises.progress noted] at still
        cases still

/-! ### What a pass leaves of its replicas -/

/-- `repl_stream` looks at the connection, which streams to this replica. -/
structure LoopConn.Copies (c : LoopConn) (idx : Nat) : Prop where
  used : c.inUse = true
  stays : c.closing = false
  unwatched : c.wantOut = false
  replica : c.replica = some idx

theorem copies_streams {idx : Nat} (copies : (l.conns slot).Copies idx) :
    l.owners.Streams slot idx := ⟨copies.used, copies.replica⟩

/-- There is nothing more for the replica: its cursor is closed, or has nothing to read. -/
def LoopPeer.Sated (p : LoopPeer) (c : LoopConn) (disk : Disk) (w : Wal) : Prop :=
  p.cursor.fd = none ∨ p.cursor.Dry disk w (walDurableSeq w) (c.sendCap - MSG_HEADER_SIZE)

/-- Nothing is staged ahead of the replica's stream, or it has nothing to wait for. -/
def LoopPeer.Clear (p : LoopPeer) (c : LoopConn) (w : Wal) : Prop :=
  c.sendBuf = [] ∨ walDurableSeq w < p.cursor.nextSeq

/-- The loop once a read has moved a replica's cursor. -/
def Loop.movePeer (l : Loop) (idx : Nat) (cursor : WalCursor) (os : Os) : Loop :=
  ({ l with os := os }).setPeer idx { l.peer idx with cursor := cursor }

/-- A turn of `repl_stream`: it passes over the connection, or reads for its replica. -/
theorem replStreamOne_cases (limit : Nat) (l : Loop) (slot : Nat) :
    (replStreamOne limit l slot = l ∧ ((l.conns slot).inUse = true →
        (l.conns slot).closing = false → (l.conns slot).replica ≠ none →
          (l.conns slot).sendBuf ≠ [])) ∨
      ∃ idx res cursor os, (l.conns slot).replica = some idx ∧ (l.conns slot).inUse = true ∧
        walCursorRead l.os l.wal (l.peer idx).cursor limit
          ((l.conns slot).sendCap - MSG_HEADER_SIZE) = (res, cursor, os) ∧
        ((∃ e, res = .error e ∧
            replStreamOne limit l slot = (l.movePeer idx cursor os).close slot) ∨
          (res = .ok [] ∧ replStreamOne limit l slot = l.movePeer idx cursor os) ∨
          ∃ bytes frame, res = .ok bytes ∧ bytes ≠ [] ∧
            replStreamOne limit l slot =
              ({ l.movePeer idx cursor os with progress := true }.setConn slot
                { l.conns slot with sendBuf := Frame.bytes frame }).note
                  (.staged slot (l.conns slot).session frame)) := by
  unfold replStreamOne Loop.movePeer
  simp only
  cases streams : (l.conns slot).replica with
  | none => exact .inl ⟨rfl, fun _ _ other => absurd rfl other⟩
  | some idx =>
      simp only
      by_cases busy : ¬ (l.conns slot).inUse = true ∨ (l.conns slot).closing = true ∨
          (l.conns slot).sendBuf ≠ []
      · left
        rw [if_pos busy]
        refine ⟨rfl, fun used stays _ => ?_⟩
        rcases busy with unused | ends | left
        · exact absurd used unused
        · rw [stays] at ends
          cases ends
        · exact left
      · right
        rw [if_neg busy]
        rw [not_or, not_not] at busy
        cases read : walCursorRead l.os l.wal (l.peer idx).cursor limit
            ((l.conns slot).sendCap - MSG_HEADER_SIZE) with
        | mk res rest =>
            obtain ⟨cursor, os⟩ := rest
            refine ⟨idx, res, cursor, os, rfl, busy.1, read, ?_⟩
            cases res with
            | error e => exact .inl ⟨e, rfl, rfl⟩
            | ok bytes =>
                right
                simp only
                by_cases nothing : bytes = []
                · subst nothing
                  exact .inl ⟨rfl, if_pos rfl⟩
                · right
                  rw [if_neg nothing]
                  exact ⟨bytes, _, rfl, nothing, rfl⟩

/-- A turn of `repl_stream` without progress leaves its replica with nothing to be given. -/
theorem replStreamOne_sated {idx : Nat}
    (clear : (l.conns slot).Copies idx → (l.peer idx).Clear (l.conns slot) l.wal)
    (still : (replStreamOne (walDurableSeq l.wal) l slot).progress = false)
    (copies : ((replStreamOne (walDurableSeq l.wal) l slot).conns slot).Copies idx) :
    ((replStreamOne (walDurableSeq l.wal) l slot).peer idx).Sated
      ((replStreamOne (walDurableSeq l.wal) l slot).conns slot)
      (replStreamOne (walDurableSeq l.wal) l slot).os.disk
      (replStreamOne (walDurableSeq l.wal) l slot).wal := by
  rcases replStreamOne_cases (walDurableSeq l.wal) l slot with ⟨passed, left⟩ |
    ⟨idx', res, cursor, os, streams, used, read, ⟨e, -, ended⟩ | ⟨rfl, ended⟩ |
      ⟨bytes, frame, -, -, ended⟩⟩
  · rw [passed] at copies ⊢
    have streams : (l.conns slot).replica ≠ none := by
      rw [copies.replica]
      exact fun none' => by cases none'
    exact .inr (.inl ((clear copies).resolve_left (left copies.used copies.stays streams)))
  · rw [ended] at copies
    have stays := copies.stays
    unfold Loop.close at stays
    rw [conns_setConn] at stays
    cases stays
  · rw [ended] at copies ⊢
    have same : idx' = idx := Option.some.inj (streams.symm.trans copies.replica)
    subst same
    have disk := (walCursorRead_alike (.refl l.os) l.wal (l.peer idx').cursor
      (walDurableSeq l.wal) ((l.conns slot).sendCap - MSG_HEADER_SIZE)).kept
    rw [read] at disk
    have moved : (l.movePeer idx' cursor os).peer idx' = { l.peer idx' with cursor := cursor } :=
      if_pos rfl
    right
    rw [moved]
    change cursor.Dry os.disk l.wal (walDurableSeq l.wal) ((l.conns slot).sendCap - MSG_HEADER_SIZE)
    rw [disk]
    exact (walCursorRead_dry read).2
  · rw [ended] at still
    cases still

/-- What the turns of other connections leave of a replica and its connection. -/
structure Beyond (slot idx : Nat) (l l' : Loop) : Prop where
  conn : l'.conns slot = l.conns slot
  peer : l'.peer idx = l.peer idx
  wal : l'.wal = l.wal
  disk : l'.os.disk = l.os.disk
  owners : l'.owners = l.owners
  progress : l.progress = true → l'.progress = true

theorem replStreamOne_beyond {limit other idx : Nat} (differ : slot ≠ other)
    (apart : ¬ l.owners.Streams other idx) : Beyond slot idx l (replStreamOne limit l other) := by
  have owners := (replStreamOne_beside limit l other).owners
  rcases replStreamOne_cases limit l other with ⟨passed, -⟩ |
    ⟨idx', res, cursor, os, streams, used, read, ended⟩
  · rw [passed]
    exact ⟨rfl, rfl, rfl, rfl, rfl, id⟩
  · have elsewhere : idx ≠ idx' := by
      intro same
      subst same
      exact apart ⟨used, streams⟩
    have disk := (walCursorRead_alike (.refl l.os) l.wal (l.peer idx').cursor limit
      ((l.conns other).sendCap - MSG_HEADER_SIZE)).kept
    rw [read] at disk
    have peer : (l.movePeer idx' cursor os).peer idx = l.peer idx := if_neg elsewhere
    rcases ended with ⟨e, -, ended⟩ | ⟨-, ended⟩ | ⟨bytes, frame, -, -, ended⟩
    · rw [ended] at owners ⊢
      exact ⟨if_neg differ, peer, rfl, disk, owners, id⟩
    · rw [ended] at owners ⊢
      exact ⟨rfl, peer, rfl, disk, owners, id⟩
    · rw [ended] at owners ⊢
      exact ⟨if_neg differ, peer, rfl, disk, owners, fun _ => rfl⟩

theorem Beyond.trans {idx : Nat} (left : Beyond slot idx l l') (right : Beyond slot idx l' l'') :
    Beyond slot idx l l'' :=
  ⟨right.conn.trans left.conn, right.peer.trans left.peer, right.wal.trans left.wal,
    right.disk.trans left.disk, right.owners.trans left.owners,
    fun noted => right.progress (left.progress noted)⟩

theorem streams_beyond {limit idx : Nat} (exact' : l.owners.Exact)
    (streams : l.owners.Streams slot idx) (others : List Nat) (absent : slot ∉ others) :
    Beyond slot idx l (others.foldl (replStreamOne limit) l) := by
  induction others generalizing l with
  | nil => exact ⟨rfl, rfl, rfl, rfl, rfl, id⟩
  | cons other rest ih =>
      rw [List.mem_cons, not_or] at absent
      have first := @replStreamOne_beyond l slot limit other idx absent.1
        (fun also => absent.1 (exact'.alone slot other idx streams also))
      refine first.trans (ih ?_ ?_ absent.2)
      · rw [first.owners]
        exact exact'
      · rw [first.owners]
        exact streams

/-- A `repl_stream` without progress leaves every replica with nothing to be given. -/
theorem replStream_sated {idx : Nat} (inside : slot < LOOP_MAX_CONNS) (exact' : l.owners.Exact)
    (clear : (l.conns slot).Copies idx → (l.peer idx).Clear (l.conns slot) l.wal)
    (still : (replStream l).progress = false)
    (copies : ((replStream l).conns slot).Copies idx) :
    ((replStream l).peer idx).Sated ((replStream l).conns slot) (replStream l).os.disk
      (replStream l).wal := by
  have streams : l.owners.Streams slot idx := by
    rw [← (replStream_beside l).owners]
    exact copies_streams copies
  obtain ⟨others, absent, split⟩ := range_split inside
  have turns : replStream l = others.foldl (replStreamOne (walDurableSeq l.wal))
      (replStreamOne (walDurableSeq l.wal)
        ((List.range slot).foldl (replStreamOne (walDurableSeq l.wal)) l) slot) := by
    unfold replStream
    rw [split, List.foldl_append]
    rfl
  have before := @streams_beyond l slot (walDurableSeq l.wal) idx exact' streams (List.range slot)
    (by rw [List.mem_range]; omega)
  rw [turns] at still copies ⊢
  generalize (List.range slot).foldl (replStreamOne (walDurableSeq l.wal)) l = l1 at *
  have owners := (replStreamOne_beside (walDurableSeq l.wal) l1 slot).owners.trans before.owners
  have after := @streams_beyond (replStreamOne (walDurableSeq l.wal) l1 slot) slot
    (walDurableSeq l.wal) idx (by rw [owners]; exact exact') (by rw [owners]; exact streams)
    others absent
  rw [after.conn] at copies ⊢
  rw [after.peer, after.disk, after.wal]
  rw [← before.wal] at copies still ⊢
  refine replStreamOne_sated ?_ ?_ copies
  · rw [before.conn, before.peer, before.wal]
    exact clear
  · rw [Bool.eq_false_iff]
    intro noted
    rw [before.wal] at noted still
    rw [after.progress noted] at still
    cases still

/-! ### Nothing left for anyone -/

/-- No stream and no replica has anything more to be given. -/
structure Loop.Rested (l : Loop) : Prop where
  streams : ∀ slot, (l.conns slot).Streaming → (l.conns slot).Sated l.os.disk l.wal
  replicas : ∀ slot idx, (l.conns slot).Copies idx →
    (l.peer idx).Sated (l.conns slot) l.os.disk l.wal

/-- The log has lost segments from the front, and nothing else. -/
structure Shortened (l l' : Loop) : Prop where
  file : l'.os.disk.file = l.os.disk.file
  active : l'.wal.active = l.wal.active
  table : ∃ gone, l.wal.segBase = gone ++ l'.wal.segBase

theorem Loop.Rested.later (rested : l.Rested) (shortened : Shortened l l')
    (peer : ∀ idx, l'.peer idx = l.peer idx ∨ (l'.peer idx).cursor.fd = none)
    (conn : ∀ slot, (l.conns slot).Left (l'.conns slot)) : l'.Rested := by
  obtain ⟨gone, table⟩ := shortened.table
  have durable : walDurableSeq l'.wal = walDurableSeq l.wal :=
    congrArg WalSeg.durableSeq shortened.active
  constructor
  · intro slot streaming
    obtain ⟨used, stays, unwatched, cap, -, sub⟩ := conn slot streaming.used streaming.stays
    obtain ⟨goes, dry⟩ := rested.streams slot ⟨used, stays, by rw [← sub]; exact streaming.started,
      by rw [← sub]; exact streaming.active, unwatched streaming.unwatched⟩
    refine ⟨by rw [sub]; exact goes, ?_⟩
    unfold LoopConn.block at dry ⊢
    rw [sub, cap, durable]
    exact dry.later shortened.file table (Nat.le_refl _) (Nat.le_refl _)
  · intro slot idx copies
    obtain ⟨used, stays, unwatched, cap, replica, -⟩ := conn slot copies.used copies.stays
    rcases peer idx with same | closed
    · have sated := rested.replicas slot idx
        ⟨used, stays, unwatched copies.unwatched, replica.symm.trans copies.replica⟩
      unfold LoopPeer.Sated at sated ⊢
      rw [same, cap, durable]
      exact sated.imp id
        (fun dry => dry.later shortened.file table (Nat.le_refl _) (Nat.le_refl _))
    · exact .inl closed

theorem Settles.rested (settles : Settles l l') (rested : l.Rested) : l'.Rested :=
  rested.later ⟨by rw [settles.disk], by rw [settles.wal], [], by rw [settles.wal]; rfl⟩
    settles.peer settles.conn

theorem walRetain_shortened {w w' : Wal} {os os' : Os} {keepFrom removed : Nat}
    {res : Except Err Unit} (retains : walRetain os w keepFrom = (res, removed, w', os')) :
    os'.disk.file = os.disk.file ∧ w'.active = w.active ∧
      ∃ gone, w.segBase = gone ++ w'.segBase := by
  have fsync (os : Os) : (osFsyncDir os).2.disk.file = os.disk.file := plain_file os rfl
  unfold walRetain at retains
  simp only at retains
  split at retains
  · cases retains
    exact ⟨rfl, rfl, [], rfl⟩
  · cases unlinks : walRetainUnlink (w.segBase.take (walRetainDrop keepFrom w.segBase)) 0 os with
    | mk done os1 =>
        have file := walRetainUnlink_file unlinks
        rw [unlinks] at retains
        cases done with
        | error failed =>
            cases retains
            exact ⟨file, rfl, _, (List.take_append_drop _ _).symm⟩
        | ok done =>
            have flushed := (fsync os1).trans file
            simp only at retains
            cases flushes : osFsyncDir os1 with
            | mk res1 os2 =>
                rw [flushes] at retains flushed
                cases res1 with
                | error e =>
                    cases retains
                    exact ⟨flushed, rfl, _, (List.take_append_drop _ _).symm⟩
                | ok done =>
                    cases retains
                    exact ⟨flushed, rfl, _, (List.take_append_drop _ _).symm⟩

theorem retainPass_progress (l : Loop) : (retainPass l).progress = l.progress := by
  obtain ⟨w, os, failed, seen, counts, trace, same⟩ := retainPass_only l
  rw [same]

theorem retainPass_rested (rested : l.Rested) : (retainPass l).Rested := by
  have peer : (retainPass l).peer = l.peer := by
    obtain ⟨w, os, failed, seen, counts, trace, same⟩ := retainPass_only l
    rw [same]
  have shortened : Shortened l (retainPass l) := by
    rcases retainPass_cases l with ⟨-, wal, os, -⟩ |
      ⟨keepFrom, res, removed, w, os, -, retains, wal, os', -⟩
    · exact ⟨by rw [os], by rw [wal], [], by rw [wal]; rfl⟩
    · obtain ⟨file, active, table⟩ := walRetain_shortened retains
      exact ⟨by rw [os']; exact file, by rw [wal]; exact active, by rw [wal]; exact table⟩
  refine rested.later shortened (fun idx => .inl (by rw [peer])) (fun slot => ?_)
  rw [retainPass_conns]
  exact .refl _

/-! ### What would be staged now -/

/-- A frame of this operation is staged on the connection. -/
def Note.stages (slot op : Nat) : Note → Bool
  | .staged other _ frame => other == slot && frame.header.op == op
  | _ => false

/-- The loop as the pushes would find it now, with these answers of the kernel to come. -/
def Loop.faced (l : Loop) (script : List Outcome) : Loop :=
  { l with os := { l.os with script := script }, trace := [] }

/-- No frame of this operation has been staged on the connection. -/
def Quiet (slot op : Nat) (l l' : Loop) : Prop :=
  ∀ note ∈ l'.trace, note.stages slot op = true → note ∈ l.trace

theorem Quiet.of_trace {op : Nat} (trace : l'.trace = l.trace) : Quiet slot op l l' := by
  intro note listed _staged
  rw [← trace]
  exact listed

theorem Quiet.refl (slot op : Nat) (l : Loop) : Quiet slot op l l := .of_trace rfl

theorem Quiet.trans {op : Nat} (left : Quiet slot op l l') (right : Quiet slot op l' l'') :
    Quiet slot op l l'' :=
  fun note listed staged => left note (right note listed staged) staged

theorem note_quiet {op : Nat} (l : Loop) {note : Note} (other : note.stages slot op = false) :
    Quiet slot op l (l.note note) := by
  intro note' listed staged
  rcases List.mem_cons.mp listed with rfl | earlier
  · rw [other] at staged
    cases staged
  · exact earlier

theorem replyFrame_quiet {op : Nat} (l : Loop) (at' : Nat) {frame : Frame}
    (other : frame.header.op ≠ op) : Quiet slot op l (replyFrame l at' frame).2 := by
  unfold replyFrame
  simp only
  split
  · exact .refl slot op l
  · refine Quiet.trans (.of_trace rfl) (note_quiet _ ?_)
    change (at' == slot && frame.header.op == op) = false
    rw [beq_eq_false_iff_ne.mpr other, Bool.and_false]

theorem setSub_quiet {op : Nat} (l : Loop) (at' : Nat) (sub : LoopSub) :
    Quiet slot op l (l.setSub at' sub) := .of_trace rfl

theorem replyErr_quiet (l : Loop) (at' code sequence : Nat) :
    Quiet slot MSG_OP_NOTIFY l (replyErr l at' code sequence) :=
  replyFrame_quiet l at' (show MSG_OP_ERR ≠ MSG_OP_NOTIFY by decide)

theorem subAnswer_quiet (l : Loop) (at' sequence : Nat) :
    Quiet slot MSG_OP_NOTIFY l (subAnswer l at' sequence) :=
  (replyFrame_quiet l at' (show MSG_OP_ACK ≠ MSG_OP_NOTIFY by decide)).trans (note_quiet _ rfl)

theorem subsPushWaiting_quiet (durable : Nat) (l : Loop) (at' : Nat) :
    Quiet slot MSG_OP_NOTIFY l (subsPushWaiting durable l at') := by
  unfold subsPushWaiting
  simp only
  split
  · exact ((setSub_quiet l at' _).trans (subAnswer_quiet _ at' _)).trans (.of_trace rfl)
  · split
    · exact (((setSub_quiet l at' _).trans (replyErr_quiet _ at' _ _)).trans
        (note_quiet _ rfl)).trans (.of_trace rfl)
    · exact .refl _ _ _

/-- A dry stream is given no record. -/
theorem subsPushRead_quiet {limit room : Nat} {l : Loop} {at' : Nat}
    (dry : (l.conns at').sub.cursor.Dry l.os.disk l.wal limit room) :
    Quiet slot MSG_OP_NOTIFY l (subsPushRead limit room l at') := by
  rw [subsPushRead_eq]
  cases read : walCursorRead l.os l.wal (l.conns at').sub.cursor limit room with
  | mk res rest =>
      obtain ⟨cursor, os⟩ := rest
      cases res with
      | error e =>
          have moved : Quiet slot MSG_OP_NOTIFY l ({ l with os := os }.setSub at'
              { (l.conns at').sub with cursor := cursor }) := .of_trace rfl
          exact (moved.trans (replyErr_quiet _ at' _ _)).trans (.of_trace rfl)
      | ok got =>
          rw [dry.read read]
          exact .of_trace rfl

theorem capAt_le (l : Loop) (slot : Nat) : l.capAt slot ≤ walDurableSeq l.wal := by
  unfold Loop.capAt
  induction slot with
  | zero => exact Nat.le_refl _
  | succ slot ih =>
      rw [List.range_succ, List.foldl_append]
      refine Nat.le_trans ?_ ih
      change (l.conns slot).capped _ ≤ _
      unfold LoopConn.capped
      split
      · exact Nat.min_le_left _ _
      · exact Nat.le_refl _

/-- A turn stages no record for a stream that has nothing more to be given. -/
theorem subsPushOne_quiet {cap : Nat} (below : cap ≤ walDurableSeq l.wal)
    (sated : (l.conns slot).Streaming → (l.conns slot).Sated l.os.disk l.wal) :
    Quiet slot MSG_OP_NOTIFY l (subsPushOne (l, cap) slot).1 := by
  rw [subsPushOne_part]
  rcases (l.conns slot).part_cases with idle | ⟨held, -⟩ | runs
  · rw [idle]
    exact .refl _ _ _
  · rw [held]
    exact subsPushWaiting_quiet cap l slot
  · obtain ⟨goes, dry⟩ := sated runs
    have block : min (l.conns slot).room SCRATCH_LEN ≤ (l.conns slot).block := by
      unfold LoopConn.block LoopConn.room
      omega
    have within {limit : Nat} (reach : limit ≤ (l.conns slot).sub.reach (walDurableSeq l.wal)) :
        (l.conns slot).sub.cursor.Dry l.os.disk l.wal limit
          (min (l.conns slot).room SCRATCH_LEN) := by
      have table : l.wal.segBase = [] ++ l.wal.segBase := rfl
      exact dry.later rfl table reach block
    rcases runs.part with ⟨-, idle⟩ |
      ⟨-, ⟨endless, live⟩ | ⟨once, past, -⟩ | ⟨once, -, bounded⟩⟩
    · rw [idle]
      exact .refl _ _ _
    · rw [live]
      refine subsPushRead_quiet (within ?_)
      unfold LoopSub.reach
      rw [endless]
      exact below
    · exact absurd (goes once) (Nat.not_le.mpr past)
    · rw [bounded]
      refine (note_quiet l rfl).trans (subsPushRead_quiet (l := l.note _) (within ?_))
      unfold LoopSub.reach
      rw [once, if_pos rfl]
      omega

theorem stages_about {op : Nat} {note : Note} (staged : note.stages slot op = true) :
    note.about slot = true := by
  cases note with
  | staged other session frame =>
      exact (Bool.and_eq_true _ _ ▸ staged : (other == slot) = true ∧ _).1
  | _ => cases staged

/-- A push now would stage no record, and no end of a read. -/
theorem Loop.Rested.push (rested : l.Rested) (inside : slot < LOOP_MAX_CONNS)
    (script : List Outcome) :
    ∀ note ∈ (subsPush (l.faced script)).trace, note.stages slot MSG_OP_NOTIFY = false := by
  have before := turn_before (l.faced script) (Nat.le_refl slot)
  have own := subsPush_own (l.faced script) inside
  have below := capAt_le (l.faced script) slot
  have silent : (l.faced script).told slot = [] := rfl
  generalize faces : l.faced script = f at before own below silent ⊢
  have conns : f.conns = l.conns := by rw [← faces]; rfl
  have wal : f.wal = l.wal := by rw [← faces]; rfl
  have disk : f.os.disk = l.os.disk := by rw [← faces]; rfl
  have quiet := @subsPushOne_quiet (f.turn slot).1 slot (f.capAt slot)
    (by rw [before.wal]; exact below)
    (by rw [before.conn, before.disk, before.wal, conns, disk, wal]; exact rested.streams slot)
  intro note listed
  rw [Bool.eq_false_iff]
  intro staged
  have about := stages_about staged
  have told : note ∈ (subsPush f).told slot := List.mem_filter.mpr ⟨listed, about⟩
  rw [own.told] at told
  have earlier := quiet note (List.mem_filter.mp told).1 staged
  have none' : note ∈ (f.turn slot).1.told slot := List.mem_filter.mpr ⟨earlier, about⟩
  rw [before.told, silent] at none'
  cases none'

theorem replStreamOne_quiet_other {limit other : Nat} (differ : slot ≠ other) :
    Quiet slot MSG_OP_REPL_DATA l (replStreamOne limit l other) := by
  rcases replStreamOne_cases limit l other with ⟨passed, -⟩ |
    ⟨idx, res, cursor, os, -, -, -, ⟨e, -, ended⟩ | ⟨-, ended⟩ | ⟨bytes, frame, -, -, ended⟩⟩
  · rw [passed]
    exact .refl _ _ _
  · rw [ended]
    exact .of_trace rfl
  · rw [ended]
    exact .of_trace rfl
  · rw [ended]
    have moved : Quiet slot MSG_OP_REPL_DATA l
        ({ l.movePeer idx cursor os with progress := true }.setConn other
          { l.conns other with sendBuf := frame.bytes }) := .of_trace rfl
    refine moved.trans (note_quiet _ ?_)
    change (other == slot && frame.header.op == MSG_OP_REPL_DATA) = false
    rw [beq_eq_false_iff_ne.mpr (Ne.symm differ), Bool.false_and]

theorem streams_quiet {limit : Nat} (others : List Nat) (absent : slot ∉ others) :
    Quiet slot MSG_OP_REPL_DATA l (others.foldl (replStreamOne limit) l) := by
  induction others generalizing l with
  | nil => exact .refl _ _ _
  | cons other rest ih =>
      rw [List.mem_cons, not_or] at absent
      exact (replStreamOne_quiet_other absent.1).trans (ih absent.2)

/-- A turn stages nothing for a replica that has nothing to be given. -/
theorem replStreamOne_quiet {idx : Nat} (copies : (l.conns slot).Copies idx)
    (sated : (l.peer idx).Sated (l.conns slot) l.os.disk l.wal) :
    Quiet slot MSG_OP_REPL_DATA l (replStreamOne (walDurableSeq l.wal) l slot) := by
  rcases replStreamOne_cases (walDurableSeq l.wal) l slot with ⟨passed, -⟩ |
    ⟨idx', res, cursor, os, streams, -, read, ⟨e, -, ended⟩ | ⟨-, ended⟩ |
      ⟨bytes, frame, rfl, some', -⟩⟩
  · rw [passed]
    exact .refl _ _ _
  · rw [ended]
    exact .of_trace rfl
  · rw [ended]
    exact .of_trace rfl
  · have same : idx' = idx := Option.some.inj (streams.symm.trans copies.replica)
    subst same
    rcases sated with closed | dry
    · unfold walCursorRead at read
      rw [if_pos closed] at read
      cases read
    · exact absurd (dry.read read) some'

/-- A `repl_stream` now would stage nothing for a replica. -/
theorem Loop.Rested.stream {idx : Nat} (rested : l.Rested) (exact' : l.owners.Exact)
    (inside : slot < LOOP_MAX_CONNS) (copies : (l.conns slot).Copies idx)
    (script : List Outcome) :
    ∀ note ∈ (replStream (l.faced script)).trace, note.stages slot MSG_OP_REPL_DATA = false := by
  have streams := copies_streams copies
  have sated := rested.replicas slot idx copies
  obtain ⟨others, absent, split⟩ := range_split inside
  have turns : replStream (l.faced script) =
      others.foldl (replStreamOne (walDurableSeq l.wal)) (replStreamOne (walDurableSeq l.wal)
        ((List.range slot).foldl (replStreamOne (walDurableSeq l.wal)) (l.faced script)) slot) := by
    unfold replStream
    rw [split, List.foldl_append]
    rfl
  have early : slot ∉ List.range slot := by
    rw [List.mem_range]
    omega
  have before := @streams_beyond (l.faced script) slot (walDurableSeq l.wal) idx exact' streams
    (List.range slot) early
  have quiet := @streams_quiet (l.faced script) slot (walDurableSeq l.wal) (List.range slot) early
  rw [turns]
  generalize (List.range slot).foldl (replStreamOne (walDurableSeq l.wal)) (l.faced script) = l1
    at before quiet ⊢
  have wal : l1.wal = l.wal := before.wal
  have own : Quiet slot MSG_OP_REPL_DATA l1 (replStreamOne (walDurableSeq l.wal) l1 slot) := by
    rw [← wal]
    refine @replStreamOne_quiet l1 slot idx ?_ ?_
    · rw [before.conn]
      exact copies
    · rw [before.conn, before.peer, before.disk, before.wal]
      exact sated
  have all := (quiet.trans own).trans (@streams_quiet _ slot (walDurableSeq l.wal) others absent)
  intro note listed
  rw [Bool.eq_false_iff]
  intro staged
  have none' := all note listed staged
  cases none'

/-! ### Runs -/

variable {d d' : Desk}

/-- A held stream is not running, and a follower streams to nobody. -/
structure Desk.Orderly (d : Desk) : Prop where
  apart : ∀ slot, (d.party slot).sub.Apart
  alone : d.leading = false → ∀ slot, (d.party slot).replica = none

theorem Move.apart (move : Move d d') (apart : ∀ slot, (d.party slot).sub.Apart) (slot : Nat) :
    (d'.party slot).sub.Apart := by
  intro waiting
  rw [Bool.eq_false_iff]
  intro active
  cases move.sub slot with
  | goes on =>
      have idle := apart slot (on.waiting waiting)
      rw [on.active active] at idle
      cases idle
  | idle after =>
      rw [after.1] at active
      cases active
  | began started =>
      rw [started] at waiting
      cases waiting
  | held idle =>
      rw [idle] at active
      cases active
  | served _held after =>
      rw [after] at waiting
      cases waiting

theorem Aside.alone (aside : Aside d d')
    (alone : d.leading = false → ∀ slot, (d.party slot).replica = none) :
    d'.leading = false → ∀ slot, (d'.party slot).replica = none := by
  intro following slot
  rw [aside.leading] at following
  exact (congrArg Account.replica (aside.account slot)).trans (alone following slot)

theorem Deal.alone (deal : Deal d d')
    (alone : d.leading = false → ∀ slot, (d.party slot).replica = none) :
    d'.leading = false → ∀ slot, (d'.party slot).replica = none := by
  have one (slot : Nat) {p : Party} (following : d.leading = false)
      (same : p.replica = none) (other : Nat) :
      ((d.setParty slot p).party other).replica = none := by
    by_cases at_slot : other = slot
    · rw [at_slot, party_setParty]
      exact same
    · rw [party_setParty_other d p at_slot]
      exact alone following other
  intro following
  cases deal with
  | opened => exact one _ following rfl
  | released => exact one _ following rfl
  | joined => exact one _ following (alone following _)
  | resent =>
      refine one _ following ?_
      rw [owe_replica]
      exact alone following _
  | stored =>
      refine one _ following ?_
      rw [owe_replica]
      exact alone following _
  | attached _dispatching leading =>
      exact absurd (leading.symm.trans following) (by decide)
  | detached => exact one _ following rfl
  | answeredLocal => exact one _ following (alone following _)
  | answeredRepl => exact one _ following (alone following _)
  | raised =>
      unfold Desk.raised at following ⊢
      split at following
      · rename_i stays
        rw [if_pos stays]
        exact alone following
      · rename_i rises
        rw [if_neg rises]
        exact alone following
  | _ => exact alone following

theorem Desk.Orderly.move (orderly : d.Orderly) (move : Move d d') : d'.Orderly where
  apart := move.apart orderly.apart
  alone := by
    obtain ⟨before, after, first, deals, last⟩ := move.deals
    have held := first.alone orderly.alone
    refine last.alone ?_
    rcases deals with same | deal
    · rw [same]
      exact held
    · exact deal.alone held

theorem moves_orderly {start : Desk} (moves : Moves start d) (orderly : start.Orderly) :
    d.Orderly := by
  induction moves with
  | refl => exact orderly
  | tail _ move ih => exact ih.move move

theorem starts_orderly {config : Config} (starts : DeskStarts config d) : d.Orderly := by
  obtain ⟨l, ⟨os, listing, capacity, info, w, recs, os', opened, rfl⟩, rfl⟩ := starts
  have empty : (config.start w os' recs).conns = fun _ => slotEmpty := by
    unfold Config.start
    split <;> rfl
  unfold Loop.desk
  simp only [empty]
  refine ⟨fun slot waiting => ?_, fun _ _ => rfl⟩
  cases waiting

/-! ### The condition on a pass -/

/-- The loop when `subs_push` begins, from the loop when `repl_stream` does. -/
def Loop.fed (l : Loop) : Loop := if l.isFollower then streamReport l else replStream l

theorem loopServe_fed (l : Loop) : loopServe l = retainPass (subsPush (acksEmit l).fed) := rfl

/-- What is staged before leaves every stream that goes on the room it needs. -/
structure Unhindered (l : Loop) (pass : Pass) : Prop where
  replicas : ∀ events l1, pass.wait = some events →
    loopFlush (loopDispatch (l.armed pass) events) = (.ok (), l1) →
      ∀ slot idx, ((acksEmit l1).conns slot).Copies idx →
        ((acksEmit l1).peer idx).Clear ((acksEmit l1).conns slot) (acksEmit l1).wal
  streams : ∀ events l1, pass.wait = some events →
    loopFlush (loopDispatch (l.armed pass) events) = (.ok (), l1) →
      ∀ slot, ((acksEmit l1).fed.conns slot).Streaming →
        ((acksEmit l1).fed.conns slot).Clear (acksEmit l1).fed.os.disk (acksEmit l1).fed.wal
          ((acksEmit l1).fed.capAt slot)

/-- The desk when `subs_push` begins is one that moves reach. -/
theorem fed_moves (sound : l.Sound dark) (possible : pass.Possible l) {events : List Event}
    {l1 : Loop} (waits : pass.wait = some events)
    (flushes : loopFlush (loopDispatch (l.armed pass) events) = (.ok (), l1)) :
    ∃ lit, (acksEmit l1).fed.Sound lit ∧
      Moves (l.desk .arming dark) ((acksEmit l1).fed.desk .serving lit) := by
  have armed := armed_makes sound pass
  obtain ⟨met, dispatched⟩ := loopDispatch_moves armed.sound (possible.shown waits)
  obtain ⟨sound1, phase, flushed, serving⟩ := loopFlush_moves met flushes
  rw [serving rfl] at flushed
  have emitted := acksEmit_serves sound1
  refine ⟨(l.armed pass).watched, ?_⟩
  have here := armed.moves.trans (dispatched.trans (flushed.trans emitted.moves))
  unfold Loop.fed
  split
  · rename_i following
    have reported := (streamReport_streams emitted.sound following).makes
    exact ⟨reported.sound, here.trans reported.moves⟩
  · have streamed := replStream_serves emitted.sound
    exact ⟨streamed.sound, here.trans streamed.moves⟩

/-! ### What a pass without progress leaves -/

theorem LoopConn.Kept.copies {c c' : LoopConn} {idx : Nat} (kept : c.Kept c')
    (copies : c'.Copies idx) : c.Copies idx where
  used := kept.inUse.symm.trans copies.used
  stays := by
    rw [Bool.eq_false_iff]
    intro ends
    have gone := kept.closing ends
    rw [copies.stays] at gone
    cases gone
  unwatched := kept.wantOut.symm.trans copies.unwatched
  replica := kept.replica.symm.trans copies.replica

/-- A push without progress after a `repl_stream` without progress leaves nothing for anyone. -/
theorem fed_rested {lit : Nat → Bool} (sound : l.fed.Sound lit)
    (orderly : (l.fed.desk .serving lit).Orderly) (exact' : l.owners.Exact)
    (replicas : ∀ slot idx, (l.conns slot).Copies idx →
      (l.peer idx).Clear (l.conns slot) l.wal)
    (streams : ∀ slot, (l.fed.conns slot).Streaming →
      (l.fed.conns slot).Clear l.fed.os.disk l.fed.wal (l.fed.capAt slot))
    (still : (subsPush l.fed).progress = false) : (subsPush l.fed).Rested := by
  have rises : Rises l.fed (subsPush l.fed) := by
    unfold subsPush
    exact pushes_rises (List.range LOOP_MAX_CONNS) (l.fed, walDurableSeq l.fed.wal)
  have same : Before LOOP_MAX_CONNS l.fed (subsPush l.fed) := by
    unfold subsPush
    exact pushes_before _ _ (by rw [List.mem_range]; omega)
  have wal : (subsPush l.fed).wal = l.fed.wal := same.wal
  have disk : (subsPush l.fed).os.disk = l.fed.os.disk := same.disk
  constructor
  · intro slot streaming
    have used := (rises.conn slot).inUse.symm.trans streaming.used
    exact subsPush_sated (sound.inside slot used) (orderly.apart slot) (streams slot) still
      streaming
  · intro slot idx copies
    have before := (rises.conn slot).copies copies
    have inside := sound.inside slot before.used
    have quiet : l.fed.progress = false := by
      rw [Bool.eq_false_iff]
      intro noted
      rw [rises.progress noted] at still
      cases still
    rw [rises.peer, wal, disk]
    unfold LoopPeer.Sated
    rw [(rises.conn slot).sendCap]
    have alone := orderly.alone
    unfold Loop.fed at before quiet alone ⊢
    by_cases following : l.isFollower = true
    · rw [if_pos following] at before alone
      have follows : (streamReport l).isFollower = true := by
        obtain ⟨stream, trace, same⟩ := streamReport_upstream l
        rw [same]
        exact following
      have none' : ((streamReport l).conns slot).replica = none :=
        alone (by unfold Loop.desk; rw [follows]; rfl) slot
      rw [before.replica] at none'
      cases none'
    · rw [if_neg following] at before quiet ⊢
      exact replStream_sated inside exact' (replicas slot idx) quiet before

/-- A pass that meets the condition and notes no progress leaves nothing for anyone. -/
theorem loopPass_rested (sound : l.Sound dark) (exact' : l.owners.Exact)
    (orderly : (l.desk .arming dark).Orderly) (possible : pass.Possible l)
    (clear : Unhindered l pass) (going : (loopPass l pass).stop = false)
    (still : (loopPass l pass).progress = false) : (loopPass l pass).Rested := by
  rcases loopPass_ends l pass with ⟨m, fails, -, ended⟩ | ⟨events, l1, waits, flushes, ended⟩
  · rw [ended] at going
    cases going
  · rw [ended] at still ⊢
    obtain ⟨lit, sound', moves⟩ := fed_moves sound possible waits flushes
    have swept := exact'.moment sound possible (.swept waits flushes)
    have settles := armPhase_settles (loopServe l1) pass.rearm
    rw [settles.progress] at still
    refine settles.rested ?_
    rw [loopServe_fed] at still ⊢
    rw [retainPass_progress] at still
    exact retainPass_rested (fed_rested sound' (moves_orderly moves orderly) swept
      (clear.replicas events l1 waits flushes) (clear.streams events l1 waits flushes) still)

/-- What the condition gives in every state of a run: where the pass before has noted no
progress, nothing is left for anyone. -/
structure Loop.Attentive (config : Config) (l : Loop) : Prop where
  running : Running config l
  rested : l.stop = false → l.progress = false → l.Rested

theorem unhindered_attentive {config : Config}
    (reached : Runs.Reach (Started config) LoopStep Unhindered l) : l.Attentive config := by
  refine Runs.Reach.invariant ?_ ?_ reached
  · intro l started
    refine ⟨.start started, fun _ _ => ?_⟩
    obtain ⟨os, listing, capacity, info, w, recs, os', opened, rfl⟩ := started
    have empty : (config.start w os' recs).conns = fun _ => slotEmpty := by
      unfold Config.start
      split <;> rfl
    constructor
    · intro slot streaming
      have used := streaming.used
      rw [empty] at used
      cases used
    · intro slot idx copies
      have used := copies.used
      rw [empty] at used
      cases used
  · rintro l pass l' attentive clear step
    have running := attentive.running
    obtain ⟨going, possible, rfl⟩ := step
    refine ⟨.next running pass trivial ⟨going, possible, rfl⟩, fun going' still => ?_⟩
    obtain ⟨start, phase, lit, starts, sound, moves, resting⟩ := running_moves running
    obtain ⟨rfl, rfl⟩ := resting going
    exact loopPass_rested sound (running_exact running)
      (moves_orderly moves (starts_orderly starts)) possible clear going' still

/-! ### The wait -/

/-- `loop_tick` is about to wait for events without a limit. -/
def Loop.Blocks (l : Loop) (pass : Pass) : Prop :=
  (armPhase (l.prepare pass) pass.arm).progress = false

/-- A stream on the connection that has more to be given, and nothing that will wake the
loop for it. -/
def Loop.Overdue (l : Loop) (slot : Nat) : Prop :=
  (l.conns slot).inUse = true ∧ (l.conns slot).closing = false ∧
    (l.conns slot).wantOut = false ∧ ∃ script,
      ((l.conns slot).sub.active = true ∧
        ∃ note ∈ (subsPush (l.faced script)).trace, note.stages slot MSG_OP_NOTIFY = true) ∨
      ((l.conns slot).replica ≠ none ∧
        ∃ note ∈ (replStream (l.faced script)).trace, note.stages slot MSG_OP_REPL_DATA = true)

theorem Loop.Rested.armed (rested : l.Rested) (pass : Pass) : (l.armed pass).Rested := by
  have prepared : Settles l (l.prepare pass) := .of_same rfl rfl rfl rfl rfl
  have armed := (prepared.trans (armPhase_settles _ pass.arm)).rested rested
  unfold Loop.armed
  generalize armPhase (l.prepare pass) pass.arm = l1 at armed ⊢
  exact ⟨armed.streams, armed.replicas⟩

theorem Loop.Rested.nothing_overdue (rested : l.Rested) (exact' : l.owners.Exact)
    (inside : (l.conns slot).inUse = true → slot < LOOP_MAX_CONNS) : ¬ l.Overdue slot := by
  rintro ⟨used, stays, unwatched, script, ⟨-, note, listed, staged⟩ |
    ⟨streams, note, listed, staged⟩⟩
  · rw [rested.push (inside used) script note listed] at staged
    cases staged
  · obtain ⟨idx, replica⟩ := Option.ne_none_iff_exists'.mp streams
    rw [rested.stream exact' (inside used) ⟨used, stays, unwatched, replica⟩ script note
      listed] at staged
    cases staged

/-- **No wakeup is lost in a run whose passes meet the condition.** -/
theorem no_lost_wakeup {config : Config}
    (reached : Runs.Reach (Started config) LoopStep Unhindered l) (going : l.stop = false)
    (blocks : l.Blocks pass) (slot : Nat) : ¬ (l.armed pass).Overdue slot := by
  obtain ⟨running, rested⟩ := unhindered_attentive reached
  have still : l.progress = false := by
    have kept := (armPhase_settles (l.prepare pass) pass.arm).progress
    unfold Loop.Blocks at blocks
    rw [blocks] at kept
    exact kept.symm
  have sound := running_sound running going
  have exact' := (armed_gives l pass (running_exact running)).1
  exact ((rested going still).armed pass).nothing_overdue exact'
    ((armed_sound sound pass).inside slot)

/-! ### A frame staged ahead -/

/-- A client writes, and a replica attaches, with a PING behind or without. -/
def attaches (pings : Bool) : List Pass :=
  let write := requestBytes MSG_OP_WRITE MSG_FLAG_ACK_REQ 3 1 (zeros 16)
  let start := requestBytes MSG_OP_REPL_START 0 0 1 []
  let ping := requestBytes MSG_OP_PING 0 0 1 []
  [calmPass [7] [.listen (some true), .listen (some true)],
    calmPass [7] [arrives 0 (helloBytes 0 ++ write)],
    calmPass [7] [arrives 1 (if pings then start ++ ping else start)]]

set_option maxRecDepth 8000 in
/-- `repl_stream` passes over the replica that has the answer to a PING staged, the arm phase
sends that, and the loop waits. -/
theorem wakeup_lost : ¬ ∀ config l pass slot, Running config l → l.stop = false →
    l.Blocks pass → ¬ (l.armed pass).Overdue slot := by
  intro never
  have started : Running leaderAlone (leaderAlone.fresh 120) :=
    fresh_running leaderAlone (by decide +kernel)
  refine never _ _ (calmPass [] []) 1 (after_running started (attaches true)) (by decide +kernel)
    ?_ ⟨by decide +kernel, by decide +kernel, by decide +kernel, [], .inr ⟨by decide +kernel, ?_⟩⟩
  · unfold Loop.Blocks
    decide +kernel
  · rw [← List.any_eq_true]
    decide +kernel

/-- Nothing is staged for a replica yet. -/
def LoopConn.unstaged (c : LoopConn) : Bool := c.sendBuf.isEmpty || c.replica.isNone

/-- Nothing is staged for any replica, and there are no streams. -/
def Loop.unstaged (l : Loop) : Bool :=
  (List.range LOOP_MAX_CONNS).all fun slot =>
    (l.conns slot).unstaged && !(l.fed.conns slot).sub.active

/-- The loop once it has emitted what the pass owes. -/
def Loop.swept (l : Loop) (events : List Event) (pass : Pass) : Loop :=
  acksEmit (loopFlush (loopDispatch (l.armed pass) events)).2

theorem Loop.unstaged_at (unstaged : l.unstaged = true) (inside : slot < LOOP_MAX_CONNS) :
    (l.conns slot).unstaged = true ∧ (l.fed.conns slot).sub.active = false := by
  unfold Loop.unstaged at unstaged
  have here := List.all_eq_true.mp unstaged slot (List.mem_range.mpr inside)
  rw [Bool.and_eq_true, Bool.not_eq_true'] at here
  exact here

theorem unstaged_unhindered (sound : l.Sound dark) (possible : pass.Possible l)
    {events : List Event} (waits : pass.wait = some events)
    (unstaged : (l.swept events pass).unstaged = true) : Unhindered l pass := by
  have swept {events' : List Event} {l1 : Loop} (waits' : pass.wait = some events')
      (flushes : loopFlush (loopDispatch (l.armed pass) events') = (.ok (), l1)) :
      l.swept events pass = acksEmit l1 := by
    cases waits.symm.trans waits'
    unfold Loop.swept
    rw [flushes]
  constructor
  · intro events' l1 waits' flushes slot idx copies
    have met := (loopDispatch_moves (armed_sound sound pass) (possible.shown waits')).1
    have sound1 := (acksEmit_serves (loopFlush_moves met flushes).1).sound
    rw [swept waits' flushes] at unstaged
    have here := (Loop.unstaged_at unstaged (sound1.inside slot copies.used)).1
    unfold LoopConn.unstaged at here
    rw [copies.replica, Option.isNone_some, Bool.or_false] at here
    exact .inl (List.isEmpty_iff.mp here)
  · intro events' l1 waits' flushes slot streaming
    obtain ⟨lit, fed, -⟩ := fed_moves sound possible waits' flushes
    rw [swept waits' flushes] at unstaged
    have idle := (Loop.unstaged_at unstaged (fed.inside slot streaming.used)).2
    rw [streaming.active] at idle
    cases idle

/-- These passes make a run, and each of them finds nothing staged. -/
def Loop.unstagedAlong (l : Loop) : List Pass → Bool
  | [] => true
  | pass :: rest =>
      !l.stop && pass.quiet && pass.wait.isSome &&
        (l.swept (pass.wait.getD []) pass).unstaged && (loopPass l pass).unstagedAlong rest

theorem unstaged_reach {config : Config} {passes : List Pass}
    (reached : Runs.Reach (Started config) LoopStep Unhindered l)
    (unstaged : l.unstagedAlong passes = true) :
    Runs.Reach (Started config) LoopStep Unhindered (passes.foldl loopPass l) := by
  induction passes generalizing l with
  | nil => exact reached
  | cons pass rest ih =>
      unfold Loop.unstagedAlong at unstaged
      rw [Bool.and_eq_true, Bool.and_eq_true, Bool.and_eq_true, Bool.and_eq_true,
        Bool.not_eq_true'] at unstaged
      obtain ⟨⟨⟨⟨going, quiet⟩, waits⟩, here⟩, later⟩ := unstaged
      have sound := running_sound (reached.mono (fun _ _ _ => trivial)) going
      have possible := quiet_possible quiet l
      obtain ⟨events, waits⟩ := Option.isSome_iff_exists.mp waits
      rw [waits, Option.getD_some] at here
      exact ih (.next reached pass (unstaged_unhindered sound possible waits here)
        ⟨going, possible, rfl⟩) later

set_option maxRecDepth 8000 in
/-- Without the PING the replica is given the record. -/
theorem no_lost_wakeup_attached : ¬ Loop.Overdue (Loop.armed
    ((attaches false ++ [calmPass [] []]).foldl loopPass (leaderAlone.fresh 120))
    (calmPass [] [])) 1 := by
  have started : Started leaderAlone (leaderAlone.fresh 120) :=
    fresh_started leaderAlone (by decide +kernel)
  refine no_lost_wakeup (unstaged_reach (.start started) (by decide +kernel))
    (by decide +kernel) ?_ 1
  unfold Loop.Blocks
  decide +kernel

end Msgsrvd

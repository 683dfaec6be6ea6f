/-
What one pass of `subs_push` does for a connection, and how far the streams of the
other connections reach into it.

The loop carries `durable` from one slot to the next, and a read that is still going
lowers it to its own end.
-/

import Msgsrvd.Server.Run
import Msgsrvd.Wal.Runs

namespace Msgsrvd

open Bytestring

/-! ### Reads answered alike -/

/-- The same files, and the same answers still to come. -/
structure Os.Alike (os os' : Os) : Prop where
  disk : os'.disk = os.disk
  script : os'.script = os.script

variable {os os' : Os}

theorem Os.Alike.refl (os : Os) : os.Alike os := ⟨rfl, rfl⟩

theorem plain_id_alike (alike : os.Alike os') :
    (os'.plain id).1 = (os.plain id).1 ∧ (os.plain id).2.Alike (os'.plain id).2 ∧
      (os.plain id).2.disk = os.disk := by
  unfold Os.plain Os.call
  rw [alike.script]
  cases os.script with
  | nil => exact ⟨rfl, ⟨alike.disk, rfl⟩, rfl⟩
  | cons outcome rest =>
      cases outcome with
      | done => exact ⟨rfl, ⟨alike.disk, rfl⟩, rfl⟩
      | fails errno moved => exact ⟨rfl, ⟨alike.disk, rfl⟩, rfl⟩

/-- What a read of the log returns, and the files it leaves. -/
structure ReadAlike {α : Type} (os : Os) (left right : α × WalCursor × Os) : Prop where
  res : right.1 = left.1
  cursor : right.2.1 = left.2.1
  after : left.2.2.Alike right.2.2
  kept : left.2.2.disk = os.disk

theorem osPreadFull_alike (alike : os.Alike os') (fd : Option Nat) (count offset : Nat) :
    (osPreadFull os' fd count offset).1 = (osPreadFull os fd count offset).1 ∧
      (osPreadFull os fd count offset).2.Alike (osPreadFull os' fd count offset).2 ∧
      (osPreadFull os fd count offset).2.disk = os.disk := by
  unfold osPreadFull
  cases fd with
  | none => exact ⟨rfl, alike, rfl⟩
  | some fd =>
      obtain ⟨res, after, disk⟩ := plain_id_alike alike
      simp only
      generalize os.plain id = left at res after disk ⊢
      generalize os'.plain id = right at res after ⊢
      obtain ⟨r, os1⟩ := left
      obtain ⟨r', os1'⟩ := right
      simp only at res after disk
      rw [res]
      cases r with
      | error e => exact ⟨rfl, after, disk⟩
      | ok done =>
          simp only
          rw [after.disk]
          exact ⟨rfl, after, disk⟩

theorem osOpenat_alike (alike : os.Alike os') (base : Nat) :
    (osOpenat os' base).1 = (osOpenat os base).1 ∧
      (osOpenat os base).2.Alike (osOpenat os' base).2 ∧
      (osOpenat os base).2.disk = os.disk := by
  unfold osOpenat
  rw [alike.disk]
  by_cases named : base ∈ os.disk.dir
  · rw [if_pos named, if_pos named]
    obtain ⟨res, after, disk⟩ := plain_id_alike alike
    generalize os.plain id = left at res after disk ⊢
    generalize os'.plain id = right at res after ⊢
    obtain ⟨r, os1⟩ := left
    obtain ⟨r', os1'⟩ := right
    simp only at res after disk
    rw [res]
    cases r with
    | error e => exact ⟨rfl, after, disk⟩
    | ok done => exact ⟨rfl, after, disk⟩
  · rw [if_neg named, if_neg named]
    exact ⟨rfl, alike, rfl⟩

theorem cursorOpenSeg_alike (alike : os.Alike os') (c : WalCursor) (base : Nat) :
    ReadAlike os (cursorOpenSeg os c base) (cursorOpenSeg os' c base) := by
  unfold cursorOpenSeg
  obtain ⟨res, after, disk⟩ := osOpenat_alike alike base
  generalize osOpenat os base = left at res after disk ⊢
  generalize osOpenat os' base = right at res after ⊢
  obtain ⟨r, os1⟩ := left
  obtain ⟨r', os1'⟩ := right
  simp only at res after disk
  rw [res]
  cases r with
  | error e => exact ⟨rfl, rfl, after, disk⟩
  | ok fd =>
      simp only
      cases c.fd with
      | none => exact ⟨rfl, rfl, after, disk⟩
      | some old =>
          obtain ⟨_res, closed, disk'⟩ := plain_id_alike after
          exact ⟨rfl, rfl, closed, disk'.trans disk⟩

theorem walCursorClose_alike (alike : os.Alike os') (c : WalCursor) :
    (walCursorClose os' c).1 = (walCursorClose os c).1 ∧
      (walCursorClose os c).2.Alike (walCursorClose os' c).2 ∧
      (walCursorClose os c).2.disk = os.disk := by
  unfold walCursorClose
  cases c.fd with
  | none => exact ⟨rfl, alike, rfl⟩
  | some fd => exact ⟨rfl, (plain_id_alike alike).2⟩

theorem cursorAttempt_alike (alike : os.Alike os') (w : Wal) (limit bufLen attempts : Nat)
    (c : WalCursor) :
    ReadAlike os (cursorAttempt w limit bufLen attempts os c)
      (cursorAttempt w limit bufLen attempts os' c) := by
  induction attempts generalizing os os' c with
  | zero => exact ⟨rfl, rfl, alike, rfl⟩
  | succ attempts ih =>
      unfold cursorAttempt
      obtain ⟨res, after, disk⟩ := osPreadFull_alike alike c.fd bufLen c.off
      generalize osPreadFull os c.fd bufLen c.off = left at res after disk ⊢
      generalize osPreadFull os' c.fd bufLen c.off = right at res after ⊢
      obtain ⟨r, os1⟩ := left
      obtain ⟨r', os1'⟩ := right
      simp only at res after disk
      rw [res]
      cases r with
      | error e => exact ⟨rfl, rfl, after, disk⟩
      | ok buf =>
          simp only
          generalize cursorWalk buf limit buf.length 0 c.nextSeq = walked
          obtain ⟨outcome, used, next⟩ := walked
          cases outcome with
          | error e => exact ⟨rfl, rfl, after, disk⟩
          | ok done =>
              simp only
              split
              · exact ⟨rfl, rfl, after, disk⟩
              · cases segIndexOf w.segBase next with
                | none => exact ⟨rfl, rfl, after, disk⟩
                | some base =>
                    simp only
                    split
                    · exact ⟨rfl, rfl, after, disk⟩
                    · have opens := cursorOpenSeg_alike after
                        { c with nextSeq := next, off := c.off + used } base
                      generalize cursorOpenSeg os1 _ base = opened at opens ⊢
                      generalize cursorOpenSeg os1' _ base = opened' at opens ⊢
                      obtain ⟨r2, c2, os2⟩ := opened
                      obtain ⟨r2', c2', os2'⟩ := opened'
                      obtain ⟨res', cursor, after', kept⟩ := opens
                      simp only at res' cursor after' kept
                      rw [res', cursor]
                      cases r2 with
                      | error e => exact ⟨rfl, rfl, after', kept.trans disk⟩
                      | ok done =>
                          have rest := ih after' c2
                          exact ⟨rest.res, rest.cursor, rest.after,
                            rest.kept.trans (kept.trans disk)⟩

theorem walCursorRead_alike (alike : os.Alike os') (w : Wal) (c : WalCursor)
    (limit bufLen : Nat) :
    ReadAlike os (walCursorRead os w c limit bufLen) (walCursorRead os' w c limit bufLen) := by
  unfold walCursorRead
  split
  · exact ⟨rfl, rfl, alike, rfl⟩
  · split
    · exact ⟨rfl, rfl, alike, rfl⟩
    · split
      · exact ⟨rfl, rfl, alike, rfl⟩
      · exact cursorAttempt_alike alike w limit bufLen 2 c

/-! ### What one connection is given -/

def Note.about (slot : Nat) : Note → Bool
  | .staged other _ _ | .began other _ _ | .behind other _ _ _ | .pushed other _ _ _ _
  | .ended other _ _ => other == slot
  | _ => false

/-- What was told about a connection. -/
def Loop.told (l : Loop) (slot : Nat) : List Note := l.trace.filter (Note.about slot)

/-- Two loops that are the same as far as this connection goes. -/
structure Alike (slot : Nat) (l l' : Loop) : Prop where
  conn : l'.conns slot = l.conns slot
  wal : l'.wal = l.wal
  tick : l'.tick = l.tick
  os : l.os.Alike l'.os
  told : l'.told slot = l.told slot

/-- Nothing but this connection has changed, and the answers used up. -/
structure Only (slot : Nat) (l l' : Loop) : Prop where
  conns : ∀ other, other ≠ slot → l'.conns other = l.conns other
  wal : l'.wal = l.wal
  tick : l'.tick = l.tick
  disk : l'.os.disk = l.os.disk
  told : ∀ other, other ≠ slot → l'.told other = l.told other

variable {slot : Nat} {l l' l'' : Loop}

theorem Only.refl (slot : Nat) (l : Loop) : Only slot l l :=
  ⟨fun _ _ => rfl, rfl, rfl, rfl, fun _ _ => rfl⟩

theorem Only.trans (left : Only slot l l') (right : Only slot l' l'') : Only slot l l'' where
  conns := fun other differ => (right.conns other differ).trans (left.conns other differ)
  wal := right.wal.trans left.wal
  tick := right.tick.trans left.tick
  disk := right.disk.trans left.disk
  told := fun other differ => (right.told other differ).trans (left.told other differ)

/-- An action on one connection: it changes only that, and looks at nothing else. -/
structure Acts (slot : Nat) (f : Loop → Loop) : Prop where
  only : ∀ l, Only slot l (f l)
  alike : ∀ l l', Alike slot l l' → Alike slot (f l) (f l')

theorem Acts.id : Acts slot (fun l => l) := ⟨Only.refl slot, fun _ _ alike => alike⟩

theorem Acts.comp {f g : Loop → Loop} (left : Acts slot f) (right : Acts slot g) :
    Acts slot (fun l => g (f l)) where
  only := fun l => (left.only l).trans (right.only (f l))
  alike := fun l l' alike => right.alike _ _ (left.alike l l' alike)

/-- An action chosen by what it sees of the connection. -/
theorem Acts.read {α : Type} {f : α → Loop → Loop} (view : Loop → α)
    (same : ∀ l l', Alike slot l l' → view l' = view l) (each : ∀ a, Acts slot (f a)) :
    Acts slot (fun l => f (view l) l) where
  only := fun l => (each (view l)).only l
  alike := by
    intro l l' alike
    rw [same l l' alike]
    exact (each (view l)).alike l l' alike

theorem Acts.of_conn {f : LoopConn → Loop → Loop} (each : ∀ c, Acts slot (f c)) :
    Acts slot (fun l => f (l.conns slot) l) :=
  Acts.read (fun l => l.conns slot) (fun _ _ alike => alike.conn) each

theorem acts_setConn (slot : Nat) (c : LoopConn) : Acts slot (fun l => l.setConn slot c) where
  only := fun _ => ⟨fun _ differ => if_neg differ, rfl, rfl, rfl, fun _ _ => rfl⟩
  alike := fun _ _ alike =>
    ⟨(if_pos rfl).trans (if_pos rfl).symm, alike.wal, alike.tick, alike.os, alike.told⟩

theorem acts_setSub (slot : Nat) (sub : LoopSub) : Acts slot (fun l => l.setSub slot sub) :=
  @Acts.of_conn slot (fun c l => l.setConn slot { c with sub := sub })
    (fun _ => acts_setConn slot _)

theorem acts_note {note : Note} (own : ∀ other, note.about other = (slot == other)) :
    Acts slot (fun l => l.note note) where
  only := by
    intro l
    refine ⟨fun _ _ => rfl, rfl, rfl, rfl, ?_⟩
    intro other differ
    have foreign : note.about other = false := by
      rw [own other, beq_eq_false_iff_ne]
      exact Ne.symm differ
    exact List.filter_cons_of_neg (by rw [foreign]; exact Bool.false_ne_true)
  alike := by
    intro l l' alike
    refine ⟨alike.conn, alike.wal, alike.tick, alike.os, ?_⟩
    have told := alike.told
    unfold Loop.told Loop.note at *
    simp only [List.filter_cons]
    rw [told]

/-- A note that is about no connection. -/
theorem acts_aside {note : Note} (aside : ∀ other, note.about other = false) :
    Acts slot (fun l => l.note note) := by
  have told (l : Loop) (other : Nat) : (l.note note).told other = l.told other :=
    List.filter_cons_of_neg (by rw [aside other]; exact Bool.false_ne_true)
  constructor
  · intro l
    exact ⟨fun _ _ => rfl, rfl, rfl, rfl, fun other _ => told l other⟩
  · intro l l' alike
    refine ⟨alike.conn, alike.wal, alike.tick, alike.os, ?_⟩
    rw [told, told]
    exact alike.told

theorem acts_replyFrame (slot : Nat) (frame : Frame) :
    Acts slot (fun l => (replyFrame l slot frame).2) := by
  refine @Acts.of_conn slot (fun c l => (if c.room < MSG_HEADER_SIZE + frame.payload.length
    then (false, l)
    else (true, (l.setConn slot { c with sendBuf := c.sendBuf ++ frame.bytes }).note
      (.staged slot c.session frame))).2) ?_
  intro c
  split
  · exact .id
  · exact (acts_setConn slot _).comp (acts_note (fun _ => rfl))

theorem acts_reply (slot op flags sequence : Nat) (payload : Bytes) :
    Acts slot (fun l => (reply l slot op flags sequence payload).2) :=
  acts_replyFrame slot _

theorem acts_replyErr (slot code sequence : Nat) : Acts slot (fun l => replyErr l slot code sequence) :=
  acts_replyFrame slot _

theorem acts_close (slot : Nat) : Acts slot (fun l => l.close slot) :=
  @Acts.of_conn slot (fun c l => l.setConn slot { c with closing := true })
    (fun _ => acts_setConn slot _)

theorem acts_progress (slot : Nat) : Acts slot (fun l => { l with progress := true }) where
  only := fun _ => ⟨fun _ _ => rfl, rfl, rfl, rfl, fun _ _ => rfl⟩
  alike := fun _ _ alike => ⟨alike.conn, alike.wal, alike.tick, alike.os, alike.told⟩

theorem acts_subAnswer (slot sequence : Nat) : Acts slot (fun l => subAnswer l slot sequence) := by
  have noted : Acts slot (fun l => (reply l slot MSG_OP_ACK 0 sequence []).2.note
      (.began slot (l.conns slot).sub (walDurableSeq l.wal))) :=
    @Acts.read slot (LoopSub × Nat)
      (fun seen l => (reply l slot MSG_OP_ACK 0 sequence []).2.note (.began slot seen.1 seen.2))
      (fun l => ((l.conns slot).sub, walDurableSeq l.wal))
      (fun l l' alike => by rw [alike.conn, alike.wal])
      (fun seen => (acts_reply slot MSG_OP_ACK 0 sequence []).comp
        (acts_note (fun _ => rfl)))
  exact noted

theorem acts_pushRecord (slot : Nat) (r : WalRec) (payload : Bytes) :
    Acts slot (fun l => pushRecord l slot r payload) := by
  have noted : Acts slot (fun l => (replyRecord l slot r payload).2.note
      (.pushed slot ((replyRecord l slot r payload).2.conns slot).sub
        (walDurableSeq (replyRecord l slot r payload).2.wal) r (replyRecord l slot r payload).1)) :=
    @Acts.read slot (LoopSub × Nat × Bool)
      (fun seen l => (replyRecord l slot r payload).2.note
        (.pushed slot seen.1 seen.2.1 r seen.2.2))
      (fun l => (((replyRecord l slot r payload).2.conns slot).sub,
        walDurableSeq (replyRecord l slot r payload).2.wal, (replyRecord l slot r payload).1))
      (by
        intro l l' alike
        have after := (acts_replyFrame slot
          ⟨msgHeaderNew MSG_OP_NOTIFY r.recordType 0 r.len r.partitionKey r.seq, payload⟩).alike
          l l' alike
        have sent : (replyRecord l' slot r payload).1 = (replyRecord l slot r payload).1 := by
          unfold replyRecord replyFrame
          simp only
          rw [alike.conn]
          split
          · rfl
          · rfl
        have conn : (replyRecord l' slot r payload).2.conns slot =
          (replyRecord l slot r payload).2.conns slot := after.conn
        have wal : (replyRecord l' slot r payload).2.wal = (replyRecord l slot r payload).2.wal :=
          after.wal
        rw [sent, conn, wal])
      (fun seen => (acts_replyFrame slot _).comp (acts_note (fun _ => rfl)))
  exact noted

theorem acts_pushRecords (slot : Nat) (buf : Bytes) (fuel at' : Nat) :
    Acts slot (fun l => pushRecords slot buf fuel l at') := by
  induction fuel generalizing at' with
  | zero => exact .id
  | succ fuel ih =>
      unfold pushRecords
      split
      · cases walRecDecode (buf.drop at') with
        | none => exact .id
        | some r =>
            simp only
            split
            · exact .id
            · have given : Acts slot (fun l =>
                  if (l.conns slot).sub.allKeys ∨ r.partitionKey = (l.conns slot).sub.key then
                    pushRecord l slot r (slice buf (at' + WAL_REC_HEADER_SIZE) r.len)
                  else l) := by
                refine @Acts.of_conn slot (fun c l =>
                  if c.sub.allKeys ∨ r.partitionKey = c.sub.key then
                    pushRecord l slot r (slice buf (at' + WAL_REC_HEADER_SIZE) r.len)
                  else l) ?_
                intro c
                split
                · exact acts_pushRecord slot _ _
                · exact .id
              exact given.comp (ih _)
      · exact .id

/-! ### The parts of the push -/

/-- A change of the answers still to come, by closing a cursor. -/
theorem acts_closeCursor (slot : Nat) (c : WalCursor) :
    Acts slot (fun l => { l with os := (walCursorClose l.os c).2 }) where
  only := fun l => ⟨fun _ _ => rfl, rfl, rfl, (walCursorClose_alike (.refl l.os) c).2.2,
    fun _ _ => rfl⟩
  alike := fun _ _ alike => ⟨alike.conn, alike.wal, alike.tick,
    (walCursorClose_alike alike.os c).2.1, alike.told⟩

theorem walCursorClose_cursor (os : Os) (c : WalCursor) :
    (walCursorClose os c).1 = walCursorInit := by
  unfold walCursorClose
  cases c.fd with
  | none => rfl
  | some fd => rfl

theorem acts_subClosed (slot : Nat) (c : WalCursor) (change : LoopSub → LoopSub) :
    Acts slot (fun l => { l with os := (walCursorClose l.os c).2 }.setSub slot
      { change (l.conns slot).sub with cursor := (walCursorClose l.os c).1 }) := by
  simp only [walCursorClose_cursor]
  exact (acts_closeCursor slot c).comp (@Acts.of_conn slot
    (fun conn l => l.setSub slot { change conn.sub with cursor := walCursorInit })
    (fun _ => acts_setSub slot _))

theorem acts_subsPushWaiting (slot durable : Nat) :
    Acts slot (fun l => subsPushWaiting durable l slot) := by
  refine @Acts.read slot (LoopSub × Nat) (fun seen l =>
    if durable ≥ seen.1.minSeq then
      { subAnswer (l.setSub slot
        { seen.1 with
          waiting := false
          active := true
          untilSeq := if seen.1.once then durable else seen.1.untilSeq })
        slot seen.1.cursor.nextSeq with progress := true }
    else if seen.2 ≥ seen.1.deadline then
      let l := replyErr (l.setSub slot { seen.1 with waiting := false }) slot MSG_ERR_BEHIND
        seen.1.minSeq
      let l := l.note (.behind slot seen.1 (walDurableSeq l.wal) l.tick)
      { l with os := (walCursorClose l.os seen.1.cursor).2 }.setSub slot
        { (l.conns slot).sub with cursor := (walCursorClose l.os seen.1.cursor).1 }
    else l) (fun l => ((l.conns slot).sub, l.tick))
    (fun l l' alike => by rw [alike.conn, alike.tick]) ?_
  intro seen
  split
  · exact ((acts_setSub slot _).comp (acts_subAnswer slot _)).comp (acts_progress slot)
  · split
    · have told : Acts slot (fun l => l.note (.behind slot seen.1 (walDurableSeq l.wal) l.tick)) :=
        @Acts.read slot (Nat × Nat) (fun now l => l.note (.behind slot seen.1 now.1 now.2))
          (fun l => (walDurableSeq l.wal, l.tick))
          (fun l l' alike => by rw [alike.wal, alike.tick]) (fun _ => acts_note (fun _ => rfl))
      exact (((acts_setSub slot _).comp (acts_replyErr slot _ _)).comp told).comp
        (acts_subClosed slot seen.1.cursor (fun sub => sub))
    · exact .id

theorem acts_subsPushLast (slot : Nat) : Acts slot (fun l => subsPushLast l slot) := by
  refine @Acts.of_conn slot (fun c l =>
    let l := (reply l slot MSG_OP_NOTIFY MSG_FLAG_LAST c.sub.untilSeq []).2.note
      (.ended slot c.sub (walDurableSeq l.wal))
    { l with os := (walCursorClose l.os c.sub.cursor).2 }.setSub slot
      { (l.conns slot).sub with
        active := false, cursor := (walCursorClose l.os c.sub.cursor).1 }) ?_
  intro c
  have told : Acts slot (fun l => (reply l slot MSG_OP_NOTIFY MSG_FLAG_LAST c.sub.untilSeq []).2.note
      (.ended slot c.sub (walDurableSeq l.wal))) :=
    @Acts.read slot Nat
      (fun durable l => (reply l slot MSG_OP_NOTIFY MSG_FLAG_LAST c.sub.untilSeq []).2.note
        (.ended slot c.sub durable)) (fun l => walDurableSeq l.wal)
      (fun l l' alike => by rw [alike.wal])
      (fun _ => (acts_reply slot _ _ _ _).comp (acts_note (fun _ => rfl)))
  exact told.comp (acts_subClosed slot c.sub.cursor (fun sub => { sub with active := false }))

/-- What follows a read of the log, given what the read returned. -/
def subsRead (slot : Nat) (sub : LoopSub) (res : Except Err Bytes) (cursor : WalCursor)
    (l : Loop) : Loop :=
  let l := l.setSub slot { sub with cursor := cursor }
  match res with
  | .error _ => (replyErr l slot MSG_ERR_NO_HISTORY cursor.nextSeq).close slot
  | .ok got =>
      pushRecords slot got got.length (if got = [] then l else { l with progress := true }) 0

theorem acts_subsRead (slot : Nat) (sub : LoopSub) (res : Except Err Bytes) (cursor : WalCursor) :
    Acts slot (subsRead slot sub res cursor) := by
  cases res with
  | error e =>
      exact ((acts_setSub slot _).comp (acts_replyErr slot _ _)).comp (acts_close slot)
  | ok got =>
      have marked : Acts slot (fun l => if got = [] then l else { l with progress := true }) := by
        split
        · exact .id
        · exact acts_progress slot
      exact ((acts_setSub slot _).comp marked).comp (acts_pushRecords slot got got.length 0)

theorem subsPushRead_eq (durable room : Nat) (l : Loop) (slot : Nat) :
    subsPushRead durable room l slot =
      subsRead slot (l.conns slot).sub
        (walCursorRead l.os l.wal (l.conns slot).sub.cursor durable room).1
        (walCursorRead l.os l.wal (l.conns slot).sub.cursor durable room).2.1
        { l with os := (walCursorRead l.os l.wal (l.conns slot).sub.cursor durable room).2.2 } := by
  unfold subsPushRead
  simp only
  generalize walCursorRead l.os l.wal (l.conns slot).sub.cursor durable room = read
  obtain ⟨res, cursor, os⟩ := read
  cases res with
  | error e => rfl
  | ok got => rfl

theorem acts_subsPushRead (slot durable room : Nat) :
    Acts slot (fun l => subsPushRead durable room l slot) where
  only := by
    intro l
    have read := walCursorRead_alike (.refl l.os) l.wal (l.conns slot).sub.cursor durable room
    rw [subsPushRead_eq]
    have moved : Only slot l
        { l with os := (walCursorRead l.os l.wal (l.conns slot).sub.cursor durable room).2.2 } :=
      ⟨fun _ _ => rfl, rfl, rfl, read.kept, fun _ _ => rfl⟩
    exact moved.trans ((acts_subsRead slot _ _ _).only _)
  alike := by
    intro l l' alike
    have read := walCursorRead_alike alike.os l.wal (l.conns slot).sub.cursor durable room
    rw [subsPushRead_eq, subsPushRead_eq, alike.conn, alike.wal, read.res, read.cursor]
    refine (acts_subsRead slot _ _ _).alike _ _ ?_
    exact ⟨alike.conn, rfl, alike.tick, read.after, alike.told⟩

/-! ### The caps that reads leave -/

/-- What the push does with a connection, from the connection alone. -/
inductive PushPart where
  | idle
  /-- held for `min_seq` -/
  | held
  | live
  /-- a read at its end -/
  | last
  /-- a read that goes on, up to its end -/
  | bounded
  deriving DecidableEq, Repr

def LoopConn.part (c : LoopConn) : PushPart :=
  if ¬ c.inUse ∨ c.closing then .idle
  else if c.sub.waiting then .held
  else if ¬ c.sub.active ∨ c.wantOut then .idle
  else if c.room < MSG_HEADER_SIZE then .idle
  else if ¬ c.sub.once then .live
  else if c.sub.cursor.nextSeq > c.sub.untilSeq then .last
  else .bounded

theorem subsPushOne_part (l : Loop) (cap slot : Nat) :
    subsPushOne (l, cap) slot =
      match (l.conns slot).part with
      | .idle => (l, cap)
      | .held => (subsPushWaiting cap l slot, cap)
      | .live => (subsPushRead cap (min (l.conns slot).room SCRATCH_LEN) l slot, cap)
      | .last => (subsPushLast l slot, cap)
      | .bounded =>
          (subsPushRead (min cap (l.conns slot).sub.untilSeq)
            (min (l.conns slot).room SCRATCH_LEN) (l.note (.bounded slot (l.conns slot).sub)) slot,
            min cap (l.conns slot).sub.untilSeq) := by
  have lower (bound : Nat) : (if cap > bound then bound else cap) = min cap bound := by
    split
    · omega
    · omega
  unfold subsPushOne LoopConn.part
  simp only [lower]
  split
  · rfl
  · split
    · rfl
    · split
      · rfl
      · split
        · rfl
        · split
          · rfl
          · split
            · rfl
            · rfl

def LoopConn.capped (c : LoopConn) (cap : Nat) : Nat :=
  if c.part = .bounded then min cap c.sub.untilSeq else cap

theorem subsPushOne_cap (l : Loop) (cap slot : Nat) :
    (subsPushOne (l, cap) slot).2 = (l.conns slot).capped cap := by
  rw [subsPushOne_part]
  unfold LoopConn.capped
  cases (l.conns slot).part <;> rfl

theorem acts_subsPushOne (cap slot : Nat) : Acts slot (fun l => (subsPushOne (l, cap) slot).1) := by
  have chosen : Acts slot (fun l =>
      match (l.conns slot).part with
      | .idle => l
      | .held => subsPushWaiting cap l slot
      | .live => subsPushRead cap (min (l.conns slot).room SCRATCH_LEN) l slot
      | .last => subsPushLast l slot
      | .bounded =>
          subsPushRead (min cap (l.conns slot).sub.untilSeq) (min (l.conns slot).room SCRATCH_LEN)
            (l.note (.bounded slot (l.conns slot).sub)) slot) := by
    refine @Acts.of_conn slot (fun c l =>
      match c.part with
      | .idle => l
      | .held => subsPushWaiting cap l slot
      | .live => subsPushRead cap (min c.room SCRATCH_LEN) l slot
      | .last => subsPushLast l slot
      | .bounded =>
          subsPushRead (min cap c.sub.untilSeq) (min c.room SCRATCH_LEN)
            (l.note (.bounded slot c.sub)) slot) ?_
    intro c
    cases c.part with
    | idle => exact .id
    | held => exact acts_subsPushWaiting slot cap
    | live => exact acts_subsPushRead slot cap _
    | last => exact acts_subsPushLast slot
    | bounded => exact (acts_aside (fun _ => rfl)).comp (acts_subsPushRead slot _ _)
  have same : (fun l => (subsPushOne (l, cap) slot).1) = (fun l =>
      match (l.conns slot).part with
      | .idle => l
      | .held => subsPushWaiting cap l slot
      | .live => subsPushRead cap (min (l.conns slot).room SCRATCH_LEN) l slot
      | .last => subsPushLast l slot
      | .bounded =>
          subsPushRead (min cap (l.conns slot).sub.untilSeq) (min (l.conns slot).room SCRATCH_LEN)
            (l.note (.bounded slot (l.conns slot).sub)) slot) := by
    funext l
    rw [subsPushOne_part]
    cases (l.conns slot).part <;> rfl
  rw [same]
  exact chosen

/-- What the loop takes for durable by the time it gets to this slot. -/
def Loop.capAt (l : Loop) (slot : Nat) : Nat :=
  (List.range slot).foldl (fun cap other => (l.conns other).capped cap) (walDurableSeq l.wal)

/-- The loop when it gets to this slot. -/
def Loop.turn (l : Loop) (slot : Nat) : Loop × Nat :=
  (List.range slot).foldl subsPushOne (l, walDurableSeq l.wal)

/-- What has changed while slots other than this one had their turn. -/
structure Before (slot : Nat) (l l' : Loop) : Prop where
  conn : l'.conns slot = l.conns slot
  wal : l'.wal = l.wal
  tick : l'.tick = l.tick
  disk : l'.os.disk = l.os.disk
  told : l'.told slot = l.told slot

theorem Only.before {other : Nat} (only : Only other l l') (differ : slot ≠ other) :
    Before slot l l' :=
  ⟨only.conns slot differ, only.wal, only.tick, only.disk, only.told slot differ⟩

theorem Before.trans (left : Before slot l l') (right : Before slot l' l'') : Before slot l l'' :=
  ⟨right.conn.trans left.conn, right.wal.trans left.wal, right.tick.trans left.tick,
    right.disk.trans left.disk, right.told.trans left.told⟩

/-- Other slots' turns, one after another. -/
theorem pushes_before (others : List Nat) (cap : Nat) (absent : slot ∉ others) :
    Before slot l (others.foldl subsPushOne (l, cap)).1 := by
  induction others generalizing l cap with
  | nil => exact ⟨rfl, rfl, rfl, rfl, rfl⟩
  | cons other rest ih =>
      rw [List.mem_cons, not_or] at absent
      rw [List.foldl_cons]
      have first := ((acts_subsPushOne cap other).only l).before absent.1
      exact first.trans (ih (subsPushOne (l, cap) other).2 absent.2)

theorem turn_before (l : Loop) {slot later : Nat} (behind : slot ≤ later) :
    Before later l (l.turn slot).1 :=
  pushes_before _ _ (by rw [List.mem_range]; omega)

theorem turn_cap (l : Loop) (slot : Nat) : (l.turn slot).2 = l.capAt slot := by
  induction slot with
  | zero => rfl
  | succ slot ih =>
      have turned : l.turn (slot + 1) = subsPushOne (l.turn slot) slot := by
        unfold Loop.turn
        rw [List.range_succ, List.foldl_append]
        rfl
      have capped : l.capAt (slot + 1) = (l.conns slot).capped (l.capAt slot) := by
        unfold Loop.capAt
        rw [List.range_succ, List.foldl_append]
        rfl
      rw [turned, capped, ← ih]
      have same := (turn_before l (Nat.le_refl slot)).conn
      rw [← same]
      exact subsPushOne_cap (l.turn slot).1 (l.turn slot).2 slot

/-- A slot's turn, among those of all the slots. -/
theorem range_split {count : Nat} (inside : slot < count) : ∃ others : List Nat, slot ∉ others ∧
    List.range count = List.range slot ++ slot :: others := by
  refine ⟨(List.range (count - (slot + 1))).map (fun other => slot + 1 + other), ?_, ?_⟩
  · rw [List.mem_map]
    rintro ⟨other, _listed, same⟩
    omega
  · rw [← List.singleton_append, ← List.append_assoc, ← List.range_succ, ← List.range_add]
    congr 1
    omega

/-- The push is the turns before a slot's, that turn, and the turns of the others. -/
theorem subsPush_split (l : Loop) (inside : slot < LOOP_MAX_CONNS) :
    ∃ others : List Nat, slot ∉ others ∧ subsPush l =
      (others.foldl subsPushOne (subsPushOne ((l.turn slot).1, l.capAt slot) slot)).1 := by
  obtain ⟨others, absent, split⟩ := range_split inside
  have turned : (List.range slot).foldl subsPushOne (l, walDurableSeq l.wal) =
      ((l.turn slot).1, l.capAt slot) := by
    rw [← turn_cap]
    rfl
  refine ⟨others, absent, ?_⟩
  unfold subsPush
  rw [split, List.foldl_append, turned]
  rfl

/-- What the push makes of a connection is what its own turn makes of it. -/
theorem subsPush_own (l : Loop) (inside : slot < LOOP_MAX_CONNS) :
    Before slot (subsPushOne ((l.turn slot).1, l.capAt slot) slot).1 (subsPush l) := by
  obtain ⟨others, absent, split⟩ := subsPush_split l inside
  rw [split]
  exact pushes_before others _ absent

/-! ### Reads that a cap makes no difference to -/

theorem cursorWalk_used {buf : Bytes} {limit fuel at' next used next' : Nat}
    {res : Except Err Unit} (walked : cursorWalk buf limit fuel at' next = (res, used, next')) :
    at' ≤ used ∧ next ≤ next' ∧ (used = at' ↔ next' = next) := by
  induction fuel generalizing at' next with
  | zero =>
      cases walked
      exact ⟨Nat.le_refl _, Nat.le_refl _, Iff.intro (fun _ => rfl) (fun _ => rfl)⟩
  | succ fuel ih =>
      have still (same : (res, used, next') = (res, at', next)) :
          at' ≤ used ∧ next ≤ next' ∧ (used = at' ↔ next' = next) := by
        cases same
        exact ⟨Nat.le_refl _, Nat.le_refl _, Iff.intro (fun _ => rfl) (fun _ => rfl)⟩
      unfold cursorWalk at walked
      split at walked
      · cases decoded : walRecDecode (buf.drop at') with
        | none =>
            rw [decoded] at walked
            cases walked
            exact still rfl
        | some r =>
            rw [decoded] at walked
            simp only at walked
            split at walked
            · cases walked
              exact still rfl
            · split at walked
              · cases walked
                exact still rfl
              · split at walked
                · cases walked
                  exact still rfl
                · split at walked
                  · cases walked
                    exact still rfl
                  · rename_i sized
                    split at walked
                    · cases walked
                      exact still rfl
                    · obtain ⟨low, grows, same⟩ := ih walked
                      refine ⟨by omega, by omega, ?_⟩
                      constructor
                      · intro back
                        omega
                      · intro back
                        omega
      · cases walked
        exact still rfl

theorem cursorOpenSeg_ok {os os' : Os} {c c' : WalCursor} {base : Nat}
    (opened : cursorOpenSeg os c base = (.ok (), c', os')) :
    c'.segBase = base ∧ c'.nextSeq = c.nextSeq := by
  unfold cursorOpenSeg at opened
  split at opened
  · cases opened
  · cases opened
    exact ⟨rfl, rfl⟩

/-- How an attempt that returns bytes has gone. -/
theorem cursorAttempt_ok {w : Wal} {limit bufLen attempts : Nat} {os os' : Os}
    {c c' : WalCursor} {got : Bytes}
    (read : cursorAttempt w limit bufLen (attempts + 1) os c = (.ok got, c', os')) :
    ∃ buf os1 used next, osPreadFull os c.fd bufLen c.off = (.ok buf, os1) ∧
      cursorWalk buf limit buf.length 0 c.nextSeq = (.ok (), used, next) ∧
      ((0 < used ∧ got = buf.take used ∧ c' = { c with nextSeq := next, off := c.off + used }) ∨
        (used = 0 ∧ got = [] ∧ c' = c ∧
          ∀ base, segIndexOf w.segBase c.nextSeq = some base → base = c.segBase) ∨
        (used = 0 ∧ ∃ base c2 os2, segIndexOf w.segBase c.nextSeq = some base ∧
          base ≠ c.segBase ∧ cursorOpenSeg os1 c base = (.ok (), c2, os2) ∧
          cursorAttempt w limit bufLen attempts os2 c2 = (.ok got, c', os'))) := by
  unfold cursorAttempt at read
  cases preads : osPreadFull os c.fd bufLen c.off with
  | mk res os1 =>
      rw [preads] at read
      cases res with
      | error e => cases read
      | ok buf =>
          simp only at read
          cases walks : cursorWalk buf limit buf.length 0 c.nextSeq with
          | mk outcome rest =>
              obtain ⟨used, next⟩ := rest
              rw [walks] at read
              cases outcome with
              | error e => cases read
              | ok done =>
                  refine ⟨buf, os1, used, next, rfl, walks, ?_⟩
                  simp only at read
                  by_cases moved : used > 0
                  · rw [if_pos moved] at read
                    cases read
                    exact Or.inl ⟨moved, rfl, rfl⟩
                  · rw [if_neg moved] at read
                    have none' : used = 0 := by omega
                    have same : next = c.nextSeq := (cursorWalk_used walks).2.2.mp none'
                    have stays : ({ c with nextSeq := next, off := c.off + used } : WalCursor) = c := by
                      rw [none', same]
                      rfl
                    simp only [stays] at read
                    rw [same] at read
                    cases at_base : segIndexOf w.segBase c.nextSeq with
                    | none =>
                        rw [at_base] at read
                        cases read
                        exact Or.inr (Or.inl ⟨none', rfl, rfl, fun _ some' => by cases some'⟩)
                    | some base =>
                        rw [at_base] at read
                        simp only at read
                        by_cases here : base = c.segBase
                        · rw [if_pos here] at read
                          cases read
                          exact Or.inr (Or.inl
                            ⟨none', rfl, rfl, fun _ some' => Option.some.inj some' ▸ here⟩)
                        · rw [if_neg here] at read
                          cases opens : cursorOpenSeg os1 c base with
                          | mk res2 rest =>
                              obtain ⟨c2, os2⟩ := rest
                              rw [opens] at read
                              cases res2 with
                              | error e => cases read
                              | ok done =>
                                  exact Or.inr (Or.inr
                                    ⟨none', base, c2, os2, rfl, here, opens, read⟩)

/-- A connection and what was told about it. -/
def Loop.view (l : Loop) (slot : Nat) : LoopConn × List Note := (l.conns slot, l.told slot)

theorem Alike.view (alike : Alike slot l l') : l'.view slot = l.view slot := by
  unfold Loop.view
  rw [alike.conn, alike.told]

/-- Only the send buffer differs. -/
def Buffered (c c' : LoopConn) : Prop := ∃ buf, c' = { c with sendBuf := buf }

theorem Buffered.refl (c : LoopConn) : Buffered c c := ⟨c.sendBuf, rfl⟩

theorem Buffered.trans {c c' c'' : LoopConn} (left : Buffered c c') (right : Buffered c' c'') :
    Buffered c c'' := by
  obtain ⟨_buf, rfl⟩ := left
  obtain ⟨buf', rfl⟩ := right
  exact ⟨buf', rfl⟩

theorem replyFrame_buffered (l : Loop) (slot : Nat) (frame : Frame) :
    Buffered (l.conns slot) ((replyFrame l slot frame).2.conns slot) := by
  unfold replyFrame
  simp only
  split
  · exact .refl _
  · exact ⟨_, if_pos rfl⟩

theorem pushRecords_buffered (buf : Bytes) (fuel : Nat) (l : Loop) (slot at' : Nat) :
    Buffered (l.conns slot) ((pushRecords slot buf fuel l at').conns slot) := by
  induction fuel generalizing l at' with
  | zero => exact .refl _
  | succ fuel ih =>
      unfold pushRecords
      split
      · cases walRecDecode (buf.drop at') with
        | none => exact .refl _
        | some r =>
            simp only
            split
            · exact .refl _
            · refine Buffered.trans ?_ (ih _ _)
              split
              · exact replyFrame_buffered l slot _
              · exact .refl _
      · exact .refl _

/-- A read leaves its cursor, and closes the connection exactly when it fails. -/
theorem subsRead_conn (slot : Nat) (sub : LoopSub) (res : Except Err Bytes) (cursor : WalCursor)
    (l : Loop) :
    ((subsRead slot sub res cursor l).conns slot).sub.cursor = cursor ∧
      ((subsRead slot sub res cursor l).conns slot).closing =
        ((l.conns slot).closing || !res.isOk) := by
  have bound : (l.setSub slot { sub with cursor := cursor }).conns slot =
      { l.conns slot with sub := { sub with cursor := cursor } } := if_pos rfl
  cases res with
  | error e =>
      unfold subsRead Loop.close
      simp only
      obtain ⟨buf, after⟩ := replyFrame_buffered (l.setSub slot { sub with cursor := cursor }) slot
        ⟨msgHeaderNew MSG_OP_ERR MSG_RECORD_NONE 0
          (msgEncodeErr MSG_ERR_NO_HISTORY ([].take MSG_MAX_ERR_TEXT).length ++
            [].take MSG_MAX_ERR_TEXT).length 0 cursor.nextSeq,
          msgEncodeErr MSG_ERR_NO_HISTORY ([].take MSG_MAX_ERR_TEXT).length ++
            [].take MSG_MAX_ERR_TEXT⟩
      rw [bound] at after
      have replied : (replyErr (l.setSub slot { sub with cursor := cursor }) slot
          MSG_ERR_NO_HISTORY cursor.nextSeq).conns slot =
          { { l.conns slot with sub := { sub with cursor := cursor } } with sendBuf := buf } := after
      unfold Loop.setConn
      simp only [if_pos, replied]
      exact ⟨trivial, (Bool.or_true _).symm⟩
  | ok got =>
      unfold subsRead
      simp only
      obtain ⟨buf, after⟩ := pushRecords_buffered got got.length
        (if got = [] then l.setSub slot { sub with cursor := cursor }
          else { l.setSub slot { sub with cursor := cursor } with progress := true }) slot 0
      rw [after]
      have same : (if got = [] then l.setSub slot { sub with cursor := cursor }
          else { l.setSub slot { sub with cursor := cursor } with progress := true }).conns slot =
          { l.conns slot with sub := { sub with cursor := cursor } } := by
        split
        · exact bound
        · exact bound
      rw [same]
      exact ⟨rfl, (Bool.or_false _).symm⟩

def Loop.forget (l : Loop) : Loop := { l with trace := [] }

/-- The files, and what the kernel goes on to answer when this slot has its turn. -/
def Loop.answers (l : Loop) (slot : Nat) : Os := (l.forget.turn slot).1.os

end Msgsrvd

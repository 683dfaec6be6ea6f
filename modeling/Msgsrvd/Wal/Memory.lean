/-
What the log in memory keeps whatever the file operations answer.

`Wal.Sound` says nothing about the files.  Every operation keeps it, and tells how
the next and the durable sequence moved.
-/

import Msgsrvd.Wal.Open
import Msgsrvd.Wal.Retention

namespace Msgsrvd

open Bytestring

structure Wal.Sound (w : Wal) : Prop where
  synced : w.active.syncedOff ≤ w.active.writeOff
  durable : w.active.durableSeq < w.active.nextSeq
  flushed : w.active.syncedOff = w.active.writeOff →
    w.active.durableSeq + 1 = w.active.nextSeq
  base : w.active.baseSeq ≤ w.active.nextSeq
  filled : w.active.writeOff = 0 ∨ w.active.baseSeq < w.active.nextSeq
  capacity : w.active.capacity = w.segCapacity
  sorted : w.segBase.Pairwise (· < ·)
  last : ∃ front, w.segBase = front ++ [w.active.baseSeq]

theorem Wal.Sound.below {w : Wal} (sound : w.Sound) : walDurableSeq w < walNextSeq w :=
  sound.durable

theorem pairwise_le_last {front : List Nat} {last : Nat}
    (sorted : (front ++ [last]).Pairwise (· < ·)) : ∀ base ∈ front ++ [last], base ≤ last := by
  intro base present
  rcases List.mem_append.mp present with inFront | atEnd
  · exact Nat.le_of_lt ((List.pairwise_append.mp sorted).2.2 base inFront last
      (List.mem_singleton.mpr rfl))
  · exact Nat.le_of_eq (List.mem_singleton.mp atEnd)

/-- The first sequence is not past the active segment. -/
theorem Wal.Sound.first_le {w : Wal} (sound : w.Sound) : walFirstSeq w ≤ w.active.baseSeq := by
  obtain ⟨front, table⟩ := sound.last
  have bound := pairwise_le_last (table ▸ sound.sorted) (walFirstSeq w)
  apply bound
  rw [walFirstSeq, table]
  cases front with
  | nil => exact List.mem_singleton.mpr rfl
  | cons head rest => exact List.mem_cons_self ..

/-! ### Flushing -/

/-- What a flush leaves: the durable sequence may have grown, and after a success
nothing is left to flush. -/
structure Flushed (w w' : Wal) (res : Except Err Unit) : Prop where
  sound : w'.Sound
  next : walNextSeq w' = walNextSeq w
  durable : walDurableSeq w ≤ walDurableSeq w'
  table : w'.segBase = w.segBase
  writeOff : w'.active.writeOff = w.active.writeOff
  settled : res = .ok () → walDurableSeq w' + 1 = walNextSeq w'

theorem walSync_sound {os os' : Os} {w w' : Wal} {res : Except Err Unit} (sound : w.Sound)
    (flushes : walSync os w = (res, w', os')) : Flushed w w' res := by
  unfold walSync walSegSync at flushes
  by_cases same : w.active.syncedOff = w.active.writeOff
  · rw [if_pos same] at flushes
    cases flushes
    exact ⟨sound, rfl, Nat.le_refl _, rfl, rfl, fun _ => sound.flushed same⟩
  · rw [if_neg same] at flushes
    have below := sound.durable
    have reaches : w.active.nextSeq - 1 + 1 = w.active.nextSeq := by omega
    have grows : w.active.durableSeq ≤ w.active.nextSeq - 1 := by omega
    cases syncs : osFdatasync os w.active.fd with
    | mk done os1 =>
        rw [syncs] at flushes
        cases done with
        | error e =>
            cases flushes
            exact ⟨sound, rfl, Nat.le_refl _, rfl, rfl, fun failed => by cases failed⟩
        | ok done =>
            cases flushes
            refine ⟨?_, rfl, grows, rfl, rfl, fun _ => reaches⟩
            exact
              { sound with
                synced := Nat.le_refl _
                durable := by
                  change w.active.nextSeq - 1 < w.active.nextSeq
                  omega
                flushed := fun _ => reaches }

/-! ### Appending -/

/-- How an append moved the log: at its end, if it stored a record, and nowhere else. -/
structure Moved (w w' : Wal) (stored : Option WalRec) : Prop where
  sound : w'.Sound
  first : walFirstSeq w' = walFirstSeq w
  durable : walDurableSeq w ≤ walDurableSeq w'
  next : walNextSeq w' = walNextSeq w + (if stored.isSome then 1 else 0)
  at_next : ∀ r, stored = some r → r.seq = walNextSeq w ∧ walDurableSeq w' < r.seq

theorem Moved.still {w : Wal} (sound : w.Sound) : Moved w w none :=
  ⟨sound, rfl, Nat.le_refl _, rfl, fun _ none => by cases none⟩

/-- The record is the one asked for, at the log's end. -/
structure Carries (out r : WalRec) : Prop where
  session : out.session = r.session
  clientSeq : out.clientSeq = r.clientSeq

theorem walSegAppend_ok {os os' : Os} {s seg : WalSeg} {r out : WalRec} {payload : Bytes}
    {scratchLen : Nat}
    (appends : walSegAppend os s r payload scratchLen = (.ok out, seg, os')) :
    out.seq = s.nextSeq ∧ Carries out r ∧ ∃ size, 0 < size ∧
      seg = { s with writeOff := s.writeOff + size, nextSeq := s.nextSeq + 1 } := by
  unfold walSegAppend at appends
  cases encoded : walRecEncode scratchLen { r with seq := s.nextSeq } payload with
  | none =>
      rw [encoded] at appends
      cases appends
  | some result =>
      obtain ⟨bytes, rec'⟩ := result
      rw [encoded] at appends
      have shape : rec'.seq = s.nextSeq ∧ Carries rec' r ∧ 0 < bytes.length := by
        unfold walRecEncode at encoded
        simp only at encoded
        split at encoded
        · cases encoded
        · split at encoded
          · cases encoded
          · cases encoded
            refine ⟨rfl, ⟨rfl, rfl⟩, ?_⟩
            rw [List.length_append, header_length]
            unfold WAL_REC_HEADER_SIZE
            omega
      simp only at appends
      split at appends
      · cases appends
      · split at appends
        · cases appends
        · cases appends
          exact ⟨shape.1, shape.2.1, bytes.length, shape.2.2, rfl⟩

theorem walSegAppend_error {os os' : Os} {s seg : WalSeg} {r : WalRec} {payload : Bytes}
    {scratchLen : Nat} {e : Err}
    (appends : walSegAppend os s r payload scratchLen = (.error e, seg, os')) : seg = s := by
  unfold walSegAppend at appends
  split at appends
  · cases appends
    rfl
  · split at appends
    · cases appends
      rfl
    · split at appends
      · cases appends
        rfl
      · cases appends

theorem walAppendActive_sound {os os' : Os} {w w' : Wal} {res : Except Err WalRec} {r : WalRec}
    {payload : Bytes} {scratchLen : Nat} (sound : w.Sound)
    (appends : walAppendActive os w r payload scratchLen = (res, w', os')) :
    Moved w w' res.toOption ∧ ∀ out, res = .ok out → Carries out r := by
  unfold walAppendActive at appends
  cases pushes : walSegAppend os w.active r payload scratchLen with
  | mk done rest =>
      obtain ⟨seg, os1⟩ := rest
      rw [pushes] at appends
      cases done with
      | error e =>
          cases appends
          rw [walSegAppend_error pushes]
          exact ⟨.still sound, fun _ none => by cases none⟩
      | ok out =>
          cases appends
          obtain ⟨at_next, carries, size, positive, moved⟩ := walSegAppend_ok pushes
          have below := sound.durable
          have inside := sound.synced
          have base := sound.base
          subst moved
          refine ⟨⟨?_, rfl, Nat.le_refl _, rfl, ?_⟩, ?_⟩
          · refine
              { synced := ?_, durable := ?_, flushed := ?_, base := ?_, filled := ?_
                capacity := sound.capacity, sorted := sound.sorted, last := sound.last }
            all_goals simp only
            · omega
            · omega
            · intro same
              omega
            · omega
            · omega
          · intro r same
            cases same
            refine ⟨at_next, ?_⟩
            rw [at_next]
            exact below
          · intro r same
            cases same
            exact carries

theorem segReset_sound {w : Wal} (sound : w.Sound) (fd : Nat)
    (settled : walDurableSeq w + 1 = walNextSeq w) (nonempty : w.active.writeOff ≠ 0) :
    ({ w with
      active := segReset fd (walDurableSeq w + 1) w.segCapacity
      segBase := w.segBase ++ [walDurableSeq w + 1] } : Wal).Sound := by
  have grown : w.active.baseSeq < w.active.nextSeq := by
    rcases sound.filled with empty | more
    · exact absurd empty nonempty
    · exact more
  obtain ⟨front, table⟩ := sound.last
  have next : walNextSeq w = w.active.nextSeq := rfl
  refine
    { synced := Nat.le_refl _, durable := ?_, flushed := ?_, base := Nat.le_refl _
      filled := Or.inl rfl, capacity := rfl, sorted := ?_, last := ⟨w.segBase, rfl⟩ }
  · change walDurableSeq w + 1 - 1 < walDurableSeq w + 1
    omega
  · intro _same
    change walDurableSeq w + 1 - 1 + 1 = walDurableSeq w + 1
    omega
  · rw [List.pairwise_append]
    refine ⟨sound.sorted, List.pairwise_singleton _ _, ?_⟩
    intro base present added atEnd
    rw [List.mem_singleton] at atEnd
    have bound := pairwise_le_last (table ▸ sound.sorted) base (table ▸ present)
    omega

theorem walSegClose_same {os os' : Os} {s seg : WalSeg} {res : Except Err Unit}
    (closes : walSegClose os s = (res, seg, os')) : ∃ fd, seg = { s with fd := fd } := by
  unfold walSegClose at closes
  split at closes
  · cases closes
    exact ⟨s.fd, rfl⟩
  · cases closes
    exact ⟨none, rfl⟩

theorem walSegCreate_ok {os os' : Os} {baseSeq capacity : Nat} {seg : WalSeg}
    (creates : walSegCreate os baseSeq capacity = (.ok seg, os')) :
    ∃ fd, seg = segReset fd baseSeq capacity := by
  unfold walSegCreate at creates
  repeat' split at creates
  all_goals first
    | (cases creates; exact ⟨_, rfl⟩)
    | cases creates

theorem walRollover_sound {os os' : Os} {w w' : Wal} {res : Except Err Unit} (sound : w.Sound)
    (nonempty : w.active.writeOff ≠ 0) (rolls : walRollover os w = (res, w', os')) :
    Moved w w' none := by
  unfold walRollover at rolls
  by_cases full : WAL_MAX_SEGMENTS ≤ w.segBase.length
  · rw [if_pos full] at rolls
    cases rolls
    exact .still sound
  · rw [if_neg full] at rolls
    cases flushes : walSync os w with
    | mk done rest =>
        obtain ⟨w1, os1⟩ := rest
        have flushed := walSync_sound sound flushes
        have first : walFirstSeq w1 = walFirstSeq w := by
          unfold walFirstSeq
          rw [flushed.table]
        rw [flushes] at rolls
        cases done with
        | error e =>
            cases rolls
            exact ⟨flushed.sound, first, flushed.durable, flushed.next,
              fun _ none => by cases none⟩
        | ok done =>
            simp only at rolls
            -- a closed segment differs from the flushed one in its descriptor only
            have closed (fd : Option Nat) :
                Moved w { w1 with active := { w1.active with fd := fd } } none :=
              ⟨{ flushed.sound with }, first, flushed.durable, flushed.next,
                fun _ none => by cases none⟩
            cases closes : walSegClose os1 w1.active with
            | mk done2 rest2 =>
                obtain ⟨seg, os2⟩ := rest2
                obtain ⟨fd, shape⟩ := walSegClose_same closes
                rw [closes] at rolls
                cases done2 with
                | error e =>
                    cases rolls
                    rw [shape]
                    exact closed fd
                | ok done2 =>
                    simp only at rolls
                    cases creates : walSegCreate os2 (w1.active.durableSeq + 1) w1.segCapacity with
                    | mk done3 os3 =>
                        rw [creates] at rolls
                        cases done3 with
                        | error e =>
                            cases rolls
                            rw [shape]
                            exact closed fd
                        | ok seg3 =>
                            cases rolls
                            obtain ⟨fd3, fresh⟩ := walSegCreate_ok creates
                            have nonempty1 : w1.active.writeOff ≠ 0 := by
                              rw [flushed.writeOff]
                              exact nonempty
                            have settled := flushed.settled rfl
                            subst fresh
                            refine ⟨segReset_sound flushed.sound fd3 settled nonempty1, ?_, ?_,
                              ?_, fun _ none => by cases none⟩
                            · obtain ⟨front, table⟩ := sound.last
                              unfold walFirstSeq
                              rw [flushed.table, table]
                              cases front with
                              | nil => rfl
                              | cons head more => rfl
                            · exact flushed.durable
                            · exact settled.trans flushed.next

/-- **An append adds its record at the next sequence or adds nothing.** -/
theorem walAppend_sound {os os' : Os} {w w' : Wal} {res : Except Err WalRec} {r : WalRec}
    {payload : Bytes} {scratchLen : Nat} (sound : w.Sound)
    (appends : walAppend os w r payload scratchLen = (res, w', os')) :
    Moved w w' res.toOption ∧ ∀ out, res = .ok out → Carries out r := by
  unfold walAppend at appends
  simp only at appends
  by_cases tooBig : walRecSize (i32 r.len) = 0 ∨ walRecSize (i32 r.len) > w.segCapacity
  · rw [if_pos tooBig] at appends
    cases appends
    exact ⟨.still sound, fun _ none => by cases none⟩
  · rw [if_neg tooBig] at appends
    rw [not_or] at tooBig
    by_cases fits : walSegFits w.active (i32 r.len) = true
    · rw [if_pos fits] at appends
      exact walAppendActive_sound sound appends
    · rw [if_neg fits] at appends
      have nonempty : w.active.writeOff ≠ 0 := by
        intro empty
        apply fits
        unfold walSegFits
        have capacity := sound.capacity
        simp only [if_neg tooBig.1, decide_eq_true_eq]
        omega
      cases rolls : walRollover os w with
      | mk done rest =>
          obtain ⟨w1, os1⟩ := rest
          have rolled := walRollover_sound sound nonempty rolls
          rw [rolls] at appends
          cases done with
          | error e =>
              cases appends
              exact ⟨rolled, fun _ none => by cases none⟩
          | ok done =>
              have sameNext : walNextSeq w1 = walNextSeq w := rolled.next
              obtain ⟨moved, carries⟩ := walAppendActive_sound rolled.sound appends
              refine ⟨⟨moved.sound, moved.first.trans rolled.first,
                Nat.le_trans rolled.durable moved.durable, ?_, ?_⟩, carries⟩
              · rw [moved.next, sameNext]
              · intro r stored
                rw [← sameNext]
                exact moved.at_next r stored

/-- The follower's append is the leader's at the sequence it expects. -/
theorem walAppendAt_sound {os os' : Os} {w w' : Wal} {res : Except Err WalRec} {r : WalRec}
    {payload : Bytes} {scratchLen : Nat} (sound : w.Sound)
    (appends : walAppendAt os w r payload scratchLen = (res, w', os')) :
    Moved w w' res.toOption ∧ ∀ out, res = .ok out → Carries out r := by
  unfold walAppendAt at appends
  by_cases expected : r.seq ≠ walNextSeq w
  · rw [if_pos expected] at appends
    cases appends
    exact ⟨.still sound, fun _ none => by cases none⟩
  · rw [if_neg expected] at appends
    rw [not_not] at expected
    cases stores : walAppend os w r payload scratchLen with
    | mk done rest =>
        obtain ⟨w1, os1⟩ := rest
        obtain ⟨moved, carries⟩ := walAppend_sound sound stores
        rw [stores] at appends
        cases done with
        | error e =>
            cases appends
            exact ⟨moved, fun _ none => by cases none⟩
        | ok out =>
            have same : out.seq = r.seq := (moved.at_next out rfl).1.trans expected.symm
            simp only [same, ne_eq, not_true_eq_false, if_false] at appends
            cases appends
            exact ⟨moved, carries⟩

/-! ### What else an append moves -/

/-- How far the log is flushed when its next append has rolled it over, or not. -/
def walRolledDurable (os : Os) (w : Wal) (r : WalRec) : Nat :=
  if walRollsOver w r then walDurableSeq (walSync os w).2.1 else walDurableSeq w

theorem walSync_index {os os' : Os} {w w' : Wal} {res : Except Err Unit}
    (flushes : walSync os w = (res, w', os')) : w'.index = w.index := by
  unfold walSync at flushes
  cases flushes
  rfl

/-- A flush that fails moves nothing. -/
theorem walSync_failed {os os' : Os} {w w' : Wal} {e : Err}
    (flushes : walSync os w = (.error e, w', os')) : walDurableSeq w' = walDurableSeq w := by
  unfold walSync walSegSync at flushes
  split at flushes
  rename_i found
  split at found
  · cases found
    cases flushes
  · split at found
    · cases found
      cases flushes
      rfl
    · cases found
      cases flushes

theorem walAppendActive_beside {os os' : Os} {w w' : Wal} {res : Except Err WalRec} {r : WalRec}
    {payload : Bytes} {scratchLen : Nat}
    (appends : walAppendActive os w r payload scratchLen = (res, w', os')) :
    walDurableSeq w' = walDurableSeq w ∧
      w'.index = (res.toOption.map (walIndexAdd w.index)).getD w.index := by
  unfold walAppendActive at appends
  cases pushes : walSegAppend os w.active r payload scratchLen with
  | mk done rest =>
      obtain ⟨seg, os1⟩ := rest
      rw [pushes] at appends
      cases done with
      | error e =>
          cases appends
          rw [walSegAppend_error pushes]
          exact ⟨rfl, rfl⟩
      | ok out =>
          cases appends
          obtain ⟨_at_next, _carries, size, _positive, moved⟩ := walSegAppend_ok pushes
          rw [moved]
          exact ⟨rfl, rfl⟩

theorem walRollover_beside {os os' : Os} {w w' : Wal} {res : Except Err Unit}
    (rolls : walRollover os w = (res, w', os')) :
    w'.index = w.index ∧ walDurableSeq w' =
      if WAL_MAX_SEGMENTS ≤ w.segBase.length then walDurableSeq w
      else walDurableSeq (walSync os w).2.1 := by
  unfold walRollover at rolls
  by_cases full : WAL_MAX_SEGMENTS ≤ w.segBase.length
  · rw [if_pos full] at rolls ⊢
    cases rolls
    exact ⟨rfl, rfl⟩
  · rw [if_neg full] at rolls ⊢
    cases flushes : walSync os w with
    | mk done rest =>
        obtain ⟨w1, os1⟩ := rest
        have index := walSync_index flushes
        rw [flushes] at rolls
        cases done with
        | error e =>
            cases rolls
            exact ⟨index, rfl⟩
        | ok done =>
            simp only at rolls
            cases closes : walSegClose os1 w1.active with
            | mk done2 rest2 =>
                obtain ⟨seg, os2⟩ := rest2
                obtain ⟨fd, shape⟩ := walSegClose_same closes
                rw [closes] at rolls
                cases done2 with
                | error e =>
                    cases rolls
                    rw [shape]
                    exact ⟨index, rfl⟩
                | ok done2 =>
                    simp only at rolls
                    cases creates : walSegCreate os2 (w1.active.durableSeq + 1) w1.segCapacity with
                    | mk done3 os3 =>
                        rw [creates] at rolls
                        cases done3 with
                        | error e =>
                            cases rolls
                            rw [shape]
                            exact ⟨index, rfl⟩
                        | ok seg3 =>
                            cases rolls
                            obtain ⟨fd3, fresh⟩ := walSegCreate_ok creates
                            rw [fresh]
                            exact ⟨index, rfl⟩

/-- **An append flushes only by rolling over, and indexes only its record.** -/
theorem walAppend_beside {os os' : Os} {w w' : Wal} {res : Except Err WalRec} {r : WalRec}
    {payload : Bytes} {scratchLen : Nat}
    (appends : walAppend os w r payload scratchLen = (res, w', os')) :
    walDurableSeq w' = walRolledDurable os w r ∧
      w'.index = (res.toOption.map (walIndexAdd w.index)).getD w.index := by
  unfold walAppend at appends
  unfold walRolledDurable walRollsOver
  simp only at appends ⊢
  by_cases tooBig : walRecSize (i32 r.len) = 0 ∨ walRecSize (i32 r.len) > w.segCapacity
  · rw [if_pos tooBig] at appends ⊢
    cases appends
    exact ⟨rfl, rfl⟩
  · rw [if_neg tooBig] at appends ⊢
    by_cases fits : walSegFits w.active (i32 r.len) = true
    · rw [if_pos fits] at appends ⊢
      exact walAppendActive_beside appends
    · rw [if_neg fits] at appends ⊢
      have same : (if WAL_MAX_SEGMENTS ≤ w.segBase.length then walDurableSeq w
            else walDurableSeq (walSync os w).2.1) =
          if decide (w.segBase.length < WAL_MAX_SEGMENTS) = true then
            walDurableSeq (walSync os w).2.1 else walDurableSeq w := by
        by_cases room : w.segBase.length < WAL_MAX_SEGMENTS
        · rw [if_neg (by omega), if_pos (decide_eq_true room)]
        · rw [if_pos (by omega), if_neg (by rw [decide_eq_true_eq]; exact room)]
      cases rolls : walRollover os w with
      | mk done rest =>
          obtain ⟨w1, os1⟩ := rest
          obtain ⟨index, durable⟩ := walRollover_beside rolls
          rw [rolls] at appends
          cases done with
          | error e =>
              cases appends
              exact ⟨durable.trans same, index⟩
          | ok done =>
              obtain ⟨durable', index'⟩ := walAppendActive_beside appends
              rw [index] at index'
              exact ⟨durable'.trans (durable.trans same), index'⟩

theorem walAppendAt_beside {os os' : Os} {w w' : Wal} {res : Except Err WalRec} {r : WalRec}
    {payload : Bytes} {scratchLen : Nat} (sound : w.Sound)
    (appends : walAppendAt os w r payload scratchLen = (res, w', os')) :
    walDurableSeq w' = (if r.seq = walNextSeq w then walRolledDurable os w r
        else walDurableSeq w) ∧
      w'.index = (res.toOption.map (walIndexAdd w.index)).getD w.index := by
  unfold walAppendAt at appends
  by_cases expected : r.seq ≠ walNextSeq w
  · rw [if_pos expected] at appends
    rw [if_neg expected]
    cases appends
    exact ⟨rfl, rfl⟩
  · rw [if_neg expected] at appends
    rw [not_not] at expected
    rw [if_pos expected]
    cases stores : walAppend os w r payload scratchLen with
    | mk done rest =>
        obtain ⟨w1, os1⟩ := rest
        obtain ⟨moved, carries⟩ := walAppend_sound sound stores
        obtain ⟨durable, index⟩ := walAppend_beside stores
        rw [stores] at appends
        cases done with
        | error e =>
            cases appends
            exact ⟨durable, index⟩
        | ok out =>
            have same : out.seq = r.seq := (moved.at_next out rfl).1.trans expected.symm
            simp only [same, ne_eq, not_true_eq_false, if_false] at appends
            cases appends
            exact ⟨durable, index⟩

/-! ### Retention -/

theorem walRetainUnlink_gone {bases : List Nat} {gone count : Nat} {os os' : Os} {e : Err}
    (unlinks : walRetainUnlink bases gone os = (.error (e, count), os')) :
    count ≤ gone + bases.length := by
  induction bases generalizing gone os with
  | nil => cases unlinks
  | cons base rest ih =>
      unfold walRetainUnlink at unlinks
      split at unlinks
      · cases unlinks
        exact Nat.le_add_right _ _
      · have bound := ih unlinks
        rw [List.length_cons]
        omega

/-- Dropping leading segments leaves a sound log that starts no earlier. -/
theorem Wal.Sound.drop {w : Wal} (sound : w.Sound) {count : Nat} (few : count < w.segBase.length) :
    ({ w with segBase := w.segBase.drop count } : Wal).Sound ∧
      walFirstSeq w ≤ walFirstSeq { w with segBase := w.segBase.drop count } := by
  obtain ⟨front, table⟩ := sound.last
  have split : w.segBase.drop count = front.drop count ++ [w.active.baseSeq] := by
    rw [table, List.length_append, List.length_singleton] at few
    rw [table, List.drop_append_of_le_length (by omega)]
  constructor
  · exact
      { sound with
        sorted := List.Pairwise.sublist (List.drop_sublist _ _) sound.sorted
        last := ⟨front.drop count, split⟩ }
  · have member : walFirstSeq { w with segBase := w.segBase.drop count } ∈ w.segBase := by
      apply List.mem_of_mem_drop (i := count)
      unfold walFirstSeq
      simp only
      rw [split]
      cases front.drop count with
      | nil => exact List.mem_singleton.mpr rfl
      | cons head rest => exact List.mem_cons_self ..
    unfold walFirstSeq
    unfold walFirstSeq at member
    have sorted := sound.sorted
    cases bases : w.segBase with
    | nil =>
        rw [bases] at few
        cases few
    | cons head rest =>
        rw [bases] at member sorted
        rcases List.mem_cons.mp member with same | inRest
        · rw [same]
          exact Nat.le_refl _
        · exact Nat.le_of_lt (List.rel_of_pairwise_cons sorted inRest)

/-- Retention drops some of the leading segments that lie below the line. -/
theorem walRetain_drops {os os' : Os} {w w' : Wal} {keepFrom removed : Nat}
    {res : Except Err Unit} (retains : walRetain os w keepFrom = (res, removed, w', os')) :
    ∃ count, count ≤ walRetainDrop keepFrom w.segBase ∧
      w' = { w with segBase := w.segBase.drop count } := by
  unfold walRetain at retains
  simp only at retains
  split at retains
  · cases retains
    exact ⟨0, Nat.zero_le _, rfl⟩
  · cases unlinks : walRetainUnlink (w.segBase.take (walRetainDrop keepFrom w.segBase)) 0 os with
    | mk done os1 =>
        rw [unlinks] at retains
        cases done with
        | error failed =>
            obtain ⟨e, gone⟩ := failed
            have bound := walRetainUnlink_gone unlinks
            rw [List.length_take] at bound
            cases retains
            exact ⟨removed, by omega, rfl⟩
        | ok done =>
            simp only at retains
            split at retains
            · cases retains
              exact ⟨_, Nat.le_refl _, rfl⟩
            · cases retains
              exact ⟨_, Nat.le_refl _, rfl⟩

theorem walRetain_sound {os os' : Os} {w w' : Wal} {keepFrom removed : Nat}
    {res : Except Err Unit} (sound : w.Sound)
    (retains : walRetain os w keepFrom = (res, removed, w', os')) :
    w'.Sound ∧ walFirstSeq w ≤ walFirstSeq w' ∧ w'.active = w.active ∧ w'.index = w.index := by
  have given : w.segBase ≠ [] := by
    obtain ⟨front, table⟩ := sound.last
    rw [table]
    exact List.append_ne_nil_of_right_ne_nil _ (List.cons_ne_nil _ _)
  have less := walRetainDrop_lt keepFrom given
  obtain ⟨count, few, shape⟩ := walRetain_drops retains
  obtain ⟨kept, later⟩ := sound.drop (show count < w.segBase.length by omega)
  rw [shape]
  exact ⟨kept, later, rfl, rfl⟩

/-- The segment that becomes the first does not start above the line. -/
theorem walRetainDrop_head {keepFrom count : Nat} {table : List Nat}
    (few : count ≤ walRetainDrop keepFrom table) :
    (table.drop count).headD 0 = table.headD 0 ∨ (table.drop count).headD 0 ≤ keepFrom := by
  induction table generalizing count with
  | nil =>
      rw [List.drop_nil]
      exact Or.inl rfl
  | cons base rest ih =>
      cases count with
      | zero => exact Or.inl rfl
      | succ count =>
          rw [List.drop_succ_cons]
          cases rest with
          | nil => cases few
          | cons next more =>
              unfold walRetainDrop at few
              split at few
              · rename_i below
                rcases ih (Nat.le_of_succ_le_succ few) with same | low
                · rw [same]
                  exact Or.inr below
                · exact Or.inr low
              · cases few

theorem walRetain_first {os os' : Os} {w w' : Wal} {keepFrom removed : Nat}
    {res : Except Err Unit} (retains : walRetain os w keepFrom = (res, removed, w', os')) :
    walFirstSeq w' = walFirstSeq w ∨ walFirstSeq w' ≤ keepFrom := by
  obtain ⟨count, few, shape⟩ := walRetain_drops retains
  rw [shape]
  exact walRetainDrop_head few

/-! ### Opening -/

/-- The records carry one sequence after the other. -/
def SeqsFrom : Nat → List WalRec → Prop
  | _, [] => True
  | seq, r :: rest => r.seq = seq ∧ SeqsFrom (seq + 1) rest

theorem SeqsFrom.append {seq : Nat} {front back : List WalRec} (left : SeqsFrom seq front)
    (right : SeqsFrom (seq + front.length) back) : SeqsFrom seq (front ++ back) := by
  induction front generalizing seq with
  | nil => exact right
  | cons r rest ih =>
      refine ⟨left.1, ih left.2 ?_⟩
      rw [List.length_cons] at right
      rw [show seq + 1 + rest.length = seq + (rest.length + 1) by omega]
      exact right

theorem SeqsFrom.bounds {seq : Nat} {recs : List WalRec} (from' : SeqsFrom seq recs) :
    ∀ r ∈ recs, seq ≤ r.seq ∧ r.seq < seq + recs.length := by
  induction recs generalizing seq with
  | nil =>
      intro r present
      cases present
  | cons head rest ih =>
      intro r present
      rw [List.length_cons]
      rcases List.mem_cons.mp present with same | inRest
      · subst same
        have at_head := from'.1
        omega
      · have bound := ih from'.2 r inRest
        omega

theorem SeqsFrom.sorted {seq : Nat} {recs : List WalRec} (from' : SeqsFrom seq recs) :
    recs.Pairwise (fun r r' => r.seq < r'.seq) := by
  induction recs generalizing seq with
  | nil => exact List.Pairwise.nil
  | cons head rest ih =>
      rw [List.pairwise_cons]
      refine ⟨?_, ih from'.2⟩
      intro r inRest
      have bound := (from'.2.bounds r inRest).1
      have at_head := from'.1
      omega

/-- What a stretch of scanning accepted: numbered records, and no room moved without one. -/
def Accepted (pos expected : Nat) (acc : List WalRec) (pos' expected' : Nat)
    (acc' : List WalRec) : Prop :=
  ∃ more, acc' = acc ++ more ∧ SeqsFrom expected more ∧ expected' = expected + more.length ∧
    pos ≤ pos' ∧ (pos < pos' → more ≠ [])

theorem Accepted.none (pos expected : Nat) (acc : List WalRec) :
    Accepted pos expected acc pos expected acc :=
  ⟨[], (List.append_nil acc).symm, trivial, rfl, Nat.le_refl _, fun less =>
    absurd less (Nat.lt_irrefl _)⟩

theorem Accepted.trans {pos pos' pos'' expected expected' expected'' : Nat}
    {acc acc' acc'' : List WalRec} (left : Accepted pos expected acc pos' expected' acc')
    (right : Accepted pos' expected' acc' pos'' expected'' acc'') :
    Accepted pos expected acc pos'' expected'' acc'' := by
  obtain ⟨front, acc1, seqs1, end1, grows1, nonempty1⟩ := left
  obtain ⟨back, acc2, seqs2, end2, grows2, nonempty2⟩ := right
  subst acc1 end1
  refine ⟨front ++ back, ?_, seqs1.append seqs2, ?_, Nat.le_trans grows1 grows2, ?_⟩
  · rw [acc2, List.append_assoc]
  · rw [end2, List.length_append]
    omega
  · intro less
    by_cases moved : pos < pos'
    · exact List.append_ne_nil_of_left_ne_nil (nonempty1 moved) _
    · exact List.append_ne_nil_of_right_ne_nil _ (nonempty2 (by omega))

theorem walSegScanBlock_accepts {capacity off : Nat} {block : Bytes} {fuel pos expected : Nat}
    {acc : List WalRec} {stop : BlockEnd} {pos' expected' : Nat} {acc' : List WalRec}
    (walked : walSegScanBlock capacity off block fuel pos expected acc =
      (stop, pos', expected', acc')) :
    Accepted pos expected acc pos' expected' acc' := by
  induction fuel generalizing pos expected acc with
  | zero =>
      cases walked
      exact .none _ _ _
  | succ fuel ih =>
      unfold walSegScanBlock at walked
      simp only at walked
      -- every branch but the last stops where it stands
      repeat' split at walked
      all_goals first
        | (cases walked; exact .none _ _ _)
        | skip
      rename_i r _found _notEnd sized _whole good
      rw [not_or, not_not, not_not] at good
      rw [not_or] at sized
      refine Accepted.trans ?_ (ih walked)
      refine ⟨[r], rfl, ⟨good.2, trivial⟩, rfl, Nat.le_add_right _ _, fun _ => List.cons_ne_nil _ _⟩

theorem walSegScan_accepts {fd : Option Nat} {capacity scratchLen fuel : Nat} {os os' : Os}
    {off expected : Nat} {acc : List WalRec} {point : ScanPoint}
    (scanned : walSegScan fd capacity scratchLen fuel os off expected acc = (.ok point, os')) :
    Accepted off expected acc point.off point.expected point.recs := by
  induction fuel generalizing os off expected acc with
  | zero =>
      cases scanned
      exact .none _ _ _
  | succ fuel ih =>
      unfold walSegScan at scanned
      split at scanned
      · split at scanned
        · cases scanned
        · split at scanned
          · cases scanned
            exact .none _ _ _
          · rename_i block os1 _read _long
            cases walked : walSegScanBlock capacity off block block.length 0 expected acc with
            | mk stop rest =>
                obtain ⟨pos', expected', acc'⟩ := rest
                obtain ⟨more, shape, seqs, ends, grows, nonempty⟩ := walSegScanBlock_accepts walked
                have moved : Accepted off expected acc (off + pos') expected' acc' :=
                  ⟨more, shape, seqs, ends, Nat.le_add_right _ _, fun less =>
                    nonempty (by omega)⟩
                rw [walked] at scanned
                cases stop with
                | nomem size => cases scanned
                | finish torn =>
                    cases scanned
                    exact moved
                | refill =>
                    simp only at scanned
                    split at scanned
                    · rename_i still
                      cases scanned
                      rw [still, Nat.add_zero] at moved
                      obtain ⟨more, shape, seqs, ends, grows, nonempty⟩ := moved
                      exact ⟨more, shape, seqs, ends, grows, nonempty⟩
                    · exact moved.trans (ih scanned)
      · cases scanned
        exact .none _ _ _

/-- What opening a segment found: the records are numbered from its base, and the
segment is at rest behind them. -/
structure Resumed (base capacity : Nat) (seg : WalSeg) (recs : List WalRec) : Prop where
  seqs : SeqsFrom base recs
  baseSeq : seg.baseSeq = base
  nextSeq : seg.nextSeq = base + recs.length
  durableSeq : seg.durableSeq = base + recs.length - 1
  capacity : seg.capacity = capacity
  synced : seg.syncedOff = seg.writeOff
  filled : seg.writeOff = 0 ∨ recs ≠ []

theorem walSegRecover_resumed {os os' : Os} {fd base capacity scratchLen : Nat}
    {scan : WalSegScan} {seg : WalSeg} {recs : List WalRec}
    (recovers : walSegRecover os (segReset fd base capacity) scratchLen =
      (.ok (scan, seg, recs), os')) :
    Resumed base capacity seg recs ∧ scan.lastSeq = base + recs.length - 1 := by
  unfold walSegRecover at recovers
  split at recovers
  · cases recovers
  · split at recovers
    · cases recovers
    · rename_i point os1 scanned
      cases recovers
      obtain ⟨more, shape, seqs, ends, _grows, nonempty⟩ := walSegScan_accepts scanned
      rw [List.nil_append] at shape
      rw [← shape] at seqs ends nonempty
      refine ⟨?_, by simp only [ends]; rfl⟩
      refine ⟨seqs, rfl, ends, ?_, rfl, rfl, ?_⟩
      · simp only [ends]
        rfl
      · rcases Nat.eq_zero_or_pos point.off with empty | positive
        · exact Or.inl empty
        · exact Or.inr (nonempty positive)

/-- The scan over a table's segments: each begins where the one before it ended. -/
theorem walOpenScan_resumed {capacity scratchLen : Nat} {table : List Nat} {os os' : Os}
    {acc acc' : OpenScan} (given : table ≠ [])
    (scanned : walOpenScan capacity scratchLen table os acc = (.ok acc', os')) :
    ∃ front base early recs, table = front ++ [base] ∧ 1 ≤ base ∧
      Resumed base capacity acc'.active recs ∧ acc'.recs = acc.recs ++ early ++ recs ∧
      SeqsFrom acc.expected (early ++ recs) ∧ acc.expected + early.length = base ∧
      1 ≤ table.headD 0 := by
  induction table generalizing os acc with
  | nil => exact absurd rfl given
  | cons first rest ih =>
      unfold walOpenScan at scanned
      split at scanned
      · cases scanned
      · rename_i expected
        rw [not_not] at expected
        cases opens : walSegOpen os first capacity with
        | mk res os1 =>
            rw [opens] at scanned
            cases res with
            | error e => cases scanned
            | ok seg0 =>
                have reset : 1 ≤ first ∧ ∃ fd, seg0 = segReset fd first capacity := by
                  unfold walSegOpen at opens
                  split at opens
                  · cases opens
                  · rename_i valid
                    rw [not_or] at valid
                    refine ⟨by omega, ?_⟩
                    split at opens
                    · cases opens
                    · cases opens
                      exact ⟨_, rfl⟩
                obtain ⟨positive, fd, reset⟩ := reset
                subst reset
                simp only at scanned
                cases recovers : walSegRecover os1 (segReset fd first capacity) scratchLen with
                | mk res2 os2 =>
                    rw [recovers] at scanned
                    cases res2 with
                    | error e => cases scanned
                    | ok found =>
                        obtain ⟨scan, seg, recs⟩ := found
                        obtain ⟨resumed, lastSeq⟩ := walSegRecover_resumed recovers
                        simp only at scanned
                        cases rest with
                        | nil =>
                            cases scanned
                            refine ⟨[], first, [], recs, rfl, positive, resumed, ?_, ?_,
                              expected.symm, positive⟩
                            · rw [List.append_nil]
                            · rw [List.nil_append, ← expected]
                              exact resumed.seqs
                        | cons second others =>
                            simp only at scanned
                            split at scanned
                            · cases scanned
                            · obtain ⟨front, base, early, recs', table, positive', resumed',
                                whole, seqs, reaches⟩ := ih (List.cons_ne_nil _ _) scanned
                              have next : scan.lastSeq + 1 = first + recs.length := by
                                rw [lastSeq]
                                omega
                              simp only [next] at seqs reaches
                              refine ⟨first :: front, base, recs ++ early, recs', ?_, positive',
                                resumed', ?_, ?_, ?_, positive⟩
                              · rw [table]
                                rfl
                              · rw [whole]
                                simp only [List.append_assoc]
                              · rw [← expected, List.append_assoc]
                                exact resumed.seqs.append seqs
                              · rw [List.length_append, ← expected]
                                omega

/-- **An opened log is sound, has nothing left to flush, and holds the records it
returned, numbered one after the other up to its end and all in its index.** -/
theorem walOpen_sound {os os' : Os} {listing : List Nat} {capacity scratchLen : Nat}
    {info : WalOpen} {w : Wal} {recs : List WalRec}
    (opens : walOpen os listing capacity scratchLen = (.ok (info, w, recs), os')) :
    w.Sound ∧ walDurableSeq w + 1 = walNextSeq w ∧ SeqsFrom (walFirstSeq w) recs ∧
      walFirstSeq w + recs.length = walNextSeq w ∧
      w.index = recs.foldl walIndexAdd walIndexInit ∧ 1 ≤ walFirstSeq w := by
  unfold walOpen at opens
  split at opens
  · cases opens
  · split at opens
    · cases opens
    · rename_i os1 _opened
      cases loads : segTableLoad os1 listing with
      | mk res os2 =>
          rw [loads] at opens
          cases res with
          | error e => cases opens
          | ok table =>
              cases table with
              | nil =>
                  simp only at opens
                  cases creates : walSegCreate os2 1 capacity with
                  | mk res2 os3 =>
                      rw [creates] at opens
                      cases res2 with
                      | error e => cases opens
                      | ok seg =>
                          obtain ⟨fd, fresh⟩ := walSegCreate_ok creates
                          subst fresh
                          cases opens
                          refine ⟨?_, rfl, trivial, rfl, rfl, Nat.le_refl _⟩
                          exact
                            { synced := Nat.le_refl _
                              durable := Nat.zero_lt_one
                              flushed := fun _ => rfl
                              base := Nat.le_refl _
                              filled := Or.inl rfl
                              capacity := rfl
                              sorted := List.pairwise_singleton _ _
                              last := ⟨[], rfl⟩ }
              | cons first rest =>
                  have sorted : (first :: rest).Pairwise (· < ·) := by
                    unfold segTableLoad at loads
                    split at loads
                    · cases loads
                    · have filled := congrArg Prod.fst loads
                      exact (segTableFill_ok filled List.Pairwise.nil (Nat.zero_le _)).1
                  simp only at opens
                  split at opens
                  · cases opens
                  · rename_i acc os3 scanned
                    cases opens
                    obtain ⟨front, base, early, last, table, positive, resumed, whole, seqs,
                      reaches, starts⟩ := walOpenScan_resumed (List.cons_ne_nil _ _) scanned
                    simp only [List.nil_append] at whole seqs reaches
                    have nextSeq := resumed.nextSeq
                    have durableSeq := resumed.durableSeq
                    have baseSeq := resumed.baseSeq
                    have settled : acc.active.durableSeq + 1 = acc.active.nextSeq := by omega
                    refine ⟨?_, settled, ?_, ?_, rfl, starts⟩
                    · exact
                        { synced := Nat.le_of_eq resumed.synced
                          durable := by simp only; omega
                          flushed := fun _ => settled
                          base := by simp only; omega
                          filled := by
                            rcases resumed.filled with empty | some'
                            · exact Or.inl empty
                            · right
                              have positive := List.length_pos_iff.mpr some'
                              simp only
                              omega
                          capacity := resumed.capacity
                          sorted := sorted
                          last := ⟨front, by simp only; rw [table, baseSeq]⟩ }
                    · rw [whole]
                      exact seqs
                    · rw [whole, List.length_append]
                      change first + (early.length + last.length) = acc.active.nextSeq
                      omega

end Msgsrvd

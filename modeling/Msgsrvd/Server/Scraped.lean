/-
What a scraper can count on: one answer, after its request head and not before, all of it
or a prefix; and what the node can: no descriptor left open, none closed twice.
-/

import Msgsrvd.Server.Scrape

namespace Msgsrvd

open Bytestring

/-! ### Request heads -/

/-- A line with nothing on it, ended by a bare newline or, past the first line, by a carriage
return and a newline. -/
def HeadEnded (input : Bytes) : Prop :=
  (∃ front back, input = front ++ 10 :: 10 :: back) ∨
    ∃ front back, front ≠ [] ∧ input = front ++ 10 :: 13 :: 10 :: back

theorem drop_found {input : Bytes} {i : Nat} {b : UInt8} (found : input[i]? = some b) :
    input.drop i = b :: input.drop (i + 1) := by
  obtain ⟨inside, same⟩ := List.getElem?_eq_some_iff.mp found
  rw [List.drop_eq_getElem_cons inside, same]

theorem headEnds_iff (input : Bytes) : headEnds input = true ↔ HeadEnded input := by
  unfold headEnds
  rw [List.any_eq_true]
  constructor
  · rintro ⟨at', listed, ends⟩
    have inside := List.mem_range.mp listed
    unfold headEndsAt at ends
    simp only [Bool.and_eq_true, Bool.or_eq_true, decide_eq_true_eq, beq_iff_eq] at ends
    obtain ⟨past, newline, bare | ⟨⟨third, carriage⟩, line⟩⟩ := ends
    · left
      refine ⟨input.take (at' - 1), input.drop (at' + 1), ?_⟩
      have next : at' - 1 + 1 = at' := by omega
      have tail := drop_found bare
      rw [next, drop_found newline] at tail
      rw [← tail, List.take_append_drop]
    · right
      refine ⟨input.take (at' - 2), input.drop (at' + 1), ?_, ?_⟩
      · intro empty
        have length := congrArg List.length empty
        rw [List.length_take, List.length_nil] at length
        omega
      · have second : at' - 1 = at' - 2 + 1 := by omega
        have next : at' - 2 + 1 + 1 = at' := by omega
        rw [second] at carriage
        have tail := drop_found line
        rw [drop_found carriage, next, drop_found newline] at tail
        rw [← tail, List.take_append_drop]
  · rintro (⟨front, back, rfl⟩ | ⟨front, back, some', rfl⟩)
    · refine ⟨front.length + 1, ?_, ?_⟩
      · simp only [List.mem_range, List.length_append, List.length_cons]
        omega
      · unfold headEndsAt
        simp
    · have front' := List.length_pos_iff.mpr some'
      refine ⟨front.length + 2, ?_, ?_⟩
      · simp only [List.mem_range, List.length_append, List.length_cons]
        omega
      · unfold headEndsAt
        have third : 3 ≤ front.length + 2 := by omega
        simp [third]

/-! ### What the history says of a descriptor -/

/-- The descriptors that are open. -/
def openOn : List ScrapeNote → List Nat
  | [] => []
  | .accepted fd :: earlier => fd :: openOn earlier
  | .closed fd :: earlier => (openOn earlier).erase fd
  | _ :: earlier => openOn earlier

/-- What has been read from the connection that has the descriptor. -/
def heardOn (fd : Nat) : List ScrapeNote → Bytes
  | [] => []
  | .accepted other :: earlier => if other = fd then [] else heardOn fd earlier
  | .heard other bytes :: earlier =>
      if other = fd then heardOn fd earlier ++ bytes else heardOn fd earlier
  | _ :: earlier => heardOn fd earlier

/-- The answer it has been given. -/
def answerOn (fd : Nat) : List ScrapeNote → Option Bytes
  | [] => none
  | .accepted other :: earlier => if other = fd then none else answerOn fd earlier
  | .answered other snapshot :: earlier =>
      if other = fd then some snapshot.text else answerOn fd earlier
  | _ :: earlier => answerOn fd earlier

/-- What has been taken of that. -/
def takenOn (fd : Nat) : List ScrapeNote → Bytes
  | [] => []
  | .accepted other :: earlier => if other = fd then [] else takenOn fd earlier
  | .handed other bytes :: earlier =>
      if other = fd then takenOn fd earlier ++ bytes else takenOn fd earlier
  | _ :: earlier => takenOn fd earlier

def servedIn (trace : List ScrapeNote) : Nat :=
  trace.countP (fun | .served _ => true | _ => false)

def refusedIn (trace : List ScrapeNote) : Nat :=
  trace.countP (fun | .refused _ => true | _ => false)

/-- What every note keeps to. -/
def ScrapeKept : ScrapeNote → List ScrapeNote → Prop
  | .accepted fd, earlier => fd ∉ openOn earlier
  | .heard fd bytes, earlier =>
      fd ∈ openOn earlier ∧ answerOn fd earlier = none ∧ ¬ HeadEnded (heardOn fd earlier) ∧
        (heardOn fd earlier ++ bytes).length ≤ LOOP_SCRAPE_CAP
  | .answered fd snapshot, earlier =>
      fd ∈ openOn earlier ∧ answerOn fd earlier = none ∧ HeadEnded (heardOn fd earlier) ∧
        snapshot.text.length ≤ LOOP_METRICS_CAP ∧
        snapshot.stats.scrapesServed = servedIn earlier % 2 ^ 64 ∧
        snapshot.stats.scrapesRefused = refusedIn earlier % 2 ^ 64
  | .handed fd bytes, earlier =>
      fd ∈ openOn earlier ∧ ∃ answer, answerOn fd earlier = some answer ∧
        takenOn fd earlier ++ bytes <+: answer
  | .served fd, earlier =>
      fd ∈ openOn earlier ∧ answerOn fd earlier = some (takenOn fd earlier)
  | .refused fd, earlier => fd ∈ openOn earlier
  | .closed fd, earlier => fd ∈ openOn earlier

/-! ### The slots and the history -/

/-- A slot has what the history says its connection has been through. -/
structure LoopScrape.Fits (sc : LoopScrape) (fd : Nat) (trace : List ScrapeNote) : Prop where
  input : sc.input = heardOn fd trace
  taken : takenOn fd trace = sc.out.take sc.sent
  within : sc.sent ≤ sc.out.length
  answer : answerOn fd trace = if sc.out = [] then none else some sc.out

/-- It is neither being answered nor given up: its request goes on, or the answer does. -/
def LoopScrape.Goes (sc : LoopScrape) : Prop :=
  (sc.out = [] → ¬ HeadEnded sc.input ∧ sc.input.length < LOOP_SCRAPE_CAP) ∧
    (sc.out ≠ [] → sc.sent < sc.out.length)

/-- `due` is the slot that something is still to be done for, and `extra` are the descriptors
that no slot has. -/
structure Endpoint.Between (e : Endpoint) (due : Option Nat) (extra : List Nat) : Prop where
  empty : ∀ i, (e.scrape i).fd = none → e.scrape i = scrapeEmpty
  inside : ∀ i fd, (e.scrape i).fd = some fd → i < LOOP_MAX_SCRAPES
  fits : ∀ i fd, (e.scrape i).fd = some fd → due ≠ some i → (e.scrape i).Fits fd e.trace
  goes : ∀ i fd, (e.scrape i).fd = some fd → due ≠ some i → (e.scrape i).Goes
  alone : ∀ i j fd, (e.scrape i).fd = some fd → (e.scrape j).fd = some fd → i = j
  held : ∀ fd, fd ∈ openOn e.trace ↔ fd ∈ extra ∨ ∃ i, (e.scrape i).fd = some fd
  apart : ∀ fd ∈ extra, ∀ i, (e.scrape i).fd ≠ some fd
  once : (openOn e.trace).Nodup
  kept : Traces.Always ScrapeKept e.trace
  served : e.served = servedIn e.trace % 2 ^ 64
  refused : e.refused = refusedIn e.trace % 2 ^ 64

variable {e : Endpoint} {due : Option Nat} {extra : List Nat} {i fd : Nat}
  {sc : LoopScrape} {note : ScrapeNote} {trace : List ScrapeNote}

/-- It adds nothing to what a descriptor's connection has been through. -/
def ScrapeNote.Silent (fd : Nat) : ScrapeNote → Prop
  | .accepted other | .heard other _ | .answered other _ | .handed other _ => other ≠ fd
  | _ => True

/-- It opens and closes nothing. -/
def ScrapeNote.steady : ScrapeNote → Bool
  | .accepted _ | .closed _ => false
  | _ => true

/-- It counts as nothing. -/
def ScrapeNote.uncounted : ScrapeNote → Bool
  | .served _ | .refused _ => false
  | _ => true

theorem LoopScrape.Fits.silent (fits : sc.Fits fd trace) (silent : note.Silent fd) :
    sc.Fits fd (note :: trace) := by
  obtain ⟨input, taken, within, answer⟩ := fits
  cases note with
  | accepted other => exact ⟨by rw [heardOn, if_neg silent, input],
      by rw [takenOn, if_neg silent, taken], within, by rw [answerOn, if_neg silent, answer]⟩
  | heard other bytes => exact ⟨by rw [heardOn, if_neg silent, input], taken, within, answer⟩
  | answered other snapshot =>
      exact ⟨input, taken, within, by rw [answerOn, if_neg silent, answer]⟩
  | handed other bytes => exact ⟨input, by rw [takenOn, if_neg silent, taken], within, answer⟩
  | served other => exact ⟨input, taken, within, answer⟩
  | refused other => exact ⟨input, taken, within, answer⟩
  | closed other => exact ⟨input, taken, within, answer⟩

theorem steady_open (steady : note.steady = true) : openOn (note :: trace) = openOn trace := by
  cases note with
  | accepted => cases steady
  | closed => cases steady
  | _ => rfl

theorem uncounted_counts (uncounted : note.uncounted = true) :
    servedIn (note :: trace) = servedIn trace ∧ refusedIn (note :: trace) = refusedIn trace := by
  cases note with
  | served => cases uncounted
  | refused => cases uncounted
  | _ => exact ⟨rfl, rfl⟩

@[simp] theorem scrape_setScrape (e : Endpoint) (i : Nat) (sc : LoopScrape) :
    (e.setScrape i sc).scrape i = sc := if_pos rfl

theorem scrape_setScrape_other (e : Endpoint) {i j : Nat} (sc : LoopScrape) (differ : j ≠ i) :
    (e.setScrape i sc).scrape j = e.scrape j := if_neg differ

/-- Something is to be done for a slot. -/
theorem Endpoint.Between.turn (between : e.Between none extra) (i : Nat) :
    e.Between (some i) extra :=
  { between with
    fits := fun j fd found _ => between.fits j fd found (by simp)
    goes := fun j fd found _ => between.goes j fd found (by simp) }

/-- It has been done. -/
theorem Endpoint.Between.settle (between : e.Between (some i) extra)
    (here : (e.scrape i).fd = some fd) (fits : (e.scrape i).Fits fd e.trace)
    (goes : (e.scrape i).Goes) : e.Between none extra := by
  have other {j : Nat} (at_i : j ≠ i) : some i ≠ some j := fun same =>
    at_i (Option.some.inj same).symm
  refine { between with fits := ?_, goes := ?_ }
  · intro j found held _
    by_cases at_i : j = i
    · rw [at_i] at held ⊢
      rw [here] at held
      cases held
      exact fits
    · exact between.fits j found held (other at_i)
  · intro j found held _
    by_cases at_i : j = i
    · rw [at_i]
      exact goes
    · exact between.goes j found held (other at_i)

/-- The connection in a slot has another state, and nothing else has changed. -/
theorem Endpoint.Between.set (between : e.Between (some i) extra) (sc : LoopScrape)
    (here : (e.scrape i).fd = some fd) (same : sc.fd = some fd) :
    (e.setScrape i sc).Between (some i) extra := by
  have fds (j : Nat) : ((e.setScrape i sc).scrape j).fd = (e.scrape j).fd := by
    by_cases at_i : j = i
    · rw [at_i, scrape_setScrape, same, here]
    · rw [scrape_setScrape_other e sc at_i]
  refine
    { empty := ?_, inside := ?_, fits := ?_, goes := ?_, alone := ?_, held := ?_, apart := ?_
      once := between.once, kept := between.kept, served := between.served
      refused := between.refused }
  · intro j none'
    by_cases at_i : j = i
    · rw [at_i, scrape_setScrape, same] at none'
      cases none'
    · rw [scrape_setScrape_other e sc at_i] at none' ⊢
      exact between.empty j none'
  · intro j other found
    rw [fds] at found
    exact between.inside j other found
  · intro j other found calm
    have at_i : j ≠ i := fun same' => calm (congrArg some same'.symm)
    rw [scrape_setScrape_other e sc at_i] at found ⊢
    exact between.fits j other found calm
  · intro j other found calm
    have at_i : j ≠ i := fun same' => calm (congrArg some same'.symm)
    rw [scrape_setScrape_other e sc at_i] at found ⊢
    exact between.goes j other found calm
  · intro j k other left right
    rw [fds] at left right
    exact between.alone j k other left right
  · intro other
    simp only [fds]
    exact between.held other
  · intro other listed j
    rw [fds]
    exact between.apart other listed j

/-- A note that opens and closes nothing and that counts as nothing. -/
theorem Endpoint.Between.noted (between : e.Between due extra) (kept : ScrapeKept note e.trace)
    (steady : note.steady = true) (uncounted : note.uncounted = true)
    (silent : ∀ j other, (e.scrape j).fd = some other → due ≠ some j → note.Silent other) :
    (e.note note).Between due extra := by
  have opens : openOn (e.note note).trace = openOn e.trace := steady_open steady
  obtain ⟨served, refused⟩ := @uncounted_counts note e.trace uncounted
  exact
    { between with
      fits := fun j other found calm =>
        (between.fits j other found calm).silent (silent j other found calm)
      held := by rw [opens]; exact between.held
      once := by rw [opens]; exact between.once
      kept := ⟨kept, between.kept⟩
      served := between.served.trans (congrArg (· % 2 ^ 64) served.symm)
      refused := between.refused.trans (congrArg (· % 2 ^ 64) refused.symm) }

theorem counted {count : Nat} {after : Nat} (one : after = count + 1) :
    u64Add (count % 2 ^ 64) 1 = after % 2 ^ 64 := by
  unfold u64Add
  omega

theorem servedIn_served (fd : Nat) (trace : List ScrapeNote) :
    servedIn (.served fd :: trace) = servedIn trace + 1 := List.countP_cons_of_pos rfl

theorem refusedIn_refused (fd : Nat) (trace : List ScrapeNote) :
    refusedIn (.refused fd :: trace) = refusedIn trace + 1 := List.countP_cons_of_pos rfl

theorem Endpoint.Between.countServed (between : e.Between due extra)
    (kept : ScrapeKept (.served fd) e.trace) : (e.countServed fd).Between due extra :=
  { between with
    fits := fun j other found calm => (between.fits j other found calm).silent trivial
    kept := ⟨kept, between.kept⟩
    served := by
      have next := counted (servedIn_served fd e.trace)
      rw [← between.served] at next
      exact next }

theorem Endpoint.Between.countRefused (between : e.Between due extra)
    (kept : ScrapeKept (.refused fd) e.trace) : (e.countRefused fd).Between due extra :=
  { between with
    fits := fun j other found calm => (between.fits j other found calm).silent trivial
    kept := ⟨kept, between.kept⟩
    refused := by
      have next := counted (refusedIn_refused fd e.trace)
      rw [← between.refused] at next
      exact next }

/-- The descriptor of a slot's connection is open. -/
theorem Endpoint.Between.opened (between : e.Between due extra)
    (here : (e.scrape i).fd = some fd) : fd ∈ openOn e.trace :=
  (between.held fd).mpr (.inr ⟨i, here⟩)

/-- A slot is given up. -/
theorem Endpoint.Between.release (between : e.Between due extra)
    (only : ∀ j, due = some j → j = i) : (scrapeRelease e i).Between none extra := by
  unfold scrapeRelease
  have others (j : Nat) (at_i : j ≠ i) : due ≠ some j := fun same => at_i (only j same)
  cases here : (e.scrape i).fd with
  | none =>
      exact
        { between with
          fits := by
            intro j other found _
            refine between.fits j other found (others j ?_)
            rintro rfl
            rw [here] at found
            cases found
          goes := by
            intro j other found _
            refine between.goes j other found (others j ?_)
            rintro rfl
            rw [here] at found
            cases found }
  | some fd =>
      have opened := between.opened here
      have left (j : Nat) : (((e.setScrape i scrapeEmpty).note (.closed fd)).scrape j).fd =
          if j = i then none else (e.scrape j).fd := by
        by_cases at_i : j = i
        · rw [if_pos at_i, at_i]
          exact congrArg LoopScrape.fd (scrape_setScrape e i scrapeEmpty)
        · rw [if_neg at_i]
          exact congrArg LoopScrape.fd (scrape_setScrape_other e scrapeEmpty at_i)
      have away {j other : Nat}
          (found : (((e.setScrape i scrapeEmpty).note (.closed fd)).scrape j).fd = some other) :
          j ≠ i ∧ (e.scrape j).fd = some other ∧
            ((e.setScrape i scrapeEmpty).note (.closed fd)).scrape j = e.scrape j := by
        rw [left] at found
        by_cases at_i : j = i
        · rw [if_pos at_i] at found
          cases found
        · rw [if_neg at_i] at found
          exact ⟨at_i, found, scrape_setScrape_other e scrapeEmpty at_i⟩
      have member (other : Nat) : other ∈ (openOn e.trace).erase fd ↔
          other ≠ fd ∧ other ∈ openOn e.trace := between.once.mem_erase_iff
      constructor
      · intro j none'
        by_cases at_i : j = i
        · rw [at_i]
          exact scrape_setScrape e i scrapeEmpty
        · rw [left, if_neg at_i] at none'
          exact (scrape_setScrape_other e scrapeEmpty at_i).trans (between.empty j none')
      · intro j other found
        exact between.inside j other (away found).2.1
      · intro j other found _
        obtain ⟨at_i, before, same⟩ := away found
        rw [same]
        exact (between.fits j other before (others j at_i)).silent trivial
      · intro j other found _
        obtain ⟨at_i, before, same⟩ := away found
        rw [same]
        exact between.goes j other before (others j at_i)
      · intro j k other one two
        exact between.alone j k other (away one).2.1 (away two).2.1
      · intro other
        change other ∈ (openOn e.trace).erase fd ↔ _
        rw [member, between.held]
        constructor
        · rintro ⟨differ, extra' | ⟨j, found⟩⟩
          · exact .inl extra'
          · right
            refine ⟨j, ?_⟩
            rw [left, if_neg]
            · exact found
            · rintro rfl
              rw [here] at found
              cases found
              exact differ rfl
        · rintro (extra' | ⟨j, found⟩)
          · refine ⟨?_, .inl extra'⟩
            rintro rfl
            exact between.apart other extra' i here
          · obtain ⟨at_i, before, -⟩ := away found
            refine ⟨?_, .inr ⟨j, before⟩⟩
            rintro rfl
            exact at_i (between.alone j i other before here)
      · intro other listed j found
        exact between.apart other listed j (away found).2.1
      · exact between.once.erase fd
      · exact ⟨opened, between.kept⟩
      · exact between.served
      · exact between.refused

/-! ### Answers -/

theorem text_pos (snapshot : Snapshot) : snapshot.text ≠ [] := by
  unfold Snapshot.text
  split
  · decide
  · have head : metricsHead ≠ [] := by decide
    exact List.append_ne_nil_of_left_ne_nil head _

theorem loopMetrics_below (l : Loop) (stats : LoopStats) (now : Nat) {cap : Int}
    (some' : loopMetrics l stats now cap ≠ []) :
    ((loopMetrics l stats now cap).length : Int) < cap := by
  revert some'
  unfold loopMetrics
  simp only
  split
  · exact fun empty => absurd rfl empty
  · split
    · exact fun empty => absurd rfl empty
    · split
      · exact fun empty => absurd rfl empty
      · intro _
        omega

/-- An answer has room for all of it. -/
theorem text_fits (snapshot : Snapshot) : snapshot.text.length ≤ LOOP_METRICS_CAP := by
  unfold Snapshot.text
  split
  · decide
  · rename_i some'
    have body := loopMetrics_below snapshot.l snapshot.stats snapshot.now some'
    have same : (snapshot.body.length : Int) < (LOOP_METRICS_CAP : Int) - metricsHead.length := body
    rw [List.length_append]
    omega

/-- What a send has taken is the next of the answer. -/
theorem LoopScrape.Fits.hand (fits : sc.Fits fd trace) {count : Nat}
    (within : count ≤ (sc.out.drop sc.sent).length) :
    takenOn fd trace ++ (sc.out.drop sc.sent).take count = sc.out.take (sc.sent + count) ∧
      { sc with sent := sc.sent + count }.Fits fd
        (.handed fd ((sc.out.drop sc.sent).take count) :: trace) := by
  have joined : takenOn fd trace ++ (sc.out.drop sc.sent).take count =
      sc.out.take (sc.sent + count) := by
    rw [fits.taken, List.take_add]
  refine ⟨joined, fits.input, ?_, ?_, fits.answer⟩
  · rw [takenOn, if_pos rfl, joined]
  · rw [List.length_drop] at within
    have inside := fits.within
    change sc.sent + count ≤ sc.out.length
    omega

/-! ### One connection -/

theorem scrapeAnswering_between (between : e.Between none extra) (i : Nat) (ctl : Bool) :
    (scrapeAnswering e i ctl).Between none extra := by
  unfold scrapeAnswering
  simp only
  split
  · exact between
  · rename_i waits
    split
    · obtain ⟨fd, here⟩ := Option.ne_none_iff_exists'.mp (fun none' => waits (.inl none'))
      have fits := between.fits i fd here (by simp)
      have set := (between.turn i).set { e.scrape i with answering := true } here here
      have held : ((e.setScrape i { e.scrape i with answering := true }).scrape i).fd = some fd := by
        rw [scrape_setScrape]
        exact here
      refine set.settle held ?_ ?_
      · rw [scrape_setScrape]
        exact ⟨fits.input, fits.taken, fits.within, fits.answer⟩
      · rw [scrape_setScrape]
        exact between.goes i fd here (by simp)
    · exact between

theorem scrapeSend_between (between : e.Between none extra) (i : Nat) (answer : SendAnswer) :
    (scrapeSend e i answer).Between none extra := by
  unfold scrapeSend
  simp only
  cases here : (e.scrape i).fd with
  | none => exact between
  | some fd =>
      simp only
      rw [← here]
      have fits := between.fits i fd here (by simp)
      split
      · exact between
      · rename_i left
        split
        · exact scrapeAnswering_between between i answer.ctl
        · split
          · exact between.release (by simp)
          · have within : takenOf answer.res ((e.scrape i).out.drop (e.scrape i).sent) ≤
                ((e.scrape i).out.drop (e.scrape i).sent).length := Nat.min_le_right _ _
            generalize takenOf answer.res ((e.scrape i).out.drop (e.scrape i).sent) = count
              at within ⊢
            obtain ⟨joined, after⟩ := fits.hand within
            have some' : (e.scrape i).out ≠ [] := by
              intro empty
              rw [empty] at left
              exact left (Nat.zero_le _)
            have answer' := fits.answer
            rw [if_neg some'] at answer'
            have kept : ScrapeKept (.handed fd (((e.scrape i).out.drop (e.scrape i).sent).take count))
                e.trace := by
              refine ⟨between.opened here, _, answer', ?_⟩
              rw [joined]
              exact List.take_prefix _ _
            have noted := (between.turn i).noted kept rfl rfl (fun j other found calm same =>
              calm (congrArg some (between.alone i j fd here (same ▸ found))))
            have set := noted.set { e.scrape i with sent := (e.scrape i).sent + count }
              here here
            have at' := scrape_setScrape
              (e.note (.handed fd (((e.scrape i).out.drop (e.scrape i).sent).take count))) i
              { e.scrape i with sent := (e.scrape i).sent + count }
            split
            · rename_i whole
              refine (set.countServed ⟨set.opened (i := i) ?_, ?_⟩).release ?_
              · rw [at']
                exact here
              · have taken := after.taken
                simp only at taken
                rw [List.take_of_length_le whole] at taken
                exact answer'.trans (congrArg some taken.symm)
              · intro j same
                exact (Option.some.inj same).symm
            · rename_i more
              have held := (congrArg LoopScrape.fd at').trans here
              refine scrapeAnswering_between (set.settle held ?_ ?_) i answer.ctl
              · rw [at']
                exact after
              · rw [at']
                exact ⟨fun empty => absurd empty some', fun _ => Nat.lt_of_not_le more⟩

theorem answered_goes (sc : LoopScrape) {text : Bytes} (some' : text ≠ []) :
    { sc with out := text, sent := 0 }.Goes :=
  ⟨fun empty => absurd empty some', fun _ => List.length_pos_iff.mpr some'⟩

/-- A request that has ended is answered. -/
theorem scrapeAnswer_between (between : e.Between (some i) extra)
    (here : (e.scrape i).fd = some fd) (fits : (e.scrape i).Fits fd e.trace)
    (unanswered : (e.scrape i).out = []) (ended : HeadEnded (e.scrape i).input) (l : Loop)
    (stats : LoopStats) (now : Nat) (answer : SendAnswer) :
    (scrapeAnswer e l stats now i fd answer).Between none extra := by
  unfold scrapeAnswer
  simp only
  refine scrapeSend_between ?_ i answer
  generalize hsnapshot : ({ l := l, stats := { stats with
    scrapesServed := e.served, scrapesRefused := e.refused }, now := now } : Snapshot) = snapshot
  have none' : answerOn fd e.trace = none := by
    rw [fits.answer, if_pos unanswered]
  have kept : ScrapeKept (.answered fd snapshot) e.trace := by
    refine ⟨between.opened here, none', ?_, text_fits snapshot, ?_, ?_⟩
    · rw [← fits.input]
      exact ended
    · rw [← hsnapshot]
      exact between.served
    · rw [← hsnapshot]
      exact between.refused
  have noted := between.noted kept rfl rfl (fun j other found calm same =>
    calm (congrArg some (between.alone i j fd here (same ▸ found))))
  have set := noted.set { e.scrape i with out := snapshot.text, sent := 0 } here here
  have at' := scrape_setScrape (e.note (.answered fd snapshot)) i
    { e.scrape i with out := snapshot.text, sent := 0 }
  have settled := set.settle ((congrArg LoopScrape.fd at').trans here)
    (by
      rw [at']
      refine ⟨fits.input, ?_, Nat.zero_le _, ?_⟩
      · have taken := fits.taken
        rw [unanswered, List.take_nil] at taken
        exact taken
      · change answerOn fd (.answered fd snapshot :: e.trace) = _
        rw [answerOn, if_pos rfl, if_neg (text_pos snapshot)])
    (by
      rw [at']
      exact answered_goes (e.scrape i) (text_pos snapshot))
  split
  · refine settled.countRefused (settled.opened (i := i) ?_)
    rw [at']
    exact here
  · exact settled

theorem scrapeRecv_between (between : e.Between none extra) (l : Loop) (stats : LoopStats)
    (now i : Nat) (received : Received) (answer : SendAnswer) :
    (scrapeRecv e l stats now i received answer).Between none extra := by
  unfold scrapeRecv
  simp only
  cases here : (e.scrape i).fd with
  | none => exact between
  | some fd =>
      simp only
      have fits := between.fits i fd here (by simp)
      have goes := between.goes i fd here (by simp)
      split
      · exact between
      · rename_i answered
        have unanswered : (e.scrape i).out = [] := List.length_eq_zero_iff.mp (by omega)
        have waits := goes.1 unanswered
        have none' : answerOn fd e.trace = none := by
          rw [fits.answer, if_pos unanswered]
        split
        · exact (between.countRefused (between.opened here)).release (by simp)
        · cases received with
          | again => exact between
          | failed => exact between.release (by simp)
          | data bytes =>
              simp only
              have short := List.length_take_le (LOOP_SCRAPE_CAP - (e.scrape i).input.length) bytes
              generalize bytes.take (LOOP_SCRAPE_CAP - (e.scrape i).input.length) = got at short ⊢
              split
              · exact between.release (by simp)
              · have kept : ScrapeKept (.heard fd got) e.trace := by
                  refine ⟨between.opened here, none', ?_, ?_⟩
                  · rw [← fits.input]
                    exact waits.1
                  · rw [← fits.input, List.length_append]
                    omega
                have noted := (between.turn i).noted kept rfl rfl
                  (fun j other found calm same =>
                    calm (congrArg some (between.alone i j fd here (same ▸ found))))
                have set := noted.set { e.scrape i with input := (e.scrape i).input ++ got }
                  here here
                have at' := scrape_setScrape (e.note (.heard fd got)) i
                  { e.scrape i with input := (e.scrape i).input ++ got }
                have after : ({ e.scrape i with input := (e.scrape i).input ++ got } :
                    LoopScrape).Fits fd (.heard fd got :: e.trace) := by
                  refine ⟨?_, fits.taken, fits.within, fits.answer⟩
                  rw [heardOn, if_pos rfl, ← fits.input]
                have here' := congrArg LoopScrape.fd at'
                have held := here'.trans here
                rw [← here]
                split
                · rename_i ends
                  refine scrapeAnswer_between set held ?_ ?_ ?_ l stats now answer
                  · rw [at']
                    exact after
                  · rw [at']
                    exact unanswered
                  · rw [at']
                    exact (headEnds_iff _).mp ends
                · rename_i open'
                  split
                  · refine (set.countRefused (set.opened held)).release ?_
                    intro j same
                    exact (Option.some.inj same).symm
                  · rename_i room
                    refine set.settle held ?_ ?_
                    · rw [at']
                      exact after
                    · rw [at']
                      refine ⟨fun _ => ⟨?_, Nat.lt_of_not_le room⟩, ?_⟩
                      · intro ended
                        exact open' ((headEnds_iff _).mpr ended)
                      · intro some'
                        exact absurd unanswered some'

/-! ### The listener -/

/-- A connection has come that no slot has yet. -/
theorem Endpoint.Between.accepted (between : e.Between none [])
    (unused : ∀ j, (e.scrape j).fd ≠ some fd) :
    (e.note (.accepted fd)).Between none [fd] := by
  have fresh : fd ∉ openOn e.trace := by
    intro listed
    obtain empty | ⟨j, found⟩ := (between.held fd).mp listed
    · cases empty
    · exact unused j found
  refine
    { between with
      fits := ?_, held := ?_, apart := ?_, once := List.nodup_cons.mpr ⟨fresh, between.once⟩
      kept := ⟨fresh, between.kept⟩ }
  · intro j other found calm
    refine (between.fits j other found calm).silent ?_
    rintro rfl
    exact unused j found
  · intro other
    change other ∈ fd :: openOn e.trace ↔ _
    rw [List.mem_cons, between.held, List.mem_singleton]
    simp only [List.not_mem_nil, false_or]
    rfl
  · intro other listed j
    rw [List.mem_singleton.mp listed]
    exact unused j

theorem scrapeOpen_between {slot : Nat} (between : e.Between none [fd])
    (free : (e.scrape slot).fd = none) (slotted : slot < LOOP_MAX_SCRAPES)
    (fresh : scrapeEmpty.Fits fd e.trace) (now : Nat) (ctl : Bool) :
    (scrapeOpen e slot fd now ctl).Between none [] := by
  unfold scrapeOpen
  split
  · have fds (j : Nat) : ((e.setScrape slot
        { scrapeEmpty with fd := some fd, openedNs := now }).scrape j).fd =
          if j = slot then some fd else (e.scrape j).fd := by
      by_cases at_slot : j = slot
      · rw [if_pos at_slot, at_slot, scrape_setScrape]
      · rw [if_neg at_slot, scrape_setScrape_other e _ at_slot]
    refine
      { empty := ?_, inside := ?_, fits := ?_, goes := ?_, alone := ?_, held := ?_, apart := ?_
        once := between.once, kept := between.kept, served := between.served
        refused := between.refused }
    · intro j none'
      by_cases at_slot : j = slot
      · rw [fds, if_pos at_slot] at none'
        cases none'
      · rw [scrape_setScrape_other e _ at_slot] at none' ⊢
        exact between.empty j none'
    · intro j other found
      by_cases at_slot : j = slot
      · rw [at_slot]
        exact slotted
      · rw [fds, if_neg at_slot] at found
        exact between.inside j other found
    · intro j other found _
      by_cases at_slot : j = slot
      · rw [fds, if_pos at_slot] at found
        cases found
        rw [at_slot, scrape_setScrape]
        exact ⟨fresh.input, fresh.taken, fresh.within, fresh.answer⟩
      · rw [scrape_setScrape_other e _ at_slot] at found ⊢
        exact between.fits j other found (by simp)
    · intro j other found _
      by_cases at_slot : j = slot
      · have closed : ¬ HeadEnded [] := fun ended =>
          absurd ((headEnds_iff []).mpr ended) (by decide)
        have room : ([] : Bytes).length < LOOP_SCRAPE_CAP := by decide
        rw [at_slot, scrape_setScrape]
        exact ⟨fun _ => ⟨closed, room⟩, fun some' => absurd rfl some'⟩
      · rw [scrape_setScrape_other e _ at_slot] at found ⊢
        exact between.goes j other found (by simp)
    · intro j k other left right
      rw [fds] at left right
      by_cases j_slot : j = slot <;> by_cases k_slot : k = slot
      · rw [j_slot, k_slot]
      · rw [if_pos j_slot] at left
        rw [if_neg k_slot] at right
        cases left
        exact absurd right (between.apart fd (List.mem_singleton.mpr rfl) k)
      · rw [if_neg j_slot] at left
        rw [if_pos k_slot] at right
        cases right
        exact absurd left (between.apart fd (List.mem_singleton.mpr rfl) j)
      · rw [if_neg j_slot] at left
        rw [if_neg k_slot] at right
        exact between.alone j k other left right
    · intro other
      simp only [fds]
      rw [show (e.setScrape slot _).trace = e.trace from rfl, between.held, List.mem_singleton]
      constructor
      · rintro (rfl | ⟨j, found⟩)
        · exact .inr ⟨slot, if_pos rfl⟩
        · refine .inr ⟨j, ?_⟩
          rw [if_neg]
          · exact found
          · rintro rfl
            rw [free] at found
            cases found
      · rintro (none' | ⟨j, found⟩)
        · cases none'
        · split at found
          · exact .inl (Option.some.inj found).symm
          · exact .inr ⟨j, found⟩
    · intro other listed
      cases listed
  · have member (other : Nat) : other ∈ (openOn e.trace).erase fd ↔
        other ≠ fd ∧ other ∈ openOn e.trace := between.once.mem_erase_iff
    refine
      { between with
        fits := fun j other found calm => (between.fits j other found calm).silent trivial
        held := ?_, apart := fun other listed => by cases listed
        once := between.once.erase fd
        kept := ⟨(between.held fd).mpr (.inl (List.mem_singleton.mpr rfl)), between.kept⟩ }
    intro other
    change other ∈ (openOn e.trace).erase fd ↔ _
    rw [member, between.held, List.mem_singleton]
    constructor
    · rintro ⟨differ, same | found⟩
      · exact absurd same differ
      · exact .inr found
    · rintro (none' | ⟨j, found⟩)
      · cases none'
      · refine ⟨?_, .inr ⟨j, found⟩⟩
        rintro rfl
        exact between.apart other (List.mem_singleton.mpr rfl) j found

theorem oldest_below (e : Endpoint) (count : Nat) :
    ∃ slot, (List.range (count + 1)).foldl (olderScrape e) none =
        some (slot, (e.scrape slot).openedNs) ∧ slot < count + 1 ∧
      ∀ j < count + 1, (e.scrape slot).openedNs ≤ (e.scrape j).openedNs := by
  induction count with
  | zero =>
      refine ⟨0, rfl, Nat.one_pos, ?_⟩
      intro j below
      rw [show j = 0 by omega]
  | succ count ih =>
      obtain ⟨slot, same, below, least⟩ := ih
      rw [List.range_succ, List.foldl_append, same]
      by_cases older : (e.scrape (count + 1)).openedNs < (e.scrape slot).openedNs
      · refine ⟨count + 1, ?_, Nat.lt_succ_self _, ?_⟩
        · exact if_pos older
        · intro j below'
          by_cases last : j = count + 1
          · rw [last]
          · have := least j (by omega)
            omega
      · refine ⟨slot, ?_, by omega, ?_⟩
        · exact if_neg older
        · intro j below'
          by_cases last : j = count + 1
          · rw [last]
            omega
          · exact least j (by omega)

/-- The slot that makes room is one that has been open as long as any. -/
theorem oldestScrape_some (e : Endpoint) :
    ∃ slot, oldestScrape e = some (slot, (e.scrape slot).openedNs) ∧ slot < LOOP_MAX_SCRAPES ∧
      ∀ j < LOOP_MAX_SCRAPES, (e.scrape slot).openedNs ≤ (e.scrape j).openedNs :=
  oldest_below e 3

theorem freeScrape_some {slot : Nat} (found : freeScrape e = some slot) :
    slot < LOOP_MAX_SCRAPES ∧ (e.scrape slot).fd = none := by
  have free := List.find?_some found
  exact ⟨List.mem_range.mp (List.mem_of_find?_eq_some found), of_decide_eq_true free⟩

theorem freeScrape_none (busy : freeScrape e = none) {j : Nat} (below : j < LOOP_MAX_SCRAPES) :
    (e.scrape j).fd ≠ none := by
  have found := List.find?_eq_none.mp busy j (List.mem_range.mpr below)
  simpa using found

theorem scrapeEvict_between {slot : Nat} (between : e.Between none extra) :
    (scrapeEvict e slot).Between none extra := by
  unfold scrapeEvict
  cases here : (e.scrape slot).fd with
  | none => exact between
  | some other => exact (between.countRefused (between.opened here)).release (by simp)

theorem scrapeEvict_free (e : Endpoint) (slot : Nat) :
    ((scrapeEvict e slot).scrape slot).fd = none := by
  unfold scrapeEvict
  cases here : (e.scrape slot).fd with
  | none => exact here
  | some other =>
      unfold scrapeRelease
      have held : ((e.countRefused other).scrape slot).fd = some other := here
      simp only [held]
      exact congrArg LoopScrape.fd (scrape_setScrape (e.countRefused other) slot scrapeEmpty)

theorem scrapeEvict_other (e : Endpoint) {slot j : Nat} (apart : j ≠ slot) :
    (scrapeEvict e slot).scrape j = e.scrape j := by
  unfold scrapeEvict
  cases here : (e.scrape slot).fd with
  | none => rfl
  | some other =>
      unfold scrapeRelease
      have held : ((e.countRefused other).scrape slot).fd = some other := here
      simp only [held]
      exact scrape_setScrape_other (e.countRefused other) scrapeEmpty apart

theorem scrapeEvict_fits {slot : Nat} (fits : sc.Fits fd e.trace) :
    sc.Fits fd (scrapeEvict e slot).trace := by
  unfold scrapeEvict
  cases here : (e.scrape slot).fd with
  | none => exact fits
  | some other =>
      unfold scrapeRelease
      have held : ((e.countRefused other).scrape slot).fd = some other := here
      simp only [held]
      have refused : sc.Fits fd (.refused other :: e.trace) := fits.silent trivial
      exact refused.silent trivial

theorem scrapeAccept_between (between : e.Between none []) (l : Loop) (now : Nat)
    (accepted : Option Nat) (ctl : Bool)
    (unused : ∀ fd, accepted = some fd → ∀ j, (e.scrape j).fd ≠ some fd) :
    (scrapeAccept e l now accepted ctl).Between none [] := by
  unfold scrapeAccept
  split
  · exact between
  · cases accepted with
    | none => exact between
    | some fd =>
        simp only
        have came := between.accepted (unused fd rfl)
        have fresh : scrapeEmpty.Fits fd (.accepted fd :: e.trace) := by
          refine ⟨?_, ?_, Nat.le_refl _, ?_⟩
          · rw [heardOn, if_pos rfl]
            rfl
          · rw [takenOn, if_pos rfl]
            rfl
          · rw [answerOn, if_pos rfl]
            rfl
        cases found : freeScrape (e.note (.accepted fd)) with
        | some slot =>
            obtain ⟨slotted, free⟩ := freeScrape_some found
            exact scrapeOpen_between came free slotted fresh now ctl
        | none =>
            obtain ⟨slot, oldest, slotted, -⟩ := oldestScrape_some (e.note (.accepted fd))
            simp only [oldest]
            exact scrapeOpen_between (scrapeEvict_between came) (scrapeEvict_free _ slot) slotted
              (scrapeEvict_fits fresh) now ctl

/-! ### Runs -/

theorem tickScrape_between (between : e.Between none []) (tick : ScrapeTick)
    (possible : tick.Possible e) : (tickScrape e tick).Between none [] := by
  obtain ⟨l, stats, now, event⟩ := tick
  cases event with
  | metrics accepted ctl => exact scrapeAccept_between between l now accepted ctl possible
  | scrape slot readable writable =>
      cases readable with
      | none =>
          cases writable with
          | none => exact between
          | some answer => exact scrapeSend_between between slot answer
      | some both =>
          have read := scrapeRecv_between between l stats now slot both.1 both.2
          cases writable with
          | none => exact read
          | some answer => exact scrapeSend_between read slot answer

theorem fresh_between (metrics : Bool) : (Endpoint.fresh metrics).Between none [] where
  empty _ _ := rfl
  inside _ _ found := by cases found
  fits _ _ found := by cases found
  goes _ _ found := by cases found
  alone _ _ _ found := by cases found
  held fd := by
    constructor
    · intro listed
      cases listed
    · rintro (listed | ⟨i, found⟩)
      · cases listed
      · cases found
  apart _ listed := by cases listed
  once := List.nodup_nil
  kept := trivial
  served := rfl
  refused := rfl

theorem Scraping.between (scraping : Scraping e) : e.Between none [] := by
  unfold Scraping at scraping
  induction scraping with
  | start first =>
      obtain ⟨metrics, rfl⟩ := first
      exact fresh_between metrics
  | next before tick possible moves ih =>
      rw [moves]
      exact tickScrape_between ih tick possible

theorem Scraping.tick (scraping : Scraping e) {tick : ScrapeTick} (possible : tick.Possible e) :
    Scraping (tickScrape e tick) :=
  Runs.Reach.next scraping tick possible rfl

/-- A connection, its request in two reads, and the answer taken in two sends. -/
@[irreducible] def scrapedOnce : Endpoint :=
  let l := leaderAlone.fresh 4096
  let e := tickScrape (Endpoint.fresh true) ⟨l, statsFresh, 5, .metrics (some 9) true⟩
  let e := tickScrape e
    ⟨l, statsFresh, 6, .scrape 0 (some (.data (ascii "GET / HTTP/1.0\r\n"), ⟨0, true⟩)) none⟩
  let e := tickScrape e
    ⟨l, statsFresh, 7, .scrape 0 (some (.data (ascii "\r\n"), ⟨1500, true⟩)) none⟩
  tickScrape e ⟨l, statsFresh, 8, .scrape 0 none (some ⟨4096, true⟩)⟩

theorem scrapedOnce_scraping : Scraping scrapedOnce := by
  have started : Scraping (Endpoint.fresh true) := .start ⟨true, rfl⟩
  unfold scrapedOnce
  refine Scraping.tick (Scraping.tick (Scraping.tick (started.tick ?_) ?_) ?_) ?_
  · intro fd _ i found
    cases found
  · trivial
  · trivial
  · trivial

/-- **No descriptor is left open.** The descriptors open at any point of a run are those of the
slots, each of one slot, and so four at most. -/
theorem scraping_descriptors (scraping : Scraping e) :
    (openOn e.trace).Nodup ∧ (openOn e.trace).length ≤ LOOP_MAX_SCRAPES ∧
      (∀ fd, fd ∈ openOn e.trace ↔ ∃ i < LOOP_MAX_SCRAPES, (e.scrape i).fd = some fd) ∧
      ∀ i j fd, (e.scrape i).fd = some fd → (e.scrape j).fd = some fd → i = j := by
  have between := scraping.between
  have slots (fd : Nat) : fd ∈ openOn e.trace ↔
      ∃ i < LOOP_MAX_SCRAPES, (e.scrape i).fd = some fd := by
    rw [between.held]
    constructor
    · rintro (listed | ⟨i, found⟩)
      · cases listed
      · exact ⟨i, between.inside i fd found, found⟩
    · rintro ⟨i, -, found⟩
      exact .inr ⟨i, found⟩
  have among : openOn e.trace ⊆
      (List.range LOOP_MAX_SCRAPES).filterMap (fun i => (e.scrape i).fd) := by
    intro fd listed
    obtain ⟨i, below, found⟩ := (slots fd).mp listed
    exact List.mem_filterMap.mpr ⟨i, List.mem_range.mpr below, found⟩
  refine ⟨between.once, ?_, slots, between.alone⟩
  have shorter := (List.subperm_of_subset between.once among).length_le
  exact shorter.trans (List.length_filterMap_le _ _)

theorem scraping_descriptors_once : (openOn scrapedOnce.trace).length ≤ LOOP_MAX_SCRAPES := by
  obtain ⟨-, few, -⟩ := scraping_descriptors scrapedOnce_scraping
  exact few

/-- **A newcomer has a slot.** A connection that is accepted and can be watched has a slot of
its own, and it takes one from another only where all are busy: from one that has been open as
long as any. Every other connection is as it was. -/
theorem scrapeAccept_room (e : Endpoint) (l : Loop) (now fd : Nat) (going : l.stop = false)
    (on : e.metrics = true) :
    ∃ slot < LOOP_MAX_SCRAPES,
      (scrapeAccept e l now (some fd) true).scrape slot =
        { scrapeEmpty with fd := some fd, openedNs := now } ∧
      (∀ j, j ≠ slot → (scrapeAccept e l now (some fd) true).scrape j = e.scrape j) ∧
      ((e.scrape slot).fd = none ∨ ∀ j < LOOP_MAX_SCRAPES, (e.scrape j).fd ≠ none ∧
        (e.scrape slot).openedNs ≤ (e.scrape j).openedNs) := by
  have goes : ¬ (l.stop = true ∨ ¬ e.metrics = true) := by simp [going, on]
  unfold scrapeAccept
  rw [if_neg goes]
  simp only
  cases found : freeScrape (e.note (.accepted fd)) with
  | some slot =>
      obtain ⟨slotted, free⟩ := freeScrape_some found
      refine ⟨slot, slotted, scrape_setScrape _ _ _, ?_, .inl free⟩
      intro j apart
      exact scrape_setScrape_other _ _ apart
  | none =>
      obtain ⟨slot, oldest, slotted, least⟩ := oldestScrape_some (e.note (.accepted fd))
      simp only [oldest]
      refine ⟨slot, slotted, scrape_setScrape _ _ _, ?_, .inr ?_⟩
      · intro j apart
        refine (scrape_setScrape_other _ _ apart).trans ?_
        exact scrapeEvict_other (e.note (.accepted fd)) apart
      · intro j below
        exact ⟨freeScrape_none found below, least j below⟩

/-- Four connections that have said nothing, and a fifth. -/
def scrapesBusy : Endpoint :=
  { Endpoint.fresh true with
    scrape := fun i =>
      if i < 4 then { scrapeEmpty with fd := some (10 + i), openedNs := 8 - i } else scrapeEmpty }

theorem scrapeAccept_room_busy :
    ∃ slot < LOOP_MAX_SCRAPES,
      (scrapeAccept scrapesBusy (leaderAlone.fresh 4096) 9 (some 14) true).scrape slot =
        { scrapeEmpty with fd := some 14, openedNs := 9 } :=
  let ⟨slot, below, taken, _⟩ :=
    scrapeAccept_room scrapesBusy (leaderAlone.fresh 4096) 9 14 rfl rfl
  ⟨slot, below, taken⟩

end Msgsrvd

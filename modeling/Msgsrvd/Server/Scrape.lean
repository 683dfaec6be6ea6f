/-
The metrics endpoint: connections that are read up to the end of a request head, answered
once and closed.
-/

import Msgsrvd.Lib.Runs
import Msgsrvd.Lib.Traces
import Msgsrvd.Server.Metrics

namespace Msgsrvd

open Bytestring

def LOOP_MAX_SCRAPES : Nat := 4
def LOOP_SCRAPE_CAP : Nat := 4096
def LOOP_METRICS_CAP : Nat := 16384

/-- A scrape in progress; `input` is `scrape_in[0..in_len)` and `out` `scrape_out[0..out_len)`. -/
structure LoopScrape where
  fd : Option Nat
  input : Bytes
  out : Bytes
  sent : Nat
  answering : Bool
  openedNs : Nat
  deriving DecidableEq, Repr

def scrapeEmpty : LoopScrape :=
  { fd := none, input := [], out := [], sent := 0, answering := false, openedNs := 0 }

/-- What a document is built from. -/
structure Snapshot where
  l : Loop
  stats : LoopStats
  now : Nat

/-- What has happened on the endpoint's descriptors. -/
inductive ScrapeNote where
  | accepted (fd : Nat)
  | heard (fd : Nat) (bytes : Bytes)
  | answered (fd : Nat) (snapshot : Snapshot)
  /-- what a send has taken -/
  | handed (fd : Nat) (bytes : Bytes)
  | served (fd : Nat)
  | refused (fd : Nat)
  | closed (fd : Nat)

structure Endpoint where
  /-- the endpoint is on -/
  metrics : Bool
  scrape : Nat → LoopScrape
  served : Nat
  refused : Nat
  trace : List ScrapeNote

def Endpoint.note (e : Endpoint) (note : ScrapeNote) : Endpoint :=
  { e with trace := note :: e.trace }

def Endpoint.setScrape (e : Endpoint) (i : Nat) (sc : LoopScrape) : Endpoint :=
  { e with scrape := fun other => if other = i then sc else e.scrape other }

def Endpoint.countServed (e : Endpoint) (fd : Nat) : Endpoint :=
  { e with served := u64Add e.served 1 }.note (.served fd)

def Endpoint.countRefused (e : Endpoint) (fd : Nat) : Endpoint :=
  { e with refused := u64Add e.refused 1 }.note (.refused fd)

/-! ### Texts -/

def metricsHead : Bytes :=
  ascii ("HTTP/1.0 200 OK\r\n" ++ "Content-Type: text/plain; version=0.0.4; charset=utf-8\r\n" ++
    "Connection: close\r\n" ++ "\r\n")

/-- `oops` -/
def metricsOops : Bytes :=
  ascii ("HTTP/1.0 503 Service Unavailable\r\n" ++ "Content-Type: text/plain\r\n" ++
    "Connection: close\r\n" ++ "\r\n")

def Snapshot.body (snapshot : Snapshot) : Bytes :=
  loopMetrics snapshot.l snapshot.stats snapshot.now
    ((LOOP_METRICS_CAP : Int) - metricsHead.length)

/-- The whole of an answer. -/
def Snapshot.text (snapshot : Snapshot) : Bytes :=
  if snapshot.body = [] then metricsOops else metricsHead ++ snapshot.body

/-- The newline at `at'` ends a blank line. -/
def headEndsAt (input : Bytes) (at' : Nat) : Bool :=
  input[at']? == some 10 &&
    (input[at' - 1]? == some 10 ||
      (decide (3 ≤ at') && input[at' - 1]? == some 13 && input[at' - 2]? == some 10))

/-- The request head has ended. -/
def headEnds (input : Bytes) : Bool :=
  (List.range input.length).any (fun at' => decide (1 ≤ at') && headEndsAt input at')

/-! ### One connection -/

def scrapeRelease (e : Endpoint) (i : Nat) : Endpoint :=
  match (e.scrape i).fd with
  | none => e
  | some fd => (e.setScrape i scrapeEmpty).note (.closed fd)

/-- Watch for room to write instead of for more to read. -/
def scrapeAnswering (e : Endpoint) (i : Nat) (ctl : Bool) : Endpoint :=
  let sc := e.scrape i
  if sc.fd = none ∨ sc.answering then e
  else if ctl then e.setScrape i { sc with answering := true }
  else e

/-- Push what is left of the response. -/
def scrapeSend (e : Endpoint) (i : Nat) (answer : SendAnswer) : Endpoint :=
  let sc := e.scrape i
  match sc.fd with
  | none => e
  | some fd =>
      if sc.out.length ≤ sc.sent then e
      else if answer.res = -EAGAIN then scrapeAnswering e i answer.ctl
      else if answer.res ≤ 0 then scrapeRelease e i
      else
        let left := sc.out.drop sc.sent
        let taken := takenOf answer.res left
        let e := (e.setScrape i { sc with sent := sc.sent + taken }).note
          (.handed fd (left.take taken))
        if sc.sent + taken ≥ sc.out.length then scrapeRelease (e.countServed fd) i
        else scrapeAnswering e i answer.ctl

/-- Build the response for a request that has ended. -/
def scrapeAnswer (e : Endpoint) (l : Loop) (stats : LoopStats) (now i fd : Nat)
    (answer : SendAnswer) : Endpoint :=
  let snapshot : Snapshot :=
    ⟨l, { stats with scrapesServed := e.served, scrapesRefused := e.refused }, now⟩
  let e := (e.setScrape i { e.scrape i with out := snapshot.text, sent := 0 }).note
    (.answered fd snapshot)
  let e := if snapshot.body = [] then e.countRefused fd else e
  scrapeSend e i answer

/-- Read what a scraper sent, only to find where it stops. -/
def scrapeRecv (e : Endpoint) (l : Loop) (stats : LoopStats) (now i : Nat) (received : Received)
    (answer : SendAnswer) : Endpoint :=
  let sc := e.scrape i
  match sc.fd with
  | none => e
  | some fd =>
      if sc.out.length > 0 then e
      else if sc.input.length ≥ LOOP_SCRAPE_CAP then scrapeRelease (e.countRefused fd) i
      else
        match received with
        | .again => e
        | .failed => scrapeRelease e i
        | .data bytes =>
            let got := bytes.take (LOOP_SCRAPE_CAP - sc.input.length)
            if got = [] then scrapeRelease e i
            else
              let input := sc.input ++ got
              let e := (e.setScrape i { sc with input := input }).note (.heard fd got)
              if headEnds input then scrapeAnswer e l stats now i fd answer
              else if input.length ≥ LOOP_SCRAPE_CAP then scrapeRelease (e.countRefused fd) i
              else e

/-! ### The listener -/

def freeScrape (e : Endpoint) : Option Nat :=
  (List.range LOOP_MAX_SCRAPES).find? (fun i => decide ((e.scrape i).fd = none))

/-- Of the one found so far and slot `i`, the one that has been open longer, and since when. -/
def olderScrape (e : Endpoint) (oldest : Option (Nat × Nat)) (i : Nat) : Option (Nat × Nat) :=
  match oldest with
  | none => some (i, (e.scrape i).openedNs)
  | some (slot, ns) =>
      if (e.scrape i).openedNs < ns then some (i, (e.scrape i).openedNs) else some (slot, ns)

def oldestScrape (e : Endpoint) : Option (Nat × Nat) :=
  (List.range LOOP_MAX_SCRAPES).foldl (olderScrape e) none

/-- The connection in the slot makes room for another. -/
def scrapeEvict (e : Endpoint) (slot : Nat) : Endpoint :=
  match (e.scrape slot).fd with
  | none => e
  | some fd => scrapeRelease (e.countRefused fd) slot

/-- Take a connection into a slot, or close it where it cannot be watched. -/
def scrapeOpen (e : Endpoint) (slot fd now : Nat) (ctl : Bool) : Endpoint :=
  if ctl then e.setScrape slot { scrapeEmpty with fd := some fd, openedNs := now }
  else e.note (.closed fd)

def scrapeAccept (e : Endpoint) (l : Loop) (now : Nat) (accepted : Option Nat) (ctl : Bool) :
    Endpoint :=
  if l.stop ∨ ¬ e.metrics then e
  else
    match accepted with
    | none => e
    | some fd =>
        let e := e.note (.accepted fd)
        match freeScrape e with
        | some slot => scrapeOpen e slot fd now ctl
        | none =>
            match oldestScrape e with
            | some (slot, _) => scrapeOpen (scrapeEvict e slot) slot fd now ctl
            | none => e

/-! ### Events -/

/-- What the endpoint's descriptors are ready for, with what the kernel then answers. -/
inductive ScrapeEvent where
  | metrics (accepted : Option Nat) (ctl : Bool)
  | scrape (slot : Nat) (readable : Option (Received × SendAnswer)) (writable : Option SendAnswer)

/-- An event, and the loop and the clock as it is handled. -/
structure ScrapeTick where
  l : Loop
  stats : LoopStats
  now : Nat
  event : ScrapeEvent

/-- The part of `tick_event` that is about the endpoint. -/
def tickScrape (e : Endpoint) (tick : ScrapeTick) : Endpoint :=
  match tick.event with
  | .metrics accepted ctl => scrapeAccept e tick.l tick.now accepted ctl
  | .scrape slot readable writable =>
      let e := match readable with
        | none => e
        | some (received, answer) => scrapeRecv e tick.l tick.stats tick.now slot received answer
      match writable with
      | none => e
      | some answer => scrapeSend e slot answer

/-- The kernel gives out no descriptor that is open. -/
def ScrapeTick.Possible (e : Endpoint) (tick : ScrapeTick) : Prop :=
  match tick.event with
  | .metrics accepted _ => ∀ fd, accepted = some fd → ∀ i, (e.scrape i).fd ≠ some fd
  | .scrape _ _ _ => True

def Endpoint.fresh (metrics : Bool) : Endpoint :=
  { metrics := metrics, scrape := fun _ => scrapeEmpty, served := 0, refused := 0, trace := [] }

def Scraping : Endpoint → Prop :=
  Runs.Reach (fun e => ∃ metrics, e = Endpoint.fresh metrics)
    (fun e tick e' => e' = tickScrape e tick) ScrapeTick.Possible

end Msgsrvd

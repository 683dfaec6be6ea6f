/-
What retention may delete while replicas are expected: nothing that one of them has yet
to confirm, as long as no two of the leader's replica slots belong to one node.
-/

import Msgsrvd.Server.Deals

namespace Msgsrvd

open Bytestring

variable {d d' : Desk} {who : List Note → Nat} {nodes : Nat}

/-! ### Nodes -/

/-- The node in a replica slot; `who` names the node that attaches after a history. -/
def holder (who : List Note → Nat) (idx : Nat) : List Note → Option Nat
  | [] => none
  | .attached _ other _ :: earlier =>
      if other = idx then some (who earlier) else holder who idx earlier
  | .detached other :: earlier => if other = idx then none else holder who idx earlier
  | _ :: earlier => holder who idx earlier

/-- The node that attached last on a connection. -/
def nodeOn (who : List Note → Nat) (slot : Nat) : List Note → Option Nat
  | [] => none
  | .attached other _ _ :: earlier =>
      if other = slot then some (who earlier) else nodeOn who slot earlier
  | _ :: earlier => nodeOn who slot earlier

/-- The highest sequence a node has confirmed durable, on any of its connections. -/
def confirmedBy (who : List Note → Nat) (node : Nat) : List Note → Nat
  | [] => 0
  | .attached _ _ sequence :: earlier =>
      if who earlier = node then max sequence (confirmedBy who node earlier)
      else confirmedBy who node earlier
  | .confirmed slot _ sequence :: earlier =>
      if nodeOn who slot earlier = some node then max sequence (confirmedBy who node earlier)
      else confirmedBy who node earlier
  | _ :: earlier => confirmedBy who node earlier

/-- What retention deletes every node has confirmed. -/
def RetainKept (who : List Note → Nat) (nodes : Nat) : Note → List Note → Prop
  | .retained before after, earlier =>
      ∀ node < nodes, ∀ seq < after, before ≤ seq → seq ≤ confirmedBy who node earlier
  | _, _ => True

/-- No node attaches while the leader still has an older connection of its own. -/
def attachFits (who : List Note → Nat) (nodes : Nat) : Note → List Note → Bool
  | .attached _ _ _, earlier =>
      decide (nodes ≤ 1 ∨
        ∀ idx ∈ List.range LOOP_MAX_REPLICAS, holder who idx earlier ≠ some (who earlier))
  | _, _ => true

/-- The condition on a whole history. -/
def AttachFits (who : List Note → Nat) (nodes : Nat) (trace : List Note) : Prop :=
  Traces.Always (fun note earlier => attachFits who nodes note earlier = true) trace

/-! ### The replica slots -/

/-- Who is where, and what each has confirmed. -/
structure Desk.Followed (who : List Note → Nat) (nodes : Nat) (d : Desk) : Prop where
  want : d.want = nodes
  /-- a connection in a replica slot is the one that attached there -/
  own : ∀ slot idx, (d.party slot).replica = some idx → d.peers idx ≠ none ∧
    holder who idx d.trace = nodeOn who slot d.trace
  alone : ∀ slot other idx, (d.party slot).replica = some idx →
    (d.party other).replica = some idx → slot = other
  inside : ∀ idx, d.peers idx ≠ none → idx < LOOP_MAX_REPLICAS
  vacant : ∀ idx, d.peers idx = none → holder who idx d.trace = none
  named : ∀ idx confirmed, d.peers idx = some confirmed → ∃ node < nodes,
    holder who idx d.trace = some node ∧ confirmed ≤ confirmedBy who node d.trace
  distinct : nodes ≤ 1 ∨ ∀ idx other node, holder who idx d.trace = some node →
    holder who other d.trace = some node → idx = other
  floor : ∀ node < nodes, d.floor ≤ confirmedBy who node d.trace

/-- The two histories agree on who is where, and on what each has confirmed. -/
structure SameNodes (who : List Note → Nat) (earlier later : List Note) : Prop where
  holder : ∀ idx, holder who idx later = holder who idx earlier
  nodeOn : ∀ slot, nodeOn who slot later = nodeOn who slot earlier
  confirmed : ∀ node, confirmedBy who node later = confirmedBy who node earlier

theorem Asides.sameNodes {earlier later : List Note} (asides : Asides earlier later) :
    SameNodes who earlier later := by
  refine ⟨fun idx => asides.same ?_, fun slot => asides.same ?_, fun node => asides.same ?_⟩
  · intro note trace quiet
    cases note with
    | attached | detached => cases quiet
    | _ => rfl
  · intro note trace quiet
    cases note with
    | attached => cases quiet
    | _ => rfl
  · intro note trace quiet
    cases note with
    | attached | confirmed => cases quiet
    | _ => rfl

/-- Nothing happens to the replicas, but that one of them may have left its connection. -/
theorem Desk.Followed.kept (followed : d.Followed who nodes) (want : d'.want = d.want)
    (peers : d'.peers = d.peers) (floor : d'.floor = d.floor)
    (replica : ∀ slot idx, (d'.party slot).replica = some idx → (d.party slot).replica = some idx)
    (same : SameNodes who d.trace d'.trace) : d'.Followed who nodes := by
  constructor
  · exact want.trans followed.want
  · intro slot idx of
    rw [peers, same.holder, same.nodeOn]
    exact followed.own slot idx (replica slot idx of)
  · intro slot other idx of of'
    exact followed.alone slot other idx (replica slot idx of) (replica other idx of')
  · rw [peers]
    exact followed.inside
  · intro idx none
    rw [peers] at none
    rw [same.holder]
    exact followed.vacant idx none
  · intro idx value present
    rw [peers] at present
    rw [same.holder]
    obtain ⟨node, some', holds, below⟩ := followed.named idx value present
    refine ⟨node, some', holds, ?_⟩
    rw [same.confirmed]
    exact below
  · rcases followed.distinct with few | distinct
    · exact Or.inl few
    · right
      intro idx other node here there
      rw [same.holder] at here there
      exact distinct idx other node here there
  · intro node some'
    rw [floor, same.confirmed]
    exact followed.floor node some'

theorem Desk.Followed.aside (followed : d.Followed who nodes) (aside : Aside d d') :
    d'.Followed who nodes := by
  refine followed.kept aside.want aside.peers aside.floor (fun slot idx of => ?_) aside.trace.sameNodes
  exact (congrArg Account.replica (aside.account slot)).symm.trans of

theorem replica_setParty {slot : Nat} {p : Party}
    (same : ∀ idx, p.replica = some idx → (d.party slot).replica = some idx) (other idx : Nat)
    (holds : ((d.setParty slot p).party other).replica = some idx) :
    (d.party other).replica = some idx := by
  by_cases at_slot : other = slot
  · subst at_slot
    rw [show (d.setParty other p).party other = p from if_pos rfl] at holds
    exact same idx holds
  · rw [show (d.setParty slot p).party other = d.party other from if_neg at_slot] at holds
    exact holds

theorem owe_replica (p : Party) (live : Bool) (tick flags clientSeq walSeq : Nat) :
    (p.owe live tick flags clientSeq walSeq).replica = p.replica := by
  unfold Party.owe
  split
  · rfl
  · split
    · rfl
    · split <;> rfl

theorem confirmedBy_attached (slot idx sequence node : Nat) (trace : List Note) :
    confirmedBy who node trace ≤ confirmedBy who node (.attached slot idx sequence :: trace) := by
  change _ ≤ if who trace = node then max sequence (confirmedBy who node trace)
    else confirmedBy who node trace
  split
  · exact Nat.le_max_right _ _
  · exact Nat.le_refl _

theorem confirmedBy_confirmed (slot idx sequence node : Nat) (trace : List Note) :
    confirmedBy who node trace ≤ confirmedBy who node (.confirmed slot idx sequence :: trace) := by
  change _ ≤ if nodeOn who slot trace = some node then max sequence (confirmedBy who node trace)
    else confirmedBy who node trace
  split
  · exact Nat.le_max_right _ _
  · exact Nat.le_refl _

theorem Desk.Followed.attached (followed : d.Followed who nodes) {slot idx sequence : Nat}
    (free : d.peers idx = none) (inside : idx < LOOP_MAX_REPLICAS) (some' : who d.trace < nodes)
    (fits : attachFits who nodes (.attached slot idx sequence) d.trace = true) :
    (((d.setParty slot { d.party slot with replica := some idx, sendBuf := [] }).setPeer
      idx (some sequence)).note (.attached slot idx sequence)).Followed who nodes := by
  have busy {other : Nat} (present : d.peers other ≠ none) : idx ≠ other := by
    intro same
    rw [← same] at present
    exact present free
  have here : holder who idx (.attached slot idx sequence :: d.trace) = some (who d.trace) :=
    if_pos rfl
  have there {other : Nat} (differ : idx ≠ other) :
      holder who other (.attached slot idx sequence :: d.trace) = holder who other d.trace :=
    if_neg differ
  have own {other : Nat} {at' : Nat} (of : ((d.setParty slot
      { d.party slot with replica := some idx, sendBuf := [] }).party other).replica = some at') :
      (other = slot ∧ at' = idx) ∨ (other ≠ slot ∧ (d.party other).replica = some at') := by
    by_cases same : other = slot
    · rw [same, show (d.setParty slot { d.party slot with
        replica := some idx, sendBuf := [] }).party slot = _ from if_pos rfl] at of
      cases of
      exact Or.inl ⟨same, rfl⟩
    · rw [show (d.setParty slot { d.party slot with
        replica := some idx, sendBuf := [] }).party other = _ from if_neg same] at of
      exact Or.inr ⟨same, of⟩
  constructor
  · exact followed.want
  · intro other at' of
    change (if at' = idx then some sequence else d.peers at') ≠ none ∧
      holder who at' (.attached slot idx sequence :: d.trace) =
        if slot = other then some (who d.trace) else nodeOn who other d.trace
    rcases own of with ⟨same, same'⟩ | ⟨differ, of⟩
    · rw [same, same', if_pos rfl, if_pos rfl, here]
      exact ⟨Option.some_ne_none _, rfl⟩
    · obtain ⟨present, holds⟩ := followed.own other at' of
      rw [if_neg (Ne.symm (busy present)), if_neg (Ne.symm differ), there (busy present)]
      exact ⟨present, holds⟩
  · intro one other at' of of'
    rcases own of with ⟨same, same'⟩ | ⟨differ, of⟩
    · rcases own of' with ⟨same2, _⟩ | ⟨_, of'⟩
      · rw [same, same2]
      · rw [same'] at of'
        exact absurd rfl (busy (followed.own other idx of').1)
    · rcases own of' with ⟨_, same'⟩ | ⟨_, of'⟩
      · rw [same'] at of
        exact absurd rfl (busy (followed.own one idx of).1)
      · exact followed.alone one other at' of of'
  · intro other present
    by_cases same : other = idx
    · rw [same]
      exact inside
    · apply followed.inside other
      change (if other = idx then some sequence else d.peers other) ≠ none at present
      rw [if_neg same] at present
      exact present
  · intro other vacant
    change (if other = idx then some sequence else d.peers other) = none at vacant
    change holder who other (.attached slot idx sequence :: d.trace) = none
    by_cases same : other = idx
    · rw [if_pos same] at vacant
      cases vacant
    · rw [if_neg same] at vacant
      rw [there (Ne.symm same)]
      exact followed.vacant other vacant
  · intro other value present
    change (if other = idx then some sequence else d.peers other) = some value at present
    change ∃ node < nodes, holder who other (.attached slot idx sequence :: d.trace) = some node ∧
      value ≤ confirmedBy who node (.attached slot idx sequence :: d.trace)
    by_cases same : other = idx
    · rw [if_pos same] at present
      cases present
      rw [same]
      refine ⟨who d.trace, some', here, ?_⟩
      change sequence ≤ if who d.trace = who d.trace then max sequence _ else _
      rw [if_pos rfl]
      exact Nat.le_max_left _ _
    · rw [if_neg same] at present
      obtain ⟨node, inside', holds, below⟩ := followed.named other value present
      refine ⟨node, inside', ?_, Nat.le_trans below (confirmedBy_attached slot idx sequence _ _)⟩
      rw [there (Ne.symm same)]
      exact holds
  · rcases of_decide_eq_true fits with few | absent
    · exact Or.inl few
    · rcases followed.distinct with few | distinct
      · exact Or.inl few
      · right
        have fresh {other : Nat} (differ : idx ≠ other)
            (holds : holder who other d.trace = some (who d.trace)) : False := by
          by_cases vacant : d.peers other = none
          · rw [followed.vacant other vacant] at holds
            cases holds
          · exact absent other (List.mem_range.mpr (followed.inside other vacant)) holds
        intro one other node first second
        change holder who one (.attached slot idx sequence :: d.trace) = some node at first
        change holder who other (.attached slot idx sequence :: d.trace) = some node at second
        by_cases same : idx = one
        · by_cases same' : idx = other
          · rw [← same, ← same']
          · rw [← same, here] at first
            cases first
            rw [there same'] at second
            exact absurd second (fresh same')
        · rw [there same] at first
          by_cases same' : idx = other
          · rw [← same', here] at second
            cases second
            exact absurd first (fresh same)
          · rw [there same'] at second
            exact distinct one other node first second
  · intro node inside'
    exact Nat.le_trans (followed.floor node inside') (confirmedBy_attached slot idx sequence _ _)

theorem Desk.Followed.confirmed (followed : d.Followed who nodes) {slot idx : Nat}
    (sequence : Nat) (of : (d.party slot).replica = some idx) :
    ((d.setPeer idx ((d.peers idx).map (fun _ => sequence))).note
      (.confirmed slot idx sequence)).Followed who nodes := by
  have peer (other : Nat) : (d.setPeer idx ((d.peers idx).map (fun _ => sequence))).peers other =
      none ↔ d.peers other = none := by
    change (if other = idx then (d.peers idx).map (fun _ => sequence) else d.peers other) = none ↔ _
    by_cases same : other = idx
    · rw [if_pos same, same, Option.map_eq_none_iff]
    · rw [if_neg same]
  obtain ⟨_present, holds⟩ := followed.own slot idx of
  constructor
  · exact followed.want
  · intro other at' of'
    obtain ⟨present, same⟩ := followed.own other at' of'
    exact ⟨fun vacant => present ((peer at').mp vacant), same⟩
  · exact followed.alone
  · exact fun other present => followed.inside other (fun vacant => present ((peer other).mpr vacant))
  · exact fun other vacant => followed.vacant other ((peer other).mp vacant)
  · intro other value present
    change (if other = idx then (d.peers idx).map (fun _ => sequence) else d.peers other) =
      some value at present
    by_cases same : other = idx
    · rw [if_pos same] at present
      obtain ⟨old, before, now⟩ := Option.map_eq_some_iff.mp present
      obtain ⟨node, inside, at', _below⟩ := followed.named idx old before
      rw [same, ← now]
      refine ⟨node, inside, at', ?_⟩
      change sequence ≤ if nodeOn who slot d.trace = some node then
        max sequence (confirmedBy who node d.trace) else _
      rw [if_pos (holds.symm.trans at')]
      exact Nat.le_max_left _ _
    · rw [if_neg same] at present
      obtain ⟨node, inside, at', below⟩ := followed.named other value present
      exact ⟨node, inside, at', Nat.le_trans below (confirmedBy_confirmed slot idx sequence _ _)⟩
  · exact followed.distinct
  · intro node inside
    exact Nat.le_trans (followed.floor node inside) (confirmedBy_confirmed slot idx sequence _ _)

theorem Desk.Followed.detached (followed : d.Followed who nodes) {slot idx : Nat}
    (of : (d.party slot).replica = some idx) :
    (((d.setParty slot { d.party slot with replica := none }).setPeer idx none).note
      (.detached idx)).Followed who nodes := by
  have own {other at' : Nat} (of' : ((d.setParty slot
      { d.party slot with replica := none }).party other).replica = some at') :
      (d.party other).replica = some at' ∧ at' ≠ idx := by
    by_cases same : other = slot
    · rw [same, show (d.setParty slot { d.party slot with replica := none }).party slot = _
        from if_pos rfl] at of'
      cases of'
    · rw [show (d.setParty slot { d.party slot with replica := none }).party other = _
        from if_neg same] at of'
      refine ⟨of', fun here => same ?_⟩
      rw [here] at of'
      exact followed.alone other slot idx of' of
  constructor
  · exact followed.want
  · intro other at' of'
    change (if at' = idx then none else d.peers at') ≠ none ∧
      (if idx = at' then none else holder who at' d.trace) = nodeOn who other d.trace
    obtain ⟨before, differ⟩ := own of'
    rw [if_neg differ, if_neg (Ne.symm differ)]
    exact followed.own other at' before
  · exact fun one other at' first second => followed.alone one other at' (own first).1 (own second).1
  · intro other present
    change (if other = idx then none else d.peers other) ≠ none at present
    by_cases same : other = idx
    · rw [if_pos same] at present
      exact absurd rfl present
    · rw [if_neg same] at present
      exact followed.inside other present
  · intro other vacant
    change (if other = idx then none else d.peers other) = none at vacant
    change (if idx = other then none else holder who other d.trace) = none
    by_cases same : other = idx
    · rw [if_pos same.symm]
    · rw [if_neg same] at vacant
      rw [if_neg (Ne.symm same)]
      exact followed.vacant other vacant
  · intro other value present
    change (if other = idx then none else d.peers other) = some value at present
    change ∃ node < nodes, (if idx = other then none else holder who other d.trace) = some node ∧
      value ≤ confirmedBy who node d.trace
    by_cases same : other = idx
    · rw [if_pos same] at present
      cases present
    · rw [if_neg same] at present
      rw [if_neg (Ne.symm same)]
      exact followed.named other value present
  · rcases followed.distinct with few | distinct
    · exact Or.inl few
    · right
      intro one other node first second
      change (if idx = one then none else holder who one d.trace) = some node at first
      change (if idx = other then none else holder who other d.trace) = some node at second
      split at first
      · cases first
      · split at second
        · cases second
        · exact distinct one other node first second
  · exact followed.floor

/-- What a full set of replicas has confirmed, every node has. -/
theorem Desk.Followed.full (followed : d.Followed who nodes) (some' : 1 ≤ nodes)
    (few : nodes ≤ LOOP_MAX_REPLICAS) (full : nodes ≤ d.lowest.2) :
    ∀ node < nodes, d.lowest.1 ≤ confirmedBy who node d.trace := by
  have spelled : d.lowest = (match d.peers 0, d.peers 1 with
      | none, none => (0, 0)
      | some a, none => (a, 1)
      | none, some b => (b, 1)
      | some a, some b => (if b < a then b else a, 2)) := by
    unfold Desk.lowest LOOP_MAX_REPLICAS
    change List.foldl _ (0, 0) [0, 1] = _
    cases first : d.peers 0 <;> cases second : d.peers 1 <;> simp [first, second]
  have max : nodes ≤ 2 := few
  rw [spelled] at full ⊢
  intro node inside
  cases first : d.peers 0 with
  | none =>
      cases second : d.peers 1 with
      | none =>
          rw [first, second] at full
          change nodes ≤ 0 at full
          omega
      | some b =>
          rw [first, second] at full
          change nodes ≤ 1 at full
          obtain ⟨node', inside', _, below⟩ := followed.named 1 b second
          rw [show node = node' by omega]
          exact below
  | some a =>
      obtain ⟨node1, inside1, holds1, below1⟩ := followed.named 0 a first
      cases second : d.peers 1 with
      | none =>
          rw [first, second] at full
          change nodes ≤ 1 at full
          rw [show node = node1 by omega]
          exact below1
      | some b =>
          obtain ⟨node2, inside2, holds2, below2⟩ := followed.named 1 b second
          change (if b < a then b else a) ≤ confirmedBy who node d.trace
          have lower : (if b < a then b else a) ≤ a ∧ (if b < a then b else a) ≤ b := by
            split <;> omega
          have known : node = node1 ∨ node = node2 := by
            rcases followed.distinct with single | distinct
            · left
              omega
            · have differ : node1 ≠ node2 := by
                intro same
                rw [same] at holds1
                exact absurd (distinct 0 1 node2 holds1 holds2) (by decide)
              omega
          rcases known with same | same
          · rw [same]
            omega
          · rw [same]
            omega

theorem Desk.Followed.raised (followed : d.Followed who nodes) (some' : 1 ≤ nodes)
    (few : nodes ≤ LOOP_MAX_REPLICAS) : d.raised.Followed who nodes := by
  unfold Desk.raised
  split
  · exact followed
  · rename_i rises
    rw [followed.want] at rises
    have full : nodes ≤ d.lowest.2 := by omega
    exact { followed with floor := followed.full some' few full }

theorem Desk.Followed.deal (followed : d.Followed who nodes) (some' : 1 ≤ nodes)
    (few : nodes ≤ LOOP_MAX_REPLICAS) (inside : ∀ earlier, who earlier < nodes) (deal : Deal d d')
    (meets : AttachFits who nodes d'.trace) : d'.Followed who nodes := by
  have same : SameNodes who d.trace d.trace := ⟨fun _ => rfl, fun _ => rfl, fun _ => rfl⟩
  cases deal with
  | attached dispatching leading free inside' =>
      exact followed.attached free inside' (inside _) meets.newest
  | confirmed sequence dispatching of => exact followed.confirmed sequence of
  | detached arming of => exact followed.detached of
  | raised => exact followed.raised some' few
  | opened | released =>
      refine followed.kept rfl rfl rfl (fun other idx => replica_setParty (fun idx of => ?_) other idx)
        { same with }
      cases of
  | joined =>
      refine followed.kept rfl rfl rfl (fun other idx => replica_setParty (fun idx of => ?_) other idx)
        { same with }
      exact of
  | resent | stored =>
      refine followed.kept rfl rfl rfl (fun other idx => replica_setParty (fun idx of => ?_) other idx)
        { same with }
      rw [owe_replica] at of
      exact of
  | answeredLocal room sent | answeredRepl room sent =>
      refine followed.kept rfl rfl rfl (fun other idx => replica_setParty (fun idx of => ?_) other idx)
        { same with }
      exact of
  | _ => exact followed.kept rfl rfl rfl (fun _ _ of => of) { same with }

theorem starts_followed {config : Config} {recs : List WalRec} (blank : d.Blank config recs)
    (leads : config.leader = none) (few : config.replicas ≤ LOOP_MAX_REPLICAS) :
    d.Followed who config.replicas := by
  have alone (slot idx : Nat) (of : (d.party slot).replica = some idx) : False := by
    rw [blank.party slot] at of
    cases of
  have empty (idx : Nat) : holder who idx d.trace = none := by
    rw [blank.trace]
    rfl
  constructor
  · rw [blank.want leads]
    omega
  · exact fun slot idx of => (alone slot idx of).elim
  · exact fun slot other idx of _ => (alone slot idx of).elim
  · exact fun idx present => absurd (blank.peers idx) present
  · exact fun idx _ => empty idx
  · intro idx value present
    rw [blank.peers idx] at present
    cases present
  · right
    intro idx other node here
    rw [empty idx] at here
    cases here
  · intro node _
    rw [blank.floor]
    exact Nat.zero_le _

theorem retain_deal (followed : d.Followed who nodes) (some' : 1 ≤ nodes)
    (kept : Traces.Always (RetainKept who nodes) d.trace) (deal : Deal d d') :
    Traces.Always (RetainKept who nodes) d'.trace := by
  cases deal with
  | retained grows held =>
      refine ⟨fun node inside seq below above => ?_, kept⟩
      have floor := followed.floor node inside
      change seq ≤ confirmedBy who node d.trace
      rcases held with same | unwanted | low
      · omega
      · rw [followed.want] at unwanted
        omega
      · omega
  | raised =>
      unfold Desk.raised
      split
      · exact kept
      · exact kept
  | ticked | turned => exact kept
  | _ => exact ⟨trivial, kept⟩

theorem retain_aside {note : Note} (aside : note.aside = true) (earlier : List Note) :
    RetainKept who nodes note earlier := by
  cases note with
  | retained => cases aside
  | _ => trivial

/-- **Where no node attaches while the leader still has an older connection of its own,
retention deletes only what every one of the nodes has confirmed.** -/
theorem retention_waits {config : Config} {l : Loop} {who : List Note → Nat}
    (leads : config.leader = none) (some' : 1 ≤ config.replicas)
    (few : config.replicas ≤ LOOP_MAX_REPLICAS) (inside : ∀ earlier, who earlier < config.replicas)
    (running : Running config l) (meets : AttachFits who config.replicas l.trace) :
    Traces.Always (RetainKept who config.replicas) l.trace := by
  obtain ⟨start, phase, lit, starts, _sound, moves, _resting⟩ := running_moves running
  have keeps : (l.desk phase lit).Followed who config.replicas ∧
      Traces.Always (RetainKept who config.replicas) (l.desk phase lit).trace := by
    refine @deals_keep _ (fun note earlier => attachFits who config.replicas note earlier = true)
      (fun d => d.Followed who config.replicas ∧ Traces.Always (RetainKept who config.replicas) d.trace)
      ?_ ?_ start moves ?_ meets
    · rintro d d' ⟨followed, kept⟩ aside
      exact ⟨followed.aside aside,
        aside.trace.always (fun note trace quiet => retain_aside quiet trace) kept⟩
    · rintro d d' ⟨followed, kept⟩ deal fits
      exact ⟨followed.deal some' few inside deal fits, retain_deal followed some' kept deal⟩
    · obtain ⟨recs, blank⟩ := starts_blank starts
      exact ⟨starts_followed blank leads few, blank.trace ▸ ⟨trivial, trivial⟩⟩
  exact keeps.2

instance RetainKept.decidable (who : List Note → Nat) (nodes : Nat) :
    ∀ note earlier, Decidable (RetainKept who nodes note earlier)
  | note, earlier => by
      cases note with
      | retained before after =>
          exact inferInstanceAs (Decidable (∀ node < nodes, ∀ seq < after, before ≤ seq →
            seq ≤ confirmedBy who node earlier))
      | _ => exact inferInstanceAs (Decidable True)

/-- A leader that keeps one segment and expects two replicas. -/
def leaderOfTwo : Config := ⟨none, 1, 2⟩

/-- Three records are written, one replica streams and confirms them, and a replica that has
them all attaches on another connection. -/
def attachedTwice : List Pass :=
  let write (sequence : Nat) : Bytes := requestBytes MSG_OP_WRITE 0 3 sequence (zeros 16)
  [calmPass [7] [.listen (some true), .listen (some true), .listen (some true)],
    calmPass [7] [arrives 0 (helloBytes 0 ++ write 1 ++ write 2 ++ write 3)],
    calmPass [7] [arrives 1 (requestBytes MSG_OP_REPL_START 0 0 1 [])],
    calmPass [7] [], calmPass [7] [],
    calmPass [7] [arrives 1 (requestBytes MSG_OP_REPL_ACK 0 0 3 [])],
    calmPass [7] [arrives 2 (requestBytes MSG_OP_REPL_START 0 0 4 [])]]

set_option maxRecDepth 8000 in
/-- Where both connections are one node's, the other has nothing of what is deleted. -/
theorem retention_outruns : ¬ ∀ config l (who : List Note → Nat), config.leader = none →
    1 ≤ config.replicas → config.replicas ≤ LOOP_MAX_REPLICAS →
    (∀ earlier, who earlier < config.replicas) → Running config l →
    Traces.Always (RetainKept who config.replicas) l.trace := by
  intro always
  have started : Running leaderOfTwo (leaderOfTwo.fresh 120) :=
    fresh_running leaderOfTwo (by decide +kernel)
  have kept := always _ _ (fun _ => 0) rfl (by decide) (by decide) (fun _ => (by decide))
    (after_running started attachedTwice)
  revert kept
  decide +kernel

/-- The first to attach is one node, and whoever attaches later the other. -/
def firstOrOther (earlier : List Note) : Nat :=
  if earlier.any (fun note => match note with | .attached _ _ _ => true | _ => false) then 1 else 0

set_option maxRecDepth 8000 in
theorem retention_waits_forBoth : Traces.Always (RetainKept firstOrOther 2)
    ((leaderOfTwo.fresh 120).after attachedTwice).trace := by
  refine @retention_waits leaderOfTwo _ firstOrOther rfl (by decide) (by decide) ?_
    (after_running (fresh_running leaderOfTwo (by decide +kernel)) attachedTwice) ?_
  · intro earlier
    unfold firstOrOther
    split <;> decide
  · unfold AttachFits
    decide +kernel

end Msgsrvd

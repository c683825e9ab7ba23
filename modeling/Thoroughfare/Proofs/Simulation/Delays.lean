import Thoroughfare.Proofs.Event.Deliveries
import Thoroughfare.Proofs.Simulation.Driving
import Thoroughfare.Proofs.Simulation.Statistics

/-!
# The delay of a simulation

A table of delays that hears a simulation from its first step knows who is on the road, loses
nothing of what it hears, and takes the seconds of every trip apart without rest: those on the first
link, those of free traffic on the other links, and the delay, which is the same whether it is summed
up over links or over trips.
-/

namespace Thoroughfare

/-! ## What a table hears -/

/-- What the bus tells of a step. -/
def StepRecord.notices (record : StepRecord) : List Notice :=
  Bus.stepNotices record.events record.stats.time

theorem StepRecord.filterMap_notices (records : List StepRecord) :
    (records.flatMap StepRecord.notices).filterMap Notice.event? =
      records.flatMap (·.events) :=
  Bus.filterMap_flatMap_stepNotices StepRecord.events (·.stats.time) records

theorem DelayTable.hearAll_eq (t : DelayTable) (notices : List Notice) :
    t.hearAll notices = t.recordAll (notices.filterMap Notice.event?) := by
  induction notices generalizing t with
  | nil => rfl
  | cons notice rest ih =>
      cases notice with
      | event e => exact ih (t.record e)
      | stepEnd time => exact ih t
      | runEnd time => exact ih t

/-! ## Who is on the road -/

/-- Whether an agent went from one link to another since it departed. -/
def Journal.hasMoved (j : Journal) : Bool :=
  j.present?.any fun o => !o.later.isEmpty

/-- A table has a trip of just those that are on an outing. -/
theorem DelayTable.Accounts.row {free : LinkId → Nat} {t : DelayTable} {id : AgentId}
    {j : Journal} (h : t.Accounts free id j) :
    t.trips[id]?.isSome = j.present?.isSome ∧
      (t.trips[id]?.elim 0 fun trip => trip.onLink?.isSome.toNat) = j.hasMoved.toNat := by
  cases hpresent : j.present? with
  | none =>
      rw [h.idle hpresent, Journal.hasMoved, hpresent]
      exact ⟨rfl, rfl⟩
  | some o =>
      obtain ⟨trip, htrip, htracks⟩ := h.busy o hpresent
      rw [htrip, Journal.hasMoved, hpresent, Option.elim_some, htracks.onLink?_eq]
      refine ⟨rfl, congrArg Bool.toNat ?_⟩
      cases hlater : o.later <;> simp [hlater]

namespace Simulation

variable {α : Type} {s first : Simulation α} {config : Config} {g : Network}
  {agents : List Agent} {records : List StepRecord} {told : List Event}

/-- Whether an agent is en route. -/
def isEnRoute (s : Simulation α) (id : AgentId) : Bool :=
  (s.agent? id).any fun a => a.state = .enRoute

theorem Sound.isEnRoute_eq (h : s.Sound) (id : AgentId) :
    s.isEnRoute id = (s.world.situation id).isUnderWay := by
  have hvalid := City.Sound.valid h id
  rw [isEnRoute, h.agent?_eq]
  change (s.world.situation id).Valid s.network id at hvalid
  cases hsituation : s.world.situation id with
  | absent => rfl
  | resting a k =>
      rw [hsituation] at hvalid
      simp [Situation.agent?, Situation.isUnderWay, hvalid.2.1]
  | waiting a refused =>
      rw [hsituation] at hvalid
      simp [Situation.agent?, Situation.isUnderWay, hvalid.2.1]
  | underWay a held? =>
      rw [hsituation] at hvalid
      simp [Situation.agent?, Situation.isUnderWay, hvalid.2.1]
  | done a =>
      rw [hsituation] at hvalid
      simp [Situation.agent?, Situation.isUnderWay, hvalid.2]

/-- What a table of delays says of a simulation is what was told of it. -/
structure Delayed (s : Simulation α) (g : Network) (agents : List Agent) (told : List Event)
    (t : DelayTable) : Prop where
  /-- The trips that are not over are those of the agents that are en route. -/
  openTrips : t.openTrips = agents.countP fun a => s.isEnRoute a.id
  /-- The drives of an agent are the first legs of its itinerary, and nothing else is told of it in
  traffic but the outing that is not over. -/
  drives : ∀ a ∈ agents,
    (Journal.ofAgent a.id told).events a.id =
        (told.filter fun e => e.agent = a.id).filter (fun e => e.kind.isTravel) ∧
      (Journal.ofAgent a.id told).past.map Drive.route =
        (a.itinerary.legs.take (Journal.ofAgent a.id told).past.length).map Leg.route
  /-- What the completed trips of an agent took is what its drives took. -/
  trips : ∀ a ∈ agents,
    (t.delayOf a.id).SumsUp g.freeFlowSecs (Journal.ofAgent a.id told).past
  /-- The delay of all links is that of all completed trips and of those that are not over. -/
  delay : t.summary.link.delaySecs =
    (t.agents.values.map (·.delaySecs)).sum +
      (t.trips.values.map (·.delaySecs)).sum
  /-- Every entry of a link is a traversal that is over or one that goes on. -/
  traversals : t.summary.link.traversals + agents.countP (fun a =>
      s.isEnRoute a.id && (Journal.ofAgent a.id told).hasMoved) =
    told.countP fun e => e.kind.isMove

variable [Quantity α]

/-- The trips of a table are those of the agents that are en route. -/
theorem History.rows (hs : first.History s told) (h : first.Fresh config g agents)
    {t : DelayTable}
    (haccounts : ∀ id, t.Accounts g.freeFlowSecs id (Journal.ofAgent id told)) (id : AgentId) :
    t.trips[id]?.isSome = s.isEnRoute id ∧
      (t.trips[id]?.elim 0 fun trip => trip.onLink?.isSome.toNat) =
        (s.isEnRoute id && (Journal.ofAgent id told).hasMoved).toNat := by
  obtain ⟨htrip, hmoved⟩ := (haccounts id).row
  have hroad := ((hs.journaled h).drives id).isSome_present?
  rw [← (hs.reachable.sound h.sound).isEnRoute_eq] at hroad
  refine ⟨htrip.trans hroad, hmoved.trans ?_⟩
  rw [← hroad, Journal.hasMoved]
  cases (Journal.ofAgent id told).present? <;> rfl

theorem History.delayed (hs : first.History s told) (h : first.Fresh config g agents)
    (binSecs : Nat) :
    s.Delayed g agents told ((DelayTable.empty g binSecs).recordAll told) := by
  have hjournaled := hs.journaled h
  obtain ⟨haccounts, hbalanced⟩ :=
    DelayTable.accounts_recordAll hjournaled.orderly binSecs
  have hrows := hs.rows h haccounts
  have hroll := h.roll hs.reachable
  have hknown : ∀ (id : AgentId) (trip : OpenTrip),
      ((DelayTable.empty g binSecs).recordAll told).trips[id]? = some trip →
        id ∈ agents.map (·.id) := by
    intro id trip htrip
    have henRoute := (hrows id).1
    rw [htrip, (hs.reachable.sound h.sound).isEnRoute_eq] at henRoute
    refine hroll.mem id fun habsent => ?_
    rw [habsent] at henRoute
    cases henRoute
  refine ⟨?_, fun a ha => ⟨hjournaled.orderly.events_ofAgent a.id, (hs.planned h ha).past⟩,
    fun a ha => (haccounts a.id).totals, hbalanced.delay, ?_⟩
  · rw [DelayTable.openTrips, size_eq_countP hroll.nodup hknown, List.countP_map]
    exact List.countP_congr fun a _ => by rw [Function.comp_apply, (hrows a.id).1]
  · have hsum := sumOver_eq_sum (f := fun trip : OpenTrip => trip.onLink?.isSome.toNat)
      hroll.nodup hknown
    rw [List.map_congr_left fun id _ => (hrows id).2, ← countP_eq_sum, List.countP_map]
      at hsum
    rw [← hbalanced.traversals, hsum]
    rfl

/-- Whatever a simulation that was built comes to, a table of delays that has heard it from its
first step is exact: its open trips are those of the agents that are en route, the seconds of the
completed trips of every agent are those on the first links, those of free traffic on the other
links, and the delay, and the delay and the traversals of all links are those of all trips.  Every
traversal lasted at least as long as in free traffic, so nothing was cut off at zero. -/
theorem delays_are_exact {periodSecs : Float} {positions : List Point} {drafts : List LinkDraft}
    {partitioning? : Option Partitioning}
    (hg : Network.build periodSecs positions drafts = .ok g)
    (hfirst : build config g agents partitioning? = .ok first) (hs : first.Recorded s records)
    (binSecs : Nat) :
    s.Delayed g agents (records.flatMap (·.events))
        ((DelayTable.empty g binSecs).hearAll (records.flatMap StepRecord.notices)) ∧
      ∀ heard e rest, records.flatMap StepRecord.notices = heard ++ .event e :: rest →
        ((DelayTable.empty g binSecs).hearAll heard).LosesNothing g.freeFlowSecs e := by
  have hfresh := fresh_of_build (Network.numbered_of_build hg) hfirst
  have hevents := StepRecord.filterMap_notices records
  constructor
  · rw [DelayTable.hearAll_eq, hevents]
    exact hs.history.delayed hfresh binSecs
  · intro heard e rest hsplit
    have horderly := (hs.history.journaled hfresh).orderly
    rw [← hevents, hsplit, List.filterMap_append] at horderly
    have hheard := DelayTable.accounts_recordAll horderly.of_append binSecs
    rw [DelayTable.hearAll_eq]
    exact (hheard.1 e.agent).losesNothing ((DelayTable.knows_empty g binSecs).recordAll _)
      horderly.allows

/-- A table that hears the run through the hamlet is exact. -/
theorem delays_are_exact_hamlet : ∃ g split last report,
    Network.build Network.standardPeriodSecs Hamlet.places Hamlet.roads = .ok g ∧
      build (α := Rat) Hamlet.config g Hamlet.neighbours.reverse (some Hamlet.halves) =
        .ok split ∧
      split.run (Bus.new 1) false (fun _ => false) = (last, .ok report) ∧
      last.simulation.Delayed g Hamlet.neighbours.reverse
        (last.records.toList.flatMap (·.events))
        ((DelayTable.empty g 60).hearAll (last.records.toList.flatMap StepRecord.notices)) := by
  obtain ⟨g, split, last, report, hg, hsplit, hrun, -⟩ := Hamlet.exists_run
  obtain ⟨hlast, -⟩ := Recorded.start.run hrun
  exact ⟨g, split, last, report, hg, hsplit, hrun, (delays_are_exact hg hsplit hlast 60).1⟩

end Simulation

end Thoroughfare

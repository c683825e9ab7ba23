import Thoroughfare.Simulation.Basic
import Thoroughfare.Simulation.Movement
import Thoroughfare.Simulation.Waking

/-!
# Steps

A step has five phases.  Every district prepares itself and publishes its offers; the offers are
decided in one global order; every district carries out the decisions; the agents that are to
enter a link are handed to its owner; and the events of all districts are published on the bus.
Only the decisions look at more than one district.
-/

namespace Thoroughfare

/-- What a step did, before its events are published. -/
structure Traffic (α : Type) where
  districts : List (District α)
  resolution : Resolution
  /-- The events of every district. -/
  batches : List (List Event)
  boundaryTransfers : Nat

/-- The published events of a step and its counters. -/
structure StepRecord where
  events : List Event
  stats : StepStats
deriving DecidableEq, Repr

namespace Simulation

variable {α : Type}

/-- The number of transfers that leave the district they come from. -/
def boundaryCount (partitioning : Partitioning) (district : PartitionId)
    (transfers : List Transfer) : Nat :=
  transfers.countP fun t => partitioning.linkOwner t.target ≠ district

/-- The first transfer into a link whose owner does not exist. -/
def lostTransfer? (partitioning : Partitioning) (districts : Nat) (transfers : List Transfer) :
    Option Violation :=
  (transfers.find? fun t => districts ≤ (partitioning.linkOwner t.target).index).map fun t =>
    .ownerMissing t.target (partitioning.linkOwner t.target)

/-- The transfers for a district. -/
def inbox (partitioning : Partitioning) (district : PartitionId) (transfers : List Transfer) :
    List Transfer :=
  transfers.filter fun t => partitioning.linkOwner t.target = district

variable [Quantity α]

/-- The room on a link when the step began. -/
def freeAtStart (partitioning : Partitioning) (districts : List (District α)) (link : LinkId) :
    Nat :=
  match queueIn? partitioning districts link with
  | some q => q.freeAtStart
  | none => 0

/-- Do the first four phases of a step. -/
def traffic (s : Simulation α) : Except StepError (Traffic α) := do
  let prepared ← s.districts.mapM fun d => d.prepare s.network s.clock
  let resolution := Resolution.ofOffers
    (freeAtStart s.partitioning (prepared.map (·.1)))
    (Offers.gather (prepared.map (·.2.2)))
  let verdicts := resolution.verdicts
  let settled ← prepared.mapM fun p => p.1.settle s.clock p.2.2 verdicts
  let transfers := settled.flatMap (·.2.transfers)
  if let some violation := lostTransfer? s.partitioning s.districts.length transfers then
    throw (.violation violation)
  let ordered := transfers.mergeSort fun a b => a.seq ≤ b.seq
  let districts ← settled.mapM fun d =>
    d.1.receiveAll s.network s.now (inbox s.partitioning d.1.id ordered)
  return {
    districts := districts
    resolution := resolution
    batches := (prepared.zip settled).map fun entry => entry.1.2.1.events ++ entry.2.2.events
    boundaryTransfers :=
      (settled.map fun d => boundaryCount s.partitioning d.1.id d.2.transfers).foldr (· + ·) 0 }

/-- The counters of a step that did some traffic and published some events. -/
def statsOf (s : Simulation α) (t : Traffic α) (events : Nat) : StepStats where
  tick := s.tick
  time := s.now
  events := events
  departures := t.resolution.departed
  linkMoves := t.resolution.moves
  arrivals := t.resolution.arrivals
  blockedLinks := t.resolution.blockedLinks
  blockedDepartures := t.resolution.blockedDepartures
  enRoute := (t.districts.map District.enRouteCount).foldr (· + ·) 0
  departing := (t.districts.map fun d => d.departing.size).foldr (· + ·) 0
  finished := (t.districts.map fun d => d.finished.size).foldr (· + ·) 0
  boundaryTransfers := t.boundaryTransfers

def afterStep (s : Simulation α) (t : Traffic α) (events : Nat) : Simulation α :=
  { s with
    tick := s.tick + 1
    districts := t.districts
    steps := s.steps + 1
    lastStepTime? := some s.now
    eventsEmitted := s.eventsEmitted + events
    boundaryTransfers := s.boundaryTransfers + t.boundaryTransfers
    warnings := s.warnings ++ t.resolution.warnings s.now }

/-- Process a step and publish its events.  When the bus refuses the events, the agents have moved
but the step does not count. -/
def step (s : Simulation α) (bus : Bus) :
    Simulation α × Except StepError (StepRecord × Bus) :=
  match s.traffic with
  | .error e => (s, .error e)
  | .ok t =>
      match bus.accept t.batches with
      | .error e => ({ s with districts := t.districts }, .error (.order e))
      | .ok (events, bus) =>
          (s.afterStep t events.length, .ok (⟨events, s.statsOf t events.length⟩, bus))

end Simulation

end Thoroughfare

import Thoroughfare.Network.Partition
import Thoroughfare.Simulation.District
import Thoroughfare.Simulation.Error
import Thoroughfare.Simulation.Report

/-!
# Simulations

A simulation is a network, split into districts, with a population of agents and a clock.  It is
built from a valid configuration and from agents with different numbers who all perform their
first activity.
-/

namespace Thoroughfare

/-- A simulation between two steps. -/
structure Simulation (α : Type) where
  config : Config
  valid : config.Valid
  network : Network
  partitioning : Partitioning
  tick : Tick
  districts : List (District α)
  /-- The number of steps so far; skipped ones do not count. -/
  steps : Nat
  lastStepTime? : Option Nat
  eventsEmitted : Nat
  boundaryTransfers : Nat
  warnings : Array CapacityWarning

namespace Simulation

variable {α : Type}

def clock (s : Simulation α) : Clock :=
  ⟨s.config.startSecs, s.config.stepSecs, s.tick⟩

def now (s : Simulation α) : Nat :=
  s.clock.now

/-- The number of agents that are not finished. -/
def liveCount (s : Simulation α) : Nat :=
  (s.districts.map District.liveCount).foldr (· + ·) 0

/-- The number of agents that are finished. -/
def finishedCount (s : Simulation α) : Nat :=
  (s.districts.map fun d => d.finished.size).foldr (· + ·) 0

/-- The number of agents that finished early because a leg could not be driven. -/
def unreachableCount (s : Simulation α) : Nat :=
  (s.districts.map District.unreachable).foldr (· + ·) 0

/-- All agents, finished or not, ascending by number. -/
def agents (s : Simulation α) : List Agent :=
  (s.districts.flatMap District.allAgents).mergeSort fun a b => a.id ≤ b.id

def agent? (s : Simulation α) (id : AgentId) : Option Agent :=
  s.districts.findSome? fun d => d.agent? id

/-- The queue of a link among the districts of a partitioning. -/
def queueIn? (partitioning : Partitioning) (districts : List (District α)) (link : LinkId) :
    Option (LinkQueue α) :=
  districts[(partitioning.linkOwner link).index]?.bind fun d => d.links[link]?

def queue? (s : Simulation α) (link : LinkId) : Option (LinkQueue α) :=
  queueIn? s.partitioning s.districts link

/-- The number of agents on a link; nobody is on an unknown one. -/
def occupancy (s : Simulation α) (link : LinkId) : Nat :=
  match s.queue? link with
  | some q => q.entries.length
  | none => 0

/-- What is to be said when the simulation stops now. -/
def report (s : Simulation α) (reason : EndReason) : Report where
  reason := reason
  finalTime := s.lastStepTime?.getD s.config.startSecs
  steps := s.steps
  events := s.eventsEmitted
  warnings := s.warnings.toList
  boundaryTransfers := s.boundaryTransfers
  finished := s.finishedCount
  unreachable := s.unreachableCount

/-- The first agent that does not fit, when agents with some numbers came before. -/
def agentFault? (seen : Std.ExtTreeMap AgentId Unit) : List Agent → Option SetupFault
  | [] => none
  | a :: rest =>
      if seen.contains a.id then some (.duplicateAgent a.id)
      else if a.state ≠ .atActivity ∨ a.segment ≠ 0 then some (.notAtFirstActivity a.id a.state)
      else agentFault? (seen.insert a.id ()) rest

/-- The partition of an agent that rests at its first activity. -/
def homeOf (partitioning : Partitioning) (a : Agent) : PartitionId :=
  match a.itinerary.firstActivity? with
  | some activity => partitioning.linkOwner activity.link
  | none => ⟨0⟩

/-- The first link or agent whose owner does not exist. -/
def ownerFault? (g : Network) (partitioning : Partitioning) (agents : List Agent) :
    Option SetupFault :=
  match g.links.toList.find? fun l => partitioning.count ≤ (partitioning.linkOwner l.id).index with
  | some l => some (.linkWithoutOwner l.id (partitioning.linkOwner l.id))
  | none =>
      (agents.find? fun a => partitioning.count ≤ (homeOf partitioning a).index).map fun a =>
        .agentWithoutOwner a.id (homeOf partitioning a)

/-- The partitioning to use: the given one if its count is right, or else the one of the standard
partitioner. -/
def choosePartitioning (config : Config) (g : Network) :
    Option Partitioning → Except BuildError Partitioning
  | some p =>
      if p.count = config.partitionCount then .ok p
      else .error (.setup (.otherPartitionCount p.count config.partitionCount))
  | none =>
      match (Partitioner.standard config.partitionCount).split g with
      | .ok p => .ok p
      | .error e => .error (.network e)

variable [Quantity α]

/-- The district of a partition before the first step. -/
def firstDistrict (config : Config) (g : Network) (partitioning : Partitioning)
    (agents : List Agent) (id : PartitionId) : District α :=
  let links := g.links.toList.filter fun l => partitioning.linkOwner l.id = id
  let residents := agents.filter fun a => homeOf partitioning a = id
  let roads := links.foldl
    (fun (d : District α) l => d.addLink (.ofLink l g.periodSecs config)) (.empty id)
  residents.foldl (District.addAgent config.clock) roads

def firstDistricts (config : Config) (g : Network) (partitioning : Partitioning)
    (agents : List Agent) : List (District α) :=
  (List.range partitioning.count).map fun index =>
    firstDistrict config g partitioning agents ⟨index⟩

def build (config : Config) (g : Network) (agents : List Agent)
    (partitioning? : Option Partitioning) : Except BuildError (Simulation α) :=
  match hvalid : config.fault? with
  | some fault => .error (.config fault)
  | none =>
      match agentFault? ∅ agents with
      | some fault => .error (.setup fault)
      | none =>
          match choosePartitioning config g partitioning? with
          | .error e => .error e
          | .ok partitioning =>
              match ownerFault? g partitioning agents with
              | some fault => .error (.setup fault)
              | none =>
                  .ok {
                    config := config
                    valid := hvalid
                    network := g
                    partitioning := partitioning
                    tick := 0
                    districts := firstDistricts config g partitioning agents
                    steps := 0
                    lastStepTime? := none
                    eventsEmitted := 0
                    boundaryTransfers := 0
                    warnings := #[] }

end Simulation

end Thoroughfare

import Thoroughfare.Event.Bus
import Thoroughfare.Plan.Agent
import Thoroughfare.Road.LinkQueue

/-!
# What can go wrong

A simulation is refused before it starts if its configuration, its agents or its partitioning do
not fit.  A step can fail only if one part of the simulation breaks its contract with another.
-/

namespace Thoroughfare

/-- Why agents or a partitioning do not fit a simulation. -/
inductive SetupFault where
  | duplicateAgent (agent : AgentId)
  | notAtFirstActivity (agent : AgentId) (state : AgentState)
  | otherPartitionCount (got wanted : Nat)
  | linkWithoutOwner (link : LinkId) (owner : PartitionId)
  | agentWithoutOwner (agent : AgentId) (owner : PartitionId)
deriving DecidableEq, Repr

def SetupFault.message : SetupFault → String
  | duplicateAgent agent => "duplicate agent id " ++ agent.text
  | notAtFirstActivity agent state =>
      agent.text ++ " is not at its first activity (" ++ state.label ++ ")"
  | otherPartitionCount got wanted =>
      "partitioning has " ++ toString got ++ " partitions, config asks for " ++ toString wanted
  | linkWithoutOwner link owner => link.text ++ " assigned to missing " ++ owner.text
  | agentWithoutOwner agent owner => agent.text ++ " assigned to missing " ++ owner.text

/-- Why a simulation is refused. -/
inductive BuildError where
  | setup (fault : SetupFault)
  | config (fault : ConfigFault)
  | network (error : NetworkError)
deriving Repr

def BuildError.message : BuildError → String
  | setup fault => "simulation configuration error: " ++ fault.message
  | config fault => "core error: configuration error: " ++ fault.message
  | network error => "network error: " ++ error.message

/-- A broken contract between the parts of a simulation. -/
inductive Violation where
  | queuedStranger (agent : AgentId) (link : LinkId) (district : PartitionId)
  | wokeStranger (agent : AgentId) (district : PartitionId)
  | wokeBusy (agent : AgentId) (state : AgentState)
  | noLegAfter (agent : AgentId) (segment : Nat)
  | departingNowhere (agent : AgentId) (district : PartitionId)
  | offeredForeign (district : PartitionId) (link : LinkId)
  | headChanged (link : LinkId) (found offered : AgentId)
  | arrivingStranger (agent : AgentId) (district : PartitionId)
  | unnumberedMove (agent : AgentId)
  | movingStranger (agent : AgentId) (district : PartitionId)
  | leftItsRoute (agent : AgentId) (offered taken : LinkId)
  | departingStranger (agent : AgentId) (district : PartitionId)
  | ownerMissing (link : LinkId) (owner : PartitionId)
  | receivedForeign (district : PartitionId) (link : LinkId)
  | refusedReserved (agent : AgentId) (link : LinkId)
deriving DecidableEq, Repr

def Violation.message : Violation → String
  | queuedStranger agent link district =>
      agent.text ++ " queued on " ++ link.text ++ " but not held by " ++ district.text
  | wokeStranger agent district => "woke unknown " ++ agent.text ++ " in " ++ district.text
  | wokeBusy agent state => "woke " ++ agent.text ++ " while " ++ state.label
  | noLegAfter agent segment =>
      agent.text ++ " has no leg after activity " ++ toString segment
  | departingNowhere agent district =>
      "departing " ++ agent.text ++ " has no link in " ++ district.text
  | offeredForeign district link => district.text ++ " offered foreign " ++ link.text
  | headChanged link found offered =>
      link.text ++ " head changed between offer and commit: " ++ found.text ++ " vs " ++
        offered.text
  | arrivingStranger agent district =>
      "arriving " ++ agent.text ++ " not held by " ++ district.text
  | unnumberedMove agent => "accepted move of " ++ agent.text ++ " has no seq"
  | movingStranger agent district => agent.text ++ " vanished from " ++ district.text
  | leftItsRoute agent offered taken =>
      agent.text ++ " offered " ++ offered.text ++ " but routes to " ++ taken.text
  | departingStranger agent district =>
      "departing " ++ agent.text ++ " vanished from " ++ district.text
  | ownerMissing link owner =>
      link.text ++ " owned by missing partition " ++ toString owner.index
  | receivedForeign district link =>
      district.text ++ " received transfer for foreign " ++ link.text
  | refusedReserved agent link =>
      agent.text ++ " refused by " ++ link.text ++ " after reservation"

/-- Why a step fails. -/
inductive StepError where
  | violation (v : Violation)
  | transition (e : IllegalTransition)
  | queue (fault : QueueFault)
  | order (e : OutOfOrder)
deriving DecidableEq, Repr

def StepError.message : StepError → String
  | violation v => "invariant violation: " ++ v.message
  | transition e => "agent error: " ++ e.message
  | queue fault => "link queue error: " ++ fault.message
  | order e => "event error: " ++ e.message

/-- Let a refused transition fail the step. -/
def StepError.ofTransition {ε : Type} : Except IllegalTransition ε → Except StepError ε
  | .ok result => .ok result
  | .error e => .error (.transition e)

end Thoroughfare

import Std.Data.ExtTreeMap
import Thoroughfare.Plan.Agent
import Thoroughfare.Plan.WakeQueue
import Thoroughfare.Road.LinkQueue

/-!
# Districts

A district is the part of a simulation that one partition owns: its links, the agents on them or
resting at them, and their wake-ups.  An agent lives in the district of its present link and
changes the district only together with the link.
-/

namespace Thoroughfare

/-- The links and agents of one partition. -/
structure District (α : Type) where
  id : PartitionId
  links : Std.ExtTreeMap LinkId (LinkQueue α)
  /-- The agents that are not finished. -/
  agents : Std.ExtTreeMap AgentId Agent
  wakeUps : WakeQueue
  /-- The agents that wait to enter their first link, and whether they were refused before. -/
  departing : Std.ExtTreeMap AgentId Bool
  /-- Queued agents whose move was refused, with the link that was full. -/
  held : Std.ExtTreeMap AgentId LinkId
  finished : Std.ExtTreeMap AgentId Agent
  /-- How many of the finished agents had a leg that could not be driven. -/
  unreachable : Nat

namespace District

variable {α : Type}

def empty (id : PartitionId) : District α :=
  ⟨id, ∅, ∅, .empty, ∅, ∅, ∅, 0⟩

def addLink (d : District α) (q : LinkQueue α) : District α :=
  { d with links := d.links.insert q.link q }

/-- When an agent that rests since before the start is woken first. -/
def firstWakeUp (clock : Clock) (a : Agent) : Tick :=
  match a.activityEnd? with
  | some secs => clock.tickAtOrAfter secs
  | none => 0

/-- Take in a resting agent and leave word to wake it when its activity ends. -/
def addAgent (clock : Clock) (d : District α) (a : Agent) : District α :=
  { d with
    agents := d.agents.insert a.id a
    wakeUps := d.wakeUps.push (firstWakeUp clock a) a.id }

def liveCount (d : District α) : Nat :=
  d.agents.size

/-- The number of agents on links. -/
def enRouteCount (d : District α) : Nat :=
  d.links.foldl (fun count _ q => count + q.entries.length) 0

/-- Whether nobody is on a link or waits to depart. -/
def isQuiescent (d : District α) : Bool :=
  d.departing.isEmpty && d.links.all fun _ q => q.entries.isEmpty

def allAgents (d : District α) : List Agent :=
  d.agents.values ++ d.finished.values

def agent? (d : District α) (id : AgentId) : Option Agent :=
  d.agents[id]? <|> d.finished[id]?

/-- Put an agent away for good. -/
def archive (d : District α) (a : Agent) : District α :=
  { d with agents := d.agents.erase a.id, finished := d.finished.insert a.id a }

/-- Replace an agent by its new state. -/
def keep (d : District α) (a : Agent) : District α :=
  { d with agents := d.agents.insert a.id a }

variable [Quantity α]

/-- Begin a step on every link. -/
def beginStep (d : District α) : District α :=
  { d with links := d.links.map fun _ q => q.beginStep }

/-- Let a number of steps pass on every link. -/
def idle (d : District α) (steps : Nat) : District α :=
  { d with links := d.links.map fun _ q => q.idle steps }

end District

end Thoroughfare

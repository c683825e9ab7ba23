import Thoroughfare.Simulation.Effects
import Thoroughfare.Simulation.Resolution

/-!
# Movement

After the offers of a step are decided, each district carries out what concerns it: granted
agents leave their links, and those whose leg is over start the next activity.  Everyone who is to
enter a link is handed to the district that owns it, which takes them in in the order of the
decisions.
-/

namespace Thoroughfare

/-- What an agent does after it left the network. -/
structure Landing where
  agent : Agent
  /-- The link of the arrival. -/
  link : LinkId
  /-- The link of the next activity. -/
  activityLink : LinkId
  /-- When it is to be woken; none if its day is over. -/
  wakeUp? : Option Tick

/-- Leave the network and start the next activity.  An activity that is over already ends in the
next step; a last activity that never ends is complete at once. -/
def Agent.land (clock : Clock) (a : Agent) : Except StepError Landing := do
  let (link, a) ← StepError.ofTransition a.arrive
  let (activityLink, a) ← StepError.ofTransition (a.startActivity clock.now)
  if a.activityEnd?.isNone && a.atFinalActivity then
    let a ← StepError.ofTransition a.finish
    return ⟨a, link, activityLink, none⟩
  else
    let due := clock.tickAtOrAfter (a.activityEnd?.getD clock.now)
    return ⟨a, link, activityLink, some (max due (clock.tick + 1))⟩

namespace District

variable {α : Type}

/-- Let an agent leave the network. -/
def arrive (clock : Clock) (d : District α) (id : AgentId) :
    Except StepError (District α × Effects) :=
  match d.agents[id]? with
  | none => .error (.violation (.arrivingStranger id d.id))
  | some a =>
      match a.land clock with
      | .error e => .error e
      | .ok landing =>
          let events : List Event :=
            [⟨clock.now, id, .arrival landing.link⟩,
              ⟨clock.now, id, .activityStart landing.activityLink⟩]
          match landing.wakeUp? with
          | none =>
              .ok (d.archive landing.agent, .ofEvents (events ++ [⟨clock.now, id, .finished⟩]))
          | some tick =>
              .ok ({ d.keep landing.agent with wakeUps := d.wakeUps.push tick id },
                .ofEvents events)

/-- Send an agent from its link to the next one. -/
def moveOn (clock : Clock) (d : District α) (id : AgentId) (target : LinkId) (seq : Nat) :
    Except StepError (District α × Effects) :=
  match d.agents[id]? with
  | none => .error (.violation (.movingStranger id d.id))
  | some a =>
      match a.advanceLink with
      | .error e => .error (.transition e)
      | .ok ((left, entered), a) =>
          if entered ≠ target then .error (.violation (.leftItsRoute id target entered))
          else
            .ok ({ d with agents := d.agents.erase id, held := d.held.erase id },
              ⟨[⟨clock.now, id, .linkEnter left entered⟩], [⟨seq, some left, entered, a⟩]⟩)

def sendOff (clock : Clock) (d : District α) (id : AgentId) (seq : Nat) :
    Except StepError (District α × Effects) :=
  match d.agents[id]? with
  | none => .error (.violation (.departingStranger id d.id))
  | some a =>
      match a.enterNetwork with
      | .error e => .error (.transition e)
      | .ok (link, a) =>
          .ok ({ d with agents := d.agents.erase id, departing := d.departing.erase id },
            ⟨[⟨clock.now, id, .departure link⟩], [⟨seq, none, link, a⟩]⟩)

/-- Carry out a grant for the agent that left the queue. -/
def carryOut (clock : Clock) (link : LinkId) (d : District α) (entry : QueuedAgent × Grant) :
    Except StepError (District α × Effects) :=
  if entry.1.agent ≠ entry.2.agent then
    .error (.violation (.headChanged link entry.1.agent entry.2.agent))
  else
    match entry.2 with
    | .arrive agent => d.arrive clock agent
    | .move agent _ none => .error (.violation (.unnumberedMove agent))
    | .move agent target (some seq) => d.moveOn clock agent target seq

/-- Remember a refused move. -/
def hold (d : District α) : Option Refusal → District α
  | none => d
  | some refusal => { d with held := d.held.insert refusal.agent refusal.target }

/-- Carry out the decision on a departure: the agent departs, or its refusal is remembered. -/
def settleDeparture (clock : Clock) (d : District α) (entry : AgentId × DepartureVerdict) :
    Except StepError (District α × Effects) :=
  match entry.2.seq? with
  | some seq => d.sendOff clock entry.1 seq
  | none => .ok ({ d with departing := d.departing.insert entry.1 true }, .none)

variable [Quantity α]

/-- Carry out the decision on a link: its granted agents leave the queue. -/
def settleLink (clock : Clock) (d : District α) (entry : LinkId × LinkVerdict) :
    Except StepError (District α × Effects) :=
  match d.links[entry.1]? with
  | none => .error (.violation (.offeredForeign d.id entry.1))
  | some q =>
      match q.release entry.2.grants.length clock.now with
      | .error fault => .error (.queue fault)
      | .ok (released, q) =>
          treatAll (carryOut clock entry.1)
            ({ d with links := d.links.insert entry.1 q }.hold entry.2.refusal?)
            (released.zip entry.2.grants)

/-- The decisions on the links with offers. -/
def linkVerdicts (o : Offers) (v : Verdicts) : List (LinkId × LinkVerdict) :=
  o.links.filterMap fun entry => v.links[entry.1]?.map fun verdict => (entry.1, verdict)

/-- The decisions on the agents that wait to depart in a district. -/
def departureVerdicts (d : District α) (v : Verdicts) : List (AgentId × DepartureVerdict) :=
  v.departures.filter fun entry => d.departing.contains entry.1

/-- Carry out the decisions on everything that a district offered. -/
def settle (clock : Clock) (d : District α) (o : Offers) (v : Verdicts) :
    Except StepError (District α × Effects) := do
  let (after, moves) ← treatAll (settleLink clock) d (linkVerdicts o v)
  let (after, departures) ← treatAll (settleDeparture clock) after (d.departureVerdicts v)
  return (after, moves ++ departures)

/-- Take in an agent that enters one of the links. -/
def receive (g : Network) (now : Nat) (d : District α) (t : Transfer) :
    Except StepError (District α) :=
  match d.links[t.target]? with
  | none => .error (.violation (.receivedForeign d.id t.target))
  | some q =>
      match q.enter g t.agent.id t.source? now with
      | .error fault => .error (.queue fault)
      | .ok (.rejected agent) => .error (.violation (.refusedReserved agent t.target))
      | .ok (.entered q) =>
          .ok { d with
            links := d.links.insert t.target q
            agents := d.agents.insert t.agent.id t.agent }

def receiveAll (g : Network) (now : Nat) (d : District α) (transfers : List Transfer) :
    Except StepError (District α) :=
  transfers.foldlM (receive g now) d

end District

end Thoroughfare

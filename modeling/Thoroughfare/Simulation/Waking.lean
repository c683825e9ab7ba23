import Thoroughfare.Plan.Route
import Thoroughfare.Simulation.Effects
import Thoroughfare.Simulation.Offer

/-!
# Waking and offering

At the beginning of a step a district wakes the agents whose activity is over.  One at its last
activity finishes; one whose next leg can be driven waits to depart; one whose next leg cannot be
driven is stranded and finishes too.  Then the district says who wants to move.
-/

namespace Thoroughfare

/-- What an agent does after its activity. -/
inductive Awakening where
  | finishes (agent : Agent)
  | leaves (link : LinkId) (agent : Agent)
  | stranded (culprit : LinkId) (agent : Agent)

/-- What a resting agent does when it is woken. -/
def Agent.awaken (g : Network) (a : Agent) : Except StepError Awakening :=
  if a.state ≠ .atActivity then .error (.violation (.wokeBusy a.id a.state))
  else if a.atFinalActivity then (StepError.ofTransition a.finish).map .finishes
  else
    match a.currentLink?, a.nextLeg?, a.itinerary.activity? (a.segment + 2) with
    | some origin, some leg, some next =>
        match Route.culprit? g origin next.link leg.route with
        | none => (StepError.ofTransition a.endActivity).map fun result => .leaves origin result.2
        | some culprit => (StepError.ofTransition a.abort).map (.stranded culprit)
    | _, _, _ => .error (.violation (.noLegAfter a.id a.segment))

namespace District

variable {α : Type}

def wake (g : Network) (clock : Clock) (d : District α) (id : AgentId) :
    Except StepError (District α × Effects) :=
  match d.agents[id]? with
  | none => .error (.violation (.wokeStranger id d.id))
  | some a =>
      match a.awaken g with
      | .error e => .error e
      | .ok (.finishes a) => .ok (d.archive a, .ofEvents [⟨clock.now, id, .finished⟩])
      | .ok (.leaves link a) =>
          .ok ({ d.keep a with departing := d.departing.insert id false },
            .ofEvents [⟨clock.now, id, .activityEnd link⟩])
      | .ok (.stranded culprit a) =>
          .ok ({ d.archive a with unreachable := d.unreachable + 1 },
            .ofEvents [⟨clock.now, id, .stranded culprit⟩])

def wakeDue (g : Network) (clock : Clock) (d : District α) :
    Except StepError (District α × Effects) :=
  let (due, later) := d.wakeUps.drainDue clock.tick
  treatAll (wake g clock) { d with wakeUps := later } due

/-- What an agent at the front of a link wants. -/
def offerOf (d : District α) (link : LinkId) (entry : QueuedAgent) : Except StepError Offer :=
  match d.agents[entry.agent]? with
  | none => .error (.violation (.queuedStranger entry.agent link d.id))
  | some a =>
      match a.nextLink? with
      | none => .ok (.arrive entry.agent)
      | some target => .ok (.move entry.agent target (d.held[entry.agent]? ≠ some target))

/-- What an agent that waits to depart wants; it is a first attempt unless it was refused
before. -/
def departureOf (d : District α) (entry : AgentId × Bool) :
    Except StepError (AgentId × DepartureOffer) :=
  match d.agents[entry.1]?.bind Agent.currentLink? with
  | none => .error (.violation (.departingNowhere entry.1 d.id))
  | some link => .ok (entry.1, ⟨link, !entry.2⟩)

variable [Quantity α]

/-- The links with agents that may leave, and these agents. -/
def readyLinks (d : District α) (now : Nat) : List (LinkId × List QueuedAgent) :=
  d.links.toList.filterMap fun entry =>
    match entry.2.offer now with
    | [] => none
    | first :: rest => some (entry.1, first :: rest)

/-- Everything that the agents of a district want in a step. -/
def offers (d : District α) (now : Nat) : Except StepError Offers := do
  let departures ← d.departing.toList.mapM d.departureOf
  let links ← (d.readyLinks now).mapM fun entry => do
    let offers ← entry.2.mapM (d.offerOf entry.1)
    return (entry.1, offers)
  return ⟨links, departures⟩

/-- Begin a step: gain flow credit, wake who is due and say who wants to move. -/
def prepare (g : Network) (clock : Clock) (d : District α) :
    Except StepError (District α × Effects × Offers) := do
  let (d, effects) ← d.beginStep.wakeDue g clock
  let offers ← d.offers clock.now
  return (d, effects, offers)

end District

end Thoroughfare

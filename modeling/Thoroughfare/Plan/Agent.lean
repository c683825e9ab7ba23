import Thoroughfare.Plan.Itinerary

/-!
# Agents

An agent works through its itinerary: it performs an activity, departs, is en route from link to
link, arrives and starts the next activity.  It changes only by the transitions below; one that
is not allowed in the present state is refused.

The order of a trip is departing, en route, arriving.  Finished agents stay finished.
-/

namespace Thoroughfare

/-- What an agent is doing. -/
inductive AgentState where
  | atActivity
  | departing
  | enRoute
  | arriving
  | finished
deriving DecidableEq, Repr

namespace AgentState

def label : AgentState → String
  | atActivity => "at_activity"
  | departing => "departing"
  | enRoute => "en_route"
  | arriving => "arriving"
  | finished => "finished"

/-- The name of a state in capitals. -/
def title : AgentState → String
  | atActivity => "AtActivity"
  | departing => "Departing"
  | enRoute => "EnRoute"
  | arriving => "Arriving"
  | finished => "Finished"

/-- Whether an agent in this state stands in the queue of a link. -/
def isOnNetwork (s : AgentState) : Bool :=
  s = enRoute

end AgentState

/-- The transitions of an agent. -/
inductive Transition where
  | endActivity
  | enterNetwork
  | advanceLink
  | arrive
  | startActivity
  | finish
  | abort
deriving DecidableEq, Repr

def Transition.label : Transition → String
  | endActivity => "end_activity"
  | enterNetwork => "enter_network"
  | advanceLink => "advance_link"
  | arrive => "arrive"
  | startActivity => "start_activity"
  | finish => "finish"
  | abort => "abort"

/-- A transition that was not allowed. -/
structure IllegalTransition where
  agent : AgentId
  state : AgentState
  transition : Transition
deriving DecidableEq, Repr

def IllegalTransition.message (e : IllegalTransition) : String :=
  e.agent.text ++ ": illegal transition " ++ e.transition.label ++ " from " ++ e.state.title

/-- An agent with its itinerary and its position in it. -/
structure Agent where
  id : AgentId
  itinerary : Itinerary
  /-- The segment that the agent is in. -/
  segment : Nat
  /-- The place in the route of the present leg. -/
  routeIndex : Nat
  state : AgentState
  /-- When the present activity began. -/
  activityStart : Nat
deriving DecidableEq

namespace Agent

/-- An agent at its first activity, which began at `start`. -/
def new (id : AgentId) (itinerary : Itinerary) (start : Nat) : Agent :=
  ⟨id, itinerary, 0, 0, .atActivity, start⟩

/-- The activity of the present segment. -/
def currentActivity? (a : Agent) : Option Activity :=
  a.itinerary.activity? a.segment

def currentLeg? (a : Agent) : Option Leg :=
  a.itinerary.leg? a.segment

def nextLeg? (a : Agent) : Option Leg :=
  a.currentActivity?.bind fun _ => a.itinerary.leg? (a.segment + 1)

/-- The activity behind the present leg. -/
def nextActivity? (a : Agent) : Option Activity :=
  a.currentLeg?.bind fun _ => a.itinerary.activity? (a.segment + 1)

/-- The link on which the agent is. -/
def currentLink? (a : Agent) : Option LinkId :=
  match a.state with
  | .atActivity | .finished => a.currentActivity?.map (·.link)
  | .departing | .enRoute | .arriving => a.currentLeg?.bind fun l => l.route[a.routeIndex]?

/-- The link behind the present one; none on the last link of a leg. -/
def nextLink? (a : Agent) : Option LinkId :=
  if a.state = .enRoute then a.currentLeg?.bind fun l => l.route[a.routeIndex + 1]? else none

/-- When the present activity ends. -/
def activityEnd? (a : Agent) : Option Nat :=
  if a.state = .atActivity then a.currentActivity?.bind (·.endAfter a.activityStart) else none

def atFinalActivity (a : Agent) : Bool :=
  a.state = .atActivity && decide (a.itinerary.length ≤ a.segment + 1)

def isFinished (a : Agent) : Bool :=
  a.state = .finished

def refuse {ε : Type} (a : Agent) (t : Transition) : Except IllegalTransition ε :=
  .error ⟨a.id, a.state, t⟩

/-- Leave the activity; the agent then waits at the first link of its leg, which is returned. -/
def endActivity (a : Agent) : Except IllegalTransition (LinkId × Agent) :=
  if a.state = .atActivity then
    match a.nextLeg?.bind fun l => l.route.head? with
    | some first =>
        .ok (first, { a with segment := a.segment + 1, routeIndex := 0, state := .departing })
    | none => a.refuse .endActivity
  else a.refuse .endActivity

/-- Enter the first link of the leg. -/
def enterNetwork (a : Agent) : Except IllegalTransition (LinkId × Agent) :=
  if a.state = .departing then
    match a.currentLink? with
    | some link => .ok (link, { a with state := .enRoute })
    | none => a.refuse .enterNetwork
  else a.refuse .enterNetwork

/-- Go on to the next link of the route; the link left and the link entered are returned. -/
def advanceLink (a : Agent) : Except IllegalTransition ((LinkId × LinkId) × Agent) :=
  match a.currentLink?, a.nextLink? with
  | some left, some entered => .ok ((left, entered), { a with routeIndex := a.routeIndex + 1 })
  | _, _ => a.refuse .advanceLink

/-- Leave the last link of the route. -/
def arrive (a : Agent) : Except IllegalTransition (LinkId × Agent) :=
  if a.state = .enRoute ∧ a.nextLink? = none then
    match a.currentLink? with
    | some link => .ok (link, { a with state := .arriving })
    | none => a.refuse .arrive
  else a.refuse .arrive

/-- Begin the activity behind the leg. -/
def startActivity (a : Agent) (now : Nat) : Except IllegalTransition (LinkId × Agent) :=
  if a.state = .arriving then
    match a.nextActivity? with
    | some activity =>
        .ok (activity.link,
          { a with
            segment := a.segment + 1
            routeIndex := 0
            state := .atActivity
            activityStart := now })
    | none => a.refuse .startActivity
  else a.refuse .startActivity

/-- End the day after the last activity. -/
def finish (a : Agent) : Except IllegalTransition Agent :=
  if a.atFinalActivity then .ok { a with state := .finished } else a.refuse .finish

/-- End the day early. -/
def abort (a : Agent) : Except IllegalTransition Agent :=
  if a.state = .finished then a.refuse .abort else .ok { a with state := .finished }

end Agent

end Thoroughfare

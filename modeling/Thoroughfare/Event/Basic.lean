import Thoroughfare.Ident

/-!
# Events

Every transition of an agent is one event.  Events are ordered by time, then by agent, then by
the order in which the transitions of one agent follow each other within a step.
-/

namespace Thoroughfare

/-- What happened to an agent. -/
inductive EventKind where
  /-- Its activity is over and it wants to enter traffic. -/
  | activityEnd (link : LinkId)
  /-- It entered traffic on the first link of its leg. -/
  | departure (link : LinkId)
  /-- It went from one link to the next. -/
  | linkEnter (left link : LinkId)
  /-- It left traffic from the last link of its leg. -/
  | arrival (link : LinkId)
  | activityStart (link : LinkId)
  /-- Its itinerary is complete. -/
  | finished
  /-- Its next leg cannot be driven; its day ends early. -/
  | stranded (link : LinkId)
deriving DecidableEq, Repr

namespace EventKind

/-- The place among the events of one agent in one step. -/
def rank : EventKind → Nat
  | activityEnd _ => 0
  | departure _ => 1
  | linkEnter _ _ => 2
  | arrival _ => 3
  | activityStart _ => 4
  | finished => 5
  | stranded _ => 5

def label : EventKind → String
  | activityEnd _ => "actend"
  | departure _ => "departure"
  | linkEnter _ _ => "entered link"
  | arrival _ => "arrival"
  | activityStart _ => "actstart"
  | finished => "finished"
  | stranded _ => "stuck"

/-- The link on which it happened. -/
def link? : EventKind → Option LinkId
  | activityEnd link => some link
  | departure link => some link
  | linkEnter _ link => some link
  | arrival link => some link
  | activityStart link => some link
  | finished => none
  | stranded link => some link

/-- The link that was left for another one. -/
def left? : EventKind → Option LinkId
  | linkEnter left _ => some left
  | _ => none

end EventKind

/-- Something that happened to an agent at a second. -/
structure Event where
  time : Nat
  agent : AgentId
  kind : EventKind
deriving DecidableEq, Repr

namespace Event

/-- Whether one event comes before another or is its equal in the order of events. -/
def notAfter (a b : Event) : Bool :=
  if a.time = b.time then
    if a.agent = b.agent then a.kind.rank ≤ b.kind.rank else a.agent.index ≤ b.agent.index
  else a.time ≤ b.time

def text (e : Event) : String :=
  let link := match e.kind.link? with
    | some link => " " ++ link.text
    | none => ""
  "t=" ++ toString e.time ++ " " ++ e.agent.text ++ " " ++ e.kind.label ++ link

/-- Merge batches into one ordered sequence; equals keep the order of the batches. -/
def merge (batches : List (List Event)) : List Event :=
  batches.flatten.mergeSort notAfter

end Event

end Thoroughfare

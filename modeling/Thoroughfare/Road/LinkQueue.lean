import Thoroughfare.Config.Basic
import Thoroughfare.Network.Basic
import Thoroughfare.Road.FlowBucket

/-!
# Link queues

A link is a queue: agents leave in the order in which they entered.  An agent may leave once its
travel time is over, everyone ahead of it has left, and the link has a whole credit for it.  It
may enter while the link has room.

Leaving a link needs room on the next one, which is decided elsewhere.  So a link first offers
the agents that may leave, and then releases as many of them as were accepted.
-/

namespace Thoroughfare

/-- An agent in the queue of a link. -/
structure QueuedAgent where
  agent : AgentId
  enteredAt : Nat
  /-- The first second at which it may leave. -/
  earliestExit : Nat
deriving DecidableEq, Repr

/-- The queue of a link during a run. -/
structure LinkQueue (α : Type) where
  link : LinkId
  /-- Seconds that an agent coming from another link spends before it may leave. -/
  travelSecs : Nat
  stepSecs : Nat
  /-- The most agents that the link holds. -/
  storage : Nat
  entries : List QueuedAgent
  bucket : FlowBucket α
  /-- How many agents were on the link when the step began. -/
  startOccupancy : Nat
deriving Repr

/-- A broken contract between a link queue and its user. -/
inductive QueueFault where
  | notAdjacent (link : LinkId) (agent : AgentId) (source : LinkId)
  | tooMany (link : LinkId) (count ready budget : Nat)
deriving DecidableEq, Repr

def QueueFault.message : QueueFault → String
  | notAdjacent link agent source =>
      "link queue invariant violated on " ++ link.text ++ ": " ++ agent.text ++
        " entered from non-adjacent " ++ source.text
  | tooMany link count ready budget =>
      "link queue invariant violated on " ++ link.text ++ ": commit of " ++ toString count ++
        " exceeds offer (ready " ++ toString ready ++ ", budget " ++ toString budget ++ ")"

/-- The answer to an agent that wants to enter a link. -/
inductive Admission (α : Type) where
  | entered (queue : LinkQueue α)
  | rejected (agent : AgentId)

namespace LinkQueue

variable {α : Type} [Quantity α]

/-- The credit that a link gains in each step. -/
def ratePerStep (l : Link) (periodSecs : Float) (c : Config) : α :=
  Quantity.ofFloat l.flowCapacity / Quantity.ofFloat periodSecs *
    Quantity.ofFloat c.flowFactor * Quantity.ofNat c.stepSecs

/-- The number of agents that a link holds in a run. -/
def storageOf (l : Link) (c : Config) : Nat :=
  max (Quantity.floorFloat (l.storageCapacity * c.storageFactor)) 1

/-- The empty queue of a link. -/
def ofLink (l : Link) (periodSecs : Float) (c : Config) : LinkQueue α where
  link := l.id
  travelSecs := max l.freeFlowSecs c.stepSecs
  stepSecs := c.stepSecs
  storage := storageOf l c
  entries := []
  bucket := .new (ratePerStep l periodSecs c)
  startOccupancy := 0

/-- The empty queue of a link of a network. -/
def forLink (g : Network) (id : LinkId) (c : Config) : Except NetworkError (LinkQueue α) :=
  (g.link id).map fun l => ofLink l g.periodSecs c

def occupancy (q : LinkQueue α) : Nat :=
  q.entries.length

def isEmpty (q : LinkQueue α) : Bool :=
  q.entries.isEmpty

/-- The agent that is next to leave. -/
def head? (q : LinkQueue α) : Option QueuedAgent :=
  q.entries.head?

/-- The room on the link when the step began. -/
def freeAtStart (q : LinkQueue α) : Nat :=
  q.storage - q.startOccupancy

/-- Begin a step: gain its credit and note the occupancy. -/
def beginStep (q : LinkQueue α) : LinkQueue α :=
  { q with bucket := q.bucket.accrue, startOccupancy := q.entries.length }

/-- Let a number of steps pass in which nobody is on the link. -/
def idle (q : LinkQueue α) (steps : Nat) : LinkQueue α :=
  { q with bucket := q.bucket.accrueIdle steps }

/-- The queue with one more agent at its end. -/
def append (q : LinkQueue α) (entry : QueuedAgent) : LinkQueue α :=
  { q with entries := q.entries ++ [entry] }

/-- Let an agent enter at its end, if there is room.  An agent that comes from an activity stands
at the far end and may leave in the next step; one that comes from another link has to
travel first, and the two links must meet. -/
def enter (q : LinkQueue α) (g : Network) (agent : AgentId) (source : Option LinkId)
    (now : Nat) : Except QueueFault (Admission α) :=
  let place (earliestExit : Nat) : Admission α :=
    if q.entries.length < q.storage then .entered (q.append ⟨agent, now, earliestExit⟩)
    else .rejected agent
  match source with
  | none => .ok (place (now + q.stepSecs))
  | some left =>
      if g.adjacent left q.link then .ok (place (now + q.travelSecs))
      else .error (.notAdjacent q.link agent left)

/-- The agents at the front whose travel time is over. -/
def ready (q : LinkQueue α) (now : Nat) : List QueuedAgent :=
  q.entries.takeWhile fun entry => entry.earliestExit ≤ now

/-- The agents that may leave now: those at the front that are ready, as far as the credit
goes. -/
def offer (q : LinkQueue α) (now : Nat) : List QueuedAgent :=
  (q.entries.take q.bucket.budget).takeWhile fun entry => entry.earliestExit ≤ now

/-- Release the first agents of the offer. -/
def release (q : LinkQueue α) (count now : Nat) :
    Except QueueFault (List QueuedAgent × LinkQueue α) :=
  if (q.ready now).length < count ∨ q.bucket.budget < count then
    .error (.tooMany q.link count (q.ready now).length q.bucket.budget)
  else
    .ok (q.entries.take count,
      { q with entries := q.entries.drop count, bucket := q.bucket.consume count })

end LinkQueue

end Thoroughfare

import Thoroughfare.Event.Basic

/-!
# The event bus

The bus delivers the events of each step, merged into one order, to every subscriber, and then
tells every subscriber that the step is over.  It refuses a step with an event that is older than
one already delivered, and then delivers nothing.

A delivery is a list of calls, so a subscriber is any way to fold over the calls made to it.
-/

namespace Thoroughfare

/-- What a subscriber is told. -/
inductive Notice where
  | event (e : Event)
  /-- All events of a time have been delivered. -/
  | stepEnd (time : Nat)
  /-- The run is over. -/
  | runEnd (time : Nat)
deriving DecidableEq, Repr

/-- A notice to one subscriber. -/
structure Call where
  subscriber : Nat
  notice : Notice
deriving DecidableEq, Repr

/-- An event came after a later one. -/
structure OutOfOrder where
  last : Nat
  got : Nat
deriving DecidableEq, Repr

def OutOfOrder.message (e : OutOfOrder) : String :=
  "event at t=" ++ toString e.got ++ " published after t=" ++ toString e.last

/-- The state of the bus: its subscribers, the time of the last event and the number of events. -/
structure Bus where
  subscribers : Nat
  lastTime : Option Nat
  emitted : Nat
deriving DecidableEq, Repr

namespace Bus

/-- A bus that has delivered nothing yet. -/
def new (subscribers : Nat) : Bus :=
  ⟨subscribers, none, 0⟩

/-- One more subscriber, who will hear what is delivered from now on. -/
def subscribe (b : Bus) : Bus :=
  { b with subscribers := b.subscribers + 1 }

/-- The calls that give one notice to every subscriber. -/
def tell (b : Bus) (notice : Notice) : List Call :=
  (List.range b.subscribers).map fun subscriber => ⟨subscriber, notice⟩

/-- Whether an event is older than one already delivered. -/
def tooOld? (b : Bus) (events : List Event) : Option OutOfOrder :=
  match b.lastTime, events.head? with
  | some last, some first => if first.time < last then some ⟨last, first.time⟩ else none
  | _, _ => none

def delivered (b : Bus) (events : List Event) : Bus :=
  { b with
    lastTime := match events.getLast? with
      | some last => some last.time
      | none => b.lastTime
    emitted := b.emitted + events.length }

/-- Order the events of a step and accept them, or refuse the step. -/
def accept (b : Bus) (batches : List (List Event)) : Except OutOfOrder (List Event × Bus) :=
  let events := Event.merge batches
  match b.tooOld? events with
  | some e => .error e
  | none => .ok (events, b.delivered events)

/-- The notices of a step. -/
def stepNotices (events : List Event) (time : Nat) : List Notice :=
  events.map Notice.event ++ [.stepEnd time]

/-- Deliver the events of a step to all subscribers. -/
def publish (b : Bus) (time : Nat) (batches : List (List Event)) :
    Except OutOfOrder (List Call × Bus) :=
  (b.accept batches).map fun result => ((stepNotices result.1 time).flatMap b.tell, result.2)

def finish (b : Bus) (time : Nat) : List Call :=
  b.tell (.runEnd time)

end Bus

/-- The notices among some calls that went to one subscriber. -/
def noticesTo (subscriber : Nat) (calls : List Call) : List Notice :=
  (calls.filter fun call => call.subscriber = subscriber).map (·.notice)

end Thoroughfare

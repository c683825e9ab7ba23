import Thoroughfare.Event.Bus

/-!
# Event logs

A log records the events it is told of and can tell them again.  A replay ends a step wherever
the time changes, and ends the run after the last event.
-/

namespace Thoroughfare

/-- Recorded events, in order. -/
structure EventLog where
  events : Array Event
deriving DecidableEq, Repr

namespace EventLog

def empty : EventLog :=
  ⟨#[]⟩

def record (l : EventLog) (e : Event) : EventLog :=
  ⟨l.events.push e⟩

/-- Hear a notice; only events are recorded. -/
def hear (l : EventLog) : Notice → EventLog
  | .event e => l.record e
  | _ => l

def atTime (l : EventLog) (time : Nat) : List Event :=
  l.events.toList.filter fun e => e.time = time

def ofAgent (l : EventLog) (agent : AgentId) : List Event :=
  l.events.toList.filter fun e => e.agent = agent

/-- The events of the kind with a given name. -/
def ofKind (l : EventLog) (label : String) : List Event :=
  l.events.toList.filter fun e => e.kind.label = label

def onLink (l : EventLog) (link : LinkId) : List Event :=
  l.events.toList.filter fun e => e.kind.link? = some link

/-- The notices of a replay in which the last event was at `time`. -/
def replayFrom (time : Nat) : List Event → List Notice
  | [] => [.stepEnd time, .runEnd time]
  | e :: rest =>
      if e.time = time then .event e :: replayFrom e.time rest
      else .stepEnd time :: .event e :: replayFrom e.time rest

/-- The notices that tell the recorded events again. -/
def replay (l : EventLog) : List Notice :=
  match l.events.toList with
  | [] => []
  | e :: rest => .event e :: replayFrom e.time rest

def hearAll (l : EventLog) (notices : List Notice) : EventLog :=
  notices.foldl hear l

end EventLog

end Thoroughfare

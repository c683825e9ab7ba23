import Std.Data.ExtTreeMap
import Thoroughfare.Event.Bus
import Thoroughfare.Network.Basic

/-!
# Delay

Delay is what an agent spends on a link beyond the time that free traffic would take.  It is
derived from events alone.  A traversal lasts from the entry into a link to the entry into the
next one or the arrival; the link on which an agent departs does not count, because it starts at
its far end.

The delay of a traversal counts for its link, for the bin of time in which it ended, and, when
the trip is over, for its agent.
-/

namespace Thoroughfare

/-- The delay of some traversals. -/
structure DelayTotals where
  delaySecs : Nat
  traversals : Nat
deriving DecidableEq, Repr

namespace DelayTotals

def zero : DelayTotals :=
  ⟨0, 0⟩

def add (t : DelayTotals) (delaySecs : Nat) : DelayTotals :=
  ⟨t.delaySecs + delaySecs, t.traversals + 1⟩

/-- The mean delay of a traversal; zero if there are none. -/
def mean (t : DelayTotals) : Float :=
  if t.traversals = 0 then 0.0
  else Quantity.ofNat t.delaySecs / Quantity.ofNat t.traversals

end DelayTotals

/-- What the completed trips of an agent took. -/
structure AgentDelay where
  trips : Nat
  /-- From departure to arrival. -/
  travelSecs : Nat
  delaySecs : Nat
deriving DecidableEq, Repr

def AgentDelay.zero : AgentDelay :=
  ⟨0, 0, 0⟩

/-- A trip that is not over. -/
structure OpenTrip where
  departed : Nat
  /-- The present link and when it was entered; none on the link of departure. -/
  onLink? : Option (LinkId × Nat)
  delaySecs : Nat
deriving DecidableEq, Repr

/-- The totals of a run. -/
structure DelaySummary where
  trips : Nat
  travelSecs : Nat
  link : DelayTotals
deriving DecidableEq, Repr

/-- The delay of links and agents so far. -/
structure DelayTable where
  /-- The free travel time of every link. -/
  freeFlow : Array Nat
  binSecs : Nat
  binSecs_pos : 0 < binSecs
  trips : Std.ExtTreeMap AgentId OpenTrip
  /-- By link and by the end of the bin. -/
  bins : Std.ExtTreeMap LinkId (Std.ExtTreeMap Nat DelayTotals)
  links : Std.ExtTreeMap LinkId DelayTotals
  agents : Std.ExtTreeMap AgentId AgentDelay

namespace DelayTable

/-- A table for a network with bins of some seconds, and of at least one. -/
def empty (g : Network) (binSecs : Nat) : DelayTable where
  freeFlow := g.links.map Link.freeFlowSecs
  binSecs := max binSecs 1
  binSecs_pos := by omega
  trips := ∅
  bins := ∅
  links := ∅
  agents := ∅

/-- The end of the bin in which a time lies; it belongs to the next bin. -/
def binEnd (t : DelayTable) (time : Nat) : Nat :=
  (time / t.binSecs + 1) * t.binSecs

/-- The delay of a traversal. -/
def delayOn (t : DelayTable) (link : LinkId) (entered left : Nat) : Nat :=
  left - entered - t.freeFlow.getD link.index 0

/-- Count a traversal of a link that ended at a time. -/
def count (t : DelayTable) (link : LinkId) (left delaySecs : Nat) : DelayTable :=
  { t with
    bins := t.bins.alter link fun bins? =>
      some ((bins?.getD ∅).alter (t.binEnd left) fun totals? =>
        some ((totals?.getD .zero).add delaySecs))
    links := t.links.alter link fun totals? => some ((totals?.getD .zero).add delaySecs) }

/-- End the traversal of the present link of a trip; the delay of the trip so far is returned. -/
def close (t : DelayTable) (trip : OpenTrip) (left : Nat) : Nat × DelayTable :=
  match trip.onLink? with
  | none => (trip.delaySecs, t)
  | some (link, entered) =>
      let delaySecs := t.delayOn link entered left
      (trip.delaySecs + delaySecs, t.count link left delaySecs)

/-- The totals of an agent after one more trip. -/
def completed (totals? : Option AgentDelay) (travelSecs delaySecs : Nat) : AgentDelay :=
  let totals := totals?.getD .zero
  ⟨totals.trips + 1, totals.travelSecs + travelSecs, totals.delaySecs + delaySecs⟩

/-- Take an event into account.  Entries and arrivals of agents that are not on a trip do not
count. -/
def record (t : DelayTable) (e : Event) : DelayTable :=
  match e.kind with
  | .departure _ => { t with trips := t.trips.insert e.agent ⟨e.time, none, 0⟩ }
  | .linkEnter _ link =>
      match t.trips[e.agent]? with
      | none => t
      | some trip =>
          let (delaySecs, t) := t.close trip e.time
          { t with
            trips := t.trips.insert e.agent ⟨trip.departed, some (link, e.time), delaySecs⟩ }
  | .arrival _ =>
      match t.trips[e.agent]? with
      | none => t
      | some trip =>
          let (delaySecs, t) := t.close trip e.time
          { t with
            trips := t.trips.erase e.agent
            agents := t.agents.alter e.agent fun totals? =>
              some (completed totals? (e.time - trip.departed) delaySecs) }
  | _ => t

def hear (t : DelayTable) : Notice → DelayTable
  | .event e => t.record e
  | _ => t

def hearAll (t : DelayTable) (notices : List Notice) : DelayTable :=
  notices.foldl hear t

/-- The number of trips that are not over. -/
def openTrips (t : DelayTable) : Nat :=
  t.trips.size

/-- The bins of a link, ascending by their ends. -/
def binsOf (t : DelayTable) (link : LinkId) : List (Nat × DelayTotals) :=
  match t.bins[link]? with
  | some bins => bins.toList
  | none => []

/-- The delay on a link in the bin with a given end. -/
def bin? (t : DelayTable) (link : LinkId) (binEnd : Nat) : Option DelayTotals :=
  t.bins[link]?.bind fun bins => bins[binEnd]?

/-- The mean delay on a link, if anyone traversed it. -/
def mean? (t : DelayTable) (link : LinkId) : Option Float :=
  t.links[link]?.map DelayTotals.mean

def summary (t : DelayTable) : DelaySummary where
  trips := (t.agents.values.map (·.trips)).foldr (· + ·) 0
  travelSecs := (t.agents.values.map (·.travelSecs)).foldr (· + ·) 0
  link :=
    ⟨(t.links.values.map (·.delaySecs)).foldr (· + ·) 0,
      (t.links.values.map (·.traversals)).foldr (· + ·) 0⟩

end DelayTable

end Thoroughfare

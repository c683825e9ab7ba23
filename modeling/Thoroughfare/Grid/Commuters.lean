import Thoroughfare.Grid.Chance
import Thoroughfare.Grid.Streets
import Thoroughfare.Plan.Agent

/-!
# Commuters

A commuter drives to work in the morning and back home after eight hours.  The way to work leads
east along the row of the home and then along the column of the workplace; the way back is the
same the other way round, with a turn at either end.
-/

namespace Thoroughfare
namespace Grid

def population : Nat :=
  2000

/-- The seed of all random decisions. -/
def seed : UInt64 :=
  42

/-- When the first commuters leave home: at half past six. -/
def morningSecs : Nat :=
  23400

/-- In how many seconds all commuters leave home. -/
def spreadSecs : Nat :=
  7200

/-- How long a commuter works. -/
def workSecs : Nat :=
  28800

/-- The numbers from one to another, both included, upward or downward. -/
def between (a b : Nat) : List Nat :=
  if a ≤ b then (List.range (b + 1 - a)).map fun i => a + i
  else (List.range (a + 1 - b)).map fun i => a - i

/-- The intersections on the way to work. -/
def wayToWork (row col workRow workCol : Nat) : List NodeId :=
  (between col workCol).map (node row) ++
    ((between row workRow).drop 1).map fun r => node r workCol

/-- The day of a commuter who drives along a path and leaves home at a second. -/
def itinerary? (path : List NodeId) (leaveSecs : Nat) : Option Itinerary := do
  let outbound ← route? path
  let home ← outbound.head?
  let work ← outbound.getLast?
  let back ← route? path.reverse
  (Itinerary.ofSegments
    [.activity ⟨"home", home, some leaveSecs, none⟩,
      .leg (.byCar outbound),
      .activity ⟨"work", work, none, some workSecs⟩,
      .leg (.byCar (work :: back ++ [home])),
      .activity ⟨"home", home, none, none⟩]).toOption

def commuter? (id : AgentId) (g : Generator) : Option Agent × Generator :=
  let (row, g) := g.draw 0 size
  let (col, g) := g.draw 0 (size - 1)
  let (workCol, g) := g.draw (col + 1) size
  let (drawnRow, g) := g.draw 0 size
  let workRow := if workCol = col + 1 ∧ drawnRow = row then (row + 1) % size else drawnRow
  let (delay, g) := g.draw 0 spreadSecs
  ((itinerary? (wayToWork row col workRow workCol) (morningSecs + delay)).map fun t =>
    .new id t 0, g)

/-- Draw commuters, numbered on from `first`. -/
def commutersFrom (first : Nat) : Nat → Generator → List Agent
  | 0, _ => []
  | count + 1, g =>
      let (agent?, g) := commuter? ⟨first⟩ g
      agent?.toList ++ commutersFrom (first + 1) count g

def commuters : List Agent :=
  commutersFrom 0 population (.ofSeed seed)

end Grid
end Thoroughfare

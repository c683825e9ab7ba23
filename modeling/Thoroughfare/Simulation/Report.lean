import Thoroughfare.Ident
import Thoroughfare.Time.Clock

/-!
# Reports

What a simulation counts in each step, what it warns about, and what it says at the end.
-/

namespace Thoroughfare

/-- The counters of one step. -/
structure StepStats where
  tick : Tick
  time : Nat
  events : Nat
  departures : Nat
  linkMoves : Nat
  arrivals : Nat
  /-- Links whose front could not move on for lack of room. -/
  blockedLinks : Nat
  blockedDepartures : Nat
  /-- Agents on links after the step. -/
  enRoute : Nat
  departing : Nat
  /-- Agents that have finished since the start. -/
  finished : Nat
  /-- Agents handed from one district to another. -/
  boundaryTransfers : Nat
deriving DecidableEq, Repr

/-- The first refusal of a move or a departure, and the link that was full. -/
structure CapacityWarning where
  time : Nat
  agent : AgentId
  link : LinkId
deriving DecidableEq, Repr

/-- Why a run stopped. -/
inductive EndReason where
  | allFinished
  | cancelled
  /-- The time was over with some agents still under way. -/
  | maxTime (unfinished : Nat)
deriving DecidableEq, Repr

/-- What a run says at its end. -/
structure Report where
  reason : EndReason
  /-- The second of the last step, or of the start if there was none. -/
  finalTime : Nat
  steps : Nat
  events : Nat
  warnings : List CapacityWarning
  boundaryTransfers : Nat
  finished : Nat
  /-- Agents whose day ended early because a leg could not be driven. -/
  unreachable : Nat
deriving DecidableEq, Repr

end Thoroughfare

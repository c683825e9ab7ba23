import Std.Data.ExtTreeMap
import Thoroughfare.Simulation.Offer
import Thoroughfare.Simulation.Report

/-!
# Resolution

All offers of a step are decided one after the other in one global order: first the links by
number, each from the front of its queue, then the departures by agent.  Every granted move or
departure takes one place on its target and gets the next sequence number.  A link has as many
places as it had room when the step began, and one more for each agent that is certain to leave
it.  The first refusal on a link holds everyone behind it.
-/

namespace Thoroughfare

/-- What has been given out so far. -/
structure Ledger where
  taken : Std.ExtTreeMap LinkId Nat
  nextSeq : Nat

namespace Ledger

def empty : Ledger :=
  ⟨∅, 0⟩

/-- How many places on a link are taken. -/
def takenOn (l : Ledger) (link : LinkId) : Nat :=
  l.taken.getD link 0

/-- Take a place on a link, if one of its places is left. -/
def reserve? (l : Ledger) (room : LinkId → Nat) (link : LinkId) : Option (Nat × Ledger) :=
  if l.takenOn link < room link then
    some (l.nextSeq, ⟨l.taken.insert link (l.takenOn link + 1), l.nextSeq + 1⟩)
  else none

end Ledger

/-- An offer that was granted; the resolution numbers every granted move. -/
inductive Grant where
  | move (agent : AgentId) (target : LinkId) (seq? : Option Nat)
  | arrive (agent : AgentId)
deriving DecidableEq, Repr

namespace Grant

def agent : Grant → AgentId
  | move agent _ _ => agent
  | arrive agent => agent

/-- Whether an agent leaves the network. -/
def isArrival : Grant → Bool
  | arrive _ => true
  | move _ _ _ => false

end Grant

/-- A move that was refused. -/
structure Refusal where
  agent : AgentId
  target : LinkId
  firstAttempt : Bool
deriving DecidableEq, Repr

/-- The decision on the offers of a link: the leading offers that were granted, and the refusal
that ended them, if there was one. -/
structure LinkVerdict where
  grants : List Grant
  refusal? : Option Refusal
deriving DecidableEq, Repr

/-- The decision on a departure: its sequence number if it was granted. -/
structure DepartureVerdict where
  link : LinkId
  firstAttempt : Bool
  seq? : Option Nat
deriving DecidableEq, Repr

namespace Resolution

/-- Decide the offers of one link from the front. -/
def decideLink (room : LinkId → Nat) : List Offer → Ledger → LinkVerdict × Ledger
  | [], ledger => (⟨[], none⟩, ledger)
  | .arrive agent :: rest, ledger =>
      let (verdict, ledger) := decideLink room rest ledger
      ({ verdict with grants := .arrive agent :: verdict.grants }, ledger)
  | .move agent target firstAttempt :: rest, ledger =>
      match ledger.reserve? room target with
      | none => (⟨[], some ⟨agent, target, firstAttempt⟩⟩, ledger)
      | some (seq, ledger) =>
          let (verdict, ledger) := decideLink room rest ledger
          ({ verdict with grants := .move agent target (some seq) :: verdict.grants }, ledger)

/-- Decide the offers of some links, one link after the other. -/
def decideLinks (room : LinkId → Nat) :
    List (LinkId × List Offer) → Ledger → List (LinkId × LinkVerdict) × Ledger
  | [], ledger => ([], ledger)
  | (link, offers) :: rest, ledger =>
      let (verdict, ledger) := decideLink room offers ledger
      let (verdicts, ledger) := decideLinks room rest ledger
      ((link, verdict) :: verdicts, ledger)

def decideDeparture (room : LinkId → Nat) (offer : DepartureOffer) (ledger : Ledger) :
    DepartureVerdict × Ledger :=
  match ledger.reserve? room offer.link with
  | none => (⟨offer.link, offer.firstAttempt, none⟩, ledger)
  | some (seq, ledger) => (⟨offer.link, offer.firstAttempt, some seq⟩, ledger)

def decideDepartures (room : LinkId → Nat) :
    List (AgentId × DepartureOffer) → Ledger → List (AgentId × DepartureVerdict) × Ledger
  | [], ledger => ([], ledger)
  | (agent, offer) :: rest, ledger =>
      let (verdict, ledger) := decideDeparture room offer ledger
      let (verdicts, ledger) := decideDepartures room rest ledger
      ((agent, verdict) :: verdicts, ledger)

end Resolution

/-- The decisions of a step, in the order in which they were made. -/
structure Resolution where
  links : List (LinkId × LinkVerdict)
  departures : List (AgentId × DepartureVerdict)
deriving DecidableEq, Repr

namespace Resolution

/-- How many agents are certain to leave each link with offers. -/
def exits (offers : Offers) : Std.ExtTreeMap LinkId Nat :=
  .ofList (offers.links.map fun entry => (entry.1, Offers.certainExits entry.2))

/-- The places of a link in a step. -/
def room (freeAtStart : LinkId → Nat) (exits : Std.ExtTreeMap LinkId Nat) (link : LinkId) : Nat :=
  freeAtStart link + exits.getD link 0

/-- Decide all offers of a step, which are in their global order. -/
def ofOffers (freeAtStart : LinkId → Nat) (offers : Offers) : Resolution :=
  let places := room freeAtStart (exits offers)
  let (links, ledger) := decideLinks places offers.links .empty
  let (departures, _) := decideDepartures places offers.departures ledger
  ⟨links, departures⟩

def moves (r : Resolution) : Nat :=
  (r.links.map fun entry => entry.2.grants.countP (!·.isArrival)).foldr (· + ·) 0

/-- The number of agents that leave the network. -/
def arrivals (r : Resolution) : Nat :=
  (r.links.map fun entry => entry.2.grants.countP (·.isArrival)).foldr (· + ·) 0

/-- The number of links on which a move was refused. -/
def blockedLinks (r : Resolution) : Nat :=
  r.links.countP fun entry => entry.2.refusal?.isSome

def departed (r : Resolution) : Nat :=
  r.departures.countP fun entry => entry.2.seq?.isSome

def blockedDepartures (r : Resolution) : Nat :=
  r.departures.countP fun entry => entry.2.seq?.isNone

/-- The warning about a refusal, if it is the first one. -/
def warning? (time : Nat) (agent : AgentId) (target : LinkId) (firstAttempt : Bool) :
    Option CapacityWarning :=
  if firstAttempt then some ⟨time, agent, target⟩ else none

/-- The warnings of a step, in the order of the decisions. -/
def warnings (r : Resolution) (time : Nat) : List CapacityWarning :=
  (r.links.filterMap fun entry =>
    entry.2.refusal?.bind fun refusal =>
      warning? time refusal.agent refusal.target refusal.firstAttempt) ++
  (r.departures.filterMap fun entry =>
    if entry.2.seq?.isNone then warning? time entry.1 entry.2.link entry.2.firstAttempt
    else none)

end Resolution

/-- Whether a decision changes anything for the agent: it departs or is refused for the first
time. -/
def DepartureVerdict.matters (v : DepartureVerdict) : Bool :=
  v.seq?.isSome || v.firstAttempt

/-- The decisions of a step, for those whom they concern: on links, and those on departures that
change anything. -/
structure Verdicts where
  links : Std.ExtTreeMap LinkId LinkVerdict
  departures : List (AgentId × DepartureVerdict)

/-- Make the decisions of a step known. -/
def Resolution.verdicts (r : Resolution) : Verdicts where
  links := .ofList r.links
  departures := r.departures.filter fun entry => entry.2.matters

end Thoroughfare

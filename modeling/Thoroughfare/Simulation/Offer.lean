import Thoroughfare.Ident

/-!
# Offers

At the beginning of a step every district says who wants to move: for each link the agents at
the front of its queue that may leave it, and the agents that wait to depart.  Brought into one
order, the offers of all districts do not depend on how links are spread over districts.
-/

namespace Thoroughfare

/-- What an agent at the front of a link wants. -/
inductive Offer where
  /-- To go on to the next link.  A first attempt has not been refused before. -/
  | move (agent : AgentId) (target : LinkId) (firstAttempt : Bool)
  /-- To leave the network at the end of its leg. -/
  | arrive (agent : AgentId)
deriving DecidableEq, Repr

namespace Offer

def agent : Offer → AgentId
  | move agent _ _ => agent
  | arrive agent => agent

/-- Whether an offer needs no room. -/
def isArrival : Offer → Bool
  | arrive _ => true
  | move _ _ _ => false

end Offer

/-- An agent's wish to enter the first link of its leg; a first attempt has not been refused
before. -/
structure DepartureOffer where
  link : LinkId
  firstAttempt : Bool
deriving DecidableEq, Repr

/-- Whether no entry has a smaller number than the one before it. -/
def inOrder {kind : Entity} {β : Type} : List (Ident kind × β) → Bool
  | a :: b :: rest => a.1.index ≤ b.1.index && inOrder (b :: rest)
  | _ => true

/-- Entries in ascending order of their numbers; what is in order already is left alone. -/
def ascending {kind : Entity} {β : Type} (entries : List (Ident kind × β)) :
    List (Ident kind × β) :=
  if inOrder entries then entries
  else entries.mergeSort fun a b => a.1.index ≤ b.1.index

theorem pairwise_of_inOrder {kind : Entity} {β : Type} {entries : List (Ident kind × β)}
    (h : inOrder entries = true) : entries.Pairwise fun a b => a.1.index ≤ b.1.index := by
  induction entries with
  | nil => exact List.Pairwise.nil
  | cons a rest ih =>
    cases rest with
    | nil => simp
    | cons b rest =>
      simp only [inOrder, Bool.and_eq_true, decide_eq_true_eq] at h
      have hrest := ih h.2
      refine List.pairwise_cons.2 ⟨fun c hc => ?_, hrest⟩
      rcases List.mem_cons.1 hc with rfl | hc
      · exact h.1
      · exact Nat.le_trans h.1 (List.rel_of_pairwise_cons hrest hc)

theorem ascending_eq_mergeSort {kind : Entity} {β : Type} (entries : List (Ident kind × β)) :
    ascending entries = entries.mergeSort fun a b => a.1.index ≤ b.1.index := by
  unfold ascending
  split
  · rename_i h
    exact (List.mergeSort_of_pairwise ((pairwise_of_inOrder h).imp (by simp))).symm
  · rfl

/-- Offers, each link with the offers on it in the order of its queue, and each departing agent
with its wish. -/
structure Offers where
  links : List (LinkId × List Offer)
  departures : List (AgentId × DepartureOffer)
deriving DecidableEq, Repr

namespace Offers

/-- The offers of all districts in their global order: links by number, and departures by
agent. -/
def gather (published : List Offers) : Offers where
  links := ascending (published.flatMap Offers.links)
  departures := ascending (published.flatMap Offers.departures)

/-- How many agents leave a link whatever else happens: those that arrive before anyone on the
link needs room. -/
def certainExits (offers : List Offer) : Nat :=
  (offers.takeWhile Offer.isArrival).length

end Offers

end Thoroughfare

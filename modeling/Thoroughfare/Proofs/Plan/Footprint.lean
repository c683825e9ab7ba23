import Thoroughfare.Proofs.Plan.Words

/-!
# The footprint of a day

The footprint of a day are the links that an agent uses in traffic: those on the routes of its legs,
as far as the first leg that cannot be driven.  At each place of the itinerary only a part of the
footprint is still ahead.
-/

namespace Thoroughfare

/-- The links of the routes that are driven from an activity on, when some segments are behind
it. -/
def footprintFrom (g : Network) (a : Activity) : List Segment → List LinkId
  | .leg l :: .activity b :: rest =>
      match Route.culprit? g a.link b.link l.route with
      | some _ => []
      | none => l.route ++ footprintFrom g b rest
  | _ => []

/-- The footprint of a day. -/
def Itinerary.footprint (g : Network) (t : Itinerary) : List LinkId :=
  match t.segments with
  | .activity a :: rest => footprintFrom g a rest
  | _ => []

namespace Itinerary

variable {g : Network} {t : Itinerary} {index : Nat} {a b : Activity} {l : Leg}

theorem footprintFrom_drop_of_leg (hleg : t.leg? index = some l)
    (hnext : t.activity? (index + 1) = some b) :
    footprintFrom g a (t.segments.drop index) =
      match Route.culprit? g a.link b.link l.route with
      | some _ => []
      | none => l.route ++ footprintFrom g b (t.segments.drop (index + 2)) := by
  rw [drop_eq_cons (leg?_eq_some_iff.1 hleg), drop_eq_cons (activity?_eq_some_iff.1 hnext),
    footprintFrom]

theorem footprint_eq_footprintFrom (h : t.firstActivity? = some a) :
    t.footprint g = footprintFrom g a (t.segments.drop 1) := by
  have hfirst := drop_eq_cons (activity?_eq_some_iff.1 h)
  rw [List.drop_zero] at hfirst
  rw [footprint]
  split
  · rename_i b rest hsegments
    rw [hsegments] at hfirst
    cases hfirst
    rw [hsegments]
    rfl
  · rename_i hother
    exact absurd hfirst (hother a _)

end Itinerary

/-! ## What is ahead of an agent -/

namespace Agent

variable {g : Network} {a : Agent} {leg : Leg} {next : Activity} {link : LinkId}

/-- The links that are still ahead of an agent at an activity. -/
def dayFootprint (g : Network) (a : Agent) : List LinkId :=
  match a.currentActivity? with
  | some activity => footprintFrom g activity (a.itinerary.segments.drop (a.segment + 1))
  | none => []

/-- The links of the present leg of an agent and of those that are still ahead. -/
def legFootprint (g : Network) (a : Agent) : List LinkId :=
  match a.currentLeg?, a.nextActivity? with
  | some leg, some next =>
      leg.route ++ footprintFrom g next (a.itinerary.segments.drop (a.segment + 2))
  | _, _ => []

theorem dayFootprint_eq {activity : Activity} (h : a.currentActivity? = some activity) :
    a.dayFootprint g =
      footprintFrom g activity (a.itinerary.segments.drop (a.segment + 1)) := by
  rw [dayFootprint, h]

theorem legFootprint_eq (h : a.OnLeg g leg next) :
    a.legFootprint g =
      leg.route ++ footprintFrom g next (a.itinerary.segments.drop (a.segment + 2)) := by
  rw [legFootprint, h.onLeg, h.ahead]

/-- Whoever goes off on a leg that can be driven has the same links ahead. -/
theorem legFootprint_goneOff {activity : Activity} (hactivity : a.currentActivity? = some activity)
    (hleg : a.itinerary.leg? (a.segment + 1) = some leg)
    (hnext : a.itinerary.activity? (a.segment + 2) = some next)
    (hnone : Route.culprit? g activity.link next.link leg.route = none)
    (honleg : a.goneOff.OnLeg g leg next) : a.goneOff.legFootprint g = a.dayFootprint g := by
  rw [legFootprint_eq honleg, dayFootprint_eq hactivity,
    Itinerary.footprintFrom_drop_of_leg hleg hnext, hnone]
  rfl

/-- Whoever starts the activity behind its leg has no other links ahead than before. -/
theorem dayFootprint_atNextActivity_subset (h : a.OnLeg g leg next) (now : Nat) :
    (a.atNextActivity now).dayFootprint g ⊆ a.legFootprint g := by
  rw [dayFootprint_eq (currentActivity?_atNextActivity h now), legFootprint_eq h]
  exact List.subset_append_right _ _

theorem mem_legFootprint_of_currentLink? (h : a.OnLeg g leg next)
    (hstate : a.state = .departing ∨ a.state = .enRoute) (hlink : a.currentLink? = some link) :
    link ∈ a.legFootprint g := by
  rw [currentLink?_of_onLeg h hstate] at hlink
  rw [legFootprint_eq h]
  exact List.mem_append_left _ (List.mem_of_getElem? hlink)

theorem mem_legFootprint_of_nextLink? (h : a.OnLeg g leg next) (hstate : a.state = .enRoute)
    (hlink : a.nextLink? = some link) : link ∈ a.legFootprint g := by
  rw [nextLink?_of_onLeg h hstate] at hlink
  rw [legFootprint_eq h]
  exact List.mem_append_left _ (List.mem_of_getElem? hlink)

end Agent

end Thoroughfare

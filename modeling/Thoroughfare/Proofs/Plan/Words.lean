import Thoroughfare.Event.Basic
import Thoroughfare.Proofs.Plan.Course

/-!
# The word of a day

What happens to an agent is fixed by its itinerary and the network; only the times are not.  In the
order in which it happens it is the word of the day.  At each place of the itinerary a part of the
word is still ahead.
-/

namespace Thoroughfare

/-- What is told of an agent that drives along some links and leaves traffic at the last one. -/
def stretch : List LinkId → List EventKind
  | [] => []
  | [last] => [.arrival last]
  | left :: link :: rest => .linkEnter left link :: stretch (link :: rest)

/-- What is told of an agent from the end of an activity on, when some segments are behind it. -/
def wordFrom (g : Network) (a : Activity) : List Segment → List EventKind
  | .leg l :: .activity b :: rest =>
      match Route.culprit? g a.link b.link l.route with
      | some bad => [.stranded bad]
      | none =>
          .activityEnd a.link :: (l.route.head?.toList.map .departure ++ stretch l.route ++
            .activityStart b.link :: wordFrom g b rest)
  | _ => [.finished]

/-- The word of a day. -/
def Itinerary.word (g : Network) (t : Itinerary) : List EventKind :=
  match t.segments with
  | .activity a :: rest => wordFrom g a rest
  | _ => []

/-! ## Parts of a word -/

theorem drop_eq_cons {β : Type} {l : List β} {i : Nat} {x : β} (h : l[i]? = some x) :
    l.drop i = x :: l.drop (i + 1) := by
  obtain ⟨hlt, rfl⟩ := List.getElem?_eq_some_iff.1 h
  exact List.drop_eq_getElem_cons hlt

theorem stretch_drop_of_next {route : List LinkId} {i : Nat} {left link : LinkId}
    (hleft : route[i]? = some left) (hlink : route[i + 1]? = some link) :
    stretch (route.drop i) = .linkEnter left link :: stretch (route.drop (i + 1)) := by
  rw [drop_eq_cons hleft, drop_eq_cons hlink, stretch]

theorem stretch_drop_of_last {route : List LinkId} {i : Nat} {last : LinkId}
    (hlast : route[i]? = some last) (hnone : route[i + 1]? = none) :
    stretch (route.drop i) = [.arrival last] := by
  rw [drop_eq_cons hlast, List.drop_eq_nil_of_le (List.getElem?_eq_none_iff.1 hnone), stretch]

theorem wordFrom_ne_nil (g : Network) (a : Activity) (segments : List Segment) :
    wordFrom g a segments ≠ [] := by
  unfold wordFrom
  split
  · split <;> simp
  · simp

namespace Itinerary

variable {g : Network} {t : Itinerary} {index : Nat} {a b : Activity} {l : Leg}

theorem wordFrom_drop_of_leg (hleg : t.leg? index = some l)
    (hnext : t.activity? (index + 1) = some b) :
    wordFrom g a (t.segments.drop index) =
      match Route.culprit? g a.link b.link l.route with
      | some bad => [.stranded bad]
      | none =>
          .activityEnd a.link :: (l.route.head?.toList.map .departure ++ stretch l.route ++
            .activityStart b.link :: wordFrom g b (t.segments.drop (index + 2))) := by
  rw [drop_eq_cons (leg?_eq_some_iff.1 hleg), drop_eq_cons (activity?_eq_some_iff.1 hnext),
    wordFrom]

theorem wordFrom_drop_of_end (hend : t.length ≤ index) :
    wordFrom g a (t.segments.drop index) = [.finished] := by
  rw [List.drop_eq_nil_of_le hend, wordFrom]
  simp

theorem word_eq_wordFrom (h : t.firstActivity? = some a) :
    t.word g = wordFrom g a (t.segments.drop 1) := by
  have hfirst := drop_eq_cons (activity?_eq_some_iff.1 h)
  rw [List.drop_zero] at hfirst
  rw [word]
  split
  · rename_i b rest hsegments
    rw [hsegments] at hfirst
    cases hfirst
    rw [hsegments]
    rfl
  · rename_i hother
    exact absurd hfirst (hother a _)

end Itinerary

/-! ## What is ahead of an agent -/

namespace Agent

variable {g : Network} {a : Agent} {leg : Leg} {next : Activity} {clock : Clock}

/-- What is still to be told of an agent at an activity. -/
def dayAhead (g : Network) (a : Agent) : List EventKind :=
  match a.currentActivity? with
  | some activity => wordFrom g activity (a.itinerary.segments.drop (a.segment + 1))
  | none => []

/-- What is still to be told of an agent on a leg. -/
def legAhead (g : Network) (a : Agent) : List EventKind :=
  match a.currentLeg?, a.nextActivity? with
  | some leg, some next =>
      stretch (leg.route.drop a.routeIndex) ++
        .activityStart next.link :: wordFrom g next (a.itinerary.segments.drop (a.segment + 2))
  | _, _ => []

theorem dayAhead_eq {activity : Activity} (h : a.currentActivity? = some activity) :
    a.dayAhead g = wordFrom g activity (a.itinerary.segments.drop (a.segment + 1)) := by
  rw [dayAhead, h]

theorem legAhead_eq (h : a.OnLeg g leg next) :
    a.legAhead g = stretch (leg.route.drop a.routeIndex) ++
      .activityStart next.link :: wordFrom g next (a.itinerary.segments.drop (a.segment + 2)) := by
  rw [legAhead, h.onLeg, h.ahead]

theorem dayAhead_ne_nil {activity : Activity} (h : a.currentActivity? = some activity) :
    a.dayAhead g ≠ [] := by
  rw [dayAhead_eq h]
  exact wordFrom_ne_nil g activity _

theorem legAhead_ne_nil (h : a.OnLeg g leg next) : a.legAhead g ≠ [] := by
  rw [legAhead_eq h]
  simp

/-- Going on to the next link takes one event from what is ahead. -/
theorem legAhead_eq_cons (h : a.OnLeg g leg next) (hstate : a.state = .enRoute)
    {left target : LinkId} (hleft : a.currentLink? = some left)
    (htarget : a.nextLink? = some target) :
    a.legAhead g = .linkEnter left target :: a.onNextLink.legAhead g := by
  obtain ⟨-, -, -, -, honleg, -⟩ := advanceLink_eq h hstate htarget
  rw [currentLink?_of_onLeg h (Or.inr hstate)] at hleft
  rw [nextLink?_of_onLeg h hstate] at htarget
  rw [legAhead_eq h, legAhead_eq honleg, stretch_drop_of_next hleft htarget]
  rfl

/-- Landing takes the arrival and the start of the activity from what is ahead. -/
theorem legAhead_eq_of_last (h : a.OnLeg g leg next) (hstate : a.state = .enRoute)
    (hnext : a.nextLink? = none) (now : Nat) :
    a.legAhead g =
      .arrival next.link :: .activityStart next.link :: (a.atNextActivity now).dayAhead g := by
  have hlink := currentLink?_eq_of_nextLink?_eq_none h hstate hnext
  rw [currentLink?_of_onLeg h (Or.inr hstate)] at hlink
  rw [nextLink?_of_onLeg h hstate] at hnext
  rw [legAhead_eq h, stretch_drop_of_last hlink hnext,
    dayAhead_eq (currentActivity?_atNextActivity h now)]
  rfl

end Agent

end Thoroughfare

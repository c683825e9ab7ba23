import Mathlib.Algebra.Ring.Nat
import Mathlib.Data.Prod.Lex
import Thoroughfare.Proofs.Plan.Transitions

/-!
# The progress of an agent

However an agent is asked for transitions, where it is in its itinerary goes with what it is doing,
and it only ever goes forward.  Each leg allows as many transitions as its route has links, and
three more: to go off, to leave the road and to start the next activity.  One more transition ends
the day.  So an agent makes no more transitions than that in all, and none after the end of its day.
-/

namespace Thoroughfare

/-! ## The transitions that a day allows -/

/-- How many transitions a part of a day allows. -/
def Segment.allowance : Segment → Nat
  | .activity _ => 0
  | .leg l => l.route.length + 3

namespace Itinerary

variable {t : Itinerary} {index : Nat}

/-- How many transitions the parts of a day from one on allow. -/
def allowanceFrom (t : Itinerary) (index : Nat) : Nat :=
  ((t.segments.drop index).map Segment.allowance).sum

theorem allowanceFrom_of_getElem? {segment : Segment} (h : t.segments[index]? = some segment) :
    t.allowanceFrom index = segment.allowance + t.allowanceFrom (index + 1) := by
  obtain ⟨hlt, hget⟩ := List.getElem?_eq_some_iff.1 h
  rw [allowanceFrom, List.drop_eq_getElem_cons hlt, hget, List.map_cons, List.sum_cons]
  rfl

theorem allowanceFrom_of_activity {activity : Activity} (h : t.activity? index = some activity) :
    t.allowanceFrom index = t.allowanceFrom (index + 1) := by
  rw [allowanceFrom_of_getElem? (activity?_eq_some_iff.1 h), Segment.allowance, Nat.zero_add]

theorem allowanceFrom_of_leg {leg : Leg} (h : t.leg? index = some leg) :
    t.allowanceFrom index = leg.route.length + 3 + t.allowanceFrom (index + 1) := by
  rw [allowanceFrom_of_getElem? (leg?_eq_some_iff.1 h), Segment.allowance]

/-- Only the legs count. -/
theorem allowanceFrom_zero (t : Itinerary) :
    t.allowanceFrom 0 = (t.legs.map fun l => l.route.length + 3).sum := by
  rw [allowanceFrom, List.drop_zero, legs]
  induction t.segments with
  | nil => rfl
  | cons first rest ih =>
      cases first with
      | activity a =>
          rw [List.map_cons, List.sum_cons, Segment.allowance, Nat.zero_add, ih]
          rfl
      | leg l =>
          rw [List.map_cons, List.sum_cons, Segment.allowance, ih]
          rfl

end Itinerary

namespace Agent

variable {a a' : Agent} {now : Nat} {t : Transition}

/-! ## Where an agent may be -/

/-- Where an agent is in its itinerary goes with what it is doing. -/
structure Placed (a : Agent) : Prop where
  atActivity : a.state = .atActivity →
    (∃ activity, a.currentActivity? = some activity) ∧ a.routeIndex = 0
  departing : a.state = .departing →
    ∃ leg, a.currentLeg? = some leg ∧ leg.route ≠ [] ∧ a.routeIndex = 0
  enRoute : a.state = .enRoute →
    ∃ leg, a.currentLeg? = some leg ∧ a.routeIndex < leg.route.length
  arriving : a.state = .arriving →
    ∃ leg, a.currentLeg? = some leg ∧ a.routeIndex + 1 = leg.route.length

theorem placed_new (id : AgentId) (t : Itinerary) (start : Nat) : (new id t start).Placed where
  atActivity _ := ⟨t.exists_firstActivity, rfl⟩
  departing := nofun
  enRoute := nofun
  arriving := nofun

theorem Makes.placed (h : a.Makes now t a') (hplaced : a.Placed) : a'.Placed := by
  cases h with
  | endActivity hstate hleg hroute =>
      obtain ⟨activity, -, hnext⟩ := Option.bind_eq_some_iff.1 hleg
      exact ⟨nofun, fun _ => ⟨_, hnext, hroute, rfl⟩, nofun, nofun⟩
  | enterNetwork hstate =>
      obtain ⟨leg, hleg, hroute, hindex⟩ := hplaced.departing hstate
      have hlength : a.routeIndex < leg.route.length := hindex ▸ List.length_pos_iff.2 hroute
      exact ⟨nofun, nofun, fun _ => ⟨leg, hleg, hlength⟩, nofun⟩
  | advanceLink hstate hleg hplace =>
      have henRoute : a.onNextLink.state = .enRoute := hstate
      refine ⟨?_, ?_, fun _ => ⟨_, hleg, hplace⟩, ?_⟩ <;> rw [henRoute] <;> exact nofun
  | arrive hstate hleg hplace => exact ⟨nofun, nofun, nofun, fun _ => ⟨_, hleg, hplace⟩⟩
  | startActivity hstate hnext =>
      exact ⟨fun _ => ⟨⟨_, currentActivity?_of_nextActivity? hnext now⟩, rfl⟩, nofun, nofun, nofun⟩
  | finish hstate hlast => exact ⟨nofun, nofun, nofun, nofun⟩
  | abort hlive => exact ⟨nofun, nofun, nofun, nofun⟩

end Agent

/-! ## How far an agent has come -/

/-- The place of a state in the order of a trip; the end of the day comes last. -/
def AgentState.rank : AgentState → Nat
  | atActivity => 0
  | departing => 1
  | enRoute => 2
  | arriving => 3
  | finished => 4

theorem AgentState.rank_lt_finished {s : AgentState} (h : s ≠ .finished) :
    s.rank < finished.rank := by
  cases s with
  | finished => exact absurd rfl h
  | _ => decide

namespace Agent

variable {a a' : Agent} {now : Nat} {t : Transition}

/-- How far an agent has come: the segment counts first, then the place in the route, then the
state. -/
def progress (a : Agent) : Nat ×ₗ Nat ×ₗ Nat :=
  toLex (a.segment, toLex (a.routeIndex, a.state.rank))

theorem progress_lt_iff : a.progress < a'.progress ↔
    a.segment < a'.segment ∨ a.segment = a'.segment ∧
      (a.routeIndex < a'.routeIndex ∨ a.routeIndex = a'.routeIndex ∧
        a.state.rank < a'.state.rank) := by
  rw [progress, progress, Prod.Lex.toLex_lt_toLex, Prod.Lex.toLex_lt_toLex]

theorem Makes.not_finished (h : a.Makes now t a') : a.state ≠ .finished := by
  cases h with
  | abort hlive => exact hlive
  | endActivity hstate | enterNetwork hstate | advanceLink hstate | arrive hstate
  | startActivity hstate | finish hstate => exact hstate ▸ nofun

theorem Makes.progress_lt (h : a.Makes now t a') : a.progress < a'.progress := by
  rw [progress_lt_iff]
  have hrank := AgentState.rank_lt_finished h.not_finished
  cases h with
  | endActivity => exact Or.inl (Nat.lt_succ_self _)
  | enterNetwork hstate =>
      have hnext : AgentState.departing.rank < AgentState.enRoute.rank := by decide
      exact Or.inr ⟨rfl, Or.inr ⟨rfl, hstate ▸ hnext⟩⟩
  | advanceLink => exact Or.inr ⟨rfl, Or.inl (Nat.lt_succ_self _)⟩
  | arrive hstate =>
      have hnext : AgentState.enRoute.rank < AgentState.arriving.rank := by decide
      exact Or.inr ⟨rfl, Or.inr ⟨rfl, hstate ▸ hnext⟩⟩
  | startActivity => exact Or.inl (Nat.lt_succ_self _)
  | finish => exact Or.inr ⟨rfl, Or.inr ⟨rfl, hrank⟩⟩
  | abort => exact Or.inr ⟨rfl, Or.inr ⟨rfl, hrank⟩⟩

theorem Makes.segment_le (h : a.Makes now t a') : a.segment ≤ a'.segment := by
  rcases progress_lt_iff.1 h.progress_lt with hlt | ⟨heq, -⟩
  · exact Nat.le_of_lt hlt
  · exact Nat.le_of_eq heq

theorem Makes.id_eq (h : a.Makes now t a') : a'.id = a.id ∧ a'.itinerary = a.itinerary := by
  cases h <;> exact ⟨rfl, rfl⟩

/-- How many transitions an agent can still make. -/
def toGo (a : Agent) : Nat :=
  let ahead := a.itinerary.allowanceFrom a.segment
  match a.state with
  | .atActivity => ahead + 1
  | .departing => ahead
  | .enRoute => ahead - (a.routeIndex + 1)
  | .arriving => ahead - (a.routeIndex + 2)
  | .finished => 0

theorem Placed.toGo_pos (h : a.Placed) (hlive : a.state ≠ .finished) : 0 < a.toGo := by
  cases hstate : a.state with
  | atActivity =>
      simp only [toGo, hstate]
      omega
  | departing =>
      obtain ⟨leg, hleg, -⟩ := h.departing hstate
      have hahead := Itinerary.allowanceFrom_of_leg hleg
      simp only [toGo, hstate]
      omega
  | enRoute =>
      obtain ⟨leg, hleg, hplace⟩ := h.enRoute hstate
      have hahead := Itinerary.allowanceFrom_of_leg hleg
      simp only [toGo, hstate]
      omega
  | arriving =>
      obtain ⟨leg, hleg, hplace⟩ := h.arriving hstate
      have hahead := Itinerary.allowanceFrom_of_leg hleg
      simp only [toGo, hstate]
      omega
  | finished => exact absurd hstate hlive

/-- Each transition uses up one of those that the agent can still make. -/
theorem Makes.toGo_lt (h : a.Makes now t a') (hplaced : a.Placed) : a'.toGo < a.toGo := by
  cases h with
  | endActivity hstate hleg hroute =>
      obtain ⟨⟨activity, hactivity⟩, -⟩ := hplaced.atActivity hstate
      have hahead := Itinerary.allowanceFrom_of_activity hactivity
      simp only [toGo, goneOff, hstate]
      omega
  | enterNetwork hstate =>
      obtain ⟨leg, hleg, -, hindex⟩ := hplaced.departing hstate
      have hahead := Itinerary.allowanceFrom_of_leg hleg
      simp only [toGo, enteredTraffic, hstate]
      omega
  | advanceLink hstate hleg hplace =>
      have hahead := Itinerary.allowanceFrom_of_leg hleg
      simp only [toGo, onNextLink, hstate]
      omega
  | arrive hstate hleg hplace =>
      have hahead := Itinerary.allowanceFrom_of_leg hleg
      simp only [toGo, offTheRoad, hstate]
      omega
  | startActivity hstate hnext =>
      obtain ⟨leg, hleg, hplace⟩ := hplaced.arriving hstate
      have hahead := Itinerary.allowanceFrom_of_leg hleg
      simp only [toGo, atNextActivity, hstate]
      omega
  | finish hstate => exact hplaced.toGo_pos (by rw [hstate]; decide)
  | abort hlive => exact hplaced.toGo_pos hlive

/-- A new agent can make the transitions that its legs allow, and one to end its day. -/
theorem toGo_new (id : AgentId) (t : Itinerary) (start : Nat) :
    (new id t start).toGo = (t.legs.map fun l => l.route.length + 3).sum + 1 :=
  congrArg (· + 1) t.allowanceFrom_zero

/-! ## All transitions of a day -/

/-- A new agent stays where it may be, and has made no more transitions than it could when it was
new, less those that it can still make. -/
theorem placed_afterAll (id : AgentId) (t : Itinerary) (start : Nat)
    (calls : List (Nat × Transition)) :
    (InPlace.afterAll perform.uncurry (new id t start) calls).Placed ∧
      (InPlace.granted perform.uncurry (new id t start) calls).length +
        (InPlace.afterAll perform.uncurry (new id t start) calls).toGo ≤
          (new id t start).toGo := by
  refine InPlace.afterAll_keeps
    (fun (a : Agent) before => a.Placed ∧ before.length + a.toGo ≤ (new id t start).toGo)
    ?_ ?_ ⟨placed_new id t start, Nat.le_of_eq (Nat.zero_add _)⟩ calls
  · rintro a before ⟨now, transition⟩ links a' ⟨hplaced, hlength⟩ hrun
    obtain ⟨links', a'', -, hrun', hmakes⟩ | ⟨-, hrun'⟩ := perform_cases now transition a
    · cases hrun.symm.trans hrun'
      have hless := hmakes.toGo_lt hplaced
      rw [List.length_append, List.length_singleton]
      exact ⟨hmakes.placed hplaced, by omega⟩
    · cases hrun.symm.trans hrun'
  · rintro a before ⟨now, transition⟩ e a' h hrun
    obtain ⟨links', a'', -, hrun', hmakes⟩ | ⟨-, hrun'⟩ := perform_cases now transition a
    · cases hrun.symm.trans hrun'
    · cases hrun.symm.trans hrun'
      exact h

/-- Whatever a new agent is asked for, in whatever order, where it is goes with what it is doing.  A
transition that it makes never lowers its segment and takes it forward; one that it refuses leaves
it as it was, although it is made in place; and at the end of its day it refuses all of them.  It
makes no more transitions than its legs have links, three more for each leg, and one to end its
day. -/
theorem transitions_lead_forward (id : AgentId) (t : Itinerary) (start : Nat)
    (calls : List (Nat × Transition)) :
    let a := InPlace.afterAll perform.uncurry (new id t start) calls
    a.Placed ∧
    (∀ now transition,
      (∃ links a', ask now transition a = .ok (links, a') ∧
        (perform now transition).run a = .ok links a' ∧
        a'.id = a.id ∧ a'.itinerary = a.itinerary ∧
        a.segment ≤ a'.segment ∧ a.progress < a'.progress) ∨
      (ask now transition a = .error ⟨a.id, a.state, transition⟩ ∧
        (perform now transition).run a = .error ⟨a.id, a.state, transition⟩ a)) ∧
    (a.state = .finished → ∀ now transition,
      (perform now transition).run a = .error ⟨a.id, .finished, transition⟩ a) ∧
    (InPlace.granted perform.uncurry (new id t start) calls).length ≤
      1 + (t.legs.map fun l => l.route.length + 3).sum := by
  intro a
  obtain ⟨hplaced, hlength⟩ := placed_afterAll id t start calls
  refine ⟨hplaced, fun now transition => ?_, fun hfinished now transition => ?_, ?_⟩
  · obtain ⟨links, a', hask, hrun, hmakes⟩ | hrefused := perform_cases now transition a
    · exact Or.inl ⟨links, a', hask, hrun, hmakes.id_eq.1, hmakes.id_eq.2, hmakes.segment_le,
        hmakes.progress_lt⟩
    · exact Or.inr hrefused
  · obtain ⟨links, a', -, -, hmakes⟩ | ⟨-, hrun⟩ := perform_cases now transition a
    · exact absurd hfinished hmakes.not_finished
    · exact hfinished ▸ hrun
  · rw [toGo_new] at hlength
    omega

/-- A day with a trip to the next street. -/
def errand : Itinerary where
  segments := [.activity ⟨"home", ⟨0⟩, some 10, none⟩, .leg (.byCar [⟨0⟩, ⟨1⟩]),
    .activity ⟨"shop", ⟨1⟩, none, none⟩]
  faultless := by decide

/-- An agent on an errand makes as many transitions as the day allows, although it is asked for two
of them too early, and none from then on. -/
theorem transitions_lead_forward_errand :
    let calls : List (Nat × Transition) := [(10, .endActivity), (10, .arrive), (10, .enterNetwork),
      (11, .advanceLink), (12, .startActivity), (12, .arrive), (12, .startActivity), (13, .finish)]
    let a := InPlace.afterAll perform.uncurry (new ⟨0⟩ errand 0) calls
    a.state = .finished ∧
    (∀ now transition, (perform now transition).run a = .error ⟨⟨0⟩, .finished, transition⟩ a) ∧
    (InPlace.granted perform.uncurry (new ⟨0⟩ errand 0) calls).length =
      1 + (errand.legs.map fun l => l.route.length + 3).sum :=
  ⟨rfl, (transitions_lead_forward ⟨0⟩ errand 0 _).2.2.1 rfl, rfl⟩

end Agent
end Thoroughfare

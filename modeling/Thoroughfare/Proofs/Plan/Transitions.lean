import Thoroughfare.Proofs.InPlace
import Thoroughfare.Proofs.Plan.Course

/-!
# The transitions of an agent

An agent may be asked for any transition at any time.  What it makes of each is described once, with
the condition under which it makes it.  All of them are made in place, and one of them looks up its
answer only behind its last write; its check at the beginning has made sure that there is one, so
that no transition is refused half made.
-/

namespace Thoroughfare
namespace Agent

variable {a a' : Agent} {now : Nat} {t : Transition}

/-- Ask an agent for a transition at a second; the links that it names are answered. -/
def ask (now : Nat) : Transition → Agent → Except IllegalTransition (List LinkId × Agent)
  | .endActivity, a => a.endActivity.map fun (first, a') => ([first], a')
  | .enterNetwork, a => a.enterNetwork.map fun (link, a') => ([link], a')
  | .advanceLink, a => a.advanceLink.map fun ((left, entered), a') => ([left, entered], a')
  | .arrive, a => a.arrive.map fun (link, a') => ([link], a')
  | .startActivity, a => (a.startActivity now).map fun (link, a') => ([link], a')
  | .finish, a => a.finish.map fun a' => ([], a')
  | .abort, a => a.abort.map fun a' => ([], a')

/-- Off the last link of its leg. -/
def offTheRoad (a : Agent) : Agent :=
  { a with state := .arriving }

/-- The transitions that an agent may make, and what becomes of it. -/
inductive Makes (now : Nat) (a : Agent) : Transition → Agent → Prop
  | endActivity {leg : Leg} (hstate : a.state = .atActivity) (hleg : a.nextLeg? = some leg)
      (hroute : leg.route ≠ []) : Makes now a .endActivity a.goneOff
  | enterNetwork (hstate : a.state = .departing) : Makes now a .enterNetwork a.enteredTraffic
  | advanceLink {leg : Leg} (hstate : a.state = .enRoute) (hleg : a.currentLeg? = some leg)
      (hplace : a.routeIndex + 1 < leg.route.length) : Makes now a .advanceLink a.onNextLink
  | arrive {leg : Leg} (hstate : a.state = .enRoute) (hleg : a.currentLeg? = some leg)
      (hplace : a.routeIndex + 1 = leg.route.length) : Makes now a .arrive a.offTheRoad
  | startActivity {activity : Activity} (hstate : a.state = .arriving)
      (hnext : a.nextActivity? = some activity) : Makes now a .startActivity (a.atNextActivity now)
  | finish (hstate : a.state = .atActivity) (hlast : a.itinerary.length ≤ a.segment + 1) :
      Makes now a .finish a.done
  | abort (hlive : a.state ≠ .finished) : Makes now a .abort a.done

theorem nextLink?_eq_some_iff {link : LinkId} : a.nextLink? = some link ↔
    a.state = .enRoute ∧ ∃ leg, a.currentLeg? = some leg ∧
      leg.route[a.routeIndex + 1]? = some link := by
  unfold nextLink?
  split
  · rename_i hstate
    rw [Option.bind_eq_some_iff]
    exact ⟨fun h => ⟨hstate, h⟩, fun h => h.2⟩
  · rename_i hstate
    exact ⟨nofun, fun h => absurd h.1 hstate⟩

/-- An agent that is asked for a transition makes it, or says that it may not. -/
theorem ask_cases (now : Nat) (t : Transition) (a : Agent) :
    (∃ links a', ask now t a = .ok (links, a') ∧ a.Makes now t a') ∨
      ask now t a = .error ⟨a.id, a.state, t⟩ := by
  cases t with
  | endActivity =>
      simp only [ask, endActivity, refuse]
      split
      · rename_i hstate
        split
        · rename_i first hfirst
          obtain ⟨leg, hleg, hhead⟩ := Option.bind_eq_some_iff.1 hfirst
          have hroute : leg.route ≠ [] := List.ne_nil_of_mem (List.mem_of_head? hhead)
          exact Or.inl ⟨_, _, rfl, .endActivity hstate hleg hroute⟩
        · exact Or.inr rfl
      · exact Or.inr rfl
  | enterNetwork =>
      simp only [ask, enterNetwork, refuse]
      split
      · rename_i hstate
        split
        · exact Or.inl ⟨_, _, rfl, .enterNetwork hstate⟩
        · exact Or.inr rfl
      · exact Or.inr rfl
  | advanceLink =>
      simp only [ask, advanceLink, refuse]
      split
      · rename_i left entered hleft hentered
        obtain ⟨hstate, leg, hleg, hget⟩ := nextLink?_eq_some_iff.1 hentered
        have hplace := (List.getElem?_eq_some_iff.1 hget).1
        exact Or.inl ⟨_, _, rfl, .advanceLink hstate hleg hplace⟩
      · exact Or.inr rfl
  | arrive =>
      simp only [ask, arrive, refuse]
      split
      · rename_i hend
        obtain ⟨hstate, hnext⟩ := hend
        split
        · rename_i link hlink
          simp only [currentLink?, hstate] at hlink
          obtain ⟨leg, hleg, hget⟩ := Option.bind_eq_some_iff.1 hlink
          have hplace := (List.getElem?_eq_some_iff.1 hget).1
          have hlast : leg.route.length ≤ a.routeIndex + 1 := by
            simpa [nextLink?, hstate, hleg] using hnext
          exact Or.inl ⟨_, _, rfl, .arrive hstate hleg (by omega)⟩
        · exact Or.inr rfl
      · exact Or.inr rfl
  | startActivity =>
      simp only [ask, startActivity, refuse]
      split
      · rename_i hstate
        split
        · rename_i activity hnext
          exact Or.inl ⟨_, _, rfl, .startActivity hstate hnext⟩
        · exact Or.inr rfl
      · exact Or.inr rfl
  | finish =>
      simp only [ask, finish, refuse]
      split
      · rename_i hfinal
        obtain ⟨hstate, hlast⟩ := Bool.and_eq_true_iff.1 hfinal
        exact Or.inl ⟨_, _, rfl, .finish (of_decide_eq_true hstate) (of_decide_eq_true hlast)⟩
      · exact Or.inr rfl
  | abort =>
      simp only [ask, abort, refuse]
      split
      · exact Or.inr rfl
      · rename_i hlive
        exact Or.inl ⟨_, _, rfl, .abort hlive⟩

/-! ## Transitions in place -/

/-- Make a transition on the fields of an agent, one after the other. -/
def perform (now : Nat) : Transition → EStateM IllegalTransition Agent (List LinkId)
  | .endActivity => do
      let a ← get
      if a.state ≠ .atActivity then throw ⟨a.id, a.state, .endActivity⟩
      let some first := a.nextLeg?.bind fun l => l.route.head?
        | throw ⟨a.id, a.state, .endActivity⟩
      modify fun a => { a with segment := a.segment + 1 }
      modify fun a => { a with routeIndex := 0 }
      modify fun a => { a with state := .departing }
      return [first]
  | .enterNetwork => do
      let a ← get
      if a.state ≠ .departing then throw ⟨a.id, a.state, .enterNetwork⟩
      let some link := a.currentLink? | throw ⟨a.id, a.state, .enterNetwork⟩
      modify fun a => { a with state := .enRoute }
      return [link]
  | .advanceLink => do
      let a ← get
      let some left := a.currentLink? | throw ⟨a.id, a.state, .advanceLink⟩
      let some entered := a.nextLink? | throw ⟨a.id, a.state, .advanceLink⟩
      modify fun a => { a with routeIndex := a.routeIndex + 1 }
      return [left, entered]
  | .arrive => do
      let a ← get
      if a.state ≠ .enRoute ∨ a.nextLink?.isSome then throw ⟨a.id, a.state, .arrive⟩
      let some link := a.currentLink? | throw ⟨a.id, a.state, .arrive⟩
      modify fun a => { a with state := .arriving }
      return [link]
  | .startActivity => do
      let a ← get
      if a.state ≠ .arriving ∨ a.nextActivity?.isNone then
        throw ⟨a.id, a.state, .startActivity⟩
      modify fun a => { a with segment := a.segment + 1 }
      modify fun a => { a with routeIndex := 0 }
      modify fun a => { a with state := .atActivity }
      modify fun a => { a with activityStart := now }
      -- A refusal from here on would leave the agent at an activity that it has not got.
      let a ← get
      let some activity := a.currentActivity? | throw ⟨a.id, a.state, .startActivity⟩
      return [activity.link]
  | .finish => do
      let a ← get
      if !a.atFinalActivity then throw ⟨a.id, a.state, .finish⟩
      modify fun a => { a with state := .finished }
      return []
  | .abort => do
      let a ← get
      if a.state = .finished then throw ⟨a.id, a.state, .abort⟩
      modify fun a => { a with state := .finished }
      return []

theorem perform_arrive (now : Nat) (a : Agent) :
    (perform now .arrive).run a = InPlace.atomically (ask now .arrive) a := by
  by_cases hstate : a.state = .enRoute
  · cases hnext : a.nextLink? with
    | none =>
        cases hlink : a.currentLink? <;>
        · simp only [perform, InPlace.atomically, ask, arrive, refuse, EStateM.run_bind,
            EStateM.run_get, hstate, hnext, hlink, ne_eq, not_true, Option.isSome_none,
            Bool.false_eq_true, or_self, and_self, if_true, if_false]
          rfl
    | some next =>
        simp only [perform, InPlace.atomically, ask, arrive, EStateM.run_bind,
          EStateM.run_get, EStateM.run_throw, hnext, Option.isSome_some, or_true, reduceCtorEq,
          and_false, if_true, if_false]
        rfl
  · simp only [perform, InPlace.atomically, ask, arrive, EStateM.run_bind,
      EStateM.run_get, EStateM.run_throw, hstate, ne_eq, not_false_eq_true, true_or, false_and,
      if_true, if_false]
    rfl

/-- The activity that an agent looks up when it has got there is the one that it has checked to be
there before it went. -/
theorem perform_startActivity (now : Nat) (a : Agent) :
    (perform now .startActivity).run a = InPlace.atomically (ask now .startActivity) a := by
  by_cases hstate : a.state = .arriving
  · cases hnext : a.nextActivity? with
    | none =>
        simp only [perform, InPlace.atomically, ask, startActivity, EStateM.run_bind,
          EStateM.run_get, EStateM.run_throw, hnext, Option.isNone_none, or_true, if_true]
        rw [if_pos hstate]
        rfl
    | some activity =>
        have hthere : (a.atNextActivity now).currentActivity? = some activity :=
          currentActivity?_of_nextActivity? hnext now
        rw [atNextActivity] at hthere
        simp only [perform, InPlace.atomically, ask, startActivity, EStateM.run_bind,
          EStateM.run_get, EStateM.run_modify, EStateM.run_pure, hstate, hnext, hthere, ne_eq,
          not_true, Option.isNone_some, Bool.false_eq_true, or_self, if_true, if_false]
        rfl
  · simp only [perform, InPlace.atomically, ask, startActivity, EStateM.run_bind,
      EStateM.run_get, EStateM.run_throw, hstate, ne_eq, not_false_eq_true, true_or, if_true,
      if_false]
    rfl

/-- Every transition is made as a whole or not at all. -/
theorem perform_eq (now : Nat) (t : Transition) :
    perform now t = InPlace.atomically (ask now t) := by
  funext a
  change (perform now t).run a = InPlace.atomically (ask now t) a
  cases t with
  | endActivity =>
      by_cases hstate : a.state = .atActivity
      · cases hfirst : a.nextLeg?.bind fun l => l.route.head? <;>
        · simp only [perform, InPlace.atomically, ask, endActivity, refuse, EStateM.run_bind,
            EStateM.run_get, hstate, hfirst, ne_eq, not_true, if_true, if_false]
          rfl
      · simp only [perform, InPlace.atomically, ask, endActivity, EStateM.run_bind,
          EStateM.run_get, EStateM.run_throw, hstate, ne_eq, not_false_eq_true, if_true, if_false]
        rfl
  | enterNetwork =>
      by_cases hstate : a.state = .departing
      · cases hlink : a.currentLink? <;>
        · simp only [perform, InPlace.atomically, ask, enterNetwork, refuse, EStateM.run_bind,
            EStateM.run_get, hstate, hlink, ne_eq, not_true, if_true, if_false]
          rfl
      · simp only [perform, InPlace.atomically, ask, enterNetwork, EStateM.run_bind,
          EStateM.run_get, EStateM.run_throw, hstate, ne_eq, not_false_eq_true, if_true, if_false]
        rfl
  | advanceLink =>
      cases hleft : a.currentLink? <;> cases hentered : a.nextLink? <;>
      · simp only [perform, InPlace.atomically, ask, advanceLink, EStateM.run_bind,
          EStateM.run_get, hleft, hentered]
        rfl
  | arrive => exact perform_arrive now a
  | startActivity => exact perform_startActivity now a
  | finish =>
      cases hfinal : a.atFinalActivity <;>
      · simp only [perform, InPlace.atomically, ask, finish, EStateM.run_bind,
          EStateM.run_get, hfinal, Bool.not_true, Bool.not_false, Bool.false_eq_true, if_true,
          if_false]
        rfl
  | abort =>
      by_cases hstate : a.state = .finished <;>
      · simp only [perform, InPlace.atomically, ask, abort, refuse, EStateM.run_bind,
          EStateM.run_get, hstate, if_true, if_false]
        rfl

/-- What is left behind by a transition that is made in place. -/
theorem perform_cases (now : Nat) (t : Transition) (a : Agent) :
    (∃ links a', ask now t a = .ok (links, a') ∧ (perform now t).run a = .ok links a' ∧
      a.Makes now t a') ∨
    (ask now t a = .error ⟨a.id, a.state, t⟩ ∧
      (perform now t).run a = .error ⟨a.id, a.state, t⟩ a) := by
  rw [perform_eq]
  obtain ⟨links, a', hask, hmakes⟩ | hask := ask_cases now t a
  · exact Or.inl ⟨links, a', hask, InPlace.run_atomically_of_ok hask, hmakes⟩
  · exact Or.inr ⟨hask, InPlace.run_atomically_of_error hask⟩

end Agent
end Thoroughfare

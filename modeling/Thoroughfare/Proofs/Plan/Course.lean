import Mathlib.Data.List.Induction
import Thoroughfare.Plan.Route
import Thoroughfare.Simulation.Movement
import Thoroughfare.Simulation.Waking

/-!
# The course of an agent

An itinerary without fault is a chain of activities with a leg between each two, so an agent that
is not at its last activity always finds a leg and a next activity.  An agent that went off on a
leg which can be driven keeps all that the check of the route found out: it is on a leg whose links
exist and meet, and which ends where the next activity is.

Each transition that a step makes of an agent is described here once, with everything it does.
-/

namespace Thoroughfare

/-! ## Activities and legs by turns -/

/-- Where a segment without fault may stand. -/
def Segment.FitsPlace (segment : Segment) (index : Nat) : Prop :=
  match segment with
  | .activity _ => index % 2 = 0
  | .leg _ => index % 2 = 1

/-- What the check finds out about the first of some segments. -/
theorem segmentFault?_cons {first : Segment} {rest : List Segment} {index : Nat}
    (h : segmentFault? index (first :: rest) = none) :
    segmentFault? (index + 1) rest = none ∧ first.FitsPlace index ∧
      ∀ a, first = .activity a → rest ≠ [] → a.hasEnd = true := by
  cases first with
  | activity a =>
      rcases Nat.mod_two_eq_zero_or_one index with hmod | hmod
      · simp only [segmentFault?, hmod] at h
        split at h
        · cases h
        · rename_i hclosed
          refine ⟨h, hmod, ?_⟩
          rintro b ⟨⟩ hrest
          simpa [hrest] using hclosed
      · simp [segmentFault?, hmod] at h
  | leg l =>
      rcases Nat.mod_two_eq_zero_or_one index with hmod | hmod
      · simp [segmentFault?, hmod] at h
      · simp only [segmentFault?, hmod] at h
        refine ⟨h, hmod, ?_⟩
        rintro b ⟨⟩

theorem fitsPlace_of_segmentFault? {segments : List Segment} {index : Nat}
    (h : segmentFault? index segments = none) :
    (index + segments.length) % 2 = 1 ∧
      ∀ (i : Nat) (segment : Segment), segments[i]? = some segment →
        segment.FitsPlace (index + i) := by
  induction segments generalizing index with
  | nil =>
      simp only [segmentFault?] at h
      split at h
      · cases h
      · exact ⟨by simp only [List.length_nil]; omega, by simp⟩
  | cons first rest ih =>
      obtain ⟨hrest, hfirst, -⟩ := segmentFault?_cons h
      obtain ⟨hlength, hfits⟩ := ih hrest
      refine ⟨by simp only [List.length_cons]; omega, ?_⟩
      intro i segment hi
      cases i with
      | zero =>
          simp only [List.getElem?_cons_zero, Option.some.injEq] at hi
          exact hi ▸ hfirst
      | succ i =>
          rw [List.getElem?_cons_succ] at hi
          have hplace := hfits i segment hi
          rwa [show index + 1 + i = index + (i + 1) by omega] at hplace

/-- When activities and legs stand by turns, every second segment is a leg. -/
theorem getElem?_legs_of_fitsPlace {segments : List Segment}
    (hfits : ∀ (i : Nat) (segment : Segment), segments[i]? = some segment → segment.FitsPlace i)
    (n : Nat) :
    (segments.filterMap fun segment =>
      match segment with
      | .leg l => some l
      | .activity _ => none)[n]? =
    match segments[2 * n + 1]? with
    | some (.leg l) => some l
    | _ => none := by
  induction segments using List.twoStepInduction generalizing n with
  | nil => simp
  | singleton first =>
      have hfirst := hfits 0 first rfl
      cases first with
      | activity a => simp
      | leg l => cases hfirst
  | cons_cons first second rest ih _ =>
      have hfirst := hfits 0 first rfl
      have hsecond := hfits 1 second rfl
      have hrest : ∀ (i : Nat) (segment : Segment), rest[i]? = some segment →
          segment.FitsPlace i := by
        intro i segment hi
        have hplace := hfits (i + 2) segment hi
        cases segment <;> simpa [Segment.FitsPlace] using hplace
      cases first with
      | leg l => cases hfirst
      | activity a =>
          cases second with
          | activity b => cases hsecond
          | leg l =>
              cases n with
              | zero => simp
              | succ n =>
                  rw [show 2 * (n + 1) + 1 = (2 * n + 1) + 2 by omega]
                  simpa using ih hrest n

namespace Itinerary

variable {t : Itinerary} {index : Nat}

theorem activity?_eq_some_iff {a : Activity} :
    t.activity? index = some a ↔ t.segments[index]? = some (.activity a) := by
  unfold activity?
  split <;> simp_all

theorem leg?_eq_some_iff {l : Leg} :
    t.leg? index = some l ↔ t.segments[index]? = some (.leg l) := by
  unfold leg?
  split <;> simp_all

/-- Every segment stands where it may, and the last one is an activity. -/
theorem fitsPlace (t : Itinerary) :
    t.length % 2 = 1 ∧
      ∀ (i : Nat) (segment : Segment), t.segments[i]? = some segment → segment.FitsPlace i := by
  have hfault := t.faultless
  unfold itineraryFault? at hfault
  split at hfault
  · cases hfault
  · have h := fitsPlace_of_segmentFault? hfault
    simp only [Nat.zero_add] at h
    exact h

theorem exists_activity_of_even (heven : index % 2 = 0) (hlt : index < t.length) :
    ∃ a, t.activity? index = some a := by
  have hget : t.segments[index]? = some t.segments[index] := List.getElem?_eq_getElem hlt
  have hplace := t.fitsPlace.2 index _ hget
  cases hsegment : t.segments[index] with
  | activity a => exact ⟨a, activity?_eq_some_iff.2 (hsegment ▸ hget)⟩
  | leg l =>
      rw [hsegment] at hplace
      simp only [Segment.FitsPlace] at hplace
      omega

theorem exists_leg_of_odd (hodd : index % 2 = 1) (hlt : index < t.length) :
    ∃ l, t.leg? index = some l := by
  have hget : t.segments[index]? = some t.segments[index] := List.getElem?_eq_getElem hlt
  have hplace := t.fitsPlace.2 index _ hget
  cases hsegment : t.segments[index] with
  | activity a =>
      rw [hsegment] at hplace
      simp only [Segment.FitsPlace] at hplace
      omega
  | leg l => exact ⟨l, leg?_eq_some_iff.2 (hsegment ▸ hget)⟩

theorem getElem?_legs (t : Itinerary) (n : Nat) : t.legs[n]? = t.leg? (2 * n + 1) :=
  getElem?_legs_of_fitsPlace t.fitsPlace.2 n

theorem mem_legs_of_leg? {l : Leg} (h : t.leg? index = some l) : l ∈ t.legs :=
  List.mem_filterMap.2 ⟨.leg l, List.mem_of_getElem? (leg?_eq_some_iff.1 h), rfl⟩

theorem even_of_activity {a : Activity} (h : t.activity? index = some a) : index % 2 = 0 :=
  t.fitsPlace.2 index _ (activity?_eq_some_iff.1 h)

theorem odd_of_leg {l : Leg} (h : t.leg? index = some l) : index % 2 = 1 :=
  t.fitsPlace.2 index _ (leg?_eq_some_iff.1 h)

/-- Behind an activity that is not the last one there are a leg and another activity. -/
theorem exists_leg_and_activity {a : Activity} (h : t.activity? index = some a)
    (hlast : index + 1 < t.length) :
    ∃ l b, t.leg? (index + 1) = some l ∧ t.activity? (index + 2) = some b := by
  have heven := even_of_activity h
  have hodd := t.fitsPlace.1
  obtain ⟨l, hl⟩ := @exists_leg_of_odd t (index + 1) (by omega) hlast
  obtain ⟨b, hb⟩ := @exists_activity_of_even t (index + 2) (by omega) (by omega)
  exact ⟨l, b, hl, hb⟩

theorem exists_firstActivity (t : Itinerary) : ∃ a, t.firstActivity? = some a := by
  have hodd := t.fitsPlace.1
  exact exists_activity_of_even (by omega) (by omega)

end Itinerary

/-! ## Routes that can be driven -/

namespace Route

variable {g : Network} {origin destination : LinkId} {route : List LinkId}

/-- What the check of a route makes sure of. -/
structure Drivable (g : Network) (origin destination : LinkId) (route : List LinkId) : Prop where
  first : route.head? = some origin
  last : route.getLast? = some destination
  known : ∀ link ∈ route, g.hasLink link = true
  joined : ∀ (i : Nat) (a b : LinkId), route[i]? = some a → route[i + 1]? = some b →
    g.adjacent a b = true

theorem joined_of_firstGap? (h : firstGap? g route = none) :
    ∀ (i : Nat) (a b : LinkId), route[i]? = some a → route[i + 1]? = some b →
      g.adjacent a b = true := by
  induction route with
  | nil => simp
  | cons first rest ih =>
      cases rest with
      | nil => simp
      | cons second rest =>
          unfold firstGap? at h
          split at h
          · rename_i hadjacent
            intro i a b ha hb
            cases i with
            | zero =>
                simp only [List.getElem?_cons_zero, List.getElem?_cons_succ,
                  Option.some.injEq] at ha hb
                exact ha ▸ hb ▸ hadjacent
            | succ i =>
                rw [List.getElem?_cons_succ] at ha hb
                exact ih h i a b ha hb
          · cases h

/-- A route without culprit can be driven. -/
theorem drivable_of_culprit? (h : culprit? g origin destination route = none) :
    Drivable g origin destination route := by
  unfold culprit? at h
  split at h
  · rename_i first last hfirst hlast
    split at h
    · cases h
    · rename_i hmissing
      split at h
      · cases h
      · rename_i horigin
        split at h
        · cases h
        · rename_i hdestination
          simp only [ne_eq, Decidable.not_not] at horigin hdestination
          refine ⟨horigin ▸ hfirst, hdestination ▸ hlast, ?_, joined_of_firstGap? h⟩
          intro link hlink
          simpa using List.find?_eq_none.1 hmissing link hlink
  · cases h

end Route

/-! ## Agents on a leg -/

/-- The agent is on a leg that can be driven to the next activity. -/
structure Agent.OnLeg (g : Network) (a : Agent) (leg : Leg) (next : Activity) : Prop where
  onLeg : a.currentLeg? = some leg
  ahead : a.nextActivity? = some next
  last : leg.route.getLast? = some next.link
  known : ∀ link ∈ leg.route, g.hasLink link = true
  joined : ∀ (i : Nat) (l m : LinkId), leg.route[i]? = some l → leg.route[i + 1]? = some m →
    g.adjacent l m = true
  place : a.routeIndex < leg.route.length

namespace Agent

variable {g : Network} {a : Agent} {leg : Leg} {next : Activity} {clock : Clock}

/-- Off to the leg behind its activity. -/
def goneOff (a : Agent) : Agent :=
  { a with segment := a.segment + 1, routeIndex := 0, state := .departing }

/-- In traffic on the first link of its leg. -/
def enteredTraffic (a : Agent) : Agent :=
  { a with state := .enRoute }

/-- On the next link of its route. -/
def onNextLink (a : Agent) : Agent :=
  { a with routeIndex := a.routeIndex + 1 }

/-- At the activity behind its leg, since a given second. -/
def atNextActivity (a : Agent) (now : Nat) : Agent :=
  { a with segment := a.segment + 1, routeIndex := 0, state := .atActivity, activityStart := now }

/-- At the end of its day. -/
def done (a : Agent) : Agent :=
  { a with state := .finished }

theorem OnLeg.odd (h : a.OnLeg g leg next) : a.segment % 2 = 1 :=
  Itinerary.odd_of_leg h.onLeg

/-- As many legs are over as there are pairs of segments before the present one. -/
theorem OnLeg.getElem?_legs (h : a.OnLeg g leg next) :
    a.itinerary.legs[a.segment / 2]? = some leg := by
  have hodd := h.odd
  have hsegment : 2 * (a.segment / 2) + 1 = a.segment := by omega
  rw [Itinerary.getElem?_legs, hsegment]
  exact h.onLeg

theorem currentLink?_of_onLeg (h : a.OnLeg g leg next)
    (hstate : a.state = .departing ∨ a.state = .enRoute) :
    a.currentLink? = leg.route[a.routeIndex]? := by
  rcases hstate with hstate | hstate <;> simp [currentLink?, hstate, h.onLeg]

theorem nextLink?_of_onLeg (h : a.OnLeg g leg next) (hstate : a.state = .enRoute) :
    a.nextLink? = leg.route[a.routeIndex + 1]? := by
  simp [nextLink?, hstate, h.onLeg]

theorem exists_currentLink_of_onLeg (h : a.OnLeg g leg next)
    (hstate : a.state = .departing ∨ a.state = .enRoute) :
    ∃ link, a.currentLink? = some link ∧ g.hasLink link = true := by
  have hget := List.getElem?_eq_getElem h.place
  refine ⟨leg.route.get ⟨a.routeIndex, h.place⟩, ?_, h.known _ (List.getElem_mem h.place)⟩
  rw [currentLink?_of_onLeg h hstate, hget]
  rfl

/-- Who has no next link is where the next activity is. -/
theorem currentLink?_eq_of_nextLink?_eq_none (h : a.OnLeg g leg next) (hstate : a.state = .enRoute)
    (hnext : a.nextLink? = none) : a.currentLink? = some next.link := by
  rw [nextLink?_of_onLeg h hstate, List.getElem?_eq_none_iff] at hnext
  have hplace := h.place
  have hindex : a.routeIndex = leg.route.length - 1 := by omega
  rw [currentLink?_of_onLeg h (Or.inr hstate), hindex, ← List.getLast?_eq_getElem?]
  exact h.last

/-- Whoever goes off on a leg that can be driven is on it, at its first link. -/
theorem onLeg_goneOff {origin : LinkId} (hleg : a.itinerary.leg? (a.segment + 1) = some leg)
    (hnext : a.itinerary.activity? (a.segment + 2) = some next)
    (h : Route.Drivable g origin next.link leg.route) :
    a.goneOff.OnLeg g leg next ∧ a.goneOff.currentLink? = some origin := by
  have hfirst : leg.route[0]? = some origin := List.head?_eq_getElem?.symm.trans h.first
  have honleg : a.goneOff.OnLeg g leg next :=
    { onLeg := by simp [currentLeg?, goneOff, hleg]
      ahead := by simp [nextActivity?, currentLeg?, goneOff, hleg, hnext]
      last := h.last
      known := h.known
      joined := h.joined
      place := (List.getElem?_eq_some_iff.1 hfirst).1 }
  exact ⟨honleg, (currentLink?_of_onLeg honleg (Or.inl rfl)).trans hfirst⟩

/-! ## What each transition does -/

/-- A woken agent finishes at its last activity, goes off on a leg that can be driven, or is
stranded. -/
theorem awaken_cases {activity : Activity} (hstate : a.state = .atActivity)
    (hactivity : a.currentActivity? = some activity) :
    (a.itinerary.length ≤ a.segment + 1 ∧ a.awaken g = .ok (.finishes a.done)) ∨
      ∃ leg next, a.itinerary.leg? (a.segment + 1) = some leg ∧
        a.itinerary.activity? (a.segment + 2) = some next ∧
        ((Route.culprit? g activity.link next.link leg.route = none ∧
            a.goneOff.OnLeg g leg next ∧ a.goneOff.currentLink? = some activity.link ∧
            a.awaken g = .ok (.leaves activity.link a.goneOff)) ∨
          ∃ bad, Route.culprit? g activity.link next.link leg.route = some bad ∧
            a.awaken g = .ok (.stranded bad a.done)) := by
  by_cases hlast : a.itinerary.length ≤ a.segment + 1
  · left
    refine ⟨hlast, ?_⟩
    have hfinal : a.atFinalActivity = true := by simp [atFinalActivity, hstate, hlast]
    simp [awaken, hstate, hfinal, finish, StepError.ofTransition, Except.map, done]
  · right
    have hfinal : a.atFinalActivity = false := by
      simp only [atFinalActivity, hstate, decide_true, Bool.true_and, decide_eq_false_iff_not]
      exact hlast
    obtain ⟨leg, next, hleg, hnext⟩ :=
      Itinerary.exists_leg_and_activity hactivity (Nat.lt_of_not_le hlast)
    have horigin : a.currentLink? = some activity.link := by
      simp [currentLink?, hstate, hactivity]
    have hnextLeg : a.nextLeg? = some leg := by simp [nextLeg?, hactivity, hleg]
    refine ⟨leg, next, hleg, hnext, ?_⟩
    cases hculprit : Route.culprit? g activity.link next.link leg.route with
    | some bad =>
        right
        refine ⟨bad, rfl, ?_⟩
        simp [awaken, hstate, hfinal, horigin, hnextLeg, hnext, hculprit, abort,
          StepError.ofTransition, Except.map, done]
    | none =>
        left
        have hdrivable := Route.drivable_of_culprit? hculprit
        obtain ⟨honleg, hcurrent⟩ := onLeg_goneOff hleg hnext hdrivable
        refine ⟨rfl, honleg, hcurrent, ?_⟩
        simp [awaken, hstate, hfinal, horigin, hnextLeg, hnext, hculprit, endActivity,
          hdrivable.first, StepError.ofTransition, Except.map, goneOff]

theorem enterNetwork_eq {link : LinkId} (hstate : a.state = .departing)
    (hlink : a.currentLink? = some link) : a.enterNetwork = .ok (link, a.enteredTraffic) := by
  simp [enterNetwork, hstate, hlink, enteredTraffic]

theorem OnLeg.enteredTraffic (h : a.OnLeg g leg next) : a.enteredTraffic.OnLeg g leg next :=
  ⟨h.onLeg, h.ahead, h.last, h.known, h.joined, h.place⟩

theorem currentLink?_enteredTraffic (hstate : a.state = .departing) :
    a.enteredTraffic.currentLink? = a.currentLink? := by
  simp [currentLink?, hstate, Agent.enteredTraffic, currentLeg?]

/-- An agent with a next link goes on to it, and the two links meet. -/
theorem advanceLink_eq (h : a.OnLeg g leg next) (hstate : a.state = .enRoute) {target : LinkId}
    (htarget : a.nextLink? = some target) :
    ∃ left, a.currentLink? = some left ∧ g.adjacent left target = true ∧
      g.hasLink target = true ∧ a.onNextLink.OnLeg g leg next ∧
      a.onNextLink.currentLink? = some target ∧
      a.advanceLink = .ok ((left, target), a.onNextLink) := by
  have hnext := nextLink?_of_onLeg h hstate
  rw [htarget] at hnext
  have hcurrent := currentLink?_of_onLeg h (Or.inr hstate)
  rw [List.getElem?_eq_getElem h.place] at hcurrent
  obtain ⟨hplace, hget⟩ := List.getElem?_eq_some_iff.1 hnext.symm
  have honleg : a.onNextLink.OnLeg g leg next :=
    ⟨h.onLeg, h.ahead, h.last, h.known, h.joined, hplace⟩
  refine ⟨_, hcurrent, ?_, ?_, honleg, ?_, ?_⟩
  · exact h.joined a.routeIndex _ _ (List.getElem?_eq_getElem h.place) hnext.symm
  · exact hget ▸ h.known _ (List.getElem_mem hplace)
  · rw [currentLink?_of_onLeg honleg (Or.inr hstate)]
    exact hnext.symm
  · simp [advanceLink, hcurrent, htarget, onNextLink]

/-- The day of an agent is over when its last activity has no end. -/
def dayIsOver (a : Agent) : Bool :=
  a.activityEnd?.isNone && a.atFinalActivity

/-- When a clock has to wake an agent that starts an activity; none if its day is over. -/
def nextWakeUp? (clock : Clock) (a : Agent) : Option Tick :=
  if a.dayIsOver then none
  else some (max (clock.tickAtOrAfter (a.activityEnd?.getD clock.now)) (clock.tick + 1))

/-- An agent without a next link leaves the network and starts the next activity. -/
theorem land_eq (clock : Clock) (h : a.OnLeg g leg next) (hstate : a.state = .enRoute)
    (hnext : a.nextLink? = none) :
    a.land clock = .ok
      { agent :=
          if (a.atNextActivity clock.now).dayIsOver then (a.atNextActivity clock.now).done
          else a.atNextActivity clock.now
        link := next.link
        activityLink := next.link
        wakeUp? := (a.atNextActivity clock.now).nextWakeUp? clock } := by
  have hcurrent := currentLink?_eq_of_nextLink?_eq_none h hstate hnext
  have harrive : a.arrive = .ok (next.link, { a with state := .arriving }) := by
    simp [Agent.arrive, hstate, hnext, hcurrent]
  have hstart : ({ a with state := .arriving } : Agent).startActivity clock.now =
      .ok (next.link, a.atNextActivity clock.now) := by
    have hactivity : ({ a with state := .arriving } : Agent).nextActivity? = some next := h.ahead
    simp [startActivity, hactivity, atNextActivity]
  unfold land
  rw [harrive]
  simp only [StepError.ofTransition, hstart, bind, Except.bind]
  cases hover : (a.atNextActivity clock.now).dayIsOver with
  | true =>
      obtain ⟨hnone, hfinal⟩ := Bool.and_eq_true_iff.1 hover
      simp [hnone, finish, hfinal, nextWakeUp?, hover, done, pure, Except.pure]
  | false =>
      simp only [dayIsOver] at hover
      simp [hover, nextWakeUp?, dayIsOver, pure, Except.pure]

/-- The activity behind a leg is the one that is started there. -/
theorem currentActivity?_of_nextActivity? (h : a.nextActivity? = some next) (now : Nat) :
    (a.atNextActivity now).currentActivity? = some next := by
  obtain ⟨leg, -, hactivity⟩ := Option.bind_eq_some_iff.1 h
  exact hactivity

theorem currentActivity?_atNextActivity (h : a.OnLeg g leg next) (now : Nat) :
    (a.atNextActivity now).currentActivity? = some next :=
  currentActivity?_of_nextActivity? h.ahead now

end Agent

end Thoroughfare

import Mathlib.Order.Bounds.Defs
import Thoroughfare.Proofs.Plan.Course
import Thoroughfare.Simulation.District

/-!
# Stays

A stay is an activity that an agent performs, since it was put there or since it arrived.  Its end
is a second, and steps come only now and then.  So it ends at the first step that is not before that
second, but never in the step of the arrival itself.  Only the last activity of a day may have no
end, and then the day is over as soon as it is reached.
-/

namespace Thoroughfare

/-- Every activity but the last one has an end. -/
theorem hasEnd_of_segmentFault? {segments : List Segment} {index : Nat}
    (h : segmentFault? index segments = none) {i : Nat} {a : Activity}
    (hi : segments[i]? = some (.activity a)) (hlt : i + 1 < segments.length) :
    a.hasEnd = true := by
  induction segments generalizing index i with
  | nil => cases hi
  | cons first rest ih =>
      obtain ⟨hrest, -, hends⟩ := segmentFault?_cons h
      cases i with
      | zero =>
          cases hi
          refine hends a rfl ?_
          rintro rfl
          simp at hlt
      | succ i => exact ih hrest (by simpa using hi) (by simpa using hlt)

theorem Itinerary.hasEnd_of_lt {t : Itinerary} {index : Nat} {a : Activity}
    (h : t.activity? index = some a) (hlt : index + 1 < t.length) : a.hasEnd = true := by
  have hfault := t.faultless
  unfold itineraryFault? at hfault
  split at hfault
  · cases hfault
  · exact hasEnd_of_segmentFault? hfault (activity?_eq_some_iff.1 h) hlt

/-- An activity that an agent performs. -/
structure Stay where
  activity : Activity
  /-- Whether it is the last one of the day. -/
  final : Bool
  /-- The second at which it began. -/
  start : Nat
  /-- The tick of the arrival; none if the agent was there before the first step. -/
  arrived? : Option Tick

/-- The stay at the activity of an itinerary that comes after so many others. -/
def Itinerary.stay? (t : Itinerary) (before start : Nat) (arrived? : Option Tick) : Option Stay :=
  (t.activity? (2 * before)).map fun activity =>
    ⟨activity, decide (t.length ≤ 2 * before + 1), start, arrived?⟩

namespace Stay

/-- The first tick at which a stay with an end can be over. -/
def earliest (stay : Stay) : Tick :=
  stay.arrived?.elim 0 fun tick => tick + 1

/-- The tick at which a stay is over: the least one after the arrival whose second is not before the
end, and without an end that of the arrival. -/
def EndsAt (clock : Clock) (stay : Stay) (tick : Tick) : Prop :=
  match stay.activity.endAfter stay.start with
  | some secs => IsLeast {k : Tick | stay.earliest ≤ k ∧ secs ≤ clock.secsAt k} tick
  | none => tick = stay.arrived?.getD 0

/-- What ends a stay: the last one ends the day, and every other one is followed by a leg, or by
none that can be driven. -/
def EndsWith (stay : Stay) (kind : EventKind) : Prop :=
  if stay.final then kind = .finished
  else kind = .activityEnd stay.activity.link ∨ ∃ bad, kind = .stranded bad

end Stay

theorem Clock.isLeast_tickAtOrAfter {clock : Clock} (h : 0 < clock.stepSecs) (secs : Nat)
    (first : Tick) :
    IsLeast {k : Tick | first ≤ k ∧ secs ≤ clock.secsAt k}
      (max (clock.tickAtOrAfter secs) first) := by
  constructor
  · exact ⟨Nat.le_max_right _ _, Nat.le_trans (clock.le_secsAt_tickAtOrAfter secs h)
      (clock.secsAt_mono (Nat.le_max_left _ _))⟩
  · rintro k ⟨hfirst, hsecs⟩
    refine Nat.max_le.2 ⟨Nat.le_of_not_lt fun hlt => ?_, hfirst⟩
    exact Nat.not_le.2 (clock.secsAt_lt_of_lt_tickAtOrAfter secs hlt) hsecs

namespace Agent

variable {a : Agent} {activity : Activity} {clock : Clock} {tick : Tick} {final : Bool}

/-- Whoever rests before the first step is woken when its stay is over. -/
theorem endsAt_firstWakeUp (hclock : 0 < clock.stepSecs) (hstate : a.state = .atActivity)
    (hactivity : a.currentActivity? = some activity) :
    (Stay.mk activity final a.activityStart none).EndsAt clock (District.firstWakeUp clock a) := by
  have hend : a.activityEnd? = activity.endAfter a.activityStart := by
    simp [activityEnd?, hstate, hactivity]
  unfold Stay.EndsAt District.firstWakeUp
  rw [hend]
  cases activity.endAfter a.activityStart with
  | none => rfl
  | some secs =>
      have hleast := Clock.isLeast_tickAtOrAfter hclock secs 0
      rwa [Nat.max_zero] at hleast

/-- Whoever starts an activity leaves word to be woken when its stay is over. -/
theorem endsAt_nextWakeUp? (hclock : 0 < clock.stepSecs) (hstate : a.state = .atActivity)
    (hactivity : a.currentActivity? = some activity) (h : a.nextWakeUp? clock = some tick) :
    (Stay.mk activity final a.activityStart (some clock.tick)).EndsAt clock tick := by
  have hend : a.activityEnd? = activity.endAfter a.activityStart := by
    simp [activityEnd?, hstate, hactivity]
  unfold nextWakeUp? at h
  split at h
  · cases h
  · rename_i hover
    cases h
    unfold Stay.EndsAt
    rw [hend]
    cases hsecs : activity.endAfter a.activityStart with
    | some secs => exact Clock.isLeast_tickAtOrAfter hclock secs (clock.tick + 1)
    | none =>
        -- Only a last activity may be without an end, and then the day would be over.
        exfalso
        apply hover
        have hlast : a.itinerary.length ≤ a.segment + 1 := by
          refine Nat.le_of_not_lt fun hlt => ?_
          have hhas := Itinerary.hasEnd_of_lt hactivity hlt
          rw [← activity.isSome_endAfter a.activityStart, hsecs] at hhas
          cases hhas
        simp [dayIsOver, atFinalActivity, hend, hsecs, hstate, hlast]

/-- A day that is over at once is at its last activity, which has no end. -/
theorem endsAt_of_dayIsOver (clock : Clock) (final : Bool) (hstate : a.state = .atActivity)
    (hactivity : a.currentActivity? = some activity) (h : a.dayIsOver = true) :
    (Stay.mk activity final a.activityStart (some clock.tick)).EndsAt clock clock.tick ∧
      a.itinerary.length ≤ a.segment + 1 := by
  have hend : a.activityEnd? = activity.endAfter a.activityStart := by
    simp [activityEnd?, hstate, hactivity]
  obtain ⟨hnone, hfinal⟩ := Bool.and_eq_true_iff.1 h
  rw [hend, Option.isNone_iff_eq_none] at hnone
  constructor
  · unfold Stay.EndsAt
    rw [hnone]
    rfl
  · simpa [atFinalActivity, hstate] using hfinal

end Agent

end Thoroughfare

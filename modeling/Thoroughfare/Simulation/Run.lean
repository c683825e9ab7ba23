import Thoroughfare.Simulation.Step

/-!
# Runs

A run processes step after step until every agent is finished, the time is over, or someone
cancels it.  When nobody is on a link and nobody waits to depart, it skips the steps up to the
next wake-up.

Whoever watches the run may cancel it at the end of any step; the run then stops before the next
one.
-/

namespace Thoroughfare

/-- A simulation that runs, and what its steps did. -/
structure Run (α : Type) where
  simulation : Simulation α
  bus : Bus
  /-- Whether the run was cancelled. -/
  cancelled : Bool
  /-- The steps that were processed, in order. -/
  records : Array StepRecord

namespace Simulation

variable {α : Type}

/-- Whether nobody is on a link or waits to depart. -/
def isQuiescent (s : Simulation α) : Bool :=
  s.districts.all District.isQuiescent

def nextWakeUp? (s : Simulation α) : Option Tick :=
  (s.districts.filterMap fun d => d.wakeUps.nextTick?).min?

/-- The tick to which the clock may jump because nothing can happen before. -/
def idleUntil? (s : Simulation α) : Option Tick :=
  if s.isQuiescent then s.nextWakeUp?.filter fun next => s.tick < next else none

variable [Quantity α]

/-- Skip the steps in which nothing can happen. -/
def fastForward (s : Simulation α) : Simulation α :=
  match s.idleUntil? with
  | none => s
  | some next =>
      { s with
        tick := next
        districts := s.districts.map fun d => d.idle (next - s.tick) }

theorem config_fastForward (s : Simulation α) : s.fastForward.config = s.config := by
  unfold fastForward
  split <;> rfl

theorem tick_le_fastForward (s : Simulation α) : s.tick ≤ s.fastForward.tick := by
  unfold fastForward
  split
  · exact Nat.le_refl _
  · rename_i next hnext
    unfold idleUntil? at hnext
    split at hnext
    · have hlt := (Option.filter_eq_some_iff.1 hnext).2
      exact Nat.le_of_lt (of_decide_eq_true hlt)
    · cases hnext

theorem now_le_fastForward (s : Simulation α) : s.now ≤ s.fastForward.now := by
  have htick := tick_le_fastForward s
  simp only [now, Clock.now, clock, config_fastForward]
  exact Clock.secsAt_mono _ htick

end Simulation

namespace Run

variable {α : Type} [Quantity α]

def recorded (r : Run α) (s : Simulation α) (bus : Bus) (cancelAfter : StepStats → Bool)
    (record : StepRecord) : Run α :=
  { simulation := s
    bus := bus
    cancelled := r.cancelled || cancelAfter record.stats
    records := r.records.push record }

def advance (cancelAfter : StepStats → Bool) (r : Run α) : Run α × Option StepError :=
  match r.simulation.step r.bus with
  | (s, .error e) => ({ r with simulation := s }, some e)
  | (s, .ok (record, bus)) => (r.recorded s bus cancelAfter record, none)

/-- Process a number of steps, whatever happens in them; an error ends the work. -/
def advanceBy (cancelAfter : StepStats → Bool) : Nat → Run α → Run α × Option StepError
  | 0, r => (r, none)
  | steps + 1, r =>
      match r.advance cancelAfter with
      | (r, some e) => (r, some e)
      | (r, none) => advanceBy cancelAfter steps r

theorem simulation_advance (cancelAfter : StepStats → Bool) {r next : Run α}
    (h : r.advance cancelAfter = (next, none)) :
    next.simulation.config = r.simulation.config ∧
      next.simulation.tick = r.simulation.tick + 1 := by
  unfold advance Simulation.step at h
  split at h
  · cases h
  · rename_i s record bus hstep
    split at hstep
    · cases hstep
    · split at hstep
      · cases hstep
      · cases hstep
        cases h
        exact ⟨rfl, rfl⟩

/-- Each processed step leaves less time. -/
theorem timeLeft_advance (cancelAfter : StepStats → Bool) {r next : Run α}
    (hintime : r.simulation.now ≤ r.simulation.config.maxSecs)
    (h : r.advance cancelAfter = (next, none)) :
    next.simulation.config.maxSecs + 1 - next.simulation.now <
      r.simulation.config.maxSecs + 1 - r.simulation.now := by
  obtain ⟨hconfig, htick⟩ := simulation_advance cancelAfter h
  have hpos := r.simulation.valid.stepSecs_pos
  have hnow : next.simulation.now = r.simulation.now + r.simulation.config.stepSecs := by
    simp only [Simulation.now, Simulation.clock, Clock.now, hconfig, htick]
    exact Clock.secsAt_succ _ _
  rw [hconfig, hnow]
  omega

/-- The run with the steps skipped in which nothing can happen. -/
def fastForward (r : Run α) : Run α :=
  { r with simulation := r.simulation.fastForward }

/-- Process steps until the run is over: because it was cancelled, because nobody is under way any
more, or because the next step would be too late. -/
def toEnd (cancelAfter : StepStats → Bool) (r : Run α) : Run α × Except StepError EndReason :=
  if r.cancelled then (r, .ok .cancelled)
  else if r.simulation.liveCount = 0 then (r, .ok .allFinished)
  else if _hlate : r.simulation.config.maxSecs < r.fastForward.simulation.now then
    (r.fastForward, .ok (.maxTime r.simulation.liveCount))
  else
    match _hstep : r.fastForward.advance cancelAfter with
    | (next, some e) => (next, .error e)
    | (next, none) => toEnd cancelAfter next
termination_by r.simulation.config.maxSecs + 1 - r.simulation.now
decreasing_by
  have hsame : r.fastForward.simulation.config = r.simulation.config :=
    Simulation.config_fastForward r.simulation
  have hless := timeLeft_advance cancelAfter (by rw [hsame]; omega) _hstep
  have hnow : r.simulation.now ≤ r.fastForward.simulation.now :=
    Simulation.now_le_fastForward r.simulation
  rw [hsame] at hless
  omega

end Run

namespace Simulation

variable {α : Type} [Quantity α]

/-- A run that is about to go on with a simulation. -/
def begin (s : Simulation α) (bus : Bus) (cancelled : Bool) : Run α :=
  ⟨s, bus, cancelled, #[]⟩

/-- Run a simulation to its end and say how it went. -/
def run (s : Simulation α) (bus : Bus) (cancelled : Bool) (cancelAfter : StepStats → Bool) :
    Run α × Except StepError Report :=
  match (s.begin bus cancelled).toEnd cancelAfter with
  | (r, .ok reason) => (r, .ok (r.simulation.report reason))
  | (r, .error e) => (r, .error e)

def runSteps (s : Simulation α) (steps : Nat) (bus : Bus) (cancelled : Bool)
    (cancelAfter : StepStats → Bool) : Run α × Option StepError :=
  (s.begin bus cancelled).advanceBy cancelAfter steps

end Simulation

end Thoroughfare

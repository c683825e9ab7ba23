import Thoroughfare.Proofs.Simulation.Start
import Thoroughfare.Proofs.Simulation.Steps

/-!
# Histories

A simulation comes from another when it is made from it by steps and skips.  A history also keeps
the events that were delivered, and goes on only with steps that succeed.  Runs are made of steps
and skips, so all that they lead to has a history, and all of it is sound.
-/

namespace Thoroughfare

namespace Simulation

variable {α : Type} [Quantity α]

/-- A simulation that comes from another by steps and skips, whatever the buses say. -/
inductive Reachable (first : Simulation α) : Simulation α → Prop
  | start : Reachable first first
  | skip {s : Simulation α} (h : Reachable first s) : Reachable first s.fastForward
  | step {s : Simulation α} (h : Reachable first s) (bus : Bus) :
      Reachable first (s.step bus).1

/-- A simulation that comes from another by steps that succeed and by skips, and the events that
were delivered on the way. -/
inductive History (first : Simulation α) : Simulation α → List Event → Prop
  | start : History first first []
  | skip {s : Simulation α} {told : List Event} (h : History first s told) :
      History first s.fastForward told
  | step {s next : Simulation α} {told : List Event} {bus bus' : Bus} {record : StepRecord}
      (h : History first s told) (hstep : s.step bus = (next, .ok (record, bus'))) :
      History first next (told ++ record.events)

variable {first s : Simulation α} {told : List Event}

theorem History.reachable (h : History first s told) : Reachable first s := by
  induction h with
  | start => exact .start
  | skip _ ih => exact .skip ih
  | @step s next told bus bus' record _ hstep ih =>
      have hnext := ih.step bus
      rwa [hstep] at hnext

theorem Reachable.sound (h : Reachable first s) (hfirst : first.Sound) : s.Sound := by
  induction h with
  | start => exact hfirst
  | skip _ ih => exact ih.fastForward
  | step _ bus ih => exact ih.step bus

theorem Reachable.situation_eq_absent_iff (h : Reachable first s) (hfirst : first.Sound)
    (id : AgentId) : s.world.situation id = .absent ↔ first.world.situation id = .absent := by
  induction h with
  | start => exact Iff.rfl
  | skip hs ih => rw [(hs.sound hfirst).situation_fastForward, ih]
  | step hs bus ih =>
      have hsound := hs.sound hfirst
      obtain ⟨kinds, hsteps⟩ := hsound.exists_stepsTo bus id
      rw [hsteps.eq_absent_iff (City.Sound.valid hsound id), ih]

/-- Neither a step nor a skip changes what a simulation is about. -/
theorem Reachable.setting (h : Reachable first s) :
    s.config = first.config ∧ s.network = first.network ∧
      s.partitioning = first.partitioning := by
  induction h with
  | start => exact ⟨rfl, rfl, rfl⟩
  | @skip s _ ih =>
      unfold Simulation.fastForward
      split <;> exact ih
  | @step s _ bus ih =>
      unfold Simulation.step
      split
      · exact ih
      · split <;> exact ih

end Simulation

namespace Run

variable {α : Type} [Quantity α] {first : Simulation α} {told : List Event}
  {cancelAfter : StepStats → Bool}

/-! ## Runs only step and skip -/

/-- A property that steps and skips preserve holds at the end of a run, or just before the step in
which it fails. -/
theorem toEnd_spec (cancelAfter : StepStats → Bool) (P : Run α → Prop)
    (hskip : ∀ r, P r → P r.fastForward)
    (hstep : ∀ r next, P r → r.advance cancelAfter = (next, none) → P next) (r : Run α) (h : P r) :
    (∃ last reason, r.toEnd cancelAfter = (last, .ok reason) ∧ P last) ∨
      ∃ before last e, P before ∧ before.advance cancelAfter = (last, some e) ∧
        r.toEnd cancelAfter = (last, .error e) := by
  fun_induction toEnd cancelAfter r with
  | case1 r hcancelled => exact Or.inl ⟨r, .cancelled, rfl, h⟩
  | case2 r hcancelled hnobody => exact Or.inl ⟨r, .allFinished, rfl, h⟩
  | case3 r hcancelled hnobody hlate => exact Or.inl ⟨r.fastForward, _, rfl, hskip r h⟩
  | case4 r hcancelled hnobody hlate next e hadvance =>
      exact Or.inr ⟨r.fastForward, next, e, hskip r h, hadvance, rfl⟩
  | case5 r hcancelled hnobody hlate next hadvance ih =>
      exact ih (hstep _ next (hskip r h) hadvance)

/-- A property that steps preserve holds after some of them, or just before the one that fails. -/
theorem advanceBy_spec (cancelAfter : StepStats → Bool) (P : Run α → Prop)
    (hstep : ∀ r next, P r → r.advance cancelAfter = (next, none) → P next) (steps : Nat)
    (r : Run α) (h : P r) :
    (∃ last, r.advanceBy cancelAfter steps = (last, none) ∧ P last) ∨
      ∃ before last e, P before ∧ before.advance cancelAfter = (last, some e) ∧
        r.advanceBy cancelAfter steps = (last, some e) := by
  fun_induction advanceBy cancelAfter steps r with
  | case1 r => exact Or.inl ⟨r, rfl, h⟩
  | case2 steps r next e hadvance => exact Or.inr ⟨r, next, e, h, hadvance, rfl⟩
  | case3 steps r next hadvance ih => exact ih (hstep r next h hadvance)

theorem simulation_advance_eq (cancelAfter : StepStats → Bool) (r : Run α) :
    (r.advance cancelAfter).1.simulation = (r.simulation.step r.bus).1 := by
  unfold advance
  rcases r.simulation.step r.bus with ⟨s, e | ⟨record, bus⟩⟩ <;> rfl

/-- A run that takes a step records it. -/
theorem advance_eq_ok_iff {r next : Run α} : r.advance cancelAfter = (next, none) ↔
    ∃ s record bus, r.simulation.step r.bus = (s, .ok (record, bus)) ∧
      r.recorded s bus cancelAfter record = next := by
  rw [advance]
  rcases r.simulation.step r.bus with ⟨s, e | ⟨record, bus⟩⟩ <;> simp

/-- Whoever takes several steps takes the first one and then the others. -/
theorem advanceBy_succ_eq_ok_iff {steps : Nat} {r last : Run α} :
    r.advanceBy cancelAfter (steps + 1) = (last, none) ↔
      ∃ next, r.advance cancelAfter = (next, none) ∧
        next.advanceBy cancelAfter steps = (last, none) := by
  rw [advanceBy]
  rcases r.advance cancelAfter with ⟨next, - | e⟩ <;> simp

theorem reachable_advance {r next : Run α} {e? : Option StepError}
    (h : first.Reachable r.simulation) (hadvance : r.advance cancelAfter = (next, e?)) :
    first.Reachable next.simulation := by
  have hnext := simulation_advance_eq cancelAfter r
  rw [hadvance] at hnext
  rw [hnext]
  exact h.step r.bus

/-- The events of the steps of a run. -/
def events (r : Run α) : List Event :=
  r.records.toList.flatMap (·.events)

omit [Quantity α] in
theorem events_recorded (r : Run α) (s : Simulation α) (bus : Bus) (record : StepRecord) :
    (r.recorded s bus cancelAfter record).events = r.events ++ record.events := by
  simp [events, recorded]

/-- A run that goes on with a history, and records all that it adds to it. -/
def Keeps (first : Simulation α) (told : List Event) (r : Run α) : Prop :=
  first.History r.simulation (told ++ r.events)

theorem Keeps.fastForward {r : Run α} (h : r.Keeps first told) : r.fastForward.Keeps first told :=
  h.skip

theorem Keeps.advance {r next : Run α} (h : r.Keeps first told)
    (hadvance : r.advance cancelAfter = (next, none)) : next.Keeps first told := by
  obtain ⟨s, record, bus, hstep, rfl⟩ := advance_eq_ok_iff.1 hadvance
  rw [Keeps, events_recorded, ← List.append_assoc]
  exact h.step hstep

end Run

namespace Simulation

variable {α : Type} [Quantity α] {first s : Simulation α} {told : List Event}

/-- Whatever a run ends with is reachable. -/
theorem Reachable.run (h : first.Reachable s) (bus : Bus) (cancelled : Bool)
    (cancelAfter : StepStats → Bool) :
    first.Reachable (s.run bus cancelled cancelAfter).1.simulation := by
  rw [Simulation.run]
  rcases Run.toEnd_spec cancelAfter (fun r => first.Reachable r.simulation)
      (fun r hr => hr.skip) (fun r next hr hadvance => Run.reachable_advance hr hadvance)
      (s.begin bus cancelled) h with
    ⟨last, reason, hend, hlast⟩ | ⟨before, last, e, hbefore, hadvance, hend⟩
  · rw [hend]
    exact hlast
  · rw [hend]
    exact Run.reachable_advance hbefore hadvance

theorem Reachable.runSteps (h : first.Reachable s) (steps : Nat) (bus : Bus) (cancelled : Bool)
    (cancelAfter : StepStats → Bool) :
    first.Reachable (s.runSteps steps bus cancelled cancelAfter).1.simulation := by
  rw [Simulation.runSteps]
  rcases Run.advanceBy_spec cancelAfter (fun r => first.Reachable r.simulation)
      (fun r next hr hadvance => Run.reachable_advance hr hadvance) steps
      (s.begin bus cancelled) h with
    ⟨last, hend, hlast⟩ | ⟨before, last, e, hbefore, hadvance, hend⟩
  · rw [hend]
    exact hlast
  · rw [hend]
    exact Run.reachable_advance hbefore hadvance

theorem History.keeps_begin (h : first.History s told) (bus : Bus) (cancelled : Bool) :
    (s.begin bus cancelled).Keeps first told := by
  have hevents : told ++ (s.begin bus cancelled).events = told := List.append_nil told
  rw [Run.Keeps, hevents]
  exact h

/-- A run that does not fail continues the history. -/
theorem History.run (h : first.History s told) {bus : Bus} {cancelled : Bool}
    {cancelAfter : StepStats → Bool} {last : Run α} {report : Report}
    (hrun : s.run bus cancelled cancelAfter = (last, .ok report)) :
    first.History last.simulation (told ++ last.events) := by
  rw [Simulation.run] at hrun
  rcases Run.toEnd_spec cancelAfter (Run.Keeps first told)
      (fun r hr => hr.fastForward) (fun r next hr hadvance => hr.advance hadvance)
      (s.begin bus cancelled) (h.keeps_begin bus cancelled) with
    ⟨final, reason, hend, hfinal⟩ | ⟨before, final, e, -, -, hend⟩
  · rw [hend] at hrun
    cases hrun
    exact hfinal
  · rw [hend] at hrun
    cases hrun

theorem History.runSteps (h : first.History s told) {steps : Nat} {bus : Bus} {cancelled : Bool}
    {cancelAfter : StepStats → Bool} {last : Run α}
    (hrun : s.runSteps steps bus cancelled cancelAfter = (last, none)) :
    first.History last.simulation (told ++ last.events) := by
  rw [Simulation.runSteps] at hrun
  rcases Run.advanceBy_spec cancelAfter (Run.Keeps first told)
      (fun r next hr hadvance => hr.advance hadvance) steps
      (s.begin bus cancelled) (h.keeps_begin bus cancelled) with
    ⟨final, hend, hfinal⟩ | ⟨before, final, e, -, -, hend⟩
  · rw [hend] at hrun
    cases hrun
    exact hfinal
  · rw [hend] at hrun
    cases hrun

end Simulation

end Thoroughfare

import Thoroughfare.Proofs.Simulation.Histories

/-!
# No run fails

The steps of a simulation check many contracts between its parts: an agent is woken only while it
rests, a link releases only what it offered, whoever was granted room finds it, and every transition
of an agent is allowed.  In a simulation that was built none of these checks ever fails, whatever
the agents plan, and a bus that is not ahead of the clock accepts all events.
-/

namespace Thoroughfare

theorem Bus.UpTo.mono {b : Bus} {now later : Nat} (h : b.UpTo now) (hle : now ≤ later) :
    b.UpTo later :=
  fun last hlast => Nat.le_trans (h last hlast) hle

namespace Simulation

variable {α : Type} [Quantity α] {s : Simulation α}

/-- A step of a sound simulation succeeds on a bus that is not ahead of the clock. -/
theorem Sound.step_ok (h : s.Sound) {bus : Bus} (hbus : bus.UpTo s.now) :
    ∃ next record bus', s.step bus = (next, .ok (record, bus')) ∧ next.Sound ∧
      bus'.UpTo next.now := by
  obtain ⟨t, begun, ht, hcases⟩ := h.step_cases bus
  have hnone := ht.tooOld?_eq_none h hbus
  rcases hcases with ⟨e, hold, -⟩ | ⟨-, hstep⟩
  · rw [hnone] at hold
    cases hold
  · refine ⟨_, _, _, hstep, ht.sound, ?_⟩
    exact (ht.upTo_delivered h hbus).mono (Clock.secsAt_mono _ (Nat.le_succ s.tick))

end Simulation

namespace Run

variable {α : Type} [Quantity α] {r next : Run α} {cancelAfter : StepStats → Bool}

/-- A run whose simulation is sound and whose bus is not ahead of its clock. -/
structure Safe (r : Run α) : Prop where
  sound : r.simulation.Sound
  upTo : r.bus.UpTo r.simulation.now

theorem Safe.fastForward (h : r.Safe) : r.fastForward.Safe :=
  ⟨h.sound.fastForward, h.upTo.mono (Simulation.now_le_fastForward r.simulation)⟩

theorem Safe.advance (h : r.Safe) (cancelAfter : StepStats → Bool) :
    ∃ next, r.advance cancelAfter = (next, none) ∧ next.Safe := by
  obtain ⟨s, record, bus, hstep, hsound, hbus⟩ := h.sound.step_ok h.upTo
  refine ⟨r.recorded s bus cancelAfter record, ?_, hsound, hbus⟩
  rw [Run.advance, hstep]

theorem Safe.of_advance (h : r.Safe) (hadvance : r.advance cancelAfter = (next, none)) :
    next.Safe := by
  obtain ⟨other, hother, hsafe⟩ := h.advance cancelAfter
  rw [hadvance] at hother
  cases hother
  exact hsafe

theorem Safe.advance_ne (h : r.Safe) {e : StepError} : r.advance cancelAfter ≠ (next, some e) := by
  obtain ⟨other, hother, -⟩ := h.advance cancelAfter
  rw [hother]
  intro hfails
  cases hfails

end Run

namespace Simulation

variable {α : Type} [Quantity α] {s : Simulation α}

/-- A run of a sound simulation reaches its end. -/
theorem Sound.run_ok (h : s.Sound) {bus : Bus} (hbus : bus.UpTo s.now) (cancelled : Bool)
    (cancelAfter : StepStats → Bool) :
    ∃ last report, s.run bus cancelled cancelAfter = (last, .ok report) ∧ last.Safe := by
  rw [Simulation.run]
  rcases Run.toEnd_spec cancelAfter Run.Safe (fun r hr => hr.fastForward)
      (fun r next hr hadvance => hr.of_advance hadvance) (s.begin bus cancelled) ⟨h, hbus⟩ with
    ⟨last, reason, hend, hlast⟩ | ⟨before, last, e, hbefore, hadvance, -⟩
  · rw [hend]
    exact ⟨last, _, rfl, hlast⟩
  · exact absurd hadvance hbefore.advance_ne

theorem Sound.runSteps_ok (h : s.Sound) {bus : Bus} (hbus : bus.UpTo s.now) (steps : Nat)
    (cancelled : Bool) (cancelAfter : StepStats → Bool) :
    ∃ last, s.runSteps steps bus cancelled cancelAfter = (last, none) ∧ last.Safe := by
  rw [Simulation.runSteps]
  rcases Run.advanceBy_spec cancelAfter Run.Safe
      (fun r next hr hadvance => hr.of_advance hadvance) steps (s.begin bus cancelled)
      ⟨h, hbus⟩ with
    ⟨last, hend, hlast⟩ | ⟨before, last, e, hbefore, hadvance, -⟩
  · exact ⟨last, hend, hlast⟩
  · exact absurd hadvance hbefore.advance_ne

/-- Whatever is reached from a simulation that was built, neither a run nor any number of steps
fails on a bus that is not ahead of the clock, and afterwards the same can be said again. -/
theorem no_run_fails {periodSecs : Float} {positions : List Point} {drafts : List LinkDraft}
    {g : Network} {config : Config} {agents : List Agent} {partitioning? : Option Partitioning}
    {first s : Simulation α} (hg : Network.build periodSecs positions drafts = .ok g)
    (hfirst : build config g agents partitioning? = .ok first) (hs : first.Reachable s) {bus : Bus}
    (hbus : bus.UpTo s.now) (cancelled : Bool) (cancelAfter : StepStats → Bool) :
    (∃ last report, s.run bus cancelled cancelAfter = (last, .ok report) ∧
        first.Reachable last.simulation ∧ last.bus.UpTo last.simulation.now) ∧
      ∀ steps, ∃ last, s.runSteps steps bus cancelled cancelAfter = (last, none) ∧
        first.Reachable last.simulation ∧ last.bus.UpTo last.simulation.now := by
  have hsound : s.Sound := hs.sound (fresh_of_build (Network.numbered_of_build hg) hfirst).sound
  constructor
  · obtain ⟨last, report, hrun, hlast⟩ := hsound.run_ok hbus cancelled cancelAfter
    have hreachable := hs.run bus cancelled cancelAfter
    rw [hrun] at hreachable
    exact ⟨last, report, hrun, hreachable, hlast.upTo⟩
  · intro steps
    obtain ⟨last, hrun, hlast⟩ := hsound.runSteps_ok hbus steps cancelled cancelAfter
    have hreachable := hs.runSteps steps bus cancelled cancelAfter
    rw [hrun] at hreachable
    exact ⟨last, hrun, hreachable, hlast.upTo⟩

/-- The neighbours of the hamlet get through their day. -/
theorem no_run_fails_hamlet : ∃ g split last report,
    Network.build Network.standardPeriodSecs Hamlet.places Hamlet.roads = .ok g ∧
      build (α := Rat) Hamlet.config g Hamlet.neighbours.reverse (some Hamlet.halves) =
        .ok split ∧
      (Bus.new 1).UpTo split.now ∧
      split.run (Bus.new 1) false (fun _ => false) = (last, .ok report) := by
  obtain ⟨g, first, split, hg, -, hsplit⟩ := Hamlet.exists_build
  have hbus : (Bus.new 1).UpTo split.now := fun last hlast => by cases hlast
  obtain ⟨last, report, hrun, -⟩ :=
    (no_run_fails hg hsplit .start hbus false fun _ => false).1
  exact ⟨g, split, last, report, hg, hsplit, hbus, hrun⟩

end Simulation

/-- A run through the hamlet as two districts comes to its end. -/
theorem Hamlet.exists_run : ∃ g split last report,
    Network.build Network.standardPeriodSecs places roads = .ok g ∧
      Simulation.build (α := Rat) config g neighbours.reverse (some halves) = .ok split ∧
      split.run (Bus.new 1) false (fun _ => false) = (last, .ok report) ∧
      split.History last.simulation last.events := by
  obtain ⟨g, first, split, hg, -, hsplit⟩ := exists_build
  have hsound := (Simulation.fresh_of_build (Network.numbered_of_build hg) hsplit).sound
  have hbus : (Bus.new 1).UpTo split.now := fun last hlast => by cases hlast
  obtain ⟨last, report, hrun, -⟩ := hsound.run_ok hbus false fun _ => false
  exact ⟨g, split, last, report, hg, hsplit, hrun, Simulation.History.start.run hrun⟩

end Thoroughfare

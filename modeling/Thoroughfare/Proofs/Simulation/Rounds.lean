import Mathlib.Logic.Relation
import Thoroughfare.Proofs.Simulation.Splits
import Thoroughfare.Proofs.Simulation.Statistics

/-!
# The rounds of a run

A run to its end goes round after round: it skips the steps in which nothing can happen and
processes the next one.  It stops when it was cancelled, when nobody is live any more, or when the
next step would be too late.  So what holds of a run at its end is proved for one round and for each
way to stop.
-/

namespace Thoroughfare

/-- What a step that succeeds notes of its time. -/
theorem Simulation.stats_of_step {α : Type} [Quantity α] {s next : Simulation α} {bus bus' : Bus}
    {record : StepRecord} (hstep : s.step bus = (next, .ok (record, bus'))) :
    record.stats.tick = s.tick ∧ record.stats.time = s.now := by
  unfold step at hstep
  split at hstep
  · cases hstep
  · split at hstep <;> cases hstep
    exact ⟨rfl, rfl⟩

namespace Run

open Relation (ReflTransGen)

variable {α : Type} [Quantity α] {cancelAfter : StepStats → Bool} {r next last : Run α}
  {reason : EndReason}

/-- One round of a run that nobody has cancelled yet. -/
structure Round (cancelAfter : StepStats → Bool) (r next : Run α) : Prop where
  goesOn : r.cancelled = false
  live : r.simulation.liveCount ≠ 0
  inTime : r.fastForward.simulation.now ≤ r.simulation.config.maxSecs
  advance : r.fastForward.advance cancelAfter = (next, none)

/-- How a run stops, and why. -/
inductive Stops (r : Run α) : Run α → EndReason → Prop
  | cancelled (hcancelled : r.cancelled = true) : Stops r r .cancelled
  | allFinished (hgoesOn : r.cancelled = false) (hnobody : r.simulation.liveCount = 0) :
      Stops r r .allFinished
  | maxTime (hgoesOn : r.cancelled = false) (hlive : r.simulation.liveCount ≠ 0)
      (hlate : r.simulation.config.maxSecs < r.fastForward.simulation.now) :
      Stops r r.fastForward (.maxTime r.simulation.liveCount)

theorem Round.toEnd_eq (h : Round cancelAfter r next) :
    r.toEnd cancelAfter = next.toEnd cancelAfter := by
  rw [toEnd_eq_of_goesOn cancelAfter (Bool.eq_false_iff.1 h.goesOn) h.live
    (Nat.not_lt.2 h.inTime), h.advance]

theorem toEnd_eq_of_rounds (h : ReflTransGen (Round cancelAfter) r last) :
    r.toEnd cancelAfter = last.toEnd cancelAfter := by
  induction h with
  | refl => rfl
  | tail _ hround ih => exact ih.trans hround.toEnd_eq

theorem Stops.toEnd_eq (h : r.Stops last reason) (cancelAfter : StepStats → Bool) :
    r.toEnd cancelAfter = (last, .ok reason) := by
  cases h with
  | cancelled hcancelled => rw [toEnd, if_pos hcancelled]
  | allFinished hgoesOn hnobody => rw [toEnd, if_neg (Bool.eq_false_iff.1 hgoesOn), if_pos hnobody]
  | maxTime hgoesOn hlive hlate =>
      rw [toEnd, if_neg (Bool.eq_false_iff.1 hgoesOn), if_neg hlive, dif_pos hlate]

/-- A run goes round after round until it stops or a step fails. -/
theorem toEnd_cases (cancelAfter : StepStats → Bool) (r : Run α) :
    (∃ stop last reason, ReflTransGen (Round cancelAfter) r stop ∧ stop.Stops last reason ∧
        r.toEnd cancelAfter = (last, .ok reason)) ∨
      ∃ before last e, ReflTransGen (Round cancelAfter) r before ∧
        before.fastForward.advance cancelAfter = (last, some e) ∧
        r.toEnd cancelAfter = (last, .error e) := by
  fun_induction toEnd cancelAfter r with
  | case1 r hcancelled => exact Or.inl ⟨r, r, _, .refl, .cancelled hcancelled, rfl⟩
  | case2 r hcancelled hnobody =>
      exact Or.inl ⟨r, r, _, .refl, .allFinished (Bool.eq_false_iff.2 hcancelled) hnobody, rfl⟩
  | case3 r hcancelled hnobody hlate =>
      exact Or.inl
        ⟨r, _, _, .refl, .maxTime (Bool.eq_false_iff.2 hcancelled) hnobody hlate, rfl⟩
  | case4 r hcancelled hnobody hlate next e hadvance =>
      exact Or.inr ⟨r, next, e, .refl, hadvance, rfl⟩
  | case5 r hcancelled hnobody hlate next hadvance ih =>
      have hround : Round cancelAfter r next :=
        ⟨Bool.eq_false_iff.2 hcancelled, hnobody, Nat.le_of_not_lt hlate, hadvance⟩
      rcases ih with ⟨stop, last, reason, hrounds, hstops, hend⟩ |
        ⟨before, last, e, hrounds, hfails, hend⟩
      · exact Or.inl ⟨stop, last, reason, .head hround hrounds, hstops, hend⟩
      · exact Or.inr ⟨before, last, e, .head hround hrounds, hfails, hend⟩

/-- When a run comes to its end. -/
theorem toEnd_eq_ok_iff : r.toEnd cancelAfter = (last, .ok reason) ↔
    ∃ stop, ReflTransGen (Round cancelAfter) r stop ∧ stop.Stops last reason := by
  constructor
  · intro hend
    rcases toEnd_cases cancelAfter r with ⟨stop, _, _, hrounds, hstops, hok⟩ | ⟨_, _, _, -, -, hfails⟩
    · rw [hend] at hok
      cases hok
      exact ⟨stop, hrounds, hstops⟩
    · rw [hend] at hfails
      cases hfails
  · rintro ⟨stop, hrounds, hstops⟩
    rw [toEnd_eq_of_rounds hrounds, hstops.toEnd_eq]

/-- What a run with a report is made of. -/
theorem run_eq_ok_iff {s : Simulation α} {bus : Bus} {cancelled : Bool} {report : Report} :
    s.run bus cancelled cancelAfter = (last, .ok report) ↔
      ∃ stop reason, ReflTransGen (Round cancelAfter) (s.begin bus cancelled) stop ∧
        stop.Stops last reason ∧ report = last.simulation.report reason := by
  have hend : s.run bus cancelled cancelAfter = (last, .ok report) ↔
      ∃ reason, (s.begin bus cancelled).toEnd cancelAfter = (last, .ok reason) ∧
        report = last.simulation.report reason := by
    rw [Simulation.run]
    rcases (s.begin bus cancelled).toEnd cancelAfter with ⟨other, e | reason⟩
    · simp
    · constructor
      · rintro ⟨⟩
        exact ⟨reason, rfl, rfl⟩
      · rintro ⟨_, ⟨⟩, rfl⟩
        rfl
  rw [hend]
  simp only [toEnd_eq_ok_iff]
  constructor
  · rintro ⟨reason, ⟨stop, hrounds, hstops⟩, rfl⟩
    exact ⟨stop, reason, hrounds, hstops, rfl⟩
  · rintro ⟨stop, reason, hrounds, hstops, rfl⟩
    exact ⟨reason, ⟨stop, hrounds, hstops⟩, rfl⟩

/-- A round takes a step after a skip, and records it. -/
theorem Round.exists_step (h : Round cancelAfter r next) : ∃ s record bus,
    r.simulation.fastForward.step r.bus = (s, .ok (record, bus)) ∧
      next = r.fastForward.recorded s bus cancelAfter record := by
  obtain ⟨s, record, bus, hstep, hnext⟩ := advance_eq_ok_iff.1 h.advance
  exact ⟨s, record, bus, hstep, hnext.symm⟩

omit [Quantity α] in
theorem toList_recorded (r : Run α) (s : Simulation α) (bus : Bus) (record : StepRecord) :
    (r.recorded s bus cancelAfter record).records.toList = r.records.toList ++ [record] := by
  simp [recorded]

end Run

end Thoroughfare

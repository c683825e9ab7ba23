import Thoroughfare.Proofs.Event.Keys
import Thoroughfare.Proofs.Simulation.Fifo

/-!
# The delivered stream is strictly ordered

The events of a step are merged into one order, and no two of them have the same key: whatever an
agent does in a step, its transitions have different ranks.  All events of a step are of its second,
and every step is later than the one before.  So the keys of all events that are ever delivered
ascend strictly.
-/

namespace Thoroughfare
namespace Simulation

variable {α : Type} [Quantity α] {first s : Simulation α} {told : List Event}

/-- The events of a step that succeeds ascend strictly. -/
theorem Sound.pairwise_key_of_step (h : s.Sound) {next : Simulation α} {bus bus' : Bus}
    {record : StepRecord} (hstep : s.step bus = (next, .ok (record, bus'))) :
    record.events.Pairwise fun a b => a.key < b.key := by
  obtain ⟨t, begun, ht, ⟨e, -, hstep'⟩ | ⟨-, hstep'⟩⟩ := h.step_cases bus
  · rw [hstep] at hstep'
    cases hstep'
  · rw [hstep] at hstep'
    cases hstep'
    exact (ht.distinct h).pairwise_key_merge

theorem Chronicle.pairwise_key {stages : List (Stage α)} (h : first.Chronicle s stages)
    (hfirst : first.Sound) : (stages.flatMap (·.events)).Pairwise fun a b => a.key < b.key := by
  rw [List.pairwise_flatMap]
  constructor
  · exact h.forall_stage hfirst fun _ _ _ _ _ hsound hstep => hsound.pairwise_key_of_step hstep
  · refine h.pairwise_now.1.imp_of_mem fun {x y} hx hy hlt a ha b hb => ?_
    have htimes := h.time_eq hfirst
    apply Event.key_lt_of_time_lt
    rwa [htimes x hx a ha, htimes y hy b hb]

/-- Every event is of a second in which a step was processed. -/
theorem History.exists_tick (h : first.History s told) (hfirst : first.Sound) :
    ∀ e ∈ told, ∃ k, k < s.tick ∧ e.time = first.config.clock.secsAt k := by
  induction h with
  | start => simp
  | @skip s _ _ ih =>
      intro e he
      obtain ⟨k, hlt, htime⟩ := ih e he
      exact ⟨k, Nat.lt_of_lt_of_le hlt s.tick_le_fastForward, htime⟩
  | @step s next told bus bus' record hs hstep ih =>
      have htick : next.tick = s.tick + 1 := by
        obtain ⟨t, events, rfl⟩ := exists_afterStep hstep
        rfl
      intro e he
      rcases List.mem_append.1 he with hbefore | hlast
      · obtain ⟨k, hlt, htime⟩ := ih e hbefore
        exact ⟨k, htick ▸ Nat.lt_succ_of_lt hlt, htime⟩
      · have htime := ((hs.reachable.sound hfirst).passes_of_step hstep).2 e hlast
        refine ⟨s.tick, htick ▸ Nat.lt_succ_self s.tick, htime.trans ?_⟩
        rw [← hs.reachable.setting.1]
        rfl

/-- In every history of a simulation that was built, the keys of the delivered events ascend
strictly, and their times are those of the steps that were processed. -/
theorem strictly_ordered {periodSecs : Float} {positions : List Point} {drafts : List LinkDraft}
    {g : Network} {config : Config} {agents : List Agent} {partitioning? : Option Partitioning}
    (hg : Network.build periodSecs positions drafts = .ok g)
    (hfirst : build config g agents partitioning? = .ok first) (hs : first.History s told) :
    (told.Pairwise fun a b => a.key < b.key) ∧
      ∀ e ∈ told, ∃ k, k < s.tick ∧ e.time = config.clock.secsAt k := by
  have hfresh := fresh_of_build (Network.numbered_of_build hg) hfirst
  obtain ⟨stages, hstages, htold⟩ := hs.exists_chronicle
  constructor
  · rw [← htold]
    exact hstages.pairwise_key hfresh.sound
  · rw [← hfresh.config_eq]
    exact hs.exists_tick hfresh.sound

/-- The events of the run through the hamlet are strictly ordered. -/
theorem strictly_ordered_hamlet : ∃ g split last report,
    Network.build Network.standardPeriodSecs Hamlet.places Hamlet.roads = .ok g ∧
      build (α := Rat) Hamlet.config g Hamlet.neighbours.reverse (some Hamlet.halves) =
        .ok split ∧
      split.run (Bus.new 1) false (fun _ => false) = (last, .ok report) ∧
      last.events.Pairwise fun a b => a.key < b.key := by
  obtain ⟨g, split, last, report, hg, hsplit, hrun, hhistory⟩ := Hamlet.exists_run
  exact ⟨g, split, last, report, hg, hsplit, hrun, (strictly_ordered hg hsplit hhistory).1⟩

end Simulation
end Thoroughfare

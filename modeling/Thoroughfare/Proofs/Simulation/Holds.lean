import Thoroughfare.Proofs.Simulation.Fifo
import Thoroughfare.Proofs.Simulation.Refusals

/-!
# Every hold is warned about once

A simulation warns about a refusal when the attempt was not refused before.  What its tables
remember of an agent goes with all refusals of the past: however often an attempt is refused, and
whether or not it can be made in the steps between, the first of its refusals has the only warning.
-/

namespace Thoroughfare

/-- A refused attempt belongs to a refusal among the decisions, which left an agent where it was. -/
structure Refusal.Concerns (refusal : Refusal) (now : Nat) (σ τ : Situation) (n : Refused) :
    Prop where
  time_eq : n.time = now
  target_eq : n.target = refusal.target
  agent_eq : n.attempt.agent = refusal.agent
  attempt?_eq : σ.attempt? = some n.attempt
  rebuffed : Situation.Rebuffed refusal.target refusal.firstAttempt σ τ

namespace Simulation

variable {α : Type} [Quantity α] {s : Simulation α} {begun : List (District α)} {t : Traffic α}
  {past : List Refused}

namespace Turn

theorem refusals_eq (htraffic : s.traffic = .ok t) :
    s.refusals = t.resolution.refusals.map (t.refused s.now) := by
  rw [refusals, htraffic]

/-- Whoever is refused in a step is about to make the attempt, before and after. -/
theorem concerns (ht : s.Turn begun t) {refusal : Refusal}
    (hrefusal : refusal ∈ t.resolution.refusals) :
    refusal.Concerns s.now (City.situation begun refusal.agent)
      (City.situation t.districts refusal.agent) (t.refused s.now refusal) := by
  have hafter : City.situation t.districts refusal.agent =
      ((City.situation begun refusal.agent).outcome s.clock
        (t.resolution.rulings.lookup refusal.agent)).finally :=
    congrFun (congrArg World.situation ht.world_eq) refusal.agent
  rw [ht.resolution_eq] at hrefusal
  have hrebuffed := ht.begun_sound.rebuffed s.clock hrefusal
  rw [← ht.resolution_eq, ← hafter] at hrebuffed
  obtain ⟨a, hid, -, hattempt, hagent, -⟩ :=
    hrebuffed.exists_agent (City.Sound.valid ht.begun_sound refusal.agent)
  have hfound : attemptIn t.districts refusal.agent = a.attempt := by
    rw [attemptIn, City.Sound.findSome?_agent? ht.sound, hagent]
  refine ⟨rfl, rfl, ?_, ?_, hrebuffed⟩
  · rw [Traffic.refused, hfound]
    exact hid
  · rw [Traffic.refused, hfound]
    exact hattempt

theorem nodup_refusals (ht : s.Turn begun t) :
    (t.resolution.refusals.map (·.agent)).Nodup := by
  rw [ht.resolution_eq]
  exact ht.begun_sound.nodup_refusals

theorem remembers_begun (ht : s.Turn begun t) (h : s.Sound) {id : AgentId}
    (hpast : (s.world.situation id).Remembers id past) :
    (City.situation begun id).Remembers id past := by
  have hwoken : City.situation begun id = (s.world.situation id).woken s.network s.tick :=
    congrFun (congrArg World.situation ht.begun_world) id
  have hvalid : (City.situation begun id).Valid s.network id := City.Sound.valid ht.begun_sound id
  rw [hwoken] at hvalid ⊢
  rcases Situation.goesOn_woken (City.Sound.valid h id) s.tick with hsame | hgoes
  · exact hsame.symm ▸ hpast
  · exact hpast.goesOn hgoes hvalid

/-- What the situation of an agent remembers still goes with all refusals after a step. -/
theorem remembers (ht : s.Turn begun t) (h : s.Sound) (htraffic : s.traffic = .ok t)
    {id : AgentId} (hpast : (s.world.situation id).Remembers id past) :
    (City.situation t.districts id).Remembers id (past ++ s.refusals) := by
  have hafter : City.situation t.districts id =
      ((City.situation begun id).outcome s.clock (t.resolution.rulings.lookup id)).finally :=
    congrFun (congrArg World.situation ht.world_eq) id
  have hvalid : (City.situation begun id).Valid s.network id := City.Sound.valid ht.begun_sound id
  have hvalid' : (City.situation t.districts id).Valid s.network id := City.Sound.valid ht.sound id
  have hbegun := ht.remembers_begun h hpast
  by_cases hrefused : ∃ refusal ∈ t.resolution.refusals, refusal.agent = id
  · obtain ⟨refusal, hrefusal, rfl⟩ := hrefused
    have hc := ht.concerns hrefusal
    rw [refusals_eq htraffic]
    refine hbegun.rebuffed hvalid hc.rebuffed (List.mem_map_of_mem hrefusal) hc.attempt?_eq
      hc.target_eq ?_
    intro n hn hagent
    obtain ⟨other, hother, rfl⟩ := List.mem_map.1 hn
    rw [List.inj_on_of_nodup_map ht.nodup_refusals hother hrefusal
      ((ht.concerns hother).agent_eq.symm.trans hagent)]
  · have hothers : ∀ n ∈ s.refusals, n.attempt.agent ≠ id := by
      intro n hn hagent
      rw [refusals_eq htraffic] at hn
      obtain ⟨refusal, hrefusal, rfl⟩ := List.mem_map.1 hn
      exact hrefused ⟨refusal, hrefusal, (ht.concerns hrefusal).agent_eq.symm.trans hagent⟩
    refine Situation.Remembers.append_of_others ?_ hvalid' hothers
    rw [hafter] at hvalid' ⊢
    cases hlookup : t.resolution.rulings.lookup id with
    | none =>
        rw [Situation.outcome_none]
        exact hbegun
    | some ruling =>
        rw [hlookup] at hvalid'
        have hruling : (id, ruling) ∈ t.resolution.rulings := by
          rw [ht.resolution_eq] at hlookup ⊢
          exact (lookup_eq_some_iff_mem ht.begun_sound.nodup_rulings).1 hlookup
        have hfits : (City.situation begun id).Fits ruling := by
          rw [ht.resolution_eq] at hruling
          exact ht.begun_sound.fits_of_ruling hruling
        have hstays : ¬ ∃ target, ruling = .hold target ∨ ruling = .wait target :=
          fun hstays => hrefused (Resolution.exists_refusal_of_ruling hruling hstays)
        exact hbegun.goesOn (hfits.goesOn hvalid s.clock
          (fun target hhold => hstays ⟨target, Or.inl hhold⟩)
          fun target hwait => hstays ⟨target, Or.inr hwait⟩) hvalid'

/-- A step warns about the attempts that were not refused before. -/
theorem warnings_eq (ht : s.Turn begun t) (h : s.Sound) (htraffic : s.traffic = .ok t)
    (hpast : ∀ id, (s.world.situation id).Remembers id past) :
    t.resolution.warnings s.now =
      (s.refusals.filter fun n => n.attempt ∉ past.map (·.attempt)).map Refused.warning := by
  have hnew : ∀ refusal ∈ t.resolution.refusals, refusal.firstAttempt =
      decide ((t.refused s.now refusal).attempt ∉ past.map (·.attempt)) := by
    intro refusal hrefusal
    have hc := ht.concerns hrefusal
    have hfirst :=
      hc.rebuffed.firstAttempt_iff (City.Sound.valid ht.begun_sound refusal.agent)
    have hby := (ht.remembers_begun h (hpast refusal.agent)).refusedBy?_iff _ hc.attempt?_eq
    apply Bool.eq_iff_iff.2
    rw [decide_eq_true_eq, hfirst, Option.eq_none_iff_forall_ne_some]
    simp only [ne_eq, hby, List.mem_map, not_exists, not_and]
    exact ⟨fun hnone r hr hsame => hnone r.target r hr hsame rfl,
      fun hnone target r hr hsame _ => hnone r hr hsame⟩
  rw [Resolution.warnings_eq, refusals_eq htraffic, List.filter_map, List.map_map,
    List.filter_congr hnew]
  apply List.map_congr_left
  intro refusal hrefusal
  have hc := ht.concerns (List.mem_filter.1 hrefusal).1
  simp only [Function.comp, Refused.warning, hc.time_eq, hc.target_eq, hc.agent_eq]

/-- After a step every refused attempt has its warning. -/
theorem warnedOnce (ht : s.Turn begun t) (h : s.Sound) (htraffic : s.traffic = .ok t)
    (hpast : ∀ id, (s.world.situation id).Remembers id past)
    (htimes : ∀ r ∈ past, r.time < s.now) {warnings : List CapacityWarning}
    (hwarned : WarnedOnce past warnings) :
    WarnedOnce (past ++ s.refusals) (warnings ++ t.resolution.warnings s.now) ∧
      ∀ r ∈ s.refusals, r.time = s.now := by
  have hmade : ∀ n ∈ s.refusals, ∃ refusal ∈ t.resolution.refusals,
      t.refused s.now refusal = n := by
    intro n hn
    rw [refusals_eq htraffic] at hn
    exact List.mem_map.1 hn
  have hnow : ∀ n ∈ s.refusals, n.time = s.now := by
    intro n hn
    obtain ⟨refusal, -, rfl⟩ := hmade n hn
    rfl
  rw [ht.warnings_eq h htraffic hpast]
  refine ⟨hwarned.append ?_ ?_ ?_, hnow⟩
  · intro r hr n hn
    rw [hnow n hn]
    exact Nat.le_of_lt (htimes r hr)
  · have hagents : (s.refusals.map (·.attempt)).map (·.agent) =
        t.resolution.refusals.map (·.agent) := by
      rw [refusals_eq htraffic, List.map_map, List.map_map]
      exact List.map_congr_left fun refusal hrefusal => (ht.concerns hrefusal).agent_eq
    exact List.Nodup.of_map _ (hagents ▸ ht.nodup_refusals)
  · intro r hr n hn hsame
    obtain ⟨refusal, hrefusal, rfl⟩ := hmade n hn
    have hc := ht.concerns hrefusal
    have hby := (ht.remembers_begun h (hpast refusal.agent)).refusedBy?_iff _ hc.attempt?_eq
    rw [hc.target_eq]
    exact hc.rebuffed.eq_of_refusedBy? (City.Sound.valid ht.begun_sound refusal.agent)
      ((hby r.target).2 ⟨r, hr, hsame, rfl⟩)

end Turn

/-! ## Whole histories -/

variable {first : Simulation α} {stages : List (Stage α)}

/-- Nobody has attempted anything before the first step. -/
theorem Fresh.remembers {config : Config} {g : Network} {agents : List Agent}
    (h : s.Fresh config g agents) (id : AgentId) : (s.world.situation id).Remembers id [] := by
  have hnone : (s.world.situation id).attempt? = none := by
    rw [h.world_eq]
    simp only [World.atStart]
    cases withId agents id <;> rfl
  refine ⟨by simp, fun k hk => ?_⟩
  rw [hnone] at hk
  cases hk

/-- What the steps of a chronicle refused. -/
def refusalsOf (stages : List (Stage α)) : List Refused :=
  stages.flatMap fun stage => stage.before.refusals

theorem Chronicle.warnedOnce {config : Config} {g : Network} {agents : List Agent}
    (h : first.Chronicle s stages) (hfirst : first.Fresh config g agents) :
    WarnedOnce (refusalsOf stages) s.warnings.toList ∧
      (∀ id, (s.world.situation id).Remembers id (refusalsOf stages)) ∧
      ∀ r ∈ refusalsOf stages, r.time < s.now := by
  induction h with
  | start =>
      refine ⟨?_, hfirst.remembers, by simp [refusalsOf]⟩
      rw [hfirst.warnings_eq]
      exact .nil
  | @skip s stages hs ih =>
      obtain ⟨hwarned, hpast, htimes⟩ := ih
      rw [s.warnings_fastForward, (hs.history.reachable.sound hfirst.sound).situation_fastForward]
      exact ⟨hwarned, hpast, fun r hr => Nat.lt_of_lt_of_le (htimes r hr) s.now_le_fastForward⟩
  | @step s next stages bus bus' record hs hstep ih =>
      obtain ⟨hwarned, hpast, htimes⟩ := ih
      have hsound := hs.history.reachable.sound hfirst.sound
      have hlater := now_lt_of_step hstep
      obtain ⟨t, begun, htraffic, ht, rfl, -⟩ := hsound.turn_of_step hstep
      have hrefusals : refusalsOf (stages ++ [⟨s, record.events⟩]) =
          refusalsOf stages ++ s.refusals := by
        simp [refusalsOf]
      have hwarnings : (s.afterStep t (Event.merge t.batches).length).warnings.toList =
          s.warnings.toList ++ t.resolution.warnings s.now := by
        simp [afterStep]
      obtain ⟨hwarned', hnow⟩ := ht.warnedOnce hsound htraffic hpast htimes hwarned
      rw [hrefusals, hwarnings]
      refine ⟨hwarned', fun id => ht.remembers hsound htraffic (hpast id), ?_⟩
      intro r hr
      rcases List.mem_append.1 hr with hold | hnew
      · exact Nat.lt_trans (htimes r hold) hlater
      · rw [hnow r hnew]
        exact hlater

/-- In every chronicle of a simulation that was built, every attempt that was refused, be it a
departure or a move, has just one warning, which names the second of its first refusal and the link
that was full, and there are no other warnings. -/
theorem warned_once {periodSecs : Float} {positions : List Point} {drafts : List LinkDraft}
    {g : Network} {config : Config} {agents : List Agent} {partitioning? : Option Partitioning}
    (hg : Network.build periodSecs positions drafts = .ok g)
    (hfirst : build config g agents partitioning? = .ok first) (hs : first.Chronicle s stages) :
    WarnedOnce (refusalsOf stages) s.warnings.toList :=
  (hs.warnedOnce (fresh_of_build (Network.numbered_of_build hg) hfirst)).1

/-- The report of the run through the hamlet warns once about every refused attempt. -/
theorem warned_once_hamlet : ∃ g split last report stages,
    Network.build Network.standardPeriodSecs Hamlet.places Hamlet.roads = .ok g ∧
      build (α := Rat) Hamlet.config g Hamlet.neighbours.reverse (some Hamlet.halves) =
        .ok split ∧
      split.run (Bus.new 1) false (fun _ => false) = (last, .ok report) ∧
      split.Chronicle last.simulation stages ∧ stages.flatMap (·.events) = last.events ∧
      WarnedOnce (refusalsOf stages) last.simulation.warnings.toList := by
  obtain ⟨g, split, last, report, hg, hsplit, hrun, hhistory⟩ := Hamlet.exists_run
  obtain ⟨stages, hstages, htold⟩ := hhistory.exists_chronicle
  exact ⟨g, split, last, report, stages, hg, hsplit, hrun, hstages, htold,
    warned_once hg hsplit hstages⟩

end Simulation
end Thoroughfare

import Thoroughfare.Proofs.Simulation.Idling

/-!
# Whole runs step by step

A run that nobody cancels ends when everybody is done, or before the first step that would be too
late.  All single steps up to that one tell what the run tells: neither the steps that the run skips
nor those that come after everybody is done tell anything.
-/

namespace Thoroughfare

theorem Clock.lt_tickAtOrAfter_iff {c : Clock} (h : 0 < c.stepSecs) {secs : Nat} {k : Tick} :
    k < c.tickAtOrAfter secs ↔ c.secsAt k < secs := by
  refine ⟨c.secsAt_lt_of_lt_tickAtOrAfter secs, fun hlt => Nat.lt_of_not_le fun hle => ?_⟩
  exact Nat.not_le.2 hlt
    (Nat.le_trans (c.le_secsAt_tickAtOrAfter secs h) (c.secsAt_mono hle))

/-- The first tick at which a run takes no more steps. -/
def Config.closing (c : Config) : Tick :=
  c.clock.tickAtOrAfter (c.maxSecs + 1)

/-- A district in which everybody is done is quiet for ever. -/
theorem District.Sound.quiet_of_liveCount {α : Type} {g : Network} {p : Partitioning} {tick : Tick}
    {d : District α} (h : d.Sound g p tick) (hlive : d.liveCount = 0) (next : Tick) :
    d.Quiet next := by
  have hnobody : ∀ id, (d.situation id).listing.live? = none := by
    intro id
    rw [← (lists_iff.1 (h.tidy id)).1, Std.ExtTreeMap.eq_empty_iff_size_eq_zero.2 hlive]
    exact Std.ExtTreeMap.getElem?_empty
  refine quiet_of_isQuiescent (h.isQuiescent_iff.2 fun id => ?_) fun first hfirst => ?_
  · have hnone := hnobody id
    cases hsituation : d.situation id with
    | waiting a refused =>
        rw [hsituation] at hnone
        cases hnone
    | underWay a held? =>
        rw [hsituation] at hnone
        cases hnone
    | _ => rfl
  · obtain ⟨⟨id, a, hresting⟩, -⟩ := h.nextTick?_eq_some_iff.1 hfirst
    have hnone := hnobody id
    rw [hresting] at hnone
    cases hnone

namespace Simulation

variable {α : Type} {s : Simulation α}

theorem Sound.quiet_of_liveCount (h : s.Sound) (hlive : s.liveCount = 0) (next : Tick) :
    ∀ d ∈ s.districts, d.Quiet next := fun d hd =>
  (City.Sound.each h d hd).quiet_of_liveCount
    (List.sum_eq_zero_iff_forall_eq_nat.1 hlive _ (List.mem_map_of_mem hd)) next

/-- A step is in time just when it is before the closing. -/
theorem Reachable.now_le_maxSecs_iff [Quantity α] {first : Simulation α} (h : first.Reachable s) :
    s.now ≤ first.config.maxSecs ↔ s.tick < first.config.closing := by
  rw [← h.setting.1, Config.closing, Clock.lt_tickAtOrAfter_iff s.valid.stepSecs_pos,
    Nat.lt_succ_iff]
  exact Iff.rfl

end Simulation

namespace Run

variable {first : Simulation Rat} {start r next last : Run Rat}

/-- A run that has told what single steps tell, and has got where they lead. -/
def Stepwise (start r : Run Rat) : Prop :=
  ∃ n stepped, start.simulation.tick + n = r.simulation.tick ∧
    start.advanceBy (fun _ => false) n = (stepped, none) ∧ stepped.Alongside r

theorem Stepwise.refl (start : Run Rat) : Stepwise start start :=
  ⟨0, start, rfl, rfl, rfl, rfl, rfl⟩

theorem Stepwise.fastForward (h : Stepwise start r)
    (hgain : ∀ d ∈ r.simulation.districts, d.Gaining) : Stepwise start r.fastForward := by
  cases hnext : r.simulation.idleUntil? with
  | none =>
      rwa [fastForward_of_idleUntil?_eq_none hnext]
  | some next =>
      obtain ⟨idle, hidle, hsame⟩ := exists_alongside_fastForward hnext hgain fun _ => false
      obtain ⟨n, stepped, htick, hstepped, halong⟩ := h
      obtain ⟨ahead, hahead, hwith⟩ := halong.advanceBy hidle
      obtain ⟨hlt, hskip⟩ := Simulation.fastForward_eq_idled hnext
      refine ⟨_, ahead, ?_, advanceBy_add hstepped hahead, hwith.trans hsame⟩
      rw [Run.fastForward, hskip, ← Nat.add_assoc, htick]
      rfl

theorem Stepwise.advance (h : Stepwise start r)
    (hadvance : r.advance (fun _ => false) = (next, none)) : Stepwise start next := by
  obtain ⟨n, stepped, htick, hstepped, halong⟩ := h
  obtain ⟨ahead, hahead, hwith, -⟩ := halong.advance hadvance
  refine ⟨n + 1, ahead, ?_, advanceBy_add hstepped (advanceBy_one hahead), hwith⟩
  rw [(simulation_advance _ hadvance).2, ← Nat.add_assoc, htick]

/-- Single steps while nothing can happen tell nothing more. -/
theorem Stepwise.exists_idle {closing later : Tick} (h : Stepwise start r)
    (hquiet : ∀ d ∈ r.simulation.districts, d.Quiet later)
    (hgain : ∀ d ∈ r.simulation.districts, d.Gaining) (hle : r.simulation.tick ≤ closing)
    (hlater : closing ≤ later) :
    ∃ n stepped, start.simulation.tick + n = closing ∧
      start.advanceBy (fun _ => false) n = (stepped, none) ∧ stepped.events = r.events ∧
      stepped.simulation.warnings = r.simulation.warnings := by
  obtain ⟨n, stepped, htick, hstepped, halong⟩ := h
  obtain ⟨more, rfl⟩ := Nat.exists_eq_add_of_le hle
  cases more with
  | zero => exact ⟨n, stepped, htick, hstepped, halong.events_eq, halong.warnings_eq⟩
  | succ more =>
      obtain ⟨idle, hidle, hsame⟩ :=
        exists_alongside_idled hquiet hgain (fun _ => false) more hlater
      obtain ⟨ahead, hahead, hwith⟩ := halong.advanceBy hidle
      have halong := hwith.trans hsame
      exact ⟨n + (more + 1), ahead, by rw [← Nat.add_assoc, htick],
        advanceBy_add hstepped hahead, halong.events_eq, halong.warnings_eq⟩

/-- When the next step of a run is not before the closing, single steps up to the closing tell
nothing more. -/
theorem Stepwise.exists_late {closing : Tick} (h : Stepwise start r)
    (hgain : ∀ d ∈ r.simulation.districts, d.Gaining) (hle : r.simulation.tick ≤ closing)
    (hpassed : closing ≤ r.fastForward.simulation.tick) :
    ∃ n stepped, start.simulation.tick + n = closing ∧
      start.advanceBy (fun _ => false) n = (stepped, none) ∧ stepped.events = r.events ∧
      stepped.simulation.warnings = r.fastForward.simulation.warnings := by
  cases hnext : r.simulation.idleUntil? with
  | none =>
      rw [fastForward_of_idleUntil?_eq_none hnext] at hpassed ⊢
      obtain ⟨n, stepped, htick, hstepped, halong⟩ := h
      exact ⟨n, stepped, htick.trans (Nat.le_antisymm hle hpassed), hstepped, halong.events_eq,
        halong.warnings_eq⟩
  | some later =>
      obtain ⟨hlt, hskip⟩ := Simulation.fastForward_eq_idled hnext
      have htick : r.fastForward.simulation.tick = later := by
        rw [Run.fastForward, hskip]
        exact Nat.add_sub_cancel' (Nat.le_of_lt hlt)
      obtain ⟨n, stepped, hn, hstepped, hevents, hwarnings⟩ := h.exists_idle
        (Simulation.quiet_of_idleUntil? hnext) hgain hle (htick ▸ hpassed)
      refine ⟨n, stepped, hn, hstepped, hevents, hwarnings.trans ?_⟩
      rw [Run.fastForward, hskip]
      rfl

theorem cancelled_advance (h : r.advance (fun _ => false) = (next, none)) :
    next.cancelled = r.cancelled := by
  obtain ⟨s, record, bus, -, rfl⟩ := advance_eq_ok_iff.1 h
  exact Bool.or_false _

/-- All single steps up to the closing tell what a run to its end tells. -/
theorem Stepwise.toEnd (hfirst : first.Sound)
    (hgain : ∀ s : Simulation Rat, first.Reachable s → ∀ d ∈ s.districts, d.Gaining)
    (h : Stepwise start r) (hr : first.Reachable r.simulation) (hgoesOn : r.cancelled = false)
    (hle : r.simulation.tick ≤ first.config.closing) {reason : EndReason} :
    r.toEnd (fun _ => false) = (last, .ok reason) →
      ∃ n stepped, start.simulation.tick + n = first.config.closing ∧
        start.advanceBy (fun _ => false) n = (stepped, none) ∧ stepped.events = last.events ∧
        stepped.simulation.warnings = last.simulation.warnings := by
  -- The induction keeps that no step up to now was too late.  So there are steps left up to the
  -- closing when the run ends early, and none is needed after it when the run skips past it.
  fun_induction Run.toEnd (fun _ => false) r with
  | case1 r hcancelled =>
      rw [hgoesOn] at hcancelled
      cases hcancelled
  | case2 r hcancelled hnobody =>
      rintro ⟨⟩
      exact h.exists_idle ((hr.sound hfirst).quiet_of_liveCount hnobody _) (hgain _ hr) hle
        (Nat.le_refl _)
  | case3 r hcancelled hnobody hlate =>
      rw [hr.setting.1, ← Nat.not_le] at hlate
      rintro ⟨⟩
      have hpassed : first.config.closing ≤ r.fastForward.simulation.tick :=
        Nat.le_of_not_lt fun hlt => hlate (hr.skip.now_le_maxSecs_iff.2 hlt)
      exact h.exists_late (hgain _ hr) hle hpassed
  | case4 r hcancelled hnobody hlate next e hadvance => rintro ⟨⟩
  | case5 r hcancelled hnobody hlate next hadvance ih =>
      rw [hr.setting.1] at hlate
      refine ih (Stepwise.advance (h.fastForward (hgain _ hr)) hadvance)
        (reachable_advance hr.skip hadvance) ((cancelled_advance hadvance).trans hgoesOn) ?_
      rw [(simulation_advance _ hadvance).2]
      exact hr.skip.now_le_maxSecs_iff.1 (Nat.le_of_not_lt hlate)

end Run

end Thoroughfare

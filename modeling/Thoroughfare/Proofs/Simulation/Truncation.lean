import Thoroughfare.Proofs.Simulation.Endings
import Thoroughfare.Proofs.Simulation.Fifo

/-!
# Stopping early only truncates

A run with less time does what a run with more time does, up to its own last second.  A run that is
cancelled in a step does what it would have done otherwise, up to that step.
-/

namespace Thoroughfare

namespace Simulation

variable {α : Type} {s short first : Simulation α} {config : Config}

/-- The simulation with other settings for the rest of its time. -/
def under (s : Simulation α) (config : Config) (valid : config.Valid) : Simulation α :=
  { s with config := config, valid := valid }

variable [Quantity α]

theorem fastForward_under (s : Simulation α) (valid : config.Valid) :
    (s.under config valid).fastForward = s.fastForward.under config valid := by
  have hidle : (s.under config valid).idleUntil? = s.idleUntil? := rfl
  unfold fastForward
  rw [hidle]
  cases s.idleUntil? <;> rfl

omit [Quantity α] in
theorem clock_under (valid : config.Valid) (hclock : config.clock = s.config.clock) :
    (s.under config valid).clock = s.clock := by
  simp only [Config.clock, Clock.start, Clock.mk.injEq, and_true] at hclock
  simp only [clock, under, hclock]

/-- A step looks at nothing in the settings but the clock. -/
theorem step_under (valid : config.Valid) (hclock : config.clock = s.config.clock) (bus : Bus) :
    (s.under config valid).step bus = ((s.step bus).1.under config valid, (s.step bus).2) := by
  have hnow := clock_under valid hclock
  have htraffic : (s.under config valid).traffic = s.traffic := by
    simp only [traffic, now, hnow]
    rfl
  have hstats : ∀ t events, (s.under config valid).statsOf t events = s.statsOf t events := by
    intro t events
    simp only [statsOf, now, hnow]
    rfl
  have hafter : ∀ t events, (s.under config valid).afterStep t events =
      (s.afterStep t events).under config valid := by
    intro t events
    simp only [afterStep, now, hnow]
    rfl
  unfold step
  rw [htraffic]
  rcases s.traffic with e | t
  · rfl
  · dsimp only
    rcases bus.accept t.batches with e | ⟨events, bus'⟩
    · rfl
    · simp only [hstats, hafter]

/-- What a simulation that is built starts with. -/
theorem build_eq_ok_iff {g : Network} {agents : List Agent}
    {partitioning? : Option Partitioning} :
    build config g agents partitioning? = .ok first ↔
      ∃ (valid : config.Valid) (p : Partitioning), agentFault? ∅ agents = none ∧
        choosePartitioning config g partitioning? = .ok p ∧ ownerFault? g p agents = none ∧
        first = ⟨config, valid, g, p, 0, firstDistricts config g p agents, 0, none, 0, 0, #[]⟩ := by
  constructor
  · intro h
    unfold build at h
    split at h
    · cases h
    · rename_i hvalid
      split at h
      · cases h
      · rename_i hagents
        split at h
        · cases h
        · rename_i p hp
          split at h
          · cases h
          · rename_i howners
            cases h
            exact ⟨hvalid, p, hagents, hp, howners, rfl⟩
  · rintro ⟨hvalid, p, hagents, hp, howners, rfl⟩
    unfold build
    split
    · rename_i hfault
      rw [hvalid] at hfault
      cases hfault
    · rw [hagents, hp]
      dsimp only
      rw [howners]

/-- Simulations that are built with less and with more time differ only in that. -/
theorem eq_under_of_build {g : Network} {agents : List Agent}
    {partitioning? : Option Partitioning} {earlier : Nat}
    (hfirst : build config g agents partitioning? = .ok first)
    (hshort : build { config with maxSecs := earlier } g agents partitioning? = .ok short) :
    ∃ valid, first = short.under config valid := by
  obtain ⟨valid, p, -, hp, -, rfl⟩ := build_eq_ok_iff.1 hfirst
  obtain ⟨-, p', -, hp', -, rfl⟩ := build_eq_ok_iff.1 hshort
  have hsame : p' = p := Except.ok.inj (hp'.symm.trans hp)
  rw [hsame]
  exact ⟨valid, rfl⟩

end Simulation

theorem Resolution.time_of_mem_warnings {r : Resolution} {time : Nat} {w : CapacityWarning}
    (hw : w ∈ r.warnings time) : w.time = time := by
  have hwarning : ∀ {agent target firstAttempt},
      warning? time agent target firstAttempt = some w → w.time = time := by
    intro agent target firstAttempt h
    unfold warning? at h
    split at h <;> cases h
    rfl
  rw [warnings, List.mem_append, List.mem_filterMap, List.mem_filterMap] at hw
  rcases hw with ⟨entry, -, h⟩ | ⟨entry, -, h⟩
  · obtain ⟨refusal, -, h⟩ := Option.bind_eq_some_iff.1 h
    exact hwarning h
  · split at h
    · exact hwarning h
    · cases h

namespace Run

open Relation (ReflTransGen)

variable {α : Type} {first : Simulation α} {r next stop last short full : Run α}

/-! ## What a run adds to another -/

/-- A run that has gone on with another, and all that it added is of some times. -/
structure Adds (within : Nat → Prop) (r last : Run α) : Prop where
  records : ∃ more, last.records.toList = r.records.toList ++ more ∧
    ∀ record ∈ more, within record.stats.time ∧ ∀ e ∈ record.events, e.time = record.stats.time
  warnings : ∃ more, last.simulation.warnings.toList = r.simulation.warnings.toList ++ more ∧
    ∀ w ∈ more, within w.time

theorem Adds.refl (within : Nat → Prop) (r : Run α) : r.Adds within r :=
  ⟨⟨[], (List.append_nil _).symm, nofun⟩, ⟨[], (List.append_nil _).symm, nofun⟩⟩

theorem Adds.trans {within : Nat → Prop} (h : r.Adds within next) (h' : next.Adds within last) :
    r.Adds within last := by
  obtain ⟨⟨records, hrecords, hall⟩, warnings, hwarnings, hwarned⟩ := h
  obtain ⟨⟨records', hrecords', hall'⟩, warnings', hwarnings', hwarned'⟩ := h'
  refine ⟨⟨records ++ records', ?_, ?_⟩, warnings ++ warnings', ?_, ?_⟩
  · rw [hrecords', hrecords, List.append_assoc]
  · exact fun record hrecord => (List.mem_append.1 hrecord).elim (hall record) (hall' record)
  · rw [hwarnings', hwarnings, List.append_assoc]
  · exact fun w hw => (List.mem_append.1 hw).elim (hwarned w) (hwarned' w)

theorem Adds.mono {within widely : Nat → Prop} (h : r.Adds within last)
    (himp : ∀ secs, within secs → widely secs) : r.Adds widely last := by
  obtain ⟨⟨records, hrecords, hall⟩, warnings, hwarnings, hwarned⟩ := h
  exact ⟨⟨records, hrecords, fun record hrecord =>
      ⟨himp _ (hall record hrecord).1, (hall record hrecord).2⟩⟩,
    warnings, hwarnings, fun w hw => himp _ (hwarned w hw)⟩

/-- A run that does what another does up to some second. -/
structure Truncates (short full : Run α) (secs : Nat) : Prop where
  records : short.records.toList =
    full.records.toList.filter fun record => record.stats.time ≤ secs
  events : short.events = full.events.filter fun e => e.time ≤ secs
  warnings : short.simulation.warnings.toList =
    full.simulation.warnings.toList.filter fun w => w.time ≤ secs

/-- What comes after a second is left out by whoever stops at it. -/
theorem Adds.truncates {bus : Bus} {cancelled : Bool} {secs : Nat}
    (hfirst : first.warnings = #[])
    (h : (first.begin bus cancelled).Adds (· ≤ secs) short) (h' : short.Adds (secs < ·) full) :
    short.Truncates full secs := by
  obtain ⟨⟨records, hrecords, hall⟩, warnings, hwarnings, hwarned⟩ := h
  obtain ⟨⟨records', hrecords', hall'⟩, warnings', hwarnings', hwarned'⟩ := h'
  have hkept : short.records.toList = records := hrecords
  have hnoted : short.simulation.warnings.toList = warnings := by
    rw [hwarnings, Simulation.begin, hfirst]
    rfl
  refine ⟨?_, ?_, ?_⟩
  · rw [hrecords', hkept, List.filter_append, List.filter_eq_self.2, List.filter_eq_nil_iff.2,
      List.append_nil]
    · exact fun record hrecord => by simpa using (hall' record hrecord).1
    · exact fun record hrecord => by simpa using (hall record hrecord).1
  · rw [events, events, hrecords', List.flatMap_append, List.filter_append, hkept,
      List.filter_eq_self.2, List.filter_eq_nil_iff.2, List.append_nil]
    · intro e he
      obtain ⟨record, hrecord, hmem⟩ := List.mem_flatMap.1 he
      rw [(hall' record hrecord).2 e hmem]
      simpa using (hall' record hrecord).1
    · intro e he
      obtain ⟨record, hrecord, hmem⟩ := List.mem_flatMap.1 he
      rw [(hall record hrecord).2 e hmem]
      simpa using (hall record hrecord).1
  · rw [hwarnings', hnoted, List.filter_append, List.filter_eq_self.2, List.filter_eq_nil_iff.2,
      List.append_nil]
    · exact fun w hw => by simpa using hwarned' w hw
    · exact fun w hw => by simpa using hwarned w hw

variable [Quantity α] {cancelAfter : StepStats → Bool} {config : Config} {reason : EndReason}

/-- All that a round adds is of the second of its step. -/
theorem Round.adds (h : Round cancelAfter r next) (hr : r.simulation.Sound) :
    r.Adds (· = r.fastForward.simulation.now) next := by
  obtain ⟨s, record, bus, hstep, rfl⟩ := h.exists_step
  obtain ⟨t, begun, -, ht, rfl, rfl⟩ := hr.fastForward.turn_of_step hstep
  refine ⟨⟨[_], toList_recorded .., ?_⟩, t.resolution.warnings r.simulation.fastForward.now,
    ?_, fun w hw => Resolution.time_of_mem_warnings hw⟩
  · intro other hother
    rw [List.mem_singleton.1 hother]
    exact ⟨rfl, fun e he => (ht.distinct hr.fastForward).time_eq_of_mem_merge he⟩
  · rw [← r.simulation.warnings_fastForward]
    exact Array.toList_appendList

theorem Round.now_lt (h : Round cancelAfter r next) :
    r.fastForward.simulation.now < next.simulation.now := by
  obtain ⟨s, record, bus, hstep, rfl⟩ := h.exists_step
  exact Simulation.now_lt_of_step hstep

theorem Round.sound (h : Round cancelAfter r next) (hr : r.simulation.Sound) :
    next.simulation.Sound := by
  obtain ⟨s, record, bus, hstep, rfl⟩ := h.exists_step
  have hnext := hr.fastForward.step r.bus
  rwa [hstep] at hnext

theorem Round.config_eq (h : Round cancelAfter r next) :
    next.simulation.config = r.simulation.config :=
  (simulation_advance cancelAfter h.advance).1.trans r.simulation.config_fastForward

theorem sound_of_rounds (h : ReflTransGen (Round cancelAfter) r last)
    (hr : r.simulation.Sound) : last.simulation.Sound := by
  induction h with
  | refl => exact hr
  | tail _ hround ih => exact hround.sound ih

theorem config_of_rounds (h : ReflTransGen (Round cancelAfter) r last) :
    last.simulation.config = r.simulation.config := by
  induction h with
  | refl => rfl
  | tail _ hround ih => exact hround.config_eq.trans ih

/-- Whatever rounds add is not before the first step. -/
theorem adds_after (h : ReflTransGen (Round cancelAfter) r last) (hr : r.simulation.Sound) :
    r.Adds (r.fastForward.simulation.now ≤ ·) last := by
  induction h using ReflTransGen.head_induction_on with
  | refl => exact .refl _ _
  | head hround _ ih =>
      refine ((hround.adds hr).mono fun secs => Nat.le_of_eq ∘ Eq.symm).trans
        ((ih (hround.sound hr)).mono fun secs => Nat.le_trans (Nat.le_of_lt ?_))
      exact Nat.lt_of_lt_of_le hround.now_lt (Simulation.now_le_fastForward _)

/-- Whatever rounds add is before the next step. -/
theorem adds_before (h : ReflTransGen (Round cancelAfter) r last) (hr : r.simulation.Sound) :
    r.Adds (· ≤ last.simulation.now) last := by
  induction h with
  | refl => exact .refl _ _
  | tail hrounds hround ih =>
      have hlt := hround.now_lt
      refine (ih.mono fun secs hle => ?_).trans
        ((hround.adds (sound_of_rounds hrounds hr)).mono fun secs heq => ?_)
      · exact Nat.le_trans hle (Nat.le_trans (Simulation.now_le_fastForward _) (Nat.le_of_lt hlt))
      · exact heq ▸ Nat.le_of_lt hlt

/-- Whatever rounds add is in time. -/
theorem adds_inTime (h : ReflTransGen (Round cancelAfter) r last) (hr : r.simulation.Sound) :
    r.Adds (· ≤ r.simulation.config.maxSecs) last := by
  induction h with
  | refl => exact .refl _ _
  | tail hrounds hround ih =>
      refine ih.trans ((hround.adds (sound_of_rounds hrounds hr)).mono fun secs heq => ?_)
      rw [heq, ← config_of_rounds hrounds]
      exact hround.inTime

theorem Stops.told_eq (h : r.Stops last reason) :
    last.records = r.records ∧ last.simulation.warnings = r.simulation.warnings := by
  cases h with
  | cancelled | allFinished => exact ⟨rfl, rfl⟩
  | maxTime => exact ⟨rfl, r.simulation.warnings_fastForward⟩

theorem Stops.adds (h : r.Stops last reason) (within : Nat → Prop) : r.Adds within last := by
  obtain ⟨hrecords, hwarnings⟩ := h.told_eq
  refine ⟨⟨[], ?_, nofun⟩, [], ?_, nofun⟩
  · rw [hrecords, List.append_nil]
  · rw [hwarnings, List.append_nil]

/-! ## Less time -/

omit [Quantity α] in
/-- The run with other settings for the rest of its time. -/
def under (r : Run α) (config : Config) (valid : config.Valid) : Run α :=
  { r with simulation := r.simulation.under config valid }

theorem Round.under (h : Round cancelAfter r next) (valid : config.Valid)
    (hclock : config.clock = r.simulation.config.clock)
    (hle : r.simulation.config.maxSecs ≤ config.maxSecs) :
    Round cancelAfter (r.under config valid) (next.under config valid) := by
  have hskip : (r.under config valid).fastForward = r.fastForward.under config valid :=
    congrArg (fun s => ({ r with simulation := s } : Run α)) (r.simulation.fastForward_under valid)
  have hsame : config.clock = r.simulation.fastForward.config.clock := by
    rw [hclock, Simulation.config_fastForward]
  have hnow : (r.under config valid).fastForward.simulation.now = r.fastForward.simulation.now := by
    rw [hskip]
    exact congrArg Clock.now (Simulation.clock_under valid hsame)
  refine ⟨h.goesOn, h.live, ?_, ?_⟩
  · rw [hnow]
    exact Nat.le_trans h.inTime hle
  · obtain ⟨s, record, bus, hstep, rfl⟩ := h.exists_step
    refine advance_eq_ok_iff.2 ⟨s.under config valid, record, bus, ?_, rfl⟩
    rw [hskip]
    have hstep' := Simulation.step_under valid hsame r.bus
    rwa [hstep] at hstep'

theorem rounds_under (h : ReflTransGen (Round cancelAfter) r last) (valid : config.Valid)
    (hclock : config.clock = r.simulation.config.clock)
    (hle : r.simulation.config.maxSecs ≤ config.maxSecs) :
    ReflTransGen (Round cancelAfter) (r.under config valid) (last.under config valid) := by
  induction h with
  | refl => exact .refl
  | tail hrounds hround ih =>
      have hconfig := config_of_rounds hrounds
      exact ih.tail (hround.under valid (hconfig ▸ hclock) (hconfig ▸ hle))

/-- Whatever is left to do for a run with more time is later than what a run with less time did. -/
theorem Stops.adds_under (h : r.Stops last reason) (hr : (r.under config valid).simulation.Sound)
    (hgoesOn : r.cancelled = false) (hclock : config.clock = r.simulation.config.clock)
    (hrounds : ReflTransGen (Round cancelAfter) (r.under config valid) stop) :
    (r.under config valid).Adds (r.simulation.config.maxSecs < ·) stop := by
  cases h with
  | cancelled hcancelled =>
      rw [hgoesOn] at hcancelled
      cases hcancelled
  | allFinished _ hnobody =>
      rcases hrounds.cases_head with rfl | ⟨next, hround, -⟩
      · exact .refl _ _
      · exact absurd hnobody hround.live
  | maxTime _ _ hlate =>
      have hsame : config.clock = r.simulation.fastForward.config.clock := by
        rw [hclock, Simulation.config_fastForward]
      have hnow : (r.under config valid).fastForward.simulation.now =
          r.fastForward.simulation.now :=
        (congrArg Simulation.now (r.simulation.fastForward_under valid)).trans
          (congrArg Clock.now (Simulation.clock_under valid hsame))
      exact (adds_after hrounds hr).mono fun secs hle => Nat.lt_of_lt_of_le hlate (hnow ▸ hle)

theorem Round.cancelled_eq (h : Round (fun _ => false) r next) :
    next.cancelled = r.cancelled := by
  obtain ⟨s, record, bus, -, rfl⟩ := h.exists_step
  exact Bool.or_false _

theorem cancelled_of_rounds (h : ReflTransGen (Round fun _ => false) r last) :
    last.cancelled = r.cancelled := by
  induction h with
  | refl => rfl
  | tail _ hround ih => exact hround.cancelled_eq.trans ih

/-- A run with less time does what one with more time does up to its own last second. -/
theorem truncates_of_less_time {s : Simulation α} {bus : Bus} {report fullReport : Report}
    (hsound : s.Sound) (hlonger : (s.under config valid).Sound) (hwarnings : s.warnings = #[])
    (hclock : config.clock = s.config.clock) (hle : s.config.maxSecs ≤ config.maxSecs)
    (hrun : s.run bus false (fun _ => false) = (last, .ok report))
    (hfull : (s.under config valid).run bus false (fun _ => false) = (full, .ok fullReport)) :
    last.Truncates full s.config.maxSecs := by
  obtain ⟨stop, reason, hrounds, hstops, -⟩ := run_eq_ok_iff.1 hrun
  obtain ⟨stop', reason', hrounds', hstops', -⟩ := run_eq_ok_iff.1 hfull
  have hconfig : stop.simulation.config = s.config := config_of_rounds hrounds
  have hlong := rounds_under hrounds valid hclock hle
  -- The longer run goes on where the shorter one stops.
  have hgoesOn : (stop.under config valid).toEnd (fun _ => false) = (full, .ok reason') :=
    (toEnd_eq_of_rounds hlong).symm.trans (toEnd_eq_ok_iff.2 ⟨stop', hrounds', hstops'⟩)
  obtain ⟨final, hrest, hfinal⟩ := toEnd_eq_ok_iff.1 hgoesOn
  have hmore := (hstops.adds_under (sound_of_rounds hlong hlonger) (cancelled_of_rounds hrounds)
    (hconfig ▸ hclock) hrest).trans (hfinal.adds _)
  rw [hconfig] at hmore
  have hsofar : (s.begin bus false).Adds (· ≤ s.config.maxSecs) stop := adds_inTime hrounds hsound
  have htruncates := hsofar.truncates hwarnings ⟨hmore.records, hmore.warnings⟩
  obtain ⟨hrecords, hwarned⟩ := hstops.told_eq
  refine ⟨?_, ?_, ?_⟩
  · rw [hrecords, htruncates.records]
  · rw [events, hrecords]
    exact htruncates.events
  · rw [hwarned, htruncates.warnings]

/-! ## Cancelled runs -/

/-- Whoever cancels a run in a round does not change what is done in it. -/
theorem Round.recancel (h : Round (fun _ => false) r next) {record : StepRecord}
    (hrecord : next.records.toList = r.records.toList ++ [record])
    (cancelAfter : StepStats → Bool) :
    Round cancelAfter r { next with cancelled := cancelAfter record.stats } := by
  refine ⟨h.goesOn, h.live, h.inTime, ?_⟩
  obtain ⟨s, other, bus, hstep, rfl⟩ := h.exists_step
  rw [toList_recorded] at hrecord
  obtain rfl : other = record := List.singleton_inj.1 (List.append_cancel_left hrecord)
  have hfresh : r.fastForward.cancelled = false := h.goesOn
  exact advance_eq_ok_iff.2 ⟨s, other, bus, hstep, by simp [recorded, hfresh]⟩

theorem Round.exists_record (h : Round cancelAfter r next) :
    ∃ record, next.records.toList = r.records.toList ++ [record] := by
  obtain ⟨s, record, bus, -, rfl⟩ := h.exists_step
  exact ⟨record, toList_recorded ..⟩

theorem records_isPrefix (h : ReflTransGen (Round cancelAfter) r last) :
    r.records.toList <+: last.records.toList := by
  induction h with
  | refl => exact List.prefix_rfl
  | tail _ hround ih =>
      obtain ⟨record, hrecord⟩ := hround.exists_record
      exact ih.trans (hrecord ▸ List.prefix_append _ _)

/-- A run that is cancelled in the round of some record goes through the same rounds up to it. -/
theorem exists_cut (hrounds : ReflTransGen (Round fun _ => false) r stop) {n : Nat}
    {record : StepRecord} (hsize : r.records.toList.length ≤ n)
    (hrecord : stop.records.toList[n]? = some record)
    (hgoesOn : ∀ earlier ∈ stop.records.toList.take n, cancelAfter earlier.stats = false) :
    ∃ before after, ReflTransGen (Round cancelAfter) r before ∧
      ReflTransGen (Round fun _ => false) r before ∧ Round (fun _ => false) before after ∧
      ReflTransGen (Round fun _ => false) after stop ∧
      after.records.toList = before.records.toList ++ [record] ∧
      after.records.toList = stop.records.toList.take (n + 1) := by
  induction hrounds using ReflTransGen.head_induction_on with
  | refl =>
      rw [List.getElem?_eq_none hsize] at hrecord
      cases hrecord
  | @head r next hround hrest ih =>
      obtain ⟨first, hfirst⟩ := hround.exists_record
      have hstarts := records_isPrefix hrest
      have hlength : next.records.toList.length = r.records.toList.length + 1 := by
        rw [hfirst, List.length_append, List.length_singleton]
      have hlast : first ∈ next.records.toList := by
        rw [hfirst]
        exact List.mem_append_right _ (List.mem_singleton_self _)
      rcases Nat.eq_or_lt_of_le hsize with rfl | hlt
      · have htake : next.records.toList =
            stop.records.toList.take (r.records.toList.length + 1) :=
          hlength ▸ List.prefix_iff_eq_take.1 hstarts
        obtain rfl : first = record := by
          obtain ⟨later, hlater⟩ := hstarts
          rw [← hlater, hfirst] at hrecord
          simpa using hrecord
        exact ⟨r, next, .refl, .refl, hround, hrest, hfirst, htake⟩
      · have hearly : cancelAfter first.stats = false :=
          hgoesOn first ((List.prefix_take_iff.2 ⟨hstarts, hlength ▸ hlt⟩).subset hlast)
        have hsame : Round cancelAfter r next := by
          have hcut := hround.recancel hfirst cancelAfter
          rwa [hearly, ← hround.goesOn, ← hround.cancelled_eq] at hcut
        obtain ⟨before, after, hcut, hfull, hrest⟩ := ih (hlength ▸ hlt)
        exact ⟨before, after, .head hsame hcut, .head hround hfull, hrest⟩

/-- A run that is cancelled in some round does what it would have done otherwise up to that round,
and reports that it was cancelled. -/
theorem truncates_of_cancelled {s : Simulation α} {bus : Bus} {report : Report}
    (hsound : s.Sound) (hwarnings : s.warnings = #[])
    (hrun : s.run bus false (fun _ => false) = (full, .ok report)) {n : Nat} {record : StepRecord}
    (hrecord : full.records.toList[n]? = some record) (hcancels : cancelAfter record.stats = true)
    (hgoesOn : ∀ earlier ∈ full.records.toList.take n, cancelAfter earlier.stats = false) :
    ∃ cut, s.run bus false cancelAfter = (cut, .ok (cut.simulation.report .cancelled)) ∧
      cut.records.toList = full.records.toList.take (n + 1) ∧
      cut.Truncates full record.stats.time := by
  obtain ⟨stop, reason, hrounds, hstops, -⟩ := run_eq_ok_iff.1 hrun
  rw [hstops.told_eq.1] at hrecord hgoesOn ⊢
  obtain ⟨before, after, hcutting, hbefore, hround, hafter, hlast, htake⟩ :=
    exists_cut hrounds (Nat.zero_le n) hrecord hgoesOn
  let cut : Run α := { after with cancelled := cancelAfter record.stats }
  have hcut : ReflTransGen (Round cancelAfter) (s.begin bus false) cut :=
    hcutting.tail (hround.recancel hlast cancelAfter)
  refine ⟨cut, run_eq_ok_iff.2 ⟨cut, .cancelled, hcut, .cancelled hcancels, rfl⟩, htake, ?_⟩
  have hsoundBefore := sound_of_rounds hbefore hsound
  have htime : record.stats.time = before.fastForward.simulation.now := by
    obtain ⟨next, other, bus', hstep, rfl⟩ := hround.exists_step
    rw [toList_recorded] at hlast
    obtain rfl : other = record := List.singleton_inj.1 (List.append_cancel_left hlast)
    exact (Simulation.stats_of_step hstep).2
  have hsofar : (s.begin bus false).Adds (· ≤ record.stats.time) after := by
    rw [htime]
    refine ((adds_before hbefore hsound).mono fun secs hle => ?_).trans
      ((hround.adds hsoundBefore).mono fun secs => Nat.le_of_eq)
    exact Nat.le_trans hle (Simulation.now_le_fastForward _)
  have hmore : after.Adds (record.stats.time < ·) full := by
    rw [htime]
    refine ((adds_after hafter (hround.sound hsoundBefore)).mono fun secs hle => ?_).trans
      (hstops.adds _)
    exact Nat.lt_of_lt_of_le hround.now_lt (Nat.le_trans (Simulation.now_le_fastForward _) hle)
  have htruncates := hsofar.truncates hwarnings hmore
  exact ⟨htruncates.records, htruncates.events, htruncates.warnings⟩

end Run

namespace Simulation

variable {α : Type} [Quantity α] {first : Simulation α} {config : Config} {g : Network}
  {agents : List Agent}

/-- A run with less time tells what the run with more time tells up to its own last second.  A run
that is cancelled in one of its steps tells what it would have told up to that step otherwise, and
says that it was cancelled. -/
theorem stopping_early_truncates {periodSecs : Float} {positions : List Point}
    {drafts : List LinkDraft} {partitioning? : Option Partitioning}
    (hg : Network.build periodSecs positions drafts = .ok g)
    (hfirst : build config g agents partitioning? = .ok first) {bus : Bus}
    (hbus : bus.UpTo first.now) :
    ∃ full report, first.run bus false (fun _ => false) = (full, .ok report) ∧
      (∀ earlier ≤ config.maxSecs, ∀ short : Simulation α,
        build { config with maxSecs := earlier } g agents partitioning? = .ok short →
          ∃ last report', short.run bus false (fun _ => false) = (last, .ok report') ∧
            last.Truncates full earlier ∧
            report'.warnings = report.warnings.filter fun w => w.time ≤ earlier) ∧
      ∀ (cancelAfter : StepStats → Bool) (n : Nat) (record : StepRecord),
        full.records.toList[n]? = some record → cancelAfter record.stats = true →
        (∀ earlier ∈ full.records.toList.take n, cancelAfter earlier.stats = false) →
          ∃ cut report', first.run bus false cancelAfter = (cut, .ok report') ∧
            report'.reason = .cancelled ∧
            cut.records.toList = full.records.toList.take (n + 1) ∧
            cut.Truncates full record.stats.time ∧
            report'.warnings = report.warnings.filter fun w => w.time ≤ record.stats.time := by
  have hnumbered := Network.numbered_of_build hg
  have hfresh := fresh_of_build hnumbered hfirst
  obtain ⟨full, report, hrun, -⟩ := hfresh.sound.run_ok hbus false fun _ => false
  obtain ⟨-, reason, rfl⟩ := Recorded.start.run hrun
  refine ⟨full, _, hrun, fun earlier hle short hshort => ?_,
    fun cancelAfter n record hrecord hcancels hgoesOn => ?_⟩
  · have hfreshShort := fresh_of_build hnumbered hshort
    obtain ⟨valid, rfl⟩ := eq_under_of_build hfirst hshort
    have hconfig := hfreshShort.config_eq
    have hnow : (short.under config valid).now = short.now :=
      congrArg Clock.now (clock_under valid (by rw [hconfig]; rfl))
    obtain ⟨last, report', hlast, -⟩ :=
      hfreshShort.sound.run_ok (hnow ▸ hbus) false fun _ => false
    obtain ⟨-, reason', rfl⟩ := Recorded.start.run hlast
    have htruncates := Run.truncates_of_less_time hfreshShort.sound hfresh.sound
      hfreshShort.warnings_eq (by rw [hconfig]; rfl) (by rw [hconfig]; exact hle) hlast hrun
    rw [hconfig] at htruncates
    exact ⟨last, _, hlast, htruncates, htruncates.warnings⟩
  · obtain ⟨cut, hcut, htake, htruncates⟩ := Run.truncates_of_cancelled hfresh.sound
      hfresh.warnings_eq hrun hrecord hcancels hgoesOn
    exact ⟨cut, _, hcut, rfl, htake, htruncates, htruncates.warnings⟩

/-- A run in which somebody is live, and has time for a step, processes one. -/
theorem exists_first_record {bus : Bus} {full : Run α} {report : Report}
    (hlive : first.liveCount ≠ 0) (hinTime : first.fastForward.now ≤ first.config.maxSecs)
    (hrun : first.run bus false (fun _ => false) = (full, .ok report)) :
    ∃ record, full.records.toList[0]? = some record := by
  obtain ⟨stop, reason, hrounds, hstops, -⟩ := Run.run_eq_ok_iff.1 hrun
  rw [hstops.told_eq.1]
  rcases hrounds.cases_head with rfl | ⟨next, hround, hrest⟩
  · cases hstops with
    | cancelled hcancelled => cases hcancelled
    | allFinished _ hnobody => exact absurd hnobody hlive
    | maxTime _ _ hlate => exact absurd hinTime (Nat.not_le.2 hlate)
  · obtain ⟨record, hrecord⟩ := hround.exists_record
    obtain ⟨later, hlater⟩ := Run.records_isPrefix hrest
    rw [← hlater, hrecord]
    exact ⟨record, rfl⟩

/-- In the hamlet a run of ten seconds, and one that is cancelled in its first step, tell parts of
the whole run. -/
theorem stopping_early_truncates_hamlet : ∃ g split short full report last shortReport cut cutReport,
    Network.build Network.standardPeriodSecs Hamlet.places Hamlet.roads = .ok g ∧
      build (α := Rat) Hamlet.config g Hamlet.neighbours.reverse (some Hamlet.halves) =
        .ok split ∧
      build (α := Rat) { Hamlet.config with maxSecs := 10 } g Hamlet.neighbours.reverse
        (some Hamlet.halves) = .ok short ∧
      split.run (Bus.new 1) false (fun _ => false) = (full, .ok report) ∧
      short.run (Bus.new 1) false (fun _ => false) = (last, .ok shortReport) ∧
      last.Truncates full 10 ∧
      split.run (Bus.new 1) false (fun _ => true) = (cut, .ok cutReport) ∧
      cutReport.reason = .cancelled ∧ cut.records.toList = full.records.toList.take 1 := by
  obtain ⟨g, hg, hsplit, hshort⟩ : ∃ g,
      Network.build Network.standardPeriodSecs Hamlet.places Hamlet.roads = .ok g ∧
        ((build (α := Rat) Hamlet.config g Hamlet.neighbours.reverse
          (some Hamlet.halves)).toOption.any fun s =>
            s.liveCount ≠ 0 ∧ s.fastForward.now ≤ s.config.maxSecs) = true ∧
        (build (α := Rat) { Hamlet.config with maxSecs := 10 } g Hamlet.neighbours.reverse
          (some Hamlet.halves)).isOk = true :=
    ⟨_, rfl, by decide +kernel, by decide +kernel⟩
  obtain ⟨short, hshort⟩ := Hamlet.exists_ok hshort
  cases hbuild : build (α := Rat) Hamlet.config g Hamlet.neighbours.reverse
      (some Hamlet.halves) with
  | error e =>
      rw [hbuild] at hsplit
      cases hsplit
  | ok split =>
      rw [hbuild] at hsplit
      obtain ⟨hlive, hinTime⟩ := of_decide_eq_true hsplit
      have hbus : (Bus.new 1).UpTo split.now := fun last hlast => by cases hlast
      obtain ⟨full, report, hrun, hless, hcancel⟩ := stopping_early_truncates hg hbuild hbus
      obtain ⟨last, shortReport, hlast, htruncates, -⟩ := hless 10 (by decide) short hshort
      obtain ⟨record, hrecord⟩ := exists_first_record hlive hinTime hrun
      obtain ⟨cut, cutReport, hcut, hreason, htake, -⟩ :=
        hcancel (fun _ => true) 0 record hrecord rfl nofun
      exact ⟨g, split, short, full, report, last, shortReport, cut, cutReport, hg, hbuild, hshort,
        hrun, hlast, htruncates, hcut, hreason, htake⟩

end Simulation
end Thoroughfare

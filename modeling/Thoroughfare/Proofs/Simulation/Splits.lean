import Thoroughfare.Proofs.Simulation.Histories

/-!
# The split cannot be seen

Two simulations that differ only in the split of the network, and in the order in which their agents
were given, have the same world at the start.  They make the same decisions in every step, publish
the same events in the same order, and have the same world again.  Only the number of agents that
were handed from one district to another tells them apart.
-/

namespace Thoroughfare

/-- The counters of a step that do not depend on the split. -/
def StepStats.unsplit (stats : StepStats) : StepStats :=
  { stats with boundaryTransfers := 0 }

/-- What a step did that does not depend on the split. -/
def StepRecord.unsplit (record : StepRecord) : StepRecord :=
  { record with stats := record.stats.unsplit }

namespace Simulation

variable {α : Type} {s s' : Simulation α}

/-- Two sound simulations that differ only in the split. -/
structure Alike (s s' : Simulation α) : Prop where
  sound : s.Sound
  sound' : s'.Sound
  config_eq : s'.config =
    { s.config with partitionCount := s'.config.partitionCount, workers := s'.config.workers }
  network_eq : s'.network = s.network
  world_eq : s'.world = s.world
  tick_eq : s'.tick = s.tick
  steps_eq : s'.steps = s.steps
  lastStepTime?_eq : s'.lastStepTime? = s.lastStepTime?
  eventsEmitted_eq : s'.eventsEmitted = s.eventsEmitted
  warnings_eq : s'.warnings = s.warnings

namespace Alike

variable (h : s.Alike s')

include h

theorem maxSecs_eq : s'.config.maxSecs = s.config.maxSecs := by
  rw [h.config_eq]

theorem startSecs_eq : s'.config.startSecs = s.config.startSecs := by
  rw [h.config_eq]

theorem clock_eq : s'.clock = s.clock := by
  have hstep : s'.config.stepSecs = s.config.stepSecs := by rw [h.config_eq]
  rw [clock, clock, h.startSecs_eq, hstep, h.tick_eq]

theorem now_eq : s'.now = s.now :=
  congrArg Clock.now h.clock_eq

theorem situation_eq : City.situation s.districts = City.situation s'.districts :=
  (congrArg World.situation h.world_eq).symm

theorem sound_right : City.Sound s.network s'.partitioning s.tick s'.districts := by
  have hsound : City.Sound s'.network s'.partitioning s'.tick s'.districts := h.sound'
  rwa [h.network_eq, h.tick_eq] at hsound

/-! ## What is the same -/

theorem agent?_eq (id : AgentId) : s'.agent? id = s.agent? id := by
  rw [h.sound.agent?_eq, h.sound'.agent?_eq, h.world_eq]

theorem queue?_eq (link : LinkId) : s'.queue? link = s.queue? link :=
  congrFun (congrArg World.queue? h.world_eq) link

theorem liveCount_eq : s'.liveCount = s.liveCount :=
  (City.Sound.sum_size_eq h.sound h.sound_right h.situation_eq District.agents
    (fun σ => σ.listing.live?) rfl fun hd id => (District.lists_iff.1 (hd.tidy id)).1).symm

theorem finishedCount_eq : s'.finishedCount = s.finishedCount :=
  (City.Sound.sum_size_eq h.sound h.sound_right h.situation_eq District.finished
    (fun σ => σ.listing.finished?) rfl
      fun hd id => (District.lists_iff.1 (hd.tidy id)).2.2.2.2).symm

theorem isQuiescent_eq : s'.isQuiescent = s.isQuiescent := by
  rw [Bool.eq_iff_iff, isQuiescent, isQuiescent, City.Sound.all_isQuiescent_iff h.sound,
    City.Sound.all_isQuiescent_iff h.sound_right, h.situation_eq]

theorem nextWakeUp?_eq : s'.nextWakeUp? = s.nextWakeUp? := by
  apply Option.ext
  intro next
  rw [nextWakeUp?, nextWakeUp?, City.Sound.min?_nextTick?_eq_some_iff h.sound,
    City.Sound.min?_nextTick?_eq_some_iff h.sound_right, h.situation_eq]

theorem idleUntil?_eq : s'.idleUntil? = s.idleUntil? := by
  rw [idleUntil?, idleUntil?, h.isQuiescent_eq, h.nextWakeUp?_eq, h.tick_eq]

end Alike

/-! ## Skips and steps -/

variable [Quantity α]

theorem Alike.fastForward (h : s.Alike s') : s.fastForward.Alike s'.fastForward := by
  rcases h.sound.fastForward_cases with ⟨hnone, hsame⟩ | ⟨next, hnext, -, hsame⟩
  · rcases h.sound'.fastForward_cases with ⟨-, hsame'⟩ | ⟨next, hnext, -, -⟩
    · rwa [hsame, hsame']
    · rw [h.idleUntil?_eq, hnone] at hnext
      cases hnext
  · rcases h.sound'.fastForward_cases with ⟨hnone, -⟩ | ⟨next', hnext', -, hsame'⟩
    · rw [h.idleUntil?_eq, hnext] at hnone
      cases hnone
    · rw [h.idleUntil?_eq, hnext] at hnext'
      cases hnext'
      have hsound := h.sound.fastForward
      have hsound' := h.sound'.fastForward
      have hworld : City.world s'.partitioning (s'.districts.map fun d => d.idle (next - s'.tick)) =
          City.world s.partitioning (s.districts.map fun d => d.idle (next - s.tick)) := by
        rw [h.sound.world_idle, h.sound'.world_idle, h.world_eq, h.tick_eq]
      rw [hsame] at hsound ⊢
      rw [hsame'] at hsound' ⊢
      exact { h with
        sound := hsound
        sound' := hsound'
        world_eq := hworld
        tick_eq := rfl }

variable {begun begun' : List (District α)} {t t' : Traffic α}

theorem Alike.resolution_eq (h : s.Alike s') (ht : s.Turn begun t) (ht' : s'.Turn begun' t') :
    t'.resolution = t.resolution := by
  have hbegun' : City.Sound s.network s'.partitioning (s.tick + 1) begun' := by
    have hsound := ht'.begun_sound
    rwa [h.network_eq, h.tick_eq] at hsound
  have hworld : City.world s.partitioning begun = City.world s'.partitioning begun' := by
    have hworlds : City.world s'.partitioning s'.districts =
        City.world s.partitioning s.districts := h.world_eq
    rw [ht.begun_world, ht'.begun_world, hworlds, h.network_eq, h.clock_eq]
  rw [ht.resolution_eq, ht'.resolution_eq, h.now_eq]
  exact (ht.begun_sound.resolution_congr hbegun' hworld).symm

theorem Alike.world_traffic_eq (h : s.Alike s') (ht : s.Turn begun t) (ht' : s'.Turn begun' t') :
    City.world s'.partitioning t'.districts = City.world s.partitioning t.districts := by
  rw [ht.world_moved, ht'.world_moved, h.resolution_eq ht ht', h.world_eq, h.network_eq,
    h.clock_eq]

theorem Alike.merge_eq (h : s.Alike s') (ht : s.Turn begun t) (ht' : s'.Turn begun' t') :
    Event.merge t'.batches = Event.merge t.batches := by
  refine ((ht.distinct h.sound).merge_congr fun id => ?_).symm
  rw [ht.filter_flatten, ht'.filter_flatten, h.resolution_eq ht ht', h.world_eq, h.network_eq,
    h.clock_eq]

theorem Alike.statsOf_eq (h : s.Alike s') (ht : s.Turn begun t) (ht' : s'.Turn begun' t')
    (events : Nat) : (s'.statsOf t' events).unsplit = (s.statsOf t events).unsplit := by
  have hsound' : City.Sound s.network s'.partitioning (s.tick + 1) t'.districts := by
    have hsound := ht'.sound
    rwa [h.network_eq, h.tick_eq] at hsound
  have hsituation : City.situation t.districts = City.situation t'.districts :=
    (congrArg World.situation (h.world_traffic_eq ht ht')).symm
  have henRoute := ht.sound.sum_enRouteCount_eq hsound' hsituation
  have hdeparting := ht.sound.sum_size_eq hsound' hsituation District.departing
    (fun σ => σ.listing.departing?) rfl fun hd id => (District.lists_iff.1 (hd.tidy id)).2.2.1
  have hfinished := ht.sound.sum_size_eq hsound' hsituation District.finished
    (fun σ => σ.listing.finished?) rfl fun hd id => (District.lists_iff.1 (hd.tidy id)).2.2.2.2
  simp only [statsOf, StepStats.unsplit, h.resolution_eq ht ht', h.tick_eq, h.now_eq,
    ← List.sum_eq_foldr, henRoute, hdeparting, hfinished]

/-- After a step two simulations still differ only in the split. -/
theorem Alike.afterStep (h : s.Alike s') (ht : s.Turn begun t) (ht' : s'.Turn begun' t')
    (events : Nat) : (s.afterStep t events).Alike (s'.afterStep t' events) where
  sound := ht.sound
  sound' := ht'.sound
  config_eq := h.config_eq
  network_eq := h.network_eq
  world_eq := h.world_traffic_eq ht ht'
  tick_eq := congrArg (· + 1) h.tick_eq
  steps_eq := congrArg (· + 1) h.steps_eq
  lastStepTime?_eq := congrArg some h.now_eq
  eventsEmitted_eq := congrArg (· + events) h.eventsEmitted_eq
  warnings_eq := by
    simp only [Simulation.afterStep, h.warnings_eq, h.resolution_eq ht ht', h.now_eq]

theorem Alike.step_cases (h : s.Alike s') (bus : Bus) :
    (∃ next next' e, s.step bus = (next, .error e) ∧ s'.step bus = (next', .error e) ∧
        next.Alike next') ∨
      ∃ next next' record record' bus', s.step bus = (next, .ok (record, bus')) ∧
        s'.step bus = (next', .ok (record', bus')) ∧ next.Alike next' ∧
        record'.unsplit = record.unsplit := by
  obtain ⟨t, begun, ht, hcases⟩ := h.sound.step_cases bus
  obtain ⟨t', begun', ht', hcases'⟩ := h.sound'.step_cases bus
  have hmerge := h.merge_eq ht ht'
  rw [hmerge] at hcases'
  rcases hcases with ⟨e, hold, hstep⟩ | ⟨hnone, hstep⟩
  · rcases hcases' with ⟨e', hold', hstep'⟩ | ⟨hnone', -⟩
    · rw [hold] at hold'
      cases hold'
      refine Or.inl ⟨_, _, _, hstep, hstep', ?_⟩
      exact { h with
        sound := ht.sound.mono (Nat.le_succ _)
        sound' := ht'.sound.mono (Nat.le_succ _)
        world_eq := h.world_traffic_eq ht ht' }
    · rw [hold] at hnone'
      cases hnone'
  · rcases hcases' with ⟨e', hold', -⟩ | ⟨-, hstep'⟩
    · rw [hnone] at hold'
      cases hold'
    · refine Or.inr ⟨_, _, _, _, _, hstep, hstep', h.afterStep ht ht' _, ?_⟩
      rw [StepRecord.unsplit, StepRecord.unsplit, h.statsOf_eq ht ht']

end Simulation

/-! ## Runs -/

namespace Run

variable {α : Type} {r r' : Run α}

/-- Two runs that differ only in the split. -/
structure Alike (r r' : Run α) : Prop where
  simulation : r.simulation.Alike r'.simulation
  bus_eq : r'.bus = r.bus
  cancelled_eq : r'.cancelled = r.cancelled
  records_eq : r'.records.map StepRecord.unsplit = r.records.map StepRecord.unsplit

variable [Quantity α]

theorem Alike.fastForward (h : r.Alike r') : r.fastForward.Alike r'.fastForward :=
  { h with simulation := h.simulation.fastForward }

/-- Runs that differ only in the split advance alike, when whoever may cancel them does not look at
what depends on the split. -/
theorem Alike.advance (h : r.Alike r') {cancelAfter : StepStats → Bool}
    (hblind : ∀ stats, cancelAfter stats = cancelAfter stats.unsplit) :
    ∃ next next' e?, r.advance cancelAfter = (next, e?) ∧ r'.advance cancelAfter = (next', e?) ∧
      next.Alike next' := by
  rcases h.simulation.step_cases r.bus with
    ⟨next, next', e, hstep, hstep', hnext⟩ |
    ⟨next, next', record, record', bus, hstep, hstep', hnext, hrecord⟩
  · refine ⟨{ r with simulation := next }, { r' with simulation := next' }, some e, ?_, ?_, ?_⟩
    · rw [Run.advance, hstep]
    · rw [Run.advance, h.bus_eq, hstep']
    · exact { h with simulation := hnext }
  · refine ⟨r.recorded next bus cancelAfter record, r'.recorded next' bus cancelAfter record', none,
      ?_, ?_, ?_⟩
    · rw [Run.advance, hstep]
    · rw [Run.advance, h.bus_eq, hstep']
    · have hstats : record'.stats.unsplit = record.stats.unsplit :=
        congrArg StepRecord.stats hrecord
      exact
        { simulation := hnext
          bus_eq := rfl
          cancelled_eq := by
            simp only [recorded]
            rw [h.cancelled_eq, hblind record.stats, hblind record'.stats, hstats]
          records_eq := by
            simp only [recorded, Array.map_push]
            rw [h.records_eq, hrecord] }

theorem Alike.advanceBy (h : r.Alike r') (cancelAfter : StepStats → Bool)
    (hblind : ∀ stats, cancelAfter stats = cancelAfter stats.unsplit) (steps : Nat) :
    ∃ last last' e?, r.advanceBy cancelAfter steps = (last, e?) ∧
      r'.advanceBy cancelAfter steps = (last', e?) ∧ last.Alike last' := by
  induction steps generalizing r r' with
  | zero => exact ⟨r, r', none, rfl, rfl, h⟩
  | succ steps ih =>
      obtain ⟨next, next', e?, hadvance, hadvance', hnext⟩ := h.advance hblind
      rw [Run.advanceBy, Run.advanceBy, hadvance, hadvance']
      cases e? with
      | some e => exact ⟨next, next', some e, rfl, rfl, hnext⟩
      | none => exact ih hnext

theorem toEnd_eq_of_goesOn (cancelAfter : StepStats → Bool) (hcancelled : ¬r.cancelled = true)
    (hsomebody : ¬r.simulation.liveCount = 0)
    (hintime : ¬r.simulation.config.maxSecs < r.fastForward.simulation.now) :
    r.toEnd cancelAfter =
      match r.fastForward.advance cancelAfter with
      | (next, some e) => (next, .error e)
      | (next, none) => next.toEnd cancelAfter := by
  rw [Run.toEnd, if_neg hcancelled, if_neg hsomebody]
  split
  · contradiction
  · split <;> rename_i hadvance <;> rw [hadvance]

/-- Runs that differ only in the split end alike. -/
theorem Alike.toEnd (h : r.Alike r') (cancelAfter : StepStats → Bool)
    (hblind : ∀ stats, cancelAfter stats = cancelAfter stats.unsplit) :
    ∃ last last' result, r.toEnd cancelAfter = (last, result) ∧
      r'.toEnd cancelAfter = (last', result) ∧ last.Alike last' := by
  have hcancelled_iff : ∀ {r r' : Run α}, r.Alike r' → (r'.cancelled = true ↔ r.cancelled = true) :=
    fun h => by rw [h.cancelled_eq]
  have hnobody_iff : ∀ {r r' : Run α}, r.Alike r' →
      (r'.simulation.liveCount = 0 ↔ r.simulation.liveCount = 0) :=
    fun h => by rw [h.simulation.liveCount_eq]
  have hlate_iff : ∀ {r r' : Run α}, r.Alike r' →
      (r'.simulation.config.maxSecs < r'.fastForward.simulation.now ↔
        r.simulation.config.maxSecs < r.fastForward.simulation.now) :=
    fun h => by rw [h.simulation.maxSecs_eq, h.fastForward.simulation.now_eq]
  fun_induction Run.toEnd cancelAfter r generalizing r' with
  | case1 r hcancelled =>
      refine ⟨r, r', _, rfl, ?_, h⟩
      rw [Run.toEnd, if_pos ((hcancelled_iff h).2 hcancelled)]
  | case2 r hcancelled hnobody =>
      refine ⟨r, r', _, rfl, ?_, h⟩
      rw [Run.toEnd, if_neg (mt (hcancelled_iff h).1 hcancelled),
        if_pos ((hnobody_iff h).2 hnobody)]
  | case3 r hcancelled hnobody hlate =>
      refine ⟨r.fastForward, r'.fastForward, _, rfl, ?_, h.fastForward⟩
      rw [Run.toEnd, if_neg (mt (hcancelled_iff h).1 hcancelled),
        if_neg (mt (hnobody_iff h).1 hnobody), h.simulation.liveCount_eq]
      exact dif_pos ((hlate_iff h).2 hlate)
  | case4 r hcancelled hnobody hlate next e hadvance =>
      obtain ⟨other, next', e?, hother, hadvance', hnext⟩ := h.fastForward.advance hblind
      rw [hadvance] at hother
      cases hother
      have hgoesOn := toEnd_eq_of_goesOn cancelAfter (mt (hcancelled_iff h).1 hcancelled)
        (mt (hnobody_iff h).1 hnobody) (mt (hlate_iff h).1 hlate)
      rw [hadvance'] at hgoesOn
      exact ⟨next, next', _, rfl, hgoesOn, hnext⟩
  | case5 r hcancelled hnobody hlate next hadvance ih =>
      obtain ⟨other, next', e?, hother, hadvance', hnext⟩ := h.fastForward.advance hblind
      rw [hadvance] at hother
      cases hother
      have hgoesOn := toEnd_eq_of_goesOn cancelAfter (mt (hcancelled_iff h).1 hcancelled)
        (mt (hnobody_iff h).1 hnobody) (mt (hlate_iff h).1 hlate)
      rw [hadvance'] at hgoesOn
      rw [hgoesOn]
      exact ih hnext

/-- What two runs have in common that differ only in the split. -/
structure Agrees (r r' : Run α) : Prop where
  records_eq : r'.records.map StepRecord.unsplit = r.records.map StepRecord.unsplit
  bus_eq : r'.bus = r.bus
  steps_eq : r'.simulation.steps = r.simulation.steps
  lastStepTime?_eq : r'.simulation.lastStepTime? = r.simulation.lastStepTime?
  warnings_eq : r'.simulation.warnings = r.simulation.warnings
  agent?_eq : ∀ id, r'.simulation.agent? id = r.simulation.agent? id
  queue?_eq : ∀ link, r'.simulation.queue? link = r.simulation.queue? link

omit [Quantity α] in
theorem Alike.agrees (h : r.Alike r') : r.Agrees r' :=
  ⟨h.records_eq, h.bus_eq, h.simulation.steps_eq, h.simulation.lastStepTime?_eq,
    h.simulation.warnings_eq, h.simulation.agent?_eq, h.simulation.queue?_eq⟩

end Run

/-- What a report says that does not depend on the split. -/
def Report.unsplit (report : Report) :
    EndReason × Nat × Nat × Nat × List CapacityWarning × Nat :=
  (report.reason, report.finalTime, report.steps, report.events, report.warnings, report.finished)

namespace Simulation

variable {α : Type} {s s' : Simulation α}

theorem Alike.report_eq (h : s.Alike s') (reason : EndReason) :
    (s'.report reason).unsplit = (s.report reason).unsplit := by
  simp only [report, Report.unsplit, h.lastStepTime?_eq, h.startSecs_eq, h.steps_eq,
    h.eventsEmitted_eq, h.warnings_eq, h.finishedCount_eq]

variable [Quantity α] {config config' : Config} {g : Network} {agents agents' : List Agent}

theorem Fresh.alike (h : s.Fresh config g agents) (h' : s'.Fresh config' g agents')
    (hconfig : config' =
      { config with partitionCount := config'.partitionCount, workers := config'.workers })
    (hagents : agents.Perm agents') : s.Alike s' where
  sound := h.sound
  sound' := h'.sound
  config_eq := by rw [h.config_eq, h'.config_eq]; exact hconfig
  network_eq := h'.network_eq.trans h.network_eq.symm
  world_eq := by
    have hpace : World.atStart α config' g agents' = World.atStart α config g agents' := by
      rw [hconfig]
      rfl
    have horder : World.atStart α config g agents' = World.atStart α config g agents := by
      simp only [World.atStart, h.newcomers.withId_congr h'.newcomers hagents]
    rw [h.world_eq, h'.world_eq, hpace, horder]
  tick_eq := h'.tick_eq.trans h.tick_eq.symm
  steps_eq := h'.steps_eq.trans h.steps_eq.symm
  lastStepTime?_eq := h'.lastStepTime?_eq.trans h.lastStepTime?_eq.symm
  eventsEmitted_eq := h'.eventsEmitted_eq.trans h.eventsEmitted_eq.symm
  warnings_eq := h'.warnings_eq.trans h.warnings_eq.symm

/-- Two simulations that were built from the same network, with different splits and with the same
agents in any order, do the same in any number of steps and in a whole run. -/
theorem agrees_of_split {periodSecs : Float} {positions : List Point} {drafts : List LinkDraft}
    {partitioning? partitioning'? : Option Partitioning}
    (hg : Network.build periodSecs positions drafts = .ok g)
    (hconfig : config' =
      { config with partitionCount := config'.partitionCount, workers := config'.workers })
    (hagents : agents.Perm agents')
    (hbuild : build config g agents partitioning? = .ok s)
    (hbuild' : build config' g agents' partitioning'? = .ok s') (bus : Bus) :
    (∀ steps,
        (s.runSteps steps bus false fun _ => false).1.Agrees
          (s'.runSteps steps bus false fun _ => false).1 ∧
        (s'.runSteps steps bus false fun _ => false).2 =
          (s.runSteps steps bus false fun _ => false).2) ∧
      (s.run bus false fun _ => false).1.Agrees (s'.run bus false fun _ => false).1 ∧
      (s'.run bus false fun _ => false).2.map Report.unsplit =
        (s.run bus false fun _ => false).2.map Report.unsplit := by
  have hnumbered := Network.numbered_of_build hg
  have halike : (s.begin bus false).Alike (s'.begin bus false) :=
    { simulation := (fresh_of_build hnumbered hbuild).alike (fresh_of_build hnumbered hbuild')
        hconfig hagents
      bus_eq := rfl
      cancelled_eq := rfl
      records_eq := rfl }
  constructor
  · intro steps
    obtain ⟨last, last', e?, hlast, hlast', hagrees⟩ :=
      halike.advanceBy (fun _ => false) (fun _ => rfl) steps
    rw [runSteps, runSteps, hlast, hlast']
    exact ⟨hagrees.agrees, rfl⟩
  · obtain ⟨last, last', result, hlast, hlast', hagrees⟩ :=
      halike.toEnd (fun _ => false) fun _ => rfl
    rw [run, run, hlast, hlast']
    cases result with
    | error e => exact ⟨hagrees.agrees, rfl⟩
    | ok reason =>
        exact ⟨hagrees.agrees, congrArg Except.ok (hagrees.simulation.report_eq reason)⟩

/-- The neighbours of the hamlet do the same in one district and in two. -/
theorem agrees_of_split_hamlet : ∃ g first split,
    Network.build Network.standardPeriodSecs Hamlet.places Hamlet.roads = .ok g ∧
      build (α := Rat) .standard g Hamlet.neighbours (some Hamlet.whole) = .ok first ∧
      build (α := Rat) Hamlet.config g Hamlet.neighbours.reverse (some Hamlet.halves) =
        .ok split ∧
      (first.run (Bus.new 1) false fun _ => false).1.Agrees
        (split.run (Bus.new 1) false fun _ => false).1 := by
  obtain ⟨g, first, split, hg, hfirst, hsplit⟩ := Hamlet.exists_build
  have hagents : Hamlet.neighbours.Perm Hamlet.neighbours.reverse :=
    (List.reverse_perm Hamlet.neighbours).symm
  exact ⟨g, first, split, hg, hfirst, hsplit,
    (agrees_of_split hg rfl hagents hfirst hsplit (Bus.new 1)).2.1⟩

end Simulation

end Thoroughfare

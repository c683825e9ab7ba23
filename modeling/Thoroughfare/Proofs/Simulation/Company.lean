import Thoroughfare.Proofs.Event.Keys
import Thoroughfare.Proofs.Simulation.Stepwise
import Thoroughfare.Proofs.Simulation.Strangers

/-!
# In company and alone

A simulation with strangers and one in which we are alone take the same steps as far as we are
concerned: what is told of us and warned of is the same, in the same order.  The strangers may keep
the first one from skipping steps and from coming to its end, but nobody can see that in what is
told.  So agents that share no road with others cannot tell whether the others are there.
-/

namespace Thoroughfare

namespace Simulation

variable {α : Type} [Quantity α] {roads : LinkId → Bool} {ours : AgentId → Bool}
  {s alone next next' : Simulation α} {begun begun' : List (District α)} {t t' : Traffic α}

omit [Quantity α] in
/-- Two simulations.  In the first one there are strangers, and in the second one we are alone. -/
structure Alone (roads : LinkId → Bool) (ours : AgentId → Bool) (s alone : Simulation α) :
    Prop where
  sound : s.Sound
  sound_alone : alone.Sound
  clock_eq : alone.clock = s.clock
  network_eq : alone.network = s.network
  world : s.world.Alone s.network roads ours alone.world
  warnings_eq : alone.warnings.toList =
    s.warnings.toList.filter fun warning => ours warning.agent

namespace Alone

variable (h : s.Alone roads ours alone) (ht : s.Turn begun t) (ht' : alone.Turn begun' t')

include h ht ht'

theorem begun_sound : City.Sound s.network s.partitioning (s.clock.tick + 1) begun ∧
    City.Sound s.network alone.partitioning (s.clock.tick + 1) begun' := by
  have hsound := ht'.begun_sound
  have htick : alone.tick = s.clock.tick := congrArg Clock.tick h.clock_eq
  rw [h.network_eq, htick] at hsound
  exact ⟨ht.begun_sound, hsound⟩

theorem begun_world : (City.world s.partitioning begun).Alone s.network roads ours
    (City.world alone.partitioning begun') := by
  rw [ht.begun_world, ht'.begun_world, h.network_eq, h.clock_eq]
  exact h.world.begun (City.Sound.valid h.sound) s.clock

theorem resolution_eq : t.resolution = City.resolution s.partitioning begun s.clock.now ∧
    t'.resolution = City.resolution alone.partitioning begun' s.clock.now := by
  rw [← h.clock_eq]
  exact ⟨h.clock_eq ▸ ht.resolution_eq, ht'.resolution_eq⟩

theorem world_traffic : (City.world s.partitioning t.districts).Alone s.network roads ours
    (City.world alone.partitioning t'.districts) := by
  obtain ⟨hsound, hsound'⟩ := h.begun_sound ht ht'
  obtain ⟨hresolution, hresolution'⟩ := h.resolution_eq ht ht'
  rw [ht.world_eq, ht'.world_eq, h.clock_eq, hresolution, hresolution']
  exact hsound.moved_alone hsound' (h.begun_world ht ht')

/-- What is told of one of us does not depend on the strangers. -/
theorem stepKinds_eq {id : AgentId} (hid : ours id = true) :
    alone.world.stepKinds alone.network alone.clock t'.resolution id =
      s.world.stepKinds s.network s.clock t.resolution id := by
  obtain ⟨hsound, hsound'⟩ := h.begun_sound ht ht'
  obtain ⟨hresolution, hresolution'⟩ := h.resolution_eq ht ht'
  have houtcome := congrArg Outcome.kinds
    (hsound.outcome_alone_eq hsound' (h.begun_world ht ht') hid)
  have hwaking := h.world.same id hid
  have hbegun : (s.world.begun s.network s.clock) = City.world s.partitioning begun :=
    ht.begun_world.symm
  have hbegun' : (alone.world.begun s.network s.clock) =
      City.world alone.partitioning begun' := by
    rw [ht'.begun_world, h.network_eq, h.clock_eq]
    rfl
  rw [World.stepKinds, World.stepKinds, h.network_eq, h.clock_eq, hwaking, hbegun, hbegun',
    hresolution, hresolution']
  exact congrArg _ houtcome

/-- The events of a step that are about us are those of the step that we take alone. -/
theorem merge_eq : Event.merge t'.batches =
    (Event.merge t.batches).filter fun e => ours e.agent := by
  -- Both lists ascend by the key of an event, so it is enough that they have the same members, and
  -- those are compared for one agent at a time.
  have hkeys := (ht.distinct h.sound).pairwise_key_merge
  have hkeys' := (ht'.distinct h.sound_alone).pairwise_key_merge
  refine eq_of_pairwise_lt hkeys' (hkeys.sublist List.filter_sublist) fun e => ?_
  have hown : ∀ events : List Event,
      e ∈ events ↔ e ∈ events.filter fun other => other.agent = e.agent := by
    intro events
    rw [List.mem_filter]
    exact (and_iff_left (decide_eq_true rfl)).symm
  rw [List.mem_filter, hown (Event.merge t'.batches), hown (Event.merge t.batches),
    ht'.filter_merge h.sound_alone, ht.filter_merge h.sound, h.clock_eq]
  cases hid : ours e.agent with
  | true => rw [← h.stepKinds_eq ht ht' hid, h.clock_eq, and_iff_left rfl]
  | false =>
      have hnone : alone.world.stepKinds alone.network s.clock t'.resolution e.agent = [] :=
        World.stepKinds_of_absent (h.world.absent e.agent hid)
      rw [hnone]
      simp [Clock.tell]

theorem warnings_traffic : t'.resolution.warnings alone.now =
    (t.resolution.warnings s.now).filter fun warning => ours warning.agent := by
  obtain ⟨hsound, hsound'⟩ := h.begun_sound ht ht'
  obtain ⟨hresolution, hresolution'⟩ := h.resolution_eq ht ht'
  have hnow : alone.now = s.now := congrArg Clock.now h.clock_eq
  rw [hresolution, hresolution', hnow]
  exact (hsound.resolution_alone hsound' (h.begun_world ht ht')).warnings_eq s.now

theorem afterStep (events events' : Nat) :
    (s.afterStep t events).Alone roads ours (alone.afterStep t' events') where
  sound := ht.sound
  sound_alone := ht'.sound
  clock_eq := congrArg Clock.advance h.clock_eq
  network_eq := h.network_eq
  world := h.world_traffic ht ht'
  warnings_eq := by
    simp only [Simulation.afterStep, Array.toList_appendList, List.filter_append, h.warnings_eq,
      h.warnings_traffic ht ht']

end Alone

/-- Two simulations, one with strangers, stay so in a step, and what is told of us is the same. -/
theorem Alone.step (h : s.Alone roads ours alone) {bus bus' after after' : Bus}
    {record record' : StepRecord} (hstep : s.step bus = (next, .ok (record, after)))
    (hstep' : alone.step bus' = (next', .ok (record', after'))) :
    next.Alone roads ours next' ∧
      record'.events = record.events.filter fun e => ours e.agent := by
  obtain ⟨t, begun, -, ht, rfl, rfl⟩ := h.sound.turn_of_step hstep
  obtain ⟨t', begun', -, ht', rfl, rfl⟩ := h.sound_alone.turn_of_step hstep'
  exact ⟨h.afterStep ht ht' _ _, h.merge_eq ht ht'⟩

end Simulation

/-! ## Runs -/

namespace Run

variable {α : Type} [Quantity α] {roads : LinkId → Bool} {ours : AgentId → Bool}
  {cancelAfter : StepStats → Bool} {r alone next next' last last' : Run α}

omit [Quantity α] in
/-- Two runs that have told the same of us, one of them with strangers. -/
structure Alone (roads : LinkId → Bool) (ours : AgentId → Bool) (r alone : Run α) : Prop where
  simulation : r.simulation.Alone roads ours alone.simulation
  events_eq : alone.events = r.events.filter fun e => ours e.agent

theorem Alone.advance (h : r.Alone roads ours alone)
    (hadvance : r.advance cancelAfter = (next, none))
    (hadvance' : alone.advance cancelAfter = (next', none)) : next.Alone roads ours next' := by
  obtain ⟨s, record, bus, hstep, rfl⟩ := advance_eq_ok_iff.1 hadvance
  obtain ⟨s', record', bus', hstep', rfl⟩ := advance_eq_ok_iff.1 hadvance'
  obtain ⟨hnext, hevents⟩ := h.simulation.step hstep hstep'
  refine ⟨hnext, ?_⟩
  rw [events_recorded, events_recorded, List.filter_append, h.events_eq, hevents]

theorem Alone.advanceBy {steps : Nat} (h : r.Alone roads ours alone)
    (hlast : r.advanceBy cancelAfter steps = (last, none))
    (hlast' : alone.advanceBy cancelAfter steps = (last', none)) : last.Alone roads ours last' := by
  induction steps generalizing r alone with
  | zero =>
      cases hlast
      cases hlast'
      exact h
  | succ steps ih =>
      obtain ⟨next, hadvance, hlast⟩ := advanceBy_succ_eq_ok_iff.1 hlast
      obtain ⟨next', hadvance', hlast'⟩ := advanceBy_succ_eq_ok_iff.1 hlast'
      exact ih (h.advance hadvance hadvance') hlast hlast'

end Run

/-! ## Agents that share no road -/

section Start

variable {α : Type} [Quantity α] {config : Config} {g : Network}
  {agents everybody mine strangers : List Agent} {a : Agent}

/-- Before the first step the footprint of its whole day is ahead of an agent. -/
theorem Newcomers.footprint_atStart (h : Newcomers agents) (ha : a ∈ agents) :
    ((World.atStart α config g agents).situation a.id).footprint g = a.itinerary.footprint g := by
  obtain ⟨activity, hactivity, hcurrent⟩ := h.exists_activity ha
  rw [h.situation_atStart ha, Situation.footprint, Agent.dayFootprint_eq hcurrent,
    (h.atFirst a ha).2, Itinerary.footprint_eq_footprintFrom hactivity]

/-- A world at the start in which agents share no road with strangers, and the same world without
the strangers. -/
theorem Newcomers.alone_atStart (h : Newcomers everybody) (h' : Newcomers mine)
    (htogether : everybody.Perm (mine ++ strangers))
    (hapart : ∀ a ∈ mine, ∀ b ∈ strangers,
      List.Disjoint (a.itinerary.footprint g) (b.itinerary.footprint g)) :
    (World.atStart α config g everybody).Alone g
      (fun link => decide (link ∈ mine.flatMap fun a => a.itinerary.footprint g))
      (fun id => decide (id ∈ mine.map (·.id))) (World.atStart α config g mine) := by
  have hids : ((mine ++ strangers).map (·.id)).Nodup := (htogether.map _).nodup_iff.1 h.single
  rw [List.map_append, List.nodup_append'] at hids
  constructor
  · intro id hid
    obtain ⟨a, ha, rfl⟩ := List.mem_map.1 (of_decide_eq_true hid)
    rw [h'.situation_atStart ha,
      h.situation_atStart (htogether.mem_iff.2 (List.mem_append_left _ ha))]
  · intro id hid
    simp only [World.atStart, Newcomers.withId_eq_none_iff.2 (of_decide_eq_false hid)]
    rfl
  · intro id link hlink
    cases hfind : withId everybody id with
    | none =>
        simp only [World.atStart, hfind] at hlink
        cases hlink
    | some a =>
        obtain ⟨ha, rfl⟩ := h.withId_eq_some_iff.1 hfind
        rw [h.footprint_atStart ha] at hlink
        rw [decide_eq_decide, List.mem_flatMap]
        rcases List.mem_append.1 (htogether.mem_iff.1 ha) with hmine | hstranger
        · exact iff_of_true ⟨a, hmine, hlink⟩ (List.mem_map_of_mem hmine)
        · refine iff_of_false ?_ fun hmine => ?_
          · rintro ⟨b, hb, hshared⟩
            exact hapart b hb a hstranger hshared hlink
          · exact hids.2.2 hmine (List.mem_map_of_mem hstranger)
  · intro link _
    rfl

end Start

namespace Simulation

variable {α : Type} [Quantity α] {all alone : Simulation α} {config : Config} {g : Network}
  {everybody mine strangers : List Agent}

theorem Fresh.alone_of_apart (h : all.Fresh config g everybody) (h' : alone.Fresh config g mine)
    (htogether : everybody.Perm (mine ++ strangers))
    (hapart : ∀ a ∈ mine, ∀ b ∈ strangers,
      List.Disjoint (a.itinerary.footprint g) (b.itinerary.footprint g)) :
    all.Alone (fun link => decide (link ∈ mine.flatMap fun a => a.itinerary.footprint g))
      (fun id => decide (id ∈ mine.map (·.id))) alone where
  sound := h.sound
  sound_alone := h'.sound
  clock_eq := by
    rw [clock, clock, h.config_eq, h'.config_eq, h.tick_eq, h'.tick_eq]
  network_eq := h'.network_eq.trans h.network_eq.symm
  world := by
    rw [h.world_eq, h'.world_eq, h.network_eq]
    exact h.newcomers.alone_atStart h'.newcomers htogether hapart
  warnings_eq := by
    rw [h.warnings_eq, h'.warnings_eq]
    rfl

/-- Single steps up to the closing tell what a run of a simulation that was built tells. -/
theorem Fresh.run_stepwise {first : Simulation Rat} (h : first.Fresh config g everybody)
    (hgain : ∀ s : Simulation Rat, first.Reachable s → ∀ d ∈ s.districts, d.Gaining) {bus : Bus}
    (hbus : bus.UpTo first.now) :
    ∃ last report stepped, first.run bus false (fun _ => false) = (last, .ok report) ∧
      (first.begin bus false).advanceBy (fun _ => false) config.closing = (stepped, none) ∧
      stepped.events = last.events ∧ stepped.simulation.warnings.toList = report.warnings := by
  obtain ⟨last, report, hrun, -⟩ := h.sound.run_ok hbus false fun _ => false
  have hrun' := hrun
  rw [run] at hrun'
  rcases hend : (first.begin bus false).toEnd fun _ => false with ⟨final, e | reason⟩
  · rw [hend] at hrun'
    cases hrun'
  rw [hend] at hrun'
  cases hrun'
  have hearly : first.tick ≤ first.config.closing := by
    rw [h.tick_eq]
    exact Nat.zero_le _
  obtain ⟨n, stepped, hn, hstepped, hevents, hwarnings⟩ :=
    (Run.Stepwise.refl (first.begin bus false)).toEnd h.sound hgain .start rfl hearly hend
  have hclosing : n = config.closing := by
    rw [← h.config_eq, ← hn, show (first.begin bus false).simulation.tick = 0 from h.tick_eq,
      Nat.zero_add]
  exact ⟨last, _, stepped, hrun, hclosing ▸ hstepped, hevents, congrArg Array.toList hwarnings⟩

/-- Agents that share no road with others cannot see the others.  In exact arithmetic, what a run
tells of them and warns of is the same, at the same times and in the same order, whether the others
are there or not. -/
theorem strangers_cannot_be_seen {periodSecs : Float} {positions : List Point}
    {drafts : List LinkDraft} {all alone : Simulation Rat}
    {partitioning? partitioning'? : Option Partitioning}
    (hg : Network.build periodSecs positions drafts = .ok g)
    (hall : build config g everybody partitioning? = .ok all)
    (halone : build config g mine partitioning'? = .ok alone)
    (htogether : everybody.Perm (mine ++ strangers))
    (hapart : ∀ a ∈ mine, ∀ b ∈ strangers,
      List.Disjoint (a.itinerary.footprint g) (b.itinerary.footprint g))
    {bus bus' : Bus} (hbus : bus.UpTo all.now) (hbus' : bus'.UpTo alone.now) :
    ∃ last last' report report', all.run bus false (fun _ => false) = (last, .ok report) ∧
      alone.run bus' false (fun _ => false) = (last', .ok report') ∧
      last'.events = last.events.filter (fun e => e.agent ∈ mine.map (·.id)) ∧
      report'.warnings = report.warnings.filter fun w => w.agent ∈ mine.map (·.id) := by
  have hnumbered := Network.numbered_of_build hg
  have hfresh := fresh_of_build hnumbered hall
  have hfresh' := fresh_of_build hnumbered halone
  obtain ⟨hperiod, hflow⟩ := Network.isPositive_of_build hg
  obtain ⟨last, report, stepped, hrun, hstepped, hevents, hwarnings⟩ := hfresh.run_stepwise
    (fun s hs => hfresh.gaining hnumbered hperiod hflow hs) hbus
  obtain ⟨last', report', stepped', hrun', hstepped', hevents', hwarnings'⟩ :=
    hfresh'.run_stepwise (fun s hs => hfresh'.gaining hnumbered hperiod hflow hs) hbus'
  have hstart : (all.begin bus false).Alone
      (fun link => decide (link ∈ mine.flatMap fun a => a.itinerary.footprint g))
      (fun id => decide (id ∈ mine.map (·.id))) (alone.begin bus' false) :=
    ⟨hfresh.alone_of_apart hfresh' htogether hapart, rfl⟩
  -- The two runs need not end at the same tick, but their single steps can be taken as far as the
  -- same closing.
  have hend := hstart.advanceBy hstepped hstepped'
  refine ⟨last, last', report, report', hrun, hrun', ?_, ?_⟩
  · rw [← hevents, ← hevents']
    exact hend.events_eq
  · rw [← hwarnings, ← hwarnings']
    exact hend.simulation.warnings_eq

end Simulation

namespace Hamlet

/-- A drive along one road. -/
def errand (link : LinkId) : Itinerary where
  segments :=
    [.activity ⟨"home", link, some 5, none⟩, .leg (.byCar [link]),
      .activity ⟨"work", link, none, none⟩]
  faultless := rfl

/-- Two who drive along the same road, which has room for one. -/
def family : List Agent :=
  [.new ⟨0⟩ (errand ⟨0⟩) 0, .new ⟨2⟩ (errand ⟨0⟩) 0]

/-- One who drives along the other road. -/
def passersBy : List Agent :=
  [.new ⟨1⟩ (errand ⟨1⟩) 0]

/-- All of them in the order of their numbers. -/
def crowd : List Agent :=
  [.new ⟨0⟩ (errand ⟨0⟩) 0, .new ⟨1⟩ (errand ⟨1⟩) 0, .new ⟨2⟩ (errand ⟨0⟩) 0]

end Hamlet

namespace Simulation

/-- The family cannot see the one who drives along the other road. -/
theorem strangers_cannot_be_seen_hamlet : ∃ g all alone last last' report report',
    Network.build Network.standardPeriodSecs Hamlet.places Hamlet.roads = .ok g ∧
      build (α := Rat) Hamlet.config g Hamlet.crowd (some Hamlet.halves) = .ok all ∧
      build (α := Rat) Hamlet.config g Hamlet.family (some Hamlet.halves) = .ok alone ∧
      Hamlet.crowd.Perm (Hamlet.family ++ Hamlet.passersBy) ∧
      (Hamlet.errand ⟨0⟩).footprint g = [⟨0⟩] ∧ (Hamlet.errand ⟨1⟩).footprint g = [⟨1⟩] ∧
      (∀ a ∈ Hamlet.family, ∀ b ∈ Hamlet.passersBy,
        List.Disjoint (a.itinerary.footprint g) (b.itinerary.footprint g)) ∧
      (Bus.new 1).UpTo all.now ∧ (Bus.new 2).UpTo alone.now ∧
      all.run (Bus.new 1) false (fun _ => false) = (last, .ok report) ∧
      alone.run (Bus.new 2) false (fun _ => false) = (last', .ok report') ∧
      last'.events = last.events.filter (fun e => e.agent ∈ Hamlet.family.map (·.id)) ∧
      report'.warnings = report.warnings.filter
        fun w => w.agent ∈ Hamlet.family.map (·.id) := by
  obtain ⟨g, hg, hall, halone, hours, htheirs⟩ :
      ∃ g, Network.build Network.standardPeriodSecs Hamlet.places Hamlet.roads = .ok g ∧
        (build (α := Rat) Hamlet.config g Hamlet.crowd (some Hamlet.halves)).isOk = true ∧
        (build (α := Rat) Hamlet.config g Hamlet.family (some Hamlet.halves)).isOk = true ∧
        (Hamlet.errand ⟨0⟩).footprint g = [⟨0⟩] ∧ (Hamlet.errand ⟨1⟩).footprint g = [⟨1⟩] :=
    ⟨_, rfl, by decide +kernel, by decide +kernel, by decide +kernel, by decide +kernel⟩
  obtain ⟨all, hall⟩ := Hamlet.exists_ok hall
  obtain ⟨alone, halone⟩ := Hamlet.exists_ok halone
  have htogether : Hamlet.crowd.Perm (Hamlet.family ++ Hamlet.passersBy) := by decide +kernel
  have hapart : ∀ a ∈ Hamlet.family, ∀ b ∈ Hamlet.passersBy,
      List.Disjoint (a.itinerary.footprint g) (b.itinerary.footprint g) := by
    intro a ha b hb
    have hfirst : a.itinerary = Hamlet.errand ⟨0⟩ := by
      revert a ha
      decide
    have hother : b.itinerary = Hamlet.errand ⟨1⟩ := by
      revert b hb
      decide
    rw [hfirst, hother, hours, htheirs, List.singleton_disjoint]
    decide
  have hbus : (Bus.new 1).UpTo all.now := fun last hlast => by cases hlast
  have hbus' : (Bus.new 2).UpTo alone.now := fun last hlast => by cases hlast
  obtain ⟨last, last', report, report', hrun, hrun', hevents, hwarnings⟩ :=
    strangers_cannot_be_seen hg hall halone htogether hapart hbus hbus'
  exact ⟨g, all, alone, last, last', report, report', hg, hall, halone, htogether, hours,
    htheirs, hapart, hbus, hbus', hrun, hrun', hevents, hwarnings⟩

end Simulation

end Thoroughfare

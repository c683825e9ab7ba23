import Thoroughfare.Proofs.Road.Credit
import Thoroughfare.Proofs.Simulation.Roads
import Thoroughfare.Proofs.Simulation.Safety

/-!
# Skips cannot be seen

A run skips the steps in which nothing can happen.  Whoever processes them instead comes to the same
simulation, but for what counts the steps and for what the next step overwrites.  So a run tells
just what it would tell without skipping.
-/

namespace Thoroughfare

/-! ## What a step overwrites -/

namespace LinkQueue

variable {α : Type}

/-- The queue without its note of the occupancy at the beginning of a step. -/
def bare (q : LinkQueue α) : LinkQueue α :=
  { q with startOccupancy := 0 }

end LinkQueue

namespace District

variable {α : Type}

/-- The district without the notes of the occupancy at the beginning of a step. -/
def bare (d : District α) : District α :=
  { d with links := d.links.map fun _ q => q.bare }

variable [Quantity α]

theorem beginStep_bare (d : District α) : d.bare.beginStep = d.beginStep := by
  simp only [beginStep, bare, Std.ExtTreeMap.map_map]
  rfl

theorem prepare_bare (g : Network) (clock : Clock) (d : District α) :
    d.bare.prepare g clock = d.prepare g clock := by
  rw [prepare, prepare, beginStep_bare]

end District

namespace Simulation

variable {α : Type} {s s' : Simulation α}

/-- The simulation without the count of its steps, the time of the last one, and the notes of the
occupancy at its beginning. -/
def bare (s : Simulation α) : Simulation α :=
  { s with
    districts := s.districts.map District.bare
    steps := 0
    lastStepTime? := none }

variable [Quantity α]

theorem traffic_bare (s : Simulation α) : s.bare.traffic = s.traffic := by
  have hprepare : (s.bare.districts.mapM fun d => d.prepare s.bare.network s.bare.clock) =
      s.districts.mapM fun d => d.prepare s.network s.clock := by
    rw [bare, List.mapM_map]
    exact congrArg (fun work => s.districts.mapM work)
      (funext fun d => District.prepare_bare s.network s.clock d)
  have hlength : s.bare.districts.length = s.districts.length := List.length_map _
  unfold traffic
  rw [hprepare, hlength]
  rfl

/-- A step does not see what it overwrites. -/
theorem step_bare (s : Simulation α) (bus : Bus) :
    (s.bare.step bus).2 = (s.step bus).2 ∧ (s.bare.step bus).1.bare = (s.step bus).1.bare := by
  unfold step
  rw [traffic_bare]
  rcases s.traffic with e | t
  · refine ⟨rfl, ?_⟩
    simp [bare, District.bare, Function.comp_def, Std.ExtTreeMap.map_map, LinkQueue.bare]
  · dsimp only
    rcases bus.accept t.batches with e | ⟨events, bus'⟩ <;> exact ⟨rfl, rfl⟩

theorem lastStepTime?_of_step {next : Simulation α} {bus bus' : Bus} {record : StepRecord}
    (hstep : s.step bus = (next, .ok (record, bus'))) : next.lastStepTime? = some s.now := by
  obtain ⟨t, events, rfl⟩ := exists_afterStep hstep
  rfl

/-- Simulations that differ only in what a step overwrites tell the same in the next step, and still
differ only in that. -/
theorem step_congr (h : s'.bare = s.bare) {next : Simulation α} {bus bus' : Bus}
    {record : StepRecord} (hstep : s.step bus = (next, .ok (record, bus'))) :
    ∃ next', s'.step bus = (next', .ok (record, bus')) ∧ next'.bare = next.bare ∧
      next'.lastStepTime? = next.lastStepTime? := by
  obtain ⟨hresult, hnext⟩ := step_bare s bus
  obtain ⟨hresult', hnext'⟩ := step_bare s' bus
  rw [h] at hresult' hnext'
  have hsame : (s'.step bus).2 = .ok (record, bus') := by rw [← hresult', hresult, hstep]
  have hstep' : s'.step bus = ((s'.step bus).1, .ok (record, bus')) := Prod.ext rfl hsame
  have hbare : s'.bare.now = s.bare.now := congrArg now h
  have hnow : s'.now = s.now := hbare
  refine ⟨_, hstep', ?_, ?_⟩
  · rw [← hnext', hnext, hstep]
  · rw [lastStepTime?_of_step hstep', lastStepTime?_of_step hstep, hnow]

end Simulation

/-! ## Steps in which nothing can happen -/

namespace District

variable {α : Type} {next : Tick} {d : District α}

/-- A district in which nobody is on the way or is to be woken before a tick. -/
structure Quiet (next : Tick) (d : District α) : Prop where
  departing : d.departing.toList = []
  empty : ∀ entry ∈ d.links.toList, entry.2.entries = []
  later : ∀ w ∈ d.wakeUps.pending, next ≤ w.tick

theorem Quiet.mapLinks (h : d.Quiet next) {f : LinkQueue α → LinkQueue α}
    (hf : ∀ q, (f q).entries = q.entries) :
    ({ d with links := d.links.map fun _ q => f q } : District α).Quiet next := by
  refine ⟨h.departing, fun entry hentry => ?_, h.later⟩
  rw [Std.ExtTreeMap.toList_map, List.mem_map] at hentry
  obtain ⟨before, hbefore, rfl⟩ := hentry
  exact (hf before.2).trans (h.empty before hbefore)

theorem quiet_of_isQuiescent (h : d.isQuiescent = true)
    (hlater : ∀ first, d.wakeUps.nextTick? = some first → next ≤ first) : d.Quiet next := by
  rw [isQuiescent, Bool.and_eq_true, all_eq_all_toList, List.all_eq_true] at h
  refine ⟨?_, fun entry hentry => List.isEmpty_iff.1 (h.2 entry hentry), fun w hw => ?_⟩
  · rw [← List.isEmpty_iff, Std.ExtTreeMap.isEmpty_toList]
    exact h.1
  · have hascending := d.wakeUps.ascending
    rw [WakeQueue.nextTick?] at hlater
    cases hpending : d.wakeUps.pending with
    | nil =>
        rw [hpending] at hw
        cases hw
    | cons first rest =>
        rw [hpending] at hw hascending hlater
        have hfirst : next ≤ first.tick := hlater first.tick rfl
        rcases List.mem_cons.1 hw with rfl | hrest
        · exact hfirst
        · exact Nat.le_trans hfirst ((List.pairwise_cons.1 hascending).1 w hrest)

variable [Quantity α] {clock : Clock}

theorem Quiet.beginStep (h : d.Quiet next) : d.beginStep.Quiet next :=
  h.mapLinks fun _ => rfl

theorem Quiet.readyLinks_eq (h : d.Quiet next) (now : Nat) : d.readyLinks now = [] := by
  rw [readyLinks, List.filterMap_eq_nil_iff]
  intro entry hentry
  simp [LinkQueue.offer, h.empty entry hentry]

theorem Quiet.wishes_eq (h : d.Quiet next) (now : Nat) : d.wishes now = ⟨[], []⟩ := by
  rw [wishes, h.readyLinks_eq, h.departing]
  rfl

theorem Quiet.prepare_eq (h : d.Quiet next) (g : Network) (hlt : clock.tick < next) :
    d.prepare g clock = .ok (d.beginStep, .none, d.beginStep.wishes clock.now) := by
  have hdrain : d.wakeUps.drainDue clock.tick = ([], d.wakeUps) :=
    WakeQueue.drainDue_of_lt fun w hw => Nat.lt_of_lt_of_le hlt (h.later w hw)
  have hwake : d.beginStep.wakeDue g clock = .ok (d.beginStep, .none) := by
    rw [wakeDue, show d.beginStep.wakeUps = d.wakeUps from rfl, hdrain]
    rfl
  have hoffers : d.beginStep.offers clock.now = .ok ⟨[], []⟩ := by
    rw [offers, h.beginStep.departing, h.beginStep.readyLinks_eq]
    rfl
  rw [prepare, hwake, h.beginStep.wishes_eq]
  simp only [bind, Except.bind, hoffers]
  rfl

end District

namespace Simulation

variable {α : Type} [Quantity α] {s : Simulation α} {next : Tick}

/-- Where nobody wants to move, nothing is decided. -/
theorem resolution_of_quiet {p : Partitioning} {districts : List (District α)}
    (h : ∀ d ∈ districts, d.Quiet next) (now : Nat) :
    City.resolution p districts now = ⟨[], []⟩ := by
  have hlinks : (districts.map fun d => d.wishes now).flatMap Offers.links = [] := by
    rw [List.flatMap_map, List.flatMap_eq_nil_iff]
    exact fun d hd => congrArg Offers.links ((h d hd).wishes_eq now)
  have hdepartures : (districts.map fun d => d.wishes now).flatMap Offers.departures = [] := by
    rw [List.flatMap_map, List.flatMap_eq_nil_iff]
    exact fun d hd => congrArg Offers.departures ((h d hd).wishes_eq now)
  rw [City.resolution, City.offers, Offers.gather, hlinks, hdepartures]
  rfl

/-- A step in which nothing can happen only lets every link gain its credit. -/
theorem traffic_of_quiet (h : ∀ d ∈ s.districts, d.Quiet next) (hlt : s.tick < next) :
    s.traffic = .ok {
      districts := s.districts.map District.beginStep
      resolution := ⟨[], []⟩
      batches := s.districts.map fun _ => []
      boundaryTransfers := 0 } := by
  have hbegun : ∀ d ∈ s.districts.map District.beginStep, d.Quiet next := by
    intro d hd
    obtain ⟨before, hbefore, rfl⟩ := List.mem_map.1 hd
    exact (h before hbefore).beginStep
  have hnobody :
      ((s.districts.map District.beginStep).flatMap fun _ => Effects.none.transfers) = [] :=
    List.flatMap_eq_nil_iff.2 fun _ _ => rfl
  have hphases := @traffic_of_phases α _ s District.beginStep id id (fun _ => .none)
    (fun _ => .none) ⟨[], []⟩ (resolution_of_quiet hbegun s.now)
    (fun d hd => (h d hd).prepare_eq s.network hlt)
    (fun d hd => by
      rw [(hbegun d hd).wishes_eq]
      rfl)
    (by
      rw [hnobody]
      rfl)
    (fun d _ => by
      rw [hnobody, List.mergeSort_nil]
      rfl)
  have hboundary : ((s.districts.map District.beginStep).map fun d =>
      boundaryCount s.partitioning (id d).id Effects.none.transfers).sum = 0 := by
    apply List.sum_eq_zero
    intro count hcount
    obtain ⟨d, -, rfl⟩ := List.mem_map.1 hcount
    rfl
  rw [hphases, hboundary, List.map_id]
  rfl

/-- A step in which nothing can happen tells nothing. -/
theorem step_of_quiet (h : ∀ d ∈ s.districts, d.Quiet next) (hlt : s.tick < next) (bus : Bus) :
    ∃ stats, s.step bus = ({ s with
      tick := s.tick + 1
      districts := s.districts.map District.beginStep
      steps := s.steps + 1
      lastStepTime? := some s.now }, .ok (⟨[], stats⟩, bus)) := by
  have hmerge : Event.merge (s.districts.map fun _ => []) = [] := by
    simp [Event.merge]
  have haccept : bus.accept (s.districts.map fun _ => []) = .ok ([], bus) := by
    have hold : bus.tooOld? [] = none := by
      unfold Bus.tooOld?
      cases bus.lastTime <;> rfl
    rw [Bus.accept, hmerge]
    simp only [hold]
    rfl
  unfold step
  rw [traffic_of_quiet h hlt]
  simp only [haccept]
  exact ⟨_, rfl⟩

end Simulation

/-! ## Skips in exact arithmetic -/

/-- Where nobody is on the way, the credit of some steps at once and then that of one more is the
credit of all of them at once. -/
theorem LinkQueue.bare_beginStep_idle {q : LinkQueue Rat} (h : 0 ≤ q.bucket.perStep)
    (steps : Nat) : (q.idle steps).beginStep.bare = (q.idle (steps + 1)).bare := by
  have haccrue := FlowBucket.accrue_accrueIdle h steps
  simp only [beginStep, idle, bare, haccrue]

theorem LinkQueue.bare_beginStep (q : LinkQueue Rat) : q.beginStep.bare = (q.idle 1).bare := by
  simp only [beginStep, idle, bare, FlowBucket.accrueIdle_one]

namespace District

variable {d : District Rat}

/-- No link of a district gains a negative credit. -/
def Gaining (d : District Rat) : Prop :=
  ∀ (link : LinkId) (q : LinkQueue Rat), d.links[link]? = some q → 0 ≤ q.bucket.perStep

theorem bare_map_congr {f f' : LinkQueue Rat → LinkQueue Rat}
    (h : ∀ (link : LinkId) (q : LinkQueue Rat), d.links[link]? = some q →
      (f q).bare = (f' q).bare) :
    ({ d with links := d.links.map fun _ q => f q } : District Rat).bare =
      ({ d with links := d.links.map fun _ q => f' q } : District Rat).bare := by
  have hlinks : (d.links.map fun _ q => (f q).bare) = d.links.map fun _ q => (f' q).bare := by
    apply Std.ExtTreeMap.ext_getElem?
    intro link
    rw [Std.ExtTreeMap.getElem?_map, Std.ExtTreeMap.getElem?_map]
    cases hq : d.links[link]? with
    | none => rfl
    | some q => exact congrArg some (h link q hq)
  simp only [bare, Std.ExtTreeMap.map_map]
  rw [hlinks]

theorem Gaining.bare_beginStep_idle (h : d.Gaining) (steps : Nat) :
    (d.idle steps).beginStep.bare = (d.idle (steps + 1)).bare := by
  have hmap : (d.idle steps).beginStep =
      { d with links := d.links.map fun _ q => (q.idle steps).beginStep } := by
    simp only [idle, beginStep, Std.ExtTreeMap.map_map]
  rw [hmap]
  exact bare_map_congr fun link q hq => LinkQueue.bare_beginStep_idle (h link q hq) steps

theorem bare_beginStep (d : District Rat) : d.beginStep.bare = (d.idle 1).bare :=
  bare_map_congr fun _ q _ => LinkQueue.bare_beginStep q

end District

namespace Simulation

variable {s : Simulation Rat} {next : Tick}

/-- The simulation after some steps in which nothing can happen, except for what counts the steps
and for what the next step overwrites. -/
def idled (s : Simulation Rat) (steps : Nat) : Simulation Rat :=
  { s with
    tick := s.tick + steps
    districts := s.districts.map fun d => d.idle steps }

theorem fastForward_eq_idled (h : s.idleUntil? = some next) :
    s.tick < next ∧ s.fastForward = s.idled (next - s.tick) := by
  have hlt : s.tick < next := by
    unfold idleUntil? at h
    split at h
    · exact of_decide_eq_true (Option.filter_eq_some_iff.1 h).2
    · cases h
  refine ⟨hlt, ?_⟩
  rw [fastForward, h]
  dsimp only
  rw [idled, Nat.add_sub_cancel' (Nat.le_of_lt hlt)]

theorem quiet_of_idleUntil? (h : s.idleUntil? = some next) : ∀ d ∈ s.districts, d.Quiet next := by
  unfold idleUntil? at h
  split at h
  · rename_i hquiescent
    have hnext := (Option.filter_eq_some_iff.1 h).1
    rw [nextWakeUp?, List.min?_eq_some_iff] at hnext
    intro d hd
    refine District.quiet_of_isQuiescent (List.all_eq_true.1 hquiescent d hd) ?_
    intro first hfirst
    exact hnext.2 first (List.mem_filterMap.2 ⟨d, hd, hfirst⟩)
  · cases h

/-- What one more step makes of a simulation in which nothing can happen. -/
theorem step_idled (hquiet : ∀ d ∈ s.districts, d.Quiet next)
    (hgain : ∀ d ∈ s.districts, d.Gaining) (steps : Nat) (hlt : s.tick + steps < next)
    (bus : Bus) : ∃ after stats, (s.idled steps).step bus = (after, .ok (⟨[], stats⟩, bus)) ∧
      after.bare = (s.idled (steps + 1)).bare := by
  have hidle : ∀ d ∈ (s.idled steps).districts, d.Quiet next := by
    intro d hd
    obtain ⟨before, hbefore, rfl⟩ := List.mem_map.1 hd
    exact (hquiet before hbefore).mapLinks fun _ => rfl
  obtain ⟨stats, hstep⟩ := step_of_quiet hidle hlt bus
  refine ⟨_, stats, hstep, ?_⟩
  have hdistricts : ((s.idled steps).districts.map District.beginStep).map District.bare =
      (s.idled (steps + 1)).districts.map District.bare := by
    simp only [idled, List.map_map]
    exact List.map_congr_left fun d hd => (hgain d hd).bare_beginStep_idle steps
  simp only [bare, hdistricts]
  rfl

theorem step_first (hquiet : ∀ d ∈ s.districts, d.Quiet next) (hlt : s.tick < next) (bus : Bus) :
    ∃ after stats, s.step bus = (after, .ok (⟨[], stats⟩, bus)) ∧
      after.bare = (s.idled 1).bare := by
  obtain ⟨stats, hstep⟩ := step_of_quiet hquiet hlt bus
  refine ⟨_, stats, hstep, ?_⟩
  have hdistricts : (s.districts.map District.beginStep).map District.bare =
      (s.idled 1).districts.map District.bare := by
    simp only [idled, List.map_map]
    exact List.map_congr_left fun d _ => d.bare_beginStep
  simp only [bare, hdistricts]
  rfl

end Simulation

/-! ## Runs that skip and runs that do not -/

namespace Run

variable {α : Type} [Quantity α] {cancelAfter : StepStats → Bool}

theorem advanceBy_one {r next : Run α} (h : r.advance cancelAfter = (next, none)) :
    r.advanceBy cancelAfter 1 = (next, none) := by
  simp [advanceBy, h]

theorem advanceBy_add {m n : Nat} {r middle last : Run α} {e? : Option StepError}
    (hm : r.advanceBy cancelAfter m = (middle, none))
    (hn : middle.advanceBy cancelAfter n = (last, e?)) :
    r.advanceBy cancelAfter (m + n) = (last, e?) := by
  induction m generalizing r with
  | zero =>
      cases hm
      rwa [Nat.zero_add]
  | succ m ih =>
      obtain ⟨next, hadvance, hm⟩ := advanceBy_succ_eq_ok_iff.1 hm
      rw [Nat.succ_add, advanceBy, hadvance]
      exact ih hm

/-- Two runs that have told the same and whose simulations differ only in what a step
overwrites. -/
structure Alongside (a r : Run α) : Prop where
  bare_eq : a.simulation.bare = r.simulation.bare
  bus_eq : a.bus = r.bus
  events_eq : a.events = r.events

omit [Quantity α] in
theorem Alongside.warnings_eq {a r : Run α} (h : a.Alongside r) :
    a.simulation.warnings = r.simulation.warnings := by
  have hbare : a.simulation.bare.warnings = r.simulation.bare.warnings :=
    congrArg Simulation.warnings h.bare_eq
  exact hbare

theorem Alongside.advance {a r next : Run α} (h : a.Alongside r)
    (hadvance : r.advance cancelAfter = (next, none)) :
    ∃ next', a.advance cancelAfter = (next', none) ∧ next'.Alongside next ∧
      next'.simulation.lastStepTime? = next.simulation.lastStepTime? := by
  obtain ⟨s, record, bus, hstep, rfl⟩ := advance_eq_ok_iff.1 hadvance
  obtain ⟨s', hstep', hbare, htime⟩ := Simulation.step_congr h.bare_eq hstep
  refine ⟨a.recorded s' bus cancelAfter record, ?_, ⟨hbare, rfl, ?_⟩, htime⟩
  · rw [Run.advance, h.bus_eq, hstep']
  · rw [events_recorded, events_recorded, h.events_eq]

theorem Alongside.advanceBy {steps : Nat} {a r last : Run α} (h : a.Alongside r)
    (hlast : r.advanceBy cancelAfter steps = (last, none)) :
    ∃ last', a.advanceBy cancelAfter steps = (last', none) ∧ last'.Alongside last := by
  induction steps generalizing a r with
  | zero =>
      cases hlast
      exact ⟨a, rfl, h⟩
  | succ steps ih =>
      obtain ⟨next, hadvance, hlast⟩ := advanceBy_succ_eq_ok_iff.1 hlast
      obtain ⟨next', hadvance', hnext, -⟩ := h.advance hadvance
      obtain ⟨last', hlast', halong⟩ := ih hnext hlast
      exact ⟨last', advanceBy_succ_eq_ok_iff.2 ⟨next', hadvance', hlast'⟩, halong⟩

/-- Calls for single steps, one after the other, and the events that they deliver. -/
inductive Singly (cancelled : Bool) (cancelAfter : StepStats → Bool) :
    Simulation α → Bus → Nat → Simulation α → List Event → Prop
  | stop (s : Simulation α) (bus : Bus) : Singly cancelled cancelAfter s bus 0 s []
  | more {s last : Simulation α} {bus : Bus} {next : Run α} {n : Nat} {told : List Event}
      (hnext : s.runSteps 1 bus cancelled cancelAfter = (next, none))
      (h : Singly cancelled cancelAfter next.simulation next.bus n last told) :
      Singly cancelled cancelAfter s bus (n + 1) last (next.events ++ told)

/-- Steps that are processed together can be processed one by one. -/
theorem exists_singly {n : Nat} {r stepped : Run α} (cancelled : Bool)
    (h : r.advanceBy cancelAfter n = (stepped, none)) :
    ∃ told, Singly cancelled cancelAfter r.simulation r.bus n stepped.simulation told ∧
      stepped.events = r.events ++ told := by
  induction n generalizing r with
  | zero =>
      cases h
      exact ⟨[], .stop _ _, (List.append_nil _).symm⟩
  | succ n ih =>
      obtain ⟨next, hadvance, h⟩ := advanceBy_succ_eq_ok_iff.1 h
      obtain ⟨told, htold, hevents⟩ := ih h
      obtain ⟨s, record, bus, hstep, rfl⟩ := advance_eq_ok_iff.1 hadvance
      have hone : r.simulation.runSteps 1 r.bus cancelled cancelAfter =
          ((r.simulation.begin r.bus cancelled).recorded s bus cancelAfter record, none) :=
        advanceBy_one (advance_eq_ok_iff.2 ⟨s, record, bus, hstep, rfl⟩)
      refine ⟨record.events ++ told, ?_, ?_⟩
      · have hmore := Singly.more hone htold
        rwa [events_recorded] at hmore
      · rw [hevents, events_recorded, List.append_assoc]

/-- So many steps in which nothing can happen tell nothing and only let every link gain its
credit. -/
theorem exists_alongside_idled {r : Run Rat} {next : Tick}
    (hquiet : ∀ d ∈ r.simulation.districts, d.Quiet next)
    (hgain : ∀ d ∈ r.simulation.districts, d.Gaining) (cancelAfter : StepStats → Bool)
    (steps : Nat) (hle : r.simulation.tick + steps + 1 ≤ next) :
    ∃ last, r.advanceBy cancelAfter (steps + 1) = (last, none) ∧
      last.Alongside { r with simulation := r.simulation.idled (steps + 1) } := by
  -- The first step is apart: to idle for no step at all is to cut a credit down to its bound, which
  -- is not known to do nothing.
  induction steps with
  | zero =>
      obtain ⟨after, stats, hstep, hbare⟩ := Simulation.step_first hquiet hle r.bus
      refine ⟨r.recorded after r.bus cancelAfter ⟨[], stats⟩, advanceBy_one ?_, hbare, rfl, ?_⟩
      · rw [Run.advance, hstep]
      · rw [events_recorded, List.append_nil]
        rfl
  | succ steps ih =>
      obtain ⟨middle, hmiddle, halong⟩ := ih (Nat.le_of_succ_le hle)
      obtain ⟨after, stats, hstep, hbare⟩ :=
        Simulation.step_idled hquiet hgain (steps + 1) hle r.bus
      have hadvance : ({ r with simulation := r.simulation.idled (steps + 1) } : Run Rat).advance
          cancelAfter = (r.recorded after r.bus cancelAfter ⟨[], stats⟩, none) := by
        rw [Run.advance, hstep]
        rfl
      obtain ⟨last, hlast, hnext, -⟩ := halong.advance hadvance
      refine ⟨last, advanceBy_add hmiddle (advanceBy_one hlast), ?_⟩
      refine ⟨hnext.bare_eq.trans hbare, hnext.bus_eq, hnext.events_eq.trans ?_⟩
      rw [events_recorded, List.append_nil]
      rfl

omit [Quantity α] in
theorem Alongside.trans {a b c : Run α} (hab : a.Alongside b) (hbc : b.Alongside c) :
    a.Alongside c :=
  ⟨hab.bare_eq.trans hbc.bare_eq, hab.bus_eq.trans hbc.bus_eq, hab.events_eq.trans hbc.events_eq⟩

theorem fastForward_of_idleUntil?_eq_none {r : Run α} (h : r.simulation.idleUntil? = none) :
    r.fastForward = r := by
  rw [fastForward, Simulation.fastForward, h]

/-- Instead of a skip all steps can be processed, which tells nothing. -/
theorem exists_alongside_fastForward {r : Run Rat} {next : Tick}
    (hnext : r.simulation.idleUntil? = some next)
    (hgain : ∀ d ∈ r.simulation.districts, d.Gaining) (cancelAfter : StepStats → Bool) :
    ∃ last, r.advanceBy cancelAfter (next - r.simulation.tick) = (last, none) ∧
      last.Alongside r.fastForward := by
  obtain ⟨hlt, hskip⟩ := Simulation.fastForward_eq_idled hnext
  obtain ⟨steps, hsteps⟩ := Nat.exists_eq_succ_of_ne_zero (Nat.sub_ne_zero_of_lt hlt)
  rw [Nat.succ_eq_add_one] at hsteps
  have hle : r.simulation.tick + steps + 1 ≤ next := by
    rw [Nat.add_assoc, ← hsteps, Nat.add_sub_cancel' (Nat.le_of_lt hlt)]
  rw [fastForward, hskip, hsteps]
  exact exists_alongside_idled (Simulation.quiet_of_idleUntil? hnext) hgain cancelAfter steps hle

/-- A run has told what so many single steps tell, and single steps that tell nothing more lead to
its simulation. -/
def Shadows (start : Run Rat) (cancelAfter : StepStats → Bool) (r : Run Rat) : Prop :=
  ∃ n stepped, start.advanceBy cancelAfter n = (stepped, none) ∧ stepped.events = r.events ∧
    stepped.simulation.warnings = r.simulation.warnings ∧
    stepped.simulation.lastStepTime? = r.simulation.lastStepTime? ∧
    ∃ m ahead, stepped.advanceBy cancelAfter m = (ahead, none) ∧ ahead.Alongside r

theorem Shadows.refl (start : Run Rat) (cancelAfter : StepStats → Bool) :
    Shadows start cancelAfter start :=
  ⟨0, start, rfl, rfl, rfl, rfl, 0, start, rfl, rfl, rfl, rfl⟩

theorem Shadows.fastForward {start r : Run Rat} (h : Shadows start cancelAfter r)
    (hgain : ∀ d ∈ r.simulation.districts, d.Gaining) :
    Shadows start cancelAfter r.fastForward := by
  cases hnext : r.simulation.idleUntil? with
  | none =>
      rwa [fastForward_of_idleUntil?_eq_none hnext]
  | some next =>
      obtain ⟨last, hlast, halong⟩ := exists_alongside_fastForward hnext hgain cancelAfter
      obtain ⟨n, stepped, hn, hevents, hwarnings, htime, m, ahead, hm, hahead⟩ := h
      obtain ⟨last', hlast', halong'⟩ := hahead.advanceBy hlast
      have hskip := (Simulation.fastForward_eq_idled hnext).2
      refine ⟨n, stepped, hn, hevents, ?_, ?_, _, last', advanceBy_add hm hlast',
        halong'.trans halong⟩
      · rw [hwarnings, Run.fastForward, hskip]
        rfl
      · rw [htime, Run.fastForward, hskip]
        rfl

theorem Shadows.advance {start r next : Run Rat} (h : Shadows start cancelAfter r)
    (hadvance : r.advance cancelAfter = (next, none)) : Shadows start cancelAfter next := by
  obtain ⟨n, stepped, hn, -, -, -, m, ahead, hm, hahead⟩ := h
  obtain ⟨ahead', hadvance', hnext, htime⟩ := hahead.advance hadvance
  refine ⟨n + (m + 1), ahead', advanceBy_add hn (advanceBy_add hm (advanceBy_one hadvance')),
    hnext.events_eq, hnext.warnings_eq, htime, 0, ahead', rfl, hnext⟩

end Run

namespace Simulation

variable {first s : Simulation Rat} {config : Config} {g : Network} {agents : List Agent}

/-- No link of a simulation that was built gains a negative credit. -/
theorem Fresh.gaining (h : first.Fresh config g agents) (hg : g.Numbered)
    (hperiod : Decimal.isPositive g.periodSecs = true)
    (hflow : ∀ l ∈ g.links.toList, Decimal.isPositive l.flowCapacity = true)
    (hs : first.Reachable s) : ∀ d ∈ s.districts, d.Gaining := by
  intro d hd link q hq
  have hsound := hs.sound h.sound
  have hqueue : s.queue? link = some q := City.Sound.queueIn?_of_mem hsound hd hq
  obtain ⟨l, hl, hcleared⟩ := h.exists_link hs hqueue
  have hrate : q.bucket.perStep = LinkQueue.ratePerStep l g.periodSecs config :=
    congrArg (fun q : LinkQueue Rat => q.bucket.perStep) hcleared
  have hvalid : config.Valid := h.config_eq ▸ first.valid
  rw [hrate]
  exact LinkQueue.ratePerStep_nonneg (hflow l (hg.link?_eq_some_iff.1 hl).1) hperiod hvalid

/-- A run comes to its end, and single steps tell what it tells. -/
theorem Reachable.run_shadows (hs : first.Reachable s) (hfirst : first.Sound)
    (hgain : ∀ s : Simulation Rat, first.Reachable s → ∀ d ∈ s.districts, d.Gaining) {bus : Bus}
    (hbus : bus.UpTo s.now) (cancelled : Bool) (cancelAfter : StepStats → Bool) :
    ∃ last report, s.run bus cancelled cancelAfter = (last, .ok report) ∧
      Run.Shadows (s.begin bus cancelled) cancelAfter last := by
  rcases Run.toEnd_spec cancelAfter
      (fun r => r.Safe ∧ first.Reachable r.simulation ∧
        Run.Shadows (s.begin bus cancelled) cancelAfter r)
      (fun r hr => ⟨hr.1.fastForward, hr.2.1.skip, hr.2.2.fastForward (hgain _ hr.2.1)⟩)
      (fun r next hr hadvance => ⟨hr.1.of_advance hadvance,
        Run.reachable_advance hr.2.1 hadvance, hr.2.2.advance hadvance⟩)
      (s.begin bus cancelled) ⟨⟨hs.sound hfirst, hbus⟩, hs, .refl _ _⟩ with
    ⟨last, reason, hend, -, -, hlast⟩ | ⟨before, last, e, hbefore, hadvance, -⟩
  · refine ⟨last, last.simulation.report reason, ?_, hlast⟩
    rw [Simulation.run, hend]
  · exact absurd hadvance hbefore.1.advance_ne

/-- A skip leads where the steps that it skips lead, which tell nothing: only what counts the steps
and what the next step overwrites is different.  So a run tells all that single steps tell up to
the last step that it processed, and nothing else. -/
theorem skips_cannot_be_seen {periodSecs : Float} {positions : List Point}
    {drafts : List LinkDraft} {partitioning? : Option Partitioning}
    (hg : Network.build periodSecs positions drafts = .ok g)
    (hfirst : build config g agents partitioning? = .ok first) (hs : first.Reachable s)
    (cancelled : Bool) (cancelAfter : StepStats → Bool) (bus : Bus) :
    (∀ next, s.idleUntil? = some next →
      ∃ last, s.runSteps (next - s.tick) bus cancelled cancelAfter = (last, none) ∧
        last.events = [] ∧ last.bus = bus ∧ last.simulation.warnings = s.warnings ∧
        last.simulation.bare = s.fastForward.bare) ∧
      (bus.UpTo s.now →
        ∃ last report n stepped, s.run bus cancelled cancelAfter = (last, .ok report) ∧
          Run.Singly cancelled cancelAfter s bus n stepped last.events ∧
          stepped.warnings = last.simulation.warnings ∧
          stepped.lastStepTime? = last.simulation.lastStepTime?) := by
  have hnumbered := Network.numbered_of_build hg
  have hfresh := fresh_of_build hnumbered hfirst
  obtain ⟨hperiod, hflow⟩ := Network.isPositive_of_build hg
  have hgain := fun (s : Simulation Rat) (hs : first.Reachable s) =>
    hfresh.gaining hnumbered hperiod hflow hs
  constructor
  · intro next hnext
    obtain ⟨last, hlast, halong⟩ := Run.exists_alongside_fastForward
      (r := s.begin bus cancelled) hnext (hgain s hs) cancelAfter
    have hskip := (fastForward_eq_idled hnext).2
    refine ⟨last, hlast, halong.events_eq, halong.bus_eq, ?_, halong.bare_eq⟩
    have hwarnings : last.simulation.warnings = s.fastForward.warnings := halong.warnings_eq
    rw [hwarnings, hskip]
    rfl
  · intro hbus
    obtain ⟨last, report, hrun, n, stepped, hn, hevents, hwarnings, htime, -⟩ :=
      hs.run_shadows hfresh.sound hgain hbus cancelled cancelAfter
    obtain ⟨told, hsingly, htold⟩ := Run.exists_singly cancelled hn
    rw [hevents, show (s.begin bus cancelled).events = [] from rfl, List.nil_append] at htold
    rw [← htold] at hsingly
    exact ⟨last, report, n, _, hrun, hsingly, hwarnings, htime⟩

/-- The neighbours of the hamlet stay at home for five seconds, which can be skipped. -/
theorem skips_cannot_be_seen_hamlet : ∃ g split last,
    Network.build Network.standardPeriodSecs Hamlet.places Hamlet.roads = .ok g ∧
      build (α := Rat) Hamlet.config g Hamlet.neighbours.reverse (some Hamlet.halves) =
        .ok split ∧
      split.idleUntil? = some 5 ∧
      split.runSteps (5 - split.tick) (Bus.new 1) false (fun _ => false) = (last, none) ∧
      last.events = [] ∧ last.simulation.bare = split.fastForward.bare := by
  obtain ⟨g, hg, hidle⟩ :
      ∃ g, Network.build Network.standardPeriodSecs Hamlet.places Hamlet.roads = .ok g ∧
        ((build (α := Rat) Hamlet.config g Hamlet.neighbours.reverse
          (some Hamlet.halves)).toOption.bind idleUntil?) = some 5 :=
    ⟨_, rfl, by decide +kernel⟩
  rcases hsplit : build (α := Rat) Hamlet.config g Hamlet.neighbours.reverse
    (some Hamlet.halves) with e | split
  · rw [hsplit] at hidle
    cases hidle
  · rw [hsplit] at hidle
    obtain ⟨last, hlast, hevents, -, -, hbare⟩ :=
      (skips_cannot_be_seen hg hsplit .start false (fun _ => false) (Bus.new 1)).1 5 hidle
    exact ⟨g, split, last, hg, hsplit, hidle, hlast, hevents, hbare⟩

end Simulation

end Thoroughfare

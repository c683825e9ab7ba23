import Thoroughfare.Proofs.Simulation.Counters
import Thoroughfare.Proofs.Simulation.Safety

/-!
# The statistics agree with the events

Each step is recorded with its counters.  They agree with the events of the step and with the
counters of the step before, and the report at the end with those of all steps.
-/

namespace Thoroughfare

/-! ## What is to agree -/

/-- How many agents are on links, wait to depart and are finished. -/
structure Headcount where
  enRoute : Nat
  departing : Nat
  finished : Nat
deriving DecidableEq

/-- Nobody has left its first activity. -/
def Headcount.start : Headcount :=
  ⟨0, 0, 0⟩

/-- The headcount after a step. -/
def StepStats.headcount (stats : StepStats) : Headcount :=
  ⟨stats.enRoute, stats.departing, stats.finished⟩

namespace StepRecord

/-- How many of the events of a step are of a sort. -/
def tally (record : StepRecord) (pick : EventKind → Bool) : Nat :=
  record.events.countP fun e => pick e.kind

/-- Whether the counters of a step agree with its events and with the headcount before. -/
structure Reconciles (record : StepRecord) (p : Partitioning) (before : Headcount) : Prop where
  events : record.stats.events = record.events.length
  departures : record.stats.departures = record.tally EventKind.isDeparture
  linkMoves : record.stats.linkMoves = record.tally EventKind.isMove
  arrivals : record.stats.arrivals = record.tally EventKind.isArrival
  starts : record.tally EventKind.isStart = record.stats.arrivals
  enRoute : record.stats.enRoute + record.stats.arrivals =
    before.enRoute + record.stats.departures
  departing : record.stats.departing + record.stats.departures =
    before.departing + record.tally EventKind.isEnd
  blockedDepartures : record.stats.blockedDepartures = record.stats.departing
  finished : record.stats.finished = before.finished + record.tally EventKind.isFinal
  boundaryTransfers : record.stats.boundaryTransfers = record.tally (EventKind.crosses p)

end StepRecord

/-- Whether each step agrees with its events and with the step before it. -/
def AllReconcile (p : Partitioning) : Headcount → List StepRecord → Prop
  | _, [] => True
  | before, record :: rest =>
      record.Reconciles p before ∧ AllReconcile p record.stats.headcount rest

/-- The headcount after some steps. -/
def headcountAfter (before : Headcount) (records : List StepRecord) : Headcount :=
  records.foldl (fun _ record => record.stats.headcount) before

/-- Whether a report sums up some steps. -/
structure Report.SumsUp (report : Report) (records : List StepRecord) : Prop where
  steps : report.steps = records.length
  events : report.events = (records.map fun record => record.stats.events).sum
  boundaryTransfers : report.boundaryTransfers =
    (records.map fun record => record.stats.boundaryTransfers).sum
  finished : report.finished = (headcountAfter .start records).finished
  unreachable : report.unreachable =
    (records.map fun record => record.tally EventKind.isStranded).sum

theorem headcountAfter_append (before : Headcount) (records : List StepRecord)
    (record : StepRecord) :
    headcountAfter before (records ++ [record]) = record.stats.headcount := by
  rw [headcountAfter, List.foldl_append]
  rfl

theorem AllReconcile.append {p : Partitioning} {before : Headcount} {records : List StepRecord}
    {record : StepRecord} (h : AllReconcile p before records)
    (hlast : record.Reconciles p (headcountAfter before records)) :
    AllReconcile p before (records ++ [record]) := by
  induction records generalizing before with
  | nil => exact ⟨hlast, trivial⟩
  | cons first rest ih => exact ⟨h.1, ih h.2 hlast⟩

namespace Simulation

variable {α : Type} {s : Simulation α} {ids : List AgentId}

/-! ## One step -/

/-- The headcount of a simulation. -/
def headcount (s : Simulation α) : Headcount where
  enRoute := (s.districts.map District.enRouteCount).sum
  departing := (s.districts.map fun d => d.departing.size).sum
  finished := s.finishedCount

/-- The districts count those who are in some situations. -/
theorem Sound.headcount_eq (h : s.Sound) (hroll : Roll s.world.situation ids) :
    s.headcount = ⟨ids.countP fun id => (s.world.situation id).isUnderWay,
      ids.countP fun id => (s.world.situation id).isWaiting,
      ids.countP fun id => (s.world.situation id).isDone⟩ := by
  rw [headcount, City.Sound.sum_enRouteCount_eq_countP h hroll,
    City.Sound.sum_departing_eq_countP h hroll, finishedCount, ← List.sum_eq_foldr,
    City.Sound.sum_finished_eq_countP h hroll]
  rfl

variable [Quantity α] {begun : List (District α)} {t : Traffic α}

/-- The decisions of a step are as many as the events that come of them. -/
theorem Turn.tally_decisions (ht : s.Turn begun t) (h : s.Sound) :
    t.resolution.departed = (Event.merge t.batches).countP (fun e => e.kind.isDeparture) ∧
      t.resolution.moves = (Event.merge t.batches).countP (fun e => e.kind.isMove) ∧
      t.resolution.arrivals = (Event.merge t.batches).countP (fun e => e.kind.isArrival) := by
  obtain ⟨hdeparted, hmoves, harrivals⟩ := t.resolution.countP_rulings
  have hstays : ∀ kind : EventKind, kind.entered? = none → kind.vacated? = none →
      kind.isDeparture = false ∧ kind.isMove = false ∧ kind.isArrival = false := by
    intro kind hentered hvacated
    cases kind with
    | departure link => cases hentered
    | linkEnter left link => cases hentered
    | arrival link => cases hvacated
    | _ => exact ⟨rfl, rfl, rfl⟩
  refine ⟨?_, ?_, ?_⟩
  · rw [← hdeparted]
    exact (ht.tally_eq_countP h (fun kind he hv => (hstays kind he hv).1)
      fun hfits hvalid => (hfits.countP_kinds hvalid s.clock).1).symm
  · rw [← hmoves]
    exact (ht.tally_eq_countP h (fun kind he hv => (hstays kind he hv).2.1)
      fun hfits hvalid => (hfits.countP_kinds hvalid s.clock).2.1).symm
  · rw [← harrivals]
    exact (ht.tally_eq_countP h (fun kind he hv => (hstays kind he hv).2.2)
      fun hfits hvalid => (hfits.countP_kinds hvalid s.clock).2.2).symm

/-- Whoever waited or ended its activity in a step may depart or is refused. -/
theorem Turn.departed_add_blocked (ht : s.Turn begun t) (h : s.Sound)
    (hroll : Roll s.world.situation ids) :
    t.resolution.departed + t.resolution.blockedDepartures =
      s.headcount.departing + (Event.merge t.batches).countP fun e => e.kind.isEnd := by
  have hasked : t.resolution.departures.length =
      ids.countP fun id => (City.situation begun id).isWaiting := by
    rw [ht.resolution_eq]
    exact ht.begun_sound.length_departures (ht.roll_begun h hroll)
  rw [← t.resolution.departed_add_blocked, ht.waiting_begun h hroll] at hasked
  rw [hasked, h.headcount_eq hroll]

/-- What a step tells accounts for the change of the headcount. -/
theorem Turn.headcount_balances (ht : s.Turn begun t) (h : s.Sound)
    (hroll : Roll s.world.situation ids) (events : Nat) :
    (s.statsOf t events).enRoute + (Event.merge t.batches).countP (fun e => e.kind.isArrival) =
        s.headcount.enRoute + (Event.merge t.batches).countP (fun e => e.kind.isDeparture) ∧
      (s.statsOf t events).departing +
          (Event.merge t.batches).countP (fun e => e.kind.isDeparture) =
        s.headcount.departing + (Event.merge t.batches).countP (fun e => e.kind.isEnd) ∧
      (s.statsOf t events).finished =
        s.headcount.finished + (Event.merge t.batches).countP (fun e => e.kind.isFinal) := by
  have hafter : (s.statsOf t events).headcount = _ :=
    Sound.headcount_eq (s := s.afterStep t events) ht.sound (ht.roll h hroll)
  rw [StepStats.headcount, Headcount.mk.injEq] at hafter
  rw [hafter.1, hafter.2.1, hafter.2.2, h.headcount_eq hroll]
  refine ⟨ht.counts_balance h hroll Situation.isUnderWay EventKind.isDeparture
      EventKind.isArrival fun hbalance => hbalance.underWay,
    ht.counts_balance h hroll Situation.isWaiting EventKind.isEnd EventKind.isDeparture
      fun hbalance => hbalance.waiting, ?_⟩
  have hdone := ht.counts_balance h hroll Situation.isDone EventKind.isFinal (fun _ => false)
    fun hbalance => by simpa using hbalance.done
  simp only [List.countP_false, Function.const_apply, Nat.add_zero] at hdone
  exact hdone

/-- Whoever arrives in a step starts its next activity, and nobody else does. -/
theorem Turn.countP_isStart (ht : s.Turn begun t) (h : s.Sound)
    (hroll : Roll s.world.situation ids) :
    (Event.merge t.batches).countP (fun e => e.kind.isStart) =
      (Event.merge t.batches).countP fun e => e.kind.isArrival := by
  have hstarts := ht.counts_balance h hroll (fun _ => false) EventKind.isArrival
    EventKind.isStart fun hbalance => by simpa using hbalance.starts
  simpa using hstarts

/-- Every step agrees with its events and with the headcount before. -/
theorem Turn.reconciles (ht : s.Turn begun t) (htraffic : s.traffic = .ok t) (h : s.Sound)
    (hroll : Roll s.world.situation ids) :
    StepRecord.Reconciles ⟨Event.merge t.batches, s.statsOf t (Event.merge t.batches).length⟩
      s.partitioning s.headcount := by
  obtain ⟨hdepartures, hmoves, harrivals⟩ := ht.tally_decisions h
  obtain ⟨henRoute, hdeparting, hfinished⟩ := ht.headcount_balances h hroll
    (Event.merge t.batches).length
  have hstarts := ht.countP_isStart h hroll
  rw [← hdepartures] at hdeparting henRoute
  rw [← harrivals] at henRoute hstarts
  refine
    { events := rfl
      departures := hdepartures
      linkMoves := hmoves
      arrivals := harrivals
      starts := hstarts
      enRoute := henRoute
      departing := hdeparting
      blockedDepartures := ?_
      finished := hfinished
      boundaryTransfers := h.boundaryTransfers_eq htraffic }
  have hblocked := ht.departed_add_blocked h hroll
  rw [← hdeparting, Nat.add_comm] at hblocked
  exact Nat.add_right_cancel hblocked

/-! ## All steps -/

/-- A simulation that comes from another by steps that succeed and by skips, and what these steps
recorded. -/
inductive Recorded (first : Simulation α) : Simulation α → List StepRecord → Prop
  | start : Recorded first first []
  | skip {s : Simulation α} {records : List StepRecord} (h : Recorded first s records) :
      Recorded first s.fastForward records
  | step {s next : Simulation α} {records : List StepRecord} {bus bus' : Bus}
      {record : StepRecord} (h : Recorded first s records)
      (hstep : s.step bus = (next, .ok (record, bus'))) :
      Recorded first next (records ++ [record])

variable {first : Simulation α} {records : List StepRecord} {config : Config} {g : Network}
  {agents : List Agent}

theorem Recorded.reachable (h : first.Recorded s records) : first.Reachable s := by
  induction h with
  | start => exact .start
  | skip _ ih => exact .skip ih
  | @step s next records bus bus' record _ hstep ih =>
      have hnext := ih.step bus
      rwa [hstep] at hnext

/-- What was recorded is the history of what was told. -/
theorem Recorded.history (h : first.Recorded s records) :
    first.History s (records.flatMap (·.events)) := by
  induction h with
  | start => exact .start
  | skip _ ih => exact ih.skip
  | step _ hstep ih =>
      rw [List.flatMap_append, List.flatMap_singleton]
      exact ih.step hstep

/-- A run that does not fail adds the records of its steps. -/
theorem Recorded.run (h : first.Recorded s records) {bus : Bus} {cancelled : Bool}
    {cancelAfter : StepStats → Bool} {last : Run α} {report : Report}
    (hrun : s.run bus cancelled cancelAfter = (last, .ok report)) :
    first.Recorded last.simulation (records ++ last.records.toList) ∧
      ∃ reason, report = last.simulation.report reason := by
  rw [Simulation.run] at hrun
  have hstep : ∀ r next : Run α, first.Recorded r.simulation (records ++ r.records.toList) →
      r.advance cancelAfter = (next, none) →
        first.Recorded next.simulation (records ++ next.records.toList) := by
    intro r next hr hadvance
    obtain ⟨after, record, bus', hstep, rfl⟩ := Run.advance_eq_ok_iff.1 hadvance
    have hrecords : records ++ (r.recorded after bus' cancelAfter record).records.toList =
        records ++ r.records.toList ++ [record] := by
      simp [Run.recorded]
    rw [hrecords]
    exact hr.step hstep
  rcases Run.toEnd_spec cancelAfter
      (fun r => first.Recorded r.simulation (records ++ r.records.toList))
      (fun r hr => hr.skip) hstep (s.begin bus cancelled)
      (by simpa [Simulation.begin] using h) with
    ⟨final, reason, hend, hfinal⟩ | ⟨before, final, e, -, -, hend⟩
  · rw [hend] at hrun
    cases hrun
    exact ⟨hfinal, reason, rfl⟩
  · rw [hend] at hrun
    cases hrun

/-- The agents that were given to a simulation are those who are somewhere. -/
theorem Fresh.roll (h : first.Fresh config g agents) (hs : first.Reachable s) :
    Roll s.world.situation (agents.map (·.id)) := by
  refine ⟨h.newcomers.single, fun id hpresent => (h.situation_ne_absent_iff id).1 ?_⟩
  rwa [Ne, ← hs.situation_eq_absent_iff h.sound]

/-- Before its first step nobody in a simulation is on a link, waits or is finished. -/
theorem Fresh.headcount_eq (h : first.Fresh config g agents) : first.headcount = .start := by
  have hrests : ∀ id, (first.world.situation id).isUnderWay = false ∧
      (first.world.situation id).isWaiting = false ∧
      (first.world.situation id).isDone = false := by
    intro id
    rw [h.world_eq]
    simp only [World.atStart]
    cases withId agents id <;> exact ⟨rfl, rfl, rfl⟩
  rw [h.sound.headcount_eq (h.roll .start)]
  simp [hrests, Headcount.start]

/-- A skip does not change the headcount. -/
theorem Sound.headcount_fastForward (h : s.Sound) (hroll : Roll s.world.situation ids) :
    s.fastForward.headcount = s.headcount := by
  have hsituation := h.situation_fastForward
  rw [h.headcount_eq hroll, h.fastForward.headcount_eq (hsituation ▸ hroll), hsituation]

/-- A skip does not change what is to be said. -/
theorem report_fastForward (s : Simulation α) (reason : EndReason) :
    s.fastForward.report reason = s.report reason := by
  unfold fastForward
  split
  · rfl
  · simp only [report, finishedCount, unreachableCount, List.map_map]
    rfl

/-- The counters of a step are added to those of the steps before. -/
theorem sumsUp_afterStep (htraffic : s.traffic = .ok t) {reason : EndReason}
    (h : (s.report reason).SumsUp records) :
    ((s.afterStep t (Event.merge t.batches).length).report reason).SumsUp
      (records ++ [⟨Event.merge t.batches,
        s.statsOf t (Event.merge t.batches).length⟩]) := by
  constructor
  · rw [List.length_append, ← h.steps]
    rfl
  · rw [List.map_append, List.sum_append_nat, ← h.events]
    rfl
  · rw [List.map_append, List.sum_append_nat, ← h.boundaryTransfers]
    rfl
  · rw [headcountAfter_append]
    rfl
  · rw [List.map_append, List.sum_append_nat, ← h.unreachable]
    exact unreachable_of_traffic htraffic

/-- Whatever a simulation that was built comes to, its counters agree with what its steps
recorded. -/
theorem Recorded.reconciles (hs : first.Recorded s records)
    (hfirst : first.Fresh config g agents) :
    AllReconcile first.partitioning .start records ∧
      s.headcount = headcountAfter .start records ∧
      ∀ reason, (s.report reason).SumsUp records := by
  induction hs with
  | start =>
      refine ⟨trivial, hfirst.headcount_eq, fun reason => ?_⟩
      exact ⟨hfirst.steps_eq, hfirst.eventsEmitted_eq, hfirst.boundaryTransfers_eq,
        congrArg Headcount.finished hfirst.headcount_eq, hfirst.unreachableCount_eq⟩
  | @skip s records hs ih =>
      obtain ⟨hall, hcount, hsums⟩ := ih
      have hsound := hs.reachable.sound hfirst.sound
      refine ⟨hall, ?_, fun reason => ?_⟩
      · rw [hsound.headcount_fastForward (hfirst.roll hs.reachable), hcount]
      · rw [report_fastForward]
        exact hsums reason
  | @step s next records bus bus' record hs hstep ih =>
      obtain ⟨hall, hcount, hsums⟩ := ih
      have hsound := hs.reachable.sound hfirst.sound
      obtain ⟨t, begun, htraffic, ht, rfl, rfl⟩ := hsound.turn_of_step hstep
      have hlast := ht.reconciles htraffic hsound (hfirst.roll hs.reachable)
      rw [hcount, hs.reachable.setting.2.2] at hlast
      refine ⟨hall.append hlast, ?_, fun reason => sumsUp_afterStep htraffic (hsums reason)⟩
      rw [headcountAfter_append]
      rfl

/-- In every run of a simulation that was built, the counters of each step agree with its events and
with the step before it, and the report at the end sums up all steps. -/
theorem statistics_reconcile {periodSecs : Float} {positions : List Point}
    {drafts : List LinkDraft} {partitioning? : Option Partitioning}
    (hg : Network.build periodSecs positions drafts = .ok g)
    (hfirst : build config g agents partitioning? = .ok first) (hs : first.Recorded s records)
    {bus : Bus} {cancelled : Bool} {cancelAfter : StepStats → Bool} {last : Run α}
    {report : Report} (hrun : s.run bus cancelled cancelAfter = (last, .ok report)) :
    AllReconcile first.partitioning .start (records ++ last.records.toList) ∧
      report.SumsUp (records ++ last.records.toList) := by
  obtain ⟨hlast, reason, rfl⟩ := hs.run hrun
  obtain ⟨hall, -, hsums⟩ := hlast.reconciles (fresh_of_build (Network.numbered_of_build hg) hfirst)
  exact ⟨hall, hsums reason⟩

/-- The statistics of the run through the hamlet agree with its events. -/
theorem statistics_reconcile_hamlet : ∃ g split last report,
    Network.build Network.standardPeriodSecs Hamlet.places Hamlet.roads = .ok g ∧
      build (α := Rat) Hamlet.config g Hamlet.neighbours.reverse (some Hamlet.halves) =
        .ok split ∧
      split.run (Bus.new 1) false (fun _ => false) = (last, .ok report) ∧
      AllReconcile split.partitioning .start last.records.toList ∧
      report.SumsUp last.records.toList := by
  obtain ⟨g, split, last, report, hg, hsplit, hrun, -⟩ := Hamlet.exists_run
  exact ⟨g, split, last, report, hg, hsplit, hrun, statistics_reconcile hg hsplit .start hrun⟩

end Simulation
end Thoroughfare

import Thoroughfare.Proofs.Simulation.Rounds

/-!
# How runs end

Every run comes to an end: each processed step is later than the one before, and none is too late.
What the report gives as the reason is true, and every agent is either finished or one of the
unfinished that the report counts.
-/

namespace Thoroughfare

/-- A list of ascending numbers has no more entries than there are numbers up to the last. -/
theorem length_le_of_pairwise_lt {ks : List Nat} {greatest : Nat} (h : ks.Pairwise (· < ·))
    (hle : ∀ k ∈ ks, k ≤ greatest) : ks.length ≤ greatest + 1 := by
  have hnodup : ks.Nodup := h.imp Nat.ne_of_lt
  have hsubset : ks ⊆ List.range (greatest + 1) := fun k hk =>
    List.mem_range.2 (Nat.lt_succ_of_le (hle k hk))
  have hlength := (List.subperm_of_subset hnodup hsubset).length_le
  rwa [List.length_range] at hlength

/-! ## The live and the finished -/

/-- Whether an agent is live. -/
def Situation.isLive (σ : Situation) : Bool :=
  σ.listing.live?.isSome

theorem Situation.isLive_eq {g : Network} {id : AgentId} {σ : Situation} (h : σ.Valid g id) :
    σ.isLive = σ.agent?.any fun a => a.state ≠ .finished := by
  cases σ with
  | absent => rfl
  | resting a k => simp [isLive, listing, Situation.agent?, h.2.1]
  | waiting a refused => simp [isLive, listing, Situation.agent?, h.2.1]
  | underWay a held? => simp [isLive, listing, Situation.agent?, h.2.1]
  | done a => simp [isLive, listing, Situation.agent?, h.2]

theorem Situation.isDone_eq_not_isLive {σ : Situation} (h : σ ≠ .absent) :
    σ.isDone = !σ.isLive := by
  cases σ with
  | absent => exact absurd rfl h
  | _ => rfl

namespace Simulation

variable {α : Type} {s : Simulation α} {ids : List AgentId}

theorem Sound.liveCount_eq_countP (h : s.Sound) (hroll : Roll s.world.situation ids) :
    s.liveCount = ids.countP fun id => (s.world.situation id).isLive :=
  City.Sound.sum_size_eq_countP h (fun d => d.agents) (fun σ => σ.listing.live?) rfl
    (fun hd id => (District.lists_iff.1 (hd.tidy id)).1) hroll

/-- Everybody is either finished or live. -/
theorem Sound.finishedCount_add_liveCount (h : s.Sound) (hroll : Roll s.world.situation ids)
    (hpresent : ∀ id ∈ ids, s.world.situation id ≠ .absent) :
    s.finishedCount + s.liveCount = ids.length := by
  have hdone : (ids.countP fun id => (s.world.situation id).isDone) =
      ids.countP fun id => decide ¬(s.world.situation id).isLive = true :=
    List.countP_congr fun id hid => by
      simp only [Situation.isDone_eq_not_isLive (hpresent id hid), decide_not, Bool.decide_eq_true]
  calc s.finishedCount + s.liveCount
      = (ids.countP fun id => (s.world.situation id).isDone) +
          ids.countP fun id => (s.world.situation id).isLive :=
        congrArg₂ _ (City.Sound.sum_finished_eq_countP h hroll) (h.liveCount_eq_countP hroll)
    _ = ids.length := by
        rw [hdone, Nat.add_comm, ← List.length_eq_countP_add_countP]

/-- A skip ends when somebody is to be woken. -/
theorem Sound.exists_resting_of_idleUntil? (h : s.Sound) {next : Tick}
    (hidle : s.idleUntil? = some next) :
    s.tick < next ∧ ∃ id a, s.world.situation id = .resting a next := by
  unfold idleUntil? at hidle
  split at hidle
  · obtain ⟨hnext, hlt⟩ := Option.filter_eq_some_iff.1 hidle
    exact ⟨of_decide_eq_true hlt, ((City.Sound.min?_nextTick?_eq_some_iff h).1 hnext).1⟩
  · cases hidle

variable [Quantity α] {first : Simulation α} {config : Config} {g : Network} {agents : List Agent}

/-- A skip does not change how many agents are live. -/
theorem liveCount_fastForward (s : Simulation α) : s.fastForward.liveCount = s.liveCount := by
  unfold fastForward
  split
  · rfl
  · simp only [liveCount, List.map_map]
    rfl

theorem Fresh.finishedCount_add_liveCount (h : first.Fresh config g agents)
    (hs : first.Reachable s) : s.finishedCount + s.liveCount = agents.length := by
  rw [← List.length_map (f := fun a : Agent => a.id)]
  refine (hs.sound h.sound).finishedCount_add_liveCount (h.roll hs) fun id hid => ?_
  rw [Ne, hs.situation_eq_absent_iff h.sound]
  exact (h.situation_ne_absent_iff id).2 hid

/-- The live agents are those that are not finished. -/
theorem Fresh.liveCount_eq (h : first.Fresh config g agents) (hs : first.Reachable s) :
    s.liveCount = agents.countP fun a =>
      (s.agent? a.id).any fun b => b.state ≠ .finished := by
  have hsound := hs.sound h.sound
  rw [hsound.liveCount_eq_countP (h.roll hs), List.countP_map]
  refine List.countP_congr fun a _ => ?_
  have hvalid : (s.world.situation a.id).Valid s.network a.id := City.Sound.valid hsound a.id
  rw [Function.comp_apply, Situation.isLive_eq hvalid, hsound.agent?_eq]

/-- After a skip there is nothing to skip. -/
theorem Sound.fastForward_fastForward (h : s.Sound) :
    s.fastForward.fastForward = s.fastForward := by
  rcases h.fastForward_cases with ⟨-, hsame⟩ | ⟨next, hidle, -, hskip⟩
  · rw [hsame, hsame]
  · rcases h.fastForward.fastForward_cases with ⟨-, hsame⟩ | ⟨later, hidle', hleast, -⟩
    · exact hsame
    · obtain ⟨-, id, a, hresting⟩ := h.exists_resting_of_idleUntil? hidle
      have hle : later ≤ next := hleast id a next (by rw [h.situation_fastForward, hresting])
      have htick : s.fastForward.tick = next := by rw [hskip]
      have hlt := (h.fastForward.exists_resting_of_idleUntil? hidle').1
      rw [htick] at hlt
      exact absurd hlt (Nat.not_lt.2 hle)

end Simulation

/-! ## The times of the steps -/

namespace Run

open Relation (ReflTransGen)

variable {α : Type} [Quantity α] {first : Simulation α} {cancelAfter : StepStats → Bool}
  {r next last : Run α} {reason : EndReason}

/-- The steps of a run are in time, and each is before the next one. -/
structure InTime (first : Simulation α) (r : Run α) : Prop where
  reachable : first.Reachable r.simulation
  time_eq : ∀ record ∈ r.records.toList,
    record.stats.time = first.clock.secsAt record.stats.tick
  time_le : ∀ record ∈ r.records.toList, record.stats.time ≤ first.config.maxSecs
  tick_lt : ∀ record ∈ r.records.toList, record.stats.tick < r.simulation.tick
  ascending : r.records.toList.Pairwise fun a b => a.stats.tick < b.stats.tick

theorem InTime.begin (first : Simulation α) (bus : Bus) (cancelled : Bool) :
    (first.begin bus cancelled).InTime first :=
  ⟨.start, nofun, nofun, nofun, .nil⟩

theorem InTime.fastForward (h : r.InTime first) : r.fastForward.InTime first :=
  { h with
    reachable := h.reachable.skip
    tick_lt := fun record hrecord => Nat.lt_of_lt_of_le (h.tick_lt record hrecord)
      (Simulation.tick_le_fastForward r.simulation) }

theorem InTime.round (h : r.InTime first) (hround : Round cancelAfter r next) :
    next.InTime first := by
  obtain ⟨s, record, bus, hstep, rfl⟩ := hround.exists_step
  obtain ⟨htick, htime⟩ := Simulation.stats_of_step hstep
  have hskip := h.fastForward
  have hconfig := hskip.reachable.setting.1
  have hnow : r.fastForward.simulation.now =
      first.clock.secsAt r.fastForward.simulation.tick := by
    rw [Simulation.now, Clock.now, Simulation.clock, hconfig]
    rfl
  have hafter := (simulation_advance cancelAfter hround.advance).2
  have hreachable : first.Reachable s := by
    have hnext := hskip.reachable.step r.bus
    rwa [show (r.fastForward.simulation.step r.bus) = _ from hstep] at hnext
  refine ⟨hreachable, ?_, ?_, ?_, ?_⟩ <;> rw [toList_recorded]
  · simp only [List.mem_append, List.mem_singleton]
    rintro other (hother | rfl)
    · exact h.time_eq other hother
    · rw [htime, htick]
      exact hnow
  · simp only [List.mem_append, List.mem_singleton]
    rintro other (hother | rfl)
    · exact h.time_le other hother
    · rw [htime, ← h.reachable.setting.1]
      exact hround.inTime
  · simp only [List.mem_append, List.mem_singleton]
    rintro other (hother | rfl)
    · rw [hafter]
      exact Nat.lt_succ_of_lt (hskip.tick_lt other hother)
    · rw [hafter, htick]
      exact Nat.lt_succ_self _
  · rw [List.pairwise_append]
    refine ⟨h.ascending, List.pairwise_singleton _ _, fun earlier hearlier other hother => ?_⟩
    rw [List.mem_singleton.1 hother, htick]
    exact hskip.tick_lt earlier hearlier

theorem InTime.rounds (h : r.InTime first) (hrounds : ReflTransGen (Round cancelAfter) r last) :
    last.InTime first := by
  induction hrounds with
  | refl => exact h
  | tail _ hround ih => exact ih.round hround

/-- The steps of a run with a configuration: how many there are, and when. -/
structure Bounded (config : Config) (r : Run α) : Prop where
  size_le : r.records.size ≤ (config.maxSecs - config.startSecs) / config.stepSecs + 1
  ascending : r.records.toList.Pairwise fun a b => a.stats.time < b.stats.time
  inTime : ∀ record ∈ r.records.toList,
    config.startSecs ≤ record.stats.time ∧ record.stats.time ≤ config.maxSecs

omit [Quantity α] in
theorem Bounded.of_records_eq {config : Config} (h : r.Bounded config)
    (hrecords : last.records = r.records) : last.Bounded config := by
  constructor <;> rw [hrecords]
  exacts [h.size_le, h.ascending, h.inTime]

theorem InTime.bounded (h : r.InTime first) : r.Bounded first.config := by
  have hpos := first.valid.stepSecs_pos
  have hsecs : ∀ record ∈ r.records.toList, record.stats.time =
      first.config.startSecs + record.stats.tick * first.config.stepSecs := h.time_eq
  refine ⟨?_, ?_, fun record hrecord => ⟨?_, h.time_le record hrecord⟩⟩
  · have hticks : (r.records.toList.map fun record => record.stats.tick).Pairwise (· < ·) :=
      List.pairwise_map.2 h.ascending
    have hgreatest : ∀ k ∈ r.records.toList.map fun record => record.stats.tick,
        k ≤ (first.config.maxSecs - first.config.startSecs) / first.config.stepSecs := by
      intro k hk
      obtain ⟨record, hrecord, rfl⟩ := List.mem_map.1 hk
      have hle := h.time_le record hrecord
      rw [hsecs record hrecord] at hle
      exact (Nat.le_div_iff_mul_le hpos).2 (Nat.le_sub_of_add_le' hle)
    have hlength := length_le_of_pairwise_lt hticks hgreatest
    rwa [List.length_map] at hlength
  · refine h.ascending.imp_of_mem fun {a b} ha hb hlt => ?_
    rw [hsecs a ha, hsecs b hb]
    exact Nat.add_lt_add_left (Nat.mul_lt_mul_of_pos_right hlt hpos) _
  · rw [hsecs record hrecord]
    exact Nat.le_add_right _ _

theorem records_of_advance_error {e : StepError} (h : r.advance cancelAfter = (next, some e)) :
    next.records = r.records := by
  unfold advance at h
  split at h <;> cases h
  rfl

/-- However a run ends, its steps are in time. -/
theorem bounded_run (first : Simulation α) (bus : Bus) (cancelled : Bool)
    (cancelAfter : StepStats → Bool) :
    (first.run bus cancelled cancelAfter).1.Bounded first.config := by
  have hbegin := InTime.begin first bus cancelled
  rcases toEnd_cases cancelAfter (first.begin bus cancelled) with
    ⟨stop, last, reason, hrounds, hstops, hend⟩ | ⟨before, last, e, hrounds, hfails, hend⟩
  · rw [Simulation.run, hend]
    refine (hbegin.rounds hrounds).bounded.of_records_eq ?_
    cases hstops <;> rfl
  · have hrecords := records_of_advance_error hfails
    rw [Simulation.run, hend]
    exact (hbegin.rounds hrounds).bounded.of_records_eq hrecords

end Run

/-! ## What the report says -/

/-- Whether a report says the truth about the run that it ends. -/
structure Report.Truthful {α : Type} [Quantity α] (report : Report) (config : Config)
    (agents : List Agent) (last : Run α) : Prop where
  cancelled : report.reason = .cancelled ↔ last.cancelled = true
  allFinished : report.reason = .allFinished ↔
    last.cancelled = false ∧ last.simulation.liveCount = 0
  maxTime : ∀ unfinished, report.reason = .maxTime unfinished ↔
    last.cancelled = false ∧ 0 < unfinished ∧ unfinished = last.simulation.liveCount
  /-- The next step would be too late. -/
  late : ∀ unfinished, report.reason = .maxTime unfinished →
    config.maxSecs < last.simulation.now ∧ last.simulation.fastForward = last.simulation
  live : last.simulation.liveCount = agents.countP fun a =>
    (last.simulation.agent? a.id).any fun b => b.state ≠ .finished
  everybody : report.finished + last.simulation.liveCount = agents.length
  steps : report.steps = last.records.size

namespace Run

variable {α : Type} [Quantity α] {first : Simulation α} {r last : Run α} {reason : EndReason}

theorem Stops.reachable (h : r.Stops last reason) (hr : first.Reachable r.simulation) :
    first.Reachable last.simulation := by
  cases h with
  | cancelled | allFinished => exact hr
  | maxTime => exact hr.skip

/-- The reason for which a run stops. -/
theorem Stops.reason_iff (h : r.Stops last reason) :
    (reason = .cancelled ↔ last.cancelled = true) ∧
      (reason = .allFinished ↔ last.cancelled = false ∧ last.simulation.liveCount = 0) ∧
      ∀ unfinished, reason = .maxTime unfinished ↔
        last.cancelled = false ∧ 0 < unfinished ∧ unfinished = last.simulation.liveCount := by
  cases h with
  | cancelled hcancelled => simp [hcancelled]
  | allFinished hgoesOn hnobody =>
      simp only [hgoesOn, hnobody]
      refine ⟨by simp, by simp, fun unfinished => ?_⟩
      simpa using fun hpos => Nat.ne_of_gt hpos
  | maxTime hgoesOn hlive hlate =>
      have hsame : r.fastForward.simulation.liveCount = r.simulation.liveCount :=
        r.simulation.liveCount_fastForward
      have hsays : r.fastForward.cancelled = false := hgoesOn
      rw [hsame, hsays]
      refine ⟨by simp, by simpa using hlive, fun unfinished => ?_⟩
      simp only [EndReason.maxTime.injEq, true_and]
      constructor
      · rintro rfl
        exact ⟨Nat.pos_of_ne_zero hlive, rfl⟩
      · exact fun h => h.2.symm

theorem Stops.late (h : r.Stops last reason) (hr : r.simulation.Sound) {unfinished : Nat}
    (hreason : reason = .maxTime unfinished) :
    r.simulation.config.maxSecs < last.simulation.now ∧
      last.simulation.fastForward = last.simulation := by
  cases h with
  | cancelled | allFinished => exact nomatch hreason
  | maxTime hgoesOn hlive hlate => exact ⟨hlate, hr.fastForward_fastForward⟩

end Run

namespace Simulation

variable {α : Type} [Quantity α] {first : Simulation α} {config : Config} {g : Network}
  {agents : List Agent}

/-- A run of a simulation that was built comes to its end after no more steps than there is time
for.  The times of the steps ascend and are in time, and the report says the truth. -/
theorem every_run_ends {periodSecs : Float} {positions : List Point} {drafts : List LinkDraft}
    {partitioning? : Option Partitioning} (hg : Network.build periodSecs positions drafts = .ok g)
    (hfirst : build config g agents partitioning? = .ok first) (bus : Bus) (cancelled : Bool)
    (cancelAfter : StepStats → Bool) :
    (first.run bus cancelled cancelAfter).1.Bounded config ∧
      (bus.UpTo first.now → ∃ last report,
        first.run bus cancelled cancelAfter = (last, .ok report) ∧
          report.Truthful config agents last) := by
  have hfresh := fresh_of_build (Network.numbered_of_build hg) hfirst
  refine ⟨hfresh.config_eq ▸ Run.bounded_run first bus cancelled cancelAfter, fun hbus => ?_⟩
  obtain ⟨last, report, hrun, -⟩ := hfresh.sound.run_ok hbus cancelled cancelAfter
  obtain ⟨stop, reason, hrounds, hstops, rfl⟩ := Run.run_eq_ok_iff.1 hrun
  have hstop := ((Run.InTime.begin first bus cancelled).rounds hrounds).reachable
  have hlast := hstops.reachable hstop
  obtain ⟨hcancelled, hfinished, hmaxTime⟩ := hstops.reason_iff
  refine ⟨last, _, hrun,
    { cancelled := hcancelled
      allFinished := hfinished
      maxTime := hmaxTime
      late := fun unfinished hreason => ?_
      live := hfresh.liveCount_eq hlast
      everybody := hfresh.finishedCount_add_liveCount hlast
      steps := ?_ }⟩
  · have hlate := hstops.late (hstop.sound hfresh.sound) hreason
    rwa [hstop.setting.1, hfresh.config_eq] at hlate
  · have hsteps := ((Recorded.start.run hrun).1.reconciles hfresh).2.2 reason |>.steps
    rwa [List.nil_append, Array.length_toList] at hsteps

/-- The run through the hamlet ends. -/
theorem every_run_ends_hamlet : ∃ g split last report,
    Network.build Network.standardPeriodSecs Hamlet.places Hamlet.roads = .ok g ∧
      build (α := Rat) Hamlet.config g Hamlet.neighbours.reverse (some Hamlet.halves) =
        .ok split ∧
      (Bus.new 1).UpTo split.now ∧
      split.run (Bus.new 1) false (fun _ => false) = (last, .ok report) ∧
      report.Truthful Hamlet.config Hamlet.neighbours.reverse last := by
  obtain ⟨g, first, split, hg, -, hsplit⟩ := Hamlet.exists_build
  have hbus : (Bus.new 1).UpTo split.now := fun last hlast => by cases hlast
  obtain ⟨last, report, hrun, htruthful⟩ :=
    (every_run_ends hg hsplit (Bus.new 1) false fun _ => false).2 hbus
  exact ⟨g, split, last, report, hg, hsplit, hbus, hrun, htruthful⟩

end Simulation

end Thoroughfare

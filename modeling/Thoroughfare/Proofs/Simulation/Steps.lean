import Thoroughfare.Proofs.Event.Merging
import Thoroughfare.Proofs.Simulation.Census
import Thoroughfare.Proofs.Simulation.Traffic
import Thoroughfare.Simulation.Run

/-!
# Steps and skips

A sound simulation stays sound when it processes a step and when it skips the steps in which
nothing can happen.  A step fails only when the bus refuses its events, and a bus that is not ahead
of the clock never does.  The events of a step are those that the situations of the agents lead to.
-/

namespace Thoroughfare

/-! ## The events of one agent in one step -/

namespace Situation

variable {g : Network} {clock : Clock} {id : AgentId} {σ : Situation}

theorem pairwise_rank_kinds (σ : Situation) (clock : Clock) (ruling? : Option Ruling) :
    (σ.outcome clock ruling?).kinds.Pairwise fun a b => a.rank < b.rank := by
  cases ruling? with
  | none => simp
  | some ruling =>
      cases σ with
      | underWay a held? =>
          cases ruling with
          | arrive =>
              simp only [outcome]
              cases a.currentLink? with
              | none => exact List.Pairwise.nil
              | some link =>
                  simp only [Option.toList_some, List.flatMap_singleton, Agent.landingKinds]
                  split <;> simp [EventKind.rank]
          | move target seq? =>
              cases seq? <;> cases hlink : a.currentLink? <;> simp [outcome, hlink]
          | _ => simp [outcome]
      | waiting a refused => cases ruling <;> simp [outcome]
      | _ => simp [outcome]

/-- What is told of an agent in one step has ascending ranks. -/
theorem pairwise_rank_stepKinds (hσ : σ.Valid g id) (clock : Clock) (ruling? : Option Ruling) :
    (σ.wakingKinds g clock.tick ++ ((σ.woken g clock.tick).outcome clock ruling?).kinds).Pairwise
      fun a b => a.rank < b.rank := by
  rcases woken_cases hσ clock.tick with
    ⟨hnone, hsame, -⟩ | ⟨a, k, w, rfl, -, -, -, hsome, hw, -, -⟩
  · rw [wakingKinds, hnone, hsame]
    exact pairwise_rank_kinds σ clock ruling?
  · rw [wakingKinds, hsome, hw]
    cases w with
    | leaves link b =>
        cases ruling? with
        | none => simp
        | some ruling =>
            cases ruling <;>
              simp [Awakening.situation, Awakening.kind, outcome, EventKind.rank]
    | finishes b => simp [Awakening.situation, outcome]
    | stranded bad b => simp [Awakening.situation, outcome]

/-- What a step may do to an agent, and what it tells of it: first the agent wakes up if it is due,
then a ruling that fits is carried out if there is one. -/
def StepsTo (g : Network) (clock : Clock) (σ τ : Situation) (kinds : List EventKind) : Prop :=
  ∃ ruling? : Option Ruling,
    (∀ ruling, ruling? = some ruling → (σ.woken g clock.tick).Fits ruling) ∧
      τ = ((σ.woken g clock.tick).outcome clock ruling?).finally ∧
      kinds = σ.wakingKinds g clock.tick ++ ((σ.woken g clock.tick).outcome clock ruling?).kinds

theorem finally_eq_absent_iff {ruling? : Option Ruling} :
    (σ.outcome clock ruling?).finally = absent ↔ σ = absent := by
  constructor
  · intro habsent
    by_contra hpresent
    cases htransfer : (σ.outcome clock ruling?).transfer? with
    | some t => simp [Outcome.finally, htransfer] at habsent
    | none =>
        simp only [Outcome.finally, htransfer] at habsent
        exact after_ne_absent hpresent ruling? htransfer habsent
  · rintro rfl
    rfl

/-- Nobody appears or disappears in a step. -/
theorem StepsTo.eq_absent_iff {τ : Situation} {kinds : List EventKind}
    (h : σ.StepsTo g clock τ kinds) (hσ : σ.Valid g id) : τ = absent ↔ σ = absent := by
  obtain ⟨ruling?, -, rfl, -⟩ := h
  rw [finally_eq_absent_iff, woken_eq_absent_iff hσ]

end Situation

namespace World

variable {α : Type} [Quantity α]

/-- What is told of an agent in a step. -/
def stepKinds (w : World α) (g : Network) (clock : Clock) (r : Resolution) (id : AgentId) :
    List EventKind :=
  (w.situation id).wakingKinds g clock.tick ++ ((w.begun g clock).outcome clock r id).kinds

/-- The world when some steps have passed in which nobody is on a link. -/
def idle (w : World α) (steps : Nat) : World α where
  situation := w.situation
  queue? link := (w.queue? link).map fun q => q.idle steps

end World

theorem Clock.map_kind_tell (clock : Clock) (id : AgentId) (kinds : List EventKind) :
    (clock.tell id kinds).map (·.kind) = kinds := by
  rw [tell, List.map_map]
  exact List.map_id _

/-- The bus has delivered nothing that is later than a given second. -/
def Bus.UpTo (b : Bus) (now : Nat) : Prop :=
  ∀ last, b.lastTime = some last → last ≤ now

namespace Simulation

variable {α : Type} {s : Simulation α}

theorem Sound.agent?_eq (h : s.Sound) (id : AgentId) :
    s.agent? id = (s.world.situation id).agent? :=
  City.Sound.findSome?_agent? h id

variable [Quantity α] {begun : List (District α)} {t : Traffic α}

namespace Turn

theorem filter_flatten (ht : s.Turn begun t) (id : AgentId) :
    t.batches.flatten.filter (fun e => e.agent = id) =
      s.clock.tell id (s.world.stepKinds s.network s.clock t.resolution id) := by
  rw [ht.events_eq, ht.begun_world]
  rfl

theorem world_moved (ht : s.Turn begun t) :
    City.world s.partitioning t.districts =
      (s.world.begun s.network s.clock).moved s.clock t.resolution := by
  rw [ht.world_eq, ht.begun_world]
  rfl

/-- What a step does to each agent. -/
theorem stepsTo (ht : s.Turn begun t) (id : AgentId) :
    (s.world.situation id).StepsTo s.network s.clock
      ((City.world s.partitioning t.districts).situation id)
      (s.world.stepKinds s.network s.clock t.resolution id) := by
  refine ⟨t.resolution.rulings.lookup id, ?_, ?_, rfl⟩
  · intro ruling hruling
    have hbegun : (City.world s.partitioning begun).situation id =
        (s.world.situation id).woken s.network s.tick := by
      rw [ht.begun_world]
      rfl
    rw [ht.resolution_eq] at hruling
    have hentry := (lookup_eq_some_iff_mem ht.begun_sound.nodup_rulings).1 hruling
    have hfits := ht.begun_sound.fits_of_ruling hentry
    exact hbegun ▸ hfits
  · rw [ht.world_moved]
    rfl

/-- The events of a step are of its second, and no two of one agent have the same rank. -/
theorem distinct (ht : s.Turn begun t) (h : s.Sound) : Event.Distinct s.now t.batches.flatten := by
  constructor
  · intro e he
    have hmem : e ∈ t.batches.flatten.filter fun other => other.agent = e.agent :=
      List.mem_filter.2 ⟨he, decide_eq_true rfl⟩
    rw [ht.filter_flatten, Clock.tell, List.mem_map] at hmem
    obtain ⟨kind, -, hkind⟩ := hmem
    rw [← hkind]
    rfl
  · intro id
    rw [ht.filter_flatten, Clock.tell, List.pairwise_map]
    exact Situation.pairwise_rank_stepKinds (City.Sound.valid h id) s.clock _

theorem filter_merge (ht : s.Turn begun t) (h : s.Sound) (id : AgentId) :
    (Event.merge t.batches).filter (fun e => e.agent = id) =
      s.clock.tell id (s.world.stepKinds s.network s.clock t.resolution id) := by
  rw [(ht.distinct h).filter_merge, ht.filter_flatten]

end Turn

/-! ## Steps -/

/-- What a step that succeeds makes of a simulation. -/
theorem exists_afterStep {next : Simulation α} {bus bus' : Bus} {record : StepRecord}
    (hstep : s.step bus = (next, .ok (record, bus'))) :
    ∃ t events, next = s.afterStep t events := by
  unfold step at hstep
  split at hstep
  · cases hstep
  · rename_i t ht
    split at hstep <;> cases hstep
    exact ⟨t, _, rfl⟩

/-- A step of a sound simulation fails only when the bus refuses its events. -/
theorem Sound.step_cases (h : s.Sound) (bus : Bus) :
    ∃ t begun, s.Turn begun t ∧
      ((∃ e, bus.tooOld? (Event.merge t.batches) = some e ∧
          s.step bus = ({ s with districts := t.districts }, .error (.order e))) ∨
        bus.tooOld? (Event.merge t.batches) = none ∧
          s.step bus =
            (s.afterStep t (Event.merge t.batches).length,
              .ok (⟨Event.merge t.batches, s.statsOf t (Event.merge t.batches).length⟩,
                bus.delivered (Event.merge t.batches)))) := by
  obtain ⟨t, begun, htraffic, ht⟩ := h.traffic_eq
  refine ⟨t, begun, ht, ?_⟩
  cases hold : bus.tooOld? (Event.merge t.batches) with
  | some e =>
      left
      refine ⟨e, rfl, ?_⟩
      simp [step, htraffic, Bus.accept, hold]
  | none =>
      right
      refine ⟨rfl, ?_⟩
      simp [step, htraffic, Bus.accept, hold]

/-- A step that succeeds is a turn whose events are merged and counted. -/
theorem Sound.turn_of_step (h : s.Sound) {next : Simulation α} {bus bus' : Bus}
    {record : StepRecord} (hstep : s.step bus = (next, .ok (record, bus'))) :
    ∃ t begun, s.traffic = .ok t ∧ s.Turn begun t ∧
      next = s.afterStep t (Event.merge t.batches).length ∧
      record = ⟨Event.merge t.batches, s.statsOf t (Event.merge t.batches).length⟩ := by
  obtain ⟨t, begun, htraffic, ht⟩ := h.traffic_eq
  rw [Simulation.step, htraffic] at hstep
  simp only [Bus.accept] at hstep
  cases hold : bus.tooOld? (Event.merge t.batches) with
  | some e =>
      rw [hold] at hstep
      cases hstep
  | none =>
      rw [hold] at hstep
      cases hstep
      exact ⟨t, begun, htraffic, ht, rfl, rfl⟩

/-- A simulation stays sound in every step, even in one whose events are refused. -/
theorem Sound.step (h : s.Sound) (bus : Bus) : (s.step bus).1.Sound := by
  obtain ⟨t, begun, ht, ⟨e, -, hstep⟩ | ⟨-, hstep⟩⟩ := h.step_cases bus
  · rw [hstep]
    exact ht.sound.mono (Nat.le_succ _)
  · rw [hstep]
    exact ht.sound

theorem Sound.exists_stepsTo (h : s.Sound) (bus : Bus) (id : AgentId) :
    ∃ kinds, (s.world.situation id).StepsTo s.network s.clock
      ((s.step bus).1.world.situation id) kinds := by
  obtain ⟨t, begun, ht, ⟨e, -, hstep⟩ | ⟨-, hstep⟩⟩ := h.step_cases bus
  · rw [hstep]
    exact ⟨_, ht.stepsTo id⟩
  · rw [hstep]
    exact ⟨_, ht.stepsTo id⟩

/-- What a step that succeeds does to an agent, and what it tells of it. -/
theorem Sound.stepsTo_of_step (h : s.Sound) {next : Simulation α} {bus bus' : Bus}
    {record : StepRecord} (hstep : s.step bus = (next, .ok (record, bus'))) (id : AgentId) :
    ∃ kinds, (s.world.situation id).StepsTo s.network s.clock (next.world.situation id) kinds ∧
      record.events.filter (fun e => e.agent = id) = s.clock.tell id kinds := by
  obtain ⟨t, begun, ht, ⟨e, -, hstep'⟩ | ⟨-, hstep'⟩⟩ := h.step_cases bus
  · rw [hstep] at hstep'
    cases hstep'
  · rw [hstep] at hstep'
    cases hstep'
    exact ⟨_, ht.stepsTo id, ht.filter_merge h id⟩

/-- A bus that is not ahead of the clock accepts the events of a step. -/
theorem Turn.tooOld?_eq_none (ht : s.Turn begun t) (h : s.Sound) {bus : Bus}
    (hbus : bus.UpTo s.now) : bus.tooOld? (Event.merge t.batches) = none := by
  unfold Bus.tooOld?
  split
  · rename_i last first hlast hfirst
    have hmem : first ∈ Event.merge t.batches := List.mem_of_head? hfirst
    rw [(ht.distinct h).time_eq_of_mem_merge hmem, if_neg (Nat.not_lt.2 (hbus last hlast))]
  · rfl

theorem Turn.upTo_delivered (ht : s.Turn begun t) (h : s.Sound) {bus : Bus}
    (hbus : bus.UpTo s.now) : (bus.delivered (Event.merge t.batches)).UpTo s.now := by
  intro last hlast
  rw [Bus.delivered] at hlast
  dsimp only at hlast
  split at hlast
  · rename_i latest hlatest
    cases hlast
    exact Nat.le_of_eq ((ht.distinct h).time_eq_of_mem_merge (List.mem_of_getLast? hlatest))
  · exact hbus last hlast

/-! ## Skips -/

/-- A skip is a jump of the clock to the next wake-up. -/
theorem Sound.fastForward_cases (h : s.Sound) :
    (s.idleUntil? = none ∧ s.fastForward = s) ∨
      ∃ next, s.idleUntil? = some next ∧
        (∀ id a k, s.world.situation id = .resting a k → next ≤ k) ∧
        s.fastForward = { s with
          tick := next
          districts := s.districts.map fun d => d.idle (next - s.tick) } := by
  unfold fastForward
  cases hidle : s.idleUntil? with
  | none => exact Or.inl ⟨rfl, rfl⟩
  | some next =>
      right
      refine ⟨next, rfl, ?_, rfl⟩
      unfold idleUntil? at hidle
      split at hidle
      · have hnext := (Option.filter_eq_some_iff.1 hidle).1
        exact (City.Sound.min?_nextTick?_eq_some_iff h).1 hnext |>.2
      · cases hidle

/-- A simulation stays sound when it skips steps. -/
theorem Sound.fastForward (h : s.Sound) : s.fastForward.Sound := by
  rcases h.fastForward_cases with ⟨-, hsame⟩ | ⟨next, -, hleast, hsame⟩
  · rw [hsame]
    exact h
  · rw [hsame]
    refine City.Sound.map h (fun d hd => rfl) ?_ fun d hd id hne => hne
    intro d hd
    have hidle := (City.Sound.each h d hd).mapLinks
      (f := fun q => q.idle (next - s.tick)) fun q => ⟨rfl, rfl, rfl⟩
    refine { hidle with due := fun id a k hresting => hleast id a k ?_ }
    have hbefore : d.situation id = .resting a k := hresting
    exact (City.Sound.situation_of_mem h hd (by rw [hbefore]; simp)).trans hbefore

/-- A skip lets the links stand idle and does nothing to the agents. -/
theorem Sound.world_idle (h : s.Sound) (steps : Nat) :
    City.world s.partitioning (s.districts.map fun d => d.idle steps) = s.world.idle steps := by
  apply congrArg₂ World.mk
  · funext id
    exact City.situation_map h (fun σ => σ) rfl fun d _ => rfl
  · funext link
    refine City.queueIn?_map fun d _ => ?_
    rw [District.idle, Std.ExtTreeMap.getElem?_map]

theorem Sound.situation_fastForward (h : s.Sound) :
    s.fastForward.world.situation = s.world.situation := by
  rcases h.fastForward_cases with ⟨-, hsame⟩ | ⟨next, -, -, hsame⟩
  · rw [hsame]
  · rw [hsame]
    have hworld := congrArg World.situation (h.world_idle (next - s.tick))
    exact hworld

/-- A skip warns about nothing. -/
theorem warnings_fastForward (s : Simulation α) : s.fastForward.warnings = s.warnings := by
  unfold fastForward
  split <;> rfl

end Simulation

end Thoroughfare

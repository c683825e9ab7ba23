import Thoroughfare.Proofs.Plan.Stays
import Thoroughfare.Proofs.Simulation.Safety

/-!
# Stays end on time

Whoever performs an activity is woken in the first step that is not before its end, and what is told
of it in this step is what ends its stay.  A skip never passes over such a step.  So as long as the
step has not been processed nothing more is told of the agent, and once it has been, the end of the
stay was told there.
-/

namespace Thoroughfare

/-- Whether an event begins a stay. -/
def EventKind.isStart : EventKind → Bool
  | activityStart _ => true
  | _ => false

/-! ## Where a step leaves an agent -/

namespace Situation

variable {g : Network} {clock : Clock} {id : AgentId} {σ τ : Situation} {ruling : Ruling}
  {kinds : List EventKind}

/-- A live agent is at the activity of an itinerary that comes after so many others, or on the leg
behind it. -/
def Follows (t : Itinerary) (before : Nat) (σ : Situation) : Prop :=
  ∀ a, σ.listing.live? = some a → a.itinerary = t ∧ a.segment / 2 = before

/-- Nobody begins a stay by waking up. -/
theorem woken_follows (hσ : σ.Valid g id) (tick : Tick) :
    (∀ kind ∈ σ.wakingKinds g tick, kind.isStart = false) ∧
      ∀ t before, σ.Follows t before → (σ.woken g tick).Follows t before := by
  rcases woken_cases hσ tick with
    ⟨hnone, hsame, -⟩ | ⟨a, k, w, rfl, -, hawaken, -, hsome, hw, -, -⟩
  · rw [wakingKinds, hnone, hsame]
    exact ⟨by simp, fun _ _ h => h⟩
  · obtain ⟨-, hstate, activity, hactivity⟩ := hσ
    have heven := Itinerary.even_of_activity hactivity
    rw [wakingKinds, hsome, hw]
    rcases Agent.awaken_cases (g := g) hstate hactivity with
      ⟨-, hw'⟩ | ⟨leg, next, -, -, ⟨-, -, -, hw'⟩ | ⟨bad, -, hw'⟩⟩
    · rw [hawaken] at hw'
      cases hw'
      exact ⟨by simp [Awakening.kind, EventKind.isStart], fun _ _ _ b hb => by cases hb⟩
    · rw [hawaken] at hw'
      cases hw'
      refine ⟨by simp [Awakening.kind, EventKind.isStart], fun _ _ h b hb => ?_⟩
      obtain ⟨hitinerary, hsegment⟩ := h a rfl
      cases hb
      exact ⟨hitinerary, by simp only [Agent.goneOff]; omega⟩
    · rw [hawaken] at hw'
      cases hw'
      exact ⟨by simp [Awakening.kind, EventKind.isStart], fun _ _ _ b hb => by cases hb⟩

/-- Only whoever arrives begins a stay. -/
theorem Fits.follows (h : σ.Fits ruling) (clock : Clock) (hne : ruling ≠ .arrive) :
    (∀ kind ∈ (σ.outcome clock (some ruling)).kinds, kind.isStart = false) ∧
      ∀ t before, σ.Follows t before →
        (σ.outcome clock (some ruling)).finally.Follows t before := by
  cases h with
  | arrive held? hnext => exact absurd rfl hne
  | move held? seq hnext =>
      rename_i a target
      refine ⟨?_, fun _ _ h b hb => ?_⟩
      · cases hlink : a.currentLink? <;> simp [outcome, hlink, EventKind.isStart]
      · cases hb
        exact h a rfl
  | hold held? hnext => exact ⟨by simp [outcome], fun _ _ h => h⟩
  | @depart a refused link seq hlink =>
      refine ⟨by simp [outcome, EventKind.isStart], fun _ _ h b hb => ?_⟩
      cases hb
      exact h a rfl
  | wait refused hlink => exact ⟨by simp [outcome], fun _ _ h => h⟩

/-- Either an agent arrives in a step, or it stays at its activity or on the leg behind it. -/
theorem StepsTo.arrives_or_follows (h : σ.StepsTo g clock τ kinds) (hσ : σ.Valid g id) :
    (∃ a held? leg next, σ = .underWay a held? ∧ a.OnLeg g leg next ∧ τ = a.landed clock ∧
        kinds = a.landingKinds clock next.link) ∨
      (∀ kind ∈ kinds, kind.isStart = false) ∧
        ∀ t before, σ.Follows t before → τ.Follows t before := by
  obtain ⟨ruling?, hfits, rfl, rfl⟩ := h
  by_cases harrive : ruling? = some .arrive
  · left
    have hfit := hfits .arrive harrive
    obtain ⟨a, held?, hnext, hunderWay⟩ : ∃ a held?, a.nextLink? = none ∧
        σ.woken g clock.tick = .underWay a held? := by
      generalize hwoken : σ.woken g clock.tick = ω at hfit
      cases hfit with
      | arrive held? hnext => exact ⟨_, held?, hnext, rfl⟩
    obtain rfl := (woken_eq_underWay_iff hσ).1 hunderWay
    obtain ⟨-, hstate, ⟨leg, next, hleg⟩, -⟩ := hσ
    have hlink := Agent.currentLink?_eq_of_nextLink?_eq_none hleg hstate hnext
    refine ⟨a, held?, leg, next, rfl, hleg, ?_, ?_⟩
    · rw [harrive, hunderWay]
      rfl
    · rw [harrive, hunderWay]
      simp [wakingKinds, awakening?, outcome, hlink]
  · right
    obtain ⟨hwaking, hwoken⟩ := woken_follows hσ clock.tick
    cases ruling? with
    | none =>
        rw [outcome_none, List.append_nil]
        exact ⟨hwaking, hwoken⟩
    | some ruling =>
        have hne : ruling ≠ .arrive := fun hsame => harrive (congrArg some hsame)
        obtain ⟨hkinds, hafter⟩ := (hfits ruling rfl).follows clock hne
        refine ⟨fun kind hkind => ?_, fun t before h => hafter t before (hwoken t before h)⟩
        exact (List.mem_append.1 hkind).elim (hwaking kind) (hkinds kind)

end Situation

/-! ## How far a stay has come -/

namespace Stay

/-- A stay lasts until its end is told. -/
inductive Course (clock : Clock) (stay : Stay) (σ : Situation) (tick : Tick) : List Event → Prop
  | lasts {a : Agent} {k : Tick} (hσ : σ = .resting a k)
      (hactivity : a.currentActivity? = some stay.activity)
      (hfinal : stay.final = decide (a.itinerary.length ≤ a.segment + 1))
      (hends : stay.EndsAt clock k) (hk : tick ≤ k) : Course clock stay σ tick []
  | ended {k : Tick} {e : Event} {rest : List Event} (hends : stay.EndsAt clock k) (hk : k < tick)
      (htime : e.time = clock.secsAt k) (hkind : stay.EndsWith e.kind) :
      Course clock stay σ tick (e :: rest)

/-- A stay ends on time: before its last tick was processed nothing follows in what is told of the
agent, and afterwards its end does. -/
def Punctual (clock : Clock) (stay : Stay) (tick : Tick) (later : List Event) : Prop :=
  ∃ k, stay.EndsAt clock k ∧ ((tick ≤ k ∧ later = []) ∨
    (k < tick ∧ ∃ e rest, later = e :: rest ∧ e.time = clock.secsAt k ∧ stay.EndsWith e.kind))

variable {g : Network} {clock : Clock} {id : AgentId} {σ τ : Situation} {kinds : List EventKind}
  {stay : Stay} {tick : Tick} {later : List Event}

theorem Course.punctual (h : Course clock stay σ tick later) :
    stay.Punctual clock tick later := by
  cases h with
  | lasts hσ hactivity hfinal hends hk => exact ⟨_, hends, Or.inl ⟨hk, rfl⟩⟩
  | ended hends hk htime hkind => exact ⟨_, hends, Or.inr ⟨hk, _, _, rfl, htime, hkind⟩⟩

/-- A stay is not changed by a jump of the clock to a tick at which the agent need not have been
woken. -/
theorem Course.jump (h : Course clock stay σ tick later) {next : Tick} (hle : tick ≤ next)
    (hdue : ∀ a k, σ = .resting a k → next ≤ k) : Course clock stay σ next later := by
  cases h with
  | lasts hσ hactivity hfinal hends hk =>
      exact .lasts hσ hactivity hfinal hends (hdue _ _ hσ)
  | ended hends hk htime hkind => exact .ended hends (Nat.lt_of_lt_of_le hk hle) htime hkind

/-- It does not matter for a stay at which tick its clock stands. -/
theorem Course.of_tick {here : Tick}
    (h : Course { clock with tick := here } stay σ tick later) :
    Course clock stay σ tick later := by
  cases h with
  | lasts hσ hactivity hfinal hends hk => exact .lasts hσ hactivity hfinal hends hk
  | ended hends hk htime hkind => exact .ended hends hk htime hkind

/-- Whoever wakes up is told to do what ends its stay. -/
theorem endsWith_of_awaken {a : Agent} {w : Awakening} (hstate : a.state = .atActivity)
    (hactivity : a.currentActivity? = some stay.activity)
    (hfinal : stay.final = decide (a.itinerary.length ≤ a.segment + 1))
    (hw : a.awaken g = .ok w) : stay.EndsWith w.kind := by
  rcases Agent.awaken_cases (g := g) hstate hactivity with
    ⟨hlast, hw'⟩ | ⟨leg, next, hleg, -, hcases⟩
  · rw [hw] at hw'
    cases hw'
    rw [EndsWith, hfinal, if_pos (decide_eq_true hlast)]
    rfl
  · have hlt : ¬a.itinerary.length ≤ a.segment + 1 :=
      Nat.not_le.2 (List.getElem?_eq_some_iff.1 (Itinerary.leg?_eq_some_iff.1 hleg)).1
    rw [EndsWith, hfinal, if_neg (by simpa using hlt)]
    rcases hcases with ⟨-, -, -, hw'⟩ | ⟨bad, -, hw'⟩
    · rw [hw] at hw'
      cases hw'
      exact Or.inl rfl
    · rw [hw] at hw'
      cases hw'
      exact Or.inr ⟨bad, rfl⟩

/-- A step in which an agent is due tells the end of its stay, and any other step tells nothing of
it. -/
theorem Course.step (h : Course clock stay σ tick later) (hσ : σ.Valid g id)
    (hsteps : σ.StepsTo g { clock with tick := tick } τ kinds) :
    Course clock stay τ (tick + 1)
      (later ++ Clock.tell { clock with tick := tick } id kinds) := by
  cases h with
  | ended hends hk htime hkind => exact .ended hends (Nat.lt_succ_of_lt hk) htime hkind
  | @lasts a k hresting hactivity hfinal hends hk =>
      subst hresting
      obtain ⟨ruling?, hfits, rfl, rfl⟩ := hsteps
      rcases Situation.woken_cases hσ tick with
        ⟨hnone, hsame, hlater⟩ | ⟨_, _, w, heq, hdue, hawaken, -, hsome, hw, -⟩
      · have hnobody : ruling? = none := by
          rcases ruling? with _ | ruling
          · rfl
          · have hfit := hfits ruling rfl
            rw [hsame] at hfit
            cases hfit
        rw [hnobody, Situation.outcome_none, List.append_nil, Situation.wakingKinds, hnone, hsame]
        exact .lasts rfl hactivity hfinal hends (hlater a k rfl)
      · -- The wake-up is due and not overdue.
        cases heq
        rw [Situation.wakingKinds, hsome]
        obtain rfl : k = tick := Nat.le_antisymm hdue hk
        exact .ended hends (Nat.lt_succ_self k) rfl
          (endsWith_of_awaken hσ.2.1 hactivity hfinal hawaken)

/-- Whoever arrives begins its next stay, which is over at once if it has no end. -/
theorem course_landed {a : Agent} {leg : Leg} {next : Activity} (clock : Clock)
    (hclock : 0 < clock.stepSecs) (hleg : a.OnLeg g leg next) (id : AgentId) :
    ∃ stay rest, a.itinerary.stay? (a.segment / 2 + 1) clock.now (some clock.tick) = some stay ∧
      stay.activity = next ∧
      clock.tell id (a.landingKinds clock next.link) =
        ⟨clock.now, id, .arrival next.link⟩ :: ⟨clock.now, id, .activityStart next.link⟩ :: rest ∧
      (∀ e ∈ rest, e.kind.isStart = false) ∧
      Course clock stay (a.landed clock) (clock.tick + 1) rest := by
  have hactivity := Agent.currentActivity?_atNextActivity hleg clock.now
  have hodd := hleg.odd
  have hplace : 2 * (a.segment / 2 + 1) = a.segment + 1 := by omega
  have hstay : a.itinerary.stay? (a.segment / 2 + 1) clock.now (some clock.tick) =
      some ⟨next, decide (a.itinerary.length ≤ a.segment + 1 + 1), clock.now, some clock.tick⟩ := by
    have hnext : a.itinerary.activity? (a.segment + 1) = some next := hactivity
    rw [Itinerary.stay?, hplace, hnext]
    rfl
  rcases Situation.landed_cases clock a with
    ⟨hover, -, hlanded⟩ | ⟨k, hlater, hopen, hwake, hlanded⟩
  · obtain ⟨hends, hlast⟩ := Agent.endsAt_of_dayIsOver clock
      (decide (a.itinerary.length ≤ a.segment + 1 + 1)) rfl hactivity hover
    have hfinal : a.itinerary.length ≤ a.segment + 1 + 1 := hlast
    refine ⟨_, [⟨clock.now, id, .finished⟩], hstay, rfl, ?_, by simp [EventKind.isStart], ?_⟩
    · rw [Agent.landingKinds, if_pos hover]
      rfl
    · refine .ended hends (Nat.lt_succ_self _) rfl ?_
      rw [EndsWith, if_pos (decide_eq_true hfinal)]
  · refine ⟨_, [], hstay, rfl, ?_, by simp, ?_⟩
    · rw [Agent.landingKinds, if_neg (by simp [hopen])]
      rfl
    · exact .lasts hlanded hactivity rfl (Agent.endsAt_nextWakeUp? hclock rfl hactivity hwake)
        hlater

end Stay

/-! ## All stays of an agent -/

/-- The stay that an agent begins with an event, when some others were told of it before. -/
structure Stay.BeginsWith (clock : Clock) (a : Agent) (tick : Tick) (pre : List Event) (e : Event)
    (stay : Stay) : Prop where
  arrived : ∃ arrived, arrived < tick ∧ e.time = clock.secsAt arrived ∧
    a.itinerary.stay? ((pre.countP fun e => e.kind.isStart) + 1) e.time (some arrived) = some stay
  kind_eq : e.kind = .activityStart stay.activity.link

theorem Stay.BeginsWith.mono {clock : Clock} {a : Agent} {tick next : Tick} {pre : List Event}
    {e : Event} {stay : Stay} (h : stay.BeginsWith clock a tick pre e) (hle : tick ≤ next) :
    stay.BeginsWith clock a next pre e := by
  obtain ⟨arrived, hlt, htime, hstay⟩ := h.arrived
  exact ⟨⟨arrived, Nat.lt_of_lt_of_le hlt hle, htime, hstay⟩, h.kind_eq⟩

/-- How far every stay of an agent has come, when all that was told of it is known. -/
structure OnTime (clock : Clock) (a : Agent) (σ : Situation) (tick : Tick) (own : List Event) :
    Prop where
  follows : σ.Follows a.itinerary (own.countP fun e => e.kind.isStart)
  first : ∃ stay, a.itinerary.stay? 0 a.activityStart none = some stay ∧
    stay.Course clock σ tick own
  later : ∀ pre e post, own = pre ++ e :: post → e.kind.isStart = true →
    ∃ stay : Stay, stay.BeginsWith clock a tick pre e ∧ stay.Course clock σ tick post

namespace OnTime

variable {g : Network} {clock : Clock} {a b : Agent} {id : AgentId} {σ τ : Situation}
  {tick : Tick} {own : List Event} {kinds : List EventKind} {leg : Leg} {next : Activity}

theorem jump (h : OnTime clock a σ tick own) {later : Tick} (hle : tick ≤ later)
    (hdue : ∀ b k, σ = .resting b k → later ≤ k) : OnTime clock a σ later own := by
  obtain ⟨stay, hstay, hcourse⟩ := h.first
  refine ⟨h.follows, ⟨stay, hstay, hcourse.jump hle hdue⟩, ?_⟩
  intro pre e post hsplit hstart
  obtain ⟨stay, hbegins, hcourse⟩ := h.later pre e post hsplit hstart
  exact ⟨stay, hbegins.mono hle, hcourse.jump hle hdue⟩

/-- A step keeps all stays on time, if those that begin in it are. -/
theorem step_of (h : OnTime clock a σ tick own) (hσ : σ.Valid g id)
    (hsteps : σ.StepsTo g { clock with tick := tick } τ kinds) {told : List Event}
    (htold : Clock.tell { clock with tick := tick } id kinds = told)
    (hfollows : τ.Follows a.itinerary ((own ++ told).countP fun e => e.kind.isStart))
    (hnew : ∀ pre e post, told = pre ++ e :: post → e.kind.isStart = true →
      ∃ stay : Stay, stay.BeginsWith clock a (tick + 1) (own ++ pre) e ∧
        stay.Course clock τ (tick + 1) post) :
    OnTime clock a τ (tick + 1) (own ++ told) := by
  subst htold
  obtain ⟨stay, hstay, hcourse⟩ := h.first
  refine ⟨hfollows, ⟨stay, hstay, hcourse.step hσ hsteps⟩, ?_⟩
  intro pre e post hsplit hstart
  rcases append_eq_append_cons hsplit with ⟨rest, hown, rfl⟩ | ⟨start, rfl, hstarted⟩
  · obtain ⟨stay, hbegins, hcourse⟩ := h.later pre e rest hown hstart
    exact ⟨stay, hbegins.mono (Nat.le_succ tick), hcourse.step hσ hsteps⟩
  · exact hnew start e post hstarted hstart

/-- Whoever has landed is at its next activity. -/
theorem follows_landed (h : b.OnLeg g leg next) :
    (b.landed clock).Follows b.itinerary (b.segment / 2 + 1) := by
  have hodd := h.odd
  intro c hc
  rcases Situation.landed_cases clock b with ⟨-, -, hlanded⟩ | ⟨k, -, -, -, hlanded⟩
  · rw [hlanded] at hc
    cases hc
  · rw [hlanded] at hc
    cases hc
    exact ⟨rfl, by simp only [Agent.atNextActivity]; omega⟩

/-- Whoever arrives in a step begins one more stay. -/
theorem step_of_arrival {held? : Option LinkId} (h : OnTime clock a (.underWay b held?) tick own)
    (hclock : 0 < clock.stepSecs) (hσ : (Situation.underWay b held?).Valid g id)
    (hleg : b.OnLeg g leg next)
    (hsteps : (Situation.underWay b held?).StepsTo g { clock with tick := tick }
      (b.landed { clock with tick := tick })
      (b.landingKinds { clock with tick := tick } next.link)) :
    OnTime clock a (b.landed { clock with tick := tick }) (tick + 1)
      (own ++ Clock.tell { clock with tick := tick } id
        (b.landingKinds { clock with tick := tick } next.link)) := by
  obtain ⟨hitinerary, hsegment⟩ := h.follows b rfl
  obtain ⟨stay, rest, hstay, hactivity, htold, hrest, hcourse⟩ :=
    Stay.course_landed { clock with tick := tick } hclock hleg id
  rw [htold]
  refine h.step_of hσ hsteps htold ?_ ?_
  · have hnone : rest.countP (fun e => e.kind.isStart) = 0 :=
      List.countP_eq_zero.2 fun e he => by simp [hrest e he]
    rw [List.countP_append, List.countP_cons, List.countP_cons, hnone, ← hsegment, ← hitinerary]
    exact follows_landed hleg
  · intro pre e post hsplit hstart
    rcases pre with _ | ⟨first, _ | ⟨second, pre⟩⟩
    · cases hsplit
      cases hstart
    · cases hsplit
      refine ⟨stay, ⟨⟨tick, Nat.lt_succ_self tick, rfl, ?_⟩, ?_⟩, hcourse.of_tick⟩
      · rw [List.countP_append, ← hsegment, ← hitinerary]
        exact hstay
      · rw [hactivity]
    · cases hsplit
      rw [hrest e (by simp)] at hstart
      cases hstart

/-- A step keeps all stays on time. -/
theorem step (h : OnTime clock a σ tick own) (hclock : 0 < clock.stepSecs) (hσ : σ.Valid g id)
    (hsteps : σ.StepsTo g { clock with tick := tick } τ kinds) :
    OnTime clock a τ (tick + 1) (own ++ Clock.tell { clock with tick := tick } id kinds) := by
  rcases hsteps.arrives_or_follows hσ with
    ⟨b, held?, leg, next, rfl, hleg, rfl, rfl⟩ | ⟨hkinds, hfollows⟩
  · exact h.step_of_arrival hclock hσ hleg hsteps
  · have hquiet : ∀ e ∈ Clock.tell { clock with tick := tick } id kinds,
        e.kind.isStart = false := by
      intro e he
      obtain ⟨kind, hkind, rfl⟩ := List.mem_map.1 he
      exact hkinds kind hkind
    refine h.step_of hσ hsteps rfl ?_ ?_
    · have hnone : (Clock.tell { clock with tick := tick } id kinds).countP
          (fun e => e.kind.isStart) = 0 :=
        List.countP_eq_zero.2 fun e he => by simp [hquiet e he]
      rw [List.countP_append, hnone, Nat.add_zero]
      exact hfollows _ _ h.follows
    · intro pre e post hsplit hstart
      rw [hquiet e (by rw [hsplit]; simp)] at hstart
      cases hstart

/-- Before the first step every agent rests at its first activity. -/
theorem atStart {activity : Activity} (hclock : 0 < clock.stepSecs)
    (hstate : a.state = .atActivity) (hsegment : a.segment = 0)
    (hactivity : a.itinerary.activity? 0 = some activity) :
    OnTime clock a (.resting a (District.firstWakeUp clock a)) 0 [] := by
  have hcurrent : a.currentActivity? = some activity := by
    rw [Agent.currentActivity?, hsegment, hactivity]
  refine ⟨?_, ⟨⟨activity, decide (a.itinerary.length ≤ 0 + 1), a.activityStart, none⟩, ?_, ?_⟩, ?_⟩
  · rintro b ⟨⟩
    exact ⟨rfl, by simp [hsegment]⟩
  · rw [Itinerary.stay?, hactivity]
    rfl
  · refine .lasts rfl hcurrent ?_ (Agent.endsAt_firstWakeUp hclock hstate hcurrent)
      (Nat.zero_le _)
    rw [hsegment]
  · intro pre e post hsplit
    cases pre <;> cases hsplit

end OnTime

namespace Simulation

variable {α : Type} [Quantity α] {first s : Simulation α} {told : List Event} {config : Config}
  {g : Network} {agents : List Agent}

omit [Quantity α] in
/-- No wake-up is overdue. -/
theorem Sound.tick_le_of_resting (h : s.Sound) {id : AgentId} {a : Agent} {k : Tick}
    (hresting : s.world.situation id = .resting a k) : s.tick ≤ k := by
  have hpresent : s.world.situation id ≠ .absent := by
    rw [hresting]
    exact Situation.noConfusion
  obtain ⟨d, hd, hsituation⟩ := City.exists_district hpresent
  exact (City.Sound.each h d hd).due id a k (hsituation.trans hresting)

/-- Before the first step of a simulation every agent is on time. -/
theorem Fresh.onTime (h : first.Fresh config g agents) (hclock : 0 < config.clock.stepSecs)
    {a : Agent} (ha : a ∈ agents) :
    OnTime config.clock a (first.world.situation a.id) first.tick [] := by
  obtain ⟨activity, hactivity⟩ := a.itinerary.exists_firstActivity
  obtain ⟨hstate, hsegment⟩ := h.newcomers.atFirst a ha
  rw [h.world_eq, h.newcomers.situation_atStart ha, h.tick_eq]
  exact OnTime.atStart hclock hstate hsegment hactivity

/-- Whatever happens in a history, every agent is on time. -/
theorem History.onTime (h : first.History s told) (hfresh : first.Fresh config g agents)
    {a : Agent} (ha : a ∈ agents) :
    OnTime config.clock a (s.world.situation a.id) s.tick
      (told.filter fun e => e.agent = a.id) := by
  have hvalid : config.Valid := hfresh.config_eq ▸ first.valid
  have hclock : 0 < config.clock.stepSecs := hvalid.stepSecs_pos
  induction h with
  | start => exact hfresh.onTime hclock ha
  | @skip s told hs ih =>
      -- A simulation after a skip is sound again, and so has not skipped a wake-up.
      have hsound := hs.reachable.sound hfresh.sound
      rw [hsound.situation_fastForward]
      refine ih.jump (tick_le_fastForward s) fun b k hresting => ?_
      have hlater : s.fastForward.world.situation a.id = .resting b k := by
        rwa [hsound.situation_fastForward]
      exact hsound.fastForward.tick_le_of_resting hlater
  | @step s next told bus bus' record hs hstep ih =>
      have hsound := hs.reachable.sound hfresh.sound
      obtain ⟨kinds, hsteps, hrecord⟩ := hsound.stepsTo_of_step hstep a.id
      have hsetting : s.config = config := hs.reachable.setting.1.trans hfresh.config_eq
      have hclock' : s.clock = { config.clock with tick := s.tick } := by
        rw [clock, hsetting]
        rfl
      have htick : next.tick = s.tick + 1 := by
        obtain ⟨t, events, rfl⟩ := exists_afterStep hstep
        rfl
      rw [hclock'] at hsteps hrecord
      rw [List.filter_append, hrecord, htick]
      exact ih.step hclock (City.Sound.valid hsound a.id) hsteps

/-- In every history of a simulation that was built, every stay of every agent ends on time: the one
at which it was in the beginning, and every one that it began when it arrived. -/
theorem stays_are_punctual {periodSecs : Float} {positions : List Point} {drafts : List LinkDraft}
    {partitioning? : Option Partitioning}
    (hg : Network.build periodSecs positions drafts = .ok g)
    (hfirst : build config g agents partitioning? = .ok first) (hs : first.History s told)
    {a : Agent} (ha : a ∈ agents) :
    (∃ stay, a.itinerary.stay? 0 a.activityStart none = some stay ∧
        stay.Punctual config.clock s.tick (told.filter fun e => e.agent = a.id)) ∧
      ∀ pre e post, (told.filter fun e => e.agent = a.id) = pre ++ e :: post →
        e.kind.isStart = true →
          ∃ stay : Stay, stay.BeginsWith config.clock a s.tick pre e ∧
            stay.Punctual config.clock s.tick post := by
  have hfresh := fresh_of_build (Network.numbered_of_build hg) hfirst
  have honTime := hs.onTime hfresh ha
  obtain ⟨stay, hstay, hcourse⟩ := honTime.first
  refine ⟨⟨stay, hstay, hcourse.punctual⟩, fun pre e post hsplit hstart => ?_⟩
  obtain ⟨stay, hbegins, hcourse⟩ := honTime.later pre e post hsplit hstart
  exact ⟨stay, hbegins, hcourse.punctual⟩

/-- The neighbours of the hamlet leave home on time. -/
theorem stays_are_punctual_hamlet : ∃ g split last report,
    Network.build Network.standardPeriodSecs Hamlet.places Hamlet.roads = .ok g ∧
      build (α := Rat) Hamlet.config g Hamlet.neighbours.reverse (some Hamlet.halves) =
        .ok split ∧
      split.run (Bus.new 1) false (fun _ => false) = (last, .ok report) ∧
      ∀ a ∈ Hamlet.neighbours.reverse,
        ∃ stay, a.itinerary.stay? 0 a.activityStart none = some stay ∧
          stay.Punctual Hamlet.config.clock last.simulation.tick
            (last.events.filter fun e => e.agent = a.id) := by
  obtain ⟨g, split, last, report, hg, hsplit, hrun, hhistory⟩ := Hamlet.exists_run
  exact ⟨g, split, last, report, hg, hsplit, hrun, fun a ha =>
    (stays_are_punctual hg hsplit hhistory ha).1⟩

end Simulation

end Thoroughfare

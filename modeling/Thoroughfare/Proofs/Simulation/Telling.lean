import Thoroughfare.Proofs.Plan.Words
import Thoroughfare.Proofs.Simulation.Safety

/-!
# What is told of an agent

Whatever a step tells of an agent is what comes next in the word of its day.  So the events that
were delivered of an agent are always the beginning of its word, however the traffic was, and they
are all of it just when the agent is finished.
-/

namespace Thoroughfare

namespace Situation

/-- What is still to be told of an agent. -/
def ahead (g : Network) : Situation → List EventKind
  | absent => []
  | resting a _ => a.dayAhead g
  | waiting a _ => a.currentLink?.toList.map EventKind.departure ++ a.legAhead g
  | underWay a _ => a.legAhead g
  | done _ => []

variable {g : Network} {clock : Clock} {id : AgentId} {σ τ : Situation} {ruling : Ruling}
  {kinds : List EventKind}

theorem ahead_of_awaken {a : Agent} {k : Tick} {w : Awakening} (h : (resting a k).Valid g id)
    (hw : a.awaken g = .ok w) : w.kind :: w.situation.ahead g = a.dayAhead g := by
  obtain ⟨-, hstate, activity, hactivity⟩ := h
  rw [Agent.dayAhead_eq hactivity]
  rcases Agent.awaken_cases (g := g) hstate hactivity with
    ⟨hlast, hawaken⟩ | ⟨leg, next, hleg, hnext, ⟨hnone, honleg, hlink, hawaken⟩ |
      ⟨bad, hbad, hawaken⟩⟩
  · rw [hw] at hawaken
    cases hawaken
    rw [Itinerary.wordFrom_drop_of_end hlast]
    rfl
  · rw [hw] at hawaken
    cases hawaken
    rw [Itinerary.wordFrom_drop_of_leg hleg hnext, hnone]
    have hahead : (Awakening.leaves activity.link a.goneOff).situation.ahead g =
        .departure activity.link :: a.goneOff.legAhead g := by
      simp only [Awakening.situation, ahead, hlink]
      rfl
    have hfirst : leg.route.head? = some activity.link := by
      rw [Agent.currentLink?_of_onLeg honleg (Or.inl rfl)] at hlink
      rw [List.head?_eq_getElem?]
      exact hlink
    rw [hahead, Agent.legAhead_eq honleg, hfirst]
    rfl
  · rw [hw] at hawaken
    cases hawaken
    rw [Itinerary.wordFrom_drop_of_leg hleg hnext, hbad]
    rfl

theorem ahead_woken (h : σ.Valid g id) (tick : Tick) :
    σ.wakingKinds g tick ++ (σ.woken g tick).ahead g = σ.ahead g := by
  rcases woken_cases h tick with ⟨hnone, hsame, -⟩ | ⟨a, k, w, rfl, -, hw, -, hsome, hwoken, -, -⟩
  · rw [wakingKinds, hnone, hsame]
    rfl
  · rw [wakingKinds, hsome, hwoken]
    exact ahead_of_awaken h hw

theorem ahead_landed {a : Agent} {leg : Leg} {next : Activity} (h : a.OnLeg g leg next)
    (hstate : a.state = .enRoute) (hnext : a.nextLink? = none) :
    a.landingKinds clock next.link ++ (a.landed clock).ahead g = a.legAhead g := by
  rw [Agent.legAhead_eq_of_last h hstate hnext clock.now, Agent.landingKinds]
  rcases landed_cases clock a with ⟨hover, -, hlanded⟩ | ⟨tick, -, hover, -, hlanded⟩
  · have hlast : (a.atNextActivity clock.now).itinerary.length ≤
        (a.atNextActivity clock.now).segment + 1 := by
      have hfinal := (Bool.and_eq_true_iff.1 hover).2
      exact of_decide_eq_true (Bool.and_eq_true_iff.1 hfinal).2
    rw [if_pos hover, hlanded,
      Agent.dayAhead_eq (Agent.currentActivity?_atNextActivity h clock.now),
      Itinerary.wordFrom_drop_of_end hlast]
    rfl
  · rw [if_neg (by simp [hover]), hlanded]
    rfl

/-- Whatever a ruling does to an agent, it tells what comes next. -/
theorem Fits.ahead_finally (h : σ.Fits ruling) (hσ : σ.Valid g id) :
    (σ.outcome clock (some ruling)).kinds ++ (σ.outcome clock (some ruling)).finally.ahead g =
      σ.ahead g := by
  cases h with
  | arrive held? hnext =>
      obtain ⟨-, hstate, ⟨leg, next, hleg⟩, -⟩ := hσ
      have hlink := Agent.currentLink?_eq_of_nextLink?_eq_none hleg hstate hnext
      simp only [outcome, Outcome.finally, hlink, Option.toList_some, List.flatMap_singleton]
      exact ahead_landed hleg hstate hnext
  | move held? seq hnext =>
      obtain ⟨-, hstate, ⟨leg, next, hleg⟩, -⟩ := hσ
      obtain ⟨left, hleft, -⟩ := Agent.advanceLink_eq hleg hstate hnext
      simp only [outcome, Outcome.finally, hleft, Option.toList_some, List.map_singleton]
      exact (Agent.legAhead_eq_cons hleg hstate hleft hnext).symm
  | hold held? hnext => rfl
  | depart refused seq hlink =>
      simp only [ahead, hlink]
      rfl
  | wait refused hlink => rfl

/-- A step tells what comes next. -/
theorem StepsTo.ahead_eq (h : σ.StepsTo g clock τ kinds) (hσ : σ.Valid g id) :
    kinds ++ τ.ahead g = σ.ahead g := by
  obtain ⟨ruling?, hfits, rfl, rfl⟩ := h
  rw [List.append_assoc, ← ahead_woken hσ clock.tick]
  congr 1
  cases ruling? with
  | none => simp [Outcome.finally]
  | some ruling => exact (hfits ruling rfl).ahead_finally hσ.woken

/-- Nothing is ahead only of those that are done. -/
theorem ahead_eq_nil_iff (h : σ.Valid g id) (hpresent : σ ≠ absent) :
    σ.ahead g = [] ↔ ∃ a, σ.agent? = some a ∧ a.state = .finished := by
  cases σ with
  | absent => exact absurd rfl hpresent
  | resting a k =>
      obtain ⟨-, hstate, activity, hactivity⟩ := h
      simp [ahead, agent?, hstate, Agent.dayAhead_ne_nil hactivity]
  | waiting a refused =>
      obtain ⟨link, hlink, -⟩ := h.exists_departure
      simp [ahead, agent?, h.2.1, hlink]
  | underWay a held? =>
      obtain ⟨-, hstate, ⟨leg, next, hleg⟩, -⟩ := h
      simp [ahead, agent?, hstate, Agent.legAhead_ne_nil hleg]
  | done a => simp [ahead, agent?, h.2]

end Situation

namespace Simulation

variable {α : Type} [Quantity α] {first s : Simulation α} {told : List Event}

/-- What was delivered of an agent and what is ahead of it make up what was ahead of it at the
start. -/
theorem History.ahead_eq (h : first.History s told) (hfirst : first.Sound) (id : AgentId) :
    (told.filter fun e => e.agent = id).map (·.kind) ++
        (s.world.situation id).ahead first.network =
      (first.world.situation id).ahead first.network := by
  induction h with
  | start => rfl
  | skip hs ih => rw [(hs.reachable.sound hfirst).situation_fastForward, ih]
  | @step s next told bus bus' record hs hstep ih =>
      have hsound := hs.reachable.sound hfirst
      obtain ⟨kinds, hsteps, hrecord⟩ := hsound.stepsTo_of_step hstep id
      have hahead := hsteps.ahead_eq (City.Sound.valid hsound id)
      rw [hs.reachable.setting.2.1] at hahead
      rw [List.filter_append, hrecord, List.map_append, Clock.map_kind_tell, List.append_assoc,
        hahead, ih]

/-- The word of its day is ahead of every agent at the start. -/
theorem Fresh.ahead_eq {config : Config} {g : Network} {agents : List Agent}
    (h : s.Fresh config g agents) {a : Agent} (ha : a ∈ agents) :
    (s.world.situation a.id).ahead g = a.itinerary.word g := by
  obtain ⟨activity, hactivity, hcurrent⟩ := h.newcomers.exists_activity ha
  rw [h.world_eq, h.newcomers.situation_atStart ha, Situation.ahead, Agent.dayAhead_eq hcurrent,
    (h.newcomers.atFirst a ha).2, Itinerary.word_eq_wordFrom hactivity]

/-- In every history of a simulation that was built, the events that were delivered of an agent are
the beginning of the word of its day, and they are all of it just when the agent is finished. -/
theorem told_isPrefix_word {periodSecs : Float} {positions : List Point} {drafts : List LinkDraft}
    {g : Network} {config : Config} {agents : List Agent} {partitioning? : Option Partitioning}
    (hg : Network.build periodSecs positions drafts = .ok g)
    (hfirst : build config g agents partitioning? = .ok first) (hs : first.History s told)
    {a : Agent} (ha : a ∈ agents) :
    ((told.filter fun e => e.agent = a.id).map (·.kind)).IsPrefix (a.itinerary.word g) ∧
      ((told.filter fun e => e.agent = a.id).map (·.kind) = a.itinerary.word g ↔
        ∃ b, s.agent? a.id = some b ∧ b.state = .finished) := by
  have hfresh := fresh_of_build (Network.numbered_of_build hg) hfirst
  have hsound := hs.reachable.sound hfresh.sound
  have hnetwork : s.network = g := hs.reachable.setting.2.1.trans hfresh.network_eq
  have hword := hs.ahead_eq hfresh.sound a.id
  rw [hfresh.network_eq, hfresh.ahead_eq ha] at hword
  have hvalid := City.Sound.valid hsound a.id
  rw [hnetwork] at hvalid
  have hpresent : s.world.situation a.id ≠ .absent := by
    rw [ne_eq, hs.reachable.situation_eq_absent_iff hfresh.sound, ← ne_eq,
      hfresh.situation_ne_absent_iff]
    exact List.mem_map_of_mem ha
  constructor
  · rw [← hword]
    exact List.prefix_append _ _
  · rw [hsound.agent?_eq]
    refine Iff.trans ?_ (Situation.ahead_eq_nil_iff hvalid hpresent)
    rw [← hword]
    exact List.self_eq_append_right

/-- A run through the hamlet tells the beginning of the word of every neighbour's day. -/
theorem told_isPrefix_word_hamlet : ∃ g split last report,
    Network.build Network.standardPeriodSecs Hamlet.places Hamlet.roads = .ok g ∧
      build (α := Rat) Hamlet.config g Hamlet.neighbours.reverse (some Hamlet.halves) =
        .ok split ∧
      split.run (Bus.new 1) false (fun _ => false) = (last, .ok report) ∧
      ∀ a ∈ Hamlet.neighbours.reverse, ((last.events.filter fun e => e.agent = a.id).map
        (·.kind)).IsPrefix (a.itinerary.word g) := by
  obtain ⟨g, first, split, hg, -, hsplit⟩ := Hamlet.exists_build
  have hsound := (fresh_of_build (Network.numbered_of_build hg) hsplit).sound
  have hbus : (Bus.new 1).UpTo split.now := fun last hlast => by cases hlast
  obtain ⟨last, report, hrun, -⟩ := hsound.run_ok hbus false fun _ => false
  have hhistory : split.History last.simulation last.events := History.start.run hrun
  exact ⟨g, split, last, report, hg, hsplit, hrun, fun a ha =>
    (told_isPrefix_word hg hsplit hhistory ha).1⟩

end Simulation

end Thoroughfare

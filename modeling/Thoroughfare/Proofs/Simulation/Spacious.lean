import Thoroughfare.Proofs.Simulation.Contention
import Thoroughfare.Proofs.Simulation.Punctuality
import Thoroughfare.Proofs.Simulation.Roads
import Thoroughfare.Proofs.Simulation.Statistics

/-!
# Roads with a place for everybody

When every link has a place for every agent, and no leg lists a link twice in a row, nobody is ever
refused: whoever has ended its activity departs in the same step, and there is nothing to warn
about, however little flows off the links.
-/

namespace Thoroughfare

/-- No leg of an itinerary lists a link twice in a row. -/
def Itinerary.Advances (t : Itinerary) : Prop :=
  ∀ leg ∈ t.legs, leg.route.IsChain (· ≠ ·)

/-- Nobody wants to enter the link on which it is. -/
theorem Agent.nextLink?_ne_currentLink? {g : Network} {a : Agent} {leg : Leg} {next : Activity}
    (h : a.OnLeg g leg next) (hstate : a.state = .enRoute) (hadvances : a.itinerary.Advances)
    {link : LinkId} (hlink : a.currentLink? = some link) : a.nextLink? ≠ some link := by
  intro hnext
  rw [Agent.currentLink?_of_onLeg h (Or.inr hstate)] at hlink
  rw [Agent.nextLink?_of_onLeg h hstate] at hnext
  obtain ⟨hlt, hsame⟩ := List.getElem?_eq_some_iff.1 hnext
  obtain ⟨hlt', hhere⟩ := List.getElem?_eq_some_iff.1 hlink
  have hchain := hadvances leg (Itinerary.mem_legs_of_leg? h.onLeg)
  exact List.isChain_iff_getElem.1 hchain a.routeIndex hlt (hhere.trans hsame.symm)

namespace Situation

variable {g : Network} {clock : Clock} {id : AgentId} {σ τ : Situation} {kinds : List EventKind}
  {link : LinkId}

theorem Valid.hasLink_of_wants? (h : σ.Valid g id) (hwants : σ.wants? = some link) :
    g.hasLink link = true := by
  cases σ with
  | waiting a refused =>
      obtain ⟨-, hstate, leg, next, hleg⟩ := h
      obtain ⟨first, hfirst, hknown⟩ := Agent.exists_currentLink_of_onLeg hleg (Or.inl hstate)
      cases hfirst.symm.trans hwants
      exact hknown
  | underWay a held? =>
      obtain ⟨-, hstate, ⟨leg, next, hleg⟩, -⟩ := h
      have hnext : a.nextLink? = some link := hwants
      rw [Agent.nextLink?_of_onLeg hleg hstate] at hnext
      exact hleg.known link (List.mem_of_getElem? hnext)
  | _ => cases hwants

/-- Whoever ends its activity by waking up waits to depart on its link. -/
theorem woken_of_activityEnd (hσ : σ.Valid g id) {tick : Tick}
    (hend : .activityEnd link ∈ σ.wakingKinds g tick) :
    ∃ a, σ.woken g tick = .waiting a false ∧ a.currentLink? = some link := by
  rcases woken_cases hσ tick with ⟨hnone, -, -⟩ | ⟨a, k, w, rfl, -, hawaken, -, hsome, hw, -, -⟩
  · rw [wakingKinds, hnone] at hend
    cases hend
  · rw [wakingKinds, hsome] at hend
    rw [hw]
    cases w with
    | leaves origin b =>
        obtain rfl : link = origin := by simpa [Awakening.kind] using hend
        exact ⟨b, rfl, currentLink?_of_leaves hσ hawaken⟩
    | finishes b => simp [Awakening.kind] at hend
    | stranded bad b => simp [Awakening.kind] at hend

/-- Whoever ends its activity in a step departs in it from the same link, or waits after it. -/
theorem StepsTo.departs_or_waits (h : σ.StepsTo g clock τ kinds) (hσ : σ.Valid g id)
    (hend : .activityEnd link ∈ kinds) : .departure link ∈ kinds ∨ τ.isWaiting = true := by
  obtain ⟨ruling?, hfits, rfl, rfl⟩ := h
  have hwaking : .activityEnd link ∈ σ.wakingKinds g clock.tick := by
    refine (List.mem_append.1 hend).resolve_right fun hlater => ?_
    cases ruling? with
    | none => simp at hlater
    | some ruling =>
        have hnone := List.countP_eq_zero.1 ((hfits ruling rfl).countP_isEnd clock)
        exact absurd rfl (hnone _ hlater)
  obtain ⟨a, hwoken, hcurrent⟩ := woken_of_activityEnd hσ hwaking
  rw [hwoken] at hfits ⊢
  cases ruling? with
  | none => exact Or.inr rfl
  | some ruling =>
      cases hfits ruling rfl with
      | depart _ seq hlink =>
          cases hcurrent.symm.trans hlink
          exact Or.inl (List.mem_append_right _ (List.mem_singleton_self _))
      | wait _ hlink => exact Or.inr rfl

end Situation

namespace Simulation

variable {α : Type} {s : Simulation α} {ids : List AgentId}

/-- Every link has a place for every agent, and no leg of a live agent lists a link twice in a
row. -/
structure Spacious (s : Simulation α) (ids : List AgentId) : Prop where
  roll : Roll s.world.situation ids
  room : ∀ link, s.network.hasLink link = true →
    ∃ q, s.queue? link = some q ∧ ids.length ≤ q.storage
  advances : ∀ id, s.world.situation id ≠ .absent →
    ∃ t before, (s.world.situation id).Follows t before ∧ t.Advances

/-- Nobody who is on a link wants to enter it. -/
theorem Spacious.wants?_ne (hspacious : s.Spacious ids) (h : s.Sound) {id : AgentId} {a : Agent}
    {held? : Option LinkId} {link : LinkId} (hunderWay : s.world.situation id = .underWay a held?)
    (hlink : a.currentLink? = some link) : a.nextLink? ≠ some link := by
  have hvalid : (s.world.situation id).Valid s.network id := City.Sound.valid h id
  obtain ⟨t, before, hfollows, hadvances⟩ :=
    hspacious.advances id (by rw [hunderWay]; exact Situation.noConfusion)
  rw [hunderWay] at hvalid hfollows
  obtain ⟨-, hstate, ⟨leg, next, hleg⟩, -⟩ := hvalid
  obtain ⟨hitinerary, -⟩ := hfollows a rfl
  exact Agent.nextLink?_ne_currentLink? hleg hstate (hitinerary ▸ hadvances) hlink

variable [Quantity α] {begun : List (District α)} {t : Traffic α}

/-- No step refuses anybody a place on a spacious road. -/
theorem Turn.refusals_eq_nil (ht : s.Turn begun t) (h : s.Sound) (hspacious : s.Spacious ids) :
    t.resolution.refusals = [] := by
  rw [List.eq_nil_iff_forall_not_mem, ht.resolution_eq]
  intro refusal hrefusal
  obtain ⟨ruling, hanswer, htarget, -⟩ := Resolution.exists_answer_of_mem_refusals hrefusal
  have hvalid : (City.situation begun refusal.agent).Valid s.network refusal.agent :=
    City.Sound.valid ht.begun_sound refusal.agent
  obtain ⟨q, hq, hroom⟩ := hspacious.room _
    (hvalid.hasLink_of_wants? (ht.begun_sound.wants?_of_answer hanswer htarget))
  have hbegun : queueIn? s.partitioning begun refusal.target = some q.beginStep := by
    refine (ht.queue?_begun refusal.target).trans ?_
    rw [hq, Option.map_some]
  refine ht.begun_sound.not_mem_refusals (ht.roll_begun h hspacious.roll).mem hbegun rfl hroom
    (fun id hid => ?_) hrefusal
  obtain ⟨d, hd, hlinks⟩ := ht.begun_sound.queueIn?_eq_some_iff.1 hbegun
  obtain ⟨a, held?, hunderWay, hlink, -⟩ := (ht.begun_sound.each d hd).exists_underWay hlinks hid
  rw [← ht.begun_sound.situation_of_queued hd hlinks hid] at hunderWay
  rw [hunderWay]
  -- Whoever is under way when the step has begun was so before, since nobody wakes up on a link.
  rw [ht.situation_begun] at hunderWay
  exact hspacious.wants?_ne h ((Situation.woken_eq_underWay_iff (City.Sound.valid h id)).1 hunderWay)
    hlink

end Simulation

/-! ## What is recorded -/

/-- Whether a step refuses nobody, and whoever ends its activity in it departs at once. -/
structure StepRecord.Unhindered (record : StepRecord) : Prop where
  blockedLinks : record.stats.blockedLinks = 0
  blockedDepartures : record.stats.blockedDepartures = 0
  departs : ∀ time id link, ⟨time, id, .activityEnd link⟩ ∈ record.events →
    ⟨time, id, .departure link⟩ ∈ record.events

theorem Resolution.blocked_of_refusals_eq_nil {r : Resolution} (h : r.refusals = []) :
    r.blockedLinks = 0 ∧ r.blockedDepartures = 0 ∧ ∀ time, r.warnings time = [] := by
  refine ⟨List.countP_eq_zero.2 fun entry hentry hsome => ?_,
    List.countP_eq_zero.2 fun entry hentry hnone => ?_, fun time => by rw [warnings_eq, h]; rfl⟩
  · obtain ⟨refusal, hrefusal⟩ := Option.isSome_iff_exists.1 hsome
    exact List.eq_nil_iff_forall_not_mem.1 h _
      (mem_refusals_iff.2 (Or.inl ⟨entry, hentry, hrefusal⟩))
  · exact List.eq_nil_iff_forall_not_mem.1 h _
      (mem_refusals_iff.2 (Or.inr ⟨entry, hentry, Option.isNone_iff_eq_none.1 hnone, rfl⟩))

namespace Simulation

variable {α : Type} [Quantity α] {first s : Simulation α} {ids : List AgentId}
  {begun : List (District α)} {t : Traffic α}

/-- Nobody waits after a step that refused nobody. -/
theorem Turn.not_isWaiting (ht : s.Turn begun t) (htraffic : s.traffic = .ok t) (h : s.Sound)
    (hroll : Roll s.world.situation ids) (hnone : t.resolution.blockedDepartures = 0)
    (id : AgentId) : (City.situation t.districts id).isWaiting = false := by
  have hdeparting := (ht.reconciles htraffic h hroll).blockedDepartures
  have hcount : t.resolution.blockedDepartures =
      ids.countP fun id => (City.situation t.districts id).isWaiting :=
    hdeparting.trans (City.Sound.sum_departing_eq_countP ht.sound (ht.roll h hroll))
  rw [hnone, eq_comm, List.countP_eq_zero] at hcount
  by_cases hpresent : City.situation t.districts id = .absent
  · rw [hpresent]
    rfl
  · exact Bool.eq_false_iff.2 (hcount id ((ht.roll h hroll).mem id hpresent))

/-- No step on spacious roads hinders anybody. -/
theorem Sound.unhindered_of_step (h : s.Sound) (hspacious : s.Spacious ids) {next : Simulation α}
    {bus bus' : Bus} {record : StepRecord} (hstep : s.step bus = (next, .ok (record, bus'))) :
    record.Unhindered ∧ next.warnings = s.warnings := by
  obtain ⟨t, begun, htraffic, ht, rfl, rfl⟩ := h.turn_of_step hstep
  obtain ⟨hlinks, hdepartures, hwarnings⟩ :=
    Resolution.blocked_of_refusals_eq_nil (ht.refusals_eq_nil h hspacious)
  refine ⟨⟨hlinks, hdepartures, fun time id link hend => ?_⟩, ?_⟩
  · have htold : ∀ kind, ⟨time, id, kind⟩ ∈ Event.merge t.batches ↔
        ⟨time, id, kind⟩ ∈ s.clock.tell id
          (s.world.stepKinds s.network s.clock t.resolution id) := by
      intro kind
      rw [← ht.filter_merge h, List.mem_filter]
      simp
    have hwaits := ht.not_isWaiting htraffic h hspacious.roll hdepartures id
    rw [htold, Clock.tell, List.mem_map] at hend ⊢
    obtain ⟨kind, hkind, hsame⟩ := hend
    cases hsame
    rcases (ht.stepsTo id).departs_or_waits (City.Sound.valid h id) hkind with hdeparts | hwaiting
    · exact ⟨_, hdeparts, rfl⟩
    · exact Bool.noConfusion (hwaits.symm.trans hwaiting)
  · simp [afterStep, hwarnings]

variable {config : Config} {g : Network} {agents : List Agent} {records : List StepRecord}

theorem Fresh.spacious (h : first.Fresh config g agents) (hg : g.Numbered)
    (hroom : ∀ l ∈ g.links.toList, agents.length ≤ LinkQueue.storageOf l config)
    (hadvances : ∀ a ∈ agents, a.itinerary.Advances) {told : List Event}
    (hs : first.History s told) : s.Spacious (agents.map (·.id)) := by
  have hroll := h.roll hs.reachable
  refine ⟨hroll, fun link hlink => ?_, fun id hpresent => ?_⟩
  · rw [hs.reachable.setting.2.1, h.network_eq, Network.hasLink_iff] at hlink
    obtain ⟨l, hl⟩ := hlink
    obtain ⟨q, hq, hcleared⟩ := h.exists_queue hs.reachable hl
    have hstorage : q.storage = LinkQueue.storageOf l config :=
      congrArg LinkQueue.storage hcleared
    refine ⟨q, hq, ?_⟩
    rw [List.length_map, hstorage]
    exact hroom l (hg.link?_eq_some_iff.1 hl).1
  · obtain ⟨a, ha, rfl⟩ := List.mem_map.1 (hroll.mem id hpresent)
    exact ⟨_, _, (hs.onTime h ha).follows, hadvances a ha⟩

/-- Nothing hinders anybody on spacious roads, and there is nothing to warn about. -/
theorem Recorded.unhindered (hs : first.Recorded s records) (h : first.Fresh config g agents)
    (hg : g.Numbered)
    (hroom : ∀ l ∈ g.links.toList, agents.length ≤ LinkQueue.storageOf l config)
    (hadvances : ∀ a ∈ agents, a.itinerary.Advances) :
    (∀ record ∈ records, record.Unhindered) ∧ s.warnings = #[] := by
  induction hs with
  | start => exact ⟨nofun, h.warnings_eq⟩
  | skip _ ih => exact ⟨ih.1, (warnings_fastForward _).trans ih.2⟩
  | @step s next records bus bus' record hs hstep ih =>
      obtain ⟨hrecord, hwarnings⟩ := (hs.reachable.sound h.sound).unhindered_of_step
        (h.spacious hg hroom hadvances hs.history) hstep
      refine ⟨fun other hother => ?_, hwarnings.trans ih.2⟩
      rcases List.mem_append.1 hother with hearlier | hlast
      · exact ih.1 other hearlier
      · rw [List.mem_singleton.1 hlast]
        exact hrecord

/-- When every link has a place for every agent, and no leg lists a link twice in a row, no step
refuses a move or a departure, whoever ends its activity departs in the same step, and nothing is
warned about. -/
theorem spacious_roads_refuse_nobody {periodSecs : Float} {positions : List Point}
    {drafts : List LinkDraft} {partitioning? : Option Partitioning}
    (hg : Network.build periodSecs positions drafts = .ok g)
    (hfirst : build config g agents partitioning? = .ok first)
    (hroom : ∀ l ∈ g.links.toList, agents.length ≤ LinkQueue.storageOf l config)
    (hadvances : ∀ a ∈ agents, ∀ leg ∈ a.itinerary.legs, leg.route.IsChain (· ≠ ·))
    (hs : first.Recorded s records) {bus : Bus} {cancelled : Bool}
    {cancelAfter : StepStats → Bool} {last : Run α} {report : Report}
    (hrun : s.run bus cancelled cancelAfter = (last, .ok report)) :
    (∀ record ∈ records ++ last.records.toList, record.Unhindered) ∧ report.warnings = [] := by
  have hnumbered := Network.numbered_of_build hg
  obtain ⟨hlast, reason, rfl⟩ := hs.run hrun
  obtain ⟨hall, hwarnings⟩ :=
    hlast.unhindered (fresh_of_build hnumbered hfirst) hnumbered hroom hadvances
  exact ⟨hall, congrArg Array.toList hwarnings⟩

end Simulation

/-- The roads of the hamlet, when each has room for both neighbours. -/
def Hamlet.wideRoads : List LinkDraft :=
  roads.map fun road => { road with storage := some 2.0 }

namespace Simulation

/-- On wide roads nobody in the hamlet is hindered, although only one can leave a road in a
second. -/
theorem spacious_roads_refuse_nobody_hamlet : ∃ g split last report,
    Network.build Network.standardPeriodSecs Hamlet.places Hamlet.wideRoads = .ok g ∧
      build (α := Rat) Hamlet.config g Hamlet.neighbours.reverse (some Hamlet.halves) =
        .ok split ∧
      split.run (Bus.new 1) false (fun _ => false) = (last, .ok report) ∧
      (∀ record ∈ last.records.toList, record.Unhindered) ∧ report.warnings = [] := by
  obtain ⟨g, hg, hsplit, hroom⟩ : ∃ g,
      Network.build Network.standardPeriodSecs Hamlet.places Hamlet.wideRoads = .ok g ∧
        (build (α := Rat) Hamlet.config g Hamlet.neighbours.reverse
          (some Hamlet.halves)).isOk = true ∧
        ∀ l ∈ g.links.toList, 2 ≤ LinkQueue.storageOf l Hamlet.config :=
    ⟨_, rfl, by decide +kernel, by decide +kernel⟩
  obtain ⟨split, hsplit⟩ := Hamlet.exists_ok hsplit
  have hbus : (Bus.new 1).UpTo split.now := fun last hlast => by cases hlast
  have hsound := (fresh_of_build (Network.numbered_of_build hg) hsplit).sound
  obtain ⟨last, report, hrun, -⟩ := hsound.run_ok hbus false fun _ => false
  have hadvances : ∀ a ∈ Hamlet.neighbours.reverse, ∀ leg ∈ a.itinerary.legs,
      leg.route.IsChain (· ≠ ·) := by
    decide
  obtain ⟨hall, hwarnings⟩ := spacious_roads_refuse_nobody hg hsplit hroom hadvances .start hrun
  exact ⟨g, split, last, report, hg, hsplit, hrun, hall, hwarnings⟩

end Simulation

end Thoroughfare

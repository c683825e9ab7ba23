import Mathlib.Data.Prod.Lex
import Thoroughfare.Proofs.Simulation.Steps

/-!
# Who passes a link in a step

Every agent that enters or leaves a link is told of by one event.  So the events of a step say for
each link who left it and who entered it.  Those who leave stand at the front of its queue, and
those who enter stand behind all others afterwards, in the order of the decisions: whoever comes
from another link before whoever departs, the former by the link they come from and by their place
there, the latter by their numbers.
-/

namespace Thoroughfare

namespace EventKind

/-- The link that an agent enters. -/
def entered? : EventKind → Option LinkId
  | departure link => some link
  | linkEnter _ link => some link
  | _ => none

/-- The link that an agent leaves, for the next one or for good. -/
def vacated? : EventKind → Option LinkId
  | linkEnter left _ => some left
  | arrival link => some link
  | _ => none

end EventKind

/-- What is told of an agent on its way into a link. -/
def Transfer.kind (t : Transfer) : EventKind :=
  match t.source? with
  | some left => .linkEnter left t.target
  | none => .departure t.target

theorem Transfer.entered?_kind (t : Transfer) : t.kind.entered? = some t.target := by
  unfold kind
  split <;> rfl

/-- What is told of an agent that enters a link. -/
def Transfer.event (now : Nat) (t : Transfer) : Event :=
  ⟨now, t.agent.id, t.kind⟩

/-- What is told of an agent that is granted to leave a link. -/
def Grant.event (now : Nat) (link : LinkId) (grant : Grant) : Event :=
  match grant with
  | move agent target _ => ⟨now, agent, .linkEnter link target⟩
  | arrive agent => ⟨now, agent, .arrival link⟩

theorem Grant.agent_event (now : Nat) (link : LinkId) (grant : Grant) :
    (grant.event now link).agent = grant.agent := by
  cases grant <;> rfl

/-- What is told of an agent that leaves a link by a ruling. -/
def Ruling.kindOn? (link : LinkId) : Ruling → Option EventKind
  | arrive => some (.arrival link)
  | move target _ => some (.linkEnter link target)
  | _ => none

namespace Situation

variable {g : Network} {clock : Clock} {id : AgentId} {σ : Situation} {ruling : Ruling}
  {link : LinkId}

/-- Nobody enters or leaves a link by waking up. -/
theorem wakingKinds_stay (σ : Situation) (g : Network) (tick : Tick) :
    ∀ kind ∈ σ.wakingKinds g tick, kind.entered? = none ∧ kind.vacated? = none := by
  intro kind hkind
  obtain ⟨w, -, rfl⟩ := List.mem_map.1 hkind
  cases w <;> exact ⟨rfl, rfl⟩

/-- Whoever enters a link by a ruling is transferred. -/
theorem Fits.filter_entered (h : σ.Fits ruling) (hσ : σ.Valid g id) :
    (σ.outcome clock (some ruling)).kinds.filter (fun kind => kind.entered?.isSome) =
      (σ.outcome clock (some ruling)).transfer?.toList.map Transfer.kind := by
  cases h with
  | arrive held? hnext =>
      rename_i a
      simp only [outcome]
      cases a.currentLink? with
      | none => rfl
      | some link =>
          simp only [Option.toList_some, List.flatMap_singleton, Agent.landingKinds]
          split <;> rfl
  | move held? seq hnext =>
      obtain ⟨-, hstate, ⟨leg, next, hleg⟩, -⟩ := hσ
      obtain ⟨left, hleft, -⟩ := Agent.advanceLink_eq hleg hstate hnext
      simp only [outcome, hleft]
      rfl
  | hold held? hnext => rfl
  | depart refused seq hlink => rfl
  | wait refused hlink => rfl

/-- Whoever leaves a link by a ruling leaves the one on which it is. -/
theorem Fits.filter_vacated (h : σ.Fits ruling) (hlink : σ.link? = some link) :
    (σ.outcome clock (some ruling)).kinds.filter (fun kind => kind.vacated?.isSome) =
      (ruling.kindOn? link).toList := by
  cases h with
  | arrive held? hnext =>
      rename_i a
      have hcurrent : a.currentLink? = some link := hlink
      simp only [outcome, hcurrent, Option.toList_some, List.flatMap_singleton, Agent.landingKinds]
      split <;> rfl
  | move held? seq hnext =>
      rename_i a target
      have hcurrent : a.currentLink? = some link := hlink
      simp only [outcome, hcurrent]
      rfl
  | hold held? hnext => rfl
  | depart refused seq hlink => rfl
  | wait refused hlink => rfl

end Situation

theorem Ruling.filter_kindOn? (ruling : Ruling) (link other : LinkId) :
    (ruling.kindOn? link).toList.filter (fun kind => kind.vacated? = some other) =
      if link = other then (ruling.kindOn? link).toList else [] := by
  cases ruling <;> simp [kindOn?, EventKind.vacated?, List.filter_cons]

theorem Grant.tell_kindOn? (clock : Clock) (link : LinkId) (grant : Grant) :
    clock.tell grant.agent (grant.ruling.kindOn? link).toList =
      [grant.event clock.now link] := by
  cases grant <;> rfl

theorem Clock.filter_tell (clock : Clock) (id : AgentId) (kinds : List EventKind)
    (p : EventKind → Bool) :
    (clock.tell id kinds).filter (fun e => p e.kind) = clock.tell id (kinds.filter p) :=
  List.filter_map

theorem filter_eq_some {β γ : Type} [DecidableEq γ] (pick : β → Option γ) (c : γ) (l : List β) :
    l.filter (fun b => pick b = some c) =
      (l.filter fun b => (pick b).isSome).filter fun b => pick b = some c := by
  rw [List.filter_filter]
  apply List.filter_congr
  intro b _
  cases pick b <;> simp

/-! ## Those who leave a link -/

/-- What is told of those who leave a link by a decision. -/
def LinkVerdict.leavings (now : Nat) (link : LinkId) (v? : Option LinkVerdict) : List Event :=
  (v?.elim [] LinkVerdict.grants).map (Grant.event now link)

namespace City

variable {α : Type} [Quantity α] {g : Network} {p : Partitioning} {clock : Clock}
  {districts : List (District α)} {id : AgentId} {link other : LinkId} {v : LinkVerdict}

namespace Sound

/-- On a link those are told of that are granted to leave it, and on no other link. -/
theorem flatMap_leavings (h : Sound g p (clock.tick + 1) districts)
    (hv : (link, v) ∈ (resolution p districts clock.now).links) :
    (v.rulings.flatMap fun entry => (clock.tell entry.1
        ((situation districts entry.1).outcome clock (some entry.2)).kinds).filter
          fun e => e.kind.vacated? = some other) =
      if link = other then v.grants.map (Grant.event clock.now link) else [] := by
  have heach : ∀ entry ∈ v.rulings, ((clock.tell entry.1
      ((situation districts entry.1).outcome clock (some entry.2)).kinds).filter
        fun e => e.kind.vacated? = some other) =
      if link = other then clock.tell entry.1 (entry.2.kindOn? link).toList else [] := by
    intro entry hentry
    obtain ⟨a, held?, hsituation, hlink⟩ := h.underWay_of_ruling hv hentry
    have hthere : (situation districts entry.1).link? = some link := by
      rw [hsituation]
      exact hlink
    have hfits := h.fits_of_ruling
      (List.mem_append_left _ (List.mem_flatMap.2 ⟨(link, v), hv, hentry⟩))
    rw [clock.filter_tell entry.1 _ fun kind => kind.vacated? = some other, filter_eq_some,
      hfits.filter_vacated hthere, Ruling.filter_kindOn?]
    split <;> rfl
  rw [List.flatMap_congr heach]
  split
  · have hrefused : ((LinkVerdict.refusalRulings v.refusal?).flatMap fun entry =>
        clock.tell entry.1 (entry.2.kindOn? link).toList) = [] := by
      cases v.refusal? <;> rfl
    rw [LinkVerdict.rulings_eq, List.flatMap_append, hrefused, List.append_nil,
      LinkVerdict.grantRulings, List.flatMap_map, List.map_eq_flatMap]
    exact List.flatMap_congr fun grant _ => grant.tell_kindOn? clock link
  · exact List.flatMap_eq_nil_iff.2 fun _ _ => rfl

/-- Nobody leaves a link by departing. -/
theorem filter_vacated_departure (h : Sound g p (clock.tick + 1) districts)
    {entry : AgentId × DepartureVerdict}
    (hentry : entry ∈ (resolution p districts clock.now).verdicts.departures) :
    ((clock.tell entry.1 ((situation districts entry.1).outcome clock
        (some entry.2.ruling)).kinds).filter fun e => e.kind.vacated? = some link) = [] := by
  obtain ⟨a, refused, hwaiting⟩ := h.waiting_of_departure hentry
  have hthere := (h.valid entry.1)
  rw [hwaiting] at hthere ⊢
  unfold DepartureVerdict.ruling
  cases entry.2.seq? <;> rfl

/-- What the decisions tell of those who leave a link. -/
theorem filter_vacated (h : Sound g p (clock.tick + 1) districts) (link : LinkId) :
    ((effectsOf clock (situation districts)
        (resolution p districts clock.now).rulings).events.filter
          fun e => e.kind.vacated? = some link) =
      LinkVerdict.leavings clock.now link
        (resolution p districts clock.now).verdicts.links[link]? := by
  have hdepartures : ((Verdicts.departureRulings
      (resolution p districts clock.now).verdicts.departures).flatMap fun entry =>
        (clock.tell entry.1 ((situation districts entry.1).outcome clock
          (some entry.2)).kinds).filter fun e => e.kind.vacated? = some link) = [] := by
    rw [Verdicts.departureRulings, List.flatMap_map, List.flatMap_eq_nil_iff]
    exact fun entry hentry => h.filter_vacated_departure hentry
  have heach : ∀ entry ∈ (resolution p districts clock.now).links,
      (entry.2.rulings.flatMap fun told => (clock.tell told.1
        ((situation districts told.1).outcome clock (some told.2)).kinds).filter
          fun e => e.kind.vacated? = some link) =
        if entry.1 = link then entry.2.grants.map (Grant.event clock.now entry.1) else [] :=
    fun entry hentry => h.flatMap_leavings hentry
  simp only [effectsOf, Effects.join, List.flatMap_map, List.filter_flatMap, Outcome.effects]
  rw [Resolution.rulings, List.flatMap_append, hdepartures, List.append_nil, List.flatMap_assoc,
    List.flatMap_congr heach]
  cases hverdict : (resolution p districts clock.now).verdicts.links[link]? with
  | none =>
      refine List.flatMap_eq_nil_iff.2 fun entry hentry => ?_
      rw [if_neg]
      rintro rfl
      rw [h.verdict_eq_some_iff.2 hentry] at hverdict
      cases hverdict
  | some v =>
      have hmem := h.verdict_eq_some_iff.1 hverdict
      rw [flatMap_eq_of_forall_ne h.nodup_decided_links.of_map hmem, if_pos rfl]
      · rfl
      · intro other hother hne
        rw [if_neg]
        intro hsame
        exact hne (List.inj_on_of_nodup_map h.nodup_decided_links hother hmem hsame)

/-- What the decisions tell of those who enter a link. -/
theorem filter_entered (h : Sound g p (clock.tick + 1) districts) (link : LinkId) :
    ((effectsOf clock (situation districts)
        (resolution p districts clock.now).rulings).events.filter
          fun e => e.kind.entered? = some link) =
      ((world p districts).entrants clock (resolution p districts clock.now) link).map
        (Transfer.event clock.now) := by
  simp only [effectsOf, Effects.join, List.flatMap_map, List.filter_flatMap, Outcome.effects,
    World.entrants, World.transfers, world]
  rw [List.filter_filterMap, List.map_filterMap, List.filterMap_eq_flatMap_toList]
  apply List.flatMap_congr
  intro entry hentry
  have hfits := h.fits_of_ruling hentry
  rw [clock.filter_tell entry.1 _ fun kind => kind.entered? = some link, filter_eq_some,
    hfits.filter_entered (h.valid entry.1)]
  cases htransfer : ((situation districts entry.1).outcome clock (some entry.2)).transfer? with
  | none => rfl
  | some t =>
      have hid := (h.passage_of_transfer hentry htransfer).1
      by_cases htarget : t.target = link
      · simp [htarget, Transfer.entered?_kind, Clock.tell, Transfer.event, hid, Option.filter]
      · simp [htarget, Transfer.entered?_kind, Clock.tell]

end Sound

end City

/-! ## The order of the decisions -/

namespace World

variable {α : Type} [Quantity α]

/-- The agents on a link, from the front; nobody is on an unknown one. -/
def standing (w : World α) (link : LinkId) : List QueuedAgent :=
  (w.queue? link).elim [] LinkQueue.entries

/-- The place of an agent on a link. -/
def place (w : World α) (link : LinkId) (id : AgentId) : Nat :=
  ((w.standing link).map (·.agent)).idxOf id

/-- The place of those who enter a link in the order of the decisions: whoever comes from another
link before whoever departs, the former by the link they come from and by their place there, the
latter by their numbers. -/
def turn (w : World α) (e : Event) : Nat ×ₗ Nat ×ₗ Nat :=
  match e.kind with
  | .linkEnter left _ => toLex (0, toLex (left.index, w.place left e.agent))
  | _ => toLex (1, toLex (e.agent.index, 0))

/-- Nobody moves when a step begins. -/
theorem standing_begun (w : World α) (g : Network) (clock : Clock) :
    (w.begun g clock).standing = w.standing := by
  funext link
  simp only [standing, begun]
  cases w.queue? link <;> rfl

theorem place_begun (w : World α) (g : Network) (clock : Clock) :
    (w.begun g clock).place = w.place := by
  funext link id
  simp only [place, standing_begun]

theorem turn_begun (w : World α) (g : Network) (clock : Clock) :
    (w.begun g clock).turn = w.turn := by
  funext e
  simp only [turn, place_begun]

end World

namespace City.Sound

variable {α : Type} [Quantity α] {g : Network} {p : Partitioning} {clock : Clock}
  {districts : List (District α)} {id : AgentId} {link other : LinkId} {v : LinkVerdict}

/-- The decision on a link concerns those at the front of its queue. -/
theorem exists_queue_of_decision (h : Sound g p (clock.tick + 1) districts)
    (hv : (link, v) ∈ (resolution p districts clock.now).links) :
    ∃ q, (world p districts).queue? link = some q ∧ q.agentIds.Nodup ∧
      v.Executable clock.now (situation districts) q ∧ v.rulings.map (·.1) <+: q.agentIds := by
  obtain ⟨d, hd, q, hq, -, hanswers⟩ := exists_queue_of_verdict hv
  obtain ⟨hexecutable, hfront, -⟩ := (h.each d hd).executable_of_verdict (h.concern hd) hq
    (h.verdict_eq_some_iff.2 hv)
  refine ⟨q, h.queueIn?_of_mem hd hq, (h.each d hd).single link q hq, hexecutable.congr ?_, hfront⟩
  intro entry hentry
  exact h.situation_of_queued hd hq (District.mem_agentIds_of_ruling hanswers hentry)

/-- Whoever leaves a link leaves it in the order of its queue. -/
theorem pairwise_place_leavings (h : Sound g p (clock.tick + 1) districts) (link : LinkId) :
    (LinkVerdict.leavings clock.now link
        (resolution p districts clock.now).verdicts.links[link]?).Pairwise fun a b =>
      (world p districts).place link a.agent < (world p districts).place link b.agent := by
  cases hverdict : (resolution p districts clock.now).verdicts.links[link]? with
  | none => exact List.Pairwise.nil
  | some v =>
      obtain ⟨q, hq, hnodup, -, hfront⟩ :=
        h.exists_queue_of_decision (h.verdict_eq_some_iff.1 hverdict)
      have hgrants : v.grants.map Grant.agent <+: q.agentIds := by
        refine List.IsPrefix.trans ?_ hfront
        rw [LinkVerdict.rulings_eq, List.map_append, LinkVerdict.grantRulings, List.map_map]
        exact List.prefix_append _ _
      have hplaces := pairwise_idxOf_of_isPrefix hnodup hgrants
      rw [List.pairwise_map] at hplaces
      rw [LinkVerdict.leavings, List.pairwise_map]
      refine hplaces.imp fun hlt => ?_
      simpa [World.place, World.standing, hq, Grant.agent_event, LinkQueue.agentIds] using hlt

/-- Whoever enters a link from another one comes from the link on which it was told to move. -/
theorem turn_of_ruling (h : Sound g p (clock.tick + 1) districts)
    (hv : (link, v) ∈ (resolution p districts clock.now).links) {entry : AgentId × Ruling}
    (hentry : entry ∈ v.rulings) {t : Transfer}
    (ht : ((situation districts entry.1).outcome clock (some entry.2)).transfer? = some t) :
    (world p districts).turn (t.event clock.now) =
      toLex (0, toLex (link.index, (world p districts).place link entry.1)) := by
  obtain ⟨a, held?, hsituation, hlink⟩ := h.underWay_of_ruling hv hentry
  have hid := (h.passage_of_transfer
    (List.mem_append_left _ (List.mem_flatMap.2 ⟨(link, v), hv, hentry⟩)) ht).1
  have hsource : t.source? = some link := by
    rw [hsituation] at ht
    cases hruling : entry.2 with
    | move target seq? =>
        rw [hruling] at ht
        cases seq? with
        | none => cases ht
        | some seq =>
            cases ht
            exact hlink
    | _ =>
        rw [hruling] at ht
        cases ht
  simp [World.turn, Transfer.event, Transfer.kind, hsource, hid]

/-- Whoever departs comes from no link. -/
theorem turn_of_departure (h : Sound g p (clock.tick + 1) districts)
    {entry : AgentId × DepartureVerdict}
    (hentry : entry ∈ (resolution p districts clock.now).verdicts.departures) {t : Transfer}
    (ht : ((situation districts entry.1).outcome clock (some entry.2.ruling)).transfer? = some t) :
    (world p districts).turn (t.event clock.now) = toLex (1, toLex (entry.1.index, 0)) := by
  obtain ⟨a, refused, hwaiting⟩ := h.waiting_of_departure hentry
  have hruling : (entry.1, entry.2.ruling) ∈ (resolution p districts clock.now).rulings :=
    List.mem_append_right _ (List.mem_map_of_mem hentry)
  have hid := (h.passage_of_transfer hruling ht).1
  have hsource : t.source? = none := by
    rw [hwaiting, DepartureVerdict.ruling] at ht
    cases hseq : entry.2.seq? with
    | none =>
        rw [hseq] at ht
        cases ht
    | some seq =>
        rw [hseq] at ht
        cases ht
        rfl
  simp [World.turn, Transfer.event, Transfer.kind, hsource, hid]

/-- The transfers come in the order of the decisions. -/
theorem pairwise_turn_transfers (h : Sound g p (clock.tick + 1) districts) :
    ((world p districts).transfers clock (resolution p districts clock.now)).Pairwise fun t u =>
      (world p districts).turn (t.event clock.now) <
        (world p districts).turn (u.event clock.now) := by
  rw [World.transfers, List.pairwise_filterMap, Resolution.rulings, List.pairwise_append,
    List.pairwise_flatMap]
  refine ⟨⟨?_, ?_⟩, ?_, ?_⟩
  · -- those of one link come in the order of its queue
    rintro ⟨link, v⟩ hv
    obtain ⟨q, hq, hnodup, -, hfront⟩ := h.exists_queue_of_decision hv
    have hplaces := List.pairwise_map.1 (pairwise_idxOf_of_isPrefix hnodup hfront)
    refine hplaces.imp_of_mem fun {a b} ha hb hlt t ht u hu => ?_
    rw [h.turn_of_ruling hv ha ht, h.turn_of_ruling hv hb hu]
    refine Prod.Lex.toLex_lt_toLex.2 (Or.inr ⟨rfl, Prod.Lex.toLex_lt_toLex.2 (Or.inr ⟨rfl, ?_⟩)⟩)
    simpa [World.place, World.standing, hq, LinkQueue.agentIds] using hlt
  · refine (List.pairwise_map.1 h.ascending_links).imp_of_mem
      fun {first second} hv hw hlt a ha b hb t ht u hu => ?_
    rw [h.turn_of_ruling hv ha ht, h.turn_of_ruling hw hb hu]
    exact Prod.Lex.toLex_lt_toLex.2 (Or.inr ⟨rfl, Prod.Lex.toLex_lt_toLex.2 (Or.inl hlt)⟩)
  · rw [Verdicts.departureRulings, List.pairwise_map]
    refine (List.pairwise_map.1 h.ascending_departures).imp_of_mem
      fun {a b} ha hb hlt t ht u hu => ?_
    rw [h.turn_of_departure ha ht, h.turn_of_departure hb hu]
    exact Prod.Lex.toLex_lt_toLex.2 (Or.inr ⟨rfl, Prod.Lex.toLex_lt_toLex.2 (Or.inl hlt)⟩)
  · intro a ha b hb t ht u hu
    obtain ⟨⟨link, v⟩, hv, hruling⟩ := List.mem_flatMap.1 ha
    obtain ⟨departure, hdeparture, rfl⟩ := List.mem_map.1 hb
    rw [h.turn_of_ruling hv hruling ht, h.turn_of_departure hdeparture hu]
    exact Prod.Lex.toLex_lt_toLex.2 (Or.inl Nat.zero_lt_one)

end City.Sound

/-! ## The law of a queue -/

/-- A step that was processed: the simulation before it and the events that it delivered. -/
structure Stage (α : Type) where
  before : Simulation α
  events : List Event

namespace Stage

variable {α : Type} [Quantity α]

/-- What a step tells of those who leave a link, in the order in which they stood there. -/
def exits (stage : Stage α) (link : LinkId) : List Event :=
  (stage.events.filter fun e => e.kind.vacated? = some link).mergeSort fun a b =>
    stage.before.world.place link a.agent ≤ stage.before.world.place link b.agent

/-- What a step tells of those who enter a link, in the order of the decisions. -/
def entrances (stage : Stage α) (link : LinkId) : List Event :=
  (stage.events.filter fun e => e.kind.entered? = some link).mergeSort fun a b =>
    stage.before.world.turn a ≤ stage.before.world.turn b

end Stage

namespace Simulation.Turn

variable {α : Type} [Quantity α] {s : Simulation α} {begun : List (District α)} {t : Traffic α}

theorem sound_begun (ht : s.Turn begun t) :
    City.Sound s.network s.partitioning (s.clock.tick + 1) begun :=
  ht.begun_sound

/-- What a step tells of those who enter or leave links comes of its decisions. -/
theorem perm_passing (ht : s.Turn begun t) (h : s.Sound) (pick : EventKind → Bool)
    (hpick : ∀ kind : EventKind, kind.entered? = none → kind.vacated? = none → pick kind = false) :
    ((Event.merge t.batches).filter fun e => pick e.kind).Perm
      ((effectsOf s.clock (City.situation begun) t.resolution.rulings).events.filter
        fun e => pick e.kind) := by
  -- The batches are merged by agents, the decisions come by links: only what concerns one agent is
  -- in the same order in both.
  suffices hsame : ∀ id : AgentId,
      ((Event.merge t.batches).filter fun e => pick e.kind).filter (fun e => e.agent = id) =
        ((effectsOf s.clock (City.situation begun) t.resolution.rulings).events.filter
          fun e => pick e.kind).filter fun e => e.agent = id from perm_of_filter_key hsame
  intro id
  have hwaking : ((s.world.situation id).wakingKinds s.network s.clock.tick).filter pick = [] := by
    rw [List.filter_eq_nil_iff]
    intro kind hkind
    obtain ⟨hentered, hvacated⟩ := Situation.wakingKinds_stay _ _ _ kind hkind
    simp [hpick kind hentered hvacated]
  have hnodup : (t.resolution.rulings.map (·.1)).Nodup := by
    rw [ht.resolution_eq]
    exact ht.begun_sound.nodup_rulings
  have hsituation : (s.world.begun s.network s.clock).situation id = City.situation begun id :=
    (congrFun (congrArg World.situation ht.begun_world) id).symm
  have hmerged := s.clock.filter_tell id (s.world.stepKinds s.network s.clock t.resolution id) pick
  have hdecided := s.clock.filter_tell id ((City.situation begun id).outcome s.clock
    (t.resolution.rulings.lookup id)).kinds pick
  rw [List.filter_comm, ht.filter_merge h, hmerged,
    List.filter_comm (fun e : Event => e.agent = id), filter_events_effectsOf hnodup, hdecided,
    World.stepKinds, List.filter_append, hwaking, List.nil_append, World.outcome, hsituation]

/-- Those who leave a link in a step are those who are granted to. -/
theorem exits_eq (ht : s.Turn begun t) (h : s.Sound) (link : LinkId) :
    (Stage.mk s (Event.merge t.batches)).exits link =
      LinkVerdict.leavings s.now link t.resolution.verdicts.links[link]? := by
  have hperm := ht.perm_passing h (fun kind => kind.vacated? = some link)
    fun kind _ hnone => by simp [hnone]
  have hplaces := ht.sound_begun.pairwise_place_leavings link
  have htold := ht.sound_begun.filter_vacated link
  have hworld := congrArg World.place ht.begun_world
  rw [World.place_begun] at hworld
  rw [hworld] at hplaces
  rw [ht.resolution_eq] at hperm ⊢
  rw [show City.resolution s.partitioning begun s.now =
    City.resolution s.partitioning begun s.clock.now from rfl, htold] at hperm
  exact mergeSort_eq_of_pairwise_lt hperm hplaces

/-- Those who enter a link in a step are those who are transferred to it. -/
theorem entrances_eq (ht : s.Turn begun t) (h : s.Sound) (link : LinkId) :
    (Stage.mk s (Event.merge t.batches)).entrances link =
      ((City.world s.partitioning begun).entrants s.clock t.resolution link).map
        (Transfer.event s.now) := by
  have hperm := ht.perm_passing h (fun kind => kind.entered? = some link)
    fun kind hnone _ => by simp [hnone]
  have hturns := ht.sound_begun.pairwise_turn_transfers
  have htold := ht.sound_begun.filter_entered link
  have hworld := congrArg World.turn ht.begun_world
  rw [World.turn_begun] at hworld
  rw [hworld] at hturns
  rw [ht.resolution_eq] at hperm ⊢
  rw [show City.resolution s.partitioning begun s.now =
    City.resolution s.partitioning begun s.clock.now from rfl, htold] at hperm
  exact mergeSort_eq_of_pairwise_lt hperm
    (List.pairwise_map.2 (hturns.sublist List.filter_sublist))

end Simulation.Turn

/-- The seconds that an agent has to stay on a link that it enters: whoever comes from another link
has to travel along it first. -/
def LinkQueue.leastStay {α : Type} (q : LinkQueue α) : EventKind → Nat
  | .linkEnter _ _ => q.travelSecs
  | _ => q.stepSecs

/-- The entry of an agent in the queue of a link that it enters. -/
def Event.queued (stay : EventKind → Nat) (e : Event) : QueuedAgent :=
  ⟨e.agent, e.time, e.time + stay e.kind⟩

namespace LinkQueue

variable {α : Type} [Quantity α]

theorem entries_relieved (q : LinkQueue α) (now : Nat) (link : LinkId) (v? : Option LinkVerdict) :
    (q.relieved v?).entries =
      q.entries.drop (LinkVerdict.leavings now link v?).length := by
  cases v? <;> simp [relieved, LinkVerdict.leavings]

/-- Neither the beginning of a step nor a decision changes how long one has to stay. -/
theorem entryFor_eq (q : LinkQueue α) (now : Nat) (v? : Option LinkVerdict) (t : Transfer) :
    (q.beginStep.relieved v?).entryFor now t =
      ⟨t.agent.id, now, now + q.leastStay t.kind⟩ := by
  cases v? <;> cases hsource : t.source? <;>
    simp [entryFor, leastStay, Transfer.kind, hsource, relieved, beginStep]

end LinkQueue

namespace Simulation

variable {α : Type} [Quantity α] {s : Simulation α} {begun : List (District α)} {t : Traffic α}

/-- The agents on a link, from the front. -/
def standing (s : Simulation α) (link : LinkId) : List QueuedAgent :=
  s.world.standing link

/-- The seconds that an agent has to stay on a link that it enters. -/
def leastStay (s : Simulation α) (link : LinkId) (kind : EventKind) : Nat :=
  (s.queue? link).elim 0 fun q => q.leastStay kind

/-- What a step does on a link: those who leave stood at its front and were ready, and those who
enter stand behind all others. -/
structure Passes (stage : Stage α) (link : LinkId) (after : Simulation α) : Prop where
  left : (stage.exits link).map (·.agent) =
    ((stage.before.standing link).take (stage.exits link).length).map (·.agent)
  ready : ∀ entry ∈ (stage.before.standing link).take (stage.exits link).length,
    entry.earliestExit ≤ stage.before.now
  standing_eq : after.standing link =
    (stage.before.standing link).drop (stage.exits link).length ++
      (stage.entrances link).map (Event.queued (stage.before.leastStay link))

theorem Turn.queue?_begun (ht : s.Turn begun t) (link : LinkId) :
    (City.world s.partitioning begun).queue? link =
      (s.queue? link).map LinkQueue.beginStep := by
  rw [ht.begun_world]
  rfl

/-- What a step makes of a queue. -/
theorem Turn.queue?_after (ht : s.Turn begun t) {after : Simulation α}
    (hafter : after.world = City.world s.partitioning t.districts) (link : LinkId) :
    after.queue? link = (s.queue? link).map fun q =>
      (q.beginStep.relieved t.resolution.verdicts.links[link]?).joined s.now
        ((City.world s.partitioning begun).entrants s.clock t.resolution link) := by
  refine (congrFun (congrArg World.queue? (hafter.trans ht.world_eq)) link).trans ?_
  simp only [World.moved, ht.queue?_begun, Option.map_map]
  rfl

/-- Nobody passes a link that does not exist. -/
theorem Turn.passes_of_none (ht : s.Turn begun t) {link : LinkId}
    (hnone : s.queue? link = none) :
    LinkVerdict.leavings s.now link t.resolution.verdicts.links[link]? = [] ∧
      (City.world s.partitioning begun).entrants s.clock t.resolution link = [] := by
  have hbegun : (City.world s.partitioning begun).queue? link = none := by
    rw [ht.queue?_begun, hnone, Option.map_none]
  rw [ht.resolution_eq]
  constructor
  · cases hverdict : (City.resolution s.partitioning begun s.now).verdicts.links[link]? with
    | none => rfl
    | some v =>
        obtain ⟨q, hq, -⟩ := ht.sound_begun.exists_queue_of_decision
          (ht.begun_sound.verdict_eq_some_iff.1 hverdict)
        rw [hbegun] at hq
        cases hq
  · rw [World.entrants, List.filter_eq_nil_iff]
    intro t' ht' htarget
    obtain rfl := of_decide_eq_true htarget
    have hwelcome := ht.sound_begun.welcome_of_transfer ht'
    obtain ⟨d, hd, howner⟩ := ht.begun_sound.exists_owner hwelcome.known
    obtain ⟨q, hq⟩ := Option.isSome_iff_exists.1
      (((ht.begun_sound.each d hd).owned t'.target).2 ⟨hwelcome.known, howner.symm⟩)
    have hsome := ht.begun_sound.queueIn?_of_mem hd hq
    have hsame := hbegun.symm.trans hsome
    cases hsame

/-- The decision on a link lets go some agents at the front of its queue that are ready. -/
theorem Turn.leavings_front (ht : s.Turn begun t) {link : LinkId} {q : LinkQueue α}
    (hq : s.queue? link = some q) :
    (LinkVerdict.leavings s.now link t.resolution.verdicts.links[link]?).map (·.agent) =
        (q.entries.take (LinkVerdict.leavings s.now link
          t.resolution.verdicts.links[link]?).length).map (·.agent) ∧
      ∀ entry ∈ q.entries.take (LinkVerdict.leavings s.now link
        t.resolution.verdicts.links[link]?).length, entry.earliestExit ≤ s.now := by
  rw [ht.resolution_eq]
  cases hverdict : (City.resolution s.partitioning begun s.now).verdicts.links[link]? with
  | none => exact ⟨rfl, by simp [LinkVerdict.leavings]⟩
  | some v =>
      obtain ⟨q', hq', -, hexecutable, -⟩ := ht.sound_begun.exists_queue_of_decision
        (ht.begun_sound.verdict_eq_some_iff.1 hverdict)
      obtain rfl : q.beginStep = q' := by
        rw [ht.queue?_begun, hq, Option.map_some] at hq'
        exact Option.some.inj hq'
      have hlength : (LinkVerdict.leavings s.now link (some v)).length = v.grants.length :=
        List.length_map _
      have hagents : (LinkVerdict.leavings s.now link (some v)).map (·.agent) =
          v.grants.map Grant.agent := by
        simp [LinkVerdict.leavings, Grant.agent_event, Function.comp_def]
      rw [hlength, hagents]
      exact ⟨hexecutable.front, fun entry hentry =>
        q.beginStep.ready_of_mem_take hexecutable.offered hentry⟩

omit [Quantity α] in
theorem standing_of_queue? {link : LinkId} {q : LinkQueue α} (hq : s.queue? link = some q) :
    s.standing link = q.entries := by
  rw [standing, World.standing, show s.world.queue? link = some q from hq]
  rfl

omit [Quantity α] in
theorem standing_of_none {link : LinkId} (hnone : s.queue? link = none) :
    s.standing link = [] := by
  rw [standing, World.standing, show s.world.queue? link = none from hnone]
  rfl

/-- What the decision on a link leaves of its queue, and who enters it. -/
theorem Turn.standing_eq (ht : s.Turn begun t) {link : LinkId} {q : LinkQueue α}
    (hq : s.queue? link = some q) {after : Simulation α}
    (hafter : after.world = City.world s.partitioning t.districts) :
    after.standing link =
      q.entries.drop (LinkVerdict.leavings s.now link
          t.resolution.verdicts.links[link]?).length ++
        (((City.world s.partitioning begun).entrants s.clock t.resolution link).map
          (Transfer.event s.now)).map (Event.queued (s.leastStay link)) := by
  have hmoved := ht.queue?_after hafter link
  rw [hq, Option.map_some] at hmoved
  have hentry : (q.beginStep.relieved t.resolution.verdicts.links[link]?).entryFor s.now =
      Event.queued (s.leastStay link) ∘ Transfer.event s.now := by
    funext t'
    rw [LinkQueue.entryFor_eq]
    simp [Event.queued, leastStay, hq, Transfer.event]
  rw [standing_of_queue? hmoved, List.map_map, ← hentry]
  exact congrArg (· ++ _) (LinkQueue.entries_relieved _ s.now link _)

/-- A step does to every link what a queue allows. -/
theorem Turn.passes (ht : s.Turn begun t) (h : s.Sound) (link : LinkId) {after : Simulation α}
    (hafter : after.world = City.world s.partitioning t.districts) :
    Passes ⟨s, Event.merge t.batches⟩ link after := by
  have hexits := ht.exits_eq h link
  have hentrances := ht.entrances_eq h link
  cases hq : s.queue? link with
  | some q =>
      obtain ⟨hleft, hready⟩ := ht.leavings_front hq
      constructor
      · rw [hexits, standing_of_queue? hq]
        exact hleft
      · rw [hexits, standing_of_queue? hq]
        exact hready
      · rw [hexits, hentrances, standing_of_queue? hq]
        exact ht.standing_eq hq hafter
  | none =>
      obtain ⟨hleavings, hentrants⟩ := ht.passes_of_none hq
      have hnone : after.queue? link = none := by
        rw [ht.queue?_after hafter, hq, Option.map_none]
      constructor
      · rw [hexits, hleavings]
        rfl
      · rw [hexits, hleavings]
        simp
      · rw [hexits, hentrances, hleavings, hentrants, standing_of_none hq, standing_of_none hnone]
        rfl

end Simulation

end Thoroughfare

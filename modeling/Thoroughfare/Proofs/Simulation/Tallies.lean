import Thoroughfare.Proofs.Simulation.Balances
import Thoroughfare.Proofs.Simulation.Passing
import Thoroughfare.Proofs.Simulation.Refusals

/-!
# The counters of a step

Some counters of a step count its decisions, others the agents in the tables of each district.  The
decisions are as many as the events that come of them, and the agents in each situation are those
of the step before and what the events of the step account for.
-/

namespace Thoroughfare

theorem Clock.countP_tell (clock : Clock) (id : AgentId) (kinds : List EventKind)
    (pick : EventKind → Bool) :
    (clock.tell id kinds).countP (fun e => pick e.kind) = kinds.countP pick :=
  List.countP_map

/-! ## Counting agents -/

/-- A list with everybody who is somewhere. -/
structure Roll (σ : AgentId → Situation) (ids : List AgentId) : Prop where
  nodup : ids.Nodup
  mem : ∀ id, σ id ≠ .absent → id ∈ ids

namespace City.Sound

open District (Register)

variable {α : Type} {g : Network} {p : Partitioning} {tick : Tick} {districts : List (District α)}
  {ids : List AgentId}

/-- Those that all districts list are those in some situations. -/
theorem sum_length_eq_countP (h : Sound g p tick districts) {list : District α → List AgentId}
    {shows : Situation → AgentId → Prop} (hlist : Register g list (fun id => id) shows)
    (hroll : Roll (situation districts) ids) {pick : Situation → Bool}
    (hpick : ∀ σ id, shows σ id ↔ pick σ = true) :
    (districts.map fun d => (list d).length).sum =
      ids.countP fun id => pick (situation districts id) := by
  rw [← List.length_flatMap, List.countP_eq_length_filter]
  apply List.Perm.length_eq
  apply (List.perm_ext_iff_of_nodup (h.nodup_flatMap hlist) (hroll.nodup.filter _)).2
  intro id
  rw [h.mem_flatMap_iff hlist, hpick, List.mem_filter]
  refine ⟨fun hshows => ⟨hroll.mem id ?_, hshows⟩, fun hmem => hmem.2⟩
  intro habsent
  exact hlist.absent id ((hpick _ id).2 (habsent ▸ hshows))

theorem sum_enRouteCount_eq_countP (h : Sound g p tick districts)
    (hroll : Roll (situation districts) ids) :
    (districts.map District.enRouteCount).sum =
      ids.countP fun id => (situation districts id).isUnderWay := by
  rw [funext District.enRouteCount_eq_length]
  refine h.sum_length_eq_countP District.register_travellers hroll fun σ _ => ?_
  cases σ <;> simp [Situation.isUnderWay]

theorem sum_size_eq_countP (h : Sound g p tick districts) {β : Type}
    (table : District α → Std.ExtTreeMap AgentId β) (recorded? : Situation → Option β)
    (habsent : recorded? .absent = none)
    (htable : ∀ {p : Partitioning} {tick : Tick} {d : District α}, d.Sound g p tick →
      ∀ id, (table d)[id]? = recorded? (d.situation id))
    (hroll : Roll (situation districts) ids) :
    (districts.map fun d => (table d).size).sum =
      ids.countP fun id => (recorded? (situation districts id)).isSome := by
  have hsize : (fun d => (table d).size) = fun d => (table d).keys.length :=
    funext fun d => Std.ExtTreeMap.length_keys.symm
  have hregister : Register g (fun d => (table d).keys) (fun id => id)
      fun σ _ => (recorded? σ).isSome = true :=
    { absent := by simp [habsent]
      nodup := fun _ => Std.ExtTreeMap.nodup_keys
      mem_iff := fun hd id => by
        rw [Std.ExtTreeMap.mem_keys, ← htable hd, Std.ExtTreeMap.mem_iff_isSome_getElem?] }
  rw [hsize]
  exact h.sum_length_eq_countP hregister hroll fun _ _ => Iff.rfl

theorem sum_departing_eq_countP (h : Sound g p tick districts)
    (hroll : Roll (situation districts) ids) :
    (districts.map fun d => d.departing.size).sum =
      ids.countP fun id => (situation districts id).isWaiting := by
  rw [h.sum_size_eq_countP (fun d => d.departing) (fun σ => σ.listing.departing?) rfl
    (fun hd id => (District.lists_iff.1 (hd.tidy id)).2.2.1) hroll]
  refine List.countP_congr fun id _ => ?_
  cases situation districts id <;> simp [Situation.listing, Situation.isWaiting]

theorem sum_finished_eq_countP (h : Sound g p tick districts)
    (hroll : Roll (situation districts) ids) :
    (districts.map fun d => d.finished.size).sum =
      ids.countP fun id => (situation districts id).isDone := by
  rw [h.sum_size_eq_countP (fun d => d.finished) (fun σ => σ.listing.finished?) rfl
    (fun hd id => (District.lists_iff.1 (hd.tidy id)).2.2.2.2) hroll]
  refine List.countP_congr fun id _ => ?_
  cases situation districts id <;> simp [Situation.listing, Situation.isDone]

end City.Sound

/-! ## Counting events -/

/-- Nothing is told of nobody. -/
theorem World.stepKinds_of_absent {α : Type} [Quantity α] {w : World α} {g : Network}
    {clock : Clock} {r : Resolution} {id : AgentId} (h : w.situation id = .absent) :
    w.stepKinds g clock r id = [] := by
  have hwoken : (w.begun g clock).situation id = .absent := by
    simp only [World.begun, h]
    rfl
  rw [World.stepKinds, World.outcome, hwoken, h]
  cases r.rulings.lookup id <;> rfl

namespace Simulation.Turn

variable {α : Type} [Quantity α] {s : Simulation α} {begun : List (District α)} {t : Traffic α}
  {ids : List AgentId}

/-- The events of a step are what is told of each agent. -/
theorem perm_told (ht : s.Turn begun t) (h : s.Sound) (hroll : Roll s.world.situation ids) :
    (Event.merge t.batches).Perm (ids.flatMap fun id =>
      s.clock.tell id (s.world.stepKinds s.network s.clock t.resolution id)) := by
  let told : AgentId → List Event := fun id =>
    s.clock.tell id (s.world.stepKinds s.network s.clock t.resolution id)
  have hkeys : (ids.map fun id => id).Nodup := by
    rw [List.map_id']
    exact hroll.nodup
  have hagent : ∀ id ∈ ids, ∀ e ∈ told id, e.agent = id := by
    intro id _ e he
    obtain ⟨kind, -, rfl⟩ := List.mem_map.1 he
    rfl
  suffices hsame : ∀ id : AgentId, (Event.merge t.batches).filter (fun e => e.agent = id) =
      (ids.flatMap told).filter fun e => e.agent = id from perm_of_filter_key hsame
  intro id
  rw [ht.filter_merge h]
  by_cases hid : id ∈ ids
  · exact (filter_flatMap_of_mem hkeys hagent hid).symm
  · have hnot : id ∉ ids.map fun id => id := by rwa [List.map_id']
    have habsent : s.world.situation id = .absent := by
      by_contra hpresent
      exact hid (hroll.mem id hpresent)
    rw [filter_flatMap_of_not_mem hagent hnot, World.stepKinds_of_absent habsent]
    rfl

/-- An event of a step is counted with what is told of its agent. -/
theorem tally_eq_sum (ht : s.Turn begun t) (h : s.Sound) (hroll : Roll s.world.situation ids)
    (pick : EventKind → Bool) :
    (Event.merge t.batches).countP (fun e => pick e.kind) =
      (ids.map fun id =>
        (s.world.stepKinds s.network s.clock t.resolution id).countP pick).sum := by
  rw [(ht.perm_told h hroll).countP_eq, List.countP_flatMap]
  exact congrArg List.sum (List.map_congr_left fun id _ => s.clock.countP_tell id _ pick)

/-- Nobody appears in a step. -/
theorem roll (ht : s.Turn begun t) (h : s.Sound) (hroll : Roll s.world.situation ids) :
    Roll (City.situation t.districts) ids := by
  refine ⟨hroll.nodup, fun id hpresent => hroll.mem id fun habsent => hpresent ?_⟩
  exact ((ht.stepsTo id).eq_absent_iff (City.Sound.valid h id)).2 habsent

theorem situation_begun (ht : s.Turn begun t) (id : AgentId) :
    City.situation begun id = (s.world.situation id).woken s.network s.clock.tick :=
  congrFun (congrArg World.situation ht.begun_world) id

theorem roll_begun (ht : s.Turn begun t) (h : s.Sound) (hroll : Roll s.world.situation ids) :
    Roll (City.situation begun) ids := by
  refine ⟨hroll.nodup, fun id hpresent => hroll.mem id fun habsent => hpresent ?_⟩
  rw [ht.situation_begun]
  exact (Situation.woken_eq_absent_iff (City.Sound.valid h id)).2 habsent

/-- What a step tells of all agents accounts for the numbers of those in each situation. -/
theorem counts_balance (ht : s.Turn begun t) (h : s.Sound) (hroll : Roll s.world.situation ids)
    (counted : Situation → Bool) (gain loss : EventKind → Bool)
    (hbalance : ∀ {σ τ : Situation} {kinds : List EventKind}, σ.Balances τ kinds →
      (counted τ).toNat + kinds.countP loss = (counted σ).toNat + kinds.countP gain) :
    ids.countP (fun id => counted (City.situation t.districts id)) +
        (Event.merge t.batches).countP (fun e => loss e.kind) =
      ids.countP (fun id => counted (s.world.situation id)) +
        (Event.merge t.batches).countP fun e => gain e.kind := by
  rw [ht.tally_eq_sum h hroll, ht.tally_eq_sum h hroll, countP_eq_sum _ ids,
    countP_eq_sum _ ids, ← List.sum_map_add, ← List.sum_map_add]
  refine congrArg List.sum (List.map_congr_left fun id _ => ?_)
  exact hbalance ((ht.stepsTo id).balances (City.Sound.valid h id))

/-- Those who wait once everybody is awake who is due waited before or end their activities. -/
theorem waiting_begun (ht : s.Turn begun t) (h : s.Sound) (hroll : Roll s.world.situation ids) :
    ids.countP (fun id => (City.situation begun id).isWaiting) =
      ids.countP (fun id => (s.world.situation id).isWaiting) +
        (Event.merge t.batches).countP fun e => e.kind.isEnd := by
  rw [ht.tally_eq_sum h hroll, countP_eq_sum, countP_eq_sum, ← List.sum_map_add]
  refine congrArg List.sum (List.map_congr_left fun id _ => ?_)
  rw [ht.situation_begun]
  refine Situation.isWaiting_woken (City.Sound.valid h id) fun ruling hruling => ?_
  rw [ht.resolution_eq] at hruling
  have hentry := (lookup_eq_some_iff_mem ht.begun_sound.nodup_rulings).1 hruling
  exact ht.situation_begun id ▸ ht.begun_sound.fits_of_ruling hentry

end Simulation.Turn

/-- An event that comes of a decision is counted with the rulings that tell it. -/
theorem Simulation.Turn.tally_eq_countP {α : Type} [Quantity α] {s : Simulation α}
    {begun : List (District α)} {t : Traffic α} (ht : s.Turn begun t) (h : s.Sound)
    {pick : EventKind → Bool} {tells : Ruling → Bool}
    (hpick : ∀ kind : EventKind, kind.entered? = none → kind.vacated? = none → pick kind = false)
    (htells : ∀ {σ : Situation} {ruling : Ruling} {id : AgentId}, σ.Fits ruling →
      σ.Valid s.network id →
        (σ.outcome s.clock (some ruling)).kinds.countP pick = (tells ruling).toNat) :
    (Event.merge t.batches).countP (fun e => pick e.kind) =
      t.resolution.rulings.countP fun entry => tells entry.2 := by
  have hperm := (ht.perm_passing h pick hpick).length_eq
  rw [← List.countP_eq_length_filter, ← List.countP_eq_length_filter] at hperm
  rw [hperm]
  simp only [effectsOf, Effects.join, List.flatMap_map]
  rw [List.countP_flatMap, countP_eq_sum]
  refine congrArg List.sum (List.map_congr_left fun entry hentry => ?_)
  rw [Function.comp_apply, Outcome.effects, s.clock.countP_tell entry.1 _ pick]
  rw [ht.resolution_eq] at hentry
  exact htells (ht.begun_sound.fits_of_ruling hentry) (City.Sound.valid ht.begun_sound entry.1)

/-! ## Counting decisions -/

namespace Ruling

def isDeparture : Ruling → Bool
  | depart _ _ => true
  | _ => false

def isMove : Ruling → Bool
  | move _ _ => true
  | _ => false

def isArrival : Ruling → Bool
  | arrive => true
  | _ => false

end Ruling

/-- What a ruling tells shows what it was. -/
theorem Situation.Fits.countP_kinds {g : Network} {id : AgentId} {σ : Situation} {ruling : Ruling}
    (h : σ.Fits ruling) (hσ : σ.Valid g id) (clock : Clock) :
    (σ.outcome clock (some ruling)).kinds.countP EventKind.isDeparture =
        ruling.isDeparture.toNat ∧
      (σ.outcome clock (some ruling)).kinds.countP EventKind.isMove = ruling.isMove.toNat ∧
      (σ.outcome clock (some ruling)).kinds.countP EventKind.isArrival =
        ruling.isArrival.toNat := by
  cases h with
  | @arrive a held? hnext =>
      obtain ⟨-, hstate, ⟨leg, next, hleg⟩, -⟩ := hσ
      have hlink := Agent.currentLink?_eq_of_nextLink?_eq_none hleg hstate hnext
      simp only [outcome, hlink, Option.toList_some, List.flatMap_singleton, Agent.landingKinds]
      split <;> exact ⟨rfl, rfl, rfl⟩
  | @move a held? target seq hnext =>
      obtain ⟨-, hstate, ⟨leg, next, hleg⟩, -⟩ := hσ
      obtain ⟨left, hleft, -⟩ := Agent.advanceLink_eq hleg hstate hnext
      simp only [outcome, hleft]
      exact ⟨rfl, rfl, rfl⟩
  | hold held? hnext => exact ⟨rfl, rfl, rfl⟩
  | depart refused seq hlink => exact ⟨rfl, rfl, rfl⟩
  | wait refused hlink => exact ⟨rfl, rfl, rfl⟩

namespace Resolution

variable {r : Resolution}

/-- On a link nobody is told to depart, and grants are moves or arrivals. -/
theorem countP_linkRulings (v : LinkVerdict) :
    v.rulings.countP (fun entry => entry.2.isDeparture) = 0 ∧
      v.rulings.countP (fun entry => entry.2.isMove) = v.grants.countP (!·.isArrival) ∧
      v.rulings.countP (fun entry => entry.2.isArrival) = v.grants.countP (·.isArrival) := by
  have hrefused : ∀ pick : Ruling → Bool, (∀ target, pick (.hold target) = false) →
      (LinkVerdict.refusalRulings v.refusal?).countP (fun entry => pick entry.2) = 0 := by
    intro pick hpick
    cases hrefusal : v.refusal? with
    | none => rfl
    | some refusal => simp [LinkVerdict.refusalRulings, hpick]
  simp only [LinkVerdict.rulings_eq, List.countP_append]
  rw [hrefused _ fun _ => rfl, hrefused _ fun _ => rfl, hrefused _ fun _ => rfl,
    LinkVerdict.grantRulings, List.countP_map, List.countP_map, List.countP_map]
  refine ⟨?_, ?_, ?_⟩
  · rw [Nat.add_zero, List.countP_eq_zero]
    rintro (_ | _) - <;> simp [Grant.ruling, Ruling.isDeparture]
  · exact List.countP_congr fun grant _ => by
      cases grant <;> simp [Grant.ruling, Ruling.isMove, Grant.isArrival]
  · exact List.countP_congr fun grant _ => by
      cases grant <;> simp [Grant.ruling, Ruling.isArrival, Grant.isArrival]

/-- Those who may depart are told so, and nobody else is told anything but to wait. -/
theorem countP_departureRulings (departures : List (AgentId × DepartureVerdict)) :
    (Verdicts.departureRulings (departures.filter fun entry => entry.2.matters)).countP
        (fun entry => entry.2.isDeparture) = departures.countP (fun entry => entry.2.seq?.isSome) ∧
      (Verdicts.departureRulings departures).countP (fun entry => entry.2.isMove) = 0 ∧
      (Verdicts.departureRulings departures).countP (fun entry => entry.2.isArrival) = 0 := by
  simp only [Verdicts.departureRulings, List.countP_map, List.countP_filter, List.countP_eq_zero]
  refine ⟨List.countP_congr fun entry _ => ?_, fun entry _ => ?_, fun entry _ => ?_⟩ <;>
    cases hseq : entry.2.seq? <;>
      simp [DepartureVerdict.ruling, DepartureVerdict.matters, hseq, Ruling.isDeparture,
        Ruling.isMove, Ruling.isArrival]

theorem countP_rulings (r : Resolution) :
    r.rulings.countP (fun entry => entry.2.isDeparture) = r.departed ∧
      r.rulings.countP (fun entry => entry.2.isMove) = r.moves ∧
      r.rulings.countP (fun entry => entry.2.isArrival) = r.arrivals := by
  obtain ⟨hdeparted, -, -⟩ := countP_departureRulings r.departures
  obtain ⟨-, hmoves, harrivals⟩ := countP_departureRulings r.verdicts.departures
  simp only [rulings, List.countP_append, List.countP_flatMap]
  rw [hmoves, harrivals, Nat.add_zero, Nat.add_zero, moves, arrivals, verdicts, hdeparted,
    departed]
  refine ⟨?_, ?_, ?_⟩
  · rw [Nat.add_eq_right]
    apply List.sum_eq_zero
    intro count hcount
    obtain ⟨entry, -, rfl⟩ := List.mem_map.1 hcount
    exact (countP_linkRulings entry.2).1
  · exact congrArg List.sum (List.map_congr_left fun entry _ => (countP_linkRulings entry.2).2.1)
  · exact congrArg List.sum (List.map_congr_left fun entry _ => (countP_linkRulings entry.2).2.2)

end Resolution

namespace City.Sound

variable {α : Type} [Quantity α] {g : Network} {p : Partitioning} {tick : Tick} {now : Nat}
  {districts : List (District α)} {ids : List AgentId}

/-- There is one decision on a departure for each agent that waits. -/
theorem length_departures (h : Sound g p tick districts) (hroll : Roll (situation districts) ids) :
    (resolution p districts now).departures.length =
      ids.countP fun id => (situation districts id).isWaiting := by
  rw [← List.length_map (f := fun entry : AgentId × DepartureVerdict => entry.1),
    List.countP_eq_length_filter]
  apply List.Perm.length_eq
  apply (List.perm_ext_iff_of_nodup h.nodup_departures (hroll.nodup.filter _)).2
  intro id
  have hwaiting : (∃ offer, (id, offer) ∈ (offers districts now).departures) ↔
      (situation districts id).isWaiting = true := by
    simp only [h.mem_offers_departures_iff]
    cases hsituation : situation districts id with
    | waiting a refused =>
        have hvalid := h.valid id
        rw [hsituation] at hvalid
        obtain ⟨link, -, hdeparture⟩ := hvalid.exists_departure
        exact iff_of_true ⟨_, hdeparture⟩ rfl
    | _ => simp [Situation.isWaiting, Situation.departure?]
  rw [resolution, Resolution.map_fst_departures, List.mem_filter, ← hwaiting, List.mem_map]
  constructor
  · rintro ⟨⟨_, offer⟩, hoffer, rfl⟩
    refine ⟨hroll.mem _ ?_, offer, hoffer⟩
    exact Situation.ne_absent_of_departure (h.mem_offers_departures_iff.1 hoffer)
  · rintro ⟨-, offer, hoffer⟩
    exact ⟨_, hoffer, rfl⟩

end City.Sound

theorem Resolution.departed_add_blocked (r : Resolution) :
    r.departed + r.blockedDepartures = r.departures.length := by
  rw [List.length_eq_countP_add_countP (fun entry => entry.2.seq?.isSome), departed,
    blockedDepartures]
  congr 2
  funext entry
  cases entry.2.seq? <;> rfl

end Thoroughfare

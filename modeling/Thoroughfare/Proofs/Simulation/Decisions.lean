import Thoroughfare.Proofs.Simulation.City
import Thoroughfare.Proofs.Simulation.Settling

/-!
# Decisions in a city

All districts of a sound city publish their wishes, and the decisions on all of them together are
decisions on each district.  What is offered can be read off the world, and so can what is decided:
two cities with the same world make the same offers in the same order.
-/

namespace Thoroughfare

namespace World

variable {α : Type}

/-- What the agents of some queue entries want. -/
def offersOf (w : World α) (entries : List QueuedAgent) : List Offer :=
  entries.map fun entry => (w.situation entry.agent).offer entry.agent

end World

namespace City

variable {α : Type} [Quantity α] {g : Network} {p p' : Partitioning} {tick : Tick} {now : Nat}
  {districts districts' : List (District α)} {d d' : District α} {id : AgentId} {link : LinkId}
  {q : LinkQueue α}

/-- The offers of all districts. -/
def offers (districts : List (District α)) (now : Nat) : Offers :=
  Offers.gather (districts.map fun d => d.wishes now)

/-- The decisions on all offers. -/
def resolution (p : Partitioning) (districts : List (District α)) (now : Nat) : Resolution :=
  .ofOffers (Simulation.freeAtStart p districts) (offers districts now)

theorem exists_queue_of_verdict {verdict : LinkVerdict}
    (hverdict : (link, verdict) ∈ (resolution p districts now).links) :
    ∃ d ∈ districts, ∃ q, d.links[link]? = some q ∧ q.offer now ≠ [] ∧
      Answers (d.offersOf (q.offer now)) verdict := by
  obtain ⟨wanted, hwanted, hanswers⟩ := Resolution.exists_offers hverdict
  obtain ⟨published, hpublished, hmem⟩ :=
    List.mem_flatMap.1 ((perm_ascending _).mem_iff.1 hwanted)
  obtain ⟨d, hd, rfl⟩ := List.mem_map.1 hpublished
  obtain ⟨q, hq, hne, rfl⟩ := District.mem_wishes_links_iff.1 hmem
  exact ⟨d, hd, q, hq, hne, hanswers⟩

namespace Sound

omit [Quantity α] in
theorem owner_of_link? (h : Sound g p tick districts) (hd : d ∈ districts)
    (hlink : (d.situation id).link? = some link) :
    (situation districts id).link?.map p.linkOwner = some d.id := by
  have hpresent : d.situation id ≠ .absent := by
    intro habsent
    rw [habsent] at hlink
    cases hlink
  rw [h.situation_of_mem hd hpresent, hlink, Option.map_some, (h.each d hd).home id link hlink]

omit [Quantity α] in
theorem situation_of_queued (h : Sound g p tick districts) (hd : d ∈ districts)
    (hq : d.links[link]? = some q) (hid : id ∈ q.agentIds) :
    situation districts id = d.situation id := by
  obtain ⟨a, held?, hsituation, -⟩ := (h.each d hd).exists_underWay hq hid
  exact h.situation_of_mem hd (by rw [hsituation]; simp)

/-! ## What is offered -/

theorem mem_offers_links_iff (h : Sound g p tick districts) {wanted : List Offer} :
    (link, wanted) ∈ (offers districts now).links ↔
      ∃ q, (world p districts).queue? link = some q ∧ q.offer now ≠ [] ∧
        wanted = (world p districts).offersOf (q.offer now) := by
  have hoffers : ∀ d ∈ districts, ∀ q, d.links[link]? = some q →
      d.offersOf (q.offer now) = (world p districts).offersOf (q.offer now) := by
    intro d hd q hq
    apply List.map_congr_left
    intro entry hentry
    have hmem : entry.agent ∈ q.agentIds := List.mem_map_of_mem (District.mem_of_mem_offer hentry)
    rw [← h.situation_of_queued hd hq hmem]
    rfl
  rw [offers, Offers.gather, (perm_ascending _).mem_iff, List.mem_flatMap]
  simp only [List.mem_map, exists_exists_and_eq_and, District.mem_wishes_links_iff]
  constructor
  · rintro ⟨d, hd, q, hq, hne, rfl⟩
    exact ⟨q, h.queueIn?_of_mem hd hq, hne, hoffers d hd q hq⟩
  · rintro ⟨q, hq, hne, rfl⟩
    obtain ⟨d, hd, hq⟩ := h.queueIn?_eq_some_iff.1 hq
    exact ⟨d, hd, q, hq, hne, (hoffers d hd q hq).symm⟩

theorem mem_offers_departures_iff (h : Sound g p tick districts) {offer : DepartureOffer} :
    (id, offer) ∈ (offers districts now).departures ↔
      (situation districts id).departure? = some offer := by
  rw [offers, Offers.gather, (perm_ascending _).mem_iff, List.mem_flatMap]
  simp only [List.mem_map, exists_exists_and_eq_and]
  constructor
  · rintro ⟨d, hd, hoffer⟩
    have hwants := (h.each d hd).mem_wishes_departures_iff.1 hoffer
    rwa [h.situation_of_mem hd (Situation.ne_absent_of_departure hwants)]
  · intro hwants
    obtain ⟨d, hd, hsame⟩ := exists_district (Situation.ne_absent_of_departure hwants)
    exact ⟨d, hd, (h.each d hd).mem_wishes_departures_iff.2 (hsame ▸ hwants)⟩

omit [Quantity α] in
theorem nodup_flatMap_links (h : Sound g p tick districts) {β : Type}
    {entries : District α → List (LinkId × β)}
    (hnodup : ∀ d ∈ districts, ((entries d).map (·.1)).Nodup)
    (hown : ∀ d ∈ districts, ∀ entry ∈ entries d, (d.links[entry.1]?).isSome = true) :
    ((districts.flatMap entries).map (·.1)).Nodup := by
  rw [List.map_flatMap]
  apply nodup_flatMap_of_owner (fun d => d.id) p.linkOwner h.nodup_ids hnodup
  intro d hd link hlink
  obtain ⟨entry, hentry, rfl⟩ := List.mem_map.1 hlink
  exact (((h.each d hd).owned entry.1).1 (hown d hd entry hentry)).2

theorem nodup_offers_links (h : Sound g p tick districts) :
    ((offers districts now).links.map (·.1)).Nodup := by
  rw [offers, Offers.gather, ((perm_ascending _).map _).nodup_iff, List.flatMap_map]
  apply h.nodup_flatMap_links (fun d _ => d.nodup_wishes_links now)
  rintro d - ⟨link, wanted⟩ hentry
  obtain ⟨q, hq, -⟩ := District.mem_wishes_links_iff.1 hentry
  simp [hq]

theorem nodup_offers_departures (h : Sound g p tick districts) :
    ((offers districts now).departures.map (·.1)).Nodup := by
  rw [offers, Offers.gather, ((perm_ascending _).map _).nodup_iff, List.flatMap_map,
    List.map_flatMap]
  have hids : (districts.map fun d => some d.id).Nodup := by
    have hnodup := h.nodup_ids.map fun _ _ hsame => Option.some.inj hsame
    rwa [List.map_map] at hnodup
  refine nodup_flatMap_of_owner (fun d => some d.id)
    (fun id => (situation districts id).link?.map p.linkOwner) hids
    (fun d _ => d.nodup_wishes_departures now) ?_
  intro d hd id hid
  obtain ⟨entry, hentry, rfl⟩ := List.mem_map.1 hid
  obtain ⟨a, refused, hwaiting, hlink, -⟩ := Situation.departure?_eq_some_iff.1
    ((h.each d hd).mem_wishes_departures_iff.1 hentry)
  exact h.owner_of_link? hd (by rw [hwaiting]; exact hlink)

/-- Cities with the same world make the same offers. -/
theorem offers_congr (h : Sound g p tick districts) (h' : Sound g p' tick districts')
    (hworld : world p districts = world p' districts') :
    offers districts now = offers districts' now := by
  have hsort : ∀ {kind : Entity} {β : Type} {l m : List (Ident kind × β)},
      ((ascending l).map (·.1)).Nodup → (ascending l).Perm (ascending m) →
        ascending l = ascending m := by
    intro kind β l m hnodup hperm
    have hlm := (perm_ascending l).symm.trans (hperm.trans (perm_ascending m))
    exact ascending_eq_of_perm hlm (((perm_ascending l).map _).nodup_iff.1 hnodup)
  have hlinks : (offers districts now).links.Perm (offers districts' now).links := by
    refine (List.perm_ext_iff_of_nodup h.nodup_offers_links.of_map
      h'.nodup_offers_links.of_map).2 ?_
    rintro ⟨link, wanted⟩
    rw [h.mem_offers_links_iff, h'.mem_offers_links_iff, hworld]
  have hdepartures :
      (offers districts now).departures.Perm (offers districts' now).departures := by
    refine (List.perm_ext_iff_of_nodup h.nodup_offers_departures.of_map
      h'.nodup_offers_departures.of_map).2 ?_
    rintro ⟨id, offer⟩
    have hsituation : situation districts = situation districts' :=
      congrArg World.situation hworld
    rw [h.mem_offers_departures_iff, h'.mem_offers_departures_iff, hsituation]
  exact congrArg₂ Offers.mk (hsort h.nodup_offers_links hlinks)
    (hsort h.nodup_offers_departures hdepartures)

/-- Cities with the same world decide the same. -/
theorem resolution_congr (h : Sound g p tick districts) (h' : Sound g p' tick districts')
    (hworld : world p districts = world p' districts') :
    resolution p districts now = resolution p' districts' now := by
  have hqueue : Simulation.queueIn? p districts = Simulation.queueIn? p' districts' :=
    congrArg World.queue? hworld
  have hfree : Simulation.freeAtStart p districts = Simulation.freeAtStart p' districts' := by
    funext link
    rw [Simulation.freeAtStart, Simulation.freeAtStart, hqueue]
  rw [resolution, resolution, hfree, h.offers_congr h' hworld]

/-! ## What is decided -/

/-- The decision on a link is found under its number. -/
theorem verdict_eq_some_iff (h : Sound g p tick districts) {verdict : LinkVerdict} :
    (resolution p districts now).verdicts.links[link]? = some verdict ↔
      (link, verdict) ∈ (resolution p districts now).links :=
  Resolution.verdicts_links_eq_some_iff h.nodup_offers_links

/-- The links are decided in the order of their numbers. -/
theorem ascending_links (h : Sound g p tick districts) :
    ((resolution p districts now).links.map (·.1)).Pairwise fun a b => a.index < b.index := by
  rw [resolution, Resolution.map_fst_links]
  exact pairwise_lt_ascending h.nodup_offers_links

/-- The departures are decided in the order of the agents. -/
theorem ascending_departures (h : Sound g p tick districts) :
    ((resolution p districts now).verdicts.departures.map (·.1)).Pairwise fun a b =>
      a.index < b.index := by
  refine List.Pairwise.sublist (List.filter_sublist.map _) ?_
  rw [resolution, Resolution.map_fst_departures]
  exact pairwise_lt_ascending h.nodup_offers_departures

theorem nodup_decided_links (h : Sound g p tick districts) :
    ((resolution p districts now).links.map (·.1)).Nodup :=
  h.ascending_links.imp fun hlt hsame => Nat.ne_of_lt hlt (congrArg Ident.index hsame)

/-- The decisions on all offers answer the wishes of each district. -/
theorem concern (h : Sound g p tick districts) (hd : d ∈ districts) :
    (resolution p districts now).verdicts.Concern now d := by
  refine ⟨?_, ?_, Resolution.nodup_departures h.nodup_offers_departures, ?_⟩
  · intro link q hq hne
    have hwanted : (link, d.offersOf (q.offer now)) ∈ (offers districts now).links := by
      refine (perm_ascending _).mem_iff.2 (List.mem_flatMap.2 ⟨_, List.mem_map_of_mem hd, ?_⟩)
      exact District.mem_wishes_links_iff.2 ⟨q, hq, hne, rfl⟩
    obtain ⟨verdict, hverdict, hanswers⟩ := Resolution.exists_verdict _ hwanted
    exact ⟨verdict, h.verdict_eq_some_iff.2 hverdict, hanswers⟩
  · intro link q hq hnone
    apply Option.eq_none_iff_forall_ne_some.2
    intro verdict hverdict
    obtain ⟨d', hd', q', hq', hne, -⟩ := exists_queue_of_verdict (h.verdict_eq_some_iff.1 hverdict)
    have hsame := (h.queueIn?_of_mem hd hq).symm.trans (h.queueIn?_of_mem hd' hq')
    cases hsame
    exact hne hnone
  · intro entry hentry a refused hwaiting
    obtain ⟨wish, hwish, hlink, -⟩ :=
      Resolution.exists_departureOffer (List.mem_filter.1 hentry).1
    obtain ⟨b, _, hsituation, hcurrent, -⟩ := Situation.departure?_eq_some_iff.1
      (h.mem_offers_departures_iff.1 hwish)
    rw [h.situation_of_mem hd (by rw [hwaiting]; simp), hwaiting] at hsituation
    cases hsituation
    rw [hlink]
    exact hcurrent

theorem exists_district_of_ruling (h : Sound g p tick districts) {entry : AgentId × Ruling}
    (hentry : entry ∈ (resolution p districts now).rulings) :
    ∃ d ∈ districts, entry ∈ d.rulings now (resolution p districts now).verdicts := by
  rcases List.mem_append.1 hentry with hlink | hdeparture
  · obtain ⟨⟨link, verdict⟩, hverdict, hruling⟩ := List.mem_flatMap.1 hlink
    obtain ⟨d, hd, q, hq, hne, -⟩ := exists_queue_of_verdict hverdict
    refine ⟨d, hd, List.mem_append_left _ (List.mem_flatMap.2 ⟨(link, verdict), ?_, hruling⟩)⟩
    exact District.mem_linkVerdicts_iff.2 ⟨q, hq, hne, h.verdict_eq_some_iff.2 hverdict⟩
  · obtain ⟨departure, hmem, rfl⟩ := List.mem_map.1 hdeparture
    obtain ⟨wish, hwish, -⟩ := Resolution.exists_departureOffer (List.mem_filter.1 hmem).1
    have hwants := h.mem_offers_departures_iff.1 hwish
    obtain ⟨a, refused, hwaiting, -⟩ := Situation.departure?_eq_some_iff.1 hwants
    obtain ⟨d, hd, hsame⟩ := exists_district (Situation.ne_absent_of_departure hwants)
    refine ⟨d, hd, List.mem_append_right _ (List.mem_map.2 ⟨departure, ?_, rfl⟩)⟩
    exact (h.each d hd).mem_departureVerdicts_iff.2 ⟨hmem, a, refused, hsame.trans hwaiting⟩

/-- A district is told what concerns those that it knows. -/
theorem mem_rulings_iff (h : Sound g p tick districts) (hd : d ∈ districts)
    {entry : AgentId × Ruling} :
    entry ∈ d.rulings now (resolution p districts now).verdicts ↔
      entry ∈ (resolution p districts now).rulings ∧ d.situation entry.1 ≠ .absent := by
  have hpresent : ∀ d ∈ districts, ∀ entry ∈ d.rulings now (resolution p districts now).verdicts,
      d.situation entry.1 ≠ .absent := by
    intro d hd entry hentry habsent
    have hfits := (h.each d hd).fits_of_ruling (h.concern hd) hentry
    rw [habsent] at hfits
    cases hfits
  constructor
  · intro hentry
    refine ⟨?_, hpresent d hd entry hentry⟩
    rcases List.mem_append.1 hentry with hlink | hdeparture
    · obtain ⟨⟨link, verdict⟩, hverdict, hruling⟩ := List.mem_flatMap.1 hlink
      obtain ⟨q, hq, -, hfound⟩ := District.mem_linkVerdicts_iff.1 hverdict
      refine List.mem_append_left _ (List.mem_flatMap.2 ⟨(link, verdict), ?_, hruling⟩)
      exact h.verdict_eq_some_iff.1 hfound
    · obtain ⟨departure, hmem, rfl⟩ := List.mem_map.1 hdeparture
      exact List.mem_append_right _ (List.mem_map.2 ⟨departure, (List.mem_filter.1 hmem).1, rfl⟩)
  · rintro ⟨hentry, hknown⟩
    obtain ⟨d', hd', htold⟩ := h.exists_district_of_ruling hentry
    rwa [h.eq_of_present hd hd' hknown (hpresent d' hd' entry htold)]

/-- Whoever is told something on a link is under way there. -/
theorem underWay_of_ruling (h : Sound g p tick districts) {verdict : LinkVerdict}
    (hverdict : (link, verdict) ∈ (resolution p districts now).links) {entry : AgentId × Ruling}
    (hentry : entry ∈ verdict.rulings) :
    ∃ a held?, situation districts entry.1 = .underWay a held? ∧ a.currentLink? = some link := by
  obtain ⟨d, hd, q, hq, -, hanswers⟩ := exists_queue_of_verdict hverdict
  have hmem := District.mem_agentIds_of_ruling hanswers hentry
  obtain ⟨a, held?, hsituation, hlink, -⟩ := (h.each d hd).exists_underWay hq hmem
  exact ⟨a, held?, (h.situation_of_queued hd hq hmem).trans hsituation, hlink⟩

/-- Whoever is told something on its departure waits for it. -/
theorem waiting_of_departure (h : Sound g p tick districts) {entry : AgentId × DepartureVerdict}
    (hentry : entry ∈ (resolution p districts now).verdicts.departures) :
    ∃ a refused, situation districts entry.1 = .waiting a refused := by
  obtain ⟨wish, hwish, -⟩ := Resolution.exists_departureOffer (List.mem_filter.1 hentry).1
  obtain ⟨a, refused, hwaiting, -⟩ := Situation.departure?_eq_some_iff.1
    (h.mem_offers_departures_iff.1 hwish)
  exact ⟨a, refused, hwaiting⟩

/-- Nobody in a city is told two things. -/
theorem nodup_rulings (h : Sound g p tick districts) :
    ((resolution p districts now).rulings.map (·.1)).Nodup := by
  refine nodup_map_fst_rulings (σ := situation districts) h.nodup_decided_links ?_
    (fun entry hentry told htold => h.underWay_of_ruling hentry htold)
    (Resolution.nodup_departures h.nodup_offers_departures)
    (fun entry hentry => h.waiting_of_departure hentry)
  rintro ⟨link, verdict⟩ hverdict
  obtain ⟨d, hd, q, hq, -, hanswers⟩ := exists_queue_of_verdict hverdict
  exact ((h.each d hd).executable hq hanswers).single

theorem fits_of_ruling (h : Sound g p tick districts) {entry : AgentId × Ruling}
    (hentry : entry ∈ (resolution p districts now).rulings) :
    (situation districts entry.1).Fits entry.2 := by
  obtain ⟨d, hd, htold⟩ := h.exists_district_of_ruling hentry
  rw [h.situation_of_mem hd ((h.mem_rulings_iff hd).1 htold).2]
  exact (h.each d hd).fits_of_ruling (h.concern hd) htold

/-- What an agent is told in its district, it is told in the city. -/
theorem outcome_eq (h : Sound g p tick districts) (hd : d ∈ districts) (clock : Clock)
    (id : AgentId) :
    (d.situation id).outcome clock
        ((d.rulings now (resolution p districts now).verdicts).lookup id) =
      (d.situation id).outcome clock ((resolution p districts now).rulings.lookup id) := by
  by_cases hpresent : d.situation id = .absent
  · rw [hpresent]
    rfl
  · have hlookup : (d.rulings now (resolution p districts now).verdicts).lookup id =
        (resolution p districts now).rulings.lookup id := by
      apply Option.ext
      intro ruling
      rw [lookup_eq_some_iff_mem ((h.each d hd).nodup_rulings (h.concern hd)),
        lookup_eq_some_iff_mem h.nodup_rulings, h.mem_rulings_iff hd]
      exact and_iff_left hpresent
    rw [hlookup]

end Sound
end City

end Thoroughfare

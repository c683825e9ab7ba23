import Thoroughfare.Proofs.Simulation.Footprints
import Thoroughfare.Proofs.Simulation.Separation
import Thoroughfare.Proofs.Simulation.Tallies

/-!
# Strangers

Some agents are ours, and the others are strangers that are on other roads and go to other roads
only.  A world with strangers and a world in which we are alone stay so in every step: what we
want, what is decided on it and what comes of it does not depend on the strangers.
-/

namespace Thoroughfare

/-! ## Outcomes without numbers -/

def Transfer.unnumbered (t : Transfer) : Transfer :=
  { t with seq := 0 }

def Outcome.unnumbered (o : Outcome) : Outcome :=
  { o with transfer? := o.transfer?.map Transfer.unnumbered }

theorem Outcome.finally_unnumbered (o : Outcome) : o.unnumbered.finally = o.finally := by
  cases htransfer : o.transfer? <;>
    simp [Outcome.finally, unnumbered, htransfer, Transfer.unnumbered]

theorem Situation.outcome_unnumbered (clock : Clock) (σ : Situation) (ruling? : Option Ruling) :
    σ.outcome clock (ruling?.map Ruling.unnumbered) = (σ.outcome clock ruling?).unnumbered := by
  cases ruling? with
  | none =>
      rw [Option.map_none, outcome_none]
      rfl
  | some ruling =>
      cases ruling with
      | move target seq? => cases σ <;> cases seq? <;> rfl
      | _ => cases σ <;> rfl

namespace LinkQueue

variable {α : Type}

theorem relieved_unnumbered [Quantity α] (q : LinkQueue α) (v? : Option LinkVerdict) :
    q.relieved (v?.map LinkVerdict.unnumbered) = q.relieved v? := by
  cases v? <;> simp [relieved, LinkVerdict.unnumbered]

theorem joined_unnumbered (q : LinkQueue α) (now : Nat) (transfers : List Transfer) :
    q.joined now (transfers.map Transfer.unnumbered) = q.joined now transfers := by
  simp only [joined, List.map_map]
  rfl

end LinkQueue

namespace World

variable {α : Type} (w : World α) (clock : Clock) (r : Resolution) (link : LinkId)

theorem entrants_unnumbered : w.entrants clock r.unnumbered link =
    (w.entrants clock r link).map Transfer.unnumbered := by
  have htransfers : w.transfers clock r.unnumbered =
      (w.transfers clock r).map Transfer.unnumbered := by
    rw [transfers, transfers, r.rulings_unnumbered, List.filterMap_map, List.map_filterMap]
    refine List.filterMap_congr fun entry _ => ?_
    exact congrArg Outcome.transfer?
      ((w.situation entry.1).outcome_unnumbered clock (some entry.2))
  rw [entrants, entrants, htransfers, List.filter_map]
  rfl

end World

/-! ## Two worlds -/

/-- In the second world we are alone.  In the first one there are strangers, with other roads ahead
of them. -/
structure World.Alone {α : Type} (g : Network) (roads : LinkId → Bool) (ours : AgentId → Bool)
    (w alone : World α) : Prop where
  same : ∀ id, ours id = true → alone.situation id = w.situation id
  absent : ∀ id, ours id = false → alone.situation id = .absent
  apart : ∀ id, ∀ link ∈ (w.situation id).footprint g, roads link = ours id
  queue?_eq : ∀ link, roads link = true → alone.queue? link = w.queue? link

variable {α : Type} [Quantity α] {g : Network} {p p' : Partitioning} {tick : Tick} {now : Nat}
  {clock : Clock} {districts districts' : List (District α)} {id : AgentId} {link : LinkId}
  {q : LinkQueue α} {roads : LinkId → Bool} {ours : AgentId → Bool}

theorem World.Alone.begun {w alone : World α} (h : w.Alone g roads ours alone)
    (hw : ∀ id, (w.situation id).Valid g id) (clock : Clock) :
    (w.begun g clock).Alone g roads ours (alone.begun g clock) where
  same id hid := congrArg (Situation.woken g clock.tick) (h.same id hid)
  absent id hid := congrArg (Situation.woken g clock.tick) (h.absent id hid)
  apart id link hlink :=
    h.apart id link (Situation.footprint_woken_subset (hw id) clock.tick hlink)
  queue?_eq link hlink := congrArg (Option.map LinkQueue.beginStep) (h.queue?_eq link hlink)

omit [Quantity α] in
/-- Whoever is under way wants to go to a link of its footprint. -/
theorem Situation.mem_footprint_of_offer {σ : Situation} {target : LinkId} (hσ : σ.Valid g id)
    (htarget : (σ.offer id).target? = some target) : target ∈ σ.footprint g := by
  cases σ with
  | underWay a held? =>
      rw [offer] at htarget
      split at htarget
      · cases htarget
      · rename_i next hnext
        cases htarget
        exact mem_footprint_of_next hσ hnext
  | _ => cases htarget

namespace City.Sound

omit [Quantity α] in
/-- Whoever is in the queue of a link is under way there. -/
theorem exists_underWay_of_queue (h : Sound g p tick districts)
    (hq : (world p districts).queue? link = some q) (hid : id ∈ q.agentIds) :
    ∃ a held?, situation districts id = .underWay a held? ∧ a.currentLink? = some link := by
  obtain ⟨d, hd, hqueue⟩ := h.queueIn?_eq_some_iff.1 hq
  obtain ⟨a, held?, hsituation, hlink, -⟩ := (h.each d hd).exists_underWay hqueue hid
  exact ⟨a, held?, (h.situation_of_queued hd hqueue hid).trans hsituation, hlink⟩

theorem ascending_offers_links (h : Sound g p tick districts) :
    (offers districts now).links.Pairwise fun a b => a.1.index < b.1.index := by
  have hkeys : ((offers districts now).links.map (·.1)).Pairwise fun a b => a.index < b.index :=
    pairwise_lt_ascending h.nodup_offers_links
  rwa [List.pairwise_map] at hkeys

theorem ascending_offers_departures (h : Sound g p tick districts) :
    (offers districts now).departures.Pairwise fun a b => a.1.index < b.1.index := by
  have hkeys : ((offers districts now).departures.map (·.1)).Pairwise fun a b =>
      a.index < b.index :=
    pairwise_lt_ascending h.nodup_offers_departures
  rwa [List.pairwise_map] at hkeys

variable (h : Sound g p tick districts) (h' : Sound g p' tick districts')
  (hw : (world p districts).Alone g roads ours (world p' districts'))

include h hw

omit [Quantity α] in
theorem ours_of_underWay {a : Agent} {held? : Option LinkId}
    (hsituation : situation districts id = .underWay a held?) (hlink : a.currentLink? = some link) :
    ours id = roads link := by
  have hvalid := h.valid id
  rw [hsituation] at hvalid
  refine (hw.apart id link ?_).symm
  rw [show (world p districts).situation id = .underWay a held? from hsituation]
  exact Situation.mem_footprint_of_underWay hvalid hlink

omit [Quantity α] in
/-- Whoever is on one of our links is one of us, and we are on no other links. -/
theorem ours_of_queue (hq : (world p districts).queue? link = some q) (hid : id ∈ q.agentIds) :
    ours id = roads link := by
  obtain ⟨a, held?, hsituation, hlink⟩ := h.exists_underWay_of_queue hq hid
  exact h.ours_of_underWay hw hsituation hlink

/-! ## What is offered -/

omit [Quantity α] in
/-- What those want who are on one of our links. -/
theorem offersOf_alone_eq (hlink : roads link = true)
    (hq : (world p districts).queue? link = some q) {entries : List QueuedAgent}
    (hentries : ∀ entry ∈ entries, entry ∈ q.entries) :
    (world p' districts').offersOf entries = (world p districts).offersOf entries := by
  refine List.map_congr_left fun entry hentry => ?_
  have hid : ours entry.agent = true :=
    (h.ours_of_queue hw hq (List.mem_map_of_mem (hentries entry hentry))).trans hlink
  rw [hw.same entry.agent hid]

theorem apart_offers : (offers districts now).Apart roads ours := by
  constructor
  · rintro ⟨link, wanted⟩ hentry offer hoffer target htarget
    obtain ⟨q, hq, -, rfl⟩ := h.mem_offers_links_iff.1 hentry
    obtain ⟨queued, hqueued, rfl⟩ := List.mem_map.1 hoffer
    have hid := h.ours_of_queue hw hq (List.mem_map_of_mem (District.mem_of_mem_offer hqueued))
    rw [← hid]
    exact hw.apart queued.agent target
      (Situation.mem_footprint_of_offer (h.valid queued.agent) htarget)
  · rintro ⟨id, offer⟩ hentry
    obtain ⟨a, refused, hwaiting, hlink, -⟩ := Situation.departure?_eq_some_iff.1
      (h.mem_offers_departures_iff.1 hentry)
    have hvalid := h.valid id
    have hahead := Situation.mem_footprint_of_waiting (hwaiting ▸ hvalid) hlink
    rw [← hwaiting] at hahead
    exact hw.apart id offer.link hahead

include h'

theorem mem_offers_links_alone_iff {wanted : List Offer} :
    (link, wanted) ∈ (offers districts' now).links ↔
      (link, wanted) ∈ (offers districts now).links ∧ roads link = true := by
  rw [h.mem_offers_links_iff, h'.mem_offers_links_iff]
  constructor
  · rintro ⟨q, hq, hne, rfl⟩
    -- The link is ours because somebody wants something there who is with us when we are alone.
    obtain ⟨first, hfirst⟩ := List.exists_mem_of_ne_nil _ hne
    obtain ⟨a, held?, hsituation, hcurrent⟩ := h'.exists_underWay_of_queue hq
      (List.mem_map_of_mem (District.mem_of_mem_offer hfirst))
    have hid : ours first.agent = true := by
      by_contra hstranger
      have habsent := hw.absent first.agent (Bool.not_eq_true _ ▸ hstranger)
      rw [show (world p' districts').situation first.agent = .underWay a held? from hsituation]
        at habsent
      cases habsent
    have hlink : roads link = true := by
      rw [← h.ours_of_underWay hw ((hw.same first.agent hid).symm.trans hsituation) hcurrent]
      exact hid
    have hqueue := (hw.queue?_eq link hlink).symm.trans hq
    refine ⟨⟨q, hqueue, hne, ?_⟩, hlink⟩
    exact h.offersOf_alone_eq hw hlink hqueue fun _ => District.mem_of_mem_offer
  · rintro ⟨⟨q, hq, hne, rfl⟩, hlink⟩
    refine ⟨q, (hw.queue?_eq link hlink).trans hq, hne, ?_⟩
    exact (h.offersOf_alone_eq hw hlink hq fun _ => District.mem_of_mem_offer).symm

theorem mem_offers_departures_alone_iff {offer : DepartureOffer} :
    (id, offer) ∈ (offers districts' now).departures ↔
      (id, offer) ∈ (offers districts now).departures ∧ ours id = true := by
  rw [h.mem_offers_departures_iff, h'.mem_offers_departures_iff]
  have hsame : ours id = true → situation districts' id = situation districts id := hw.same id
  have habsent : ours id = false → situation districts' id = .absent := hw.absent id
  cases hid : ours id with
  | true => rw [hsame hid, and_iff_left rfl]
  | false => simp [habsent hid, Situation.departure?]

/-- When we are alone, we want what we want anyway. -/
theorem offers_alone_eq : offers districts' now = (offers districts now).within roads ours := by
  refine congrArg₂ Offers.mk
    (eq_of_pairwise_lt h'.ascending_offers_links
      (h.ascending_offers_links.sublist List.filter_sublist) ?_)
    (eq_of_pairwise_lt h'.ascending_offers_departures
      (h.ascending_offers_departures.sublist List.filter_sublist) ?_)
  · rintro ⟨link, wanted⟩
    rw [List.mem_filter]
    exact h.mem_offers_links_alone_iff h' hw
  · rintro ⟨id, offer⟩
    rw [List.mem_filter]
    exact h.mem_offers_departures_alone_iff h' hw

/-- When we are alone, what is decided on our offers is what is decided anyway. -/
theorem resolution_alone : (resolution p districts now).Alone roads ours
    (resolution p' districts' now) := by
  have hfree : ∀ link, roads link = true →
      Simulation.freeAtStart p' districts' link = Simulation.freeAtStart p districts link := by
    intro link hlink
    have hqueue : Simulation.queueIn? p' districts' link = Simulation.queueIn? p districts link :=
      hw.queue?_eq link hlink
    rw [Simulation.freeAtStart, Simulation.freeAtStart, hqueue]
  refine ⟨h.nodup_decided_links, h'.nodup_decided_links, ?_, ?_⟩
  · intro entry hentry told htold
    obtain ⟨a, held?, hsituation, hlink⟩ := h.underWay_of_ruling hentry htold
    exact h.ours_of_underWay hw hsituation hlink
  · rw [resolution, resolution, h.offers_alone_eq h' hw]
    exact Resolution.ofOffers_within h.nodup_offers_links (h.apart_offers hw) hfree

end City.Sound

/-! ## What comes of it -/

namespace World.Alone

variable {w alone : World α} {r : Resolution}

omit [Quantity α] in
theorem transfers_eq (h : w.Alone g roads ours alone)
    (hr : ∀ told ∈ r.rulings, ours told.1 = true) :
    alone.transfers clock r = w.transfers clock r :=
  List.filterMap_congr fun told htold => by rw [h.same told.1 (hr told htold)]

end World.Alone

namespace City.Sound

variable (h : Sound g p (clock.tick + 1) districts) (h' : Sound g p' (clock.tick + 1) districts')
  (hw : (world p districts).Alone g roads ours (world p' districts'))

include h hw

/-- Whoever enters one of our links is one of us, and we enter no other links. -/
theorem ours_of_transfer {t : Transfer}
    (ht : t ∈ (world p districts).transfers clock (resolution p districts clock.now)) :
    ours t.agent.id = roads t.target := by
  obtain ⟨ruling, hruling, hsome⟩ := h.exists_ruling_of_transfer ht
  have hfits := h.fits_of_ruling hruling
  obtain ⟨-, hvalid, hthere, -⟩ := hfits.valid_transfer (h.valid t.agent.id) hsome
  have hentered := Situation.mem_footprint_of_underWay hvalid hthere
  have hfinally : ((situation districts t.agent.id).outcome clock (some ruling)).finally =
      .underWay t.agent none := by rw [Outcome.finally, hsome]
  rw [← hfinally] at hentered
  exact (hw.apart t.agent.id t.target
    (hfits.footprint_finally_subset (h.valid t.agent.id) hentered)).symm

theorem entrants_within (halone : (resolution p districts clock.now).Alone roads ours
    (resolution p' districts' clock.now)) (hlink : roads link = true) :
    (world p districts).entrants clock ((resolution p districts clock.now).within roads ours) link =
      (world p districts).entrants clock (resolution p districts clock.now) link := by
  have htransfers : (world p districts).transfers clock
      ((resolution p districts clock.now).within roads ours) =
        ((world p districts).transfers clock (resolution p districts clock.now)).filter
          fun t => ours t.agent.id := by
    rw [World.transfers, World.transfers, Resolution.rulings_within halone.told,
      List.filterMap_eq_flatMap_toList, List.filterMap_eq_flatMap_toList]
    refine flatMap_filter_of_agree fun told htold t ht => ?_
    rw [(h.passage_of_transfer htold (Option.mem_toList.1 ht)).1]
  rw [World.entrants, World.entrants, htransfers, List.filter_filter]
  refine List.filter_congr fun t ht => ?_
  rw [h.ours_of_transfer hw ht]
  by_cases htarget : t.target = link
  · simp [htarget, hlink]
  · simp [htarget]

include h'

theorem entrants_alone_eq (hlink : roads link = true) :
    ((world p' districts').entrants clock (resolution p' districts' clock.now) link).map
        Transfer.unnumbered =
      ((world p districts).entrants clock (resolution p districts clock.now) link).map
        Transfer.unnumbered := by
  have halone : (resolution p districts clock.now).Alone roads ours
      (resolution p' districts' clock.now) := h.resolution_alone h' hw
  have htold : ∀ told ∈ ((resolution p districts clock.now).within roads ours).rulings,
      ours told.1 = true := by
    intro told htold
    rw [Resolution.rulings_within halone.told] at htold
    exact (List.mem_filter.1 htold).2
  rw [← World.entrants_unnumbered, ← halone.same, World.entrants_unnumbered,
    ← h.entrants_within hw halone hlink, World.entrants, World.entrants, hw.transfers_eq htold]

theorem outcome_alone_eq (hid : ours id = true) :
    ((world p' districts').outcome clock (resolution p' districts' clock.now) id).unnumbered =
      ((world p districts).outcome clock (resolution p districts clock.now) id).unnumbered := by
  rw [World.outcome, World.outcome, ← Situation.outcome_unnumbered,
    ← Situation.outcome_unnumbered, (h.resolution_alone h' hw).lookup_eq hid, hw.same id hid]

/-- Two worlds, one with strangers, stay so when the decisions are carried out. -/
theorem moved_alone : ((world p districts).moved clock (resolution p districts clock.now)).Alone g
    roads ours ((world p' districts').moved clock (resolution p' districts' clock.now)) := by
  constructor
  · intro id hid
    have houtcome := congrArg Outcome.finally (h.outcome_alone_eq h' hw hid)
    rwa [Outcome.finally_unnumbered, Outcome.finally_unnumbered] at houtcome
  · intro id hid
    exact Situation.finally_eq_absent_iff.2 (hw.absent id hid)
  · intro id link hlink
    refine hw.apart id link (Situation.footprint_finally_subset ?_ (h.valid id) hlink)
    intro ruling hruling
    exact h.fits_of_ruling ((lookup_eq_some_iff_mem h.nodup_rulings).1 hruling)
  · intro link hlink
    have hentrants : ∀ q : LinkQueue α,
        q.joined clock.now ((world p' districts').entrants clock
            (resolution p' districts' clock.now) link) =
          q.joined clock.now ((world p districts).entrants clock
            (resolution p districts clock.now) link) := by
      intro q
      rw [← q.joined_unnumbered, h.entrants_alone_eq h' hw hlink, q.joined_unnumbered]
    have hrelieved : ∀ q : LinkQueue α,
        q.relieved (resolution p' districts' clock.now).verdicts.links[link]? =
          q.relieved (resolution p districts clock.now).verdicts.links[link]? := by
      intro q
      rw [← q.relieved_unnumbered, (h.resolution_alone h' hw).verdict_eq hlink,
        q.relieved_unnumbered]
    simp only [World.moved, hw.queue?_eq link hlink, hentrants, hrelieved]

end City.Sound

end Thoroughfare

import Thoroughfare.Proofs.Simulation.Rulings

/-!
# Decisions on separate roads

Some links and some agents are ours.  When everybody who is on one of our links, or is to enter one,
is one of us, and none of us wants to enter any other link, then what is decided on our offers does
not depend on the offers of all others.  Only the numbers that are given out do.
-/

namespace Thoroughfare

/-! ## Without numbers -/

def Grant.unnumbered : Grant → Grant
  | move agent target seq? => .move agent target (seq?.map fun _ => 0)
  | arrive agent => .arrive agent

def LinkVerdict.unnumbered (v : LinkVerdict) : LinkVerdict :=
  { v with grants := v.grants.map Grant.unnumbered }

def DepartureVerdict.unnumbered (v : DepartureVerdict) : DepartureVerdict :=
  { v with seq? := v.seq?.map fun _ => 0 }

def Ruling.unnumbered : Ruling → Ruling
  | move target seq? => .move target (seq?.map fun _ => 0)
  | depart link _ => .depart link 0
  | ruling => ruling

/-- Decisions without the numbers that they give out.  The numbers count the grants to everybody, so
they are all that shows in a decision how many others there are. -/
def Resolution.unnumbered (r : Resolution) : Resolution where
  links := r.links.map fun entry => (entry.1, entry.2.unnumbered)
  departures := r.departures.map fun entry => (entry.1, entry.2.unnumbered)

theorem LinkVerdict.unnumbered_cons {grant grant' : Grant} {v v' : LinkVerdict}
    (hgrant : grant.unnumbered = grant'.unnumbered) (h : v.unnumbered = v'.unnumbered) :
    ({ v with grants := grant :: v.grants } : LinkVerdict).unnumbered =
      ({ v' with grants := grant' :: v'.grants } : LinkVerdict).unnumbered := by
  rw [unnumbered, unnumbered, mk.injEq] at h ⊢
  exact ⟨congrArg₂ List.cons hgrant h.1, h.2⟩

theorem LinkVerdict.rulings_unnumbered (v : LinkVerdict) :
    v.unnumbered.rulings = v.rulings.map fun entry => (entry.1, entry.2.unnumbered) := by
  have hgrant : ∀ grant : Grant, (grant.unnumbered.agent, grant.unnumbered.ruling) =
      (grant.agent, grant.ruling.unnumbered) := by
    rintro (_ | _) <;> rfl
  simp only [rulings, unnumbered, List.map_append, List.map_map]
  congr 1
  exact List.map_congr_left fun grant _ => hgrant grant

theorem DepartureVerdict.ruling_unnumbered (v : DepartureVerdict) :
    v.unnumbered.ruling = v.ruling.unnumbered := by
  cases hseq : v.seq? <;> simp [ruling, unnumbered, hseq, Ruling.unnumbered]

theorem DepartureVerdict.matters_unnumbered (v : DepartureVerdict) :
    v.unnumbered.matters = v.matters := by
  simp [matters, unnumbered]

namespace Resolution

theorem rulings_unnumbered (r : Resolution) :
    r.unnumbered.rulings = r.rulings.map fun entry => (entry.1, entry.2.unnumbered) := by
  rw [rulings, rulings, List.map_append, List.map_flatMap]
  congr 1
  · rw [unnumbered, List.flatMap_map]
    exact List.flatMap_congr fun entry _ => entry.2.rulings_unnumbered
  · simp only [verdicts, Verdicts.departureRulings, unnumbered, List.filter_map, List.map_map]
    have hmatters : ((fun entry : AgentId × DepartureVerdict => entry.2.matters) ∘
        fun entry : AgentId × DepartureVerdict => (entry.1, entry.2.unnumbered)) =
          fun entry => entry.2.matters := by
      funext entry
      exact entry.2.matters_unnumbered
    rw [hmatters]
    refine List.map_congr_left fun entry _ => ?_
    exact congrArg (Prod.mk entry.1) entry.2.ruling_unnumbered

theorem warnings_unnumbered (r : Resolution) (time : Nat) :
    r.unnumbered.warnings time = r.warnings time := by
  simp only [warnings, unnumbered, List.filterMap_map]
  congr 1
  refine List.filterMap_congr fun entry _ => ?_
  simp [DepartureVerdict.unnumbered]

end Resolution

/-! ## What is ours -/

/-- The link that an offer needs room on. -/
def Offer.target? : Offer → Option LinkId
  | move _ target _ => some target
  | arrive _ => none

variable {roads : LinkId → Bool} {ours : AgentId → Bool}

/-- The offers on our links and of our agents. -/
def Offers.within (roads : LinkId → Bool) (ours : AgentId → Bool) (o : Offers) : Offers where
  links := o.links.filter fun entry => roads entry.1
  departures := o.departures.filter fun entry => ours entry.1

/-- The decisions on our links and for our agents. -/
def Resolution.within (roads : LinkId → Bool) (ours : AgentId → Bool) (r : Resolution) :
    Resolution where
  links := r.links.filter fun entry => roads entry.1
  departures := r.departures.filter fun entry => ours entry.1

/-- Nobody wants to go from our links to others or from others to ours, and those who want to depart
on our links are just our agents. -/
structure Offers.Apart (roads : LinkId → Bool) (ours : AgentId → Bool) (o : Offers) : Prop where
  moves : ∀ entry ∈ o.links, ∀ offer ∈ entry.2, ∀ target, offer.target? = some target →
    roads target = roads entry.1
  departures : ∀ entry ∈ o.departures, roads entry.2.link = ours entry.1

/-- Two ledgers have given out the same places on our links. -/
def Ledger.Agrees (roads : LinkId → Bool) (a b : Ledger) : Prop :=
  ∀ link, roads link = true → b.takenOn link = a.takenOn link

namespace Ledger

variable {room room' : LinkId → Nat} {a b c : Ledger} {link : LinkId} {seq : Nat}

theorem Agrees.reserve (h : a.Agrees roads b)
    (hroom : ∀ link, roads link = true → room' link = room link) (hlink : roads link = true) :
    (a.reserve? room link = none ∧ b.reserve? room' link = none) ∨
      ∃ taken taken', a.reserve? room link = some taken ∧ b.reserve? room' link = some taken' ∧
        taken.2.Agrees roads taken'.2 := by
  by_cases hleft : a.takenOn link < room link
  · have hleft' : b.takenOn link < room' link := by rwa [h link hlink, hroom link hlink]
    have htaken : a.reserve? room link = some _ := if_pos hleft
    have htaken' : b.reserve? room' link = some _ := if_pos hleft'
    refine Or.inr ⟨_, _, htaken, htaken', fun other hother => ?_⟩
    rw [(Extends.reserve htaken).takenOn_eq, (Extends.reserve htaken').takenOn_eq, h other hother]
    rfl
  · have hleft' : ¬b.takenOn link < room' link := by rwa [h link hlink, hroom link hlink]
    exact Or.inl ⟨if_neg hleft, if_neg hleft'⟩

/-- Places on other links do not matter. -/
theorem Agrees.reserve_other (h : a.Agrees roads b) (hlink : roads link = false)
    (htaken : a.reserve? room link = some (seq, c)) : c.Agrees roads b := by
  intro other hother
  have hne : link ≠ other := by
    rintro rfl
    rw [hlink] at hother
    cases hother
  rw [(Extends.reserve htaken).takenOn_eq, h other hother]
  simp [hne]

end Ledger

/-! ## Decisions that are the same -/

namespace Resolution

variable {room room' : LinkId → Nat} {a b : Ledger} {offers : List Offer}

/-- Ledgers that agree on our links decide the same on offers to go to them. -/
theorem decideLink_ours (hroom : ∀ link, roads link = true → room' link = room link)
    (hours : ∀ offer ∈ offers, ∀ target, offer.target? = some target → roads target = true)
    (h : a.Agrees roads b) :
    (decideLink room offers a).1.unnumbered = (decideLink room' offers b).1.unnumbered ∧
      (decideLink room offers a).2.Agrees roads (decideLink room' offers b).2 := by
  induction offers generalizing a b with
  | nil => exact ⟨rfl, h⟩
  | cons offer rest ih =>
      have hrest := fun other hother => hours other (List.mem_cons_of_mem _ hother)
      cases offer with
      | arrive agent =>
          obtain ⟨hverdict, hagrees⟩ := ih hrest h
          exact ⟨LinkVerdict.unnumbered_cons rfl hverdict, hagrees⟩
      | move agent target firstAttempt =>
          have htarget := hours _ List.mem_cons_self target rfl
          rw [decideLink, decideLink]
          rcases h.reserve hroom htarget with
            ⟨hnone, hnone'⟩ | ⟨taken, taken', hsome, hsome', hagrees⟩
          · rw [hnone, hnone']
            exact ⟨rfl, h⟩
          · rw [hsome, hsome']
            obtain ⟨hverdict, hagrees⟩ := ih hrest hagrees
            exact ⟨LinkVerdict.unnumbered_cons rfl hverdict, hagrees⟩

/-- Offers to go to other links take nothing away from ours. -/
theorem decideLink_theirs
    (htheirs : ∀ offer ∈ offers, ∀ target, offer.target? = some target → roads target = false)
    (h : a.Agrees roads b) : (decideLink room offers a).2.Agrees roads b := by
  induction offers generalizing a with
  | nil => exact h
  | cons offer rest ih =>
      have hrest := fun other hother => htheirs other (List.mem_cons_of_mem _ hother)
      cases offer with
      | arrive agent => exact ih hrest h
      | move agent target firstAttempt =>
          rw [decideLink]
          cases hreserve : a.reserve? room target with
          | none => exact h
          | some taken =>
              exact ih hrest (h.reserve_other (htheirs _ List.mem_cons_self target rfl) hreserve)

theorem decideLinks_within (hroom : ∀ link, roads link = true → room' link = room link)
    {entries : List (LinkId × List Offer)}
    (hapart : ∀ entry ∈ entries, ∀ offer ∈ entry.2, ∀ target, offer.target? = some target →
      roads target = roads entry.1) (h : a.Agrees roads b) :
    ((decideLinks room entries a).1.filter fun entry => roads entry.1).map
        (fun entry => (entry.1, entry.2.unnumbered)) =
      (decideLinks room' (entries.filter fun entry => roads entry.1) b).1.map
        (fun entry => (entry.1, entry.2.unnumbered)) ∧
      (decideLinks room entries a).2.Agrees roads
        (decideLinks room' (entries.filter fun entry => roads entry.1) b).2 := by
  -- The offers of one link are all ours or all theirs.  Only ours take anything from our links, so
  -- the ledgers go on agreeing there, whatever the others take elsewhere.
  induction entries generalizing a b with
  | nil => exact ⟨rfl, h⟩
  | cons entry rest ih =>
      have hrest := fun other hother => hapart other (List.mem_cons_of_mem _ hother)
      have hfirst := hapart entry List.mem_cons_self
      cases hours : roads entry.1 with
      | true =>
          rw [hours] at hfirst
          obtain ⟨hverdict, hagrees⟩ := decideLink_ours hroom hfirst h
          obtain ⟨hverdicts, hafter⟩ := ih hrest hagrees
          rw [List.filter_cons, if_pos hours, decideLinks, decideLinks]
          refine ⟨?_, hafter⟩
          simp only [List.filter_cons, hours, if_true, List.map_cons, hverdict, hverdicts]
      | false =>
          rw [hours] at hfirst
          obtain ⟨hverdicts, hafter⟩ := ih hrest (decideLink_theirs hfirst h)
          rw [List.filter_cons, if_neg (by simp [hours]), decideLinks]
          refine ⟨?_, hafter⟩
          simp only [List.filter_cons, hours, Bool.false_eq_true, if_false, hverdicts]

theorem decideDepartures_within (hroom : ∀ link, roads link = true → room' link = room link)
    {entries : List (AgentId × DepartureOffer)}
    (hapart : ∀ entry ∈ entries, roads entry.2.link = ours entry.1) (h : a.Agrees roads b) :
    ((decideDepartures room entries a).1.filter fun entry => ours entry.1).map
        (fun entry => (entry.1, entry.2.unnumbered)) =
      (decideDepartures room' (entries.filter fun entry => ours entry.1) b).1.map
        (fun entry => (entry.1, entry.2.unnumbered)) := by
  induction entries generalizing a b with
  | nil => rfl
  | cons entry rest ih =>
      have hrest := fun other hother => hapart other (List.mem_cons_of_mem _ hother)
      have hlink := hapart entry List.mem_cons_self
      cases hours : ours entry.1 with
      | true =>
          rw [List.filter_cons, if_pos hours, decideDepartures, decideDepartures, decideDeparture,
            decideDeparture]
          rcases h.reserve hroom (hlink.trans hours) with
            ⟨hnone, hnone'⟩ | ⟨taken, taken', hsome, hsome', hagrees⟩
          · rw [hnone, hnone']
            simp only [List.filter_cons, hours, if_true, List.map_cons, ih hrest h]
          · rw [hsome, hsome']
            simp only [List.filter_cons, hours, if_true, List.map_cons, ih hrest hagrees]
            rfl
      | false =>
          rw [List.filter_cons, if_neg (by simp [hours]), decideDepartures, decideDeparture]
          cases hreserve : a.reserve? room entry.2.link with
          | none =>
              simp only [List.filter_cons, hours, Bool.false_eq_true, if_false, ih hrest h]
          | some taken =>
              have hagrees := h.reserve_other (hlink.trans hours) hreserve
              simp only [List.filter_cons, hours, Bool.false_eq_true, if_false, ih hrest hagrees]

/-- The others do not make room on our links. -/
theorem exits_within {o : Offers} (hnodup : (o.links.map (·.1)).Nodup) {link : LinkId}
    (hlink : roads link = true) :
    (exits (o.within roads ours)).getD link 0 = (exits o).getD link 0 := by
  have hnodup' : ((o.within roads ours).links.map (·.1)).Nodup :=
    (List.filter_sublist.map _).nodup hnodup
  rw [exits_getD hnodup, exits_getD hnodup', Offers.within, lookup_filter_of_pos hlink]

/-- Our decisions do not depend on the offers of others, but for their numbers. -/
theorem ofOffers_within {freeAtStart freeAtStart' : LinkId → Nat} {o : Offers}
    (hnodup : (o.links.map (·.1)).Nodup) (hapart : o.Apart roads ours)
    (hfree : ∀ link, roads link = true → freeAtStart' link = freeAtStart link) :
    ((ofOffers freeAtStart o).within roads ours).unnumbered =
      (ofOffers freeAtStart' (o.within roads ours)).unnumbered := by
  have hroom : ∀ link, roads link = true →
      Resolution.room freeAtStart' (exits (o.within roads ours)) link =
        Resolution.room freeAtStart (exits o) link := by
    intro link hlink
    rw [Resolution.room, Resolution.room, hfree link hlink, exits_within hnodup hlink]
  obtain ⟨hlinks, hagrees⟩ := decideLinks_within hroom hapart.moves (a := .empty) (b := .empty)
    fun _ _ => rfl
  exact congrArg₂ Resolution.mk hlinks (decideDepartures_within hroom hapart.departures hagrees)

/-! ## What is told and warned of -/

section Within

variable {r : Resolution}

theorem nodup_within (h : (r.links.map (·.1)).Nodup) :
    ((r.within roads ours).links.map (·.1)).Nodup :=
  (List.filter_sublist.map _).nodup h

theorem rulings_within
    (h : ∀ entry ∈ r.links, ∀ told ∈ entry.2.rulings, ours told.1 = roads entry.1) :
    (r.within roads ours).rulings = r.rulings.filter fun told => ours told.1 := by
  rw [rulings, rulings, List.filter_append, ← flatMap_filter_of_agree h]
  congr 1
  simp only [verdicts, Verdicts.departureRulings, within, List.filter_map, List.filter_filter]
  congr 1
  exact List.filter_congr fun entry _ => Bool.and_comm _ _

theorem agent_of_warning? {time : Nat} {agent : AgentId} {target : LinkId} {firstAttempt : Bool}
    {warning : CapacityWarning} (h : warning? time agent target firstAttempt = some warning) :
    warning.agent = agent := by
  unfold warning? at h
  split at h <;> cases h
  rfl

theorem warnings_within (time : Nat)
    (h : ∀ entry ∈ r.links, ∀ told ∈ entry.2.rulings, ours told.1 = roads entry.1) :
    (r.within roads ours).warnings time =
      (r.warnings time).filter fun warning => ours warning.agent := by
  simp only [warnings, within, List.filterMap_eq_flatMap_toList, List.filter_append]
  congr 1
  · refine flatMap_filter_of_agree fun entry hentry warning hwarning => ?_
    rw [Option.mem_toList, Option.bind_eq_some_iff] at hwarning
    obtain ⟨refusal, hrefusal, hwarning⟩ := hwarning
    have htold : (refusal.agent, Ruling.hold refusal.target) ∈ entry.2.rulings :=
      List.mem_append_right _ (List.mem_map.2 ⟨refusal, Option.mem_toList.2 hrefusal, rfl⟩)
    rw [agent_of_warning? hwarning]
    exact h entry hentry _ htold
  · refine flatMap_filter_of_agree fun entry _ warning hwarning => ?_
    rw [Option.mem_toList] at hwarning
    split at hwarning
    · rw [agent_of_warning? hwarning]
    · cases hwarning

theorem verdict_within (hnodup : (r.links.map (·.1)).Nodup) {link : LinkId}
    (hlink : roads link = true) :
    (r.within roads ours).verdicts.links[link]? = r.verdicts.links[link]? := by
  rw [verdicts, verdicts, getElem?_ofList_ident hnodup,
    getElem?_ofList_ident (nodup_within hnodup), within, lookup_filter_of_pos hlink]

theorem verdict_unnumbered (hnodup : (r.links.map (·.1)).Nodup) (link : LinkId) :
    r.unnumbered.verdicts.links[link]? =
      r.verdicts.links[link]?.map LinkVerdict.unnumbered := by
  have hnodup' : (r.unnumbered.links.map (·.1)).Nodup := by
    rw [unnumbered, List.map_map]
    exact hnodup
  rw [verdicts, verdicts, getElem?_ofList_ident hnodup, getElem?_ofList_ident hnodup', unnumbered,
    lookup_map_snd]

end Within

/-- Decisions on the offers of everybody, and decisions on our offers alone. -/
structure Alone (roads : LinkId → Bool) (ours : AgentId → Bool) (r alone : Resolution) : Prop where
  nodup : (r.links.map (·.1)).Nodup
  nodup_alone : (alone.links.map (·.1)).Nodup
  told : ∀ entry ∈ r.links, ∀ told ∈ entry.2.rulings, ours told.1 = roads entry.1
  same : (r.within roads ours).unnumbered = alone.unnumbered

namespace Alone

variable {r alone : Resolution} (h : r.Alone roads ours alone)

include h

theorem lookup_eq {id : AgentId} (hid : ours id = true) :
    (alone.rulings.lookup id).map Ruling.unnumbered =
      (r.rulings.lookup id).map Ruling.unnumbered := by
  rw [← lookup_map_snd, ← rulings_unnumbered, ← h.same, rulings_unnumbered, rulings_within h.told,
    lookup_map_snd, lookup_filter_of_pos hid]

theorem verdict_eq {link : LinkId} (hlink : roads link = true) :
    (alone.verdicts.links[link]?).map LinkVerdict.unnumbered =
      (r.verdicts.links[link]?).map LinkVerdict.unnumbered := by
  rw [← verdict_unnumbered h.nodup_alone, ← h.same, verdict_unnumbered (nodup_within h.nodup),
    verdict_within h.nodup hlink]

theorem warnings_eq (time : Nat) :
    alone.warnings time = (r.warnings time).filter fun warning => ours warning.agent := by
  rw [← warnings_unnumbered, ← h.same, warnings_unnumbered, warnings_within time h.told]

end Alone

end Resolution

end Thoroughfare

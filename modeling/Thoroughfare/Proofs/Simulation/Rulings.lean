import Mathlib.Data.List.Basic
import Thoroughfare.Proofs.Simulation.Situation
import Thoroughfare.Simulation.Resolution

/-!
# Rulings

The decisions of a step tell some agents what they are to do.  Seen from the links, the agents at
the front of each queue are told, as far as the first one that is refused.  Seen from the targets,
every grant takes one place and gets the next number, and no link gives more places than it has.
-/

namespace Thoroughfare

/-- What one agent is told to do. -/
inductive Ruling where
  /-- To leave the network. -/
  | arrive
  /-- To go on to a link; it is to be told its number too. -/
  | move (target : LinkId) (seq? : Option Nat)
  /-- To stay at the front of its link, since the next one is full. -/
  | hold (target : LinkId)
  /-- To enter the first link of its leg. -/
  | depart (link : LinkId) (seq : Nat)
  /-- To go on waiting for its first link, which is full. -/
  | wait (link : LinkId)
deriving DecidableEq

/-- The place that an agent gets: on which link and with which number. -/
def Ruling.passage? : Ruling → Option (LinkId × Nat)
  | move target seq? => seq?.map fun seq => (target, seq)
  | depart link seq => some (link, seq)
  | _ => none

def Grant.ruling : Grant → Ruling
  | move _ target seq? => .move target seq?
  | arrive _ => .arrive

def DepartureVerdict.ruling (v : DepartureVerdict) : Ruling :=
  match v.seq? with
  | some seq => .depart v.link seq
  | none => .wait v.link

/-- What the agents on a link are told, from the front. -/
def LinkVerdict.rulings (v : LinkVerdict) : List (AgentId × Ruling) :=
  v.grants.map (fun grant => (grant.agent, grant.ruling)) ++
    v.refusal?.toList.map fun refusal => (refusal.agent, .hold refusal.target)

/-- What the agents that wait to depart are told. -/
def Verdicts.departureRulings (departures : List (AgentId × DepartureVerdict)) :
    List (AgentId × Ruling) :=
  departures.map fun entry => (entry.1, entry.2.ruling)

/-- Everything that anybody is told, in the order of the decisions. -/
def Resolution.rulings (r : Resolution) : List (AgentId × Ruling) :=
  (r.links.flatMap fun entry => entry.2.rulings) ++
    Verdicts.departureRulings r.verdicts.departures

/-- The places that some rulings give. -/
def passages (rulings : List (AgentId × Ruling)) : List (LinkId × Nat) :=
  rulings.filterMap fun entry => entry.2.passage?

@[simp] theorem passages_append (a b : List (AgentId × Ruling)) :
    passages (a ++ b) = passages a ++ passages b :=
  List.filterMap_append

/-! ## Places -/

/-- From one ledger to another just some places were given out, none of them above the room. -/
structure Ledger.Extends (room : LinkId → Nat) (given : List (LinkId × Nat)) (a b : Ledger) :
    Prop where
  nextSeq_eq : b.nextSeq = a.nextSeq + given.length
  seqs_eq : given.map (·.2) = List.range' a.nextSeq given.length
  takenOn_eq : ∀ link, b.takenOn link = a.takenOn link + given.countP fun p => p.1 = link
  within : ∀ link, a.takenOn link ≤ room link → b.takenOn link ≤ room link

namespace Ledger

variable {room : LinkId → Nat} {given more : List (LinkId × Nat)} {a b c : Ledger}
  {link : LinkId} {seq : Nat}

@[simp] theorem takenOn_empty (link : LinkId) : empty.takenOn link = 0 := by
  simp [empty, takenOn]

theorem Extends.refl (room : LinkId → Nat) (a : Ledger) : Extends room [] a a :=
  ⟨rfl, rfl, fun _ => rfl, fun _ h => h⟩

theorem Extends.append (h : Extends room given a b) (h' : Extends room more b c) :
    Extends room (given ++ more) a c := by
  refine ⟨?_, ?_, ?_, fun link hroom => h'.within link (h.within link hroom)⟩
  · rw [h'.nextSeq_eq, h.nextSeq_eq, List.length_append, Nat.add_assoc]
  · rw [List.map_append, h.seqs_eq, h'.seqs_eq, h.nextSeq_eq, List.length_append,
      List.range'_append_1]
  · intro link
    rw [h'.takenOn_eq, h.takenOn_eq, List.countP_append, Nat.add_assoc]

theorem Extends.reserve (h : a.reserve? room link = some (seq, b)) :
    Extends room [(link, seq)] a b := by
  unfold reserve? at h
  split at h
  · rename_i hroom
    cases h
    have htaken : ∀ other, (⟨a.taken.insert link (a.takenOn link + 1), a.nextSeq + 1⟩ :
        Ledger).takenOn other = if link = other then a.takenOn link + 1 else a.takenOn other := by
      intro other
      simp only [takenOn, Std.ExtTreeMap.getD_insert, Std.LawfulEqCmp.compare_eq_iff_eq]
    refine ⟨rfl, rfl, ?_, ?_⟩
    · intro other
      rw [htaken]
      by_cases hsame : link = other
      · simp [hsame]
      · simp [hsame]
    · intro other hother
      rw [htaken]
      by_cases hsame : link = other
      · rw [if_pos hsame, ← hsame]
        exact hroom
      · rw [if_neg hsame]
        exact hother
  · cases h

end Ledger

namespace Resolution

variable {room : LinkId → Nat}

theorem decideLink_extends (room : LinkId → Nat) (offers : List Offer) (ledger : Ledger) :
    Ledger.Extends room (passages (decideLink room offers ledger).1.rulings) ledger
      (decideLink room offers ledger).2 := by
  induction offers generalizing ledger with
  | nil => exact Ledger.Extends.refl room ledger
  | cons offer rest ih =>
      cases offer with
      | arrive agent => exact ih ledger
      | move agent target firstAttempt =>
          rw [decideLink]
          cases hreserve : ledger.reserve? room target with
          | none => exact Ledger.Extends.refl room ledger
          | some taken => exact (Ledger.Extends.reserve hreserve).append (ih taken.2)

theorem decideLinks_extends (room : LinkId → Nat) (entries : List (LinkId × List Offer))
    (ledger : Ledger) :
    Ledger.Extends room
      (passages ((decideLinks room entries ledger).1.flatMap fun entry => entry.2.rulings)) ledger
      (decideLinks room entries ledger).2 := by
  induction entries generalizing ledger with
  | nil => exact Ledger.Extends.refl room ledger
  | cons entry rest ih =>
      have hfirst := decideLink_extends room entry.2 ledger
      have happend := hfirst.append (ih (decideLink room entry.2 ledger).2)
      rw [← passages_append] at happend
      exact happend

theorem decideDepartures_extends (room : LinkId → Nat)
    (entries : List (AgentId × DepartureOffer)) (ledger : Ledger) :
    Ledger.Extends room
      (passages (Verdicts.departureRulings (decideDepartures room entries ledger).1)) ledger
      (decideDepartures room entries ledger).2 := by
  induction entries generalizing ledger with
  | nil => exact Ledger.Extends.refl room ledger
  | cons entry rest ih =>
      simp only [decideDepartures, decideDeparture]
      cases hreserve : ledger.reserve? room entry.2.link with
      | none => exact ih ledger
      | some taken => exact (Ledger.Extends.reserve hreserve).append (ih taken.2)

/-- Whom a decision does not concern gets no place by it. -/
theorem passages_filter_matters (departures : List (AgentId × DepartureVerdict)) :
    passages (Verdicts.departureRulings (departures.filter fun entry => entry.2.matters)) =
      passages (Verdicts.departureRulings departures) := by
  have hnone : ∀ v : DepartureVerdict, v.matters = false → v.ruling.passage? = none := by
    intro v hv
    cases hseq : v.seq? with
    | none => simp [DepartureVerdict.ruling, hseq, Ruling.passage?]
    | some seq => simp [DepartureVerdict.matters, hseq] at hv
  simp only [passages, Verdicts.departureRulings, List.filterMap_map, List.filterMap_filter]
  apply List.filterMap_congr
  intro entry _
  cases hmatters : entry.2.matters with
  | true => rfl
  | false => exact (hnone entry.2 hmatters).symm

theorem ofOffers_extends (freeAtStart : LinkId → Nat) (offers : Offers) :
    ∃ ledger, Ledger.Extends (Resolution.room freeAtStart (exits offers))
      (passages (ofOffers freeAtStart offers).rulings) .empty ledger := by
  have hlinks := decideLinks_extends (Resolution.room freeAtStart (exits offers))
    offers.links .empty
  have hdepartures := decideDepartures_extends
    (Resolution.room freeAtStart (exits offers)) offers.departures
    (decideLinks (Resolution.room freeAtStart (exits offers)) offers.links .empty).2
  rw [← passages_filter_matters] at hdepartures
  have htogether := hlinks.append hdepartures
  rw [← passages_append] at htogether
  exact ⟨_, htogether⟩

/-- The numbers that are given out ascend. -/
theorem pairwise_passages (freeAtStart : LinkId → Nat) (offers : Offers) :
    (passages (ofOffers freeAtStart offers).rulings).Pairwise fun a b => a.2 < b.2 := by
  obtain ⟨ledger, hextends⟩ := ofOffers_extends freeAtStart offers
  apply List.pairwise_map.1
  rw [hextends.seqs_eq]
  exact List.pairwise_lt_range'

/-- No link gives more places than it has. -/
theorem countP_passages_le (freeAtStart : LinkId → Nat) (offers : Offers) (link : LinkId) :
    (passages (ofOffers freeAtStart offers).rulings).countP (fun p => p.1 = link) ≤
      Resolution.room freeAtStart (exits offers) link := by
  obtain ⟨ledger, hextends⟩ := ofOffers_extends freeAtStart offers
  have htaken := hextends.takenOn_eq link
  rw [Ledger.takenOn_empty, Nat.zero_add] at htaken
  rw [← htaken]
  exact hextends.within link (by rw [Ledger.takenOn_empty]; exact Nat.zero_le _)

end Resolution

/-! ## Answers -/

/-- A ruling that may be given in answer to an offer. -/
def Offer.Permits : Offer → Ruling → Prop
  | .arrive _, .arrive => True
  | .move _ target _, .move next (some _) => next = target
  | .move _ target _, .hold next => next = target
  | _, _ => False

/-- A decision on the offers of a link answers them from the front, as far as the first refusal. -/
inductive Answers : List Offer → LinkVerdict → Prop
  | nobody : Answers [] ⟨[], none⟩
  | refused (agent : AgentId) (target : LinkId) (firstAttempt : Bool) (rest : List Offer) :
      Answers (.move agent target firstAttempt :: rest) ⟨[], some ⟨agent, target, firstAttempt⟩⟩
  | arrives (agent : AgentId) {rest : List Offer} {v : LinkVerdict} (h : Answers rest v) :
      Answers (.arrive agent :: rest) ⟨.arrive agent :: v.grants, v.refusal?⟩
  | moves (agent : AgentId) (target : LinkId) (firstAttempt : Bool) (seq : Nat)
      {rest : List Offer} {v : LinkVerdict} (h : Answers rest v) :
      Answers (.move agent target firstAttempt :: rest)
        ⟨.move agent target (some seq) :: v.grants, v.refusal?⟩

namespace Answers

variable {offers : List Offer} {v : LinkVerdict}

theorem length_le (h : Answers offers v) : v.grants.length ≤ offers.length := by
  induction h with
  | nobody => exact Nat.le_refl _
  | refused => exact Nat.zero_le _
  | arrives _ _ ih => exact Nat.succ_le_succ ih
  | moves _ _ _ _ _ ih => exact Nat.succ_le_succ ih

theorem agents_eq (h : Answers offers v) :
    v.grants.map Grant.agent = (offers.map Offer.agent).take v.grants.length := by
  induction h with
  | nobody => rfl
  | refused => rfl
  | arrives agent _ ih => simpa [Grant.agent, Offer.agent] using ih
  | moves agent target _ seq _ ih => simpa [Grant.agent, Offer.agent] using ih

theorem certainExits_le (h : Answers offers v) :
    Offers.certainExits offers ≤ v.grants.length := by
  induction h with
  | nobody => exact Nat.le_refl _
  | refused => exact Nat.zero_le _
  | arrives _ _ ih =>
      simp only [Offers.certainExits, List.takeWhile_cons, Offer.isArrival, if_true,
        List.length_cons] at ih ⊢
      exact Nat.succ_le_succ ih
  | moves => exact Nat.zero_le _

/-- Those are told something who stand in front. -/
theorem rulings_isPrefix (h : Answers offers v) :
    v.rulings.map (·.1) <+: offers.map Offer.agent := by
  induction h with
  | nobody => exact List.nil_prefix
  | refused agent target _ rest =>
      simp only [LinkVerdict.rulings, List.map_nil, List.nil_append, Option.toList_some,
        List.map_cons, Offer.agent]
      exact List.cons_prefix_cons.2 ⟨rfl, List.nil_prefix⟩
  | arrives agent _ ih => exact List.cons_prefix_cons.2 ⟨rfl, ih⟩
  | moves agent target _ seq _ ih => exact List.cons_prefix_cons.2 ⟨rfl, ih⟩

theorem exists_offer (h : Answers offers v) {entry : AgentId × Ruling}
    (hentry : entry ∈ v.rulings) :
    ∃ offer ∈ offers, offer.agent = entry.1 ∧ offer.Permits entry.2 := by
  induction h with
  | nobody => cases hentry
  | refused agent target firstAttempt rest =>
      obtain rfl := List.mem_singleton.1 hentry
      exact ⟨_, List.mem_cons_self, rfl, rfl⟩
  | arrives agent _ ih =>
      rcases List.mem_cons.1 hentry with rfl | hrest
      · exact ⟨_, List.mem_cons_self, rfl, trivial⟩
      · obtain ⟨offer, hoffer, hanswer⟩ := ih hrest
        exact ⟨offer, List.mem_cons_of_mem _ hoffer, hanswer⟩
  | moves agent target _ seq _ ih =>
      rcases List.mem_cons.1 hentry with rfl | hrest
      · exact ⟨_, List.mem_cons_self, rfl, rfl⟩
      · obtain ⟨offer, hoffer, hanswer⟩ := ih hrest
        exact ⟨offer, List.mem_cons_of_mem _ hoffer, hanswer⟩

end Answers

namespace Resolution

variable {room : LinkId → Nat}

theorem answers_decideLink (offers : List Offer) (ledger : Ledger) :
    Answers offers (decideLink room offers ledger).1 := by
  induction offers generalizing ledger with
  | nil => exact .nobody
  | cons offer rest ih =>
      cases offer with
      | arrive agent => exact .arrives agent (ih ledger)
      | move agent target firstAttempt =>
          rw [decideLink]
          cases ledger.reserve? room target with
          | none => exact .refused agent target firstAttempt rest
          | some taken => exact .moves agent target firstAttempt taken.1 (ih taken.2)

theorem forall₂_decideLinks (entries : List (LinkId × List Offer)) (ledger : Ledger) :
    List.Forall₂ (fun offered decided => decided.1 = offered.1 ∧ Answers offered.2 decided.2)
      entries (decideLinks room entries ledger).1 := by
  induction entries generalizing ledger with
  | nil => exact .nil
  | cons entry rest ih => exact .cons ⟨rfl, answers_decideLink entry.2 ledger⟩ (ih _)

theorem forall₂_decideDepartures (entries : List (AgentId × DepartureOffer)) (ledger : Ledger) :
    List.Forall₂ (fun offered decided => decided.1 = offered.1 ∧
        decided.2.link = offered.2.link ∧ decided.2.firstAttempt = offered.2.firstAttempt)
      entries (decideDepartures room entries ledger).1 := by
  induction entries generalizing ledger with
  | nil => exact .nil
  | cons entry rest ih =>
      simp only [decideDepartures, decideDeparture]
      cases ledger.reserve? room entry.2.link with
      | none => exact .cons ⟨rfl, rfl, rfl⟩ (ih _)
      | some taken => exact .cons ⟨rfl, rfl, rfl⟩ (ih _)

/-! ## The decisions on all offers -/

section OfOffers

variable {freeAtStart : LinkId → Nat} {offers : Offers} {link : LinkId} {verdict : LinkVerdict}

theorem forall₂_links (freeAtStart : LinkId → Nat) (offers : Offers) :
    List.Forall₂ (fun offered decided => decided.1 = offered.1 ∧ Answers offered.2 decided.2)
      offers.links (ofOffers freeAtStart offers).links :=
  forall₂_decideLinks offers.links .empty

theorem forall₂_departures (freeAtStart : LinkId → Nat) (offers : Offers) :
    List.Forall₂ (fun offered decided => decided.1 = offered.1 ∧
        decided.2.link = offered.2.link ∧ decided.2.firstAttempt = offered.2.firstAttempt)
      offers.departures (ofOffers freeAtStart offers).departures :=
  forall₂_decideDepartures offers.departures _

theorem map_fst_links :
    (ofOffers freeAtStart offers).links.map (·.1) = offers.links.map (·.1) :=
  map_eq_map_of_forall₂ (forall₂_links freeAtStart offers) fun _ _ h => h.1

theorem map_fst_departures :
    (ofOffers freeAtStart offers).departures.map (·.1) = offers.departures.map (·.1) :=
  map_eq_map_of_forall₂ (forall₂_departures freeAtStart offers) fun _ _ h => h.1

theorem exists_verdict (freeAtStart : LinkId → Nat) {wanted : List Offer}
    (h : (link, wanted) ∈ offers.links) :
    ∃ verdict, (link, verdict) ∈ (ofOffers freeAtStart offers).links ∧ Answers wanted verdict := by
  obtain ⟨⟨_, verdict⟩, hmem, rfl, hanswers⟩ :=
    exists_mem_of_forall₂ (forall₂_links freeAtStart offers) h
  exact ⟨verdict, hmem, hanswers⟩

theorem exists_offers (h : (link, verdict) ∈ (ofOffers freeAtStart offers).links) :
    ∃ wanted, (link, wanted) ∈ offers.links ∧ Answers wanted verdict := by
  obtain ⟨⟨_, wanted⟩, hmem, rfl, hanswers⟩ :=
    exists_mem_of_forall₂ (forall₂_links freeAtStart offers).flip h
  exact ⟨wanted, hmem, hanswers⟩

theorem exists_departureOffer {entry : AgentId × DepartureVerdict}
    (h : entry ∈ (ofOffers freeAtStart offers).departures) :
    ∃ offer, (entry.1, offer) ∈ offers.departures ∧ entry.2.link = offer.link ∧
      entry.2.firstAttempt = offer.firstAttempt := by
  obtain ⟨⟨_, offer⟩, hmem, hkey, hlink, hfirst⟩ :=
    exists_mem_of_forall₂ (forall₂_departures freeAtStart offers).flip h
  exact ⟨offer, hkey ▸ hmem, hlink, hfirst⟩

theorem verdicts_links_eq_some_iff (hnodup : (offers.links.map (·.1)).Nodup) :
    (ofOffers freeAtStart offers).verdicts.links[link]? = some verdict ↔
      (link, verdict) ∈ (ofOffers freeAtStart offers).links := by
  have hkeys : ((ofOffers freeAtStart offers).links.map (·.1)).Nodup := by
    rw [map_fst_links]
    exact hnodup
  rw [verdicts, getElem?_ofList_ident hkeys]
  exact lookup_eq_some_iff_mem hkeys

theorem nodup_departures (hnodup : (offers.departures.map (·.1)).Nodup) :
    ((ofOffers freeAtStart offers).verdicts.departures.map (·.1)).Nodup := by
  apply (List.filter_sublist.map _).nodup
  rw [map_fst_departures]
  exact hnodup

/-- The certain exits of a link are those of its offers. -/
theorem exits_getD (hnodup : (offers.links.map (·.1)).Nodup) (link : LinkId) :
    (exits offers).getD link 0 = ((offers.links.lookup link).map Offers.certainExits).getD 0 := by
  have hkeys : ((offers.links.map fun entry =>
      (entry.1, Offers.certainExits entry.2)).map (·.1)).Nodup := by
    rwa [List.map_map]
  rw [exits, Std.ExtTreeMap.getD_eq_getD_getElem?, getElem?_ofList_ident hkeys, lookup_map_snd]

/-- A link with a decision has at most as many certain exits as grants. -/
theorem exits_le_of_mem (hnodup : (offers.links.map (·.1)).Nodup)
    (h : (link, verdict) ∈ (ofOffers freeAtStart offers).links) :
    (exits offers).getD link 0 ≤ verdict.grants.length := by
  obtain ⟨wanted, hwanted, hanswers⟩ := exists_offers h
  rw [exits_getD hnodup, (lookup_eq_some_iff_mem hnodup).2 hwanted]
  exact hanswers.certainExits_le

theorem exits_eq_zero (freeAtStart : LinkId → Nat) (hnodup : (offers.links.map (·.1)).Nodup)
    (h : ∀ verdict, (link, verdict) ∉ (ofOffers freeAtStart offers).links) :
    (exits offers).getD link 0 = 0 := by
  have hnone : offers.links.lookup link = none := by
    apply lookup_eq_none_of_not_mem
    intro hmem
    obtain ⟨⟨_, wanted⟩, hwanted, rfl⟩ := List.mem_map.1 hmem
    obtain ⟨verdict, hverdict, -⟩ := exists_verdict freeAtStart hwanted
    exact h verdict hverdict
  rw [exits_getD hnodup, hnone]
  rfl

end OfOffers

end Resolution

/-- Nobody is told two things when the rulings on each link concern different agents under way
there, and those on departures different agents that wait. -/
theorem nodup_map_fst_rulings {σ : AgentId → Situation} {links : List (LinkId × LinkVerdict)}
    {departures : List (AgentId × DepartureVerdict)} (hlinks : (links.map (·.1)).Nodup)
    (hsingle : ∀ entry ∈ links, (entry.2.rulings.map (·.1)).Nodup)
    (hunderWay : ∀ entry ∈ links, ∀ told ∈ entry.2.rulings,
      ∃ a held?, σ told.1 = .underWay a held? ∧ a.currentLink? = some entry.1)
    (hdepartures : (departures.map (·.1)).Nodup)
    (hwaiting : ∀ entry ∈ departures, ∃ a offer, σ entry.1 = .waiting a offer) :
    (((links.flatMap fun entry => entry.2.rulings) ++
      Verdicts.departureRulings departures).map (·.1)).Nodup := by
  have hkeys : (Verdicts.departureRulings departures).map (·.1) = departures.map (·.1) := by
    simp [Verdicts.departureRulings]
  rw [List.map_append, List.nodup_append, hkeys]
  refine ⟨?_, hdepartures, ?_⟩
  · rw [List.map_flatMap]
    refine nodup_flatMap_of_owner (fun entry => some entry.1) (fun id => (σ id).link?) ?_ hsingle ?_
    · have hnodup := hlinks.map fun _ _ hsame => Option.some.inj hsame
      rwa [List.map_map] at hnodup
    · intro entry hentry id hid
      obtain ⟨told, htold, rfl⟩ := List.mem_map.1 hid
      obtain ⟨a, held?, hsituation, hlink⟩ := hunderWay entry hentry told htold
      simp only [hsituation, Situation.link?, hlink]
  · rintro id hid _ hid' rfl
    obtain ⟨told, htold, rfl⟩ := List.mem_map.1 hid
    obtain ⟨entry, hentry, hruling⟩ := List.mem_flatMap.1 htold
    obtain ⟨a, held?, hsituation, -⟩ := hunderWay entry hentry told hruling
    obtain ⟨departure, hdeparture, hsame⟩ := List.mem_map.1 hid'
    obtain ⟨b, offer, hwaits⟩ := hwaiting departure hdeparture
    rw [hsame, hsituation] at hwaits
    cases hwaits

end Thoroughfare

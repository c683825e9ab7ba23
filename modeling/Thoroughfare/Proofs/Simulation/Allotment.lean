import Mathlib.Order.Bounds.Basic
import Thoroughfare.Proofs.Simulation.Contention
import Thoroughfare.Proofs.Simulation.Separation
import Thoroughfare.Proofs.Simulation.Tallies

/-!
# The allotment of places

The places of all links are given to those who ask first, in one order of all offers.  Whoever asks
gets a place exactly if one is left on its link, and with it the next number.  So on each link the
longest front of the queue goes on for which there are places, a link that refuses anybody has no
place left, and nothing depends on which district has published what.
-/

namespace Thoroughfare

/-! ## Who gets a place -/

namespace Offers

/-- What several districts have published, without any order. -/
def all (published : List Offers) : Offers :=
  ⟨published.flatMap Offers.links, published.flatMap Offers.departures⟩

/-- The places of a link in a step: those that are free at its beginning, and those of the agents
that leave the link whatever else happens. -/
def places (freeAtStart : LinkId → Nat) (o : Offers) (link : LinkId) : Nat :=
  freeAtStart link + certainExits ((o.links.lookup link).getD [])

/-- Someone in a queue asks for a place on a link that has none left, once all in front of it have
got theirs. -/
def RefusedAt (room taken : LinkId → Nat) (wanted : List Offer) (n : Nat) : Prop :=
  ∃ offer link, wanted[n]? = some offer ∧ offer.target? = some link ∧
    room link ≤ taken link + (wanted.take n).countP fun o => o.target? = some link

end Offers

/-- The allotment of places to some offers: to the longest front of each queue, one after the other
in the order of the links, and then to those who depart, in the order of the agents. -/
structure Resolution.Greedy (room : LinkId → Nat) (o : Offers) (r : Resolution) : Prop where
  links : (r.links.map (·.1)).Perm (o.links.map (·.1))
  links_ascend : (r.links.map (·.1)).Pairwise fun a b => a.index < b.index
  departures : (r.departures.map fun entry =>
    (entry.1, DepartureOffer.mk entry.2.link entry.2.firstAttempt)).Perm o.departures
  departures_ascend : (r.departures.map (·.1)).Pairwise fun a b => a.index < b.index
  /-- The longest front of a queue goes on in which nobody is refused, and whoever is refused stands
  right behind it. -/
  longest : ∀ before link verdict after, r.links = before ++ (link, verdict) :: after →
    ∀ wanted, (link, wanted) ∈ o.links →
      Answers wanted verdict ∧
      IsGreatest {n | n ≤ wanted.length ∧ ∀ m < n, ¬Offers.RefusedAt room
        (placesGiven (before.flatMap fun entry => entry.2.rulings)) wanted m}
        verdict.grants.length ∧
      (verdict.refusal?.isSome ↔ verdict.grants.length < wanted.length)
  /-- Whoever asks gets a place and the next number, if one of the places of its link is left. -/
  served : ∀ before entry after, r.answers = before ++ entry :: after →
    ∀ link, entry.2.target? = some link →
      entry.2.passage? =
        if placesGiven before link < room link then some (link, (passages before).length) else none
  within : ∀ link, placesGiven r.answers link ≤ room link
  /-- A link that refuses anybody gives all its places. -/
  full : ∀ refusal ∈ r.refusals, placesGiven r.answers refusal.target = room refusal.target
  /-- Nobody gets a place on a link that has refused someone before. -/
  never_after : ∀ before entry after, r.answers = before ++ entry :: after →
    ∀ link, entry.2.target? = some link → entry.2.passage? = none → placesGiven after link = 0
  seqs : (passages r.answers).map (·.2) = List.range (r.moves + r.departed)

/-! ## The longest front -/

namespace Offers

variable {room taken : LinkId → Nat} {offer : Offer} {rest : List Offer} {n : Nat}

theorem refusedAt_zero_iff :
    RefusedAt room taken (offer :: rest) 0 ↔
      ∃ link, offer.target? = some link ∧ room link ≤ taken link := by
  simp [RefusedAt]

/-- Behind someone who has got its place, one place less is left. -/
theorem refusedAt_succ_iff :
    RefusedAt room taken (offer :: rest) (n + 1) ↔
      RefusedAt room (fun link => taken link + if offer.target? = some link then 1 else 0) rest
        n := by
  simp only [RefusedAt, List.getElem?_cons_succ, List.take_succ_cons, List.countP_cons,
    decide_eq_true_eq]
  refine exists_congr fun _ => exists_congr fun link => and_congr_right fun _ =>
    and_congr_right fun _ => ?_
  rw [Nat.add_assoc, Nat.add_comm (List.countP _ _)]

/-- The longest front of a queue with one in front who gets its place. -/
theorem isGreatest_succ
    (hfirst : ∀ link, offer.target? = some link → taken link < room link)
    (h : IsGreatest {k | k ≤ rest.length ∧ ∀ m < k, ¬RefusedAt room
      (fun link => taken link + if offer.target? = some link then 1 else 0) rest m} n) :
    IsGreatest {k | k ≤ (offer :: rest).length ∧ ∀ m < k, ¬RefusedAt room taken (offer :: rest) m}
      (n + 1) := by
  obtain ⟨⟨hle, hplaced⟩, hgreatest⟩ := h
  constructor
  · refine ⟨Nat.succ_le_succ hle, fun m hm => ?_⟩
    rcases m with _ | m
    · rw [refusedAt_zero_iff]
      rintro ⟨link, hlink, hfull⟩
      exact Nat.not_lt.2 hfull (hfirst link hlink)
    · rw [refusedAt_succ_iff]
      exact hplaced m (Nat.lt_of_succ_lt_succ hm)
  · rintro k ⟨hk, hall⟩
    rcases k with _ | k
    · exact Nat.zero_le _
    · refine Nat.succ_le_succ (hgreatest ⟨Nat.le_of_succ_le_succ hk, fun m hm => ?_⟩)
      rw [← refusedAt_succ_iff]
      exact hall (m + 1) (Nat.succ_lt_succ hm)

/-- Nobody goes on from a queue with one in front who is refused. -/
theorem isGreatest_zero (h : RefusedAt room taken (offer :: rest) 0) :
    IsGreatest {k | k ≤ (offer :: rest).length ∧ ∀ m < k, ¬RefusedAt room taken (offer :: rest) m}
      0 := by
  refine ⟨⟨Nat.zero_le _, fun m hm => absurd hm (Nat.not_lt_zero m)⟩, ?_⟩
  rintro k ⟨-, hall⟩
  by_contra hk
  exact hall 0 (Nat.pos_of_ne_zero fun hzero => hk (Nat.le_of_eq hzero)) h

end Offers

/-- An answer covers the whole queue unless it refuses someone. -/
theorem Answers.isSome_refusal_iff {wanted : List Offer} {v : LinkVerdict} (h : Answers wanted v) :
    v.refusal?.isSome ↔ v.grants.length < wanted.length := by
  induction h with
  | nobody => simp
  | refused => simp
  | arrives _ _ ih => simpa using ih
  | moves _ _ _ _ _ ih => simpa using ih

namespace Resolution

variable {room : LinkId → Nat}

theorem isGreatest_decideLink (room : LinkId → Nat) (wanted : List Offer) (a : Ledger) :
    IsGreatest {n | n ≤ wanted.length ∧ ∀ m < n, ¬Offers.RefusedAt room a.takenOn wanted m}
      (decideLink room wanted a).1.grants.length := by
  induction wanted generalizing a with
  | nil => exact ⟨⟨Nat.le_refl _, by simp [decideLink]⟩, fun n hn => hn.1⟩
  | cons offer rest ih =>
      cases offer with
      | arrive agent =>
          refine Offers.isGreatest_succ ?_ ?_
          · intro link hlink
            cases hlink
          · simpa [Offer.target?] using ih a
      | move agent target firstAttempt =>
          rw [decideLink]
          cases hreserve : a.reserve? room target with
          | none =>
              exact Offers.isGreatest_zero (Offers.refusedAt_zero_iff.2
                ⟨target, rfl, Ledger.room_le_of_reserve?_eq_none hreserve⟩)
          | some taken =>
              have htaken : taken.2.takenOn = fun link => a.takenOn link +
                  if (Offer.move agent target firstAttempt).target? = some link then 1 else 0 := by
                funext link
                rw [(Ledger.Extends.reserve hreserve).takenOn_eq]
                simp [Offer.target?, List.countP_cons]
              refine Offers.isGreatest_succ ?_ (htaken ▸ ih taken.2)
              rintro link hlink
              cases hlink
              exact (Ledger.lt_of_reserve?_eq_some hreserve).1

/-- The queue of each link is decided when all links before it have been. -/
theorem exists_ledger_of_decideLinks {entries : List (LinkId × List Offer)} {a : Ledger}
    {before after : List (LinkId × LinkVerdict)} {link : LinkId} {verdict : LinkVerdict}
    (h : (decideLinks room entries a).1 = before ++ (link, verdict) :: after) :
    ∃ wanted b, (link, wanted) ∈ entries ∧
      Ledger.Extends room (passages (before.flatMap fun entry => entry.2.rulings)) a b ∧
      verdict = (decideLink room wanted b).1 := by
  induction entries generalizing a before with
  | nil => simp [decideLinks] at h
  | cons entry rest ih =>
      rw [decideLinks] at h
      rcases before with _ | ⟨first, before⟩
      · rw [List.nil_append, List.cons.injEq, Prod.mk.injEq] at h
        obtain ⟨⟨rfl, rfl⟩, -⟩ := h
        exact ⟨entry.2, a, List.mem_cons_self, .refl room a, rfl⟩
      · rw [List.cons_append, List.cons.injEq] at h
        obtain ⟨rfl, hrest⟩ := h
        obtain ⟨wanted, b, hwanted, hextends, hverdict⟩ := ih hrest
        refine ⟨wanted, b, List.mem_cons_of_mem _ hwanted, ?_, hverdict⟩
        rw [List.flatMap_cons, passages_append]
        exact (decideLink_extends room entry.2 a).append hextends

end Resolution

/-! ## The allotment -/

namespace Resolution

variable {freeAtStart : LinkId → Nat} {o : Offers}

theorem room_eq_places (freeAtStart : LinkId → Nat) (hnodup : (o.links.map (·.1)).Nodup) :
    room freeAtStart (exits o) = o.places freeAtStart := by
  funext link
  rw [room, exits_getD hnodup, Offers.places]
  cases o.links.lookup link <;> rfl

theorem passages_answers (r : Resolution) : passages r.answers = passages r.rulings := by
  rw [answers, rulings, passages_append, passages_append, verdicts, passages_filter_matters]

/-- Every move that is granted is numbered. -/
theorem isSome_passage?_of_isMove {entry : AgentId × Ruling}
    (h : entry ∈ (ofOffers freeAtStart o).rulings) (hmove : entry.2.isMove = true) :
    entry.2.passage?.isSome = true := by
  rcases List.mem_append.1 h with hlink | hdeparture
  · obtain ⟨⟨link, verdict⟩, hverdict, hruling⟩ := List.mem_flatMap.1 hlink
    obtain ⟨wanted, -, hanswers⟩ := exists_offers hverdict
    obtain ⟨offer, -, -, hpermits⟩ := hanswers.exists_offer hruling
    cases hentry : entry.2 with
    | move target seq? =>
        rw [hentry] at hpermits
        cases seq? with
        | none => cases offer <;> cases hpermits
        | some seq => rfl
    | _ =>
        rw [hentry] at hmove
        cases hmove
  · obtain ⟨departure, -, rfl⟩ := List.mem_map.1 hdeparture
    cases hseq : departure.2.seq? <;>
      simp [DepartureVerdict.ruling, hseq, Ruling.isMove] at hmove

/-- Each place that is given is given to a move or to a departure. -/
theorem length_passages {told : List (AgentId × Ruling)}
    (hnumbered : ∀ entry ∈ told, entry.2.isMove = true → entry.2.passage?.isSome = true) :
    (passages told).length = told.countP (fun entry => entry.2.isMove) +
      told.countP fun entry => entry.2.isDeparture := by
  rw [passages, List.length_filterMap_eq_countP]
  induction told with
  | nil => rfl
  | cons entry rest ih =>
      obtain ⟨hfirst, hrest⟩ := List.forall_mem_cons.1 hnumbered
      rw [List.countP_cons, List.countP_cons, List.countP_cons, ih hrest]
      revert hfirst
      cases entry.2 with
      | move target seq? =>
          cases seq? <;> simp [Ruling.passage?, Ruling.isMove, Ruling.isDeparture]
          omega
      | _ => simp [Ruling.passage?, Ruling.isMove, Ruling.isDeparture] <;> omega

theorem length_passages_answers (freeAtStart : LinkId → Nat) (o : Offers) :
    (passages (ofOffers freeAtStart o).answers).length =
      (ofOffers freeAtStart o).moves + (ofOffers freeAtStart o).departed := by
  obtain ⟨hdeparted, hmoves, -⟩ := countP_rulings (ofOffers freeAtStart o)
  rw [passages_answers, ← hdeparted, ← hmoves]
  exact length_passages fun entry => isSome_passage?_of_isMove

theorem placesGiven_answers_le (freeAtStart : LinkId → Nat) (o : Offers) (link : LinkId) :
    placesGiven (ofOffers freeAtStart o).answers link ≤ room freeAtStart (exits o) link := by
  rw [placesGiven, passages_answers]
  exact countP_passages_le freeAtStart o link

/-- Nobody gets a place on a link on which someone was refused before. -/
theorem placesGiven_eq_zero_of_refused {before after : List (AgentId × Ruling)}
    {entry : AgentId × Ruling} {link : LinkId}
    (hsplit : (ofOffers freeAtStart o).answers = before ++ entry :: after)
    (hlink : entry.2.target? = some link) (hrefused : entry.2.passage? = none) :
    placesGiven after link = 0 := by
  have hfull : room freeAtStart (exits o) link ≤ placesGiven before link := by
    rw [passage?_of_target? freeAtStart hsplit hlink] at hrefused
    by_contra hleft
    rw [if_pos (Nat.lt_of_not_le hleft)] at hrefused
    cases hrefused
  have hall := placesGiven_answers_le freeAtStart o link
  rw [hsplit, List.append_cons, placesGiven_append, placesGiven_append] at hall
  omega

theorem map_snd_passages (freeAtStart : LinkId → Nat) (o : Offers) :
    (passages (ofOffers freeAtStart o).answers).map (·.2) =
      List.range ((ofOffers freeAtStart o).moves + (ofOffers freeAtStart o).departed) := by
  obtain ⟨last, hgiven⟩ := ofOffers_extends freeAtStart o
  rw [← passages_answers] at hgiven
  rw [hgiven.seqs_eq, length_passages_answers, List.range_eq_range']
  rfl

/-- As many go on from each queue as find places when those of all links before have got theirs. -/
theorem isGreatest_of_links_eq (hnodup : (o.links.map (·.1)).Nodup)
    {before after : List (LinkId × LinkVerdict)} {link : LinkId} {verdict : LinkVerdict}
    (hsplit : (ofOffers freeAtStart o).links = before ++ (link, verdict) :: after)
    {wanted : List Offer} (hwanted : (link, wanted) ∈ o.links) :
    Answers wanted verdict ∧
      IsGreatest {n | n ≤ wanted.length ∧ ∀ m < n, ¬Offers.RefusedAt (room freeAtStart (exits o))
        (placesGiven (before.flatMap fun entry => entry.2.rulings)) wanted m}
        verdict.grants.length := by
  obtain ⟨asked, a, hasked, hgiven, rfl⟩ := exists_ledger_of_decideLinks hsplit
  have hlookup := (lookup_eq_some_iff_mem hnodup).2 hasked
  rw [(lookup_eq_some_iff_mem hnodup).2 hwanted] at hlookup
  obtain rfl := Option.some.inj hlookup
  have htaken : a.takenOn = placesGiven (before.flatMap fun entry => entry.2.rulings) := by
    funext other
    rw [hgiven.takenOn_eq, Ledger.takenOn_empty, Nat.zero_add]
    rfl
  rw [← htaken]
  exact ⟨answers_decideLink wanted a, isGreatest_decideLink _ wanted a⟩

theorem map_departures (freeAtStart : LinkId → Nat) (o : Offers) :
    (ofOffers freeAtStart o).departures.map (fun entry =>
      (entry.1, DepartureOffer.mk entry.2.link entry.2.firstAttempt)) = o.departures := by
  have hsame := map_eq_map_of_forall₂ (f := id)
    (k := fun entry => (entry.1, DepartureOffer.mk entry.2.link entry.2.firstAttempt))
    (forall₂_departures freeAtStart o) ?_
  · rw [hsame, List.map_id]
  · rintro ⟨_, _, _⟩ decided ⟨rfl, rfl, rfl⟩
    rfl

/-- Offers in order are decided in this order. -/
theorem greedy_ofOffers (freeAtStart : LinkId → Nat)
    (hlinks : (o.links.map (·.1)).Pairwise fun a b => a.index < b.index)
    (hdepartures : (o.departures.map (·.1)).Pairwise fun a b => a.index < b.index) :
    (ofOffers freeAtStart o).Greedy (o.places freeAtStart) o := by
  have hnodup : (o.links.map (·.1)).Nodup :=
    hlinks.imp fun hlt hsame => Nat.ne_of_lt hlt (congrArg Ident.index hsame)
  rw [← room_eq_places freeAtStart hnodup]
  constructor
  case links => rw [map_fst_links]
  case links_ascend => rwa [map_fst_links]
  case departures => rw [map_departures]
  case departures_ascend => rwa [map_fst_departures]
  case longest =>
    intro before link verdict after hsplit wanted hwanted
    obtain ⟨hanswers, hgreatest⟩ := isGreatest_of_links_eq hnodup hsplit hwanted
    exact ⟨hanswers, hgreatest, hanswers.isSome_refusal_iff⟩
  case served => exact fun _ _ _ hsplit _ hlink => passage?_of_target? freeAtStart hsplit hlink
  case within => exact placesGiven_answers_le freeAtStart o
  case full =>
    intro refusal hrefusal
    exact Nat.le_antisymm (placesGiven_answers_le freeAtStart o _)
      (room_le_of_mem_refusals hrefusal)
  case never_after =>
    exact fun _ _ _ hsplit _ hlink hrefused => placesGiven_eq_zero_of_refused hsplit hlink hrefused
  case seqs => exact map_snd_passages freeAtStart o

theorem Greedy.of_perm {room : LinkId → Nat} {o' : Offers} {r : Resolution} (h : r.Greedy room o)
    (hlinks : o.links.Perm o'.links) (hdepartures : o.departures.Perm o'.departures) :
    r.Greedy room o' :=
  { h with
    links := h.links.trans (hlinks.map _)
    departures := h.departures.trans hdepartures
    longest := fun before link verdict after hsplit wanted hwanted =>
      h.longest before link verdict after hsplit wanted (hlinks.mem_iff.2 hwanted) }

end Resolution

namespace Offers

/-- The links of the offers of all districts have as many places in whatever order they come. -/
theorem places_gather (freeAtStart : LinkId → Nat) {published : List Offers}
    (hnodup : ((all published).links.map (·.1)).Nodup) :
    (gather published).places freeAtStart = (all published).places freeAtStart := by
  have hperm : (gather published).links.Perm (all published).links := perm_ascending _
  funext link
  have hlookup : (gather published).links.lookup link = (all published).links.lookup link := by
    apply Option.ext
    intro wanted
    rw [lookup_eq_some_iff_mem ((hperm.map _).nodup_iff.2 hnodup), lookup_eq_some_iff_mem hnodup,
      hperm.mem_iff]
  rw [places, places, hlookup]

end Offers

/-! ## Who publishes what -/

/-- The places of a step are given to those who ask first, in an order that all districts share,
whoever of them publishes which offers. -/
theorem resolution_is_greedy (freeAtStart : LinkId → Nat) {published : List Offers}
    (hlinks : ((Offers.all published).links.map (·.1)).Nodup)
    (hdepartures : ((Offers.all published).departures.map (·.1)).Nodup) :
    (Resolution.ofOffers freeAtStart (.gather published)).Greedy
        ((Offers.all published).places freeAtStart) (.all published) ∧
      ∀ other : List Offers, (Offers.all other).links.Perm (Offers.all published).links →
        (Offers.all other).departures.Perm (Offers.all published).departures →
          Resolution.ofOffers freeAtStart (.gather other) =
            Resolution.ofOffers freeAtStart (.gather published) := by
  have hlinkPerm : (Offers.gather published).links.Perm (Offers.all published).links :=
    perm_ascending _
  have hdeparturePerm :
      (Offers.gather published).departures.Perm (Offers.all published).departures :=
    perm_ascending _
  constructor
  · rw [← Offers.places_gather freeAtStart hlinks]
    refine (Resolution.greedy_ofOffers freeAtStart ?_ ?_).of_perm hlinkPerm hdeparturePerm
    · exact pairwise_lt_ascending ((hlinkPerm.map _).nodup_iff.2 hlinks)
    · exact pairwise_lt_ascending ((hdeparturePerm.map _).nodup_iff.2 hdepartures)
  · intro other hsameLinks hsameDepartures
    have hgather : Offers.gather other = Offers.gather published := congrArg₂ Offers.mk
      (ascending_eq_of_perm hsameLinks ((hsameLinks.map _).nodup_iff.2 hlinks))
      (ascending_eq_of_perm hsameDepartures ((hsameDepartures.map _).nodup_iff.2 hdepartures))
    rw [hgather]

/-- Two districts at a crossing: on link 1 one agent arrives and another takes the only place on
link 2, so the next one behind it and the one on link 3 are refused; of those who wait for link 1,
one takes the place of the agent that arrived. -/
def crossing : List Offers :=
  [⟨[(⟨1⟩, [.arrive ⟨10⟩, .move ⟨11⟩ ⟨2⟩ true, .move ⟨12⟩ ⟨2⟩ false])], [(⟨7⟩, ⟨⟨1⟩, true⟩)]⟩,
    ⟨[(⟨3⟩, [.move ⟨30⟩ ⟨2⟩ true])], [(⟨9⟩, ⟨⟨1⟩, true⟩)]⟩]

theorem resolution_is_greedy_crossing :
    ((Offers.all crossing).links.map (·.1)).Nodup ∧
      ((Offers.all crossing).departures.map (·.1)).Nodup ∧
      (Resolution.ofOffers (fun link => if link = ⟨2⟩ then 1 else 0) (.gather crossing)).Greedy
        ((Offers.all crossing).places fun link => if link = ⟨2⟩ then 1 else 0) (.all crossing) ∧
      Resolution.ofOffers (fun link => if link = ⟨2⟩ then 1 else 0) (.gather crossing.reverse) =
        Resolution.ofOffers (fun link => if link = ⟨2⟩ then 1 else 0) (.gather crossing) ∧
      Resolution.ofOffers (fun link => if link = ⟨2⟩ then 1 else 0) (.gather crossing) =
        ⟨[(⟨1⟩, ⟨[.arrive ⟨10⟩, .move ⟨11⟩ ⟨2⟩ (some 0)], some ⟨⟨12⟩, ⟨2⟩, false⟩⟩),
            (⟨3⟩, ⟨[], some ⟨⟨30⟩, ⟨2⟩, true⟩⟩)],
          [(⟨7⟩, ⟨⟨1⟩, true, some 1⟩), (⟨9⟩, ⟨⟨1⟩, true, none⟩)]⟩ := by
  have hlinks : ((Offers.all crossing).links.map (·.1)).Nodup := by decide
  have hdepartures : ((Offers.all crossing).departures.map (·.1)).Nodup := by decide
  obtain ⟨hgreedy, hsame⟩ :=
    resolution_is_greedy (fun link => if link = ⟨2⟩ then 1 else 0) hlinks hdepartures
  exact ⟨hlinks, hdepartures, hgreedy, hsame crossing.reverse (by decide) (by decide),
    by decide⟩

end Thoroughfare

import Thoroughfare.Proofs.Simulation.Refusals

/-!
# Contention for links

The places of all links are given in the order of asking, so an agent is refused a place on a link
only when all places of the link were given to others in the same step.  Those who want to enter a
link are different agents, and as long as no leg lists a link twice in a row none of them stands on
it.  So all of them and those who stand there are no more than there are agents.
-/

namespace Thoroughfare

/-! ## In the order of asking -/

/-- How many places on a link some rulings give. -/
def placesGiven (told : List (AgentId × Ruling)) (link : LinkId) : Nat :=
  (passages told).countP fun p => p.1 = link

theorem placesGiven_append (told more : List (AgentId × Ruling)) (link : LinkId) :
    placesGiven (told ++ more) link = placesGiven told link + placesGiven more link := by
  rw [placesGiven, passages_append, List.countP_append]
  rfl

/-- The link that a decision is about. -/
def Ruling.target? : Ruling → Option LinkId
  | arrive => none
  | move target _ => some target
  | hold target => some target
  | depart link _ => some link
  | wait link => some link

theorem Ruling.target?_of_passage? {ruling : Ruling} {p : LinkId × Nat}
    (h : ruling.passage? = some p) : ruling.target? = some p.1 := by
  cases ruling with
  | move target seq? =>
      obtain ⟨seq, -, rfl⟩ := Option.map_eq_some_iff.1 h
      rfl
  | _ => cases h <;> rfl

namespace Ledger

variable {room : LinkId → Nat} {a b : Ledger} {link : LinkId} {seq : Nat}

theorem room_le_of_reserve?_eq_none (h : a.reserve? room link = none) :
    room link ≤ a.takenOn link := by
  unfold reserve? at h
  split at h
  · cases h
  · rename_i hfull
    exact Nat.le_of_not_lt hfull

theorem lt_of_reserve?_eq_some (h : a.reserve? room link = some (seq, b)) :
    a.takenOn link < room link ∧ seq = a.nextSeq := by
  unfold reserve? at h
  split at h
  · rename_i hleft
    cases h
    exact ⟨hleft, rfl⟩
  · cases h

/-- Whoever asks for a place gets one and the next number, if one of the places of its link is
left. -/
def Serves (room : LinkId → Nat) (a : Ledger) (told : List (AgentId × Ruling)) : Prop :=
  ∀ before entry after, told = before ++ entry :: after → ∀ link, entry.2.target? = some link →
    entry.2.passage? =
      if a.takenOn link + placesGiven before link < room link then
        some (link, a.nextSeq + (passages before).length)
      else none

variable {told more : List (AgentId × Ruling)} {entry : AgentId × Ruling}

theorem Serves.nil (room : LinkId → Nat) (a : Ledger) : a.Serves room [] := by
  intro before entry after hsplit
  simp at hsplit

theorem Serves.singleton (h : ∀ link, entry.2.target? = some link →
    entry.2.passage? = if a.takenOn link < room link then some (link, a.nextSeq) else none) :
    a.Serves room [entry] := by
  intro before asked after hsplit link hlink
  obtain ⟨rfl, hrest⟩ | ⟨-, hnil⟩ := List.singleton_eq_append_iff.1 hsplit
  · cases hrest
    exact h link hlink
  · cases hnil

/-- Those who ask later get what is left then. -/
theorem Serves.append (h : a.Serves room told) (hgiven : Extends room (passages told) a b)
    (hmore : b.Serves room more) : a.Serves room (told ++ more) := by
  intro before asked after hsplit link hlink
  obtain ⟨rest, hfirst, -⟩ | ⟨start, rfl, hsecond⟩ := append_eq_append_cons hsplit
  · exact h before asked rest hfirst link hlink
  · rw [hmore start asked after hsecond link hlink, hgiven.takenOn_eq, hgiven.nextSeq_eq,
      placesGiven_append, passages_append, List.length_append, Nat.add_assoc, Nat.add_assoc]
    rfl

theorem Serves.granted {agent : AgentId} {ruling : Ruling}
    (h : a.reserve? room link = some (seq, b)) (htarget : ruling.target? = some link)
    (hpassage : ruling.passage? = some (link, seq)) : a.Serves room [(agent, ruling)] := by
  obtain ⟨hleft, rfl⟩ := lt_of_reserve?_eq_some h
  refine Serves.singleton fun target hsame => ?_
  cases htarget.symm.trans hsame
  rw [hpassage, if_pos hleft]

theorem Serves.refused {agent : AgentId} {ruling : Ruling} (h : a.reserve? room link = none)
    (htarget : ruling.target? = some link) (hpassage : ruling.passage? = none) :
    a.Serves room [(agent, ruling)] := by
  refine Serves.singleton fun target hsame => ?_
  cases htarget.symm.trans hsame
  rw [hpassage, if_neg (Nat.not_lt.2 (room_le_of_reserve?_eq_none h))]

end Ledger

namespace Resolution

variable {room : LinkId → Nat}

theorem serves_decideLink (room : LinkId → Nat) (wanted : List Offer) (a : Ledger) :
    a.Serves room (decideLink room wanted a).1.rulings := by
  induction wanted generalizing a with
  | nil => exact .nil room a
  | cons offer rest ih =>
      cases offer with
      | arrive agent =>
          have hfirst : a.Serves room [(agent, .arrive)] := by
            refine .singleton fun link hlink => ?_
            cases hlink
          exact hfirst.append (.refl room a) (ih a)
      | move agent target firstAttempt =>
          rw [decideLink]
          cases hreserve : a.reserve? room target with
          | none => exact .refused hreserve rfl rfl
          | some taken =>
              have hfirst : a.Serves room [(agent, .move target (some taken.1))] :=
                .granted hreserve rfl rfl
              exact hfirst.append (.reserve hreserve) (ih taken.2)

theorem serves_decideLinks (room : LinkId → Nat) (entries : List (LinkId × List Offer))
    (a : Ledger) :
    a.Serves room ((decideLinks room entries a).1.flatMap fun entry => entry.2.rulings) := by
  induction entries generalizing a with
  | nil => exact .nil room a
  | cons entry rest ih =>
      exact (serves_decideLink room entry.2 a).append (decideLink_extends room entry.2 a) (ih _)

theorem serves_decideDepartures (room : LinkId → Nat) (entries : List (AgentId × DepartureOffer))
    (a : Ledger) :
    a.Serves room (Verdicts.departureRulings (decideDepartures room entries a).1) := by
  induction entries generalizing a with
  | nil => exact .nil room a
  | cons entry rest ih =>
      simp only [decideDepartures, decideDeparture]
      cases hreserve : a.reserve? room entry.2.link with
      | none =>
          have hfirst : a.Serves room [(entry.1, .wait entry.2.link)] := .refused hreserve rfl rfl
          exact hfirst.append (.refl room a) (ih a)
      | some taken =>
          have hfirst : a.Serves room [(entry.1, .depart entry.2.link taken.1)] :=
            .granted hreserve rfl rfl
          exact hfirst.append (.reserve hreserve) (ih taken.2)

/-- Whoever asks gets a place and the next number, if one of the places of its link is left. -/
theorem passage?_of_target? (freeAtStart : LinkId → Nat) {o : Offers}
    {before after : List (AgentId × Ruling)} {entry : AgentId × Ruling} {link : LinkId}
    (hsplit : (ofOffers freeAtStart o).answers = before ++ entry :: after)
    (hlink : entry.2.target? = some link) :
    entry.2.passage? =
      if placesGiven before link < Resolution.room freeAtStart (exits o) link then
        some (link, (passages before).length)
      else none := by
  have hserves : Ledger.empty.Serves (Resolution.room freeAtStart (exits o))
      (ofOffers freeAtStart o).answers :=
    (serves_decideLinks _ o.links .empty).append (decideLinks_extends _ o.links .empty)
      (serves_decideDepartures _ o.departures _)
  have hasked := hserves before entry after hsplit link hlink
  rwa [Ledger.takenOn_empty, Nat.zero_add, show Ledger.empty.nextSeq = 0 from rfl,
    Nat.zero_add] at hasked

end Resolution

/-! ## Who wants to enter a link -/

/-- The link that an agent wants to enter. -/
def Situation.wants? : Situation → Option LinkId
  | waiting a _ => a.currentLink?
  | underWay a _ => a.nextLink?
  | _ => none

theorem Situation.Fits.wants?_eq {σ : Situation} {ruling : Ruling} (h : σ.Fits ruling)
    {target : LinkId} (htarget : ruling.target? = some target) : σ.wants? = some target := by
  cases h with
  | arrive => cases htarget
  | move _ _ hnext => exact hnext.trans htarget
  | hold _ hnext => exact hnext.trans htarget
  | depart _ _ hlink => exact hlink.trans htarget
  | wait _ hlink => exact hlink.trans htarget

namespace Resolution

variable {r : Resolution} {refusal : Refusal}

theorem exists_answer_of_mem_refusals (h : refusal ∈ r.refusals) :
    ∃ ruling, (refusal.agent, ruling) ∈ r.answers ∧ ruling.target? = some refusal.target ∧
      ruling.passage? = none := by
  rcases mem_refusals_iff.1 h with ⟨entry, hentry, hrefusal⟩ | ⟨entry, hentry, hnone, rfl⟩
  · refine ⟨.hold refusal.target, List.mem_append_left _ ?_, rfl, rfl⟩
    refine List.mem_flatMap.2 ⟨entry, hentry, List.mem_append_right _ ?_⟩
    exact List.mem_map.2 ⟨refusal, Option.mem_toList.2 hrefusal, rfl⟩
  · refine ⟨.wait entry.2.link, List.mem_append_right _ ?_, rfl, rfl⟩
    refine List.mem_map.2 ⟨entry, hentry, ?_⟩
    rw [DepartureVerdict.ruling, hnone]

/-- Whoever is refused finds all places of the link given to others. -/
theorem room_le_of_mem_refusals {freeAtStart : LinkId → Nat} {o : Offers}
    (h : refusal ∈ (ofOffers freeAtStart o).refusals) :
    room freeAtStart (exits o) refusal.target ≤
      placesGiven (ofOffers freeAtStart o).answers refusal.target := by
  obtain ⟨ruling, hanswer, htarget, hnone⟩ := exists_answer_of_mem_refusals h
  obtain ⟨before, after, hsplit⟩ := List.append_of_mem hanswer
  have hasked := passage?_of_target? freeAtStart hsplit htarget
  rw [hnone] at hasked
  rw [hsplit, placesGiven_append]
  by_contra hleft
  rw [if_pos (by omega)] at hasked
  cases hasked

/-- Whoever is refused wants to enter the link besides all those who may. -/
theorem placesGiven_lt (h : refusal ∈ r.refusals) :
    placesGiven r.answers refusal.target <
      r.answers.countP fun entry => entry.2.target? = some refusal.target := by
  obtain ⟨ruling, hanswer, htarget, hnone⟩ := exists_answer_of_mem_refusals h
  have hpassages : placesGiven r.answers refusal.target =
      (r.answers.filter fun entry => entry.2.passage?.isSome).countP
        fun entry => entry.2.target? = some refusal.target := by
    rw [placesGiven, passages, List.countP_filterMap, List.countP_filter]
    refine List.countP_congr fun entry _ => ?_
    cases hpassage : entry.2.passage? with
    | none => simp
    | some p => simp [Ruling.target?_of_passage? hpassage]
  rw [List.countP_eq_countP_filter_add r.answers
    (fun entry => entry.2.target? = some refusal.target) fun entry => entry.2.passage?.isSome,
    hpassages]
  refine Nat.lt_add_of_pos_right (List.countP_pos_iff.2 ⟨_, List.mem_filter.2 ⟨hanswer, ?_⟩, ?_⟩)
  · simp [hnone]
  · simp [htarget]

end Resolution

namespace City.Sound

variable {α : Type} [Quantity α] {g : Network} {p : Partitioning} {tick : Tick} {now : Nat}
  {districts : List (District α)} {ids : List AgentId} {link : LinkId}

theorem wants?_of_answer (h : Sound g p tick districts) {entry : AgentId × Ruling}
    (hentry : entry ∈ (resolution p districts now).answers)
    (htarget : entry.2.target? = some link) :
    (situation districts entry.1).wants? = some link := by
  rcases List.mem_append.1 hentry with hlink | hdeparture
  · exact (h.fits_of_ruling (List.mem_append_left _ hlink)).wants?_eq htarget
  · obtain ⟨departure, hmem, rfl⟩ := List.mem_map.1 hdeparture
    obtain ⟨offer, hoffer, hwish, -⟩ := Resolution.exists_departureOffer hmem
    obtain ⟨a, refused, hwaiting, hcurrent, -⟩ := Situation.departure?_eq_some_iff.1
      (h.mem_offers_departures_iff.1 hoffer)
    rw [hwaiting, Situation.wants?, hcurrent, ← hwish, ← htarget]
    cases hseq : departure.2.seq? <;> simp [DepartureVerdict.ruling, hseq, Ruling.target?]

/-- The decisions about a link are about different agents who want to enter it. -/
theorem countP_answers_le (h : Sound g p tick districts)
    (hids : ∀ id, situation districts id ≠ .absent → id ∈ ids) (now : Nat) (link : LinkId) :
    (resolution p districts now).answers.countP (fun entry => entry.2.target? = some link) ≤
      ids.countP fun id => (situation districts id).wants? = some link := by
  rw [List.countP_eq_length_filter, List.countP_eq_length_filter,
    ← List.length_map (f := fun entry : AgentId × Ruling => entry.1)]
  refine (List.subperm_of_subset ((List.filter_sublist.map _).nodup h.nodup_answers) ?_).length_le
  intro id hid
  obtain ⟨entry, hentry, rfl⟩ := List.mem_map.1 hid
  obtain ⟨hanswer, htarget⟩ := List.mem_filter.1 hentry
  have hwants := h.wants?_of_answer hanswer (of_decide_eq_true htarget)
  refine List.mem_filter.2 ⟨hids _ fun habsent => ?_, decide_eq_true hwants⟩
  rw [habsent] at hwants
  cases hwants

omit [Quantity α] in
/-- Those who want to enter a link and those who stand on it are different agents. -/
theorem countP_wants_add_length_le (h : Sound g p tick districts)
    (hids : ∀ id, situation districts id ≠ .absent → id ∈ ids) {q : LinkQueue α}
    (hq : Simulation.queueIn? p districts link = some q)
    (hothers : ∀ id ∈ q.agentIds, (situation districts id).wants? ≠ some link) :
    ids.countP (fun id => (situation districts id).wants? = some link) + q.agentIds.length ≤
      ids.length := by
  obtain ⟨d, hd, hlinks⟩ := h.queueIn?_eq_some_iff.1 hq
  rw [List.length_eq_countP_add_countP
    (fun id => decide ((situation districts id).wants? = some link)) (l := ids)]
  refine Nat.add_le_add_left ?_ _
  rw [List.countP_eq_length_filter]
  refine (List.subperm_of_subset ((h.each d hd).single link q hlinks) fun id hid => ?_).length_le
  obtain ⟨a, held?, hsituation, -⟩ := (h.each d hd).exists_underWay hlinks hid
  have hpresent : situation districts id ≠ .absent := by
    rw [h.situation_of_queued hd hlinks hid, hsituation]
    exact Situation.noConfusion
  refine List.mem_filter.2 ⟨hids id hpresent, ?_⟩
  simpa using hothers id hid

/-- A link with a place for everybody refuses nobody, as long as nobody who stands on it wants to
enter it. -/
theorem not_mem_refusals (h : Sound g p tick districts)
    (hids : ∀ id, situation districts id ≠ .absent → id ∈ ids) {refusal : Refusal}
    {q : LinkQueue α} (hq : Simulation.queueIn? p districts refusal.target = some q)
    (hfresh : q.startOccupancy = q.entries.length) (hroom : ids.length ≤ q.storage)
    (hothers : ∀ id ∈ q.agentIds, (situation districts id).wants? ≠ some refusal.target) :
    refusal ∉ (resolution p districts now).refusals := by
  intro hrefusal
  have hfree : Simulation.freeAtStart p districts refusal.target =
      q.storage - q.entries.length := by
    rw [Simulation.freeAtStart, hq, ← hfresh]
    rfl
  have hplaces : Simulation.freeAtStart p districts refusal.target ≤ _ :=
    Nat.le_trans (Nat.le_add_right _ _) (Resolution.room_le_of_mem_refusals hrefusal)
  have hlt := Resolution.placesGiven_lt hrefusal
  have hwanted := h.countP_answers_le hids now refusal.target
  have hothers := h.countP_wants_add_length_le hids hq hothers
  rw [LinkQueue.agentIds, List.length_map] at hothers
  rw [resolution] at hwanted hlt
  omega

end City.Sound

end Thoroughfare

import Thoroughfare.Proofs.Simulation.CarryingOut
import Thoroughfare.Proofs.Simulation.Waking

/-!
# Settling a district

The decisions of a step are made for all districts at once.  When they answer the wishes of a sound
district, then what they say about that district can be carried out: every ruling fits, nobody is
told two things, and the district is sound afterwards.
-/

namespace Thoroughfare

/-- Decisions that answer the wishes of a district. -/
structure Verdicts.Concern {α : Type} [Quantity α] (now : Nat) (d : District α) (v : Verdicts) :
    Prop where
  answered : ∀ (link : LinkId) (q : LinkQueue α), d.links[link]? = some q → q.offer now ≠ [] →
    ∃ verdict, v.links[link]? = some verdict ∧ Answers (d.offersOf (q.offer now)) verdict
  silent : ∀ (link : LinkId) (q : LinkQueue α), d.links[link]? = some q → q.offer now = [] →
    v.links[link]? = none
  single : (v.departures.map (·.1)).Nodup
  wished : ∀ entry ∈ v.departures, ∀ a refused, d.situation entry.1 = .waiting a refused →
    a.currentLink? = some entry.2.link

theorem Situation.agent_offer (σ : Situation) (id : AgentId) : (σ.offer id).agent = id := by
  cases σ with
  | underWay a held? =>
      rw [Situation.offer]
      split <;> rfl
  | _ => rfl

/-- What is permitted in answer to the offer of an agent under way fits its situation. -/
theorem Situation.fits_of_permits {a : Agent} {held? : Option LinkId} {id : AgentId}
    {ruling : Ruling} (h : ((underWay a held?).offer id).Permits ruling) :
    (underWay a held?).Fits ruling := by
  cases hnext : a.nextLink? with
  | none =>
      simp only [Situation.offer, hnext] at h
      cases ruling with
      | arrive => exact .arrive held? hnext
      | _ => cases h
  | some target =>
      simp only [Situation.offer, hnext] at h
      cases ruling with
      | move next seq? =>
          cases seq? with
          | none => cases h
          | some seq =>
              obtain rfl : next = target := h
              exact .move held? seq hnext
      | hold next =>
          obtain rfl : next = target := h
          exact .hold held? hnext
      | _ => cases h

namespace District

variable {α : Type} [Quantity α] {g : Network} {p : Partitioning} {clock : Clock} {tick : Tick}
  {d : District α} {id : AgentId} {link : LinkId} {q : LinkQueue α} {now : Nat} {v : Verdicts}
  {verdict : LinkVerdict}

omit [Quantity α] in
theorem map_agent_offersOf (d : District α) (entries : List QueuedAgent) :
    (d.offersOf entries).map Offer.agent = entries.map (·.agent) := by
  simp [offersOf, Situation.agent_offer, Function.comp_def]

/-- What answers the wishes on a link can be carried out there. -/
theorem Sound.executable (h : d.Sound g p tick) (hq : d.links[link]? = some q)
    (hanswers : Answers (d.offersOf (q.offer now)) verdict) :
    verdict.Executable now d.situation q := by
  obtain ⟨rest, hrest⟩ := q.offer_isPrefix now
  have hlength := hanswers.length_le
  rw [offersOf, List.length_map] at hlength
  refine ⟨hlength, ?_, ?_, ?_⟩
  · rw [hanswers.agents_eq, map_agent_offersOf, ← List.map_take, ← hrest,
      List.take_append_of_le_length hlength]
  · have hrulings := hanswers.rulings_isPrefix
    rw [map_agent_offersOf] at hrulings
    exact (hrulings.sublist.trans ((q.offer_isPrefix now).sublist.map _)).nodup (h.single link q hq)
  · intro entry hentry
    obtain ⟨offer, hoffer, hagent, hpermits⟩ := hanswers.exists_offer hentry
    obtain ⟨queued, hqueued, rfl⟩ := List.mem_map.1 hoffer
    rw [Situation.agent_offer] at hagent
    have hmem : queued.agent ∈ q.agentIds :=
      List.mem_map_of_mem ((q.offer_isPrefix now).subset hqueued)
    obtain ⟨a, held?, hsituation, -⟩ := h.exists_underWay hq hmem
    rw [← hagent]
    rw [hsituation] at hpermits ⊢
    exact Situation.fits_of_permits hpermits

theorem mem_agentIds_of_ruling (hanswers : Answers (d.offersOf (q.offer now)) verdict)
    {entry : AgentId × Ruling} (hentry : entry ∈ verdict.rulings) : entry.1 ∈ q.agentIds := by
  have hrulings := hanswers.rulings_isPrefix
  rw [map_agent_offersOf] at hrulings
  exact ((q.offer_isPrefix now).sublist.map _).subset
    (hrulings.subset (List.mem_map_of_mem hentry))

/-! ## The decisions on a district -/

/-- What the agents of a district are told. -/
def rulings (d : District α) (now : Nat) (v : Verdicts) : List (AgentId × Ruling) :=
  ((linkVerdicts (d.wishes now) v).flatMap fun entry => entry.2.rulings) ++
    Verdicts.departureRulings (d.departureVerdicts v)

theorem mem_linkVerdicts_iff :
    (link, verdict) ∈ linkVerdicts (d.wishes now) v ↔
      ∃ q, d.links[link]? = some q ∧ q.offer now ≠ [] ∧ v.links[link]? = some verdict := by
  simp only [linkVerdicts, List.mem_filterMap, Option.map_eq_some_iff, Prod.mk.injEq, Prod.exists,
    mem_wishes_links_iff]
  constructor
  · rintro ⟨l, _, ⟨q, hq, hne, -⟩, _, hverdict, rfl, rfl⟩
    exact ⟨q, hq, hne, hverdict⟩
  · rintro ⟨q, hq, hne, hverdict⟩
    exact ⟨link, _, ⟨q, hq, hne, rfl⟩, verdict, hverdict, rfl, rfl⟩

theorem nodup_linkVerdicts : ((linkVerdicts (d.wishes now) v).map (·.1)).Nodup := by
  refine List.Sublist.nodup ?_ (nodup_wishes_links d now)
  apply map_filterMap_sublist_map
  intro item _ entry hentry
  obtain ⟨verdict, -, rfl⟩ := Option.map_eq_some_iff.1 hentry
  rfl

theorem lookup_linkVerdicts (hv : v.Concern now d) (hq : d.links[link]? = some q) :
    (linkVerdicts (d.wishes now) v).lookup link = v.links[link]? := by
  by_cases hoffer : q.offer now = []
  · rw [hv.silent link q hq hoffer]
    apply lookup_eq_none_of_not_mem
    intro hmem
    obtain ⟨⟨other, verdict⟩, hentry, rfl⟩ := List.mem_map.1 hmem
    obtain ⟨q', hq', hne, -⟩ := mem_linkVerdicts_iff.1 hentry
    rw [hq] at hq'
    cases hq'
    exact hne hoffer
  · obtain ⟨verdict, hverdict, -⟩ := hv.answered link q hq hoffer
    rw [hverdict]
    exact (lookup_eq_some_iff_mem nodup_linkVerdicts).2
      (mem_linkVerdicts_iff.2 ⟨q, hq, hoffer, hverdict⟩)

theorem exists_queue_of_mem_linkVerdicts (hv : v.Concern now d)
    (hentry : (link, verdict) ∈ linkVerdicts (d.wishes now) v) :
    ∃ q, d.links[link]? = some q ∧ v.links[link]? = some verdict ∧
      Answers (d.offersOf (q.offer now)) verdict := by
  obtain ⟨q, hq, hne, hverdict⟩ := mem_linkVerdicts_iff.1 hentry
  obtain ⟨other, hother, hanswers⟩ := hv.answered link q hq hne
  rw [hverdict] at hother
  cases hother
  exact ⟨q, hq, hverdict, hanswers⟩

omit [Quantity α] in
theorem Sound.mem_departureVerdicts_iff (h : d.Sound g p tick)
    {entry : AgentId × DepartureVerdict} :
    entry ∈ d.departureVerdicts v ↔
      entry ∈ v.departures ∧ ∃ a refused, d.situation entry.1 = .waiting a refused := by
  rw [departureVerdicts, List.mem_filter, ← Std.ExtTreeMap.isSome_getElem?_eq_contains,
    Option.isSome_iff_exists]
  simp only [h.departing_eq_some_iff]
  rw [exists_comm]

/-- A ruling on a link concerns an agent under way there. -/
theorem Sound.underWay_of_linkRuling (h : d.Sound g p tick) (hv : v.Concern now d)
    {entry : AgentId × Ruling}
    (hentry : entry ∈ (linkVerdicts (d.wishes now) v).flatMap fun entry => entry.2.rulings) :
    ∃ link q verdict, d.links[link]? = some q ∧ v.links[link]? = some verdict ∧
      entry ∈ verdict.rulings ∧ entry.1 ∈ q.agentIds ∧ (d.situation entry.1).Fits entry.2 ∧
      ∃ a held?, d.situation entry.1 = .underWay a held? ∧ a.currentLink? = some link := by
  obtain ⟨⟨link, verdict⟩, hverdict, hruling⟩ := List.mem_flatMap.1 hentry
  obtain ⟨q, hq, hfound, hanswers⟩ := exists_queue_of_mem_linkVerdicts hv hverdict
  have hmem := mem_agentIds_of_ruling hanswers hruling
  obtain ⟨a, held?, hsituation, hlink, -⟩ := h.exists_underWay hq hmem
  exact ⟨link, q, verdict, hq, hfound, hruling, hmem,
    (h.executable hq hanswers).fits entry hruling, a, held?, hsituation, hlink⟩

theorem Sound.nodup_rulings (h : d.Sound g p tick) (hv : v.Concern now d) :
    ((d.rulings now v).map (·.1)).Nodup := by
  refine nodup_map_fst_rulings (σ := d.situation) nodup_linkVerdicts ?_ ?_
    ((List.filter_sublist.map _).nodup hv.single)
    (fun entry hentry => (h.mem_departureVerdicts_iff.1 hentry).2)
  · rintro ⟨link, verdict⟩ hentry
    obtain ⟨q, hq, -, hanswers⟩ := exists_queue_of_mem_linkVerdicts hv hentry
    exact (h.executable hq hanswers).single
  · rintro ⟨link, verdict⟩ hentry told htold
    obtain ⟨q, hq, -, hanswers⟩ := exists_queue_of_mem_linkVerdicts hv hentry
    obtain ⟨a, held?, hsituation, hlink, -⟩ :=
      h.exists_underWay hq (mem_agentIds_of_ruling hanswers htold)
    exact ⟨a, held?, hsituation, hlink⟩

theorem Sound.nodup_linkRulings (h : d.Sound g p tick) (hv : v.Concern now d) :
    (((linkVerdicts (d.wishes now) v).flatMap fun entry => entry.2.rulings).map (·.1)).Nodup :=
  ((List.sublist_append_left _ _).map _).nodup (h.nodup_rulings hv)

theorem Sound.fits_of_departure (h : d.Sound g p tick) (hv : v.Concern now d)
    {entry : AgentId × DepartureVerdict} (hentry : entry ∈ d.departureVerdicts v) :
    (d.situation entry.1).Fits entry.2.ruling := by
  obtain ⟨hmem, a, refused, hsituation⟩ := h.mem_departureVerdicts_iff.1 hentry
  have hlink := hv.wished entry hmem a refused hsituation
  rw [hsituation, DepartureVerdict.ruling]
  cases entry.2.seq? with
  | some seq => exact .depart refused seq hlink
  | none => exact .wait refused hlink

/-- Everything that is told in a district fits. -/
theorem Sound.fits_of_ruling (h : d.Sound g p tick) (hv : v.Concern now d)
    {entry : AgentId × Ruling} (hentry : entry ∈ d.rulings now v) :
    (d.situation entry.1).Fits entry.2 := by
  rcases List.mem_append.1 hentry with hlink | hdeparture
  · obtain ⟨_, _, _, -, -, -, -, hfits, -⟩ := h.underWay_of_linkRuling hv hlink
    exact hfits
  · obtain ⟨departure, hmem, rfl⟩ := List.mem_map.1 hdeparture
    exact h.fits_of_departure hv hmem

/-! ## Settling -/

/-- Settling never fails where decisions answer the wishes, and it changes every situation and every
queue by itself. -/
theorem Sound.settle_eq (h : d.Sound g p tick) (hv : v.Concern clock.now d) :
    ∃ d', d.settle clock (d.wishes clock.now) v =
        .ok (d', effectsOf clock d.situation (d.rulings clock.now v)) ∧
      d'.id = d.id ∧
      (∀ link : LinkId,
        d'.links[link]? = (d.links[link]?).map fun q => q.relieved v.links[link]?) ∧
      ∀ id, d'.Lists id (afterRulings clock d.situation (d.rulings clock.now v) id) := by
  let told := (linkVerdicts (d.wishes clock.now) v).flatMap fun entry => entry.2.rulings
  have hnodup := h.nodup_rulings hv
  have hfits : ∀ entry ∈ told, (d.situation entry.1).Fits entry.2 := by
    intro entry hentry
    exact h.fits_of_ruling hv (List.mem_append_left _ hentry)
  obtain ⟨d₁, hok₁, hid₁, hlinks₁, hlists₁⟩ := settleLinks_lists clock (g := g)
    nodup_linkVerdicts (h.nodup_linkRulings hv) h.tidy h.valid (by
      rintro ⟨link, verdict⟩ hentry
      obtain ⟨q, hq, -, hanswers⟩ := exists_queue_of_mem_linkVerdicts hv hentry
      exact ⟨q, hq, h.executable hq hanswers⟩)
  have hsame : ∀ entry ∈ d.departureVerdicts v,
      afterRulings clock d.situation told entry.1 = d.situation entry.1 := by
    intro entry hentry
    have hruling : (entry.1, entry.2.ruling) ∈
        Verdicts.departureRulings (d.departureVerdicts v) :=
      List.mem_map_of_mem (f := fun entry => (entry.1, entry.2.ruling)) hentry
    exact afterRulings_of_append hnodup hruling
  obtain ⟨d₂, hok₂, hid₂, hlinks₂, hlists₂⟩ := settleDepartures_lists clock
    (d.departureVerdicts v) (g := g) ((List.filter_sublist.map _).nodup hv.single) hlists₁
    (valid_afterRulings h.valid hfits)
    (fun entry hentry => by
      rw [hsame entry hentry]
      exact h.fits_of_departure hv hentry)
  have heffects : effectsOf clock (afterRulings clock d.situation told)
      (Verdicts.departureRulings (d.departureVerdicts v)) =
        effectsOf clock d.situation (Verdicts.departureRulings (d.departureVerdicts v)) := by
    apply effectsOf_congr
    intro entry hentry
    obtain ⟨departure, hdeparture, rfl⟩ := List.mem_map.1 hentry
    exact hsame departure hdeparture
  refine ⟨d₂, ?_, hid₂.trans hid₁, ?_, ?_⟩
  · unfold settle
    rw [heffects] at hok₂
    simp only [bind, Except.bind, hok₁, hok₂, rulings, effectsOf_append]
    rfl
  · intro link
    rw [hlinks₂, hlinks₁]
    cases hq : d.links[link]? with
    | none => rfl
    | some q => rw [lookup_linkVerdicts hv hq]
  · intro id
    have happend := hlists₂ id
    rw [afterRulings_append hnodup] at happend
    exact happend

/-! ## Soundness afterwards -/

theorem relieved_keeps (q : LinkQueue α) (v? : Option LinkVerdict) :
    (q.relieved v?).link = q.link ∧ (q.relieved v?).storage = q.storage ∧
      (q.relieved v?).entries.Sublist q.entries := by
  cases v? with
  | none => exact ⟨rfl, rfl, List.Sublist.refl _⟩
  | some v => exact ⟨rfl, rfl, List.drop_sublist _ _⟩

/-- A queue is made up of those that are granted something and of those that stay. -/
theorem agentIds_eq_append (hv : verdict.Executable now d.situation q) :
    q.agentIds = verdict.grants.map Grant.agent ++ (q.relieved (some verdict)).agentIds := by
  rw [hv.front, LinkQueue.relieved, LinkQueue.agentIds, LinkQueue.agentIds, ← List.map_append,
    List.take_append_drop]

theorem mem_agentIds_relieved_iff (hnodup : q.agentIds.Nodup)
    (hv : verdict.Executable now d.situation q) :
    id ∈ (q.relieved (some verdict)).agentIds ↔
      id ∈ q.agentIds ∧ id ∉ verdict.grants.map Grant.agent := by
  have hsplit := agentIds_eq_append hv
  rw [hsplit, List.nodup_append] at hnodup
  rw [hsplit, List.mem_append]
  constructor
  · intro hid
    exact ⟨Or.inr hid, fun hgranted => hnodup.2.2 id hgranted id hid rfl⟩
  · rintro ⟨hgranted | hid, hnot⟩
    · exact absurd hgranted hnot
    · exact hid

theorem head?_relieved_of_hold (hv : verdict.Executable now d.situation q)
    (hrulings : verdict.rulings.map (·.1) <+: q.agentIds) {target : LinkId}
    (hruling : (id, .hold target) ∈ verdict.rulings) :
    (q.relieved (some verdict)).agentIds.head? = some id := by
  have hrefusal : ∃ refusal, verdict.refusal? = some refusal ∧ refusal.agent = id := by
    rcases List.mem_append.1 hruling with hgrant | hrefused
    · obtain ⟨grant, -, hsame⟩ := List.mem_map.1 hgrant
      cases grant <;> cases hsame
    · obtain ⟨refusal, hmem, hsame⟩ := List.mem_map.1 hrefused
      exact ⟨refusal, Option.mem_toList.1 hmem, congrArg Prod.fst hsame⟩
  obtain ⟨refusal, hsome, rfl⟩ := hrefusal
  have hkeys : verdict.rulings.map (·.1) = verdict.grants.map Grant.agent ++ [refusal.agent] := by
    simp [LinkVerdict.rulings, hsome, Function.comp_def]
  rw [hkeys, agentIds_eq_append hv, List.prefix_append_right_inj] at hrulings
  obtain ⟨rest, hrest⟩ := hrulings
  rw [← hrest]
  rfl

theorem head?_relieved_of_not_mem (hv : verdict.Executable now d.situation q)
    (hhead : q.agentIds.head? = some id) (hnot : id ∉ verdict.rulings.map (·.1)) :
    (q.relieved (some verdict)).agentIds.head? = some id := by
  rw [agentIds_eq_append hv] at hhead
  cases hgrants : verdict.grants with
  | nil => simpa [hgrants] using hhead
  | cons first rest =>
      rw [hgrants, List.map_cons, List.cons_append, List.head?_cons] at hhead
      cases hhead
      exact absurd (by simp [LinkVerdict.rulings, hgrants]) hnot

/-- A ruling that an agent under way gets comes from the decision on its link. -/
theorem Sound.mem_verdict_of_underWay (h : d.Sound g p tick) (hv : v.Concern now d)
    {a : Agent} {held? : Option LinkId} (hsituation : d.situation id = .underWay a held?)
    (hlink : a.currentLink? = some link) {ruling : Ruling}
    (hruling : (id, ruling) ∈ d.rulings now v) :
    ∃ verdict, v.links[link]? = some verdict ∧ (id, ruling) ∈ verdict.rulings := by
  rcases List.mem_append.1 hruling with hon | hdeparture
  · obtain ⟨other, q, verdict, -, hfound, hmem, -, -, b, _, hsame, hother⟩ :=
      h.underWay_of_linkRuling hv hon
    rw [hsituation] at hsame
    cases hsame
    rw [hlink] at hother
    cases hother
    exact ⟨verdict, hfound, hmem⟩
  · obtain ⟨departure, hmem, hsame⟩ := List.mem_map.1 hdeparture
    cases hsame
    obtain ⟨-, b, refused, hwaiting⟩ := h.mem_departureVerdicts_iff.1 hmem
    rw [hsituation] at hwaiting
    cases hwaiting

/-- Who is under way after the rulings was under way before, and was at most refused. -/
theorem Sound.underWay_before (h : d.Sound g p tick) (hv : v.Concern now d) {a : Agent}
    {held? : Option LinkId}
    (hafter : afterRulings clock d.situation (d.rulings now v) id = .underWay a held?) :
    (id ∉ (d.rulings now v).map (·.1) ∧ d.situation id = .underWay a held?) ∨
      ∃ before? target, d.situation id = .underWay a before? ∧
        (id, .hold target) ∈ d.rulings now v ∧ held? = some target := by
  rcases afterRulings_cases clock d.situation (d.rulings now v) id with
    ⟨hnot, hsame⟩ | ⟨ruling, hmem, hruled⟩
  · rw [hsame] at hafter
    exact Or.inl ⟨hnot, hafter⟩
  · rw [hruled] at hafter
    obtain ⟨before?, target, hbefore, rfl, hheld⟩ :=
      (h.fits_of_ruling hv hmem).eq_hold_of_after hafter
    exact Or.inr ⟨before?, target, hbefore, hmem, hheld⟩

theorem Sound.executable_of_verdict (h : d.Sound g p tick) (hv : v.Concern now d)
    (hq : d.links[link]? = some q) (hverdict : v.links[link]? = some verdict) :
    verdict.Executable now d.situation q ∧ verdict.rulings.map (·.1) <+: q.agentIds ∧
      ∀ entry ∈ verdict.rulings, entry ∈ d.rulings now v := by
  have hoffer : q.offer now ≠ [] := by
    intro hnone
    rw [hv.silent link q hq hnone] at hverdict
    cases hverdict
  obtain ⟨other, hother, hanswers⟩ := hv.answered link q hq hoffer
  rw [hverdict] at hother
  cases hother
  have hrulings := hanswers.rulings_isPrefix
  rw [map_agent_offersOf] at hrulings
  refine ⟨h.executable hq hanswers, hrulings.trans ((q.offer_isPrefix now).map _), ?_⟩
  intro entry hentry
  exact List.mem_append_left _ (List.mem_flatMap.2 ⟨(link, verdict),
    mem_linkVerdicts_iff.2 ⟨q, hq, hoffer, hverdict⟩, hentry⟩)

/-- Whoever stood in a queue still stands there just if it is still under way. -/
theorem Sound.mem_relieved_iff (h : d.Sound g p tick) (hv : v.Concern now d)
    (hq : d.links[link]? = some q) (hid : id ∈ q.agentIds) :
    id ∈ (q.relieved v.links[link]?).agentIds ↔
      ∃ a held?, afterRulings clock d.situation (d.rulings now v) id = .underWay a held? := by
  obtain ⟨a, held?, hsituation, hlink, -⟩ := h.exists_underWay hq hid
  cases hverdict : v.links[link]? with
  | none =>
      refine ⟨fun _ => ⟨a, held?, ?_⟩, fun _ => hid⟩
      rcases afterRulings_cases clock d.situation (d.rulings now v) id with
        ⟨-, hsame⟩ | ⟨ruling, hmem, -⟩
      · rw [hsame, hsituation]
      · obtain ⟨verdict, hfound, -⟩ := h.mem_verdict_of_underWay hv hsituation hlink hmem
        rw [hverdict] at hfound
        cases hfound
  | some verdict =>
      obtain ⟨hexecutable, -, hrulings⟩ := h.executable_of_verdict hv hq hverdict
      rw [mem_agentIds_relieved_iff (h.single link q hq) hexecutable]
      constructor
      · rintro ⟨-, hnot⟩
        rcases afterRulings_cases clock d.situation (d.rulings now v) id with
          ⟨-, hsame⟩ | ⟨ruling, hmem, hruled⟩
        · exact ⟨a, held?, by rw [hsame, hsituation]⟩
        · obtain ⟨other, hfound, hruling⟩ := h.mem_verdict_of_underWay hv hsituation hlink hmem
          rw [hverdict] at hfound
          cases hfound
          rcases List.mem_append.1 hruling with hgrant | hrefusal
          · obtain ⟨grant, hgranted, hsame⟩ := List.mem_map.1 hgrant
            exact absurd (List.mem_map.2 ⟨grant, hgranted, congrArg Prod.fst hsame⟩) hnot
          · obtain ⟨refusal, -, hsame⟩ := List.mem_map.1 hrefusal
            cases hsame
            exact ⟨a, some refusal.target, by rw [hruled, hsituation]; rfl⟩
      · rintro ⟨b, after?, hafter⟩
        refine ⟨hid, fun hgranted => ?_⟩
        obtain ⟨grant, hgrant, rfl⟩ := List.mem_map.1 hgranted
        have hruling : (grant.agent, grant.ruling) ∈ d.rulings now v :=
          hrulings _ (List.mem_append_left _ (List.mem_map_of_mem hgrant))
        have hlookup := (lookup_eq_some_iff_mem (h.nodup_rulings hv)).2 hruling
        rw [afterRulings, hlookup] at hafter
        obtain ⟨_, target, -, hhold, -⟩ :=
          (h.fits_of_ruling hv hruling).eq_hold_of_after hafter
        cases grant <;> cases hhold

/-- Those that stand in a queue after the rulings are those that are under way on its link then. -/
theorem Sound.queued_afterRulings (h : d.Sound g p tick) (hv : v.Concern now d)
    (hq : d.links[link]? = some q) (id : AgentId) :
    id ∈ (q.relieved v.links[link]?).agentIds ↔
      ∃ a held?, afterRulings clock d.situation (d.rulings now v) id = .underWay a held? ∧
        a.currentLink? = some link := by
  constructor
  · intro hin
    have hbefore : id ∈ q.agentIds := ((relieved_keeps q _).2.2.map _).subset hin
    obtain ⟨a, held?, hafter⟩ := (h.mem_relieved_iff hv hq hbefore).1 hin
    refine ⟨a, held?, hafter, ?_⟩
    obtain ⟨b, _, hsituation, hlink, -⟩ := h.exists_underWay hq hbefore
    rcases h.underWay_before hv hafter with ⟨-, hsame⟩ | ⟨_, _, hsame, -⟩
    all_goals
      rw [hsituation] at hsame
      cases hsame
      exact hlink
  · rintro ⟨a, held?, hafter, hlink⟩
    have hbefore : id ∈ q.agentIds := by
      rcases h.underWay_before hv hafter with ⟨-, hsame⟩ | ⟨_, _, hsame, -⟩
      · exact (h.queued link q hq id).2 ⟨a, _, hsame, hlink⟩
      · exact (h.queued link q hq id).2 ⟨a, _, hsame, hlink⟩
    exact (h.mem_relieved_iff hv hq hbefore).2 ⟨a, held?, hafter⟩

/-- Whoever is refused, now or before, is at the front of its queue after the rulings. -/
theorem Sound.front_afterRulings (h : d.Sound g p tick) (hv : v.Concern now d) {a : Agent}
    {target : LinkId}
    (hafter : afterRulings clock d.situation (d.rulings now v) id = .underWay a (some target)) :
    ∃ (link : LinkId) (q : LinkQueue α), d.links[link]? = some q ∧
      (q.relieved v.links[link]?).agentIds.head? = some id := by
  rcases h.underWay_before hv hafter with ⟨hnot, hsame⟩ | ⟨before?, next, hbefore, hruling, -⟩
  · obtain ⟨link, q, hq, hhead⟩ := h.front id a target hsame
    refine ⟨link, q, hq, ?_⟩
    cases hverdict : v.links[link]? with
    | none => exact hhead
    | some verdict =>
        obtain ⟨hexecutable, -, hmem⟩ := h.executable_of_verdict hv hq hverdict
        apply head?_relieved_of_not_mem hexecutable hhead
        intro hin
        obtain ⟨entry, hentry, rfl⟩ := List.mem_map.1 hin
        exact hnot (List.mem_map_of_mem (hmem entry hentry))
  · obtain ⟨link, q, hlink, hq, hin⟩ := h.exists_queue hbefore
    obtain ⟨verdict, hverdict, hhold⟩ := h.mem_verdict_of_underWay hv hbefore hlink hruling
    obtain ⟨hexecutable, hrulings, -⟩ := h.executable_of_verdict hv hq hverdict
    refine ⟨link, q, hq, ?_⟩
    rw [hverdict]
    exact head?_relieved_of_hold hexecutable hrulings hhold

theorem Sound.sound_afterRulings (h : d.Sound g p (clock.tick + 1)) (hv : v.Concern now d)
    (id : AgentId) : Situation.Sound g p d.id (clock.tick + 1) id
      (afterRulings clock d.situation (d.rulings now v) id) := by
  constructor
  · exact valid_afterRulings h.valid (fun entry hentry => h.fits_of_ruling hv hentry) id
  · intro link hlink
    apply h.home id link
    rcases afterRulings_cases clock d.situation (d.rulings now v) id with
      ⟨-, hsame⟩ | ⟨ruling, hmem, hruled⟩
    · rwa [hsame] at hlink
    · rw [hruled] at hlink
      exact ((h.fits_of_ruling hv hmem).valid_after (h.valid id)).2 link hlink
  · intro a k hresting
    rcases Situation.resting_after hresting with hbefore | hlater
    · exact h.due id a k hbefore
    · exact hlater

/-- A sound district is sound after it carried out decisions that answer its wishes. -/
theorem Sound.of_settled (h : d.Sound g p (clock.tick + 1)) (hv : v.Concern now d)
    {d' : District α} (hid : d'.id = d.id)
    (hlinks : ∀ link : LinkId,
      d'.links[link]? = (d.links[link]?).map fun q => q.relieved v.links[link]?)
    (hlists : ∀ id, d'.Lists id (afterRulings clock d.situation (d.rulings now v) id)) :
    d'.Sound g p (clock.tick + 1) := by
  refine ⟨Peopled.of_lists fun id => ⟨_, hlists id, hid ▸ h.sound_afterRulings hv id⟩, ?_, ?_, ?_⟩
  · apply h.toPaved.of_map (fun link q => q.relieved v.links[link]?) hid hlinks
    intro link q hq
    obtain ⟨hlink, hstorage, hsub⟩ := relieved_keeps q v.links[link]?
    refine ⟨hlink, ?_, (hsub.map _).nodup (h.single link q hq)⟩
    rw [hstorage]
    exact Nat.le_trans hsub.length_le (h.room link q hq)
  · intro link q' hq' id
    rw [hlinks, Option.map_eq_some_iff] at hq'
    obtain ⟨q, hq, rfl⟩ := hq'
    rw [(hlists id).situation_eq]
    exact h.queued_afterRulings hv hq id
  · intro id a target hafter
    rw [(hlists id).situation_eq] at hafter
    obtain ⟨link, q, hq, hhead⟩ := h.front_afterRulings hv hafter
    exact ⟨link, _, by rw [hlinks, hq]; rfl, hhead⟩

end District
end Thoroughfare

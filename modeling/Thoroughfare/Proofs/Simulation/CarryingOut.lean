import Thoroughfare.Proofs.Arrangement
import Thoroughfare.Proofs.Road.Offers
import Thoroughfare.Proofs.Simulation.Outcome

/-!
# Carrying out rulings

A sound district can carry out every ruling that fits the situation of its agent.  The queues lose
those agents at their fronts that were granted, every agent that was told something gets the
situation that comes of it, and nobody else is touched; so the district is sound again.
-/

namespace Thoroughfare
namespace District

variable {α : Type} {g : Network} {p : Partitioning} {clock : Clock} {tick : Tick}
  {d : District α} {id : AgentId} {a : Agent} {held? : Option LinkId} {link target : LinkId}
  {seq : Nat}

/-! ## Single agents -/

theorem arrive_lists (clock : Clock) (hd : d.Lists id (.underWay a held?))
    (hvalid : (Situation.underWay a held?).Valid g id) (hnext : a.nextLink? = none) :
    ∃ d', d.arrive clock id = .ok (d',
        ((Situation.underWay a held?).outcome clock (some .arrive)).effects clock id) ∧
      d'.Lists id ((Situation.underWay a held?).outcome clock (some .arrive)).after ∧
      OnlyAt id d d' := by
  obtain ⟨hid, hstate, ⟨leg, next, hleg⟩, htarget⟩ := hvalid
  obtain ⟨hlive, hwakeUps, hoffer, hheld, hfinished⟩ := lists_iff.1 hd
  have hlink := Agent.currentLink?_eq_of_nextLink?_eq_none hleg hstate hnext
  have hland := Agent.land_eq clock hleg hstate hnext
  -- whoever arrives was not refused before
  have hfree : held? = none := by
    cases held? with
    | none => rfl
    | some target =>
        have hsome := htarget target rfl
        rw [hnext] at hsome
        cases hsome
  subst hfree
  rcases Situation.landed_cases clock a with
    ⟨hover, hnone, hlanded⟩ | ⟨due, -, hover, hsome, hlanded⟩
  · refine ⟨d.archive (a.atNextActivity clock.now).done, ?_, ?_, rfl, rfl, ?_⟩
    · simp [arrive, hlive, Situation.listing, hland, hnone, hover, Situation.outcome,
        Outcome.effects, hlink, Agent.landingKinds, Clock.tell, Effects.ofEvents]
    · simp only [Situation.outcome, hlanded]
      obtain rfl : (a.atNextActivity clock.now).done.id = id := hid
      refine lists_iff.2 ⟨?_, hwakeUps, hoffer, hheld, ?_⟩
      · simp [archive, Situation.listing]
      · simp [archive, Situation.listing]
    · intro other hother
      obtain rfl : (a.atNextActivity clock.now).done.id = id := hid
      simp [listing, archive, getElem?_insert_ident, getElem?_erase_ident, hother.symm]
  · refine ⟨{ d.keep (a.atNextActivity clock.now) with wakeUps := d.wakeUps.push due id }, ?_, ?_,
      rfl, rfl, ?_⟩
    · simp [arrive, hlive, Situation.listing, hland, hsome, hover, Situation.outcome,
        Outcome.effects, hlink, Agent.landingKinds, Clock.tell, Effects.ofEvents]
    · simp only [Situation.outcome, hlanded]
      obtain rfl : (a.atNextActivity clock.now).id = id := hid
      refine lists_iff.2 ⟨?_, ?_, hoffer, hheld, hfinished⟩
      · simp [keep, Situation.listing]
      · exact WakeQueue.ticksOf_push_self hwakeUps
    · intro other hother
      obtain rfl : (a.atNextActivity clock.now).id = id := hid
      simp [listing, keep, getElem?_insert_ident, WakeQueue.ticksOf_push_of_ne, hother.symm]

theorem moveOn_lists (clock : Clock) (seq : Nat) (hd : d.Lists id (.underWay a held?))
    (hvalid : (Situation.underWay a held?).Valid g id) (hnext : a.nextLink? = some target) :
    ∃ d', d.moveOn clock id target seq = .ok (d',
        ((Situation.underWay a held?).outcome clock (some (.move target (some seq)))).effects
          clock id) ∧
      d'.Lists id .absent ∧ OnlyAt id d d' := by
  obtain ⟨hid, hstate, ⟨leg, next, hleg⟩, -⟩ := hvalid
  obtain ⟨hlive, hwakeUps, hoffer, -, hfinished⟩ := lists_iff.1 hd
  obtain ⟨left, hleft, -, -, -, -, hadvance⟩ := Agent.advanceLink_eq hleg hstate hnext
  refine ⟨{ d with agents := d.agents.erase id, held := d.held.erase id }, ?_,
    lists_iff.2 ⟨?_, hwakeUps, hoffer, ?_, hfinished⟩, rfl, rfl, ?_⟩
  · simp [moveOn, hlive, Situation.listing, hadvance, Situation.outcome, Outcome.effects, hleft,
      Clock.tell]
  · simp [Situation.listing]
  · simp [Situation.listing]
  · intro other hother
    simp [listing, getElem?_erase_ident, hother.symm]

theorem sendOff_lists {refused : Bool} (clock : Clock) (seq : Nat)
    (hd : d.Lists id (.waiting a refused))
    (hvalid : (Situation.waiting a refused).Valid g id) (hlink : a.currentLink? = some link) :
    ∃ d', d.sendOff clock id seq = .ok (d',
        ((Situation.waiting a refused).outcome clock (some (.depart link seq))).effects clock id) ∧
      d'.Lists id .absent ∧ OnlyAt id d d' := by
  obtain ⟨hid, hstate, -⟩ := hvalid
  obtain ⟨hlive, hwakeUps, -, hheld, hfinished⟩ := lists_iff.1 hd
  have henter := Agent.enterNetwork_eq hstate hlink
  refine ⟨{ d with agents := d.agents.erase id, departing := d.departing.erase id }, ?_,
    lists_iff.2 ⟨?_, hwakeUps, ?_, hheld, hfinished⟩, rfl, rfl, ?_⟩
  · simp [sendOff, hlive, Situation.listing, henter, Situation.outcome, Outcome.effects, Clock.tell]
  · simp [Situation.listing]
  · simp [Situation.listing]
  · intro other hother
    simp [listing, getElem?_erase_ident, hother.symm]

theorem hold_lists {refusal : Refusal} (hd : d.Lists refusal.agent (.underWay a held?)) :
    (d.hold (some refusal)).Lists refusal.agent (.underWay a (some refusal.target)) ∧
      OnlyAt refusal.agent d (d.hold (some refusal)) := by
  obtain ⟨hlive, hwakeUps, hoffer, -, hfinished⟩ := lists_iff.1 hd
  refine ⟨lists_iff.2 ⟨hlive, hwakeUps, hoffer, ?_, hfinished⟩, rfl, rfl, ?_⟩
  · simp [hold, Situation.listing]
  · intro other hother
    simp [listing, hold, getElem?_insert_ident, hother.symm]

theorem carryOut_lists {entry : QueuedAgent} {grant : Grant} {σ : Situation}
    (hagent : entry.agent = grant.agent) (hd : d.Lists grant.agent σ)
    (hvalid : σ.Valid g grant.agent) (hfits : σ.Fits grant.ruling) :
    ∃ d', d.carryOut clock link (entry, grant) = .ok (d',
        (σ.outcome clock (some grant.ruling)).effects clock grant.agent) ∧
      d'.Lists grant.agent (σ.outcome clock (some grant.ruling)).after ∧
      OnlyAt grant.agent d d' := by
  cases grant with
  | arrive agent =>
      rcases hfits with ⟨held?, hnext⟩
      obtain ⟨d', hok, hlists, honly⟩ := arrive_lists clock hd hvalid hnext
      exact ⟨d', by simpa [carryOut, hagent, Grant.agent, Grant.ruling] using hok, hlists, honly⟩
  | move agent target seq? =>
      rcases hfits with _ | ⟨held?, seq, hnext⟩
      obtain ⟨d', hok, hlists, honly⟩ := moveOn_lists clock seq hd hvalid hnext
      exact ⟨d', by simpa [carryOut, hagent, Grant.agent, Grant.ruling] using hok, hlists, honly⟩

theorem settleDeparture_lists {v : DepartureVerdict} {σ : Situation}
    (hd : d.Lists id σ) (hvalid : σ.Valid g id) (hfits : σ.Fits v.ruling) :
    ∃ d', d.settleDeparture clock (id, v) = .ok (d',
        (σ.outcome clock (some v.ruling)).effects clock id) ∧
      d'.Lists id (σ.outcome clock (some v.ruling)).after ∧ OnlyAt id d d' := by
  unfold DepartureVerdict.ruling at hfits ⊢
  unfold settleDeparture
  cases hseq : v.seq? with
  | some seq =>
      simp only [hseq] at hfits ⊢
      cases hfits with
      | depart refused _ hlink => exact sendOff_lists clock seq hd hvalid hlink
  | none =>
      simp only [hseq] at hfits ⊢
      cases hfits with
      | wait refused hlink =>
          obtain ⟨hlive, hwakeUps, -, hheld, hfinished⟩ := lists_iff.1 hd
          refine ⟨{ d with departing := d.departing.insert id true }, rfl,
            lists_iff.2 ⟨hlive, hwakeUps, ?_, hheld, hfinished⟩, rfl, rfl, ?_⟩
          · simp [Situation.outcome, Situation.listing]
          · intro other hother
            simp [listing, getElem?_insert_ident, hother.symm]

end District

/-! ## Links -/

/-- The queue behind a decision on its link. -/
def LinkQueue.relieved {α : Type} [Quantity α] (q : LinkQueue α) : Option LinkVerdict → LinkQueue α
  | none => q
  | some v =>
      { q with
        entries := q.entries.drop v.grants.length
        bucket := q.bucket.consume v.grants.length }

/-- What the agents that are granted something are told. -/
def LinkVerdict.grantRulings (grants : List Grant) : List (AgentId × Ruling) :=
  grants.map fun grant => (grant.agent, grant.ruling)

/-- What the agent that is refused is told, if there is one. -/
def LinkVerdict.refusalRulings (refusal? : Option Refusal) : List (AgentId × Ruling) :=
  refusal?.toList.map fun refusal => (refusal.agent, .hold refusal.target)

theorem LinkVerdict.rulings_eq (v : LinkVerdict) :
    v.rulings = grantRulings v.grants ++ refusalRulings v.refusal? :=
  rfl

/-- A decision that can be carried out on a queue, when its agents are in some situations. -/
structure LinkVerdict.Executable {α : Type} [Quantity α] (now : Nat) (σ : AgentId → Situation)
    (q : LinkQueue α) (v : LinkVerdict) : Prop where
  offered : v.grants.length ≤ (q.offer now).length
  front : v.grants.map Grant.agent = (q.entries.take v.grants.length).map (·.agent)
  single : (v.rulings.map (·.1)).Nodup
  fits : ∀ entry ∈ v.rulings, (σ entry.1).Fits entry.2

theorem LinkVerdict.Executable.congr {α : Type} [Quantity α] {now : Nat}
    {σ τ : AgentId → Situation} {q : LinkQueue α} {v : LinkVerdict} (hv : v.Executable now σ q)
    (h : ∀ entry ∈ v.rulings, τ entry.1 = σ entry.1) : v.Executable now τ q := by
  refine ⟨hv.offered, hv.front, hv.single, ?_⟩
  intro entry hentry
  rw [h entry hentry]
  exact hv.fits entry hentry

/-- What some rulings tell the outside. -/
def effectsOf (clock : Clock) (σ : AgentId → Situation) (rulings : List (AgentId × Ruling)) :
    Effects :=
  .join (rulings.map fun entry =>
    ((σ entry.1).outcome clock (some entry.2)).effects clock entry.1)

theorem Effects.join_append (a b : List Effects) :
    Effects.join (a ++ b) = Effects.join a ++ Effects.join b := by
  simp only [Effects.join, List.flatMap_append]
  rfl

theorem Effects.append_none (effects : Effects) : effects ++ .none = effects :=
  congrArg₂ Effects.mk (List.append_nil _) (List.append_nil _)

theorem effectsOf_append (clock : Clock) (σ : AgentId → Situation)
    (a b : List (AgentId × Ruling)) :
    effectsOf clock σ (a ++ b) = effectsOf clock σ a ++ effectsOf clock σ b := by
  rw [effectsOf, List.map_append, Effects.join_append]
  rfl

/-- The situations after some rulings. -/
def afterRulings (clock : Clock) (σ : AgentId → Situation) (rulings : List (AgentId × Ruling))
    (id : AgentId) : Situation :=
  ((σ id).outcome clock (rulings.lookup id)).after

section AfterRulings

variable {g : Network} {clock : Clock} {σ : AgentId → Situation}
  {rulings more : List (AgentId × Ruling)} {id : AgentId}

theorem afterRulings_of_not_mem (h : id ∉ rulings.map (·.1)) :
    afterRulings clock σ rulings id = σ id := by
  rw [afterRulings, lookup_eq_none_of_not_mem h, Situation.outcome_none]

/-- Either an agent is told nothing, or its situation comes of what it is told. -/
theorem afterRulings_cases (clock : Clock) (σ : AgentId → Situation)
    (rulings : List (AgentId × Ruling)) (id : AgentId) :
    (id ∉ rulings.map (·.1) ∧ afterRulings clock σ rulings id = σ id) ∨
      ∃ ruling, (id, ruling) ∈ rulings ∧
        afterRulings clock σ rulings id = ((σ id).outcome clock (some ruling)).after := by
  by_cases hid : id ∈ rulings.map (·.1)
  · right
    cases hlookup : rulings.lookup id with
    | none =>
        obtain ⟨entry, hentry, rfl⟩ := List.mem_map.1 hid
        have hne := List.lookup_eq_none_iff.1 hlookup entry hentry
        simp at hne
    | some ruling =>
        obtain ⟨l₁, l₂, hsplit, -⟩ := List.lookup_eq_some_iff.1 hlookup
        exact ⟨ruling, by simp [hsplit], by rw [afterRulings, hlookup]⟩
  · exact Or.inl ⟨hid, afterRulings_of_not_mem hid⟩

theorem afterRulings_append (h : ((rulings ++ more).map (·.1)).Nodup) :
    afterRulings clock (afterRulings clock σ rulings) more =
      afterRulings clock σ (rulings ++ more) := by
  rw [List.map_append, List.nodup_append] at h
  funext id
  by_cases hid : id ∈ rulings.map (·.1)
  · have hmore : id ∉ more.map (·.1) := fun hmem => h.2.2 id hid id hmem rfl
    rw [afterRulings_of_not_mem hmore, afterRulings, afterRulings, List.lookup_append,
      lookup_eq_none_of_not_mem hmore, Option.or_none]
  · rw [afterRulings, afterRulings_of_not_mem hid, afterRulings, List.lookup_append,
      lookup_eq_none_of_not_mem hid, Option.none_or]

/-- Rulings on some do not change the situation of others. -/
theorem afterRulings_of_append (h : ((rulings ++ more).map (·.1)).Nodup) {entry : AgentId × Ruling}
    (hentry : entry ∈ more) : afterRulings clock σ rulings entry.1 = σ entry.1 := by
  rw [List.map_append, List.nodup_append] at h
  exact afterRulings_of_not_mem fun hmem => h.2.2 _ hmem _ (List.mem_map_of_mem hentry) rfl

theorem valid_afterRulings (hvalid : ∀ id, (σ id).Valid g id)
    (hfits : ∀ entry ∈ rulings, (σ entry.1).Fits entry.2) (id : AgentId) :
    (afterRulings clock σ rulings id).Valid g id := by
  rcases afterRulings_cases clock σ rulings id with ⟨-, hsame⟩ | ⟨ruling, hmem, hafter⟩
  · rw [hsame]
    exact hvalid id
  · rw [hafter]
    exact ((hfits _ hmem).valid_after (hvalid id)).1

theorem afterRulings_perm (hnodup : (rulings.map (·.1)).Nodup) (hperm : rulings.Perm more) :
    afterRulings clock σ rulings = afterRulings clock σ more := by
  funext id
  have hlookup : rulings.lookup id = more.lookup id := by
    apply Option.ext
    intro ruling
    rw [lookup_eq_some_iff_mem hnodup, lookup_eq_some_iff_mem ((hperm.map _).nodup hnodup),
      hperm.mem_iff]
  rw [afterRulings, afterRulings, hlookup]

theorem effectsOf_congr {τ : AgentId → Situation}
    (h : ∀ entry ∈ rulings, τ entry.1 = σ entry.1) :
    effectsOf clock τ rulings = effectsOf clock σ rulings := by
  rw [effectsOf, effectsOf]
  congr 1
  apply List.map_congr_left
  intro entry hentry
  rw [h entry hentry]

/-- What is told of one agent comes of its own ruling. -/
theorem filter_events_effectsOf (hnodup : (rulings.map (·.1)).Nodup) (id : AgentId) :
    (effectsOf clock σ rulings).events.filter (fun e => e.agent = id) =
      clock.tell id ((σ id).outcome clock (rulings.lookup id)).kinds := by
  have hkeys : ∀ entry ∈ rulings,
      ∀ e ∈ clock.tell entry.1 ((σ entry.1).outcome clock (some entry.2)).kinds,
        e.agent = entry.1 := by
    intro entry _ e he
    obtain ⟨kind, -, rfl⟩ := List.mem_map.1 he
    rfl
  simp only [effectsOf, Effects.join, List.flatMap_map, Outcome.effects]
  cases hlookup : rulings.lookup id with
  | some ruling =>
      have hmem := (lookup_eq_some_iff_mem hnodup).1 hlookup
      exact filter_flatMap_of_mem hnodup hkeys hmem
  | none =>
      have hnot : id ∉ rulings.map (·.1) := by
        intro hmem
        obtain ⟨entry, hentry, rfl⟩ := List.mem_map.1 hmem
        rw [(lookup_eq_some_iff_mem hnodup).2 hentry] at hlookup
        cases hlookup
      rw [filter_flatMap_of_not_mem hkeys hnot, Situation.outcome_none]
      rfl

end AfterRulings

namespace District

variable {α : Type} [Quantity α] {g : Network} {clock : Clock} {d : District α}
  {σ : AgentId → Situation} {link : LinkId} {q : LinkQueue α} {v : LinkVerdict}

theorem release_eq (hv : v.Executable clock.now σ q) :
    q.release v.grants.length clock.now =
      .ok (q.entries.take v.grants.length, q.relieved (some v)) := by
  rw [LinkQueue.release_of_le hv.offered, LinkQueue.take_offer hv.offered]
  rfl

omit [Quantity α] in
/-- Items that each tell another agent something are worked through as if each were the only one. -/
theorem treatAll_lists {β : Type} (clock : Clock)
    (treat : District α → β → Except StepError (District α × Effects))
    (ruling : β → AgentId × Ruling) (items : List β)
    (hagents : ((items.map ruling).map (·.1)).Nodup)
    (htreat : ∀ item ∈ items, ∀ d₁ : District α, d₁.Lists (ruling item).1 (σ (ruling item).1) →
      ∃ d₂, treat d₁ item = .ok (d₂, ((σ (ruling item).1).outcome clock
          (some (ruling item).2)).effects clock (ruling item).1) ∧
        d₂.Lists (ruling item).1
          ((σ (ruling item).1).outcome clock (some (ruling item).2)).after ∧
        OnlyAt (ruling item).1 d₁ d₂)
    (hd : ∀ id, d.Lists id (σ id)) :
    ∃ d', treatAll treat d items = .ok (d', effectsOf clock σ (items.map ruling)) ∧
      d'.id = d.id ∧ d'.links = d.links ∧
      ∀ id, d'.Lists id (afterRulings clock σ (items.map ruling) id) := by
  have hkeys : (items.map ruling).map (·.1) = items.map fun item => (ruling item).1 :=
    List.map_map
  obtain ⟨d', hok, hafter, honly⟩ := treatAll_pointwise treat (fun item => (ruling item).1)
    (fun item => σ (ruling item).1)
    (fun item => ((σ (ruling item).1).outcome clock (some (ruling item).2)).after)
    (fun item => ((σ (ruling item).1).outcome clock (some (ruling item).2)).effects clock
      (ruling item).1)
    items (hkeys ▸ hagents) htreat (d := d) fun item _ => hd (ruling item).1
  refine ⟨d', ?_, honly.id_eq, honly.links_eq, ?_⟩
  · rw [hok, effectsOf, List.map_map]
    rfl
  · intro id
    by_cases hid : id ∈ (items.map ruling).map (·.1)
    · rw [hkeys] at hid
      obtain ⟨item, hitem, rfl⟩ := List.mem_map.1 hid
      have hmem : ((ruling item).1, (ruling item).2) ∈ items.map ruling := List.mem_map_of_mem hitem
      rw [afterRulings, (lookup_eq_some_iff_mem hagents).2 hmem]
      exact hafter item hitem
    · rw [afterRulings_of_not_mem hid]
      exact honly.lists (hkeys ▸ hid) (hd id)

omit [Quantity α] in
/-- A refusal holds back the agent that is refused, and nobody is told of it. -/
theorem hold_refusal_lists (clock : Clock) (hd : ∀ id, d.Lists id (σ id))
    {refusal? : Option Refusal}
    (hfits : ∀ entry ∈ LinkVerdict.refusalRulings refusal?, (σ entry.1).Fits entry.2) :
    (d.hold refusal?).id = d.id ∧ (d.hold refusal?).links = d.links ∧
      ∀ id, (d.hold refusal?).Lists id
        (afterRulings clock σ (LinkVerdict.refusalRulings refusal?) id) := by
  cases refusal? with
  | none =>
      refine ⟨rfl, rfl, ?_⟩
      intro id
      rw [afterRulings_of_not_mem (by simp [LinkVerdict.refusalRulings])]
      exact hd id
  | some refusal =>
      have hfit := hfits (refusal.agent, .hold refusal.target) (List.mem_singleton.2 rfl)
      have hagent := hd refusal.agent
      cases hσ : σ refusal.agent with
      | underWay a held? =>
          rw [hσ] at hagent
          obtain ⟨hheld, honly⟩ := hold_lists hagent
          refine ⟨honly.id_eq, honly.links_eq, ?_⟩
          intro id
          by_cases hid : id = refusal.agent
          · subst hid
            rw [afterRulings, hσ]
            simpa [LinkVerdict.refusalRulings, Situation.outcome] using hheld
          · rw [afterRulings_of_not_mem (by simpa [LinkVerdict.refusalRulings] using hid)]
            exact honly.lists hid (hd id)
      | _ =>
          rw [hσ] at hfit
          cases hfit

theorem effectsOf_refusalRulings (refusal? : Option Refusal) :
    effectsOf clock σ (LinkVerdict.refusalRulings refusal?) = .none := by
  cases refusal? with
  | none => rfl
  | some refusal =>
      simp only [LinkVerdict.refusalRulings, effectsOf, Option.toList_some, List.map_cons,
        List.map_nil, Effects.join_cons, Effects.join_nil]
      cases σ refusal.agent <;> rfl

omit [Quantity α] in
theorem carryOutAll_lists (clock : Clock) (link : LinkId) {released : List QueuedAgent}
    {grants : List Grant}
    (hfront : grants.map Grant.agent = released.map (·.agent))
    (hagents : ((LinkVerdict.grantRulings grants).map (·.1)).Nodup)
    (hd : ∀ id, d.Lists id (σ id)) (hvalid : ∀ id, (σ id).Valid g id)
    (hfits : ∀ entry ∈ LinkVerdict.grantRulings grants, (σ entry.1).Fits entry.2) :
    ∃ d', treatAll (carryOut clock link) d (released.zip grants) =
        .ok (d', effectsOf clock σ (LinkVerdict.grantRulings grants)) ∧
      d'.id = d.id ∧ d'.links = d.links ∧
      ∀ id, d'.Lists id (afterRulings clock σ (LinkVerdict.grantRulings grants) id) := by
  have hlength : grants.length = released.length := by
    have hsame := congrArg List.length hfront
    rwa [List.length_map, List.length_map] at hsame
  have hrulings : (released.zip grants).map (fun item => (item.2.agent, item.2.ruling)) =
      LinkVerdict.grantRulings grants := by
    have hsnd := List.map_snd_zip (Nat.le_of_eq hlength)
    rw [LinkVerdict.grantRulings, ← hsnd, List.map_map, hsnd]
    rfl
  rw [← hrulings] at hagents hfits ⊢
  refine treatAll_lists clock _ _ _ hagents ?_ hd
  rintro ⟨entry, grant⟩ hitem d₁ hd₁
  have hagent : entry.agent = grant.agent := eq_of_mem_zip_of_map_eq hfront.symm hitem
  exact carryOut_lists hagent hd₁ (hvalid _)
    (hfits (grant.agent, grant.ruling) (List.mem_map_of_mem hitem))

/-- A decision that can be carried out on a link changes its queue and the situations of those
whom it tells something. -/
theorem settleLink_lists (hd : ∀ id, d.Lists id (σ id)) (hvalid : ∀ id, (σ id).Valid g id)
    (hq : d.links[link]? = some q) (hv : v.Executable clock.now σ q) :
    ∃ d', d.settleLink clock (link, v) = .ok (d', effectsOf clock σ v.rulings) ∧
      d'.id = d.id ∧ d'.links = d.links.insert link (q.relieved (some v)) ∧
      ∀ id, d'.Lists id (afterRulings clock σ v.rulings id) := by
  let base : District α := { d with links := d.links.insert link (q.relieved (some v)) }
  let refused := afterRulings clock σ (LinkVerdict.refusalRulings v.refusal?)
  have hfits := hv.fits
  rw [LinkVerdict.rulings_eq] at hfits
  have hrefusal : ∀ entry ∈ LinkVerdict.refusalRulings v.refusal?, (σ entry.1).Fits entry.2 :=
    fun entry hentry => hfits entry (List.mem_append_right _ hentry)
  obtain ⟨hidHeld, hlinksHeld, hheld⟩ := hold_refusal_lists clock (d := base) hd hrefusal
  have hsingle := hv.single
  rw [LinkVerdict.rulings_eq] at hsingle
  -- the agent that is refused is none of those that are granted
  have hperm : (LinkVerdict.grantRulings v.grants ++ LinkVerdict.refusalRulings v.refusal?).Perm
      (LinkVerdict.refusalRulings v.refusal? ++ LinkVerdict.grantRulings v.grants) :=
    List.perm_append_comm
  have hsingle' := (hperm.map _).nodup hsingle
  have hsame : ∀ entry ∈ LinkVerdict.grantRulings v.grants, refused entry.1 = σ entry.1 :=
    fun entry hentry => afterRulings_of_append hsingle' hentry
  have hgrants : ∀ entry ∈ LinkVerdict.grantRulings v.grants, (refused entry.1).Fits entry.2 := by
    intro entry hentry
    rw [hsame entry hentry]
    exact hfits entry (List.mem_append_left _ hentry)
  obtain ⟨d', htreat, hid, hlinks, hlists⟩ := carryOutAll_lists clock link hv.front
    (((List.sublist_append_left _ _).map _).nodup hsingle) hheld
    (valid_afterRulings hvalid hrefusal) hgrants
  refine ⟨d', ?_, hid.trans hidHeld, hlinks.trans hlinksHeld, ?_⟩
  · rw [LinkVerdict.rulings_eq, effectsOf_append, effectsOf_refusalRulings, Effects.append_none,
      ← effectsOf_congr hsame]
    simp only [settleLink, hq, release_eq hv]
    exact htreat
  · intro id
    rw [LinkVerdict.rulings_eq, afterRulings_perm hsingle hperm, ← afterRulings_append hsingle']
    exact hlists id

/-! ## All links and departures of a district -/

/-- The decisions on several links are carried out as if each were the only one. -/
theorem settleLinks_lists (clock : Clock) {verdicts : List (LinkId × LinkVerdict)}
    (hlinks : (verdicts.map (·.1)).Nodup)
    (hagents : ((verdicts.flatMap fun entry => entry.2.rulings).map (·.1)).Nodup)
    (hd : ∀ id, d.Lists id (σ id)) (hvalid : ∀ id, (σ id).Valid g id)
    (hexecutable : ∀ entry ∈ verdicts,
      ∃ q, d.links[entry.1]? = some q ∧ entry.2.Executable clock.now σ q) :
    ∃ d', treatAll (settleLink clock) d verdicts =
        .ok (d', effectsOf clock σ (verdicts.flatMap fun entry => entry.2.rulings)) ∧
      d'.id = d.id ∧
      (∀ link : LinkId,
        d'.links[link]? = (d.links[link]?).map fun q => q.relieved (verdicts.lookup link)) ∧
      ∀ id, d'.Lists id
        (afterRulings clock σ (verdicts.flatMap fun entry => entry.2.rulings) id) := by
  induction verdicts generalizing d σ with
  | nil =>
      refine ⟨d, rfl, rfl, ?_, ?_⟩
      · intro link
        simp [LinkQueue.relieved]
      · intro id
        rw [List.flatMap_nil, afterRulings_of_not_mem (by simp)]
        exact hd id
  | cons first rest ih =>
      obtain ⟨link, v⟩ := first
      rw [List.map_cons, List.nodup_cons] at hlinks
      rw [List.flatMap_cons] at hagents ⊢
      obtain ⟨q, hq, hv⟩ := hexecutable _ List.mem_cons_self
      obtain ⟨d₁, hok, hid, hd₁links, hd₁⟩ := settleLink_lists (g := g) hd hvalid hq hv
      have hsame : ∀ entry ∈ rest.flatMap fun entry => entry.2.rulings,
          afterRulings clock σ v.rulings entry.1 = σ entry.1 :=
        fun entry hentry => afterRulings_of_append hagents hentry
      have hstill : ∀ entry ∈ rest, ∃ q, d₁.links[entry.1]? = some q ∧
          entry.2.Executable clock.now (afterRulings clock σ v.rulings) q := by
        intro entry hentry
        obtain ⟨other, hother, hexec⟩ := hexecutable entry (List.mem_cons_of_mem _ hentry)
        have hne : link ≠ entry.1 := by
          rintro rfl
          exact hlinks.1 (List.mem_map_of_mem (f := fun entry => entry.1) hentry)
        refine ⟨other, ?_, hexec.congr fun ruling hruling => ?_⟩
        · rw [hd₁links, getElem?_insert_ident, if_neg hne]
          exact hother
        · exact hsame ruling (List.mem_flatMap.2 ⟨entry, hentry, hruling⟩)
      obtain ⟨d₂, hrest, hid₂, hd₂links, hd₂⟩ := ih hlinks.2
        (((List.sublist_append_right v.rulings _).map Prod.fst).nodup hagents) hd₁
        (valid_afterRulings hvalid hv.fits) hstill
      refine ⟨d₂, ?_, hid₂.trans hid, ?_, ?_⟩
      · rw [effectsOf_congr hsame] at hrest
        simp only [treatAll, hok, hrest, effectsOf_append]
      · intro other
        rw [hd₂links, hd₁links, getElem?_insert_ident, List.lookup_cons]
        by_cases hother : link = other
        · subst hother
          have hnone : rest.lookup link = none := lookup_eq_none_of_not_mem hlinks.1
          simp [hq, hnone, LinkQueue.relieved]
        · have hbeq : (other == link) = false := by simpa using fun h => hother h.symm
          rw [if_neg hother, hbeq]
      · intro id
        rw [← afterRulings_append hagents]
        exact hd₂ id

omit [Quantity α] in
theorem settleDepartures_lists (clock : Clock) (departures : List (AgentId × DepartureVerdict))
    (hagents : (departures.map (·.1)).Nodup) (hd : ∀ id, d.Lists id (σ id))
    (hvalid : ∀ id, (σ id).Valid g id)
    (hfits : ∀ entry ∈ departures, (σ entry.1).Fits entry.2.ruling) :
    ∃ d', treatAll (settleDeparture clock) d departures =
        .ok (d', effectsOf clock σ (Verdicts.departureRulings departures)) ∧
      d'.id = d.id ∧ d'.links = d.links ∧
      ∀ id, d'.Lists id (afterRulings clock σ (Verdicts.departureRulings departures) id) := by
  have hkeys : (Verdicts.departureRulings departures).map (·.1) = departures.map (·.1) :=
    List.map_map
  refine treatAll_lists clock _ _ _ (hkeys ▸ hagents) ?_ hd
  intro entry hentry d₁ hd₁
  exact settleDeparture_lists hd₁ (hvalid entry.1) (hfits entry hentry)

end District
end Thoroughfare

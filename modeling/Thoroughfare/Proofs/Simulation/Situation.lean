import Thoroughfare.Proofs.Arrangement
import Thoroughfare.Proofs.Plan.Course
import Thoroughfare.Proofs.Plan.WakeUps

/-!
# The situation of an agent

A district keeps five tables by agent: who is live, who is to be woken, who waits to depart, whose
move was refused, and who is finished.  What they say about one agent is its listing.  Only a few
listings make sense, and each of them is the situation of an agent: it is absent, rests, waits,
is under way, or is done.

Every operation of a district on an agent leaves all other agents and all links alone, so its effect
is the change of one situation.
-/

namespace Thoroughfare

/-- What is told of an agent at a moment. -/
def Clock.tell (clock : Clock) (id : AgentId) (kinds : List EventKind) : List Event :=
  kinds.map fun kind => ⟨clock.now, id, kind⟩

/-- What the tables of a district say about an agent. -/
structure Listing where
  live? : Option Agent
  wakeUps : List Tick
  /-- Whether it was refused before, if it waits to depart. -/
  departing? : Option Bool
  held? : Option LinkId
  finished? : Option Agent

/-- The situation of an agent in a district. -/
inductive Situation where
  /-- The district knows nothing of the agent. -/
  | absent
  /-- It performs an activity and is to be woken at a tick. -/
  | resting (agent : Agent) (wakeUp : Tick)
  /-- It waits to enter the first link of its leg, and may have been refused before. -/
  | waiting (agent : Agent) (refused : Bool)
  /-- It is live and in no table of its own, but its last move may have been refused. -/
  | underWay (agent : Agent) (held? : Option LinkId)
  | done (agent : Agent)
deriving DecidableEq

/-- The listing that belongs to a situation. -/
def Situation.listing : Situation → Listing
  | absent => ⟨none, [], none, none, none⟩
  | resting a tick => ⟨some a, [tick], none, none, none⟩
  | waiting a refused => ⟨some a, [], some refused, none, none⟩
  | underWay a held? => ⟨some a, [], none, held?, none⟩
  | done a => ⟨none, [], none, none, some a⟩

/-- The situation that a listing shows. -/
def Listing.situation (l : Listing) : Situation :=
  match l.finished?, l.live?, l.wakeUps, l.departing? with
  | some a, _, _, _ => .done a
  | none, some a, tick :: _, _ => .resting a tick
  | none, some a, [], some refused => .waiting a refused
  | none, some a, [], none => .underWay a l.held?
  | none, none, _, _ => .absent

@[simp] theorem Listing.situation_listing (σ : Situation) : σ.listing.situation = σ := by
  cases σ <;> rfl

namespace Situation

/-- What holds of an agent in a situation, whatever the district. -/
def Valid (g : Network) (id : AgentId) : Situation → Prop
  | absent => True
  | resting a _ =>
      a.id = id ∧ a.state = .atActivity ∧ ∃ activity, a.currentActivity? = some activity
  | waiting a _ => a.id = id ∧ a.state = .departing ∧ ∃ leg next, a.OnLeg g leg next
  | underWay a held? =>
      a.id = id ∧ a.state = .enRoute ∧ (∃ leg next, a.OnLeg g leg next) ∧
        ∀ target, held? = some target → a.nextLink? = some target
  | done a => a.id = id ∧ a.state = .finished

/-- The link on which a live agent is, or rests. -/
def link? : Situation → Option LinkId
  | resting a _ => a.currentLink?
  | waiting a _ => a.currentLink?
  | underWay a _ => a.currentLink?
  | _ => none

theorem Valid.exists_link {g : Network} {id : AgentId} {σ : Situation} {a : Agent}
    (h : σ.Valid g id) (hlive : σ.listing.live? = some a) :
    ∃ link, a.currentLink? = some link ∧ σ.link? = some link := by
  cases σ with
  | absent => cases hlive
  | resting b k =>
      cases hlive
      obtain ⟨-, hstate, activity, hactivity⟩ := h
      have hlink : a.currentLink? = some activity.link := by
        simp [Agent.currentLink?, hstate, hactivity]
      exact ⟨activity.link, hlink, hlink⟩
  | waiting b refused =>
      cases hlive
      obtain ⟨-, hstate, leg, next, hleg⟩ := h
      obtain ⟨link, hlink, -⟩ := Agent.exists_currentLink_of_onLeg hleg (Or.inl hstate)
      exact ⟨link, hlink, hlink⟩
  | underWay b held? =>
      cases hlive
      obtain ⟨-, hstate, ⟨leg, next, hleg⟩, -⟩ := h
      obtain ⟨link, hlink, -⟩ := Agent.exists_currentLink_of_onLeg hleg (Or.inr hstate)
      exact ⟨link, hlink, hlink⟩
  | done b => cases hlive

end Situation

namespace District

variable {α : Type} {d d' d'' : District α} {id other : AgentId} {σ τ : Situation}

/-- What the tables say about an agent. -/
def listing (d : District α) (id : AgentId) : Listing where
  live? := d.agents[id]?
  wakeUps := d.wakeUps.ticksOf id
  departing? := d.departing[id]?
  held? := d.held[id]?
  finished? := d.finished[id]?

/-- The situation of an agent. -/
def situation (d : District α) (id : AgentId) : Situation :=
  (d.listing id).situation

/-- The tables say about an agent just what belongs to a situation. -/
def Lists (d : District α) (id : AgentId) (σ : Situation) : Prop :=
  d.listing id = σ.listing

theorem Lists.situation_eq (h : d.Lists id σ) : d.situation id = σ := by
  rw [situation, h, Listing.situation_listing]

/-- The tables in words. -/
theorem lists_iff :
    d.Lists id σ ↔ d.agents[id]? = σ.listing.live? ∧ d.wakeUps.ticksOf id = σ.listing.wakeUps ∧
      d.departing[id]? = σ.listing.departing? ∧ d.held[id]? = σ.listing.held? ∧
      d.finished[id]? = σ.listing.finished? := by
  rw [Lists, listing, Listing.mk.injEq]

/-! ## Operations on one agent -/

/-- All that concerns other agents, and all links, stay as they are. -/
structure OnlyAt (id : AgentId) (d d' : District α) : Prop where
  id_eq : d'.id = d.id
  links_eq : d'.links = d.links
  listing_eq : ∀ other, other ≠ id → d'.listing other = d.listing other

theorem OnlyAt.lists (h : OnlyAt id d d') (hne : other ≠ id) (hσ : d.Lists other σ) :
    d'.Lists other σ :=
  (h.listing_eq other hne).trans hσ

/-- All that concerns agents outside of some, and all links, stay as they are. -/
structure OnlyWithin (ids : List AgentId) (d d' : District α) : Prop where
  id_eq : d'.id = d.id
  links_eq : d'.links = d.links
  listing_eq : ∀ other, other ∉ ids → d'.listing other = d.listing other

theorem OnlyWithin.lists {ids : List AgentId} (h : OnlyWithin ids d d') (hne : other ∉ ids)
    (hσ : d.Lists other σ) : d'.Lists other σ :=
  (h.listing_eq other hne).trans hσ

theorem OnlyWithin.refl (d : District α) : OnlyWithin [] d d :=
  ⟨rfl, rfl, fun _ _ => rfl⟩

theorem OnlyWithin.cons {ids : List AgentId} (h : OnlyAt id d d') (h' : OnlyWithin ids d' d'') :
    OnlyWithin (id :: ids) d d'' := by
  refine ⟨h'.id_eq.trans h.id_eq, h'.links_eq.trans h.links_eq, ?_⟩
  intro other hother
  rw [List.mem_cons, not_or] at hother
  exact (h'.listing_eq other hother.2).trans (h.listing_eq other hother.1)

end District

section Tables

variable {kind : Entity} {β : Type} {t : Std.ExtTreeMap (Ident kind) β} {k a : Ident kind} {v : β}

theorem getElem?_insert_ident : (t.insert k v)[a]? = if k = a then some v else t[a]? := by
  rw [Std.ExtTreeMap.getElem?_insert]
  simp only [Std.LawfulEqCmp.compare_eq_iff_eq]

theorem getElem?_erase_ident : (t.erase k)[a]? = if k = a then none else t[a]? := by
  rw [Std.ExtTreeMap.getElem?_erase]
  simp only [Std.LawfulEqCmp.compare_eq_iff_eq]

theorem nodup_map_fst_toList : (t.toList.map (·.1)).Nodup := by
  rw [Std.ExtTreeMap.map_fst_toList_eq_keys]
  exact Std.ExtTreeMap.nodup_keys

theorem getElem?_ofList_ident {entries : List (Ident kind × β)}
    (hnodup : (entries.map (·.1)).Nodup) :
    (Std.ExtTreeMap.ofList entries)[a]? = entries.lookup a := by
  cases hlookup : entries.lookup a with
  | some v =>
      refine Std.ExtTreeMap.getElem?_ofList_of_mem (Std.LawfulEqCmp.compare_eq_iff_eq.2 rfl) ?_
        ((lookup_eq_some_iff_mem hnodup).1 hlookup)
      refine (List.pairwise_map.1 hnodup).imp fun hne hsame => ?_
      exact hne (Std.LawfulEqCmp.compare_eq_iff_eq.1 hsame)
  | none =>
      refine Std.ExtTreeMap.getElem?_ofList_of_contains_eq_false ?_
      rw [List.lookup_eq_none_iff] at hlookup
      rw [← Bool.not_eq_true, List.contains_iff_mem]
      intro hmem
      obtain ⟨entry, hentry, rfl⟩ := List.mem_map.1 hmem
      simpa using hlookup entry hentry

end Tables

/-! ## Working through items with one agent each -/

/-- Some effects together. -/
def Effects.join (effects : List Effects) : Effects :=
  ⟨effects.flatMap Effects.events, effects.flatMap Effects.transfers⟩

@[simp] theorem Effects.join_nil : Effects.join [] = .none :=
  rfl

theorem Effects.join_cons (first : Effects) (rest : List Effects) :
    Effects.join (first :: rest) = first ++ Effects.join rest :=
  rfl

namespace District

variable {α β : Type}

/-- When each item changes the situation of an agent of its own, all items together change each of
these situations as if it were the only one. -/
theorem treatAll_pointwise (treat : District α → β → Except StepError (District α × Effects))
    (key : β → AgentId) (before after : β → Situation) (effects : β → Effects) (items : List β)
    (hnodup : (items.map key).Nodup)
    (hstep : ∀ item ∈ items, ∀ d : District α, d.Lists (key item) (before item) →
      ∃ d', treat d item = .ok (d', effects item) ∧ d'.Lists (key item) (after item) ∧
        OnlyAt (key item) d d')
    {d : District α} (hbefore : ∀ item ∈ items, d.Lists (key item) (before item)) :
    ∃ d', treatAll treat d items = .ok (d', Effects.join (items.map effects)) ∧
      (∀ item ∈ items, d'.Lists (key item) (after item)) ∧ OnlyWithin (items.map key) d d' := by
  induction items generalizing d with
  | nil => exact ⟨d, rfl, by simp, OnlyWithin.refl d⟩
  | cons first rest ih =>
      rw [List.map_cons, List.nodup_cons] at hnodup
      obtain ⟨middle, htreat, hafter, honly⟩ :=
        hstep first List.mem_cons_self d (hbefore first List.mem_cons_self)
      have hne : ∀ item ∈ rest, key item ≠ key first := by
        intro item hitem hkey
        exact hnodup.1 (hkey ▸ List.mem_map_of_mem hitem)
      obtain ⟨d', hrest, hafters, hwithin⟩ := ih hnodup.2
        (fun item hitem => hstep item (List.mem_cons_of_mem _ hitem)) (d := middle)
        (fun item hitem => honly.lists (hne item hitem)
          (hbefore item (List.mem_cons_of_mem _ hitem)))
      refine ⟨d', ?_, ?_, OnlyWithin.cons honly hwithin⟩
      · rw [treatAll, htreat]
        simp only [hrest, List.map_cons, Effects.join_cons]
      · intro item hitem
        rcases List.mem_cons.1 hitem with rfl | hmem
        · exact hwithin.lists hnodup.1 hafter
        · exact hafters item hmem

end District

end Thoroughfare

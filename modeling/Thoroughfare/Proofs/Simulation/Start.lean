import Thoroughfare.Proofs.Network.Building
import Thoroughfare.Proofs.Simulation.City

/-!
# The start of a simulation

A simulation that is built from a network with numbered links is sound.  Every agent rests at its
first activity in the district of its link, every link has an empty queue, and nothing in the world
at the start depends on the split or on the order of the agents.
-/

namespace Thoroughfare

/-! ## One district at the start -/

namespace District

variable {α : Type} {clock : Clock} {d : District α} {id : AgentId} {link : LinkId} {a : Agent}

theorem links_foldl_addLink (link : LinkId) (make : Link → LinkQueue α)
    (hmake : ∀ l, (make l).link = l.id)
    {links : List Link} (hnodup : (links.map (·.id)).Nodup) :
    (links.foldl (fun d l => d.addLink (make l)) d).links[link]? =
      ((links.find? fun l => l.id = link).map make).or d.links[link]? := by
  induction links generalizing d with
  | nil => rfl
  | cons first rest ih =>
      rw [List.map_cons, List.nodup_cons] at hnodup
      rw [List.foldl_cons, ih hnodup.2, addLink, getElem?_insert_ident, hmake, List.find?_cons]
      by_cases hlink : first.id = link
      · have hnone : rest.find? (fun l => decide (l.id = link)) = none := by
          rw [List.find?_eq_none]
          intro l hl hsame
          exact hnodup.1 (hlink ▸ of_decide_eq_true hsame ▸ List.mem_map_of_mem hl)
        simp [hlink, hnone]
      · simp [hlink]

/-- A district that gets some more links is the same but for its links. -/
theorem foldl_addLink_eq (make : Link → LinkQueue α) (links : List Link) (d : District α) :
    links.foldl (fun d l => d.addLink (make l)) d =
      { d with links := (links.foldl (fun d l => d.addLink (make l)) d).links } := by
  induction links generalizing d with
  | nil => rfl
  | cons first rest ih =>
      rw [List.foldl_cons, ih]
      rfl

theorem addAgent_lists (clock : Clock) (hd : d.Lists a.id .absent) :
    (d.addAgent clock a).Lists a.id (.resting a (firstWakeUp clock a)) ∧
      OnlyAt a.id d (d.addAgent clock a) := by
  obtain ⟨-, hwakeUps, hoffer, hheld, hfinished⟩ := lists_iff.1 hd
  refine ⟨lists_iff.2 ⟨?_, WakeQueue.ticksOf_push_self hwakeUps, hoffer, hheld, hfinished⟩, rfl,
    rfl, ?_⟩
  · simp [addAgent, Situation.listing]
  · intro other hother
    simp [listing, addAgent, getElem?_insert_ident, WakeQueue.ticksOf_push_of_ne, hother.symm]

/-- A district that takes in some agents knows each of them at its first activity. -/
theorem foldl_addAgent_lists (clock : Clock) {agents : List Agent}
    (hnodup : (agents.map (·.id)).Nodup)
    (habsent : ∀ a ∈ agents, d.Lists a.id .absent) :
    (∀ a ∈ agents, (agents.foldl (addAgent clock) d).Lists a.id
        (.resting a (firstWakeUp clock a))) ∧
      OnlyWithin (agents.map (·.id)) d (agents.foldl (addAgent clock) d) := by
  induction agents generalizing d with
  | nil => exact ⟨by simp, OnlyWithin.refl d⟩
  | cons first rest ih =>
      rw [List.map_cons, List.nodup_cons] at hnodup
      obtain ⟨hfirst, honly⟩ := addAgent_lists clock (habsent first List.mem_cons_self)
      have hne : ∀ a ∈ rest, a.id ≠ first.id := by
        intro a ha hsame
        exact hnodup.1 (hsame ▸ List.mem_map_of_mem ha)
      obtain ⟨hrest, hwithin⟩ := ih (d := d.addAgent clock first) hnodup.2 fun a ha =>
        honly.lists (hne a ha) (habsent a (List.mem_cons_of_mem _ ha))
      refine ⟨?_, OnlyWithin.cons honly hwithin⟩
      intro a ha
      rcases List.mem_cons.1 ha with rfl | hmem
      · exact hwithin.lists hnodup.1 hfirst
      · exact hrest a hmem

end District

/-! ## Agents that fit -/

/-- Agents with different numbers, all at their first activity. -/
structure Newcomers (agents : List Agent) : Prop where
  single : (agents.map (·.id)).Nodup
  atFirst : ∀ a ∈ agents, a.state = .atActivity ∧ a.segment = 0

/-- The agent with a number. -/
def withId (agents : List Agent) (id : AgentId) : Option Agent :=
  agents.find? fun a => a.id = id

namespace Newcomers

variable {agents agents' : List Agent} {id : AgentId} {a : Agent}

theorem of_agentFault? {seen : Std.ExtTreeMap AgentId Unit}
    (h : Simulation.agentFault? seen agents = none) :
    Newcomers agents ∧ ∀ a ∈ agents, a.id ∉ seen := by
  induction agents generalizing seen with
  | nil => exact ⟨⟨List.nodup_nil, by simp⟩, by simp⟩
  | cons first rest ih =>
      rw [Simulation.agentFault?] at h
      split at h
      · cases h
      · rename_i hunseen
        split at h
        · cases h
        · rename_i hfirst
          obtain ⟨⟨hsingle, hrest⟩, hothers⟩ := ih h
          rw [not_or, Decidable.not_not, Decidable.not_not] at hfirst
          have hdifferent : ∀ a ∈ rest, a.id ≠ first.id := by
            intro a ha hsame
            exact hothers a ha (by simp [hsame])
          refine ⟨⟨?_, ?_⟩, ?_⟩
          · rw [List.map_cons, List.nodup_cons]
            refine ⟨fun hmem => ?_, hsingle⟩
            obtain ⟨a, ha, hsame⟩ := List.mem_map.1 hmem
            exact hdifferent a ha hsame
          · intro a ha
            rcases List.mem_cons.1 ha with rfl | hmem
            · exact hfirst
            · exact hrest a hmem
          · intro a ha
            rcases List.mem_cons.1 ha with rfl | hmem
            · simpa using hunseen
            · intro hin
              exact hothers a hmem (Std.ExtTreeMap.mem_insert.2 (Or.inr hin))

theorem withId_eq_some_iff (h : Newcomers agents) :
    withId agents id = some a ↔ a ∈ agents ∧ a.id = id :=
  find?_eq_some_iff_mem h.single

theorem withId_eq_none_iff : withId agents id = none ↔ id ∉ agents.map (·.id) := by
  simp [withId, List.find?_eq_none]

theorem filter (h : Newcomers agents) (keep : Agent → Bool) : Newcomers (agents.filter keep) :=
  ⟨(List.filter_sublist.map _).nodup h.single, fun a ha => h.atFirst a (List.mem_filter.1 ha).1⟩

theorem withId_congr (h : Newcomers agents) (h' : Newcomers agents') (hperm : agents.Perm agents') :
    withId agents = withId agents' := by
  funext id
  apply Option.ext
  intro a
  rw [h.withId_eq_some_iff, h'.withId_eq_some_iff, hperm.mem_iff]

end Newcomers

/-! ## The first districts -/

/-- The situation of an agent at the start, if there is one. -/
def Situation.atStart (clock : Clock) : Option Agent → Situation
  | some a => .resting a (District.firstWakeUp clock a)
  | none => .absent

/-- The world at the start. -/
def World.atStart (α : Type) [Quantity α] (config : Config) (g : Network) (agents : List Agent) :
    World α where
  situation id := .atStart config.clock (withId agents id)
  queue? link := (g.link? link).map fun l => .ofLink l g.periodSecs config

/-- Everybody who is there at the start rests. -/
theorem Newcomers.situation_atStart {α : Type} [Quantity α] {config : Config} {g : Network}
    {agents : List Agent} {a : Agent} (h : Newcomers agents) (ha : a ∈ agents) :
    (World.atStart α config g agents).situation a.id =
      .resting a (District.firstWakeUp config.clock a) := by
  have hfind : withId agents a.id = some a := h.withId_eq_some_iff.2 ⟨ha, rfl⟩
  simp only [World.atStart, hfind]
  rfl

theorem Newcomers.exists_activity {agents : List Agent} {a : Agent} (h : Newcomers agents)
    (ha : a ∈ agents) :
    ∃ activity, a.itinerary.firstActivity? = some activity ∧
      a.currentActivity? = some activity := by
  obtain ⟨activity, hactivity⟩ := a.itinerary.exists_firstActivity
  refine ⟨activity, hactivity, ?_⟩
  rw [Agent.currentActivity?, (h.atFirst a ha).2]
  exact hactivity

namespace Simulation

variable {α : Type} [Quantity α] {config : Config} {g : Network} {p : Partitioning}
  {agents : List Agent} {owner : PartitionId}

theorem find?_filter_owner (p : Partitioning) (owner : PartitionId) (hg : g.Numbered)
    (link : LinkId) :
    (g.links.toList.filter fun l => p.linkOwner l.id = owner).find? (fun l => l.id = link) =
      if p.linkOwner link = owner then g.link? link else none := by
  have hnodup := (List.filter_sublist (p := fun l => p.linkOwner l.id = owner).map _).nodup hg.nodup
  apply Option.ext
  intro l
  rw [find?_eq_some_iff_mem hnodup, List.mem_filter, decide_eq_true_eq]
  by_cases howner : p.linkOwner link = owner
  · rw [if_pos howner, hg.link?_eq_some_iff]
    constructor
    · rintro ⟨⟨hmem, -⟩, hid⟩
      exact ⟨hmem, hid⟩
    · rintro ⟨hmem, rfl⟩
      exact ⟨⟨hmem, howner⟩, rfl⟩
  · rw [if_neg howner]
    constructor
    · rintro ⟨⟨-, hsame⟩, rfl⟩
      exact absurd hsame howner
    · intro hnone
      cases hnone

theorem firstDistrict_spec (config : Config) (p : Partitioning) (owner : PartitionId)
    (hg : g.Numbered) (hagents : Newcomers agents) :
    (firstDistrict (α := α) config g p agents owner).id = owner ∧
      (∀ link : LinkId, (firstDistrict (α := α) config g p agents owner).links[link]? =
        if p.linkOwner link = owner then (World.atStart α config g agents).queue? link else none) ∧
      ∀ id, (firstDistrict (α := α) config g p agents owner).Lists id
        (.atStart config.clock (withId (agents.filter fun a => homeOf p a = owner) id)) := by
  let make : Link → LinkQueue α := fun l => .ofLink l g.periodSecs config
  let links := g.links.toList.filter fun l => p.linkOwner l.id = owner
  let residents := agents.filter fun a => homeOf p a = owner
  let roads : District α := links.foldl (fun d l => d.addLink (make l)) (.empty owner)
  have hlinks : (links.map (·.id)).Nodup := (List.filter_sublist.map _).nodup hg.nodup
  have hroads : roads = ({ District.empty owner with links := roads.links } : District α) :=
    District.foldl_addLink_eq make links (.empty owner)
  have hresidents : Newcomers residents := hagents.filter _
  have hempty : ∀ id, roads.Lists id .absent := by
    intro id
    rw [hroads]
    rfl
  obtain ⟨hlists, honly⟩ := District.foldl_addAgent_lists config.clock (d := roads)
    hresidents.single fun a _ => hempty a.id
  refine ⟨?_, ?_, ?_⟩
  · apply honly.id_eq.trans
    rw [hroads]
    rfl
  · intro link
    have hfind := find?_filter_owner p owner hg link
    have hnone : (District.empty (α := α) owner).links[link]? = none := by simp [District.empty]
    have hget := District.links_foldl_addLink link make (fun _ => rfl) (d := .empty owner) hlinks
    rw [hfind, hnone, Option.or_none] at hget
    refine (congrArg (fun table => table[link]?) honly.links_eq).trans (hget.trans ?_)
    split <;> rfl
  · intro id
    cases hfind : withId residents id with
    | some a =>
        obtain ⟨ha, rfl⟩ := hresidents.withId_eq_some_iff.1 hfind
        exact hlists a ha
    | none =>
        exact honly.lists (Newcomers.withId_eq_none_iff.1 hfind) (hempty id)

/-- A resting agent at its first activity is where its partition is. -/
theorem homeOf_eq {a : Agent} (hstate : a.state = .atActivity) (hsegment : a.segment = 0) :
    ∃ activity, a.currentActivity? = some activity ∧ a.currentLink? = some activity.link ∧
      homeOf p a = p.linkOwner activity.link := by
  obtain ⟨activity, hactivity⟩ := a.itinerary.exists_firstActivity
  have hcurrent : a.currentActivity? = some activity := by
    rw [Agent.currentActivity?, hsegment]
    exact hactivity
  refine ⟨activity, hcurrent, ?_, ?_⟩
  · simp [Agent.currentLink?, hstate, hcurrent]
  · simp [homeOf, hactivity]

theorem firstDistrict_situation_cases (config : Config) (p : Partitioning) (owner : PartitionId)
    (hg : g.Numbered) (hagents : Newcomers agents) (id : AgentId) :
    (firstDistrict (α := α) config g p agents owner).situation id = .absent ∨
      ∃ a, a.id = id ∧ a.state = .atActivity ∧ a.segment = 0 ∧ homeOf p a = owner ∧
        (firstDistrict (α := α) config g p agents owner).situation id =
          .resting a (District.firstWakeUp config.clock a) := by
  rw [((firstDistrict_spec (α := α) config p owner hg hagents).2.2 id).situation_eq]
  cases hfind : withId (agents.filter fun a => homeOf p a = owner) id with
  | none => exact Or.inl rfl
  | some a =>
      obtain ⟨ha, haid⟩ := (hagents.filter _).withId_eq_some_iff.1 hfind
      obtain ⟨hstate, hsegment⟩ := (hagents.filter _).atFirst a ha
      exact Or.inr ⟨a, haid, hstate, hsegment, of_decide_eq_true (List.mem_filter.1 ha).2, rfl⟩

theorem firstDistrict_peopled (hg : g.Numbered) (hagents : Newcomers agents) :
    (firstDistrict (α := α) config g p agents owner).Peopled g p 0 := by
  obtain ⟨hid, -, hlists⟩ := firstDistrict_spec (α := α) config p owner hg hagents
  apply District.Peopled.of_lists
  intro id
  refine ⟨_, hlists id, ?_⟩
  rw [← (hlists id).situation_eq, hid]
  rcases firstDistrict_situation_cases (α := α) config p owner hg hagents id with
    habsent | ⟨a, haid, hstate, hsegment, hhome, hresting⟩
  · rw [habsent]
    constructor
    · trivial
    · intro link hlink
      cases hlink
    · intro a k hresting
      cases hresting
  · obtain ⟨activity, hactivity, hthere, howner⟩ := homeOf_eq (p := p) hstate hsegment
    rw [hresting]
    constructor
    · exact ⟨haid, hstate, activity, hactivity⟩
    · intro link hlink
      rw [Situation.link?, hthere] at hlink
      cases hlink
      rw [← hhome, howner]
    · intro a k _
      exact Nat.zero_le k

theorem firstDistrict_queue (hg : g.Numbered) (hagents : Newcomers agents) {link : LinkId}
    {q : LinkQueue α}
    (hq : (firstDistrict (α := α) config g p agents owner).links[link]? = some q) :
    q.link = link ∧ q.entries = [] := by
  rw [(firstDistrict_spec (α := α) config p owner hg hagents).2.1] at hq
  split at hq
  · obtain ⟨l, hl, rfl⟩ := Option.map_eq_some_iff.1 hq
    exact ⟨(hg.link?_eq_some_iff.1 hl).2, rfl⟩
  · cases hq

theorem firstDistrict_paved (hg : g.Numbered) (hagents : Newcomers agents) :
    (firstDistrict (α := α) config g p agents owner).Paved g p := by
  obtain ⟨hid, hlinks, -⟩ := firstDistrict_spec (α := α) config p owner hg hagents
  constructor
  · intro link
    rw [hlinks, hid, Network.hasLink_iff]
    split
    · rename_i howner
      simp [World.atStart, howner, Option.isSome_iff_exists]
    · rename_i howner
      simp [howner]
  · intro link q hq
    exact (firstDistrict_queue hg hagents hq).1
  · intro link q hq
    rw [(firstDistrict_queue hg hagents hq).2]
    exact Nat.zero_le _
  · intro link q hq
    rw [LinkQueue.agentIds, (firstDistrict_queue hg hagents hq).2]
    exact List.nodup_nil

theorem firstDistrict_sound (hg : g.Numbered) (hagents : Newcomers agents) :
    (firstDistrict (α := α) config g p agents owner).Sound g p 0 := by
  refine ⟨firstDistrict_peopled hg hagents, firstDistrict_paved hg hagents, ?_, ?_⟩
  · intro link q hq id
    rw [LinkQueue.agentIds, (firstDistrict_queue hg hagents hq).2]
    rcases firstDistrict_situation_cases (α := α) config p owner hg hagents id with
      habsent | ⟨a, -, -, -, -, hresting⟩
    · simp [habsent]
    · simp [hresting]
  · intro id a target hheld
    rcases firstDistrict_situation_cases (α := α) config p owner hg hagents id with
      habsent | ⟨b, -, -, -, -, hresting⟩
    · rw [habsent] at hheld
      cases hheld
    · rw [hresting] at hheld
      cases hheld

theorem exists_resident {a? : Option Agent}
    (hpresent : Situation.atStart config.clock a? ≠ .absent) : ∃ a, a? = some a := by
  cases a? with
  | none => exact absurd rfl hpresent
  | some a => exact ⟨a, rfl⟩

theorem owners_of_ownerFault? (h : ownerFault? g p agents = none) :
    (∀ l ∈ g.links.toList, (p.linkOwner l.id).index < p.count) ∧
      ∀ a ∈ agents, (homeOf p a).index < p.count := by
  unfold ownerFault? at h
  split at h
  · cases h
  · rename_i hlinks
    rw [Option.map_eq_none_iff] at h
    constructor
    · intro l hl
      simpa using List.find?_eq_none.1 hlinks l hl
    · intro a ha
      simpa using List.find?_eq_none.1 h a ha

theorem getElem?_firstDistricts (config : Config) (g : Network) (agents : List Agent)
    (hlt : owner.index < p.count) :
    (firstDistricts (α := α) config g p agents)[owner.index]? =
      some (firstDistrict config g p agents owner) := by
  rw [firstDistricts, List.getElem?_map, List.getElem?_range hlt]
  rfl

/-- All districts together are sound at the start. -/
theorem firstDistricts_sound (config : Config) (hg : g.Numbered) (hagents : Newcomers agents)
    (howners : ownerFault? g p agents = none) :
    City.Sound g p 0 (firstDistricts (α := α) config g p agents) := by
  constructor
  · rw [firstDistricts, List.map_map]
    exact List.map_congr_left fun index _ => (firstDistrict_spec config p _ hg hagents).1
  · intro link hlink
    obtain ⟨l, hl⟩ := Network.hasLink_iff.1 hlink
    obtain ⟨hmem, rfl⟩ := hg.link?_eq_some_iff.1 hl
    exact (owners_of_ownerFault? howners).1 l hmem
  · intro d hd
    obtain ⟨index, -, rfl⟩ := List.mem_map.1 hd
    exact firstDistrict_sound hg hagents
  · intro id d hd d' hd' hne hne'
    obtain ⟨index, -, rfl⟩ := List.mem_map.1 hd
    obtain ⟨index', -, rfl⟩ := List.mem_map.1 hd'
    obtain ⟨hid, -, hlists⟩ := firstDistrict_spec (α := α) config p ⟨index⟩ hg hagents
    obtain ⟨hid', -, hlists'⟩ := firstDistrict_spec (α := α) config p ⟨index'⟩ hg hagents
    rw [(hlists id).situation_eq] at hne
    rw [(hlists' id).situation_eq] at hne'
    obtain ⟨a, hfind⟩ := exists_resident hne
    obtain ⟨a', hfind'⟩ := exists_resident hne'
    obtain ⟨ha, haid⟩ := (hagents.filter _).withId_eq_some_iff.1 hfind
    obtain ⟨ha', haid'⟩ := (hagents.filter _).withId_eq_some_iff.1 hfind'
    rw [List.mem_filter, decide_eq_true_eq] at ha ha'
    have hsame : a = a' := List.inj_on_of_nodup_map hagents.single ha.1 ha'.1
      (haid.trans haid'.symm)
    rw [hid, hid', ← ha.2, ← ha'.2, hsame]

/-- Every agent that is given begins in the district where it is at home, and nobody else is
anywhere. -/
theorem situation_firstDistricts (hg : g.Numbered) (hagents : Newcomers agents)
    (howners : ownerFault? g p agents = none) (id : AgentId) :
    City.situation (firstDistricts (α := α) config g p agents) id =
      .atStart config.clock (withId agents id) := by
  have hsound := firstDistricts_sound (α := α) config hg hagents howners
  cases hfind : withId agents id with
  | none =>
      apply City.situation_eq_absent_iff.2
      intro d hd
      obtain ⟨index, -, rfl⟩ := List.mem_map.1 hd
      have hnobody : withId (agents.filter fun a => homeOf p a = ⟨index⟩) id = none := by
        rw [Newcomers.withId_eq_none_iff] at hfind ⊢
        exact fun hmem => hfind ((List.filter_sublist.map _).subset hmem)
      rw [((firstDistrict_spec config p _ hg hagents).2.2 id).situation_eq, hnobody]
      rfl
  | some a =>
      obtain ⟨ha, haid⟩ := hagents.withId_eq_some_iff.1 hfind
      have hthere : withId (agents.filter fun b => homeOf p b = homeOf p a) id = some a :=
        (hagents.filter _).withId_eq_some_iff.2
          ⟨List.mem_filter.2 ⟨ha, decide_eq_true rfl⟩, haid⟩
      have hsituation := ((firstDistrict_spec (α := α) config p (homeOf p a) hg
        hagents).2.2 id).situation_eq
      rw [hthere] at hsituation
      have hmem := List.mem_of_getElem? (getElem?_firstDistricts (α := α) config g agents
        ((owners_of_ownerFault? howners).2 a ha))
      rw [hsound.situation_of_mem hmem (by rw [hsituation]; exact Situation.noConfusion),
        hsituation]

/-- Every link of the network begins with its queue, in the district that owns it. -/
theorem queueIn?_firstDistricts (hg : g.Numbered) (hagents : Newcomers agents)
    (howners : ownerFault? g p agents = none) (link : LinkId) :
    queueIn? p (firstDistricts (α := α) config g p agents) link =
      (World.atStart α config g agents).queue? link := by
  rw [queueIn?]
  obtain hnone | ⟨l, hl⟩ := Option.eq_none_or_eq_some (g.link? link)
  · cases hget : (firstDistricts (α := α) config g p agents)[(p.linkOwner link).index]? with
    | none => simp [World.atStart, hnone]
    | some d =>
        obtain ⟨index, -, rfl⟩ := List.mem_map.1 (List.mem_of_getElem? hget)
        rw [Option.bind_some, (firstDistrict_spec config p _ hg hagents).2.1 link]
        simp [World.atStart, hnone]
  · obtain ⟨hmem, rfl⟩ := hg.link?_eq_some_iff.1 hl
    rw [getElem?_firstDistricts config g agents ((owners_of_ownerFault? howners).1 l hmem),
      Option.bind_some, (firstDistrict_spec config p _ hg hagents).2.1, if_pos rfl]

/-- The districts make up the world at the start. -/
theorem world_firstDistricts (hg : g.Numbered) (hagents : Newcomers agents)
    (howners : ownerFault? g p agents = none) :
    City.world p (firstDistricts (α := α) config g p agents) =
      World.atStart α config g agents :=
  congrArg₂ World.mk (funext (situation_firstDistricts hg hagents howners))
    (funext (queueIn?_firstDistricts hg hagents howners))

/-- Nobody is stranded at the start. -/
theorem unreachable_firstDistrict :
    (firstDistrict (α := α) config g p agents owner).unreachable = 0 := by
  have hresidents : ∀ (residents : List Agent) (d : District α),
      (residents.foldl (District.addAgent config.clock) d).unreachable = d.unreachable := by
    intro residents
    induction residents with
    | nil => exact fun _ => rfl
    | cons first rest ih => exact fun d => ih (d.addAgent config.clock first)
  rw [firstDistrict, hresidents, District.foldl_addLink_eq]
  rfl

theorem sum_unreachable_firstDistricts :
    ((firstDistricts (α := α) config g p agents).map District.unreachable).sum = 0 := by
  apply List.sum_eq_zero
  intro count hcount
  obtain ⟨d, hd, rfl⟩ := List.mem_map.1 hcount
  obtain ⟨index, -, rfl⟩ := List.mem_map.1 hd
  exact unreachable_firstDistrict

/-! ## Building -/

/-- What a simulation is before its first step. -/
structure Fresh (s : Simulation α) (config : Config) (g : Network) (agents : List Agent) :
    Prop where
  sound : s.Sound
  newcomers : Newcomers agents
  config_eq : s.config = config
  network_eq : s.network = g
  world_eq : s.world = World.atStart α config g agents
  tick_eq : s.tick = 0
  steps_eq : s.steps = 0
  lastStepTime?_eq : s.lastStepTime? = none
  eventsEmitted_eq : s.eventsEmitted = 0
  boundaryTransfers_eq : s.boundaryTransfers = 0
  unreachableCount_eq : s.unreachableCount = 0
  warnings_eq : s.warnings = #[]

/-- Whoever is given to a simulation is somewhere at the start, and nobody else. -/
theorem Fresh.situation_ne_absent_iff {s : Simulation α}
    (h : s.Fresh config g agents) (id : AgentId) :
    s.world.situation id ≠ .absent ↔ id ∈ agents.map (·.id) := by
  rw [h.world_eq]
  simp only [World.atStart]
  cases hfind : withId agents id with
  | none => simpa [Situation.atStart] using Newcomers.withId_eq_none_iff.1 hfind
  | some a =>
      obtain ⟨ha, haid⟩ := h.newcomers.withId_eq_some_iff.1 hfind
      have hmem : id ∈ agents.map (·.id) := haid ▸ List.mem_map_of_mem ha
      simp only [hmem, iff_true]
      exact Situation.noConfusion

/-- A simulation that is built from a numbered network is fresh. -/
theorem fresh_of_build {s : Simulation α} {partitioning? : Option Partitioning}
    (hg : g.Numbered) (h : build config g agents partitioning? = .ok s) :
    s.Fresh config g agents := by
  unfold build at h
  split at h
  · cases h
  · split at h
    · cases h
    · rename_i hagents
      have hnewcomers := (Newcomers.of_agentFault? hagents).1
      split at h
      · cases h
      · split at h
        · cases h
        · rename_i howners
          cases h
          exact
            { sound := firstDistricts_sound config hg hnewcomers howners
              newcomers := hnewcomers
              config_eq := rfl
              network_eq := rfl
              world_eq := world_firstDistricts hg hnewcomers howners
              tick_eq := rfl
              steps_eq := rfl
              lastStepTime?_eq := rfl
              eventsEmitted_eq := rfl
              boundaryTransfers_eq := rfl
              unreachableCount_eq := sum_unreachable_firstDistricts
              warnings_eq := rfl }

end Simulation

/-! ## A hamlet

Two roads that lead to each other, each with room for one agent, and two neighbours who drive to
work at the same time.  It can be one district or two.
-/

namespace Hamlet

/-- The two ends of the roads. -/
def places : List Point :=
  [.origin, .origin]

/-- A road with room for one agent. -/
def road (start finish : NodeId) : LinkDraft where
  startNode := start
  endNode := finish
  length := 100.0
  freeSpeed := 10.0
  flowCapacity := 3600.0
  lanes := 1.0
  storage := some 1.0

/-- The roads there and back. -/
def roads : List LinkDraft :=
  [road ⟨0⟩ ⟨1⟩, road ⟨1⟩ ⟨0⟩]

/-- From home to work. -/
def day : Itinerary where
  segments :=
    [.activity ⟨"home", ⟨0⟩, some 5, none⟩, .leg (.byCar [⟨0⟩, ⟨1⟩]),
      .activity ⟨"work", ⟨1⟩, none, none⟩]
  faultless := by decide

/-- The two neighbours. -/
def neighbours : List Agent :=
  [.new ⟨0⟩ day 0, .new ⟨1⟩ day 0]

/-- All in one district. -/
def whole : Partitioning :=
  ⟨1, #[⟨0⟩, ⟨0⟩], #[⟨0⟩, ⟨0⟩], #[false, false]⟩

/-- Each road in a district of its own. -/
def halves : Partitioning :=
  ⟨2, #[⟨0⟩, ⟨1⟩], #[⟨0⟩, ⟨1⟩], #[true, true]⟩

/-- The settings for two districts. -/
def config : Config :=
  { Config.standard with partitionCount := 2 }

theorem exists_ok {ε β : Type} {e : Except ε β} (h : e.isOk = true) : ∃ v, e = .ok v := by
  cases e with
  | ok v => exact ⟨v, rfl⟩
  | error _ => cases h

/-- The hamlet can be built as one district and as two. -/
theorem exists_build : ∃ g first split,
    Network.build Network.standardPeriodSecs places roads = .ok g ∧
      Simulation.build (α := Rat) .standard g neighbours (some whole) = .ok first ∧
      Simulation.build (α := Rat) config g neighbours.reverse (some halves) = .ok split := by
  obtain ⟨g, hg, hfirst, hsplit⟩ :
      ∃ g, Network.build Network.standardPeriodSecs places roads = .ok g ∧
        (Simulation.build (α := Rat) .standard g neighbours (some whole)).isOk = true ∧
        (Simulation.build (α := Rat) config g neighbours.reverse (some halves)).isOk = true :=
    ⟨_, rfl, by decide +kernel, by decide +kernel⟩
  obtain ⟨first, hfirst⟩ := exists_ok hfirst
  obtain ⟨split, hsplit⟩ := exists_ok hsplit
  exact ⟨g, first, split, hg, hfirst, hsplit⟩

end Hamlet

end Thoroughfare

import Thoroughfare.Proofs.Simulation.Histories

/-!
# Where the agents are

Between two steps every agent is known in exactly one district, and there in exactly one way: it
rests and is to be woken once, or waits to depart, or stands once in one queue, or is finished.  No
table mentions anybody else.
-/

namespace Thoroughfare

/-- What an agent may be doing between two steps. -/
inductive Phase where
  | resting
  | departing
  | enRoute
  | finished
deriving DecidableEq

/-- What an agent does in a situation. -/
def Situation.phase? : Situation → Option Phase
  | absent => none
  | resting _ _ => some .resting
  | waiting _ _ => some .departing
  | underWay _ _ => some .enRoute
  | done _ => some .finished

namespace District

variable {α : Type}

/-- All agents of a district, live or finished. -/
def residents (d : District α) : List AgentId :=
  d.agents.keys ++ d.finished.keys

/-- What the tables and queues of a district say of an agent that does something. -/
def InPhase (d : District α) (tick : Tick) (id : AgentId) : Phase → Prop
  | .resting =>
      (∃ a, d.agents[id]? = some a ∧ a.state = .atActivity) ∧ d.finished[id]? = none ∧
        (∃ k, d.wakeUps.ticksOf id = [k] ∧ tick ≤ k) ∧ d.departing[id]? = none ∧
        d.held[id]? = none ∧ d.travellers.count id = 0
  | .departing =>
      (∃ a, d.agents[id]? = some a ∧ a.state = .departing) ∧ d.finished[id]? = none ∧
        d.wakeUps.ticksOf id = [] ∧ (∃ refused, d.departing[id]? = some refused) ∧
        d.held[id]? = none ∧ d.travellers.count id = 0
  | .enRoute =>
      (∃ a link q, d.agents[id]? = some a ∧ a.state = .enRoute ∧ a.currentLink? = some link ∧
          d.links[link]? = some q ∧ q.agentIds.count id = 1) ∧ d.finished[id]? = none ∧
        d.wakeUps.ticksOf id = [] ∧ d.departing[id]? = none ∧ d.travellers.count id = 1
  | .finished =>
      (∃ a, d.finished[id]? = some a ∧ a.state = .finished) ∧ d.agents[id]? = none ∧
        d.wakeUps.ticksOf id = [] ∧ d.departing[id]? = none ∧ d.held[id]? = none ∧
        d.travellers.count id = 0

/-- No table and no queue of a district mentions an agent. -/
def IsStranger (d : District α) (id : AgentId) : Prop :=
  d.wakeUps.ticksOf id = [] ∧ d.departing[id]? = none ∧ d.held[id]? = none ∧
    d.travellers.count id = 0

namespace Sound

variable {g : Network} {p : Partitioning} {tick : Tick} {d : District α} {id : AgentId}

theorem mem_residents_iff (h : d.Sound g p tick) :
    id ∈ d.residents ↔ d.situation id ≠ .absent := by
  obtain ⟨hlive, -, -, -, hfinished⟩ := lists_iff.1 (h.tidy id)
  rw [residents, List.mem_append, Std.ExtTreeMap.mem_keys, Std.ExtTreeMap.mem_keys,
    Std.ExtTreeMap.mem_iff_isSome_getElem?, Std.ExtTreeMap.mem_iff_isSome_getElem?, hlive,
    hfinished]
  cases d.situation id <;> simp [Situation.listing]

theorem nodup_residents (h : d.Sound g p tick) : d.residents.Nodup := by
  rw [residents, List.nodup_append']
  refine ⟨Std.ExtTreeMap.nodup_keys, Std.ExtTreeMap.nodup_keys, ?_⟩
  intro id hagent hdone
  rw [Std.ExtTreeMap.mem_keys, Std.ExtTreeMap.mem_iff_isSome_getElem?] at hagent hdone
  obtain ⟨hlive, -, -, -, hfinished⟩ := lists_iff.1 (h.tidy id)
  rw [hlive] at hagent
  rw [hfinished] at hdone
  cases hsituation : d.situation id <;> simp_all [Situation.listing]

theorem count_travellers_eq_zero (h : d.Sound g p tick)
    (hne : ∀ a held?, d.situation id ≠ .underWay a held?) : d.travellers.count id = 0 := by
  rw [List.count_eq_zero, h.mem_travellers_iff]
  rintro ⟨a, held?, hsituation⟩
  exact hne a held? hsituation

/-- The tables say what belongs to the situation of an agent. -/
theorem inPhase_of_phase? (h : d.Sound g p tick) {phase : Phase}
    (hphase : (d.situation id).phase? = some phase) : d.InPhase tick id phase := by
  obtain ⟨hlive, hwakeUps, hoffer, hheld, hfinished⟩ := lists_iff.1 (h.tidy id)
  have hvalid := h.valid id
  cases hsituation : d.situation id with
  | absent =>
      rw [hsituation] at hphase
      cases hphase
  | resting a k =>
      rw [hsituation] at hphase hlive hwakeUps hoffer hheld hfinished hvalid
      cases hphase
      exact ⟨⟨a, hlive, hvalid.2.1⟩, hfinished, ⟨k, hwakeUps, h.due id a k hsituation⟩, hoffer,
        hheld, h.count_travellers_eq_zero (by simp [hsituation])⟩
  | waiting a refused =>
      rw [hsituation] at hphase hlive hwakeUps hoffer hheld hfinished hvalid
      cases hphase
      exact ⟨⟨a, hlive, hvalid.2.1⟩, hfinished, hwakeUps, ⟨refused, hoffer⟩, hheld,
        h.count_travellers_eq_zero (by simp [hsituation])⟩
  | underWay a held? =>
      obtain ⟨link, q, hlink, hq, hmem⟩ := h.exists_queue hsituation
      rw [hsituation] at hphase hlive hwakeUps hoffer hheld hfinished hvalid
      cases hphase
      have htravels : id ∈ d.travellers := h.mem_travellers_iff.2 ⟨a, held?, hsituation⟩
      exact ⟨⟨a, link, q, hlive, hvalid.2.1, hlink, hq,
          List.count_eq_one_of_mem (h.single link q hq) hmem⟩, hfinished, hwakeUps, hoffer,
        List.count_eq_one_of_mem h.nodup_travellers htravels⟩
  | done a =>
      rw [hsituation] at hphase hlive hwakeUps hoffer hheld hfinished hvalid
      cases hphase
      exact ⟨⟨a, hfinished, hvalid.2⟩, hlive, hwakeUps, hoffer, hheld,
        h.count_travellers_eq_zero (by simp [hsituation])⟩

/-- What the tables say belongs to no other situation. -/
theorem phase?_of_inPhase (h : d.Sound g p tick) {phase : Phase}
    (hphase : d.InPhase tick id phase) : (d.situation id).phase? = some phase := by
  obtain ⟨hlive, hwakeUps, hoffer, -, hfinished⟩ := lists_iff.1 (h.tidy id)
  cases phase with
  | resting =>
      obtain ⟨-, -, ⟨k, hk, -⟩, -⟩ := hphase
      rw [hk] at hwakeUps
      cases hsituation : d.situation id <;> simp_all [Situation.listing, Situation.phase?]
  | departing =>
      obtain ⟨-, -, -, ⟨refused, hdeparting⟩, -⟩ := hphase
      rw [hdeparting] at hoffer
      cases hsituation : d.situation id <;> simp_all [Situation.listing, Situation.phase?]
  | enRoute =>
      obtain ⟨-, -, -, -, hcount⟩ := hphase
      have hmem : id ∈ d.travellers := List.count_pos_iff.1 (by omega)
      obtain ⟨a, held?, hsituation⟩ := h.mem_travellers_iff.1 hmem
      rw [hsituation]
      rfl
  | finished =>
      obtain ⟨⟨a, ha, -⟩, -⟩ := hphase
      rw [ha] at hfinished
      cases hsituation : d.situation id <;> simp_all [Situation.listing, Situation.phase?]

/-- Every resident does exactly one thing. -/
theorem existsUnique_phase (h : d.Sound g p tick) (hid : id ∈ d.residents) :
    ∃! phase, d.InPhase tick id phase := by
  have hsome : ∃ phase, (d.situation id).phase? = some phase := by
    have hpresent := h.mem_residents_iff.1 hid
    cases hsituation : d.situation id with
    | absent => exact absurd hsituation hpresent
    | _ => exact ⟨_, rfl⟩
  obtain ⟨phase, hphase⟩ := hsome
  refine ⟨phase, h.inPhase_of_phase? hphase, ?_⟩
  intro other hother
  exact Option.some.inj ((h.phase?_of_inPhase hother).symm.trans hphase)

theorem isStranger (h : d.Sound g p tick) (hid : id ∉ d.residents) : d.IsStranger id := by
  have habsent : d.situation id = .absent := by
    by_contra hpresent
    exact hid (h.mem_residents_iff.2 hpresent)
  obtain ⟨-, hwakeUps, hoffer, hheld, -⟩ := lists_iff.1 (h.tidy id)
  rw [habsent] at hwakeUps hoffer hheld
  exact ⟨hwakeUps, hoffer, hheld, h.count_travellers_eq_zero (by simp [habsent])⟩

/-- Every agent goes by its own number, and nobody is just arriving. -/
theorem agent_spec (h : d.Sound g p tick) {a : Agent}
    (ha : d.agents[id]? = some a ∨ d.finished[id]? = some a) :
    a.id = id ∧ a.state ≠ .arriving := by
  have hagent : (d.situation id).agent? = some a := by
    obtain ⟨hlive, -, -, -, hfinished⟩ := lists_iff.1 (h.tidy id)
    rw [hlive, hfinished] at ha
    cases hsituation : d.situation id <;> simp_all [Situation.listing, Situation.agent?]
  have hvalid := h.valid id
  cases hsituation : d.situation id <;> rw [hsituation] at hagent hvalid <;> cases hagent
  · exact ⟨hvalid.1, by rw [hvalid.2.1]; exact AgentState.noConfusion⟩
  · exact ⟨hvalid.1, by rw [hvalid.2.1]; exact AgentState.noConfusion⟩
  · exact ⟨hvalid.1, by rw [hvalid.2.1]; exact AgentState.noConfusion⟩
  · exact ⟨hvalid.1, by rw [hvalid.2]; exact AgentState.noConfusion⟩

theorem exists_currentLink (h : d.Sound g p tick) {a : Agent} (ha : d.agents[id]? = some a) :
    ∃ link, a.currentLink? = some link ∧ p.linkOwner link = d.id := by
  rw [(lists_iff.1 (h.tidy id)).1] at ha
  obtain ⟨link, hlink, hthere⟩ := (h.valid id).exists_link ha
  exact ⟨link, hlink, h.home id link hthere⟩

/-- Whoever was refused is at the front of a queue and wants to go where it was refused. -/
theorem held_spec (h : d.Sound g p tick) {target : LinkId} (hheld : d.held[id]? = some target) :
    ∃ (link : LinkId) (q : LinkQueue α) (a : Agent), d.links[link]? = some q ∧
      q.agentIds.head? = some id ∧
      d.agents[id]? = some a ∧ a.nextLink? = some target := by
  obtain ⟨hlive, -, -, hlisted, -⟩ := lists_iff.1 (h.tidy id)
  rw [hheld] at hlisted
  cases hsituation : d.situation id with
  | underWay a held? =>
      rw [hsituation] at hlive hlisted
      obtain rfl : some target = held? := hlisted
      have hvalid := h.valid id
      rw [hsituation] at hvalid
      obtain ⟨link, q, hq, hhead⟩ := h.front id a target hsituation
      exact ⟨link, q, a, hq, hhead, hlive, hvalid.2.2.2 target rfl⟩
  | _ =>
      rw [hsituation] at hlisted
      cases hlisted

end Sound

theorem register_residents {g : Network} :
    Register g (residents (α := α)) (fun id => id) fun σ _ => σ ≠ .absent :=
  { absent := by simp
    nodup := fun hd => hd.nodup_residents
    mem_iff := fun hd _ => hd.mem_residents_iff }

end District

namespace Simulation

variable {α : Type}

/-- Every one of some agents is in exactly one place, and nobody else is anywhere. -/
structure InOrder (s : Simulation α) (ids : List AgentId) : Prop where
  partitions : s.districts.map (·.id) = (List.range s.partitioning.count).map Ident.mk
  single : ids.Nodup
  everybody : (s.districts.flatMap District.residents).Perm ids
  phase : ∀ d ∈ s.districts, ∀ id ∈ d.residents, ∃! phase, d.InPhase s.tick id phase
  strangers : ∀ d ∈ s.districts, ∀ id, id ∉ d.residents → d.IsStranger id
  agents : ∀ d ∈ s.districts, ∀ (id : AgentId) (a : Agent),
    d.agents[id]? = some a ∨ d.finished[id]? = some a → a.id = id ∧ a.state ≠ .arriving
  home : ∀ d ∈ s.districts, ∀ (id : AgentId) (a : Agent), d.agents[id]? = some a →
    ∃ link, a.currentLink? = some link ∧ s.partitioning.linkOwner link = d.id
  front : ∀ d ∈ s.districts, ∀ (id : AgentId) (target : LinkId), d.held[id]? = some target →
    ∃ (link : LinkId) (q : LinkQueue α) (a : Agent), d.links[link]? = some q ∧
      q.agentIds.head? = some id ∧
      d.agents[id]? = some a ∧ a.nextLink? = some target

theorem Sound.inOrder {s : Simulation α} (h : s.Sound) {ids : List AgentId} (hids : ids.Nodup)
    (hpresent : ∀ id, s.world.situation id ≠ .absent ↔ id ∈ ids) : s.InOrder ids := by
  refine
    { partitions := City.Sound.split h
      single := hids
      everybody := ?_
      phase := fun d hd id hid => (City.Sound.each h d hd).existsUnique_phase hid
      strangers := fun d hd id hid => (City.Sound.each h d hd).isStranger hid
      agents := fun d hd id a ha => (City.Sound.each h d hd).agent_spec ha
      home := fun d hd id a ha => (City.Sound.each h d hd).exists_currentLink ha
      front := fun d hd id target hheld => (City.Sound.each h d hd).held_spec hheld }
  refine (List.perm_ext_iff_of_nodup (City.Sound.nodup_flatMap h District.register_residents)
    hids).2 fun id => ?_
  rw [City.Sound.mem_flatMap_iff h District.register_residents]
  exact hpresent id

variable [Quantity α]

/-- Whatever is reached from a simulation that was built has all its agents in order. -/
theorem inOrder_of_reachable {periodSecs : Float} {positions : List Point}
    {drafts : List LinkDraft} {g : Network} {config : Config} {agents : List Agent}
    {partitioning? : Option Partitioning} {first s : Simulation α}
    (hg : Network.build periodSecs positions drafts = .ok g)
    (hfirst : build config g agents partitioning? = .ok first) (hs : first.Reachable s) :
    s.InOrder (agents.map (·.id)) := by
  have hfresh := fresh_of_build (Network.numbered_of_build hg) hfirst
  apply (hs.sound hfresh.sound).inOrder hfresh.newcomers.single
  intro id
  rw [← hfresh.situation_ne_absent_iff id]
  exact not_congr (hs.situation_eq_absent_iff hfresh.sound id)

/-- The neighbours of the hamlet are in order after their day. -/
theorem inOrder_of_reachable_hamlet : ∃ g split,
    Network.build Network.standardPeriodSecs Hamlet.places Hamlet.roads = .ok g ∧
      build (α := Rat) Hamlet.config g Hamlet.neighbours.reverse (some Hamlet.halves) =
        .ok split ∧
      (split.run (Bus.new 1) false fun _ => false).1.simulation.InOrder [⟨1⟩, ⟨0⟩] := by
  obtain ⟨g, first, split, hg, -, hsplit⟩ := Hamlet.exists_build
  have hreachable : split.Reachable (split.run (Bus.new 1) false fun _ => false).1.simulation :=
    Reachable.start.run (Bus.new 1) false fun _ => false
  exact ⟨g, split, hg, hsplit, inOrder_of_reachable hg hsplit hreachable⟩

end Simulation

end Thoroughfare

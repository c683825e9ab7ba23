import Thoroughfare.Proofs.Simulation.Soundness

/-!
# Taking agents in

A sound district takes in agents that enter its links, in the order in which they come, as long as
there is room for them, and is sound afterwards.
-/

namespace Thoroughfare

namespace LinkQueue

variable {α : Type}

/-- The entry of an agent that enters a queue. -/
def entryFor (q : LinkQueue α) (now : Nat) (t : Transfer) : QueuedAgent :=
  ⟨t.agent.id, now, now + if t.source?.isNone then q.stepSecs else q.travelSecs⟩

/-- The queue with some more agents at its end. -/
def joined (q : LinkQueue α) (now : Nat) (transfers : List Transfer) : LinkQueue α :=
  { q with entries := q.entries ++ transfers.map (q.entryFor now) }

theorem joined_nil (q : LinkQueue α) (now : Nat) : q.joined now [] = q := by
  simp [joined]

theorem joined_append (q : LinkQueue α) (now : Nat) (first rest : List Transfer) :
    q.joined now (first ++ rest) = (q.joined now first).joined now rest := by
  simp only [joined, List.map_append, List.append_assoc]
  rfl

theorem agentIds_joined (q : LinkQueue α) (now : Nat) (t : Transfer) :
    (q.joined now [t]).agentIds = q.agentIds ++ [t.agent.id] := by
  simp [joined, agentIds, entryFor]

end LinkQueue

/-- An agent that can be taken in on a link of a partition. -/
structure Transfer.Welcome (g : Network) (p : Partitioning) (owner : PartitionId) (t : Transfer) :
    Prop where
  valid : (Situation.underWay t.agent none).Valid g t.agent.id
  there : t.agent.currentLink? = some t.target
  known : g.hasLink t.target = true
  owned : p.linkOwner t.target = owner
  joined : ∀ left, t.source? = some left → g.adjacent left t.target = true

namespace District

variable {α : Type} {g : Network} {p : Partitioning} {tick : Tick} {d : District α} {t : Transfer}
  {now : Nat}

theorem Sound.not_mem_agentIds_of_absent (h : d.Sound g p tick) {id : AgentId}
    (habsent : d.situation id = .absent) {link : LinkId} {q : LinkQueue α}
    (hq : d.links[link]? = some q) : id ∉ q.agentIds := by
  intro hin
  obtain ⟨a, held?, hsituation, -⟩ := h.exists_underWay hq hin
  rw [habsent] at hsituation
  cases hsituation

/-- There is room for some transfers on all links. -/
def HasRoom (d : District α) (transfers : List Transfer) : Prop :=
  ∀ (link : LinkId) (q : LinkQueue α), d.links[link]? = some q →
    q.entries.length + transfers.countP (fun t => t.target = link) ≤ q.storage

/-- A district that differs from another one by some agents that it took in. -/
structure Received (now : Nat) (transfers : List Transfer) (d d' : District α) : Prop where
  id_eq : d'.id = d.id
  links_eq : ∀ link : LinkId, d'.links[link]? = (d.links[link]?).map fun q =>
    q.joined now (transfers.filter fun t => t.target = link)
  taken : ∀ t ∈ transfers, d'.situation t.agent.id = .underWay t.agent none
  others : ∀ id, id ∉ transfers.map (·.agent.id) → d'.situation id = d.situation id

theorem Received.refl (now : Nat) (d : District α) : Received now [] d d := by
  constructor
  · rfl
  · intro link
    simp only [List.filter_nil, LinkQueue.joined_nil, Option.map_id']
  · intro t ht
    cases ht
  · intro id _
    rfl

theorem Received.cons {d₁ d₂ : District α} {rest : List Transfer} (hfirst : Received now [t] d d₁)
    (hnot : t.agent.id ∉ rest.map (·.agent.id)) (hlater : Received now rest d₁ d₂) :
    Received now (t :: rest) d d₂ := by
  constructor
  · exact hlater.id_eq.trans hfirst.id_eq
  · intro link
    have hsplit : (t :: rest).filter (fun t => t.target = link) =
        [t].filter (fun t => t.target = link) ++ rest.filter fun t => t.target = link :=
      List.filter_append [t] rest
    rw [hlater.links_eq, hfirst.links_eq, Option.map_map, hsplit]
    congr 1
    funext q
    exact (q.joined_append now _ _).symm
  · intro other hother
    rcases List.mem_cons.1 hother with rfl | hmem
    · rw [hlater.others _ hnot]
      exact hfirst.taken other List.mem_cons_self
    · exact hlater.taken other hmem
  · intro id hid
    rw [List.map_cons, List.mem_cons, not_or] at hid
    rw [hlater.others id hid.2]
    exact hfirst.others id (by simpa using hid.1)

theorem HasRoom.first {rest : List Transfer} (hroom : d.HasRoom (t :: rest)) :
    d.HasRoom [t] := by
  intro link q hq
  have hcount := hroom link q hq
  simp only [List.countP_cons, List.countP_nil] at hcount ⊢
  omega

theorem HasRoom.rest {d₁ : District α} {rest : List Transfer} (hroom : d.HasRoom (t :: rest))
    (hfirst : Received now [t] d d₁) : d₁.HasRoom rest := by
  intro link q' hq'
  rw [hfirst.links_eq, Option.map_eq_some_iff] at hq'
  obtain ⟨q, hq, rfl⟩ := hq'
  have hcount := hroom link q hq
  rw [List.countP_cons] at hcount
  by_cases hlink : t.target = link
  · simp only [hlink, decide_true, if_true] at hcount
    simp only [hlink, List.filter_cons_of_pos, List.filter_nil, decide_true, LinkQueue.joined,
      List.length_append, List.map_cons, List.map_nil, List.length_singleton]
    omega
  · rw [List.filter_cons_of_neg (by simpa using hlink), List.filter_nil, q.joined_nil]
    omega

theorem enter_eq {q : LinkQueue α} (hlink : q.link = t.target)
    (hjoined : ∀ left, t.source? = some left → g.adjacent left t.target = true)
    (hroom : q.entries.length < q.storage) :
    q.enter g t.agent.id t.source? now = .ok (.entered (q.joined now [t])) := by
  cases hsource : t.source? with
  | none =>
      simp [LinkQueue.enter, hroom, LinkQueue.joined, LinkQueue.entryFor, LinkQueue.append, hsource]
  | some left =>
      have hadjacent : g.adjacent left q.link = true := hlink ▸ hjoined left hsource
      simp [LinkQueue.enter, hroom, LinkQueue.joined, LinkQueue.entryFor, LinkQueue.append, hsource,
        hadjacent]

theorem Sound.length_joined_le (h : d.Sound g p tick) (hroom : d.HasRoom [t]) {link : LinkId}
    {q : LinkQueue α} (hq : d.links[link]? = some q) :
    (q.joined now (if t.target = link then [t] else [])).entries.length ≤ q.storage := by
  have hcount := hroom link q hq
  by_cases hlink : t.target = link
  · simp only [List.countP_cons, List.countP_nil, hlink, decide_true, if_true] at hcount
    simp only [LinkQueue.joined, hlink, if_true, List.length_append, List.map_cons, List.map_nil,
      List.length_singleton]
    omega
  · rw [if_neg hlink, q.joined_nil]
    exact h.room link q hq

theorem agentIds_joined_if (q : LinkQueue α) (now : Nat) (t : Transfer) (link : LinkId) :
    (q.joined now (if t.target = link then [t] else [])).agentIds =
      q.agentIds ++ if t.target = link then [t.agent.id] else [] := by
  split
  · exact q.agentIds_joined now t
  · rw [q.joined_nil, List.append_nil]

theorem Sound.nodup_joined (h : d.Sound g p tick) (habsent : d.situation t.agent.id = .absent)
    {link : LinkId} {q : LinkQueue α} (hq : d.links[link]? = some q) :
    (q.joined now (if t.target = link then [t] else [])).agentIds.Nodup := by
  have hstranger := h.not_mem_agentIds_of_absent habsent hq
  rw [agentIds_joined_if]
  split
  · rw [List.nodup_append]
    refine ⟨h.single link q hq, List.nodup_singleton _, ?_⟩
    rintro id hin other hother rfl
    rw [List.mem_singleton] at hother
    exact hstranger (hother ▸ hin)
  · rw [List.append_nil]
    exact h.single link q hq

/-- A district with one more agent at the end of a queue is sound. -/
theorem Sound.of_received (h : d.Sound g p tick) (ht : t.Welcome g p d.id)
    (habsent : d.situation t.agent.id = .absent) (hroom : d.HasRoom [t]) {d' : District α}
    (hid : d'.id = d.id)
    (hlinks : ∀ link : LinkId, d'.links[link]? = (d.links[link]?).map fun q =>
      q.joined now (if t.target = link then [t] else []))
    (hself : d'.Lists t.agent.id (.underWay t.agent none))
    (hothers : ∀ id, id ≠ t.agent.id → d'.Lists id (d.situation id)) : d'.Sound g p tick := by
  have hnew := hself.situation_eq
  have hold : ∀ id, id ≠ t.agent.id → d'.situation id = d.situation id :=
    fun id hne => (hothers id hne).situation_eq
  refine ⟨Peopled.of_lists fun id => ?_, ?_, ?_, ?_⟩
  · rw [hid]
    by_cases hne : id = t.agent.id
    · subst hne
      refine ⟨_, hself, ht.valid, ?_, by simp⟩
      intro link hlink
      rw [Situation.link?, ht.there] at hlink
      cases hlink
      exact ht.owned
    · exact ⟨_, hothers id hne, h.sound id⟩
  · apply h.toPaved.of_map
      (fun link q => q.joined now (if t.target = link then [t] else [])) hid hlinks
    intro link q hq
    exact ⟨rfl, h.length_joined_le hroom hq, h.nodup_joined habsent hq⟩
  · intro link q' hq' id
    rw [hlinks, Option.map_eq_some_iff] at hq'
    obtain ⟨q, hq, rfl⟩ := hq'
    rw [agentIds_joined_if, List.mem_append]
    by_cases hne : id = t.agent.id
    · have hstranger := h.not_mem_agentIds_of_absent habsent hq
      rw [hne, hnew]
      by_cases hlink : t.target = link
      · simp [hlink, ht.there]
      · simp [hlink, ht.there, hstranger]
    · rw [hold id hne, ← h.queued link q hq id]
      by_cases hlink : t.target = link
      · simp [hlink, hne]
      · simp [hlink]
  · intro id a target hheld
    have hne : id ≠ t.agent.id := by
      rintro rfl
      rw [hnew] at hheld
      cases hheld
    rw [hold id hne] at hheld
    obtain ⟨link, q, hq, hhead⟩ := h.front id a target hheld
    refine ⟨link, _, by rw [hlinks, hq, Option.map_some], ?_⟩
    rw [agentIds_joined_if, List.head?_append, hhead, Option.some_or]

/-- Taking in an agent for whom there is room never fails. -/
theorem Sound.receive_eq (h : d.Sound g p tick) (now : Nat) (ht : t.Welcome g p d.id)
    (habsent : d.situation t.agent.id = .absent) (hroom : d.HasRoom [t]) :
    ∃ d', d.receive g now t = .ok d' ∧ d'.Sound g p tick ∧ Received now [t] d d' := by
  obtain ⟨q, hq⟩ := Option.isSome_iff_exists.1 ((h.owned t.target).2 ⟨ht.known, ht.owned⟩)
  have hfree : q.entries.length < q.storage := by
    have hcount := hroom t.target q hq
    simp only [List.countP_cons, List.countP_nil, decide_true, if_true] at hcount
    omega
  let d' : District α :=
    { d with
      links := d.links.insert t.target (q.joined now [t])
      agents := d.agents.insert t.agent.id t.agent }
  have hlinks : ∀ link : LinkId, d'.links[link]? = (d.links[link]?).map fun q =>
      q.joined now (if t.target = link then [t] else []) := by
    intro link
    simp only [d', getElem?_insert_ident]
    by_cases hlink : t.target = link
    · rw [if_pos hlink, if_pos hlink, ← hlink, hq]
      rfl
    · rw [if_neg hlink, if_neg hlink]
      simp only [LinkQueue.joined_nil, Option.map_id']
  have hself : d'.Lists t.agent.id (.underWay t.agent none) := by
    obtain ⟨-, hrest⟩ := lists_iff.1 (habsent ▸ h.tidy t.agent.id)
    exact lists_iff.2 ⟨by simp [d', Situation.listing], hrest⟩
  have hothers : ∀ id, id ≠ t.agent.id → d'.Lists id (d.situation id) := by
    intro id hid
    refine Eq.trans ?_ (h.tidy id)
    simp [listing, d', getElem?_insert_ident, hid.symm]
  refine ⟨d', ?_, h.of_received ht habsent hroom rfl hlinks hself hothers, rfl, ?_, ?_, ?_⟩
  · simp only [receive, hq, enter_eq (h.named t.target q hq) ht.joined hfree]
    rfl
  · intro link
    rw [hlinks]
    simp only [List.filter_cons, List.filter_nil, decide_eq_true_eq]
  · intro other hother
    rw [List.mem_singleton.1 hother]
    exact hself.situation_eq
  · intro id hnot
    exact (hothers id (by simpa using hnot)).situation_eq

/-- Taking in agents for whom there is room never fails, and they stand in the queues in the order
in which they came. -/
theorem Sound.receiveAll_eq (h : d.Sound g p tick) (now : Nat) (transfers : List Transfer)
    (hwelcome : ∀ t ∈ transfers, t.Welcome g p d.id)
    (hnodup : (transfers.map (·.agent.id)).Nodup)
    (habsent : ∀ t ∈ transfers, d.situation t.agent.id = .absent) (hroom : d.HasRoom transfers) :
    ∃ d', d.receiveAll g now transfers = .ok d' ∧ d'.Sound g p tick ∧
      Received now transfers d d' := by
  induction transfers generalizing d with
  | nil => exact ⟨d, rfl, h, .refl now d⟩
  | cons t rest ih =>
      rw [List.map_cons, List.nodup_cons] at hnodup
      obtain ⟨d₁, hok, hsound, hfirst⟩ := h.receive_eq now (hwelcome t List.mem_cons_self)
        (habsent t List.mem_cons_self) hroom.first
      have hwelcome₁ : ∀ other ∈ rest, other.Welcome g p d₁.id := by
        intro other hother
        rw [hfirst.id_eq]
        exact hwelcome other (List.mem_cons_of_mem _ hother)
      have habsent₁ : ∀ other ∈ rest, d₁.situation other.agent.id = .absent := by
        intro other hother
        have hne : other.agent.id ≠ t.agent.id := fun hsame =>
          hnodup.1 (hsame ▸ List.mem_map_of_mem hother)
        rw [hfirst.others _ (by simpa using hne)]
        exact habsent other (List.mem_cons_of_mem _ hother)
      obtain ⟨d₂, hrest, hsound₂, hlater⟩ :=
        ih hsound hwelcome₁ hnodup.2 habsent₁ (hroom.rest hfirst)
      refine ⟨d₂, ?_, hsound₂, hfirst.cons hnodup.1 hlater⟩
      rw [receiveAll, List.foldlM_cons, hok]
      exact hrest

end District

end Thoroughfare

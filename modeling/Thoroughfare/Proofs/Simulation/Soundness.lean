import Thoroughfare.Proofs.Simulation.Situation
import Thoroughfare.Simulation.Step

/-!
# Sound districts

A district is sound when its tables and its queues tell the same story: every agent is in one
situation, an agent under way stands exactly once in the queue of its link and in no other queue,
whoever was refused is at the front, and all links and agents are those that the partition owns.
-/

namespace Thoroughfare

namespace LinkQueue

variable {α : Type}

/-- The agents on a link, from the front. -/
def agentIds (q : LinkQueue α) : List AgentId :=
  q.entries.map (·.agent)

end LinkQueue

/-- What holds of the situation of an agent in the district of a partition, when nobody is to be
woken before a tick. -/
structure Situation.Sound (g : Network) (p : Partitioning) (owner : PartitionId) (tick : Tick)
    (id : AgentId) (σ : Situation) : Prop where
  valid : σ.Valid g id
  home : ∀ link, σ.link? = some link → p.linkOwner link = owner
  due : ∀ a k, σ = .resting a k → tick ≤ k

namespace District

/-- Every agent is in one situation, and it is sound. -/
structure Peopled {α : Type} (g : Network) (p : Partitioning) (tick : Tick) (d : District α) :
    Prop where
  tidy : ∀ id, d.Lists id (d.situation id)
  valid : ∀ id, (d.situation id).Valid g id
  home : ∀ id link, (d.situation id).link? = some link → p.linkOwner link = d.id
  due : ∀ id a k, d.situation id = .resting a k → tick ≤ k

/-- The queues are those of the links that the partition owns, and none of them holds an agent
twice or more agents than it has room for. -/
structure Paved {α : Type} (g : Network) (p : Partitioning) (d : District α) : Prop where
  owned : ∀ link : LinkId,
    (d.links[link]?).isSome = true ↔ g.hasLink link = true ∧ p.linkOwner link = d.id
  named : ∀ (link : LinkId) (q : LinkQueue α), d.links[link]? = some q → q.link = link
  room : ∀ (link : LinkId) (q : LinkQueue α), d.links[link]? = some q →
    q.entries.length ≤ q.storage
  single : ∀ (link : LinkId) (q : LinkQueue α), d.links[link]? = some q → q.agentIds.Nodup

/-- The tables and queues of a district fit together. -/
structure Sound {α : Type} (g : Network) (p : Partitioning) (tick : Tick) (d : District α) : Prop
    extends Peopled g p tick d, Paved g p d where
  queued : ∀ (link : LinkId) (q : LinkQueue α), d.links[link]? = some q → ∀ id,
    id ∈ q.agentIds ↔
      ∃ a held?, d.situation id = .underWay a held? ∧ a.currentLink? = some link
  front : ∀ id a target, d.situation id = .underWay a (some target) →
    ∃ (link : LinkId) (q : LinkQueue α), d.links[link]? = some q ∧ q.agentIds.head? = some id

end District

namespace District

variable {α : Type} {g : Network} {p : Partitioning} {tick : Tick} {d d' : District α}
  {id other : AgentId} {link target : LinkId} {q : LinkQueue α} {a : Agent} {held? : Option LinkId}

theorem Peopled.of_lists
    (h : ∀ id, ∃ σ, d.Lists id σ ∧ Situation.Sound g p d.id tick id σ) : d.Peopled g p tick := by
  have hsituation : ∀ id, d.Lists id (d.situation id) ∧
      Situation.Sound g p d.id tick id (d.situation id) := by
    intro id
    obtain ⟨σ, hlists, hσ⟩ := h id
    rw [hlists.situation_eq]
    exact ⟨hlists, hσ⟩
  exact ⟨fun id => (hsituation id).1, fun id => (hsituation id).2.valid,
    fun id => (hsituation id).2.home, fun id => (hsituation id).2.due⟩

theorem Peopled.sound (h : d.Peopled g p tick) (id : AgentId) :
    Situation.Sound g p d.id tick id (d.situation id) :=
  ⟨h.valid id, h.home id, h.due id⟩

/-- Queues that keep their names, have room and hold nobody twice may change as they like. -/
theorem Paved.of_map (h : d.Paved g p) (change : LinkId → LinkQueue α → LinkQueue α)
    (hid : d'.id = d.id)
    (hlinks : ∀ link : LinkId, d'.links[link]? = (d.links[link]?).map (change link))
    (hchange : ∀ (link : LinkId) (q : LinkQueue α), d.links[link]? = some q →
      (change link q).link = q.link ∧ (change link q).entries.length ≤ (change link q).storage ∧
        (change link q).agentIds.Nodup) : d'.Paved g p := by
  have hget : ∀ (link : LinkId) (q' : LinkQueue α), d'.links[link]? = some q' →
      ∃ q, d.links[link]? = some q ∧ q' = change link q := by
    intro link q' hq'
    rw [hlinks, Option.map_eq_some_iff] at hq'
    obtain ⟨q, hq, rfl⟩ := hq'
    exact ⟨q, hq, rfl⟩
  constructor
  · intro link
    rw [hlinks, Option.isSome_map, hid]
    exact h.owned link
  · intro link q' hq'
    obtain ⟨q, hq, rfl⟩ := hget link q' hq'
    exact (hchange link q hq).1.trans (h.named link q hq)
  · intro link q' hq'
    obtain ⟨q, hq, rfl⟩ := hget link q' hq'
    exact (hchange link q hq).2.1
  · intro link q' hq'
    obtain ⟨q, hq, rfl⟩ := hget link q' hq'
    exact (hchange link q hq).2.2

namespace Sound

/-- The agents that are noted as waiting to depart are those that wait. -/
theorem departing_eq_some_iff (h : d.Sound g p tick) {refused : Bool} :
    d.departing[id]? = some refused ↔ ∃ a, d.situation id = .waiting a refused := by
  have hlisted : d.departing[id]? = (d.situation id).listing.departing? :=
    (lists_iff.1 (h.tidy id)).2.2.1
  rw [hlisted]
  cases d.situation id <;> simp [Situation.listing]

theorem exists_underWay (h : d.Sound g p tick) (hq : d.links[link]? = some q)
    (hid : id ∈ q.agentIds) :
    ∃ a held?, d.situation id = .underWay a held? ∧ a.currentLink? = some link ∧
      d.Lists id (.underWay a held?) := by
  obtain ⟨a, held?, hsituation, hlink⟩ := (h.queued link q hq id).1 hid
  exact ⟨a, held?, hsituation, hlink, hsituation ▸ h.tidy id⟩

theorem exists_queue (h : d.Sound g p tick) (hsituation : d.situation id = .underWay a held?) :
    ∃ (link : LinkId) (q : LinkQueue α), a.currentLink? = some link ∧ d.links[link]? = some q ∧
      id ∈ q.agentIds := by
  have hvalid := h.valid id
  rw [hsituation] at hvalid
  obtain ⟨-, hstate, ⟨leg, next, hleg⟩, -⟩ := hvalid
  obtain ⟨link, hlink, hknown⟩ := Agent.exists_currentLink_of_onLeg hleg (Or.inr hstate)
  have howner : p.linkOwner link = d.id := by
    apply h.home id link
    rw [hsituation]
    exact hlink
  obtain ⟨q, hq⟩ := Option.isSome_iff_exists.1 ((h.owned link).2 ⟨hknown, howner⟩)
  exact ⟨link, q, hlink, hq, (h.queued link q hq id).2 ⟨a, held?, hsituation, hlink⟩⟩

/-- Nothing about soundness depends on the flow credit or on the occupancy that was noted. -/
theorem mapLinks (h : d.Sound g p tick) {f : LinkQueue α → LinkQueue α}
    (hkeep : ∀ q, (f q).link = q.link ∧ (f q).entries = q.entries ∧ (f q).storage = q.storage) :
    ({ d with links := d.links.map fun _ q => f q } : District α).Sound g p tick := by
  have hlinks : ∀ link : LinkId,
      (d.links.map fun _ q => f q)[link]? = (d.links[link]?).map f :=
    fun _ => Std.ExtTreeMap.getElem?_map
  have hids : ∀ q, (f q).agentIds = q.agentIds := by
    intro q
    rw [LinkQueue.agentIds, LinkQueue.agentIds, (hkeep q).2.1]
  refine ⟨⟨h.tidy, h.valid, h.home, h.due⟩, h.toPaved.of_map (fun _ => f) rfl hlinks ?_, ?_, ?_⟩
  · intro link q hq
    refine ⟨(hkeep q).1, ?_, ?_⟩
    · rw [(hkeep q).2.1, (hkeep q).2.2]
      exact h.room link q hq
    · rw [hids]
      exact h.single link q hq
  · intro link q' hq'
    rw [hlinks, Option.map_eq_some_iff] at hq'
    obtain ⟨q, hq, rfl⟩ := hq'
    rw [hids]
    exact h.queued link q hq
  · intro id a target hsituation
    obtain ⟨link, q, hq, hhead⟩ := h.front id a target hsituation
    refine ⟨link, f q, ?_, ?_⟩
    · rw [hlinks, hq, Option.map_some]
    · rw [hids]
      exact hhead

end Sound
end District

end Thoroughfare

import Thoroughfare.Proofs.Arrangement
import Thoroughfare.Proofs.Simulation.Soundness

/-!
# Waking the agents that are due

At the beginning of a step a sound district wakes everybody who is due, and this never fails: each
of them finishes, waits to depart or is stranded, just as its own plan says, and nobody else is
touched.  What a district then offers can be read off the situations of its agents.
-/

namespace Thoroughfare

namespace Awakening

/-- The agent after it was woken. -/
def agent : Awakening → Agent
  | finishes a => a
  | leaves _ a => a
  | stranded _ a => a

/-- Its situation after it was woken. -/
def situation : Awakening → Situation
  | finishes a => .done a
  | leaves _ a => .waiting a false
  | stranded _ a => .done a

/-- What is told of it. -/
def kind : Awakening → EventKind
  | finishes _ => .finished
  | leaves link _ => .activityEnd link
  | stranded bad _ => .stranded bad

end Awakening

namespace Situation

/-- What an agent does when those are woken that are due at a tick; none if it is not woken. -/
def awakening? (g : Network) (tick : Tick) : Situation → Option Awakening
  | resting a due => if due ≤ tick then (a.awaken g).toOption else none
  | _ => none

/-- The situation after those were woken that are due at a tick. -/
def woken (g : Network) (tick : Tick) (σ : Situation) : Situation :=
  match σ.awakening? g tick with
  | some w => w.situation
  | none => σ

/-- What is told of an agent when those are woken that are due at a tick. -/
def wakingKinds (g : Network) (tick : Tick) (σ : Situation) : List EventKind :=
  (σ.awakening? g tick).toList.map Awakening.kind

/-- The situation of a resting agent whose wake-up was taken out. -/
def roused : Situation → Situation
  | resting a _ => underWay a none
  | σ => σ

variable {g : Network} {id : AgentId} {tick : Tick} {σ : Situation} {a : Agent}

theorem exists_awakening (h : (resting a tick).Valid g id) :
    ∃ w, a.awaken g = .ok w ∧ w.agent.id = id ∧ w.situation.Valid g id ∧
      ∀ link, w.situation.link? = some link → a.currentLink? = some link := by
  obtain ⟨hid, hstate, activity, hactivity⟩ := h
  rcases Agent.awaken_cases (g := g) hstate hactivity with
    ⟨-, hawaken⟩ | ⟨leg, next, -, -, ⟨-, honleg, hlink, hawaken⟩ | ⟨bad, -, hawaken⟩⟩
  · exact ⟨_, hawaken, hid, ⟨hid, rfl⟩, by simp [Awakening.situation, link?]⟩
  · refine ⟨_, hawaken, hid, ⟨hid, rfl, leg, next, honleg⟩, ?_⟩
    intro link hsame
    simp only [Awakening.situation, link?, hlink] at hsame
    rw [← hsame]
    simp [Agent.currentLink?, hstate, hactivity]
  · exact ⟨_, hawaken, hid, ⟨hid, rfl⟩, by simp [Awakening.situation, link?]⟩

/-- Whoever leaves its activity is to enter the link on which it rested. -/
theorem currentLink?_of_leaves {link : LinkId} {b : Agent} (h : (resting a tick).Valid g id)
    (hawaken : a.awaken g = .ok (.leaves link b)) : b.currentLink? = some link := by
  obtain ⟨-, hstate, activity, hactivity⟩ := h
  rcases Agent.awaken_cases (g := g) hstate hactivity with
    ⟨-, hcase⟩ | ⟨leg, next, -, -, ⟨-, -, hlink, hcase⟩ | ⟨bad, -, hcase⟩⟩ <;>
    cases hawaken.symm.trans hcase
  exact hlink

/-- Either nothing happens to an agent, or it rested, was due and woke up. -/
theorem woken_cases (h : σ.Valid g id) (tick : Tick) :
    (σ.awakening? g tick = none ∧ σ.woken g tick = σ ∧ ∀ a k, σ = resting a k → tick < k) ∨
      ∃ a k w, σ = resting a k ∧ k ≤ tick ∧ a.awaken g = .ok w ∧ w.agent.id = id ∧
        σ.awakening? g tick = some w ∧ σ.woken g tick = w.situation ∧
        w.situation.Valid g id ∧
        ∀ link, w.situation.link? = some link → a.currentLink? = some link := by
  cases σ with
  | resting a k =>
      by_cases hdue : k ≤ tick
      · right
        obtain ⟨w, hawaken, hid, hvalid, hlink⟩ := exists_awakening h
        have hsome : (resting a k).awakening? g tick = some w := by
          simp [awakening?, hdue, hawaken, Except.toOption]
        exact ⟨a, k, w, rfl, hdue, hawaken, hid, hsome, by simp [woken, hsome], hvalid, hlink⟩
      · left
        have hnone : (resting a k).awakening? g tick = none := by simp [awakening?, hdue]
        refine ⟨hnone, by simp [woken, hnone], ?_⟩
        rintro a' k' ⟨⟩
        exact Nat.lt_of_not_le hdue
  | absent => exact Or.inl ⟨rfl, rfl, by simp⟩
  | waiting a refused => exact Or.inl ⟨rfl, rfl, by simp⟩
  | underWay a held? => exact Or.inl ⟨rfl, rfl, by simp⟩
  | done a => exact Or.inl ⟨rfl, rfl, by simp⟩

theorem Valid.woken (h : σ.Valid g id) : (σ.woken g tick).Valid g id := by
  rcases woken_cases h tick with ⟨-, hsame, -⟩ | ⟨_, _, w, -, -, -, -, -, hw, hvalid, -⟩
  · rw [hsame]
    exact h
  · rw [hw]
    exact hvalid

/-- Waking does not move a live agent to another link. -/
theorem link?_woken (h : σ.Valid g id) {link : LinkId}
    (hlink : (σ.woken g tick).link? = some link) : σ.link? = some link := by
  rcases woken_cases h tick with
    ⟨-, hsame, -⟩ | ⟨a, k, w, rfl, -, -, -, -, hw, -, hhome⟩
  · rwa [hsame] at hlink
  · rw [hw] at hlink
    exact hhome link hlink

theorem lt_of_woken_eq_resting (h : σ.Valid g id) {k : Tick}
    (hresting : σ.woken g tick = resting a k) : σ = resting a k ∧ tick < k := by
  rcases woken_cases h tick with
    ⟨-, hsame, hlater⟩ | ⟨_, _, w, -, -, -, -, -, hw, -, -⟩
  · rw [hsame] at hresting
    exact ⟨hresting, hlater a k hresting⟩
  · rw [hw] at hresting
    cases w <;> cases hresting

/-- Nobody gets under way, or off the way, by waking. -/
theorem woken_eq_underWay_iff (h : σ.Valid g id) {held? : Option LinkId} :
    σ.woken g tick = underWay a held? ↔ σ = underWay a held? := by
  rcases woken_cases h tick with ⟨-, hsame, -⟩ | ⟨_, _, w, rfl, -, -, -, -, hw, -, -⟩
  · rw [hsame]
  · rw [hw]
    constructor
    · intro hunderWay
      cases w <;> cases hunderWay
    · intro hunderWay
      cases hunderWay

/-- Nobody appears or disappears by waking. -/
theorem woken_eq_absent_iff (h : σ.Valid g id) : σ.woken g tick = absent ↔ σ = absent := by
  rcases woken_cases h tick with ⟨-, hsame, -⟩ | ⟨_, _, w, rfl, -, -, -, -, hw, -, -⟩
  · rw [hsame]
  · rw [hw]
    constructor
    · intro habsent
      cases w <;> cases habsent
    · intro habsent
      cases habsent

end Situation

/-! ## Waking in a district -/

namespace District

variable {α : Type} {g : Network} {p : Partitioning} {clock : Clock} {tick : Tick}
  {d : District α} {id : AgentId} {a : Agent} {w : Awakening}

theorem wake_lists (clock : Clock) (hd : d.Lists id (.underWay a none))
    (hw : a.awaken g = .ok w) (hid : w.agent.id = id) :
    ∃ d', d.wake g clock id = .ok (d', .ofEvents [⟨clock.now, id, w.kind⟩]) ∧
      d'.Lists id w.situation ∧ OnlyAt id d d' := by
  cases w with
  | finishes b =>
      obtain rfl : b.id = id := hid
      obtain ⟨hlive, hwakeUps, hoffer, hheld, -⟩ := lists_iff.1 hd
      refine ⟨d.archive b, by simp only [wake, hlive, Situation.listing, hw, Awakening.kind],
        lists_iff.2 ?_, rfl, rfl, ?_⟩
      · refine ⟨?_, hwakeUps, hoffer, hheld, ?_⟩
        · simp [archive, Awakening.situation, Situation.listing]
        · simp [archive, Awakening.situation, Situation.listing]
      · intro other hother
        simp [listing, archive, getElem?_insert_ident, getElem?_erase_ident, hother.symm]
  | leaves link b =>
      obtain rfl : b.id = id := hid
      obtain ⟨hlive, hwakeUps, -, hheld, hfinished⟩ := lists_iff.1 hd
      refine ⟨{ d.keep b with departing := d.departing.insert b.id false },
        by simp only [wake, hlive, Situation.listing, hw, Awakening.kind],
        lists_iff.2 ?_, rfl, rfl, ?_⟩
      · refine ⟨?_, hwakeUps, ?_, hheld, hfinished⟩
        · simp [keep, Awakening.situation, Situation.listing]
        · simp [Awakening.situation, Situation.listing]
      · intro other hother
        simp [listing, keep, getElem?_insert_ident, hother.symm]
  | stranded bad b =>
      obtain rfl : b.id = id := hid
      obtain ⟨hlive, hwakeUps, hoffer, hheld, -⟩ := lists_iff.1 hd
      refine ⟨{ d.archive b with unreachable := d.unreachable + 1 },
        by simp only [wake, hlive, Situation.listing, hw, Awakening.kind],
        lists_iff.2 ?_, rfl, rfl, ?_⟩
      · refine ⟨?_, hwakeUps, hoffer, hheld, ?_⟩
        · simp [archive, Awakening.situation, Situation.listing]
        · simp [archive, Awakening.situation, Situation.listing]
      · intro other hother
        simp [listing, archive, getElem?_insert_ident, getElem?_erase_ident, hother.symm]

theorem Sound.mem_drainDue_iff (h : d.Sound g p tick) (id : AgentId) (last : Tick) :
    id ∈ (d.wakeUps.drainDue last).1 ↔ ∃ a k, d.situation id = .resting a k ∧ k ≤ last := by
  have hticks : d.wakeUps.ticksOf id = (d.situation id).listing.wakeUps :=
    (lists_iff.1 (h.tidy id)).2.1
  rw [WakeQueue.mem_drainDue_iff, hticks]
  cases d.situation id <;> simp [Situation.listing]

theorem Sound.nodup_drainDue (h : d.Sound g p tick) (last : Tick) :
    (d.wakeUps.drainDue last).1.Nodup := by
  apply WakeQueue.nodup_drainDue
  intro id
  have hticks : d.wakeUps.ticksOf id = (d.situation id).listing.wakeUps :=
    (lists_iff.1 (h.tidy id)).2.1
  rw [hticks]
  cases d.situation id <;> simp [Situation.listing]

/-- Taking out the wake-ups that are due rouses just those agents. -/
theorem Sound.lists_drained (h : d.Sound g p tick) (id : AgentId) (last : Tick) :
    ({ d with wakeUps := (d.wakeUps.drainDue last).2 } : District α).Lists id
      (if id ∈ (d.wakeUps.drainDue last).1 then (d.situation id).roused
        else d.situation id) := by
  obtain ⟨hlive, hwakeUps, hrest⟩ := lists_iff.1 (h.tidy id)
  have hmem := h.mem_drainDue_iff id last
  apply lists_iff.2
  simp only [WakeQueue.ticksOf_drainDue, hwakeUps]
  cases hsituation : d.situation id with
  | resting a k =>
      rw [hsituation] at hlive hrest hmem
      by_cases hdue : k ≤ last
      · rw [if_pos (hmem.2 ⟨a, k, rfl, hdue⟩)]
        refine ⟨hlive, ?_, hrest⟩
        simp [Situation.roused, Situation.listing, hdue]
      · have hnot : id ∉ (d.wakeUps.drainDue last).1 := by
          intro hin
          obtain ⟨a', k', hsame, hle⟩ := hmem.1 hin
          cases hsame
          exact hdue hle
        rw [if_neg hnot]
        refine ⟨hlive, ?_, hrest⟩
        simp [Situation.listing, Nat.lt_of_not_le hdue]
  | _ =>
      rw [hsituation] at hlive hrest
      simp only [Situation.roused, ite_self]
      exact ⟨hlive, rfl, hrest⟩

theorem Sound.wake_due (h : d.Sound g p clock.tick)
    (hid : id ∈ (d.wakeUps.drainDue clock.tick).1) {d₁ : District α}
    (hd₁ : d₁.Lists id (d.situation id).roused) :
    ∃ d₂, d₁.wake g clock id =
        .ok (d₂, .ofEvents (clock.tell id ((d.situation id).wakingKinds g clock.tick))) ∧
      d₂.Lists id ((d.situation id).woken g clock.tick) ∧ OnlyAt id d₁ d₂ := by
  obtain ⟨a, k, hsituation, hle⟩ := (h.mem_drainDue_iff id clock.tick).1 hid
  have hvalid := h.valid id
  rw [hsituation] at hvalid hd₁ ⊢
  obtain ⟨w, hawaken, hagent, -, -⟩ := Situation.exists_awakening hvalid
  have hsome : (Situation.resting a k).awakening? g clock.tick = some w := by
    simp [Situation.awakening?, hle, hawaken, Except.toOption]
  obtain ⟨d₂, hwake, hlists, honly⟩ := wake_lists clock hd₁ hawaken hagent
  refine ⟨d₂, ?_, ?_, honly⟩
  · rw [hwake]
    simp [Situation.wakingKinds, Clock.tell, hsome]
  · simpa [Situation.woken, hsome] using hlists

theorem Sound.not_woken_of_not_due (h : d.Sound g p clock.tick)
    (hid : id ∉ (d.wakeUps.drainDue clock.tick).1) :
    (d.situation id).awakening? g clock.tick = none ∧
      (d.situation id).woken g clock.tick = d.situation id := by
  rcases Situation.woken_cases (h.valid id) clock.tick with
    ⟨hnone, hsame, -⟩ | ⟨a, k, w, hresting, hle, -⟩
  · exact ⟨hnone, hsame⟩
  · exact absurd ((h.mem_drainDue_iff id clock.tick).2 ⟨a, k, hresting, hle⟩) hid

/-- Waking never fails in a sound district, and it changes every situation by itself. -/
theorem Sound.wakeDue_lists (h : d.Sound g p clock.tick) :
    ∃ d' effects, d.wakeDue g clock = .ok (d', effects) ∧ d'.id = d.id ∧ d'.links = d.links ∧
      (∀ id, d'.Lists id ((d.situation id).woken g clock.tick)) ∧ effects.transfers = [] ∧
      ∀ id, effects.events.filter (fun e => e.agent = id) =
        clock.tell id ((d.situation id).wakingKinds g clock.tick) := by
  let drained : District α := { d with wakeUps := (d.wakeUps.drainDue clock.tick).2 }
  let due := (d.wakeUps.drainDue clock.tick).1
  have hnodup : (due.map fun id => id).Nodup := by
    rw [List.map_id']
    exact h.nodup_drainDue clock.tick
  have hdrained : ∀ id, drained.Lists id
      (if id ∈ due then (d.situation id).roused else d.situation id) :=
    fun id => h.lists_drained id clock.tick
  obtain ⟨d', htreat, hwoken, honly⟩ := treatAll_pointwise (wake g clock) (fun id => id)
    (fun id => (d.situation id).roused) (fun id => (d.situation id).woken g clock.tick)
    (fun id => .ofEvents (clock.tell id ((d.situation id).wakingKinds g clock.tick))) due hnodup
    (fun id hid d₁ hd₁ => h.wake_due hid hd₁) (d := drained)
    (fun id hid => by
      have hlists := hdrained id
      rwa [if_pos hid] at hlists)
  refine ⟨d', _, htreat, honly.id_eq, honly.links_eq, ?_, ?_, ?_⟩
  · intro id
    by_cases hid : id ∈ due
    · exact hwoken id hid
    · have hlists := hdrained id
      rw [if_neg hid] at hlists
      rw [(h.not_woken_of_not_due hid).2]
      exact honly.lists (by rwa [List.map_id']) hlists
  · simp [Effects.join, Effects.ofEvents]
  · intro id
    have hevents : ∀ other ∈ due,
        ∀ e ∈ clock.tell other ((d.situation other).wakingKinds g clock.tick), e.agent = other := by
      intro other _ e he
      obtain ⟨kind, -, rfl⟩ := List.mem_map.1 he
      rfl
    simp only [Effects.join, Effects.ofEvents, List.flatMap_map]
    by_cases hid : id ∈ due
    · exact filter_flatMap_of_mem hnodup hevents hid
    · have hnot : id ∉ due.map fun id => id := by rwa [List.map_id']
      rw [filter_flatMap_of_not_mem hevents hnot]
      simp [Situation.wakingKinds, Clock.tell, (h.not_woken_of_not_due hid).1]

/-- A sound district in which everybody is awake who was due is sound for the next tick. -/
theorem Sound.of_woken (h : d.Sound g p tick) {d' : District α} (hid : d'.id = d.id)
    (hlinks : d'.links = d.links) (hlists : ∀ id, d'.Lists id ((d.situation id).woken g tick)) :
    d'.Sound g p (tick + 1) := by
  have hwoken : ∀ id, d'.situation id = (d.situation id).woken g tick :=
    fun id => (hlists id).situation_eq
  have hunderWay : ∀ id a held?,
      d'.situation id = .underWay a held? ↔ d.situation id = .underWay a held? := by
    intro id a held?
    rw [hwoken]
    exact Situation.woken_eq_underWay_iff (h.valid id)
  refine ⟨Peopled.of_lists fun id => ⟨_, hlists id, ?_⟩, ?_, ?_, ?_⟩
  · rw [hid]
    refine ⟨(h.valid id).woken, ?_, ?_⟩
    · intro link hlink
      exact h.home id link (Situation.link?_woken (h.valid id) hlink)
    · intro a k hresting
      exact (Situation.lt_of_woken_eq_resting (h.valid id) hresting).2
  · refine h.toPaved.of_map (fun _ q => q) hid (fun link => ?_) fun link q hq =>
      ⟨rfl, h.room link q hq, h.single link q hq⟩
    rw [hlinks, Option.map_id']
  · rw [hlinks]
    intro link q hq id
    simp only [hunderWay]
    exact h.queued link q hq id
  · rw [hlinks]
    intro id a target hsituation
    exact h.front id a target ((hunderWay id a _).1 hsituation)

end District

/-! ## What a district offers -/

/-- What an agent in a queue wants when it is its turn. -/
def Situation.offer (id : AgentId) : Situation → Offer
  | underWay a held? =>
      match a.nextLink? with
      | none => .arrive id
      | some target => .move id target (held? ≠ some target)
  | _ => .arrive id

/-- What an agent that waits to depart wants. -/
def Situation.departure? : Situation → Option DepartureOffer
  | waiting a refused => a.currentLink?.map fun link => ⟨link, !refused⟩
  | _ => none

theorem Situation.departure?_eq_some_iff {σ : Situation} {offer : DepartureOffer} :
    σ.departure? = some offer ↔
      ∃ a refused, σ = .waiting a refused ∧ a.currentLink? = some offer.link ∧
        offer.firstAttempt = !refused := by
  cases σ with
  | waiting a refused =>
      simp only [departure?, Option.map_eq_some_iff, waiting.injEq]
      constructor
      · rintro ⟨link, hlink, rfl⟩
        exact ⟨a, refused, ⟨rfl, rfl⟩, hlink, rfl⟩
      · rintro ⟨_, _, ⟨rfl, rfl⟩, hlink, hfirst⟩
        exact ⟨offer.link, hlink, congrArg (DepartureOffer.mk offer.link) hfirst.symm⟩
  | _ => simp [departure?]

theorem Situation.ne_absent_of_departure {σ : Situation} {offer : DepartureOffer}
    (h : σ.departure? = some offer) : σ ≠ .absent := by
  obtain ⟨a, refused, rfl, -⟩ := departure?_eq_some_iff.1 h
  exact nofun

/-- Whoever waits to depart has a link to enter. -/
theorem Situation.Valid.exists_departure {g : Network} {id : AgentId} {a : Agent} {refused : Bool}
    (h : (waiting a refused).Valid g id) :
    ∃ link, a.currentLink? = some link ∧
      (waiting a refused).departure? = some ⟨link, !refused⟩ := by
  obtain ⟨link, hlink, -⟩ := h.exists_link rfl
  exact ⟨link, hlink, by rw [departure?, hlink, Option.map_some]⟩

namespace District

variable {α : Type} {g : Network} {p : Partitioning} {tick : Tick} {d : District α} {now : Nat}
  {id : AgentId} {link : LinkId}

/-- What the agents of some queue entries want. -/
def offersOf (d : District α) (entries : List QueuedAgent) : List Offer :=
  entries.map fun entry => (d.situation entry.agent).offer entry.agent

/-- Everything that the agents of a district want, read off their situations. -/
def wishes [Quantity α] (d : District α) (now : Nat) : Offers where
  links := (d.readyLinks now).map fun entry => (entry.1, d.offersOf entry.2)
  departures := d.departing.toList.filterMap fun entry =>
    (d.situation entry.1).departure?.map fun offer => (entry.1, offer)

/-- Whoever is noted as waiting to depart is live and has a link to enter, so asking for it never
fails. -/
theorem Sound.departureOf_eq (h : d.Sound g p tick) {entry : AgentId × Bool}
    (hentry : entry ∈ d.departing.toList) :
    ∃ offer, (d.situation entry.1).departure? = some offer ∧
      d.departureOf entry = .ok (entry.1, offer) := by
  obtain ⟨id, refused⟩ := entry
  obtain ⟨a, hsituation⟩ := h.departing_eq_some_iff.1
    (Std.ExtTreeMap.mem_toList_iff_getElem?_eq_some.1 hentry)
  have hlive := (lists_iff.1 (h.tidy id)).1
  have hvalid := h.valid id
  rw [hsituation] at hlive hvalid
  obtain ⟨link, hlink, hdeparture⟩ := hvalid.exists_departure
  refine ⟨⟨link, !refused⟩, hsituation ▸ hdeparture, ?_⟩
  simp only [departureOf, hlive, Situation.listing, Option.bind_some, hlink]

variable [Quantity α]

theorem mem_readyLinks_iff {entries : List QueuedAgent} :
    (link, entries) ∈ d.readyLinks now ↔
      ∃ q, d.links[link]? = some q ∧ q.offer now = entries ∧ entries ≠ [] := by
  simp only [readyLinks, List.mem_filterMap, Prod.exists,
    Std.ExtTreeMap.mem_toList_iff_getElem?_eq_some]
  constructor
  · rintro ⟨l, q, hq, hmatch⟩
    split at hmatch
    · cases hmatch
    · rename_i first rest hoffer
      cases hmatch
      exact ⟨q, hq, hoffer, by simp⟩
  · rintro ⟨q, hq, hoffer, hne⟩
    refine ⟨link, q, hq, ?_⟩
    cases entries with
    | nil => exact absurd rfl hne
    | cons first rest => simp only [hoffer]

theorem mem_of_mem_offer {q : LinkQueue α} {entry : QueuedAgent} (h : entry ∈ q.offer now) :
    entry ∈ q.entries :=
  List.mem_of_mem_take ((List.takeWhile_sublist _).subset h)

theorem Sound.offers_eq (h : d.Sound g p tick) : d.offers now = .ok (d.wishes now) := by
  have hoffer : ∀ entry ∈ d.readyLinks now, ∀ queued ∈ entry.2,
      d.offerOf entry.1 queued = .ok ((d.situation queued.agent).offer queued.agent) := by
    rintro ⟨l, entries⟩ hentry queued hqueued
    obtain ⟨q, hq, rfl, -⟩ := mem_readyLinks_iff.1 hentry
    have hmem : queued.agent ∈ q.agentIds := List.mem_map_of_mem (mem_of_mem_offer hqueued)
    obtain ⟨a, held?, hsituation, -, hlists⟩ := h.exists_underWay hq hmem
    obtain ⟨hlive, -, -, hheld, -⟩ := lists_iff.1 hlists
    simp only [offerOf, hlive, hheld, hsituation, Situation.listing, Situation.offer]
    cases a.nextLink? <;> rfl
  have hlink : (d.readyLinks now).mapM (fun entry => do
      let offers ← entry.2.mapM (d.offerOf entry.1)
      return (entry.1, offers)) =
        .ok ((d.readyLinks now).map fun entry => (entry.1, d.offersOf entry.2)) := by
    apply mapM_eq_map_of_ok
    intro entry hentry
    rw [mapM_eq_map_of_ok (hoffer entry hentry)]
    rfl
  have hdeparture : d.departing.toList.mapM d.departureOf = .ok (d.wishes now).departures := by
    apply mapM_eq_filterMap_of_ok
    intro entry hentry
    obtain ⟨offer, hwants, hok⟩ := h.departureOf_eq hentry
    exact ⟨(entry.1, offer), by rw [hwants, Option.map_some], hok⟩
  unfold offers
  rw [hdeparture, hlink]
  rfl

theorem mem_wishes_links_iff {offers : List Offer} :
    (link, offers) ∈ (d.wishes now).links ↔
      ∃ q, d.links[link]? = some q ∧ q.offer now ≠ [] ∧ offers = d.offersOf (q.offer now) := by
  simp only [wishes, List.mem_map, Prod.exists, mem_readyLinks_iff, Prod.mk.injEq]
  constructor
  · rintro ⟨l, entries, ⟨q, hq, rfl, hne⟩, rfl, rfl⟩
    exact ⟨q, hq, hne, rfl⟩
  · rintro ⟨q, hq, hne, rfl⟩
    exact ⟨link, _, ⟨q, hq, rfl, hne⟩, rfl, rfl⟩

theorem nodup_wishes_links (d : District α) (now : Nat) :
    ((d.wishes now).links.map (·.1)).Nodup := by
  have hsub : ((d.readyLinks now).map (·.1)).Sublist (d.links.toList.map (·.1)) := by
    apply map_filterMap_sublist_map
    intro item _ entry hentry
    split at hentry
    · cases hentry
    · cases hentry
      rfl
  rw [wishes, List.map_map]
  exact nodup_map_fst_toList.sublist hsub

theorem Sound.mem_wishes_departures_iff (h : d.Sound g p tick) {offer : DepartureOffer} :
    (id, offer) ∈ (d.wishes now).departures ↔ (d.situation id).departure? = some offer := by
  simp only [wishes, List.mem_filterMap, Option.map_eq_some_iff, Prod.mk.injEq, Prod.exists,
    Std.ExtTreeMap.mem_toList_iff_getElem?_eq_some, h.departing_eq_some_iff]
  constructor
  · rintro ⟨_, _, -, _, hwants, rfl, rfl⟩
    exact hwants
  · intro hwants
    obtain ⟨a, refused, hsituation, -⟩ := Situation.departure?_eq_some_iff.1 hwants
    exact ⟨id, refused, ⟨a, hsituation⟩, offer, hwants, rfl, rfl⟩

theorem nodup_wishes_departures (d : District α) (now : Nat) :
    ((d.wishes now).departures.map (·.1)).Nodup := by
  have hsub : ((d.wishes now).departures.map (·.1)).Sublist (d.departing.toList.map (·.1)) := by
    apply map_filterMap_sublist_map
    intro entry _ made hmade
    obtain ⟨offer, -, rfl⟩ := Option.map_eq_some_iff.1 hmade
    rfl
  exact nodup_map_fst_toList.sublist hsub

/-- A district that differs from another one by the beginning of a step. -/
structure Begun (g : Network) (clock : Clock) (d d' : District α) (effects : Effects) :
    Prop where
  id_eq : d'.id = d.id
  links_eq : ∀ link : LinkId, d'.links[link]? = (d.links[link]?).map LinkQueue.beginStep
  situation_eq : ∀ id, d'.situation id = (d.situation id).woken g clock.tick
  transfers_eq : effects.transfers = []
  events_eq : ∀ id, effects.events.filter (fun e => e.agent = id) =
    clock.tell id ((d.situation id).wakingKinds g clock.tick)

/-- The beginning of a step never fails in a sound district. -/
theorem Sound.prepare_eq {clock : Clock} (h : d.Sound g p clock.tick) :
    ∃ d' effects, d.prepare g clock = .ok (d', effects, d'.wishes clock.now) ∧
      d'.Sound g p (clock.tick + 1) ∧ d.Begun g clock d' effects := by
  have hbegun : d.beginStep.Sound g p clock.tick := h.mapLinks fun q => ⟨rfl, rfl, rfl⟩
  obtain ⟨d', effects, hwake, hid, hlinks, hlists, htransfers, hevents⟩ := hbegun.wakeDue_lists
  have hsound := hbegun.of_woken hid hlinks hlists
  refine ⟨d', effects, ?_, hsound, hid, ?_, fun id => (hlists id).situation_eq, htransfers,
    hevents⟩
  · unfold prepare
    rw [hwake]
    simp only [bind, Except.bind, hsound.offers_eq]
    rfl
  · intro link
    rw [hlinks]
    exact Std.ExtTreeMap.getElem?_map

end District

end Thoroughfare

import Thoroughfare.Proofs.Simulation.Rulings
import Thoroughfare.Proofs.Simulation.Soundness

/-!
# What a ruling does

A ruling concerns one agent.  Its outcome is the new situation of the agent in its district, what is
told of it, and the transfer if it leaves the district's tables for the end of another queue.  All
of it depends on the situation of that agent alone, and not on the district.
-/

namespace Thoroughfare

/-- What comes of a ruling. -/
structure Outcome where
  after : Situation
  kinds : List EventKind
  transfer? : Option Transfer

/-- What an outcome tells the outside. -/
def Outcome.effects (o : Outcome) (clock : Clock) (id : AgentId) : Effects :=
  ⟨clock.tell id o.kinds, o.transfer?.toList⟩

/-- The situation after all transfers are taken in. -/
def Outcome.finally (o : Outcome) : Situation :=
  match o.transfer? with
  | some t => .underWay t.agent none
  | none => o.after

namespace Agent

/-- The situation of an agent that starts the activity behind its leg. -/
def landed (clock : Clock) (a : Agent) : Situation :=
  match (a.atNextActivity clock.now).nextWakeUp? clock with
  | some tick => .resting (a.atNextActivity clock.now) tick
  | none => .done (a.atNextActivity clock.now).done

/-- What is told of an agent that leaves traffic on a link. -/
def landingKinds (clock : Clock) (a : Agent) (link : LinkId) : List EventKind :=
  if (a.atNextActivity clock.now).dayIsOver then [.arrival link, .activityStart link, .finished]
  else [.arrival link, .activityStart link]

end Agent

namespace Situation

/-- A ruling that can be carried out in a situation. -/
inductive Fits : Situation → Ruling → Prop
  | arrive {a : Agent} (held? : Option LinkId) (h : a.nextLink? = none) :
      Fits (underWay a held?) .arrive
  | move {a : Agent} (held? : Option LinkId) {target : LinkId} (seq : Nat)
      (h : a.nextLink? = some target) : Fits (underWay a held?) (.move target (some seq))
  | hold {a : Agent} (held? : Option LinkId) {target : LinkId} (h : a.nextLink? = some target) :
      Fits (underWay a held?) (.hold target)
  | depart {a : Agent} (refused : Bool) {link : LinkId} (seq : Nat)
      (h : a.currentLink? = some link) : Fits (waiting a refused) (.depart link seq)
  | wait {a : Agent} (refused : Bool) {link : LinkId} (h : a.currentLink? = some link) :
      Fits (waiting a refused) (.wait link)

/-- What comes of a ruling, or of none, in a situation. -/
def outcome (clock : Clock) : Situation → Option Ruling → Outcome
  | underWay a _, some .arrive =>
      ⟨a.landed clock, a.currentLink?.toList.flatMap (a.landingKinds clock), none⟩
  | underWay a _, some (.move target (some seq)) =>
      ⟨absent, a.currentLink?.toList.map fun left => .linkEnter left target,
        some ⟨seq, a.currentLink?, target, a.onNextLink⟩⟩
  | underWay a _, some (.hold target) => ⟨underWay a (some target), [], none⟩
  | waiting a _, some (.depart link seq) =>
      ⟨absent, [.departure link], some ⟨seq, none, link, a.enteredTraffic⟩⟩
  | waiting a _, some (.wait _) => ⟨waiting a true, [], none⟩
  | σ, _ => ⟨σ, [], none⟩

@[simp] theorem outcome_none (clock : Clock) (σ : Situation) :
    σ.outcome clock none = ⟨σ, [], none⟩ := by
  cases σ <;> rfl

variable {g : Network} {clock : Clock} {id : AgentId} {σ : Situation} {ruling : Ruling}
  {a : Agent} {held? : Option LinkId} {link : LinkId}

/-- Whoever lands rests at the end of its leg until a later tick, or is done. -/
theorem landed_cases (clock : Clock) (a : Agent) :
    ((a.atNextActivity clock.now).dayIsOver = true ∧
        (a.atNextActivity clock.now).nextWakeUp? clock = none ∧
        a.landed clock = done (a.atNextActivity clock.now).done) ∨
      ∃ tick, clock.tick < tick ∧ (a.atNextActivity clock.now).dayIsOver = false ∧
        (a.atNextActivity clock.now).nextWakeUp? clock = some tick ∧
        a.landed clock = resting (a.atNextActivity clock.now) tick := by
  cases hover : (a.atNextActivity clock.now).dayIsOver with
  | true =>
      left
      have hwakeUp : (a.atNextActivity clock.now).nextWakeUp? clock = none := by
        simp [Agent.nextWakeUp?, hover]
      exact ⟨rfl, hwakeUp, by simp [Agent.landed, hwakeUp]⟩
  | false =>
      right
      have hwakeUp : (a.atNextActivity clock.now).nextWakeUp? clock =
          some (max (clock.tickAtOrAfter ((a.atNextActivity clock.now).activityEnd?.getD clock.now))
            (clock.tick + 1)) := by
        simp [Agent.nextWakeUp?, hover]
      exact ⟨_, Nat.lt_of_lt_of_le (Nat.lt_succ_self _) (Nat.le_max_right _ _), rfl, hwakeUp,
        by simp [Agent.landed, hwakeUp]⟩

theorem Fits.exists_link (h : σ.Fits ruling) (hvalid : σ.Valid g id) :
    ∃ link, σ.link? = some link := by
  have hlive : ∃ a, σ.listing.live? = some a := by cases h <;> exact ⟨_, rfl⟩
  obtain ⟨a, ha⟩ := hlive
  obtain ⟨link, -, hlink⟩ := hvalid.exists_link ha
  exact ⟨link, hlink⟩

/-- A ruling that fits leads from a valid situation to a valid one, and keeps a live agent that is
not transferred on its link. -/
theorem Fits.valid_after (h : σ.Fits ruling) (hvalid : σ.Valid g id) :
    (σ.outcome clock (some ruling)).after.Valid g id ∧
      ∀ link, (σ.outcome clock (some ruling)).after.link? = some link → σ.link? = some link := by
  cases h with
  | arrive held? hnext =>
      rename_i a
      obtain ⟨hid, hstate, ⟨leg, next, hleg⟩, -⟩ := hvalid
      have hlink := Agent.currentLink?_eq_of_nextLink?_eq_none hleg hstate hnext
      have hactivity := Agent.currentActivity?_atNextActivity hleg clock.now
      simp only [outcome]
      rcases landed_cases clock a with ⟨-, -, hlanded⟩ | ⟨tick, -, -, -, hlanded⟩
      · rw [hlanded]
        exact ⟨⟨hid, rfl⟩, by simp [link?]⟩
      · rw [hlanded]
        refine ⟨⟨hid, rfl, next, hactivity⟩, ?_⟩
        intro link hsame
        have hrests : (a.atNextActivity clock.now).state = .atActivity := rfl
        have hthere : (a.atNextActivity clock.now).currentLink? = some next.link := by
          simp [Agent.currentLink?, hrests, hactivity]
        simp only [link?, hthere] at hsame
        simpa [link?, hlink] using hsame
  | move held? seq hnext => exact ⟨trivial, by simp [outcome, link?]⟩
  | hold held? hnext =>
      obtain ⟨hid, hstate, hleg, -⟩ := hvalid
      refine ⟨⟨hid, hstate, hleg, ?_⟩, by simp [outcome, link?]⟩
      intro target htarget
      cases htarget
      exact hnext
  | depart refused seq hlink => exact ⟨trivial, by simp [outcome, link?]⟩
  | wait refused hlink => exact ⟨hvalid, by simp [outcome, link?]⟩

/-- A transfer takes an agent under way to a link of the network, and from a link only to one that
meets it. -/
theorem Fits.valid_transfer (h : σ.Fits ruling) (hvalid : σ.Valid g id) {t : Transfer}
    (ht : (σ.outcome clock (some ruling)).transfer? = some t) :
    t.agent.id = id ∧ (underWay t.agent none).Valid g id ∧
      t.agent.currentLink? = some t.target ∧ g.hasLink t.target = true ∧
      (∀ left, t.source? = some left → g.adjacent left t.target = true) ∧
      (σ.outcome clock (some ruling)).after = absent ∧
      ruling.passage? = some (t.target, t.seq) := by
  cases h with
  | arrive held? hnext => cases ht
  | move held? seq hnext =>
      obtain ⟨hid, hstate, ⟨leg, next, hleg⟩, -⟩ := hvalid
      obtain ⟨left, hleft, hadjacent, hknown, honleg, hlink, -⟩ :=
        Agent.advanceLink_eq hleg hstate hnext
      cases ht
      refine ⟨hid, ⟨hid, hstate, ⟨leg, next, honleg⟩, by simp⟩, hlink, hknown, ?_, rfl, rfl⟩
      intro other hother
      rw [hleft] at hother
      cases hother
      exact hadjacent
  | hold held? hnext => cases ht
  | depart refused seq hlink =>
      obtain ⟨hid, hstate, leg, next, hleg⟩ := hvalid
      cases ht
      have hentered := (Agent.currentLink?_enteredTraffic hstate).trans hlink
      obtain ⟨link', hlink', hknown⟩ :=
        Agent.exists_currentLink_of_onLeg hleg (Or.inl hstate)
      rw [hlink] at hlink'
      cases hlink'
      exact ⟨hid, ⟨hid, rfl, ⟨leg, next, hleg.enteredTraffic⟩, by simp⟩, hentered, hknown,
        by simp, rfl, rfl⟩
  | wait refused hlink => cases ht

/-- Whoever is under way after a ruling was refused. -/
theorem Fits.eq_hold_of_after (h : σ.Fits ruling)
    (hafter : (σ.outcome clock (some ruling)).after = underWay a held?) :
    ∃ before? target, σ = underWay a before? ∧ ruling = .hold target ∧ held? = some target := by
  cases h with
  | arrive before? hnext =>
      rename_i b
      simp only [outcome] at hafter
      rcases landed_cases clock b with ⟨-, -, hlanded⟩ | ⟨_, -, -, -, hlanded⟩ <;>
        rw [hlanded] at hafter <;> cases hafter
  | move before? seq hnext => cases hafter
  | hold before? hnext =>
      cases hafter
      exact ⟨before?, _, rfl, rfl, rfl⟩
  | depart refused seq hlink => cases hafter
  | wait refused hlink => cases hafter

theorem after_ne_absent (hσ : σ ≠ absent) (r? : Option Ruling)
    (ht : (σ.outcome clock r?).transfer? = none) : (σ.outcome clock r?).after ≠ absent := by
  cases r? with
  | none => simpa using hσ
  | some ruling =>
      cases σ with
      | underWay a held? =>
          cases ruling with
          | arrive =>
              simp only [outcome]
              rcases landed_cases clock a with ⟨-, -, hlanded⟩ | ⟨tick, -, -, -, hlanded⟩ <;>
                rw [hlanded] <;> simp
          | move target seq? =>
              cases seq? with
              | none => simp [outcome]
              | some seq => cases ht
          | _ => simp [outcome]
      | waiting a refused =>
          cases ruling with
          | depart link seq => cases ht
          | _ => simp [outcome]
      | absent => exact absurd rfl hσ
      | _ => simp [outcome]

/-- Whoever rests after a ruling rested before or is woken later. -/
theorem resting_after {k : Tick} {r? : Option Ruling}
    (h : (σ.outcome clock r?).after = resting a k) : σ = resting a k ∨ clock.tick < k := by
  cases r? with
  | none => exact Or.inl (by simpa using h)
  | some ruling =>
      cases σ with
      | underWay b held? =>
          cases ruling with
          | arrive =>
              simp only [outcome] at h
              rcases landed_cases clock b with ⟨-, -, hlanded⟩ | ⟨tick, hlater, -, -, hlanded⟩
              · rw [hlanded] at h
                cases h
              · rw [hlanded] at h
                cases h
                exact Or.inr hlater
          | move target seq? => cases seq? <;> cases h
          | _ => cases h
      | waiting b refused => cases ruling <;> cases h
      | _ => exact Or.inl h

end Situation

end Thoroughfare

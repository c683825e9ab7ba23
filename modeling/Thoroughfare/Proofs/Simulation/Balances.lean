import Thoroughfare.Proofs.Simulation.Punctuality

/-!
# Balances

Whatever a step tells of an agent accounts for the change of its situation: an agent is under way
after a step if it was before or departed, unless it arrived, and it waits if it waited before or
ended its activity, unless it departed.  Summed up over all agents, what a step tells accounts for
the change of the numbers of those who are under way, who wait and who are done.
-/

namespace Thoroughfare

namespace EventKind

/-- Whether an event is the end of an activity after which the agent wants to depart. -/
def isEnd : EventKind → Bool
  | activityEnd _ => true
  | _ => false

def isDeparture : EventKind → Bool
  | departure _ => true
  | _ => false

/-- Whether an agent goes from one link to the next. -/
def isMove : EventKind → Bool
  | linkEnter _ _ => true
  | _ => false

def isArrival : EventKind → Bool
  | arrival _ => true
  | _ => false

def isStranded : EventKind → Bool
  | stranded _ => true
  | _ => false

/-- Whether an event is the last one of its agent. -/
def isFinal : EventKind → Bool
  | finished => true
  | stranded _ => true
  | _ => false

/-- Whether an agent goes from a link of one partition to a link of another one. -/
def crosses (p : Partitioning) : EventKind → Bool
  | linkEnter left link => p.linkOwner left ≠ p.linkOwner link
  | _ => false

end EventKind

/-! ## One agent -/

namespace Situation

def isWaiting : Situation → Bool
  | waiting _ _ => true
  | _ => false

def isUnderWay : Situation → Bool
  | underWay _ _ => true
  | _ => false

def isDone : Situation → Bool
  | done _ => true
  | _ => false

/-- What is told of an agent accounts for the change of its situation. -/
structure Balances (σ τ : Situation) (kinds : List EventKind) : Prop where
  underWay : τ.isUnderWay.toNat + kinds.countP EventKind.isArrival =
    σ.isUnderWay.toNat + kinds.countP EventKind.isDeparture
  waiting : τ.isWaiting.toNat + kinds.countP EventKind.isDeparture =
    σ.isWaiting.toNat + kinds.countP EventKind.isEnd
  done : τ.isDone.toNat = σ.isDone.toNat + kinds.countP EventKind.isFinal
  starts : kinds.countP EventKind.isStart = kinds.countP EventKind.isArrival

variable {g : Network} {clock : Clock} {id : AgentId} {σ τ υ : Situation} {ruling : Ruling}
  {kinds more : List EventKind}

theorem Balances.refl (σ : Situation) : Balances σ σ [] :=
  ⟨rfl, rfl, rfl, rfl⟩

theorem Balances.trans (h : Balances σ τ kinds) (h' : Balances τ υ more) :
    Balances σ υ (kinds ++ more) := by
  obtain ⟨hunderWay, hwaiting, hdone, hstarts⟩ := h
  obtain ⟨hunderWay', hwaiting', hdone', hstarts'⟩ := h'
  constructor <;> simp only [List.countP_append] <;> omega

theorem balances_woken (hσ : σ.Valid g id) (tick : Tick) :
    Balances σ (σ.woken g tick) (σ.wakingKinds g tick) := by
  rcases woken_cases hσ tick with ⟨hnone, hsame, -⟩ | ⟨a, k, w, rfl, -, -, -, hsome, hw, -, -⟩
  · rw [wakingKinds, hnone, hsame]
    exact .refl σ
  · rw [wakingKinds, hsome, hw]
    cases w <;> exact ⟨rfl, rfl, rfl, rfl⟩

theorem Fits.balances (h : σ.Fits ruling) (hσ : σ.Valid g id) (clock : Clock) :
    Balances σ (σ.outcome clock (some ruling)).finally
      (σ.outcome clock (some ruling)).kinds := by
  cases h with
  | @arrive a held? hnext =>
      obtain ⟨-, hstate, ⟨leg, next, hleg⟩, -⟩ := hσ
      have hlink := Agent.currentLink?_eq_of_nextLink?_eq_none hleg hstate hnext
      simp only [outcome, Outcome.finally, hlink, Option.toList_some, List.flatMap_singleton,
        Agent.landingKinds]
      rcases landed_cases clock a with ⟨hover, -, hlanded⟩ | ⟨tick, -, hover, -, hlanded⟩
      · rw [hlanded, hover]
        exact ⟨rfl, rfl, rfl, rfl⟩
      · rw [hlanded, hover]
        exact ⟨rfl, rfl, rfl, rfl⟩
  | @move a held? target seq hnext =>
      obtain ⟨-, hstate, ⟨leg, next, hleg⟩, -⟩ := hσ
      obtain ⟨left, hleft, -⟩ := Agent.advanceLink_eq hleg hstate hnext
      simp only [outcome, hleft]
      exact ⟨rfl, rfl, rfl, rfl⟩
  | hold held? hnext => exact ⟨rfl, rfl, rfl, rfl⟩
  | depart refused seq hlink => exact ⟨rfl, rfl, rfl, rfl⟩
  | wait refused hlink => exact ⟨rfl, rfl, rfl, rfl⟩

/-- What a step tells of an agent accounts for what it does to it. -/
theorem StepsTo.balances (h : σ.StepsTo g clock τ kinds) (hσ : σ.Valid g id) :
    Balances σ τ kinds := by
  obtain ⟨ruling?, hfits, rfl, rfl⟩ := h
  refine (balances_woken hσ clock.tick).trans ?_
  cases ruling? with
  | none =>
      rw [outcome_none]
      exact .refl _
  | some ruling => exact (hfits ruling rfl).balances hσ.woken clock

/-- Nobody ends an activity by a ruling. -/
theorem Fits.countP_isEnd (h : σ.Fits ruling) (clock : Clock) :
    (σ.outcome clock (some ruling)).kinds.countP EventKind.isEnd = 0 := by
  cases h with
  | @arrive a held? hnext =>
      simp only [outcome]
      cases a.currentLink? with
      | none => rfl
      | some link =>
          simp only [Option.toList_some, List.flatMap_singleton, Agent.landingKinds]
          split <;> rfl
  | @move a held? target seq hnext =>
      simp only [outcome]
      cases a.currentLink? <;> rfl
  | hold held? hnext => rfl
  | depart refused seq hlink => rfl
  | wait refused hlink => rfl

/-- Whoever waits once everybody is awake who is due, waited before or ends its activity in this
step. -/
theorem isWaiting_woken (hσ : σ.Valid g id) {ruling? : Option Ruling}
    (hfits : ∀ ruling, ruling? = some ruling → (σ.woken g clock.tick).Fits ruling) :
    (σ.woken g clock.tick).isWaiting.toNat = σ.isWaiting.toNat +
      (σ.wakingKinds g clock.tick ++
        ((σ.woken g clock.tick).outcome clock ruling?).kinds).countP EventKind.isEnd := by
  have hnone : ((σ.woken g clock.tick).outcome clock ruling?).kinds.countP EventKind.isEnd = 0 := by
    cases ruling? with
    | none => rw [outcome_none, List.countP_nil]
    | some ruling => exact (hfits ruling rfl).countP_isEnd clock
  rw [List.countP_append, hnone, Nat.add_zero]
  rcases woken_cases hσ clock.tick with
    ⟨hidle, hsame, -⟩ | ⟨a, k, w, rfl, -, -, -, hsome, hw, -, -⟩
  · rw [wakingKinds, hidle, hsame]
    rfl
  · rw [wakingKinds, hsome, hw]
    cases w <;> rfl

end Situation
end Thoroughfare

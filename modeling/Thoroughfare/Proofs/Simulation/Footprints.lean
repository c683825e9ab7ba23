import Thoroughfare.Proofs.Plan.Footprint
import Thoroughfare.Proofs.Simulation.Outcome
import Thoroughfare.Proofs.Simulation.Waking

/-!
# Footprints on the road

An agent in traffic is on a link of its footprint, and goes on to links of its footprint only.
Neither a wake-up nor a ruling adds a link to what is ahead of an agent.
-/

namespace Thoroughfare

namespace Situation

/-- The links that are still ahead of an agent. -/
def footprint (g : Network) : Situation → List LinkId
  | absent => []
  | resting a _ => a.dayFootprint g
  | waiting a _ => a.legFootprint g
  | underWay a _ => a.legFootprint g
  | done _ => []

variable {g : Network} {clock : Clock} {id : AgentId} {σ : Situation} {ruling : Ruling}
  {a : Agent} {link : LinkId}

theorem footprint_of_awaken {k : Tick} {w : Awakening} (h : (resting a k).Valid g id)
    (hw : a.awaken g = .ok w) : w.situation.footprint g ⊆ a.dayFootprint g := by
  obtain ⟨-, hstate, activity, hactivity⟩ := h
  rcases Agent.awaken_cases (g := g) hstate hactivity with
    ⟨-, hawaken⟩ | ⟨leg, next, hleg, hnext, ⟨hnone, honleg, -, hawaken⟩ | ⟨bad, -, hawaken⟩⟩
  · rw [hw] at hawaken
    cases hawaken
    exact List.nil_subset _
  · rw [hw] at hawaken
    cases hawaken
    have hsame : (Awakening.leaves activity.link a.goneOff).situation.footprint g =
        a.dayFootprint g := Agent.legFootprint_goneOff hactivity hleg hnext hnone honleg
    rw [hsame]
    exact List.Subset.refl _
  · rw [hw] at hawaken
    cases hawaken
    exact List.nil_subset _

theorem footprint_woken_subset (h : σ.Valid g id) (tick : Tick) :
    (σ.woken g tick).footprint g ⊆ σ.footprint g := by
  rcases woken_cases h tick with ⟨-, hsame, -⟩ | ⟨a, k, w, rfl, -, hw, -, -, hwoken, -, -⟩
  · rw [hsame]
    exact List.Subset.refl _
  · rw [hwoken]
    exact footprint_of_awaken h hw

theorem footprint_landed_subset {leg : Leg} {next : Activity} (h : a.OnLeg g leg next) :
    (a.landed clock).footprint g ⊆ a.legFootprint g := by
  rcases landed_cases clock a with ⟨-, -, hlanded⟩ | ⟨tick, -, -, -, hlanded⟩
  · rw [hlanded]
    exact List.nil_subset _
  · rw [hlanded]
    exact Agent.dayFootprint_atNextActivity_subset h clock.now

/-- No ruling adds a link to what is ahead of an agent. -/
theorem Fits.footprint_finally_subset (h : σ.Fits ruling) (hσ : σ.Valid g id) :
    (σ.outcome clock (some ruling)).finally.footprint g ⊆ σ.footprint g := by
  cases h with
  | arrive held? hnext =>
      obtain ⟨-, -, ⟨leg, next, hleg⟩, -⟩ := hσ
      exact footprint_landed_subset hleg
  | move held? seq hnext => exact List.Subset.refl _
  | hold held? hnext => exact List.Subset.refl _
  | depart refused seq hlink => exact List.Subset.refl _
  | wait refused hlink => exact List.Subset.refl _

theorem footprint_finally_subset {ruling? : Option Ruling}
    (hfits : ∀ ruling, ruling? = some ruling → σ.Fits ruling) (hσ : σ.Valid g id) :
    (σ.outcome clock ruling?).finally.footprint g ⊆ σ.footprint g := by
  cases ruling? with
  | none =>
      rw [outcome_none]
      exact List.Subset.refl _
  | some ruling => exact (hfits ruling rfl).footprint_finally_subset hσ

/-- Whoever is under way is on a link of its footprint. -/
theorem mem_footprint_of_underWay {held? : Option LinkId} (h : (underWay a held?).Valid g id)
    (hlink : a.currentLink? = some link) : link ∈ (underWay a held?).footprint g := by
  obtain ⟨-, hstate, ⟨leg, next, hleg⟩, -⟩ := h
  exact Agent.mem_legFootprint_of_currentLink? hleg (Or.inr hstate) hlink

/-- Whoever wants to go on wants to go to a link of its footprint. -/
theorem mem_footprint_of_next {held? : Option LinkId} (h : (underWay a held?).Valid g id)
    (hlink : a.nextLink? = some link) : link ∈ (underWay a held?).footprint g := by
  obtain ⟨-, hstate, ⟨leg, next, hleg⟩, -⟩ := h
  exact Agent.mem_legFootprint_of_nextLink? hleg hstate hlink

/-- Whoever waits to depart wants to enter a link of its footprint. -/
theorem mem_footprint_of_waiting {refused : Bool} (h : (waiting a refused).Valid g id)
    (hlink : a.currentLink? = some link) : link ∈ (waiting a refused).footprint g := by
  obtain ⟨-, hstate, leg, next, hleg⟩ := h
  exact Agent.mem_legFootprint_of_currentLink? hleg (Or.inl hstate) hlink

end Situation

end Thoroughfare

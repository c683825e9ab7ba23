import Thoroughfare.Proofs.Simulation.Histories
import Thoroughfare.Proofs.Simulation.Passing

/-!
# What never changes of a road

Agents come and go on a link and its credit varies, but the link keeps its length in seconds, its
room and the credit that it gains in each step.  So whatever a simulation comes to, all of this is
what the network and the settings say of the link.
-/

namespace Thoroughfare

namespace LinkQueue

variable {α : Type} [Quantity α]

/-- The queue as it was before anybody came. -/
def cleared (q : LinkQueue α) : LinkQueue α :=
  { q with entries := [], bucket := .new q.bucket.perStep, startOccupancy := 0 }

@[simp] theorem cleared_ofLink (l : Link) (periodSecs : Float) (c : Config) :
    (ofLink l periodSecs c : LinkQueue α).cleared = ofLink l periodSecs c :=
  rfl

@[simp] theorem cleared_beginStep (q : LinkQueue α) : q.beginStep.cleared = q.cleared :=
  rfl

@[simp] theorem cleared_idle (q : LinkQueue α) (steps : Nat) :
    (q.idle steps).cleared = q.cleared :=
  rfl

@[simp] theorem cleared_relieved (q : LinkQueue α) (v? : Option LinkVerdict) :
    (q.relieved v?).cleared = q.cleared := by
  cases v? <;> rfl

@[simp] theorem cleared_joined (q : LinkQueue α) (now : Nat) (transfers : List Transfer) :
    (q.joined now transfers).cleared = q.cleared :=
  rfl

theorem leastStay_cleared (q : LinkQueue α) (kind : EventKind) :
    q.cleared.leastStay kind = q.leastStay kind :=
  rfl

end LinkQueue

namespace Simulation

variable {α : Type} [Quantity α] {first s : Simulation α} {link : LinkId}

/-! ## Steps and skips -/

theorem Turn.map_cleared {begun : List (District α)} {t : Traffic α} (ht : s.Turn begun t)
    {after : Simulation α} (hafter : after.world = City.world s.partitioning t.districts)
    (link : LinkId) :
    (after.queue? link).map LinkQueue.cleared = (s.queue? link).map LinkQueue.cleared := by
  rw [ht.queue?_after hafter, Option.map_map]
  congr 1
  funext q
  simp

/-- Nobody enters or leaves a link in a skip, and no link changes its length or its room. -/
theorem Sound.queue?_fastForward (h : s.Sound) (link : LinkId) :
    (s.fastForward.queue? link).map LinkQueue.cleared = (s.queue? link).map LinkQueue.cleared ∧
      s.fastForward.standing link = s.standing link := by
  rcases h.fastForward_cases with ⟨-, hsame⟩ | ⟨next, -, -, hsame⟩
  · rw [hsame]
    exact ⟨rfl, rfl⟩
  · have hidle : s.fastForward.queue? link =
        (s.queue? link).map fun q => q.idle (next - s.tick) := by
      rw [hsame]
      exact congrFun (congrArg World.queue? (h.world_idle (next - s.tick))) link
    constructor
    · simp only [hidle, Option.map_map, Function.comp_def, LinkQueue.cleared_idle]
    · cases hq : s.queue? link with
      | none =>
          rw [hq, Option.map_none] at hidle
          rw [standing_of_none hq, standing_of_none hidle]
      | some q =>
          rw [hq, Option.map_some] at hidle
          rw [standing_of_queue? hq, standing_of_queue? hidle]
          rfl

/-- Whatever a simulation comes to, a link keeps its length and its room. -/
theorem Reachable.map_cleared (h : first.Reachable s) (hfirst : first.Sound) (link : LinkId) :
    (s.queue? link).map LinkQueue.cleared = (first.queue? link).map LinkQueue.cleared := by
  induction h with
  | start => rfl
  | skip hs ih => rw [((hs.sound hfirst).queue?_fastForward link).1, ih]
  | @step s hs bus ih =>
      rw [← ih]
      obtain ⟨t, begun, ht, ⟨e, -, hstep⟩ | ⟨-, hstep⟩⟩ := (hs.sound hfirst).step_cases bus
      · rw [hstep]
        exact ht.map_cleared rfl link
      · rw [hstep]
        exact ht.map_cleared rfl link

/-! ## The network and the settings -/

variable {config : Config} {g : Network} {agents : List Agent}

/-- What a link is like in whatever comes of a simulation that was built. -/
theorem Fresh.map_cleared (h : first.Fresh config g agents) (hs : first.Reachable s)
    (link : LinkId) :
    (s.queue? link).map LinkQueue.cleared =
      (g.link? link).map fun l => .ofLink l g.periodSecs config := by
  rw [hs.map_cleared h.sound]
  refine (congrArg (Option.map LinkQueue.cleared)
    (congrFun (congrArg World.queue? h.world_eq) link)).trans ?_
  simp only [World.atStart, Option.map_map, Function.comp_def, LinkQueue.cleared_ofLink]

/-- Every link of the network has its queue. -/
theorem Fresh.exists_queue (h : first.Fresh config g agents) (hs : first.Reachable s)
    {l : Link} (hl : g.link? link = some l) :
    ∃ q, s.queue? link = some q ∧ q.cleared = .ofLink l g.periodSecs config := by
  have hcleared := h.map_cleared hs link
  rw [hl, Option.map_some, Option.map_eq_some_iff] at hcleared
  exact hcleared

/-- Every queue is that of a link of the network. -/
theorem Fresh.exists_link (h : first.Fresh config g agents) (hs : first.Reachable s)
    {q : LinkQueue α} (hq : s.queue? link = some q) :
    ∃ l, g.link? link = some l ∧ q.cleared = .ofLink l g.periodSecs config := by
  have hcleared := h.map_cleared hs link
  rw [hq, Option.map_some] at hcleared
  obtain ⟨l, hl, hsame⟩ := Option.map_eq_some_iff.1 hcleared.symm
  exact ⟨l, hl, hsame.symm⟩

end Simulation

end Thoroughfare

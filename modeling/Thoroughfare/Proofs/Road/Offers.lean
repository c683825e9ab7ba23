import Thoroughfare.Proofs.InPlace
import Thoroughfare.Road.LinkQueue

/-!
# Offers of a link queue

An offer is the front of a queue: its agents that are ready one behind the other, as far as they are
paid for.  A release looks at the queue again; it is granted just if it takes no more agents than
are offered, and then it takes the first of them.

Releases and entries are made in place.  Both check everything before their first write.
-/

namespace Thoroughfare
namespace LinkQueue

variable {α : Type} {q : LinkQueue α} {count now : Nat}

/-! ## Entries -/

/-- An agent enters at the end of the queue, is handed back when there is no room, or is refused
because it comes from a link that does not meet this one. -/
theorem enter_cases (q : LinkQueue α) (g : Network) (agent : AgentId) (source : Option LinkId)
    (now : Nat) :
    (q.entries.length < q.storage ∧ ∃ exit,
      q.enter g agent source now = .ok (.entered (q.append ⟨agent, now, exit⟩))) ∨
    (q.storage ≤ q.entries.length ∧ q.enter g agent source now = .ok (.rejected agent)) ∨
    ∃ left, source = some left ∧ g.adjacent left q.link = false ∧
      q.enter g agent source now = .error (.notAdjacent q.link agent left) := by
  unfold enter
  by_cases hroom : q.entries.length < q.storage
  · cases source with
    | none => exact Or.inl ⟨hroom, now + q.stepSecs, by simp only [if_pos hroom]⟩
    | some left =>
        cases hadjacent : g.adjacent left q.link with
        | true =>
            exact Or.inl ⟨hroom, now + q.travelSecs, by
              simp only [hadjacent, if_true, if_pos hroom]⟩
        | false => exact Or.inr (Or.inr ⟨left, rfl, hadjacent, by simp [hadjacent]⟩)
  · have hfull := Nat.le_of_not_lt hroom
    cases source with
    | none => exact Or.inr (Or.inl ⟨hfull, by simp only [if_neg hroom]⟩)
    | some left =>
        cases hadjacent : g.adjacent left q.link with
        | true => exact Or.inr (Or.inl ⟨hfull, by simp only [hadjacent, if_true, if_neg hroom]⟩)
        | false => exact Or.inr (Or.inr ⟨left, rfl, hadjacent, by simp [hadjacent]⟩)

/-- What becomes of a queue with the answer to an agent; an agent that is not let in is handed
back. -/
def answered (q : LinkQueue α) : Admission α → Option AgentId × LinkQueue α
  | .entered q' => (none, q')
  | .rejected agent => (some agent, q)

/-- Let an agent enter in place. -/
def enterInPlace (g : Network) (agent : AgentId) (source : Option LinkId) (now : Nat) :
    EStateM QueueFault (LinkQueue α) (Option AgentId) := do
  let q ← get
  let earliestExit ← match source with
    | none => pure (now + q.stepSecs)
    | some left => do
        if !g.adjacent left q.link then throw (.notAdjacent q.link agent left)
        pure (now + q.travelSecs)
  if q.storage ≤ q.entries.length then return some agent
  modify fun q => q.append ⟨agent, now, earliestExit⟩
  return none

theorem enterInPlace_eq (g : Network) (agent : AgentId) (source : Option LinkId) (now : Nat) :
    enterInPlace (α := α) g agent source now =
      InPlace.atomically fun q => (q.enter g agent source now).map q.answered := by
  funext q
  change (enterInPlace g agent source now).run q =
    InPlace.atomically (fun q => (q.enter g agent source now).map q.answered) q
  have hroom : q.storage ≤ q.entries.length ∧ ¬ q.entries.length < q.storage ∨
      ¬ q.storage ≤ q.entries.length ∧ q.entries.length < q.storage := by omega
  cases source with
  | none =>
      rcases hroom with ⟨hfull, hroom⟩ | ⟨hfull, hroom⟩ <;>
      · simp only [enterInPlace, InPlace.atomically, enter, EStateM.run_bind, EStateM.run_get,
          EStateM.run_pure, hfull, hroom, if_true, if_false]
        rfl
  | some left =>
      cases hadjacent : g.adjacent left q.link with
      | true =>
          rcases hroom with ⟨hfull, hroom⟩ | ⟨hfull, hroom⟩ <;>
          · simp only [enterInPlace, InPlace.atomically, enter, EStateM.run_bind, EStateM.run_get,
              EStateM.run_pure, hadjacent, Bool.not_true, Bool.false_eq_true, hfull, hroom, if_true,
              if_false]
            rfl
      | false =>
          simp only [enterInPlace, InPlace.atomically, enter, EStateM.run_bind, EStateM.run_get,
            EStateM.run_throw, hadjacent, Bool.not_false, Bool.false_eq_true, if_true, if_false]
          rfl

variable [Quantity α]

/-! ## The front of a queue -/

theorem offer_isPrefix (q : LinkQueue α) (now : Nat) : q.offer now <+: q.entries :=
  (List.takeWhile_prefix _).trans (List.take_prefix _ _)

theorem length_offer (q : LinkQueue α) (now : Nat) :
    (q.offer now).length = min q.bucket.budget (q.ready now).length := by
  rw [offer, ← List.take_takeWhile, List.length_take, ready]

theorem take_offer (h : count ≤ (q.offer now).length) :
    (q.offer now).take count = q.entries.take count := by
  obtain ⟨rest, hrest⟩ := q.offer_isPrefix now
  rw [← hrest, List.take_append_of_le_length h]

/-- Whoever stands among those that are offered is ready to leave. -/
theorem ready_of_mem_take (q : LinkQueue α) (h : count ≤ (q.offer now).length)
    {entry : QueuedAgent} (hentry : entry ∈ q.entries.take count) : entry.earliestExit ≤ now := by
  rw [← take_offer h] at hentry
  have hready := List.all_eq_true.1 List.all_takeWhile entry (List.mem_of_mem_take hentry)
  exact of_decide_eq_true hready

/-- Who is ready behind the first agents was ready behind them before they left. -/
theorem length_takeWhile_drop {β : Type} {p : β → Bool} {l : List β} {n : Nat}
    (h : n ≤ (l.takeWhile p).length) :
    ((l.drop n).takeWhile p).length = (l.takeWhile p).length - n := by
  induction l generalizing n with
  | nil => simp
  | cons first rest ih =>
      cases n with
      | zero => rfl
      | succ n =>
          cases hfirst : p first with
          | true =>
              rw [List.takeWhile_cons_of_pos hfirst, List.length_cons] at h ⊢
              rw [List.drop_succ_cons, ih (Nat.le_of_succ_le_succ h), Nat.succ_sub_succ]
          | false =>
              rw [List.takeWhile_cons_of_neg (by simp [hfirst])] at h
              cases h

/-! ## Releases -/

/-- The queue without the agents at its front, who have paid. -/
def behind (q : LinkQueue α) (count : Nat) : LinkQueue α :=
  { q with entries := q.entries.drop count, bucket := q.bucket.consume count }

/-- The answer to a release that takes too many. -/
def tooMany (q : LinkQueue α) (count now : Nat) : QueueFault :=
  .tooMany q.link count (q.ready now).length q.bucket.budget

theorem release_of_le (h : count ≤ (q.offer now).length) :
    q.release count now = .ok ((q.offer now).take count, q.behind count) := by
  rw [take_offer h]
  rw [length_offer] at h
  rw [release, if_neg (by omega)]
  rfl

theorem release_of_lt (h : (q.offer now).length < count) :
    q.release count now = .error (q.tooMany count now) := by
  rw [length_offer] at h
  rw [release, if_pos (by omega)]
  rfl

/-- Release agents in place: check, spend the credit, and take the agents off the queue. -/
def releaseInPlace (count now : Nat) : EStateM QueueFault (LinkQueue α) (List QueuedAgent) := do
  let q ← get
  if (q.ready now).length < count ∨ q.bucket.budget < count then throw (q.tooMany count now)
  modify fun q => { q with bucket := q.bucket.consume count }
  let q ← get
  modify fun q => { q with entries := q.entries.drop count }
  return q.entries.take count

theorem releaseInPlace_eq (count now : Nat) :
    releaseInPlace (α := α) count now = InPlace.atomically fun q => q.release count now := by
  funext q
  change (releaseInPlace count now).run q = InPlace.atomically (fun q => q.release count now) q
  by_cases hmany : (q.ready now).length < count ∨ q.bucket.budget < count
  · simp only [releaseInPlace, InPlace.atomically, release, EStateM.run_bind, EStateM.run_get,
      EStateM.run_throw, hmany, if_true]
    rfl
  · simp only [releaseInPlace, InPlace.atomically, release, EStateM.run_bind, EStateM.run_get,
      hmany, if_false]
    rfl

end LinkQueue
end Thoroughfare

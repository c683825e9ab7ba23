import Thoroughfare.Proofs.Road.Calls
import Thoroughfare.Proofs.Road.Offers

/-!
# Releases of a link queue

In exact arithmetic a credit that is spent lowers the budget by as many agents.  So what is offered
behind the first agents was offered behind them before they left, and it does not matter whether the
agents of an offer are released at once or in parts.
-/

namespace Thoroughfare

namespace FlowBucket

theorem budget_consume (b : FlowBucket Rat) (released : Nat) :
    (b.consume released).budget = b.budget - released := by
  rw [consume_eq, budget_eq, budget_eq, ← Int.floor_toNat, ← Int.floor_toNat,
    Int.floor_sub_natCast]
  omega

theorem consume_consume (b : FlowBucket Rat) (first second : Nat) :
    (b.consume first).consume second = b.consume (first + second) := by
  rw [consume_eq, consume_eq, consume_eq, Nat.cast_add, sub_sub]

end FlowBucket

namespace LinkQueue

variable {q : LinkQueue Rat} {first second now : Nat}

theorem behind_behind (q : LinkQueue Rat) (first second : Nat) :
    (q.behind first).behind second = q.behind (first + second) := by
  simp only [behind, List.drop_drop, FlowBucket.consume_consume]

/-- Behind the first agents of an offer the others are still offered. -/
theorem length_offer_behind (h : first ≤ (q.offer now).length) :
    ((q.behind first).offer now).length = (q.offer now).length - first := by
  rw [length_offer] at h
  have hready : first ≤ (q.ready now).length := by omega
  have hbehind : ((q.behind first).ready now).length = (q.ready now).length - first :=
    length_takeWhile_drop hready
  have hbudget : (q.behind first).bucket.budget = q.bucket.budget - first :=
    q.bucket.budget_consume first
  rw [length_offer, length_offer, hbehind, hbudget]
  omega

theorem entries_eq_append (h : first ≤ (q.offer now).length) :
    q.entries = (q.offer now).take first ++ (q.behind first).entries := by
  rw [take_offer h]
  exact (List.take_append_drop first q.entries).symm

/-- To release some agents of an offer and then some more is to release them all at once. -/
theorem release_release (h : first + second ≤ (q.offer now).length) :
    ∃ front rear, q.release first now = .ok (front, q.behind first) ∧
      (q.behind first).release second now = .ok (rear, q.behind (first + second)) ∧
      q.release (first + second) now = .ok (front ++ rear, q.behind (first + second)) := by
  have hfirst : first ≤ (q.offer now).length := by omega
  have hsecond : second ≤ ((q.behind first).offer now).length := by
    rw [length_offer_behind hfirst]
    omega
  refine ⟨(q.offer now).take first, ((q.behind first).offer now).take second,
    release_of_le hfirst, ?_, ?_⟩
  · exact behind_behind q first second ▸ release_of_le hsecond
  · rw [release_of_le h, take_offer h, take_offer hfirst, take_offer hsecond, List.take_add]
    rfl

/-! ## Room -/

/-- No call changes how many agents a link has room for, or lets more of them in. -/
theorem room_after {α : Type} [Quantity α] {q : LinkQueue α} (h : q.entries.length ≤ q.storage)
    (call : QueueCall) :
    (q.after call).storage = q.storage ∧ (q.after call).entries.length ≤ q.storage := by
  cases call with
  | beginStep => exact ⟨rfl, h⟩
  | idle steps => exact ⟨rfl, h⟩
  | offer now => exact ⟨rfl, h⟩
  | enter g agent source now =>
      obtain ⟨hroom, exit, henter⟩ | ⟨-, henter⟩ | ⟨left, -, -, henter⟩ :=
        q.enter_cases g agent source now
      · simp only [after, henter, append, List.length_append, List.length_singleton]
        exact ⟨trivial, hroom⟩
      · simp only [after, henter]
        exact ⟨trivial, h⟩
      · simp only [after, henter]
        exact ⟨trivial, h⟩
  | release count now =>
      rcases Nat.lt_or_ge (q.offer now).length count with hmany | hfew
      · simp only [after, release_of_lt hmany]
        exact ⟨trivial, h⟩
      · simp only [after, release_of_le hfew, behind, List.length_drop]
        exact ⟨trivial, by omega⟩

theorem room_afterAll {α : Type} [Quantity α] {q : LinkQueue α} (h : q.entries.length ≤ q.storage)
    (calls : List QueueCall) :
    (q.afterAll calls).storage = q.storage ∧ (q.afterAll calls).entries.length ≤ q.storage := by
  induction calls generalizing q with
  | nil => exact ⟨rfl, h⟩
  | cons call rest ih =>
      obtain ⟨hstorage, hroom⟩ := room_after h call
      obtain ⟨hlast, hrest⟩ := ih (hstorage ▸ hroom)
      exact ⟨hlast.trans hstorage, hstorage ▸ hrest⟩

/-! ## Offers are honoured -/

/-- In exact arithmetic, whatever is asked of the queue of a link, in whatever order and at whatever
times: a release is granted just if it takes no more agents than are offered, and then the first
agents of the offer leave the front of the queue and pay one credit each, all at once or in parts.
A release of more agents, an agent for whom there is no room and one that comes from elsewhere leave
the queue as it was, although releases and entries are made in place; every other agent enters at
the end of the queue.  There are never more agents on the link than it has room for. -/
theorem offers_are_honoured (l : Link) (periodSecs : Float) (c : Config) (calls : List QueueCall) :
    let q : LinkQueue Rat := (ofLink l periodSecs c).afterAll calls
    (∀ count now, count ≤ (q.offer now).length →
      ∃ q', q.release count now = .ok ((q.offer now).take count, q') ∧
        (releaseInPlace count now).run q = .ok ((q.offer now).take count) q' ∧
        q.entries = (q.offer now).take count ++ q'.entries ∧
        q' = { q with
          entries := q.entries.drop count
          bucket := { q.bucket with credits := q.bucket.credits - count } }) ∧
    (∀ count now, (q.offer now).length < count →
      q.release count now =
        .error (.tooMany q.link count (q.ready now).length q.bucket.budget) ∧
      (releaseInPlace count now).run q =
        .error (.tooMany q.link count (q.ready now).length q.bucket.budget) q) ∧
    (∀ first second now, first + second ≤ (q.offer now).length →
      ∃ front rear q₁ q₂, (releaseInPlace first now).run q = .ok front q₁ ∧
        (releaseInPlace second now).run q₁ = .ok rear q₂ ∧
        (releaseInPlace (first + second) now).run q = .ok (front ++ rear) q₂) ∧
    (∀ g agent source now,
      (q.entries.length < q.storage ∧ ∃ exit,
        q.enter g agent source now = .ok (.entered (q.append ⟨agent, now, exit⟩)) ∧
        (enterInPlace g agent source now).run q = .ok none (q.append ⟨agent, now, exit⟩)) ∨
      (q.storage ≤ q.entries.length ∧ q.enter g agent source now = .ok (.rejected agent) ∧
        (enterInPlace g agent source now).run q = .ok (some agent) q) ∨
      ∃ left, source = some left ∧ g.adjacent left q.link = false ∧
        q.enter g agent source now = .error (.notAdjacent q.link agent left) ∧
        (enterInPlace g agent source now).run q = .error (.notAdjacent q.link agent left) q) ∧
    q.entries.length ≤ storageOf l c := by
  intro q
  refine ⟨fun count now h => ?_, fun count now h => ?_, fun first second now h => ?_,
    fun g agent source now => ?_, ?_⟩
  · rw [releaseInPlace_eq]
    exact ⟨q.behind count, release_of_le h, InPlace.run_atomically_of_ok (release_of_le h),
      entries_eq_append h, rfl⟩
  · rw [releaseInPlace_eq]
    exact ⟨release_of_lt h, InPlace.run_atomically_of_error (release_of_lt h)⟩
  · obtain ⟨front, rear, hfirst, hsecond, hall⟩ := release_release h
    rw [releaseInPlace_eq, releaseInPlace_eq, releaseInPlace_eq]
    exact ⟨front, rear, _, _, InPlace.run_atomically_of_ok hfirst,
      InPlace.run_atomically_of_ok hsecond, InPlace.run_atomically_of_ok hall⟩
  · rw [enterInPlace_eq]
    obtain ⟨hroom, exit, henter⟩ | ⟨hfull, henter⟩ | ⟨left, hsource, hadjacent, henter⟩ :=
      q.enter_cases g agent source now
    · refine Or.inl ⟨hroom, exit, henter, InPlace.run_atomically_of_ok ?_⟩
      rw [henter]
      rfl
    · refine Or.inr (Or.inl ⟨hfull, henter, InPlace.run_atomically_of_ok ?_⟩)
      rw [henter]
      rfl
    · refine Or.inr (Or.inr ⟨left, hsource, hadjacent, henter, InPlace.run_atomically_of_error ?_⟩)
      rw [henter]
      rfl
  · exact (room_afterAll (Nat.zero_le _) calls).2

/-- A street with nothing around it. -/
def street : Network where
  nodes := #[⟨⟨0⟩, .origin⟩, ⟨⟨1⟩, .origin⟩]
  links := #[⟨⟨0⟩, ⟨0⟩, ⟨1⟩, 100.0, 10.0, 7200.0, 1.0, 5.0⟩]
  outgoing := ⟨#[0, 1, 1], #[⟨0⟩]⟩
  incoming := ⟨#[0, 0, 1], #[⟨0⟩]⟩
  periodSecs := Network.standardPeriodSecs

/-- Three agents set out on a street that two may leave in a step.  Two are offered, one after the
other can be released, and three cannot. -/
theorem offers_are_honoured_street :
    let q : LinkQueue Rat :=
      (ofLink ⟨⟨0⟩, ⟨0⟩, ⟨1⟩, 100.0, 10.0, 7200.0, 1.0, 5.0⟩ Network.standardPeriodSecs
        .standard).afterAll
          [.enter street ⟨0⟩ none 0, .enter street ⟨1⟩ none 0, .enter street ⟨2⟩ none 0, .beginStep]
    1 + 1 ≤ (q.offer 1).length ∧ (q.offer 1).length < 3 ∧
    (∃ front rear q₁ q₂, (releaseInPlace 1 1).run q = .ok front q₁ ∧
      (releaseInPlace 1 1).run q₁ = .ok rear q₂ ∧
      (releaseInPlace 2 1).run q = .ok (front ++ rear) q₂) ∧
    (releaseInPlace 3 1).run q = .error (.tooMany ⟨0⟩ 3 3 2) q := by
  intro q
  have htwo : 1 + 1 ≤ (q.offer 1).length := by decide +kernel
  have hthree : (q.offer 1).length < 3 := by decide +kernel
  have hfault : QueueFault.tooMany q.link 3 (q.ready 1).length q.bucket.budget =
      .tooMany ⟨0⟩ 3 3 2 := by decide +kernel
  obtain ⟨-, hrefused, hparts, -⟩ := offers_are_honoured _ _ _ _
  exact ⟨htwo, hthree, hparts 1 1 1 htwo, hfault ▸ (hrefused 3 1 hthree).2⟩

end LinkQueue

end Thoroughfare

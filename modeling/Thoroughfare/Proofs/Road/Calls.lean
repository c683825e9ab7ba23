import Mathlib.Algebra.Ring.Nat
import Mathlib.Tactic.Linarith
import Mathlib.Tactic.NormNum
import Thoroughfare.Proofs.Road.Credit

/-!
# Calls of a link queue

Whatever is asked of a link queue, in whatever order and at whatever times, its credit stays between
nothing and what the bank holds, and each agent that leaves is paid for out of it.  So no stretch of
calls releases more agents than the credit with which it begins and the credit that is gained in it.
-/

namespace Thoroughfare

/-- What a user asks of a link queue. -/
inductive QueueCall where
  | beginStep
  | idle (steps : Nat)
  | enter (g : Network) (agent : AgentId) (source : Option LinkId) (now : Nat)
  | offer (now : Nat)
  | release (count now : Nat)

namespace QueueCall

/-- Whether a call begins a step. -/
def isBegin : QueueCall → Bool
  | beginStep => true
  | _ => false

/-- The idle steps that a call lets pass. -/
def idleSteps : QueueCall → Nat
  | idle steps => steps
  | _ => 0

/-- The steps that begin in some calls. -/
def begun (calls : List QueueCall) : Nat :=
  calls.countP isBegin

/-- The idle steps that pass in some calls. -/
def idled (calls : List QueueCall) : Nat :=
  (calls.map idleSteps).sum

theorem begun_cons (call : QueueCall) (rest : List QueueCall) :
    begun (call :: rest) = begun rest + call.isBegin.toNat := by
  rw [begun, begun, List.countP_cons]
  cases call.isBegin <;> rfl

theorem idled_cons (call : QueueCall) (rest : List QueueCall) :
    idled (call :: rest) = call.idleSteps + idled rest :=
  rfl

end QueueCall

namespace LinkQueue

section Calls

variable {α : Type} {g : Network} {q q' : LinkQueue α} {now : Nat}

theorem entered_of_enter {agent : AgentId} {source : Option LinkId}
    (h : q.enter g agent source now = .ok (.entered q')) :
    q.entries.length < q.storage ∧ ∃ exit, q' = q.append ⟨agent, now, exit⟩ := by
  unfold enter at h
  cases source with
  | none =>
      rw [Except.ok.injEq] at h
      split at h <;> cases h
      rename_i hroom
      exact ⟨hroom, _, rfl⟩
  | some left =>
      simp only at h
      split at h
      · rw [Except.ok.injEq] at h
        split at h <;> cases h
        rename_i hroom
        exact ⟨hroom, _, rfl⟩
      · cases h

variable [Quantity α]

/-- A release succeeds just when as many agents are ready and paid for; then those at the front
leave. -/
theorem release_eq_ok_iff {count : Nat} {left : List QueuedAgent} :
    q.release count now = .ok (left, q') ↔
      (count ≤ (q.ready now).length ∧ count ≤ q.bucket.budget) ∧ left = q.entries.take count ∧
        q' = { q with entries := q.entries.drop count, bucket := q.bucket.consume count } := by
  rw [release]
  split
  · rename_i hmany
    exact ⟨nofun, fun h => by omega⟩
  · rename_i hfew
    rw [Except.ok.injEq, Prod.mk.injEq, eq_comm, eq_comm (a := q')]
    exact ⟨fun h => ⟨by omega, h⟩, fun h => h.2⟩

/-- The queue after a call; a call that is refused leaves it as it was. -/
def after (q : LinkQueue α) : QueueCall → LinkQueue α
  | .beginStep => q.beginStep
  | .idle steps => q.idle steps
  | .enter g agent source now =>
      match q.enter g agent source now with
      | .ok (.entered q) => q
      | _ => q
  | .offer _ => q
  | .release count now =>
      match q.release count now with
      | .ok (_, q) => q
      | .error _ => q

/-- The agents that a call releases. -/
def released (q : LinkQueue α) : QueueCall → List QueuedAgent
  | .release count now =>
      match q.release count now with
      | .ok (left, _) => left
      | .error _ => []
  | _ => []

def afterAll (q : LinkQueue α) (calls : List QueueCall) : LinkQueue α :=
  calls.foldl after q

/-- The agents that some calls release. -/
def releasedAll (q : LinkQueue α) : List QueueCall → List QueuedAgent
  | [] => []
  | call :: rest => q.released call ++ (q.after call).releasedAll rest

end Calls

/-! ## The credit -/

/-- The bank of a queue that gains some credit in each step holds no less than nothing and no more
than it can. -/
structure Banks (p : Rat) (q : LinkQueue Rat) : Prop where
  perStep_eq : q.bucket.perStep = p
  nonneg : 0 ≤ q.bucket.credits
  le_cap : q.bucket.credits ≤ max (⌈p⌉ : Rat) 1

namespace Banks

variable {p : Rat} {q q' : LinkQueue Rat}

theorem of_bucket_eq (h : q.Banks p) (hbucket : q'.bucket = q.bucket) : q'.Banks p :=
  ⟨hbucket ▸ h.perStep_eq, hbucket ▸ h.nonneg, hbucket ▸ h.le_cap⟩

theorem cap_eq (h : q.Banks p) : q.bucket.cap = max (⌈p⌉ : Rat) 1 := by
  rw [FlowBucket.cap_eq, h.perStep_eq]

/-- What a bank gains is cut to what it can hold. -/
theorem gain (h : q.Banks p) {credit : Rat} (hcredit : 0 ≤ credit)
    (hbucket : q'.bucket = ⟨p, min (q.bucket.credits + credit) q.bucket.cap⟩) :
    q'.Banks p ∧ q'.bucket.credits ≤ q.bucket.credits + credit := by
  rw [h.cap_eq] at hbucket
  have hgained : 0 ≤ q.bucket.credits + credit := add_nonneg h.nonneg hcredit
  have hcap : (0 : Rat) ≤ max (⌈p⌉ : Rat) 1 := le_max_of_le_right zero_le_one
  rw [hbucket]
  refine ⟨⟨by rw [hbucket], ?_, ?_⟩, min_le_left _ _⟩
  · rw [hbucket]
    exact le_min hgained hcap
  · rw [hbucket]
    exact min_le_right _ _

theorem beginStep (h : q.Banks p) (hp : 0 < p) :
    q.beginStep.Banks p ∧ q.beginStep.bucket.credits ≤ q.bucket.credits + p := by
  refine h.gain hp.le ?_
  rw [LinkQueue.beginStep, FlowBucket.accrue_eq, h.perStep_eq]

theorem idle (h : q.Banks p) (hp : 0 < p) (steps : Nat) :
    (q.idle steps).Banks p ∧ (q.idle steps).bucket.credits ≤ q.bucket.credits + p * steps := by
  refine h.gain (by positivity) ?_
  rw [LinkQueue.idle, FlowBucket.accrueIdle_eq, h.perStep_eq]

/-- Those who leave are paid for. -/
theorem release (h : q.Banks p) {count now : Nat} {left : List QueuedAgent}
    (hrelease : q.release count now = .ok (left, q')) :
    q'.Banks p ∧ left.length + q'.bucket.credits ≤ q.bucket.credits := by
  obtain ⟨⟨-, hbudget⟩, rfl, rfl⟩ := release_eq_ok_iff.1 hrelease
  have hspent : (count : Rat) ≤ q.bucket.credits := (Nat.le_floor_iff h.nonneg).1 hbudget
  have hleft : ((q.entries.take count).length : Rat) ≤ count :=
    Nat.cast_le.2 (List.length_take_le _ _)
  rw [FlowBucket.consume_eq]
  refine ⟨⟨h.perStep_eq, sub_nonneg.2 hspent, ?_⟩, ?_⟩
  · exact (sub_le_self _ (Nat.cast_nonneg count)).trans h.le_cap
  · dsimp only
    linarith

/-- A call releases no more agents than the credit before it and the credit that it brings can pay
for. -/
theorem after (h : q.Banks p) (hp : 0 < p) (call : QueueCall) :
    (q.after call).Banks p ∧ (q.released call).length + (q.after call).bucket.credits ≤
      q.bucket.credits + (call.isBegin.toNat + call.idleSteps) * p := by
  cases call with
  | beginStep =>
      obtain ⟨hbanks, hle⟩ := h.beginStep hp
      refine ⟨hbanks, ?_⟩
      simp only [released, LinkQueue.after, QueueCall.isBegin, QueueCall.idleSteps, List.length_nil,
        Nat.cast_zero, Bool.toNat_true, Nat.cast_one, zero_add, add_zero, one_mul]
      exact hle
  | idle steps =>
      obtain ⟨hbanks, hle⟩ := h.idle hp steps
      refine ⟨hbanks, ?_⟩
      simp only [released, LinkQueue.after, QueueCall.isBegin, QueueCall.idleSteps, List.length_nil,
        Nat.cast_zero, Bool.toNat_false, zero_add, mul_comm _ p]
      exact hle
  | enter g agent source now =>
      have hbucket : (q.after (.enter g agent source now)).bucket = q.bucket := by
        simp only [LinkQueue.after]
        split
        · rename_i henter
          obtain ⟨-, exit, rfl⟩ := entered_of_enter henter
          rfl
        · rfl
      refine ⟨h.of_bucket_eq hbucket, ?_⟩
      rw [hbucket]
      simp [released, QueueCall.isBegin, QueueCall.idleSteps]
  | offer now =>
      exact ⟨h, by simp [released, LinkQueue.after, QueueCall.isBegin, QueueCall.idleSteps]⟩
  | release count now =>
      simp only [released, LinkQueue.after, QueueCall.isBegin, QueueCall.idleSteps,
        Bool.toNat_false, Nat.cast_zero, add_zero, zero_mul]
      rcases hrelease : q.release count now with fault | ⟨left, q'⟩
      · exact ⟨h, by simp⟩
      · exact h.release hrelease

/-- Some calls release no more agents than the credit before them and the credit that they bring can
pay for. -/
theorem afterAll (h : q.Banks p) (hp : 0 < p) (calls : List QueueCall) :
    (q.afterAll calls).Banks p ∧
      (q.releasedAll calls).length + (q.afterAll calls).bucket.credits ≤
        q.bucket.credits + (QueueCall.begun calls + QueueCall.idled calls) * p := by
  induction calls generalizing q with
  | nil => exact ⟨h, by simp [releasedAll, LinkQueue.afterAll, QueueCall.begun, QueueCall.idled]⟩
  | cons call rest ih =>
      obtain ⟨hfirst, hspent⟩ := h.after hp call
      obtain ⟨hlast, hrest⟩ := ih hfirst
      refine ⟨hlast, ?_⟩
      rw [releasedAll, List.length_append, QueueCall.begun_cons, QueueCall.idled_cons]
      push_cast
      change (_ + ((q.after call).releasedAll rest).length : Rat) +
        ((q.after call).afterAll rest).bucket.credits ≤ _
      linarith

end Banks

/-- In exact arithmetic a queue that begins with an empty bank, whatever it is asked afterwards, has
a credit between nothing and what the bank holds.  Between two steps no more agents leave than that,
any stretch of calls that begins with a step lets no more leave than a full bank and the credit of
its other steps can pay for, and from the start no more leave than all credit can pay for. -/
theorem flow_is_bounded {q : LinkQueue Rat} {p : Rat} (hq : q.bucket = .new p) (hp : 0 < p) :
    (∀ calls, 0 ≤ (q.afterAll calls).bucket.credits ∧
      (q.afterAll calls).bucket.credits ≤ max (⌈p⌉ : Rat) 1) ∧
    (∀ calls step, QueueCall.begun step = 0 → QueueCall.idled step = 0 →
      ((q.afterAll calls).releasedAll (.beginStep :: step)).length ≤ max (⌈p⌉ : Rat) 1) ∧
    (∀ calls rest, ((q.afterAll calls).releasedAll (.beginStep :: rest)).length ≤
      max (⌈p⌉ : Rat) 1 +
        (QueueCall.begun (.beginStep :: rest) - 1 + QueueCall.idled (.beginStep :: rest)) * p) ∧
    ∀ calls, (q.releasedAll calls).length ≤
      p * (QueueCall.begun calls + QueueCall.idled calls) := by
  have hempty : q.Banks p := by
    refine ⟨by rw [hq]; rfl, ?_, ?_⟩
    · rw [hq]
      exact le_refl (0 : Rat)
    · rw [hq]
      exact le_max_of_le_right zero_le_one
  have hstretch : ∀ calls rest,
      ((q.afterAll calls).releasedAll (.beginStep :: rest)).length ≤
        max (⌈p⌉ : Rat) 1 + (QueueCall.begun rest + QueueCall.idled rest) * p := by
    intro calls rest
    have hbegun := ((hempty.afterAll hp calls).1.beginStep hp).1
    obtain ⟨hlast, hspent⟩ := hbegun.afterAll hp rest
    have hfull := hbegun.le_cap
    have hleft := hlast.nonneg
    change (((q.afterAll calls).beginStep.releasedAll rest).length : Rat) ≤ _
    linarith
  refine ⟨fun calls => ?_, fun calls step hbegun hidled => ?_, fun calls rest => ?_,
    fun calls => ?_⟩
  · obtain ⟨hlast, -⟩ := hempty.afterAll hp calls
    exact ⟨hlast.nonneg, hlast.le_cap⟩
  · have hstep := hstretch calls step
    rw [hbegun, hidled, Nat.cast_zero, add_zero, zero_mul, add_zero] at hstep
    exact hstep
  · have hbegun : QueueCall.begun (.beginStep :: rest) = QueueCall.begun rest + 1 :=
      QueueCall.begun_cons .beginStep rest
    have hidled : QueueCall.idled (.beginStep :: rest) = QueueCall.idled rest := Nat.zero_add _
    rw [hbegun, hidled, Nat.cast_add, Nat.cast_one, add_sub_cancel_right]
    exact hstretch calls rest
  · obtain ⟨hlast, hspent⟩ := hempty.afterAll hp calls
    have hcredits : q.bucket.credits = 0 := by
      rw [hq]
      rfl
    have hleft := hlast.nonneg
    linarith

/-- The queue of a lane that 900 agents leave in an hour. -/
def lane : LinkQueue Rat :=
  ofLink ⟨⟨0⟩, ⟨0⟩, ⟨1⟩, 100.0, 10.0, 900.0, 1.0, 5.0⟩ Network.standardPeriodSecs .standard

/-- From the start one agent leaves the lane for every four steps, and between two steps never more
than one. -/
theorem flow_is_bounded_lane : lane.bucket = .new (1 / 4) ∧ (0 : Rat) < 1 / 4 ∧
    (∀ calls, ((lane.releasedAll calls).length : Rat) ≤
      1 / 4 * (QueueCall.begun calls + QueueCall.idled calls)) ∧
    ∀ calls step, QueueCall.begun step = 0 → QueueCall.idled step = 0 →
      (((lane.afterAll calls).releasedAll (.beginStep :: step)).length : Rat) ≤ 1 := by
  have hrate : lane.bucket.perStep = 1 / 4 := by decide +kernel
  have hlane : lane.bucket = .new (1 / 4) := congrArg FlowBucket.new hrate
  have hpos : (0 : Rat) < 1 / 4 := by norm_num
  have hcap : max (⌈(1 / 4 : Rat)⌉ : Rat) 1 = 1 := by norm_num
  obtain ⟨-, hstep, -, hall⟩ := flow_is_bounded hlane hpos
  rw [hcap] at hstep
  exact ⟨hlane, hpos, hall, hstep⟩

end LinkQueue

end Thoroughfare

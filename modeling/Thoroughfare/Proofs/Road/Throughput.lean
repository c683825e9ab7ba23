import Mathlib.Algebra.Order.Floor.Semifield
import Mathlib.Tactic.Linarith
import Mathlib.Tactic.NormNum
import Mathlib.Tactic.Ring
import Thoroughfare.Proofs.Road.Credit

/-!
# The throughput of a bucket

When a bucket releases its whole budget in every step, less than one agent is left in the bank.  The
fractional part of the rate is added to that in each step until a whole agent is reached; then one
agent more is released, and what is above the whole agent is cut off by the cap.  So the surplus is
counted from an empty bank each time, and the agents that leave are as many as the rate makes up
only if the fractional part of the rate reaches a whole agent exactly.
-/

namespace Thoroughfare
namespace FlowBucket

section Draining

variable {α : Type} [Quantity α]

/-- The bucket after a step that releases the whole budget. -/
def drain (b : FlowBucket α) : FlowBucket α :=
  b.accrue.consume b.accrue.budget

/-- The agents that some steps release if each of them releases the whole budget. -/
def drained (b : FlowBucket α) : Nat → Nat
  | 0 => 0
  | steps + 1 => b.accrue.budget + b.drain.drained steps

end Draining

variable {p : Rat}

/-- The rate is a whole number of agents and a fraction of one. -/
theorem floor_add_fract_rate (hp : 0 < p) : (⌊p⌋₊ : Rat) + Int.fract p = p := by
  rw [natCast_floor_eq_intCast_floor hp.le, Int.floor_add_fract]

theorem cap_of_fract_eq_zero (hp : 0 < p) (hwhole : Int.fract p = 0) (c : Rat) :
    (⟨p, c⟩ : FlowBucket Rat).cap = ⌊p⌋₊ := by
  have hrate := floor_add_fract_rate hp
  rw [hwhole, add_zero] at hrate
  have hone : 1 ≤ ⌊p⌋₊ := by
    have hpos : (0 : Rat) < ⌊p⌋₊ := hrate ▸ hp
    exact_mod_cast hpos
  have hceil : (⌈p⌉ : Rat) = ⌊p⌋₊ := by
    rw [← hrate, Int.ceil_natCast, Nat.floor_natCast, Int.cast_natCast]
  rw [cap_eq, hceil]
  exact max_eq_left (by exact_mod_cast hone)

theorem cap_of_fract_pos (hp : 0 < p) (hfract : 0 < Int.fract p) (c : Rat) :
    (⟨p, c⟩ : FlowBucket Rat).cap = ⌊p⌋₊ + 1 := by
  have hrate := floor_add_fract_rate hp
  have hceil : (⌈p⌉ : Rat) = ⌊p⌋₊ + 1 := by
    rw [Int.ceil_eq_add_one_sub_fract hfract.ne']
    linarith
  rw [cap_eq, hceil]
  exact max_eq_left (by simp)

/-! ## One step -/

/-- As long as no whole agent is made up, nothing is cut off. -/
theorem drain_of_lt {c : Rat} (hp : 0 < p) (hc : 0 ≤ c) (hfract : 0 < Int.fract p)
    (hlt : c + Int.fract p < 1) :
    (⟨p, c⟩ : FlowBucket Rat).accrue.budget = ⌊p⌋₊ ∧
      (⟨p, c⟩ : FlowBucket Rat).drain = ⟨p, c + Int.fract p⟩ := by
  have hrate := floor_add_fract_rate hp
  have haccrue : (⟨p, c⟩ : FlowBucket Rat).accrue = ⟨p, ⌊p⌋₊ + (c + Int.fract p)⟩ := by
    rw [accrue_eq, cap_of_fract_pos hp hfract, min_eq_left (by linarith)]
    congr 1
    linarith
  have hbudget : (⟨p, c⟩ : FlowBucket Rat).accrue.budget = ⌊p⌋₊ := by
    rw [haccrue, budget_eq]
    refine (Nat.floor_eq_iff ?_).2 ⟨?_, ?_⟩ <;> dsimp only <;> linarith
  refine ⟨hbudget, ?_⟩
  rw [drain, hbudget, haccrue, consume_eq, add_sub_cancel_left]

/-- When a whole agent is made up, it leaves with the others, and the rest is cut off. -/
theorem drain_of_le {c : Rat} (hp : 0 < p) (hfract : 0 < Int.fract p)
    (hle : 1 ≤ c + Int.fract p) :
    (⟨p, c⟩ : FlowBucket Rat).accrue.budget = ⌊p⌋₊ + 1 ∧
      (⟨p, c⟩ : FlowBucket Rat).drain = ⟨p, 0⟩ := by
  have hrate := floor_add_fract_rate hp
  have haccrue : (⟨p, c⟩ : FlowBucket Rat).accrue = ⟨p, ⌊p⌋₊ + 1⟩ := by
    rw [accrue_eq, cap_of_fract_pos hp hfract, min_eq_right (by linarith)]
  have hbudget : (⟨p, c⟩ : FlowBucket Rat).accrue.budget = ⌊p⌋₊ + 1 := by
    rw [haccrue, budget_eq]
    exact_mod_cast Nat.floor_natCast (⌊p⌋₊ + 1)
  refine ⟨hbudget, ?_⟩
  rw [drain, hbudget, haccrue, consume_eq, Nat.cast_add, Nat.cast_one, sub_self]

/-- A bucket with a whole rate begins and ends each step with an empty bank. -/
theorem drain_of_fract_eq_zero (hp : 0 < p) (hwhole : Int.fract p = 0) :
    (new p).accrue.budget = ⌊p⌋₊ ∧ (new p).drain = new p := by
  have hrate := floor_add_fract_rate hp
  rw [hwhole, add_zero] at hrate
  have haccrue : (new p).accrue = ⟨p, ⌊p⌋₊⟩ := by
    change (⟨p, 0⟩ : FlowBucket Rat).accrue = _
    rw [accrue_eq, cap_of_fract_eq_zero hp hwhole, min_eq_right (by rw [zero_add, hrate])]
  have hbudget : (new p).accrue.budget = ⌊p⌋₊ := by
    rw [haccrue, budget_eq]
    exact Nat.floor_natCast ⌊p⌋₊
  refine ⟨hbudget, ?_⟩
  rw [drain, hbudget, haccrue, consume_eq, sub_self]
  rfl

/-! ## Some steps -/

theorem drained_of_fract_eq_zero (hp : 0 < p) (hwhole : Int.fract p = 0) (steps : Nat) :
    (new p).drained steps = steps * ⌊p⌋₊ := by
  obtain ⟨hbudget, hdrain⟩ := drain_of_fract_eq_zero hp hwhole
  induction steps with
  | zero => rw [drained, Nat.zero_mul]
  | succ steps ih => rw [drained, hbudget, hdrain, ih, Nat.succ_mul, Nat.add_comm]

/-- The bank holds the fraction as often as it was added since the bank was empty, and is emptied
when it was added often enough for a whole agent. -/
theorem drained_of_fract_pos (hp : 0 < p) (hfract : 0 < Int.fract p) {times : Nat}
    (htimes : times < ⌈(Int.fract p)⁻¹⌉₊) (steps : Nat) :
    (⟨p, times * Int.fract p⟩ : FlowBucket Rat).drained steps =
      steps * ⌊p⌋₊ + (times + steps) / ⌈(Int.fract p)⁻¹⌉₊ := by
  induction steps generalizing times with
  | zero => rw [drained, Nat.zero_mul, Nat.zero_add, Nat.add_zero, Nat.div_eq_of_lt htimes]
  | succ steps ih =>
      have hbank : 0 ≤ times * Int.fract p := by positivity
      have hnext : times * Int.fract p + Int.fract p = ↑(times + 1) * Int.fract p := by
        push_cast
        ring
      have hwhole : times + 1 < ⌈(Int.fract p)⁻¹⌉₊ ↔ ↑(times + 1) * Int.fract p < 1 := by
        rw [Nat.lt_ceil, lt_inv_comm₀ (by positivity) hfract, ← one_div,
          lt_div_iff₀ (by positivity), mul_comm]
      rw [drained, Nat.succ_mul]
      by_cases hlt : times + 1 < ⌈(Int.fract p)⁻¹⌉₊
      · obtain ⟨hbudget, hdrain⟩ := drain_of_lt hp hbank hfract (hnext ▸ hwhole.1 hlt)
        rw [hbudget, hdrain, hnext, ih hlt, Nat.add_right_comm times 1 steps, Nat.add_assoc times]
        omega
      · obtain ⟨hbudget, hdrain⟩ := drain_of_le hp hfract
          (hnext ▸ le_of_not_gt (hwhole.not.1 hlt))
        have hempty := @ih 0 (Nat.zero_lt_of_lt htimes)
        rw [Nat.cast_zero, zero_mul, Nat.zero_add] at hempty
        have hfull : times + (steps + 1) = steps + ⌈(Int.fract p)⁻¹⌉₊ := by omega
        rw [hbudget, hdrain, hempty, hfull, Nat.add_div_right _ (Nat.zero_lt_of_lt htimes)]
        omega

/-- A bucket releases the whole part of its rate in every step, and one agent more as often as the
fractional part of the rate, added up from zero, reaches a whole agent. -/
theorem drained_new (hp : 0 < p) (steps : Nat) :
    (new p).drained steps = steps * ⌊p⌋₊ + steps / ⌈(Int.fract p)⁻¹⌉₊ := by
  rcases (Int.fract_nonneg p).eq_or_lt with hwhole | hfract
  · rw [drained_of_fract_eq_zero hp hwhole.symm, ← hwhole, inv_zero, Nat.ceil_zero, Nat.div_zero,
      Nat.add_zero]
  · have hempty := @drained_of_fract_pos p hp hfract 0 (Nat.ceil_pos.2 (inv_pos.2 hfract)) steps
    rw [Nat.cast_zero, zero_mul, Nat.zero_add] at hempty
    exact hempty

/-! ## What is lost -/

/-- The whole agents that a rate makes up in some steps. -/
theorem floor_mul_rate (hp : 0 < p) (steps : Nat) :
    ⌊steps * p⌋₊ = steps * ⌊p⌋₊ + ⌊steps * Int.fract p⌋₊ := by
  have hrate : (steps * p : Rat) = ↑(steps * ⌊p⌋₊) + steps * Int.fract p := by
    rw [Nat.cast_mul, ← mul_add, floor_add_fract_rate hp]
  rw [hrate, add_comm, Nat.floor_add_natCast (mul_nonneg (Nat.cast_nonneg _) (Int.fract_nonneg p)),
    Nat.add_comm]

/-- If an agent every so many steps is always as much as a fraction makes up, the fraction is no
more than that. -/
theorem mul_le_one_of_floor_eq {x : Rat} {k : Nat}
    (h : ∀ steps : Nat, ⌊steps * x⌋₊ = steps / k) : k * x ≤ 1 := by
  by_contra hmore
  rw [not_le] at hmore
  have hk : 0 < k := by
    refine Nat.pos_of_ne_zero fun hzero => ?_
    rw [hzero, Nat.cast_zero, zero_mul] at hmore
    linarith
  -- After so many rounds of `k` steps the surplus of each round makes up an agent.
  let rounds := ⌈(k * x - 1)⁻¹⌉₊
  have hsurplus : 1 ≤ rounds * (k * x - 1) := by
    have hrounds : (k * x - 1)⁻¹ ≤ rounds := Nat.le_ceil _
    have hpos : 0 < k * x - 1 := by linarith
    exact (inv_le_iff_one_le_mul₀ hpos).1 hrounds
  have hahead : rounds + 1 ≤ ⌊↑(rounds * k) * x⌋₊ := by
    refine Nat.le_floor ?_
    push_cast
    linarith
  rw [h, Nat.mul_div_cancel _ hk] at hahead
  exact absurd hahead (Nat.not_succ_le_self _)

/-- A bucket that releases its whole budget in every step releases the whole part of its rate each
time, and one agent more as often as the fractional part of the rate, added up from zero, reaches a
whole agent; what is above the whole agent is lost.  So the agents that it releases are always as
many as the rate makes up just if the rate is whole or its fractional part goes evenly into one. -/
theorem remainders_are_kept_iff (hp : 0 < p) :
    (∀ steps, (new p).drained steps = steps * ⌊p⌋₊ + steps / ⌈(Int.fract p)⁻¹⌉₊) ∧
      ((∀ steps : Nat, (new p).drained steps = ⌊steps * p⌋₊) ↔
        Int.fract p = 0 ∨ ∃ k : Nat, Int.fract p = 1 / k) := by
  refine ⟨drained_new hp, fun hkept => ?_, fun heven steps => ?_⟩
  · rcases (Int.fract_nonneg p).eq_or_lt with hwhole | hfract
    · exact Or.inl hwhole.symm
    · have hle : ⌈(Int.fract p)⁻¹⌉₊ * Int.fract p ≤ 1 := by
        refine mul_le_one_of_floor_eq fun steps => ?_
        have hsteps := (floor_mul_rate hp steps).symm.trans
          ((hkept steps).symm.trans (drained_new hp steps))
        exact Nat.add_left_cancel hsteps
      have hge : 1 ≤ ⌈(Int.fract p)⁻¹⌉₊ * Int.fract p :=
        (inv_le_iff_one_le_mul₀ hfract).1 (Nat.le_ceil _)
      exact Or.inr ⟨_, eq_one_div_of_mul_eq_one_right (le_antisymm hle hge)⟩
  · obtain ⟨k, hk⟩ : ∃ k : Nat, Int.fract p = 1 / k := by
      rcases heven with hwhole | hfraction
      · exact ⟨0, by rw [hwhole, Nat.cast_zero, div_zero]⟩
      · exact hfraction
    rw [drained_new hp, floor_mul_rate hp, hk, one_div, inv_inv, Nat.ceil_natCast, ← div_eq_mul_inv,
      Nat.floor_div_eq_div]

/-- A quarter of an agent in each step is kept until it is a whole one. -/
theorem remainders_are_kept_quarter : (0 : Rat) < 1 / 4 ∧
    ∀ steps : Nat, (new (1 / 4 : Rat)).drained steps = ⌊steps * (1 / 4 : Rat)⌋₊ := by
  have hpos : (0 : Rat) < 1 / 4 := by norm_num
  have hfract : Int.fract (1 / 4 : Rat) = 1 / (4 : Nat) :=
    Int.fract_eq_self.2 ⟨by norm_num, by norm_num⟩
  exact ⟨hpos, (remainders_are_kept_iff hpos).2.2 (Or.inr ⟨4, hfract⟩)⟩

/-- Three quarters of an agent in each step make up two agents in three steps, and one is
released. -/
theorem remainders_are_lost : ¬ ∀ p : Rat, 0 < p → ∀ steps : Nat,
    (new p).drained steps = ⌊steps * p⌋₊ := by
  intro hkept
  have hthree := hkept (3 / 4) (by norm_num) 3
  have hreleased : (new (3 / 4 : Rat)).drained 3 = 1 := by decide +kernel
  have hmade : ⌊(3 : Nat) * (3 / 4 : Rat)⌋₊ = 2 := by norm_num
  rw [hreleased, hmade] at hthree
  cases hthree

end FlowBucket
end Thoroughfare

import Mathlib.Algebra.Order.Ring.Rat
import Mathlib.Algebra.Order.Field.Basic
import Mathlib.Algebra.Order.Monoid.Unbundled.MinMax
import Mathlib.Data.Rat.Floor
import Mathlib.Tactic.Positivity
import Thoroughfare.Proofs.Network.Building
import Thoroughfare.Road.LinkQueue

/-!
# Flow credit in exact arithmetic

No link of a network gains a negative credit.  So in exact arithmetic it does not matter whether a
bank gains the credit of some steps one after the other or at once: once it is full it stays full,
and before that nothing is cut off.
-/

namespace Thoroughfare

/-! ## What a network and its settings say of the credit -/

theorem Decimal.exactValue_nonneg {x : Float} (h : isPositive x = true) : 0 ≤ exactValue x := by
  unfold isPositive Binary64.isPositive at h
  unfold exactValue
  split at h
  · rename_i negative mantissa exponent hparts
    rw [Bool.and_eq_true, Bool.not_eq_true'] at h
    rw [hparts, Binary64.value, h.1]
    exact Rat.mkRat_nonneg (Int.natCast_nonneg _) _
  · cases h

namespace Network

variable {g : Network}

theorem isPositive_of_build {periodSecs : Float} {positions : List Point}
    {drafts : List LinkDraft} (h : build periodSecs positions drafts = .ok g) :
    Decimal.isPositive g.periodSecs = true ∧
      ∀ l ∈ g.links.toList, Decimal.isPositive l.flowCapacity = true := by
  unfold build at h
  split at h
  · cases h
  · rename_i hperiod
    split at h
    · cases h
    · rename_i links hlinks
      cases h
      rw [Bool.not_eq_true, Bool.not_eq_false'] at hperiod
      obtain ⟨hdrafts, rfl⟩ := linksFrom_eq_ok_iff.1 hlinks
      refine ⟨hperiod, List.forall_mem_map.2 fun entry hentry => ?_⟩
      have hdraft := hdrafts entry.1 (List.fst_mem_of_mem_zipIdx hentry)
      obtain ⟨-, -, -, -, hflow, -⟩ := fault?_eq_none_iff.1 hdraft
      exact hflow

end Network

/-- No link gains a negative credit. -/
theorem LinkQueue.ratePerStep_nonneg {l : Link} {periodSecs : Float} {c : Config}
    (hflow : Decimal.isPositive l.flowCapacity = true)
    (hperiod : Decimal.isPositive periodSecs = true) (hc : c.Valid) :
    (0 : Rat) ≤ ratePerStep l periodSecs c := by
  have hfactor : Decimal.isPositive c.flowFactor = true := ((Config.valid_iff c).1 hc).2.2.2.1
  have hflow := Decimal.exactValue_nonneg hflow
  have hperiod := Decimal.exactValue_nonneg hperiod
  have hfactor := Decimal.exactValue_nonneg hfactor
  change 0 ≤ Decimal.exactValue l.flowCapacity / Decimal.exactValue periodSecs *
    Decimal.exactValue c.flowFactor * (c.stepSecs : Rat)
  positivity

/-! ## Banks -/

theorem Quantity.smaller_eq_min (x y : Rat) : Quantity.smaller x y = min x y := by
  change (if y < x then y else x) = min x y
  rcases lt_or_ge y x with hlt | hge
  · rw [if_pos hlt, min_eq_right hlt.le]
  · rw [if_neg (not_lt.2 hge), min_eq_left hge]

theorem Quantity.ceilAtLeastOne_eq_max (x : Rat) :
    Quantity.ceilAtLeastOne x = max (⌈x⌉ : Rat) 1 := by
  have hceil : x.ceil = ⌈x⌉ := by
    rw [Rat.ceil_eq_neg_floor_neg]
    exact neg_eq_iff_eq_neg.2 (Int.floor_neg (a := x))
  change (if 1 < x then (x.ceil : Rat) else 1) = max (⌈x⌉ : Rat) 1
  rw [hceil]
  rcases lt_or_ge 1 x with hlt | hge
  · rw [if_pos hlt, max_eq_left (hlt.le.trans (Int.le_ceil x))]
  · have hone : (⌈x⌉ : Rat) ≤ 1 := mod_cast Int.ceil_le.2 (by simpa using hge)
    rw [if_neg (not_lt.2 hge), max_eq_right hone]

namespace FlowBucket

theorem cap_eq (b : FlowBucket Rat) : b.cap = max (⌈b.perStep⌉ : Rat) 1 :=
  Quantity.ceilAtLeastOne_eq_max b.perStep

theorem budget_eq (b : FlowBucket Rat) : b.budget = ⌊b.credits⌋₊ :=
  rfl

theorem consume_eq (b : FlowBucket Rat) (released : Nat) :
    b.consume released = { b with credits := b.credits - released } :=
  rfl

theorem accrue_eq (b : FlowBucket Rat) :
    b.accrue = { b with credits := min (b.credits + b.perStep) b.cap } := by
  rw [accrue, Quantity.smaller_eq_min]

theorem accrueIdle_eq (b : FlowBucket Rat) (steps : Nat) :
    b.accrueIdle steps = { b with credits := min (b.credits + b.perStep * steps) b.cap } := by
  rw [accrueIdle, Quantity.smaller_eq_min]
  rfl

theorem accrueIdle_one (b : FlowBucket Rat) : b.accrueIdle 1 = b.accrue := by
  rw [accrueIdle_eq, accrue_eq, Nat.cast_one, mul_one]

/-- To gain the credit of some steps at once and then that of one more is to gain all of it at
once. -/
theorem accrue_accrueIdle {b : FlowBucket Rat} (h : 0 ≤ b.perStep) (steps : Nat) :
    (b.accrueIdle steps).accrue = b.accrueIdle (steps + 1) := by
  have hcap : (b.accrueIdle steps).cap = b.cap := rfl
  have hcut : min (min (b.credits + b.perStep * steps) b.cap + b.perStep) b.cap =
      min (b.credits + b.perStep * ↑(steps + 1)) b.cap := by
    calc min (min (b.credits + b.perStep * steps) b.cap + b.perStep) b.cap
        = min (min (b.credits + b.perStep * steps + b.perStep) (b.cap + b.perStep)) b.cap := by
          rw [min_add_add_right]
      _ = min (b.credits + b.perStep * steps + b.perStep) b.cap := by
          rw [min_assoc, min_eq_right (le_add_of_nonneg_right h)]
      _ = min (b.credits + b.perStep * ↑(steps + 1)) b.cap := by
          rw [Nat.cast_add, Nat.cast_one, mul_add, mul_one, add_assoc]
  rw [accrue_eq, hcap, accrueIdle_eq, accrueIdle_eq, ← hcut]

end FlowBucket

end Thoroughfare

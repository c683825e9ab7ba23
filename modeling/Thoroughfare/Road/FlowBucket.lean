import Thoroughfare.Quantity

/-!
# Flow buckets

A link may release only so many agents per second.  A bucket gains a fixed credit each step, and
each agent released costs one; what is left below one agent is kept for later steps.  The bank
never holds more than one step's credit, rounded up to a whole agent, so a link that stands idle
does not save up for a burst.
-/

namespace Thoroughfare

/-- The flow credit of a link. -/
structure FlowBucket (α : Type) where
  perStep : α
  credits : α
deriving Repr

namespace FlowBucket

variable {α : Type} [Quantity α]

def new (perStep : α) : FlowBucket α :=
  ⟨perStep, Quantity.ofNat 0⟩

/-- The most that the bank holds. -/
def cap (b : FlowBucket α) : α :=
  Quantity.ceilAtLeastOne b.perStep

/-- The most agents that one step can release. -/
def maxPerStep (b : FlowBucket α) : Nat :=
  Quantity.floor b.cap

/-- Gain the credit of one step. -/
def accrue (b : FlowBucket α) : FlowBucket α :=
  { b with credits := Quantity.smaller (b.credits + b.perStep) b.cap }

/-- Whole agents that may be released now. -/
def budget (b : FlowBucket α) : Nat :=
  Quantity.floor b.credits

/-- Pay for released agents. -/
def consume (b : FlowBucket α) (released : Nat) : FlowBucket α :=
  { b with credits := b.credits - Quantity.ofNat released }

/-- Gain the credit of a number of steps at once. -/
def accrueIdle (b : FlowBucket α) (steps : Nat) : FlowBucket α :=
  { b with
    credits := Quantity.smaller (b.credits + b.perStep * Quantity.ofNat steps) b.cap }

end FlowBucket

end Thoroughfare

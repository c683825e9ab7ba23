import Thoroughfare.Decimal.Binary64

/-!
# Quantities

Flow credit and the sizes of balanced partitions are quantities that need not be whole.  The
program computes with floating-point numbers; statements about exact arithmetic use rational
numbers.  Both are instances of one class, so a definition that is written for quantities is one
definition for both.  Conversions to whole numbers never fail: what is negative or no number
becomes zero, and a floating-point number that is too big becomes the greatest 64-bit number.
-/

namespace Thoroughfare

/-- Numbers for flow rates, credits and shares. -/
class Quantity (α : Type) extends Add α, Sub α, Mul α, Div α where
  /-- The quantity that a floating-point number denotes. -/
  ofFloat : Float → α
  /-- A whole quantity. -/
  ofNat : Nat → α
  /-- The greatest whole number that is at most the quantity. -/
  floor : α → Nat
  /-- The least whole number that is at least the quantity. -/
  ceil : α → Nat
  /-- The quantity rounded up to a whole one, and at least one. -/
  ceilAtLeastOne : α → α
  /-- The smaller of two quantities. -/
  smaller : α → α → α

namespace Quantity

/-- The whole part of a number, cut to the range of 64 bits. -/
def floorFloat (x : Float) : Nat :=
  x.toUInt64.toNat

/-- A number rounded up to a whole one, cut to the range of 64 bits.  From `2^53` on every
number is whole. -/
def ceilFloat (x : Float) : Nat :=
  let down := x.toUInt64
  if down.toFloat < x ∧ x < 9007199254740992.0 then down.toNat + 1 else down.toNat

/-- A number rounded up to a whole one, and at least one. -/
def ceilAtLeastOneFloat (x : Float) : Float :=
  if 1.0 < x then
    if x < 9007199254740992.0 then (ceilFloat x).toUInt64.toFloat else x
  else 1.0

/-- The smaller of two numbers; next to what is no number it is the other one. -/
def smallerFloat (x y : Float) : Float :=
  if x.isNaN then y
  else if y.isNaN then x
  else if y < x then y
  else x

instance : Quantity Float where
  ofFloat x := x
  ofNat n := n.toUInt64.toFloat
  floor := floorFloat
  ceil := ceilFloat
  ceilAtLeastOne := ceilAtLeastOneFloat
  smaller := smallerFloat

instance : Quantity Rat where
  ofFloat := Decimal.exactValue
  ofNat n := n
  floor x := x.floor.toNat
  ceil x := x.ceil.toNat
  ceilAtLeastOne x := if (1 : Rat) < x then (x.ceil : Rat) else 1
  smaller x y := if y < x then y else x

end Quantity

end Thoroughfare

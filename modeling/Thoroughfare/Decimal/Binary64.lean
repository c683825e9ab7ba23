
/-!
# Binary64 numbers taken apart

A floating-point number is a sign, a whole mantissa and a power of two, unless it is infinite
or no number at all.  The parts are read off the 64 bits, so everything that is decided with
them is decided by exact arithmetic: the sign, the size, and the rational number denoted.
-/

namespace Thoroughfare
namespace Decimal

/-- A floating-point number by its parts; a finite one denotes `±mantissa * 2^exponent`. -/
inductive Binary64 where
  | notANumber
  | infinite (negative : Bool)
  | finite (negative : Bool) (mantissa : Nat) (exponent : Int)
deriving DecidableEq, Repr

namespace Binary64

/-- The parts encoded by 64 bits: one of sign, eleven of exponent, fifty-two of fraction. -/
def ofBits (bits : Nat) : Binary64 :=
  let negative := decide (Nat.pow 2 63 ≤ bits)
  let exponent : Nat := bits / Nat.pow 2 52 % Nat.pow 2 11
  let fraction := bits % Nat.pow 2 52
  if exponent = 2047 then
    if fraction = 0 then infinite negative else notANumber
  else if exponent = 0 then
    finite negative fraction (-1074)
  else
    finite negative (Nat.pow 2 52 + fraction) ((exponent : Int) - 1075)

/-- The parts of a number. -/
def ofFloat (x : Float) : Binary64 :=
  ofBits x.toBits.toNat

/-- A mantissa scaled by a power of two, as a quotient of natural numbers. -/
def quotient (mantissa : Nat) (exponent : Int) : Nat × Nat :=
  (mantissa * Nat.pow 2 exponent.toNat, Nat.pow 2 (-exponent).toNat)

/-- The rational number denoted; what is not finite denotes zero. -/
def value : Binary64 → Rat
  | finite negative mantissa exponent =>
      let (num, den) := quotient mantissa exponent
      let size := mkRat num den
      if negative then -size else size
  | _ => 0

/-- Finite and greater than zero. -/
def isPositive : Binary64 → Bool
  | finite negative mantissa _ => !negative && decide (0 < mantissa)
  | _ => false

/-- Finite and at least zero; a zero with a minus sign is at least zero. -/
def isNonnegative : Binary64 → Bool
  | finite negative mantissa _ => !negative || decide (mantissa = 0)
  | _ => false

end Binary64

/-- Finite and greater than zero. -/
def isPositive (x : Float) : Bool :=
  (Binary64.ofFloat x).isPositive

/-- Finite and at least zero. -/
def isNonnegative (x : Float) : Bool :=
  (Binary64.ofFloat x).isNonnegative

/-- The rational number that a floating-point number denotes. -/
def exactValue (x : Float) : Rat :=
  (Binary64.ofFloat x).value

end Decimal
end Thoroughfare

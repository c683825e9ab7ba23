import Thoroughfare.Decimal.Binary64

/-!
# The fewest digits that read back

The reals that round to a given floating-point number form an interval.  Among the decimals
in it we choose one with as few digits as possible, and of those the one closest to the
number.  The search tries one digit, then two, and so on, and on each decimal grid only the two
neighbours of the number can be closest, so only these are tested.  All comparisons are between
natural numbers.
-/

namespace Thoroughfare
namespace Decimal

/-- The decimal `digits * 10^exponent`. -/
structure Scaled where
  digits : Nat
  exponent : Int
deriving DecidableEq, Repr

/-- Which of two equally close neighbours is taken. -/
inductive Tie where
  | toEven
  | upward
deriving DecidableEq, Repr

/-- A positive finite number with the interval of reals that round to it.  The number is
`4 * mantissa` quarter units; the interval reaches half a unit up and, below, half a unit, or
a quarter just above a power of two, where the numbers below lie closer together. -/
structure Interval where
  mantissa : Nat
  exponent : Int
  narrowBelow : Bool

namespace Interval

/-- The interval of a positive number with the given parts. -/
def ofParts (mantissa : Nat) (exponent : Int) : Interval :=
  ⟨mantissa, exponent, decide (mantissa = Nat.pow 2 52 ∧ -1074 < exponent)⟩

/-- The lower end, in quarter units. -/
def low (i : Interval) : Nat :=
  if i.narrowBelow then 4 * i.mantissa - 1 else 4 * i.mantissa - 2

/-- The upper end, in quarter units. -/
def high (i : Interval) : Nat :=
  4 * i.mantissa + 2

/-- Compare a decimal with a number of quarter units. -/
def compareWith (i : Interval) (d : Scaled) (quarters : Nat) : Ordering :=
  let unit := i.exponent - 2
  compare (d.digits * Nat.pow 10 d.exponent.toNat * Nat.pow 2 (-unit).toNat)
    (quarters * Nat.pow 2 unit.toNat * Nat.pow 10 (-d.exponent).toNat)

/-- The ends belong to the interval exactly when the mantissa is even. -/
def contains (i : Interval) (d : Scaled) : Bool :=
  let closed := i.mantissa % 2 == 0
  let below := i.compareWith d i.low
  let above := i.compareWith d i.high
  (below == .gt || closed && below == .eq) && (above == .lt || closed && above == .eq)

/-- The number of decimal digits in front of the point, negative for small numbers: the least
`k` for which the number is below `10^k`, found upwards from an estimate. -/
def scaleFrom (i : Interval) : Nat → Int → Int
  | 0, k => k
  | fuel + 1, k =>
      if i.compareWith ⟨1, k⟩ (4 * i.mantissa) == .gt then k else scaleFrom i fuel (k + 1)

/-- The scale, from an estimate by the binary logarithm that is never above it. -/
def scale (i : Interval) : Int :=
  let bits : Int := i.mantissa.log2 + i.exponent
  i.scaleFrom 4 (bits * 30103 / 100000 - 1)

/-- The whole multiple of `10^grid` that is at most the number. -/
def floorOn (i : Interval) (grid : Int) : Nat :=
  let unit := i.exponent
  (i.mantissa * Nat.pow 2 unit.toNat * Nat.pow 10 (-grid).toNat) /
    (Nat.pow 2 (-unit).toNat * Nat.pow 10 grid.toNat)

/-- The closest decimal on a grid, if one lies in the interval. -/
def closestOn? (i : Interval) (tie : Tie) (grid : Int) : Option Scaled :=
  let down : Scaled := ⟨i.floorOn grid, grid⟩
  let up : Scaled := ⟨i.floorOn grid + 1, grid⟩
  match i.contains down, i.contains up with
  | false, false => none
  | true, false => some down
  | false, true => some up
  | true, true =>
      match i.compareWith ⟨down.digits + up.digits, grid⟩ (8 * i.mantissa) with
      | .gt => some down
      | .lt => some up
      | .eq =>
          match tie with
          | .upward => some up
          | .toEven => if down.digits % 2 = 0 then some down else some up

end Interval

/-- Drop the trailing zeros of the digits; `fuel` bounds how many. -/
def Scaled.stripFrom : Nat → Scaled → Scaled
  | 0, d => d
  | fuel + 1, d =>
      if d.digits ≠ 0 ∧ d.digits % 10 = 0 then stripFrom fuel ⟨d.digits / 10, d.exponent + 1⟩ else d

def Scaled.strip (d : Scaled) : Scaled :=
  d.stripFrom d.digits.log2

def exactDecimal (mantissa : Nat) (exponent : Int) : Scaled :=
  Scaled.strip
    ⟨mantissa * Nat.pow 2 exponent.toNat * Nat.pow 5 (-exponent).toNat,
      -((-exponent).toNat : Int)⟩

/-- The shortest decimal that reads back as the positive number with the given parts; seventeen
digits always suffice, and were they not to, the exact value is taken. -/
def shortest (tie : Tie) (mantissa : Nat) (exponent : Int) : Scaled :=
  let interval := Interval.ofParts mantissa exponent
  let scale := interval.scale
  match (List.range 17).findSome? fun n => interval.closestOn? tie (scale - (n + 1 : Nat)) with
  | some d => d.strip
  | none => exactDecimal mantissa exponent

end Decimal
end Thoroughfare

import Thoroughfare.Decimal.Numeral

/-!
# Reading decimal numbers

A number in a data file is an optional sign followed by `inf`, `infinity` or `nan` in any case,
or by digits with an optional point and an optional power of ten; at least one digit stands
before or after the point.  The value is the floating-point number nearest to the decimal.
-/

namespace Thoroughfare
namespace Decimal

/-- The decimal `±mantissa * 10^exponent` as it was written. -/
structure Literal where
  negative : Bool
  mantissa : Nat
  exponent : Int
deriving DecidableEq, Repr

/-- The nearest floating-point number.  Decimals whose leading digit stands beyond the
four-hundredth place on either side are infinite or zero whatever their digits are. -/
def Literal.toFloat (l : Literal) : Float :=
  let places : Int := (Numeral.write l.mantissa).length + l.exponent
  let size : Float :=
    if l.mantissa = 0 then 0.0
    else if places < -400 then 0.0
    else if 400 < places then Float.ofBits 0x7FF0000000000000
    else Float.ofScientific l.mantissa (decide (l.exponent < 0)) l.exponent.natAbs
  if l.negative then -size else size

def splitSign : List Char → Bool × List Char
  | '-' :: rest => (true, rest)
  | '+' :: rest => (false, rest)
  | rest => (false, rest)

/-- The power of ten behind the digits: nothing, or `e` and a signed whole number. -/
def readPower? : List Char → Option Int
  | [] => some 0
  | c :: rest =>
      if c = 'e' ∨ c = 'E' then
        let (negative, digits) := splitSign rest
        (Numeral.read? digits).map fun n => if negative then -(n : Int) else n
      else none

def readDigits? (negative : Bool) (text : List Char) : Option Literal :=
  let whole := text.takeWhile Char.isDigit
  let afterWhole := text.dropWhile Char.isDigit
  let (fraction, rest) := match afterWhole with
    | '.' :: more => (more.takeWhile Char.isDigit, more.dropWhile Char.isDigit)
    | more => ([], more)
  if whole ++ fraction = [] then none
  else do
    let mantissa ← Numeral.read? (whole ++ fraction)
    let power ← readPower? rest
    some ⟨negative, mantissa, power - fraction.length⟩

/-- The number that a text denotes, if it denotes one. -/
def readNumber? (text : List Char) : Option Float :=
  let (negative, body) := splitSign text
  let infinity := Float.ofBits 0x7FF0000000000000
  let lowered := body.map Char.toLower
  if lowered = ['i', 'n', 'f'] ∨ lowered = ['i', 'n', 'f', 'i', 'n', 'i', 't', 'y'] then
    some (if negative then -infinity else infinity)
  else if lowered = ['n', 'a', 'n'] then
    some (Float.ofBits 0x7FF8000000000000)
  else
    (readDigits? negative body).map Literal.toFloat

end Decimal
end Thoroughfare

import Thoroughfare.Decimal.Numeral
import Thoroughfare.Decimal.Shortest

/-!
# The layout of decimal numbers

Which digits are written is settled by the shortest decimal; how they are laid out is settled
by a record of decisions, one record for each kind of output.  A fixed number of places is a
layout of its own: there the exact value is rounded, a half to the even neighbour.
-/

namespace Thoroughfare
namespace Decimal

/-- How a decimal is laid out. -/
structure Layout where
  /-- A whole number ends in a point and a zero. -/
  wholeWithPoint : Bool
  /-- The numbers of digits in front of the point for which no exponent is written; `none`
  stands for all. -/
  positional : Option (Int × Int)
  /-- Which of two equally close shortest decimals is written. -/
  tie : Tie

/-- Numbers in messages: never an exponent, and whole numbers without a point. -/
def messageLayout : Layout where
  wholeWithPoint := false
  positional := none
  tie := .upward

/-- Numbers in output files: whole numbers end in `.0`; an exponent is written from `10^16` on
and below `10^-5`. -/
def fileLayout : Layout where
  wholeWithPoint := true
  positional := some (-4, 16)
  tie := .toEven

/-- Digits with the point behind the first `scale` of them. -/
def Layout.withPoint (layout : Layout) (digits : List Char) (scale : Int) : List Char :=
  let count : Int := digits.length
  if count ≤ scale then
    let whole := digits ++ List.replicate (scale - count).toNat '0'
    if layout.wholeWithPoint then whole ++ ['.', '0'] else whole
  else if 0 < scale then
    digits.take scale.toNat ++ '.' :: digits.drop scale.toNat
  else
    '0' :: '.' :: List.replicate (-scale).toNat '0' ++ digits

/-- Digits with one digit in front of the point and a power of ten. -/
def withExponent (digits : List Char) (scale : Int) : List Char :=
  let power := scale - 1
  let sign := if power < 0 then ['-'] else []
  let mantissa := match digits with
    | [] => []
    | [c] => [c]
    | c :: rest => c :: '.' :: rest
  mantissa ++ 'e' :: sign ++ Numeral.write power.natAbs

def Layout.lay (layout : Layout) (d : Scaled) : List Char :=
  let digits := Numeral.write d.digits
  let scale := d.exponent + digits.length
  match layout.positional with
  | none => layout.withPoint digits scale
  | some (least, greatest) =>
      if least ≤ scale ∧ scale ≤ greatest then layout.withPoint digits scale
      else withExponent digits scale

def signText (negative : Bool) : List Char :=
  if negative then ['-'] else []

/-- The text of a number with as few digits as read back. -/
def Layout.write (layout : Layout) (x : Float) : String :=
  match Binary64.ofFloat x with
  | .notANumber => "NaN"
  | .infinite negative => String.ofList (signText negative ++ ['i', 'n', 'f'])
  | .finite negative 0 _ =>
      String.ofList (signText negative ++ if layout.wholeWithPoint then ['0', '.', '0'] else ['0'])
  | .finite negative mantissa exponent =>
      String.ofList (signText negative ++ layout.lay (shortest layout.tie mantissa exponent))

/-- The text of a number inside a message. -/
def messageText (x : Float) : String :=
  messageLayout.write x

/-- The text of a number in an output file. -/
def fileText (x : Float) : String :=
  fileLayout.write x

/-- A quotient rounded to the nearest whole number, a half to the even neighbour. -/
def roundHalfEven (num den : Nat) : Nat :=
  let down := num / den
  let twice := 2 * (num % den)
  if twice < den then down
  else if den < twice then down + 1
  else if down % 2 = 0 then down
  else down + 1

/-- The text of a number with one decimal place, rounded from its exact value. -/
def oneDecimalText (x : Float) : String :=
  match Binary64.ofFloat x with
  | .notANumber => "NaN"
  | .infinite negative => String.ofList (signText negative ++ ['i', 'n', 'f'])
  | .finite negative mantissa exponent =>
      let (num, den) := Binary64.quotient mantissa exponent
      let tenths := roundHalfEven (10 * num) den
      String.ofList
        (signText negative ++ Numeral.write (tenths / 10) ++ '.' :: Numeral.write (tenths % 10))

end Decimal
end Thoroughfare

import Thoroughfare.Decimal.Literal
import Thoroughfare.Toml.Layout
import Thoroughfare.Toml.Value

/-!
# Numbers and moments

Single underscores may stand between digits.  Whole numbers have 64 bits; decimal ones have no
leading zeros and may have a sign, and ones in another base have neither a sign nor a limit on
zeros.  A floating-point number has a fraction, a power of ten or both, or it is `inf` or `nan`;
it must not be too big.  A moment is a date, a time of day, or both, perhaps with an offset.
-/

namespace Thoroughfare
namespace Toml
namespace Scalar

/-- Further digits, which single underscores may precede. -/
def moreDigits (isDigit : Char → Bool) : List Char → List Char × List Char
  | [] => ([], [])
  | '_' :: d :: rest =>
      if isDigit d then
        let (digits, rest) := moreDigits isDigit rest
        (d :: digits, rest)
      else ([], '_' :: d :: rest)
  | c :: rest =>
      if isDigit c then
        let (digits, rest) := moreDigits isDigit rest
        (c :: digits, rest)
      else ([], c :: rest)

def digitRun (isDigit : Char → Bool) : Reader (List Char)
  | [] => none
  | c :: rest =>
      if isDigit c then
        let (digits, rest) := moreDigits isDigit rest
        some (c :: digits, rest)
      else none

/-- The digits of a decimal whole number: a zero alone, or a run that begins with another one. -/
def wholeDigits : Reader (List Char)
  | '0' :: rest => some (['0'], rest)
  | text => digitRun Char.isDigit text

def isDigitIn (base : Nat) (c : Char) : Bool :=
  (Numeral.readInBase? base [c]).isSome

/-- A whole number if it has at most 64 bits. -/
def bounded (n : Int) : Option Value :=
  if -9223372036854775808 ≤ n ∧ n ≤ 9223372036854775807 then some (.whole n) else none

/-- A whole number in another base, whose mark was read. -/
def readBased (base : Nat) (text : List Char) : Option (Value × List Char) := do
  let (digits, rest) ← digitRun (isDigitIn base) text
  let n ← Numeral.readInBase? base digits
  let value ← bounded n
  return (value, rest)

def readWhole : Reader Value
  | '0' :: 'x' :: rest => readBased 16 rest
  | '0' :: 'o' :: rest => readBased 8 rest
  | '0' :: 'b' :: rest => readBased 2 rest
  | text => do
      let (negative, body) := Decimal.splitSign text
      let (digits, rest) ← wholeDigits body
      let n ← Numeral.read? digits
      let value ← bounded (if negative then -(n : Int) else n)
      return (value, rest)

/-- The digits behind a point, if there is one. -/
def readFraction : Reader (List Char)
  | '.' :: rest => digitRun Char.isDigit rest
  | _ => none

/-- A power of ten, if there is one. -/
def readPower : Reader Int
  | [] => none
  | c :: rest =>
      if c = 'e' ∨ c = 'E' then do
        let (negative, body) := Decimal.splitSign rest
        let (digits, rest) ← digitRun Char.isDigit body
        let n ← Numeral.read? digits
        return (if negative then -(n : Int) else n, rest)
      else none

/-- A fraction and a power of ten, of which one may be missing. -/
def readTail (text : List Char) : Option ((List Char × Int) × List Char) :=
  match readFraction text, readPower text with
  | some (fraction, rest), _ =>
      match readPower rest with
      | some (power, rest) => some ((fraction, power), rest)
      | none => some ((fraction, 0), rest)
  | none, some (power, rest) => some (([], power), rest)
  | none, none => none

/-- The value that stands for a number without bound. -/
def infinity : Float :=
  Float.ofBits 0x7FF0000000000000

/-- A floating-point number written with digits. -/
def readDecimal (text : List Char) : Option (Value × List Char) := do
  let (negative, body) := Decimal.splitSign text
  let (digits, rest) ← wholeDigits body
  let ((fraction, power), rest) ← readTail rest
  let mantissa ← Numeral.read? (digits ++ fraction)
  let literal : Decimal.Literal := ⟨negative, mantissa, power - fraction.length⟩
  let x := literal.toFloat
  if x == infinity then none else return (.number x, rest)

/-- A floating-point number written as a word. -/
def readWord (text : List Char) : Option (Value × List Char) :=
  let (negative, body) := Decimal.splitSign text
  let signed (x : Float) : Value := .number (if negative then -x else x)
  match body with
  | 'i' :: 'n' :: 'f' :: rest => some (signed infinity, rest)
  | 'n' :: 'a' :: 'n' :: rest => some (signed (Float.ofBits 0x7FF8000000000000), rest)
  | _ => none

/-- A number of exactly so many digits, between two bounds. -/
def readFixed (digits least greatest : Nat) (text : List Char) : Option (Nat × List Char) := do
  let front := text.take digits
  if front.length = digits ∧ front.all Char.isDigit then
    let n ← Numeral.read? front
    if least ≤ n ∧ n ≤ greatest then return (n, text.drop digits) else none
  else none

/-- The text behind a character that must come next. -/
def expect? (c : Char) : List Char → Option (List Char)
  | d :: rest => if d = c then some rest else none
  | [] => none

/-- The number of days of a month. -/
def daysIn (year month : Nat) : Nat :=
  if month = 2 then
    if year % 4 = 0 ∧ (year % 100 ≠ 0 ∨ year % 400 = 0) then 29 else 28
  else if month = 4 ∨ month = 6 ∨ month = 9 ∨ month = 11 then 30
  else 31

def readDate (text : List Char) : Option (Date × List Char) := do
  let (year, rest) ← readFixed 4 0 9999 text
  let rest ← expect? '-' rest
  let (month, rest) ← readFixed 2 1 12 rest
  let rest ← expect? '-' rest
  let (day, rest) ← readFixed 2 1 (daysIn year month) rest
  return (⟨year, month, day⟩, rest)

/-- A time of day; a minute may have a leap second. -/
def readTime (text : List Char) : Option (DayTime × List Char) := do
  let (hour, rest) ← readFixed 2 0 23 text
  let rest ← expect? ':' rest
  let (minute, rest) ← readFixed 2 0 59 rest
  let rest ← expect? ':' rest
  let (second, rest) ← readFixed 2 0 60 rest
  match rest with
  | '.' :: more =>
      let fraction := more.takeWhile Char.isDigit
      if fraction = [] then return (⟨hour, minute, second, []⟩, rest)
      else return (⟨hour, minute, second, fraction⟩, more.dropWhile Char.isDigit)
  | _ => return (⟨hour, minute, second, []⟩, rest)

/-- The minutes ahead of universal time. -/
def readOffset : Reader Int
  | [] => none
  | c :: rest =>
      if c = 'Z' ∨ c = 'z' then some (0, rest)
      else if c = '+' ∨ c = '-' then do
        let (hours, rest) ← readFixed 2 0 23 rest
        let rest ← expect? ':' rest
        let (minutes, rest) ← readFixed 2 0 59 rest
        let total : Int := hours * 60 + minutes
        return (if c = '-' then -total else total, rest)
      else none

/-- A time behind a date, if there is one. -/
def readTimeAfterDate : Reader DayTime
  | [] => none
  | c :: rest => if c = 'T' ∨ c = 't' ∨ c = ' ' then readTime rest else none

def readMoment (text : List Char) : Option (Value × List Char) :=
  match readDate text with
  | some (date, rest) =>
      match readTimeAfterDate rest with
      | none => some (.moment ⟨some date, none, none⟩, rest)
      | some (time, rest) =>
          match readOffset rest with
          | none => some (.moment ⟨some date, some time, none⟩, rest)
          | some (offset, rest) => some (.moment ⟨some date, some time, some offset⟩, rest)
  | none => (readTime text).map fun result => (.moment ⟨none, some result.1, none⟩, result.2)

/-- A number or a moment: the first reading that fits counts. -/
def read (text : List Char) : Option (Value × List Char) :=
  readMoment text <|> readDecimal text <|> readWord text <|> readWhole text

end Scalar
end Toml
end Thoroughfare

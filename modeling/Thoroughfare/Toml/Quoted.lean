import Thoroughfare.Decimal.Numeral
import Thoroughfare.Toml.Layout

/-!
# Texts between quotes

Between double quotes a backslash begins an escape; between single quotes everything stands for
itself.  Three quotes begin a text of several lines: a line end directly behind them does not
count, and up to two quotes may stand in front of the closing three.  Between three double quotes
a backslash at the end of a line drops the white space up to the next character.
-/

namespace Thoroughfare
namespace Toml
namespace Quoted

/-- The character of a one-letter escape. -/
def escape? : Char → Option Char
  | '"' => some '"'
  | '\\' => some '\\'
  | 'b' => some '\x08'
  | 't' => some '\t'
  | 'n' => some '\n'
  | 'f' => some '\x0c'
  | 'r' => some '\r'
  | _ => none

/-- The character with a hexadecimal number. -/
def coded? (digits : List Char) : Option Char :=
  (Numeral.readInBase? 16 digits).bind fun n =>
    if n < 0xD800 ∨ (0xDFFF < n ∧ n ≤ 0x10FFFF) then some (Char.ofNat n) else none

/-- Put a character in front of what is read from the rest. -/
def before (c : Char) (read : Option (List Char × List Char)) : Option (List Char × List Char) :=
  read.map fun result => (c :: result.1, result.2)

/-- The rest of a text between double quotes. -/
def readEscaped : Reader (List Char)
  | [] => none
  | '"' :: rest => some ([], rest)
  | '\\' :: 'u' :: a :: b :: c :: d :: rest =>
      (coded? [a, b, c, d]).bind fun e => before e (readEscaped rest)
  | '\\' :: 'U' :: a :: b :: c :: d :: e :: f :: g :: h :: rest =>
      (coded? [a, b, c, d, e, f, g, h]).bind fun e => before e (readEscaped rest)
  | '\\' :: c :: rest => (escape? c).bind fun e => before e (readEscaped rest)
  | c :: rest => if isPlain c then before c (readEscaped rest) else none

/-- The rest of a text between single quotes. -/
def readLiteral : Reader (List Char)
  | [] => none
  | '\'' :: rest => some ([], rest)
  | c :: rest => if isPlain c then before c (readLiteral rest) else none

/-- Whether only blanks stand on the rest of a line. -/
def endsLine (text : List Char) : Bool :=
  (newline? (dropBlanks text)).isSome

/-- The rest of a text between three double quotes; white space is dropped while `trimming`. -/
def readLongEscaped (trimming : Bool) : Reader (List Char)
  | [] => none
  | '"' :: '"' :: '"' :: '"' :: '"' :: rest => some (['"', '"'], rest)
  | '"' :: '"' :: '"' :: '"' :: rest => some (['"'], rest)
  | '"' :: '"' :: '"' :: rest => some ([], rest)
  | '\n' :: rest =>
      if trimming then readLongEscaped true rest else before '\n' (readLongEscaped false rest)
  | '\r' :: '\n' :: rest =>
      if trimming then readLongEscaped true rest else before '\n' (readLongEscaped false rest)
  | '\\' :: 'u' :: a :: b :: c :: d :: rest =>
      (coded? [a, b, c, d]).bind fun e => before e (readLongEscaped false rest)
  | '\\' :: 'U' :: a :: b :: c :: d :: e :: f :: g :: h :: rest =>
      (coded? [a, b, c, d, e, f, g, h]).bind fun e => before e (readLongEscaped false rest)
  | '\\' :: c :: rest =>
      if endsLine (c :: rest) then readLongEscaped true (c :: rest)
      else (escape? c).bind fun e => before e (readLongEscaped false rest)
  | c :: rest =>
      if trimming && isBlank c then readLongEscaped true rest
      else if isPlain c then before c (readLongEscaped false rest)
      else none

/-- The rest of a text between three single quotes. -/
def readLongLiteral : Reader (List Char)
  | [] => none
  | '\'' :: '\'' :: '\'' :: '\'' :: '\'' :: rest => some (['\'', '\''], rest)
  | '\'' :: '\'' :: '\'' :: '\'' :: rest => some (['\''], rest)
  | '\'' :: '\'' :: '\'' :: rest => some ([], rest)
  | '\n' :: rest => before '\n' (readLongLiteral rest)
  | '\r' :: '\n' :: rest => before '\n' (readLongLiteral rest)
  | c :: rest => if isPlain c then before c (readLongLiteral rest) else none

/-- A text without a line end at its front. -/
def dropNewline (text : List Char) : List Char :=
  (newline? text).getD text

/-- A text of one or several lines. -/
def read : Reader (List Char)
  | '"' :: '"' :: '"' :: rest => readLongEscaped false (dropNewline rest)
  | '"' :: rest => readEscaped rest
  | '\'' :: '\'' :: '\'' :: rest => readLongLiteral (dropNewline rest)
  | '\'' :: rest => readLiteral rest
  | _ => none

end Quoted
end Toml
end Thoroughfare

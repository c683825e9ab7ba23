import Thoroughfare.Decimal.Numeral
import Thoroughfare.Text.Combining
import Thoroughfare.Text.Ignorable
import Thoroughfare.Text.Printable

/-!
# Quoted text in messages

Names from input files are shown between quotes.  Quotes, backslashes and a few controls have
an escape of two characters; other characters that could not be seen are written by their code
point.
-/

namespace Thoroughfare
namespace Text

/-- The letter behind the backslash, for the characters that have one. -/
def escapeLetter? (c : Char) : Option Char :=
  if c = '"' then some '"'
  else if c = '\\' then some '\\'
  else if c = '\n' then some 'n'
  else if c = '\t' then some 't'
  else if c = '\r' then some 'r'
  else if c = '\x00' then some '0'
  else none

/-- A character by its code point in hexadecimal. -/
def codePointEscape (c : Char) : List Char :=
  '\\' :: 'u' :: '\x7b' :: Nat.toDigits 16 c.toNat ++ ['\x7d']

/-- Whether a character can be seen on its own: it is printable and not ignored, and it does not
extend another one, unless it does so in a place of its own. -/
def isVisible (c : Char) : Bool :=
  isPrintable c && !isIgnorable c && (!isCombining c || isVoicingMark c)

/-- How one character is shown between quotes. -/
def quoteChar (c : Char) : List Char :=
  match escapeLetter? c with
  | some letter => ['\\', letter]
  | none => if isVisible c then [c] else codePointEscape c

def quoted (text : String) : String :=
  String.ofList ('"' :: text.toList.flatMap quoteChar ++ ['"'])

end Text
end Thoroughfare

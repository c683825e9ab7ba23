/-!
# Blanks, comments and lines

Blanks are spaces and tabs.  A line ends with a line feed, which a carriage return may precede.
A comment runs from a number sign to the end of its line.  No other control character may occur
outside texts.
-/

namespace Thoroughfare
namespace Toml

/-- A reader takes something from the front of a text, or refuses it. -/
abbrev Reader (β : Type) := List Char → Option (β × List Char)

/-- Whether a character is a blank. -/
def isBlank (c : Char) : Bool :=
  c = ' ' || c = '\t'

/-- Whether a character is a tab or no control character. -/
def isPlain (c : Char) : Bool :=
  c = '\t' || (' ' ≤ c && c ≠ '\x7f')

/-- A text without its leading blanks. -/
def dropBlanks (text : List Char) : List Char :=
  text.dropWhile isBlank

/-- The text behind a line end. -/
def newline? : List Char → Option (List Char)
  | '\n' :: rest => some rest
  | '\r' :: '\n' :: rest => some rest
  | _ => none

/-- A text without a leading comment. -/
def dropComment : List Char → List Char
  | '#' :: rest => rest.dropWhile isPlain
  | text => text

/-- The text behind the rest of a line, on which only blanks and a comment may stand. -/
def endLine? (text : List Char) : Option (List Char) :=
  match dropComment (dropBlanks text) with
  | [] => some []
  | rest => newline? rest

/-- A text without its leading blanks, line ends and comments. -/
def dropLines (inComment : Bool) : List Char → List Char
  | [] => []
  | '\n' :: rest => dropLines false rest
  | '\r' :: '\n' :: rest => dropLines false rest
  | c :: rest =>
      if inComment then if isPlain c then dropLines true rest else c :: rest
      else if isBlank c then dropLines false rest
      else if c = '#' then dropLines true rest
      else c :: rest

end Toml
end Thoroughfare

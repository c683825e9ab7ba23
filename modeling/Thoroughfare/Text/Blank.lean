import Thoroughfare.Text.Ranges

/-!
# Blank characters

The twenty-five characters with the property White_Space, and what is done with them: blanks
around a text are removed, and a text is cut into words at its blanks.
-/

namespace Thoroughfare
namespace Text

/-- The characters with the property White_Space. -/
def blankRanges : List (Nat × Nat) :=
  [(0x9, 0xD), (0x20, 0x20), (0x85, 0x85), (0xA0, 0xA0), (0x1680, 0x1680), (0x2000, 0x200A),
    (0x2028, 0x2029), (0x202F, 0x202F), (0x205F, 0x205F), (0x3000, 0x3000)]

def isBlank (c : Char) : Bool :=
  inRanges blankRanges c.toNat

/-- A text without the blanks at its beginning and end. -/
def trim (text : List Char) : List Char :=
  ((text.dropWhile isBlank).reverse.dropWhile isBlank).reverse

/-- The words of a text, with the letters of the current word in reverse. -/
def wordsFrom (current : List Char) : List Char → List (List Char)
  | [] => if current = [] then [] else [current.reverse]
  | c :: rest =>
      if isBlank c then
        if current = [] then wordsFrom [] rest else current.reverse :: wordsFrom [] rest
      else wordsFrom (c :: current) rest

def words (text : List Char) : List (List Char) :=
  wordsFrom [] text

end Text
end Thoroughfare

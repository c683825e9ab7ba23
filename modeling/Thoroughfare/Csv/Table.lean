import Thoroughfare.Csv.Records
import Thoroughfare.Decimal.Literal

/-!
# Typed rows

The first record of a table names its columns; the others are rows.  A reader declares the
columns it wants, and each row answers with one cell for each of them.  Columns are found by
name, in any order, and columns that nobody asked for are ignored.  When the names are not valid
text the declared order decides.

A row is refused when it is not as long as the header, when it is not valid text, or when a cell
does not fit; the first of these counts.
-/

namespace Thoroughfare
namespace Csv

/-- Why a row is refused. -/
inductive RowFault where
  | wrongLength
  | notText
  | badCell
deriving DecidableEq, Repr

/-- A refused row, by its number; the header has number zero. -/
structure Fault where
  kind : RowFault
  record : Nat
deriving DecidableEq, Repr

def text? (bytes : List UInt8) : Option String :=
  String.fromUTF8? ⟨bytes.toArray⟩

/-- The names of the columns; `none` if they are not valid text. -/
abbrev Header := Option (List String)

/-- The cell of a column in a row.  The outer `none` stands for a column that occurs twice, the
inner one for a column that is absent. -/
def cell? (header : List String) (cells : List String) (column : String) :
    Option (Option String) :=
  match (header.zip cells).filter fun entry => entry.1 = column with
  | [] => some none
  | [entry] => some (some entry.2)
  | _ => none

/-- The cells of the declared columns in a row. -/
def cells? (header : Header) (columns : List String) (cells : List String) :
    Option (List (Option String)) :=
  match header with
  | some names => columns.mapM (cell? names cells)
  | none => some (columns.zipIdx.map fun column => cells[column.2]?)

def readRow {ρ : Type} (width : Nat) (header : Header) (columns : List String)
    (decode : List (Option String) → Option ρ) (number : Nat) (record : Record UInt8) :
    Except Fault ρ :=
  if record.length ≠ width then .error ⟨.wrongLength, number⟩
  else
    match record.mapM text? with
    | none => .error ⟨.notText, number⟩
    | some cells =>
        match (cells? header columns cells).bind decode with
        | none => .error ⟨.badCell, number⟩
        | some row => .ok row

/-- The bytes of a file without the mark that some programs put in front of text. -/
def dropMark : List UInt8 → List UInt8
  | 0xEF :: 0xBB :: 0xBF :: rest => rest
  | bytes => bytes

/-- The rows of a file, each read or refused on its own. -/
def rows {ρ : Type} (columns : List String) (decode : List (Option String) → Option ρ)
    (bytes : List UInt8) : List (Except Fault ρ) :=
  match records (dropMark bytes) with
  | [] => []
  | names :: rest =>
      let header := names.mapM text?
      rest.zipIdx.map fun entry =>
        readRow names.length header columns decode (entry.2 + 1) entry.1

/-- A cell that must be present; its text may be empty. -/
def required (cell : Option String) : Option String :=
  cell

/-- A cell that may be absent or empty. -/
def optional (cell : Option String) : Option String :=
  cell.filter fun text => text ≠ ""

def number (cell : Option String) : Option Float :=
  cell.bind fun text => Decimal.readNumber? text.toList

/-- A cell that may be absent or empty and otherwise holds a number. -/
def optionalNumber (cell : Option String) : Option (Option Float) :=
  match optional cell with
  | none => some none
  | some text => (Decimal.readNumber? text.toList).map some

/-- A whole number up to `2^32 - 1`, in decimal or, behind `0x`, in hexadecimal; a plus sign may
stand in front of the digits. -/
def readWhole? (text : List Char) : Option Nat :=
  let value := match text with
    | '0' :: 'x' :: '+' :: digits => Numeral.readInBase? 16 digits
    | '0' :: 'x' :: digits => Numeral.readInBase? 16 digits
    | _ => Numeral.readSigned? text
  value.filter (· ≤ 4294967295)

def whole (cell : Option String) : Option Nat :=
  cell.bind fun text => readWhole? text.toList

end Csv
end Thoroughfare

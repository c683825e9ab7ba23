/-!
# Tables of comma-separated values

A table is a sequence of records, one to a line; empty lines are skipped.  Fields are separated
by commas.  A field that begins with a quote runs to the closing quote, may hold commas and line
ends, and stands for a quote where two are written; a quote elsewhere is an ordinary symbol.
Lines end with a line feed, a carriage return or both.

The same reader serves tables of characters and tables of bytes: it needs only the four symbols
that give a table its structure.
-/

namespace Thoroughfare
namespace Csv

/-- The symbols that give a table its structure. -/
class Symbols (σ : Type) where
  comma : σ
  quote : σ
  lineFeed : σ
  carriageReturn : σ

instance : Symbols Char where
  comma := ','
  quote := '"'
  lineFeed := '\n'
  carriageReturn := '\r'

instance : Symbols UInt8 where
  comma := 44
  quote := 34
  lineFeed := 10
  carriageReturn := 13

abbrev Record (σ : Type) := List (List σ)

/-- Where the reader stands: before a record, before a further field, inside a field without or
with quotes, or behind a quote inside a quoted field. -/
inductive Place where
  | record
  | field
  | bare
  | quoted
  | closing
deriving DecidableEq, Repr

variable {σ : Type} [DecidableEq σ] [Symbols σ]

def endsLine (c : σ) : Bool :=
  c = Symbols.lineFeed || c = Symbols.carriageReturn

/-- The record made of the finished fields and the current one, both held in reverse. -/
def close (fields : Record σ) (field : List σ) : Record σ :=
  (field.reverse :: fields).reverse

/-- Read on with `fields` the finished fields and `field` the current one, both in reverse. -/
def recordsFrom (place : Place) (fields : Record σ) (field : List σ) :
    List σ → List (Record σ)
  | [] =>
      match place with
      | .record => []
      | _ => [close fields field]
  | c :: rest =>
      match place with
      | .record | .field =>
          if c = Symbols.quote then recordsFrom .quoted fields [] rest
          else if c = Symbols.comma then recordsFrom .field ([] :: fields) [] rest
          else if endsLine c then
            match place with
            | .record => recordsFrom .record [] [] rest
            | _ => close fields [] :: recordsFrom .record [] [] rest
          else recordsFrom .bare fields [c] rest
      | .bare =>
          if c = Symbols.comma then recordsFrom .field (field.reverse :: fields) [] rest
          else if endsLine c then close fields field :: recordsFrom .record [] [] rest
          else recordsFrom .bare fields (c :: field) rest
      | .quoted =>
          if c = Symbols.quote then recordsFrom .closing fields field rest
          else recordsFrom .quoted fields (c :: field) rest
      | .closing =>
          if c = Symbols.quote then recordsFrom .quoted fields (c :: field) rest
          else if c = Symbols.comma then recordsFrom .field (field.reverse :: fields) [] rest
          else if endsLine c then close fields field :: recordsFrom .record [] [] rest
          else recordsFrom .bare fields (c :: field) rest

def records (text : List σ) : List (Record σ) :=
  recordsFrom .record [] [] text

end Csv
end Thoroughfare

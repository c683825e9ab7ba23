/-!
# Values of a TOML document

A value is a text, a whole number, a floating-point number, a truth value, a moment in time, an
array, a table, or a sequence of tables that were opened one after the other.  A table remembers
how it came about, because that decides what may still be added to it.
-/

namespace Thoroughfare
namespace Toml

/-- A day of the calendar. -/
structure Date where
  year : Nat
  month : Nat
  day : Nat
deriving DecidableEq, Repr

/-- A time of day; the fraction of the second is kept as its digits. -/
structure DayTime where
  hour : Nat
  minute : Nat
  second : Nat
  fraction : List Char
deriving DecidableEq, Repr

/-- A date, a time, or both; if both, perhaps with minutes ahead of universal time. -/
structure Moment where
  date? : Option Date
  time? : Option DayTime
  offset? : Option Int
deriving DecidableEq, Repr

/-- How a table came about. -/
inductive Origin where
  /-- By a header of its own. -/
  | named
  /-- By a header of a table inside it. -/
  | implied
  /-- By a dotted key. -/
  | dotted
  /-- Between braces. -/
  | inline
deriving DecidableEq, Repr

/-- A value. -/
inductive Value where
  | text (characters : List Char)
  | whole (n : Int)
  | number (x : Float)
  | truth (b : Bool)
  | moment (m : Moment)
  | array (items : List Value)
  | table (origin : Origin) (fields : List (String × Value))
  | tables (elements : List (List (String × Value)))

instance : Inhabited Value :=
  ⟨.truth false⟩

/-- The fields of a table, in the order in which they were added. -/
abbrev Fields := List (String × Value)

namespace Fields

def find? (fields : Fields) (key : String) : Option Value :=
  fields.lookup key

def replace (fields : Fields) (key : String) (value : Value) : Fields :=
  fields.map fun field => if field.1 = key then (key, value) else field

def append (fields : Fields) (key : String) (value : Value) : Fields :=
  fields ++ [(key, value)]

end Fields

end Toml
end Thoroughfare

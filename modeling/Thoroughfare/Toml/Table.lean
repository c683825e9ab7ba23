import Thoroughfare.Toml.Value

/-!
# Adding to tables

No key is given twice, and no table is opened twice.  A dotted key may go into tables that dotted
keys made, or that only exist because of what is inside them; a header may go through any table
that is not written between braces.  In a sequence of tables the last one is meant.
-/

namespace Thoroughfare
namespace Toml
namespace Fields

/-- Add a value under a dotted key. -/
def assign (value : Value) : List String → Fields → Option Fields
  | [], _ => none
  | [key], fields =>
      match fields.find? key with
      | none => some (fields.append key value)
      | some _ => none
  | key :: next :: path, fields =>
      match fields.find? key with
      | none => (assign value (next :: path) []).map fun inner =>
          fields.append key (.table .dotted inner)
      | some (.table .dotted inner) => (assign value (next :: path) inner).map fun inner =>
          fields.replace key (.table .dotted inner)
      | some (.table .implied inner) =>
          if path = [] then none
          else (assign value (next :: path) inner).map fun inner =>
            fields.replace key (.table .implied inner)
      | some (.tables elements) =>
          match path, elements.getLast? with
          | _ :: _, some last => (assign value (next :: path) last).map fun last =>
              fields.replace key (.tables (elements.dropLast ++ [last]))
          | _, _ => none
      | some _ => none

/-- Change the table at the end of a path of headers; missing tables come into being. -/
def modifyAt (change : Fields → Option Fields) : List String → Fields → Option Fields
  | [], fields => change fields
  | key :: path, fields =>
      match fields.find? key with
      | none => (modifyAt change path []).map fun inner =>
          fields.append key (.table .implied inner)
      | some (.table .inline _) => none
      | some (.table origin inner) => (modifyAt change path inner).map fun inner =>
          fields.replace key (.table origin inner)
      | some (.tables elements) =>
          match elements.getLast? with
          | none => none
          | some last => (modifyAt change path last).map fun last =>
              fields.replace key (.tables (elements.dropLast ++ [last]))
      | some _ => none

/-- Open a table under a header. -/
def openTable (key : String) (fields : Fields) : Option Fields :=
  match fields.find? key with
  | none => some (fields.append key (.table .named []))
  | some (.table .implied inner) => some (fields.replace key (.table .named inner))
  | some _ => none

/-- Open the next table of a sequence. -/
def openElement (key : String) (fields : Fields) : Option Fields :=
  match fields.find? key with
  | none => some (fields.append key (.tables [[]]))
  | some (.tables elements) => some (fields.replace key (.tables (elements ++ [[]])))
  | some _ => none

/-- Add some values under dotted keys. -/
def assignAll : List (List String × Value) → Fields → Option Fields
  | [], fields => some fields
  | (path, value) :: rest, fields => (assign value path fields).bind (assignAll rest)

end Fields
end Toml
end Thoroughfare

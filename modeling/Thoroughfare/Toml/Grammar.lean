import Thoroughfare.Toml.Quoted
import Thoroughfare.Toml.Scalar
import Thoroughfare.Toml.Table

/-!
# Keys, values and statements

A document is a sequence of statements, one to a line: a key with its value, the header of a
table, or the header of the next table of a sequence.  Keys may be dotted.  Arrays may run over
several lines and end in a comma; tables between braces may not.  Keys are less than eighty parts
long, and arrays and tables between braces are nested less than eighty deep.
-/

namespace Thoroughfare
namespace Toml

/-- The greatest number of parts of a key, and the greatest depth of values inside each other. -/
def nestingLimit : Nat :=
  79

/-- Whether a character may stand in a key without quotes. -/
def isBare (c : Char) : Bool :=
  c.isAlphanum || c = '_' || c = '-'

def readKey : Reader String
  | '"' :: rest => (Quoted.readEscaped rest).map fun result => (String.ofList result.1, result.2)
  | '\'' :: rest => (Quoted.readLiteral rest).map fun result => (String.ofList result.1, result.2)
  | text =>
      let bare := text.takeWhile isBare
      if bare = [] then none else some (String.ofList bare, text.dropWhile isBare)

/-- A key of up to so many parts with dots between them, and the blanks around it. -/
def readPath : Nat → Reader (List String)
  | 0, _ => none
  | parts + 1, text =>
      match readKey (dropBlanks text) with
      | none => none
      | some (key, rest) =>
          match dropBlanks rest with
          | '.' :: rest =>
              (readPath parts rest).map fun result => (key :: result.1, result.2)
          | rest => some ([key], rest)

/-- The rest of an array of up to so many items. -/
def readItems (value : Reader Value) : Nat → Reader (List Value)
  | 0, _ => none
  | items + 1, text =>
      match dropLines false text with
      | ']' :: rest => some ([], rest)
      | text =>
          match value text with
          | none => none
          | some (item, rest) =>
              match dropLines false rest with
              | ',' :: rest =>
                  (readItems value items rest).map fun result => (item :: result.1, result.2)
              | ']' :: rest => some ([item], rest)
              | _ => none

/-- A key, an equals sign and a value. -/
def readAssignment (value : Reader Value) (text : List Char) :
    Option ((List String × Value) × List Char) := do
  let (path, rest) ← readPath nestingLimit text
  match rest with
  | '=' :: rest =>
      let (item, rest) ← value (dropBlanks rest)
      return ((path, item), rest)
  | _ => none

/-- The rest of a table between braces with up to so many keys, of which one comes next. -/
def readAssignments (value : Reader Value) : Nat → Reader (List (List String × Value))
  | 0, _ => none
  | keys + 1, text =>
      match readAssignment value text with
      | none => none
      | some (assignment, rest) =>
          match dropBlanks rest with
          | ',' :: rest =>
              (readAssignments value keys rest).map fun result =>
                (assignment :: result.1, result.2)
          | '\x7d' :: rest => some ([assignment], rest)
          | _ => none

/-- The rest of a table between braces. -/
def readInline (value : Reader Value) (text : List Char) : Option (Value × List Char) := do
  match dropBlanks text with
  | '\x7d' :: rest => return (.table .inline [], rest)
  | text =>
      let (assignments, rest) ← readAssignments value text.length text
      let fields ← Fields.assignAll assignments []
      return (.table .inline fields, rest)

/-- A value with up to so many levels of values inside it. -/
def readValue : Nat → Reader Value
  | depth, text =>
      match text with
      | [] => none
      | '"' :: _ | '\'' :: _ =>
          (Quoted.read text).map fun result => (.text result.1, result.2)
      | '[' :: rest =>
          match depth with
          | 0 => none
          | depth + 1 =>
              (readItems (readValue depth) text.length rest).map fun result =>
                (.array result.1, result.2)
      | '\x7b' :: rest =>
          match depth with
          | 0 => none
          | depth + 1 => readInline (readValue depth) rest
      | 't' :: 'r' :: 'u' :: 'e' :: rest => some (.truth true, rest)
      | 'f' :: 'a' :: 'l' :: 's' :: 'e' :: rest => some (.truth false, rest)
      | _ => Scalar.read text

/-- A line of a document. -/
inductive Statement where
  | assign (path : List String) (value : Value)
  | openTable (path : List String)
  | openElement (path : List String)

/-- A statement with the end of its line. -/
def readStatement : List Char → Option (Statement × List Char)
  | '[' :: '[' :: text => do
      let (path, rest) ← readPath nestingLimit text
      match rest with
      | ']' :: ']' :: rest => return (.openElement path, ← endLine? rest)
      | _ => none
  | '[' :: text => do
      let (path, rest) ← readPath nestingLimit text
      match rest with
      | ']' :: rest => return (.openTable path, ← endLine? rest)
      | _ => none
  | text => do
      let ((path, value), rest) ← readAssignment (readValue nestingLimit) text
      return (.assign path value, ← endLine? rest)

/-- The statements on up to so many lines. -/
def readStatements : Nat → List Char → Option (List Statement)
  | 0, text => if dropLines false text = [] then some [] else none
  | lines + 1, text =>
      match dropLines false text with
      | [] => some []
      | text =>
          match readStatement text with
          | none => none
          | some (statement, rest) => (readStatements lines rest).map (statement :: ·)

end Toml
end Thoroughfare

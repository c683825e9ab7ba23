import Thoroughfare.Toml.Grammar

/-!
# Documents

A document is read into the fields of its outermost table.  Statements count one after the other;
keys belong to the table that the last header opened.
-/

namespace Thoroughfare
namespace Toml

/-- A document of which some statements were taken. -/
structure Document where
  fields : Fields
  /-- The path of the table that is open. -/
  current : List String

namespace Document

def empty : Document :=
  ⟨[], []⟩

def take (d : Document) : Statement → Option Document
  | .assign path value =>
      (Fields.modifyAt (Fields.assign value path) d.current d.fields).map fun fields =>
        { d with fields := fields }
  | .openTable path =>
      path.getLast?.bind fun key =>
        (Fields.modifyAt (Fields.openTable key) path.dropLast d.fields).map fun fields =>
          ⟨fields, path⟩
  | .openElement path =>
      path.getLast?.bind fun key =>
        (Fields.modifyAt (Fields.openElement key) path.dropLast d.fields).map fun fields =>
          ⟨fields, path⟩

/-- A text without the mark that some programs put in front of text. -/
def dropMark : List Char → List Char
  | '\uFEFF' :: text => text
  | text => text

/-- The fields that a text denotes, if it is a document. -/
def read? (text : List Char) : Option Fields := do
  let body := dropMark text
  let statements ← readStatements body.length body
  let d ← statements.foldlM take empty
  return d.fields

end Document
end Toml
end Thoroughfare

import Thoroughfare.Csv.Library

/-!
# Buffered writers

Records are collected in a buffer and passed to a sink when the buffer is full or flushed.  A sink
may refuse everything.
-/

namespace Thoroughfare
namespace Csv

section Writing

variable {σ : Type} [DecidableEq σ] [Symbols σ]

/-- Whether a field can only be written between quotes. -/
def needsQuotes (field : List σ) : Bool :=
  field.any fun c => c = Symbols.comma || c = Symbols.quote || endsLine c

/-- A field as it is written: between quotes only if it must be, quotes inside twice. -/
def writeField (field : List σ) : List σ :=
  if needsQuotes field then
    Symbols.quote ::
      field.flatMap (fun c => if c = Symbols.quote then [c, c] else [c]) ++ [Symbols.quote]
  else field

def joinFields : Record σ → List σ
  | [] => []
  | [field] => writeField field
  | field :: rest => writeField field ++ Symbols.comma :: joinFields rest

/-- A record as a line; the record of one empty field is written with quotes. -/
def writeRecord (record : Record σ) : List σ :=
  (if record = [[]] then [Symbols.quote, Symbols.quote] else joinFields record) ++
    [Symbols.lineFeed]

def write (table : List (Record σ)) : List σ :=
  table.flatMap writeRecord

end Writing

/-- Where records go. -/
inductive Sink where
  | accepting
  | refusing
deriving DecidableEq, Repr

/-- The number of symbols that the buffer holds. -/
def bufferSize : Nat :=
  8192

/-- A writer with a buffer. -/
structure Buffer where
  sink : Sink
  /-- What the sink has taken in. -/
  passed : Array Char
  /-- What is in the buffer. -/
  kept : Array Char
deriving DecidableEq, Repr

namespace Buffer

def empty (sink : Sink) : Buffer :=
  ⟨sink, #[], #[]⟩

/-- How many of some symbols are passed on because they do not fit into the buffer: whole buffers,
as long as more symbols are left. -/
def overflow (count : Nat) : Nat :=
  (count - 1) / bufferSize * bufferSize

/-- Collect symbols.  Those that fit are kept even when the sink refuses the others. -/
def put (b : Buffer) (symbols : List Char) : Bool × Buffer :=
  let all := b.kept ++ symbols
  let excess := overflow all.size
  if excess = 0 then (true, { b with kept := all })
  else
    match b.sink with
    | .accepting =>
        (true, { b with
          passed := b.passed ++ all.extract 0 excess
          kept := all.extract excess all.size })
    | .refusing => (false, { b with kept := all.extract 0 bufferSize })

def putRecord (b : Buffer) (record : Record Char) : Bool × Buffer :=
  b.put (Csv.writeRecord record)

def flush (b : Buffer) : Bool × Buffer :=
  match b.sink with
  | .accepting => (true, { b with passed := b.passed ++ b.kept, kept := #[] })
  | .refusing => (false, b)

def text? (b : Buffer) : Option (List Char) :=
  match b.sink with
  | .accepting => some (b.passed ++ b.kept).toList
  | .refusing => none

instance : Library Buffer Sink where
  ofSink := empty
  writeRecord := putRecord
  serialize b cells := b.putRecord (cells.map Cell.content)
  flush := flush
  intoText? := text?

end Buffer

/-- A table that is written through a buffer. -/
abbrev Writer :=
  TableWriter Buffer

/-- A table with its header, which the buffer has room for. -/
def Writer.begin (sink : Sink) (header : Record Char) : Writer :=
  ⟨((Buffer.empty sink).putRecord header).2, 0, none⟩

end Csv
end Thoroughfare

import Thoroughfare.Csv.Records
import Thoroughfare.Decimal.Numeral

/-!
# Writing tables row by row

Tables are written with a library.  It makes records of the cells that it is given, may keep back
what it has made for a while, and tells of each call whether it succeeded.  Whoever writes rows is
not told of a failure; the table keeps the first one until someone asks for it.
-/

namespace Thoroughfare
namespace Csv

/-- A cell of a row. -/
inductive Cell where
  | number (n : Nat)
  | text (content : List Char)
  /-- A cell that is left out. -/
  | absent
deriving DecidableEq, Repr

namespace Cell

/-- A number that may be left out. -/
def ofNumber? : Option Nat → Cell
  | some n => number n
  | none => absent

/-- What stands for a cell in a record. -/
def content : Cell → List Char
  | number n => Numeral.write n
  | text content => content
  | absent => []

end Cell

/-- A library for writers that pass what they are given on to a sink.  Each call says whether it
succeeded, and leaves a writer in any case. -/
class Library (ω : Type) (γ : outParam Type) where
  ofSink : γ → ω
  writeRecord : ω → Record Char → Bool × ω
  /-- Write the record of some cells. -/
  serialize : ω → List Cell → Bool × ω
  /-- Pass on whatever was kept back. -/
  flush : ω → Bool × ω
  /-- What the sink has taken in at the end; none if something kept back cannot be passed on. -/
  intoText? : ω → Option (List Char)

/-- How writing can fail. -/
inductive WriteFault where
  /-- A row could not be written. -/
  | row
  /-- What was kept back could not be passed on. -/
  | flush
deriving DecidableEq, Repr

/-- A table that is being written. -/
structure TableWriter (ω : Type) where
  writer : ω
  /-- The number of rows written so far, without the header. -/
  rows : Nat
  /-- The first failure that nobody has asked for yet. -/
  fault? : Option WriteFault
deriving DecidableEq, Repr

namespace TableWriter

variable {ω γ : Type}

/-- Note a failure unless there was one before. -/
def note (w : TableWriter ω) (fault : WriteFault) : TableWriter ω :=
  { w with fault? := w.fault?.or (some fault) }

/-- Ask for the failure, which is then forgotten. -/
def takeFault (w : TableWriter ω) : Option WriteFault × TableWriter ω :=
  (w.fault?, { w with fault? := none })

variable [Library ω γ]

/-- A table that has a header and no rows yet. -/
def create (sink : γ) (header : Record Char) : Except WriteFault (TableWriter ω) :=
  match Library.writeRecord (Library.ofSink sink : ω) header with
  | (true, writer) => .ok ⟨writer, 0, none⟩
  | (false, _) => .error .row

def add (w : TableWriter ω) (cells : List Cell) : TableWriter ω :=
  match Library.serialize w.writer cells with
  | (true, writer) => { w with writer := writer, rows := w.rows + 1 }
  | (false, writer) => { w with writer := writer }.note .row

def flush (w : TableWriter ω) : TableWriter ω :=
  match Library.flush w.writer with
  | (true, writer) => { w with writer := writer }
  | (false, writer) => { w with writer := writer }.note .flush

/-- End a table: its text, or the first failure. -/
def finish (w : TableWriter ω) : Except WriteFault (List Char) :=
  match w.fault? with
  | some fault => .error fault
  | none =>
      match Library.flush w.writer with
      | (false, _) => .error .flush
      | (true, writer) =>
          match Library.intoText? writer with
          | some text => .ok text
          | none => .error .flush

end TableWriter

end Csv
end Thoroughfare

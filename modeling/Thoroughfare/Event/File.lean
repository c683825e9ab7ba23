import Thoroughfare.Csv.Writer
import Thoroughfare.Decimal.Numeral
import Thoroughfare.Event.Bus

/-!
# Event tables

Events are written as a table with one row for each.  The link is left out for events without
one, and only an entry from another link names the link that was left.  The table can be read
again.
-/

namespace Thoroughfare
namespace EventTable

def header : Csv.Record Char :=
  ["time", "agent", "type", "link", "from_link"].map String.toList

/-- A row of a table of events. -/
structure Row where
  time : Nat
  agent : Nat
  kind : String
  link? : Option Nat
  /-- The link that was left, for entries from another link only. -/
  left? : Option Nat

namespace Row

def ofEvent (e : Event) : Row :=
  ⟨e.time, e.agent.index, e.kind.label, e.kind.link?.map Ident.index, e.kind.left?.map Ident.index⟩

def cells (r : Row) : List Csv.Cell :=
  [.number r.time, .number r.agent, .text r.kind.toList, .ofNumber? r.link?, .ofNumber? r.left?]

end Row

/-- The record of an event in a table. -/
def row (e : Event) : Csv.Record Char :=
  (Row.ofEvent e).cells.map Csv.Cell.content

def readLink? : List Char → Option (Option LinkId)
  | [] => some none
  | digits => (Numeral.read? digits).map fun index => some ⟨index⟩

/-- The kind of event with a name and links. -/
def kind? (label : String) (link? left? : Option LinkId) : Option EventKind :=
  match label, link?, left? with
  | "actend", some link, none => some (.activityEnd link)
  | "departure", some link, none => some (.departure link)
  | "entered link", some link, some left => some (.linkEnter left link)
  | "arrival", some link, none => some (.arrival link)
  | "actstart", some link, none => some (.activityStart link)
  | "finished", none, none => some .finished
  | "stuck", some link, none => some (.stranded link)
  | _, _, _ => none

def ofRow? : Csv.Record Char → Option Event
  | [time, agent, label, link, left] => do
      let time ← Numeral.read? time
      let agent ← Numeral.read? agent
      let link? ← readLink? link
      let left? ← readLink? left
      let kind ← kind? (String.ofList label) link? left?
      return ⟨time, ⟨agent⟩, kind⟩
  | _ => none

def read? (text : List Char) : Option (List Event) :=
  match Csv.records text with
  | first :: rows => if first = header then rows.mapM ofRow? else none
  | [] => none

def begin (sink : Csv.Sink) : Csv.Writer :=
  .begin sink header

section Library

variable {ω γ : Type} [Csv.Library ω γ]

def create (sink : γ) : Except Csv.WriteFault (Csv.TableWriter ω) :=
  Csv.TableWriter.create sink header

/-- Write the events that a subscriber is told of; the end of the run flushes the table. -/
def hear (w : Csv.TableWriter ω) : Notice → Csv.TableWriter ω
  | .event e => w.add (Row.ofEvent e).cells
  | .stepEnd _ => w
  | .runEnd _ => w.flush

def hearAll (w : Csv.TableWriter ω) (notices : List Notice) : Csv.TableWriter ω :=
  notices.foldl hear w

end Library

end EventTable
end Thoroughfare

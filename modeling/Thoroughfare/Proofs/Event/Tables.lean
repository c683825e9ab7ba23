import Thoroughfare.Event.File
import Thoroughfare.Proofs.Csv.Library
import Thoroughfare.Proofs.Decimal.Numerals
import Thoroughfare.Proofs.Event.Deliveries

/-!
# Tables of events

A row of an event table needs no quotes, and it tells which event it was made for: the numbers are
read back, and the name of a kind says which links are given.  So the table that a subscriber writes
has a line for each event, in the order in which it heard of them, and from its text all the events
are found again.
-/

namespace Thoroughfare
namespace EventTable

open Csv

/-! ## Rows without quotes -/

theorem isPlain_of_mem_write {n : Nat} {c : Char} (hc : c ∈ Numeral.write n) : IsPlain c := by
  have hdigit : c.isDigit = true := by
    obtain ⟨-, hdigits, -⟩ := Numeral.read?_eq_some_iff.1 (Numeral.read?_write n)
    exact hdigits c hc
  refine ⟨?_, ?_, Bool.or_eq_false_iff.2 ⟨decide_eq_false ?_, decide_eq_false ?_⟩⟩ <;>
  · rintro rfl
    exact absurd hdigit (by decide)

theorem isPlain_of_mem_label {k : EventKind} {c : Char} (hc : c ∈ k.label.toList) : IsPlain c := by
  have hlabel : needsQuotes k.label.toList = false := by
    cases k <;> rw [EventKind.label] <;> decide
  exact needsQuotes_eq_false_iff.1 hlabel c hc

theorem isPlain_of_mem_ofNumber? {n? : Option Nat} {c : Char}
    (hc : c ∈ (Cell.ofNumber? n?).content) : IsPlain c := by
  cases n? with
  | none => cases hc
  | some n => exact isPlain_of_mem_write hc

theorem isSimple_header : IsSimple header where
  several := by decide
  plain field hfield := needsQuotes_eq_false_iff.1
    ((by decide : ∀ field ∈ header, needsQuotes field = false) field hfield)

theorem isSimple_row (e : Event) : IsSimple (row e) where
  several := Nat.le_add_left 2 3
  plain := by
    simp only [row, Row.cells, List.map_cons, List.map_nil, List.forall_mem_cons]
    exact ⟨fun _ => isPlain_of_mem_write, fun _ => isPlain_of_mem_write,
      fun _ => isPlain_of_mem_label, fun _ => isPlain_of_mem_ofNumber?,
      fun _ => isPlain_of_mem_ofNumber?, List.forall_mem_nil _⟩

theorem length_cells (e : Event) : (Row.ofEvent e).cells.length = header.length :=
  rfl

/-! ## Rows that are read -/

theorem readLink?_content (link? : Option LinkId) :
    readLink? (Cell.ofNumber? (link?.map Ident.index)).content = some link? := by
  cases link? with
  | none => rfl
  | some link =>
      have hread := Numeral.read?_write link.index
      rw [Option.map_some, Cell.ofNumber?, Cell.content, readLink?]
      · rw [hread]
        rfl
      · exact Numeral.write_ne_nil link.index

/-- The name of a kind and its links make the kind. -/
theorem kind?_label (k : EventKind) : kind? k.label k.link? k.left? = some k := by
  cases k <;> rfl

theorem row_eq (e : Event) :
    row e = [Numeral.write e.time, Numeral.write e.agent.index, e.kind.label.toList,
      (Cell.ofNumber? (e.kind.link?.map Ident.index)).content,
      (Cell.ofNumber? (e.kind.left?.map Ident.index)).content] :=
  rfl

theorem ofRow?_row (e : Event) : ofRow? (row e) = some e := by
  rw [row_eq, ofRow?, Numeral.read?_write, Numeral.read?_write, readLink?_content,
    readLink?_content, String.ofList_toList]
  simp only [Option.bind_eq_bind, Option.bind_some, kind?_label]
  rfl

theorem mapM_ofRow?_row (events : List Event) : (events.map row).mapM ofRow? = some events := by
  have hread : ofRow? ∘ row = fun e => pure e := funext ofRow?_row
  rw [List.mapM_map, hread, List.mapM_pure, List.map_id']
  rfl

theorem records_lines (events : List Event) :
    Csv.records ((header :: events.map row).flatMap line) = header :: events.map row := by
  refine Csv.records_flatMap_line (List.forall_mem_cons.2 ⟨isSimple_header, ?_⟩)
  rw [List.forall_mem_map]
  exact fun e _ => isSimple_row e

theorem read?_lines (events : List Event) :
    read? ((header :: events.map row).flatMap line) = some events := by
  rw [read?, records_lines]
  exact (if_pos rfl).trans (mapM_ofRow?_row events)

example : row ⟨5, ⟨1⟩, .linkEnter ⟨0⟩ ⟨3⟩⟩ =
    ["5", "1", "entered link", "3", "0"].map String.toList := by
  decide

/-! ## What a subscriber writes -/

section Library

variable {ω γ : Type} [Library ω γ] {sink : γ} {Carries : ω → List Char → Option Nat → Prop}
  {w : TableWriter ω} {table : List (Csv.Record Char)}

theorem holds_hear (hlibrary : Library.Documented sink Carries) (h : w.Holds Carries header table)
    (notice : Notice) :
    (hear w notice).Holds Carries header (table ++ (notice.event?.map row).toList) := by
  cases notice with
  | event e => exact h.add hlibrary (isSimple_row e) (length_cells e)
  | stepEnd time => exact (List.append_nil table).symm ▸ h
  | runEnd time => exact (List.append_nil table).symm ▸ h.flush hlibrary

theorem holds_hearAll (hlibrary : Library.Documented sink Carries)
    (h : w.Holds Carries header table) (notices : List Notice) :
    (hearAll w notices).Holds Carries header
      (table ++ (notices.filterMap Notice.event?).map row) := by
  induction notices generalizing w table with
  | nil => exact (List.append_nil table).symm ▸ h
  | cons notice rest ih =>
      have hrest := ih (holds_hear hlibrary h notice)
      rw [List.append_assoc] at hrest
      cases notice <;> exact hrest

/-- With a library that does what its documentation says, a table is begun, and a subscriber that
writes it has, at any time, written the header and one line for each event that it was told of, in
the order of telling; it has counted these lines, and there is no failure to ask for.  The text
falls apart into just these rows, the events are read back from it, and whoever was told of other
events has written another text. -/
theorem tables_lose_nothing (hlibrary : Library.Documented sink Carries) :
    ∃ first : TableWriter ω, create sink = .ok first ∧ ∀ notices,
      let w := hearAll first notices
      let events := notices.filterMap Notice.event?
      let text := (header :: events.map row).flatMap fun record =>
        [','].intercalate record ++ ['\n']
      w.rows = events.length ∧ w.takeFault = (none, w) ∧ w.finish = .ok text ∧
      Csv.records text = header :: events.map row ∧ read? text = some events ∧
      ∀ others, (hearAll first others).finish = w.finish ↔
        others.filterMap Notice.event? = events := by
  obtain ⟨first, hfirst, hholds⟩ := TableWriter.exists_create hlibrary isSimple_header
  refine ⟨first, hfirst, fun notices => ?_⟩
  intro w events text
  have hall : ∀ notices, (hearAll first notices).Holds Carries header
      ((notices.filterMap Notice.event?).map row) :=
    holds_hearAll hlibrary hholds
  have hw := hall notices
  refine ⟨?_, hw.takeFault_eq, hw.finish_eq hlibrary, records_lines events, read?_lines events,
    fun others => ?_⟩
  · rw [hw.rows_eq, List.length_map]
  · rw [hw.finish_eq hlibrary, (hall others).finish_eq hlibrary]
    constructor
    · intro hsame
      have hread := read?_lines (others.filterMap Notice.event?)
      rw [Except.ok.inj hsame, read?_lines] at hread
      exact (Option.some.inj hread).symm
    · intro hevents
      rw [hevents]

end Library

/-- A trip from one link to another through a writer with a buffer. -/
theorem tables_lose_nothing_trip :
    Library.Documented Sink.accepting Buffer.Carries ∧
    ∃ first : Csv.Writer, create Sink.accepting = .ok first ∧
      let w := hearAll first [.event ⟨0, ⟨7⟩, .departure ⟨0⟩⟩, .stepEnd 0,
        .event ⟨1, ⟨7⟩, .linkEnter ⟨0⟩ ⟨1⟩⟩, .event ⟨1, ⟨8⟩, .finished⟩, .stepEnd 1, .runEnd 1]
      w.rows = 3 ∧ w.finish = .ok
        "time,agent,type,link,from_link\n0,7,departure,0,\n1,7,entered link,1,0\n1,8,finished,,\n".toList := by
  obtain ⟨first, hfirst, hall⟩ := tables_lose_nothing Buffer.documented
  obtain ⟨hrows, -, hfinish, -⟩ := hall [.event ⟨0, ⟨7⟩, .departure ⟨0⟩⟩, .stepEnd 0,
    .event ⟨1, ⟨7⟩, .linkEnter ⟨0⟩ ⟨1⟩⟩, .event ⟨1, ⟨8⟩, .finished⟩, .stepEnd 1, .runEnd 1]
  exact ⟨Buffer.documented, first, hfirst, hrows, hfinish.trans (by decide)⟩

/-- The buffer has room for the header, so a table can always be begun with it. -/
theorem create_eq_begin (sink : Sink) :
    (create sink : Except WriteFault Csv.Writer) = .ok (begin sink) := by
  have hfits : (Csv.writeRecord header).length ≤ bufferSize := by decide
  exact Writer.create_eq_begin sink hfits

end EventTable
end Thoroughfare

import Thoroughfare.Proofs.Csv.Written

/-!
# Tables written with a library

Nothing is known of a library but what its documentation says, call by call: simple records become
lines, cells become the record of what stands for them, and a sink that takes in everything gives at
the end what was written.  From this follows what a whole table holds that was written with it.  A
writer with a buffer keeps what the documentation promises.
-/

namespace Thoroughfare
namespace Csv

/-- What the documentation of a library says about writers into a sink that takes in everything.
`Carries w text width?` means that the lines written with `w` so far are `text`, and that the
records, if there are any, have `width?` fields. -/
structure Library.Documented {ω γ : Type} [Library ω γ] (sink : γ)
    (Carries : ω → List Char → Option Nat → Prop) : Prop where
  ofSink : Carries (Library.ofSink sink) [] none
  /-- A simple record is written without quotes, if it is not shorter or longer than others. -/
  writeRecord : ∀ w text width? record, Carries w text width? → IsSimple record →
    (∀ width ∈ width?, record.length = width) →
      ∃ w', Library.writeRecord w record = (true, w') ∧
        Carries w' (text ++ line record) (some record.length)
  /-- Numbers are written in decimal, texts as they are, and nothing for what is left out. -/
  serialize : ∀ w text width? cells, Carries w text width? → IsSimple (cells.map Cell.content) →
    (∀ width ∈ width?, cells.length = width) →
      ∃ w', Library.serialize w cells = (true, w') ∧
        Carries w' (text ++ line (cells.map Cell.content)) (some cells.length)
  flush : ∀ w text width?, Carries w text width? →
    ∃ w', Library.flush w = (true, w') ∧ Carries w' text width?
  intoText? : ∀ w text width?, Carries w text width? → Library.intoText? w = some text

/-! ## Whole tables -/

namespace TableWriter

/-- A table has a header and some rows, all of which were counted, and no failure. -/
structure Holds {ω : Type} (Carries : ω → List Char → Option Nat → Prop) (header : Record Char)
    (w : TableWriter ω) (table : List (Record Char)) : Prop where
  carries : Carries w.writer ((header :: table).flatMap line) (some header.length)
  rows_eq : w.rows = table.length
  unharmed : w.fault? = none

variable {ω γ : Type} [Library ω γ] {sink : γ} {Carries : ω → List Char → Option Nat → Prop}
  {header : Record Char} {w : TableWriter ω} {table : List (Record Char)} {cells : List Cell}

theorem exists_create (hlibrary : Library.Documented sink Carries) (hheader : IsSimple header) :
    ∃ w : TableWriter ω, create sink header = .ok w ∧ w.Holds Carries header [] := by
  obtain ⟨w', hwrite, hcarries⟩ :=
    hlibrary.writeRecord _ _ _ header hlibrary.ofSink hheader nofun
  refine ⟨⟨w', 0, none⟩, by rw [create, hwrite], ?_, rfl, rfl⟩
  rwa [List.flatMap_singleton]

theorem Holds.add (h : w.Holds Carries header table) (hlibrary : Library.Documented sink Carries)
    (hcells : IsSimple (cells.map Cell.content)) (hlength : cells.length = header.length) :
    (w.add cells).Holds Carries header (table ++ [cells.map Cell.content]) := by
  have hwidth : ∀ width ∈ some header.length, cells.length = width :=
    fun width hwidth => hlength.trans (Option.some.inj hwidth)
  obtain ⟨w', hwrite, hcarries⟩ := hlibrary.serialize _ _ _ cells h.carries hcells hwidth
  rw [TableWriter.add, hwrite]
  refine ⟨?_, ?_, h.unharmed⟩
  · rw [← List.cons_append, List.flatMap_append, List.flatMap_singleton, ← hlength]
    exact hcarries
  · rw [List.length_append, List.length_singleton, ← h.rows_eq]

theorem Holds.flush (h : w.Holds Carries header table)
    (hlibrary : Library.Documented sink Carries) : w.flush.Holds Carries header table := by
  obtain ⟨w', hflush, hcarries⟩ := hlibrary.flush _ _ _ h.carries
  rw [TableWriter.flush, hflush]
  exact ⟨hcarries, h.rows_eq, h.unharmed⟩

theorem Holds.takeFault_eq (h : w.Holds Carries header table) : w.takeFault = (none, w) := by
  rw [takeFault, h.unharmed, ← h.unharmed]

theorem Holds.finish_eq (h : w.Holds Carries header table)
    (hlibrary : Library.Documented sink Carries) :
    w.finish = .ok ((header :: table).flatMap line) := by
  obtain ⟨w', hflush, hcarries⟩ := hlibrary.flush _ _ _ h.carries
  simp only [finish, h.unharmed, hflush, hlibrary.intoText? _ _ _ hcarries]

end TableWriter

/-! ## Writers with a buffer -/

namespace Buffer

/-- The sink has taken in the beginning of a text, and the rest is in the buffer. -/
def Carries (b : Buffer) (text : List Char) (_ : Option Nat) : Prop :=
  b.sink = .accepting ∧ (b.passed ++ b.kept).toList = text

theorem overflow_le (count : Nat) : overflow count ≤ count :=
  Nat.le_trans (Nat.div_mul_le_self _ _) (Nat.sub_le _ _)

/-- No symbol is lost when the buffer overflows. -/
theorem Carries.put {b : Buffer} {text : List Char} {width? : Option Nat}
    (h : b.Carries text width?) (symbols : List Char) (width?' : Option Nat) :
    ∃ b', b.put symbols = (true, b') ∧ b'.Carries (text ++ symbols) width?' := by
  obtain ⟨haccepting, htext⟩ := h
  have hall : (b.passed ++ (b.kept ++ symbols)).toList = text ++ symbols := by
    rw [← htext, Array.toList_append, Array.toList_appendList, Array.toList_append,
      List.append_assoc]
  rw [Buffer.put]
  split
  · exact ⟨_, rfl, haccepting, hall⟩
  · rw [haccepting]
    refine ⟨_, rfl, rfl, ?_⟩
    rw [← hall, Array.append_assoc, Array.extract_append_extract,
      Nat.min_eq_left (Nat.zero_le _), Nat.max_eq_right (overflow_le _), Array.extract_size]

theorem Carries.putRecord {b : Buffer} {text : List Char} {width? : Option Nat}
    {record : Record Char} (h : b.Carries text width?) (hrecord : IsSimple record)
    (width?' : Option Nat) :
    ∃ b', b.putRecord record = (true, b') ∧ b'.Carries (text ++ line record) width?' := by
  rw [Buffer.putRecord, hrecord.writeRecord_eq]
  exact h.put (line record) width?'

/-- A writer with a buffer does what the documentation says. -/
theorem documented : Library.Documented Sink.accepting Carries where
  ofSink := ⟨rfl, rfl⟩
  writeRecord _ _ _ _ h hrecord _ := h.putRecord hrecord _
  serialize _ _ _ _ h hcells _ := h.putRecord hcells _
  flush := by
    rintro b text width? ⟨haccepting, htext⟩
    refine ⟨{ b with passed := b.passed ++ b.kept, kept := #[] }, ?_, haccepting, ?_⟩
    · change Buffer.flush b = _
      rw [Buffer.flush, haccepting]
    · rw [Array.append_empty, htext]
  intoText? := by
    rintro b text width? ⟨haccepting, rfl⟩
    change Buffer.text? b = _
    rw [text?, haccepting]

/-- What the buffer has room for is taken in by any sink. -/
theorem put_fst_of_fits {b : Buffer} {symbols : List Char}
    (h : b.kept.size + symbols.length ≤ bufferSize) : (b.put symbols).1 = true := by
  have hover : overflow (b.kept ++ symbols).size = 0 := by
    rw [← Array.length_toList, Array.toList_appendList, List.length_append, overflow,
      Nat.div_eq_of_lt, Nat.zero_mul]
    exact Nat.lt_of_le_of_lt (Nat.sub_le_sub_right h 1) (by decide)
  exact congrArg Prod.fst (if_pos hover)

end Buffer

/-- A table whose header the buffer has room for can always be begun. -/
theorem Writer.create_eq_begin (sink : Sink) {header : Record Char}
    (h : (Csv.writeRecord header).length ≤ bufferSize) :
    (TableWriter.create sink header : Except WriteFault Writer) =
      .ok (Writer.begin sink header) := by
  have hput : ((Buffer.empty sink).putRecord header).1 = true :=
    Buffer.put_fst_of_fits (Nat.le_trans (Nat.le_of_eq (Nat.zero_add _)) h)
  have hwrite : Library.writeRecord (Library.ofSink sink : Buffer) header =
      (true, ((Buffer.empty sink).putRecord header).2) := Prod.ext hput rfl
  rw [TableWriter.create, hwrite, Writer.begin]

end Csv
end Thoroughfare

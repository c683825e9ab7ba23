import Mathlib.Data.List.Basic
import Thoroughfare.Csv.Writer

/-!
# Written tables

Whatever the fields of a table hold, reading what was written gives the records back; only a record
without any field is lost, since its line is empty.  A record whose fields need no quotes is written
as its fields with commas between them and the end of the line behind them.
-/

namespace Thoroughfare
namespace Csv

/-- What ends a line is no comma, and neither a comma nor a line feed is a quote. -/
class Symbols.Apart (σ : Type) [Symbols σ] : Prop where
  comma_ne_quote : (comma : σ) ≠ quote
  lineFeed_ne_comma : (lineFeed : σ) ≠ comma
  lineFeed_ne_quote : (lineFeed : σ) ≠ quote
  carriageReturn_ne_comma : (carriageReturn : σ) ≠ comma

instance : Symbols.Apart Char where
  comma_ne_quote := by decide
  lineFeed_ne_comma := by decide
  lineFeed_ne_quote := by decide
  carriageReturn_ne_comma := by decide

instance : Symbols.Apart UInt8 where
  comma_ne_quote := by decide
  lineFeed_ne_comma := by decide
  lineFeed_ne_quote := by decide
  carriageReturn_ne_comma := by decide

variable {σ : Type} [DecidableEq σ] [Symbols σ] {c : σ} {field : List σ} {fields record : Record σ}
  {place : Place}

/-! ## Steps of the reader -/

/-- The places before a field. -/
def Place.IsBefore (place : Place) : Prop :=
  place = .record ∨ place = .field

theorem recordsFrom_bare (c : σ) (rest : List σ) :
    recordsFrom .bare fields field (c :: rest) =
      if c = Symbols.comma then recordsFrom .field (field.reverse :: fields) [] rest
      else if endsLine c then close fields field :: records rest
      else recordsFrom .bare fields (c :: field) rest :=
  rfl

theorem recordsFrom_quoted (c : σ) (rest : List σ) :
    recordsFrom .quoted fields field (c :: rest) =
      if c = Symbols.quote then recordsFrom .closing fields field rest
      else recordsFrom .quoted fields (c :: field) rest :=
  rfl

theorem recordsFrom_closing_quote (rest : List σ) :
    recordsFrom .closing fields field (Symbols.quote :: rest) =
      recordsFrom .quoted fields (Symbols.quote :: field) rest :=
  if_pos rfl

/-- Behind a closing quote a field ends, or goes on, as if it had begun without quotes. -/
theorem recordsFrom_closing (hc : c ≠ Symbols.quote) (rest : List σ) :
    recordsFrom .closing fields field (c :: rest) = recordsFrom .bare fields field (c :: rest) :=
  if_neg hc

theorem recordsFrom_before_quote (hplace : place.IsBefore) (rest : List σ) :
    recordsFrom place fields [] (Symbols.quote :: rest) = recordsFrom .quoted fields [] rest := by
  obtain rfl | rfl := hplace <;> exact if_pos rfl

/-- Without a quote a field has begun before its first symbol, but not on an empty line. -/
theorem recordsFrom_before (hplace : place.IsBefore) (hc : c ≠ Symbols.quote)
    (hline : place = .record → endsLine c = false) (rest : List σ) :
    recordsFrom place fields [] (c :: rest) = recordsFrom .bare fields [] (c :: rest) := by
  obtain rfl | rfl := hplace
  · refine (if_neg hc).trans ?_
    rw [recordsFrom_bare, hline rfl]
    rfl
  · exact if_neg hc

/-! ## Fields -/

/-- A symbol that gives a table no structure. -/
structure IsPlain (c : σ) : Prop where
  ne_comma : c ≠ Symbols.comma
  ne_quote : c ≠ Symbols.quote
  endsLine_eq : endsLine c = false

theorem needsQuotes_eq_false_iff : needsQuotes field = false ↔ ∀ c ∈ field, IsPlain c := by
  simp only [needsQuotes, List.any_eq_false, Bool.not_eq_true, Bool.or_eq_false_iff,
    decide_eq_false_iff_not]
  exact forall₂_congr fun c _ => ⟨fun h => ⟨h.1.1, h.1.2, h.2⟩, fun h => ⟨⟨h.1, h.2⟩, h.3⟩⟩

theorem writeField_eq_self (h : needsQuotes field = false) : writeField field = field := by
  rw [writeField, h]
  rfl

theorem recordsFrom_bare_append {more : List σ} (h : ∀ c ∈ more, IsPlain c) (rest : List σ) :
    recordsFrom .bare fields field (more ++ rest) =
      recordsFrom .bare fields (more.reverse ++ field) rest := by
  induction more generalizing field with
  | nil => rfl
  | cons c more ih =>
      obtain ⟨hc, hmore⟩ := List.forall_mem_cons.1 h
      rw [List.cons_append, recordsFrom_bare, if_neg hc.ne_comma, hc.endsLine_eq,
        if_neg Bool.false_ne_true, ih hmore, List.reverse_cons, List.append_assoc,
        List.singleton_append]

/-- Between quotes every symbol stands for itself, and two quotes for one. -/
theorem recordsFrom_quoted_append (more rest : List σ) :
    recordsFrom .quoted fields field
        (more.flatMap (fun c => if c = Symbols.quote then [c, c] else [c]) ++ rest) =
      recordsFrom .quoted fields (more.reverse ++ field) rest := by
  induction more generalizing field with
  | nil => rfl
  | cons c more ih =>
      rw [List.flatMap_cons, List.append_assoc, List.reverse_cons, List.append_assoc]
      by_cases hc : c = Symbols.quote
      · subst hc
        rw [if_pos rfl, List.cons_append, recordsFrom_quoted, if_pos rfl, List.singleton_append,
          recordsFrom_closing_quote, ih]
        rfl
      · rw [if_neg hc, List.singleton_append, recordsFrom_quoted, if_neg hc, ih]
        rfl

/-- A written field is read as a whole if no quote follows it, unless its line is empty. -/
theorem recordsFrom_writeField (hplace : place.IsBefore) (hc : c ≠ Symbols.quote)
    (hline : place = .record → field = [] → endsLine c = false) (rest : List σ) :
    recordsFrom place fields [] (writeField field ++ c :: rest) =
      recordsFrom .bare fields field.reverse (c :: rest) := by
  by_cases hquotes : needsQuotes field = true
  · rw [writeField, if_pos hquotes, List.cons_append, List.cons_append, List.append_assoc,
      recordsFrom_before_quote hplace, recordsFrom_quoted_append, List.append_nil,
      List.singleton_append, recordsFrom_quoted, if_pos rfl, recordsFrom_closing hc]
  · rw [Bool.not_eq_true] at hquotes
    have hplain := needsQuotes_eq_false_iff.1 hquotes
    rw [writeField_eq_self hquotes]
    cases field with
    | nil => exact recordsFrom_before hplace hc (fun h => hline h rfl) rest
    | cons d more =>
        have hd := hplain d List.mem_cons_self
        rw [List.cons_append, recordsFrom_before hplace hd.ne_quote fun _ => hd.endsLine_eq,
          ← List.cons_append, recordsFrom_bare_append hplain, List.append_nil]

/-! ## Records -/

theorem endsLine_lineFeed : endsLine (Symbols.lineFeed : σ) = true :=
  Bool.or_eq_true_iff.2 (Or.inl (decide_eq_true rfl))

section Apart

variable [Symbols.Apart σ]

theorem endsLine_comma : endsLine (Symbols.comma : σ) = false :=
  Bool.or_eq_false_iff.2 ⟨decide_eq_false Symbols.Apart.lineFeed_ne_comma.symm,
    decide_eq_false Symbols.Apart.carriageReturn_ne_comma.symm⟩

theorem recordsFrom_bare_lineFeed (rest : List σ) :
    recordsFrom .bare fields field (Symbols.lineFeed :: rest) =
      close fields field :: records rest := by
  rw [recordsFrom_bare, if_neg Symbols.Apart.lineFeed_ne_comma, if_pos endsLine_lineFeed]

theorem recordsFrom_joinFields (hplace : place.IsBefore) (hne : record ≠ [])
    (hrecord : place = .record → record ≠ [[]]) (rest : List σ) :
    recordsFrom place fields [] (joinFields record ++ Symbols.lineFeed :: rest) =
      (fields.reverse ++ record) :: records rest := by
  -- Behind a comma the reader stands before a field, where a line may end at once.
  induction record using joinFields.induct generalizing place fields with
  | case1 => exact absurd rfl hne
  | case2 field =>
      have hline : place = .record → field = [] → endsLine (Symbols.lineFeed : σ) = false :=
        fun hrec hfield => absurd (congrArg ([·]) hfield) (hrecord hrec)
      rw [joinFields, recordsFrom_writeField hplace Symbols.Apart.lineFeed_ne_quote hline,
        recordsFrom_bare_lineFeed, close, List.reverse_reverse, List.reverse_cons]
  | case3 field more hmore ih =>
      rw [joinFields, List.append_assoc, List.cons_append,
        recordsFrom_writeField hplace Symbols.Apart.comma_ne_quote fun _ _ => endsLine_comma,
        recordsFrom_bare, if_pos rfl, List.reverse_reverse, ih (Or.inr rfl) hmore nofun,
        List.reverse_cons, List.append_assoc, List.singleton_append]
      exact hmore

/-- A written record is read as a record, whatever follows. -/
theorem records_writeRecord_append (hne : record ≠ []) (rest : List σ) :
    records (writeRecord record ++ rest) = record :: records rest := by
  rw [writeRecord, List.append_assoc, List.singleton_append]
  by_cases hblank : record = [[]]
  · subst hblank
    rw [if_pos rfl, records, List.cons_append, recordsFrom_before_quote (Or.inl rfl),
      List.singleton_append, recordsFrom_quoted, if_pos rfl,
      recordsFrom_closing Symbols.Apart.lineFeed_ne_quote, recordsFrom_bare_lineFeed]
    rfl
  · rw [if_neg hblank]
    exact recordsFrom_joinFields (Or.inl rfl) hne (fun _ => hblank) rest

theorem records_lineFeed (rest : List σ) : records (Symbols.lineFeed :: rest) = records rest :=
  (if_neg Symbols.Apart.lineFeed_ne_quote).trans <|
    (if_neg Symbols.Apart.lineFeed_ne_comma).trans (if_pos endsLine_lineFeed)

/-- What is read from a written table are its records, but for those without any field. -/
theorem records_write (table : List (Record σ)) :
    records (write table) = table.filter fun record => record ≠ [] := by
  induction table with
  | nil => rfl
  | cons record table ih =>
      have htext : write (record :: table) = writeRecord record ++ write table :=
        List.flatMap_cons
      rw [htext, List.filter_cons]
      by_cases hne : record = []
      · subst hne
        exact (records_lineFeed (write table)).trans ih
      · rw [records_writeRecord_append hne, ih, if_pos (decide_eq_true hne)]

end Apart

/-! ## Records without quotes -/

theorem joinFields_eq_intercalate (h : ∀ field ∈ record, needsQuotes field = false) :
    joinFields record = [Symbols.comma].intercalate record := by
  induction record using joinFields.induct with
  | case1 => rfl
  | case2 field =>
      rw [joinFields, writeField_eq_self (h field List.mem_cons_self), List.intercalate_singleton]
  | case3 field more hmore ih =>
      obtain ⟨hfield, hrest⟩ := List.forall_mem_cons.1 h
      rw [joinFields, writeField_eq_self hfield, ih hrest, List.intercalate_cons_of_ne_nil hmore,
        List.append_assoc, List.singleton_append]
      exact hmore

/-- A record that needs no quotes is a line of its fields with commas between them. -/
theorem writeRecord_eq_intercalate (hne : record ≠ [[]])
    (h : ∀ field ∈ record, needsQuotes field = false) :
    writeRecord record = [Symbols.comma].intercalate record ++ [Symbols.lineFeed] := by
  rw [writeRecord, if_neg hne, joinFields_eq_intercalate h]

/-! ## Lines -/

/-- A record of several fields, none of which holds a symbol that gives a table its structure. -/
structure IsSimple (record : Record σ) : Prop where
  several : 2 ≤ record.length
  plain : ∀ field ∈ record, ∀ c ∈ field, IsPlain c

/-- A line of fields with commas between them. -/
def line (record : Record σ) : List σ :=
  [Symbols.comma].intercalate record ++ [Symbols.lineFeed]

theorem IsSimple.ne_nil (h : IsSimple record) : record ≠ [] := by
  rintro rfl
  cases h.several

/-- A simple record needs no quotes. -/
theorem IsSimple.writeRecord_eq (h : IsSimple record) : writeRecord record = line record := by
  have hblank : record ≠ [[]] := by
    rintro rfl
    have hseveral : 2 ≤ 1 := h.several
    omega
  exact writeRecord_eq_intercalate hblank fun field hfield =>
    needsQuotes_eq_false_iff.2 (h.plain field hfield)

/-- Lines of simple records are read as these records. -/
theorem records_flatMap_line [Symbols.Apart σ] {table : List (Record σ)}
    (h : ∀ record ∈ table, IsSimple record) : records (table.flatMap line) = table := by
  have htext : table.flatMap line = write table :=
    List.flatMap_congr fun record hrecord => (h record hrecord).writeRecord_eq.symm
  rw [htext, records_write]
  exact List.filter_eq_self.2 fun record hrecord => decide_eq_true (h record hrecord).ne_nil

end Csv
end Thoroughfare

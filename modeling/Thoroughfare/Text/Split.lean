/-!
# Cutting a text at a separator

The pieces between the occurrences of a separator; there is always one more piece than there
are separators, and joining the pieces with the separator gives the text back.
-/

namespace Thoroughfare
namespace Text

/-- The pieces of a text between the occurrences of a separator. -/
def splitOn (separator : Char) : List Char → List (List Char)
  | [] => [[]]
  | c :: rest =>
      if c = separator then [] :: splitOn separator rest
      else
        match splitOn separator rest with
        | [] => [[c]]
        | piece :: pieces => (c :: piece) :: pieces

/-- The lines of a text; a line feed at its end does not begin another one. -/
def lines (text : List Char) : List String :=
  let pieces := splitOn '\n' text
  let whole := if pieces.getLast? = some [] then pieces.dropLast else pieces
  whole.map String.ofList

theorem splitOn_ne_nil (separator : Char) (text : List Char) : splitOn separator text ≠ [] := by
  cases text with
  | nil => simp [splitOn]
  | cons c rest =>
      rw [splitOn]
      split
      · simp
      · split <;> simp

/-- A piece without separators in front of one is the first piece. -/
theorem splitOn_append_cons {separator : Char} {piece : List Char}
    (h : separator ∉ piece) (rest : List Char) :
    splitOn separator (piece ++ separator :: rest) = piece :: splitOn separator rest := by
  induction piece with
  | nil => simp [splitOn]
  | cons c piece ih =>
      simp only [List.mem_cons, not_or] at h
      have hne : c ≠ separator := fun hc => h.1 hc.symm
      simp [splitOn, hne, ih h.2]

/-- A text without separators is its only piece. -/
theorem splitOn_of_not_mem {separator : Char} {text : List Char} (h : separator ∉ text) :
    splitOn separator text = [text] := by
  induction text with
  | nil => rfl
  | cons c rest ih =>
      simp only [List.mem_cons, not_or] at h
      have hne : c ≠ separator := fun hc => h.1 hc.symm
      simp [splitOn, hne, ih h.2]

/-- The first piece is the whole text, or it stands in front of a separator. -/
theorem splitOn_eq_cons {separator : Char} {text piece : List Char} {pieces : List (List Char)}
    (h : splitOn separator text = piece :: pieces) :
    (text = piece ∧ pieces = []) ∨
      ∃ rest, text = piece ++ separator :: rest ∧ splitOn separator rest = pieces := by
  induction text generalizing piece with
  | nil =>
      rw [splitOn, List.cons.injEq] at h
      exact Or.inl ⟨h.1, h.2.symm⟩
  | cons c text ih =>
      rw [splitOn] at h
      split at h
      · rename_i hc
        rw [List.cons.injEq] at h
        exact Or.inr ⟨text, by rw [← h.1, hc, List.nil_append], h.2⟩
      · split at h
        · rename_i hnone
          exact absurd hnone (splitOn_ne_nil separator text)
        · rename_i first others hfirst
          rw [List.cons.injEq] at h
          obtain ⟨rfl, rfl⟩ := h
          rcases ih hfirst with ⟨rfl, hothers⟩ | ⟨rest, rfl, hrest⟩
          · exact Or.inl ⟨rfl, hothers⟩
          · exact Or.inr ⟨rest, rfl, hrest⟩

end Text
end Thoroughfare

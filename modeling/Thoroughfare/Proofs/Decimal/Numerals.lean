import Mathlib.Data.Nat.Digits.Defs
import Thoroughfare.Decimal.Numeral

/-!
# Texts that denote whole numbers

What a decimal numeral denotes is said without reading it: the sum of its digits, each times the
power of ten of its place.  A text denotes a number when it is made of digits, at least one, or of a
plus sign and such digits; zeros in front do not matter.  Reading accepts just these texts and
answers the number.
-/

namespace Thoroughfare
namespace Numeral

variable {digits text : List Char} {n acc width : Nat} {c : Char}

/-- The number that digits denote by their places, the most significant one first. -/
def value (digits : List Char) : Nat :=
  Nat.ofDigits 10 (digits.reverse.map fun c => c.toNat - '0'.toNat)

/-- The texts that denote a whole number. -/
inductive Denotes : List Char → Nat → Prop
  | plain {digits : List Char} (hne : digits ≠ []) (hdigits : ∀ c ∈ digits, c.isDigit = true) :
      Denotes digits (value digits)
  | signed {digits : List Char} (hne : digits ≠ []) (hdigits : ∀ c ∈ digits, c.isDigit = true) :
      Denotes ('+' :: digits) (value digits)

theorem value_nil : value [] = 0 :=
  rfl

theorem value_cons (c : Char) (digits : List Char) :
    value (c :: digits) = (c.toNat - '0'.toNat) * 10 ^ digits.length + value digits := by
  rw [value, List.reverse_cons, List.map_append, Nat.ofDigits_append, List.length_map,
    List.length_reverse, List.map_singleton, Nat.ofDigits_singleton, Nat.add_comm, Nat.mul_comm,
    value]

theorem digitValue?_eq_some_iff :
    digitValue? c = some n ↔ c.isDigit = true ∧ n = c.toNat - '0'.toNat := by
  rw [digitValue?]
  by_cases hdigit : c.isDigit = true
  · simp [hdigit, eq_comm]
  · simp [hdigit]

/-- The digits that have been read count as many tens as digits follow. -/
theorem readFrom?_eq_some_iff : readFrom? acc digits = some n ↔
    (∀ c ∈ digits, c.isDigit = true) ∧ n = acc * 10 ^ digits.length + value digits := by
  induction digits generalizing acc with
  | nil =>
      rw [readFrom?, Option.some.injEq, List.length_nil, Nat.pow_zero, Nat.mul_one, value_nil,
        Nat.add_zero]
      exact ⟨fun h => ⟨List.forall_mem_nil _, h.symm⟩, fun h => h.2.symm⟩
  | cons c rest ih =>
      rw [readFrom?, Option.bind_eq_some_iff, value_cons, List.forall_mem_cons, List.length_cons]
      constructor
      · rintro ⟨d, hd, hread⟩
        obtain ⟨hdigit, rfl⟩ := digitValue?_eq_some_iff.1 hd
        obtain ⟨hrest, hn⟩ := ih.1 hread
        refine ⟨⟨hdigit, hrest⟩, ?_⟩
        rw [hn]
        ring
      · rintro ⟨⟨hdigit, hrest⟩, hn⟩
        refine ⟨_, digitValue?_eq_some_iff.2 ⟨hdigit, rfl⟩, ih.2 ⟨hrest, ?_⟩⟩
        rw [hn]
        ring

theorem read?_eq_some_iff : read? digits = some n ↔
    digits ≠ [] ∧ (∀ c ∈ digits, c.isDigit = true) ∧ n = value digits := by
  unfold read?
  split
  · simp
  · rename_i hne
    rw [readFrom?_eq_some_iff, Nat.zero_mul, Nat.zero_add]
    exact ⟨fun h => ⟨hne, h⟩, fun h => h.2⟩

theorem readSigned?_eq_some_iff : readSigned? text = some n ↔ Denotes text n := by
  constructor
  · intro h
    unfold readSigned? at h
    split at h <;>
    · obtain ⟨hne, hdigits, rfl⟩ := read?_eq_some_iff.1 h
      constructor <;> assumption
  · rintro (⟨hne, hdigits⟩ | ⟨hne, hdigits⟩)
    · unfold readSigned?
      split
      · exact absurd (hdigits '+' List.mem_cons_self) (by decide)
      · exact read?_eq_some_iff.2 ⟨hne, hdigits, rfl⟩
    · exact read?_eq_some_iff.2 ⟨hne, hdigits, rfl⟩

/-- Reading up to a greatest number accepts what denotes a number up to it. -/
theorem readUpTo?_eq_some_iff {greatest : Nat} :
    readUpTo? greatest text = some n ↔ Denotes text n ∧ n ≤ greatest := by
  rw [readUpTo?, Option.filter_eq_some_iff, readSigned?_eq_some_iff, decide_eq_true_eq]

theorem Denotes.mem_cases (h : Denotes text n) (hc : c ∈ text) : c = '+' ∨ c.isDigit = true := by
  obtain ⟨-, hdigits⟩ | ⟨-, hdigits⟩ := h
  · exact Or.inr (hdigits c hc)
  · exact (List.mem_cons.1 hc).imp_right (hdigits c)

theorem Denotes.unique {m : Nat} (h : Denotes text n) (h' : Denotes text m) : n = m := by
  rw [← readSigned?_eq_some_iff] at h h'
  exact Option.some.inj (h.symm.trans h')

/-! ## Written numbers -/

theorem value_replicate_append (zeros : Nat) (digits : List Char) :
    value (List.replicate zeros '0' ++ digits) = value digits := by
  induction zeros with
  | zero => rfl
  | succ zeros ih =>
      rw [List.replicate_succ, List.cons_append, value_cons, ih, Nat.sub_self, Nat.zero_mul,
        Nat.zero_add]

/-- A number is written by digits that denote it, however many zeros stand in front. -/
theorem denotes_writePadded (width n : Nat) : Denotes (writePadded width n) n := by
  obtain ⟨hne, hdigits, hn⟩ := read?_eq_some_iff.1 (read?_write n)
  have hvalue : value (writePadded width n) = n := (value_replicate_append _ _).trans hn.symm
  have hall : ∀ c ∈ writePadded width n, c.isDigit = true := by
    intro c hc
    rcases List.mem_append.1 hc with hzero | hdigit
    · rw [List.eq_of_mem_replicate hzero]
      decide
    · exact hdigits c hdigit
  have hnonempty : writePadded width n ≠ [] := by
    rw [writePadded]
    exact List.append_ne_nil_of_right_ne_nil _ hne
  have hdenotes := Denotes.plain hnonempty hall
  rwa [hvalue] at hdenotes

theorem writePadded_zero (n : Nat) : writePadded 0 n = write n := by
  rw [writePadded, Nat.zero_sub]
  rfl

theorem denotes_write (n : Nat) : Denotes (write n) n :=
  writePadded_zero n ▸ denotes_writePadded 0 n

end Numeral
end Thoroughfare

import Mathlib.Data.List.Forall2
import Thoroughfare.Proofs.Decimal.Numerals
import Thoroughfare.Time.OfDay

/-!
# Times of day that are read

A text denotes a time when it is a whole number of seconds, or hours and minutes, or hours, minutes
and seconds between colons, with minutes and seconds below sixty.  What it denotes is computed
without bound.  Reading accepts just the texts that denote a time up to the last second, whatever
their shape, so no time is ever cut or wrapped, and every time that is written is read back.
-/

namespace Thoroughfare
namespace TimeOfDay

variable {text : List Char} {numbers : List Nat} {secs : Nat}

/-- The seconds that a text denotes. -/
inductive Denotes : List Char → Nat → Prop
  | plain {text : List Char} {secs : Nat} (hsecs : Numeral.Denotes text secs) : Denotes text secs
  | withMinutes {hours minutes : List Char} {h m : Nat} (hhours : Numeral.Denotes hours h)
      (hminutes : Numeral.Denotes minutes m) (hm : m < 60) :
      Denotes (hours ++ ':' :: minutes) (h * 3600 + m * 60)
  | withSeconds {hours minutes seconds : List Char} {h m s : Nat}
      (hhours : Numeral.Denotes hours h) (hminutes : Numeral.Denotes minutes m)
      (hseconds : Numeral.Denotes seconds s) (hm : m < 60) (hs : s < 60) :
      Denotes (hours ++ ':' :: (minutes ++ ':' :: seconds)) (h * 3600 + m * 60 + s)

/-! ## Fields between colons -/

/-- The numbers that a text holds between colons. -/
inductive Holds : List Char → List Nat → Prop
  | last {field : List Char} {n : Nat} (hfield : Numeral.Denotes field n) : Holds field [n]
  | more {field rest : List Char} {n : Nat} {numbers : List Nat}
      (hfield : Numeral.Denotes field n) (hrest : Holds rest numbers) :
      Holds (field ++ ':' :: rest) (n :: numbers)

theorem colon_not_mem_of_denotes (h : Numeral.Denotes text secs) : ':' ∉ text := by
  intro hcolon
  rcases h.mem_cases hcolon with hplus | hdigit
  · exact absurd hplus (by decide)
  · exact absurd hdigit (by decide)

/-- The numbers are those of the fields that are cut out at the colons, however many there are. -/
theorem holds_iff_forall₂ : Holds text numbers ↔
    List.Forall₂ Numeral.Denotes (Text.splitOn ':' text) numbers := by
  constructor
  · intro h
    induction h with
    | last hfield =>
        rw [Text.splitOn_of_not_mem (colon_not_mem_of_denotes hfield)]
        exact .cons hfield .nil
    | more hfield _ ih =>
        rw [Text.splitOn_append_cons (colon_not_mem_of_denotes hfield)]
        exact .cons hfield ih
  · intro h
    generalize hfields : Text.splitOn ':' text = fields at h
    induction h generalizing text with
    | nil => exact absurd hfields (Text.splitOn_ne_nil ':' text)
    | cons hfield hrest ih =>
        rcases Text.splitOn_eq_cons hfields with ⟨rfl, rfl⟩ | ⟨rest, rfl, hsplit⟩
        · rw [List.forall₂_nil_left_iff.1 hrest]
          exact .last hfield
        · exact .more hfield (ih hsplit)

theorem Holds.unique {others : List Nat} (h : Holds text numbers) (h' : Holds text others) :
    numbers = others := by
  rw [holds_iff_forall₂] at h h'
  have hfields : Relator.RightUnique Numeral.Denotes := fun _ _ _ => Numeral.Denotes.unique
  exact hfields.forall₂ h h'

theorem mapM_splitOn_eq_some_iff :
    (Text.splitOn ':' text).mapM (Numeral.readUpTo? lastSecond) = some numbers ↔
      Holds text numbers ∧ ∀ n ∈ numbers, n ≤ lastSecond := by
  rw [holds_iff_forall₂]
  generalize Text.splitOn ':' text = fields
  induction fields generalizing numbers with
  | nil =>
      rw [List.mapM_nil, List.forall₂_nil_left_iff]
      constructor
      · rintro ⟨⟩
        exact ⟨rfl, nofun⟩
      · rintro ⟨rfl, -⟩
        rfl
  | cons field fields ih =>
      rw [List.mapM_cons]
      constructor
      · intro h
        obtain ⟨n, hread, hrest⟩ := Option.bind_eq_some_iff.1 h
        obtain ⟨more, hmore, ⟨⟩⟩ := Option.bind_eq_some_iff.1 hrest
        obtain ⟨hfield, hn⟩ := Numeral.readUpTo?_eq_some_iff.1 hread
        obtain ⟨hfields, hall⟩ := ih.1 hmore
        exact ⟨.cons hfield hfields, List.forall_mem_cons.2 ⟨hn, hall⟩⟩
      · rintro ⟨hdenote, hall⟩
        obtain ⟨n, more, hfield, hfields, rfl⟩ := List.forall₂_cons_left_iff.1 hdenote
        obtain ⟨hn, hmore⟩ := List.forall_mem_cons.1 hall
        rw [Numeral.readUpTo?_eq_some_iff.2 ⟨hfield, hn⟩, ih.2 ⟨hfields, hmore⟩]
        rfl

/-! ## What the fields come to -/

/-- The seconds that one, two or three numbers stand for, however many these are. -/
inductive ComeTo : List Nat → Nat → Prop
  | plain {secs : Nat} : ComeTo [secs] secs
  | withMinutes {h m : Nat} (hm : m < 60) : ComeTo [h, m] (h * 3600 + m * 60)
  | withSeconds {h m s : Nat} (hm : m < 60) (hs : s < 60) : ComeTo [h, m, s] (h * 3600 + m * 60 + s)

theorem ComeTo.unique {other : Nat} (h : ComeTo numbers secs) (h' : ComeTo numbers other) :
    secs = other := by
  obtain _ | _ | _ := h <;> obtain _ | _ | _ := h' <;> rfl

/-- No number is greater than what all of them come to. -/
theorem ComeTo.le (h : ComeTo numbers secs) : ∀ n ∈ numbers, n ≤ secs := by
  obtain _ | _ | _ := h <;> simp <;> omega

theorem bounded_eq_some_iff {n : Nat} : bounded n = some secs ↔ n = secs ∧ n ≤ lastSecond := by
  rw [bounded]
  split <;> simp [*]

theorem ofFields?_eq_some_iff (h : ∀ n ∈ numbers, n ≤ lastSecond) :
    ofFields? numbers = some secs ↔ ComeTo numbers secs ∧ secs ≤ lastSecond := by
  constructor
  · intro hfields
    unfold ofFields? at hfields
    split at hfields
    · cases hfields
      exact ⟨.plain, h _ List.mem_cons_self⟩
    · split at hfields
      · rename_i hm
        obtain ⟨rfl, hsecs⟩ := bounded_eq_some_iff.1 hfields
        exact ⟨.withMinutes hm, hsecs⟩
      · cases hfields
    · split at hfields
      · rename_i hlt
        obtain ⟨rfl, hsecs⟩ := bounded_eq_some_iff.1 hfields
        exact ⟨.withSeconds hlt.1 hlt.2, hsecs⟩
      · cases hfields
    · cases hfields
  · rintro ⟨_ | hm | ⟨hm, hs⟩, hsecs⟩
    · rfl
    · rw [ofFields?, if_pos hm]
      exact bounded_eq_some_iff.2 ⟨rfl, hsecs⟩
    · rw [ofFields?, if_pos ⟨hm, hs⟩]
      exact bounded_eq_some_iff.2 ⟨rfl, hsecs⟩

/-- A text denotes what the numbers come to that it holds. -/
theorem denotes_iff : Denotes text secs ↔ ∃ numbers, Holds text numbers ∧ ComeTo numbers secs := by
  constructor
  · rintro (hplain | ⟨hhours, hminutes, hm⟩ | ⟨hhours, hminutes, hseconds, hm, hs⟩)
    · exact ⟨_, .last hplain, .plain⟩
    · exact ⟨_, .more hhours (.last hminutes), .withMinutes hm⟩
    · exact ⟨_, .more hhours (.more hminutes (.last hseconds)), .withSeconds hm hs⟩
  · rintro ⟨numbers, hholds, _ | hm | ⟨hm, hs⟩⟩
    · obtain hplain | ⟨-, hrest⟩ := hholds
      · exact .plain hplain
      · cases hrest
    · obtain _ | ⟨hhours, hminutes | ⟨-, hrest⟩⟩ := hholds
      · exact .withMinutes hhours hminutes hm
      · cases hrest
    · obtain _ | ⟨hhours, _ | ⟨hminutes, hseconds | ⟨-, hrest⟩⟩⟩ := hholds
      · exact .withSeconds hhours hminutes hseconds hm hs
      · cases hrest

theorem Denotes.unique {other : Nat} (h : Denotes text secs) (h' : Denotes text other) :
    secs = other := by
  obtain ⟨numbers, hholds, hsecs⟩ := denotes_iff.1 h
  obtain ⟨others, hothers, hother⟩ := denotes_iff.1 h'
  obtain rfl := hholds.unique hothers
  exact hsecs.unique hother

/-! ## Reading -/

theorem read?_eq_some_iff : read? text = some secs ↔ Denotes text secs ∧ secs ≤ lastSecond := by
  rw [read?, Option.bind_eq_some_iff, denotes_iff]
  constructor
  · rintro ⟨numbers, hread, hfields⟩
    obtain ⟨hholds, hall⟩ := mapM_splitOn_eq_some_iff.1 hread
    obtain ⟨hcome, hsecs⟩ := (ofFields?_eq_some_iff hall).1 hfields
    exact ⟨⟨numbers, hholds, hcome⟩, hsecs⟩
  · rintro ⟨⟨numbers, hholds, hcome⟩, hsecs⟩
    have hall : ∀ n ∈ numbers, n ≤ lastSecond := fun n hn => (hcome.le n hn).trans hsecs
    exact ⟨numbers, mapM_splitOn_eq_some_iff.2 ⟨hholds, hall⟩,
      (ofFields?_eq_some_iff hall).2 ⟨hcome, hsecs⟩⟩

theorem read?_eq_none_iff : read? text = none ↔ ∀ secs, Denotes text secs → lastSecond < secs := by
  simp only [Option.eq_none_iff_forall_ne_some, ne_eq, read?_eq_some_iff, not_and, Nat.not_le]

theorem read?_congr {other : List Char} (h : Denotes text secs) (hother : Denotes other secs) :
    read? text = read? other := by
  ext n
  rw [read?_eq_some_iff, read?_eq_some_iff]
  refine and_congr_left fun _ => ⟨fun hn => ?_, fun hn => ?_⟩
  · exact hn.unique h ▸ hother
  · exact hn.unique hother ▸ h

/-- A time that is written denotes what was written. -/
theorem denotes_write (secs : Nat) : Denotes (write secs) secs := by
  have hminutes := Numeral.denotes_writePadded 2 (secs % 3600 / 60)
  have hseconds := Numeral.denotes_writePadded 2 (secs % 60)
  have hdenotes := Denotes.withSeconds (Numeral.denotes_write (secs / 3600)) hminutes hseconds
    (by omega) (by omega)
  rwa [show secs / 3600 * 3600 + secs % 3600 / 60 * 60 + secs % 60 = secs by omega] at hdenotes

/-- A text is read just if it denotes a time up to the last second, as seconds, as hours and minutes
or as hours, minutes and seconds, and what is read is that time; no other text is read.  So every
time that is written as hours, minutes and seconds is read back, and texts that denote the same
time are read alike. -/
theorem reading_is_exact (text : List Char) :
    (∀ secs, read? text = some secs ↔ Denotes text secs ∧ secs ≤ lastSecond) ∧
    (read? text = none ↔ ∀ secs, Denotes text secs → lastSecond < secs) ∧
    (∀ secs ≤ lastSecond, read? (write secs) = some secs) ∧
    ∀ other secs, Denotes text secs → Denotes other secs → read? text = read? other :=
  ⟨fun _ => read?_eq_some_iff, read?_eq_none_iff,
    fun secs hsecs => read?_eq_some_iff.2 ⟨denotes_write secs, hsecs⟩,
    fun _ _ h hother => read?_congr h hother⟩

/-- The last second is read as it is written, and one second more is no time; eight minutes past
seven are read alike in two shapes. -/
theorem reading_is_exact_late :
    read? (write lastSecond) = some lastSecond ∧
    (∀ secs, Denotes "5124095576030431:00:16".toList secs → lastSecond < secs) ∧
    Denotes "07:+8".toList 25680 ∧ Denotes "7:08:00".toList 25680 ∧
    read? "07:+8".toList = read? "7:08:00".toList := by
  have hminutes : Denotes "07:+8".toList 25680 := (read?_eq_some_iff.1 (by decide)).1
  have hseconds : Denotes "7:08:00".toList 25680 := (read?_eq_some_iff.1 (by decide)).1
  obtain ⟨-, hnone, -, -⟩ := reading_is_exact "5124095576030431:00:16".toList
  obtain ⟨-, -, hwrite, hsame⟩ := reading_is_exact "07:+8".toList
  exact ⟨hwrite lastSecond (Nat.le_refl _), hnone.1 (by decide), hminutes, hseconds,
    hsame _ _ hminutes hseconds⟩

end TimeOfDay
end Thoroughfare

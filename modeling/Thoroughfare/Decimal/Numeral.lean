/-!
# Decimal numerals

Whole numbers as lists of decimal digits.  Writing uses no leading zero; reading accepts any
nonempty run of the ten ASCII digits, so it accepts everything that is written and gives the
number back.
-/

namespace Thoroughfare
namespace Numeral

/-- The digits of a number, most significant first, without leading zeros. -/
def write (n : Nat) : List Char :=
  Nat.toDigits 10 n

def digitValue? (c : Char) : Option Nat :=
  if c.isDigit then some (c.toNat - '0'.toNat) else none

/-- Continue reading digits after `acc`. -/
def readFrom? (acc : Nat) : List Char → Option Nat
  | [] => some acc
  | c :: rest => (digitValue? c).bind fun d => readFrom? (10 * acc + d) rest

/-- The number that a nonempty run of digits denotes. -/
def read? : List Char → Option Nat
  | [] => none
  | digits => readFrom? 0 digits

/-- As `read?`, after an optional plus sign. -/
def readSigned? : List Char → Option Nat
  | '+' :: digits => read? digits
  | digits => read? digits

/-- As `readSigned?`, for numbers up to a greatest one. -/
def readUpTo? (greatest : Nat) (text : List Char) : Option Nat :=
  (readSigned? text).filter (· ≤ greatest)

def hexValue? (c : Char) : Option Nat :=
  if c.isDigit then some (c.toNat - '0'.toNat)
  else if 'a' ≤ c ∧ c ≤ 'f' then some (c.toNat - 'a'.toNat + 10)
  else if 'A' ≤ c ∧ c ≤ 'F' then some (c.toNat - 'A'.toNat + 10)
  else none

/-- The number that a nonempty run of digits denotes in a base of at most sixteen. -/
def readInBase? (base : Nat) : List Char → Option Nat
  | [] => none
  | digits => digits.foldl
      (fun acc c => acc.bind fun n =>
        (hexValue? c).bind fun d => if d < base then some (base * n + d) else none)
      (some 0)

/-- Write a number with at least `width` digits, filling up with zeros in front. -/
def writePadded (width n : Nat) : List Char :=
  let digits := write n
  List.replicate (width - digits.length) '0' ++ digits

theorem write_ne_nil (n : Nat) : write n ≠ [] := by
  intro h
  have hlength := Nat.length_toDigits_pos (b := 10) (n := n)
  rw [write] at h
  simp [h] at hlength

theorem readFrom?_append (digits more : List Char) (acc : Nat) :
    readFrom? acc (digits ++ more) =
      (readFrom? acc digits).bind fun value => readFrom? value more := by
  induction digits generalizing acc with
  | nil => simp [readFrom?]
  | cons c rest ih =>
      simp only [List.cons_append, readFrom?]
      cases digitValue? c with
      | none => simp
      | some d => simp [ih]

theorem digitValue?_digitChar {d : Nat} (h : d < 10) :
    digitValue? (Nat.digitChar d) = some d := by
  have hcases : d = 0 ∨ d = 1 ∨ d = 2 ∨ d = 3 ∨ d = 4 ∨ d = 5 ∨ d = 6 ∨ d = 7 ∨ d = 8 ∨ d = 9 := by
    omega
  rcases hcases with rfl | rfl | rfl | rfl | rfl | rfl | rfl | rfl | rfl | rfl <;> decide

theorem readFrom?_write (n : Nat) : readFrom? 0 (write n) = some n := by
  induction n using Nat.strongRecOn with
  | ind n ih =>
      rcases Nat.lt_or_ge n 10 with hsmall | hbig
      · rw [write, Nat.toDigits_of_lt_base hsmall]
        simp [readFrom?, digitValue?_digitChar hsmall]
      · have hsplit : write n = write (n / 10) ++ [Nat.digitChar (n % 10)] := by
          rw [write, write, Nat.toDigits_of_base_le (by omega) hbig]
        rw [hsplit, readFrom?_append, ih (n / 10) (by omega)]
        simp only [Option.bind_some, readFrom?, digitValue?_digitChar (Nat.mod_lt n (by omega))]
        congr 1
        omega

/-- Reading a written number gives it back. -/
theorem read?_write (n : Nat) : read? (write n) = some n := by
  have hread := readFrom?_write n
  have hne := write_ne_nil n
  cases hdigits : write n with
  | nil => exact absurd hdigits hne
  | cons c rest => rwa [hdigits] at hread

end Numeral
end Thoroughfare

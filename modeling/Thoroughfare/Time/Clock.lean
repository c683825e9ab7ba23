import Thoroughfare.Decimal.Numeral

/-!
# The clock

Simulated time is a whole number of seconds.  It advances in steps of fixed length; a tick
counts steps, and tick `k` is the second `start + k * step`.
-/

namespace Thoroughfare

/-- A number of steps since the start. -/
abbrev Tick := Nat

/-- The last second that a time can denote; later ends are cut to it. -/
def lastSecond : Nat :=
  18446744073709551615

def tickText (tick : Tick) : String :=
  "T" ++ toString tick

/-- The steps from an earlier tick to a later one. -/
def stepsSince? (later earlier : Tick) : Option Nat :=
  if earlier ≤ later then some (later - earlier) else none

/-- A clock that ticks every `stepSecs` seconds from `startSecs` on. -/
structure Clock where
  startSecs : Nat
  stepSecs : Nat
  tick : Tick
deriving DecidableEq, Repr

namespace Clock

/-- A clock at its first tick. -/
def start (startSecs stepSecs : Nat) : Clock :=
  ⟨startSecs, stepSecs, 0⟩

/-- The second of a tick. -/
def secsAt (c : Clock) (tick : Tick) : Nat :=
  c.startSecs + tick * c.stepSecs

def now (c : Clock) : Nat :=
  c.secsAt c.tick

def advance (c : Clock) : Clock :=
  { c with tick := c.tick + 1 }

/-- Jump forward to a tick; a clock never goes back. -/
def advanceTo (c : Clock) (tick : Tick) : Clock :=
  { c with tick := max c.tick tick }

/-- The first tick whose second is not before a given one.  Seconds before the start belong to
the first tick. -/
def tickAtOrAfter (c : Clock) (secs : Nat) : Tick :=
  (secs - c.startSecs + c.stepSecs - 1) / c.stepSecs

/-- As `tickAtOrAfter`, but undefined on a clock that never advances. -/
def tickAtOrAfter? (c : Clock) (secs : Nat) : Option Tick :=
  if c.stepSecs = 0 then none else some (c.tickAtOrAfter secs)

/-- The current second as hours, minutes and seconds; the hours do not wrap at midnight. -/
def hms (c : Clock) : Nat × Nat × Nat :=
  (c.now / 3600, c.now % 3600 / 60, c.now % 60)

/-- The current tick and time of day, as in `T5 (00:00:05)`. -/
def text (c : Clock) : String :=
  let (hours, minutes, seconds) := c.hms
  tickText c.tick ++ " (" ++ String.ofList
    (Numeral.writePadded 2 hours ++ ':' :: Numeral.writePadded 2 minutes ++
      ':' :: Numeral.writePadded 2 seconds) ++ ")"

theorem secsAt_succ (c : Clock) (tick : Tick) :
    c.secsAt (tick + 1) = c.secsAt tick + c.stepSecs := by
  simp only [secsAt, Nat.add_mul, Nat.one_mul]
  omega

theorem secsAt_mono (c : Clock) {a b : Tick} (h : a ≤ b) : c.secsAt a ≤ c.secsAt b := by
  exact Nat.add_le_add_left (Nat.mul_le_mul_right _ h) _

/-- The tick that is found is not too early. -/
theorem le_secsAt_tickAtOrAfter (c : Clock) (secs : Nat) (h : 0 < c.stepSecs) :
    secs ≤ c.secsAt (c.tickAtOrAfter secs) := by
  have hdiv := Nat.div_add_mod (secs - c.startSecs + c.stepSecs - 1) c.stepSecs
  have hmod := Nat.mod_lt (secs - c.startSecs + c.stepSecs - 1) h
  simp only [secsAt, tickAtOrAfter]
  rw [Nat.mul_comm] at hdiv
  omega

/-- No earlier tick would do. -/
theorem secsAt_lt_of_lt_tickAtOrAfter (c : Clock) (secs : Nat) {k : Tick}
    (hk : k < c.tickAtOrAfter secs) : c.secsAt k < secs := by
  have hle : k + 1 ≤ (secs - c.startSecs + c.stepSecs - 1) / c.stepSecs := hk
  have hstep : 0 < c.stepSecs := by
    apply Nat.pos_of_ne_zero
    intro hzero
    simp [hzero] at hle
  have hmul := (Nat.le_div_iff_mul_le hstep).1 hle
  simp only [secsAt]
  rw [Nat.add_mul, Nat.one_mul] at hmul
  omega

end Clock

end Thoroughfare

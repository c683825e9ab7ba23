import Thoroughfare.Text.Split
import Thoroughfare.Time.Clock

/-!
# Times of day

A time is written as plain seconds, as hours and minutes, or as hours, minutes and seconds with
colons between them.  Minutes and seconds are below sixty and hours are unbounded, but a time
past the last second is no time.
-/

namespace Thoroughfare
namespace TimeOfDay

/-- A number of seconds, unless it is past the last second. -/
def bounded (secs : Nat) : Option Nat :=
  if secs ≤ lastSecond then some secs else none

/-- The seconds that one, two or three fields stand for. -/
def ofFields? : List Nat → Option Nat
  | [secs] => some secs
  | [hours, minutes] =>
      if minutes < 60 then bounded (hours * 3600 + minutes * 60) else none
  | [hours, minutes, secs] =>
      if minutes < 60 ∧ secs < 60 then bounded (hours * 3600 + minutes * 60 + secs) else none
  | _ => none

def read? (text : List Char) : Option Nat :=
  ((Text.splitOn ':' text).mapM (Numeral.readUpTo? lastSecond)).bind ofFields?

/-- A time as hours, minutes and seconds, the last two with two digits. -/
def write (secs : Nat) : List Char :=
  Numeral.write (secs / 3600) ++
    ':' :: (Numeral.writePadded 2 (secs % 3600 / 60) ++ ':' :: Numeral.writePadded 2 (secs % 60))

end TimeOfDay
end Thoroughfare

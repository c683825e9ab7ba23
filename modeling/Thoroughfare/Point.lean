import Thoroughfare.Decimal.Layout

/-!
# Points in the plane

Positions are given in metres in a projected coordinate system, so distances are Euclidean.
-/

namespace Thoroughfare

/-- A point in the plane, in metres. -/
structure Point where
  x : Float
  y : Float
deriving BEq, Repr

namespace Point

def origin : Point :=
  ⟨0.0, 0.0⟩

/-- The Euclidean distance in metres. -/
def distance (a b : Point) : Float :=
  let dx := b.x - a.x
  let dy := b.y - a.y
  Float.sqrt (dx * dx + dy * dy)

/-- The text of a point, each coordinate with one decimal. -/
def text (p : Point) : String :=
  "(" ++ Decimal.oneDecimalText p.x ++ ", " ++ Decimal.oneDecimalText p.y ++ ")"

end Point

end Thoroughfare

import Thoroughfare.Network.Basic

/-!
# The street grid

A square of intersections, joined by two-way streets of equal length.  Intersections are numbered
row by row.  Each has a street to the next one in its row and a street to the next one in its
column, in this order.
-/

namespace Thoroughfare
namespace Grid

/-- The number of intersections in a row or column. -/
def size : Nat :=
  6

/-- The metres between two intersections. -/
def blockMetres : Float :=
  200.0

/-- The intersection in a row and a column.  Only the last 32 bits of its number count, so a place
far outside the grid may stand for one in it. -/
def node (row col : Nat) : NodeId :=
  ⟨(row * size + col) % UInt32.size⟩

/-- Both directions of the street between two intersections. -/
def street (a b : NodeId) : List LinkDraft :=
  let draft : LinkDraft := ⟨a, b, blockMetres, 13.9, 900.0, 1.0, none⟩
  [draft, draft.reverse]

/-- The streets from an intersection to the next one in its row and in its column. -/
def streetsFrom (row col : Nat) : List LinkDraft :=
  (if col + 1 < size then street (node row col) (node row (col + 1)) else []) ++
    (if row + 1 < size then street (node row col) (node (row + 1) col) else [])

/-- The rows and columns of all intersections, row by row. -/
def places : List (Nat × Nat) :=
  (List.range size).flatMap fun row => (List.range size).map fun col => (row, col)

def streets : List LinkDraft :=
  places.flatMap fun place => streetsFrom place.1 place.2

def positions : List Point :=
  places.map fun place => ⟨place.2.toFloat * blockMetres, place.1.toFloat * blockMetres⟩

def network : Except NetworkError Network :=
  Network.build Network.standardPeriodSecs positions streets

/-- The link from one intersection to another. -/
def street? (a b : NodeId) : Option LinkId :=
  (streets.findIdx? fun draft => draft.startNode = a ∧ draft.endNode = b).map Ident.mk

/-- The links along a path of intersections, if each two neighbours are joined. -/
def route? (path : List NodeId) : Option (List LinkId) :=
  (path.zip (path.drop 1)).mapM fun step => street? step.1 step.2

end Grid
end Thoroughfare

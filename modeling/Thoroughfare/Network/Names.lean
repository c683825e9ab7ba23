import Std.Data.ExtTreeMap
import Thoroughfare.Ident

/-!
# Names and numbers

Files name nodes and links by arbitrary texts; inside, they are numbered in the order of their
rows.  A name table holds both directions, and by its type the two are inverse to each other.
-/

namespace Thoroughfare

/-- The names of the nodes or links of a file, in order, with the way back. -/
structure NameTable (kind : Entity) where
  names : Array String
  ids : Std.ExtTreeMap String (Ident kind)
  ids_iff : ∀ (name : String) (id : Ident kind), ids[name]? = some id ↔ names[id.index]? = some name

namespace NameTable

variable {kind : Entity}

def empty : NameTable kind where
  names := #[]
  ids := ∅
  ids_iff := by simp

def id? (t : NameTable kind) (name : String) : Option (Ident kind) :=
  t.ids[name]?

def name? (t : NameTable kind) (id : Ident kind) : Option String :=
  t.names[id.index]?

def size (t : NameTable kind) : Nat :=
  t.names.size

/-- Give the next number to a name that has none. -/
def add (t : NameTable kind) (name : String) (fresh : t.id? name = none) : NameTable kind where
  names := t.names.push name
  ids := t.ids.insert name ⟨t.names.size⟩
  ids_iff := by
    intro other id
    have hfresh : t.ids[name]? = none := fresh
    rw [Std.ExtTreeMap.getElem?_insert, Array.getElem?_push]
    by_cases hname : name = other
    · subst hname
      simp only [Std.LawfulEqOrd.compare_eq_iff_eq, if_true, Option.some.injEq]
      constructor
      · rintro rfl
        simp
      · intro h
        by_cases hindex : id.index = t.names.size
        · exact Ident.eq_iff_index_eq.2 hindex.symm
        · rw [if_neg hindex] at h
          rw [← t.ids_iff, hfresh] at h
          cases h
    · have hcompare : compare name other ≠ Ordering.eq := by
        simpa [Std.LawfulEqOrd.compare_eq_iff_eq] using hname
      simp only [hcompare, if_false]
      by_cases hindex : id.index = t.names.size
      · rw [if_pos hindex, t.ids_iff, hindex]
        simp [hname]
      · rw [if_neg hindex]
        exact t.ids_iff other id

theorem id?_eq_some_iff (t : NameTable kind) (name : String) (id : Ident kind) :
    t.id? name = some id ↔ t.name? id = some name :=
  t.ids_iff name id

end NameTable

end Thoroughfare

/-!
# Identifiers

Agents, nodes, links and partitions are numbered from zero in the order in which they are
added.  One type, indexed by the kind of thing that is named, serves all four; the greatest
number of each kind is reserved for "none".
-/

namespace Thoroughfare

/-- The kinds of things that carry a number. -/
inductive Entity where
  | agent
  | node
  | link
  | partition
deriving DecidableEq, Repr

namespace Entity

def label : Entity → String
  | agent => "AgentId"
  | node => "NodeId"
  | link => "LinkId"
  | partition => "PartitionId"

/-- The number that is reserved for "none"; every other identifier is below it. -/
def reserved : Entity → Nat
  | partition => 65535
  | _ => 4294967295

end Entity

/-- The number of one agent, node, link or partition. -/
structure Ident (kind : Entity) where
  index : Nat
deriving DecidableEq, Repr

abbrev AgentId := Ident .agent
abbrev NodeId := Ident .node
abbrev LinkId := Ident .link
abbrev PartitionId := Ident .partition

namespace Ident

variable {kind : Entity}

/-- The identifier that names nothing. -/
def invalid : Ident kind :=
  ⟨kind.reserved⟩

instance : Inhabited (Ident kind) :=
  ⟨invalid⟩

/-- An identifier names something unless it is the reserved one. -/
def IsValid (i : Ident kind) : Prop :=
  i ≠ invalid

instance (i : Ident kind) : Decidable i.IsValid :=
  inferInstanceAs (Decidable (i ≠ invalid))

instance : Ord (Ident kind) :=
  ⟨fun a b => compare a.index b.index⟩

instance : LT (Ident kind) :=
  ⟨fun a b => a.index < b.index⟩

instance : LE (Ident kind) :=
  ⟨fun a b => a.index ≤ b.index⟩

instance (a b : Ident kind) : Decidable (a < b) :=
  inferInstanceAs (Decidable (a.index < b.index))

instance (a b : Ident kind) : Decidable (a ≤ b) :=
  inferInstanceAs (Decidable (a.index ≤ b.index))

theorem eq_iff_index_eq {a b : Ident kind} : a = b ↔ a.index = b.index := by
  cases a
  cases b
  simp

instance : Std.TransOrd (Ident kind) where
  eq_swap {a b} := Std.OrientedOrd.eq_swap (a := a.index) (b := b.index)
  isLE_trans {a b c} := Std.TransOrd.isLE_trans (a := a.index) (b := b.index) (c := c.index)

instance : Std.LawfulEqOrd (Ident kind) where
  eq_of_compare {a b} h := by
    have hindex : a.index = b.index := Std.LawfulEqOrd.eq_of_compare h
    exact eq_iff_index_eq.2 hindex

/-- The text of an identifier: its label and its number, as in `AgentId(7)`. -/
def text (i : Ident kind) : String :=
  kind.label ++ "(" ++ toString i.index ++ ")"

instance : ToString (Ident kind) :=
  ⟨text⟩

/-- The text that says a number is too big to be an identifier. -/
def outOfRangeMessage : String :=
  "number too large to fit in target type"

/-- The identifier with a given number, if the number is in range. -/
def ofIndex? (n : Nat) : Option (Ident kind) :=
  if n ≤ kind.reserved then some ⟨n⟩ else none

end Ident

end Thoroughfare

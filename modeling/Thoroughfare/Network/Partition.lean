import Thoroughfare.Network.Basic

/-!
# Splitting a network

A partitioning gives every node to one of `k` partitions and every link to the owner of its
end node.  It is found in two stages, each of which decides in ascending order of
numbers, so that it depends on the network and the settings alone.

First, regions grow one after the other, breadth first from the lowest free node, until each
has its share of the nodes; a region that cannot grow restarts from the lowest free node.
Then passes over all nodes move a node to the neighbouring partition with which it shares the
most links, if that is more than with its own and the sizes stay within bounds.
-/

namespace Thoroughfare

/-- An owner for every node and link. -/
structure Partitioning where
  count : Nat
  nodeOwners : Array PartitionId
  linkOwners : Array PartitionId
  /-- Which links lead from one partition into another. -/
  boundary : Array Bool
deriving DecidableEq, Repr

namespace Partitioning

/-- The owner of an element of a table of owners; what is unknown belongs to the first
partition. -/
def ownerAt (owners : Array PartitionId) (index : Nat) : PartitionId :=
  owners.getD index ⟨0⟩

/-- Give the links to the owners of their end nodes. -/
def ofNodeOwners (g : Network) (count : Nat) (owners : Array PartitionId) : Partitioning where
  count := count
  nodeOwners := owners
  linkOwners := g.links.map fun l => ownerAt owners l.endNode.index
  boundary := g.links.map fun l =>
    decide (ownerAt owners l.startNode.index ≠ ownerAt owners l.endNode.index)

def single (g : Network) : Partitioning :=
  ofNodeOwners g 1 (Array.replicate g.nodes.size ⟨0⟩)

def nodeOwner (p : Partitioning) (id : NodeId) : PartitionId :=
  ownerAt p.nodeOwners id.index

/-- The owner of a link; unknown links belong to the first partition. -/
def linkOwner (p : Partitioning) (id : LinkId) : PartitionId :=
  ownerAt p.linkOwners id.index

/-- Whether a link leads from one partition into another. -/
def isBoundary (p : Partitioning) (id : LinkId) : Bool :=
  p.boundary.getD id.index false

def cutSize (p : Partitioning) : Nat :=
  p.boundary.count true

/-- The links of a partition, ascending. -/
def linksOf (p : Partitioning) (owner : PartitionId) : List LinkId :=
  p.linkOwners.toList.zipIdx.filterMap fun entry =>
    if entry.1 = owner then some ⟨entry.2⟩ else none

/-- How many nodes each partition owns. -/
def sizesOf (count : Nat) (owners : Array PartitionId) : Array Nat :=
  owners.foldl (fun sizes owner => sizes.modify owner.index (· + 1)) (Array.replicate count 0)

def sizes (p : Partitioning) : Array Nat :=
  sizesOf p.count p.nodeOwners

end Partitioning

/-- For every node its neighbours, ascending, one entry for each link in either direction.  Links
from a node to itself do not count. -/
abbrev Neighbours := Array (List Nat)

namespace Neighbours

/-- The neighbours of a node. -/
def of (adjacency : Neighbours) (node : Nat) : List Nat :=
  adjacency.getD node []

def ofNetwork (g : Network) : Neighbours :=
  let joined := g.links.foldl
    (fun (adjacency : Array (List Nat)) l =>
      if l.startNode = l.endNode then adjacency
      else
        (adjacency.modify l.startNode.index (l.endNode.index :: ·)).modify
          l.endNode.index (l.startNode.index :: ·))
    (Array.replicate g.nodes.size [])
  joined.map fun nodes => nodes.mergeSort (· ≤ ·)

end Neighbours

namespace Region

/-- The owners found so far; `none` marks a free node. -/
abbrev Owners := Array (Option PartitionId)

/-- Whether a node exists and has no owner. -/
def isFree (owners : Owners) (node : Nat) : Bool :=
  owners[node]? = some none

/-- Give nodes to a partition. -/
def assign (owner : PartitionId) (owners : Owners) (nodes : List Nat) : Owners :=
  nodes.foldl (fun owners node => owners.setIfInBounds node (some owner)) owners

/-- Grow a region by up to `remaining` nodes from its frontier, breadth first. -/
def grow (adjacency : Neighbours) (owner : PartitionId) (remaining : Nat) (frontier : List Nat)
    (owners : Owners) : Owners :=
  if remaining = 0 then owners
  else
    match frontier with
    | [] =>
        match owners.findIdx? (·.isNone) with
        | none => owners
        | some start =>
            grow adjacency owner (remaining - 1) [start] (assign owner owners [start])
    | node :: rest =>
        let claimed := ((adjacency.of node).filter (isFree owners)).eraseDups.take remaining
        grow adjacency owner (remaining - claimed.length) (rest ++ claimed)
          (assign owner owners claimed)
termination_by 2 * remaining + frontier.length
decreasing_by
  · simp only [List.length_singleton, List.length_nil]
    omega
  · have hclaimed := List.length_take_le remaining
      ((adjacency.of node).filter (isFree owners)).eraseDups
    simp only [List.length_append, List.length_cons]
    omega

/-- The number of nodes that a partition is to get: an equal share, and one more for as many
partitions as the division leaves over. -/
def share (nodes count index : Nat) : Nat :=
  nodes / count + if index < nodes % count then 1 else 0

/-- Grow the regions of all partitions from `first` on. -/
def growAll (adjacency : Neighbours) (nodes count : Nat) (owners : Owners) :
    List Nat → Owners
  | [] => owners
  | index :: rest =>
      growAll adjacency nodes count (grow adjacency ⟨index⟩ (share nodes count index) [] owners)
        rest

def owners (adjacency : Neighbours) (nodes count : Nat) : Array PartitionId :=
  (growAll adjacency nodes count (Array.replicate nodes none) (List.range count)).map
    (·.getD .invalid)

end Region

namespace Refinement

/-- The sizes that a move must respect. -/
structure Bounds where
  least : Nat
  greatest : Nat
deriving DecidableEq, Repr

/-- The bounds for `nodes` nodes in `count` partitions, when sizes may deviate from the mean by a
share of it. -/
def Bounds.ofImbalance {α : Type} [Quantity α] (nodes count : Nat) (imbalance : α) : Bounds :=
  let mean := Quantity.ofNat (α := α) nodes / Quantity.ofNat count
  { least := Quantity.floor (mean * (Quantity.ofNat 1 - imbalance))
    greatest := max (Quantity.ceil (mean * (Quantity.ofNat 1 + imbalance))) 1 }

/-- The state of a pass. -/
structure Pass where
  owners : Array PartitionId
  sizes : Array Nat
  moved : Nat
deriving DecidableEq, Repr

/-- The partitions of a node's neighbours, one entry for each link. -/
def votes (adjacency : Neighbours) (owners : Array PartitionId) (node : Nat) : List PartitionId :=
  (adjacency.of node).map (Partitioning.ownerAt owners)

/-- Of two partitions the one with more links, and of equals the lower one. -/
def better (votes : List PartitionId) (best next : PartitionId) : PartitionId :=
  if votes.count best < votes.count next then next
  else if votes.count next < votes.count best then best
  else if next.index < best.index then next
  else best

/-- The partition that a node should move to. -/
def target? (bounds : Bounds) (pass : Pass) (current : PartitionId) (votes : List PartitionId) :
    Option PartitionId :=
  let rivals := votes.filter fun other =>
    other ≠ current ∧ votes.count current < votes.count other ∧
      pass.sizes.getD other.index 0 + 1 ≤ bounds.greatest
  match rivals with
  | [] => none
  | first :: rest => some (rest.foldl (better votes) first)

def visit (adjacency : Neighbours) (bounds : Bounds) (pass : Pass) (node : Nat) : Pass :=
  let current := Partitioning.ownerAt pass.owners node
  if pass.sizes.getD current.index 0 ≤ max bounds.least 1 then pass
  else
    match target? bounds pass current (votes adjacency pass.owners node) with
    | none => pass
    | some other =>
        { owners := pass.owners.setIfInBounds node other
          sizes := (pass.sizes.modify current.index (· - 1)).modify other.index (· + 1)
          moved := pass.moved + 1 }

/-- One pass over all nodes. -/
def sweep (adjacency : Neighbours) (bounds : Bounds) (count : Nat) (owners : Array PartitionId) :
    Pass :=
  (List.range owners.size).foldl (visit adjacency bounds)
    ⟨owners, Partitioning.sizesOf count owners, 0⟩

/-- Up to `passes` passes; a pass that moves nothing is the last. -/
def refine (adjacency : Neighbours) (bounds : Bounds) (count : Nat) :
    Nat → Array PartitionId → Array PartitionId
  | 0, owners => owners
  | passes + 1, owners =>
      let pass := sweep adjacency bounds count owners
      if pass.moved = 0 then pass.owners else refine adjacency bounds count passes pass.owners

end Refinement

/-- Settings for splitting a network. -/
structure Partitioner (α : Type) where
  count : Nat
  refinePasses : Nat
  /-- By which share of the mean a partition's size may deviate from it. -/
  imbalance : α

namespace Partitioner

/-- The standard settings for a number of partitions. -/
def standard (count : Nat) : Partitioner Float :=
  ⟨count, 4, 0.05⟩

variable {α : Type} [Quantity α]

def split (p : Partitioner α) (g : Network) : Except NetworkError Partitioning :=
  if p.count = 0 then .error .noPartitions
  else if 65535 < p.count then .error (.tooManyPartitions p.count)
  else if p.count = 1 then .ok (.single g)
  else
    let adjacency := Neighbours.ofNetwork g
    let nodes := g.nodes.size
    let bounds := Refinement.Bounds.ofImbalance nodes p.count p.imbalance
    let grown := Region.owners adjacency nodes p.count
    .ok (.ofNodeOwners g p.count
      (Refinement.refine adjacency bounds p.count p.refinePasses grown))

end Partitioner

end Thoroughfare

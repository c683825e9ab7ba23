import Thoroughfare.Proofs.Network.Sizes

/-!
# The cut of a partitioning

Links between nodes of different owners are cut.  The table of neighbours has one entry for each
link in either direction, so a node finds among its neighbours just the links along it: with one
owner or another at the far end, several times where there are several links, and without those
that lead from the node to itself.  Whoever moves a node to another owner cuts the links to its old
owner and joins those to the new one, and no other link changes.
-/

namespace Thoroughfare

/-! ## Neighbours -/

namespace Neighbours

/-- Whether a link leads along a node, in either direction, and has a certain node at its other
end. -/
def along (node : Nat) (p : Nat → Bool) (l : Link) : Bool :=
  l.startNode ≠ l.endNode ∧ (l.startNode.index = node ∧ p l.endNode.index ∨
    l.endNode.index = node ∧ p l.startNode.index)

/-- Enter a link at both of its ends. -/
def join (adjacency : Neighbours) (l : Link) : Neighbours :=
  if l.startNode = l.endNode then adjacency
  else
    (adjacency.modify l.startNode.index (l.endNode.index :: ·)).modify
      l.endNode.index (l.startNode.index :: ·)

theorem size_join (adjacency : Neighbours) (l : Link) :
    (adjacency.join l).size = adjacency.size := by
  rw [join]
  split
  · rfl
  · rw [Array.size_modify, Array.size_modify]

theorem of_modify {adjacency : Neighbours} {node : Nat} (h : node < adjacency.size) (other : Nat)
    (change : List Nat → List Nat) :
    of (adjacency.modify other change) node =
      if other = node then change (adjacency.of node) else adjacency.of node := by
  rw [of, of, Array.getD_eq_getD_getElem?, Array.getD_eq_getD_getElem?, Array.getElem?_modify,
    Array.getElem?_eq_getElem h]
  split <;> rfl

/-- A link is one more neighbour at the nodes along which it leads. -/
theorem countP_of_join {adjacency : Neighbours} {node : Nat} (h : node < adjacency.size)
    (p : Nat → Bool) (l : Link) :
    ((adjacency.join l).of node).countP p =
      (adjacency.of node).countP p + if along node p l then 1 else 0 := by
  rw [join]
  by_cases hloop : l.startNode = l.endNode
  · rw [if_pos hloop, if_neg (by simp [along, hloop]), Nat.add_zero]
  · have hends : l.startNode.index ≠ l.endNode.index := fun hsame =>
      hloop (Ident.eq_iff_index_eq.2 hsame)
    rw [if_neg hloop, of_modify (by rwa [Array.size_modify]), of_modify h]
    by_cases hstart : l.startNode.index = node
    · have hend : l.endNode.index ≠ node := fun hsame => hends (hstart.trans hsame.symm)
      simp [along, hloop, hstart, hend, List.countP_cons]
    · by_cases hend : l.endNode.index = node
      · simp [along, hloop, hstart, hend, List.countP_cons]
      · simp [along, hstart, hend]

theorem countP_of_foldl_join {adjacency : Neighbours} {node : Nat} (h : node < adjacency.size)
    (p : Nat → Bool) (links : List Link) :
    ((links.foldl join adjacency).of node).countP p =
      (adjacency.of node).countP p + links.countP (along node p) := by
  induction links generalizing adjacency with
  | nil => rfl
  | cons first rest ih =>
      rw [List.foldl_cons, ih (by rwa [size_join]), countP_of_join h, List.countP_cons]
      omega

theorem size_foldl_join (adjacency : Neighbours) (links : List Link) :
    (links.foldl join adjacency).size = adjacency.size := by
  induction links generalizing adjacency with
  | nil => rfl
  | cons first rest ih => rw [List.foldl_cons, ih, size_join]

theorem ofNetwork_eq (g : Network) :
    ofNetwork g = (g.links.toList.foldl join (Array.replicate g.nodes.size [])).map
      fun nodes => nodes.mergeSort (· ≤ ·) := by
  rw [Array.foldl_toList]
  rfl

theorem size_ofNetwork (g : Network) : (ofNetwork g).size = g.nodes.size := by
  rw [ofNetwork_eq, Array.size_map, size_foldl_join, Array.size_replicate]

theorem of_ofNetwork_eq_nil {g : Network} {node : Nat} (h : g.nodes.size ≤ node) :
    (ofNetwork g).of node = [] := by
  rw [of, Array.getD_eq_getD_getElem?, Array.getElem?_eq_none (by rwa [size_ofNetwork]),
    Option.getD_none]

/-- The neighbours of a node are the other ends of the links along it. -/
theorem countP_of_ofNetwork {g : Network} {node : Nat} (h : node < g.nodes.size)
    (p : Nat → Bool) :
    ((ofNetwork g).of node).countP p = g.links.toList.countP (along node p) := by
  have hsize : node < (g.links.toList.foldl join (Array.replicate g.nodes.size [])).size := by
    rwa [size_foldl_join, Array.size_replicate]
  have hsorted : (ofNetwork g).of node =
      (of (g.links.toList.foldl join (Array.replicate g.nodes.size [])) node).mergeSort
        (· ≤ ·) := by
    rw [ofNetwork_eq, of, of, Array.getD_eq_getD_getElem?, Array.getD_eq_getD_getElem?,
      Array.getElem?_map, Array.getElem?_eq_getElem hsize]
    rfl
  rw [hsorted, (List.mergeSort_perm _ _).countP_eq,
    countP_of_foldl_join (by rwa [Array.size_replicate]), of, Array.getD_eq_getD_getElem?,
    Array.getElem?_replicate, if_pos h, Option.getD_some, List.countP_nil, Nat.zero_add]

end Neighbours

/-! ## Links that are cut -/

namespace Partitioning

variable {g : Network} {owners : Array PartitionId}

/-- Whether the ends of a link have different owners. -/
def crosses (owners : Array PartitionId) (l : Link) : Bool :=
  ownerAt owners l.startNode.index ≠ ownerAt owners l.endNode.index

/-- How many links lead from one owner to another. -/
def cut (g : Network) (owners : Array PartitionId) : Nat :=
  g.links.toList.countP (crosses owners)

theorem cutSize_ofNodeOwners (g : Network) (count : Nat) (owners : Array PartitionId) :
    (ofNodeOwners g count owners).cutSize = cut g owners := by
  rw [cutSize, ofNodeOwners, ← Array.count_toList, Array.toList_map, List.count, List.countP_map,
    cut]
  congr 1
  funext l
  simp [crosses]

/-- A link changes only if it leads along the node that is moved: to the new owner it is no longer
cut, and to the old one it is. -/
theorem crosses_setIfInBounds {node : Nat} (h : node < owners.size) (next : PartitionId)
    (l : Link) :
    (crosses (owners.setIfInBounds node next) l).toNat +
        (Neighbours.along node (fun other => ownerAt owners other = next) l).toNat =
      (crosses owners l).toNat +
        (Neighbours.along node (fun other => ownerAt owners other = ownerAt owners node)
          l).toNat := by
  simp only [crosses, Neighbours.along, ownerAt_setIfInBounds h]
  by_cases hloop : l.startNode = l.endNode
  · simp [hloop]
  have hends : l.startNode.index ≠ l.endNode.index := fun hsame =>
    hloop (Ident.eq_iff_index_eq.2 hsame)
  -- with respect to one owner the other end either crosses or votes
  have hone : ∀ a b : PartitionId, (decide (a ≠ b)).toNat + (decide (b = a)).toNat = 1 := by
    intro a b
    by_cases hab : b = a <;> simp [hab, eq_comm (a := a)]
  by_cases hstart : l.startNode.index = node
  · have hend : l.endNode.index ≠ node := fun hsame => hends (hstart.trans hsame.symm)
    simpa [hloop, hstart, hend] using (hone _ _).trans (hone _ _).symm
  · by_cases hend : l.endNode.index = node
    · have hother := (hone next (ownerAt owners l.startNode.index)).trans
        (hone (ownerAt owners node) (ownerAt owners l.startNode.index)).symm
      simpa [hloop, hstart, hend, eq_comm (a := ownerAt owners l.startNode.index)] using hother
    · simp [hstart, hend]

theorem count_votes {node : Nat} (hnode : node < g.nodes.size) (owner : PartitionId) :
    (Refinement.votes (.ofNetwork g) owners node).count owner =
      g.links.toList.countP
        (Neighbours.along node fun other => ownerAt owners other = owner) := by
  rw [Refinement.votes, List.count, List.countP_map, ← Neighbours.countP_of_ofNetwork hnode]
  congr 1

/-- The votes of the neighbours say what a move is worth. -/
theorem cut_setIfInBounds {node : Nat} (h : node < owners.size) (hnode : node < g.nodes.size)
    (next : PartitionId) :
    cut g (owners.setIfInBounds node next) +
        (Refinement.votes (.ofNetwork g) owners node).count next =
      cut g owners +
        (Refinement.votes (.ofNetwork g) owners node).count (ownerAt owners node) := by
  rw [count_votes hnode, count_votes hnode, cut, cut]
  exact countP_add_countP_of_forall fun l _ => crosses_setIfInBounds h next l

end Partitioning
end Thoroughfare

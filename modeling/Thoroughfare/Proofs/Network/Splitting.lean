import Mathlib.Algebra.Order.Field.Rat
import Mathlib.Tactic.Linarith
import Thoroughfare.Proofs.Network.Building
import Thoroughfare.Proofs.Network.NodeByNode
import Thoroughfare.Proofs.Network.Refinement

/-!
# What a splitting achieves

A network is split by growing regions and refining them.  Regions have equal shares, but for one
node more in the first of them, so they lie within any bounds around the mean, and refining never
takes a partition out of its bounds.  Nor does it ever cut more links than before.
-/

namespace Thoroughfare

open Partitioning Refinement

/-! ## The parts of a splitting -/

namespace Partitioner

variable {α : Type}

/-- The owners of the nodes when the regions have grown. -/
def grown (p : Partitioner α) (g : Network) : Array PartitionId :=
  Region.owners (.ofNetwork g) g.nodes.size p.count

/-- The sizes that refining respects. -/
def bounds [Quantity α] (p : Partitioner α) (g : Network) : Bounds :=
  .ofImbalance g.nodes.size p.count p.imbalance

theorem below_grown (p : Partitioner α) (g : Network) (h : 1 ≤ p.count) :
    Below p.count (p.grown g) :=
  Region.below_owners _ _ h

theorem size_grown (p : Partitioner α) (g : Network) : (p.grown g).size = g.nodes.size :=
  Region.size_owners _ _ _

/-- Whoever splits into one partition need not grow it. -/
theorem grown_eq_replicate {p : Partitioner α} (h : p.count = 1) (g : Network) :
    p.grown g = Array.replicate g.nodes.size ⟨0⟩ := by
  rw [Array.eq_replicate_iff]
  refine ⟨p.size_grown g, fun owner howner => ?_⟩
  have hlt := p.below_grown g h.ge owner howner
  rw [h] at hlt
  exact Ident.eq_iff_index_eq.2 (Nat.lt_one_iff.1 hlt)

/-- A splitting refines the regions that have grown. -/
theorem exists_split [Quantity α] (p : Partitioner α) (g : Network) (hpos : 1 ≤ p.count)
    (hmost : p.count ≤ 65535) :
    ∃ owners moved, p.split g = .ok (.ofNodeOwners g p.count owners) ∧ Below p.count owners ∧
      Improves g (p.bounds g) moved (p.grown g) owners := by
  have hgrown := p.below_grown g hpos
  rw [split, if_neg (Nat.ne_of_gt hpos), if_neg (Nat.not_lt.2 hmost)]
  by_cases hone : p.count = 1
  · rw [if_pos hone, single, ← grown_eq_replicate hone g]
    refine ⟨p.grown g, 0, ?_, hgrown, .refl g _ _⟩
    rw [hone]
  · rw [if_neg hone]
    obtain ⟨hbelow, moved, himproves⟩ :=
      refine_improves g (p.bounds g) hgrown p.refinePasses
    exact ⟨_, moved, rfl, hbelow, himproves⟩

end Partitioner

/-! ## Sizes -/

section Sizes

variable {nodes count index : Nat} {imbalance : Rat}

theorem share_lt_mean_add_one (hcount : 0 < count) (nodes index : Nat) :
    (Region.share nodes count index : Rat) < nodes / count + 1 := by
  have hpos : (0 : Rat) < count := Nat.cast_pos.2 hcount
  have hshare : (Region.share nodes count index * count : Rat) < nodes + count :=
    mod_cast Region.share_mul_lt hcount nodes
  rwa [div_add_one hpos.ne', lt_div_iff₀ hpos]

theorem mean_lt_share_add_one (hcount : 0 < count) (nodes index : Nat) :
    (nodes / count : Rat) < Region.share nodes count index + 1 := by
  have hpos : (0 : Rat) < count := Nat.cast_pos.2 hcount
  have hshare : (nodes : Rat) < (Region.share nodes count index + 1) * count :=
    mod_cast Region.lt_share_mul hcount nodes index
  rwa [div_lt_iff₀ hpos]

theorem least_ofImbalance (nodes count : Nat) (imbalance : Rat) :
    ((Bounds.ofImbalance nodes count imbalance).least : Int) =
      max 0 ((nodes / count : Rat) * (1 - imbalance)).floor := by
  change ((((nodes : Rat) / count) * ((1 : Nat) - imbalance)).floor.toNat : Int) = _
  rw [Int.toNat_eq_max, Nat.cast_one, max_comm]

theorem greatest_ofImbalance (nodes count : Nat) (imbalance : Rat) :
    ((Bounds.ofImbalance nodes count imbalance).greatest : Int) =
      max 1 ((nodes / count : Rat) * (1 + imbalance)).ceil := by
  change ((max (((nodes : Rat) / count) * ((1 : Nat) + imbalance)).ceil.toNat 1 : Nat) : Int) = _
  rw [Nat.cast_one]
  omega

/-- Equal shares lie within the bounds. -/
theorem least_le_share (hcount : 0 < count) (himbalance : 0 ≤ imbalance) (nodes index : Nat) :
    (Bounds.ofImbalance nodes count imbalance).least ≤ Region.share nodes count index := by
  have hmean := mean_lt_share_add_one hcount nodes index
  have hleast : (nodes / count : Rat) * (1 - imbalance) ≤ nodes / count :=
    mul_le_of_le_one_right (div_nonneg (Nat.cast_nonneg _) (Nat.cast_nonneg _)) (by linarith)
  have hfloor : ((nodes / count : Rat) * (1 - imbalance)).floor <
      (Region.share nodes count index + 1 : Int) := by
    rw [Rat.floor_lt_iff]
    push_cast
    linarith
  have hdef := least_ofImbalance nodes count imbalance
  omega

theorem share_le_greatest (hcount : 0 < count) (himbalance : 0 ≤ imbalance) (nodes index : Nat) :
    Region.share nodes count index ≤ (Bounds.ofImbalance nodes count imbalance).greatest := by
  have hmean := share_lt_mean_add_one hcount nodes index
  have hgreatest : (nodes / count : Rat) ≤ nodes / count * (1 + imbalance) :=
    le_mul_of_one_le_right (div_nonneg (Nat.cast_nonneg _) (Nat.cast_nonneg _)) (by linarith)
  have hceil : (Region.share nodes count index - 1 : Int) <
      ((nodes / count : Rat) * (1 + imbalance)).ceil := by
    rw [Rat.lt_ceil_iff]
    push_cast
    linarith
  have hdef := greatest_ofImbalance nodes count imbalance
  omega

end Sizes

/-! ## What is found -/

namespace Partitioning

variable {g : Network} {count : Nat} {owners : Array PartitionId}

/-- A partitioning gives every node and every link of a network to a partition. -/
structure Complete (g : Network) (count : Nat) (p : Partitioning) : Prop where
  parts : p.count = count
  size : p.nodeOwners.size = g.nodes.size
  below : Below count p.nodeOwners
  sizes : p.sizes.toList = (List.range count).map fun i => p.nodeOwners.count ⟨i⟩
  total : p.sizes.toList.sum = g.nodes.size
  link : ∀ id l, g.link? id = some l → p.linkOwner id = p.nodeOwner l.endNode
  /-- Links between different owners are on the boundary, and no others. -/
  boundary : ∀ id l, g.link? id = some l →
    (p.isBoundary id = true ↔ p.nodeOwner l.startNode ≠ p.nodeOwner l.endNode)

@[simp] theorem nodeOwners_ofNodeOwners (g : Network) (count : Nat) (owners : Array PartitionId) :
    (ofNodeOwners g count owners).nodeOwners = owners :=
  rfl

theorem complete_ofNodeOwners (hsize : owners.size = g.nodes.size) (hbelow : Below count owners) :
    (ofNodeOwners g count owners).Complete g count where
  parts := rfl
  size := hsize
  below := hbelow
  sizes := toList_sizesOf count owners
  total := (sum_sizesOf hbelow).trans hsize
  link id l hl := by
    rw [Network.link?] at hl
    rw [linkOwner, ownerAt, Array.getD_eq_getD_getElem?, ofNodeOwners, Array.getElem?_map, hl]
    rfl
  boundary id l hl := by
    rw [Network.link?] at hl
    rw [isBoundary, Array.getD_eq_getD_getElem?, ofNodeOwners, Array.getElem?_map, hl]
    exact decide_eq_true_iff

end Partitioning

namespace Network

/-- Two places that are joined in both directions, one of them with a way on to a third, where one
can turn. -/
def village : Network where
  nodes := #[⟨⟨0⟩, .origin⟩, ⟨⟨1⟩, .origin⟩, ⟨⟨2⟩, .origin⟩]
  links := #[(lane ⟨1⟩ ⟨2⟩).toLink ⟨0⟩, (lane ⟨0⟩ ⟨1⟩).toLink ⟨1⟩, (lane ⟨1⟩ ⟨0⟩).toLink ⟨2⟩,
    (lane ⟨2⟩ ⟨2⟩).toLink ⟨3⟩]
  outgoing := ⟨#[0, 1, 3, 4], #[⟨1⟩, ⟨0⟩, ⟨2⟩, ⟨3⟩]⟩
  incoming := ⟨#[0, 1, 2, 4], #[⟨2⟩, ⟨1⟩, ⟨0⟩, ⟨3⟩]⟩
  periodSecs := standardPeriodSecs

theorem ofNetwork_village : Neighbours.ofNetwork village = #[[1, 1], [0, 0, 2], [1]] := by
  have hjoined : village.links.toList.foldl Neighbours.join
      (Array.replicate village.nodes.size []) = #[[1, 1], [0, 0, 2], [1]] := by
    decide +kernel
  rw [Neighbours.ofNetwork_eq, hjoined]
  simp [List.mergeSort_of_pairwise]

end Network

namespace Partitioner

/-- Growing takes every node once, for the partition that owns it, node by node as well as together,
and each partition gets an equal share, but for one node more in as many of the first partitions as
the division leaves over.  Splitting succeeds, and it gives every node to one of the partitions,
with sizes within the bounds around the mean that sum to the number of nodes; no partition that had
a node becomes empty.  A link belongs to the owner of its end, and is on the boundary just if its
ends have different owners. -/
theorem splitting_is_complete_and_balanced (p : Partitioner Rat) (g : Network)
    (hpos : 1 ≤ p.count) (hmost : p.count ≤ 65535) (himbalance : 0 ≤ p.imbalance) :
    (Region.Growth.run (.ofNetwork g) g.nodes.size p.count).owners = p.grown g ∧
    ((Region.Growth.run (.ofNetwork g) g.nodes.size p.count).taken.map (·.1)).Perm
      (List.range g.nodes.size) ∧
    (∀ (node : Nat) (owner : PartitionId),
      (node, owner) ∈ (Region.Growth.run (.ofNetwork g) g.nodes.size p.count).taken ↔
        (p.grown g)[node]? = some owner) ∧
    (∀ i < p.count, (p.grown g).count ⟨i⟩ =
      g.nodes.size / p.count + if i < g.nodes.size % p.count then 1 else 0) ∧
    ∃ result, p.split g = .ok result ∧ result.Complete g p.count ∧
      ∀ i < p.count,
        max 0 ((g.nodes.size / p.count : Rat) * (1 - p.imbalance)).floor ≤
          (result.nodeOwners.count ⟨i⟩ : Int) ∧
        (result.nodeOwners.count ⟨i⟩ : Int) ≤
          max 1 ((g.nodes.size / p.count : Rat) * (1 + p.imbalance)).ceil ∧
        (0 < (p.grown g).count ⟨i⟩ → 0 < result.nodeOwners.count ⟨i⟩) := by
  have hshare : ∀ i < p.count, (p.grown g).count ⟨i⟩ = Region.share g.nodes.size p.count i :=
    fun i hi => Region.count_owners _ _ hpos hi
  refine ⟨Region.Growth.owners_run _ _ hmost, Region.Growth.perm_taken_run _ _ hpos hmost,
    fun node owner => Region.Growth.mem_taken_run_iff hpos hmost, hshare, ?_⟩
  obtain ⟨owners, moved, hsplit, hbelow, himproves⟩ := p.exists_split g hpos hmost
  refine ⟨_, hsplit, complete_ofNodeOwners (himproves.size.trans (p.size_grown g)) hbelow,
    fun i hi => ?_⟩
  have hleast := himproves.least ⟨i⟩
  have hgreatest := himproves.greatest ⟨i⟩
  have hfits := least_le_share hpos himbalance g.nodes.size i
  have hfits' := share_le_greatest hpos himbalance g.nodes.size i
  rw [← hshare i hi] at hfits hfits'
  rw [bounds] at hleast hgreatest
  rw [← least_ofImbalance, ← greatest_ofImbalance, nodeOwners_ofNodeOwners]
  omega

/-- Three nodes are split into one and two. -/
theorem splitting_is_complete_and_balanced_village :
    ∃ result, (⟨2, 4, 1 / 20⟩ : Partitioner Rat).split .village = .ok result ∧
      result.Complete .village 2 ∧
      ∀ i < 2, 1 ≤ result.nodeOwners.count ⟨i⟩ ∧ result.nodeOwners.count ⟨i⟩ ≤ 2 := by
  obtain ⟨-, -, -, -, result, hsplit, hcomplete, hsizes⟩ :=
    splitting_is_complete_and_balanced ⟨2, 4, 1 / 20⟩ .village (by decide) (by decide)
      (by decide +kernel)
  refine ⟨result, hsplit, hcomplete, fun i hi => ?_⟩
  obtain ⟨hleast, hgreatest, -⟩ := hsizes i hi
  have hfloor : max 0 (((3 : Nat) / (2 : Nat) : Rat) * (1 - 1 / 20)).floor = 1 := by decide +kernel
  have hceil : max 1 (((3 : Nat) / (2 : Nat) : Rat) * (1 + 1 / 20)).ceil = 2 := by decide +kernel
  exact ⟨mod_cast hfloor.ge.trans hleast, mod_cast hgreatest.trans hceil.le⟩

end Partitioner

/-! ## The cut -/

namespace Network

/-- A pass cuts at least one link less for each node that it moves, a link as often as it is there
and never one from a node to itself; it takes no partition out of the sizes that it respects, and
if it moves nothing, it leaves all owners alone.  So the splitting of a network cuts no more links
than its regions do when they have grown, however many passes are made. -/
theorem refining_does_not_widen_the_cut (g : Network) :
    (∀ (count : Nat) (bounds : Bounds) (owners : Array PartitionId), Below count owners →
      Improves g bounds (sweep (.ofNetwork g) bounds count owners).moved owners
        (sweep (.ofNetwork g) bounds count owners).owners) ∧
    ∀ {α : Type} [Quantity α] (p : Partitioner α), 1 ≤ p.count → p.count ≤ 65535 →
      ∃ result, p.split g = .ok result ∧
        result.cutSize ≤ (ofNodeOwners g p.count (p.grown g)).cutSize := by
  refine ⟨fun count bounds owners howners => (sweep_improves g bounds howners).2,
    fun p hpos hmost => ?_⟩
  obtain ⟨owners, moved, hsplit, -, himproves⟩ := p.exists_split g hpos hmost
  refine ⟨_, hsplit, ?_⟩
  rw [cutSize_ofNodeOwners, cutSize_ofNodeOwners]
  exact (Nat.le_add_right _ moved).trans himproves.cut

/-- The place in the middle moves to the one with which it has two links, and the cut goes from two
links to one. -/
theorem refining_does_not_widen_the_cut_village :
    cut village #[⟨0⟩, ⟨1⟩, ⟨1⟩] = 2 ∧
    (sweep (.ofNetwork village) ⟨0, 3⟩ 2 #[⟨0⟩, ⟨1⟩, ⟨1⟩]).moved = 1 ∧
    cut village (sweep (.ofNetwork village) ⟨0, 3⟩ 2 #[⟨0⟩, ⟨1⟩, ⟨1⟩]).owners ≤ 1 ∧
    ∃ result, (⟨2, 4, 1 / 20⟩ : Partitioner Rat).split village = .ok result ∧
      result.cutSize ≤ (ofNodeOwners village 2
        ((⟨2, 4, 1 / 20⟩ : Partitioner Rat).grown village)).cutSize := by
  obtain ⟨hsweep, hsplit⟩ := refining_does_not_widen_the_cut village
  have hcut : cut village #[⟨0⟩, ⟨1⟩, ⟨1⟩] = 2 := by decide +kernel
  have hmoved : (sweep (.ofNetwork village) ⟨0, 3⟩ 2 #[⟨0⟩, ⟨1⟩, ⟨1⟩]).moved = 1 := by
    rw [ofNetwork_village]
    decide +kernel
  have hless := (hsweep 2 ⟨0, 3⟩ #[⟨0⟩, ⟨1⟩, ⟨1⟩] (by decide +kernel)).cut
  rw [hmoved, hcut] at hless
  exact ⟨hcut, hmoved, Nat.le_of_succ_le_succ hless,
    hsplit ⟨2, 4, 1 / 20⟩ (by decide) (by decide)⟩

end Network
end Thoroughfare

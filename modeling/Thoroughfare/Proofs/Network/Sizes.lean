import Thoroughfare.Network.Partition
import Thoroughfare.Proofs.Arrangement

/-!
# Sizes of partitions

A table of owners says of each node to which partition it belongs.  How many nodes a partition owns
is how often it stands in the table, and the sizes that are kept beside the table count just that.
When one node changes hands, its old owner loses one and the new one gains one.
-/

namespace Thoroughfare
namespace Partitioning

variable {count : Nat} {owners : Array PartitionId}

/-! ## Owners of single nodes -/

theorem ownerAt_of_lt {node : Nat} (h : node < owners.size) :
    ownerAt owners node = owners[node] := by
  rw [ownerAt, Array.getD_eq_getD_getElem?, Array.getElem?_eq_getElem h, Option.getD_some]

/-- All owners are partitions that exist. -/
def Below (count : Nat) (owners : Array PartitionId) : Prop :=
  ∀ owner ∈ owners, owner.index < count

instance (count : Nat) (owners : Array PartitionId) : Decidable (Below count owners) :=
  inferInstanceAs (Decidable (∀ owner ∈ owners, owner.index < count))

theorem Below.ownerAt_lt (h : Below count owners) (hcount : 0 < count) (node : Nat) :
    (ownerAt owners node).index < count := by
  by_cases hnode : node < owners.size
  · rw [ownerAt_of_lt hnode]
    exact h _ (Array.getElem_mem hnode)
  · rw [ownerAt, Array.getD_eq_getD_getElem?, Array.getElem?_eq_none (Nat.le_of_not_lt hnode)]
    exact hcount

theorem Below.setIfInBounds (h : Below count owners) {owner : PartitionId}
    (howner : owner.index < count) (node : Nat) :
    Below count (owners.setIfInBounds node owner) := by
  intro other hother
  rcases Array.mem_or_eq_of_mem_setIfInBounds hother with hold | rfl
  · exact h other hold
  · exact howner

theorem ownerAt_setIfInBounds {node : Nat} (h : node < owners.size) (owner : PartitionId)
    (other : Nat) : ownerAt (owners.setIfInBounds node owner) other =
      if other = node then owner else ownerAt owners other := by
  rw [ownerAt, ownerAt, Array.getD_eq_getD_getElem?, Array.getD_eq_getD_getElem?]
  by_cases hother : other = node
  · rw [if_pos hother, hother, Array.getElem?_setIfInBounds_self_of_lt h, Option.getD_some]
  · rw [if_neg hother, Array.getElem?_setIfInBounds_ne (Ne.symm hother)]

/-! ## Counting -/

theorem countP_index_eq (owners : Array PartitionId) (i : Nat) :
    owners.toList.countP (fun owner => owner.index = i) = owners.count ⟨i⟩ := by
  rw [← Array.count_toList, List.count]
  congr 1
  funext owner
  rw [← decide_eq_decide.2 Ident.eq_iff_index_eq]
  rfl

theorem toList_sizesOf (count : Nat) (owners : Array PartitionId) :
    (sizesOf count owners).toList = (List.range count).map fun i => owners.count ⟨i⟩ := by
  rw [sizesOf, ← Array.foldl_toList, toList_foldl_modify]
  simp only [countP_index_eq]

theorem getElem?_sizesOf (i : Nat) :
    (sizesOf count owners)[i]? = if i < count then some (owners.count ⟨i⟩) else none := by
  rw [← Array.getElem?_toList, toList_sizesOf, List.getElem?_map]
  by_cases hi : i < count
  · rw [if_pos hi, List.getElem?_range hi, Option.map_some]
  · rw [if_neg hi, List.getElem?_eq_none (by simpa using Nat.le_of_not_lt hi), Option.map_none]

theorem getD_sizesOf {owner : PartitionId} (h : owner.index < count) :
    (sizesOf count owners).getD owner.index 0 = owners.count owner := by
  rw [Array.getD_eq_getD_getElem?, getElem?_sizesOf, if_pos h, Option.getD_some]

/-- When a node changes hands, its new owner gains what its old one loses. -/
theorem count_setIfInBounds {node : Nat} (h : node < owners.size) (next owner : PartitionId) :
    (owners.setIfInBounds node next).count owner +
        (if ownerAt owners node = owner then 1 else 0) =
      owners.count owner + if next = owner then 1 else 0 := by
  have hleast := Array.boole_getElem_le_count (a := owner) h
  rw [Array.setIfInBounds, dif_pos h, Array.count_set h, ownerAt_of_lt h]
  simp only [beq_iff_eq] at hleast ⊢
  omega

theorem sizesOf_setIfInBounds {node : Nat} (h : node < owners.size) {next : PartitionId}
    (hnext : next ≠ ownerAt owners node) :
    sizesOf count (owners.setIfInBounds node next) =
      ((sizesOf count owners).modify (ownerAt owners node).index (· - 1)).modify next.index
        (· + 1) := by
  apply Array.ext_getElem?
  intro i
  have hcount := count_setIfInBounds h next ⟨i⟩
  rw [Array.getElem?_modify, Array.getElem?_modify, getElem?_sizesOf, getElem?_sizesOf]
  simp only [Ident.eq_iff_index_eq, ne_eq] at hcount hnext
  by_cases hi : i < count
  · rw [if_pos hi, if_pos hi]
    by_cases hcurrent : (ownerAt owners node).index = i
    · have hother : next.index ≠ i := fun hsame => hnext (hsame.trans hcurrent.symm)
      rw [if_pos hcurrent, if_neg hother] at hcount
      rw [if_neg hother, if_pos hcurrent, Option.map_some, ← Nat.add_zero (owners.count _),
        ← hcount, Nat.add_sub_cancel]
    · rw [if_neg hcurrent] at hcount
      rw [if_neg hcurrent]
      by_cases hother : next.index = i
      · rw [if_pos hother] at hcount
        rw [if_pos hother, Option.map_some, ← hcount, Nat.add_zero]
      · rw [if_neg hother] at hcount
        rw [if_neg hother, ← Nat.add_zero (Array.count _ _), hcount, Nat.add_zero]
  · simp only [if_neg hi, Option.map_none, ite_self]

/-- The sizes of all partitions sum to the number of nodes. -/
theorem sum_sizesOf (h : Below count owners) :
    (sizesOf count owners).toList.sum = owners.size := by
  rw [toList_sizesOf, ← Array.length_toList, ← sum_countP_key fun owner howner =>
    h owner (Array.mem_toList_iff.1 howner)]
  simp only [countP_index_eq]

end Partitioning
end Thoroughfare

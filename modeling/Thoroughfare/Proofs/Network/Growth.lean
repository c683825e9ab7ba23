import Thoroughfare.Proofs.Network.Sizes

/-!
# Growing regions

A region takes free nodes only, each of them once, and takes as many as it may as long as there are
any: from its frontier, and when there is nothing more to reach from it, from the lowest free node
on.  So each region gets its share in full whatever the network looks like, and since the shares
sum to the number of nodes, no node is left over.
-/

namespace Thoroughfare
namespace Region

variable {adjacency : Neighbours} {owner : PartitionId} {owners : Owners} {nodes count : Nat}

/-! ## Taking free nodes -/

theorem isFree_iff {node : Nat} : isFree owners node = true ↔ owners[node]? = some none :=
  decide_eq_true_iff

theorem isFree_setIfInBounds (owners : Owners) (node other : Nat) (owner : PartitionId) :
    isFree (owners.setIfInBounds node (some owner)) other =
      (decide (other ≠ node) && isFree owners other) := by
  by_cases hother : other = node
  · subst hother
    rw [isFree, Array.getElem?_setIfInBounds]
    simp
  · rw [isFree, isFree, Array.getElem?_setIfInBounds_ne (Ne.symm hother)]
    simp [hother]

/-- A partition has been given so many free nodes, and all others have as many as before. -/
structure Claims (owner : PartitionId) (given : Nat) (before after : Owners) : Prop where
  size : after.size = before.size
  free : after.count none + given = before.count none
  gains : after.count (some owner) = before.count (some owner) + given
  others : ∀ other, other ≠ owner → after.count (some other) = before.count (some other)

theorem Claims.refl (owner : PartitionId) (owners : Owners) : Claims owner 0 owners owners where
  size := rfl
  free := rfl
  gains := rfl
  others _ _ := rfl

theorem Claims.trans {given more : Nat} {before between after : Owners}
    (h : Claims owner given before between) (h' : Claims owner more between after) :
    Claims owner (given + more) before after where
  size := h'.size.trans h.size
  free := by
    rw [← h.free, ← h'.free]
    omega
  gains := by rw [h'.gains, h.gains, Nat.add_assoc]
  others other hother := (h'.others other hother).trans (h.others other hother)

/-- Free nodes get used up at the rate at which the partition grows. -/
theorem claims_setIfInBounds {node : Nat} (h : isFree owners node = true) (owner : PartitionId) :
    Claims owner 1 owners (owners.setIfInBounds node (some owner)) := by
  obtain ⟨hnode, hnone⟩ := Array.getElem?_eq_some_iff.1 (isFree_iff.1 h)
  have hfree : 0 < owners.count none := Array.count_pos_iff.2 (hnone ▸ Array.getElem_mem hnode)
  have hcount : ∀ owner? : Option PartitionId,
      (owners.setIfInBounds node (some owner)).count owner? =
        owners.count owner? - (if none = owner? then 1 else 0) +
          if some owner = owner? then 1 else 0 := by
    intro owner?
    rw [Array.setIfInBounds, dif_pos hnode, Array.count_set hnode, hnone]
    simp only [beq_iff_eq]
  constructor
  case size => exact Array.size_setIfInBounds
  case free => simpa [hcount] using Nat.sub_add_cancel hfree
  case gains => simp [hcount]
  case others =>
    intro other hother
    simp [hcount, Ne.symm hother]

theorem claims_assign (owner : PartitionId) {nodes : List Nat} (hnodup : nodes.Nodup)
    (hfree : ∀ node ∈ nodes, isFree owners node = true) :
    Claims owner nodes.length owners (assign owner owners nodes) := by
  induction nodes generalizing owners with
  | nil => exact .refl owner owners
  | cons first rest ih =>
      rw [List.nodup_cons] at hnodup
      have hfirst := claims_setIfInBounds (hfree first List.mem_cons_self) owner
      have hrest : ∀ node ∈ rest, isFree (owners.setIfInBounds first (some owner)) node = true := by
        intro node hnode
        have hne : node ≠ first := fun hsame => hnodup.1 (hsame ▸ hnode)
        rw [isFree_setIfInBounds, decide_eq_true hne, Bool.true_and]
        exact hfree node (List.mem_cons_of_mem _ hnode)
      rw [List.length_cons, Nat.add_comm]
      exact hfirst.trans (ih hnodup.2 hrest)

/-- The first of a list of nodes that are free, and each of them once. -/
def firstFree (owners : Owners) (remaining : Nat) (nodes : List Nat) : List Nat :=
  ((nodes.filter (isFree owners)).eraseDups).take remaining

@[simp] theorem firstFree_nil (owners : Owners) (remaining : Nat) :
    firstFree owners remaining [] = [] :=
  List.take_nil

@[simp] theorem firstFree_zero (owners : Owners) (nodes : List Nat) :
    firstFree owners 0 nodes = [] :=
  List.take_zero

theorem firstFree_cons_of_not_free {remaining first : Nat} {rest : List Nat}
    (h : ¬isFree owners first = true) :
    firstFree owners remaining (first :: rest) = firstFree owners remaining rest := by
  rw [firstFree, List.filter_cons, if_neg h, firstFree]

/-- What has been taken is no longer free for the rest. -/
theorem firstFree_cons_of_free (owner : PartitionId) {remaining first : Nat} {rest : List Nat}
    (h : isFree owners first = true) :
    firstFree owners (remaining + 1) (first :: rest) =
      first :: firstFree (owners.setIfInBounds first (some owner)) remaining rest := by
  rw [firstFree, List.filter_cons, if_pos h, List.eraseDups_cons, List.take_succ_cons, firstFree,
    List.filter_filter]
  congr 3
  apply List.filter_congr
  intro node _
  rw [isFree_setIfInBounds]
  by_cases hnode : node = first <;> simp [hnode]

theorem claims_firstFree (owner : PartitionId) (owners : Owners) (remaining : Nat)
    (nodes : List Nat) :
    Claims owner (firstFree owners remaining nodes).length owners
      (assign owner owners (firstFree owners remaining nodes)) := by
  refine claims_assign owner ((nodup_eraseDups _).sublist (List.take_sublist _ _)) ?_
  intro other hother
  exact (List.mem_filter.1 (List.mem_eraseDups.1 (List.mem_of_mem_take hother))).2

/-! ## Growing -/

section Equations

variable (adjacency : Neighbours) (owner : PartitionId) {remaining : Nat} {owners : Owners}

@[simp] theorem grow_zero (frontier : List Nat) (owners : Owners) :
    grow adjacency owner 0 frontier owners = owners := by
  rw [grow.eq_def, if_pos rfl]

theorem grow_nil_of_none (hnone : owners.findIdx? (·.isNone) = none) :
    grow adjacency owner remaining [] owners = owners := by
  rw [grow, hnone, ite_self]

theorem grow_nil_of_some (hremaining : remaining ≠ 0) {start : Nat}
    (hstart : owners.findIdx? (·.isNone) = some start) :
    grow adjacency owner remaining [] owners =
      grow adjacency owner (remaining - 1) [start] (assign owner owners [start]) := by
  rw [grow, if_neg hremaining, hstart]

theorem grow_cons (hremaining : remaining ≠ 0) (node : Nat) (rest : List Nat) :
    grow adjacency owner remaining (node :: rest) owners =
      grow adjacency owner (remaining - (firstFree owners remaining (adjacency.of node)).length)
        (rest ++ firstFree owners remaining (adjacency.of node))
        (assign owner owners (firstFree owners remaining (adjacency.of node))) := by
  rw [grow, if_neg hremaining]
  rfl

end Equations

/-- The lowest free node. -/
theorem findIdx?_eq_some_iff {start : Nat} :
    owners.findIdx? (·.isNone) = some start ↔
      isFree owners start = true ∧ ∀ node < start, isFree owners node = false := by
  rw [Array.findIdx?_eq_some_iff_getElem]
  constructor
  · rintro ⟨hlt, hnone, hbehind⟩
    refine ⟨?_, fun node hnode => ?_⟩
    · rw [isFree_iff, Array.getElem?_eq_getElem hlt, Option.isNone_iff_eq_none.1 hnone]
    · have hsome := hbehind node hnode
      rw [isFree, Array.getElem?_eq_getElem (hnode.trans hlt)]
      simpa using hsome
  · rintro ⟨hfree, hbehind⟩
    obtain ⟨hlt, hnone⟩ := Array.getElem?_eq_some_iff.1 (isFree_iff.1 hfree)
    refine ⟨hlt, by rw [hnone]; rfl, fun node hnode hisNone => ?_⟩
    have hsome := hbehind node hnode
    rw [isFree, Array.getElem?_eq_getElem (hnode.trans hlt)] at hsome
    simp [Option.isNone_iff_eq_none.1 hisNone] at hsome

theorem findIdx?_eq_none_iff :
    owners.findIdx? (·.isNone) = none ↔ ∀ node, isFree owners node = false := by
  constructor
  · intro hnone node
    by_contra hfree
    rw [Bool.not_eq_false, isFree_iff] at hfree
    cases Array.findIdx?_eq_none_iff.1 hnone none (Array.mem_of_getElem? hfree)
  · intro h
    cases hsome : owners.findIdx? (·.isNone) with
    | none => rfl
    | some start =>
        have hfree := (findIdx?_eq_some_iff.1 hsome).1
        rw [h start] at hfree
        cases hfree

theorem count_none_of_findIdx? (h : owners.findIdx? (·.isNone) = none) :
    owners.count none = 0 := by
  rw [Array.count_eq_zero]
  intro hmem
  cases Array.findIdx?_eq_none_iff.1 h none hmem

/-- A region takes all that it may, or all that there is. -/
theorem claims_grow (adjacency : Neighbours) (owner : PartitionId) (remaining : Nat)
    (frontier : List Nat) (owners : Owners) :
    Claims owner (min remaining (owners.count none)) owners
      (grow adjacency owner remaining frontier owners) := by
  induction remaining, frontier, owners using grow.induct adjacency owner with
  | case1 frontier owners =>
      rw [grow_zero, Nat.zero_min]
      exact .refl owner owners
  | case2 remaining owners hremaining hnone =>
      rw [grow_nil_of_none adjacency owner hnone, count_none_of_findIdx? hnone, Nat.min_zero]
      exact .refl owner owners
  | case3 remaining owners hremaining start hstart ih =>
      have hfirst : Claims owner [start].length owners (assign owner owners [start]) :=
        claims_assign owner (List.nodup_singleton start)
          (by simpa using (findIdx?_eq_some_iff.1 hstart).1)
      have hgiven : 1 + min (remaining - 1) ((assign owner owners [start]).count none) =
          min remaining (owners.count none) := by
        have hfree := hfirst.free
        rw [List.length_singleton] at hfree
        omega
      rw [grow_nil_of_some adjacency owner hremaining hstart, ← hgiven]
      exact hfirst.trans ih
  | case4 remaining owners hremaining node rest claimed ih =>
      have hfirst := claims_firstFree owner owners remaining (adjacency.of node)
      have hgiven : (firstFree owners remaining (adjacency.of node)).length +
          min (remaining - (firstFree owners remaining (adjacency.of node)).length)
            ((assign owner owners (firstFree owners remaining (adjacency.of node))).count none) =
          min remaining (owners.count none) := by
        have hfree := hfirst.free
        have hmost : (firstFree owners remaining (adjacency.of node)).length ≤ remaining :=
          List.length_take_le _ _
        omega
      rw [grow_cons adjacency owner hremaining, ← hgiven]
      exact hfirst.trans ih

/-! ## All regions -/

theorem growAll_append (owners : Owners) (first rest : List Nat) :
    growAll adjacency nodes count owners (first ++ rest) =
      growAll adjacency nodes count (growAll adjacency nodes count owners first) rest := by
  induction first generalizing owners with
  | nil => rfl
  | cons index first ih => rw [List.cons_append, growAll, growAll, ih]

/-- The owners when the regions below a number have grown. -/
def grownBelow (adjacency : Neighbours) (nodes count : Nat) (index : Nat) : Owners :=
  growAll adjacency nodes count (Array.replicate nodes none) (List.range index)

theorem grownBelow_succ (index : Nat) :
    grownBelow adjacency nodes count (index + 1) =
      grow adjacency ⟨index⟩ (share nodes count index) []
        (grownBelow adjacency nodes count index) := by
  rw [grownBelow, List.range_succ, growAll_append]
  rfl

/-- The nodes that the partitions below a number are to get. -/
def shareBelow (nodes count index : Nat) : Nat :=
  index * (nodes / count) + min index (nodes % count)

theorem shareBelow_succ (nodes count index : Nat) :
    shareBelow nodes count (index + 1) =
      shareBelow nodes count index + share nodes count index := by
  rw [shareBelow, shareBelow, share, Nat.succ_mul]
  split <;> omega

theorem shareBelow_count (nodes : Nat) {count : Nat} (hcount : 0 < count) :
    shareBelow nodes count count = nodes := by
  rw [shareBelow, Nat.min_eq_right (Nat.mod_lt nodes hcount).le, Nat.div_add_mod]

theorem shareBelow_mono (nodes count : Nat) {index later : Nat} (h : index ≤ later) :
    shareBelow nodes count index ≤ shareBelow nodes count later :=
  Nat.add_le_add (Nat.mul_le_mul_right _ h) (by omega)

/-- No share is a whole node away from the mean. -/
theorem share_mul_lt {index : Nat} (hcount : 0 < count) (nodes : Nat) :
    share nodes count index * count < nodes + count := by
  have hsplit := Nat.div_add_mod' nodes count
  have hrest := Nat.mod_lt nodes hcount
  rw [share, Nat.add_mul]
  split <;> omega

theorem lt_share_mul (hcount : 0 < count) (nodes index : Nat) :
    nodes < (share nodes count index + 1) * count := by
  have hsplit := Nat.div_add_mod' nodes count
  have hrest := Nat.mod_lt nodes hcount
  rw [share, Nat.add_mul, Nat.add_mul]
  split <;> omega

/-- The regions below a number have their shares, and everything else is free. -/
structure Grown (nodes count index : Nat) (owners : Owners) : Prop where
  size : owners.size = nodes
  free : owners.count none + shareBelow nodes count index = nodes
  gains : ∀ i < index, owners.count (some ⟨i⟩) = share nodes count i
  others : ∀ i, index ≤ i → owners.count (some ⟨i⟩) = 0

theorem Grown.start (nodes count : Nat) : Grown nodes count 0 (Array.replicate nodes none) where
  size := Array.size_replicate
  free := by simp [shareBelow]
  gains i hi := absurd hi (Nat.not_lt_zero i)
  others i _ := by simp [Array.count_replicate]

theorem Grown.grow {index : Nat} (h : Grown nodes count index owners) (hindex : index < count)
    (adjacency : Neighbours) :
    Grown nodes count (index + 1)
      (grow adjacency ⟨index⟩ (share nodes count index) [] owners) := by
  have hcount : 0 < count := Nat.zero_lt_of_lt hindex
  have hclaims := claims_grow adjacency ⟨index⟩ (share nodes count index) [] owners
  -- there is enough left for the share
  have hgiven : min (share nodes count index) (owners.count none) = share nodes count index := by
    have hmono := shareBelow_mono nodes count (Nat.succ_le_of_lt hindex)
    rw [shareBelow_count nodes hcount, shareBelow_succ] at hmono
    have hfree := h.free
    omega
  rw [hgiven] at hclaims
  refine ⟨hclaims.size.trans h.size, ?_, fun i hi => ?_, fun i hi => ?_⟩
  · have hfree := h.free
    have hleft := hclaims.free
    rw [shareBelow_succ]
    omega
  · rcases Nat.lt_succ_iff_lt_or_eq.1 hi with hlt | rfl
    · rw [hclaims.others ⟨i⟩ fun hsame => Nat.ne_of_lt hlt (congrArg Ident.index hsame)]
      exact h.gains i hlt
    · rw [hclaims.gains, h.others i (Nat.le_refl i), Nat.zero_add]
  · rw [hclaims.others ⟨i⟩ fun hsame => Nat.ne_of_gt hi (congrArg Ident.index hsame)]
    exact h.others i (Nat.le_of_succ_le hi)

theorem grown_grownBelow (adjacency : Neighbours) (nodes : Nat) {index : Nat}
    (h : index ≤ count) :
    Grown nodes count index (grownBelow adjacency nodes count index) := by
  induction index with
  | zero => exact .start nodes count
  | succ index ih =>
      rw [grownBelow_succ]
      exact (ih (Nat.le_of_succ_le h)).grow h adjacency

/-! ## The owners that are found -/

theorem owners_eq (adjacency : Neighbours) (nodes count : Nat) :
    Region.owners adjacency nodes count =
      (grownBelow adjacency nodes count count).map (·.getD .invalid) :=
  rfl

theorem size_owners (adjacency : Neighbours) (nodes count : Nat) :
    (Region.owners adjacency nodes count).size = nodes := by
  rw [owners_eq, Array.size_map]
  exact (grown_grownBelow adjacency nodes (Nat.le_refl count)).size

section Complete

variable (adjacency : Neighbours) (nodes : Nat) (hcount : 0 < count)

include hcount

theorem count_none_grownBelow : (grownBelow adjacency nodes count count).count none = 0 := by
  have hfree := (grown_grownBelow adjacency nodes (Nat.le_refl count)).free
  rw [shareBelow_count nodes hcount] at hfree
  omega

/-- No node is left over. -/
theorem exists_of_mem_grownBelow {owner? : Option PartitionId}
    (h : owner? ∈ grownBelow adjacency nodes count count) :
    ∃ owner, owner? = some owner ∧ owner.index < count := by
  cases owner? with
  | none =>
      exact absurd h (Array.count_eq_zero.1 (count_none_grownBelow adjacency nodes hcount))
  | some owner =>
      refine ⟨owner, rfl, ?_⟩
      by_contra hout
      have hzero := (grown_grownBelow adjacency nodes (Nat.le_refl count)).others owner.index
        (Nat.le_of_not_lt hout)
      exact Array.count_eq_zero.1 hzero h

theorem below_owners : Partitioning.Below count (Region.owners adjacency nodes count) := by
  intro owner howner
  rw [owners_eq] at howner
  obtain ⟨owner?, hmem, rfl⟩ := Array.mem_map.1 howner
  obtain ⟨owner, rfl, hlt⟩ := exists_of_mem_grownBelow adjacency nodes hcount hmem
  exact hlt

/-- Every partition has its share in full. -/
theorem count_owners {i : Nat} (hi : i < count) :
    (Region.owners adjacency nodes count).count ⟨i⟩ = share nodes count i := by
  rw [← (grown_grownBelow adjacency nodes (Nat.le_refl count)).gains i hi, owners_eq, Array.count,
    Array.countP_map]
  apply Array.countP_congr
  intro owner? hmem
  obtain ⟨owner, rfl, -⟩ := exists_of_mem_grownBelow adjacency nodes hcount hmem
  simp

end Complete

end Region
end Thoroughfare

import Thoroughfare.Proofs.Network.Cut

/-!
# Passes over the nodes

A pass visits all nodes and moves some of them, and each visit decides on the owners as the visits
before it have left them.  A node moves only to an owner with more of its neighbours, so every move
makes the cut smaller; it leaves only a partition that can spare it, and goes only where there is
room.  What one visit does is said once, and what a pass and all passes do follows step by step.
-/

namespace Thoroughfare
namespace Refinement

open Partitioning

variable {g : Network} {bounds : Bounds} {count : Nat} {pass : Pass} {node : Nat}

/-! ## What a visit decides -/

theorem better_eq_or (votes : List PartitionId) (best next : PartitionId) :
    better votes best next = best ∨ better votes best next = next := by
  unfold better
  split
  · exact Or.inr rfl
  · split
    · exact Or.inl rfl
    · split
      · exact Or.inr rfl
      · exact Or.inl rfl

theorem foldl_better_mem (votes rest : List PartitionId) (first : PartitionId) :
    rest.foldl (better votes) first ∈ first :: rest := by
  induction rest generalizing first with
  | nil => exact List.mem_singleton.2 rfl
  | cons next rest ih =>
      rw [List.foldl_cons]
      rcases List.mem_cons.1 (ih (better votes first next)) with hbetter | hrest
      · rw [hbetter]
        rcases better_eq_or votes first next with hfirst | hnext
        · rw [hfirst]
          exact List.mem_cons_self
        · rw [hnext]
          exact List.mem_cons_of_mem _ List.mem_cons_self
      · exact List.mem_cons_of_mem _ (List.mem_cons_of_mem _ hrest)

/-- A node moves only to an owner with more of its neighbours that has room for it. -/
theorem of_target? {current other : PartitionId} {votes : List PartitionId}
    (h : target? bounds pass current votes = some other) :
    other ∈ votes ∧ other ≠ current ∧ votes.count current < votes.count other ∧
      pass.sizes.getD other.index 0 + 1 ≤ bounds.greatest := by
  unfold target? at h
  dsimp only at h
  split at h
  · cases h
  · rename_i first rest hrivals
    have hmem := foldl_better_mem votes rest first
    rw [← hrivals, Option.some.inj h, List.mem_filter, decide_eq_true_eq] at hmem
    exact hmem

/-- A visit moves nothing, or it moves the node. -/
theorem visit_cases (adjacency : Neighbours) (bounds : Bounds) (pass : Pass) (node : Nat) :
    visit adjacency bounds pass node = pass ∨
      ∃ other, max bounds.least 1 < pass.sizes.getD (ownerAt pass.owners node).index 0 ∧
        target? bounds pass (ownerAt pass.owners node) (votes adjacency pass.owners node) =
          some other ∧
        visit adjacency bounds pass node =
          { owners := pass.owners.setIfInBounds node other
            sizes := (pass.sizes.modify (ownerAt pass.owners node).index (· - 1)).modify
              other.index (· + 1)
            moved := pass.moved + 1 } := by
  unfold visit
  dsimp only
  split
  · exact Or.inl rfl
  · rename_i hspare
    split
    · exact Or.inl rfl
    · rename_i other htarget
      exact Or.inr ⟨other, Nat.lt_of_not_le hspare, htarget, rfl⟩

/-! ## What a visit achieves -/

/-- What moving some nodes to other owners may do. -/
structure Improves (g : Network) (bounds : Bounds) (moved : Nat)
    (before after : Array PartitionId) : Prop where
  size : after.size = before.size
  /-- Each move makes the cut smaller. -/
  cut : cut g after + moved ≤ cut g before
  /-- No partition becomes smaller than it may be, unless it was before. -/
  least : ∀ owner, min (before.count owner) (max bounds.least 1) ≤ after.count owner
  /-- No partition becomes greater than it may be, unless it was before. -/
  greatest : ∀ owner, after.count owner ≤ max (before.count owner) bounds.greatest
  unmoved : moved = 0 → after = before

theorem Improves.refl (g : Network) (bounds : Bounds) (owners : Array PartitionId) :
    Improves g bounds 0 owners owners where
  size := rfl
  cut := Nat.le_refl _
  least _ := Nat.min_le_left _ _
  greatest _ := Nat.le_max_left _ _
  unmoved _ := rfl

theorem Improves.trans {moved more : Nat} {before between after : Array PartitionId}
    (h : Improves g bounds moved before between) (h' : Improves g bounds more between after) :
    Improves g bounds (moved + more) before after where
  size := h'.size.trans h.size
  cut := by
    have hfirst := h.cut
    have hsecond := h'.cut
    omega
  least owner := by
    have hfirst := h.least owner
    have hsecond := h'.least owner
    omega
  greatest owner := by
    have hfirst := h.greatest owner
    have hsecond := h'.greatest owner
    omega
  unmoved hnone := by
    obtain ⟨hmoved, hmore⟩ := Nat.add_eq_zero_iff.1 hnone
    rw [h'.unmoved hmore, h.unmoved hmoved]

/-- The sizes of a pass are those of its owners, and all owners exist. -/
structure Pass.Sound (count : Nat) (pass : Pass) : Prop where
  below : Below count pass.owners
  sizes : pass.sizes = sizesOf count pass.owners

theorem start_sound {owners : Array PartitionId} (h : Below count owners) :
    Pass.Sound count ⟨owners, sizesOf count owners, 0⟩ :=
  ⟨h, rfl⟩

/-- One move from a partition that can spare a node to one that has more of its neighbours, and
room. -/
theorem improves_setIfInBounds {owners : Array PartitionId} {next : PartitionId}
    (h : node < owners.size) (hnode : node < g.nodes.size) (hnext : next ≠ ownerAt owners node)
    (hvotes : (votes (.ofNetwork g) owners node).count (ownerAt owners node) <
      (votes (.ofNetwork g) owners node).count next)
    (hspare : max bounds.least 1 < owners.count (ownerAt owners node))
    (hroom : owners.count next + 1 ≤ bounds.greatest) :
    Improves g bounds 1 owners (owners.setIfInBounds node next) where
  size := Array.size_setIfInBounds
  cut := by
    have hcut := cut_setIfInBounds h hnode next
    omega
  least owner := by
    have hcount := count_setIfInBounds h next owner
    by_cases howner : ownerAt owners node = owner
    · subst howner
      rw [if_pos rfl, if_neg hnext] at hcount
      omega
    · rw [if_neg howner] at hcount
      omega
  greatest owner := by
    have hcount := count_setIfInBounds h next owner
    by_cases howner : next = owner
    · subst howner
      rw [if_pos rfl, if_neg (Ne.symm hnext)] at hcount
      omega
    · rw [if_neg howner] at hcount
      omega
  unmoved hnone := absurd hnone Nat.one_ne_zero

theorem visit_improves (g : Network) (bounds : Bounds) (hpass : pass.Sound count)
    (hnode : node < pass.owners.size) :
    (visit (.ofNetwork g) bounds pass node).Sound count ∧
      ∃ moved, (visit (.ofNetwork g) bounds pass node).moved = pass.moved + moved ∧
        Improves g bounds moved pass.owners (visit (.ofNetwork g) bounds pass node).owners := by
  rcases visit_cases (.ofNetwork g) bounds pass node with hvisit | ⟨other, hspare, htarget, hvisit⟩
  · rw [hvisit]
    exact ⟨hpass, 0, rfl, .refl g bounds pass.owners⟩
  · obtain ⟨hmem, hne, hvotes, hroom⟩ := of_target? htarget
    have hcount : 0 < count := Nat.zero_lt_of_lt (hpass.below _ (Array.getElem_mem hnode))
    -- a node with neighbours is a node of the network
    have hinside : node < g.nodes.size := by
      by_contra hout
      rw [votes, Neighbours.of_ofNetwork_eq_nil (Nat.le_of_not_lt hout), List.map_nil] at hmem
      cases hmem
    have hother : other.index < count := by
      obtain ⟨neighbour, -, rfl⟩ := List.mem_map.1 hmem
      exact hpass.below.ownerAt_lt hcount neighbour
    rw [hpass.sizes, getD_sizesOf (hpass.below.ownerAt_lt hcount node)] at hspare
    rw [hpass.sizes, getD_sizesOf hother] at hroom
    rw [hvisit]
    refine ⟨⟨hpass.below.setIfInBounds hother node, ?_⟩, 1, rfl,
      improves_setIfInBounds hnode hinside hne hvotes hspare hroom⟩
    rw [hpass.sizes, sizesOf_setIfInBounds hnode hne]

/-! ## What passes achieve -/

theorem foldl_visit_improves (g : Network) (bounds : Bounds) (hpass : pass.Sound count)
    {nodes : List Nat} (hnodes : ∀ node ∈ nodes, node < pass.owners.size) :
    (nodes.foldl (visit (.ofNetwork g) bounds) pass).Sound count ∧
      ∃ moved, (nodes.foldl (visit (.ofNetwork g) bounds) pass).moved = pass.moved + moved ∧
        Improves g bounds moved pass.owners
          (nodes.foldl (visit (.ofNetwork g) bounds) pass).owners := by
  induction nodes generalizing pass with
  | nil => exact ⟨hpass, 0, rfl, .refl g bounds pass.owners⟩
  | cons first rest ih =>
      obtain ⟨hsound, moved, hmoved, hfirst⟩ :=
        visit_improves g bounds hpass (hnodes first List.mem_cons_self)
      obtain ⟨hsound', more, hmore, hrest⟩ := ih hsound fun node hnode => by
        rw [hfirst.size]
        exact hnodes node (List.mem_cons_of_mem _ hnode)
      rw [List.foldl_cons]
      exact ⟨hsound', moved + more, by rw [hmore, hmoved, Nat.add_assoc], hfirst.trans hrest⟩

theorem sweep_improves (g : Network) (bounds : Bounds) {owners : Array PartitionId}
    (h : Below count owners) :
    (sweep (.ofNetwork g) bounds count owners).Sound count ∧
      Improves g bounds (sweep (.ofNetwork g) bounds count owners).moved owners
        (sweep (.ofNetwork g) bounds count owners).owners := by
  obtain ⟨hsound, moved, hmoved, himproves⟩ := foldl_visit_improves g bounds (start_sound h)
    fun node hnode => List.mem_range.1 hnode
  rw [Nat.zero_add] at hmoved
  rw [← hmoved] at himproves
  exact ⟨hsound, himproves⟩

theorem refine_improves (g : Network) (bounds : Bounds) {owners : Array PartitionId}
    (h : Below count owners) (passes : Nat) :
    Below count (refine (.ofNetwork g) bounds count passes owners) ∧
      ∃ moved, Improves g bounds moved owners
        (refine (.ofNetwork g) bounds count passes owners) := by
  induction passes generalizing owners with
  | zero => exact ⟨h, 0, .refl g bounds owners⟩
  | succ passes ih =>
      obtain ⟨hsound, hsweep⟩ := sweep_improves g bounds h
      rw [refine]
      split
      · exact ⟨hsound.below, _, hsweep⟩
      · obtain ⟨hbelow, more, hmore⟩ := ih hsound.below
        exact ⟨hbelow, _, hsweep.trans hmore⟩

end Refinement
end Thoroughfare

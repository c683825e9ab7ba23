import Thoroughfare.Proofs.Network.Growth

/-!
# Growing node by node

Regions can be grown with little more than a table of owners: a queue of nodes whose neighbours are
still to be looked at, the size so far, and a cursor behind which no node is free.  Neighbours are
taken one after the other, and the region stops in the middle of them when it has its share; when
the queue is empty, the cursor moves on to the lowest free node, from where it was left, even by the
regions before.  This is the same growth as the one that looks for the lowest free node among all
nodes and takes neighbours together, and it takes every node once.
-/

namespace Thoroughfare
namespace Region

/-- What is kept while regions grow. -/
structure Growth where
  /-- The owners so far; a free node belongs to the partition that names nothing. -/
  owners : Array PartitionId
  cursor : Nat
  /-- Who has taken which node, in order. -/
  taken : List (Nat × PartitionId)
  size : Nat
  frontier : List Nat

namespace Growth

def start (nodes : Nat) : Growth where
  owners := Array.replicate nodes .invalid
  cursor := 0
  taken := []
  size := 0
  frontier := []

def take (owner : PartitionId) (s : Growth) (node : Nat) : Growth :=
  { s with
    owners := s.owners.setIfInBounds node owner
    taken := s.taken ++ [(node, owner)]
    size := s.size + 1
    frontier := s.frontier ++ [node] }

@[simp] theorem size_take (owner : PartitionId) (s : Growth) (node : Nat) :
    (s.take owner node).size = s.size + 1 :=
  rfl

@[simp] theorem frontier_take (owner : PartitionId) (s : Growth) (node : Nat) :
    (s.take owner node).frontier = s.frontier ++ [node] :=
  rfl

/-- Take a node if it is free and there is still one to take. -/
def offer (owner : PartitionId) (target : Nat) (s : Growth) (node : Nat) : Growth :=
  if s.size = target then s
  else if s.owners[node]? = some .invalid then s.take owner node
  else s

/-- The first node from the cursor on that is free. -/
def seek (owners : Array PartitionId) (cursor : Nat) : Nat :=
  if h : cursor < owners.size then
    if owners[cursor].IsValid then seek owners (cursor + 1) else cursor
  else cursor

/-- How much a region may still do. -/
def toDo (target : Nat) (s : Growth) : Nat :=
  2 * (target - s.size) + s.frontier.length

theorem toDo_foldl_offer_le (owner : PartitionId) {target : Nat} (nodes : List Nat) {s : Growth}
    (h : s.size ≤ target) : toDo target (nodes.foldl (offer owner target) s) ≤ toDo target s := by
  induction nodes generalizing s with
  | nil => exact Nat.le_refl _
  | cons first rest ih =>
      rw [List.foldl_cons]
      by_cases hsize : s.size = target
      · rw [offer, if_pos hsize]
        exact ih h
      · rw [offer, if_neg hsize]
        split
        · refine (ih (s := s.take owner first) ?_).trans ?_
          · exact Nat.lt_of_le_of_ne h hsize
          · simp only [toDo, size_take, frontier_take, List.length_append, List.length_singleton]
            omega
        · exact ih h

/-- Grow a region until it has a certain size. -/
def grow (adjacency : Neighbours) (owner : PartitionId) (target : Nat) (s : Growth) : Growth :=
  if target ≤ s.size then s
  else
    match _ : s.frontier with
    | [] =>
        if seek s.owners s.cursor = s.owners.size then { s with cursor := seek s.owners s.cursor }
        else
          grow adjacency owner target
            (take owner { s with cursor := seek s.owners s.cursor } (seek s.owners s.cursor))
    | node :: rest =>
        grow adjacency owner target
          ((adjacency.of node).foldl (offer owner target) { s with frontier := rest })
termination_by toDo target s
decreasing_by
  · rename_i hfrontier _
    simp only [toDo, size_take, frontier_take, hfrontier, List.nil_append,
      List.length_singleton, List.length_nil]
    omega
  · rename_i hsize hfrontier
    have hle := toDo_foldl_offer_le owner (adjacency.of node) (s := { s with frontier := rest })
      (Nat.le_of_not_le hsize)
    refine Nat.lt_of_le_of_lt hle ?_
    simp only [toDo, hfrontier, List.length_cons]
    omega

section Equations

variable {adjacency : Neighbours} {owner : PartitionId} {target : Nat} {s : Growth}

theorem grow_of_le (h : target ≤ s.size) : grow adjacency owner target s = s := by
  rw [grow, if_pos h]

theorem grow_of_end (hless : ¬target ≤ s.size) (hempty : s.frontier = [])
    (hend : seek s.owners s.cursor = s.owners.size) :
    grow adjacency owner target s = { s with cursor := seek s.owners s.cursor } := by
  rw [grow, if_neg hless]
  split
  · exact if_pos hend
  · rename_i hfrontier
    rw [hempty] at hfrontier
    cases hfrontier

theorem grow_of_found (hless : ¬target ≤ s.size) (hempty : s.frontier = [])
    (hfound : seek s.owners s.cursor ≠ s.owners.size) :
    grow adjacency owner target s = grow adjacency owner target
      (take owner { s with cursor := seek s.owners s.cursor } (seek s.owners s.cursor)) := by
  rw [grow, if_neg hless]
  split
  · exact if_neg hfound
  · rename_i hfrontier
    rw [hempty] at hfrontier
    cases hfrontier

theorem grow_of_cons (hless : ¬target ≤ s.size) {node : Nat} {rest : List Nat}
    (hfrontier : s.frontier = node :: rest) :
    grow adjacency owner target s = grow adjacency owner target
      ((adjacency.of node).foldl (offer owner target) { s with frontier := rest }) := by
  rw [grow, if_neg hless]
  split
  · rename_i hempty
    rw [hfrontier] at hempty
    cases hempty
  · rename_i hsame
    rw [hfrontier, List.cons.injEq] at hsame
    rw [← hsame.1, ← hsame.2]

end Equations

/-- Grow the regions of all partitions in a list. -/
def growAll (adjacency : Neighbours) (nodes count : Nat) : List Nat → Growth → Growth
  | [], s => s
  | index :: rest, s =>
      growAll adjacency nodes count rest
        (grow adjacency ⟨index⟩ (share nodes count index) { s with size := 0, frontier := [] })

/-- Grow all regions from the beginning. -/
def run (adjacency : Neighbours) (nodes count : Nat) : Growth :=
  growAll adjacency nodes count (List.range count) (start nodes)

/-! ## The same growth -/

/-- What has grown node by node is a table of owners, with a record of who took what. -/
structure Reads (s : Growth) (owners : Owners) : Prop where
  table : s.owners = owners.map (·.getD .invalid)
  valid : ∀ owner : PartitionId, some owner ∈ owners → owner.IsValid
  within : s.cursor ≤ owners.size
  /-- Nothing is free in front of the cursor. -/
  behind : ∀ node < s.cursor, isFree owners node = false
  taken : ∀ (node : Nat) (owner : PartitionId),
    (node, owner) ∈ s.taken ↔ owners[node]? = some (some owner)
  once : (s.taken.map (·.1)).Nodup

variable {adjacency : Neighbours} {owner : PartitionId} {target nodes count node : Nat}
  {s : Growth} {owners : Owners}

theorem reads_start (nodes : Nat) : (start nodes).Reads (Array.replicate nodes none) where
  table := by simp [start]
  valid owner h := by simp at h
  within := Nat.zero_le _
  behind node h := absurd h (Nat.not_lt_zero node)
  taken node owner := by simp [start, Array.getElem?_replicate]
  once := List.nodup_nil

theorem Reads.isFree_iff (h : s.Reads owners) :
    s.owners[node]? = some .invalid ↔ isFree owners node = true := by
  rw [Region.isFree_iff, h.table, Array.getElem?_map]
  constructor
  · intro hinvalid
    obtain ⟨owner?, howner, hnone⟩ := Option.map_eq_some_iff.1 hinvalid
    cases owner? with
    | none => exact howner
    | some owner => exact absurd hnone (h.valid owner (Array.mem_of_getElem? howner))
  · intro hnone
    rw [hnone]
    rfl

theorem Reads.take (h : s.Reads owners) (hfree : isFree owners node = true)
    (howner : owner.IsValid) :
    (s.take owner node).Reads (owners.setIfInBounds node (some owner)) := by
  have hnode : owners[node]? = some none := Region.isFree_iff.1 hfree
  have hlt : node < owners.size := (Array.getElem?_eq_some_iff.1 hnode).1
  constructor
  case table => rw [Growth.take, h.table, Array.map_setIfInBounds, Option.getD_some]
  case valid =>
    intro other hother
    rcases Array.mem_or_eq_of_mem_setIfInBounds hother with hold | hnew
    · exact h.valid other hold
    · rwa [Option.some.inj hnew]
  case within =>
    rw [Array.size_setIfInBounds]
    exact h.within
  case behind =>
    intro other hother
    rw [isFree_setIfInBounds, h.behind other hother, Bool.and_false]
  case taken =>
    intro other owner'
    rw [Growth.take, List.mem_append, List.mem_singleton, h.taken]
    by_cases hother : other = node
    · subst hother
      rw [Array.getElem?_setIfInBounds_self_of_lt hlt, hnode]
      simp [eq_comm]
    · rw [Array.getElem?_setIfInBounds_ne (Ne.symm hother)]
      simp [hother]
  case once =>
    -- whoever has been recorded with the node would own it
    have hnew : node ∉ s.taken.map (·.1) := by
      intro hmem
      obtain ⟨⟨other, owner'⟩, hentry, rfl⟩ := List.mem_map.1 hmem
      have hsome := (h.taken other owner').1 hentry
      rw [hnode] at hsome
      cases hsome
    rw [Growth.take, List.map_append, List.map_singleton]
    exact h.once.append (List.nodup_singleton node) (List.disjoint_singleton.2 hnew)

/-- Nodes that are offered one after the other are taken as if they were taken together. -/
theorem Reads.foldl_offer (howner : owner.IsValid) (nodes : List Nat) (h : s.Reads owners)
    (hsize : s.size ≤ target) :
    (nodes.foldl (offer owner target) s).Reads
        (assign owner owners (firstFree owners (target - s.size) nodes)) ∧
      (nodes.foldl (offer owner target) s).size =
        s.size + (firstFree owners (target - s.size) nodes).length ∧
      (nodes.foldl (offer owner target) s).frontier =
        s.frontier ++ firstFree owners (target - s.size) nodes := by
  induction nodes generalizing s owners with
  | nil =>
      rw [firstFree_nil, List.append_nil]
      exact ⟨h, rfl, rfl⟩
  | cons first rest ih =>
      rw [List.foldl_cons, offer]
      by_cases hfull : s.size = target
      · have hrest := ih h hsize
        rw [hfull, Nat.sub_self, firstFree_zero] at hrest ⊢
        rw [if_pos rfl]
        exact hrest
      · rw [if_neg hfull]
        by_cases hfree : isFree owners first = true
        · have hleft : target - s.size = target - (s.take owner first).size + 1 := by
            rw [size_take]
            omega
          obtain ⟨hreads, hsum, hfrontier⟩ := ih (h.take hfree howner)
            (Nat.lt_of_le_of_ne hsize hfull)
          rw [if_pos (h.isFree_iff.2 hfree), hleft, firstFree_cons_of_free owner hfree]
          refine ⟨hreads, ?_, ?_⟩
          · rw [hsum, size_take, List.length_cons, Nat.add_right_comm, Nat.add_assoc]
          · rw [hfrontier, frontier_take, List.append_assoc, List.singleton_append]
        · rw [if_neg (mt h.isFree_iff.1 hfree), firstFree_cons_of_not_free hfree]
          exact ih h hsize

/-! ## Looking for a free node -/

/-- The cursor goes past owned nodes only, and stops at the end or at a free node. -/
theorem of_seek (owners : Array PartitionId) {cursor : Nat} (h : cursor ≤ owners.size) :
    seek owners cursor ≤ owners.size ∧
      (∀ node, cursor ≤ node → node < seek owners cursor → owners[node]? ≠ some .invalid) ∧
      (seek owners cursor ≠ owners.size → owners[seek owners cursor]? = some .invalid) := by
  induction cursor using seek.induct owners with
  | case1 cursor hlt hvalid ih =>
      obtain ⟨hle, hpassed, hstop⟩ := ih hlt
      rw [seek, dif_pos hlt, if_pos hvalid]
      refine ⟨hle, fun node hcursor hnode => ?_, hstop⟩
      rcases Nat.eq_or_lt_of_le hcursor with rfl | hpast
      · rw [Array.getElem?_eq_getElem hlt]
        exact fun hinvalid => hvalid (Option.some.inj hinvalid)
      · exact hpassed node hpast hnode
  | case2 cursor hlt hinvalid =>
      rw [seek, dif_pos hlt, if_neg hinvalid]
      refine ⟨h, fun node hcursor hnode => absurd hnode (Nat.not_lt.2 hcursor), fun _ => ?_⟩
      rw [Array.getElem?_eq_getElem hlt, Decidable.not_not.1 hinvalid]
  | case3 cursor hend =>
      rw [seek, dif_neg hend]
      exact ⟨h, fun node hcursor hnode => absurd hnode (Nat.not_lt.2 hcursor),
        fun hne => absurd (Nat.lt_of_le_of_ne h hne) hend⟩

theorem Reads.size_eq (h : s.Reads owners) : s.owners.size = owners.size := by
  rw [h.table, Array.size_map]

theorem Reads.seek (h : s.Reads owners) :
    Reads { s with cursor := seek s.owners s.cursor } owners := by
  obtain ⟨hle, hpassed, -⟩ := of_seek s.owners (h.within.trans h.size_eq.ge)
  refine { h with within := hle.trans h.size_eq.le, behind := fun node hnode => ?_ }
  rcases Nat.lt_or_ge node s.cursor with hbefore | hpast
  · exact h.behind node hbefore
  · rw [← Bool.not_eq_true, ← h.isFree_iff]
    exact hpassed node hpast hnode

/-- The cursor finds the lowest free node. -/
theorem Reads.findIdx?_eq_some (h : s.Reads owners)
    (hfound : Growth.seek s.owners s.cursor ≠ s.owners.size) :
    owners.findIdx? (·.isNone) = some (Growth.seek s.owners s.cursor) := by
  obtain ⟨-, -, hstop⟩ := of_seek s.owners (h.within.trans h.size_eq.ge)
  exact findIdx?_eq_some_iff.2 ⟨h.isFree_iff.1 (hstop hfound), h.seek.behind⟩

theorem Reads.findIdx?_eq_none (h : s.Reads owners)
    (hfound : Growth.seek s.owners s.cursor = s.owners.size) :
    owners.findIdx? (·.isNone) = none := by
  rw [findIdx?_eq_none_iff]
  intro node
  rcases Nat.lt_or_ge node owners.size with hlt | hout
  · exact h.seek.behind node (by rwa [hfound, h.size_eq])
  · rw [isFree, Array.getElem?_eq_none hout]
    rfl

/-! ## Regions -/

theorem Reads.grow (howner : owner.IsValid) (h : s.Reads owners) (hsize : s.size ≤ target) :
    (s.grow adjacency owner target).Reads
      (Region.grow adjacency owner (target - s.size) s.frontier owners) := by
  induction s using Growth.grow.induct adjacency owner target generalizing owners with
  | case1 s hfull =>
      rw [grow_of_le hfull, Nat.sub_eq_zero_of_le hfull, grow_zero]
      exact h
  | case2 s hless hempty hend =>
      rw [hempty, grow_nil_of_none adjacency owner (h.findIdx?_eq_none hend),
        Growth.grow_of_end hless hempty hend]
      exact h.seek
  | case3 s hless hempty hfound ih =>
      have hstart := h.findIdx?_eq_some hfound
      have hnext := ih (h.seek.take (findIdx?_eq_some_iff.1 hstart).1 howner)
        (Nat.lt_of_not_le hless)
      rw [frontier_take, hempty, size_take, Nat.sub_add_eq] at hnext
      rw [Growth.grow_of_found hless hempty hfound, hempty,
        grow_nil_of_some adjacency owner (Nat.sub_ne_zero_of_lt (Nat.lt_of_not_le hless)) hstart]
      exact hnext
  | case4 s hless node rest hfrontier ih =>
      have hfree := Reads.foldl_offer howner (adjacency.of node)
        (s := { s with frontier := rest }) { h with } (Nat.le_of_not_le hless)
      obtain ⟨hreads, hsum, hqueue⟩ := hfree
      have hmost : (firstFree owners (target - s.size) (adjacency.of node)).length ≤
          target - s.size := List.length_take_le _ _
      have hnext := ih hreads (by
        rw [hsum]
        exact Nat.add_le_of_le_sub' (Nat.le_of_not_le hless) hmost)
      rw [hsum, hqueue, Nat.sub_add_eq] at hnext
      rw [Growth.grow_of_cons hless hfrontier, hfrontier,
        grow_cons adjacency owner (Nat.sub_ne_zero_of_lt (Nat.lt_of_not_le hless))]
      exact hnext

/-- The regions of the partitions in a list grow alike. -/
theorem Reads.growAll {indices : List Nat} (hindices : ∀ index ∈ indices, index < 65535)
    (h : s.Reads owners) :
    (s.growAll adjacency nodes count indices).Reads
      (Region.growAll adjacency nodes count owners indices) := by
  induction indices generalizing s owners with
  | nil => exact h
  | cons index rest ih =>
      have hvalid : Ident.IsValid (⟨index⟩ : PartitionId) := fun hinvalid =>
        Nat.ne_of_lt (hindices index List.mem_cons_self) (congrArg Ident.index hinvalid)
      have hfirst : (Growth.grow adjacency ⟨index⟩ (share nodes count index)
          { s with size := 0, frontier := [] }).Reads
          (Region.grow adjacency ⟨index⟩ (share nodes count index) [] owners) :=
        Reads.grow hvalid (s := { s with size := 0, frontier := [] }) { h with } (Nat.zero_le _)
      exact ih (fun other hother => hindices other (List.mem_cons_of_mem _ hother)) hfirst

theorem reads_run (adjacency : Neighbours) (nodes : Nat) (h : count ≤ 65535) :
    (run adjacency nodes count).Reads (grownBelow adjacency nodes count count) :=
  Reads.growAll (fun _ hindex => (List.mem_range.1 hindex).trans_le h) (reads_start nodes)

/-- The same owners are found. -/
theorem owners_run (adjacency : Neighbours) (nodes : Nat) (h : count ≤ 65535) :
    (run adjacency nodes count).owners = Region.owners adjacency nodes count :=
  (reads_run adjacency nodes h).table

theorem mem_taken_run_iff (hcount : 0 < count) (h : count ≤ 65535) {owner : PartitionId} :
    (node, owner) ∈ (run adjacency nodes count).taken ↔
      (Region.owners adjacency nodes count)[node]? = some owner := by
  rw [(reads_run adjacency nodes h).taken, owners_eq, Array.getElem?_map]
  constructor
  · intro hsome
    rw [hsome]
    rfl
  · intro howner
    obtain ⟨owner?, hmem, rfl⟩ := Option.map_eq_some_iff.1 howner
    obtain ⟨owner, rfl, -⟩ :=
      exists_of_mem_grownBelow adjacency nodes hcount (Array.mem_of_getElem? hmem)
    exact hmem

/-- Every node is taken, and none is taken twice. -/
theorem perm_taken_run (adjacency : Neighbours) (nodes : Nat) (hcount : 0 < count)
    (h : count ≤ 65535) :
    ((run adjacency nodes count).taken.map (·.1)).Perm (List.range nodes) := by
  rw [List.perm_ext_iff_of_nodup (reads_run adjacency nodes h).once List.nodup_range]
  intro node
  rw [List.mem_range]
  constructor
  · intro hmem
    obtain ⟨⟨node, owner⟩, hentry, rfl⟩ := List.mem_map.1 hmem
    have hlt := (Array.getElem?_eq_some_iff.1 ((mem_taken_run_iff hcount h).1 hentry)).1
    rwa [size_owners] at hlt
  · intro hlt
    rw [← size_owners adjacency nodes count] at hlt
    exact List.mem_map_of_mem ((mem_taken_run_iff hcount h).2 (Array.getElem?_eq_getElem hlt))

end Growth
end Region
end Thoroughfare

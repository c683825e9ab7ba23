import Thoroughfare.Network.Basic
import Mathlib.Data.List.Nodup

/-!
# What is built

A network that is built has its nodes and its links in the order in which they were given, each with
its place as its number, and all links lead from one of its nodes to one of its nodes.
-/

namespace Thoroughfare

/-- Every link has its place in the network as its number. -/
def Network.Numbered (g : Network) : Prop :=
  ∀ (index : Nat) (l : Link), g.links[index]? = some l → l.id = ⟨index⟩

namespace Network

variable {g : Network} {periodSecs : Float} {positions : List Point} {drafts : List LinkDraft}

theorem ite_some_eq_none_iff {γ : Type} {p : Prop} [Decidable p] {c : γ} {rest : Option γ} :
    (if p then some c else rest) = none ↔ ¬ p ∧ rest = none := by
  split <;> simp [*]

/-- A draft has no fault if its nodes exist and its values are in range. -/
theorem fault?_eq_none_iff {nodeCount : Nat} {d : LinkDraft} : d.fault? nodeCount = none ↔
    d.startNode.index < nodeCount ∧ d.endNode.index < nodeCount ∧
      Decimal.isNonnegative d.length = true ∧ Decimal.isPositive d.freeSpeed = true ∧
      Decimal.isPositive d.flowCapacity = true ∧ Decimal.isPositive d.lanes = true ∧
      ∀ storage, d.storage = some storage → Decimal.isPositive storage = true := by
  rw [LinkDraft.fault?]
  simp only [ite_some_eq_none_iff, Nat.not_le, Bool.not_eq_true', Bool.not_eq_false]
  cases d.storage with
  | none => simp
  | some storage => simp

theorem ends_of_fault? {nodeCount : Nat} {d : LinkDraft} (h : d.fault? nodeCount = none) :
    d.startNode.index < nodeCount ∧ d.endNode.index < nodeCount := by
  obtain ⟨hstart, hend, -⟩ := fault?_eq_none_iff.1 h
  exact ⟨hstart, hend⟩

/-- The links are the drafts in their order, each with its place as its number, if no draft has a
fault. -/
theorem linksFrom_eq_ok_iff {nodeCount first : Nat} {links : List Link} :
    linksFrom nodeCount first drafts = .ok links ↔
      (∀ d ∈ drafts, d.fault? nodeCount = none) ∧
        links = (drafts.zipIdx first).map fun entry => entry.1.toLink ⟨entry.2⟩ := by
  induction drafts generalizing first links with
  | nil => simp [linksFrom, eq_comm]
  | cons draft rest ih =>
      rw [linksFrom, List.forall_mem_cons, List.zipIdx_cons, List.map_cons]
      cases draft.fault? nodeCount with
      | some fault => simp
      | none =>
          dsimp only
          constructor
          · intro h
            split at h
            · rename_i others hothers
              cases h
              obtain ⟨hrest, rfl⟩ := ih.1 hothers
              exact ⟨⟨rfl, hrest⟩, rfl⟩
            · cases h
          · rintro ⟨⟨-, hrest⟩, rfl⟩
            rw [ih.2 ⟨hrest, rfl⟩]

/-- A network is built just if the period is positive and no draft has a fault. -/
theorem exists_build_iff : (∃ g, build periodSecs positions drafts = .ok g) ↔
    Decimal.isPositive periodSecs = true ∧ ∀ d ∈ drafts, d.fault? positions.length = none := by
  rw [build]
  cases Decimal.isPositive periodSecs with
  | false => simp
  | true =>
      constructor
      · rintro ⟨g, h⟩
        cases hlinks : linksFrom positions.length 0 drafts with
        | error e => simp [hlinks] at h
        | ok links => exact ⟨rfl, (linksFrom_eq_ok_iff.1 hlinks).1⟩
      · rintro ⟨-, hdrafts⟩
        rw [linksFrom_eq_ok_iff.2 ⟨hdrafts, rfl⟩]
        exact ⟨_, rfl⟩

/-- What is built: the nodes and the links in their order, and the rows of both ends. -/
theorem of_build (h : build periodSecs positions drafts = .ok g) :
    g.nodes.toList = positions.zipIdx.map (fun entry => ⟨⟨entry.2⟩, entry.1⟩) ∧
    g.links.toList = drafts.zipIdx.map (fun entry => entry.1.toLink ⟨entry.2⟩) ∧
    (∀ l ∈ g.links.toList, l.startNode.index < positions.length ∧
      l.endNode.index < positions.length) ∧
    g.outgoing = .ofLinks positions.length Link.startNode g.links.toList ∧
    g.incoming = .ofLinks positions.length Link.endNode g.links.toList := by
  unfold build at h
  split at h
  · cases h
  · split at h
    · cases h
    · rename_i links hlinks
      cases h
      obtain ⟨hdrafts, rfl⟩ := linksFrom_eq_ok_iff.1 hlinks
      refine ⟨rfl, rfl, List.forall_mem_map.2 fun entry hentry => ?_, rfl, rfl⟩
      exact ends_of_fault? (hdrafts entry.1 (List.fst_mem_of_mem_zipIdx hentry))

theorem sizes_of_build (h : build periodSecs positions drafts = .ok g) :
    g.nodes.size = positions.length ∧ g.links.size = drafts.length := by
  obtain ⟨hnodes, hlinks, -⟩ := of_build h
  rw [← Array.length_toList, ← Array.length_toList, hnodes, hlinks]
  simp

/-- The link at a place is the one of the draft at this place. -/
theorem getElem?_links_of_build (h : build periodSecs positions drafts = .ok g) (place : Nat) :
    g.links[place]? = drafts[place]?.map fun draft => draft.toLink ⟨place⟩ := by
  rw [← Array.getElem?_toList, (of_build h).2.1, List.getElem?_map, List.getElem?_zipIdx,
    Option.map_map, Nat.zero_add]
  rfl

/-! ## Numbers -/

theorem numbered_of_build (h : build periodSecs positions drafts = .ok g) : g.Numbered := by
  intro index l hl
  rw [getElem?_links_of_build h, Option.map_eq_some_iff] at hl
  obtain ⟨draft, -, rfl⟩ := hl
  rfl

theorem Numbered.link?_eq_some_iff (h : g.Numbered) {id : LinkId} {l : Link} :
    g.link? id = some l ↔ l ∈ g.links.toList ∧ l.id = id := by
  rw [link?]
  constructor
  · intro hl
    exact ⟨Array.mem_toList_iff.2 (Array.mem_of_getElem? hl), h _ _ hl⟩
  · rintro ⟨hmem, rfl⟩
    obtain ⟨index, hindex⟩ := List.getElem?_of_mem hmem
    rw [Array.getElem?_toList] at hindex
    rw [h _ _ hindex]
    exact hindex

theorem hasLink_iff {id : LinkId} : g.hasLink id = true ↔ ∃ l, g.link? id = some l := by
  rw [hasLink, link?, decide_eq_true_eq, ← Option.isSome_iff_exists]
  simp

theorem Numbered.pairwise_id (h : g.Numbered) :
    (g.links.toList.map (·.id)).Pairwise fun a b => a < b := by
  rw [List.pairwise_map, List.pairwise_iff_getElem]
  intro i j hi hj hij
  rw [h i _ (by rw [← Array.getElem?_toList]; exact List.getElem?_eq_getElem hi),
    h j _ (by rw [← Array.getElem?_toList]; exact List.getElem?_eq_getElem hj)]
  exact hij

theorem Numbered.nodup (h : g.Numbered) : (g.links.toList.map (·.id)).Nodup :=
  h.pairwise_id.imp fun hlt heq => Nat.ne_of_lt hlt (congrArg Ident.index heq)

/-- A lane from one node to another. -/
def lane (start finish : NodeId) : LinkDraft where
  startNode := start
  endNode := finish
  length := 100.0
  freeSpeed := 10.0
  flowCapacity := 1800.0
  lanes := 1.0
  storage := some 4.0

end Network

end Thoroughfare

import Thoroughfare.Proofs.Arrangement
import Thoroughfare.Proofs.Network.Building

/-!
# Links by their ends

The links that leave a node, and those that enter it, stand in one row, and the rows of all nodes
stand one behind the other.  A row begins where the rows before it end, so it is cut out of the
whole with nothing but the two numbers that are stored for its node.  What is cut out are the links
of the node in the order of the network, whatever nodes have no links, several links to one
neighbour or links to themselves.
-/

namespace Thoroughfare

namespace Incidence

variable {rows : Nat} {key : Link → NodeId} {links : List Link}

/-! ## Where rows begin -/

theorem getElem?_runningTotals (total : Nat) {counts : List Nat} {i : Nat}
    (h : i ≤ counts.length) :
    (runningTotals total counts)[i]? = some (total + (counts.take i).sum) := by
  induction counts generalizing total i with
  | nil =>
      rw [Nat.le_zero.1 h]
      rfl
  | cons count counts ih =>
      cases i with
      | zero => rfl
      | succ i =>
          rw [runningTotals, List.getElem?_cons_succ, ih _ (Nat.le_of_succ_le_succ h),
            List.take_succ_cons, List.sum_cons, Nat.add_assoc]

/-- The links of a row. -/
def linksIn (key : Link → NodeId) (links : List Link) (i : Nat) : List Link :=
  links.filter fun l => (key l).index = i

theorem toList_counts (rows : Nat) (key : Link → NodeId) (links : List Link) :
    (counts rows key links).toList =
      (List.range rows).map fun i => (linksIn key links i).length := by
  rw [counts, toList_foldl_modify]
  simp only [List.countP_eq_length_filter]
  rfl

/-- The length of the rows in front of one. -/
def lengthBefore (key : Link → NodeId) (links : List Link) (i : Nat) : Nat :=
  ((List.range i).flatMap (linksIn key links)).length

theorem lengthBefore_succ (key : Link → NodeId) (links : List Link) (i : Nat) :
    lengthBefore key links (i + 1) = lengthBefore key links i + (linksIn key links i).length := by
  rw [lengthBefore, List.range_succ, List.flatMap_append, List.length_append,
    List.flatMap_singleton]
  rfl

theorem getElem?_starts {i : Nat} (h : i ≤ rows) :
    (ofLinks rows key links).starts[i]? = some (lengthBefore key links i) := by
  have hcounts : ((counts rows key links).toList.take i) =
      (List.range i).map fun i => (linksIn key links i).length := by
    rw [toList_counts, ← List.map_take, List.take_range, Nat.min_eq_left h]
  have hlength : (counts rows key links).toList.length = rows := by
    rw [toList_counts, List.length_map, List.length_range]
  rw [ofLinks, List.getElem?_toArray, getElem?_runningTotals 0 (hlength.symm ▸ h), hcounts,
    ← List.length_flatMap, Nat.zero_add]
  rfl

/-! ## What stands in a row -/

theorem toList_entries (hrows : ∀ l ∈ links, (key l).index < rows) :
    (ofLinks rows key links).entries.toList =
      ((List.range rows).flatMap (linksIn key links)).map (·.id) := by
  change ((links.mergeSort fun a b => decide ((key a).index ≤ (key b).index)).map (·.id)) = _
  rw [mergeSort_key_eq_flatMap hrows]
  rfl

/-- The rows in front of one, the row itself and the rows behind it. -/
theorem exists_flatMap_eq (key : Link → NodeId) (links : List Link) {i : Nat} (h : i < rows) :
    ∃ behind, (List.range rows).flatMap (linksIn key links) =
      (List.range i).flatMap (linksIn key links) ++ linksIn key links i ++ behind := by
  obtain ⟨more, rfl⟩ := Nat.exists_eq_add_of_le (Nat.succ_le_of_lt h)
  refine ⟨((List.range more).map (i + 1 + ·)).flatMap (linksIn key links), ?_⟩
  rw [List.range_add, List.flatMap_append, List.range_succ, List.flatMap_append,
    List.flatMap_singleton]

theorem lengthBefore_le_size (hrows : ∀ l ∈ links, (key l).index < rows) {i : Nat}
    (h : i < rows) : lengthBefore key links (i + 1) ≤ (ofLinks rows key links).entries.size := by
  obtain ⟨behind, hsplit⟩ := exists_flatMap_eq key links h
  rw [← Array.length_toList, toList_entries hrows, List.length_map, hsplit, List.length_append,
    List.length_append, lengthBefore_succ]
  exact Nat.le_add_right _ _

theorem row_ofLinks (hrows : ∀ l ∈ links, (key l).index < rows) {node : NodeId}
    (h : node.index < rows) :
    (ofLinks rows key links).row node = (linksIn key links node.index).map (·.id) := by
  obtain ⟨behind, hsplit⟩ := exists_flatMap_eq key links h
  rw [row, Array.getD_eq_getD_getElem?, Array.getD_eq_getD_getElem?, getElem?_starts h.le,
    getElem?_starts (Nat.succ_le_of_lt h), Option.getD_some, Option.getD_some,
    Array.toList_extract, toList_entries hrows, hsplit, lengthBefore_succ,
    List.extract_eq_take_drop, Nat.add_sub_cancel_left, List.map_append, List.map_append,
    List.append_assoc, List.drop_left' (by rw [List.length_map]; rfl),
    List.take_left' (List.length_map _)]

end Incidence

/-! ## The links of a network -/

namespace Network

variable {g : Network} {periodSecs : Float} {positions : List Point} {drafts : List LinkDraft}

/-- The rows of a network hold the links of each node by one of their ends. -/
structure Lists (g : Network) (t : Incidence) (key : Link → NodeId)
    (linksAt : NodeId → Except NetworkError (List LinkId)) : Prop where
  /-- Where the row of a node begins and ends is stored, and lies within the whole. -/
  inRange : ∀ node : NodeId, node.index < g.nodes.size → ∃ first last,
    t.starts[node.index]? = some first ∧ t.starts[node.index + 1]? = some last ∧
      first ≤ last ∧ last ≤ t.entries.size
  /-- The row of a node ascends strictly and has just the links with that end. -/
  lists : ∀ node : NodeId, node.index < g.nodes.size → ∃ row, linksAt node = .ok row ∧
    row.Pairwise (fun a b => a < b) ∧ ∀ id, id ∈ row ↔ ∃ l, g.link? id = some l ∧ key l = node
  refuses : ∀ node : NodeId, g.nodes.size ≤ node.index → linksAt node = .error (.nodeNotFound node)
  /-- Every link stands in one row, and there once. -/
  once : ∀ id l, g.link? id = some l → ∃ row, linksAt (key l) = .ok row ∧ row.count id = 1 ∧
    ∀ node other, linksAt node = .ok other → id ∈ other → node = key l

/-- The links that are filed under a node are just those with that end. -/
theorem Numbered.mem_linksIn_iff (h : g.Numbered) {key : Link → NodeId} {node : NodeId}
    {id : LinkId} :
    id ∈ (Incidence.linksIn key g.links.toList node.index).map (·.id) ↔
      ∃ l, g.link? id = some l ∧ key l = node := by
  simp only [Incidence.linksIn, List.mem_map, List.mem_filter, decide_eq_true_eq,
    h.link?_eq_some_iff, ← Ident.eq_iff_index_eq]
  constructor
  · rintro ⟨l, ⟨hl, hkey⟩, hid⟩
    exact ⟨l, ⟨hl, hid⟩, hkey⟩
  · rintro ⟨l, ⟨hl, hid⟩, hkey⟩
    exact ⟨l, ⟨hl, hkey⟩, hid⟩

theorem Numbered.pairwise_linksIn (h : g.Numbered) (key : Link → NodeId) (node : NodeId) :
    ((Incidence.linksIn key g.links.toList node.index).map (·.id)).Pairwise fun a b => a < b :=
  h.pairwise_id.sublist (List.filter_sublist.map _)

/-- Rows that are sorted by one end of the links of a network hold them by that end. -/
theorem lists_ofLinks {key : Link → NodeId} {linksAt : NodeId → Except NetworkError (List LinkId)}
    (hnumbered : g.Numbered) (hends : ∀ l ∈ g.links.toList, (key l).index < g.nodes.size)
    (hlinksAt : ∀ node, linksAt node =
      if node.index < g.nodes.size then
        .ok ((Incidence.ofLinks g.nodes.size key g.links.toList).row node)
      else .error (.nodeNotFound node)) :
    g.Lists (.ofLinks g.nodes.size key g.links.toList) key linksAt := by
  have hrow : ∀ node : NodeId, node.index < g.nodes.size → linksAt node =
      .ok ((Incidence.linksIn key g.links.toList node.index).map (·.id)) := by
    intro node hnode
    rw [hlinksAt, if_pos hnode, Incidence.row_ofLinks hends hnode]
  refine ⟨fun node hnode => ?_, fun node hnode => ⟨_, hrow node hnode,
    hnumbered.pairwise_linksIn key node, fun _ => hnumbered.mem_linksIn_iff⟩,
    fun node hnode => ?_, fun id l hl => ?_⟩
  · refine ⟨_, _, Incidence.getElem?_starts hnode.le,
      Incidence.getElem?_starts (Nat.succ_le_of_lt hnode), ?_, ?_⟩
    · rw [Incidence.lengthBefore_succ]
      exact Nat.le_add_right _ _
    · exact Incidence.lengthBefore_le_size hends hnode
  · rw [hlinksAt, if_neg (Nat.not_lt.2 hnode)]
  · have hin : id ∈ (Incidence.linksIn key g.links.toList (key l).index).map (·.id) :=
      hnumbered.mem_linksIn_iff.2 ⟨l, hl, rfl⟩
    have hnode : (key l).index < g.nodes.size :=
      hends l (hnumbered.link?_eq_some_iff.1 hl).1
    refine ⟨_, hrow _ hnode, List.count_eq_one_of_mem ?_ hin, fun node other hother hid => ?_⟩
    · exact (hnumbered.pairwise_linksIn key (key l)).imp fun hlt heq =>
        Nat.ne_of_lt hlt (congrArg Ident.index heq)
    · by_cases hinside : node.index < g.nodes.size
      · rw [hrow node hinside, Except.ok.injEq] at hother
        obtain ⟨l', hl', hkey⟩ := hnumbered.mem_linksIn_iff.1 (hother ▸ hid)
        rw [hl, Option.some.injEq] at hl'
        rw [← hkey, hl']
      · rw [hlinksAt, if_neg hinside] at hother
        cases hother

/-- Who leaves a link can enter just the links in the row of its end node. -/
theorem adjacent_iff (hout : g.Lists g.outgoing Link.startNode g.outgoingLinks)
    (hends : ∀ id l, g.link? id = some l → l.endNode.index < g.nodes.size) {a b : LinkId} :
    g.adjacent a b = true ↔ ∃ l row, g.link? a = some l ∧ (∃ m, g.link? b = some m) ∧
      g.outgoingLinks l.endNode = .ok row ∧ b ∈ row := by
  constructor
  · intro hadjacent
    unfold adjacent at hadjacent
    split at hadjacent
    · rename_i l m hl hm
      obtain ⟨row, hrow, -, hmem⟩ := hout.lists l.endNode (hends a l hl)
      exact ⟨l, row, hl, ⟨m, hm⟩, hrow, (hmem b).2 ⟨m, hm, (of_decide_eq_true hadjacent).symm⟩⟩
    · cases hadjacent
  · rintro ⟨l, row, hl, -, hrow, hb⟩
    obtain ⟨row', hrow', -, hmem⟩ := hout.lists l.endNode (hends a l hl)
    rw [hrow, Except.ok.injEq] at hrow'
    obtain ⟨m, hm, hstart⟩ := (hmem b).1 (hrow' ▸ hb)
    rw [adjacent, hl, hm]
    exact decide_eq_true hstart.symm

/-- A network that is built has its nodes and its links in the order in which they were given, each
with its place as its number.  For every node the links that leave it, and those that enter it, are
cut out of one list, within its bounds; they ascend strictly, and they are just the links with that
end, so that every link is listed once at each of its ends and nowhere else.  One link can be
entered from another just if both exist and it is among the links that leave the end of the
other. -/
theorem links_are_listed_at_their_ends (h : build periodSecs positions drafts = .ok g) :
    g.nodes.toList = positions.zipIdx.map (fun entry => ⟨⟨entry.2⟩, entry.1⟩) ∧
    g.links.toList = drafts.zipIdx.map (fun entry => entry.1.toLink ⟨entry.2⟩) ∧
    g.Lists g.outgoing Link.startNode g.outgoingLinks ∧
    g.Lists g.incoming Link.endNode g.incomingLinks ∧
    ∀ a b, g.adjacent a b = true ↔ ∃ l row, g.link? a = some l ∧ (∃ m, g.link? b = some m) ∧
      g.outgoingLinks l.endNode = .ok row ∧ b ∈ row := by
  obtain ⟨hnodes, hlinks, hends, houtgoing, hincoming⟩ := of_build h
  have hnumbered := numbered_of_build h
  have hsize : positions.length = g.nodes.size := by
    rw [← Array.length_toList, hnodes, List.length_map, List.length_zipIdx]
  rw [hsize] at hends houtgoing hincoming
  have hout : g.Lists g.outgoing Link.startNode g.outgoingLinks := by
    rw [houtgoing]
    refine lists_ofLinks hnumbered (fun l hl => (hends l hl).1) fun node => ?_
    rw [outgoingLinks, houtgoing]
  have hin : g.Lists g.incoming Link.endNode g.incomingLinks := by
    rw [hincoming]
    refine lists_ofLinks hnumbered (fun l hl => (hends l hl).2) fun node => ?_
    rw [incomingLinks, hincoming]
  exact ⟨hnodes, hlinks, hout, hin, fun a b => adjacent_iff hout fun id l hl =>
    (hends l (hnumbered.link?_eq_some_iff.1 hl).1).2⟩

/-- Two lanes that lead to a place to turn, the turn, and the way back.  There is nothing in the
middle. -/
def turning : List LinkDraft :=
  [lane ⟨2⟩ ⟨0⟩, lane ⟨0⟩ ⟨0⟩, lane ⟨2⟩ ⟨0⟩, lane ⟨0⟩ ⟨2⟩]

/-- The links to the place to turn are listed there, and whoever has turned can turn again. -/
theorem links_are_listed_at_their_ends_turning : ∃ g,
    build standardPeriodSecs [.origin, .origin, .origin] turning = .ok g ∧
    g.outgoing.starts = #[0, 2, 2, 4] ∧ g.incoming.starts = #[0, 3, 3, 4] ∧
    g.Lists g.outgoing Link.startNode g.outgoingLinks ∧
    g.Lists g.incoming Link.endNode g.incomingLinks ∧
    ∃ l row, g.link? ⟨1⟩ = some l ∧ (∃ m, g.link? ⟨1⟩ = some m) ∧
      g.outgoingLinks l.endNode = .ok row ∧ ⟨1⟩ ∈ row := by
  obtain ⟨g, hg, houtgoing, hincoming, hadjacent⟩ : ∃ g,
      build standardPeriodSecs [.origin, .origin, .origin] turning = .ok g ∧
      g.outgoing.starts = #[0, 2, 2, 4] ∧ g.incoming.starts = #[0, 3, 3, 4] ∧
      g.adjacent ⟨1⟩ ⟨1⟩ = true :=
    ⟨_, rfl, by decide +kernel, by decide +kernel, by decide +kernel⟩
  obtain ⟨-, -, hout, hin, hturn⟩ := links_are_listed_at_their_ends hg
  exact ⟨g, hg, houtgoing, hincoming, hout, hin, (hturn ⟨1⟩ ⟨1⟩).1 hadjacent⟩

end Network
end Thoroughfare

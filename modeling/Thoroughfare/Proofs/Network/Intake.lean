import Thoroughfare.Network.Files

/-!
# Taking in the tables of a network

Whoever reads a network row by row keeps four tables, names to numbers and numbers to names for both
nodes and links, and beside them the lists of the builder, from whose lengths the numbers are taken
and cut to thirty-two bits.  Nothing but the loop keeps the tables in step with each other and with
the builder.  It does so as long as the numbers fit: then what is read is what is read with tables
that are inverse to each other by their type, and a fault is the same fault.
-/

namespace Thoroughfare
namespace Network

variable {nodes nodes' : NodeTable} {links links' : LinkTable}

/-- The names of nodes and links, in four tables that may say anything. -/
structure Index where
  nodeIds : Std.ExtTreeMap String NodeId
  linkIds : Std.ExtTreeMap String LinkId
  nodeNames : Array String
  linkNames : Array String

def Names.index (names : Names) : Index where
  nodeIds := names.nodes.ids
  linkIds := names.links.ids
  nodeNames := names.nodes.names
  linkNames := names.links.names

/-- What is kept while the tables are read: the index, and what the builder has been given. -/
structure Intake extends Index where
  positions : Array Point
  drafts : Array LinkDraft

namespace Intake

def empty : Intake :=
  ⟨⟨∅, ∅, #[], #[]⟩, #[], #[]⟩

/-- How many numbers there are. -/
def numbers : Nat :=
  4294967296

/-- The number that the builder gives to what it is given next. -/
def nextId {kind : Entity} {γ : Type} (given : Array γ) : Ident kind :=
  ⟨given.size % numbers⟩

def addNode (t : Intake) (row : NodeRow) : Except NetworkError Intake :=
  if t.nodeIds.contains row.name then .error (.duplicateNode row.name)
  else
    .ok { t with
      positions := t.positions.push row.position
      nodeIds := t.nodeIds.insert row.name (nextId t.positions)
      nodeNames := t.nodeNames.push row.name }

def resolve (t : Intake) (link node : String) : Except NetworkError NodeId :=
  match t.nodeIds[node]? with
  | some id => .ok id
  | none => .error (.unknownNode link node)

/-- What the builder is told of a link; without a length it is as long as the way between its
ends. -/
def draft (t : Intake) (row : LinkRow) (startNode endNode : NodeId) : LinkDraft where
  startNode := startNode
  endNode := endNode
  length :=
    match row.length with
    | some length => length
    | none =>
        let a := t.positions[startNode.index]?.getD Point.origin
        let b := t.positions[endNode.index]?.getD Point.origin
        a.distance b
  freeSpeed := row.freeSpeed
  flowCapacity := row.flowCapacity
  lanes := row.lanes.getD 1.0
  storage := row.storage

def addLink (t : Intake) (row : LinkRow) : Except NetworkError Intake :=
  if t.linkIds.contains row.name then .error (.duplicateLink row.name)
  else do
    let startNode ← t.resolve row.name row.startNode
    let endNode ← t.resolve row.name row.endNode
    return { t with
      drafts := t.drafts.push (t.draft row startNode endNode)
      linkIds := t.linkIds.insert row.name (nextId t.drafts)
      linkNames := t.linkNames.push row.name }

/-- Read a network row by row, first all nodes and then all links. -/
def read (nodeRows : List NodeRow) (linkRows : List LinkRow) :
    Except NetworkError (Network × Index) := do
  let t ← nodeRows.foldlM addNode empty
  let t ← linkRows.foldlM addLink t
  let g ← build standardPeriodSecs t.positions.toList t.drafts.toList
  return (g, t.toIndex)

/-! ## In step -/

/-- The intake with given nodes and links. -/
def of (nodes : NodeTable) (links : LinkTable) : Intake :=
  ⟨Names.index ⟨nodes.names, links.names⟩, nodes.positions, links.drafts⟩

theorem contains_iff {kind : Entity} {names : NameTable kind} {name : String} :
    names.ids.contains name = true ↔ names.id? name ≠ none := by
  rw [NameTable.id?, ne_eq, ← Option.isNone_iff_eq_none, Bool.not_eq_true,
    Option.isNone_eq_false_iff, Std.ExtTreeMap.contains_eq_isSome_getElem?]

end Intake

/-- There are as many names as positions. -/
def NodeTable.InStep (t : NodeTable) : Prop :=
  t.names.names.size = t.positions.size

/-- There are as many names as drafts. -/
def LinkTable.InStep (t : LinkTable) : Prop :=
  t.names.names.size = t.drafts.size

theorem NodeTable.InStep.add {row : NodeRow} (h : nodes.InStep) (hadd : nodes.add row = .ok nodes') :
    nodes'.InStep ∧ nodes'.positions.size = nodes.positions.size + 1 := by
  unfold NodeTable.add at hadd
  split at hadd
  · cases hadd
    simp only [NodeTable.InStep, NameTable.add, Array.size_push, and_true] at h ⊢
    rw [h]
  · cases hadd

theorem LinkTable.InStep.add {row : LinkRow} (h : links.InStep)
    (hadd : links.add nodes row = .ok links') :
    links'.InStep ∧ links'.drafts.size = links.drafts.size + 1 := by
  unfold LinkTable.add at hadd
  split at hadd
  · split at hadd
    · cases hadd
    · split at hadd
      · cases hadd
      · cases hadd
        simp only [LinkTable.InStep, NameTable.add, Array.size_push, and_true] at h ⊢
        rw [h]
  · cases hadd

namespace Intake

theorem addNode_of (hstep : nodes.InStep) (hroom : nodes.positions.size < numbers)
    (links : LinkTable) (row : NodeRow) :
    (of nodes links).addNode row = (nodes.add row).map (of · links) := by
  by_cases hname : nodes.names.id? row.name = none
  · have hfresh : ¬ (of nodes links).nodeIds.contains row.name = true :=
      fun h => contains_iff.1 h hname
    have hid : (nextId (of nodes links).positions : NodeId) = ⟨nodes.names.names.size⟩ := by
      rw [nextId, hstep]
      exact congrArg Ident.mk (Nat.mod_eq_of_lt hroom)
    rw [NodeTable.add, dif_pos hname, addNode, if_neg hfresh, hid]
    rfl
  · rw [NodeTable.add, dif_neg hname, addNode]
    exact if_pos (contains_iff.2 hname)

theorem draft_of (nodes : NodeTable) (links : LinkTable) (row : LinkRow)
    (startNode endNode : NodeId) :
    (of nodes links).draft row startNode endNode = row.draft nodes startNode endNode := by
  simp only [draft, LinkRow.draft, NodeTable.position, Array.getD_eq_getD_getElem?]
  cases row.length <;> rfl

theorem addLink_of (hstep : links.InStep) (hroom : links.drafts.size < numbers)
    (nodes : NodeTable) (row : LinkRow) :
    (of nodes links).addLink row = (links.add nodes row).map (of nodes) := by
  by_cases hname : links.names.id? row.name = none
  · have hfresh : ¬ (of nodes links).linkIds.contains row.name = true :=
      fun h => contains_iff.1 h hname
    have hid : (nextId (of nodes links).drafts : LinkId) = ⟨links.names.names.size⟩ := by
      rw [nextId, hstep]
      exact congrArg Ident.mk (Nat.mod_eq_of_lt hroom)
    have hresolve : (of nodes links).resolve = nodes.resolve := rfl
    simp only [LinkTable.add, dif_pos hname, addLink, if_neg hfresh, hid, hresolve, draft_of]
    cases nodes.resolve row.name row.startNode with
    | error e => rfl
    | ok startNode => cases nodes.resolve row.name row.endNode <;> rfl
  · rw [LinkTable.add, dif_neg hname, addLink]
    exact if_pos (contains_iff.2 hname)

/-! ## Row by row -/

theorem foldlM_addNode_of {rows : List NodeRow} (hstep : nodes.InStep)
    (hroom : nodes.positions.size + rows.length ≤ numbers) (links : LinkTable) :
    rows.foldlM addNode (of nodes links) = (nodes.addAll (rows.map .ok)).map (of · links) := by
  induction rows generalizing nodes with
  | nil => rfl
  | cons row rest ih =>
      rw [List.length_cons] at hroom
      rw [List.foldlM_cons, addNode_of hstep (by omega), List.map_cons, NodeTable.addAll]
      cases hadd : nodes.add row with
      | error e => rfl
      | ok nodes' =>
          obtain ⟨hstep', hsize⟩ := hstep.add hadd
          exact ih hstep' (by omega)

theorem foldlM_addLink_of {rows : List LinkRow} (hstep : links.InStep)
    (hroom : links.drafts.size + rows.length ≤ numbers) (nodes : NodeTable) :
    rows.foldlM addLink (of nodes links) =
      (links.addAll nodes (rows.map .ok)).map (of nodes) := by
  induction rows generalizing links with
  | nil => rfl
  | cons row rest ih =>
      rw [List.length_cons] at hroom
      rw [List.foldlM_cons, addLink_of hstep (by omega), List.map_cons, LinkTable.addAll]
      cases hadd : links.add nodes row with
      | error e => rfl
      | ok links' =>
          obtain ⟨hstep', hsize⟩ := hstep.add hadd
          exact ih hstep' (by omega)

/-- As long as the numbers fit, it makes no difference how the tables are kept. -/
theorem read_eq {nodeRows : List NodeRow} {linkRows : List LinkRow}
    (hnodes : nodeRows.length ≤ numbers) (hlinks : linkRows.length ≤ numbers) :
    read nodeRows linkRows = (ofRows (nodeRows.map .ok) (linkRows.map .ok)).map
      fun result => (result.1, result.2.index) := by
  have hempty : empty = of ⟨.empty, #[]⟩ ⟨.empty, #[]⟩ := rfl
  have hnodesStep : NodeTable.InStep ⟨.empty, #[]⟩ := rfl
  have hlinksStep : LinkTable.InStep ⟨.empty, #[]⟩ := rfl
  rw [read, hempty, foldlM_addNode_of hnodesStep (by simpa using hnodes), ofRows]
  cases NodeTable.addAll ⟨.empty, #[]⟩ (nodeRows.map .ok) with
  | error e => rfl
  | ok nodes =>
      simp only [Except.map, bind, Except.bind]
      rw [foldlM_addLink_of hlinksStep (by simpa using hlinks)]
      cases LinkTable.addAll ⟨.empty, #[]⟩ nodes (linkRows.map .ok) with
      | error e => rfl
      | ok links =>
          simp only [Except.map, of]
          cases build standardPeriodSecs nodes.positions.toList links.drafts.toList <;> rfl

end Intake
end Network
end Thoroughfare

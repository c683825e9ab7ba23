import Thoroughfare.Proofs.Arrangement
import Thoroughfare.Proofs.Network.Building
import Thoroughfare.Proofs.Network.Intake

/-!
# Networks that are loaded

Rows of nodes and links make a network just if no node and no link is named twice, every link leads
from a node to a node of the tables, and its values can be built.  Then names and numbers are inverse
to each other, the numbers are the places of the rows, and each link of the network has the ends that
its row names.
-/

namespace Thoroughfare

/-! ## Names -/

namespace NameTable

variable {kind : Entity} {t : NameTable kind} {name : String} {id : Ident kind}

/-- The names are some texts in their order, and names and numbers are inverse to each other. -/
structure Numbers (t : NameTable kind) (texts : List String) : Prop where
  size_eq : t.size = texts.length
  inOrder : ∀ id, t.name? id = texts[id.index]?
  named : ∀ id, id.index < texts.length →
    ∃ name ∈ texts, t.name? id = some name ∧ t.id? name = some id
  numbered : ∀ name ∈ texts,
    ∃ id, id.index < texts.length ∧ t.id? name = some id ∧ t.name? id = some name
  unknown : ∀ name, name ∉ texts → t.id? name = none
  unused : ∀ id, texts.length ≤ id.index → t.name? id = none

theorem name?_eq_getElem? (t : NameTable kind) (id : Ident kind) :
    t.name? id = t.names.toList[id.index]? := by
  rw [name?, Array.getElem?_toList]

theorem id?_eq_none_iff : t.id? name = none ↔ name ∉ t.names.toList := by
  rw [List.mem_iff_getElem?, not_exists, Option.eq_none_iff_forall_ne_some]
  refine ⟨fun h place hplace => ?_, fun h id hid => ?_⟩
  · exact h ⟨place⟩ ((t.id?_eq_some_iff name ⟨place⟩).2 ((t.name?_eq_getElem? ⟨place⟩).trans hplace))
  · exact h id.index ((t.name?_eq_getElem? id).symm.trans ((t.id?_eq_some_iff name id).1 hid))

theorem names_add (t : NameTable kind) (name : String) (fresh : t.id? name = none) :
    (t.add name fresh).names.toList = t.names.toList ++ [name] :=
  Array.toList_push

/-- No text is named twice. -/
theorem nodup_names (t : NameTable kind) : t.names.toList.Nodup := by
  rw [List.Nodup, List.pairwise_iff_getElem]
  intro i j hi hj hij hsame
  have hfirst : t.name? ⟨i⟩ = some t.names.toList[i] := by
    rw [name?_eq_getElem?, List.getElem?_eq_getElem hi]
  have hsecond : t.name? ⟨j⟩ = some t.names.toList[i] := by
    rw [name?_eq_getElem?, List.getElem?_eq_getElem hj, hsame]
  rw [← t.id?_eq_some_iff] at hfirst hsecond
  have hplaces := Option.some.inj (hfirst.symm.trans hsecond)
  exact hij.ne (congrArg Ident.index hplaces)

theorem numbers (t : NameTable kind) : t.Numbers t.names.toList where
  size_eq := Array.length_toList.symm
  inOrder := t.name?_eq_getElem?
  named id hid := by
    have hname : t.name? id = some t.names.toList[id.index] := by
      rw [name?_eq_getElem?, List.getElem?_eq_getElem hid]
    exact ⟨_, List.getElem_mem hid, hname, (t.id?_eq_some_iff _ id).2 hname⟩
  numbered name hname := by
    obtain ⟨place, hplace, rfl⟩ := List.mem_iff_getElem.1 hname
    have hname : t.name? ⟨place⟩ = some t.names.toList[place] := by
      rw [name?_eq_getElem?, List.getElem?_eq_getElem hplace]
    exact ⟨⟨place⟩, hplace, (t.id?_eq_some_iff _ _).2 hname, hname⟩
  unknown _ := id?_eq_none_iff.2
  unused id hid := by rw [name?_eq_getElem?, List.getElem?_eq_none hid]

end NameTable

namespace Network

/-! ## Nodes -/

/-- All nodes are taken in, or one of them has the name of another. -/
theorem NodeTable.addAll_cases (t : NodeTable) (rows : List NodeRow) :
    (∃ t', t.addAll (rows.map .ok) = .ok t' ∧
      t'.names.names.toList = t.names.names.toList ++ rows.map (·.name) ∧
      t'.positions.toList = t.positions.toList ++ rows.map (·.position)) ∨
    ((∃ e, t.addAll (rows.map .ok) = .error e) ∧
      ¬ (t.names.names.toList ++ rows.map (·.name)).Nodup) := by
  induction rows generalizing t with
  | nil => exact Or.inl ⟨t, rfl, by simp, by simp⟩
  | cons row rest ih =>
      rw [List.map_cons, addAll, add]
      by_cases hname : t.names.id? row.name = none
      · have h := ih ⟨t.names.add row.name hname, t.positions.push row.position⟩
        simp only [NameTable.names_add, Array.toList_push, List.append_assoc,
          List.singleton_append] at h
        rw [dif_pos hname]
        exact h
      · rw [dif_neg hname]
        rw [NameTable.id?_eq_none_iff, Decidable.not_not] at hname
        refine Or.inr ⟨⟨_, rfl⟩, fun hnodup => ?_⟩
        exact (List.nodup_append.1 hnodup).2.2 _ hname _ List.mem_cons_self rfl

/-! ## Links -/

/-- The draft that is made of a row, with the numbers of the nodes that it names. -/
def NodeTable.Drafts (nodes : NodeTable) (row : LinkRow) (draft : LinkDraft) : Prop :=
  ∃ startNode endNode, nodes.names.id? row.startNode = some startNode ∧
    nodes.names.id? row.endNode = some endNode ∧ draft = row.draft nodes startNode endNode

/-- A link is taken in, or it has the name of another, or a node of it is unknown. -/
theorem LinkTable.add_cases (t : LinkTable) (nodes : NodeTable) (row : LinkRow) :
    (∃ t' draft, t.add nodes row = .ok t' ∧ nodes.Drafts row draft ∧
      t'.names.names.toList = t.names.names.toList ++ [row.name] ∧
      t'.drafts.toList = t.drafts.toList ++ [draft]) ∨
    ((∃ e, t.add nodes row = .error e) ∧
      (row.name ∈ t.names.names.toList ∨ row.startNode ∉ nodes.names.names.toList ∨
        row.endNode ∉ nodes.names.names.toList)) := by
  rw [add]
  by_cases hname : t.names.id? row.name = none
  · rw [dif_pos hname]
    cases hstart : nodes.names.id? row.startNode with
    | none =>
        simp only [NodeTable.resolve, hstart]
        exact Or.inr ⟨⟨_, rfl⟩, Or.inr (Or.inl (NameTable.id?_eq_none_iff.1 hstart))⟩
    | some startNode =>
        cases hend : nodes.names.id? row.endNode with
        | none =>
            simp only [NodeTable.resolve, hstart, hend]
            exact Or.inr ⟨⟨_, rfl⟩, Or.inr (Or.inr (NameTable.id?_eq_none_iff.1 hend))⟩
        | some endNode =>
            simp only [NodeTable.resolve, hstart, hend]
            exact Or.inl ⟨_, _, rfl, ⟨startNode, endNode, hstart, hend, rfl⟩,
              NameTable.names_add _ _ hname, Array.toList_push⟩
  · rw [dif_neg hname]
    rw [NameTable.id?_eq_none_iff, Decidable.not_not] at hname
    exact Or.inr ⟨⟨_, rfl⟩, Or.inl hname⟩

/-- All links are taken in, or one of them has the name of another, or a node of one is unknown. -/
theorem LinkTable.addAll_cases (t : LinkTable) (nodes : NodeTable) (rows : List LinkRow) :
    (∃ t' drafts, t.addAll nodes (rows.map .ok) = .ok t' ∧
      t'.names.names.toList = t.names.names.toList ++ rows.map (·.name) ∧
      t'.drafts.toList = t.drafts.toList ++ drafts ∧ List.Forall₂ nodes.Drafts rows drafts) ∨
    ((∃ e, t.addAll nodes (rows.map .ok) = .error e) ∧
      ¬ ((t.names.names.toList ++ rows.map (·.name)).Nodup ∧ ∀ row ∈ rows,
        row.startNode ∈ nodes.names.names.toList ∧ row.endNode ∈ nodes.names.names.toList)) := by
  induction rows generalizing t with
  | nil => exact Or.inl ⟨t, [], rfl, by simp, by simp, .nil⟩
  | cons row rest ih =>
      rw [List.map_cons, addAll, List.map_cons, List.forall_mem_cons]
      obtain ⟨t', draft, hadd, hdraft, hnames, hdrafts⟩ | ⟨⟨e, hadd⟩, hbad⟩ := t.add_cases nodes row
      · have h := ih t'
        simp only [hnames, hdrafts, List.append_assoc, List.singleton_append] at h
        simp only [hadd]
        obtain ⟨t'', drafts, hall, hall_names, hall_drafts, hforall⟩ | ⟨herror, hbad⟩ := h
        · exact Or.inl ⟨t'', draft :: drafts, hall, hall_names, hall_drafts, .cons hdraft hforall⟩
        · exact Or.inr ⟨herror, fun hgood => hbad ⟨hgood.1, hgood.2.2⟩⟩
      · simp only [hadd]
        refine Or.inr ⟨⟨e, rfl⟩, ?_⟩
        rintro ⟨hnodup, hends, -⟩
        rcases hbad with hname | hstart | hend
        · exact (List.nodup_append.1 hnodup).2.2 _ hname _ List.mem_cons_self rfl
        · exact hstart hends.1
        · exact hend hends.2

/-! ## Loading -/

theorem isPositive_standardPeriodSecs : Decimal.isPositive standardPeriodSecs = true := by
  decide +kernel

/-- The link of a row can be built between the nodes of two rows. -/
structure LinkRow.Between (row : LinkRow) (start finish : NodeRow) : Prop where
  startNode : start.name = row.startNode
  endNode : finish.name = row.endNode
  length : Decimal.isNonnegative (row.length.getD (start.position.distance finish.position)) = true
  freeSpeed : Decimal.isPositive row.freeSpeed = true
  flowCapacity : Decimal.isPositive row.flowCapacity = true
  lanes : Decimal.isPositive (row.lanes.getD 1.0) = true
  storage : ∀ storage, row.storage = some storage → Decimal.isPositive storage = true

/-- The nodes are those of some rows, in their order. -/
structure NodeTable.Has (nodes : NodeTable) (rows : List NodeRow) : Prop where
  names_eq : nodes.names.names.toList = rows.map (·.name)
  positions_eq : nodes.positions.toList = rows.map (·.position)

variable {nodes : NodeTable} {nodeRows : List NodeRow} {row : LinkRow} {draft : LinkDraft}

theorem NodeTable.Has.nodup (h : nodes.Has nodeRows) : (nodeRows.map (·.name)).Nodup :=
  h.names_eq ▸ nodes.names.nodup_names

/-- A name that has a number is the one of the row with this number. -/
theorem NodeTable.Has.exists_row {name : String} {id : NodeId} (h : nodes.Has nodeRows)
    (hid : nodes.names.id? name = some id) :
    id.index < nodeRows.length ∧
      ∃ node ∈ nodeRows, node.name = name ∧ nodes.position id = node.position := by
  rw [nodes.names.id?_eq_some_iff, NameTable.name?_eq_getElem?, h.names_eq, List.getElem?_map,
    Option.map_eq_some_iff] at hid
  obtain ⟨node, hnode, hname⟩ := hid
  refine ⟨(List.getElem?_eq_some_iff.1 hnode).1, node, List.mem_of_getElem? hnode, hname, ?_⟩
  rw [NodeTable.position, Array.getD_eq_getD_getElem?, ← Array.getElem?_toList, h.positions_eq,
    List.getElem?_map, hnode]
  rfl

/-- The draft of a row has no fault just if its link can be built between rows of nodes. -/
theorem NodeTable.Has.fault?_eq_none_iff (h : nodes.Has nodeRows) (hdraft : nodes.Drafts row draft) :
    draft.fault? nodeRows.length = none ↔
      ∃ start ∈ nodeRows, ∃ finish ∈ nodeRows, row.Between start finish := by
  obtain ⟨startNode, endNode, hstart, hend, rfl⟩ := hdraft
  obtain ⟨hstartIndex, start, hstartMem, hstartName, hstartPosition⟩ := h.exists_row hstart
  obtain ⟨hendIndex, finish, hendMem, hendName, hendPosition⟩ := h.exists_row hend
  rw [Network.fault?_eq_none_iff, LinkRow.draft, hstartPosition, hendPosition]
  constructor
  · rintro ⟨-, -, hlength, hspeed, hflow, hlanes, hstorage⟩
    exact ⟨start, hstartMem, finish, hendMem, hstartName, hendName, hlength, hspeed, hflow, hlanes,
      hstorage⟩
  · rintro ⟨start', hstartMem', finish', hendMem', hrow⟩
    have hsameStart : start' = start :=
      List.inj_on_of_nodup_map h.nodup hstartMem' hstartMem (hrow.startNode.trans hstartName.symm)
    have hsameEnd : finish' = finish :=
      List.inj_on_of_nodup_map h.nodup hendMem' hendMem (hrow.endNode.trans hendName.symm)
    subst hsameStart hsameEnd
    exact ⟨hstartIndex, hendIndex, hrow.length, hrow.freeSpeed, hrow.flowCapacity, hrow.lanes,
      hrow.storage⟩

/-- What is loaded from rows is built from the nodes and drafts of these rows, and if nothing is
loaded, the rows are at fault. -/
theorem ofRows_cases (nodeRows : List NodeRow) (linkRows : List LinkRow) :
    (∃ (nodes : NodeTable) (links : LinkTable) (drafts : List LinkDraft) (g : Network),
      ofRows (nodeRows.map .ok) (linkRows.map .ok) = .ok (g, ⟨nodes.names, links.names⟩) ∧
      nodes.Has nodeRows ∧ links.names.names.toList = linkRows.map (·.name) ∧
      List.Forall₂ nodes.Drafts linkRows drafts ∧
      build standardPeriodSecs (nodeRows.map (·.position)) drafts = .ok g) ∨
    ((∃ e, ofRows (nodeRows.map .ok) (linkRows.map .ok) = .error e) ∧
      ¬ ((nodeRows.map (·.name)).Nodup ∧ (linkRows.map (·.name)).Nodup ∧
        ∀ row ∈ linkRows, ∃ start ∈ nodeRows, ∃ finish ∈ nodeRows, row.Between start finish)) := by
  rw [ofRows]
  obtain ⟨nodes, hnodes, hnames, hpositions⟩ | ⟨⟨e, herror⟩, hbad⟩ :=
    NodeTable.addAll_cases ⟨.empty, #[]⟩ nodeRows
  · have hhas : nodes.Has nodeRows := ⟨hnames, hpositions⟩
    simp only [hnodes]
    obtain ⟨links, drafts, hlinks, hlinkNames, hlinkDrafts, hforall⟩ | ⟨⟨e, herror⟩, hbad⟩ :=
      LinkTable.addAll_cases ⟨.empty, #[]⟩ nodes linkRows
    · have hdrafts : links.drafts.toList = drafts := hlinkDrafts
      simp only [hlinks, hdrafts, hhas.positions_eq]
      cases hbuild : build standardPeriodSecs (nodeRows.map (·.position)) drafts with
      | ok g => exact Or.inl ⟨nodes, links, drafts, g, rfl, hhas, hlinkNames, hforall, hbuild⟩
      | error e =>
          refine Or.inr ⟨⟨e, rfl⟩, ?_⟩
          rintro ⟨-, -, hrows⟩
          have hfaultless : ∀ d ∈ drafts, d.fault? (nodeRows.map (·.position)).length = none := by
            intro d hd
            obtain ⟨row, hrow, hdraft⟩ := exists_mem_of_forall₂ hforall.flip hd
            rw [List.length_map]
            exact (hhas.fault?_eq_none_iff hdraft).2 (hrows row hrow)
          obtain ⟨g, hg⟩ := exists_build_iff.2 ⟨isPositive_standardPeriodSecs, hfaultless⟩
          rw [hbuild] at hg
          cases hg
    · simp only [herror]
      refine Or.inr ⟨⟨e, rfl⟩, ?_⟩
      rintro ⟨-, hnodup, hrows⟩
      refine hbad ⟨hnodup, fun row hrow => ?_⟩
      obtain ⟨start, hstart, finish, hfinish, hbetween⟩ := hrows row hrow
      rw [hhas.names_eq, ← hbetween.startNode, ← hbetween.endNode]
      exact ⟨List.mem_map_of_mem hstart, List.mem_map_of_mem hfinish⟩
  · simp only [herror]
    exact Or.inr ⟨⟨e, rfl⟩, fun hgood => hbad hgood.1⟩

/-- The links that are built of drafts lead from and to the nodes that the rows name. -/
theorem ends_of_rows {linkRows : List LinkRow} {drafts : List LinkDraft} {g : Network}
    (hdrafts : List.Forall₂ nodes.Drafts linkRows drafts)
    (h : build standardPeriodSecs (nodeRows.map (·.position)) drafts = .ok g) {place : Nat}
    (hrow : linkRows[place]? = some row) :
    ∃ l, g.links[place]? = some l ∧ nodes.names.name? l.startNode = some row.startNode ∧
      nodes.names.name? l.endNode = some row.endNode := by
  obtain ⟨hplace, rfl⟩ := List.getElem?_eq_some_iff.1 hrow
  have hplace' : place < drafts.length := hdrafts.length_eq ▸ hplace
  obtain ⟨startNode, endNode, hstart, hend, hdraft⟩ := hdrafts.get hplace hplace'
  simp only [List.get_eq_getElem] at hstart hend hdraft
  refine ⟨(linkRows[place].draft nodes startNode endNode).toLink ⟨place⟩, ?_,
    (NameTable.id?_eq_some_iff ..).1 hstart, (NameTable.id?_eq_some_iff ..).1 hend⟩
  rw [getElem?_links_of_build h, List.getElem?_eq_getElem hplace', hdraft]
  rfl

/-- Rows of nodes and links make a network just if no node and no link is named twice and every link
can be built between two nodes of the rows.  Then the network has a node and a link for each row;
names and numbers of the nodes are inverse to each other, and those of the links too; a text that
names no row has no number; and the link of each row has the ends that the row names.  The tables
may as well be kept apart and numbered by the builder, as long as its numbers fit into thirty-two
bits. -/
theorem tables_number_the_network (nodeRows : List NodeRow) (linkRows : List LinkRow) :
    ((∃ result, ofRows (nodeRows.map .ok) (linkRows.map .ok) = .ok result) ↔
      (nodeRows.map (·.name)).Nodup ∧ (linkRows.map (·.name)).Nodup ∧
        ∀ row ∈ linkRows, ∃ start ∈ nodeRows, ∃ finish ∈ nodeRows, row.Between start finish) ∧
    (∀ g names, ofRows (nodeRows.map .ok) (linkRows.map .ok) = .ok (g, names) →
      g.nodes.size = nodeRows.length ∧ g.links.size = linkRows.length ∧
      names.nodes.Numbers (nodeRows.map (·.name)) ∧
      names.links.Numbers (linkRows.map (·.name)) ∧
      ∀ (i : Nat) (row : LinkRow), linkRows[i]? = some row → ∃ l, g.links[i]? = some l ∧
        names.nodes.name? l.startNode = some row.startNode ∧
        names.nodes.name? l.endNode = some row.endNode) ∧
    (nodeRows.length < Intake.numbers → linkRows.length < Intake.numbers →
      Intake.read nodeRows linkRows = (ofRows (nodeRows.map .ok) (linkRows.map .ok)).map
        fun result => (result.1, result.2.index)) := by
  obtain ⟨nodes, links, drafts, g, hload, hhas, hlinkNames, hdrafts, hbuild⟩ | ⟨⟨e, herror⟩, hbad⟩ :=
    ofRows_cases nodeRows linkRows
  · obtain ⟨-, hfaultless⟩ := exists_build_iff.1 ⟨g, hbuild⟩
    rw [List.length_map] at hfaultless
    refine ⟨iff_of_true ⟨_, hload⟩ ⟨hhas.nodup, hlinkNames ▸ links.names.nodup_names, ?_⟩, ?_,
      fun hnodes hlinks => Intake.read_eq hnodes.le hlinks.le⟩
    · intro row hrow
      obtain ⟨draft, hmem, hdraft⟩ := exists_mem_of_forall₂ hdrafts hrow
      exact (hhas.fault?_eq_none_iff hdraft).1 (hfaultless draft hmem)
    · intro g' names' h
      cases hload.symm.trans h
      obtain ⟨hnodes, hlinks⟩ := sizes_of_build hbuild
      refine ⟨hnodes.trans (List.length_map ..), hlinks.trans hdrafts.length_eq.symm,
        hhas.names_eq ▸ nodes.names.numbers, hlinkNames ▸ links.names.numbers, fun _ _ hrow => ?_⟩
      exact ends_of_rows hdrafts hbuild hrow
  · refine ⟨iff_of_false ?_ hbad, ?_, fun hnodes hlinks => Intake.read_eq hnodes.le hlinks.le⟩
    · rintro ⟨result, h⟩
      cases herror.symm.trans h
    · intro g names h
      cases herror.symm.trans h

/-- A bridge without a length, over which one may drive from west to east. -/
def bridge : LinkRow where
  name := "bridge"
  startNode := "west"
  endNode := "east"
  length := none
  freeSpeed := 10.0
  flowCapacity := 1800.0
  lanes := none
  storage := some 4.0

/-- The bridge is the only link, and it is built between its shores. -/
theorem tables_number_the_network_bridge :
    2 < Intake.numbers ∧ 1 < Intake.numbers ∧
    ∃ g names, ofRows [.ok ⟨"west", ⟨0.0, 0.0⟩⟩, .ok ⟨"east", ⟨30.0, 40.0⟩⟩] [.ok bridge] =
        .ok (g, names) ∧
      Intake.read [⟨"west", ⟨0.0, 0.0⟩⟩, ⟨"east", ⟨30.0, 40.0⟩⟩] [bridge] = .ok (g, names.index) ∧
      g.nodes.size = 2 ∧ g.links.size = 1 ∧ names.nodes.Numbers ["west", "east"] ∧
      names.links.Numbers ["bridge"] ∧ ∃ l, g.links[0]? = some l ∧
        names.nodes.name? l.startNode = some "west" ∧
        names.nodes.name? l.endNode = some "east" := by
  obtain ⟨hsuccess, hresult, hread⟩ :=
    tables_number_the_network [⟨"west", ⟨0.0, 0.0⟩⟩, ⟨"east", ⟨30.0, 40.0⟩⟩] [bridge]
  have hbetween : bridge.Between ⟨"west", ⟨0.0, 0.0⟩⟩ ⟨"east", ⟨30.0, 40.0⟩⟩ := by
    refine ⟨rfl, rfl, ?_, ?_, ?_, ?_, ?_⟩ <;> decide +kernel
  obtain ⟨⟨g, names⟩, hload⟩ := hsuccess.2 ⟨by decide, by decide, List.forall_mem_singleton.2
    ⟨_, List.mem_cons_self, _, List.mem_cons_of_mem _ List.mem_cons_self, hbetween⟩⟩
  obtain ⟨hnodes, hlinks, hnodeNames, hlinkNames, hends⟩ := hresult g names hload
  have hsame := hread (by decide) (by decide)
  rw [hload] at hsame
  exact ⟨by decide, by decide, g, names, hload, hsame, hnodes, hlinks, hnodeNames, hlinkNames,
    hends 0 bridge rfl⟩

end Network
end Thoroughfare

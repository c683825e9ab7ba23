import Thoroughfare.Network.Basic
import Thoroughfare.Network.Names

/-!
# Networks from tables

A network is read from a table of nodes and a table of links.  Rows are taken one by one, so an
earlier fault counts; names must be new and links must lead between nodes of the first table.
A link without length is as long as the distance between its ends.
-/

namespace Thoroughfare
namespace Network

/-- A row of the table of nodes. -/
structure NodeRow where
  name : String
  position : Point
deriving Repr

/-- A row of the table of links. -/
structure LinkRow where
  name : String
  startNode : String
  endNode : String
  length : Option Float
  freeSpeed : Float
  flowCapacity : Float
  lanes : Option Float
  storage : Option Float
deriving Repr

def NodeRow.columns : List String :=
  ["id", "x", "y"]

def LinkRow.columns : List String :=
  ["id", "from", "to", "length", "freespeed", "capacity", "lanes", "storage"]

def NodeRow.ofCells? : List (Option String) → Option NodeRow
  | [name, x, y] => do
      return ⟨← Csv.required name, ⟨← Csv.number x, ← Csv.number y⟩⟩
  | _ => none

def LinkRow.ofCells? : List (Option String) → Option LinkRow
  | [name, startNode, endNode, length, freeSpeed, flowCapacity, lanes, storage] => do
      return {
        name := ← Csv.required name
        startNode := ← Csv.required startNode
        endNode := ← Csv.required endNode
        length := ← Csv.optionalNumber length
        freeSpeed := ← Csv.number freeSpeed
        flowCapacity := ← Csv.number flowCapacity
        lanes := ← Csv.optionalNumber lanes
        storage := ← Csv.optionalNumber storage }
  | _ => none

/-- The names under which nodes and links were read. -/
structure Names where
  nodes : NameTable .node
  links : NameTable .link

/-- Nodes that have been read. -/
structure NodeTable where
  names : NameTable .node
  positions : Array Point

/-- Links that have been read. -/
structure LinkTable where
  names : NameTable .link
  drafts : Array LinkDraft

def NodeTable.add (t : NodeTable) (row : NodeRow) : Except NetworkError NodeTable :=
  if fresh : t.names.id? row.name = none then
    .ok ⟨t.names.add row.name fresh, t.positions.push row.position⟩
  else .error (.duplicateNode row.name)

def NodeTable.addAll (t : NodeTable) :
    List (Except Csv.Fault NodeRow) → Except NetworkError NodeTable
  | [] => .ok t
  | .error fault :: _ => .error (.table fault)
  | .ok row :: rows =>
      match t.add row with
      | .ok t => t.addAll rows
      | .error e => .error e

/-- The node that a link names as one of its ends. -/
def NodeTable.resolve (t : NodeTable) (link name : String) : Except NetworkError NodeId :=
  match t.names.id? name with
  | some id => .ok id
  | none => .error (.unknownNode link name)

def NodeTable.position (t : NodeTable) (id : NodeId) : Point :=
  t.positions.getD id.index Point.origin

/-- The draft of a link between two nodes. -/
def LinkRow.draft (row : LinkRow) (nodes : NodeTable) (startNode endNode : NodeId) :
    LinkDraft where
  startNode := startNode
  endNode := endNode
  length := row.length.getD ((nodes.position startNode).distance (nodes.position endNode))
  freeSpeed := row.freeSpeed
  flowCapacity := row.flowCapacity
  lanes := row.lanes.getD 1.0
  storage := row.storage

def LinkTable.add (t : LinkTable) (nodes : NodeTable) (row : LinkRow) :
    Except NetworkError LinkTable :=
  if fresh : t.names.id? row.name = none then
    match nodes.resolve row.name row.startNode with
    | .error e => .error e
    | .ok startNode =>
        match nodes.resolve row.name row.endNode with
        | .error e => .error e
        | .ok endNode =>
            .ok ⟨t.names.add row.name fresh, t.drafts.push (row.draft nodes startNode endNode)⟩
  else .error (.duplicateLink row.name)

def LinkTable.addAll (t : LinkTable) (nodes : NodeTable) :
    List (Except Csv.Fault LinkRow) → Except NetworkError LinkTable
  | [] => .ok t
  | .error fault :: _ => .error (.table fault)
  | .ok row :: rows =>
      match t.add nodes row with
      | .ok t => t.addAll nodes rows
      | .error e => .error e

/-- Build a network from the rows of the two tables. -/
def ofRows (nodeRows : List (Except Csv.Fault NodeRow))
    (linkRows : List (Except Csv.Fault LinkRow)) : Except NetworkError (Network × Names) :=
  match NodeTable.addAll ⟨.empty, #[]⟩ nodeRows with
  | .error e => .error e
  | .ok nodes =>
      match LinkTable.addAll ⟨.empty, #[]⟩ nodes linkRows with
      | .error e => .error e
      | .ok links =>
          match build standardPeriodSecs nodes.positions.toList links.drafts.toList with
          | .error e => .error e
          | .ok network => .ok (network, ⟨nodes.names, links.names⟩)

def ofFiles (nodes links : List UInt8) : Except NetworkError (Network × Names) :=
  ofRows (Csv.rows NodeRow.columns NodeRow.ofCells? nodes)
    (Csv.rows LinkRow.columns LinkRow.ofCells? links)

end Network
end Thoroughfare

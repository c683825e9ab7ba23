import Thoroughfare.Csv.Table
import Thoroughfare.Ident
import Thoroughfare.Point
import Thoroughfare.Quantity
import Thoroughfare.Text.Quoted

/-!
# Road networks

A network has nodes, which are points, and links, which lead from one node to another.  It is
built once from drafts of its links and does not change afterwards.  A link has a length, a
speed, a flow capacity (how many agents may leave it in one capacity period) and a storage
capacity (how many agents it holds).

For each node the network keeps the links that leave it and the links that enter it, ascending
by number.
-/

namespace Thoroughfare

/-- A node at its position. -/
structure Node where
  id : NodeId
  position : Point
deriving BEq, Repr

/-- A directed link. -/
structure Link where
  id : LinkId
  startNode : NodeId
  endNode : NodeId
  /-- Length in metres. -/
  length : Float
  /-- Speed in metres per second when the link is empty. -/
  freeSpeed : Float
  /-- Agents that may leave in one capacity period. -/
  flowCapacity : Float
  lanes : Float
  /-- Agents that fit on the link. -/
  storageCapacity : Float
deriving BEq, Repr

/-- Whole seconds that nobody can undercut on a link. -/
def Link.freeFlowSecs (l : Link) : Nat :=
  Quantity.ceilFloat (l.length / l.freeSpeed)

/-- What is known of a link before the network is built. -/
structure LinkDraft where
  startNode : NodeId
  endNode : NodeId
  length : Float
  freeSpeed : Float
  flowCapacity : Float
  lanes : Float
  /-- `none` derives the storage from length and lanes. -/
  storage : Option Float
deriving BEq, Repr

namespace LinkDraft

/-- The metres that one agent occupies in a queue. -/
def metresPerAgent : Float :=
  7.5

/-- The same link in the other direction. -/
def reverse (d : LinkDraft) : LinkDraft :=
  { d with startNode := d.endNode, endNode := d.startNode }

/-- The greater of a number and one; next to what is no number it is one. -/
def atLeastOne (x : Float) : Float :=
  if 1.0 < x then x else 1.0

/-- The storage of the link: as given, or one agent for each stretch of lane, but at least one. -/
def storageCapacity (d : LinkDraft) : Float :=
  d.storage.getD (atLeastOne (d.length * d.lanes / metresPerAgent))

def toLink (d : LinkDraft) (id : LinkId) : Link where
  id := id
  startNode := d.startNode
  endNode := d.endNode
  length := d.length
  freeSpeed := d.freeSpeed
  flowCapacity := d.flowCapacity
  lanes := d.lanes
  storageCapacity := d.storageCapacity

end LinkDraft

/-- Why a link is refused. -/
inductive LinkFault where
  | noStartNode (node : NodeId)
  | noEndNode (node : NodeId)
  | length (got : Float)
  | freeSpeed (got : Float)
  | flowCapacity (got : Float)
  | lanes (got : Float)
  | storage (got : Float)
deriving Repr

def LinkFault.message : LinkFault → String
  | noStartNode node => "upstream node " ++ node.text ++ " does not exist"
  | noEndNode node => "downstream node " ++ node.text ++ " does not exist"
  | length got => "length must be >= 0, got " ++ Decimal.messageText got
  | freeSpeed got => "free speed must be > 0, got " ++ Decimal.messageText got
  | flowCapacity got => "flow capacity must be > 0, got " ++ Decimal.messageText got
  | lanes got => "lane count must be > 0, got " ++ Decimal.messageText got
  | storage got => "storage capacity must be > 0, got " ++ Decimal.messageText got

/-- The first fault of a draft in a network with the given number of nodes. -/
def LinkDraft.fault? (nodeCount : Nat) (d : LinkDraft) : Option LinkFault :=
  if nodeCount ≤ d.startNode.index then some (.noStartNode d.startNode)
  else if nodeCount ≤ d.endNode.index then some (.noEndNode d.endNode)
  else if !Decimal.isNonnegative d.length then some (.length d.length)
  else if !Decimal.isPositive d.freeSpeed then some (.freeSpeed d.freeSpeed)
  else if !Decimal.isPositive d.flowCapacity then some (.flowCapacity d.flowCapacity)
  else if !Decimal.isPositive d.lanes then some (.lanes d.lanes)
  else
    match d.storage with
    | none => none
    | some storage => if Decimal.isPositive storage then none else some (.storage storage)

/-- For each node a row of links; the rows are stored one behind the other, and `starts` says
where each begins and where the last one ends. -/
structure Incidence where
  starts : Array Nat
  entries : Array LinkId
deriving Repr

namespace Incidence

/-- The totals of ever longer initial parts of a list of counts. -/
def runningTotals (total : Nat) : List Nat → List Nat
  | [] => [total]
  | count :: counts => total :: runningTotals (total + count) counts

/-- How many links have each of the nodes as their key. -/
def counts (rows : Nat) (key : Link → NodeId) (links : List Link) : Array Nat :=
  links.foldl (fun counts l => counts.modify (key l).index (· + 1)) (Array.replicate rows 0)

/-- Sort links into rows by a key; within a row they keep their order. -/
def ofLinks (rows : Nat) (key : Link → NodeId) (links : List Link) : Incidence where
  starts := (runningTotals 0 (counts rows key links).toList).toArray
  entries := ((links.mergeSort fun a b => (key a).index ≤ (key b).index).map (·.id)).toArray

def row (t : Incidence) (node : NodeId) : List LinkId :=
  (t.entries.extract (t.starts.getD node.index 0) (t.starts.getD (node.index + 1) 0)).toList

end Incidence

/-- A road network. -/
structure Network where
  nodes : Array Node
  links : Array Link
  outgoing : Incidence
  incoming : Incidence
  /-- The seconds that flow capacities refer to. -/
  periodSecs : Float
deriving Repr

/-- Why a network cannot be built, read, split or asked. -/
inductive NetworkError where
  | linkNotFound (id : LinkId)
  | nodeNotFound (id : NodeId)
  | periodNotPositive (got : Float)
  | badLink (id : LinkId) (fault : LinkFault)
  | duplicateNode (name : String)
  | duplicateLink (name : String)
  | unknownNode (link node : String)
  | noPartitions
  | tooManyPartitions (count : Nat)
  | unreadable
  | table (fault : Csv.Fault)
deriving Repr

namespace Network

def link? (g : Network) (id : LinkId) : Option Link :=
  g.links[id.index]?

def node? (g : Network) (id : NodeId) : Option Node :=
  g.nodes[id.index]?

/-- Look up a link or say that it does not exist. -/
def link (g : Network) (id : LinkId) : Except NetworkError Link :=
  match g.link? id with
  | some l => .ok l
  | none => .error (.linkNotFound id)

/-- Look up a node or say that it does not exist. -/
def node (g : Network) (id : NodeId) : Except NetworkError Node :=
  match g.node? id with
  | some n => .ok n
  | none => .error (.nodeNotFound id)

def hasLink (g : Network) (id : LinkId) : Bool :=
  id.index < g.links.size

/-- The links that leave a node, ascending. -/
def outgoingLinks (g : Network) (id : NodeId) : Except NetworkError (List LinkId) :=
  if id.index < g.nodes.size then .ok (g.outgoing.row id) else .error (.nodeNotFound id)

/-- The links that enter a node, ascending. -/
def incomingLinks (g : Network) (id : NodeId) : Except NetworkError (List LinkId) :=
  if id.index < g.nodes.size then .ok (g.incoming.row id) else .error (.nodeNotFound id)

/-- Whether who leaves one link can enter another; unknown links are never adjacent. -/
def adjacent (g : Network) (a b : LinkId) : Bool :=
  match g.link? a, g.link? b with
  | some l, some m => l.endNode = m.startNode
  | _, _ => false

/-- Agents that may leave a link in one second. -/
def flowPerSec (g : Network) (id : LinkId) : Except NetworkError Float :=
  (g.link id).map fun l => l.flowCapacity / g.periodSecs

/-- The seconds that flow capacities refer to unless said otherwise. -/
def standardPeriodSecs : Float :=
  3600.0

/-- The links made from drafts, numbered on from `first`; the first fault ends the work. -/
def linksFrom (nodeCount : Nat) (first : Nat) :
    List LinkDraft → Except NetworkError (List Link)
  | [] => .ok []
  | draft :: drafts =>
      match draft.fault? nodeCount with
      | some fault => .error (.badLink ⟨first⟩ fault)
      | none =>
          match linksFrom nodeCount (first + 1) drafts with
          | .ok links => .ok (draft.toLink ⟨first⟩ :: links)
          | .error e => .error e

/-- Build a network from the positions of its nodes and the drafts of its links. -/
def build (periodSecs : Float) (positions : List Point) (drafts : List LinkDraft) :
    Except NetworkError Network :=
  if !Decimal.isPositive periodSecs then .error (.periodNotPositive periodSecs)
  else
    match linksFrom positions.length 0 drafts with
    | .error e => .error e
    | .ok links =>
        .ok {
          nodes := (positions.zipIdx.map fun entry => ⟨⟨entry.2⟩, entry.1⟩).toArray
          links := links.toArray
          outgoing := .ofLinks positions.length Link.startNode links
          incoming := .ofLinks positions.length Link.endNode links
          periodSecs := periodSecs }

end Network

def NetworkError.message : NetworkError → String
  | linkNotFound id => "link " ++ id.text ++ " not found in network"
  | nodeNotFound id => "node " ++ id.text ++ " not found in network"
  | periodNotPositive got =>
      "invalid network topology: capacity period must be positive, got " ++
        Decimal.messageText got
  | badLink id fault => "invalid network topology: " ++ id.text ++ ": " ++ fault.message
  | duplicateNode name =>
      "invalid network topology: duplicate node id " ++ Text.quoted name
  | duplicateLink name =>
      "invalid network topology: duplicate link id " ++ Text.quoted name
  | unknownNode link node =>
      "invalid network topology: link " ++ Text.quoted link ++ " references unknown node " ++
        Text.quoted node
  | noPartitions => "partitioning error: partition count must be >= 1"
  | tooManyPartitions count =>
      "partitioning error: partition count " ++ toString count ++ " exceeds 65535"
  | unreadable => "I/O error"
  | table _ => "CSV error"

end Thoroughfare

import Thoroughfare.Csv.Table
import Thoroughfare.Network.Names
import Thoroughfare.Plan.Agent
import Thoroughfare.Text.Blank
import Thoroughfare.Text.Quoted
import Thoroughfare.Time.OfDay

/-!
# Plans from tables

Each row of a table of plans is one segment of one agent's day.  The rows of an agent are put in
the order of their sequence numbers, rows of equal number staying in file order, and agents are
numbered in the order in which they first appear.  A link that the network does not know is
kept as the reserved link, so that the agent is stopped when it wants to travel and the rest of
the population is not affected.
-/

namespace Thoroughfare

/-- A row of a table of plans. -/
structure PlanRow where
  agent : String
  seq : Nat
  kind : String
  activityKind : Option String
  link : Option String
  endTime : Option String
  duration : Option String
  route : Option String
deriving DecidableEq, Repr

namespace PlanRow

def columns : List String :=
  ["agent_id", "seq", "kind", "activity_type", "link", "end_time", "duration", "route"]

def ofCells? : List (Option String) → Option PlanRow
  | [agent, seq, kind, activityKind, link, endTime, duration, route] => do
      return {
        agent := ← Csv.required agent
        seq := ← Csv.whole seq
        kind := ← Csv.required kind
        activityKind := Csv.optional activityKind
        link := Csv.optional link
        endTime := Csv.optional endTime
        duration := Csv.optional duration
        route := Csv.optional route }
  | _ => none

end PlanRow

/-- Why plans cannot be read. -/
inductive PlanError where
  | activityWithoutLink (agent : String)
  | invalidTime (text : String)
  | unknownKind (agent kind : String)
  | badItinerary (agent : String) (fault : ItineraryFault)
  | tooManyAgents
  | unreadable
  | table (fault : Csv.Fault)
deriving DecidableEq, Repr

def PlanError.message : PlanError → String
  | activityWithoutLink agent =>
      "plans parse error: agent " ++ Text.quoted agent ++ ": activity without link"
  | invalidTime text => "plans parse error: invalid time " ++ Text.quoted text
  | unknownKind agent kind =>
      "plans parse error: agent " ++ Text.quoted agent ++ ": unknown segment kind " ++
        Text.quoted kind ++ ", expected \"act\" or \"leg\""
  | badItinerary agent fault =>
      "plans parse error: agent " ++ Text.quoted agent ++ ": invalid itinerary: " ++
        fault.message
  | tooManyAgents => "plans parse error: too many agents"
  | unreadable => "I/O error"
  | table _ => "CSV error"

/-- Agents with their names. -/
structure Population where
  agents : List Agent
  names : List String
deriving DecidableEq

namespace Population

def name? (p : Population) (id : AgentId) : Option String :=
  p.names[id.index]?

def size (p : Population) : Nat :=
  p.agents.length

/-- The time in a cell; blanks around it do not count, and an empty cell holds none. -/
def readTime (cell : Option String) : Except PlanError (Option Nat) :=
  let text := Text.trim (cell.getD "").toList
  if text = [] then .ok none
  else
    match TimeOfDay.read? text with
    | some secs => .ok (some secs)
    | none => .error (.invalidTime (String.ofList text))

/-- The link that a name stands for. -/
def resolve (links : NameTable .link) (name : List Char) : LinkId :=
  (links.id? (String.ofList name)).getD .invalid

def segment (links : NameTable .link) (row : PlanRow) : Except PlanError Segment :=
  let kind := Text.trim row.kind.toList
  if kind = "act".toList ∨ kind = "activity".toList then
    let link := Text.trim (row.link.getD "").toList
    if link = [] then .error (.activityWithoutLink row.agent)
    else do
      let endTime ← readTime row.endTime
      let duration ← readTime row.duration
      return .activity ⟨row.activityKind.getD "", resolve links link, endTime, duration⟩
  else if kind = "leg".toList then
    let route := (Text.words (row.route.getD "").toList).map (resolve links)
    return .leg (.byCar route)
  else .error (.unknownKind row.agent (String.ofList kind))

/-- The agents of a table, in the order of their first rows. -/
def agentNames (rows : List PlanRow) : List String :=
  (rows.map (·.agent)).eraseDups

/-- The rows of one agent, by sequence number and then in file order. -/
def rowsOf (rows : List PlanRow) (agent : String) : List PlanRow :=
  (rows.filter fun row => row.agent = agent).mergeSort fun a b => a.seq ≤ b.seq

/-- The day of one agent. -/
def itinerary (links : NameTable .link) (rows : List PlanRow) (agent : String) :
    Except PlanError Itinerary := do
  let segments ← (rowsOf rows agent).mapM (segment links)
  match Itinerary.ofSegments segments with
  | .ok t => return t
  | .error fault => .error (.badItinerary agent fault)

/-- The agents with the given names, numbered on from `next`. -/
def agentsFrom (links : NameTable .link) (start : Nat) (rows : List PlanRow) (next : Nat) :
    List String → Except PlanError (List Agent)
  | [] => .ok []
  | name :: names => do
      let t ← itinerary links rows name
      match Ident.ofIndex? next with
      | none => .error .tooManyAgents
      | some id =>
          let agents ← agentsFrom links start rows (next + 1) names
          return Agent.new id t start :: agents

/-- The population that the rows of a table describe, with first activities that began at
`start`. -/
def ofRows (links : NameTable .link) (start : Nat) (rows : List PlanRow) :
    Except PlanError Population := do
  let names := agentNames rows
  let agents ← agentsFrom links start rows 0 names
  return ⟨agents, names⟩

def allRows : List (Except Csv.Fault PlanRow) → Except PlanError (List PlanRow)
  | [] => .ok []
  | .error fault :: _ => .error (.table fault)
  | .ok row :: rest => (allRows rest).map (row :: ·)

def ofFile (links : NameTable .link) (start : Nat) (bytes : List UInt8) :
    Except PlanError Population :=
  (allRows (Csv.rows PlanRow.columns PlanRow.ofCells? bytes)).bind (ofRows links start)

end Population

end Thoroughfare

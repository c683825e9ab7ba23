import Thoroughfare.Plan.Files
import Thoroughfare.Proofs.Arrangement

/-!
# Gathering rows

Whoever reads a table of plans row by row keeps a list of the agents that have come up, and a table
with the rows of each, in which the list is not written down.  When all rows are in, they are taken
out of the table agent by agent.  Nothing but the loop keeps list and table in step.  What is read in
this way is the population that the rows describe, or the same fault, whatever the order of the
table is.
-/

namespace Thoroughfare
namespace Population

/-- Rows that have been gathered: the agents as they came up, and the rows of each. -/
structure Gathering where
  order : Array String
  groups : Std.ExtTreeMap String (Array PlanRow)

/-- What is kept while agents are made: the rows of those that are still to come, and what has been
made. -/
structure Making where
  groups : Std.ExtTreeMap String (Array PlanRow)
  agents : Array Agent
  names : Array String

namespace Gathering

def empty : Gathering :=
  ⟨#[], ∅⟩

def add (g : Gathering) (row : PlanRow) : Gathering where
  order := if g.groups.contains row.agent then g.order else g.order.push row.agent
  groups := g.groups.insert row.agent ((g.groups.getD row.agent #[]).push row)

end Gathering

/-- The agents that have been made, with their names. -/
def Making.population (m : Making) : Population :=
  ⟨m.agents.toList, m.names.toList⟩

/-- Make the next agent, whose place in the list is its number. -/
def Making.add (links : NameTable .link) (start : Nat) (m : Making) (entry : String × Nat) :
    Except PlanError Making := do
  let rows := (m.groups.getD entry.1 #[]).toList.mergeSort fun a b => a.seq ≤ b.seq
  let segments ← rows.mapM (segment links)
  match Itinerary.ofSegments segments with
  | .error fault => .error (.badItinerary entry.1 fault)
  | .ok t =>
      match Ident.ofIndex? entry.2 with
      | none => .error .tooManyAgents
      | some id =>
          return {
            groups := m.groups.erase entry.1
            agents := m.agents.push (Agent.new id t start)
            names := m.names.push entry.1 }

/-- Read a table of plans: gather all rows, then make the agents in the order in which they came
up. -/
def read (links : NameTable .link) (start : Nat) (rows : List PlanRow) :
    Except PlanError Population := do
  let g := rows.foldl Gathering.add .empty
  let m ← g.order.toList.zipIdx.foldlM (Making.add links start) ⟨g.groups, #[], #[]⟩
  return m.population

/-! ## In step -/

variable {links : NameTable .link} {start : Nat} {rows : List PlanRow} {g : Gathering} {m : Making}

/-- The list has the agents of some rows, and the table has the rows of each. -/
structure Gathering.Holds (g : Gathering) (rows : List PlanRow) : Prop where
  order_eq : g.order.toList = agentNames rows
  contains_iff : ∀ name, g.groups.contains name = true ↔ name ∈ rows.map (·.agent)
  group_eq : ∀ name, (g.groups.getD name #[]).toList = rows.filter fun row => row.agent = name

theorem Gathering.holds_empty : Gathering.empty.Holds [] where
  order_eq := rfl
  contains_iff name := by simp [empty]
  group_eq name := by simp [empty]

theorem Gathering.Holds.add (h : g.Holds rows) (row : PlanRow) :
    (g.add row).Holds (rows ++ [row]) where
  order_eq := by
    rw [agentNames, List.map_append, List.map_singleton, eraseDups_concat, Gathering.add]
    simp only [h.contains_iff]
    split
    · exact h.order_eq
    · rw [Array.toList_push, h.order_eq, agentNames]
  contains_iff name := by
    rw [Gathering.add, Std.ExtTreeMap.contains_insert, Bool.or_eq_true, h.contains_iff,
      List.map_append, List.mem_append, List.map_singleton, List.mem_singleton, or_comm,
      beq_iff_eq, Std.LawfulEqOrd.compare_eq_iff_eq, @eq_comm _ name]
  group_eq name := by
    rw [Gathering.add, Std.ExtTreeMap.getD_insert, List.filter_append, ← h.group_eq]
    by_cases hname : row.agent = name
    · subst hname
      simp
    · simp [hname]

/-- The rows of all agents are gathered, each in its order. -/
theorem Gathering.Holds.foldl (h : g.Holds rows) (more : List PlanRow) :
    (more.foldl Gathering.add g).Holds (rows ++ more) := by
  induction more generalizing g rows with
  | nil => rwa [List.append_nil]
  | cons row rest ih =>
      have hrest := ih (h.add row)
      rwa [List.append_assoc, List.singleton_append] at hrest

/-! ## Agent by agent -/

/-- The agent with a name, numbered by the place of the name in the list. -/
def agent (links : NameTable .link) (start : Nat) (rows : List PlanRow) (entry : String × Nat) :
    Except PlanError Agent :=
  (itinerary links rows entry.1).bind fun t =>
    match Ident.ofIndex? entry.2 with
    | none => .error .tooManyAgents
    | some id => .ok (Agent.new id t start)

theorem agentsFrom_eq_mapM (names : List String) (next : Nat) :
    agentsFrom links start rows next names =
      (names.zipIdx next).mapM (agent links start rows) := by
  induction names generalizing next with
  | nil => rfl
  | cons name rest ih =>
      rw [List.zipIdx_cons, List.mapM_cons, agentsFrom, agent]
      cases itinerary links rows name with
      | error e => rfl
      | ok t =>
          simp only [bind, Except.bind]
          cases (Ident.ofIndex? next : Option AgentId) with
          | none => rfl
          | some id => simp only [ih]

theorem Making.add_eq {name : String} (hgroup : (m.groups.getD name #[]).toList =
      rows.filter fun row => row.agent = name) (place : Nat) :
    m.add links start (name, place) = (agent links start rows (name, place)).map fun a =>
      ⟨m.groups.erase name, m.agents.push a, m.names.push name⟩ := by
  simp only [Making.add, agent, itinerary, rowsOf, hgroup]
  cases ((rows.filter fun row => row.agent = name).mergeSort fun a b =>
      a.seq ≤ b.seq).mapM (segment links) with
  | error e => rfl
  | ok segments =>
      simp only [bind, Except.bind]
      cases Itinerary.ofSegments segments with
      | error fault => rfl
      | ok t => cases (Ident.ofIndex? place : Option AgentId) <;> rfl

/-- What is taken out of the table does not concern the rows that are still in it. -/
theorem Making.foldlM_add {names : List String} (hnodup : names.Nodup)
    (hgroups : ∀ name ∈ names, (m.groups.getD name #[]).toList =
      rows.filter fun row => row.agent = name) (next : Nat) :
    ((names.zipIdx next).foldlM (Making.add links start) m).map Making.population =
      ((names.zipIdx next).mapM (agent links start rows)).map fun agents =>
        ⟨m.agents.toList ++ agents, m.names.toList ++ names⟩ := by
  induction names generalizing m next with
  | nil => simp [Making.population, Except.map, pure, Except.pure]
  | cons name rest ih =>
      rw [List.nodup_cons] at hnodup
      rw [List.forall_mem_cons] at hgroups
      rw [List.zipIdx_cons, List.foldlM_cons, Making.add_eq hgroups.1, List.mapM_cons]
      cases agent links start rows (name, next) with
      | error e => rfl
      | ok a =>
          have hrest : ∀ other ∈ rest, ((m.groups.erase name).getD other #[]).toList =
              rows.filter fun row => row.agent = other := by
            intro other hother
            have hne : name ≠ other := fun hsame => hnodup.1 (hsame ▸ hother)
            rw [Std.ExtTreeMap.getD_erase, if_neg (mt Std.LawfulEqOrd.compare_eq_iff_eq.1 hne)]
            exact hgroups.2 other hother
          simp only [Except.map, bind, Except.bind] at ih ⊢
          rw [ih hnodup.2 hrest]
          cases (rest.zipIdx (next + 1)).mapM (agent links start rows) with
          | error e => rfl
          | ok agents => simp [pure, Except.pure]

/-- Whatever the order of the table is, what is read is the population that the rows describe. -/
theorem read_eq (links : NameTable .link) (start : Nat) (rows : List PlanRow) :
    read links start rows = ofRows links start rows := by
  have hall : (rows.foldl Gathering.add .empty).Holds rows := Gathering.holds_empty.foldl rows
  let m : Making := ⟨(rows.foldl Gathering.add .empty).groups, #[], #[]⟩
  calc read links start rows
    _ = ((agentNames rows).zipIdx.foldlM (Making.add links start) m).map Making.population := by
      rw [read, hall.order_eq]
      rfl
    _ = ((agentNames rows).zipIdx.mapM (agent links start rows)).map fun agents =>
          ⟨agents, agentNames rows⟩ :=
      Making.foldlM_add (nodup_eraseDups _) (fun name _ => hall.group_eq name) 0
    _ = ofRows links start rows := by
      rw [ofRows, agentsFrom_eq_mapM]
      rfl

end Population
end Thoroughfare

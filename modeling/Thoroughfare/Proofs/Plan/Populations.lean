import Thoroughfare.Proofs.Plan.Gathering

/-!
# Populations that are loaded

The agents of a table of plans are those that its rows name, in the order in which they first come
up, and each has the rows of its own in the order of their sequence numbers.  No row is lost and none
counts twice.  What is loaded is fixed by this alone: rows of different agents, and rows of one agent
with different numbers, can change places, and it makes no difference, nor does it to a fault.
-/

namespace Thoroughfare
namespace Population

variable {links : NameTable .link} {start : Nat} {rows rows' : List PlanRow} {p : Population}

/-! ## The rows of an agent -/

/-- The rows of an agent, by their numbers, and those of one number in the order of the table. -/
structure InSequence (list rows : List PlanRow) (agent : String) : Prop where
  perm : list.Perm (rows.filter fun row => row.agent = agent)
  ascending : list.Pairwise fun a b => a.seq ≤ b.seq
  stable : ∀ seq, list.filter (fun row => row.seq = seq) =
    rows.filter fun row => row.agent = agent ∧ row.seq = seq

theorem filter_agent_filter_seq (rows : List PlanRow) (agent : String) (seq : Nat) :
    ((rows.filter fun row => row.agent = agent).filter fun row => row.seq = seq) =
      rows.filter fun row => row.agent = agent ∧ row.seq = seq := by
  rw [List.filter_filter]
  exact List.filter_congr fun row _ => by simp [and_comm]

theorem inSequence_rowsOf (rows : List PlanRow) (agent : String) :
    InSequence (rowsOf rows agent) rows agent where
  perm := List.mergeSort_perm _ _
  ascending := pairwise_mergeSort_key _
  stable seq := by
    rw [rowsOf, filter_mergeSort_key, filter_agent_filter_seq]

/-- There is only one way to put the rows of an agent in sequence. -/
theorem InSequence.eq {list list' : List PlanRow} {agent : String} (h : InSequence list rows agent)
    (h' : InSequence list' rows agent) : list = list' :=
  eq_of_pairwise_of_filter h.ascending h'.ascending fun seq =>
    (h.stable seq).trans (h'.stable seq).symm

theorem mem_agentNames_iff {name : String} :
    name ∈ agentNames rows ↔ ∃ row ∈ rows, row.agent = name := by
  rw [agentNames, List.mem_eraseDups, List.mem_map]

theorem agent_of_mem_rowsOf {row : PlanRow} {agent : String} (h : row ∈ rowsOf rows agent) :
    row.agent = agent := by
  have hmem := (inSequence_rowsOf rows agent).perm.mem_iff.1 h
  exact of_decide_eq_true (List.mem_filter.1 hmem).2

/-- Tables have the same rows if they agree on every agent and number. -/
theorem perm_of_filter_agent_seq
    (h : ∀ agent seq, rows'.filter (fun row => row.agent = agent ∧ row.seq = seq) =
      rows.filter fun row => row.agent = agent ∧ row.seq = seq) : rows'.Perm rows := by
  have hpair : ∀ k : String × Nat, rows'.filter (fun row => (row.agent, row.seq) = k) =
      rows.filter fun row => (row.agent, row.seq) = k := by
    rintro ⟨agent, seq⟩
    simpa only [Prod.mk.injEq] using h agent seq
  exact perm_of_filter_key hpair

/-- The rows of all agents are the rows of the table. -/
theorem perm_flatMap_rowsOf (rows : List PlanRow) :
    ((agentNames rows).flatMap (rowsOf rows)).Perm rows := by
  have hnodup : ((agentNames rows).map fun name => name).Nodup := by
    rw [List.map_id']
    exact nodup_eraseDups _
  have hrows : ∀ name ∈ agentNames rows, ∀ row ∈ rowsOf rows name, row.agent = name :=
    fun name _ row hrow => agent_of_mem_rowsOf hrow
  refine perm_of_filter_agent_seq fun agent seq => ?_
  rw [← filter_agent_filter_seq, ← filter_agent_filter_seq]
  by_cases hagent : agent ∈ agentNames rows
  · rw [filter_flatMap_of_mem hnodup hrows hagent, (inSequence_rowsOf rows agent).stable,
      filter_agent_filter_seq]
  · have hnone : (rows.filter fun row => row.agent = agent) = [] := by
      rw [List.filter_eq_nil_iff]
      intro row hrow hsame
      exact hagent (mem_agentNames_iff.2 ⟨row, hrow, of_decide_eq_true hsame⟩)
    rw [filter_flatMap_of_not_mem hrows (by rwa [List.map_id']), hnone]

/-! ## Rearrangements -/

/-- The rows of another table: its agents come up in the same order, and rows of one agent that have
the same number are in the same order. -/
structure Rearranges (rows' rows : List PlanRow) : Prop where
  agentNames_eq : agentNames rows' = agentNames rows
  stable : ∀ agent seq, rows'.filter (fun row => row.agent = agent ∧ row.seq = seq) =
    rows.filter fun row => row.agent = agent ∧ row.seq = seq

/-- Tables that agree in this way have the same rows. -/
theorem Rearranges.perm (h : Rearranges rows' rows) : rows'.Perm rows :=
  perm_of_filter_agent_seq h.stable

theorem Rearranges.rowsOf_eq (h : Rearranges rows' rows) (agent : String) :
    rowsOf rows' agent = rowsOf rows agent := by
  have hsequence := inSequence_rowsOf rows' agent
  exact InSequence.eq ⟨hsequence.perm.trans (h.perm.filter _), hsequence.ascending,
    fun seq => (hsequence.stable seq).trans (h.stable agent seq)⟩ (inSequence_rowsOf rows agent)

/-- It makes no difference in which of these orders the rows come. -/
theorem Rearranges.ofRows_eq (h : Rearranges rows' rows) (links : NameTable .link) (start : Nat) :
    ofRows links start rows' = ofRows links start rows := by
  have hitinerary : itinerary links rows' = itinerary links rows := by
    funext agent
    rw [itinerary, itinerary, h.rowsOf_eq]
  have hagent : agent links start rows' = agent links start rows := by
    funext entry
    rw [agent, agent, hitinerary]
  rw [ofRows, ofRows, agentsFrom_eq_mapM, agentsFrom_eq_mapM, h.agentNames_eq, hagent]

/-! ## What is loaded -/

/-- A day is made of the rows of its agent, one segment for each. -/
theorem itinerary_eq_ok_iff {name : String} {t : Itinerary} :
    itinerary links rows name = .ok t ↔
      (rowsOf rows name).mapM (segment links) = .ok t.segments := by
  rw [itinerary]
  cases (rowsOf rows name).mapM (segment links) with
  | error e => simp [bind, Except.bind]
  | ok segments =>
      rw [Except.ok.injEq, ← Itinerary.ofSegments_eq_ok_iff]
      simp only [bind, Except.bind]
      cases Itinerary.ofSegments segments <;> simp [pure, Except.pure]

theorem agent_eq_ok_iff {name : String} {place : Nat} {a : Agent} :
    agent links start rows (name, place) = .ok a ↔ place ≤ Entity.agent.reserved ∧
      ∃ t, itinerary links rows name = .ok t ∧ a = Agent.new ⟨place⟩ t start := by
  rw [agent, Ident.ofIndex?]
  cases itinerary links rows name with
  | error e => simp [Except.bind]
  | ok t => by_cases hplace : place ≤ Entity.agent.reserved <;> simp [Except.bind, hplace, eq_comm]

theorem agent_eq_error_iff {name : String} {place : Nat} {e : PlanError} :
    agent links start rows (name, place) = .error e ↔ itinerary links rows name = .error e ∨
      Entity.agent.reserved < place ∧ e = .tooManyAgents ∧
        ∃ t, itinerary links rows name = .ok t := by
  rw [agent, Ident.ofIndex?, ← Nat.not_le]
  cases itinerary links rows name with
  | error e => simp [Except.bind]
  | ok t => by_cases hplace : place ≤ Entity.agent.reserved <;> simp [Except.bind, hplace, eq_comm]

/-- The agents of a population are those of the rows, numbered from zero, each at the beginning of
the day that its rows say. -/
structure Lists (p : Population) (links : NameTable .link) (start : Nat) (rows : List PlanRow) :
    Prop where
  names_eq : p.names = agentNames rows
  size_eq : p.size = p.names.length
  size_le : p.size ≤ Entity.agent.reserved + 1
  agent : ∀ (id : AgentId) (name : String), p.name? id = some name → ∃ t : Itinerary,
    (rowsOf rows name).mapM (segment links) = .ok t.segments ∧
      p.agents[id.index]? = some (Agent.new id t start)

/-- The fault of the first agent that cannot be made, since its rows say no day or since there is no
number left. -/
def FirstFault (links : NameTable .link) (rows : List PlanRow) (e : PlanError) : Prop :=
  ∃ before name after, agentNames rows = before ++ name :: after ∧
    (∀ other ∈ before, ∃ t, itinerary links rows other = .ok t) ∧
    (itinerary links rows name = .error e ∨
      Entity.agent.reserved < before.length ∧ e = .tooManyAgents ∧
        ∃ t, itinerary links rows name = .ok t)

/-- Agents that have been made one by one are those of the rows. -/
theorem lists_of_map {agents : List Agent}
    (h : (agentNames rows).zipIdx.map (Population.agent links start rows) = agents.map .ok) :
    Lists ⟨agents, agentNames rows⟩ links start rows := by
  have hsize : agents.length = (agentNames rows).length := by
    simpa using (congrArg List.length h).symm
  have hmade : ∀ (place : Nat) (name : String), (agentNames rows)[place]? = some name →
      place ≤ Entity.agent.reserved ∧ ∃ t, itinerary links rows name = .ok t ∧
        agents[place]? = some (Agent.new ⟨place⟩ t start) := by
    intro place name hname
    have hplace := congrArg (·[place]?) h
    simp only [List.getElem?_map, List.getElem?_zipIdx, hname, Option.map_some, Nat.zero_add]
      at hplace
    obtain ⟨a, ha, hok⟩ := Option.map_eq_some_iff.1 hplace.symm
    obtain ⟨hroom, t, ht, rfl⟩ := agent_eq_ok_iff.1 hok.symm
    exact ⟨hroom, t, ht, ha⟩
  refine ⟨rfl, hsize, ?_, fun id name hname => ?_⟩
  · rw [size, hsize]
    by_contra hmany
    have hplace : Entity.agent.reserved + 1 < (agentNames rows).length := Nat.lt_of_not_le hmany
    have hroom := (hmade _ _ (List.getElem?_eq_getElem hplace)).1
    exact Nat.not_succ_le_self _ hroom
  · obtain ⟨-, t, ht, hagent⟩ := hmade id.index name hname
    exact ⟨t, itinerary_eq_ok_iff.1 ht, hagent⟩

theorem Lists.exists_itinerary (h : p.Lists links start rows) {name : String}
    (hname : name ∈ agentNames rows) : ∃ t, itinerary links rows name = .ok t := by
  rw [← h.names_eq] at hname
  obtain ⟨place, hplace⟩ := List.getElem?_of_mem hname
  obtain ⟨t, ht, -⟩ := h.agent ⟨place⟩ name hplace
  exact ⟨t, itinerary_eq_ok_iff.2 ht⟩

/-- There is no fault if there are numbers for all agents and each of them has a day. -/
theorem FirstFault.not_all {e : PlanError} (h : FirstFault links rows e) :
    ¬ ((agentNames rows).length ≤ Entity.agent.reserved + 1 ∧
      ∀ name ∈ agentNames rows, ∃ t, itinerary links rows name = .ok t) := by
  rintro ⟨hroom, hall⟩
  obtain ⟨before, name, after, hsplit, -, hfault | ⟨hmany, -, -⟩⟩ := h
  · obtain ⟨t, ht⟩ := hall name (by rw [hsplit]; exact List.mem_append_right _ List.mem_cons_self)
    rw [ht] at hfault
    cases hfault
  · rw [hsplit, List.length_append, List.length_cons] at hroom
    omega

theorem ofRows_cases (links : NameTable .link) (start : Nat) (rows : List PlanRow) :
    (∃ p : Population, ofRows links start rows = .ok p ∧ p.Lists links start rows) ∨
      ∃ e, ofRows links start rows = .error e ∧ FirstFault links rows e := by
  rw [ofRows, agentsFrom_eq_mapM]
  obtain ⟨agents, hagents⟩ | ⟨before, ⟨name, place⟩, after, e, hsplit, herror, hbefore, hitem⟩ :=
    mapM_cases (Population.agent links start rows) (agentNames rows).zipIdx
  · rw [hagents]
    exact Or.inl ⟨_, rfl, lists_of_map (map_eq_map_ok_of_mapM hagents)⟩
  · rw [herror]
    refine Or.inr ⟨e, rfl, before.map Prod.fst, name, after.map Prod.fst, ?_, ?_, ?_⟩
    · rw [← List.zipIdx_map_fst 0 (agentNames rows), hsplit]
      simp
    · rw [List.forall_mem_map]
      intro other hother
      obtain ⟨a, ha⟩ := hbefore other hother
      obtain ⟨-, t, ht, -⟩ := agent_eq_ok_iff.1 ha
      exact ⟨t, ht⟩
    · have hplace : (agentNames rows).zipIdx[before.length]? = some (name, place) := by
        rw [hsplit, List.getElem?_append_right (Nat.le_refl _), Nat.sub_self]
        rfl
      rw [List.getElem?_zipIdx, Nat.zero_add, Option.map_eq_some_iff] at hplace
      obtain ⟨_, -, hentry⟩ := hplace
      obtain ⟨rfl, rfl⟩ := Prod.mk.inj hentry
      rw [List.length_map]
      exact agent_eq_error_iff.1 hitem

/-- What is loaded from the rows of a table, row by row, is what the rows describe.  The agents are
those that the rows name, in the order of their first rows; each has the rows of its own in the order
of their numbers, rows of one number staying in their order, and all rows together are those of the
table.  There is a population just if the rows of every agent say a day and there are numbers for
all, and otherwise the fault is that of the first agent that cannot be made.  Rows in another order
give the same population, or the same fault, if the agents come up in the same order and rows of
one agent that have the same number keep theirs. -/
theorem rows_of_each_agent_are_loaded (links : NameTable .link) (start : Nat)
    (rows : List PlanRow) :
    read links start rows = ofRows links start rows ∧
    (agentNames rows).Nodup ∧
    (∀ name, name ∈ agentNames rows ↔ ∃ row ∈ rows, row.agent = name) ∧
    ((agentNames rows).Pairwise fun a b =>
      (rows.map (·.agent)).idxOf a < (rows.map (·.agent)).idxOf b) ∧
    (∀ name, InSequence (rowsOf rows name) rows name) ∧
    ((agentNames rows).flatMap (rowsOf rows)).Perm rows ∧
    ((∃ p, read links start rows = .ok p) ↔
      (agentNames rows).length ≤ Entity.agent.reserved + 1 ∧
        ∀ name ∈ agentNames rows, ∃ t, itinerary links rows name = .ok t) ∧
    (∀ p, read links start rows = .ok p → p.Lists links start rows) ∧
    (∀ e, read links start rows = .error e → FirstFault links rows e) ∧
    ∀ rows', Rearranges rows' rows →
      rows'.Perm rows ∧ read links start rows' = read links start rows := by
  refine ⟨read_eq links start rows, nodup_eraseDups _, fun _ => mem_agentNames_iff,
    pairwise_idxOf_eraseDups _, inSequence_rowsOf rows, perm_flatMap_rowsOf rows, ?_⟩
  simp only [read_eq]
  have hsame : ∀ rows', Rearranges rows' rows →
      rows'.Perm rows ∧ ofRows links start rows' = ofRows links start rows :=
    fun rows' h => ⟨h.perm, h.ofRows_eq links start⟩
  obtain ⟨p, hp, hlists⟩ | ⟨e, he, hfault⟩ := ofRows_cases links start rows
  · have hroom : (agentNames rows).length ≤ Entity.agent.reserved + 1 := by
      rw [← hlists.names_eq, ← hlists.size_eq]
      exact hlists.size_le
    refine ⟨iff_of_true ⟨p, hp⟩ ⟨hroom, fun _ => hlists.exists_itinerary⟩, ?_, ?_, hsame⟩
    · intro p' hp'
      cases hp.symm.trans hp'
      exact hlists
    · intro e he
      cases hp.symm.trans he
  · refine ⟨iff_of_false ?_ hfault.not_all, ?_, ?_, hsame⟩
    · rintro ⟨p, hp⟩
      cases he.symm.trans hp
    · intro p hp
      cases he.symm.trans hp
    · intro e' he'
      cases he.symm.trans he'
      exact hfault

/-- The rows of someone who drives to work. -/
def bob : List PlanRow :=
  [⟨"bob", 1, "act", some "home", some "garden", some "7:30", none, none⟩,
    ⟨"bob", 2, "leg", none, none, none, none, some "garden bridge"⟩,
    ⟨"bob", 3, "act", some "work", some "bridge", none, none, none⟩]

/-- The row of someone who stays at home. -/
def ann : PlanRow :=
  ⟨"ann", 1, "act", some "home", some "garden", none, none, none⟩

theorem rearranges_bob : Rearranges (bob.drop 2 ++ ann :: bob.take 2) (bob ++ [ann]) where
  agentNames_eq := by decide +kernel
  stable agent seq := by
    simp only [bob, ann, List.drop, List.take, List.nil_append, List.cons_append, List.filter_cons,
      List.filter_nil, decide_eq_true_eq]
    by_cases hbob : "bob" = agent
    · subst hbob
      rcases seq with _ | _ | _ | _ | seq <;> simp
    · simp [hbob]

/-- Though the last row comes first and that of Ann stands in the middle, Bob is at home at first. -/
theorem rows_of_each_agent_are_loaded_bob :
    Rearranges (bob.drop 2 ++ ann :: bob.take 2) (bob ++ [ann]) ∧
    ∃ p, read .empty 0 (bob ++ [ann]) = .ok p ∧
      read .empty 0 (bob.drop 2 ++ ann :: bob.take 2) = .ok p ∧ p.names = ["bob", "ann"] ∧
      ∃ t : Itinerary, t.segments = [.activity ⟨"home", .invalid, some 27000, none⟩,
          .leg (.byCar [.invalid, .invalid]), .activity ⟨"work", .invalid, none, none⟩] ∧
        p.agents[0]? = some (Agent.new ⟨0⟩ t 0) := by
  obtain ⟨-, -, -, -, -, -, hsuccess, hlists, -, hrearranged⟩ :=
    rows_of_each_agent_are_loaded .empty 0 (bob ++ [ann])
  have hnames : agentNames (bob ++ [ann]) = ["bob", "ann"] := by decide +kernel
  have hbob : rowsOf (bob ++ [ann]) "bob" = bob := List.mergeSort_of_pairwise (by decide)
  have hann : rowsOf (bob ++ [ann]) "ann" = [ann] := List.mergeSort_of_pairwise (by decide)
  have hdays : ∀ name ∈ agentNames (bob ++ [ann]), ∃ t,
      itinerary .empty (bob ++ [ann]) name = .ok t := by
    rw [hnames, List.forall_mem_cons, List.forall_mem_singleton]
    refine ⟨⟨⟨[.activity ⟨"home", .invalid, some 27000, none⟩, .leg (.byCar [.invalid, .invalid]),
      .activity ⟨"work", .invalid, none, none⟩], by decide⟩, itinerary_eq_ok_iff.2 ?_⟩,
      .stay ⟨"home", .invalid, none, none⟩, itinerary_eq_ok_iff.2 ?_⟩
    · rw [hbob]
      rfl
    · rw [hann]
      rfl
  obtain ⟨p, hp⟩ := hsuccess.2 ⟨by rw [hnames]; decide, hdays⟩
  have hp' := (hrearranged _ rearranges_bob).2.trans hp
  have hpnames := (hlists p hp).names_eq.trans hnames
  have hname : p.name? ⟨0⟩ = some "bob" := by rw [name?, hpnames]; rfl
  obtain ⟨t, ht, hagent⟩ := (hlists p hp).agent ⟨0⟩ "bob" hname
  rw [hbob] at ht
  exact ⟨rearranges_bob, p, hp, hp', hpnames, t, (Except.ok.inj ht).symm, hagent⟩

end Population
end Thoroughfare

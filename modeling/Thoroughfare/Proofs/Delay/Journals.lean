import Thoroughfare.Proofs.Simulation.Balances
import Thoroughfare.Proofs.Simulation.Passing

/-!
# Journals

The events of an agent can be read as a journal of its drives: when it departed, which links it
entered and when, and when it arrived.  A journal goes on with an event only if an agent on the road
could do this: it departs when it is not on a drive, leaves just the link on which it is, and leaves
no link before it has spent some seconds there.  Nothing of what is read is lost.
-/

namespace Thoroughfare

/-- Whether an event belongs to a drive. -/
def EventKind.isTravel : EventKind → Bool
  | departure _ => true
  | linkEnter _ _ => true
  | arrival _ => true
  | _ => false

theorem EventKind.isTravel_eq_false_iff {kind : EventKind} :
    kind.isTravel = false ↔ kind.isDeparture = false ∧ kind.vacated? = none := by
  cases kind <;> simp [isTravel, isDeparture, vacated?]

theorem EventKind.vacated?_eq_none {kind : EventKind} (h : kind.isDeparture = true) :
    kind.vacated? = none := by
  cases kind <;> first | rfl | cases h

/-- Where an agent has been since it departed. -/
structure Outing where
  /-- The link of the departure. -/
  first : LinkId
  departed : Nat
  /-- The links behind the first one, and when they were entered. -/
  later : List (LinkId × Nat)
deriving DecidableEq, Repr

namespace Outing

/-- The links that were used so far. -/
def route (o : Outing) : List LinkId :=
  o.first :: o.later.map (·.1)

/-- The link that was reached. -/
def last (o : Outing) : LinkId :=
  (o.later.getLast?.map (·.1)).getD o.first

/-- When the link of the departure was left, if by some second the agent has left its link. -/
def leftFirst (o : Outing) (time : Nat) : Nat :=
  (o.later.head?.map (·.2)).getD time

/-- The seconds that free traffic takes on all links behind the first one. -/
def freeSecs (free : LinkId → Nat) (o : Outing) : Nat :=
  (o.route.tail.map free).sum

/-- The outing when one more link is entered. -/
def entering (o : Outing) (link : LinkId) (time : Nat) : Outing :=
  { o with later := o.later ++ [(link, time)] }

/-- What is told of an agent that goes from a link along some others. -/
def entrances (id : AgentId) (left : LinkId) : List (LinkId × Nat) → List Event
  | [] => []
  | (link, time) :: rest => ⟨time, id, .linkEnter left link⟩ :: entrances id link rest

/-- What is told of an agent on an outing. -/
def events (id : AgentId) (o : Outing) : List Event :=
  ⟨o.departed, id, .departure o.first⟩ :: entrances id o.first o.later

/-- Whether an agent may leave its link at a second: it has spent there the seconds that nobody can
undercut, unless it is the link of the departure. -/
structure MayLeave (free : LinkId → Nat) (o : Outing) (time : Nat) : Prop where
  departed : o.departed ≤ time
  stayed : ∀ link entered, o.later.getLast? = some (link, entered) → entered + free link ≤ time

variable {free : LinkId → Nat} {o : Outing} {time later : Nat}

theorem MayLeave.mono (h : o.MayLeave free time) (hle : time ≤ later) : o.MayLeave free later :=
  ⟨Nat.le_trans h.departed hle, fun link entered hlast =>
    Nat.le_trans (h.stayed link entered hlast) hle⟩

theorem getLast?_route (o : Outing) : o.route.getLast? = some o.last := by
  rw [route, last, List.getLast?_cons, List.getLast?_map]

theorem route_entering (o : Outing) (link : LinkId) (time : Nat) :
    (o.entering link time).route = o.route ++ [link] := by
  simp [route, entering]

theorem freeSecs_entering (free : LinkId → Nat) (o : Outing) (link : LinkId) (time : Nat) :
    (o.entering link time).freeSecs free = o.freeSecs free + free link := by
  rw [freeSecs, route_entering, List.tail_append_of_ne_nil (by simp [route]), List.map_append,
    List.sum_append_nat]
  rfl

theorem leftFirst_entering (o : Outing) (link : LinkId) (time later : Nat) :
    (o.entering link time).leftFirst later = o.leftFirst time := by
  rw [leftFirst, leftFirst, entering]
  cases o.later <;> rfl

theorem entrances_append (id : AgentId) (left : LinkId) (stops : List (LinkId × Nat))
    (link : LinkId) (time : Nat) :
    entrances id left (stops ++ [(link, time)]) = entrances id left stops ++
      [⟨time, id, .linkEnter ((stops.getLast?.map (·.1)).getD left) link⟩] := by
  induction stops generalizing left with
  | nil => rfl
  | cons stop rest ih =>
      rw [List.cons_append, entrances, ih, entrances, List.getLast?_cons]
      cases rest.getLast? <;> rfl

theorem events_entering (id : AgentId) (o : Outing) (link : LinkId) (time : Nat) :
    (o.entering link time).events id =
      o.events id ++ [⟨time, id, .linkEnter o.last link⟩] := by
  rw [events, entering, entrances_append]
  rfl

end Outing

/-- An outing that is over. -/
structure Drive where
  outing : Outing
  arrived : Nat
deriving DecidableEq, Repr

namespace Drive

def route (d : Drive) : List LinkId :=
  d.outing.route

/-- From the departure to the arrival. -/
def travelSecs (d : Drive) : Nat :=
  d.arrived - d.outing.departed

/-- The seconds on the link of the departure. -/
def firstSecs (d : Drive) : Nat :=
  d.outing.leftFirst d.arrived - d.outing.departed

/-- What is told of an agent on a drive. -/
def events (id : AgentId) (d : Drive) : List Event :=
  d.outing.events id ++ [⟨d.arrived, id, .arrival d.outing.last⟩]

end Drive

/-- The drives of an agent, and the outing that is not over. -/
structure Journal where
  past : List Drive
  present? : Option Outing
deriving DecidableEq, Repr

namespace Journal

def empty : Journal :=
  ⟨[], none⟩

/-- What is told of an agent with a journal. -/
def events (id : AgentId) (j : Journal) : List Event :=
  j.past.flatMap (Drive.events id) ++ j.present?.elim [] (Outing.events id)

/-- The journal with an event. -/
def note (j : Journal) (e : Event) : Journal :=
  match e.kind, j.present? with
  | .departure link, _ => { j with present? := some ⟨link, e.time, []⟩ }
  | .linkEnter _ link, some o => { j with present? := some (o.entering link e.time) }
  | .arrival _, some o => ⟨j.past ++ [⟨o, e.time⟩], none⟩
  | _, _ => j

def noteAll (j : Journal) (events : List Event) : Journal :=
  events.foldl note j

/-- The journal that the events of an agent make up. -/
def read (events : List Event) : Journal :=
  empty.noteAll events

/-- Whether a journal may go on with an event. -/
structure Allows (free : LinkId → Nat) (j : Journal) (e : Event) : Prop where
  departs : e.kind.isDeparture = true → j.present? = none
  leaves : ∀ link, e.kind.vacated? = some link →
    ∃ o, j.present? = some o ∧ o.last = link ∧ o.MayLeave free e.time

/-- Whether a journal may go on with some events. -/
def Takes (free : LinkId → Nat) : Journal → List Event → Prop
  | _, [] => True
  | j, e :: rest => j.Allows free e ∧ Takes free (j.note e) rest

variable {free : LinkId → Nat} {j : Journal} {o : Outing} {e : Event} {id : AgentId}
  {time : Nat} {left link : LinkId} {l m : List Event}

/-! ## One event more -/

@[simp] theorem note_departure :
    j.note ⟨time, id, .departure link⟩ = ⟨j.past, some ⟨link, time, []⟩⟩ :=
  rfl

theorem note_linkEnter (h : j.present? = some o) :
    j.note ⟨time, id, .linkEnter left link⟩ = ⟨j.past, some (o.entering link time)⟩ := by
  simp [note, h]

theorem note_arrival (h : j.present? = some o) :
    j.note ⟨time, id, .arrival link⟩ = ⟨j.past ++ [⟨o, time⟩], none⟩ := by
  simp [note, h]

theorem note_of_quiet (h : e.kind.isTravel = false) : j.note e = j := by
  unfold note
  cases hkind : e.kind <;> rw [hkind] at h <;> first | rfl | cases h

theorem allows_of_quiet (h : e.kind.isTravel = false) : j.Allows free e := by
  obtain ⟨hstarts, hstays⟩ := EventKind.isTravel_eq_false_iff.1 h
  exact ⟨fun hdeparts => absurd hdeparts (by simp [hstarts]), fun link hleaves =>
    absurd (hstays.symm.trans hleaves) nofun⟩

theorem allows_of_departure (hdeparts : e.kind.isDeparture = true) (hnone : j.present? = none) :
    j.Allows free e := by
  refine ⟨fun _ => hnone, fun link hleaves => ?_⟩
  rw [EventKind.vacated?_eq_none hdeparts] at hleaves
  cases hleaves

/-- Whoever leaves the link that its outing has reached does not depart. -/
theorem allows_of_vacated (hleaves : e.kind.vacated? = some o.last) (ho : j.present? = some o)
    (hleave : o.MayLeave free e.time) : j.Allows free e := by
  refine ⟨fun hdeparts => ?_, fun link hlink => ?_⟩
  · rw [EventKind.vacated?_eq_none hdeparts] at hleaves
    cases hleaves
  · rw [hleaves, Option.some_inj] at hlink
    exact ⟨o, ho, hlink, hleave⟩

/-- An event that a journal may go on with is the next one of its events. -/
theorem Allows.events_note (h : j.Allows free e) (he : e.agent = id) :
    (j.note e).events id = j.events id ++ [e].filter fun e => e.kind.isTravel := by
  by_cases hquiet : e.kind.isTravel = false
  · rw [note_of_quiet hquiet, List.filter_eq_nil_iff.2 (by simp [hquiet]), List.append_nil]
  obtain ⟨time, agent, kind⟩ := e
  obtain rfl : agent = id := he
  cases kind with
  | departure link =>
      have hnone : j.present? = none := h.departs rfl
      simp [events, hnone, EventKind.isTravel, Outing.events, Outing.entrances]
  | linkEnter left link =>
      obtain ⟨o, ho, hlast, -⟩ := h.leaves left rfl
      rw [note_linkEnter ho, events, events, ho, Option.elim_some, Option.elim_some,
        Outing.events_entering, hlast, List.append_assoc]
      rfl
  | arrival link =>
      obtain ⟨o, ho, hlast, -⟩ := h.leaves link rfl
      rw [note_arrival ho, events, events, ho, Option.elim_none, Option.elim_some,
        List.flatMap_append, List.flatMap_singleton, Drive.events, hlast, List.append_nil,
        List.append_assoc]
      rfl
  | _ => exact absurd rfl hquiet

/-- Whoever enters a link may leave it once it has stayed there, if nobody has to stay for less than
free traffic takes. -/
theorem Allows.mayLeave_note (h : j.Allows free e) (henters : e.kind.entered? = some link)
    {stay : EventKind → Nat} (hstay : ∀ left, free link ≤ stay (.linkEnter left link)) :
    ∃ o, (j.note e).present? = some o ∧ o.MayLeave free (e.time + stay e.kind) := by
  obtain ⟨time, agent, kind⟩ := e
  cases kind with
  | departure first =>
      cases henters
      exact ⟨_, rfl, Nat.le_add_right _ _, nofun⟩
  | linkEnter left entered =>
      cases henters
      obtain ⟨o, ho, -, hleave⟩ := h.leaves left rfl
      refine ⟨_, congrArg present? (note_linkEnter ho),
        Nat.le_trans hleave.departed (Nat.le_add_right _ _), fun last since hlast => ?_⟩
      rw [Outing.entering, List.getLast?_concat] at hlast
      cases hlast
      exact Nat.add_le_add_left (hstay left) time
  | _ => cases henters

/-- Only an arrival ends a drive. -/
theorem past_note_of_not_arrival (h : e.kind.isArrival = false) : (j.note e).past = j.past := by
  unfold note
  split
  · rfl
  · rfl
  · rename_i hkind _
    rw [hkind] at h
    cases h
  · rfl

/-! ## Some events more -/

theorem noteAll_append (j : Journal) (l m : List Event) :
    j.noteAll (l ++ m) = (j.noteAll l).noteAll m :=
  List.foldl_append

theorem read_append (l m : List Event) : read (l ++ m) = (read l).noteAll m :=
  noteAll_append empty l m

theorem takes_append : j.Takes free (l ++ m) ↔ j.Takes free l ∧ (j.noteAll l).Takes free m := by
  induction l generalizing j with
  | nil => simp [Takes, noteAll]
  | cons e rest ih => rw [List.cons_append, Takes, Takes, ih, and_assoc]; rfl

theorem noteAll_of_quiet (h : ∀ e ∈ l, e.kind.isTravel = false) : j.noteAll l = j := by
  induction l with
  | nil => rfl
  | cons e rest ih =>
      rw [noteAll, List.foldl_cons, note_of_quiet (h e List.mem_cons_self)]
      exact ih fun e he => h e (List.mem_cons_of_mem _ he)

theorem takes_of_quiet (h : ∀ e ∈ l, e.kind.isTravel = false) : j.Takes free l := by
  induction l with
  | nil => trivial
  | cons e rest ih =>
      rw [Takes, note_of_quiet (h e List.mem_cons_self)]
      exact ⟨allows_of_quiet (h e List.mem_cons_self),
        ih fun e he => h e (List.mem_cons_of_mem _ he)⟩

/-- Nothing is lost when the events of an agent are read. -/
theorem Takes.events_noteAll (h : j.Takes free l) (hl : ∀ e ∈ l, e.agent = id) :
    (j.noteAll l).events id = j.events id ++ l.filter fun e => e.kind.isTravel := by
  induction l generalizing j with
  | nil => simp [noteAll]
  | cons e rest ih =>
      obtain ⟨hfirst, hrest⟩ := h
      have hnoted := hfirst.events_note (hl e List.mem_cons_self)
      have hlater := ih hrest fun e he => hl e (List.mem_cons_of_mem _ he)
      rw [hnoted, List.append_assoc, ← List.filter_append] at hlater
      exact hlater

/-- Whoever is on an outing and leaves no link is on the same outing afterwards. -/
theorem Takes.noteAll_of_stays (h : j.Takes free l) (ho : j.present? = some o)
    (hstays : ∀ e ∈ l, e.kind.vacated? = none) : j.noteAll l = j := by
  refine noteAll_of_quiet ?_
  induction l with
  | nil => simp
  | cons e rest ih =>
      obtain ⟨hfirst, hrest⟩ := h
      have hstay := hstays e List.mem_cons_self
      have hgoes : e.kind.isDeparture = false := by
        refine Bool.eq_false_iff.2 fun hdeparts => ?_
        rw [hfirst.departs hdeparts] at ho
        cases ho
      have hquiet := EventKind.isTravel_eq_false_iff.2 ⟨hgoes, hstay⟩
      rw [note_of_quiet hquiet] at hrest
      intro other hother
      rcases List.mem_cons.1 hother with rfl | hmem
      · exact hquiet
      · exact ih hrest (fun e he => hstays e (List.mem_cons_of_mem _ he)) other hmem

/-! ## The events of many agents -/

/-- The journal of an agent among what is told of many. -/
def ofAgent (id : AgentId) (told : List Event) : Journal :=
  read (told.filter fun e => e.agent = id)

theorem ofAgent_append (id : AgentId) (l m : List Event) :
    ofAgent id (l ++ m) = (ofAgent id l).noteAll (m.filter fun e => e.agent = id) := by
  rw [ofAgent, List.filter_append, read_append]
  rfl

theorem ofAgent_concat_self (told : List Event) (e : Event) :
    ofAgent e.agent (told ++ [e]) = (ofAgent e.agent told).note e := by
  rw [ofAgent_append, List.filter_cons_of_pos (by simp)]
  rfl

theorem ofAgent_concat_of_ne {told : List Event} (h : e.agent ≠ id) :
    ofAgent id (told ++ [e]) = ofAgent id told := by
  rw [ofAgent_append, List.filter_cons_of_neg (by simp [h])]
  rfl

end Journal

/-- Whether all that is told of each agent makes up a journal. -/
def Orderly (free : LinkId → Nat) (told : List Event) : Prop :=
  ∀ id, Journal.empty.Takes free (told.filter fun e => e.agent = id)

namespace Orderly

variable {free : LinkId → Nat} {e : Event} {l m : List Event}

theorem of_append (h : Orderly free (l ++ m)) : Orderly free l := by
  intro id
  have htakes := h id
  rw [List.filter_append, Journal.takes_append] at htakes
  exact htakes.1

theorem allows (h : Orderly free (l ++ e :: m)) : (Journal.ofAgent e.agent l).Allows free e := by
  have htakes := h e.agent
  rw [List.filter_append, Journal.takes_append, List.filter_cons_of_pos (by simp)] at htakes
  exact htakes.2.1

theorem events_ofAgent (h : Orderly free l) (id : AgentId) :
    (Journal.ofAgent id l).events id =
      (l.filter fun e => e.agent = id).filter fun e => e.kind.isTravel :=
  (h id).events_noteAll fun _ he => of_decide_eq_true (List.mem_filter.1 he).2

end Orderly

end Thoroughfare

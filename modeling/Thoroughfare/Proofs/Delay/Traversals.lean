import Mathlib.Data.List.Induction
import Thoroughfare.Proofs.Delay.Journals

/-!
# Traversals

Whatever is told of many agents contains traversals of links: an agent on a trip enters a link, and
the next thing that is told of its travels is that it enters another one or arrives.  A second
departure or an arrival ends all that was open, and what is told of an agent that is not on a trip
is no traversal.  Each traversal is found in the events of one agent, however those of others stand
between them.
-/

namespace Thoroughfare

/-- Someone's time on a link. -/
structure Traversal where
  agent : AgentId
  link : LinkId
  entered : Nat
  left : Nat
deriving DecidableEq, Repr

/-- What is beyond the time that free traffic takes. -/
def Traversal.delaySecs (free : LinkId → Nat) (tr : Traversal) : Nat :=
  tr.left - tr.entered - free tr.link

/-- The link that is entered, and when. -/
def Event.stop? (e : Event) : Option (LinkId × Nat) :=
  match e.kind with
  | .linkEnter _ link => some (link, e.time)
  | _ => none

/-- Whether an agent is on a trip: of its departures and arrivals the last one is a departure. -/
def isOnTrip (told : List Event) (id : AgentId) : Bool :=
  (told.reverse.find? fun e => e.agent = id ∧ (e.kind.isDeparture ∨ e.kind.isArrival)).any
    fun e => e.kind.isDeparture

/-- The last that is told of the travels of an agent. -/
def lastTravel? (told : List Event) (id : AgentId) : Option Event :=
  told.reverse.find? fun e => e.agent = id ∧ e.kind.isTravel

/-- The traversal that ends with an event: its agent enters a link or arrives, and has entered the
link before on the same trip. -/
def ended? (before : List Event) (e : Event) : Option Traversal :=
  if e.kind.vacated?.isSome ∧ isOnTrip before e.agent then
    ((lastTravel? before e.agent).bind Event.stop?).map fun stop =>
      ⟨e.agent, stop.1, stop.2, e.time⟩
  else none

/-- All traversals, in the order of their ends. -/
def traversals (told : List Event) : List Traversal :=
  (List.range told.length).filterMap fun n => told[n]?.bind (ended? (told.take n))

variable {told before : List Event} {e : Event} {id : AgentId} {tr : Traversal}

/-! ## One event more -/

theorem traversals_concat (told : List Event) (e : Event) :
    traversals (told ++ [e]) = traversals told ++ (ended? told e).toList := by
  rw [traversals, List.length_append, List.length_singleton, List.range_succ,
    List.filterMap_append]
  congr 1
  · refine List.filterMap_congr fun n hn => ?_
    have hlt : n < told.length := List.mem_range.1 hn
    rw [List.getElem?_append_left hlt, List.take_append_of_le_length (Nat.le_of_lt hlt)]
  · rw [List.filterMap_cons, List.getElem?_concat_length, List.take_left, Option.bind_some]
    cases ended? told e <;> rfl

theorem isOnTrip_concat_of_ne (h : e.agent ≠ id) :
    isOnTrip (told ++ [e]) id = isOnTrip told id := by
  simp [isOnTrip, h]

theorem lastTravel?_concat_of_ne (h : e.agent ≠ id) :
    lastTravel? (told ++ [e]) id = lastTravel? told id := by
  simp [lastTravel?, h]

theorem isOnTrip_concat_self :
    isOnTrip (told ++ [e]) e.agent =
      if e.kind.isDeparture ∨ e.kind.isArrival then e.kind.isDeparture
      else isOnTrip told e.agent := by
  by_cases hturn : e.kind.isDeparture ∨ e.kind.isArrival
  · simp [isOnTrip, hturn]
  · simp [isOnTrip, hturn]

theorem lastTravel?_concat_self :
    lastTravel? (told ++ [e]) e.agent =
      if e.kind.isTravel then some e else lastTravel? told e.agent := by
  by_cases htravel : e.kind.isTravel
  · simp [lastTravel?, htravel]
  · simp [lastTravel?, htravel]

/-! ## Traversals and journals -/

/-- The link on which the journal ends, and when it was entered. -/
def Journal.stop? (j : Journal) : Option (LinkId × Nat) :=
  j.present?.bind fun o => o.later.getLast?

/-- Whoever is on a trip is on an outing. -/
theorem isSome_present?_ofAgent (told : List Event) (id : AgentId) :
    (Journal.ofAgent id told).present?.isSome = isOnTrip told id := by
  induction told using List.reverseRecOn with
  | nil => rfl
  | append_singleton told e ih =>
      by_cases hid : e.agent = id
      · subst hid
        rw [Journal.ofAgent_concat_self, isOnTrip_concat_self, ← ih]
        obtain ⟨time, agent, kind⟩ := e
        cases kind with
        | departure link => rfl
        | linkEnter left link =>
            cases hpresent : (Journal.ofAgent agent told).present? <;>
              simp [Journal.note, hpresent, EventKind.isDeparture, EventKind.isArrival]
        | arrival link =>
            cases hpresent : (Journal.ofAgent agent told).present? <;>
              simp [Journal.note, hpresent, EventKind.isDeparture, EventKind.isArrival]
        | _ => rw [Journal.note_of_quiet rfl]; rfl
      · rw [Journal.ofAgent_concat_of_ne hid, isOnTrip_concat_of_ne hid, ih]

/-- The outing of an agent on a trip ends on the link that the agent has entered last. -/
theorem stop?_ofAgent (told : List Event) (id : AgentId) :
    (Journal.ofAgent id told).stop? =
      if isOnTrip told id then (lastTravel? told id).bind Event.stop? else none := by
  induction told using List.reverseRecOn with
  | nil => rfl
  | append_singleton told e ih =>
      by_cases hid : e.agent = id
      · subst hid
        have hpresent := isSome_present?_ofAgent told e.agent
        rw [Journal.ofAgent_concat_self, isOnTrip_concat_self, lastTravel?_concat_self]
        obtain ⟨time, agent, kind⟩ := e
        cases kind with
        | departure link => rfl
        | linkEnter left link =>
            cases ho : (Journal.ofAgent agent told).present? with
            | none =>
                rw [ho] at hpresent
                simp [Journal.stop?, Journal.note, ho, ← hpresent, EventKind.isDeparture,
                  EventKind.isArrival]
            | some o =>
                rw [ho] at hpresent
                rw [Journal.note_linkEnter ho]
                simp [Journal.stop?, Outing.entering, ← hpresent, EventKind.isDeparture,
                  EventKind.isArrival, EventKind.isTravel, Event.stop?]
        | arrival link =>
            cases ho : (Journal.ofAgent agent told).present? <;>
              simp [Journal.stop?, Journal.note, ho, EventKind.isDeparture, EventKind.isArrival]
        | _ => rw [Journal.note_of_quiet rfl]; exact ih
      · rw [Journal.ofAgent_concat_of_ne hid, isOnTrip_concat_of_ne hid,
          lastTravel?_concat_of_ne hid, ih]

/-- Only the agent's own journal matters for what its next event ends. -/
theorem ended?_eq (before : List Event) (e : Event) :
    ended? before e =
      if e.kind.vacated?.isSome then
        (Journal.ofAgent e.agent before).stop?.map fun stop => ⟨e.agent, stop.1, stop.2, e.time⟩
      else none := by
  rw [ended?, stop?_ofAgent]
  by_cases hleaves : e.kind.vacated?.isSome <;> by_cases htrip : isOnTrip before e.agent <;>
    simp [hleaves, htrip]

theorem ended?_filter (before : List Event) (e : Event) :
    ended? (before.filter fun f => f.agent = e.agent) e = ended? before e := by
  rw [ended?_eq, ended?_eq, Journal.ofAgent, Journal.ofAgent, List.filter_filter]
  simp only [Bool.and_self]

theorem agent_of_ended? (h : ended? before e = some tr) : tr.agent = e.agent := by
  rw [ended?_eq] at h
  split at h
  · obtain ⟨stop, -, rfl⟩ := Option.map_eq_some_iff.1 h
    rfl
  · cases h

/-- The traversals of an agent are those in its own events. -/
theorem filter_traversals (told : List Event) (id : AgentId) :
    (traversals told).filter (fun tr => tr.agent = id) =
      traversals (told.filter fun e => e.agent = id) := by
  induction told using List.reverseRecOn with
  | nil => rfl
  | append_singleton told e ih =>
      rw [traversals_concat, List.filter_append, ih, List.filter_append]
      by_cases hid : e.agent = id
      · subst hid
        rw [List.filter_cons_of_pos (by simp), List.filter_nil, traversals_concat, ended?_filter]
        congr 1
        refine List.filter_eq_self.2 fun tr htr => decide_eq_true ?_
        exact agent_of_ended? (Option.mem_toList.1 htr)
      · have hothers : (ended? told e).toList.filter (fun tr => tr.agent = id) = [] := by
          refine List.filter_eq_nil_iff.2 fun tr htr hown => hid ?_
          rw [← agent_of_ended? (Option.mem_toList.1 htr)]
          exact of_decide_eq_true hown
        rw [hothers, List.filter_cons_of_neg (by simpa using hid), List.filter_nil,
          List.append_nil, List.append_nil]

/-- Events in an order that keeps the order of each agent contain the same traversals. -/
theorem traversals_perm {other : List Event}
    (h : ∀ id, other.filter (fun e => e.agent = id) = told.filter fun e => e.agent = id) :
    (traversals other).Perm (traversals told) := by
  suffices hsame : ∀ id, (traversals other).filter (fun tr => tr.agent = id) =
      (traversals told).filter fun tr => tr.agent = id from perm_of_filter_key hsame
  intro id
  rw [filter_traversals, filter_traversals, h]

theorem ofAgent_congr {other : List Event}
    (h : ∀ id, other.filter (fun e => e.agent = id) = told.filter fun e => e.agent = id)
    (id : AgentId) : Journal.ofAgent id other = Journal.ofAgent id told := by
  rw [Journal.ofAgent, h, Journal.ofAgent]

/-! ## A traversal from its beginning to its end -/

/-- Whoever neither departs nor arrives is on a trip if it was before. -/
theorem isOnTrip_append (past : List Event) {later : List Event}
    (h : ∀ f ∈ later, f.agent = id → f.kind.isDeparture = false ∧ f.kind.isArrival = false) :
    isOnTrip (past ++ later) id = isOnTrip past id := by
  have hnone : (later.reverse.find? fun f =>
      f.agent = id ∧ (f.kind.isDeparture ∨ f.kind.isArrival)) = none := by
    refine List.find?_eq_none.2 fun f hf hturn => ?_
    obtain ⟨hown, hturn⟩ := of_decide_eq_true hturn
    obtain ⟨hgoes, hcomes⟩ := h f (List.mem_reverse.1 hf) hown
    simp [hgoes, hcomes] at hturn
  rw [isOnTrip, List.reverse_append, List.find?_append, hnone, Option.none_or, isOnTrip]

theorem lastTravel?_eq_some_iff {f : Event} :
    lastTravel? told id = some f ↔ (f.agent = id ∧ f.kind.isTravel) ∧
      ∃ past between, told = past ++ f :: between ∧
        ∀ g ∈ between, g.agent = id → g.kind.isTravel = false := by
  rw [lastTravel?, List.find?_eq_some_iff_append, decide_eq_true_eq]
  refine and_congr_right fun _ => ?_
  constructor
  · rintro ⟨between, past, hsplit, hquiet⟩
    refine ⟨past.reverse, between.reverse, ?_, fun g hg hown => ?_⟩
    · rw [← List.reverse_reverse told, hsplit, List.reverse_append, List.reverse_cons,
        List.append_assoc, List.singleton_append]
    · simpa [hown] using hquiet g (List.mem_reverse.1 hg)
  · rintro ⟨past, between, rfl, hquiet⟩
    refine ⟨between.reverse, past.reverse, by simp, fun g hg => ?_⟩
    by_cases hown : g.agent = id
    · simp [hquiet g (List.mem_reverse.1 hg) hown]
    · simp [hown]

/-- A traversal begins when someone on a trip enters a link, and it ends with the next that is told
of its travels, unless this is a departure. -/
theorem ended?_eq_some_iff :
    ended? before e = some tr ↔
      ∃ past left between,
        before = past ++ ⟨tr.entered, tr.agent, .linkEnter left tr.link⟩ :: between ∧
        isOnTrip past tr.agent ∧ (∀ f ∈ between, f.agent = tr.agent → f.kind.isTravel = false) ∧
        e.agent = tr.agent ∧ e.time = tr.left ∧ e.kind.vacated?.isSome := by
  -- Neither the entry nor what stands behind it begins or ends a trip.
  have hsame : ∀ {past between : List Event} {time : Nat} {left link : LinkId} {id : AgentId},
      (∀ f ∈ between, f.agent = id → f.kind.isTravel = false) →
        isOnTrip (past ++ ⟨time, id, .linkEnter left link⟩ :: between) id = isOnTrip past id := by
    intro past between time left link id hquiet
    refine isOnTrip_append past fun f hf hown => ?_
    rcases List.mem_cons.1 hf with rfl | hrest
    · exact ⟨rfl, rfl⟩
    · have hnone := hquiet f hrest hown
      cases hkind : f.kind <;> rw [hkind] at hnone <;> first | exact ⟨rfl, rfl⟩ | cases hnone
  constructor
  · intro h
    rw [ended?] at h
    split at h
    · rename_i hends
      obtain ⟨stop, hfound, rfl⟩ := Option.map_eq_some_iff.1 h
      obtain ⟨entry, hentry, hstop⟩ := Option.bind_eq_some_iff.1 hfound
      obtain ⟨⟨hown, -⟩, past, between, rfl, hquiet⟩ := lastTravel?_eq_some_iff.1 hentry
      obtain ⟨time, agent, kind⟩ := entry
      obtain rfl : agent = e.agent := hown
      cases kind with
      | linkEnter left link =>
          cases hstop
          exact ⟨past, left, between, rfl, hsame hquiet ▸ hends.2, hquiet, rfl, rfl, hends.1⟩
      | _ => cases hstop
    · cases h
  · rintro ⟨past, left, between, rfl, htrip, hquiet, hown, htime, hleaves⟩
    have hlast : lastTravel? (past ++ ⟨tr.entered, tr.agent, .linkEnter left tr.link⟩ :: between)
        tr.agent = some ⟨tr.entered, tr.agent, .linkEnter left tr.link⟩ :=
      lastTravel?_eq_some_iff.2 ⟨⟨rfl, rfl⟩, past, between, rfl, hquiet⟩
    rw [ended?, hown, htime, if_pos ⟨hleaves, (hsame hquiet).trans htrip⟩, hlast]
    rfl

theorem mem_traversals_iff :
    tr ∈ traversals told ↔
      ∃ before e after, told = before ++ e :: after ∧ ended? before e = some tr := by
  rw [traversals, List.mem_filterMap]
  constructor
  · rintro ⟨n, hn, hfound⟩
    obtain ⟨e, he, hended⟩ := Option.bind_eq_some_iff.1 hfound
    obtain ⟨hlt, rfl⟩ := List.getElem?_eq_some_iff.1 he
    refine ⟨told.take n, told[n], told.drop (n + 1), ?_, hended⟩
    rw [← List.drop_eq_getElem_cons hlt, List.take_append_drop]
  · rintro ⟨before, e, after, rfl, hended⟩
    refine ⟨before.length, ?_, ?_⟩
    · simp
    · rw [List.getElem?_append_right (Nat.le_refl _), Nat.sub_self, List.getElem?_cons_zero,
        Option.bind_some, List.take_left]
      exact hended

/-! ## Times -/

/-- Nobody is told of something that was before the last that was told of it. -/
def InTimeOrder (told : List Event) : Prop :=
  ∀ id, (told.filter fun e => e.agent = id).Pairwise fun e f => e.time ≤ f.time

theorem InTimeOrder.of_pairwise (h : told.Pairwise fun e f => e.time ≤ f.time) :
    InTimeOrder told :=
  fun _ => h.sublist List.filter_sublist

theorem InTimeOrder.le {f : Event} {past between after : List Event}
    (h : InTimeOrder (past ++ e :: between ++ f :: after)) (hown : e.agent = f.agent) :
    e.time ≤ f.time := by
  have hpairwise := h f.agent
  rw [List.filter_append, List.filter_append, List.filter_cons_of_pos (by simpa using hown),
    List.filter_cons_of_pos (by simp)] at hpairwise
  refine (List.pairwise_append.1 hpairwise).2.2 e ?_ f List.mem_cons_self
  exact List.mem_append_right _ List.mem_cons_self

theorem InTimeOrder.entered_le_left (h : InTimeOrder told) (htr : tr ∈ traversals told) :
    tr.entered ≤ tr.left := by
  obtain ⟨before, e, after, rfl, hended⟩ := mem_traversals_iff.1 htr
  obtain ⟨past, left, between, rfl, -, -, hown, htime, -⟩ := ended?_eq_some_iff.1 hended
  rw [← htime]
  exact h.le hown.symm

theorem InTimeOrder.of_append {later : List Event} (h : InTimeOrder (told ++ later)) :
    InTimeOrder told := by
  intro id
  have hpairwise := h id
  rw [List.filter_append] at hpairwise
  exact (List.pairwise_append.1 hpairwise).1

/-- An outing began with an event of its agent. -/
theorem exists_departure_of_present? {o : Outing}
    (ho : (Journal.ofAgent id told).present? = some o) :
    ∃ past e later, told = past ++ e :: later ∧ e.agent = id ∧ e.time = o.departed := by
  induction told using List.reverseRecOn generalizing o with
  | nil => cases ho
  | append_singleton told e ih =>
      have hbefore : ∀ {before : Outing}, (Journal.ofAgent id told).present? = some before →
          before.departed = o.departed → ∃ past f later, told ++ [e] = past ++ f :: later ∧
            f.agent = id ∧ f.time = o.departed := by
        intro before hpresent hsame
        obtain ⟨past, f, later, rfl, hown, htime⟩ := ih hpresent
        exact ⟨past, f, later ++ [e], by simp, hown, htime.trans hsame⟩
      by_cases hid : e.agent = id
      · subst hid
        rw [Journal.ofAgent_concat_self] at ho
        obtain ⟨time, agent, kind⟩ := e
        cases kind with
        | departure link =>
            cases ho
            exact ⟨told, _, [], rfl, rfl, rfl⟩
        | linkEnter left link =>
            cases hpresent : (Journal.ofAgent agent told).present? with
            | none => simp [Journal.note, hpresent] at ho
            | some before =>
                rw [Journal.note_linkEnter hpresent] at ho
                cases ho
                exact hbefore hpresent rfl
        | arrival link =>
            cases hpresent : (Journal.ofAgent agent told).present? <;>
              simp [Journal.note, hpresent] at ho
        | _ =>
            rw [Journal.note_of_quiet rfl] at ho
            exact hbefore ho rfl
      · rw [Journal.ofAgent_concat_of_ne hid] at ho
        exact hbefore ho rfl

theorem InTimeOrder.departed_le_arrived (h : InTimeOrder told) {drive : Drive}
    (hdrive : drive ∈ (Journal.ofAgent id told).past) :
    drive.outing.departed ≤ drive.arrived := by
  induction told using List.reverseRecOn with
  | nil => cases hdrive
  | append_singleton told e ih =>
      by_cases hid : e.agent = id
      · subst hid
        rw [Journal.ofAgent_concat_self] at hdrive
        by_cases harrives : e.kind.isArrival
        · obtain ⟨time, agent, kind⟩ := e
          cases kind with
          | arrival link =>
              cases ho : (Journal.ofAgent agent told).present? with
              | none =>
                  simp only [Journal.note, ho] at hdrive
                  exact ih h.of_append hdrive
              | some o =>
                  rw [Journal.note_arrival ho] at hdrive
                  rcases List.mem_append.1 hdrive with hpast | hlast
                  · exact ih h.of_append hpast
                  · obtain rfl := List.mem_singleton.1 hlast
                    obtain ⟨past, f, later, rfl, hown, htime⟩ := exists_departure_of_present? ho
                    change o.departed ≤ time
                    rw [← htime]
                    exact InTimeOrder.le (f := ⟨time, agent, .arrival link⟩) h hown
          | _ => cases harrives
        · rw [Journal.past_note_of_not_arrival (Bool.eq_false_iff.2 harrives)] at hdrive
          exact ih h.of_append hdrive
      · rw [Journal.ofAgent_concat_of_ne hid] at hdrive
        exact ih h.of_append hdrive

end Thoroughfare

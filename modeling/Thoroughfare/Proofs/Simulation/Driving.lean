import Thoroughfare.Proofs.Delay.Accounts
import Thoroughfare.Proofs.Simulation.Fifo

/-!
# The journals of a simulation

What a simulation tells of an agent makes up a journal.  The journal has an outing that is not over
just when the agent is under way, and then its links are those of the leg as far as the agent has
come; the drives that are over are the legs before.  Nobody leaves a link behind the first one before
it has spent there the seconds of free traffic, because it could not leave the queue earlier.
-/

namespace Thoroughfare

namespace Situation

variable {free : LinkId → Nat} {g : Network} {clock : Clock} {id : AgentId} {σ τ : Situation}
  {ruling : Ruling} {kinds : List EventKind} {j : Journal}

/-! ## Who is on an outing -/

/-- A situation goes with a journal: only whoever is under way is on an outing, which is as long as
the agent has come on its leg. -/
def Drives (j : Journal) : Situation → Prop
  | waiting a _ => a.routeIndex = 0 ∧ j.present? = none
  | underWay a _ => ∃ o leg, j.present? = some o ∧ a.currentLeg? = some leg ∧
      o.route = leg.route.take (a.routeIndex + 1)
  | _ => j.present? = none

theorem Drives.isSome_present? (h : σ.Drives j) : j.present?.isSome = σ.isUnderWay := by
  cases σ with
  | underWay a held? =>
      obtain ⟨o, leg, ho, -⟩ := h
      rw [ho]
      rfl
  | waiting a refused => rw [h.2]; rfl
  | absent => rw [show j.present? = none from h]; rfl
  | resting a k => rw [show j.present? = none from h]; rfl
  | done a => rw [show j.present? = none from h]; rfl

/-- Nothing that is told of a drive is told when an agent wakes up. -/
theorem wakingKinds_quiet (σ : Situation) (g : Network) (tick : Tick) :
    ∀ kind ∈ σ.wakingKinds g tick, kind.isTravel = false := by
  intro kind hkind
  obtain ⟨w, -, rfl⟩ := List.mem_map.1 hkind
  cases w <;> rfl

theorem drives_woken (hσ : σ.Valid g id) (h : σ.Drives j) (tick : Tick) :
    (σ.woken g tick).Drives j := by
  rcases woken_cases hσ tick with ⟨-, hsame, -⟩ | ⟨a, k, w, rfl, -, hawaken, -, -, hw, -, -⟩
  · rw [hsame]
    exact h
  · obtain ⟨-, hstate, activity, hactivity⟩ := hσ
    rw [hw]
    rcases Agent.awaken_cases (g := g) hstate hactivity with
      ⟨-, hw'⟩ | ⟨leg, next, -, -, ⟨-, -, -, hw'⟩ | ⟨bad, -, hw'⟩⟩
    · rw [hawaken] at hw'
      cases hw'
      exact h
    · rw [hawaken] at hw'
      cases hw'
      exact ⟨rfl, h⟩
    · rw [hawaken] at hw'
      cases hw'
      exact h

/-- Whoever is under way is on an outing that ends on its link. -/
theorem Drives.exists_outing {a : Agent} {held? : Option LinkId}
    (hdrives : (underWay a held?).Drives j) (hσ : (underWay a held?).Valid g id) :
    ∃ o leg next, j.present? = some o ∧ a.state = .enRoute ∧ a.OnLeg g leg next ∧
      o.route = leg.route.take (a.routeIndex + 1) ∧ a.currentLink? = some o.last := by
  obtain ⟨-, hstate, ⟨leg, next, hleg⟩, -⟩ := hσ
  obtain ⟨o, leg', ho, hleg', hroute⟩ := hdrives
  obtain rfl : leg = leg' := Option.some.inj (hleg.onLeg.symm.trans hleg')
  have hlink := List.getElem?_eq_getElem hleg.place
  have hlast := o.getLast?_route
  rw [hroute, List.getLast?_take, if_neg (Nat.succ_ne_zero _), Nat.add_sub_cancel, hlink] at hlast
  refine ⟨o, leg, next, ho, hstate, hleg, hroute, ?_⟩
  rw [Agent.currentLink?_of_onLeg hleg (Or.inr hstate), hlink]
  exact hlast

end Situation

/-- Whoever has landed is on no outing. -/
theorem Agent.drives_landed (clock : Clock) (a : Agent) {j : Journal} (h : j.present? = none) :
    (a.landed clock).Drives j := by
  rcases Situation.landed_cases clock a with ⟨-, -, hlanded⟩ | ⟨k, -, -, -, hlanded⟩
  · rw [hlanded]
    exact h
  · rw [hlanded]
    exact h

theorem Clock.tell_append (clock : Clock) (id : AgentId) (first later : List EventKind) :
    clock.tell id (first ++ later) = clock.tell id first ++ clock.tell id later :=
  List.map_append

theorem Clock.quiet_tell (clock : Clock) (id : AgentId) {kinds : List EventKind}
    (h : ∀ kind ∈ kinds, kind.isTravel = false) :
    ∀ e ∈ clock.tell id kinds, e.kind.isTravel = false := by
  intro e he
  obtain ⟨kind, hkind, rfl⟩ := List.mem_map.1 he
  exact h kind hkind

section Quiet

variable {clock : Clock} {id : AgentId} {quiet : List EventKind} {j : Journal}
  {free : LinkId → Nat}

/-- What belongs to no drive may be left out at the beginning. -/
theorem Journal.noteAll_tell_append (h : ∀ kind ∈ quiet, kind.isTravel = false)
    (kinds : List EventKind) :
    j.noteAll (clock.tell id (quiet ++ kinds)) = j.noteAll (clock.tell id kinds) := by
  rw [clock.tell_append, Journal.noteAll_append, Journal.noteAll_of_quiet (clock.quiet_tell id h)]

theorem Journal.takes_tell_append (h : ∀ kind ∈ quiet, kind.isTravel = false)
    (kinds : List EventKind) :
    j.Takes free (clock.tell id (quiet ++ kinds)) ↔ j.Takes free (clock.tell id kinds) := by
  have hquiet := clock.quiet_tell id h
  rw [clock.tell_append, Journal.takes_append, Journal.noteAll_of_quiet hquiet]
  exact and_iff_right (Journal.takes_of_quiet hquiet)

end Quiet

/-- Behind the arrival nothing that is told of a landing belongs to a drive. -/
theorem Agent.landingKinds_eq (clock : Clock) (a : Agent) (link : LinkId) :
    ∃ rest, a.landingKinds clock link = .arrival link :: rest ∧
      ∀ kind ∈ rest, kind.isTravel = false := by
  unfold landingKinds
  split
  · exact ⟨_, rfl, by simp [EventKind.isTravel]⟩
  · exact ⟨_, rfl, by simp [EventKind.isTravel]⟩

/-- Landing ends an outing. -/
theorem Agent.noteAll_landing (clock : Clock) (id : AgentId) (a : Agent) {j : Journal} {o : Outing}
    (ho : j.present? = some o) :
    j.noteAll (clock.tell id (a.landingKinds clock o.last)) =
        ⟨j.past ++ [⟨o, clock.now⟩], none⟩ ∧
      ∀ free : LinkId → Nat, o.MayLeave free clock.now →
        j.Takes free (clock.tell id (a.landingKinds clock o.last)) := by
  obtain ⟨rest, hkinds, hrest⟩ := a.landingKinds_eq clock o.last
  have hquiet := clock.quiet_tell id hrest
  rw [hkinds]
  constructor
  · rw [← Journal.note_arrival ho]
    exact Journal.noteAll_of_quiet hquiet
  · intro free hleave
    exact ⟨Journal.allows_of_vacated rfl ho hleave, Journal.takes_of_quiet hquiet⟩

namespace Situation

variable {free : LinkId → Nat} {g : Network} {clock : Clock} {id : AgentId} {σ τ : Situation}
  {ruling : Ruling} {kinds : List EventKind} {j : Journal} {link : LinkId}

/-- Whatever a ruling makes of an agent, its journal goes on, if the agent leaves its link only when
it may. -/
theorem Fits.drives (h : σ.Fits ruling) (hσ : σ.Valid g id) (hdrives : σ.Drives j)
    (hready : ∀ o, j.present? = some o →
      (∃ kind ∈ (σ.outcome clock (some ruling)).kinds, kind.vacated?.isSome = true) →
        o.MayLeave free clock.now) :
    j.Takes free (clock.tell id (σ.outcome clock (some ruling)).kinds) ∧
      (σ.outcome clock (some ruling)).finally.Drives
        (j.noteAll (clock.tell id (σ.outcome clock (some ruling)).kinds)) := by
  cases h with
  | @arrive a held? hnext =>
      obtain ⟨o, leg, next, ho, -, -, -, hlink⟩ := hdrives.exists_outing hσ
      obtain ⟨hnoted, htakes⟩ := a.noteAll_landing clock id ho
      simp only [outcome, Outcome.finally, hlink, Option.toList_some, List.flatMap_singleton]
        at hready ⊢
      refine ⟨htakes free (hready o ho ?_), ?_⟩
      · obtain ⟨rest, hkinds, -⟩ := a.landingKinds_eq clock o.last
        exact ⟨.arrival o.last, hkinds ▸ List.mem_cons_self, rfl⟩
      · rw [hnoted]
        exact a.drives_landed clock rfl
  | @move a held? target seq hnext =>
      obtain ⟨o, leg, next, ho, hstate, hleg, hroute, hlink⟩ := hdrives.exists_outing hσ
      simp only [outcome, Outcome.finally, hlink, Option.toList_some, List.map_singleton]
        at hready ⊢
      have hleave := hready o ho ⟨_, List.mem_singleton_self _, rfl⟩
      refine ⟨⟨Journal.allows_of_vacated rfl ho hleave, trivial⟩, o.entering target clock.now, leg,
        ?_, hleg.onLeg, ?_⟩
      · exact congrArg Journal.present? (Journal.note_linkEnter ho)
      · rw [Agent.nextLink?_of_onLeg hleg hstate] at hnext
        rw [Outing.route_entering, hroute]
        simp only [Agent.onNextLink]
        rw [List.take_add_one (i := a.routeIndex + 1), hnext]
        rfl
  | hold held? hnext => exact ⟨trivial, hdrives⟩
  | @depart a refused link seq hlink =>
      obtain ⟨hfirst, hnone⟩ := hdrives
      obtain ⟨-, hstate, leg, next, hleg⟩ := hσ
      refine ⟨⟨Journal.allows_of_departure rfl hnone, trivial⟩, ⟨link, clock.now, []⟩, leg, rfl,
        hleg.onLeg, ?_⟩
      rw [Agent.currentLink?_of_onLeg hleg (Or.inl hstate), hfirst] at hlink
      have htake : leg.route.take (0 + 1) = [link] := by rw [List.take_add_one, hlink]; rfl
      simp only [Agent.enteredTraffic, hfirst, htake]
      rfl
  | wait refused hlink => exact ⟨trivial, hdrives⟩

/-- Whatever a step tells of an agent, its journal goes on. -/
theorem StepsTo.drives (h : σ.StepsTo g clock τ kinds) (hσ : σ.Valid g id) (hdrives : σ.Drives j)
    (hready : ∀ o, j.present? = some o → (∃ kind ∈ kinds, kind.vacated?.isSome = true) →
      o.MayLeave free clock.now) :
    j.Takes free (clock.tell id kinds) ∧ τ.Drives (j.noteAll (clock.tell id kinds)) := by
  obtain ⟨ruling?, hfits, rfl, rfl⟩ := h
  have hquiet := σ.wakingKinds_quiet g clock.tick
  rw [Journal.noteAll_tell_append hquiet, Journal.takes_tell_append hquiet]
  have hwoken := drives_woken hσ hdrives clock.tick
  cases ruling? with
  | none =>
      rw [outcome_none]
      exact ⟨trivial, hwoken⟩
  | some ruling =>
      refine (hfits ruling rfl).drives hσ.woken hwoken fun o ho hleaves => ?_
      obtain ⟨kind, hkind, hvacated⟩ := hleaves
      exact hready o ho ⟨kind, List.mem_append_right _ hkind, hvacated⟩

/-- Whoever enters a link in a step does nothing else on its drive. -/
theorem StepsTo.exists_quiet (h : σ.StepsTo g clock τ kinds) {kind : EventKind}
    (hkind : kind ∈ kinds) (henters : kind.entered?.isSome = true) :
    ∃ quiet, kinds = quiet ++ [kind] ∧ ∀ kind ∈ quiet, kind.isTravel = false := by
  obtain ⟨ruling?, hfits, -, rfl⟩ := h
  have hquiet := σ.wakingKinds_quiet g clock.tick
  refine ⟨_, ?_, hquiet⟩
  have hlater : kind ∈ ((σ.woken g clock.tick).outcome clock ruling?).kinds := by
    refine (List.mem_append.1 hkind).resolve_left fun hwaking => ?_
    rw [(wakingKinds_stay σ g clock.tick kind hwaking).1] at henters
    cases henters
  congr 1
  cases ruling? with
  | none => simp at hlater
  | some ruling =>
      revert hlater
      generalize σ.woken g clock.tick = ω at hfits
      intro hlater
      cases hfits ruling rfl with
      | @arrive a held? hnext =>
          simp only [outcome] at hlater
          obtain ⟨link, -, hlands⟩ := List.mem_flatMap.1 hlater
          unfold Agent.landingKinds at hlands
          split at hlands <;> simp at hlands <;> rcases hlands with rfl | rfl | rfl <;> cases henters
      | @move a held? target seq hnext =>
          simp only [outcome] at hlater ⊢
          cases hlink : a.currentLink? with
          | none => rw [hlink] at hlater; cases hlater
          | some left =>
              rw [hlink] at hlater
              rw [List.mem_singleton.1 hlater]
              rfl
      | hold held? hnext => cases hlater
      | depart refused seq hlink => rw [List.mem_singleton.1 hlater]; rfl
      | wait refused hlink => cases hlater

/-! ## Which legs are over -/

/-- The drives that are over are the legs of an itinerary that are over. -/
structure Planned (t : Itinerary) (j : Journal) (σ : Situation) : Prop where
  follows : σ.Follows t j.past.length
  past : j.past.map Drive.route = (t.legs.take j.past.length).map Leg.route

theorem Fits.planned (h : σ.Fits ruling) (hσ : σ.Valid g id) (hdrives : σ.Drives j)
    {t : Itinerary} (hplanned : σ.Planned t j) :
    (σ.outcome clock (some ruling)).finally.Planned t
      (j.noteAll (clock.tell id (σ.outcome clock (some ruling)).kinds)) := by
  obtain ⟨hfollows, hpast⟩ := hplanned
  have hlater := fun hne => (h.follows clock hne).2 t j.past.length hfollows
  cases h with
  | @arrive a held? hnext =>
      obtain ⟨o, leg, next, ho, hstate, hleg, hroute, hlink⟩ := hdrives.exists_outing hσ
      obtain ⟨hitinerary, hsegment⟩ := hfollows a rfl
      simp only [outcome, Outcome.finally, hlink, Option.toList_some, List.flatMap_singleton]
      have hwhole : o.route = leg.route := by
        rw [Agent.nextLink?_of_onLeg hleg hstate, List.getElem?_eq_none_iff] at hnext
        rw [hroute, List.take_of_length_le hnext]
      have hthis : t.legs[j.past.length]? = some leg := by
        rw [← hsegment, ← hitinerary]
        exact hleg.getElem?_legs
      rw [(a.noteAll_landing clock id ho).1]
      constructor
      · rw [List.length_append, List.length_singleton, ← hsegment, ← hitinerary]
        exact OnTime.follows_landed hleg
      · rw [List.length_append, List.length_singleton, List.take_add_one, hthis, List.map_append,
          List.map_append, hpast, Option.toList_some, List.map_singleton, List.map_singleton,
          ← hwhole]
        rfl
  | @move a held? target seq hnext =>
      obtain ⟨o, leg, next, -, -, -, -, hlink⟩ := hdrives.exists_outing hσ
      have hmoved := hlater Ruling.noConfusion
      simp only [outcome, hlink, Option.toList_some, List.map_singleton] at hmoved ⊢
      have hsame : (j.noteAll (clock.tell id [.linkEnter o.last target])).past = j.past :=
        Journal.past_note_of_not_arrival rfl
      constructor
      · rw [hsame]
        exact hmoved
      · rw [hsame]
        exact hpast
  | hold held? hnext => exact ⟨hfollows, hpast⟩
  | depart refused seq hlink => exact ⟨hlater Ruling.noConfusion, hpast⟩
  | wait refused hlink => exact ⟨hlater Ruling.noConfusion, hpast⟩

theorem StepsTo.planned (h : σ.StepsTo g clock τ kinds) (hσ : σ.Valid g id)
    (hdrives : σ.Drives j) {t : Itinerary} (hplanned : σ.Planned t j) :
    τ.Planned t (j.noteAll (clock.tell id kinds)) := by
  obtain ⟨ruling?, hfits, rfl, rfl⟩ := h
  have hwoken : (σ.woken g clock.tick).Planned t j :=
    ⟨(woken_follows hσ clock.tick).2 t j.past.length hplanned.follows, hplanned.past⟩
  rw [Journal.noteAll_tell_append (σ.wakingKinds_quiet g clock.tick)]
  cases ruling? with
  | none =>
      rw [outcome_none]
      exact hwoken
  | some ruling =>
      exact (hfits ruling rfl).planned hσ.woken (drives_woken hσ hdrives clock.tick) hwoken

end Situation

/-! ## All agents -/

namespace Simulation

variable {α : Type} {s : Simulation α} {free : LinkId → Nat} {told : List Event}

/-- What was told of each agent makes up a journal that goes with its situation, and nobody can
leave the queue of a link before its journal allows it. -/
structure Journaled (s : Simulation α) (free : LinkId → Nat) (told : List Event) : Prop where
  orderly : Orderly free told
  drives : ∀ id, (s.world.situation id).Drives (Journal.ofAgent id told)
  stands : ∀ link, ∀ entry ∈ s.standing link, ∃ o,
    (Journal.ofAgent entry.agent told).present? = some o ∧ o.MayLeave free entry.earliestExit

variable {next : Simulation α} {bus bus' : Bus} {record : StepRecord}

/-- Whoever leaves a link in a step stood there, and may leave it. -/
theorem Journaled.mayLeave (h : s.Journaled free told) {link : LinkId} {events : List Event}
    (hpasses : Passes ⟨s, events⟩ link next) {e : Event} (he : e ∈ events)
    (hleaves : e.kind.vacated? = some link) :
    e.agent ∈ ((s.standing link).take ((Stage.mk s events).exits link).length).map (·.agent) ∧
      ∃ o, (Journal.ofAgent e.agent told).present? = some o ∧ o.MayLeave free s.now := by
  have hexit : e ∈ (Stage.mk s events).exits link := Stage.mem_exits_iff.2 ⟨he, hleaves⟩
  have hfront := List.mem_map_of_mem (f := fun e : Event => e.agent) hexit
  rw [hpasses.left] at hfront
  refine ⟨hfront, ?_⟩
  obtain ⟨entry, hentry, hagent⟩ := List.mem_map.1 hfront
  obtain ⟨o, ho, hleave⟩ := h.stands link entry (List.mem_of_mem_take hentry)
  rw [hagent] at ho
  exact ⟨o, ho, hleave.mono (hpasses.ready entry hentry)⟩

variable [Quantity α]

/-- What a step does to an agent is what comes next in its journal. -/
theorem Journaled.own (h : s.Journaled free told) (hsound : s.Sound)
    (hstep : s.step bus = (next, .ok (record, bus'))) (id : AgentId) :
    (Journal.ofAgent id told).Takes free (record.events.filter fun e => e.agent = id) ∧
      (next.world.situation id).Drives (Journal.ofAgent id (told ++ record.events)) := by
  obtain ⟨kinds, hsteps, hrecord⟩ := hsound.stepsTo_of_step hstep id
  rw [Journal.ofAgent_append, hrecord]
  refine hsteps.drives (City.Sound.valid hsound id) (h.drives id) fun o ho hleaves => ?_
  obtain ⟨kind, hkind, hvacated⟩ := hleaves
  obtain ⟨link, hlink⟩ := Option.isSome_iff_exists.1 hvacated
  have he : ⟨s.clock.now, id, kind⟩ ∈ record.events := by
    refine (List.mem_filter.1 (?_ : _ ∈ record.events.filter fun e => e.agent = id)).1
    rw [hrecord]
    exact List.mem_map_of_mem hkind
  obtain ⟨-, o', ho', hleave⟩ := h.mayLeave ((hsound.passes_of_step hstep).1 link) he hlink
  rw [ho] at ho'
  cases ho'
  exact hleave

/-- Whoever is still on a link after a step in which it stood there is on the same outing. -/
theorem Journaled.stands_on (h : s.Journaled free told) (hsound : s.Sound)
    (hstep : s.step bus = (next, .ok (record, bus'))) {link : LinkId} {entry : QueuedAgent}
    (hentry : entry ∈ (s.standing link).drop ((Stage.mk s record.events).exits link).length) :
    ∃ o, (Journal.ofAgent entry.agent (told ++ record.events)).present? = some o ∧
      o.MayLeave free entry.earliestExit := by
  obtain ⟨o, ho, hleave⟩ := h.stands link entry (List.mem_of_mem_drop hentry)
  obtain ⟨htakes, -⟩ := h.own hsound hstep entry.agent
  refine ⟨o, ?_, hleave⟩
  rw [Journal.ofAgent_append, htakes.noteAll_of_stays ho, ho]
  intro e he
  obtain ⟨hevent, hagent⟩ := List.mem_filter.1 he
  rw [Option.eq_none_iff_forall_ne_some]
  intro left hleaves
  -- Otherwise it would be both in the part of the queue that left and in the rest.
  obtain ⟨hfront, -⟩ := h.mayLeave ((hsound.passes_of_step hstep).1 left) hevent hleaves
  rw [of_decide_eq_true hagent] at hfront
  have hhere : entry.agent ∈ (s.standing link).map (·.agent) :=
    List.mem_map_of_mem (List.mem_of_mem_drop hentry)
  have hthere : entry.agent ∈ (s.standing left).map (·.agent) := by
    obtain ⟨other, hother, hsame⟩ := List.mem_map.1 hfront
    exact List.mem_map.2 ⟨other, List.mem_of_mem_take hother, hsame⟩
  obtain rfl := hsound.link_unique hhere hthere
  have hback := List.mem_map_of_mem (f := fun entry : QueuedAgent => entry.agent) hentry
  rw [List.map_take] at hfront
  rw [List.map_drop] at hback
  exact List.disjoint_take_drop (hsound.nodup_standing link) (Nat.le_refl _) hfront hback

/-- Whoever enters a link in a step may leave it once its entry in the queue says so. -/
theorem Journaled.stands_in (h : s.Journaled free told) (hsound : s.Sound)
    (hstep : s.step bus = (next, .ok (record, bus'))) {link : LinkId}
    (hstay : ∀ left, free link ≤ s.leastStay link (.linkEnter left link)) {e : Event}
    (he : e ∈ record.events) (henters : e.kind.entered? = some link) :
    ∃ o, (Journal.ofAgent e.agent (told ++ record.events)).present? = some o ∧
      o.MayLeave free (e.time + s.leastStay link e.kind) := by
  obtain ⟨kinds, hsteps, hrecord⟩ := hsound.stepsTo_of_step hstep e.agent
  obtain ⟨htakes, -⟩ := h.own hsound hstep e.agent
  have hown : e ∈ record.events.filter fun other => other.agent = e.agent :=
    List.mem_filter.2 ⟨he, by simp⟩
  rw [Journal.ofAgent_append]
  rw [hrecord] at hown htakes ⊢
  obtain ⟨kind, hkind, hsame⟩ := List.mem_map.1 hown
  obtain rfl : kind = e.kind := congrArg Event.kind hsame
  obtain ⟨quiet, rfl, hquiet⟩ := hsteps.exists_quiet hkind (by rw [henters]; rfl)
  have htell : s.clock.tell e.agent [e.kind] = [e] := congrArg (fun e => [e]) hsame
  rw [Journal.takes_tell_append hquiet, htell] at htakes
  rw [Journal.noteAll_tell_append hquiet, htell]
  exact htakes.1.mayLeave_note henters hstay

/-- A step lets all journals go on. -/
theorem Journaled.step (h : s.Journaled free told) (hsound : s.Sound)
    (hstep : s.step bus = (next, .ok (record, bus')))
    (hstay : ∀ left link, free link ≤ s.leastStay link (.linkEnter left link)) :
    next.Journaled free (told ++ record.events) := by
  refine ⟨fun id => ?_, fun id => (h.own hsound hstep id).2, fun link entry hentry => ?_⟩
  · rw [List.filter_append, Journal.takes_append]
    exact ⟨h.orderly id, (h.own hsound hstep id).1⟩
  · rw [((hsound.passes_of_step hstep).1 link).standing_eq, List.mem_append] at hentry
    rcases hentry with hrest | hnew
    · exact h.stands_on hsound hstep hrest
    · obtain ⟨e, he, rfl⟩ := List.mem_map.1 hnew
      obtain ⟨hevent, henters⟩ := Stage.mem_entrances_iff.1 he
      exact h.stands_in hsound hstep (fun left => hstay left link) hevent henters

variable {first : Simulation α} {config : Config} {g : Network} {agents : List Agent}

/-- Before the first step all journals are empty. -/
theorem Fresh.journaled (h : first.Fresh config g agents) (free : LinkId → Nat) :
    first.Journaled free [] := by
  refine ⟨fun id => trivial, fun id => ?_, fun link entry hentry => ?_⟩
  · rw [h.world_eq]
    simp only [World.atStart]
    cases withId agents id <;> rfl
  · rw [h.standing_eq_nil link] at hentry
    cases hentry

/-- Nobody stays on a link for less than free traffic takes. -/
theorem Fresh.freeFlowSecs_le (h : first.Fresh config g agents) (hs : first.Reachable s)
    (left link : LinkId) : g.freeFlowSecs link ≤ s.leastStay link (.linkEnter left link) := by
  rw [hs.leastStay_eq h.sound, Network.freeFlowSecs]
  cases hl : g.link? link with
  | none => exact Nat.zero_le _
  | some l =>
      rw [h.leastStay_eq hl]
      exact Nat.le_max_left _ _

/-- In every history of a simulation what was told of an agent makes up a journal. -/
theorem History.journaled (hs : first.History s told) (h : first.Fresh config g agents) :
    s.Journaled g.freeFlowSecs told := by
  induction hs with
  | start => exact h.journaled g.freeFlowSecs
  | @skip s told hs ih =>
      have hsound := hs.reachable.sound h.sound
      refine ⟨ih.orderly, fun id => ?_, fun link entry hentry => ?_⟩
      · rw [hsound.situation_fastForward]
        exact ih.drives id
      · rw [(hsound.queue?_fastForward link).2] at hentry
        exact ih.stands link entry hentry
  | @step s next told bus bus' record hs hstep ih =>
      exact ih.step (hs.reachable.sound h.sound) hstep (h.freeFlowSecs_le hs.reachable)

/-- The drives of an agent that are over are the first legs of its itinerary. -/
theorem History.planned (hs : first.History s told) (h : first.Fresh config g agents) {a : Agent}
    (ha : a ∈ agents) :
    (s.world.situation a.id).Planned a.itinerary (Journal.ofAgent a.id told) := by
  induction hs with
  | start =>
      obtain ⟨-, hsegment⟩ := h.newcomers.atFirst a ha
      rw [h.world_eq, h.newcomers.situation_atStart ha]
      refine ⟨?_, rfl⟩
      rintro b ⟨⟩
      exact ⟨rfl, by rw [hsegment]; rfl⟩
  | @skip s told hs ih =>
      rw [(hs.reachable.sound h.sound).situation_fastForward]
      exact ih
  | @step s next told bus bus' record hs hstep ih =>
      have hsound := hs.reachable.sound h.sound
      obtain ⟨kinds, hsteps, hrecord⟩ := hsound.stepsTo_of_step hstep a.id
      rw [Journal.ofAgent_append, hrecord]
      exact hsteps.planned (City.Sound.valid hsound a.id) ((hs.journaled h).drives a.id) ih

end Simulation

end Thoroughfare

import Mathlib.Data.List.Induction
import Thoroughfare.Delay.Table
import Thoroughfare.Proofs.Delay.Journals
import Thoroughfare.Proofs.Delay.Sums

/-!
# A table of delays keeps its accounts

A table that hears the events of many agents, however they are mixed, has a row for each of them
that goes with its journal alone, as long as every event is one that the journal of its agent may go
on with.  Then no difference that the table works out is cut off at zero, whatever delay it books
for a link it also books for a trip, and every entry of a link is a traversal that is over or one
that goes on.
-/

namespace Thoroughfare

/-- The seconds that nobody can undercut on a link. -/
def Network.freeFlowSecs (g : Network) (link : LinkId) : Nat :=
  (g.link? link).elim 0 Link.freeFlowSecs

variable {free : LinkId → Nat}

/-! ## Trips and outings -/

/-- The delay on the present link of a trip, when it is left at a second. -/
def OpenTrip.closingDelay (free : LinkId → Nat) (trip : OpenTrip) (time : Nat) : Nat :=
  trip.onLink?.elim 0 fun stop => time - stop.2 - free stop.1

/-- A trip goes with an outing: whenever the present link is left, the seconds since the departure
are those on the first link, those of free traffic on the other links, and the delay. -/
structure OpenTrip.Tracks (free : LinkId → Nat) (trip : OpenTrip) (o : Outing) : Prop where
  departed : trip.departed = o.departed
  onLink?_eq : trip.onLink? = o.later.getLast?
  delay : ∀ time, o.MayLeave free time → o.departed ≤ o.leftFirst time ∧
    o.leftFirst time + o.freeSecs free + (trip.delaySecs + trip.closingDelay free time) = time

namespace OpenTrip.Tracks

variable {trip : OpenTrip} {o : Outing} {link : LinkId} {time : Nat}

theorem departs (free : LinkId → Nat) (link : LinkId) (time : Nat) :
    Tracks free ⟨time, none, 0⟩ ⟨link, time, []⟩ :=
  ⟨rfl, rfl, fun _ hleave => ⟨hleave.departed, rfl⟩⟩

theorem enters (h : trip.Tracks free o) (hleave : o.MayLeave free time) (link : LinkId) :
    Tracks free ⟨trip.departed, some (link, time), trip.delaySecs + trip.closingDelay free time⟩
      (o.entering link time) := by
  obtain ⟨hfirst, hsum⟩ := h.delay time hleave
  refine ⟨h.departed, by simp [Outing.entering], fun later hlater => ?_⟩
  have hstayed : time + free link ≤ later := hlater.stayed link time (by simp [Outing.entering])
  rw [Outing.leftFirst_entering, Outing.freeSecs_entering]
  refine ⟨hfirst, ?_⟩
  change o.leftFirst time + (o.freeSecs free + free link) +
    (trip.delaySecs + trip.closingDelay free time + (later - time - free link)) = later
  omega

end OpenTrip.Tracks

/-- What the completed trips of an agent took is what its drives took: the seconds on the first
links, those of free traffic on the other links, and the delay. -/
structure AgentDelay.SumsUp (free : LinkId → Nat) (d : AgentDelay) (past : List Drive) : Prop where
  trips : d.trips = past.length
  travelSecs : d.travelSecs = (past.map Drive.travelSecs).sum
  decomposes : d.travelSecs = d.delaySecs +
    (past.map fun drive => drive.outing.freeSecs free).sum +
    (past.map Drive.firstSecs).sum

namespace AgentDelay.SumsUp

theorem zero (free : LinkId → Nat) : SumsUp free .zero [] :=
  ⟨rfl, rfl, rfl⟩

/-- A trip that is completed goes with a drive that is over. -/
theorem completed {d? : Option AgentDelay} {past : List Drive} {trip : OpenTrip} {o : Outing}
    {time : Nat} (h : SumsUp free (d?.getD .zero) past) (htrip : trip.Tracks free o)
    (hleave : o.MayLeave free time) :
    SumsUp free (DelayTable.completed d? (time - trip.departed)
      (trip.delaySecs + trip.closingDelay free time)) (past ++ [⟨o, time⟩]) := by
  obtain ⟨htrips, htravel, hdecomposes⟩ := h
  obtain ⟨hfirst, hsum⟩ := htrip.delay time hleave
  have hdeparted := hleave.departed
  constructor
  · simp [DelayTable.completed, htrips]
  · simp [DelayTable.completed, htravel, Drive.travelSecs, htrip.departed]
  · simp only [DelayTable.completed, List.map_append, List.map_singleton, List.sum_append_nat,
      List.sum_cons, List.sum_nil, Drive.firstSecs, htrip.departed]
    omega

end AgentDelay.SumsUp

/-! ## One row more -/

section Tables

variable {kind : Entity} {β : Type} {t : Std.ExtTreeMap (Ident kind) β} {k : Ident kind}
  {f : β → Nat}

/-- A row that is put in where there was none adds what it counts. -/
theorem sumOver_insert_of_none {v : β} (hnone : t[k]? = none) :
    sumOver f (t.insert k v) = sumOver f t + f v := by
  rw [sumOver_insert, sumOver_split f t k, hnone, Option.elim_none, Nat.zero_add, Nat.add_comm]

/-- A row that grows adds what it grows by. -/
theorem sumOver_alter_getD (zero : β) (grow : β → β) {gain : Nat} (hzero : f zero = 0)
    (hgrow : ∀ v, f (grow v) = f v + gain) :
    sumOver f (t.alter k fun v? => some (grow (v?.getD zero))) = sumOver f t + gain := by
  have hrow : f (t[k]?.getD zero) = t[k]?.elim 0 f := by cases t[k]? <;> simp [hzero]
  rw [sumOver_alter, sumOver_split f t k, Option.elim_some, hgrow, hrow, Nat.add_right_comm]

end Tables

namespace DelayTable

variable {t : DelayTable} {trip : OpenTrip} {j : Journal} {e : Event} {id : AgentId}
  {link left : LinkId} {time : Nat}

/-- Whether a table knows the seconds that nobody can undercut on a link. -/
def Knows (t : DelayTable) (free : LinkId → Nat) : Prop :=
  ∀ link, t.freeFlow.getD link.index 0 = free link

/-- What the completed trips of an agent took. -/
def delayOf (t : DelayTable) (id : AgentId) : AgentDelay :=
  t.agents[id]?.getD .zero

/-! ## What an event does -/

theorem trips_close : (t.close trip time).2.trips = t.trips := by
  unfold close
  split <;> rfl

theorem agents_close : (t.close trip time).2.agents = t.agents := by
  unfold close
  split <;> rfl

theorem setting_close : (t.close trip time).2.freeFlow = t.freeFlow ∧
    (t.close trip time).2.binSecs = t.binSecs := by
  unfold close
  split <;> exact ⟨rfl, rfl⟩

theorem fst_close (hknows : t.Knows free) :
    (t.close trip time).1 = trip.delaySecs + trip.closingDelay free time := by
  unfold close OpenTrip.closingDelay
  split
  · rename_i hnone
    rw [hnone]
    rfl
  · rename_i link entered hlink
    rw [hlink, Option.elim_some, delayOn, hknows]

/-- A traversal is booked for its link. -/
theorem sumOver_links_count (t : DelayTable) (link : LinkId) (left delaySecs : Nat) :
    sumOver DelayTotals.delaySecs (t.count link left delaySecs).links =
        sumOver DelayTotals.delaySecs t.links + delaySecs ∧
      sumOver DelayTotals.traversals (t.count link left delaySecs).links =
        sumOver DelayTotals.traversals t.links + 1 :=
  ⟨sumOver_alter_getD DelayTotals.zero (fun totals => totals.add delaySecs) rfl fun _ => rfl,
    sumOver_alter_getD DelayTotals.zero (fun totals => totals.add delaySecs) rfl fun _ => rfl⟩

theorem sumOver_links_close (hknows : t.Knows free) (trip : OpenTrip) (time : Nat) :
    sumOver DelayTotals.delaySecs (t.close trip time).2.links =
        sumOver DelayTotals.delaySecs t.links + trip.closingDelay free time ∧
      sumOver DelayTotals.traversals (t.close trip time).2.links =
        sumOver DelayTotals.traversals t.links + trip.onLink?.isSome.toNat := by
  unfold close OpenTrip.closingDelay
  split
  · rename_i hnone
    rw [hnone]
    exact ⟨rfl, rfl⟩
  · rename_i link entered hlink
    rw [hlink, Option.elim_some, delayOn, hknows]
    exact sumOver_links_count t link time _

theorem record_of_quiet (h : e.kind.isTravel = false) : t.record e = t := by
  unfold record
  cases hkind : e.kind <;> rw [hkind] at h <;> first | rfl | cases h

theorem record_linkEnter (h : t.trips[id]? = some trip) :
    t.record ⟨time, id, .linkEnter left link⟩ =
      { (t.close trip time).2 with
        trips := t.trips.insert id ⟨trip.departed, some (link, time), (t.close trip time).1⟩ } := by
  simp only [record, h, trips_close]

theorem record_arrival (h : t.trips[id]? = some trip) :
    t.record ⟨time, id, .arrival link⟩ =
      { (t.close trip time).2 with
        trips := t.trips.erase id
        agents := t.agents.alter id fun totals? =>
          some (completed totals? (time - trip.departed) (t.close trip time).1) } := by
  simp only [record, h, trips_close, agents_close]

/-- An event changes neither the free travel times nor the bins. -/
theorem setting_record (t : DelayTable) (e : Event) :
    (t.record e).freeFlow = t.freeFlow ∧ (t.record e).binSecs = t.binSecs := by
  unfold record
  split
  · exact ⟨rfl, rfl⟩
  · split
    · exact ⟨rfl, rfl⟩
    · exact setting_close
  · split
    · exact ⟨rfl, rfl⟩
    · exact setting_close
  · exact ⟨rfl, rfl⟩

theorem Knows.record (h : t.Knows free) (e : Event) : (t.record e).Knows free := by
  intro link
  rw [(setting_record t e).1]
  exact h link

/-- An event concerns only the row of its agent. -/
theorem rows_record_of_ne (h : e.agent ≠ id) :
    (t.record e).trips[id]? = t.trips[id]? ∧ (t.record e).agents[id]? = t.agents[id]? := by
  obtain ⟨time, agent, kind⟩ := e
  have hne : agent ≠ id := h
  cases kind with
  | departure link => exact ⟨getElem?_insert_ident.trans (if_neg hne), rfl⟩
  | linkEnter left link =>
      cases htrip : t.trips[agent]? with
      | none => simp [record, htrip]
      | some trip =>
          rw [record_linkEnter htrip]
          refine ⟨getElem?_insert_ident.trans (if_neg hne), ?_⟩
          simp only [agents_close]
  | arrival link =>
      cases htrip : t.trips[agent]? with
      | none => simp [record, htrip]
      | some trip =>
          rw [record_arrival htrip]
          exact ⟨getElem?_erase_ident.trans (if_neg hne),
            getElem?_alter_ident.trans (if_neg hne)⟩
  | _ => exact ⟨rfl, rfl⟩

/-! ## The row of one agent -/

/-- What a table says of an agent goes with the journal of the agent. -/
structure Accounts (free : LinkId → Nat) (t : DelayTable) (id : AgentId) (j : Journal) :
    Prop where
  idle : j.present? = none → t.trips[id]? = none
  busy : ∀ o, j.present? = some o → ∃ trip, t.trips[id]? = some trip ∧ trip.Tracks free o
  totals : (t.delayOf id).SumsUp free j.past

theorem Accounts.record_of_ne (h : t.Accounts free id j) (hne : e.agent ≠ id) :
    (t.record e).Accounts free id j := by
  obtain ⟨htrip, hagent⟩ := rows_record_of_ne (t := t) hne
  refine ⟨fun hnone => ?_, fun o ho => ?_, ?_⟩
  · rw [htrip]
    exact h.idle hnone
  · rw [htrip]
    exact h.busy o ho
  · rw [delayOf, hagent]
    exact h.totals

/-- Whoever leaves a link is on a trip, and nothing that is worked out then is cut off. -/
theorem Accounts.exists_trip (h : t.Accounts free e.agent j) (hallows : j.Allows free e)
    {left : LinkId} (hleaves : e.kind.vacated? = some left) :
    ∃ trip o, t.trips[e.agent]? = some trip ∧ j.present? = some o ∧ trip.Tracks free o ∧
      o.MayLeave free e.time := by
  obtain ⟨o, ho, -, hleave⟩ := hallows.leaves left hleaves
  obtain ⟨trip, htrip, htracks⟩ := h.busy o ho
  exact ⟨trip, o, htrip, ho, htracks, hleave⟩

/-- The row of an agent goes on with its journal. -/
theorem Accounts.record (h : t.Accounts free e.agent j) (hknows : t.Knows free)
    (hallows : j.Allows free e) : (t.record e).Accounts free e.agent (j.note e) := by
  by_cases hquiet : e.kind.isTravel = false
  · rw [record_of_quiet hquiet, Journal.note_of_quiet hquiet]
    exact h
  obtain ⟨time, id, kind⟩ := e
  cases kind with
  | departure link =>
      refine ⟨nofun, fun o ho => ⟨⟨time, none, 0⟩, ?_, ?_⟩, h.totals⟩
      · exact getElem?_insert_ident.trans (if_pos rfl)
      · cases ho
        exact .departs free link time
  | linkEnter left link =>
      obtain ⟨trip, o, htrip, ho, htracks, hleave⟩ := h.exists_trip hallows rfl
      rw [record_linkEnter htrip, Journal.note_linkEnter ho, fst_close hknows]
      refine ⟨nofun, fun other hother => ⟨_, getElem?_insert_ident.trans (if_pos rfl), ?_⟩, ?_⟩
      · cases hother
        exact htracks.enters hleave link
      · simp only [delayOf, agents_close]
        exact h.totals
  | arrival link =>
      obtain ⟨trip, o, htrip, ho, htracks, hleave⟩ := h.exists_trip hallows rfl
      rw [record_arrival htrip, Journal.note_arrival ho, fst_close hknows]
      refine ⟨fun _ => getElem?_erase_ident.trans (if_pos rfl), nofun, ?_⟩
      have hrow := h.totals.completed htracks hleave
      simp only [delayOf, getElem?_alter_ident, if_true, Option.getD_some]
      exact hrow
  | _ => exact absurd rfl hquiet

/-! ## The sums of all rows -/

/-- The delay of all links is that of all completed trips and of those that are not over, and the
entries are the traversals that are over and those that are not. -/
structure Balanced (t : DelayTable) (moves : Nat) : Prop where
  delay : sumOver DelayTotals.delaySecs t.links =
    sumOver AgentDelay.delaySecs t.agents + sumOver OpenTrip.delaySecs t.trips
  traversals : sumOver DelayTotals.traversals t.links +
    sumOver (fun trip => trip.onLink?.isSome.toNat) t.trips = moves

namespace Balanced

variable {moves : Nat}

/-- A trip that begins has neither a link nor a delay yet. -/
theorem departs (h : t.Balanced moves) (hnone : t.trips[id]? = none) :
    (t.record ⟨time, id, .departure link⟩).Balanced moves := by
  have hsame : ∀ f : OpenTrip → Nat, f ⟨time, none, 0⟩ = 0 →
      sumOver f (t.record ⟨time, id, .departure link⟩).trips = sumOver f t.trips := by
    intro f hf
    rw [record, sumOver_insert_of_none hnone, hf, Nat.add_zero]
  constructor
  · rw [hsame _ rfl]
    exact h.delay
  · rw [hsame _ rfl]
    exact h.traversals

/-- When a trip leaves its link, what the links have gained is what the trip takes with it, and
all entries but those of the other trips are over. -/
theorem close (h : t.Balanced moves) (hknows : t.Knows free) (htrip : t.trips[id]? = some trip)
    (time : Nat) :
    sumOver DelayTotals.delaySecs (t.close trip time).2.links =
        sumOver AgentDelay.delaySecs t.agents +
          (trip.delaySecs + trip.closingDelay free time) +
          sumOver OpenTrip.delaySecs (t.trips.erase id) ∧
      sumOver DelayTotals.traversals (t.close trip time).2.links +
        sumOver (fun trip => trip.onLink?.isSome.toNat) (t.trips.erase id) = moves := by
  obtain ⟨hdelay, htraversals⟩ := h
  obtain ⟨hlinks, hcounts⟩ := sumOver_links_close hknows trip time
  have htrips := sumOver_split OpenTrip.delaySecs t.trips id
  have hentered := sumOver_split (fun trip => trip.onLink?.isSome.toNat) t.trips id
  rw [htrip, Option.elim_some] at htrips hentered
  constructor <;> omega

theorem enters (h : t.Balanced moves) (hknows : t.Knows free)
    (htrip : t.trips[id]? = some trip) :
    (t.record ⟨time, id, .linkEnter left link⟩).Balanced (moves + 1) := by
  obtain ⟨hdelay, htraversals⟩ := h.close hknows htrip time
  rw [record_linkEnter htrip, fst_close hknows]
  constructor
  · rw [hdelay, agents_close, sumOver_insert, Nat.add_assoc]
  · simp only [sumOver_insert, Option.isSome_some, Bool.toNat_true]
    omega

theorem arrives (h : t.Balanced moves) (hknows : t.Knows free)
    (htrip : t.trips[id]? = some trip) :
    (t.record ⟨time, id, .arrival link⟩).Balanced moves := by
  obtain ⟨hdelay, htraversals⟩ := h.close hknows htrip time
  rw [record_arrival htrip, fst_close hknows]
  refine ⟨?_, htraversals⟩
  have hagents : sumOver AgentDelay.delaySecs (t.agents.alter id fun totals? =>
        some (completed totals? (time - trip.departed)
          (trip.delaySecs + trip.closingDelay free time))) =
      sumOver AgentDelay.delaySecs t.agents + (trip.delaySecs + trip.closingDelay free time) :=
    sumOver_alter_getD AgentDelay.zero (fun totals => completed (some totals)
      (time - trip.departed) (trip.delaySecs + trip.closingDelay free time)) rfl fun _ => rfl
  rw [hdelay, hagents]

theorem record (h : t.Balanced moves) (hknows : t.Knows free)
    (haccounts : t.Accounts free e.agent j) (hallows : j.Allows free e) :
    (t.record e).Balanced (moves + e.kind.isMove.toNat) := by
  by_cases hquiet : e.kind.isTravel = false
  · rw [record_of_quiet hquiet]
    cases hkind : e.kind <;> rw [hkind] at hquiet <;> first | exact h | cases hquiet
  obtain ⟨time, id, kind⟩ := e
  cases kind with
  | departure link => exact h.departs (haccounts.idle (hallows.departs rfl))
  | linkEnter left link =>
      obtain ⟨trip, o, htrip, -⟩ := haccounts.exists_trip hallows rfl
      exact h.enters hknows htrip
  | arrival link =>
      obtain ⟨trip, o, htrip, -⟩ := haccounts.exists_trip hallows rfl
      exact h.arrives hknows htrip
  | _ => exact absurd rfl hquiet

end Balanced

/-! ## All that is told -/

/-- Nothing that a table works out when it hears an event is lost or cut off at zero. -/
structure LosesNothing (free : LinkId → Nat) (t : DelayTable) (e : Event) : Prop where
  departs : e.kind.isDeparture = true → t.trips[e.agent]? = none
  leaves : e.kind.vacated?.isSome = true → ∃ trip, t.trips[e.agent]? = some trip ∧
    trip.departed ≤ e.time ∧ ∀ link entered, trip.onLink? = some (link, entered) →
      entered + free link + t.delayOn link entered e.time = e.time

theorem Accounts.losesNothing (h : t.Accounts free e.agent j) (hknows : t.Knows free)
    (hallows : j.Allows free e) : t.LosesNothing free e := by
  refine ⟨fun hdeparts => h.idle (hallows.departs hdeparts), fun hleaves => ?_⟩
  obtain ⟨left, hleft⟩ := Option.isSome_iff_exists.1 hleaves
  obtain ⟨trip, o, htrip, -, htracks, hleave⟩ := h.exists_trip hallows hleft
  refine ⟨trip, htrip, ?_, fun link entered hlink => ?_⟩
  · rw [htracks.departed]
    exact hleave.departed
  · rw [htracks.onLink?_eq] at hlink
    have hstayed := hleave.stayed link entered hlink
    rw [delayOn, hknows]
    omega

def recordAll (t : DelayTable) (told : List Event) : DelayTable :=
  told.foldl DelayTable.record t

theorem recordAll_concat (t : DelayTable) (told : List Event) (e : Event) :
    t.recordAll (told ++ [e]) = (t.recordAll told).record e := by
  rw [recordAll, List.foldl_append]
  rfl

/-- The table of a network knows what the network says. -/
theorem knows_empty (g : Network) (binSecs : Nat) :
    (empty g binSecs).Knows g.freeFlowSecs := by
  intro link
  rw [empty, Network.freeFlowSecs, Network.link?, Array.getD_eq_getD_getElem?, Array.getElem?_map]
  cases g.links[link.index]? <;> rfl

theorem Knows.recordAll (h : t.Knows free) (told : List Event) : (t.recordAll told).Knows free := by
  induction told generalizing t with
  | nil => exact h
  | cons e rest ih => exact ih (h.record e)

/-- A table that hears what makes up journals has a row for each of them, and its sums agree. -/
theorem accounts_recordAll {g : Network} {told : List Event} (h : Orderly g.freeFlowSecs told)
    (binSecs : Nat) :
    (∀ id, ((empty g binSecs).recordAll told).Accounts g.freeFlowSecs id
        (Journal.ofAgent id told)) ∧
      ((empty g binSecs).recordAll told).Balanced (told.countP fun e => e.kind.isMove) := by
  induction told using List.reverseRecOn with
  | nil =>
      refine ⟨fun id => ⟨fun _ => ?_, nofun, ?_⟩, ?_, ?_⟩
      · exact Std.ExtTreeMap.getElem?_empty
      · rw [delayOf, recordAll, List.foldl_nil, empty, Std.ExtTreeMap.getElem?_empty]
        exact .zero g.freeFlowSecs
      · simp [recordAll, empty]
      · simp [recordAll, empty]
  | append_singleton told e ih =>
      obtain ⟨haccounts, hbalanced⟩ := ih h.of_append
      have hknows := (knows_empty g binSecs).recordAll told
      rw [recordAll_concat]
      refine ⟨fun id => ?_, ?_⟩
      · by_cases hid : e.agent = id
        · subst hid
          rw [Journal.ofAgent_concat_self]
          exact (haccounts e.agent).record hknows h.allows
        · rw [Journal.ofAgent_concat_of_ne hid]
          exact (haccounts id).record_of_ne hid
      · have hcount : ((told ++ [e]).countP fun e => e.kind.isMove) =
            (told.countP fun e => e.kind.isMove) + e.kind.isMove.toNat := by
          rw [List.countP_append, List.countP_singleton]
          cases e.kind.isMove <;> rfl
        rw [hcount]
        exact hbalanced.record hknows (haccounts e.agent) h.allows

end DelayTable

end Thoroughfare

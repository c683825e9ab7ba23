import Thoroughfare.Event.Bus
import Thoroughfare.Proofs.Event.Keys
import Thoroughfare.Proofs.InPlace

/-!
# Deliveries of the event bus

The bus calls its subscribers one after the other, for one event after the other, and counts the
events when all subscribers have heard of them.  It looks only at the first of the merged events to
see whether one of them is too old, and has called nobody by then.  So whatever steps it is given,
those that it takes are delivered to all subscribers as one sequence of events in the order of their
times, and nobody ever hears of the others.
-/

namespace Thoroughfare

/-- What the bus is given at the end of a step. -/
structure Publication where
  time : Nat
  batches : List (List Event)
deriving DecidableEq, Repr

namespace Publication

/-- The events of a step, in the order in which they are delivered. -/
def events (p : Publication) : List Event :=
  Event.merge p.batches

def notices (p : Publication) : List Notice :=
  Bus.stepNotices p.events p.time

theorem arranges_events (p : Publication) : Event.Arranges p.events p.batches :=
  Event.arranges_merge p.batches

end Publication

/-! ## What subscribers hear -/

/-- The event of which a notice tells. -/
def Notice.event? : Notice → Option Event
  | event e => some e
  | _ => none

namespace Bus

variable {b b' : Bus} {events : List Event} {batches : List (List Event)}

theorem filterMap_stepNotices (events : List Event) (time : Nat) :
    (stepNotices events time).filterMap Notice.event? = events := by
  rw [stepNotices, List.filterMap_append, List.filterMap_map]
  exact (List.append_nil _).trans List.filterMap_some

/-- The notices of some steps tell of the events of these steps. -/
theorem filterMap_flatMap_stepNotices {β : Type} (events : β → List Event) (time : β → Nat)
    (steps : List β) :
    (steps.flatMap fun step => stepNotices (events step) (time step)).filterMap Notice.event? =
      steps.flatMap events := by
  rw [List.filterMap_flatMap]
  simp only [filterMap_stepNotices]

theorem tell_congr (h : b.subscribers = b'.subscribers) : b.tell = b'.tell := by
  funext notice
  rw [tell, tell, h]

theorem flatMap_stepNotices (b : Bus) (events : List Event) (time : Nat) :
    (stepNotices events time).flatMap b.tell =
      (events.flatMap fun e => b.tell (.event e)) ++ b.tell (.stepEnd time) := by
  rw [stepNotices, List.flatMap_append, List.flatMap_map, List.flatMap_singleton]

theorem noticesTo_tell {subscriber : Nat} (h : subscriber < b.subscribers) (notice : Notice) :
    noticesTo subscriber (b.tell notice) = [notice] := by
  have hone : (List.range b.subscribers).filter (fun other => other = subscriber) =
      [subscriber] := by
    rw [List.filter_eq, List.count_eq_one_of_mem List.nodup_range (List.mem_range.2 h)]
    rfl
  rw [noticesTo, tell, List.filter_map, List.map_map]
  exact congrArg (List.map _) hone

/-- Every subscriber hears all notices, in their order. -/
theorem noticesTo_flatMap_tell {subscriber : Nat} (h : subscriber < b.subscribers)
    (notices : List Notice) : noticesTo subscriber (notices.flatMap b.tell) = notices := by
  induction notices with
  | nil => rfl
  | cons notice rest ih =>
      have hone := noticesTo_tell h notice
      rw [noticesTo] at hone ih
      rw [noticesTo, List.flatMap_cons, List.filter_append, List.map_append, hone, ih]
      rfl

/-- None of the events of a step is older than the last one delivered. -/
def Timely (b : Bus) (batches : List (List Event)) : Prop :=
  ∀ last, b.lastTime = some last → ∀ e ∈ batches.flatten, last ≤ e.time

/-- Some event of a step is older than the last one delivered just if the first of them all is. -/
theorem tooOld?_cases (b : Bus) (h : Event.Arranges events batches) :
    (b.tooOld? events = none ∧ b.Timely batches) ∨
    ∃ last, ∃ oldest ∈ batches.flatten, b.lastTime = some last ∧ oldest.time < last ∧
      (∀ e ∈ batches.flatten, oldest.time ≤ e.time) ∧
      b.tooOld? events = some ⟨last, oldest.time⟩ := by
  rcases hlast : b.lastTime with _ | last
  · refine Or.inl ⟨?_, fun _ hsome => absurd (hlast.symm.trans hsome) nofun⟩
    rw [tooOld?, hlast]
  cases events with
  | nil =>
      refine Or.inl ⟨?_, fun _ _ e he => absurd (h.perm.mem_iff.2 he) List.not_mem_nil⟩
      rw [tooOld?, hlast]
      rfl
  | cons first rest =>
      have hfirst : ∀ e ∈ batches.flatten, first.time ≤ e.time := by
        intro e he
        rcases List.mem_cons.1 (h.perm.mem_iff.2 he) with rfl | hrest
        · exact Nat.le_refl _
        · exact Event.time_le_of_key_le ((List.pairwise_cons.1 h.ascending).1 e hrest)
      have hmem : first ∈ batches.flatten := h.perm.mem_iff.1 List.mem_cons_self
      rw [tooOld?, hlast]
      by_cases hold : first.time < last
      · exact Or.inr ⟨last, first, hmem, rfl, hold, hfirst, if_pos hold⟩
      · refine Or.inl ⟨if_neg hold, fun last' hlast' e he => ?_⟩
        cases hlast.symm.trans hlast'
        exact Nat.le_trans (Nat.not_lt.1 hold) (hfirst e he)

end Bus

/-- A bus, and the calls that it has made so far. -/
structure Broadcast where
  bus : Bus
  calls : List Call
deriving DecidableEq, Repr

namespace Broadcast

variable {x : Broadcast} {p : Publication} {subscribers : Nat} {told : List Publication}

/-- A bus that has called nobody yet. -/
def new (subscribers : Nat) : Broadcast :=
  ⟨.new subscribers, []⟩

/-! ## Steps in place -/

/-- Hand a notice to a subscriber. -/
def call (notice : Notice) (subscriber : Nat) : EStateM OutOfOrder Broadcast Unit :=
  modify fun x => { x with calls := x.calls ++ [⟨subscriber, notice⟩] }

/-- Call all subscribers, one after the other. -/
def tell (notice : Notice) : EStateM OutOfOrder Broadcast Unit := do
  for subscriber in List.range (← get).bus.subscribers do
    call notice subscriber

/-- Refuse the events of a step if the first of them is too old. -/
def refuseOld (events : List Event) : EStateM OutOfOrder Broadcast Unit := do
  match (← get).bus.lastTime, events.head? with
  | some last, some first => if first.time < last then throw ⟨last, first.time⟩
  | _, _ => return ()

/-- Count the events of a step, and keep the time of the last of them. -/
def count (events : List Event) : EStateM OutOfOrder Broadcast Unit := do
  if let some last := events.getLast? then
    modify fun x => { x with bus := { x.bus with lastTime := some last.time } }
  modify fun x => { x with bus := { x.bus with emitted := x.bus.emitted + events.length } }

/-- Deliver the events of a step to all subscribers, one event after the other, and answer how many
there are. -/
def publish (p : Publication) : EStateM OutOfOrder Broadcast Nat := do
  let events := Event.merge p.batches
  refuseOld events
  for e in events do
    tell (.event e)
  tell (.stepEnd p.time)
  count events
  return events.length

/-- A loop that only makes calls makes those of one item after the other. -/
theorem run_forIn {β : Type} (act : β → EStateM OutOfOrder Broadcast Unit)
    (made : Bus → β → List Call) (hact : ∀ item x,
      (act item).run x = .ok () { x with calls := x.calls ++ made x.bus item })
    (items : List β) (x : Broadcast) :
    EStateM.run (forIn items () fun item _ => do
      act item
      pure (ForInStep.yield ())) x =
      .ok () { x with calls := x.calls ++ items.flatMap (made x.bus) } := by
  induction items generalizing x with
  | nil =>
      rw [List.flatMap_nil, List.append_nil]
      rfl
  | cons first rest ih =>
      rw [List.forIn_cons, List.flatMap_cons, ← List.append_assoc, bind_assoc]
      simp only [EStateM.run_bind, hact, pure_bind]
      exact ih _

theorem run_tell (notice : Notice) (x : Broadcast) :
    (tell notice).run x = .ok () { x with calls := x.calls ++ x.bus.tell notice } := by
  have hloop := run_forIn (call notice) (fun _ subscriber => [⟨subscriber, notice⟩])
    (fun _ _ => rfl) (List.range x.bus.subscribers) x
  rw [Bus.tell, List.map_eq_flatMap, tell]
  simp only [EStateM.run_bind, EStateM.run_get, hloop]
  rfl

theorem run_refuseOld (events : List Event) (x : Broadcast) :
    (refuseOld events).run x = (x.bus.tooOld? events).elim (.ok () x) fun e => .error e x := by
  rw [refuseOld, Bus.tooOld?]
  simp only [EStateM.run_bind, EStateM.run_get]
  rcases hlast : x.bus.lastTime with _ | last
  · rfl
  rcases hfirst : events.head? with _ | first
  · rfl
  by_cases hold : first.time < last
  · simp only [hold, if_true]
    rfl
  · simp only [hold, if_false]
    rfl

theorem run_count (events : List Event) (x : Broadcast) :
    (count events).run x = .ok () { x with bus := x.bus.delivered events } := by
  rw [count, Bus.delivered]
  cases events.getLast? <;> rfl

/-- A step is delivered as a whole or not at all. -/
theorem publish_eq (p : Publication) :
    publish p = InPlace.atomically fun x =>
      (x.bus.publish p.time p.batches).map fun (calls, bus) =>
        (p.events.length, ⟨bus, x.calls ++ calls⟩) := by
  funext x
  change (publish p).run x = _
  have hloop := run_forIn (fun e => tell (.event e)) (fun bus e => bus.tell (.event e))
    (fun e => run_tell (.event e)) (Event.merge p.batches) x
  cases hold : x.bus.tooOld? (Event.merge p.batches) with
  | none =>
    simp only [publish, EStateM.run_bind, run_refuseOld, run_tell, run_count, InPlace.atomically,
      Bus.publish, Bus.accept, Bus.flatMap_stepNotices, hold, Option.elim_none, hloop,
      List.append_assoc]
    rfl
  | some e =>
    simp only [publish, EStateM.run_bind, run_refuseOld, InPlace.atomically, Bus.publish,
      Bus.accept, hold]
    rfl

/-- A broadcast that has gone on with a step. -/
def followedBy (x : Broadcast) (p : Publication) : Broadcast :=
  ⟨x.bus.delivered p.events, x.calls ++ p.notices.flatMap x.bus.tell⟩

/-- A step is refused just if one of its events is older than the last one delivered. -/
theorem publish_cases (p : Publication) (x : Broadcast) :
    (x.bus.Timely p.batches ∧ (publish p).run x = .ok p.events.length (x.followedBy p)) ∨
    ∃ last, ∃ oldest ∈ p.batches.flatten, x.bus.lastTime = some last ∧ oldest.time < last ∧
      (∀ e ∈ p.batches.flatten, oldest.time ≤ e.time) ∧
      (publish p).run x = .error ⟨last, oldest.time⟩ x := by
  rw [publish_eq]
  obtain ⟨haccept, htimely⟩ | ⟨last, oldest, hmem, hlast, hold, holdest, hrefuse⟩ :=
    x.bus.tooOld?_cases p.arranges_events
  · refine Or.inl ⟨htimely, InPlace.run_atomically_of_ok ?_⟩
    rw [Publication.events] at haccept
    rw [Bus.publish, Bus.accept, haccept]
    rfl
  · refine Or.inr ⟨last, oldest, hmem, hlast, hold, holdest, InPlace.run_atomically_of_error ?_⟩
    rw [Publication.events] at hrefuse
    rw [Bus.publish, Bus.accept, hrefuse]
    rfl

/-! ## One sequence of events -/

/-- All that has been delivered is one sequence of events, in the order of their times. -/
structure Delivers (subscribers : Nat) (x : Broadcast) (told : List Publication) : Prop where
  subscribers_eq : x.bus.subscribers = subscribers
  /-- Every notice of the steps so far went to all subscribers, before the next one went to any. -/
  calls_eq : x.calls = (told.flatMap Publication.notices).flatMap (Bus.new subscribers).tell
  ascending : (told.flatMap Publication.events).Pairwise fun a b => a.time ≤ b.time
  emitted_eq : x.bus.emitted = (told.flatMap Publication.events).length
  lastTime_eq : x.bus.lastTime = (told.flatMap Publication.events).getLast?.map (·.time)

theorem delivers_new (subscribers : Nat) : (new subscribers).Delivers subscribers [] :=
  ⟨rfl, rfl, List.Pairwise.nil, rfl, rfl⟩

/-- All subscribers hear the same. -/
theorem Delivers.noticesTo_calls (h : x.Delivers subscribers told) {subscriber : Nat}
    (hsubscriber : subscriber < subscribers) :
    noticesTo subscriber x.calls = told.flatMap Publication.notices := by
  rw [h.calls_eq]
  exact Bus.noticesTo_flatMap_tell hsubscriber _

/-- No event that was delivered is younger than the last one. -/
theorem Delivers.le_lastTime (h : x.Delivers subscribers told) {e : Event}
    (he : e ∈ told.flatMap Publication.events) :
    ∃ last, x.bus.lastTime = some last ∧ e.time ≤ last := by
  have hascending := h.ascending
  obtain hnil | ⟨front, last, hsplit⟩ := (told.flatMap Publication.events).eq_nil_or_concat'
  · rw [hnil] at he
    cases he
  · rw [hsplit, List.mem_append, List.mem_singleton] at he
    rw [hsplit] at hascending
    refine ⟨last.time, ?_, ?_⟩
    · rw [h.lastTime_eq, hsplit, List.getLast?_concat]
      rfl
    · rcases he with hfront | rfl
      · exact (List.pairwise_append.1 hascending).2.2 e hfront last List.mem_cons_self
      · exact Nat.le_refl _

/-- What has been delivered goes on with the events of a step none of which is too old. -/
theorem Delivers.followedBy (h : x.Delivers subscribers told) (htimely : x.bus.Timely p.batches) :
    (x.followedBy p).Delivers subscribers (told ++ [p]) where
  subscribers_eq := h.subscribers_eq
  calls_eq := by
    have htell : x.bus.tell = (Bus.new subscribers).tell := Bus.tell_congr h.subscribers_eq
    rw [Broadcast.followedBy, h.calls_eq, htell, List.flatMap_append, List.flatMap_append,
      List.flatMap_singleton]
  ascending := by
    rw [List.flatMap_append, List.flatMap_singleton, List.pairwise_append]
    refine ⟨h.ascending, p.arranges_events.ascending.imp Event.time_le_of_key_le, ?_⟩
    intro a ha b hb
    obtain ⟨last, hlast, hle⟩ := h.le_lastTime ha
    exact Nat.le_trans hle (htimely last hlast b (p.arranges_events.perm.mem_iff.1 hb))
  emitted_eq := by
    rw [List.flatMap_append, List.flatMap_singleton, List.length_append, ← h.emitted_eq]
    rfl
  lastTime_eq := by
    rw [List.flatMap_append, List.flatMap_singleton, List.getLast?_append, Broadcast.followedBy,
      Bus.delivered, h.lastTime_eq]
    cases p.events.getLast? <;> rfl

theorem delivers_afterAll (subscribers : Nat) (history : List Publication) :
    (InPlace.afterAll publish (new subscribers) history).Delivers subscribers
      (InPlace.granted publish (new subscribers) history) := by
  refine InPlace.afterAll_keeps (Delivers subscribers) ?_ ?_ (delivers_new subscribers) history
  · intro x told p answer x' h hrun
    obtain ⟨htimely, hok⟩ | ⟨_, _, _, _, _, _, herror⟩ := publish_cases p x
    · cases hok.symm.trans hrun
      exact h.followedBy htimely
    · cases herror.symm.trans hrun
  · intro x told p e x' h hrun
    obtain ⟨_, hok⟩ | ⟨_, _, _, _, _, _, herror⟩ := publish_cases p x
    · cases hok.symm.trans hrun
    · cases herror.symm.trans hrun
      exact h

/-- Whatever steps a bus is given, taken or not, although it calls its subscribers one by one and
counts the events afterwards: all subscribers hear the same, the events of the steps that were taken
in the order of their times, each step in the order of the keys with equals as they came and with
one end of the step, and the bus has counted these events and knows the time of the last of them.
It refuses a step just if one of its events is older than that, and then it calls nobody and stays
as it is. -/
theorem deliveries_are_ordered (subscribers : Nat) (history : List Publication) :
    let x := InPlace.afterAll publish (new subscribers) history
    let told := InPlace.granted publish (new subscribers) history
    x.Delivers subscribers told ∧
    (∀ subscriber < subscribers,
      noticesTo subscriber x.calls = told.flatMap Publication.notices) ∧
    ∀ p : Publication, Event.Arranges p.events p.batches ∧
      (x.bus.Timely p.batches →
        (publish p).run x = .ok p.events.length (x.followedBy p)) ∧
      ∀ last e, x.bus.lastTime = some last → e ∈ p.batches.flatten → e.time < last →
        ∃ oldest ∈ p.batches.flatten, (∀ e ∈ p.batches.flatten, oldest.time ≤ e.time) ∧
          (publish p).run x = .error ⟨last, oldest.time⟩ x := by
  intro x told
  have hdelivers : x.Delivers subscribers told := delivers_afterAll subscribers history
  refine ⟨hdelivers, fun _ => hdelivers.noticesTo_calls, fun p => ⟨p.arranges_events, ?_, ?_⟩⟩
  · intro htimely
    obtain ⟨-, hok⟩ | ⟨last, oldest, hmem, hlast, hold, -, -⟩ := publish_cases p x
    · exact hok
    · exact absurd (htimely last hlast oldest hmem) (Nat.not_le.2 hold)
  · intro last e hlast he hold
    obtain ⟨htimely, -⟩ | ⟨last', oldest, hmem, hlast', -, holdest, herror⟩ := publish_cases p x
    · exact absurd (htimely last hlast e he) (Nat.not_le.2 hold)
    · cases hlast.symm.trans hlast'
      exact ⟨oldest, hmem, holdest, herror⟩

/-- Two districts tell of second 5, and the higher agent comes first.  A step with an event of
second 4 is refused then, although another event of it is not too old. -/
theorem deliveries_are_ordered_late :
    let step : Publication := ⟨5, [[⟨5, ⟨2⟩, .finished⟩], [⟨5, ⟨0⟩, .arrival ⟨3⟩⟩]]⟩
    let late : Publication := ⟨6, [[⟨6, ⟨1⟩, .finished⟩, ⟨4, ⟨0⟩, .finished⟩]]⟩
    ∃ x, (publish step).run (new 2) = .ok 2 x ∧ x.bus = ⟨2, some 5, 2⟩ ∧
      noticesTo 1 x.calls =
        [.event ⟨5, ⟨0⟩, .arrival ⟨3⟩⟩, .event ⟨5, ⟨2⟩, .finished⟩, .stepEnd 5] ∧
      (publish late).run x = .error ⟨5, 4⟩ x := by
  intro step late
  have hevents : step.events = [⟨5, ⟨0⟩, .arrival ⟨3⟩⟩, ⟨5, ⟨2⟩, .finished⟩] := by
    simp [step, Publication.events, Event.merge, List.mergeSort,
      List.MergeSort.Internal.splitInTwo, Event.notAfter]
  have hstep := ((deliveries_are_ordered 2 []).2.2 step).2.1 fun _ hnone => nomatch hnone
  rw [hevents] at hstep
  change (publish step).run (new 2) = .ok 2 _ at hstep
  have hbus : ((new 2).followedBy step).bus = ⟨2, some 5, 2⟩ := by
    rw [followedBy, hevents]
    rfl
  have hafter : InPlace.afterAll publish (new 2) [step] = (new 2).followedBy step :=
    (InPlace.after_of_ok hstep).1
  have hgranted : InPlace.granted publish (new 2) [step] = [step] := by
    rw [InPlace.granted, (InPlace.after_of_ok hstep).2]
    rfl
  obtain ⟨-, hheard, hnext⟩ := deliveries_are_ordered 2 [step]
  rw [hafter] at hheard hnext
  obtain ⟨oldest, holdest, hleast, herror⟩ :=
    (hnext late).2.2 5 ⟨4, ⟨0⟩, .finished⟩ (congrArg Bus.lastTime hbus) (by decide) (by decide)
  have htime : oldest.time = 4 := by
    have hle : oldest.time ≤ 4 := hleast ⟨4, ⟨0⟩, .finished⟩ (by decide)
    have hge : ∀ e ∈ late.batches.flatten, 4 ≤ e.time := by decide
    exact Nat.le_antisymm hle (hge oldest holdest)
  refine ⟨(new 2).followedBy step, hstep, hbus, ?_, htime ▸ herror⟩
  rw [hheard 1 (by decide), hgranted, List.flatMap_singleton, Publication.notices, hevents]
  rfl

end Broadcast
end Thoroughfare

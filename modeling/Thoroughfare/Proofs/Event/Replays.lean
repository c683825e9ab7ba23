import Thoroughfare.Event.Log
import Thoroughfare.Proofs.Event.Deliveries

/-!
# Replays of a log

A log keeps the events that it hears and nothing of the ends of the steps.  A replay finds them
again where the time changes, so it tells what was told if every event carries the time of its step
and no two steps have the same time; only of the steps without events nothing is left.
-/

namespace Thoroughfare

/-! ## Steps in order -/

namespace Publication

variable {p q : Publication} {history : List Publication}

/-- A step in which nothing happened. -/
def isSilent (p : Publication) : Bool :=
  p.events.isEmpty

/-- Steps at ascending times, whose events carry the times of the steps. -/
structure InOrder (history : List Publication) : Prop where
  ascending : history.Pairwise fun p q => p.time < q.time
  dated : ∀ p ∈ history, ∀ e ∈ p.batches.flatten, e.time = p.time

/-- The notices of the ends of the steps in which nothing happened. -/
def silentEnds (history : List Publication) : List Notice :=
  (history.filter isSilent).map fun p => .stepEnd p.time

/-- The steps in which something happened. -/
def lively (history : List Publication) : List Publication :=
  history.filter fun p => !p.isSilent

theorem InOrder.time_eq (h : InOrder history) (hp : p ∈ history) {e : Event} (he : e ∈ p.events) :
    e.time = p.time :=
  h.dated p hp e (p.arranges_events.perm.mem_iff.1 he)

theorem InOrder.lively (h : InOrder history) : InOrder (lively history) :=
  ⟨h.ascending.filter _, fun p hp => h.dated p (List.mem_filter.1 hp).1⟩

theorem InOrder.of_cons (h : InOrder (p :: history)) : InOrder history :=
  ⟨(List.pairwise_cons.1 h.ascending).2, fun q hq => h.dated q (List.mem_cons_of_mem _ hq)⟩

theorem events_ne_nil (hp : p ∈ lively history) : p.events ≠ [] := by
  have hlively := (List.mem_filter.1 hp).2
  rintro hnil
  rw [isSilent, hnil] at hlively
  cases hlively

theorem flatMap_events_lively (history : List Publication) :
    (lively history).flatMap events = history.flatMap events := by
  refine (flatMap_filter_of_agree (q := fun _ => true) fun p _ e he => ?_).trans
    (List.filter_eq_self.2 fun _ _ => rfl)
  rw [isSilent, List.isEmpty_eq_false_iff.2 (List.ne_nil_of_mem he)]
  rfl

/-- Only the ends of the steps in which nothing happened tell of such steps. -/
theorem InOrder.flatMap_notices_lively (h : InOrder history) :
    (Publication.lively history).flatMap notices =
      (history.flatMap notices).filter fun notice => notice ∉ silentEnds history := by
  have hnodup : (history.map Publication.time).Nodup :=
    List.pairwise_map.2 (h.ascending.imp Nat.ne_of_lt)
  refine flatMap_filter_of_agree fun p hp notice hnotice => ?_
  rw [notices, Bus.stepNotices, List.mem_append, List.mem_singleton, List.mem_map] at hnotice
  obtain ⟨e, he, rfl⟩ | rfl := hnotice
  · have hends : Notice.event e ∉ silentEnds history := by
      intro hmem
      obtain ⟨_, _, hsame⟩ := List.mem_map.1 hmem
      cases hsame
    rw [isSilent, List.isEmpty_eq_false_iff.2 (List.ne_nil_of_mem he)]
    exact decide_eq_true hends
  · have hends : Notice.stepEnd p.time ∈ silentEnds history ↔ p.isSilent = true := by
      rw [silentEnds, List.mem_map]
      constructor
      · rintro ⟨other, hother, hsame⟩
        rw [List.mem_filter] at hother
        cases List.inj_on_of_nodup_map hnodup hother.1 hp (Notice.stepEnd.inj hsame)
        exact hother.2
      · exact fun hsilent => ⟨p, List.mem_filter.2 ⟨hp, hsilent⟩, rfl⟩
    simp [hends]

/-- The last event of some steps is one of the last of them. -/
theorem InOrder.getLast?_time (h : InOrder history) (hevents : ∀ p ∈ history, p.events ≠ []) :
    (history.flatMap events).getLast?.map (·.time) = history.getLast?.map (·.time) := by
  obtain rfl | ⟨front, p, rfl⟩ := history.eq_nil_or_concat'
  · rfl
  · have hp : p ∈ front ++ [p] := List.mem_append_right _ List.mem_cons_self
    obtain ⟨e, he⟩ := Option.ne_none_iff_exists'.1
      (mt List.getLast?_eq_none_iff.1 (hevents p hp))
    rw [List.flatMap_append, List.flatMap_singleton, List.getLast?_append, he,
      List.getLast?_concat]
    exact congrArg some (h.time_eq hp (List.mem_of_getLast? he))

end Publication

/-! ## Steps found again -/

namespace EventLog

open Publication

variable {history : List Publication} {p : Publication} {time : Nat}

/-- Within a time a replay tells of nothing but the events. -/
theorem replayFrom_append {events : List Event} (h : ∀ e ∈ events, e.time = time)
    (more : List Event) :
    replayFrom time (events ++ more) = events.map .event ++ replayFrom time more := by
  induction events with
  | nil => rfl
  | cons e rest ih =>
      have htime := h e List.mem_cons_self
      have hrest := ih fun other hother => h other (List.mem_cons_of_mem _ hother)
      rw [List.cons_append, replayFrom, if_pos htime, htime, hrest]
      rfl

/-- A replay ends a step as soon as an event of another time follows. -/
theorem replayFrom_append_of_ne {events : List Event} (h : ∀ e ∈ events, e.time = p.time)
    (hne : events ≠ []) (htime : p.time ≠ time) (more : List Event) :
    replayFrom time (events ++ more) =
      .stepEnd time :: (events.map .event ++ replayFrom p.time more) := by
  obtain ⟨e, rest, rfl⟩ := List.exists_cons_of_ne_nil hne
  have hfirst := h e List.mem_cons_self
  have hrest := replayFrom_append (fun other hother => h other (List.mem_cons_of_mem _ hother)) more
  rw [List.cons_append, replayFrom, hfirst, if_neg htime, hrest]
  rfl

theorem replayFrom_steps (h : InOrder (p :: history)) (hevents : ∀ q ∈ history, q.events ≠ []) :
    replayFrom p.time (history.flatMap Publication.events) =
      .stepEnd p.time ::
        (history.flatMap notices ++ [.runEnd (history.getLast?.getD p).time]) := by
  induction history generalizing p with
  | nil => rfl
  | cons q rest ih =>
      have hq := h.of_cons
      have hlater := (List.pairwise_cons.1 h.ascending).1 q List.mem_cons_self
      have hrest := ih hq fun other hother => hevents other (List.mem_cons_of_mem _ hother)
      rw [List.flatMap_cons, replayFrom_append_of_ne (fun e he => hq.time_eq List.mem_cons_self he)
        (hevents q List.mem_cons_self) (Nat.ne_of_gt hlater), hrest, List.getLast?_cons,
        List.flatMap_cons, notices, Bus.stepNotices]
      simp

/-- The replay of the events of some steps tells of these steps, and of the end of the run at the
time of the last of them. -/
theorem replay_steps {l : EventLog} (h : InOrder history) (hevents : ∀ q ∈ history, q.events ≠ [])
    (hl : l.events.toList = history.flatMap Publication.events) :
    l.replay =
      history.flatMap notices ++ (history.getLast?.map fun p => Notice.runEnd p.time).toList := by
  cases history with
  | nil =>
      rw [replay, hl]
      rfl
  | cons p rest =>
      obtain ⟨e, es, hp⟩ := List.exists_cons_of_ne_nil (hevents p List.mem_cons_self)
      have hdated : ∀ e' ∈ e :: es, e'.time = p.time :=
        fun e' he' => h.time_eq List.mem_cons_self (hp ▸ he')
      have hrest := replayFrom_steps h fun q hq => hevents q (List.mem_cons_of_mem _ hq)
      have hown := replayFrom_append
        (fun e' he' => hdated e' (List.mem_cons_of_mem _ he')) (rest.flatMap Publication.events)
      rw [replay, hl, List.flatMap_cons, hp, List.cons_append]
      simp only [hdated e List.mem_cons_self]
      rw [hown, hrest, List.flatMap_cons, notices, Bus.stepNotices, hp, List.getLast?_cons]
      simp

/-! ## What a log keeps -/

theorem toList_hearAll (l : EventLog) (notices : List Notice) :
    (l.hearAll notices).events.toList =
      l.events.toList ++ notices.filterMap Notice.event? := by
  induction notices generalizing l with
  | nil => exact (List.append_nil _).symm
  | cons notice rest ih =>
      cases notice with
      | event e =>
          refine (ih (l.record e)).trans ?_
          rw [record, Array.toList_push, List.append_assoc]
          rfl
      | stepEnd time => exact ih l
      | runEnd time => exact ih l

theorem filterMap_replayFrom (time : Nat) (events : List Event) :
    (replayFrom time events).filterMap Notice.event? = events := by
  induction events generalizing time with
  | nil => rfl
  | cons e rest ih =>
      rw [replayFrom]
      split <;> exact congrArg (e :: ·) (ih e.time)

/-- Whoever records a replay has recorded the log. -/
theorem hearAll_replay (l : EventLog) : empty.hearAll l.replay = l := by
  have hevents : (empty.hearAll l.replay).events.toList = l.events.toList := by
    rw [toList_hearAll, replay]
    cases l.events.toList with
    | nil => rfl
    | cons e rest => exact congrArg (e :: ·) (filterMap_replayFrom e.time rest)
  exact congrArg EventLog.mk (Array.toList_inj.1 hevents)

end EventLog

namespace Broadcast

open Publication

variable {x : Broadcast} {p : Publication} {history : List Publication}

theorem lastTime_followedBy {last : Nat} (h : (x.followedBy p).bus.lastTime = some last) :
    (∃ e ∈ p.events, e.time = last) ∨ x.bus.lastTime = some last := by
  rw [followedBy, Bus.delivered] at h
  cases hlast : p.events.getLast? with
  | none =>
      rw [hlast] at h
      exact Or.inr h
  | some e =>
      rw [hlast] at h
      exact Or.inl ⟨e, List.mem_of_getLast? hlast, Option.some.inj h⟩

/-- A bus takes all steps that come in order. -/
theorem granted_eq_self (h : InOrder history)
    (hlast : ∀ last, x.bus.lastTime = some last → ∀ p ∈ history, last ≤ p.time) :
    InPlace.granted publish x history = history := by
  induction history generalizing x with
  | nil => rfl
  | cons p rest ih =>
      have hp : p ∈ p :: rest := List.mem_cons_self
      obtain ⟨-, hok⟩ | ⟨last, oldest, hmem, hsome, hold, -, -⟩ := publish_cases p x
      · obtain ⟨hafter, hsucceeds⟩ := InPlace.after_of_ok hok
        rw [InPlace.granted, hsucceeds, if_pos rfl, hafter]
        refine congrArg (p :: ·) (ih h.of_cons fun last hsome q hq => ?_)
        obtain ⟨e, he, rfl⟩ | hbefore := lastTime_followedBy hsome
        · rw [h.time_eq hp he]
          exact Nat.le_of_lt ((List.pairwise_cons.1 h.ascending).1 q hq)
        · exact hlast last hbefore q (List.mem_cons_of_mem _ hq)
      · rw [h.dated p hp oldest hmem] at hold
        exact absurd (hlast last hsome p hp) (Nat.not_le.2 hold)

/-- A bus that is given steps in order takes all of them.  A log among its subscribers then replays
what all other subscribers heard, but for the ends of the steps in which nothing happened, and ends
the run at the time of the last event if there is one.  Whoever records a replay has recorded the
log. -/
theorem replays_are_faithful {subscribers : Nat} {history : List Publication}
    (h : InOrder history) {recorder listener : Nat} (hrecorder : recorder < subscribers)
    (hlistener : listener < subscribers) :
    let x := InPlace.afterAll publish (new subscribers) history
    let log := EventLog.empty.hearAll (noticesTo recorder x.calls)
    InPlace.granted publish (new subscribers) history = history ∧
    log.replay =
      (noticesTo listener x.calls).filter (fun notice => notice ∉ silentEnds history) ++
        (log.events.toList.getLast?.map fun e => Notice.runEnd e.time).toList ∧
    ∀ l : EventLog, EventLog.empty.hearAll l.replay = l := by
  intro x log
  have hgranted := granted_eq_self (x := new subscribers) h fun _ hnone => nomatch hnone
  have hdelivers := delivers_afterAll subscribers history
  rw [hgranted] at hdelivers
  have hlog : log.events.toList = (lively history).flatMap Publication.events := by
    rw [EventLog.toList_hearAll, hdelivers.noticesTo_calls hrecorder, flatMap_events_lively]
    exact Bus.filterMap_flatMap_stepNotices Publication.events Publication.time history
  have hreplay := EventLog.replay_steps h.lively (fun _ => events_ne_nil) hlog
  have hend := congrArg (Option.map Notice.runEnd)
    (h.lively.getLast?_time fun _ => events_ne_nil)
  rw [Option.map_map, Option.map_map] at hend
  refine ⟨hgranted, ?_, EventLog.hearAll_replay⟩
  rw [hreplay, hdelivers.noticesTo_calls hlistener, h.flatMap_notices_lively, hlog]
  exact congrArg (_ ++ Option.toList ·) hend.symm

/-- Nothing happens in the second of three steps, and of that step nothing is replayed. -/
theorem replays_are_faithful_pause :
    let history : List Publication :=
      [⟨5, [[⟨5, ⟨1⟩, .finished⟩], [⟨5, ⟨0⟩, .departure ⟨3⟩⟩]]⟩, ⟨6, [[], []]⟩,
        ⟨8, [[⟨8, ⟨0⟩, .arrival ⟨3⟩⟩]]⟩]
    let x := InPlace.afterAll publish (new 2) history
    let log := EventLog.empty.hearAll (noticesTo 0 x.calls)
    InOrder history ∧
    noticesTo 1 x.calls =
      [.event ⟨5, ⟨0⟩, .departure ⟨3⟩⟩, .event ⟨5, ⟨1⟩, .finished⟩, .stepEnd 5, .stepEnd 6,
        .event ⟨8, ⟨0⟩, .arrival ⟨3⟩⟩, .stepEnd 8] ∧
    log.replay =
      [.event ⟨5, ⟨0⟩, .departure ⟨3⟩⟩, .event ⟨5, ⟨1⟩, .finished⟩, .stepEnd 5,
        .event ⟨8, ⟨0⟩, .arrival ⟨3⟩⟩, .stepEnd 8, .runEnd 8] := by
  intro history x log
  have horder : InOrder history := ⟨by decide, by decide⟩
  obtain ⟨hgranted, hreplay, -⟩ :=
    replays_are_faithful horder (by decide : 0 < 2) (by decide : 1 < 2)
  have hdelivers := delivers_afterAll 2 history
  rw [hgranted] at hdelivers
  have hnotices : history.flatMap notices =
      [.event ⟨5, ⟨0⟩, .departure ⟨3⟩⟩, .event ⟨5, ⟨1⟩, .finished⟩, .stepEnd 5, .stepEnd 6,
        .event ⟨8, ⟨0⟩, .arrival ⟨3⟩⟩, .stepEnd 8] := by
    simp [history, notices, Bus.stepNotices, Publication.events, Event.merge, List.mergeSort,
      List.MergeSort.Internal.splitInTwo, Event.notAfter]
  have hends : silentEnds history = [.stepEnd 6] := by
    simp [history, silentEnds, isSilent, Publication.events, Event.merge, List.mergeSort,
      List.MergeSort.Internal.splitInTwo, Event.notAfter]
  have hheard : ∀ subscriber < 2, noticesTo subscriber x.calls = _ :=
    fun _ hsubscriber => (hdelivers.noticesTo_calls hsubscriber).trans hnotices
  have hlog : log.events.toList =
      [⟨5, ⟨0⟩, .departure ⟨3⟩⟩, ⟨5, ⟨1⟩, .finished⟩, ⟨8, ⟨0⟩, .arrival ⟨3⟩⟩] := by
    rw [EventLog.toList_hearAll, hheard 0 (by decide)]
    rfl
  refine ⟨horder, hheard 1 (by decide), hreplay.trans ?_⟩
  rw [hheard 1 (by decide), hends, hlog]
  decide

end Broadcast

end Thoroughfare

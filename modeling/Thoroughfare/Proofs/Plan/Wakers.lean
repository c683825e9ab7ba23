import Mathlib.Data.Finset.Card
import Mathlib.Data.Finset.Dedup
import Thoroughfare.Proofs.Plan.Buckets

/-!
# Who is woken when

Whatever word is left and whenever a wake queue is drained, every wake-up has at most one call that
takes it out: the first one behind it that drains up to its tick or further.  That call answers the
agent, all other calls leave the wake-up where it is, and without such a call it stays pending.
-/

namespace Thoroughfare

/-- What a user asks of a wake queue. -/
inductive WakeCall where
  | push (tick : Tick) (agent : AgentId)
  | drain (tick : Tick)
deriving DecidableEq, Repr

namespace WakeCall

variable {calls : List WakeCall} {call : WakeCall} {e : Nat × WakeUp}

/-- The wake-up that a call leaves. -/
def wakeUp? : WakeCall → Option WakeUp
  | push tick agent => some ⟨tick, agent⟩
  | drain _ => none

/-- Whether a call takes out the wake-ups of a tick. -/
def reaches (tick : Tick) : WakeCall → Bool
  | push _ _ => false
  | drain upTo => tick ≤ upTo

/-- The wake-ups that some calls leave, each with the place of its call. -/
def left (calls : List WakeCall) : List (Nat × WakeUp) :=
  calls.zipIdx.filterMap fun entry => entry.1.wakeUp?.map fun w => (entry.2, w)

/-- The place of the call that takes out what was left: the first one behind it that drains up to
its tick or further. -/
def waker? (calls : List WakeCall) (e : Nat × WakeUp) : Option Nat :=
  ((calls.drop (e.1 + 1)).findIdx? (reaches e.2.tick)).map (e.1 + 1 + ·)

/-- The wake-ups that the call at a place takes out, or those that no call takes out. -/
def wokenBy (calls : List WakeCall) (place? : Option Nat) : List WakeUp :=
  ((left calls).filter fun e => waker? calls e = place?).map (·.2)

theorem lt_of_mem_left (h : e ∈ left calls) : e.1 < calls.length := by
  obtain ⟨entry, hentry, he⟩ := List.mem_filterMap.1 h
  obtain ⟨w, -, rfl⟩ := Option.map_eq_some_iff.1 he
  have hplace := (List.mem_zipIdx hentry).2.1
  rwa [Nat.zero_add] at hplace

theorem left_concat (calls : List WakeCall) (call : WakeCall) :
    left (calls ++ [call]) =
      left calls ++ (call.wakeUp?.map fun w => (calls.length, w)).toList := by
  rw [left, List.zipIdx_append, List.filterMap_append, left, Nat.zero_add, List.zipIdx_singleton]
  cases call <;> rfl

theorem waker?_lt {place : Nat} (h : waker? calls e = some place) : place < calls.length := by
  obtain ⟨steps, hsteps, rfl⟩ := Option.map_eq_some_iff.1 h
  have hlt := (List.findIdx?_eq_some_iff_findIdx_eq.1 hsteps).1
  rw [List.length_drop] at hlt
  omega

/-- A call more is the waker of what had none before and is reached by it. -/
theorem waker?_concat (h : e.1 < calls.length) :
    waker? (calls ++ [call]) e = (waker? calls e).or
      (if call.reaches e.2.tick then some calls.length else none) := by
  have hbehind : (calls ++ [call]).drop (e.1 + 1) = calls.drop (e.1 + 1) ++ [call] :=
    List.drop_append_of_le_length h
  rw [waker?, hbehind, List.findIdx?_append, Option.map_or, waker?]
  congr 1
  rw [List.findIdx?_singleton]
  split
  · rw [Option.map_some, Option.map_some, List.length_drop]
    congr 1
    omega
  · rfl

theorem waker?_of_length_le (h : calls.length ≤ e.1 + 1) : waker? calls e = none := by
  rw [waker?, List.drop_eq_nil_of_le h]
  rfl

/-- What is left once more is not taken out yet. -/
theorem wokenBy_concat (calls : List WakeCall) (call : WakeCall) (place? : Option Nat) :
    wokenBy (calls ++ [call]) place? =
      ((left calls).filter fun e => waker? (calls ++ [call]) e = place?).map (·.2) ++
        if place? = none then call.wakeUp?.toList else [] := by
  rw [wokenBy, left_concat, List.filter_append, List.map_append]
  congr 1
  cases hleft : call.wakeUp? with
  | none => split <;> rfl
  | some w =>
      have hwaker : waker? (calls ++ [call]) (calls.length, w) = none :=
        waker?_of_length_le (by rw [List.length_append, List.length_singleton])
      cases place? <;> simp [hwaker]

theorem wokenBy_concat_of_ne {place : Nat} (h : place ≠ calls.length) :
    wokenBy (calls ++ [call]) (some place) = wokenBy calls (some place) := by
  rw [wokenBy_concat, if_neg nofun, List.append_nil, wokenBy]
  congr 1
  apply List.filter_congr
  intro e he
  rw [waker?_concat (lt_of_mem_left he)]
  cases waker? calls e with
  | none => by_cases hreach : call.reaches e.2.tick <;> simp [hreach, Ne.symm h]
  | some other => rfl

/-- The call takes out what is pending and is reached by it. -/
theorem wokenBy_concat_self (calls : List WakeCall) (call : WakeCall) :
    wokenBy (calls ++ [call]) (some calls.length) =
      (wokenBy calls none).filter fun w => call.reaches w.tick := by
  rw [wokenBy_concat, if_neg nofun, List.append_nil, wokenBy, List.filter_map, List.filter_filter]
  congr 1
  apply List.filter_congr
  intro e he
  rw [waker?_concat (lt_of_mem_left he)]
  cases hwaker : waker? calls e with
  | none => by_cases hreach : call.reaches e.2.tick <;> simp [hreach]
  | some other => simp [(waker?_lt hwaker).ne]

/-- Everything else that is pending stays so, and what the call leaves is pending too. -/
theorem pending_concat (calls : List WakeCall) (call : WakeCall) :
    wokenBy (calls ++ [call]) none =
      ((wokenBy calls none).filter fun w => !call.reaches w.tick) ++ call.wakeUp?.toList := by
  rw [wokenBy_concat, if_pos rfl, wokenBy, List.filter_map, List.filter_filter]
  congr 2
  apply List.filter_congr
  intro e he
  rw [waker?_concat (lt_of_mem_left he)]
  cases waker? calls e with
  | none => by_cases hreach : call.reaches e.2.tick <;> simp [hreach]
  | some other => simp

/-- Whatever is asked afterwards, a call has taken out what was pending before it up to its tick. -/
theorem wokenBy_eq {place : Nat} {call : WakeCall} (h : calls[place]? = some call) :
    wokenBy calls (some place) =
      (wokenBy (calls.take place) none).filter fun w => call.reaches w.tick := by
  induction calls using List.reverseRecOn with
  | nil => cases h
  | append_singleton calls last ih =>
      rcases Nat.lt_or_ge place calls.length with hlt | hge
      · rw [List.getElem?_append_left hlt] at h
        rw [wokenBy_concat_of_ne hlt.ne, ih h, List.take_append_of_le_length hlt.le]
      · have hlast : place < (calls ++ [last]).length := (List.getElem?_eq_some_iff.1 h).1
        have hplace : place = calls.length := by
          rw [List.length_append, List.length_singleton] at hlast
          omega
        subst hplace
        rw [List.getElem?_concat_length, Option.some.injEq] at h
        rw [wokenBy_concat_self, List.take_left, h]

end WakeCall

/-! ## The queues after some calls -/

namespace WakeQueue

variable {q : WakeQueue} {calls : List WakeCall}

/-- The queue after a call. -/
def after (q : WakeQueue) : WakeCall → WakeQueue
  | .push tick agent => q.push tick agent
  | .drain tick => (q.drainDue tick).2

def afterAll (q : WakeQueue) (calls : List WakeCall) : WakeQueue :=
  calls.foldl after q

/-- A queue that begins empty keeps what no call has taken out. -/
theorem pending_afterAll (calls : List WakeCall) :
    (empty.afterAll calls).pending.Perm (WakeCall.wokenBy calls none) := by
  induction calls using List.reverseRecOn with
  | nil => exact List.Perm.refl _
  | append_singleton calls call ih =>
      rw [afterAll, List.foldl_append, WakeCall.pending_concat]
      change ((empty.afterAll calls).after call).pending.Perm _
      cases call with
      | push tick agent =>
          refine (insertWakeUp_perm _ _).trans ?_
          simp only [WakeCall.reaches, Bool.not_false, List.filter_true, WakeCall.wakeUp?,
            Option.toList_some]
          exact (ih.cons _).trans (List.perm_append_singleton _ _).symm
      | drain tick =>
          simp only [WakeCall.reaches, WakeCall.wakeUp?, Option.toList_none, List.append_nil,
            ← decide_not, Nat.not_le]
          change ((empty.afterAll calls).later tick).pending.Perm _
          rw [later_eq_filter]
          exact ih.filter _

end WakeQueue

namespace WakeBuckets

/-- The buckets after a call. -/
def after (b : WakeBuckets) : WakeCall → WakeBuckets
  | .push tick agent => b.push tick agent
  | .drain tick => (b.drainDue tick).2

def afterAll (b : WakeBuckets) (calls : List WakeCall) : WakeBuckets :=
  calls.foldl after b

theorem Holds.afterAll {b : WakeBuckets} {q : WakeQueue} (h : b.Holds q) (calls : List WakeCall) :
    (b.afterAll calls).Holds (q.afterAll calls) := by
  induction calls generalizing b q with
  | nil => exact h
  | cons call rest ih =>
      cases call with
      | push tick agent => exact ih (h.push tick agent)
      | drain tick => exact ih (h.drainDue tick).2

end WakeBuckets

namespace WakeQueue

theorem pairwise_drainDue (q : WakeQueue) (tick : Tick) :
    (q.drainDue tick).1.Pairwise fun a b => a ≤ b :=
  @pairwise_mergeSort_key AgentId Nat _ Ident.index _

/-- What is answered are the agents of the wake-ups that are due. -/
theorem drainDue_perm {q : WakeQueue} {wakeUps : List WakeUp} (h : q.pending.Perm wakeUps)
    (tick : Tick) :
    (q.drainDue tick).1.Perm ((wakeUps.filter fun w => w.tick ≤ tick).map (·.agent)) := by
  refine (List.mergeSort_perm _ _).trans ?_
  rw [due_eq_filter]
  exact (h.filter _).map _

theorem tickCount_eq_card {q : WakeQueue} {wakeUps : List WakeUp} (h : q.pending.Perm wakeUps) :
    q.tickCount = (wakeUps.map (·.tick)).toFinset.card := by
  rw [tickCount, ← List.toFinset_eq_of_perm _ _ (h.map _), List.card_toFinset]
  refine List.Perm.length_eq ((List.perm_ext_iff_of_nodup (nodup_eraseDups _)
    (List.nodup_dedup _)).2 fun tick => ?_)
  rw [List.mem_eraseDups, List.mem_dedup]

/-- Whatever word is left and whenever a queue that begins empty is drained: a call that drains
answers, ascending by number, the agents of just those wake-ups for which it is the first call
behind them that drains up to their tick, and whatever has no such call is still pending.  Of the
pending wake-ups a further call would take out those up to its tick and no others, and the queue
says how many there are, which tick is the first and how many ticks they have.  Buckets that are
asked for the same answer the same. -/
theorem wakeUps_are_taken_once (calls : List WakeCall) :
    let q := empty.afterAll calls
    let b := WakeBuckets.empty.afterAll calls
    let pending := WakeCall.wokenBy calls none
    (∀ place tick, calls[place]? = some (.drain tick) →
      ((empty.afterAll (calls.take place)).drainDue tick).1.Pairwise (fun a b => a ≤ b) ∧
      ((empty.afterAll (calls.take place)).drainDue tick).1.Perm
        ((WakeCall.wokenBy calls (some place)).map (·.agent))) ∧
    q.pending.Perm pending ∧
    (∀ tick, (q.drainDue tick).1.Pairwise (fun a b => a ≤ b) ∧
      (q.drainDue tick).1.Perm ((pending.filter fun w => w.tick ≤ tick).map (·.agent)) ∧
      (q.drainDue tick).2.pending.Perm (pending.filter fun w => tick < w.tick)) ∧
    q.length = pending.length ∧
    (∀ next, q.nextTick? = some next ↔
      (∃ w ∈ pending, w.tick = next) ∧ ∀ w ∈ pending, next ≤ w.tick) ∧
    (q.nextTick? = none ↔ pending = []) ∧
    q.tickCount = (pending.map (·.tick)).toFinset.card ∧
    (∀ tick, (b.drainDue tick).1 = (q.drainDue tick).1) ∧
    b.length = q.length ∧ b.nextTick? = q.nextTick? ∧ b.tickCount = q.tickCount := by
  intro q b pending
  have hpending : q.pending.Perm pending := pending_afterAll calls
  have hholds : b.Holds q := WakeBuckets.empty_holds.afterAll calls
  refine ⟨fun place tick hcall => ⟨pairwise_drainDue _ _, ?_⟩, hpending,
    fun tick => ⟨pairwise_drainDue _ _, drainDue_perm hpending tick, ?_⟩, hpending.length_eq,
    fun next => ?_, ?_, tickCount_eq_card hpending, fun tick => (hholds.drainDue tick).1,
    hholds.total_eq, hholds.nextTick?_eq, hholds.tickCount_eq⟩
  · rw [WakeCall.wokenBy_eq hcall]
    exact drainDue_perm (pending_afterAll _) tick
  · change (q.later tick).pending.Perm _
    rw [later_eq_filter]
    exact hpending.filter _
  · simp only [nextTick?_eq_some_iff_mem, hpending.mem_iff]
  · rw [nextTick?_eq_none_iff, ← List.length_eq_zero_iff, hpending.length_eq,
      List.length_eq_zero_iff]

/-- A wake-up for a tick that has been drained before is taken out by the next call that drains,
along with what has been waiting for it. -/
theorem wakeUps_are_taken_once_late :
    let calls : List WakeCall := [.push 5 ⟨1⟩, .drain 3, .push 3 ⟨0⟩, .drain 5]
    calls[3]? = some (.drain 5) ∧
      ((empty.afterAll (calls.take 3)).drainDue 5).1.Pairwise (fun a b => a ≤ b) ∧
      ((empty.afterAll (calls.take 3)).drainDue 5).1.Perm [⟨1⟩, ⟨0⟩] := by
  intro calls
  have hwoken : (WakeCall.wokenBy calls (some 3)).map (·.agent) = [⟨1⟩, ⟨0⟩] := by decide
  obtain ⟨hordered, hanswered⟩ := (wakeUps_are_taken_once calls).1 3 5 rfl
  exact ⟨rfl, hordered, hwoken ▸ hanswered⟩

end WakeQueue

end Thoroughfare

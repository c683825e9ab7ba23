import Thoroughfare.Plan.WakeQueue
import Mathlib.Data.List.Nodup
import Mathlib.Data.List.Perm.Basic
import Mathlib.Data.List.TakeWhile

/-!
# The wake-ups of one agent

A wake queue keeps its wake-ups by tick.  Seen from one agent it is the list of the ticks at which
that agent is to be woken; leaving word adds to the list of one agent, and draining takes from each
list the ticks that are due.
-/

namespace Thoroughfare
namespace WakeQueue

variable {q : WakeQueue} {id other : AgentId} {tick : Tick}

/-- The ticks at which an agent is to be woken. -/
def ticksOf (q : WakeQueue) (id : AgentId) : List Tick :=
  (q.pending.filter fun w => w.agent = id).map (·.tick)

theorem mem_ticksOf_iff : tick ∈ q.ticksOf id ↔ ⟨tick, id⟩ ∈ q.pending := by
  simp only [ticksOf, List.mem_map, List.mem_filter, decide_eq_true_eq]
  constructor
  · rintro ⟨w, ⟨hw, rfl⟩, rfl⟩
    exact hw
  · intro h
    exact ⟨_, ⟨h, rfl⟩, rfl⟩

/-! ## Leaving word -/

theorem filter_insertWakeUp_of_ne {w : WakeUp} (h : w.agent ≠ id) (pending : List WakeUp) :
    (insertWakeUp w pending).filter (fun w => w.agent = id) =
      pending.filter fun w => w.agent = id := by
  induction pending with
  | nil => simp [insertWakeUp, h]
  | cons first rest ih =>
      rw [insertWakeUp]
      split
      · simp [List.filter_cons, h]
      · rw [List.filter_cons, List.filter_cons, ih]

theorem ticksOf_push_of_ne (h : other ≠ id) :
    (q.push tick other).ticksOf id = q.ticksOf id := by
  simp only [ticksOf, push]
  rw [filter_insertWakeUp_of_ne h]

theorem ticksOf_push_self (h : q.ticksOf id = []) : (q.push tick id).ticksOf id = [tick] := by
  have hperm : ((q.push tick id).ticksOf id).Perm [tick] := by
    have hpush := ((insertWakeUp_perm ⟨tick, id⟩ q.pending).filter
      (fun w => decide (w.agent = id))).map (·.tick)
    have hrest : (q.pending.filter fun w => decide (w.agent = id)).map (·.tick) = [] := h
    simpa [ticksOf, push, List.filter_cons, hrest] using hpush
  exact List.perm_singleton.1 hperm

/-! ## Draining -/

theorem due_append_later (q : WakeQueue) (tick : Tick) :
    q.due tick ++ (q.later tick).pending = q.pending :=
  List.takeWhile_append_dropWhile

theorem tick_le_of_mem_due {w : WakeUp} (h : w ∈ q.due tick) : w.tick ≤ tick := by
  simpa using List.mem_takeWhile_imp h

theorem lt_tick_of_mem_later {w : WakeUp} (h : w ∈ (q.later tick).pending) : tick < w.tick := by
  have hsorted := (q.later tick).ascending
  cases hlater : (q.later tick).pending with
  | nil => simp [hlater] at h
  | cons first rest =>
      have hfirst : tick < first.tick := by
        have hhead := List.head?_dropWhile_not (fun w : WakeUp => decide (w.tick ≤ tick)) q.pending
        have hdrop : q.pending.dropWhile (fun w => decide (w.tick ≤ tick)) = first :: rest := hlater
        simp only [hdrop, List.head?_cons] at hhead
        simpa using hhead
      rw [hlater] at h hsorted
      rcases List.mem_cons.1 h with rfl | hrest
      · exact hfirst
      · exact Nat.lt_of_lt_of_le hfirst (List.rel_of_pairwise_cons hsorted hrest)

theorem mem_drainDue_iff : id ∈ (q.drainDue tick).1 ↔ ∃ k ∈ q.ticksOf id, k ≤ tick := by
  have hsplit := due_append_later q tick
  simp only [drainDue, List.mem_mergeSort, List.mem_map]
  constructor
  · rintro ⟨w, hw, rfl⟩
    refine ⟨w.tick, mem_ticksOf_iff.2 ?_, tick_le_of_mem_due hw⟩
    rw [← hsplit]
    exact List.mem_append_left _ hw
  · rintro ⟨k, hk, hle⟩
    have hpending := mem_ticksOf_iff.1 hk
    rw [← hsplit, List.mem_append] at hpending
    rcases hpending with hdue | hlater
    · exact ⟨_, hdue, rfl⟩
    · exact absurd (lt_tick_of_mem_later hlater) (Nat.not_lt.2 hle)

/-- The wake-ups that are due are those up to the tick, wherever they stand. -/
theorem due_eq_filter : q.due tick = q.pending.filter fun w => w.tick ≤ tick := by
  have hdue : (q.due tick).filter (fun w => decide (w.tick ≤ tick)) = q.due tick :=
    List.filter_eq_self.2 fun w hw => decide_eq_true (tick_le_of_mem_due hw)
  have hlater : (q.later tick).pending.filter (fun w => decide (w.tick ≤ tick)) = [] := by
    rw [List.filter_eq_nil_iff]
    intro w hw hle
    exact absurd (lt_tick_of_mem_later hw) (Nat.not_lt.2 (of_decide_eq_true hle))
  rw [← due_append_later q tick, List.filter_append, hdue, hlater, List.append_nil]

theorem later_eq_filter : (q.later tick).pending = q.pending.filter fun w => tick < w.tick := by
  have hdue : (q.due tick).filter (fun w => decide (tick < w.tick)) = [] := by
    rw [List.filter_eq_nil_iff]
    intro w hw hlt
    exact absurd (tick_le_of_mem_due hw) (Nat.not_le.2 (of_decide_eq_true hlt))
  have hlater : (q.later tick).pending.filter (fun w => decide (tick < w.tick)) =
      (q.later tick).pending :=
    List.filter_eq_self.2 fun w hw => decide_eq_true (lt_tick_of_mem_later hw)
  rw [← due_append_later q tick, List.filter_append, hdue, hlater, List.nil_append]

/-- Before the first tick nobody is woken. -/
theorem drainDue_of_lt (h : ∀ w ∈ q.pending, tick < w.tick) : q.drainDue tick = ([], q) := by
  obtain ⟨pending, hascending⟩ := q
  cases pending with
  | nil => simp [drainDue, due, later]
  | cons first rest =>
      have hfirst : ¬first.tick ≤ tick := Nat.not_le.2 (h first List.mem_cons_self)
      simp [drainDue, due, later, hfirst]

theorem ticksOf_drainDue :
    (q.drainDue tick).2.ticksOf id = (q.ticksOf id).filter fun k => tick < k := by
  simp only [ticksOf, drainDue, List.filter_map, later_eq_filter, List.filter_filter]
  congr 2
  funext w
  exact Bool.and_comm _ _

theorem nodup_drainDue (h : ∀ id, (q.ticksOf id).length ≤ 1) : (q.drainDue tick).1.Nodup := by
  have hpending : (q.pending.map (·.agent)).Nodup := by
    rw [List.nodup_iff_count_le_one]
    intro id
    have hlength := h id
    rw [ticksOf, List.length_map, ← List.countP_eq_length_filter] at hlength
    rw [List.count_eq_countP, List.countP_map]
    refine Nat.le_trans (Nat.le_of_eq ?_) hlength
    apply List.countP_congr
    intro w _
    simp
  have hsub : ((q.due tick).map (·.agent)).Sublist (q.pending.map (·.agent)) :=
    (List.takeWhile_sublist _).map _
  exact (List.mergeSort_perm _ _).nodup_iff.2 (hpending.sublist hsub)

/-! ## The next wake-up -/

theorem nextTick?_eq_none_iff : q.nextTick? = none ↔ q.pending = [] := by
  rw [nextTick?, Option.map_eq_none_iff, List.head?_eq_none_iff]

/-- The next tick is that of the first pending wake-up, and no other is before it. -/
theorem nextTick?_eq_some_iff_mem {next : Tick} :
    q.nextTick? = some next ↔
      (∃ w ∈ q.pending, w.tick = next) ∧ ∀ w ∈ q.pending, next ≤ w.tick := by
  have hsorted := q.ascending
  cases hpending : q.pending with
  | nil => simp [nextTick?, hpending]
  | cons first rest =>
      rw [hpending] at hsorted
      have hleast : ∀ w ∈ first :: rest, first.tick ≤ w.tick := by
        intro w hw
        rcases List.mem_cons.1 hw with rfl | hrest
        · exact Nat.le_refl _
        · exact List.rel_of_pairwise_cons hsorted hrest
      simp only [nextTick?, hpending, List.head?_cons, Option.map_some, Option.some.injEq]
      constructor
      · rintro rfl
        exact ⟨⟨first, List.mem_cons_self, rfl⟩, hleast⟩
      · rintro ⟨⟨w, hw, rfl⟩, hle⟩
        exact Nat.le_antisymm (hleast w hw) (hle first List.mem_cons_self)

/-- As long as the next tick is later, all are. -/
theorem lt_tick_of_nextTick? (h : q.nextTick?.all fun next => tick < next) :
    ∀ w ∈ q.pending, tick < w.tick := by
  cases hnext : q.nextTick? with
  | none =>
      rw [nextTick?_eq_none_iff.1 hnext]
      exact fun w hw => absurd hw List.not_mem_nil
  | some next =>
      rw [hnext, Option.all_some, decide_eq_true_eq] at h
      exact fun w hw => Nat.lt_of_lt_of_le h ((nextTick?_eq_some_iff_mem.1 hnext).2 w hw)

/-- The next tick is the least one at which anybody is to be woken. -/
theorem nextTick?_eq_some_iff {next : Tick} :
    q.nextTick? = some next ↔
      (∃ id, next ∈ q.ticksOf id) ∧ ∀ id, ∀ k ∈ q.ticksOf id, next ≤ k := by
  simp only [nextTick?_eq_some_iff_mem, mem_ticksOf_iff]
  constructor
  · rintro ⟨⟨w, hw, rfl⟩, hle⟩
    exact ⟨⟨w.agent, hw⟩, fun id k hk => hle ⟨k, id⟩ hk⟩
  · rintro ⟨⟨id, hid⟩, hle⟩
    exact ⟨⟨_, hid, rfl⟩, fun w hw => hle w.agent w.tick hw⟩

end WakeQueue
end Thoroughfare

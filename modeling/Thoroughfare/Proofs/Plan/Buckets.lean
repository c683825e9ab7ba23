import Std.Data.ExtTreeMap
import Thoroughfare.Proofs.Arrangement
import Thoroughfare.Proofs.Plan.WakeUps

/-!
# Wake-ups in buckets

Wake-ups can also be kept in buckets: a table with a row for each tick at which anybody is to be
woken, and beside it the number of all wake-ups.  Whoever is due is split off with one cut behind
the tick.  No row is ever empty, so the rows are the ticks of the pending wake-ups, and the buckets
answer whatever they are asked as the queue does that keeps all wake-ups in one list.
-/

namespace Thoroughfare

/-- The agents to be woken at each tick, and how many wake-ups that makes. -/
structure WakeBuckets where
  rows : Std.ExtTreeMap Tick (List AgentId)
  total : Nat

namespace WakeBuckets

def empty : WakeBuckets :=
  ⟨∅, 0⟩

/-- Leave word to wake an agent at a tick; the first one at a tick opens a row. -/
def push (b : WakeBuckets) (tick : Tick) (agent : AgentId) : WakeBuckets :=
  ⟨b.rows.alter tick fun row? => some (row?.getD [] ++ [agent]), b.total + 1⟩

def nextTick? (b : WakeBuckets) : Option Tick :=
  b.rows.minKey?

def length (b : WakeBuckets) : Nat :=
  b.total

def tickCount (b : WakeBuckets) : Nat :=
  b.rows.size

/-- Take out the agents that are due at a tick, ascending by number: if there are any, the table is
cut behind the tick. -/
def drainDue (b : WakeBuckets) (tick : Tick) : List AgentId × WakeBuckets :=
  if b.nextTick?.all fun next => tick < next then ([], b)
  else
    let due := b.rows.filter fun k _ => k < tick + 1
    let later := b.rows.filter fun k _ => tick + 1 ≤ k
    let agents := due.toList.flatMap (·.2)
    (agents.mergeSort (· ≤ ·), ⟨later, b.total - agents.length⟩)

end WakeBuckets

namespace WakeQueue

variable {q : WakeQueue} {tick other : Tick} {agent : AgentId}

/-- The agents to be woken at a tick, as they left word. -/
def agentsAt (q : WakeQueue) (tick : Tick) : List AgentId :=
  (q.pending.filter fun w => w.tick = tick).map (·.agent)

theorem agentsAt_eq_nil_iff : q.agentsAt tick = [] ↔ tick ∉ q.pending.map (·.tick) := by
  simp [agentsAt, List.filter_eq_nil_iff]

theorem filter_insertWakeUp_of_tick_ne {w : WakeUp} (h : w.tick ≠ tick) (pending : List WakeUp) :
    (insertWakeUp w pending).filter (fun w => w.tick = tick) =
      pending.filter fun w => w.tick = tick := by
  induction pending with
  | nil => simp [insertWakeUp, h]
  | cons first rest ih =>
      rw [insertWakeUp]
      split
      · simp [List.filter_cons, h]
      · rw [List.filter_cons, List.filter_cons, ih]

/-- A wake-up stands behind all others of its tick. -/
theorem filter_insertWakeUp_self (w : WakeUp) {pending : List WakeUp}
    (h : pending.Pairwise fun a b => a.tick ≤ b.tick) :
    (insertWakeUp w pending).filter (fun other => other.tick = w.tick) =
      pending.filter (fun other => other.tick = w.tick) ++ [w] := by
  induction pending with
  | nil => simp [insertWakeUp]
  | cons first rest ih =>
      rw [List.pairwise_cons] at h
      rw [insertWakeUp]
      split
      · rename_i hlt
        have hnone : (first :: rest).filter (fun other => decide (other.tick = w.tick)) = [] := by
          rw [List.filter_eq_nil_iff]
          intro other hother hsame
          have hle : first.tick ≤ other.tick := by
            rcases List.mem_cons.1 hother with rfl | hrest
            · exact Nat.le_refl _
            · exact h.1 other hrest
          exact absurd hlt (Nat.not_lt.2 (of_decide_eq_true hsame ▸ hle))
        rw [List.filter_cons, if_pos (by simp), hnone, List.nil_append]
      · rw [List.filter_cons, List.filter_cons, ih h.2]
        split <;> rfl

theorem agentsAt_push : (q.push other agent).agentsAt tick =
    if other = tick then q.agentsAt tick ++ [agent] else q.agentsAt tick := by
  simp only [agentsAt, push]
  split
  · rename_i hsame
    subst hsame
    rw [filter_insertWakeUp_self ⟨other, agent⟩ q.ascending, List.map_append]
    rfl
  · rename_i hother
    rw [filter_insertWakeUp_of_tick_ne hother]

theorem agentsAt_later :
    (q.later other).agentsAt tick = if other < tick then q.agentsAt tick else [] := by
  rw [agentsAt, later_eq_filter, List.filter_filter]
  split
  · rename_i hlater
    have hsame : ∀ w ∈ q.pending, (decide (w.tick = tick) && decide (other < w.tick)) =
        decide (w.tick = tick) := by
      intro w _
      rw [Bool.and_eq_left_iff_imp, decide_eq_true_eq, decide_eq_true_eq]
      rintro rfl
      exact hlater
    rw [List.filter_congr hsame]
    rfl
  · rename_i hdue
    have hnone : ∀ w ∈ q.pending, ¬(decide (w.tick = tick) && decide (other < w.tick)) = true := by
      intro w _ hboth
      rw [Bool.and_eq_true, decide_eq_true_eq, decide_eq_true_eq] at hboth
      exact hdue (hboth.1 ▸ hboth.2)
    rw [List.filter_eq_nil_iff.2 hnone]
    rfl

end WakeQueue

namespace WakeBuckets

variable {b : WakeBuckets} {q : WakeQueue} {tick : Tick} {agent : AgentId}

theorem nodup_keys (rows : Std.ExtTreeMap Tick (List AgentId)) : rows.keys.Nodup :=
  rows.ordered_keys.imp fun hlt => (Nat.compare_eq_lt.1 hlt).ne

/-- The wake-ups of a row. -/
def wakeUpsOf (row : Tick × List AgentId) : List WakeUp :=
  row.2.map fun agent => ⟨row.1, agent⟩

theorem tick_eq_of_mem_wakeUpsOf {row : Tick × List AgentId} {w : WakeUp}
    (h : w ∈ wakeUpsOf row) : w.tick = row.1 := by
  obtain ⟨agent, -, rfl⟩ := List.mem_map.1 h
  rfl

theorem wakeUpsOf_agentsAt (q : WakeQueue) (tick : Tick) :
    wakeUpsOf (tick, q.agentsAt tick) = q.pending.filter fun w => w.tick = tick := by
  rw [wakeUpsOf, WakeQueue.agentsAt, List.map_map]
  refine (List.map_congr_left fun w hw => ?_).trans (List.map_id _)
  rw [List.mem_filter, decide_eq_true_eq] at hw
  rw [Function.comp_apply, ← hw.2]
  rfl

/-- Buckets hold the wake-ups of a queue when every row has the agents of its tick, there are no
other rows, and the wake-ups are counted. -/
structure Holds (b : WakeBuckets) (q : WakeQueue) : Prop where
  rows_eq : ∀ tick, b.rows[tick]? = if q.agentsAt tick = [] then none else some (q.agentsAt tick)
  total_eq : b.total = q.length

theorem empty_holds : empty.Holds .empty where
  rows_eq tick := by
    rw [empty, Std.ExtTreeMap.getElem?_empty]
    rfl
  total_eq := rfl

namespace Holds

theorem getD_row (h : b.Holds q) (tick : Tick) : (b.rows[tick]?).getD [] = q.agentsAt tick := by
  rw [h.rows_eq]
  split
  · rename_i hnone
    rw [hnone]
    rfl
  · rfl

theorem mem_rows_iff (h : b.Holds q) : tick ∈ b.rows ↔ tick ∈ q.pending.map (·.tick) := by
  rw [Std.ExtTreeMap.mem_iff_isSome_getElem?, h.rows_eq, ← not_iff_not,
    ← WakeQueue.agentsAt_eq_nil_iff]
  split <;> simp [*]

theorem push (h : b.Holds q) (tick : Tick) (agent : AgentId) :
    (b.push tick agent).Holds (q.push tick agent) where
  rows_eq other := by
    rw [WakeBuckets.push, Std.ExtTreeMap.getElem?_alter, WakeQueue.agentsAt_push]
    simp only [Std.LawfulEqCmp.compare_eq_iff_eq]
    split
    · rename_i hsame
      subst hsame
      rw [h.getD_row, if_neg (by simp)]
    · exact h.rows_eq other
  total_eq := by
    have hlength := (insertWakeUp_perm ⟨tick, agent⟩ q.pending).length_eq
    rw [WakeBuckets.push, h.total_eq]
    exact hlength.symm

/-! ## What is asked of the buckets -/

theorem nextTick?_eq (h : b.Holds q) : b.nextTick? = q.nextTick? := by
  ext next
  rw [nextTick?, Std.ExtTreeMap.minKey?_eq_some_iff_mem_and_forall,
    WakeQueue.nextTick?_eq_some_iff_mem]
  simp only [h.mem_rows_iff, List.mem_map, forall_exists_index, and_imp,
    forall_apply_eq_imp_iff₂, Nat.isLE_compare]

/-- The rows are the ticks of the pending wake-ups, each once. -/
theorem tickCount_eq (h : b.Holds q) : b.tickCount = q.tickCount := by
  have hperm : b.rows.keys.Perm (q.pending.map (·.tick)).eraseDups :=
    (List.perm_ext_iff_of_nodup (nodup_keys b.rows) (nodup_eraseDups _)).2 fun tick => by
      rw [Std.ExtTreeMap.mem_keys, h.mem_rows_iff, List.mem_eraseDups]
  rw [tickCount, ← Std.ExtTreeMap.length_keys, hperm.length_eq]
  rfl

/-! ## Draining -/

/-- The rows together hold the pending wake-ups. -/
theorem flatMap_rows_perm (h : b.Holds q) :
    (b.rows.toList.flatMap wakeUpsOf).Perm q.pending := by
  suffices hticks : ∀ tick, (b.rows.toList.flatMap wakeUpsOf).filter (fun w => w.tick = tick) =
      q.pending.filter fun w => w.tick = tick from perm_of_filter_key hticks
  intro tick
  have hmade : ∀ row ∈ b.rows.toList, ∀ w ∈ wakeUpsOf row, w.tick = row.1 :=
    fun row _ w hw => tick_eq_of_mem_wakeUpsOf hw
  have hkeys : b.rows.toList.map (·.1) = b.rows.keys := Std.ExtTreeMap.map_fst_toList_eq_keys
  by_cases hrow : q.agentsAt tick = []
  · have habsent : tick ∉ b.rows.toList.map (·.1) := by
      rw [hkeys, Std.ExtTreeMap.mem_keys, h.mem_rows_iff]
      exact WakeQueue.agentsAt_eq_nil_iff.1 hrow
    rw [filter_flatMap_of_not_mem hmade habsent, ← wakeUpsOf_agentsAt, hrow]
    rfl
  · have hmem : (tick, q.agentsAt tick) ∈ b.rows.toList := by
      rw [Std.ExtTreeMap.mem_toList_iff_getElem?_eq_some, h.rows_eq, if_neg hrow]
    rw [← wakeUpsOf_agentsAt]
    exact filter_flatMap_of_mem (hkeys ▸ nodup_keys b.rows) hmade hmem

/-- Cutting the table by ticks parts the wake-ups by their ticks. -/
theorem flatMap_filter_perm (h : b.Holds q) (p : Tick → Bool) :
    ((b.rows.filter fun k _ => p k).toList.flatMap (·.2)).Perm
      ((q.pending.filter fun w => p w.tick).map (·.agent)) := by
  have hagents : ∀ rows : List (Tick × List AgentId),
      rows.flatMap (·.2) = (rows.flatMap wakeUpsOf).map (·.agent) := by
    intro rows
    rw [List.map_flatMap]
    refine List.flatMap_congr fun row _ => ?_
    rw [wakeUpsOf, List.map_map]
    exact (List.map_id _).symm
  have hcut : (b.rows.toList.filter fun row => p row.1).flatMap wakeUpsOf =
      (b.rows.toList.flatMap wakeUpsOf).filter fun w => p w.tick :=
    flatMap_filter_of_agree fun row _ w hw => congrArg p (tick_eq_of_mem_wakeUpsOf hw)
  rw [Std.ExtTreeMap.toList_filter, hagents, hcut]
  exact (h.flatMap_rows_perm.filter _).map _

theorem drainDue (h : b.Holds q) (tick : Tick) :
    (b.drainDue tick).1 = (q.drainDue tick).1 ∧
      (b.drainDue tick).2.Holds (q.drainDue tick).2 := by
  rw [WakeBuckets.drainDue, h.nextTick?_eq]
  split
  · rename_i hnext
    rw [WakeQueue.drainDue_of_lt (WakeQueue.lt_tick_of_nextTick? hnext)]
    exact ⟨rfl, h⟩
  · have hdue : ((b.rows.filter fun k _ => decide (k < tick + 1)).toList.flatMap (·.2)).Perm
        ((q.due tick).map (·.agent)) := by
      have hcut := h.flatMap_filter_perm fun k => k < tick + 1
      simp only [Nat.lt_succ_iff] at hcut ⊢
      rw [WakeQueue.due_eq_filter]
      exact hcut
    refine ⟨?_, ⟨fun other => ?_, ?_⟩⟩
    · exact mergeSort_eq_of_perm _ key_le_trans key_le_total hdue fun _ _ _ _ hab hba =>
        Ident.eq_iff_index_eq.2 (Nat.le_antisymm (of_decide_eq_true hab) (of_decide_eq_true hba))
    · rw [Std.ExtTreeMap.getElem?_filter', h.rows_eq]
      simp only [WakeQueue.drainDue, WakeQueue.agentsAt_later, Nat.succ_le_iff]
      by_cases hlater : tick < other
      · simp only [hlater, decide_true, if_true]
        split <;> rfl
      · simp only [hlater, decide_false, if_false, if_true]
        split <;> rfl
    · have hsplit := congrArg List.length (WakeQueue.due_append_later q tick)
      rw [List.length_append] at hsplit
      have htotal : b.total = q.pending.length := h.total_eq
      change b.total - _ = (q.later tick).pending.length
      rw [hdue.length_eq, List.length_map, htotal, ← hsplit, Nat.add_sub_cancel_left]

end Holds
end WakeBuckets

end Thoroughfare

import Mathlib.Data.Prod.Lex
import Thoroughfare.Proofs.Event.Merging

/-!
# The keys of events

Events are ordered by time, agent and rank.  The merged sequence of a step has all its events in the
order of their keys, those with one key as they came.  If no two events of one agent have the same
rank, no two events have the same key.
-/

namespace Thoroughfare
namespace Event

variable {a b : Event} {now : Nat} {events : List Event} {batches : List (List Event)}

/-- What events are ordered by: the time first, then the agent, then the rank. -/
def key (e : Event) : Nat ×ₗ Nat ×ₗ Nat :=
  toLex (e.time, toLex (e.agent.index, e.kind.rank))

theorem notAfter_iff_key_le : notAfter a b = true ↔ a.key ≤ b.key := by
  rw [notAfter_iff, key, key, Prod.Lex.toLex_le_toLex, Prod.Lex.toLex_le_toLex,
    Ident.eq_iff_index_eq]

theorem key_lt_of_time_lt (h : a.time < b.time) : a.key < b.key :=
  Prod.Lex.toLex_lt_toLex.2 (Or.inl h)

theorem time_le_of_key_le (h : a.key ≤ b.key) : a.time ≤ b.time :=
  Nat.not_lt.1 fun hlt => not_lt.2 h (key_lt_of_time_lt hlt)

/-- All events of some batches in the order of their keys, and those with one key in the order of
the batches. -/
structure Arranges (events : List Event) (batches : List (List Event)) : Prop where
  perm : events.Perm batches.flatten
  ascending : events.Pairwise fun a b => a.key ≤ b.key
  stable : ∀ k, events.filter (fun e => e.key = k) = batches.flatten.filter fun e => e.key = k

theorem arranges_merge (batches : List (List Event)) : Arranges (merge batches) batches where
  perm := merge_perm batches
  ascending := (List.pairwise_mergeSort notAfter_trans notAfter_total batches.flatten).imp
    notAfter_iff_key_le.1
  stable := by
    intro k
    have hsame : (batches.flatten.filter fun e => e.key = k).Pairwise fun a b =>
        notAfter a b = true := by
      refine List.pairwise_of_forall_mem_list fun a ha b hb => notAfter_iff_key_le.2 ?_
      rw [List.mem_filter, decide_eq_true_eq] at ha hb
      rw [ha.2, hb.2]
    have hkept := (List.sublist_mergeSort notAfter_trans notAfter_total hsame
      List.filter_sublist).filter fun e => decide (e.key = k)
    simp only [List.filter_filter, Bool.and_self] at hkept
    exact (hkept.eq_of_length (((merge_perm batches).filter _).length_eq).symm).symm

theorem Distinct.nodup_key (h : Distinct now events) : (events.map key).Nodup := by
  refine List.pairwise_map.2 (List.pairwise_iff_getElem.2 fun i j hi hj hij heq => ?_)
  have hagents : events[i].agent = events[j].agent := by
    simp only [key, toLex_inj, Prod.mk.injEq] at heq
    exact Ident.eq_iff_index_eq.2 heq.2.1
  have hascending := List.pairwise_iff_getElem.1
    (List.pairwise_filter.1 (h.ascending events[j].agent)) i j hi hj hij
  have hranks := hascending (decide_eq_true hagents) (decide_eq_true rfl)
  simp only [key, toLex_inj, Prod.mk.injEq] at heq
  omega

/-- The keys of the merged sequence ascend strictly. -/
theorem Distinct.pairwise_key_merge (h : Distinct now batches.flatten) :
    (merge batches).Pairwise fun a b => a.key < b.key := by
  have hnodup : ((merge batches).map key).Nodup :=
    ((merge_perm batches).map key).nodup_iff.2 h.nodup_key
  exact (arranges_merge batches).ascending.imp₂ (fun a b hle hne => lt_of_le_of_ne hle hne)
    (List.pairwise_map.1 hnodup)

end Event
end Thoroughfare

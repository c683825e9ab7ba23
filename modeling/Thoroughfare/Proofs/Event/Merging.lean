import Thoroughfare.Event.Basic
import Thoroughfare.Proofs.Arrangement

/-!
# Merging the events of a step

The order of events is total, and it tells apart all events of a step in which the events of one
agent have different ranks.  So the merged sequence depends only on what is told of each agent: it
holds the events of one agent as they were told, and batches that tell the same of every agent are
merged into the same sequence.
-/

namespace Thoroughfare
namespace Event

variable {a b : Event} {batches batches' : List (List Event)}

/-! ## The order of events -/

theorem notAfter_iff :
    notAfter a b = true ↔ a.time < b.time ∨ a.time = b.time ∧
      (a.agent.index < b.agent.index ∨ a.agent = b.agent ∧ a.kind.rank ≤ b.kind.rank) := by
  unfold notAfter
  split
  · rename_i htime
    split
    · rename_i hagent
      simp [htime, hagent]
    · rename_i hagent
      have hindex : a.agent.index ≠ b.agent.index := mt Ident.eq_iff_index_eq.2 hagent
      simp [htime, hagent, Nat.le_iff_lt_or_eq, hindex]
  · rename_i htime
    simp [htime, Nat.le_iff_lt_or_eq]

theorem notAfter_trans (a b c : Event) (hab : notAfter a b = true) (hbc : notAfter b c = true) :
    notAfter a c = true := by
  simp only [notAfter_iff, Ident.eq_iff_index_eq] at hab hbc ⊢
  omega

theorem notAfter_total (a b : Event) : (notAfter a b || notAfter b a) = true := by
  simp only [Bool.or_eq_true, notAfter_iff, Ident.eq_iff_index_eq]
  omega

/-! ## The merged sequence -/

theorem merge_perm (batches : List (List Event)) : (merge batches).Perm batches.flatten :=
  List.mergeSort_perm _ _

/-- Events of one second of which no two of one agent have the same rank. -/
structure Distinct (now : Nat) (events : List Event) : Prop where
  time_eq : ∀ e ∈ events, e.time = now
  ascending : ∀ id : AgentId, (events.filter fun e => e.agent = id).Pairwise fun a b =>
    a.kind.rank < b.kind.rank

theorem Distinct.eq_of_notAfter {now : Nat} {events : List Event} (h : Distinct now events)
    (ha : a ∈ events) (hb : b ∈ events) (hab : notAfter a b = true) (hba : notAfter b a = true) :
    a = b := by
  have htimes : a.time = b.time := (h.time_eq a ha).trans (h.time_eq b hb).symm
  have hagents : a.agent = b.agent := by
    rw [notAfter_iff] at hab hba
    rw [Ident.eq_iff_index_eq] at hab hba ⊢
    omega
  have hranks : a.kind.rank = b.kind.rank := by
    rw [notAfter_iff] at hab hba
    rw [Ident.eq_iff_index_eq] at hab hba
    omega
  have hnodup : ((events.filter fun e => e.agent = b.agent).map (·.kind.rank)).Nodup :=
    List.pairwise_map.2 ((h.ascending b.agent).imp Nat.ne_of_lt)
  exact List.inj_on_of_nodup_map hnodup (List.mem_filter.2 ⟨ha, decide_eq_true hagents⟩)
    (List.mem_filter.2 ⟨hb, decide_eq_true rfl⟩) hranks

/-- Batches that tell the same of every agent are merged into the same sequence. -/
theorem Distinct.merge_congr {now : Nat} (h : Distinct now batches.flatten)
    (hsame : ∀ id : AgentId, batches.flatten.filter (fun e => e.agent = id) =
      batches'.flatten.filter fun e => e.agent = id) :
    merge batches = merge batches' :=
  mergeSort_eq_of_perm notAfter notAfter_trans notAfter_total
    (perm_of_filter_key hsame) fun _ ha _ hb => h.eq_of_notAfter ha hb

/-- Merging keeps the events of one agent as they were told. -/
theorem Distinct.filter_merge {now : Nat} (h : Distinct now batches.flatten) (id : AgentId) :
    (merge batches).filter (fun e => e.agent = id) =
      batches.flatten.filter fun e => e.agent = id := by
  have hsorted : ((merge batches).filter fun e => e.agent = id).Pairwise fun a b =>
      notAfter a b = true :=
    (List.pairwise_mergeSort notAfter_trans notAfter_total batches.flatten).sublist
      List.filter_sublist
  have htold : (batches.flatten.filter fun e => e.agent = id).Pairwise fun a b =>
      notAfter a b = true := by
    apply (h.ascending id).imp_of_mem
    intro a b ha hb hlt
    rw [List.mem_filter, decide_eq_true_eq] at ha hb
    refine notAfter_iff.2 (Or.inr ⟨?_, Or.inr ⟨?_, Nat.le_of_lt hlt⟩⟩)
    · exact (h.time_eq a ha.1).trans (h.time_eq b hb.1).symm
    · exact ha.2.trans hb.2.symm
  refine List.Perm.eq_of_pairwise ?_ hsorted htold ((merge_perm batches).filter _)
  intro a b ha hb hab hba
  exact h.eq_of_notAfter ((merge_perm batches).mem_iff.1 (List.mem_filter.1 ha).1)
    (List.mem_filter.1 hb).1 hab hba

theorem Distinct.time_eq_of_mem_merge {now : Nat} (h : Distinct now batches.flatten)
    (ha : a ∈ merge batches) : a.time = now :=
  h.time_eq a ((merge_perm batches).mem_iff.1 ha)

end Event
end Thoroughfare

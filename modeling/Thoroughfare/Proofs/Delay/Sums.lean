import Thoroughfare.Proofs.Simulation.Situation

/-!
# Sums over tables

A change of one row of a table changes a sum over all its values by what the row counts.
-/

namespace Thoroughfare

section Tables

variable {kind : Entity} {β : Type} {t : Std.ExtTreeMap (Ident kind) β} {k : Ident kind} {v : β}
  {f : β → Nat}

theorem map_snd_toList (t : Std.ExtTreeMap (Ident kind) β) : t.toList.map (·.2) = t.values := by
  obtain ⟨inner⟩ := t
  induction inner using Std.ExtDTreeMap.inductionOn with
  | mk m =>
      change (Std.DTreeMap.Internal.Impl.Const.toList m.inner).map (·.2) = m.inner.values
      rw [Std.DTreeMap.Internal.Impl.Const.toList_eq_toListModel_map,
        Std.DTreeMap.Internal.Impl.values_eq_map_snd, List.map_map]
      rfl

/-- The sum of what the values of a table count. -/
def sumOver (f : β → Nat) (t : Std.ExtTreeMap (Ident kind) β) : Nat :=
  (t.values.map f).sum

theorem sumOver_eq (f : β → Nat) (t : Std.ExtTreeMap (Ident kind) β) :
    sumOver f t = (t.toList.map fun entry => f entry.2).sum := by
  rw [sumOver, ← map_snd_toList, List.map_map]
  rfl

@[simp] theorem sumOver_empty : sumOver f (∅ : Std.ExtTreeMap (Ident kind) β) = 0 := by
  rw [sumOver_eq, Std.ExtTreeMap.toList_eq_nil_iff.2 rfl]
  rfl

theorem perm_toList_insert (t : Std.ExtTreeMap (Ident kind) β) (k : Ident kind) (v : β) :
    (t.insert k v).toList.Perm ((k, v) :: (t.erase k).toList) := by
  have hnodup : ∀ t : Std.ExtTreeMap (Ident kind) β, t.toList.Nodup :=
    fun t => (nodup_map_fst_toList (t := t)).of_map
  have habsent : (k, v) ∉ (t.erase k).toList := by
    rw [Std.ExtTreeMap.mem_toList_iff_getElem?_eq_some, getElem?_erase_ident, if_pos rfl]
    exact nofun
  refine (List.perm_ext_iff_of_nodup (hnodup _)
    (List.nodup_cons.2 ⟨habsent, hnodup _⟩)).2 fun entry => ?_
  obtain ⟨a, w⟩ := entry
  rw [List.mem_cons, Std.ExtTreeMap.mem_toList_iff_getElem?_eq_some,
    Std.ExtTreeMap.mem_toList_iff_getElem?_eq_some, getElem?_insert_ident, getElem?_erase_ident]
  by_cases hsame : k = a
  · simp [hsame, eq_comm]
  · simp [hsame, Ne.symm hsame]

/-- The row that is put in counts, and the others do as before. -/
theorem sumOver_insert : sumOver f (t.insert k v) = f v + sumOver f (t.erase k) := by
  rw [sumOver_eq, sumOver_eq,
    ((perm_toList_insert t k v).map fun entry => f entry.2).sum_nat]
  rfl

/-- One row and all others. -/
theorem sumOver_split (f : β → Nat) (t : Std.ExtTreeMap (Ident kind) β) (k : Ident kind) :
    sumOver f t = t[k]?.elim 0 f + sumOver f (t.erase k) := by
  cases hrow : t[k]? with
  | none =>
      have hsame : t.erase k = t := by
        ext a : 1
        rw [getElem?_erase_ident]
        split
        · rename_i hka
          rw [← hka, hrow]
        · rfl
      rw [hsame, Option.elim_none, Nat.zero_add]
  | some v =>
      have hsame : t.insert k v = t := by
        ext a : 1
        rw [getElem?_insert_ident]
        split
        · rename_i hka
          rw [← hka, hrow]
        · rfl
      rw [Option.elim_some, ← sumOver_insert, hsame]

theorem getElem?_alter_ident {a : Ident kind} {change : Option β → Option β} :
    (t.alter k change)[a]? = if k = a then change t[k]? else t[a]? := by
  rw [Std.ExtTreeMap.getElem?_alter]
  simp only [Std.LawfulEqCmp.compare_eq_iff_eq]

/-- The row that is changed counts as it is now, and the others do as before. -/
theorem sumOver_alter {change : Option β → Option β} :
    sumOver f (t.alter k change) = (change t[k]?).elim 0 f + sumOver f (t.erase k) := by
  have herase : (t.alter k change).erase k = t.erase k := by
    ext a : 1
    rw [getElem?_erase_ident, getElem?_erase_ident, getElem?_alter_ident]
    split <;> rfl
  rw [sumOver_split f (t.alter k change) k, herase, getElem?_alter_ident, if_pos rfl]

/-- A sum over a table is a sum over the identifiers of its rows. -/
theorem sumOver_eq_sum {ids : List (Ident kind)} (hnodup : ids.Nodup)
    (hrows : ∀ k v, t[k]? = some v → k ∈ ids) :
    sumOver f t = (ids.map fun id => t[id]?.elim 0 f).sum := by
  induction ids generalizing t with
  | nil =>
      have hempty : t = ∅ := by
        ext a : 1
        cases hrow : t[a]? with
        | none => simp
        | some v => exact absurd (hrows a v hrow) List.not_mem_nil
      rw [hempty, sumOver_empty]
      rfl
  | cons id rest ih =>
      obtain ⟨hid, hrest⟩ := List.nodup_cons.1 hnodup
      have hothers : ∀ k v, (t.erase id)[k]? = some v → k ∈ rest := by
        intro k v hrow
        rw [getElem?_erase_ident] at hrow
        split at hrow
        · cases hrow
        · rename_i hne
          exact (List.mem_cons.1 (hrows k v hrow)).resolve_left (Ne.symm hne)
      have hsame : (rest.map fun k => (t.erase id)[k]?.elim 0 f) =
          rest.map fun k => t[k]?.elim 0 f := by
        refine List.map_congr_left fun k hk => ?_
        have hne : id ≠ k := fun hsame => hid (hsame ▸ hk)
        rw [getElem?_erase_ident, if_neg hne]
      rw [sumOver_split f t id, ih hrest hothers, hsame, List.map_cons, List.sum_cons]

/-- The size of a table is the number of the identifiers that have a row. -/
theorem size_eq_countP {ids : List (Ident kind)} (hnodup : ids.Nodup)
    (hrows : ∀ k v, t[k]? = some v → k ∈ ids) : t.size = ids.countP fun id => t[id]?.isSome := by
  have hsize : t.size = sumOver (fun _ => 1) t := by
    rw [sumOver_eq, List.map_const', List.sum_replicate_nat, Nat.mul_one,
      Std.ExtTreeMap.length_toList]
  rw [hsize, sumOver_eq_sum hnodup hrows, countP_eq_sum]
  refine congrArg List.sum (List.map_congr_left fun id _ => ?_)
  cases t[id]? <;> rfl

end Tables

end Thoroughfare

import Thoroughfare.Simulation.Offer
import Mathlib.Algebra.BigOperators.Group.List.Basic
import Mathlib.Algebra.Ring.Nat
import Mathlib.Data.List.Induction
import Mathlib.Data.List.Nodup
import Mathlib.Data.List.Perm.Basic
import Mathlib.Data.Nat.Basic
import Mathlib.Order.Lattice

/-!
# Arrangements of lists

A simulation is split into districts, and each district works through lists of its own.  The facts
below say when such lists, put together, do not depend on the split: a list with different keys is
fixed by what it holds and by its order, and what was done for one key can be filtered out again.
-/

namespace Thoroughfare

/-! ## Working through a list without failure -/

theorem mapM_eq_map_of_ok {ε β γ : Type} {work : β → Except ε γ} {done : β → γ} {items : List β}
    (h : ∀ item ∈ items, work item = .ok (done item)) :
    items.mapM work = .ok (items.map done) := by
  induction items with
  | nil => rfl
  | cons first rest ih =>
      have hrest := ih fun item hitem => h item (List.mem_cons_of_mem _ hitem)
      rw [List.mapM_cons, h first List.mem_cons_self, hrest]
      rfl

theorem mapM_eq_filterMap_of_ok {ε β γ : Type} {work : β → Except ε γ} {pick : β → Option γ}
    {items : List β} (h : ∀ item ∈ items, ∃ made, pick item = some made ∧ work item = .ok made) :
    items.mapM work = .ok (items.filterMap pick) := by
  induction items with
  | nil => rfl
  | cons first rest ih =>
      obtain ⟨made, hpick, hwork⟩ := h first List.mem_cons_self
      have hrest := ih fun item hitem => h item (List.mem_cons_of_mem _ hitem)
      rw [List.mapM_cons, hwork, hrest, List.filterMap_cons_some hpick]
      rfl

/-- Work on all items succeeds just when the work on each of them does. -/
theorem map_eq_map_ok_of_mapM {ε β γ : Type} {work : β → Except ε γ} {items : List β}
    {done : List γ} (h : items.mapM work = .ok done) : items.map work = done.map .ok := by
  induction items generalizing done with
  | nil =>
      cases h
      rfl
  | cons first rest ih =>
      rw [List.mapM_cons] at h
      rcases hfirst : work first with e | c
      · rw [hfirst] at h
        cases h
      rcases hrest : rest.mapM work with e | more
      · rw [hfirst, hrest] at h
        cases h
      rw [hfirst, hrest] at h
      cases h
      rw [List.map_cons, List.map_cons, hfirst, ih hrest]

/-- Work on all items succeeds, or there is a first item on which it fails, and this is the
failure. -/
theorem mapM_cases {ε β γ : Type} (work : β → Except ε γ) (items : List β) :
    (∃ done, items.mapM work = .ok done) ∨
    ∃ before item after e, items = before ++ item :: after ∧ items.mapM work = .error e ∧
      (∀ other ∈ before, ∃ c, work other = .ok c) ∧ work item = .error e := by
  induction items with
  | nil => exact Or.inl ⟨[], rfl⟩
  | cons first rest ih =>
      rw [List.mapM_cons]
      cases hfirst : work first with
      | error e => exact Or.inr ⟨[], first, rest, e, rfl, rfl, nofun, hfirst⟩
      | ok c =>
          obtain ⟨done, hdone⟩ | ⟨before, item, after, e, hrest, herror, hbefore, hitem⟩ := ih
          · rw [hdone]
            exact Or.inl ⟨c :: done, rfl⟩
          · rw [herror]
            refine Or.inr ⟨first :: before, item, after, e, by rw [hrest, List.cons_append], rfl,
              List.forall_mem_cons.2 ⟨⟨c, hfirst⟩, hbefore⟩, hitem⟩

/-- What exists for each item of a list is a function of the items. -/
theorem exists_fun_of_forall_mem {β γ : Type} [Nonempty γ] {items : List β}
    (P : β → γ → Prop) (h : ∀ item ∈ items, ∃ c, P item c) :
    ∃ f : β → γ, ∀ item ∈ items, P item (f item) := by
  classical
  refine ⟨fun item => if hex : ∃ c, P item c then hex.choose else Classical.arbitrary γ, ?_⟩
  intro item hitem
  have hex := h item hitem
  simp only [dif_pos hex]
  exact hex.choose_spec

/-! ## Lists with keys -/

section Keys

variable {β γ κ : Type}

/-- Lists that belong to different owners have no entry in common, so together they have no entry
twice. -/
theorem nodup_flatMap_of_owner {owners : List β} {list : β → List γ} (owner : β → κ)
    (ownerOf : γ → κ) (howners : (owners.map owner).Nodup)
    (hlist : ∀ o ∈ owners, (list o).Nodup)
    (hown : ∀ o ∈ owners, ∀ c ∈ list o, ownerOf c = owner o) :
    (owners.flatMap list).Nodup := by
  rw [List.nodup_flatMap]
  refine ⟨hlist, ?_⟩
  have hne : owners.Pairwise fun a b => owner a ≠ owner b := List.pairwise_map.1 howners
  apply hne.imp_of_mem
  intro a b ha hb hab c hca hcb
  exact hab ((hown a ha c hca).symm.trans (hown b hb c hcb))

/-- What was made of one item can be filtered out of what was made of all. -/
theorem filter_flatMap_of_mem [DecidableEq κ] {items : List β} {key : β → κ} {made : β → List γ}
    {keyOf : γ → κ} (hnodup : (items.map key).Nodup)
    (hmade : ∀ item ∈ items, ∀ c ∈ made item, keyOf c = key item) {item : β}
    (hitem : item ∈ items) :
    (items.flatMap made).filter (fun c => keyOf c = key item) = made item := by
  induction items with
  | nil => cases hitem
  | cons first rest ih =>
      rw [List.map_cons, List.nodup_cons] at hnodup
      have hfirst := hmade first List.mem_cons_self
      have hrest : ∀ other ∈ rest, ∀ c ∈ made other, keyOf c = key other :=
        fun other hother => hmade other (List.mem_cons_of_mem _ hother)
      rw [List.flatMap_cons, List.filter_append]
      rcases List.mem_cons.1 hitem with rfl | hmem
      · have hnone : (rest.flatMap made).filter (fun c => keyOf c = key item) = [] := by
          rw [List.filter_eq_nil_iff]
          intro c hc hkey
          obtain ⟨other, hother, hcother⟩ := List.mem_flatMap.1 hc
          have hsame : key item = key other :=
            (of_decide_eq_true hkey).symm.trans (hrest other hother c hcother)
          exact hnodup.1 (hsame ▸ List.mem_map_of_mem hother)
        rw [hnone, List.append_nil]
        exact List.filter_eq_self.2 fun c hc => decide_eq_true (hfirst c hc)
      · have hnone : (made first).filter (fun c => keyOf c = key item) = [] := by
          rw [List.filter_eq_nil_iff]
          intro c hc hkey
          have hsame : key first = key item :=
            (hfirst c hc).symm.trans (of_decide_eq_true hkey)
          exact hnodup.1 (hsame ▸ List.mem_map_of_mem hmem)
        rw [hnone, List.nil_append]
        exact ih hnodup.2 hrest hmem

theorem filter_flatMap_of_not_mem [DecidableEq κ] {items : List β} {key : β → κ}
    {made : β → List γ} {keyOf : γ → κ}
    (hmade : ∀ item ∈ items, ∀ c ∈ made item, keyOf c = key item) {k : κ}
    (hk : k ∉ items.map key) :
    (items.flatMap made).filter (fun c => keyOf c = k) = [] := by
  rw [List.filter_eq_nil_iff]
  intro c hc hkey
  obtain ⟨item, hitem, hcitem⟩ := List.mem_flatMap.1 hc
  have hsame : key item = k := (hmade item hitem c hcitem).symm.trans (of_decide_eq_true hkey)
  exact hk (hsame ▸ List.mem_map_of_mem hitem)

/-- When all items but one give nothing, that one gives everything. -/
theorem flatMap_eq_of_forall_ne {items : List β} {made : β → List γ} {item : β}
    (hnodup : items.Nodup) (hitem : item ∈ items)
    (hothers : ∀ other ∈ items, other ≠ item → made other = []) :
    items.flatMap made = made item := by
  induction items with
  | nil => cases hitem
  | cons first rest ih =>
      rw [List.nodup_cons] at hnodup
      rw [List.flatMap_cons]
      rcases List.mem_cons.1 hitem with rfl | hmem
      · have hnone : rest.flatMap made = [] := by
          rw [List.flatMap_eq_nil_iff]
          intro other hother
          exact hothers other (List.mem_cons_of_mem _ hother) fun hsame =>
            hnodup.1 (hsame ▸ hother)
        rw [hnone, List.append_nil]
      · have hne : first ≠ item := fun hsame => hnodup.1 (hsame ▸ hmem)
        rw [hothers first List.mem_cons_self hne, List.nil_append]
        exact ih hnodup.2 hmem fun other hother =>
          hothers other (List.mem_cons_of_mem _ hother)

/-- Two lists are rearrangements of each other if they agree on every key. -/
theorem perm_of_filter_key [DecidableEq γ] [DecidableEq κ] {keyOf : γ → κ} {l m : List γ}
    (h : ∀ k, l.filter (fun c => keyOf c = k) = m.filter (fun c => keyOf c = k)) : l.Perm m := by
  rw [List.perm_iff_count]
  intro c
  have hcount : ∀ list : List γ,
      List.count c list = List.count c (list.filter fun other => keyOf other = keyOf c) := by
    intro list
    exact (List.count_filter (by simp)).symm
  rw [hcount l, hcount m, h]

/-- What is picked from items and keeps their keys has the keys in the same order. -/
theorem map_filterMap_sublist {items : List β} {pick : β → Option γ} {key? : β → Option κ}
    {keyOf : γ → κ} (h : ∀ item ∈ items, ∀ c, pick item = some c → key? item = some (keyOf c)) :
    ((items.filterMap pick).map keyOf).Sublist (items.filterMap key?) := by
  induction items with
  | nil => exact List.Sublist.refl _
  | cons first rest ih =>
      have hrest := ih fun item hitem => h item (List.mem_cons_of_mem _ hitem)
      rw [List.filterMap_cons]
      cases hpick : pick first with
      | none =>
          apply hrest.trans
          rw [List.filterMap_cons]
          split
          · exact List.Sublist.refl _
          · exact List.sublist_cons_self _ _
      | some c =>
          rw [List.filterMap_cons_some (h first List.mem_cons_self c hpick), List.map_cons]
          exact hrest.cons_cons _

theorem map_filterMap_sublist_map {items : List β} {pick : β → Option γ} {key : β → κ}
    {keyOf : γ → κ} (h : ∀ item ∈ items, ∀ c, pick item = some c → keyOf c = key item) :
    ((items.filterMap pick).map keyOf).Sublist (items.map key) := by
  rw [← List.filterMap_eq_map (f := key)]
  apply map_filterMap_sublist
  intro item hitem c hpick
  rw [h item hitem c hpick]
  rfl

theorem lookup_eq_none_of_not_mem [DecidableEq κ] {l : List (κ × β)} {k : κ}
    (h : k ∉ l.map (·.1)) : l.lookup k = none := by
  rw [List.lookup_eq_none_iff]
  intro entry hentry
  have hne : k ≠ entry.1 := by
    rintro rfl
    exact h (List.mem_map_of_mem hentry)
  simpa using hne

theorem lookup_eq_some_iff_mem [DecidableEq κ] {l : List (κ × β)} {k : κ} {v : β}
    (hnodup : (l.map (·.1)).Nodup) : l.lookup k = some v ↔ (k, v) ∈ l := by
  induction l with
  | nil => simp
  | cons first rest ih =>
      rw [List.map_cons, List.nodup_cons] at hnodup
      have ih := ih hnodup.2
      rw [List.lookup_cons, List.mem_cons]
      by_cases hkey : k = first.1
      · have hrest : (k, v) ∉ rest := fun hmem => hnodup.1 (hkey ▸ List.mem_map_of_mem hmem)
        subst hkey
        simp only [beq_self_eq_true, Option.some.injEq]
        constructor
        · rintro rfl
          exact Or.inl rfl
        · rintro (hsame | hmem)
          · rw [← hsame]
          · exact absurd hmem hrest
      · have hbeq : (k == first.1) = false := by simpa using hkey
        rw [hbeq]
        constructor
        · intro hfound
          exact Or.inr (ih.1 hfound)
        · rintro (hsame | hmem)
          · exact absurd (congrArg Prod.fst hsame) hkey
          · exact ih.2 hmem

theorem find?_eq_some_iff_mem [DecidableEq κ] {items : List β} {key : β → κ} {k : κ} {item : β}
    (hnodup : (items.map key).Nodup) :
    items.find? (fun item => key item = k) = some item ↔ item ∈ items ∧ key item = k := by
  constructor
  · intro hfind
    exact ⟨List.mem_of_find?_eq_some hfind, by simpa using List.find?_some hfind⟩
  · rintro ⟨hitem, rfl⟩
    cases hfind : items.find? fun other => key other = key item with
    | none => simpa using List.find?_eq_none.1 hfind item hitem
    | some other =>
        have hsame : key other = key item := by simpa using List.find?_some hfind
        rw [List.inj_on_of_nodup_map hnodup (List.mem_of_find?_eq_some hfind) hitem hsame]

theorem nodup_eraseDups [DecidableEq β] (l : List β) : l.eraseDups.Nodup := by
  induction hlength : l.length using Nat.strong_induction_on generalizing l with
  | h length ih =>
      cases l with
      | nil => exact List.nodup_nil
      | cons first rest =>
          rw [List.eraseDups_cons, List.nodup_cons, List.mem_eraseDups]
          refine ⟨by simp, ih _ ?_ _ rfl⟩
          rw [← hlength, List.length_cons]
          exact Nat.lt_succ_of_le (List.length_filter_le _ _)

/-- An item at the end of a list counts only if it has not come before. -/
theorem eraseDups_concat [DecidableEq β] (l : List β) (b : β) :
    (l ++ [b]).eraseDups = if b ∈ l then l.eraseDups else l.eraseDups ++ [b] := by
  rw [List.eraseDups_append, List.removeAll]
  by_cases hb : b ∈ l
  · rw [if_pos hb, List.filter_cons_of_neg (by simpa using hb)]
    simp
  · rw [if_neg hb, List.filter_cons_of_pos (by simpa using hb), List.filter_nil,
      List.eraseDups_cons]
    simp

/-- Without its repetitions a list has its items in the order of their first places. -/
theorem pairwise_idxOf_eraseDups [DecidableEq β] (l : List β) :
    l.eraseDups.Pairwise fun a b => l.idxOf a < l.idxOf b := by
  induction l using List.reverseRecOn with
  | nil => exact .nil
  | append_singleton l last ih =>
      have hbefore : l.eraseDups.Pairwise fun a b =>
          (l ++ [last]).idxOf a < (l ++ [last]).idxOf b := by
        apply ih.imp_of_mem
        intro a b ha hb hab
        rwa [List.idxOf_append_of_mem (List.mem_eraseDups.1 ha),
          List.idxOf_append_of_mem (List.mem_eraseDups.1 hb)]
      rw [eraseDups_concat]
      split
      · exact hbefore
      · rename_i hlast
        refine List.pairwise_append.2 ⟨hbefore, List.pairwise_singleton _ _, fun a ha b hb => ?_⟩
        rw [List.mem_singleton] at hb
        rw [List.mem_eraseDups] at ha
        subst hb
        rw [List.idxOf_append_of_mem ha, List.idxOf_append_of_notMem hlast]
        exact (List.idxOf_lt_length_of_mem ha).trans_le (Nat.le_add_right _ _)

/-- Where a list that is put together can be cut. -/
theorem append_eq_append_cons {l m pre post : List β} {b : β}
    (h : l ++ m = pre ++ b :: post) :
    (∃ rest, l = pre ++ b :: rest ∧ post = rest ++ m) ∨
      ∃ start, pre = l ++ start ∧ m = start ++ b :: post := by
  rcases List.append_eq_append_iff.1 h with ⟨start, hpre, hm⟩ | ⟨rest, hl, hrest⟩
  · exact Or.inr ⟨start, hpre, hm⟩
  · cases rest with
    | nil =>
        rw [List.append_nil] at hl
        exact Or.inr ⟨[], by rw [hl, List.append_nil], hrest.symm⟩
    | cons c rest =>
        rw [List.cons_append, List.cons.injEq] at hrest
        obtain ⟨rfl, rfl⟩ := hrest
        exact Or.inl ⟨rest, hl, rfl⟩

theorem exists_mem_of_forall₂ {R : β → γ → Prop} {l : List β} {m : List γ}
    (h : List.Forall₂ R l m) {b : β} (hb : b ∈ l) : ∃ c ∈ m, R b c := by
  induction h with
  | nil => cases hb
  | cons hfirst _ ih =>
      rcases List.mem_cons.1 hb with rfl | hrest
      · exact ⟨_, List.mem_cons_self, hfirst⟩
      · obtain ⟨c, hc, hR⟩ := ih hrest
        exact ⟨c, List.mem_cons_of_mem _ hc, hR⟩

theorem map_eq_map_of_forall₂ {R : β → γ → Prop} {f : β → κ} {k : γ → κ} {l : List β} {m : List γ}
    (h : List.Forall₂ R l m) (hR : ∀ b c, R b c → k c = f b) : m.map k = l.map f := by
  induction h with
  | nil => rfl
  | cons hfirst _ ih => rw [List.map_cons, List.map_cons, hR _ _ hfirst, ih]

theorem eq_of_mem_zip_of_map_eq {f : β → κ} {h : γ → κ} {l : List β} {m : List γ}
    (hmap : l.map f = m.map h) {entry : β × γ} (hentry : entry ∈ l.zip m) :
    f entry.1 = h entry.2 := by
  induction l generalizing m with
  | nil => simp at hentry
  | cons first rest ih =>
      cases m with
      | nil => simp at hmap
      | cons other others =>
          rw [List.map_cons, List.map_cons, List.cons.injEq] at hmap
          rw [List.zip_cons_cons, List.mem_cons] at hentry
          rcases hentry with rfl | hrest
          · exact hmap.1
          · exact ih hmap.2 hrest

/-- What is made of the items that are kept is what is kept of all that is made. -/
theorem flatMap_filter_of_agree {p : β → Bool} {q : γ → Bool} {made : β → List γ} {l : List β}
    (h : ∀ item ∈ l, ∀ c ∈ made item, q c = p item) :
    (l.filter p).flatMap made = (l.flatMap made).filter q := by
  induction l with
  | nil => rfl
  | cons first rest ih =>
      have hrest := ih fun item hitem => h item (List.mem_cons_of_mem _ hitem)
      have hfirst := h first List.mem_cons_self
      rw [List.filter_cons, List.flatMap_cons, List.filter_append, ← hrest]
      cases hp : p first with
      | true =>
          have hall : (made first).filter q = made first :=
            List.filter_eq_self.2 fun c hc => (hfirst c hc).trans hp
          rw [if_pos rfl, List.flatMap_cons, hall]
      | false =>
          have hnone : (made first).filter q = [] :=
            List.filter_eq_nil_iff.2 fun c hc => by simp [hfirst c hc, hp]
          rw [if_neg Bool.false_ne_true, hnone, List.nil_append]

theorem lookup_filter_of_pos [DecidableEq κ] {p : κ → Bool} {k : κ} (hk : p k = true)
    (l : List (κ × β)) : (l.filter fun entry => p entry.1).lookup k = l.lookup k := by
  induction l with
  | nil => rfl
  | cons first rest ih =>
      by_cases hkey : k = first.1
      · subst hkey
        rw [List.filter_cons, if_pos hk, List.lookup_cons, List.lookup_cons, beq_self_eq_true]
      · have hbeq : (k == first.1) = false := by simpa using hkey
        rw [List.filter_cons, List.lookup_cons, hbeq, ← ih]
        split
        · rw [List.lookup_cons, hbeq]
        · rfl

theorem lookup_map_snd [DecidableEq κ] (f : β → γ) (l : List (κ × β)) (k : κ) :
    (l.map fun entry => (entry.1, f entry.2)).lookup k = (l.lookup k).map f := by
  induction l with
  | nil => rfl
  | cons first rest ih =>
      rw [List.map_cons, List.lookup_cons, List.lookup_cons, ih]
      cases k == first.1 <;> rfl

end Keys

/-! ## Sorted lists -/

/-- A list has one sorted arrangement if no two different entries of it are equals in the order. -/
theorem mergeSort_eq_of_perm {β : Type} (le : β → β → Bool)
    (htrans : ∀ a b c, le a b = true → le b c = true → le a c = true)
    (htotal : ∀ a b, (le a b || le b a) = true) {l m : List β} (hperm : l.Perm m)
    (hequal : ∀ a ∈ l, ∀ b ∈ l, le a b = true → le b a = true → a = b) :
    l.mergeSort le = m.mergeSort le := by
  refine List.Perm.eq_of_pairwise ?_ (List.pairwise_mergeSort htrans htotal l)
    (List.pairwise_mergeSort htrans htotal m)
    ((List.mergeSort_perm l le).trans (hperm.trans (List.mergeSort_perm m le).symm))
  intro a b ha hb hab hba
  exact hequal a ((List.mergeSort_perm l le).mem_iff.1 ha) b
    (hperm.mem_iff.2 ((List.mergeSort_perm m le).mem_iff.1 hb)) hab hba

section SortedByKeys

variable {β κ : Type} [LinearOrder κ] {key : β → κ} {l m : List β}

theorem key_le_trans (a b c : β) (hab : decide (key a ≤ key b) = true)
    (hbc : decide (key b ≤ key c) = true) : decide (key a ≤ key c) = true :=
  decide_eq_true (le_trans (of_decide_eq_true hab) (of_decide_eq_true hbc))

theorem key_le_total (a b : β) : (decide (key a ≤ key b) || decide (key b ≤ key a)) = true := by
  simp only [Bool.or_eq_true, decide_eq_true_eq]
  exact le_total _ _

theorem pairwise_mergeSort_key (l : List β) :
    (l.mergeSort fun a b => key a ≤ key b).Pairwise fun a b => key a ≤ key b :=
  (List.pairwise_mergeSort key_le_trans key_le_total l).imp of_decide_eq_true

/-- A list with different keys has one arrangement that is sorted by them. -/
theorem mergeSort_key_eq_of_perm (hperm : l.Perm m) (hkeys : (l.map key).Nodup) :
    (l.mergeSort fun a b => key a ≤ key b) = m.mergeSort fun a b => key a ≤ key b :=
  mergeSort_eq_of_perm _ key_le_trans key_le_total hperm fun _ ha _ hb hab hba =>
    List.inj_on_of_nodup_map hkeys ha hb
      (le_antisymm (of_decide_eq_true hab) (of_decide_eq_true hba))

/-- A list that ascends strictly by some keys is the sorted arrangement of all its
rearrangements. -/
theorem mergeSort_eq_of_pairwise_lt (hperm : l.Perm m)
    (hm : m.Pairwise fun a b => key a < key b) :
    (l.mergeSort fun a b => key a ≤ key b) = m := by
  have hkeys : (m.map key).Nodup := List.pairwise_map.2 (hm.imp ne_of_lt)
  rw [mergeSort_key_eq_of_perm hperm ((hperm.map key).nodup_iff.2 hkeys)]
  exact List.mergeSort_of_pairwise (hm.imp fun hlt => decide_eq_true (le_of_lt hlt))

/-- Lists that ascend strictly by some keys are the same if they have the same items. -/
theorem eq_of_pairwise_lt (hl : l.Pairwise fun a b => key a < key b)
    (hm : m.Pairwise fun a b => key a < key b)
    (hsame : ∀ b, b ∈ l ↔ b ∈ m) : l = m := by
  have hnodup : ∀ {list : List β}, (list.Pairwise fun a b => key a < key b) → list.Nodup :=
    fun h => h.imp fun hlt heq => ne_of_lt hlt (congrArg key heq)
  refine ((List.perm_ext_iff_of_nodup (hnodup hl) (hnodup hm)).2 hsame).eq_of_pairwise ?_ hl hm
  exact fun a b _ _ hab hba => absurd hba (lt_asymm hab)

/-- Sorting keeps the items of one key as they came. -/
theorem filter_mergeSort_key [DecidableEq κ] (l : List β) (k : κ) :
    (l.mergeSort fun a b => key a ≤ key b).filter (fun b => key b = k) =
      l.filter fun b => key b = k := by
  have hsame : (l.filter fun b => key b = k).Pairwise fun a b => decide (key a ≤ key b) = true := by
    refine List.pairwise_of_forall_mem_list fun a ha b hb => ?_
    rw [List.mem_filter, decide_eq_true_eq] at ha hb
    rw [ha.2, hb.2, decide_eq_true_eq]
  have hkept := (List.sublist_mergeSort key_le_trans key_le_total hsame
    List.filter_sublist).filter fun b => decide (key b = k)
  simp only [List.filter_filter, Bool.and_self] at hkept
  exact (hkept.eq_of_length (((List.mergeSort_perm l _).filter _).length_eq).symm).symm

/-- A list that is sorted by some keys has the items with small keys in front. -/
theorem filter_append_filter_of_pairwise (h : l.Pairwise fun a b => key a ≤ key b) (k : κ) :
    l.filter (fun b => key b < k) ++ l.filter (fun b => ¬key b < k) = l := by
  induction l with
  | nil => rfl
  | cons first rest ih =>
      rw [List.pairwise_cons] at h
      by_cases hfirst : key first < k
      · rw [List.filter_cons_of_pos (by simpa using hfirst),
          List.filter_cons_of_neg (by simpa using hfirst), List.cons_append, ih h.2]
      · have hall : ∀ b ∈ first :: rest, ¬key b < k := by
          intro b hb
          rcases List.mem_cons.1 hb with rfl | hrest
          · exact hfirst
          · exact fun hlt => hfirst (lt_of_le_of_lt (h.1 b hrest) hlt)
        rw [List.filter_eq_nil_iff.2 (by simpa using hall), List.nil_append,
          List.filter_eq_self.2 (by simpa using hall)]

end SortedByKeys

/-- A list that is sorted by numbers has the items of each number one behind the other. -/
theorem eq_flatMap_of_pairwise {β : Type} {key : β → Nat} {l : List β} {rows : Nat}
    (h : l.Pairwise fun a b => key a ≤ key b) (hrows : ∀ b ∈ l, key b < rows) :
    l = (List.range rows).flatMap fun i => l.filter fun b => key b = i := by
  induction rows generalizing l with
  | zero =>
      rw [List.eq_nil_iff_forall_not_mem.2 fun b hb => Nat.not_lt_zero _ (hrows b hb)]
      rfl
  | succ rows ih =>
      have hfront := ih (h.filter fun b => key b < rows) fun b hb =>
        of_decide_eq_true (List.mem_filter.1 hb).2
      have hrow : ∀ i ∈ List.range rows,
          (l.filter fun b => key b < rows).filter (fun b => key b = i) =
            l.filter fun b => key b = i := by
        intro i hi
        rw [List.filter_filter]
        apply List.filter_congr
        intro b _
        rw [Bool.and_eq_left_iff_imp, decide_eq_true_eq, decide_eq_true_eq]
        rintro rfl
        exact List.mem_range.1 hi
      have hlast : (l.filter fun b => ¬key b < rows) = l.filter fun b => key b = rows := by
        apply List.filter_congr
        intro b hb
        have hlt := hrows b hb
        simp only [decide_eq_decide]
        omega
      rw [List.range_succ, List.flatMap_append, List.flatMap_singleton, ← hlast,
        ← List.flatMap_congr hrow, ← hfront, filter_append_filter_of_pairwise h]

theorem mergeSort_key_eq_flatMap {β : Type} {key : β → Nat} {l : List β} {rows : Nat}
    (hrows : ∀ b ∈ l, key b < rows) :
    (l.mergeSort fun a b => key a ≤ key b) =
      (List.range rows).flatMap fun i => l.filter fun b => key b = i := by
  rw [eq_flatMap_of_pairwise (pairwise_mergeSort_key l) fun b hb =>
    hrows b (List.mem_mergeSort.1 hb)]
  exact List.flatMap_congr fun i _ => filter_mergeSort_key l i

theorem exists_key_lt {β : Type} (key : β → Nat) (l : List β) :
    ∃ rows, ∀ b ∈ l, key b < rows := by
  induction l with
  | nil => exact ⟨0, nofun⟩
  | cons first rest ih =>
      obtain ⟨rows, hrows⟩ := ih
      refine ⟨max rows (key first + 1), List.forall_mem_cons.2 ⟨?_, fun b hb => ?_⟩⟩
      · exact Nat.lt_of_succ_le (Nat.le_max_right _ _)
      · exact (hrows b hb).trans_le (Nat.le_max_left _ _)

/-- Lists that are sorted by numbers are the same if they have the same items of each number in the
same order. -/
theorem eq_of_pairwise_of_filter {β : Type} {key : β → Nat} {l m : List β}
    (hl : l.Pairwise fun a b => key a ≤ key b) (hm : m.Pairwise fun a b => key a ≤ key b)
    (hsame : ∀ i, l.filter (fun b => key b = i) = m.filter fun b => key b = i) : l = m := by
  obtain ⟨rows, hrows⟩ := exists_key_lt key l
  have hrows' : ∀ b ∈ m, key b < rows := by
    intro b hb
    have hmem : b ∈ m.filter fun c => key c = key b := List.mem_filter.2 ⟨hb, decide_eq_true rfl⟩
    rw [← hsame] at hmem
    exact hrows b (List.mem_of_mem_filter hmem)
  calc l
    _ = (List.range rows).flatMap fun i => l.filter fun b => key b = i :=
      eq_flatMap_of_pairwise hl hrows
    _ = (List.range rows).flatMap fun i => m.filter fun b => key b = i :=
      List.flatMap_congr fun i _ => hsame i
    _ = m := (eq_flatMap_of_pairwise hm hrows').symm

/-- In a list without repetitions the places of those in front ascend. -/
theorem pairwise_idxOf_of_isPrefix {β : Type} [DecidableEq β] {l front : List β}
    (hnodup : l.Nodup) (hfront : front <+: l) :
    front.Pairwise fun a b => l.idxOf a < l.idxOf b := by
  refine List.Pairwise.sublist hfront.sublist (List.pairwise_iff_getElem.2 ?_)
  intro i j hi hj hij
  rwa [hnodup.idxOf_getElem, hnodup.idxOf_getElem]

/-! ## The ascending order -/

section Ascending

variable {kind : Entity} {β : Type}

theorem perm_ascending (entries : List (Ident kind × β)) : (ascending entries).Perm entries := by
  rw [ascending_eq_mergeSort]
  exact List.mergeSort_perm entries _

theorem nodup_index_of_nodup {entries : List (Ident kind × β)}
    (hnodup : (entries.map (·.1)).Nodup) : (entries.map (·.1.index)).Nodup := by
  have hindex := hnodup.map (f := Ident.index) fun _ _ hsame => Ident.eq_iff_index_eq.2 hsame
  rwa [List.map_map] at hindex

/-- Entries with different numbers are in the same ascending order however they came. -/
theorem ascending_eq_of_perm {l m : List (Ident kind × β)} (hperm : l.Perm m)
    (hnodup : (l.map (·.1)).Nodup) : ascending l = ascending m := by
  rw [ascending_eq_mergeSort, ascending_eq_mergeSort]
  exact mergeSort_key_eq_of_perm hperm (nodup_index_of_nodup hnodup)

/-- Entries with different numbers ascend strictly in the ascending order. -/
theorem pairwise_lt_ascending {entries : List (Ident kind × β)}
    (hnodup : ((ascending entries).map (·.1)).Nodup) :
    ((ascending entries).map (·.1)).Pairwise fun a b => a.index < b.index := by
  have hsorted : (ascending entries).Pairwise fun a b => a.1.index ≤ b.1.index := by
    rw [ascending_eq_mergeSort]
    exact pairwise_mergeSort_key entries
  have hdifferent := List.pairwise_map.1 (nodup_index_of_nodup hnodup)
  rw [List.pairwise_map]
  exact (hsorted.and hdifferent).imp fun hboth => Nat.lt_of_le_of_ne hboth.1 hboth.2

end Ascending

/-! ## Sums of counts -/

section Sums

variable {β γ : Type}

theorem sum_map_zip {items : List β} {others : List γ} (h : items.length = others.length)
    (f : β → Nat) (k : γ → Nat) :
    ((items.zip others).map fun entry => f entry.1 + k entry.2).sum =
      (items.map f).sum + (others.map k).sum := by
  have hfst : (items.zip others).map Prod.fst = items := List.map_fst_zip (Nat.le_of_eq h)
  have hsnd : (items.zip others).map Prod.snd = others :=
    List.map_snd_zip (Nat.le_of_eq h.symm)
  have hfirst := congrArg (List.map f) hfst
  have hsecond := congrArg (List.map k) hsnd
  rw [List.map_map] at hfirst hsecond
  rw [List.sum_map_add, ← hfirst, ← hsecond]
  rfl

theorem countP_eq_sum (p : β → Bool) (items : List β) :
    items.countP p = (items.map fun item => (p item).toNat).sum := by
  induction items with
  | nil => rfl
  | cons first rest ih =>
      rw [List.countP_cons, List.map_cons, List.sum_cons, ih, Nat.add_comm]
      cases p first <;> rfl

/-- Counts are as equal as what they count is, item by item. -/
theorem countP_add_countP_of_forall {items : List β} {p q p' q' : β → Bool}
    (h : ∀ item ∈ items, (p item).toNat + (q item).toNat = (p' item).toNat + (q' item).toNat) :
    items.countP p + items.countP q = items.countP p' + items.countP q' := by
  simp only [countP_eq_sum]
  rw [← List.sum_map_add, ← List.sum_map_add, List.map_congr_left h]

/-- Items that are counted number by number are counted once each. -/
theorem sum_countP_key {key : β → Nat} {items : List β} {rows : Nat}
    (h : ∀ item ∈ items, key item < rows) :
    ((List.range rows).map fun i => items.countP fun b => key b = i).sum = items.length := by
  simp only [List.countP_eq_length_filter]
  rw [← List.length_flatMap, ← mergeSort_key_eq_flatMap h, List.length_mergeSort]

theorem getElem?_foldl_modify (key : β → Nat) (items : List β) (counts : Array Nat)
    (i : Nat) :
    (items.foldl (fun counts b => counts.modify (key b) (· + 1)) counts)[i]? =
      counts[i]?.map (· + items.countP fun b => key b = i) := by
  induction items generalizing counts with
  | nil => simp
  | cons first rest ih =>
      rw [List.foldl_cons, ih, Array.getElem?_modify, List.countP_cons]
      by_cases hfirst : key first = i
      · simp only [hfirst, if_true, decide_true, Option.map_map, Function.comp_def]
        congr 1
        funext count
        omega
      · simp [hfirst]

/-- Whoever counts items by number counts for each number the items that have it. -/
theorem toList_foldl_modify (rows : Nat) (key : β → Nat) (items : List β) :
    (items.foldl (fun counts b => counts.modify (key b) (· + 1)) (Array.replicate rows 0)).toList =
      (List.range rows).map fun i => items.countP fun b => key b = i := by
  apply List.ext_getElem?
  intro i
  rw [Array.getElem?_toList, getElem?_foldl_modify, List.getElem?_map, Array.getElem?_replicate]
  by_cases hi : i < rows
  · rw [if_pos hi, List.getElem?_range hi, Option.map_some, Option.map_some, Nat.zero_add]
  · rw [if_neg hi, List.getElem?_eq_none (by simpa using Nat.le_of_not_lt hi)]
    rfl

end Sums

end Thoroughfare

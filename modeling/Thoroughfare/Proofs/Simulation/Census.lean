import Thoroughfare.Proofs.Simulation.City

/-!
# What the world tells

Whatever is counted or looked up in all districts of a sound city can be read off its world: every
agent, how many agents are live, wait, are under way or are finished, whether nobody is on the way,
and when somebody is to be woken next.  So two cities with the same world agree on all of it.
-/

namespace Thoroughfare

/-- What holds of all entries of a table holds of the list of them. -/
theorem all_eq_all_toList {κ β : Type} {cmp : κ → κ → Ordering} [Std.TransCmp cmp]
    (t : Std.ExtTreeMap κ β cmp) (p : κ → β → Bool) :
    t.all p = t.toList.all fun entry => p entry.1 entry.2 := by
  obtain ⟨inner⟩ := t
  refine inner.inductionOn fun m => ?_
  let visit : κ × β → Option Bool × Unit → Id (ForInStep (Option Bool × Unit)) := fun entry _ =>
    if p entry.1 entry.2 = false then pure (.done (some false, ())) else pure (.yield (none, ()))
  have hvisit : (forIn (m := Id) m.inner (none, ()) fun entry found =>
      visit (entry.1, entry.2) found) = forIn (Std.DTreeMap.Const.toList m) (none, ()) visit :=
    Std.DTreeMap.Const.forInUncurried_eq_forIn_toList
  have hloop : m.inner.all p =
      ((forIn (Std.DTreeMap.Const.toList m) (none, ()) visit : Id _).run.1).getD true := by
    rw [← hvisit]
    unfold Std.DTreeMap.Internal.Impl.all
    generalize hfound : (forIn (m := Id) m.inner (none, ()) fun entry found =>
      visit (entry.1, entry.2) found) = found
    apply (congrArg (fun found : Option Bool × Unit => _) hfound).trans
    rcases found with ⟨_ | answer, _⟩ <;> rfl
  change m.inner.all p = (Std.DTreeMap.Const.toList m).all _
  rw [hloop]
  induction Std.DTreeMap.Const.toList m with
  | nil => rfl
  | cons first rest ih =>
      rw [List.forIn_cons, List.all_cons]
      cases hfirst : p first.1 first.2 with
      | true => simpa [visit, hfirst] using ih
      | false => simp [visit, hfirst]

namespace Situation

/-- The agent in a situation. -/
def agent? : Situation → Option Agent
  | absent => none
  | resting a _ => some a
  | waiting a _ => some a
  | underWay a _ => some a
  | done a => some a

/-- Whether an agent waits to depart or is on a link. -/
def isOut : Situation → Bool
  | waiting _ _ => true
  | underWay _ _ => true
  | _ => false

end Situation

namespace District

variable {α : Type} {g : Network} {p : Partitioning} {tick : Tick} {d : District α} {id : AgentId}

/-- The agents on the links of a district. -/
def travellers (d : District α) : List AgentId :=
  d.links.toList.flatMap fun entry => entry.2.agentIds

theorem enRouteCount_eq_length (d : District α) : d.enRouteCount = d.travellers.length := by
  have hfold : ∀ (entries : List (LinkId × LinkQueue α)) (count : Nat),
      entries.foldl (fun count entry => count + entry.2.entries.length) count =
        count + (entries.flatMap fun entry => entry.2.agentIds).length := by
    intro entries
    induction entries with
    | nil => intro count; rfl
    | cons first rest ih =>
        intro count
        rw [List.foldl_cons, ih, List.flatMap_cons, List.length_append, LinkQueue.agentIds,
          List.length_map, Nat.add_assoc]
  rw [enRouteCount, Std.ExtTreeMap.foldl_eq_foldl_toList, hfold, Nat.zero_add]
  rfl

namespace Sound

theorem agent?_eq (h : d.Sound g p tick) (id : AgentId) :
    d.agent? id = (d.situation id).agent? := by
  obtain ⟨hlive, -, -, -, hfinished⟩ := lists_iff.1 (h.tidy id)
  rw [agent?, hlive, hfinished]
  cases d.situation id <;> rfl

theorem mem_travellers_iff (h : d.Sound g p tick) :
    id ∈ d.travellers ↔ ∃ a held?, d.situation id = .underWay a held? := by
  rw [travellers, List.mem_flatMap]
  constructor
  · rintro ⟨⟨link, q⟩, hentry, hid⟩
    obtain ⟨a, held?, hsituation, -⟩ :=
      h.exists_underWay (Std.ExtTreeMap.mem_toList_iff_getElem?_eq_some.1 hentry) hid
    exact ⟨a, held?, hsituation⟩
  · rintro ⟨a, held?, hsituation⟩
    obtain ⟨link, q, -, hq, hid⟩ := h.exists_queue hsituation
    exact ⟨(link, q), Std.ExtTreeMap.mem_toList_iff_getElem?_eq_some.2 hq, hid⟩

theorem nodup_travellers (h : d.Sound g p tick) : d.travellers.Nodup := by
  have hget : ∀ entry ∈ d.links.toList, d.links[entry.1]? = some entry.2 :=
    fun entry hentry => Std.ExtTreeMap.mem_toList_iff_getElem?_eq_some.1 hentry
  refine nodup_flatMap_of_owner (fun entry => some entry.1)
    (fun id => (d.situation id).link?) ?_ ?_ ?_
  · have hnodup : (d.links.toList.map (·.1)).Nodup := nodup_map_fst_toList
    have hsome := hnodup.map fun _ _ hsame => Option.some.inj hsame
    rwa [List.map_map] at hsome
  · intro entry hentry
    exact h.single entry.1 entry.2 (hget entry hentry)
  · intro entry hentry id hid
    obtain ⟨a, held?, hsituation, hlink, -⟩ := h.exists_underWay (hget entry hentry) hid
    rw [hsituation]
    exact hlink

/-- Nobody is on the way in a quiescent district. -/
theorem isQuiescent_iff (h : d.Sound g p tick) :
    d.isQuiescent = true ↔ ∀ id, (d.situation id).isOut = false := by
  have hlinks : (d.links.all fun _ q => q.entries.isEmpty) = true ↔ d.travellers = [] := by
    rw [all_eq_all_toList, List.all_eq_true, travellers, List.flatMap_eq_nil_iff]
    simp only [LinkQueue.agentIds, List.map_eq_nil_iff, List.isEmpty_iff]
  rw [isQuiescent, Bool.and_eq_true, hlinks]
  constructor
  · rintro ⟨hdeparting, htravellers⟩ id
    cases hsituation : d.situation id with
    | waiting a refused =>
        have hlisted := h.departing_eq_some_iff.2 ⟨a, hsituation⟩
        rw [Std.ExtTreeMap.isEmpty_iff.1 hdeparting] at hlisted
        simp at hlisted
    | underWay a held? =>
        have hid := h.mem_travellers_iff.2 ⟨a, held?, hsituation⟩
        rw [htravellers] at hid
        cases hid
    | _ => rfl
  · intro hnobody
    constructor
    · rw [Std.ExtTreeMap.isEmpty_iff, Std.ExtTreeMap.eq_empty_iff_forall_not_mem]
      intro id hid
      obtain ⟨a, hsituation⟩ :=
        h.departing_eq_some_iff.1 (Std.ExtTreeMap.getElem?_eq_some_getElem hid)
      have hout := hnobody id
      rw [hsituation] at hout
      cases hout
    · rw [List.eq_nil_iff_forall_not_mem]
      intro id hid
      obtain ⟨a, held?, hsituation⟩ := h.mem_travellers_iff.1 hid
      have hout := hnobody id
      rw [hsituation] at hout
      cases hout

/-- The next wake-up of a district is the earliest of those that rest in it. -/
theorem nextTick?_eq_some_iff (h : d.Sound g p tick) {next : Tick} :
    d.wakeUps.nextTick? = some next ↔
      (∃ id a, d.situation id = .resting a next) ∧
        ∀ id a k, d.situation id = .resting a k → next ≤ k := by
  have hticks : ∀ id k, k ∈ d.wakeUps.ticksOf id ↔ ∃ a, d.situation id = .resting a k := by
    intro id k
    rw [(lists_iff.1 (h.tidy id)).2.1]
    cases d.situation id <;> simp [Situation.listing, eq_comm]
  rw [WakeQueue.nextTick?_eq_some_iff]
  simp only [hticks]
  constructor
  · rintro ⟨hsomebody, hleast⟩
    exact ⟨hsomebody, fun id a k hresting => hleast id k ⟨a, hresting⟩⟩
  · rintro ⟨hsomebody, hleast⟩
    refine ⟨hsomebody, fun id k hk => ?_⟩
    obtain ⟨a, hresting⟩ := hk
    exact hleast id a k hresting

theorem exists_nextTick? (h : d.Sound g p tick) {a : Agent} {k : Tick}
    (hresting : d.situation id = .resting a k) :
    ∃ next, d.wakeUps.nextTick? = some next ∧ next ≤ k := by
  have hk : k ∈ d.wakeUps.ticksOf id := by
    rw [(lists_iff.1 (h.tidy id)).2.1, hresting]
    exact List.mem_singleton_self k
  cases hnext : d.wakeUps.nextTick? with
  | some next => exact ⟨next, rfl, (h.nextTick?_eq_some_iff.1 hnext).2 id a k hresting⟩
  | none =>
      rw [WakeQueue.nextTick?, Option.map_eq_none_iff, List.head?_eq_none_iff] at hnext
      rw [WakeQueue.mem_ticksOf_iff, hnext] at hk
      cases hk

end Sound

/-- A list that every sound district keeps of its agents in some situations. -/
structure Register (g : Network) {γ : Type} (list : District α → List γ) (keyOf : γ → AgentId)
    (shows : Situation → γ → Prop) : Prop where
  absent : ∀ c, ¬shows .absent c
  nodup : ∀ {p : Partitioning} {tick : Tick} {d : District α}, d.Sound g p tick → (list d).Nodup
  mem_iff : ∀ {p : Partitioning} {tick : Tick} {d : District α}, d.Sound g p tick →
    ∀ c, c ∈ list d ↔ shows (d.situation (keyOf c)) c

theorem register_travellers :
    Register g (travellers (α := α)) (fun id => id) fun σ _ => ∃ a held?, σ = .underWay a held? :=
  { absent := by simp
    nodup := fun hd => hd.nodup_travellers
    mem_iff := fun hd _ => hd.mem_travellers_iff }

end District

namespace City

open District (Register)

variable {α : Type} {g : Network} {p p' : Partitioning} {tick tick' : Tick}
  {districts districts' : List (District α)} {d : District α} {id : AgentId} {γ : Type}
  {list : District α → List γ} {keyOf : γ → AgentId} {shows : Situation → γ → Prop}

namespace Sound

/-! ## Looking up -/

theorem exists_district_iff (h : Sound g p tick districts) {σ : Situation} (hσ : σ ≠ .absent) :
    (∃ d ∈ districts, d.situation id = σ) ↔ situation districts id = σ := by
  constructor
  · rintro ⟨d, hd, rfl⟩
    exact h.situation_of_mem hd hσ
  · rintro rfl
    exact exists_district hσ

theorem findSome?_agent? (h : Sound g p tick districts) (id : AgentId) :
    (districts.findSome? fun d => d.agent? id) = (situation districts id).agent? := by
  apply Option.ext
  intro a
  constructor
  · intro hfind
    obtain ⟨d, hd, hagent⟩ := List.exists_of_findSome?_eq_some hfind
    rw [(h.each d hd).agent?_eq] at hagent
    rwa [h.situation_of_mem hd (by rintro habsent; rw [habsent] at hagent; cases hagent)]
  · intro hagent
    obtain ⟨d, hd, hsame⟩ := exists_district (show situation districts id ≠ .absent by
      rintro habsent; rw [habsent] at hagent; cases hagent)
    have hsome : (districts.findSome? fun d => d.agent? id).isSome = true := by
      rw [List.findSome?_isSome_iff]
      exact ⟨d, hd, by rw [(h.each d hd).agent?_eq, hsame, hagent]; rfl⟩
    obtain ⟨b, hb⟩ := Option.isSome_iff_exists.1 hsome
    obtain ⟨d', hd', hother⟩ := List.exists_of_findSome?_eq_some hb
    rw [(h.each d' hd').agent?_eq] at hother
    rw [← h.situation_of_mem hd' (by rintro habsent; rw [habsent] at hother; cases hother),
      hagent] at hother
    rw [hb, hother]

/-- Nobody is on the way in a quiescent city. -/
theorem all_isQuiescent_iff (h : Sound g p tick districts) :
    districts.all District.isQuiescent = true ↔
      ∀ id, (situation districts id).isOut = false := by
  rw [List.all_eq_true]
  constructor
  · intro hall id
    by_cases hpresent : situation districts id = .absent
    · rw [hpresent]
      rfl
    · obtain ⟨d, hd, hsame⟩ := exists_district hpresent
      rw [← hsame]
      exact (h.each d hd).isQuiescent_iff.1 (hall d hd) id
  · intro hnobody d hd
    rw [(h.each d hd).isQuiescent_iff]
    intro id
    by_cases hpresent : d.situation id = .absent
    · rw [hpresent]
      rfl
    · rw [← h.situation_of_mem hd hpresent]
      exact hnobody id

/-- The next wake-up of a city is the earliest of those that rest in it. -/
theorem min?_nextTick?_eq_some_iff (h : Sound g p tick districts) {next : Tick} :
    (districts.filterMap fun d => d.wakeUps.nextTick?).min? = some next ↔
      (∃ id a, situation districts id = .resting a next) ∧
        ∀ id a k, situation districts id = .resting a k → next ≤ k := by
  have hresting : ∀ {id a k}, situation districts id = .resting a k ↔
      ∃ d ∈ districts, d.situation id = .resting a k :=
    (h.exists_district_iff Situation.noConfusion).symm
  rw [List.min?_eq_some_iff]
  simp only [List.mem_filterMap, hresting]
  constructor
  · rintro ⟨⟨d, hd, hnext⟩, hleast⟩
    obtain ⟨⟨id, a, hsituation⟩, -⟩ := (h.each d hd).nextTick?_eq_some_iff.1 hnext
    refine ⟨⟨id, a, d, hd, hsituation⟩, ?_⟩
    rintro id b k ⟨d', hd', hsituation'⟩
    obtain ⟨first, hfirst, hle⟩ := (h.each d' hd').exists_nextTick? hsituation'
    exact Nat.le_trans (hleast first ⟨d', hd', hfirst⟩) hle
  · rintro ⟨⟨id, a, d, hd, hsituation⟩, hleast⟩
    obtain ⟨first, hfirst, hle⟩ := (h.each d hd).exists_nextTick? hsituation
    have hbound : ∀ d' ∈ districts, ∀ k, d'.wakeUps.nextTick? = some k → next ≤ k := by
      intro d' hd' k hk
      obtain ⟨⟨id', b, hsituation'⟩, -⟩ := (h.each d' hd').nextTick?_eq_some_iff.1 hk
      exact hleast id' b k ⟨d', hd', hsituation'⟩
    refine ⟨⟨d, hd, ?_⟩, ?_⟩
    · rw [hfirst, Nat.le_antisymm hle (hbound d hd first hfirst)]
    · rintro k ⟨d', hd', hk⟩
      exact hbound d' hd' k hk

/-! ## Counting -/

/-- Every district lists somebody just when it knows it in some situations. -/
theorem mem_flatMap_iff (h : Sound g p tick districts) (hlist : Register g list keyOf shows)
    (c : γ) : c ∈ districts.flatMap list ↔ shows (situation districts (keyOf c)) c := by
  rw [List.mem_flatMap]
  constructor
  · rintro ⟨d, hd, hc⟩
    have hshows := (hlist.mem_iff (h.each d hd) c).1 hc
    rwa [h.situation_of_mem hd fun hnone => hlist.absent c (hnone ▸ hshows)]
  · intro hshows
    obtain ⟨d, hd, hsame⟩ := exists_district fun hnone => hlist.absent c (hnone ▸ hshows)
    exact ⟨d, hd, (hlist.mem_iff (h.each d hd) c).2 (hsame ▸ hshows)⟩

theorem nodup_flatMap (h : Sound g p tick districts) (hlist : Register g list keyOf shows) :
    (districts.flatMap list).Nodup := by
  rw [List.nodup_flatMap]
  refine ⟨fun d hd => hlist.nodup (h.each d hd), ?_⟩
  apply (List.pairwise_map.1 h.nodup_ids).imp_of_mem
  intro d d' hd hd' hne c hc hc'
  have hshows := (hlist.mem_iff (h.each d hd) c).1 hc
  have hshows' := (hlist.mem_iff (h.each d' hd') c).1 hc'
  exact hne (h.apart (keyOf c) d hd d' hd' (fun hnone => hlist.absent c (hnone ▸ hshows))
    fun hnone => hlist.absent c (hnone ▸ hshows'))

/-- What all districts list is as much in every city with the same world. -/
theorem sum_length_eq (h : Sound g p tick districts) (h' : Sound g p' tick' districts')
    (hworld : situation districts = situation districts') (hlist : Register g list keyOf shows) :
    (districts.map fun d => (list d).length).sum =
      (districts'.map fun d => (list d).length).sum := by
  have hperm : (districts.flatMap list).Perm (districts'.flatMap list) := by
    apply (List.perm_ext_iff_of_nodup (h.nodup_flatMap hlist) (h'.nodup_flatMap hlist)).2
    intro c
    rw [h.mem_flatMap_iff hlist, h'.mem_flatMap_iff hlist, hworld]
  rw [← List.length_flatMap, ← List.length_flatMap]
  exact hperm.length_eq

theorem sum_enRouteCount_eq (h : Sound g p tick districts) (h' : Sound g p' tick' districts')
    (hworld : situation districts = situation districts') :
    (districts.map District.enRouteCount).sum =
      (districts'.map District.enRouteCount).sum := by
  rw [funext District.enRouteCount_eq_length]
  exact h.sum_length_eq h' hworld District.register_travellers

/-- The entries of a table by agent are counted the same in every city with the same world. -/
theorem sum_size_eq (h : Sound g p tick districts) (h' : Sound g p' tick' districts')
    (hworld : situation districts = situation districts') {β : Type}
    (table : District α → Std.ExtTreeMap AgentId β) (recorded? : Situation → Option β)
    (habsent : recorded? .absent = none)
    (htable : ∀ {p : Partitioning} {tick : Tick} {d : District α}, d.Sound g p tick →
      ∀ id, (table d)[id]? = recorded? (d.situation id)) :
    (districts.map fun d => (table d).size).sum =
      (districts'.map fun d => (table d).size).sum := by
  have hsize : (fun d => (table d).size) = fun d => (table d).toList.length :=
    funext fun d => Std.ExtTreeMap.length_toList.symm
  have hregister : Register g (fun d => (table d).toList) (fun entry => entry.1)
      fun σ entry => recorded? σ = some entry.2 :=
    { absent := by simp [habsent]
      nodup := fun _ => nodup_map_fst_toList.of_map
      mem_iff := fun hd entry => by
        rw [Std.ExtTreeMap.mem_toList_iff_getElem?_eq_some, htable hd] }
  rw [hsize]
  exact h.sum_length_eq h' hworld hregister

end Sound
end City

end Thoroughfare

import Thoroughfare.Proofs.Simulation.Soundness

/-!
# All districts together

The districts of a simulation make up a city.  A city is sound when every district is, when each
partition has one district, and when no agent is known in two of them.  What a sound city is to the
outside is its world: the situation of every agent and the queue of every link.  The world does not
show which district knows an agent or owns a link.
-/

namespace Thoroughfare

/-- The situation of every agent and the queue of every link. -/
structure World (α : Type) where
  situation : AgentId → Situation
  queue? : LinkId → Option (LinkQueue α)

namespace City

variable {α : Type}

/-- The situation of an agent in the district that knows it. -/
def situation (districts : List (District α)) (id : AgentId) : Situation :=
  ((districts.map fun d => d.situation id).find? (· ≠ .absent)).getD .absent

/-- What districts are to the outside. -/
def world (p : Partitioning) (districts : List (District α)) : World α where
  situation := situation districts
  queue? := Simulation.queueIn? p districts

/-- The districts fit together. -/
structure Sound (g : Network) (p : Partitioning) (tick : Tick) (districts : List (District α)) :
    Prop where
  split : districts.map (·.id) = (List.range p.count).map Ident.mk
  owners : ∀ link, g.hasLink link = true → (p.linkOwner link).index < p.count
  each : ∀ d ∈ districts, d.Sound g p tick
  apart : ∀ id, ∀ d ∈ districts, ∀ d' ∈ districts, d.situation id ≠ .absent →
    d'.situation id ≠ .absent → d.id = d'.id

variable {g : Network} {p : Partitioning} {tick tick' : Tick} {districts : List (District α)}
  {d d' : District α} {id : AgentId} {link : LinkId} {q : LinkQueue α}

namespace Sound

/-! ## Districts and partitions -/

theorem length_eq (h : Sound g p tick districts) : districts.length = p.count := by
  have hlength := congrArg List.length h.split
  rwa [List.length_map, List.length_map, List.length_range] at hlength

theorem nodup_ids (h : Sound g p tick districts) : (districts.map (·.id)).Nodup := by
  rw [h.split]
  exact List.nodup_range.map fun _ _ hsame => congrArg Ident.index hsame

theorem eq_of_id_eq (h : Sound g p tick districts) (hd : d ∈ districts) (hd' : d' ∈ districts)
    (hid : d.id = d'.id) : d = d' :=
  List.inj_on_of_nodup_map h.nodup_ids hd hd' hid

theorem id_eq_of_getElem? (h : Sound g p tick districts) {index : Nat}
    (hd : districts[index]? = some d) : d.id = ⟨index⟩ := by
  have hget : (districts.map (·.id))[index]? = some d.id := by rw [List.getElem?_map, hd]; rfl
  rw [h.split, List.getElem?_map, Option.map_eq_some_iff] at hget
  obtain ⟨other, hother, hid⟩ := hget
  rw [List.getElem?_eq_some_iff] at hother
  obtain ⟨hlt, hrange⟩ := hother
  rw [List.getElem_range] at hrange
  rw [← hid, hrange]

theorem getElem?_id (h : Sound g p tick districts) (hd : d ∈ districts) :
    districts[d.id.index]? = some d := by
  obtain ⟨index, hindex⟩ := List.getElem?_of_mem hd
  rw [h.id_eq_of_getElem? hindex]
  exact hindex

theorem exists_owner (h : Sound g p tick districts) (hlink : g.hasLink link = true) :
    ∃ d ∈ districts, d.id = p.linkOwner link := by
  have hlt := h.owners link hlink
  rw [← h.length_eq] at hlt
  have hget := List.getElem?_eq_getElem hlt
  exact ⟨_, List.getElem_mem hlt, h.id_eq_of_getElem? hget⟩

/-! ## The world -/

theorem queueIn?_eq_some_iff (h : Sound g p tick districts) :
    Simulation.queueIn? p districts link = some q ↔ ∃ d ∈ districts, d.links[link]? = some q := by
  rw [Simulation.queueIn?, Option.bind_eq_some_iff]
  constructor
  · rintro ⟨d, hd, hq⟩
    exact ⟨d, List.mem_of_getElem? hd, hq⟩
  · rintro ⟨d, hd, hq⟩
    have howner := ((h.each d hd).owned link).1 (by rw [hq]; rfl)
    exact ⟨d, by rw [howner.2]; exact h.getElem?_id hd, hq⟩

theorem queueIn?_of_mem (h : Sound g p tick districts) (hd : d ∈ districts)
    (hq : d.links[link]? = some q) : Simulation.queueIn? p districts link = some q :=
  h.queueIn?_eq_some_iff.2 ⟨d, hd, hq⟩

theorem mono (h : Sound g p tick districts) (hle : tick' ≤ tick) : Sound g p tick' districts := by
  refine ⟨h.split, h.owners, ?_, h.apart⟩
  intro d hd
  refine { h.each d hd with due := ?_ }
  intro id a k hresting
  exact Nat.le_trans hle ((h.each d hd).due id a k hresting)

end Sound

theorem situation_eq_absent_iff :
    situation districts id = .absent ↔ ∀ d ∈ districts, d.situation id = .absent := by
  unfold situation
  cases hfind : (districts.map fun d => d.situation id).find? (· ≠ .absent) with
  | none =>
      rw [List.find?_eq_none] at hfind
      refine ⟨fun _ d hd => ?_, fun _ => rfl⟩
      simpa using hfind (d.situation id) (List.mem_map_of_mem hd)
  | some σ =>
      have hpresent : σ ≠ .absent := by simpa using List.find?_some hfind
      obtain ⟨d, hd, rfl⟩ := List.mem_map.1 (List.mem_of_find?_eq_some hfind)
      exact ⟨fun hsame => absurd hsame hpresent, fun hall => absurd (hall d hd) hpresent⟩

theorem exists_district (hpresent : situation districts id ≠ .absent) :
    ∃ d ∈ districts, d.situation id = situation districts id := by
  unfold situation at hpresent ⊢
  cases hfind : (districts.map fun d => d.situation id).find? (· ≠ .absent) with
  | none =>
      rw [hfind] at hpresent
      exact absurd rfl hpresent
  | some σ =>
      obtain ⟨d, hd, rfl⟩ := List.mem_map.1 (List.mem_of_find?_eq_some hfind)
      exact ⟨d, hd, rfl⟩

namespace Sound

theorem eq_of_present (h : Sound g p tick districts) (hd : d ∈ districts) (hd' : d' ∈ districts)
    (hpresent : d.situation id ≠ .absent) (hpresent' : d'.situation id ≠ .absent) : d = d' :=
  h.eq_of_id_eq hd hd' (h.apart id d hd d' hd' hpresent hpresent')

theorem situation_of_mem (h : Sound g p tick districts) (hd : d ∈ districts)
    (hpresent : d.situation id ≠ .absent) : situation districts id = d.situation id := by
  have hsomewhere : situation districts id ≠ .absent := by
    intro habsent
    exact hpresent (situation_eq_absent_iff.1 habsent d hd)
  obtain ⟨d', hd', hsame⟩ := exists_district hsomewhere
  rw [← hsame] at hsomewhere
  rw [← hsame, h.eq_of_present hd hd' hpresent hsomewhere]

theorem valid (h : Sound g p tick districts) (id : AgentId) :
    (situation districts id).Valid g id := by
  by_cases hpresent : situation districts id = .absent
  · rw [hpresent]
    trivial
  · obtain ⟨d, hd, hsame⟩ := exists_district hpresent
    rw [← hsame]
    exact (h.each d hd).valid id

/-! ## Changing all districts -/

/-- Districts that change by themselves, without two of them knowing the same agent, stay
together. -/
theorem map_of_apart (h : Sound g p tick districts) {change : District α → District α}
    (hid : ∀ d ∈ districts, (change d).id = d.id)
    (hsound : ∀ d ∈ districts, (change d).Sound g p tick')
    (hapart : ∀ id, ∀ d ∈ districts, ∀ d' ∈ districts, (change d).situation id ≠ .absent →
      (change d').situation id ≠ .absent → d.id = d'.id) :
    Sound g p tick' (districts.map change) := by
  constructor
  · rw [List.map_map, ← h.split]
    exact List.map_congr_left hid
  · exact h.owners
  · intro d hd
    obtain ⟨before, hbefore, rfl⟩ := List.mem_map.1 hd
    exact hsound before hbefore
  · intro id d hd d' hd' hne hne'
    obtain ⟨before, hbefore, rfl⟩ := List.mem_map.1 hd
    obtain ⟨before', hbefore', rfl⟩ := List.mem_map.1 hd'
    rw [hid before hbefore, hid before' hbefore']
    exact hapart id before hbefore before' hbefore' hne hne'

/-- Districts that change by themselves, and in which nobody appears, stay together. -/
theorem map (h : Sound g p tick districts) {change : District α → District α}
    (hid : ∀ d ∈ districts, (change d).id = d.id)
    (hsound : ∀ d ∈ districts, (change d).Sound g p tick')
    (hpresent : ∀ d ∈ districts, ∀ id, (change d).situation id ≠ .absent →
      d.situation id ≠ .absent) :
    Sound g p tick' (districts.map change) := by
  apply h.map_of_apart hid hsound
  intro id d hd d' hd' hne hne'
  exact h.apart id d hd d' hd' (hpresent d hd id hne) (hpresent d' hd' id hne')

end Sound

/-- When every district changes the situation of an agent in the same way, so does the city. -/
theorem situation_map (h : Sound g p tick districts) {change : District α → District α}
    (alter : Situation → Situation) (habsent : alter .absent = .absent)
    (hchange : ∀ d ∈ districts, (change d).situation id = alter (d.situation id)) :
    situation (districts.map change) id = alter (situation districts id) := by
  by_cases hpresent : situation districts id = .absent
  · rw [hpresent, habsent, situation_eq_absent_iff]
    intro d hd
    obtain ⟨before, hbefore, rfl⟩ := List.mem_map.1 hd
    rw [hchange before hbefore, situation_eq_absent_iff.1 hpresent before hbefore, habsent]
  · obtain ⟨d, hd, hsame⟩ := exists_district hpresent
    have hothers : ∀ d' ∈ districts, d' ≠ d → (change d').situation id = .absent := by
      intro d' hd' hne
      rw [hchange d' hd']
      by_cases hd'present : d'.situation id = .absent
      · rw [hd'present, habsent]
      · rw [← hsame] at hpresent
        exact absurd (h.eq_of_present hd' hd hd'present hpresent) hne
    rw [← hsame, ← hchange d hd]
    by_cases hafter : (change d).situation id = .absent
    · rw [hafter, situation_eq_absent_iff]
      intro d' hd'
      obtain ⟨before, hbefore, rfl⟩ := List.mem_map.1 hd'
      by_cases hbd : before = d
      · rw [hbd, hafter]
      · exact hothers before hbefore hbd
    · have hsomewhere : situation (districts.map change) id ≠ .absent := by
        intro hnone
        exact hafter (situation_eq_absent_iff.1 hnone _ (List.mem_map_of_mem hd))
      obtain ⟨d', hd', hd'same⟩ := exists_district hsomewhere
      obtain ⟨before, hbefore, rfl⟩ := List.mem_map.1 hd'
      by_cases hbd : before = d
      · rw [← hd'same, hbd]
      · rw [hothers before hbefore hbd] at hd'same
        exact absurd hd'same.symm hsomewhere

/-- What all districts say of an agent is what the one that knows it says. -/
theorem flatMap_situation (h : Sound g p tick districts) {β : Type} (say : Situation → List β)
    (habsent : say .absent = []) (id : AgentId) :
    (districts.flatMap fun d => say (d.situation id)) = say (situation districts id) := by
  by_cases hpresent : situation districts id = .absent
  · rw [hpresent, habsent, List.flatMap_eq_nil_iff]
    intro d hd
    rw [situation_eq_absent_iff.1 hpresent d hd, habsent]
  · obtain ⟨d, hd, hsame⟩ := exists_district hpresent
    rw [← hsame]
    apply flatMap_eq_of_forall_ne h.nodup_ids.of_map hd
    intro d' hd' hne
    by_cases hd'present : d'.situation id = .absent
    · rw [hd'present, habsent]
    · rw [← hsame] at hpresent
      exact absurd (h.eq_of_present hd' hd hd'present hpresent) hne

/-- When every district changes a queue in the same way, so does the city. -/
theorem queueIn?_map {change : District α → District α}
    {alter : LinkQueue α → LinkQueue α}
    (hchange : ∀ d ∈ districts, (change d).links[link]? = (d.links[link]?).map alter) :
    Simulation.queueIn? p (districts.map change) link =
      (Simulation.queueIn? p districts link).map alter := by
  rw [Simulation.queueIn?, Simulation.queueIn?, List.getElem?_map]
  cases hget : districts[(p.linkOwner link).index]? with
  | none => rfl
  | some d => exact hchange d (List.mem_of_getElem? hget)

end City

namespace Simulation

variable {α : Type}

/-- The districts of a simulation fit together between two steps. -/
def Sound (s : Simulation α) : Prop :=
  City.Sound s.network s.partitioning s.tick s.districts

/-- What a simulation is to the outside. -/
def world (s : Simulation α) : World α :=
  City.world s.partitioning s.districts

end Simulation

end Thoroughfare

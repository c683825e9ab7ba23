import Thoroughfare.Proofs.Simulation.Decisions
import Thoroughfare.Proofs.Simulation.Receiving

/-!
# The traffic of a step

A sound city does the traffic of a step without failure and is sound for the next one.  What comes
of it is a function of its world: every agent gets the situation that its own ruling leads to, and
every queue loses those that were granted and gains those that enter, in the order of the decisions.
-/

namespace Thoroughfare

namespace World

variable {α : Type} [Quantity α]

/-- The world when all links have begun a step and everybody is awake who is due. -/
def begun (w : World α) (g : Network) (clock : Clock) : World α where
  situation id := (w.situation id).woken g clock.tick
  queue? link := (w.queue? link).map LinkQueue.beginStep

/-- What comes of the decisions for an agent. -/
def outcome (w : World α) (clock : Clock) (r : Resolution) (id : AgentId) : Outcome :=
  (w.situation id).outcome clock (r.rulings.lookup id)

/-- The transfers in the order of the decisions. -/
def transfers (w : World α) (clock : Clock) (r : Resolution) : List Transfer :=
  r.rulings.filterMap fun entry => ((w.situation entry.1).outcome clock (some entry.2)).transfer?

/-- The transfers into a link. -/
def entrants (w : World α) (clock : Clock) (r : Resolution) (link : LinkId) : List Transfer :=
  (w.transfers clock r).filter fun t => t.target = link

/-- The world after the decisions are carried out and the transfers are taken in. -/
def moved (w : World α) (clock : Clock) (r : Resolution) : World α where
  situation id := (w.outcome clock r id).finally
  queue? link := (w.queue? link).map fun q =>
    (q.relieved r.verdicts.links[link]?).joined clock.now (w.entrants clock r link)

end World

theorem transfers_effectsOf (clock : Clock) (σ : AgentId → Situation)
    (rulings : List (AgentId × Ruling)) :
    (effectsOf clock σ rulings).transfers =
      rulings.filterMap fun entry => ((σ entry.1).outcome clock (some entry.2)).transfer? := by
  rw [List.filterMap_eq_flatMap_toList]
  simp only [effectsOf, Effects.join, List.flatMap_map]
  rfl

namespace District

variable {α : Type} [Quantity α]

/-- A district that differs from another one by the decisions that it carried out. -/
structure Settled (clock : Clock) (r : Resolution) (d d' : District α) : Prop where
  id_eq : d'.id = d.id
  situation_eq : ∀ id, d'.situation id =
    ((d.situation id).outcome clock (r.rulings.lookup id)).after
  links_eq : ∀ link : LinkId,
    d'.links[link]? = (d.links[link]?).map fun q => q.relieved r.verdicts.links[link]?

/-- A district that differs from another one by a step, `settled` being the same district before it
took in those that enter its links. -/
structure Turned (p : Partitioning) (clock : Clock) (w : World α) (r : Resolution)
    (d settled d' : District α) : Prop where
  id_eq : d'.id = d.id
  links_eq : ∀ link : LinkId, d'.links[link]? = (d.links[link]?).map fun q =>
    (q.relieved r.verdicts.links[link]?).joined clock.now (w.entrants clock r link)
  taken : ∀ t ∈ w.transfers clock r, p.linkOwner t.target = d.id →
    d'.situation t.agent.id = .underWay t.agent none
  others : ∀ id, (∀ t ∈ w.transfers clock r, t.agent.id = id → p.linkOwner t.target ≠ d.id) →
    d'.situation id = settled.situation id

end District

instance {α : Type} : Nonempty (District α) :=
  ⟨.empty ⟨0⟩⟩

namespace City

variable {α : Type} [Quantity α] {g : Network} {p : Partitioning} {clock : Clock}
  {districts : List (District α)} {d : District α} {id : AgentId} {link : LinkId}
  {q : LinkQueue α} {t : Transfer}

namespace Sound

/-! ## Beginning -/

theorem prepare_districts (clock : Clock) (h : Sound g p clock.tick districts) :
    ∃ (change : District α → District α) (effects : District α → Effects),
      (∀ d ∈ districts, d.prepare g clock =
        .ok (change d, effects d, (change d).wishes clock.now)) ∧
      Sound g p (clock.tick + 1) (districts.map change) ∧
      world p (districts.map change) = (world p districts).begun g clock ∧
      ∀ d ∈ districts, d.Begun g clock (change d) (effects d) := by
  have : Nonempty (District α × Effects) := ⟨⟨.empty ⟨0⟩, .none⟩⟩
  obtain ⟨both, hboth⟩ := exists_fun_of_forall_mem
    (fun (d : District α) (result : District α × Effects) =>
      d.prepare g clock = .ok (result.1, result.2, result.1.wishes clock.now) ∧
        result.1.Sound g p (clock.tick + 1) ∧ d.Begun g clock result.1 result.2)
    (fun d hd => by
      obtain ⟨d', effects, hd'⟩ := (h.each d hd).prepare_eq
      exact ⟨(d', effects), hd'⟩)
  have hbegun : ∀ d ∈ districts, d.Begun g clock (both d).1 (both d).2 :=
    fun d hd => (hboth d hd).2.2
  refine ⟨fun d => (both d).1, fun d => (both d).2, fun d hd => (hboth d hd).1, ?_, ?_, hbegun⟩
  · apply h.map (fun d hd => (hbegun d hd).id_eq) fun d hd => (hboth d hd).2.1
    intro d hd id hpresent
    rwa [(hbegun d hd).situation_eq, Ne,
      Situation.woken_eq_absent_iff ((h.each d hd).valid id)] at hpresent
  · apply congrArg₂ World.mk
    · funext id
      exact situation_map h (fun σ => σ.woken g clock.tick) rfl fun d hd =>
        (hbegun d hd).situation_eq id
    · funext link
      exact queueIn?_map fun d hd => (hbegun d hd).links_eq link

/-! ## Carrying out -/

theorem settle_districts (h : Sound g p (clock.tick + 1) districts) :
    ∃ change : District α → District α,
      (∀ d ∈ districts, d.settle clock (d.wishes clock.now)
          (resolution p districts clock.now).verdicts =
        .ok (change d, effectsOf clock d.situation
          (d.rulings clock.now (resolution p districts clock.now).verdicts))) ∧
      Sound g p (clock.tick + 1) (districts.map change) ∧
      ∀ d ∈ districts, d.Settled clock (resolution p districts clock.now) (change d) := by
  obtain ⟨change, hchange⟩ := exists_fun_of_forall_mem
    (fun (d d' : District α) =>
      d.settle clock (d.wishes clock.now) (resolution p districts clock.now).verdicts =
          .ok (d', effectsOf clock d.situation
            (d.rulings clock.now (resolution p districts clock.now).verdicts)) ∧
        d'.Sound g p (clock.tick + 1) ∧ d.Settled clock (resolution p districts clock.now) d')
    (fun d hd => by
      obtain ⟨d', hok, hid, hlinks, hlists⟩ := (h.each d hd).settle_eq (h.concern hd)
      refine ⟨d', hok, (h.each d hd).of_settled (h.concern hd) hid hlinks hlists, hid, ?_, hlinks⟩
      intro id
      rw [(hlists id).situation_eq, afterRulings, h.outcome_eq hd])
  have hsettled : ∀ d ∈ districts,
      d.Settled clock (resolution p districts clock.now) (change d) :=
    fun d hd => (hchange d hd).2.2
  refine ⟨change, fun d hd => (hchange d hd).1, ?_, hsettled⟩
  apply h.map (fun d hd => (hsettled d hd).id_eq) fun d hd => (hchange d hd).2.1
  intro d hd id hpresent habsent
  rw [(hsettled d hd).situation_eq, habsent] at hpresent
  cases hlookup : (resolution p districts clock.now).rulings.lookup id <;>
    exact hpresent (by rw [hlookup]; rfl)

/-! ## Transfers -/

/-- Together the districts are told what the city is told. -/
theorem rulings_perm (h : Sound g p (clock.tick + 1) districts) :
    (districts.flatMap fun d =>
        d.rulings clock.now (resolution p districts clock.now).verdicts).Perm
      (resolution p districts clock.now).rulings := by
  have hids : (districts.map fun d => some d.id).Nodup := by
    have hnodup := h.nodup_ids.map fun _ _ hsame => Option.some.inj hsame
    rwa [List.map_map] at hnodup
  have htogether : (districts.flatMap fun d =>
      d.rulings clock.now (resolution p districts clock.now).verdicts).Nodup := by
    refine nodup_flatMap_of_owner (fun d => some d.id) (fun entry : AgentId × Ruling =>
      (situation districts entry.1).link?.map p.linkOwner) hids ?_ ?_
    · intro d hd
      exact ((h.each d hd).nodup_rulings (h.concern hd)).of_map
    · intro d hd entry hentry
      have hfits := (h.each d hd).fits_of_ruling (h.concern hd) hentry
      obtain ⟨link, hlink⟩ := hfits.exists_link ((h.each d hd).valid entry.1)
      exact h.owner_of_link? hd hlink
  apply (List.perm_ext_iff_of_nodup htogether h.nodup_rulings.of_map).2
  intro entry
  rw [List.mem_flatMap]
  constructor
  · rintro ⟨d, hd, hentry⟩
    exact ((h.mem_rulings_iff hd).1 hentry).1
  · intro hentry
    exact h.exists_district_of_ruling hentry

/-- The transfers of all districts, sorted, are the transfers in the order of the decisions. -/
theorem transfers_perm (h : Sound g p (clock.tick + 1) districts) :
    (districts.flatMap fun d => (effectsOf clock d.situation
        (d.rulings clock.now (resolution p districts clock.now).verdicts)).transfers).Perm
      ((world p districts).transfers clock (resolution p districts clock.now)) := by
  have hsame : (districts.flatMap fun d => (effectsOf clock d.situation
      (d.rulings clock.now (resolution p districts clock.now).verdicts)).transfers) =
        (districts.flatMap fun d =>
          d.rulings clock.now (resolution p districts clock.now).verdicts).filterMap fun entry =>
            ((situation districts entry.1).outcome clock (some entry.2)).transfer? := by
    rw [List.filterMap_flatMap]
    apply List.flatMap_congr
    intro d hd
    rw [transfers_effectsOf]
    apply List.filterMap_congr
    intro entry hentry
    rw [h.situation_of_mem hd ((h.mem_rulings_iff hd).1 hentry).2]
  rw [hsame]
  exact h.rulings_perm.filterMap _

theorem exists_ruling_of_transfer (h : Sound g p (clock.tick + 1) districts)
    (ht : t ∈ (world p districts).transfers clock (resolution p districts clock.now)) :
    ∃ ruling, (t.agent.id, ruling) ∈ (resolution p districts clock.now).rulings ∧
      ((situation districts t.agent.id).outcome clock (some ruling)).transfer? = some t := by
  obtain ⟨entry, hentry, hsome⟩ := List.mem_filterMap.1 ht
  have hid := ((h.fits_of_ruling hentry).valid_transfer (h.valid entry.1) hsome).1
  exact ⟨entry.2, by rw [hid]; exact hentry, by rw [hid]; exact hsome⟩

theorem passage_of_transfer (h : Sound g p (clock.tick + 1) districts)
    {entry : AgentId × Ruling} (hentry : entry ∈ (resolution p districts clock.now).rulings)
    (ht : ((situation districts entry.1).outcome clock (some entry.2)).transfer? = some t) :
    t.agent.id = entry.1 ∧ entry.2.passage? = some (t.target, t.seq) := by
  obtain ⟨hid, -, -, -, -, -, hpassage⟩ :=
    (h.fits_of_ruling hentry).valid_transfer (h.valid entry.1) ht
  exact ⟨hid, hpassage⟩

theorem nodup_transfers (h : Sound g p (clock.tick + 1) districts) :
    (((world p districts).transfers clock
      (resolution p districts clock.now)).map (·.agent.id)).Nodup := by
  refine (map_filterMap_sublist_map ?_).nodup h.nodup_rulings
  intro entry hentry t ht
  exact (h.passage_of_transfer hentry ht).1

theorem passages_sublist (h : Sound g p (clock.tick + 1) districts) :
    (((world p districts).transfers clock (resolution p districts clock.now)).map
      fun t => (t.target, t.seq)).Sublist (passages (resolution p districts clock.now).rulings) :=
  map_filterMap_sublist fun _ hentry _ ht => (h.passage_of_transfer hentry ht).2

theorem mergeSort_transfers (h : Sound g p (clock.tick + 1) districts) :
    ((districts.flatMap fun d => (effectsOf clock d.situation
        (d.rulings clock.now (resolution p districts clock.now).verdicts)).transfers).mergeSort
      fun a b => a.seq ≤ b.seq) =
      (world p districts).transfers clock (resolution p districts clock.now) := by
  apply mergeSort_eq_of_pairwise_lt h.transfers_perm
  have hpassages := (Resolution.pairwise_passages _ _).sublist h.passages_sublist
  rw [List.pairwise_map] at hpassages
  exact hpassages

/-! ## Room -/

theorem length_entrants_le (h : Sound g p (clock.tick + 1) districts) (link : LinkId) :
    ((world p districts).entrants clock (resolution p districts clock.now) link).length ≤
      Resolution.room (Simulation.freeAtStart p districts)
        (Resolution.exits (offers districts clock.now)) link := by
  have hcount := h.passages_sublist.countP_le (p := fun passage => passage.1 = link)
  rw [List.countP_map] at hcount
  rw [World.entrants, ← List.countP_eq_length_filter]
  exact Nat.le_trans hcount (Resolution.countP_passages_le _ _ link)

/-- After the grants there is room for all who enter. -/
theorem room_relieved (h : Sound g p (clock.tick + 1) districts) (hd : d ∈ districts)
    (hq : d.links[link]? = some q) (hfresh : q.startOccupancy = q.entries.length) :
    (q.relieved (resolution p districts clock.now).verdicts.links[link]?).entries.length +
        ((world p districts).entrants clock (resolution p districts clock.now) link).length ≤
      q.storage := by
  have hentrants := h.length_entrants_le link
  have hfree : Simulation.freeAtStart p districts link = q.storage - q.entries.length := by
    rw [Simulation.freeAtStart, h.queueIn?_of_mem hd hq, ← hfresh]
    rfl
  have hstorage := (h.each d hd).room link q hq
  rw [Resolution.room, hfree] at hentrants
  cases hverdict : (resolution p districts clock.now).verdicts.links[link]? with
  | none =>
      have hzero := Resolution.exits_eq_zero (Simulation.freeAtStart p districts)
        h.nodup_offers_links fun verdict hmem => by
          have hsome := h.verdict_eq_some_iff.2 hmem
          rw [hverdict] at hsome
          cases hsome
      rw [hzero] at hentrants
      simp only [LinkQueue.relieved]
      omega
  | some verdict =>
      have hexits := Resolution.exits_le_of_mem h.nodup_offers_links
        (h.verdict_eq_some_iff.1 hverdict)
      have hexecutable :=
        ((h.each d hd).executable_of_verdict (h.concern hd) hq hverdict).1
      have hgranted : verdict.grants.length ≤ q.entries.length :=
        Nat.le_trans hexecutable.offered (q.offer_isPrefix clock.now).length_le
      simp only [LinkQueue.relieved, List.length_drop]
      omega

/-! ## Taking in -/

variable {d' settled : District α}

/-- Whoever is transferred is unknown everywhere until it is taken in. -/
theorem absent_of_transfer (h : Sound g p (clock.tick + 1) districts)
    (ht : t ∈ (world p districts).transfers clock (resolution p districts clock.now))
    (hd : d ∈ districts) (hsettled : d.Settled clock (resolution p districts clock.now) d') :
    d'.situation t.agent.id = .absent := by
  obtain ⟨ruling, hruling, hsome⟩ := h.exists_ruling_of_transfer ht
  rw [hsettled.situation_eq, (lookup_eq_some_iff_mem h.nodup_rulings).2 hruling]
  by_cases hpresent : d.situation t.agent.id = .absent
  · rw [hpresent]
    rfl
  · rw [h.situation_of_mem hd hpresent] at hsome
    have hfits := h.fits_of_ruling hruling
    rw [h.situation_of_mem hd hpresent] at hfits
    obtain ⟨-, -, -, -, -, hafter, -⟩ := hfits.valid_transfer ((h.each d hd).valid _) hsome
    exact hafter

/-- Every transfer is welcome where its link belongs. -/
theorem welcome_of_transfer (h : Sound g p (clock.tick + 1) districts)
    (ht : t ∈ (world p districts).transfers clock (resolution p districts clock.now)) :
    t.Welcome g p (p.linkOwner t.target) := by
  obtain ⟨ruling, hruling, hsome⟩ := h.exists_ruling_of_transfer ht
  obtain ⟨-, hvalid, hthere, hknown, hjoined, -, -⟩ :=
    (h.fits_of_ruling hruling).valid_transfer (h.valid _) hsome
  exact ⟨hvalid, hthere, hknown, rfl, hjoined⟩

omit [Quantity α] in
theorem mem_inbox_iff {owner : PartitionId} {all : List Transfer} :
    t ∈ Simulation.inbox p owner all ↔ t ∈ all ∧ p.linkOwner t.target = owner := by
  rw [Simulation.inbox, List.mem_filter, decide_eq_true_eq]

omit [Quantity α] in
theorem filter_inbox (w : World α) (clock : Clock) (r : Resolution) {owner : PartitionId}
    (howner : p.linkOwner link = owner) :
    (Simulation.inbox p owner (w.transfers clock r)).filter (fun t => t.target = link) =
      w.entrants clock r link := by
  rw [Simulation.inbox, List.filter_filter, World.entrants]
  apply List.filter_congr
  intro t _
  by_cases htarget : t.target = link
  · simp [htarget, howner]
  · simp [htarget]

theorem hasRoom_inbox (h : Sound g p (clock.tick + 1) districts) (hd : d ∈ districts)
    (hfresh : ∀ (link : LinkId) (q : LinkQueue α), d.links[link]? = some q →
      q.startOccupancy = q.entries.length)
    (hsettled : d.Settled clock (resolution p districts clock.now) d') (owner : PartitionId) :
    d'.HasRoom (Simulation.inbox p owner
      ((world p districts).transfers clock (resolution p districts clock.now))) := by
  intro link q' hq'
  rw [hsettled.links_eq, Option.map_eq_some_iff] at hq'
  obtain ⟨q, hq, rfl⟩ := hq'
  have hfits := h.room_relieved hd hq (hfresh link q hq)
  have hcount : (Simulation.inbox p owner ((world p districts).transfers clock
      (resolution p districts clock.now))).countP (fun t => t.target = link) ≤
        ((world p districts).entrants clock (resolution p districts clock.now) link).length := by
    rw [World.entrants, ← List.countP_eq_length_filter]
    exact List.filter_sublist.countP_le
  have hstorage : (q.relieved
      (resolution p districts clock.now).verdicts.links[link]?).storage = q.storage := by
    cases (resolution p districts clock.now).verdicts.links[link]? <;> rfl
  omega

theorem receive_district (h : Sound g p (clock.tick + 1) districts) (hd : d ∈ districts)
    (hfresh : ∀ (link : LinkId) (q : LinkQueue α), d.links[link]? = some q →
      q.startOccupancy = q.entries.length)
    (hsound : settled.Sound g p (clock.tick + 1))
    (hsettled : d.Settled clock (resolution p districts clock.now) settled) :
    ∃ d', settled.receiveAll g clock.now (Simulation.inbox p settled.id
        ((world p districts).transfers clock (resolution p districts clock.now))) = .ok d' ∧
      d'.Sound g p (clock.tick + 1) ∧
      d.Turned p clock (world p districts) (resolution p districts clock.now) settled d' := by
  let inbox := Simulation.inbox p settled.id
    ((world p districts).transfers clock (resolution p districts clock.now))
  have hwelcome : ∀ t ∈ inbox, t.Welcome g p settled.id := by
    intro t ht
    obtain ⟨hmem, howner⟩ := mem_inbox_iff.1 ht
    exact howner ▸ h.welcome_of_transfer hmem
  have habsent : ∀ t ∈ inbox, settled.situation t.agent.id = .absent :=
    fun t ht => h.absent_of_transfer (mem_inbox_iff.1 ht).1 hd hsettled
  obtain ⟨d', hok, hsound', hreceived⟩ := hsound.receiveAll_eq clock.now inbox hwelcome
    ((List.filter_sublist.map _).nodup h.nodup_transfers) habsent
    (h.hasRoom_inbox hd hfresh hsettled settled.id)
  refine ⟨d', hok, hsound', hreceived.id_eq.trans hsettled.id_eq, ?_, ?_, ?_⟩
  · intro link
    rw [hreceived.links_eq, hsettled.links_eq]
    cases hq : d.links[link]? with
    | none => rfl
    | some q =>
        have howner : p.linkOwner link = settled.id :=
          (((h.each d hd).owned link).1 (by rw [hq]; rfl)).2.trans hsettled.id_eq.symm
        rw [Option.map_some, Option.map_some, Option.map_some, filter_inbox _ _ _ howner]
  · intro t ht howner
    exact hreceived.taken t (mem_inbox_iff.2 ⟨ht, howner.trans hsettled.id_eq.symm⟩)
  · intro id hnot
    apply hreceived.others
    intro hmem
    obtain ⟨t, ht, rfl⟩ := List.mem_map.1 hmem
    obtain ⟨hall, howner⟩ := mem_inbox_iff.1 ht
    exact hnot t hall rfl (howner.trans hsettled.id_eq)

/-- A transferred agent is known to the district of its link only. -/
theorem owner_of_taken (h : Sound g p (clock.tick + 1) districts)
    (ht : t ∈ (world p districts).transfers clock (resolution p districts clock.now))
    (hd : d ∈ districts) (hsettled : d.Settled clock (resolution p districts clock.now) settled)
    (hturned : d.Turned p clock (world p districts) (resolution p districts clock.now) settled d')
    (hpresent : d'.situation t.agent.id ≠ .absent) : p.linkOwner t.target = d.id := by
  by_contra hne
  apply hpresent
  rw [← h.absent_of_transfer ht hd hsettled]
  apply hturned.others
  intro other hother hsame
  rwa [List.inj_on_of_nodup_map h.nodup_transfers hother ht hsame]

variable {change take : District α → District α}

/-- No agent is known to two districts after all transfers. -/
theorem sound_taken (h : Sound g p (clock.tick + 1) districts)
    (hsound : Sound g p (clock.tick + 1) (districts.map change))
    (hsettled : ∀ d ∈ districts, d.Settled clock (resolution p districts clock.now) (change d))
    (htaken : ∀ d ∈ districts, (take d).Sound g p (clock.tick + 1))
    (hturned : ∀ d ∈ districts, d.Turned p clock (world p districts)
      (resolution p districts clock.now) (change d) (take d)) :
    Sound g p (clock.tick + 1) (districts.map take) := by
  apply h.map_of_apart (fun d hd => (hturned d hd).id_eq) htaken
  intro id d hd d' hd' hpresent hpresent'
  by_cases htransferred : ∃ t ∈ (world p districts).transfers clock
      (resolution p districts clock.now), t.agent.id = id
  · obtain ⟨t, ht, rfl⟩ := htransferred
    rw [← h.owner_of_taken ht hd (hsettled d hd) (hturned d hd) hpresent]
    exact h.owner_of_taken ht hd' (hsettled d' hd') (hturned d' hd') hpresent'
  · have hnot : ∀ d : District α, ∀ t ∈ (world p districts).transfers clock
        (resolution p districts clock.now), t.agent.id = id → p.linkOwner t.target ≠ d.id :=
      fun d t ht hsame => absurd ⟨t, ht, hsame⟩ htransferred
    rw [(hturned d hd).others id (hnot d)] at hpresent
    rw [(hturned d' hd').others id (hnot d')] at hpresent'
    have hsame := hsound.apart id _ (List.mem_map_of_mem hd) _ (List.mem_map_of_mem hd')
      hpresent hpresent'
    rwa [(hsettled d hd).id_eq, (hsettled d' hd').id_eq] at hsame

theorem transfer_of_outcome (h : Sound g p (clock.tick + 1) districts)
    (ht : ((world p districts).outcome clock (resolution p districts clock.now) id).transfer? =
      some t) :
    t ∈ (world p districts).transfers clock (resolution p districts clock.now) ∧
      t.agent.id = id := by
  cases hlookup : (resolution p districts clock.now).rulings.lookup id with
  | none =>
      rw [World.outcome, hlookup, Situation.outcome_none] at ht
      cases ht
  | some ruling =>
      rw [World.outcome, hlookup] at ht
      have hmem := (lookup_eq_some_iff_mem h.nodup_rulings).1 hlookup
      exact ⟨List.mem_filterMap.2 ⟨_, hmem, ht⟩, (h.passage_of_transfer hmem ht).1⟩

theorem outcome_of_transfer (h : Sound g p (clock.tick + 1) districts)
    (ht : t ∈ (world p districts).transfers clock (resolution p districts clock.now)) :
    ((world p districts).outcome clock (resolution p districts clock.now)
      t.agent.id).transfer? = some t := by
  obtain ⟨ruling, hruling, hsome⟩ := h.exists_ruling_of_transfer ht
  rw [World.outcome, (lookup_eq_some_iff_mem h.nodup_rulings).2 hruling]
  exact hsome

/-- After all transfers every agent is where the decisions lead it. -/
theorem situation_taken (h : Sound g p (clock.tick + 1) districts)
    (hsettled : ∀ d ∈ districts, d.Settled clock (resolution p districts clock.now) (change d))
    (hturned : ∀ d ∈ districts, d.Turned p clock (world p districts)
      (resolution p districts clock.now) (change d) (take d))
    (hsound : Sound g p (clock.tick + 1) (districts.map take)) (id : AgentId) :
    situation (districts.map take) id =
      ((world p districts).outcome clock (resolution p districts clock.now) id).finally := by
  cases htransfer : ((world p districts).outcome clock
      (resolution p districts clock.now) id).transfer? with
  | some t =>
      obtain ⟨ht, rfl⟩ := h.transfer_of_outcome htransfer
      obtain ⟨d, hd, howner⟩ := h.exists_owner (h.welcome_of_transfer ht).known
      have hthere := (hturned d hd).taken t ht howner.symm
      have hpresent : (take d).situation t.agent.id ≠ .absent := by
        rw [hthere]
        simp
      rw [hsound.situation_of_mem (List.mem_map_of_mem hd) hpresent, hthere, Outcome.finally,
        htransfer]
  | none =>
      have hnot : ∀ t ∈ (world p districts).transfers clock
          (resolution p districts clock.now), t.agent.id ≠ id := by
        rintro t ht rfl
        rw [h.outcome_of_transfer ht] at htransfer
        cases htransfer
      rw [Outcome.finally, htransfer]
      apply situation_map h (fun σ => (σ.outcome clock
        ((resolution p districts clock.now).rulings.lookup id)).after) rfl
      intro d hd
      rw [(hturned d hd).others id fun t ht hsame => absurd hsame (hnot t ht),
        (hsettled d hd).situation_eq]

theorem receive_districts (h : Sound g p (clock.tick + 1) districts)
    (hfresh : ∀ d ∈ districts, ∀ (link : LinkId) (q : LinkQueue α), d.links[link]? = some q →
      q.startOccupancy = q.entries.length)
    (hsound : Sound g p (clock.tick + 1) (districts.map change))
    (hsettled : ∀ d ∈ districts, d.Settled clock (resolution p districts clock.now) (change d)) :
    ∃ take : District α → District α,
      (∀ d ∈ districts, (change d).receiveAll g clock.now (Simulation.inbox p (change d).id
        ((world p districts).transfers clock (resolution p districts clock.now))) =
          .ok (take d)) ∧
      Sound g p (clock.tick + 1) (districts.map take) ∧
      world p (districts.map take) =
        (world p districts).moved clock (resolution p districts clock.now) := by
  obtain ⟨take, htake⟩ := exists_fun_of_forall_mem _ fun d hd =>
    h.receive_district hd (hfresh d hd) (hsound.each _ (List.mem_map_of_mem hd)) (hsettled d hd)
  have hturned : ∀ d ∈ districts, d.Turned p clock (world p districts)
      (resolution p districts clock.now) (change d) (take d) := fun d hd => (htake d hd).2.2
  have htaken : Sound g p (clock.tick + 1) (districts.map take) :=
    h.sound_taken hsound hsettled (fun d hd => (htake d hd).2.1) hturned
  refine ⟨take, fun d hd => (htake d hd).1, htaken, congrArg₂ World.mk ?_ ?_⟩
  · funext id
    exact h.situation_taken hsettled hturned htaken id
  · funext link
    exact queueIn?_map fun d hd => (hturned d hd).links_eq link

end Sound
end City

/-! ## A whole step -/

/-- What the traffic of a step does, when `begun` are the districts after its first phase. -/
structure Simulation.Turn {α : Type} [Quantity α] (s : Simulation α) (begun : List (District α))
    (t : Traffic α) : Prop where
  begun_sound : City.Sound s.network s.partitioning (s.tick + 1) begun
  begun_world : City.world s.partitioning begun =
    (City.world s.partitioning s.districts).begun s.network s.clock
  resolution_eq : t.resolution = City.resolution s.partitioning begun s.now
  sound : City.Sound s.network s.partitioning (s.tick + 1) t.districts
  world_eq : City.world s.partitioning t.districts =
    (City.world s.partitioning begun).moved s.clock t.resolution
  events_eq : ∀ id, t.batches.flatten.filter (fun e => e.agent = id) = s.clock.tell id
    ((City.situation s.districts id).wakingKinds s.network s.tick ++
      ((City.world s.partitioning begun).outcome s.clock t.resolution id).kinds)

namespace City.Sound

variable {α : Type} [Quantity α] {g : Network} {p : Partitioning} {clock : Clock}
  {districts : List (District α)} {change : District α → District α}

/-- What is told of one agent is told of it by the district that knows it. -/
theorem filter_events (clock : Clock) (h : Sound g p clock.tick districts)
    (hbegun : Sound g p (clock.tick + 1) (districts.map change))
    {effects : District α → Effects}
    (hchange : ∀ d ∈ districts, d.Begun g clock (change d) (effects d)) (id : AgentId) :
    (districts.flatMap fun d => (effects d).events ++ (effectsOf clock (change d).situation
        ((change d).rulings clock.now (resolution p (districts.map change)
          clock.now).verdicts)).events).filter (fun e => e.agent = id) =
      clock.tell id ((situation districts id).wakingKinds g clock.tick ++
        ((world p (districts.map change)).outcome clock
          (resolution p (districts.map change) clock.now) id).kinds) := by
  let ruling? := (resolution p (districts.map change) clock.now).rulings.lookup id
  let say : Situation → List Event := fun σ => clock.tell id (σ.wakingKinds g clock.tick ++
    ((σ.woken g clock.tick).outcome clock ruling?).kinds)
  have heach : ∀ d ∈ districts, ((effects d).events ++ (effectsOf clock (change d).situation
      ((change d).rulings clock.now (resolution p (districts.map change)
        clock.now).verdicts)).events).filter (fun e => e.agent = id) = say (d.situation id) := by
    intro d hd
    have hmem : change d ∈ districts.map change := List.mem_map_of_mem hd
    rw [List.filter_append, (hchange d hd).events_eq, filter_events_effectsOf
      ((hbegun.each _ hmem).nodup_rulings (hbegun.concern hmem)), hbegun.outcome_eq hmem,
      (hchange d hd).situation_eq]
    exact (List.map_append ..).symm
  have hworld : (world p (districts.map change)).situation id =
      (situation districts id).woken g clock.tick :=
    situation_map h (fun σ => σ.woken g clock.tick) rfl fun d hd => (hchange d hd).situation_eq id
  rw [List.filter_flatMap, List.flatMap_congr heach, flatMap_situation h say rfl id,
    World.outcome, hworld]

end City.Sound

namespace Simulation

variable {α : Type} [Quantity α] {s : Simulation α}

omit [Quantity α] in
theorem lostTransfer?_eq_none {g : Network} {p : Partitioning} {tick : Tick}
    {districts : List (District α)} (h : City.Sound g p tick districts) {transfers : List Transfer}
    (hknown : ∀ t ∈ transfers, g.hasLink t.target = true) :
    lostTransfer? p districts.length transfers = none := by
  rw [lostTransfer?, Option.map_eq_none_iff, List.find?_eq_none]
  intro t ht
  have hlt := h.owners t.target (hknown t ht)
  rw [h.length_eq, decide_eq_true_eq]
  exact Nat.not_le.2 hlt

/-- What the traffic of a step is when every district does every phase of it. -/
theorem traffic_of_phases {change settle take : District α → District α}
    {effects told : District α → Effects} {r : Resolution}
    (hr : City.resolution s.partitioning (s.districts.map change) s.now = r)
    (hprepare : ∀ d ∈ s.districts, d.prepare s.network s.clock =
      .ok (change d, effects d, (change d).wishes s.now))
    (hsettle : ∀ d ∈ s.districts.map change,
      d.settle s.clock (d.wishes s.now) r.verdicts = .ok (settle d, told d))
    (hlost : lostTransfer? s.partitioning s.districts.length
      ((s.districts.map change).flatMap fun d => (told d).transfers) = none)
    (htake : ∀ d ∈ s.districts.map change, (settle d).receiveAll s.network s.now
      (inbox s.partitioning (settle d).id
        (((s.districts.map change).flatMap fun d => (told d).transfers).mergeSort
          fun a b => a.seq ≤ b.seq)) = .ok (take d)) :
    s.traffic = .ok {
      districts := (s.districts.map change).map take
      resolution := r
      batches := s.districts.map fun d => (effects d).events ++ (told (change d)).events
      boundaryTransfers := ((s.districts.map change).map fun d =>
        boundaryCount s.partitioning (settle d).id (told d).transfers).sum } := by
  let prepared := s.districts.map fun d => (change d, effects d, (change d).wishes s.now)
  let settled := s.districts.map fun d => (settle (change d), told (change d))
  have hmem : ∀ d ∈ s.districts, change d ∈ s.districts.map change :=
    fun d hd => List.mem_map_of_mem hd
  have hprepared : (s.districts.mapM fun d => d.prepare s.network s.clock) = .ok prepared :=
    mapM_eq_map_of_ok hprepare
  have hresolution : Resolution.ofOffers (freeAtStart s.partitioning (prepared.map (·.1)))
      (Offers.gather (prepared.map (·.2.2))) = r := by
    simp only [← hr, City.resolution, City.offers, prepared, List.map_map]
    rfl
  have hsettled : (prepared.mapM fun entry => entry.1.settle s.clock entry.2.2 r.verdicts) =
      .ok settled := by
    simp only [prepared, List.mapM_map]
    exact mapM_eq_map_of_ok fun d hd => hsettle _ (hmem d hd)
  have htransfers : settled.flatMap (fun entry => entry.2.transfers) =
      (s.districts.map change).flatMap fun d => (told d).transfers := by
    simp only [settled, List.flatMap_map]
  have hreceived : (settled.mapM fun entry => entry.1.receiveAll s.network s.now
      (inbox s.partitioning entry.1.id
        (((s.districts.map change).flatMap fun d => (told d).transfers).mergeSort
          fun a b => a.seq ≤ b.seq))) = .ok ((s.districts.map change).map take) := by
    simp only [settled, List.mapM_map, List.map_map]
    exact mapM_eq_map_of_ok fun d hd => htake _ (hmem d hd)
  have hzip : (prepared.zip settled).map (fun entry => entry.1.2.1.events ++ entry.2.2.events) =
      s.districts.map fun d => (effects d).events ++ (told (change d)).events := by
    simp only [prepared, settled, List.zip_map', List.map_map]
    rfl
  have hboundary : settled.map (fun entry =>
      boundaryCount s.partitioning entry.1.id entry.2.transfers) =
        (s.districts.map change).map fun d =>
          boundaryCount s.partitioning (settle d).id (told d).transfers := by
    simp only [settled, List.map_map]
    rfl
  unfold traffic
  rw [hprepared]
  simp only [bind, Except.bind, hresolution, hsettled, htransfers, hlost, hreceived, hzip,
    hboundary]
  rfl

/-- What every district does in the phases of a step, and what the step is then. -/
structure Phased (s : Simulation α) (change settle take : District α → District α)
    (effects : District α → Effects) : Prop where
  begun_sound : City.Sound s.network s.partitioning (s.tick + 1) (s.districts.map change)
  begun_world : City.world s.partitioning (s.districts.map change) =
    (City.world s.partitioning s.districts).begun s.network s.clock
  begun : ∀ d ∈ s.districts, d.Begun s.network s.clock (change d) (effects d)
  settle_id : ∀ d ∈ s.districts.map change, (settle d).id = d.id
  sound : City.Sound s.network s.partitioning (s.tick + 1) ((s.districts.map change).map take)
  world_eq : City.world s.partitioning ((s.districts.map change).map take) =
    (City.world s.partitioning (s.districts.map change)).moved s.clock
      (City.resolution s.partitioning (s.districts.map change) s.now)
  traffic_eq : s.traffic = .ok {
    districts := (s.districts.map change).map take
    resolution := City.resolution s.partitioning (s.districts.map change) s.now
    batches := s.districts.map fun d => (effects d).events ++
      (effectsOf s.clock (change d).situation ((change d).rulings s.now
        (City.resolution s.partitioning (s.districts.map change) s.now).verdicts)).events
    boundaryTransfers := ((s.districts.map change).map fun d =>
      boundaryCount s.partitioning (settle d).id (effectsOf s.clock d.situation (d.rulings s.now
        (City.resolution s.partitioning (s.districts.map change) s.now).verdicts)).transfers).sum }

/-- No phase of a step ever fails in a sound simulation. -/
theorem Sound.exists_phased (h : s.Sound) :
    ∃ change settle take effects, s.Phased change settle take effects := by
  obtain ⟨change, effects, hprepare, hbegun, hworld, hchange⟩ :=
    City.Sound.prepare_districts s.clock h
  have hfresh : ∀ d ∈ s.districts.map change, ∀ (link : LinkId) (q : LinkQueue α),
      d.links[link]? = some q → q.startOccupancy = q.entries.length := by
    intro d hd link q hq
    obtain ⟨before, hbefore, rfl⟩ := List.mem_map.1 hd
    rw [(hchange before hbefore).links_eq, Option.map_eq_some_iff] at hq
    obtain ⟨q, -, rfl⟩ := hq
    rfl
  obtain ⟨settle, hsettle, hsettledSound, hsettled⟩ := hbegun.settle_districts
  obtain ⟨take, htake, htaken, hmoved⟩ := hbegun.receive_districts hfresh hsettledSound hsettled
  have htraffic := traffic_of_phases rfl hprepare hsettle
    (lostTransfer?_eq_none h fun t ht =>
      (hbegun.welcome_of_transfer (hbegun.transfers_perm.mem_iff.1 ht)).known)
    (fun d hd => by
      rw [hbegun.mergeSort_transfers]
      exact htake d hd)
  exact ⟨change, settle, take, effects, hbegun, hworld, hchange,
    fun d hd => (hsettled d hd).id_eq, htaken, hmoved, htraffic⟩

/-- The traffic of a step never fails in a sound simulation. -/
theorem Sound.traffic_eq (h : s.Sound) :
    ∃ t begun, s.traffic = .ok t ∧ s.Turn begun t := by
  obtain ⟨change, settle, take, effects, hphased⟩ := h.exists_phased
  refine ⟨_, s.districts.map change, hphased.traffic_eq, ?_⟩
  exact
    { begun_sound := hphased.begun_sound
      begun_world := hphased.begun_world
      resolution_eq := rfl
      sound := hphased.sound
      world_eq := hphased.world_eq
      events_eq := fun id => by
        rw [← List.flatMap_def]
        exact City.Sound.filter_events s.clock h hphased.begun_sound hphased.begun id }

end Simulation

end Thoroughfare

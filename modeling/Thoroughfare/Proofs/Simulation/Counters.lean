import Thoroughfare.Proofs.Simulation.Phases
import Thoroughfare.Proofs.Simulation.Tallies

/-!
# Crossings and strandings

Two counters are kept by the districts themselves: how many agents they hand to another district,
and how many of their agents were stranded.  Both count events.  Whoever is handed to another
district goes from a link of one partition to a link of another, and a district counts an agent as
stranded just when it tells so.
-/

namespace Thoroughfare

/-! ## Handed to another district -/

namespace Situation

variable {g : Network} {id : AgentId} {σ : Situation} {ruling : Ruling}

/-- Whoever is transferred out of a partition tells that it crosses. -/
theorem Fits.countP_transfer (h : σ.Fits ruling) (hσ : σ.Valid g id) (clock : Clock)
    {p : Partitioning} {owner : PartitionId}
    (hhome : ∀ link, σ.link? = some link → p.linkOwner link = owner) :
    (σ.outcome clock (some ruling)).transfer?.toList.countP
        (fun t => p.linkOwner t.target ≠ owner) =
      (σ.outcome clock (some ruling)).kinds.countP (EventKind.crosses p) := by
  cases h with
  | @arrive a held? hnext =>
      obtain ⟨-, hstate, ⟨leg, next, hleg⟩, -⟩ := hσ
      have hlink := Agent.currentLink?_eq_of_nextLink?_eq_none hleg hstate hnext
      simp only [outcome, hlink, Option.toList_some, List.flatMap_singleton, Agent.landingKinds]
      split <;> rfl
  | @move a held? target seq hnext =>
      obtain ⟨-, hstate, ⟨leg, next, hleg⟩, -⟩ := hσ
      obtain ⟨left, hleft, -⟩ := Agent.advanceLink_eq hleg hstate hnext
      have howner := hhome left hleft
      have hflip : (owner ≠ p.linkOwner target) = (p.linkOwner target ≠ owner) :=
        propext ne_comm
      simp only [outcome, hleft, Option.toList_some, List.map_cons, List.map_nil,
        List.countP_singleton, EventKind.crosses, howner, hflip]
  | hold held? hnext => rfl
  | @depart a refused link seq hlink =>
      -- A departure is handed to the link where the agent rested, so it never leaves the district.
      have howner := hhome link hlink
      simp [outcome, EventKind.crosses, howner]
  | wait refused hlink => rfl

end Situation

namespace District

variable {α : Type} [Quantity α] {g : Network} {p : Partitioning} {tick : Tick} {d d' : District α}

/-- The transfers of a district that leave it are the crossings that it tells. -/
theorem Sound.boundaryCount_eq (h : d.Sound g p tick) {now : Nat} {v : Verdicts}
    (hv : v.Concern now d) (clock : Clock) :
    Simulation.boundaryCount p d.id
        (effectsOf clock d.situation (d.rulings now v)).transfers =
      (effectsOf clock d.situation (d.rulings now v)).events.countP
        fun e => e.kind.crosses p := by
  simp only [Simulation.boundaryCount, effectsOf, Effects.join, List.flatMap_map,
    List.countP_flatMap]
  refine congrArg List.sum (List.map_congr_left fun entry hentry => ?_)
  have hfits := h.fits_of_ruling hv hentry
  rw [Function.comp_apply, Function.comp_apply, Outcome.effects, clock.countP_tell]
  exact hfits.countP_transfer (h.valid entry.1) clock (h.home entry.1)

/-- Nobody crosses by waking up. -/
theorem Begun.countP_crosses {clock : Clock} {effects : Effects}
    (h : d.Begun g clock d' effects) (p : Partitioning) :
    effects.events.countP (fun e => e.kind.crosses p) = 0 := by
  rw [List.countP_eq_zero]
  intro e he
  have hmem : e ∈ effects.events.filter fun other => other.agent = e.agent :=
    List.mem_filter.2 ⟨he, decide_eq_true rfl⟩
  rw [h.events_eq, Clock.tell, List.mem_map] at hmem
  obtain ⟨kind, hkind, hsame⟩ := hmem
  have hentered := (Situation.wakingKinds_stay _ _ _ kind hkind).1
  rw [← hsame]
  cases kind with
  | linkEnter left link => cases hentered
  | _ => exact Bool.false_ne_true

end District

namespace Simulation

variable {α : Type} [Quantity α] {s : Simulation α} {t : Traffic α}

/-- Those who are handed to another district in a step are those who cross. -/
theorem Sound.boundaryTransfers_eq (h : s.Sound) (ht : s.traffic = .ok t) :
    t.boundaryTransfers =
      (Event.merge t.batches).countP fun e => e.kind.crosses s.partitioning := by
  obtain ⟨change, settle, take, effects, hphased⟩ := h.exists_phased
  rw [hphased.traffic_eq] at ht
  cases ht
  simp only [List.map_map]
  rw [(Event.merge_perm _).countP_eq, ← List.flatMap_def, List.countP_flatMap]
  refine congrArg List.sum (List.map_congr_left fun d hd => ?_)
  have hmem : change d ∈ s.districts.map change := List.mem_map_of_mem hd
  simp only [Function.comp_apply]
  rw [hphased.settle_id _ hmem, List.countP_append, (hphased.begun d hd).countP_crosses,
    Nat.zero_add]
  exact (hphased.begun_sound.each _ hmem).boundaryCount_eq (hphased.begun_sound.concern hmem) _

end Simulation

/-! ## Stranded -/

namespace District

variable {α β : Type} {g : Network} {clock : Clock} {d d' : District α} {effects : Effects}

/-- A district that has counted as stranded whom the effects tell to be so. -/
def Strands (d d' : District α) (effects : Effects) : Prop :=
  d'.unreachable = d.unreachable + effects.events.countP fun e => e.kind.isStranded

theorem Strands.append {d'' : District α} {more : Effects} (h : d.Strands d' effects)
    (h' : d'.Strands d'' more) : d.Strands d'' (effects ++ more) := by
  rw [Strands, h', h, Effects.events_append, List.countP_append, Nat.add_assoc]

theorem treatAll_strands {treat : District α → β → Except StepError (District α × Effects)}
    (htreat : ∀ d item d' effects, treat d item = .ok (d', effects) → d.Strands d' effects)
    {items : List β} (h : treatAll treat d items = .ok (d', effects)) : d.Strands d' effects := by
  induction items generalizing d effects with
  | nil =>
      cases h
      rfl
  | cons first rest ih =>
      rw [treatAll] at h
      split at h
      · cases h
      · rename_i middle told hfirst
        split at h
        · cases h
        · rename_i after others hrest
          cases h
          exact (htreat _ _ _ _ hfirst).append (ih hrest)

theorem wake_strands {id : AgentId} (h : d.wake g clock id = .ok (d', effects)) :
    d.Strands d' effects := by
  unfold wake at h
  split at h
  · cases h
  · split at h <;> cases h <;> rfl

theorem arrive_strands {id : AgentId} (h : d.arrive clock id = .ok (d', effects)) :
    d.Strands d' effects := by
  unfold arrive at h
  split at h
  · cases h
  · split at h
    · cases h
    · simp only at h
      split at h <;> cases h <;> rfl

theorem moveOn_strands {id : AgentId} {target : LinkId} {seq : Nat}
    (h : d.moveOn clock id target seq = .ok (d', effects)) : d.Strands d' effects := by
  unfold moveOn at h
  split at h
  · cases h
  · split at h
    · cases h
    · split at h <;> cases h
      rfl

theorem carryOut_strands {link : LinkId} {entry : QueuedAgent × Grant}
    (h : carryOut clock link d entry = .ok (d', effects)) : d.Strands d' effects := by
  unfold carryOut at h
  split at h
  · cases h
  · split at h
    · exact arrive_strands h
    · cases h
    · exact moveOn_strands h

theorem settleDeparture_strands {entry : AgentId × DepartureVerdict}
    (h : settleDeparture clock d entry = .ok (d', effects)) : d.Strands d' effects := by
  unfold settleDeparture at h
  split at h
  · unfold sendOff at h
    split at h
    · cases h
    · split at h <;> cases h
      rfl
  · cases h
    rfl

variable [Quantity α]

theorem settleLink_strands {entry : LinkId × LinkVerdict}
    (h : settleLink clock d entry = .ok (d', effects)) : d.Strands d' effects := by
  unfold settleLink at h
  split at h
  · cases h
  · split at h
    · cases h
    · have htreated := treatAll_strands (fun _ _ _ _ => carryOut_strands) h
      rw [Strands] at htreated ⊢
      rw [htreated]
      cases entry.2.refusal? <;> rfl

theorem settle_strands {o : Offers} {v : Verdicts} (h : d.settle clock o v = .ok (d', effects)) :
    d.Strands d' effects := by
  simp only [settle, bind, Except.bind] at h
  split at h
  · cases h
  · rename_i links hlinks
    split at h
    · cases h
    · rename_i departures hdepartures
      cases h
      exact (treatAll_strands (fun _ _ _ _ => settleLink_strands) hlinks).append
        (treatAll_strands (fun _ _ _ _ => settleDeparture_strands) hdepartures)

theorem prepare_strands {offers : Offers}
    (h : d.prepare g clock = .ok (d', effects, offers)) : d.Strands d' effects := by
  simp only [prepare, bind, Except.bind] at h
  split at h
  · cases h
  · rename_i woken hwoken
    split at h
    · cases h
    · cases h
      exact treatAll_strands (fun _ _ _ _ => wake_strands)
        (d := { d.beginStep with wakeUps := (d.beginStep.wakeUps.drainDue clock.tick).2 }) hwoken

omit [Quantity α] in
theorem unreachable_receiveAll {now : Nat} {transfers : List Transfer}
    (h : d.receiveAll g now transfers = .ok d') : d'.unreachable = d.unreachable := by
  induction transfers generalizing d with
  | nil =>
      cases h
      rfl
  | cons first rest ih =>
      rw [receiveAll, List.foldlM_cons] at h
      simp only [bind, Except.bind] at h
      split at h
      · cases h
      · rename_i middle hfirst
        rw [ih h]
        unfold receive at hfirst
        split at hfirst
        · cases hfirst
        · split at hfirst <;> cases hfirst
          rfl

end District

/-- What each item adds to a count, all items together add to its total. -/
theorem sum_of_mapM {ε β γ : Type} {f : β → Except ε γ} {items : List β} {made : List γ}
    (h : items.mapM f = .ok made) {before : β → Nat} {after gain : γ → Nat}
    (heach : ∀ item result, f item = .ok result → after result = before item + gain result) :
    (made.map after).sum =
      (items.map before).sum + (made.map gain).sum := by
  induction items generalizing made with
  | nil =>
      cases h
      rfl
  | cons first rest ih =>
      rw [List.mapM_cons] at h
      simp only [bind, Except.bind] at h
      split at h
      · cases h
      · rename_i result hresult
        split at h
        · cases h
        · rename_i others hothers
          cases h
          simp only [List.map_cons, List.sum_cons, ih hothers, heach first result hresult]
          omega

namespace Simulation

variable {α : Type} [Quantity α] {s : Simulation α} {t : Traffic α}

/-- Those who are counted as stranded after a step were so before or are told to be. -/
theorem unreachable_of_traffic (ht : s.traffic = .ok t) :
    (t.districts.map District.unreachable).sum =
      s.unreachableCount + (Event.merge t.batches).countP fun e => e.kind.isStranded := by
  obtain ⟨prepared, settled, hprepared, hsettled, hreceived, hbatches⟩ := phases_of_traffic ht
  let told : Effects → Nat := fun effects => effects.events.countP fun e => e.kind.isStranded
  have hlength : prepared.length = settled.length := by
    have hmap := congrArg List.length (map_eq_map_ok_of_mapM hsettled)
    rwa [List.length_map, List.length_map] at hmap
  have hpreparing : (prepared.map fun entry => entry.1.unreachable).sum =
      s.unreachableCount + (prepared.map fun entry => told entry.2.1).sum :=
    sum_of_mapM hprepared fun _ _ hd => District.prepare_strands hd
  have hsettling : (settled.map fun entry => entry.1.unreachable).sum =
      (prepared.map fun entry => entry.1.unreachable).sum +
        (settled.map fun entry => told entry.2).sum :=
    sum_of_mapM hsettled fun _ _ hd => District.settle_strands hd
  have hreceiving : (t.districts.map District.unreachable).sum =
      (settled.map fun entry => entry.1.unreachable).sum +
        (t.districts.map fun _ => 0).sum :=
    sum_of_mapM hreceived fun _ _ hd => District.unreachable_receiveAll hd
  have hmerged : (Event.merge t.batches).countP (fun e => e.kind.isStranded) =
      (prepared.map fun entry => told entry.2.1).sum +
        (settled.map fun entry => told entry.2).sum := by
    rw [(Event.merge_perm _).countP_eq, hbatches, ← List.flatMap_def,
      List.countP_flatMap, ← sum_map_zip hlength]
    exact congrArg List.sum (List.map_congr_left fun _ _ => List.countP_append)
  have hnobody : (t.districts.map fun _ => 0).sum = 0 :=
    List.sum_eq_zero fun count hcount => by
      obtain ⟨_, -, rfl⟩ := List.mem_map.1 hcount
      rfl
  rw [hreceiving, hsettling, hpreparing, hmerged, hnobody, Nat.add_zero, Nat.add_assoc]

end Simulation
end Thoroughfare

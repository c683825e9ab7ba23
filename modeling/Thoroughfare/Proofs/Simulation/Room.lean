import Thoroughfare.Proofs.Road.Calls
import Thoroughfare.Proofs.Simulation.Fifo
import Thoroughfare.Proofs.Simulation.Phases

/-!
# Room on the links

The events account for everybody on a link: whoever is there has entered it and has not left it.  No
link ever holds more agents than it has room for, neither between two steps nor after any task of
the districts in a step, in whatever order they do their tasks.
-/

namespace Thoroughfare

namespace District

variable {α : Type} {c : Config} {g : Network} {clock : Clock} {d d' : District α}
  {effects : Effects} {link : LinkId} {q q' : LinkQueue α}

/-- The queues of a district are those of links of the network, with their room, and none of them
holds more agents than it has room for. -/
def Roomy (c : Config) (g : Network) (d : District α) : Prop :=
  ∀ (link : LinkId) (q : LinkQueue α), d.links[link]? = some q →
    ∃ l, g.link? link = some l ∧ q.storage = LinkQueue.storageOf l c ∧
      q.entries.length ≤ q.storage

theorem Roomy.of_links_eq (h : d.Roomy c g) (hlinks : d'.links = d.links) : d'.Roomy c g := by
  intro link q hq
  rw [hlinks] at hq
  exact h link q hq

/-- A queue may be replaced by one with the same room that is not too long. -/
theorem Roomy.insert (h : d.Roomy c g) (hq : d.links[link]? = some q)
    (hstorage : q'.storage = q.storage) (hle : q'.entries.length ≤ q'.storage)
    (hlinks : d'.links = d.links.insert link q') : d'.Roomy c g := by
  intro other r hr
  rw [hlinks, getElem?_insert_ident] at hr
  by_cases hother : link = other
  · rw [if_pos hother, Option.some.injEq] at hr
    obtain ⟨l, hl, hroom, -⟩ := h link q hq
    subst hr hother
    exact ⟨l, hl, hstorage.trans hroom, hle⟩
  · rw [if_neg hother] at hr
    exact h other r hr

/-! ## What leaves all links alone -/

theorem links_wake {id : AgentId} (h : d.wake g clock id = .ok (d', effects)) :
    d'.links = d.links := by
  unfold wake at h
  split at h
  · cases h
  · split at h <;> cases h <;> rfl

theorem links_arrive {id : AgentId} (h : d.arrive clock id = .ok (d', effects)) :
    d'.links = d.links := by
  unfold arrive at h
  split at h
  · cases h
  · split at h
    · cases h
    · split at h <;> cases h <;> rfl

theorem links_moveOn {id : AgentId} {target : LinkId} {seq : Nat}
    (h : d.moveOn clock id target seq = .ok (d', effects)) : d'.links = d.links := by
  unfold moveOn at h
  split at h
  · cases h
  · split at h
    · cases h
    · split at h <;> cases h
      rfl

theorem links_carryOut {entry : QueuedAgent × Grant}
    (h : d.carryOut clock link entry = .ok (d', effects)) : d'.links = d.links := by
  unfold carryOut at h
  split at h
  · cases h
  · split at h
    · exact links_arrive h
    · cases h
    · exact links_moveOn h

theorem links_hold (d : District α) (refusal? : Option Refusal) :
    (d.hold refusal?).links = d.links := by
  cases refusal? <;> rfl

theorem links_settleDeparture {entry : AgentId × DepartureVerdict}
    (h : d.settleDeparture clock entry = .ok (d', effects)) : d'.links = d.links := by
  unfold settleDeparture at h
  split at h
  · unfold sendOff at h
    split at h
    · cases h
    · split at h <;> cases h
      rfl
  · cases h
    rfl

/-! ## Tasks -/

theorem Roomy.receive (h : d.Roomy c g) {now : Nat} {t : Transfer}
    (hreceive : d.receive g now t = .ok d') : d'.Roomy c g := by
  unfold District.receive at hreceive
  split at hreceive
  · cases hreceive
  · rename_i q hq
    split at hreceive <;> cases hreceive
    rename_i entered henter
    obtain ⟨hroom, exit, rfl⟩ := LinkQueue.entered_of_enter henter
    have hle : (q.append ⟨t.agent.id, now, exit⟩).entries.length ≤
        (q.append ⟨t.agent.id, now, exit⟩).storage := by
      rw [LinkQueue.append, List.length_append, List.length_singleton]
      exact hroom
    refine h.insert hq ?_ hle rfl
    rfl

variable [Quantity α]

theorem Roomy.prepare (h : d.Roomy c g) {offers : Offers}
    (hprepare : d.prepare g clock = .ok (d', effects, offers)) : d'.Roomy c g := by
  have hbegun : d.beginStep.Roomy c g := by
    intro link q hq
    rw [beginStep, Std.ExtTreeMap.getElem?_map, Option.map_eq_some_iff] at hq
    obtain ⟨before, hbefore, rfl⟩ := hq
    exact h link before hbefore
  unfold District.prepare at hprepare
  rcases hwake : d.beginStep.wakeDue g clock with e | ⟨woken, told⟩
  · rw [hwake] at hprepare
    cases hprepare
  rw [hwake] at hprepare
  simp only [bind, Except.bind, pure, Except.pure] at hprepare
  have hwoken : woken.Roomy c g := by
    have hdrained :
        ({ d.beginStep with wakeUps := d.wakeUps.later clock.tick } : District α).Roomy c g :=
      hbegun.of_links_eq rfl
    have hwakeOne : ∀ (d : District α) (id : AgentId) (d' : District α) (effects : Effects),
        d.Roomy c g → d.wake g clock id = .ok (d', effects) → d'.Roomy c g :=
      fun d id d' effects hd hid => hd.of_links_eq (links_wake hid)
    exact treatAll_keeps (fun d => d.Roomy c g) hwakeOne hdrained hwake
  split at hprepare <;> cases hprepare
  exact hwoken

theorem Roomy.settleLink (h : d.Roomy c g) {entry : LinkId × LinkVerdict}
    (hsettle : d.settleLink clock entry = .ok (d', effects)) : d'.Roomy c g := by
  unfold District.settleLink at hsettle
  split at hsettle
  · cases hsettle
  · rename_i q hq
    split at hsettle
    · cases hsettle
    · rename_i released relieved hrelease
      have hrelieved : relieved.storage = q.storage ∧
          relieved.entries.length ≤ q.entries.length := by
        obtain ⟨-, -, rfl⟩ := LinkQueue.release_eq_ok_iff.1 hrelease
        exact ⟨rfl, List.length_drop ▸ Nat.sub_le _ _⟩
      obtain ⟨l, -, -, hroom⟩ := h entry.1 q hq
      refine treatAll_keeps (fun d => d.Roomy c g)
        (fun d item d' effects hd hitem => hd.of_links_eq (links_carryOut hitem)) ?_ hsettle
      exact h.insert hq hrelieved.1 (by omega) (links_hold _ _)

/-- No task makes a link hold more agents than it has room for. -/
theorem Roomy.perform (h : d.Roomy c g) {task : Task}
    (hperform : task.perform g clock d = .ok (d', effects)) : d'.Roomy c g := by
  cases task with
  | settleLink entry => exact h.settleLink hperform
  | settleDeparture entry => exact h.of_links_eq (links_settleDeparture hperform)
  | receive t =>
      rw [Task.perform] at hperform
      rcases hreceive : d.receive g clock.now t with e | after
      · rw [hreceive] at hperform
        cases hperform
      · rw [hreceive] at hperform
        cases hperform
        exact h.receive hreceive

end District

/-! ## Steps in the middle -/

section Workers

variable {α : Type} [Quantity α] {c : Config} {g : Network} {clock : Clock}
  {workers later : List (Worker α)}

theorem Works.roomy (h : Works g clock workers later)
    (hroomy : ∀ w ∈ workers, w.district.Roomy c g) : ∀ w ∈ later, w.district.Roomy c g := by
  cases h with
  | next before after hok =>
      intro w hw
      rcases List.mem_append.1 hw with hbefore | hafter
      · exact hroomy w (List.mem_append_left _ hbefore)
      · rcases List.mem_cons.1 hafter with rfl | hafter
        · exact (hroomy _ (List.mem_append_right _ List.mem_cons_self)).perform hok
        · exact hroomy w (List.mem_append_right _ (List.mem_cons_of_mem _ hafter))

theorem roomy_of_works (h : Relation.ReflTransGen (Works g clock) workers later)
    (hroomy : ∀ w ∈ workers, w.district.Roomy c g) : ∀ w ∈ later, w.district.Roomy c g := by
  induction h with
  | refl => exact hroomy
  | tail _ hlast ih => exact hlast.roomy ih

end Workers

namespace Simulation

variable {α : Type} [Quantity α] {first s : Simulation α} {workers : List (Worker α)}
  {c : Config} {told : List Event} {link : LinkId}

theorem Settling.roomy (h : s.Settling workers)
    (hroomy : ∀ d ∈ s.districts, d.Roomy c s.network) :
    ∀ w ∈ workers, w.district.Roomy c s.network := by
  obtain ⟨prepared, hprepared, hworks⟩ := h
  refine roomy_of_works hworks fun w hw => ?_
  obtain ⟨p, hp, rfl⟩ := List.mem_map.1 hw
  have hmem := List.mem_map_of_mem (f := Except.ok (ε := StepError)) hp
  rw [← map_eq_map_ok_of_mapM hprepared] at hmem
  obtain ⟨d, hd, hprepare⟩ := List.mem_map.1 hmem
  exact (hroomy d hd).prepare hprepare

/-- No order of work makes a link hold more agents than it has room for. -/
theorem Midway.roomy (h : s.Midway workers) (hroomy : ∀ d ∈ s.districts, d.Roomy c s.network) :
    ∀ w ∈ workers, w.district.Roomy c s.network := by
  rcases h with hsettling | ⟨settled, hsettling, -, hworks⟩
  · exact hsettling.roomy hroomy
  · refine roomy_of_works hworks fun w hw => ?_
    obtain ⟨before, hbefore, rfl⟩ := List.mem_map.1 hw
    exact hsettling.roomy hroomy before hbefore

variable {config : Config} {g : Network} {agents : List Agent}

/-- Between two steps no link holds more agents than it has room for. -/
theorem Fresh.roomy (h : first.Fresh config g agents) (hs : first.Reachable s) :
    ∀ d ∈ s.districts, d.Roomy config g := by
  intro d hd link q hq
  have hsound := hs.sound h.sound
  have hqueue : s.queue? link = some q := City.Sound.queueIn?_of_mem hsound hd hq
  obtain ⟨l, hl, hcleared⟩ := h.exists_link hs hqueue
  have hroom : q.entries.length ≤ q.storage := (City.Sound.each hsound d hd).room link q hq
  exact ⟨l, hl, congrArg LinkQueue.storage hcleared, hroom⟩

theorem Fresh.occupancy_le (h : first.Fresh config g agents) (hs : first.Reachable s) {l : Link}
    (hl : g.link? l.id = some l) : s.occupancy l.id ≤ LinkQueue.storageOf l config := by
  have hsound := hs.sound h.sound
  obtain ⟨q, hq, -⟩ := h.exists_queue hs hl
  obtain ⟨d, hd, hlinks⟩ := (City.Sound.queueIn?_eq_some_iff hsound).1 hq
  obtain ⟨l', hl', hstorage, hle⟩ := h.roomy hs d hd l.id q hlinks
  rw [hl] at hl'
  cases hl'
  rw [occupancy, hq, ← hstorage]
  exact hle

/-! ## The account of the events -/

omit [Quantity α] in
theorem occupancy_eq (s : Simulation α) (link : LinkId) :
    s.occupancy link = (s.standing link).length := by
  unfold occupancy
  cases hq : s.queue? link with
  | none => rw [standing_of_none hq, List.length_nil]
  | some q => rw [standing_of_queue? hq]

omit [Quantity α] in
/-- What a step does to the number of agents on a link. -/
theorem Passes.occupancy {stage : Stage α} {after : Simulation α} (h : Passes stage link after) :
    after.occupancy link + stage.events.countP (fun e => e.kind.vacated? = some link) =
      stage.before.occupancy link + stage.events.countP fun e => e.kind.entered? = some link := by
  have hexits : (stage.exits link).length =
      stage.events.countP fun e => e.kind.vacated? = some link := by
    rw [Stage.exits, List.length_mergeSort, List.countP_eq_length_filter]
  have hentrances : (stage.entrances link).length =
      stage.events.countP fun e => e.kind.entered? = some link := by
    rw [Stage.entrances, List.length_mergeSort, List.countP_eq_length_filter]
  -- As many as leave did stand there, so the front that is cut off is no shorter.
  have hlength := congrArg List.length h.left
  rw [List.length_map, List.length_map, List.length_take] at hlength
  rw [occupancy_eq, occupancy_eq, h.standing_eq, List.length_append, List.length_drop,
    List.length_map, ← hexits, ← hentrances]
  omega

/-- Whoever entered a link has left it or is still there. -/
theorem History.account (h : first.History s told) (hfirst : first.Sound)
    (hempty : first.standing link = []) :
    told.countP (fun e => e.kind.entered? = some link) =
      told.countP (fun e => e.kind.vacated? = some link) + s.occupancy link := by
  induction h with
  | start => simp [occupancy_eq, hempty]
  | skip hs ih =>
      rw [ih, occupancy_eq, occupancy_eq, ((hs.reachable.sound hfirst).queue?_fastForward link).2]
  | @step s next told bus bus' record hs hstep ih =>
      have hpasses := ((hs.reachable.sound hfirst).passes_of_step hstep).1 link
      have hoccupancy : next.occupancy link +
          record.events.countP (fun e => e.kind.vacated? = some link) =
        s.occupancy link + record.events.countP fun e => e.kind.entered? = some link :=
        hpasses.occupancy
      rw [List.countP_append, List.countP_append, ih]
      omega

/-! ## All together -/

/-- In every history of a simulation that was built, the occupancy of a link is the number of those
who entered it less the number of those who left it, and no link holds more agents than it has room
for.  The same is true in the middle of a step, in whatever order the districts do their tasks; no
order makes a task fail, and every order ends with the same districts. -/
theorem room_is_kept {periodSecs : Float} {positions : List Point} {drafts : List LinkDraft}
    {partitioning? : Option Partitioning}
    (hg : Network.build periodSecs positions drafts = .ok g)
    (hfirst : build config g agents partitioning? = .ok first) (hs : first.History s told) :
    (∀ link, told.countP (fun e => e.kind.entered? = some link) =
        told.countP (fun e => e.kind.vacated? = some link) + s.occupancy link) ∧
      (∀ l ∈ g.links.toList, s.occupancy l.id ≤ LinkQueue.storageOf l config) ∧
      ∃ t, s.traffic = .ok t ∧
        (∀ workers, s.Midway workers → ∀ w ∈ workers,
          (∀ (link : LinkId) (q : LinkQueue α), w.district.links[link]? = some q →
            ∃ l ∈ g.links.toList, l.id = link ∧ q.occupancy ≤ LinkQueue.storageOf l config) ∧
          ∀ task rest, w.tasks = task :: rest →
            ∃ d' effects, task.perform s.network s.clock w.district = .ok (d', effects)) ∧
        (∃ workers, s.Receiving workers ∧ ∀ w ∈ workers, w.tasks = []) ∧
        ∀ workers, s.Receiving workers → (∀ w ∈ workers, w.tasks = []) →
          workers.map (·.district) = t.districts := by
  have hnumbered := Network.numbered_of_build hg
  have hfresh := fresh_of_build hnumbered hfirst
  have hsound := hs.reachable.sound hfresh.sound
  have hnetwork : s.network = g := hs.reachable.setting.2.1.trans hfresh.network_eq
  have hroomy := hfresh.roomy hs.reachable
  obtain ⟨t, begun, ht, -⟩ := hsound.traffic_eq
  refine ⟨fun link => hs.account hfresh.sound (hfresh.standing_eq_nil link), fun l hl =>
    hfresh.occupancy_le hs.reachable (hnumbered.link?_eq_some_iff.2 ⟨hl, rfl⟩), t, ht, ?_,
    exists_receiving ht, fun workers hworkers => hworkers.districts_eq ht⟩
  intro workers hworkers w hw
  refine ⟨fun link q hq => ?_, fun task rest htasks => hworkers.perform_ok ht hw htasks⟩
  rw [← hnetwork] at hroomy
  obtain ⟨l, hl, hstorage, hle⟩ := hworkers.roomy hroomy w hw link q hq
  rw [hnetwork, hnumbered.link?_eq_some_iff] at hl
  exact ⟨l, hl.1, hl.2, hstorage ▸ hle⟩

/-- The roads of the hamlet keep their room. -/
theorem room_is_kept_hamlet : ∃ g split last report,
    Network.build Network.standardPeriodSecs Hamlet.places Hamlet.roads = .ok g ∧
      build (α := Rat) Hamlet.config g Hamlet.neighbours.reverse (some Hamlet.halves) =
        .ok split ∧
      split.run (Bus.new 1) false (fun _ => false) = (last, .ok report) ∧
      (∀ link, last.events.countP (fun e => e.kind.entered? = some link) =
        last.events.countP (fun e => e.kind.vacated? = some link) +
          last.simulation.occupancy link) ∧
      ∀ l ∈ g.links.toList,
        last.simulation.occupancy l.id ≤ LinkQueue.storageOf l Hamlet.config := by
  obtain ⟨g, split, last, report, hg, hsplit, hrun, hhistory⟩ := Hamlet.exists_run
  obtain ⟨haccount, hroom, -⟩ := room_is_kept hg hsplit hhistory
  exact ⟨g, split, last, report, hg, hsplit, hrun, haccount, hroom⟩

end Simulation

end Thoroughfare

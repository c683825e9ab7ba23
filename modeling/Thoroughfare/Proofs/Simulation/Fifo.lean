import Mathlib.Data.List.Forall2
import Thoroughfare.Proofs.Simulation.Roads
import Thoroughfare.Proofs.Simulation.Safety

/-!
# First in, first out

A chronicle of a simulation keeps what every step on the way delivered.  It says for each link who
entered it and who left it, in order.  Those who left are those who entered first; the others stand
on the link in the order in which they entered.  Whoever left had stayed as long as it has to.
-/

namespace Thoroughfare

/-- The seconds that an agent has to stay on a link that it enters: whoever comes from another link
has to travel along it, but at least for one step, and whoever departs stands at its end. -/
def Link.leastStay (l : Link) (c : Config) : EventKind → Nat
  | .linkEnter _ _ => max l.freeFlowSecs c.stepSecs
  | _ => c.stepSecs

/-! ## Lists side by side -/

section Lists

variable {β γ : Type} {R : β → γ → Prop} {l m : List β} {n : List γ} {i j : Nat}

/-- What relates the entries of two lists relates those at one place, also when the first list goes
on. -/
theorem rel_of_forall₂_of_isPrefix (h : List.Forall₂ R l n) (hlm : l <+: m) {b : β} {c : γ}
    (hb : m[i]? = some b) (hc : n[i]? = some c) : R b c := by
  obtain ⟨rest, rfl⟩ := hlm
  obtain ⟨hi, rfl⟩ := List.getElem?_eq_some_iff.1 hc
  have hil : i < l.length := by rwa [h.length_eq]
  rw [List.getElem?_append_left hil, List.getElem?_eq_getElem hil] at hb
  cases hb
  exact h.get hil hi

variable {events : List Event} {a b : Event}

theorem time_le_of_lt (h : events.Pairwise fun a b => a.time ≤ b.time) (ha : events[i]? = some a)
    (hb : events[j]? = some b) (hij : i < j) : a.time ≤ b.time := by
  obtain ⟨hi, rfl⟩ := List.getElem?_eq_some_iff.1 ha
  obtain ⟨hj, rfl⟩ := List.getElem?_eq_some_iff.1 hb
  exact List.pairwise_iff_getElem.1 h i j hi hj hij

theorem lt_of_time_lt (h : events.Pairwise fun a b => a.time ≤ b.time) (ha : events[i]? = some a)
    (hb : events[j]? = some b) (htime : a.time < b.time) : i < j := by
  rcases Nat.lt_trichotomy i j with hlt | rfl | hgt
  · exact hlt
  · rw [ha] at hb
    cases hb
    omega
  · have hle := time_le_of_lt h hb ha hgt
    omega

end Lists

/-! ## The law of a queue -/

/-- One entered a link and left it again, and had stayed as long as it has to. -/
def Event.Stayed (stay : EventKind → Nat) (entered left : Event) : Prop :=
  entered.agent = left.agent ∧ entered.time + stay entered.kind ≤ left.time

/-- Those who left a link are those who entered it first, and the others stand there in the order in
which they entered. -/
structure Served (stay : EventKind → Nat) (standing : List QueuedAgent)
    (entered left : List Event) : Prop where
  stayed : List.Forall₂ (Event.Stayed stay) (entered.take left.length) left
  standing_eq : standing = (entered.drop left.length).map (Event.queued stay)

namespace Served

variable {stay : EventKind → Nat} {standing : List QueuedAgent}
  {entered left more gone : List Event} {now : Nat}

theorem nil (stay : EventKind → Nat) : Served stay [] [] [] :=
  ⟨.nil, rfl⟩

theorem length_le (h : Served stay standing entered left) : left.length ≤ entered.length := by
  have hlength := h.stayed.length_eq
  rw [List.length_take] at hlength
  omega

theorem agents_eq (h : Served stay standing entered left) :
    entered.map (·.agent) = left.map (·.agent) ++ standing.map (·.agent) := by
  have hleft : (entered.take left.length).map (·.agent) = left.map (·.agent) :=
    (map_eq_map_of_forall₂ h.stayed fun _ _ hstayed => hstayed.1.symm).symm
  rw [h.standing_eq, ← hleft, List.map_map, show (fun entry : QueuedAgent => entry.agent) ∘
    Event.queued stay = Event.agent from rfl, ← List.map_append, List.take_append_drop]

theorem agent_eq (h : Served stay standing entered left) {i : Nat} {a b : Event}
    (ha : entered[i]? = some a) (hb : left[i]? = some b) : a.agent = b.agent :=
  (rel_of_forall₂_of_isPrefix h.stayed (List.take_prefix _ _) ha hb).1

/-- Whenever an agent left, it had stayed as long as it has to. -/
theorem stayed_of_visit (h : Served stay standing entered left) {id : AgentId} {visit : Nat}
    {a b : Event} (ha : (entered.filter fun e => e.agent = id)[visit]? = some a)
    (hb : (left.filter fun e => e.agent = id)[visit]? = some b) :
    a.time + stay a.kind ≤ b.time := by
  have hsame : ∀ a b : Event, Event.Stayed stay a b →
      (decide (a.agent = id) = true ↔ decide (b.agent = id) = true) := by
    intro a b hab
    rw [hab.1]
  have hvisits := List.rel_filter (fun a b hab => hsame a b hab) h.stayed
  exact (rel_of_forall₂_of_isPrefix hvisits ((List.take_prefix _ _).filter _) ha hb).2

theorem forall₂_stayed {first : List Event}
    (hagents : gone.map (·.agent) = first.map (·.agent))
    (hready : ∀ e ∈ first, e.time + stay e.kind ≤ now) (hgone : ∀ e ∈ gone, e.time = now) :
    List.Forall₂ (Event.Stayed stay) first gone := by
  induction first generalizing gone with
  | nil =>
      rw [List.map_nil, List.map_eq_nil_iff] at hagents
      rw [hagents]
      exact .nil
  | cons e rest ih =>
      cases gone with
      | nil => cases hagents
      | cons e' gone =>
          rw [List.map_cons, List.map_cons, List.cons.injEq] at hagents
          refine .cons ⟨hagents.1.symm, ?_⟩ (ih hagents.2
            (fun other hother => hready other (List.mem_cons_of_mem _ hother))
            (fun other hother => hgone other (List.mem_cons_of_mem _ hother)))
          rw [hgone e' List.mem_cons_self]
          exact hready e List.mem_cons_self

/-- When some at the front leave who are ready, and others enter at the end, the law still
holds. -/
theorem pass (h : Served stay standing entered left)
    (hleft : gone.map (·.agent) = (standing.take gone.length).map (·.agent))
    (hready : ∀ entry ∈ standing.take gone.length, entry.earliestExit ≤ now)
    (hgone : ∀ e ∈ gone, e.time = now) :
    Served stay (standing.drop gone.length ++ more.map (Event.queued stay)) (entered ++ more)
      (left ++ gone) := by
  have hlength := congrArg List.length hleft
  rw [List.length_map, List.length_map, List.length_take, h.standing_eq, List.length_map,
    List.length_drop] at hlength
  have hle := h.length_le
  have hfirst : List.Forall₂ (Event.Stayed stay) ((entered.drop left.length).take gone.length)
      gone := by
    rw [h.standing_eq, ← List.map_take] at hleft hready
    refine forall₂_stayed ?_ (fun e he => hready _ (List.mem_map_of_mem he)) hgone
    rw [hleft, List.map_map]
    rfl
  constructor
  · rw [List.length_append, List.take_append_of_le_length (by omega), List.take_add]
    exact List.rel_append h.stayed hfirst
  · rw [List.length_append, List.drop_append_of_le_length (by omega), List.map_append,
      ← List.drop_drop, h.standing_eq, List.map_drop (i := gone.length)]

end Served

/-! ## Chronicles -/

namespace Simulation

variable {α : Type} [Quantity α]

/-- A simulation that comes from another by steps that succeed and by skips, and these steps. -/
inductive Chronicle (first : Simulation α) : Simulation α → List (Stage α) → Prop
  | start : Chronicle first first []
  | skip {s : Simulation α} {stages : List (Stage α)} (h : Chronicle first s stages) :
      Chronicle first s.fastForward stages
  | step {s next : Simulation α} {stages : List (Stage α)} {bus bus' : Bus} {record : StepRecord}
      (h : Chronicle first s stages) (hstep : s.step bus = (next, .ok (record, bus'))) :
      Chronicle first next (stages ++ [⟨s, record.events⟩])

variable {first s : Simulation α} {stages : List (Stage α)} {told : List Event}

theorem Chronicle.history (h : first.Chronicle s stages) :
    first.History s (stages.flatMap (·.events)) := by
  induction h with
  | start => exact .start
  | skip _ ih => exact .skip ih
  | step _ hstep ih =>
      rw [List.flatMap_append, List.flatMap_singleton]
      exact .step ih hstep

/-- Every history can be told in full. -/
theorem History.exists_chronicle (h : first.History s told) :
    ∃ stages, first.Chronicle s stages ∧ stages.flatMap (·.events) = told := by
  induction h with
  | start => exact ⟨[], .start, rfl⟩
  | skip _ ih =>
      obtain ⟨stages, hstages, htold⟩ := ih
      exact ⟨stages, .skip hstages, htold⟩
  | @step s next told bus bus' record _ hstep ih =>
      obtain ⟨stages, hstages, htold⟩ := ih
      refine ⟨_, .step hstages hstep, ?_⟩
      rw [List.flatMap_append, List.flatMap_singleton, htold]

/-- A step that succeeds does to every link what a queue allows, and all that it tells is of its
second. -/
theorem Sound.passes_of_step (h : s.Sound) {next : Simulation α} {bus bus' : Bus}
    {record : StepRecord} (hstep : s.step bus = (next, .ok (record, bus'))) :
    (∀ link, Passes ⟨s, record.events⟩ link next) ∧ ∀ e ∈ record.events, e.time = s.now := by
  obtain ⟨t, begun, ht, ⟨e, -, hstep'⟩ | ⟨-, hstep'⟩⟩ := h.step_cases bus
  · rw [hstep] at hstep'
    cases hstep'
  · rw [hstep] at hstep'
    cases hstep'
    exact ⟨fun link => ht.passes h link rfl, fun e he => (ht.distinct h).time_eq_of_mem_merge he⟩

theorem Reachable.leastStay_eq (h : first.Reachable s) (hfirst : first.Sound) (link : LinkId) :
    s.leastStay link = first.leastStay link := by
  have hcleared := h.map_cleared hfirst link
  funext kind
  have hstay : ∀ q? : Option (LinkQueue α), (q?.elim 0 fun q => q.leastStay kind) =
      (q?.map LinkQueue.cleared).elim 0 fun q => q.leastStay kind := by
    rintro (_ | q) <;> rfl
  rw [leastStay, leastStay, hstay, hcleared, ← hstay]

end Simulation

namespace Stage

variable {α : Type}

/-- What some steps tell of those who enter a link, in the order of the decisions. -/
def allEntrances (stages : List (Stage α)) (link : LinkId) : List Event :=
  stages.flatMap fun stage => stage.entrances link

/-- What some steps tell of those who leave a link, in the order in which they stood there. -/
def allExits (stages : List (Stage α)) (link : LinkId) : List Event :=
  stages.flatMap fun stage => stage.exits link

theorem mem_exits_iff {stage : Stage α} {link : LinkId} {e : Event} :
    e ∈ stage.exits link ↔ e ∈ stage.events ∧ e.kind.vacated? = some link := by
  rw [exits, List.mem_mergeSort, List.mem_filter, decide_eq_true_eq]

theorem mem_entrances_iff {stage : Stage α} {link : LinkId} {e : Event} :
    e ∈ stage.entrances link ↔ e ∈ stage.events ∧ e.kind.entered? = some link := by
  rw [entrances, List.mem_mergeSort, List.mem_filter, decide_eq_true_eq]

end Stage

namespace Simulation

variable {α : Type} [Quantity α] {first s : Simulation α} {stages : List (Stage α)}

/-- Every queue is served in order. -/
theorem Chronicle.served (h : first.Chronicle s stages) (hfirst : first.Sound) (link : LinkId)
    (hempty : first.standing link = []) :
    Served (first.leastStay link) (s.standing link) (Stage.allEntrances stages link)
      (Stage.allExits stages link) := by
  induction h with
  | start =>
      rw [hempty]
      exact .nil _
  | skip hs ih =>
      rw [((hs.history.reachable.sound hfirst).queue?_fastForward link).2]
      exact ih
  | @step s next stages bus bus' record hs hstep ih =>
      obtain ⟨hpasses, htimes⟩ := (hs.history.reachable.sound hfirst).passes_of_step hstep
      obtain ⟨hleft, hready, hstanding⟩ := hpasses link
      rw [hstanding, hs.history.reachable.leastStay_eq hfirst, Stage.allEntrances, Stage.allExits,
        List.flatMap_append, List.flatMap_append, List.flatMap_singleton, List.flatMap_singleton]
      exact ih.pass hleft hready fun e he => htimes e (Stage.mem_exits_iff.1 he).1

/-! ## Times -/

theorem now_lt_of_step {next : Simulation α} {bus bus' : Bus} {record : StepRecord}
    (hstep : s.step bus = (next, .ok (record, bus'))) : s.now < next.now := by
  obtain ⟨t, events, rfl⟩ := exists_afterStep hstep
  have hnow : (s.afterStep t events).now = s.now + s.config.stepSecs :=
    Clock.secsAt_succ s.clock s.tick
  have hpos := s.valid.stepSecs_pos
  omega

/-- What holds of every step of a sound simulation holds of every step that was processed. -/
theorem Chronicle.forall_stage (h : first.Chronicle s stages) (hfirst : first.Sound)
    {P : Stage α → Prop}
    (hP : ∀ (s next : Simulation α) (bus bus' : Bus) (record : StepRecord), s.Sound →
      s.step bus = (next, .ok (record, bus')) → P ⟨s, record.events⟩) :
    ∀ stage ∈ stages, P stage := by
  induction h with
  | start => simp
  | skip _ ih => exact ih
  | step hs hstep ih =>
      intro stage hstage
      rcases List.mem_append.1 hstage with hbefore | hlast
      · exact ih stage hbefore
      · rw [List.mem_singleton.1 hlast]
        exact hP _ _ _ _ _ (hs.history.reachable.sound hfirst) hstep

theorem Chronicle.time_eq (h : first.Chronicle s stages) (hfirst : first.Sound) :
    ∀ stage ∈ stages, ∀ e ∈ stage.events, e.time = stage.before.now :=
  h.forall_stage hfirst fun _ _ _ _ _ hsound hstep => (hsound.passes_of_step hstep).2

theorem Chronicle.pairwise_now (h : first.Chronicle s stages) :
    (stages.Pairwise fun a b => a.before.now < b.before.now) ∧
      ∀ stage ∈ stages, stage.before.now < s.now := by
  induction h with
  | start => exact ⟨.nil, by simp⟩
  | @skip s _ _ ih =>
      exact ⟨ih.1, fun stage hstage =>
        Nat.lt_of_lt_of_le (ih.2 stage hstage) (now_le_fastForward s)⟩
  | @step s next stages _ _ _ _ hstep ih =>
      have hlater := now_lt_of_step hstep
      constructor
      · refine List.pairwise_append.2 ⟨ih.1, List.pairwise_singleton _ _, ?_⟩
        intro a ha b hb
        rw [List.mem_singleton.1 hb]
        exact ih.2 a ha
      · intro stage hstage
        rcases List.mem_append.1 hstage with hbefore | hlast
        · exact Nat.lt_trans (ih.2 stage hbefore) hlater
        · rw [List.mem_singleton.1 hlast]
          exact hlater

/-- Whatever is picked from the events of each step comes in the order of time. -/
theorem Chronicle.pairwise_time (h : first.Chronicle s stages) (hfirst : first.Sound)
    (pick : Stage α → List Event) (hpick : ∀ stage, ∀ e ∈ pick stage, e ∈ stage.events) :
    (stages.flatMap pick).Pairwise fun a b => a.time ≤ b.time := by
  have htime := h.time_eq hfirst
  rw [List.pairwise_flatMap]
  constructor
  · intro stage hstage
    refine List.pairwise_of_forall_mem_list fun a ha b hb => ?_
    rw [htime stage hstage a (hpick stage a ha), htime stage hstage b (hpick stage b hb)]
  · refine h.pairwise_now.1.imp_of_mem fun {x y} hx hy hlt a ha b hb => ?_
    rw [htime x hx a (hpick x a ha), htime y hy b (hpick y b hb)]
    exact Nat.le_of_lt hlt

/-! ## One link at a time -/

omit [Quantity α] in
theorem Sound.underWay_of_standing (h : s.Sound) {link : LinkId} {id : AgentId}
    (hid : id ∈ (s.standing link).map (·.agent)) :
    ∃ a held?, s.world.situation id = .underWay a held? ∧ a.currentLink? = some link := by
  cases hq : s.queue? link with
  | none =>
      rw [standing_of_none hq] at hid
      cases hid
  | some q =>
      rw [standing_of_queue? hq] at hid
      obtain ⟨d, hd, hlinks⟩ := (City.Sound.queueIn?_eq_some_iff h).1 hq
      obtain ⟨a, held?, hsituation, hlink, -⟩ := (City.Sound.each h d hd).exists_underWay hlinks hid
      exact ⟨a, held?, (City.Sound.situation_of_queued h hd hlinks hid).trans hsituation, hlink⟩

omit [Quantity α] in
/-- Nobody is on two links. -/
theorem Sound.link_unique (h : s.Sound) {link other : LinkId} {id : AgentId}
    (hid : id ∈ (s.standing link).map (·.agent)) (hid' : id ∈ (s.standing other).map (·.agent)) :
    link = other := by
  obtain ⟨a, held?, hsituation, hlink⟩ := h.underWay_of_standing hid
  obtain ⟨b, held?', hsituation', hother⟩ := h.underWay_of_standing hid'
  rw [hsituation] at hsituation'
  cases hsituation'
  rw [hlink] at hother
  exact Option.some.inj hother

omit [Quantity α] in
theorem Sound.nodup_standing (h : s.Sound) (link : LinkId) :
    ((s.standing link).map (·.agent)).Nodup := by
  cases hq : s.queue? link with
  | none =>
      rw [standing_of_none hq]
      exact List.nodup_nil
  | some q =>
      rw [standing_of_queue? hq]
      obtain ⟨d, hd, hlinks⟩ := (City.Sound.queueIn?_eq_some_iff h).1 hq
      exact (City.Sound.each h d hd).single link q hlinks

end Simulation

/-- Nobody leaves two links in one step. -/
theorem Situation.StepsTo.length_vacated_le {g : Network} {clock : Clock} {id : AgentId}
    {σ τ : Situation} {kinds : List EventKind} (h : σ.StepsTo g clock τ kinds)
    (hσ : σ.Valid g id) : (kinds.filter fun kind => kind.vacated?.isSome).length ≤ 1 := by
  obtain ⟨ruling?, hfits, -, rfl⟩ := h
  have hwaking : (σ.wakingKinds g clock.tick).filter (fun kind => kind.vacated?.isSome) = [] := by
    rw [List.filter_eq_nil_iff]
    intro kind hkind
    simp [(wakingKinds_stay σ g clock.tick kind hkind).2]
  rw [List.filter_append, hwaking, List.nil_append]
  cases ruling? with
  | none => simp
  | some ruling =>
      obtain ⟨link, hlink⟩ := (hfits ruling rfl).exists_link hσ.woken
      rw [(hfits ruling rfl).filter_vacated hlink]
      exact Option.length_toList_le

namespace Simulation

variable {α : Type} [Quantity α] {first s : Simulation α} {stages : List (Stage α)}

theorem Chronicle.length_vacated_le (h : first.Chronicle s stages) (hfirst : first.Sound)
    (id : AgentId) : ∀ stage ∈ stages,
      (stage.events.filter fun e => e.agent = id ∧ e.kind.vacated?.isSome).length ≤ 1 := by
  refine h.forall_stage hfirst fun s next bus bus' record hsound hstep => ?_
  obtain ⟨kinds, hsteps, hrecord⟩ := hsound.stepsTo_of_step hstep id
  have hpicked : (record.events.filter fun e => e.agent = id ∧ e.kind.vacated?.isSome) =
      s.clock.tell id (kinds.filter fun kind => kind.vacated?.isSome) := by
    rw [← s.clock.filter_tell id kinds fun kind => kind.vacated?.isSome, ← hrecord,
      List.filter_filter]
    exact List.filter_congr fun e _ => by simp [Bool.and_comm]
  rw [hpicked, Clock.tell, List.length_map]
  exact hsteps.length_vacated_le (City.Sound.valid hsound id)

/-! ## All together -/

variable {config : Config} {g : Network} {agents : List Agent} {link : LinkId} {l : Link}

/-- How long one has to stay on a link is what the network and the settings say. -/
theorem Fresh.leastStay_eq (h : first.Fresh config g agents) (hl : g.link? link = some l) :
    first.leastStay link = l.leastStay config := by
  obtain ⟨q, hq, hcleared⟩ := h.exists_queue .start hl
  funext kind
  rw [leastStay, hq, Option.elim_some, ← q.leastStay_cleared, hcleared]
  cases kind <;> rfl

theorem Fresh.standing_eq_nil (h : first.Fresh config g agents) (link : LinkId) :
    first.standing link = [] := by
  have hqueue : first.queue? link = (g.link? link).map fun l => .ofLink l g.periodSecs config :=
    congrFun (congrArg World.queue? h.world_eq) link
  cases hl : g.link? link with
  | none =>
      rw [hl] at hqueue
      exact standing_of_none hqueue
  | some l =>
      rw [hl] at hqueue
      exact standing_of_queue? hqueue

/-- A link that is served in the order of entry. -/
structure ServesInOrder (config : Config) (l : Link) (s : Simulation α)
    (stages : List (Stage α)) : Prop where
  /-- Those who left are those who entered first, and the others are still there. -/
  inOrder : (Stage.allEntrances stages l.id).map (·.agent) =
    (Stage.allExits stages l.id).map (·.agent) ++ (s.standing l.id).map (·.agent)
  /-- Whenever an agent left, it had stayed as long as it has to. -/
  stayed : ∀ (id : AgentId) (visit : Nat) (entered left : Event),
    ((Stage.allEntrances stages l.id).filter fun e => e.agent = id)[visit]? = some entered →
    ((Stage.allExits stages l.id).filter fun e => e.agent = id)[visit]? = some left →
      entered.time + l.leastStay config entered.kind ≤ left.time
  /-- Whoever entered in an earlier step left before and in no later step. -/
  notOvertaken : ∀ (i j : Nat) (a b left : Event),
    (Stage.allEntrances stages l.id)[i]? = some a →
    (Stage.allEntrances stages l.id)[j]? = some b → a.time < b.time →
    (Stage.allExits stages l.id)[j]? = some left →
      left.agent = b.agent ∧ ∃ earlier, (Stage.allExits stages l.id)[i]? = some earlier ∧
        earlier.agent = a.agent ∧ earlier.time ≤ left.time

theorem Chronicle.servesInOrder (h : first.Chronicle s stages)
    (hfresh : first.Fresh config g agents) (hl : g.link? l.id = some l) :
    ServesInOrder config l s stages := by
  have hserved := h.served hfresh.sound l.id (hfresh.standing_eq_nil l.id)
  rw [hfresh.leastStay_eq hl] at hserved
  have hentrances := h.pairwise_time hfresh.sound (fun stage => stage.entrances l.id)
    fun stage e he => (Stage.mem_entrances_iff.1 he).1
  have hexits := h.pairwise_time hfresh.sound (fun stage => stage.exits l.id)
    fun stage e he => (Stage.mem_exits_iff.1 he).1
  constructor
  · exact hserved.agents_eq
  · exact fun id visit entered left => hserved.stayed_of_visit
  · intro i j a b left ha hb hlt hleft
    have hij : i < j := lt_of_time_lt hentrances ha hb hlt
    have hi : i < (Stage.allExits stages l.id).length :=
      Nat.lt_trans hij (List.getElem?_eq_some_iff.1 hleft).1
    have hearlier := List.getElem?_eq_getElem hi
    exact ⟨(hserved.agent_eq hb hleft).symm, _, hearlier, (hserved.agent_eq ha hearlier).symm,
      time_le_of_lt hexits hearlier hleft hij⟩

/-- In every history of a simulation that was built, every link is first in, first out, and nobody
passes it faster than free flow allows.  Nobody is on two links or at two places of one, and nobody
leaves two links in one step. -/
theorem first_in_first_out {periodSecs : Float} {positions : List Point} {drafts : List LinkDraft}
    {partitioning? : Option Partitioning}
    (hg : Network.build periodSecs positions drafts = .ok g)
    (hfirst : build config g agents partitioning? = .ok first) (hs : first.Chronicle s stages) :
    (∀ l ∈ g.links.toList, ServesInOrder config l s stages) ∧
      (∀ link other id, id ∈ (s.standing link).map (·.agent) →
        id ∈ (s.standing other).map (·.agent) → link = other) ∧
      (∀ link, ((s.standing link).map (·.agent)).Nodup) ∧
      ∀ stage ∈ stages, ∀ id,
        (stage.events.filter fun e => e.agent = id ∧ e.kind.vacated?.isSome).length ≤ 1 := by
  have hnumbered := Network.numbered_of_build hg
  have hfresh := fresh_of_build hnumbered hfirst
  have hsound := hs.history.reachable.sound hfresh.sound
  refine ⟨fun l hl => hs.servesInOrder hfresh (hnumbered.link?_eq_some_iff.2 ⟨hl, rfl⟩),
    fun link other id => hsound.link_unique, hsound.nodup_standing, ?_⟩
  exact fun stage hstage id => hs.length_vacated_le hfresh.sound id stage hstage

/-- On every road of the hamlet those who came first leave first. -/
theorem first_in_first_out_hamlet : ∃ g split last report stages,
    Network.build Network.standardPeriodSecs Hamlet.places Hamlet.roads = .ok g ∧
      build (α := Rat) Hamlet.config g Hamlet.neighbours.reverse (some Hamlet.halves) =
        .ok split ∧
      split.run (Bus.new 1) false (fun _ => false) = (last, .ok report) ∧
      split.Chronicle last.simulation stages ∧ stages.flatMap (·.events) = last.events ∧
      ∀ l ∈ g.links.toList, ServesInOrder Hamlet.config l last.simulation stages := by
  obtain ⟨g, split, last, report, hg, hsplit, hrun, hhistory⟩ := Hamlet.exists_run
  obtain ⟨stages, hstages, htold⟩ := hhistory.exists_chronicle
  exact ⟨g, split, last, report, stages, hg, hsplit, hrun, hstages, htold,
    (first_in_first_out hg hsplit hstages).1⟩

end Simulation

end Thoroughfare

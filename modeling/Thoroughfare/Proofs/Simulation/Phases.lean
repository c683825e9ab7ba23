import Mathlib.Logic.Relation
import Thoroughfare.Proofs.Simulation.Traffic

/-!
# The phases of a step in any order

In two phases of a step every district works for itself: first it carries out the decisions on its
links and on its departures, then it takes in whoever enters its links.  Each phase is a list of
tasks for each district, and the districts may do them in any order, one task here and one task
there.  No order makes a task fail, and all of them end with the same districts.
-/

namespace Thoroughfare

/-- A piece of the work of a district in a step. -/
inductive Task where
  | settleLink (entry : LinkId × LinkVerdict)
  | settleDeparture (entry : AgentId × DepartureVerdict)
  | receive (t : Transfer)

/-- A district at work, what it still has to do in a phase, and whom it has sent to other links. -/
structure Worker (α : Type) where
  district : District α
  tasks : List Task
  sent : List Transfer

theorem Effects.append_assoc (a b c : Effects) : a ++ (b ++ c) = a ++ b ++ c :=
  congrArg₂ Effects.mk (List.append_assoc ..).symm (List.append_assoc ..).symm

namespace District

variable {α β γ : Type} {treat : District α → β → Except StepError (District α × Effects)}
  {d d' : District α} {effects : Effects}

theorem treatAll_map (treat : District α → β → Except StepError (District α × Effects))
    (f : γ → β) (d : District α) (items : List γ) :
    treatAll treat d (items.map f) = treatAll (fun d item => treat d (f item)) d items := by
  induction items generalizing d with
  | nil => rfl
  | cons first rest ih => simp only [List.map_cons, treatAll, ih]

theorem treatAll_append (d : District α) (items more : List β) :
    treatAll treat d (items ++ more) = (do
      let (after, effects) ← treatAll treat d items
      let (after, others) ← treatAll treat after more
      return (after, effects ++ others)) := by
  induction items generalizing d with
  | nil =>
      rw [List.nil_append, treatAll]
      simp only [bind, Except.bind]
      rcases treatAll treat d more with e | ⟨after, effects⟩ <;> rfl
  | cons first rest ih =>
      rw [List.cons_append, treatAll, treatAll]
      rcases treat d first with e | ⟨middle, effects⟩
      · rfl
      · simp only [ih]
        rcases treatAll treat middle rest with e | ⟨after, others⟩
        · rfl
        · simp only [bind, Except.bind]
          rcases treatAll treat after more with e | ⟨last, final⟩
          · rfl
          · exact congrArg (fun told => Except.ok (last, told)) (Effects.append_assoc ..)

/-- What every item preserves is preserved by all of them. -/
theorem treatAll_keeps (P : District α → Prop)
    (htreat : ∀ d item d' effects, P d → treat d item = .ok (d', effects) → P d')
    {items : List β} (hd : P d) (h : treatAll treat d items = .ok (d', effects)) : P d' := by
  induction items generalizing d effects with
  | nil =>
      cases h
      exact hd
  | cons first rest ih =>
      rw [treatAll] at h
      split at h
      · cases h
      · rename_i middle effects hfirst
        split at h
        · cases h
        · rename_i after others hrest
          cases h
          exact ih (htreat d first middle effects hd hfirst) hrest

end District

section Workers

variable {α : Type} [Quantity α] {g : Network} {clock : Clock}

def Task.perform (g : Network) (clock : Clock) (d : District α) :
    Task → Except StepError (District α × Effects)
  | settleLink entry => d.settleLink clock entry
  | settleDeparture entry => d.settleDeparture clock entry
  | receive t => (d.receive g clock.now t).map fun d => (d, .none)

/-- What becomes of a worker that does the rest of its tasks. -/
def Worker.finish (g : Network) (clock : Clock) (w : Worker α) :
    Except StepError (District α × List Transfer) :=
  (District.treatAll (Task.perform g clock) w.district w.tasks).map fun done =>
    (done.1, w.sent ++ done.2.transfers)

theorem Worker.finish_of_idle {w : Worker α} (h : w.tasks = []) :
    w.finish g clock = .ok (w.district, w.sent) := by
  simp [finish, h, District.treatAll, Except.map, Effects.none]

/-- One of the workers does its next task. -/
inductive Works (g : Network) (clock : Clock) : List (Worker α) → List (Worker α) → Prop
  | next (before after : List (Worker α)) {d d' : District α} {task : Task} {tasks : List Task}
      {sent : List Transfer} {effects : Effects}
      (h : task.perform g clock d = .ok (d', effects)) :
      Works g clock (before ++ ⟨d, task :: tasks, sent⟩ :: after)
        (before ++ ⟨d', tasks, sent ++ effects.transfers⟩ :: after)

theorem Worker.finish_next {d d' : District α} {task : Task} {effects : Effects}
    (h : task.perform g clock d = .ok (d', effects)) (tasks : List Task) (sent : List Transfer) :
    (Worker.mk d' tasks (sent ++ effects.transfers)).finish g clock =
      (Worker.mk d (task :: tasks) sent).finish g clock := by
  simp only [finish, District.treatAll, h]
  rcases District.treatAll (Task.perform g clock) d' tasks with e | ⟨after, others⟩
  · rfl
  · simp [Except.map, List.append_assoc]

/-- Whatever is done next, every worker comes to the same end. -/
theorem Works.map_finish {workers later : List (Worker α)} (h : Works g clock workers later) :
    later.map (Worker.finish g clock) = workers.map (Worker.finish g clock) := by
  cases h with
  | next before after hok => simp only [List.map_append, List.map_cons, Worker.finish_next hok]

theorem map_finish_of_works {workers later : List (Worker α)}
    (h : Relation.ReflTransGen (Works g clock) workers later) :
    later.map (Worker.finish g clock) = workers.map (Worker.finish g clock) := by
  induction h with
  | refl => rfl
  | tail _ hlast ih => rw [hlast.map_finish, ih]

/-- The next task of a worker that comes to an end succeeds. -/
theorem Worker.perform_ok {w : Worker α} {done : District α × List Transfer}
    (h : w.finish g clock = .ok done) {task : Task} {rest : List Task}
    (htasks : w.tasks = task :: rest) :
    ∃ d' effects, task.perform g clock w.district = .ok (d', effects) := by
  rw [finish, htasks, District.treatAll] at h
  split at h
  · cases h
  · rename_i d' effects hok
    exact ⟨d', effects, hok⟩

/-- A worker that comes to an end can do all of its tasks at once. -/
theorem exists_works_one (before after : List (Worker α)) {w : Worker α}
    {done : District α × List Transfer} (h : w.finish g clock = .ok done) :
    ∃ w' : Worker α, w'.tasks = [] ∧
      Relation.ReflTransGen (Works g clock) (before ++ w :: after) (before ++ w' :: after) := by
  obtain ⟨d, tasks, sent⟩ := w
  induction tasks generalizing d sent with
  | nil => exact ⟨⟨d, [], sent⟩, rfl, .refl⟩
  | cons task rest ih =>
      obtain ⟨d', effects, hok⟩ := Worker.perform_ok h rfl
      rw [← Worker.finish_next hok] at h
      obtain ⟨w', hidle, hworks⟩ := ih _ _ h
      exact ⟨w', hidle, .head (.next before after hok) hworks⟩

/-- Workers that come to an end can do all of their tasks. -/
theorem exists_idle (before : List (Worker α)) {workers : List (Worker α)}
    (h : ∀ w ∈ workers, ∃ done, w.finish g clock = .ok done) :
    ∃ later : List (Worker α), (∀ w ∈ later, w.tasks = []) ∧
      Relation.ReflTransGen (Works g clock) (before ++ workers) (before ++ later) := by
  induction workers generalizing before with
  | nil => exact ⟨[], by simp, .refl⟩
  | cons w rest ih =>
      obtain ⟨done, hdone⟩ := h w List.mem_cons_self
      obtain ⟨w', hidle, hfirst⟩ := exists_works_one before rest hdone
      obtain ⟨later, hlater, hrest⟩ := ih (before ++ [w']) fun other hother =>
        h other (List.mem_cons_of_mem _ hother)
      rw [List.append_assoc, List.append_assoc] at hrest
      exact ⟨w' :: later, List.forall_mem_cons.2 ⟨hidle, hlater⟩, hfirst.trans hrest⟩

end Workers

namespace Simulation

variable {α : Type} [Quantity α] {s : Simulation α} {t : Traffic α} {workers : List (Worker α)}

/-- The decisions of a step after the districts have said who wants to move. -/
def decided (s : Simulation α) (prepared : List (District α × Effects × Offers)) : Verdicts :=
  (Resolution.ofOffers (freeAtStart s.partitioning (prepared.map (·.1)))
    (Offers.gather (prepared.map (·.2.2)))).verdicts

/-- A district that has to carry out decisions. -/
def settler (v : Verdicts) (p : District α × Effects × Offers) : Worker α where
  district := p.1
  tasks := (District.linkVerdicts p.2.2 v).map Task.settleLink ++
    (p.1.departureVerdicts v).map Task.settleDeparture
  sent := []

/-- A district that has to take in some of those who were sent. -/
def receiver (s : Simulation α) (transfers : List Transfer) (d : District α) : Worker α where
  district := d
  tasks := (inbox s.partitioning d.id (transfers.mergeSort fun a b => a.seq ≤ b.seq)).map
    Task.receive
  sent := []

/-- The districts carry out the decisions of a step, each its own in their order. -/
def Settling (s : Simulation α) (workers : List (Worker α)) : Prop :=
  ∃ prepared, (s.districts.mapM fun d => d.prepare s.network s.clock) = .ok prepared ∧
    Relation.ReflTransGen (Works s.network s.clock) (prepared.map (settler (s.decided prepared)))
      workers

/-- The districts take in whoever enters their links, after all decisions were carried out. -/
def Receiving (s : Simulation α) (workers : List (Worker α)) : Prop :=
  ∃ settled, s.Settling settled ∧ (∀ w ∈ settled, w.tasks = []) ∧
    Relation.ReflTransGen (Works s.network s.clock)
      (settled.map fun w => s.receiver (settled.flatMap (·.sent)) w.district) workers

theorem finish_settler (g : Network) (clock : Clock) (v : Verdicts)
    (p : District α × Effects × Offers) :
    (settler v p).finish g clock =
      (p.1.settle clock p.2.2 v).map fun done => (done.1, done.2.transfers) := by
  have hlinks := District.treatAll_map (Task.perform g clock) Task.settleLink p.1
    (District.linkVerdicts p.2.2 v)
  have hdepartures := fun d : District α =>
    District.treatAll_map (Task.perform g clock) Task.settleDeparture d (p.1.departureVerdicts v)
  simp only [Worker.finish, settler, District.treatAll_append, hlinks, hdepartures]
  rfl

theorem treatAll_receive (g : Network) (clock : Clock) (d : District α)
    (transfers : List Transfer) :
    District.treatAll (Task.perform g clock) d (transfers.map Task.receive) =
      (d.receiveAll g clock.now transfers).map fun d => (d, .none) := by
  induction transfers generalizing d with
  | nil => rfl
  | cons first rest ih =>
      rw [List.map_cons, District.treatAll, District.receiveAll, List.foldlM_cons, Task.perform]
      rcases d.receive g clock.now first with e | d'
      · rfl
      · have hrest := ih d'
        rw [District.receiveAll] at hrest
        simp only [Except.map, bind, Except.bind] at hrest ⊢
        rw [hrest]
        rcases List.foldlM (District.receive g clock.now) d' rest with e | d'' <;> rfl

theorem finish_receiver (s : Simulation α) (transfers : List Transfer) (d : District α) :
    (s.receiver transfers d).finish s.network s.clock =
      (d.receiveAll s.network s.now (inbox s.partitioning d.id
        (transfers.mergeSort fun a b => a.seq ≤ b.seq))).map fun d => (d, []) := by
  rw [Worker.finish, receiver, treatAll_receive]
  change _ = (d.receiveAll s.network s.clock.now _).map _
  rcases d.receiveAll s.network s.clock.now _ with e | d' <;> rfl

/-- The phases of a step that can be done. -/
theorem phases_of_traffic (ht : s.traffic = .ok t) :
    ∃ prepared settled,
      (s.districts.mapM fun d => d.prepare s.network s.clock) = .ok prepared ∧
      (prepared.mapM fun p => p.1.settle s.clock p.2.2 (s.decided prepared)) = .ok settled ∧
      (settled.mapM fun d => d.1.receiveAll s.network s.now (inbox s.partitioning d.1.id
        ((settled.flatMap (·.2.transfers)).mergeSort fun a b => a.seq ≤ b.seq))) =
          .ok t.districts ∧
      t.batches = (prepared.zip settled).map fun entry =>
        entry.1.2.1.events ++ entry.2.2.events := by
  unfold traffic at ht
  rcases hprepared : s.districts.mapM fun d => d.prepare s.network s.clock with e | prepared
  · rw [hprepared] at ht
    cases ht
  rw [hprepared] at ht
  simp only [bind, Except.bind] at ht
  split at ht
  · cases ht
  rename_i settled hsettled
  split at ht
  · cases ht
  simp only [pure, Except.pure] at ht
  split at ht
  · cases ht
  rename_i districts hdistricts
  cases ht
  exact ⟨prepared, settled, hprepared, hsettled, hdistricts, rfl⟩

/-- Whatever is done next in the first phase, every district comes to what a step makes of it. -/
theorem Settling.map_finish (h : s.Settling workers)
    {prepared : List (District α × Effects × Offers)} {settled : List (District α × Effects)}
    (hprepared : (s.districts.mapM fun d => d.prepare s.network s.clock) = .ok prepared)
    (hsettled : (prepared.mapM fun p => p.1.settle s.clock p.2.2 (s.decided prepared)) =
      .ok settled) :
    workers.map (Worker.finish s.network s.clock) =
      (settled.map fun d => (d.1, d.2.transfers)).map .ok := by
  obtain ⟨prepared', hprepared', hworks⟩ := h
  rw [hprepared] at hprepared'
  cases hprepared'
  rw [map_finish_of_works hworks]
  calc (prepared.map (settler (s.decided prepared))).map (Worker.finish s.network s.clock)
      = (prepared.map fun p => p.1.settle s.clock p.2.2 (s.decided prepared)).map
          (Except.map fun done => (done.1, done.2.transfers)) := by
        rw [List.map_map, List.map_map]
        exact List.map_congr_left fun p _ => finish_settler _ _ _ p
    _ = (settled.map fun d => (d.1, d.2.transfers)).map .ok := by
        rw [map_eq_map_ok_of_mapM hsettled, List.map_map, List.map_map]
        rfl

/-- Workers that have nothing left to do are at their end. -/
theorem eq_of_map_finish {ends : List (District α × List Transfer)}
    (hidle : ∀ w ∈ workers, w.tasks = [])
    (h : workers.map (Worker.finish s.network s.clock) = ends.map .ok) :
    workers.map (fun w => (w.district, w.sent)) = ends := by
  have hinj : Function.Injective (Except.ok (ε := StepError) (α := District α × List Transfer)) :=
    fun a b hab => Except.ok.inj hab
  apply hinj.list_map
  rw [List.map_map, ← h]
  exact List.map_congr_left fun w hw => (Worker.finish_of_idle (hidle w hw)).symm

/-- Whatever is done next in the second phase, every district comes to what a step makes of it. -/
theorem Receiving.map_finish (h : s.Receiving workers) (ht : s.traffic = .ok t) :
    workers.map (Worker.finish s.network s.clock) = (t.districts.map fun d => (d, [])).map .ok := by
  obtain ⟨prepared, settled, hprepared, hsettled, hdistricts, -⟩ := phases_of_traffic ht
  obtain ⟨done, hsettling, hidle, hworks⟩ := h
  have hdone := eq_of_map_finish hidle (hsettling.map_finish hprepared hsettled)
  have hsent : done.flatMap (·.sent) = settled.flatMap (·.2.transfers) := by
    have hflat := congrArg (List.flatMap Prod.snd) hdone
    rwa [List.flatMap_map, List.flatMap_map] at hflat
  have hdistrict : done.map (·.district) = settled.map (·.1) := by
    have hmap := congrArg (List.map Prod.fst) hdone
    rwa [List.map_map, List.map_map] at hmap
  rw [map_finish_of_works hworks, hsent]
  calc (done.map fun w => s.receiver (settled.flatMap (·.2.transfers)) w.district).map
        (Worker.finish s.network s.clock)
      = (settled.map (·.1)).map fun d =>
          (s.receiver (settled.flatMap (·.2.transfers)) d).finish s.network s.clock := by
        rw [← hdistrict, List.map_map, List.map_map]
        rfl
    _ = (settled.map fun d => d.1.receiveAll s.network s.now (inbox s.partitioning d.1.id
          ((settled.flatMap (·.2.transfers)).mergeSort fun a b => a.seq ≤ b.seq))).map
            (Except.map fun d => (d, [])) := by
        rw [List.map_map, List.map_map]
        exact List.map_congr_left fun d _ => finish_receiver s _ d.1
    _ = (t.districts.map fun d => (d, [])).map .ok := by
        rw [map_eq_map_ok_of_mapM hdistricts, List.map_map, List.map_map]
        rfl

/-- A step in the middle of one of the two phases. -/
def Midway (s : Simulation α) (workers : List (Worker α)) : Prop :=
  s.Settling workers ∨ s.Receiving workers

/-- Whatever is done next, every district comes to an end. -/
theorem Midway.finish_ok (h : s.Midway workers) (ht : s.traffic = .ok t) {w : Worker α}
    (hw : w ∈ workers) : ∃ done, w.finish s.network s.clock = .ok done := by
  have hends : ∃ ends : List (District α × List Transfer),
      workers.map (Worker.finish s.network s.clock) = ends.map .ok := by
    rcases h with hsettling | hreceiving
    · obtain ⟨prepared, settled, hprepared, hsettled, -⟩ := phases_of_traffic ht
      exact ⟨_, hsettling.map_finish hprepared hsettled⟩
    · exact ⟨_, hreceiving.map_finish ht⟩
  obtain ⟨ends, hends⟩ := hends
  have hmem := List.mem_map_of_mem (f := Worker.finish s.network s.clock) hw
  rw [hends] at hmem
  obtain ⟨done, -, hdone⟩ := List.mem_map.1 hmem
  exact ⟨done, hdone.symm⟩

/-- No order of work makes a task fail. -/
theorem Midway.perform_ok (h : s.Midway workers) (ht : s.traffic = .ok t) {w : Worker α}
    (hw : w ∈ workers) {task : Task} {rest : List Task} (htasks : w.tasks = task :: rest) :
    ∃ d' effects, task.perform s.network s.clock w.district = .ok (d', effects) := by
  obtain ⟨done, hdone⟩ := h.finish_ok ht hw
  exact Worker.perform_ok hdone htasks

/-- Both phases can be brought to their end. -/
theorem exists_receiving (ht : s.traffic = .ok t) :
    ∃ workers, s.Receiving workers ∧ ∀ w ∈ workers, w.tasks = [] := by
  obtain ⟨prepared, -, hprepared, -, -⟩ := phases_of_traffic ht
  have hstart : s.Settling (prepared.map (settler (s.decided prepared))) :=
    ⟨prepared, hprepared, .refl⟩
  obtain ⟨settled, hsettled, hworks⟩ := exists_idle [] fun w hw =>
    Midway.finish_ok (Or.inl hstart) ht hw
  have hnext : s.Receiving (settled.map fun w =>
      s.receiver (settled.flatMap (·.sent)) w.district) :=
    ⟨settled, ⟨prepared, hprepared, hworks⟩, hsettled, .refl⟩
  obtain ⟨workers, hidle, hreceived⟩ := exists_idle [] fun w hw =>
    Midway.finish_ok (Or.inr hnext) ht hw
  exact ⟨workers, ⟨settled, ⟨prepared, hprepared, hworks⟩, hsettled, hreceived⟩, hidle⟩

/-- Every order of work ends with the districts that the step makes. -/
theorem Receiving.districts_eq (h : s.Receiving workers) (ht : s.traffic = .ok t)
    (hidle : ∀ w ∈ workers, w.tasks = []) : workers.map (·.district) = t.districts := by
  have hmap := congrArg (List.map Prod.fst) (eq_of_map_finish hidle (h.map_finish ht))
  rwa [List.map_map, List.map_map, show (Prod.fst ∘ fun d : District α =>
    (d, ([] : List Transfer))) = id from rfl, List.map_id] at hmap

end Simulation

end Thoroughfare

import Mathlib.Data.List.Flatten
import Mathlib.Data.Prod.Lex
import Thoroughfare.Proofs.Simulation.Census
import Thoroughfare.Proofs.Simulation.Traffic

/-!
# Refusals

Whoever wants to enter a link and is refused makes the same attempt again in a later step, and goes
on to other attempts only when it was granted.  The attempts of one agent have ascending ranks, and
its situation shows whether the attempt that it is about to make was refused before.  So the
refusals of a step that come with a warning are those of attempts that no step refused before.
-/

namespace Thoroughfare

/-! ## Attempts -/

/-- What an agent tries to do: to depart on a leg, or to go on from a place in the route of a
leg. -/
structure Attempt where
  agent : AgentId
  /-- The segment that is the leg. -/
  leg : Nat
  /-- The place that the agent wants to leave; none if it wants to depart. -/
  from? : Option Nat
deriving DecidableEq, Repr

/-- The order of the attempts of one agent. -/
def Attempt.rank (k : Attempt) : Nat ×ₗ Nat :=
  toLex (k.leg, k.from?.elim 0 (· + 1))

/-- What a live agent attempts next when it wants to enter a link. -/
def Agent.attempt (a : Agent) : Attempt :=
  ⟨a.id, a.segment, if a.state = .enRoute then some a.routeIndex else none⟩

/-- An attempt that was refused at a second, since a link was full. -/
structure Refused where
  time : Nat
  attempt : Attempt
  target : LinkId
deriving DecidableEq, Repr

def Refused.warning (r : Refused) : CapacityWarning :=
  ⟨r.time, r.attempt.agent, r.target⟩

/-- All refusals of a step, in the order of the decisions. -/
def Resolution.refusals (r : Resolution) : List Refusal :=
  (r.links.filterMap fun entry => entry.2.refusal?) ++
  (r.departures.filterMap fun entry =>
    if entry.2.seq?.isNone then some ⟨entry.1, entry.2.link, entry.2.firstAttempt⟩ else none)

/-- All decisions of a step about anybody, also those that change nothing. -/
def Resolution.answers (r : Resolution) : List (AgentId × Ruling) :=
  (r.links.flatMap fun entry => entry.2.rulings) ++ Verdicts.departureRulings r.departures

/-- What an agent attempts next, read off the districts. -/
def attemptIn {α : Type} (districts : List (District α)) (id : AgentId) : Attempt :=
  match districts.findSome? fun d => d.agent? id with
  | some a => a.attempt
  | none => ⟨id, 0, none⟩

/-- The refused attempt that a refusal is about.  Whoever is refused stays where it is, so the
attempt can be seen after the step. -/
def Traffic.refused {α : Type} (t : Traffic α) (now : Nat) (refusal : Refusal) : Refused :=
  ⟨now, attemptIn t.districts refusal.agent, refusal.target⟩

/-- The attempts that the next step refuses. -/
def Simulation.refusals {α : Type} [Quantity α] (s : Simulation α) : List Refused :=
  match s.traffic with
  | .error _ => []
  | .ok t => t.resolution.refusals.map (t.refused s.now)

/-- Every refused attempt has just one warning, with the second of its first refusal and the link
that was full, and there are no other warnings. -/
def WarnedOnce (refusals : List Refused) (warnings : List CapacityWarning) : Prop :=
  ∃ warned : List Refused, warnings = warned.map Refused.warning ∧ warned.Sublist refusals ∧
    (warned.map (·.attempt)).Nodup ∧ ∀ r ∈ refusals, ∃ w ∈ warned,
      w.attempt = r.attempt ∧ w.target = r.target ∧ w.time ≤ r.time

theorem WarnedOnce.nil : WarnedOnce [] [] :=
  ⟨[], rfl, List.Sublist.refl _, List.nodup_nil, by simp⟩

/-- More refusals add the warnings about those attempts that were not refused before. -/
theorem WarnedOnce.append {past new : List Refused} {warnings : List CapacityWarning}
    (h : WarnedOnce past warnings) (hlater : ∀ r ∈ past, ∀ n ∈ new, r.time ≤ n.time)
    (hnodup : (new.map (·.attempt)).Nodup)
    (htarget : ∀ r ∈ past, ∀ n ∈ new, r.attempt = n.attempt → r.target = n.target) :
    WarnedOnce (past ++ new) (warnings ++
      (new.filter fun n => n.attempt ∉ past.map (·.attempt)).map Refused.warning) := by
  obtain ⟨warned, rfl, hsublist, hdistinct, hcovered⟩ := h
  refine ⟨warned ++ new.filter fun n => n.attempt ∉ past.map (·.attempt), by rw [List.map_append],
    hsublist.append List.filter_sublist, ?_, ?_⟩
  · rw [List.map_append, List.nodup_append']
    refine ⟨hdistinct, hnodup.sublist (List.filter_sublist.map _), ?_⟩
    intro k hold hnew
    obtain ⟨n, hn, rfl⟩ := List.mem_map.1 hnew
    exact of_decide_eq_true (List.mem_filter.1 hn).2 ((hsublist.map _).subset hold)
  · intro r hr
    by_cases hseen : r.attempt ∈ past.map (·.attempt)
    · obtain ⟨old, hold, hsame⟩ := List.mem_map.1 hseen
      obtain ⟨w, hw, hattempt, hlink, htime⟩ := hcovered old hold
      refine ⟨w, List.mem_append_left _ hw, hattempt.trans hsame, ?_⟩
      rcases List.mem_append.1 hr with hpast | hnew
      · obtain ⟨w', hw', hattempt', hlink', htime'⟩ := hcovered r hpast
        have : w' = w := List.inj_on_of_nodup_map hdistinct hw' hw
          (hattempt'.trans (hattempt.trans hsame).symm)
        exact this ▸ ⟨hlink', htime'⟩
      · exact ⟨hlink.trans (htarget old hold r hnew hsame), htime.trans (hlater old hold r hnew)⟩
    · rcases List.mem_append.1 hr with hpast | hnew
      · exact absurd (List.mem_map_of_mem hpast) hseen
      · exact ⟨r, List.mem_append_right _ (List.mem_filter.2 ⟨hnew, decide_eq_true hseen⟩), rfl,
          rfl, Nat.le_refl _⟩

/-! ## What a situation remembers -/

namespace Situation

variable {g : Network} {clock : Clock} {id : AgentId} {σ τ : Situation} {ruling : Ruling}
  {past new : List Refused}

/-- The attempt that an agent is about to make. -/
def attempt? : Situation → Option Attempt
  | waiting a _ => some a.attempt
  | underWay a _ => some a.attempt
  | _ => none

/-- The link that refused an agent the attempt that it is about to make. -/
def refusedBy? : Situation → Option LinkId
  | waiting a true => a.currentLink?
  | underWay _ held? => held?
  | _ => none

/-- An agent goes on to attempts of higher rank, none of which was refused yet. -/
def GoesOn (σ τ : Situation) : Prop :=
  τ.refusedBy? = none ∧ ∃ a, σ.listing.live? = some a ∧
    ∀ b, τ.listing.live? = some b → a.attempt.rank < b.attempt.rank

/-- An agent is refused and stays where it is. -/
inductive Rebuffed (target : LinkId) (firstAttempt : Bool) : Situation → Situation → Prop
  | move {a : Agent} {held? : Option LinkId} (h : a.nextLink? = some target)
      (hfirst : firstAttempt = decide (held? ≠ some target)) :
      Rebuffed target firstAttempt (underWay a held?) (underWay a (some target))
  | departure {a : Agent} {refused : Bool} (h : a.currentLink? = some target)
      (hfirst : firstAttempt = !refused) :
      Rebuffed target firstAttempt (waiting a refused) (waiting a true)

/-- A situation goes with the attempts that were refused so far: none of them is ahead of it, and it
shows whether the next one is among them. -/
structure Remembers (id : AgentId) (past : List Refused) (σ : Situation) : Prop where
  behind : ∀ a, σ.listing.live? = some a → ∀ r ∈ past, r.attempt.agent = id →
    r.attempt.rank ≤ a.attempt.rank
  refusedBy?_iff : ∀ k, σ.attempt? = some k → ∀ target, σ.refusedBy? = some target ↔
    ∃ r ∈ past, r.attempt = k ∧ r.target = target

theorem exists_live_of_attempt? {k : Attempt} (hσ : σ.Valid g id) (h : σ.attempt? = some k) :
    ∃ a, σ.listing.live? = some a ∧ k = a.attempt ∧ k.agent = id := by
  cases σ with
  | waiting a refused =>
      cases h
      exact ⟨a, rfl, rfl, hσ.1⟩
  | underWay a held? =>
      cases h
      exact ⟨a, rfl, rfl, hσ.1⟩
  | _ => cases h

theorem Remembers.goesOn (h : σ.Remembers id past) (hgoes : σ.GoesOn τ) (hτ : τ.Valid g id) :
    τ.Remembers id past := by
  obtain ⟨hnone, a, ha, hrank⟩ := hgoes
  constructor
  · intro b hb r hr hid
    exact (h.behind a ha r hr hid).trans (hrank b hb).le
  · intro k hk target
    obtain ⟨b, hb, rfl, hid⟩ := exists_live_of_attempt? hτ hk
    rw [hnone]
    constructor
    · intro hrefused
      cases hrefused
    · rintro ⟨r, hr, hsame, -⟩
      have hle := h.behind a ha r hr (hsame ▸ hid)
      rw [hsame] at hle
      exact absurd (hrank b hb) (not_lt_of_ge hle)

/-- What is refused to others does not matter. -/
theorem Remembers.append_of_others (h : σ.Remembers id past) (hσ : σ.Valid g id)
    (hothers : ∀ r ∈ new, r.attempt.agent ≠ id) : σ.Remembers id (past ++ new) := by
  constructor
  · intro a ha r hr hid
    rcases List.mem_append.1 hr with hpast | hnew
    · exact h.behind a ha r hpast hid
    · exact absurd hid (hothers r hnew)
  · intro k hk target
    obtain ⟨a, -, -, hid⟩ := exists_live_of_attempt? hσ hk
    rw [h.refusedBy?_iff k hk]
    constructor
    · rintro ⟨r, hr, hsame⟩
      exact ⟨r, List.mem_append_left _ hr, hsame⟩
    · rintro ⟨r, hr, hsame, htarget⟩
      rcases List.mem_append.1 hr with hpast | hnew
      · exact ⟨r, hpast, hsame, htarget⟩
      · exact absurd (hsame ▸ hid) (hothers r hnew)

section Rebuffed

variable {target other : LinkId} {firstAttempt : Bool}

/-- Whoever is refused keeps its attempt in mind. -/
theorem Rebuffed.exists_agent (h : Rebuffed target firstAttempt σ τ) (hσ : σ.Valid g id) :
    ∃ a, a.id = id ∧ σ.listing.live? = some a ∧ σ.attempt? = some a.attempt ∧
      τ.agent? = some a ∧ τ.listing.live? = some a ∧ τ.attempt? = some a.attempt ∧
      τ.refusedBy? = some target := by
  cases h with
  | @move a held? hnext hfirst => exact ⟨a, hσ.1, rfl, rfl, rfl, rfl, rfl, rfl⟩
  | @departure a refused hlink hfirst => exact ⟨a, hσ.1, rfl, rfl, rfl, rfl, rfl, hlink⟩

/-- It is always the same link that refuses an attempt. -/
theorem Rebuffed.eq_of_refusedBy? (h : Rebuffed target firstAttempt σ τ) (hσ : σ.Valid g id)
    (hother : σ.refusedBy? = some other) : other = target := by
  cases h with
  | @move a held? hnext hfirst =>
      exact Option.some.inj ((hσ.2.2.2 other hother).symm.trans hnext)
  | @departure a refused hlink hfirst =>
      cases refused with
      | false => cases hother
      | true => exact Option.some.inj (hother.symm.trans hlink)

theorem Rebuffed.firstAttempt_iff (h : Rebuffed target firstAttempt σ τ) (hσ : σ.Valid g id) :
    firstAttempt = true ↔ σ.refusedBy? = none := by
  have hsame : ∀ other, σ.refusedBy? = some other → other = target :=
    fun _ => h.eq_of_refusedBy? hσ
  cases h with
  | @move a held? hnext hfirst =>
      rw [hfirst, decide_eq_true_eq, refusedBy?]
      cases held? with
      | none => simp
      | some other => simp [hsame other rfl]
  | @departure a refused hlink hfirst =>
      rw [hfirst]
      cases refused with
      | false => exact iff_of_true rfl rfl
      | true => simp [refusedBy?, hlink]

end Rebuffed

/-- Whoever is refused remembers it. -/
theorem Remembers.rebuffed {target : LinkId} {firstAttempt : Bool} {n : Refused}
    (h : σ.Remembers id past) (hσ : σ.Valid g id) (hrebuffed : Rebuffed target firstAttempt σ τ)
    (hn : n ∈ new) (hattempt : σ.attempt? = some n.attempt) (htarget : n.target = target)
    (honly : ∀ r ∈ new, r.attempt.agent = id → r = n) : τ.Remembers id (past ++ new) := by
  obtain ⟨a, hid, hlive, hσa, -, hτlive, hτa, hτby⟩ := hrebuffed.exists_agent hσ
  rw [hσa] at hattempt
  obtain hsame : a.attempt = n.attempt := Option.some.inj hattempt
  constructor
  · intro b hb r hr hrid
    rw [hτlive] at hb
    cases hb
    rcases List.mem_append.1 hr with hpast | hnew
    · exact h.behind a hlive r hpast hrid
    · rw [honly r hnew hrid, hsame]
  · intro k hk other
    rw [hτa] at hk
    cases hk
    rw [hτby]
    constructor
    · rintro ⟨⟩
      exact ⟨n, List.mem_append_right _ hn, hsame.symm, htarget⟩
    · rintro ⟨r, hr, hrattempt, rfl⟩
      rcases List.mem_append.1 hr with hpast | hnew
      · have hknown := (h.refusedBy?_iff _ hσa r.target).2 ⟨r, hpast, hrattempt, rfl⟩
        rw [hrebuffed.eq_of_refusedBy? hσ hknown]
      · have hrid : r.attempt.agent = id := by rw [hrattempt]; exact hid
        rw [honly r hnew hrid, htarget]

/-! ## What a step does to the attempts of an agent -/

theorem goesOn_woken (hσ : σ.Valid g id) (tick : Tick) :
    σ.woken g tick = σ ∨ σ.GoesOn (σ.woken g tick) := by
  rcases woken_cases hσ tick with ⟨-, hsame, -⟩ | ⟨a, k, w, rfl, -, hawaken, -, -, hw, -, -⟩
  · exact Or.inl hsame
  · right
    obtain ⟨-, hstate, activity, hactivity⟩ := hσ
    rw [hw]
    rcases Agent.awaken_cases (g := g) hstate hactivity with
      ⟨-, hw'⟩ | ⟨leg, next, -, -, ⟨-, -, -, hw'⟩ | ⟨bad, -, hw'⟩⟩
    · rw [hawaken] at hw'
      cases hw'
      refine ⟨rfl, a, rfl, ?_⟩
      rintro b ⟨⟩
    · rw [hawaken] at hw'
      cases hw'
      refine ⟨rfl, a, rfl, ?_⟩
      rintro b ⟨⟩
      exact Prod.Lex.toLex_lt_toLex.2 (Or.inl (Nat.lt_succ_self _))
    · rw [hawaken] at hw'
      cases hw'
      refine ⟨rfl, a, rfl, ?_⟩
      rintro b ⟨⟩

/-- Whoever is granted what it wants goes on. -/
theorem Fits.goesOn (h : σ.Fits ruling) (hσ : σ.Valid g id) (clock : Clock)
    (hhold : ∀ target, ruling ≠ .hold target) (hwait : ∀ target, ruling ≠ .wait target) :
    σ.GoesOn (σ.outcome clock (some ruling)).finally := by
  cases h with
  | @arrive a held? hnext =>
      simp only [outcome, Outcome.finally]
      rcases landed_cases clock a with ⟨-, -, hlanded⟩ | ⟨tick, -, -, -, hlanded⟩
      · rw [hlanded]
        refine ⟨rfl, a, rfl, ?_⟩
        rintro b ⟨⟩
      · rw [hlanded]
        refine ⟨rfl, a, rfl, ?_⟩
        rintro b ⟨⟩
        exact Prod.Lex.toLex_lt_toLex.2 (Or.inl (Nat.lt_succ_self _))
  | @move a held? target seq hnext =>
      refine ⟨rfl, a, rfl, ?_⟩
      rintro b ⟨⟩
      have hstate : a.state = .enRoute := hσ.2.1
      refine Prod.Lex.toLex_lt_toLex.2 (Or.inr ⟨rfl, ?_⟩)
      simp [Agent.attempt, Agent.onNextLink, hstate]
  | hold held? hnext => exact absurd rfl (hhold _)
  | @depart a refused link seq hlink =>
      refine ⟨rfl, a, rfl, ?_⟩
      rintro b ⟨⟩
      have hstate : a.state = .departing := hσ.2.1
      refine Prod.Lex.toLex_lt_toLex.2 (Or.inr ⟨rfl, ?_⟩)
      simp [Agent.attempt, Agent.enteredTraffic, hstate]
  | wait refused hlink => exact absurd rfl (hwait _)

end Situation

/-! ## Who is refused -/

theorem Answers.mem_of_refusal {offers : List Offer} {v : LinkVerdict} (h : Answers offers v)
    {refusal : Refusal} (hrefusal : v.refusal? = some refusal) :
    .move refusal.agent refusal.target refusal.firstAttempt ∈ offers := by
  induction h with
  | nobody => cases hrefusal
  | refused agent target firstAttempt rest =>
      cases hrefusal
      exact List.mem_cons_self
  | arrives agent _ ih => exact List.mem_cons_of_mem _ (ih hrefusal)
  | moves agent target firstAttempt seq _ ih => exact List.mem_cons_of_mem _ (ih hrefusal)

theorem Situation.exists_of_offer_eq_move {σ : Situation} {id agent : AgentId} {target : LinkId}
    {firstAttempt : Bool} (h : σ.offer id = .move agent target firstAttempt) :
    ∃ a held?, σ = .underWay a held? ∧ agent = id ∧ a.nextLink? = some target ∧
      firstAttempt = decide (held? ≠ some target) := by
  cases σ with
  | underWay a held? =>
      rw [offer] at h
      split at h
      · cases h
      · rename_i next hnext
        cases h
        exact ⟨a, held?, rfl, rfl, hnext, rfl⟩
  | _ => cases h

namespace Resolution

variable {r : Resolution} {refusal : Refusal}

theorem mem_refusals_iff : refusal ∈ r.refusals ↔
    (∃ entry ∈ r.links, entry.2.refusal? = some refusal) ∨
      ∃ entry ∈ r.departures, entry.2.seq? = none ∧
        refusal = ⟨entry.1, entry.2.link, entry.2.firstAttempt⟩ := by
  rw [refusals, List.mem_append, List.mem_filterMap, List.mem_filterMap]
  simp only [Option.ite_none_right_eq_some, Option.isNone_iff_eq_none, Option.some.injEq]
  exact or_congr_right (exists_congr fun entry => and_congr_right fun _ =>
    and_congr_right fun _ => eq_comm)

/-- The warnings of a step are about the first refusals. -/
theorem warnings_eq (r : Resolution) (time : Nat) :
    r.warnings time = (r.refusals.filter (·.firstAttempt)).map fun refusal =>
      ⟨time, refusal.agent, refusal.target⟩ := by
  have hfirst : ∀ refusals : List Refusal,
      (refusals.filter (·.firstAttempt)).map (fun refusal =>
        (⟨time, refusal.agent, refusal.target⟩ : CapacityWarning)) =
      refusals.filterMap fun refusal =>
        warning? time refusal.agent refusal.target refusal.firstAttempt := by
    intro refusals
    rw [← List.filterMap_eq_map, List.filterMap_filter]
    rfl
  rw [hfirst, refusals, List.filterMap_append, List.filterMap_filterMap, List.filterMap_filterMap,
    warnings]
  congr 1
  apply List.filterMap_congr
  intro entry _
  split <;> rfl

theorem refusals_sublist (r : Resolution) :
    (r.refusals.map (·.agent)).Sublist (r.answers.map (·.1)) := by
  rw [refusals, answers, List.map_append, List.map_append]
  refine List.Sublist.append ?_ ?_
  · rw [List.filterMap_eq_flatMap_toList, List.map_flatMap, List.map_flatMap]
    refine List.Sublist.flatMap_right _ fun entry _ => ?_
    rw [LinkVerdict.rulings, List.map_append, List.map_map, List.map_map]
    exact List.sublist_append_right _ _
  · rw [Verdicts.departureRulings, List.map_map]
    apply map_filterMap_sublist_map
    intro entry _ refusal hpick
    split at hpick
    · cases hpick
      rfl
    · cases hpick

/-- Whoever is told to stay where it is was refused. -/
theorem exists_refusal_of_ruling {id : AgentId} {ruling : Ruling} (h : (id, ruling) ∈ r.rulings)
    (hstays : ∃ target, ruling = .hold target ∨ ruling = .wait target) :
    ∃ refusal ∈ r.refusals, refusal.agent = id := by
  rcases List.mem_append.1 h with hlink | hdeparture
  · obtain ⟨entry, hentry, hruling⟩ := List.mem_flatMap.1 hlink
    rcases List.mem_append.1 hruling with hgrant | hrefusal
    · obtain ⟨grant, -, hsame⟩ := List.mem_map.1 hgrant
      obtain ⟨target, rfl | rfl⟩ := hstays <;> cases grant <;> cases hsame
    · obtain ⟨refusal, hmem, hsame⟩ := List.mem_map.1 hrefusal
      cases hsame
      exact ⟨refusal, mem_refusals_iff.2 (Or.inl ⟨entry, hentry, Option.mem_toList.1 hmem⟩), rfl⟩
  · obtain ⟨entry, hentry, hsame⟩ := List.mem_map.1 hdeparture
    cases hsame
    refine ⟨_, mem_refusals_iff.2 (Or.inr ⟨entry, (List.mem_filter.1 hentry).1, ?_, rfl⟩), rfl⟩
    obtain ⟨target, hstays⟩ := hstays
    cases hseq : entry.2.seq? with
    | none => rfl
    | some seq => simp [DepartureVerdict.ruling, hseq] at hstays

end Resolution

namespace City.Sound

variable {α : Type} [Quantity α] {g : Network} {p : Partitioning} {tick : Tick} {now : Nat}
  {districts : List (District α)} {refusal : Refusal}

theorem nodup_departures (h : Sound g p tick districts) :
    ((resolution p districts now).departures.map (·.1)).Nodup := by
  rw [resolution, Resolution.map_fst_departures]
  exact h.nodup_offers_departures

/-- There are no two decisions about anybody. -/
theorem nodup_answers (h : Sound g p tick districts) :
    ((resolution p districts now).answers.map (·.1)).Nodup := by
  refine nodup_map_fst_rulings (σ := situation districts) h.nodup_decided_links ?_
    (fun entry hentry told htold => h.underWay_of_ruling hentry htold) h.nodup_departures ?_
  · rintro ⟨link, verdict⟩ hverdict
    obtain ⟨d, hd, q, hq, -, hanswers⟩ := exists_queue_of_verdict hverdict
    exact ((h.each d hd).executable hq hanswers).single
  · intro entry hentry
    obtain ⟨wish, hwish, -⟩ := Resolution.exists_departureOffer hentry
    obtain ⟨a, refused, hwaiting, -⟩ := Situation.departure?_eq_some_iff.1
      (h.mem_offers_departures_iff.1 hwish)
    exact ⟨a, refused, hwaiting⟩

/-- Nobody is refused twice in a step. -/
theorem nodup_refusals (h : Sound g p tick districts) :
    ((resolution p districts now).refusals.map (·.agent)).Nodup :=
  (Resolution.refusals_sublist _).nodup h.nodup_answers

/-- Who was refused its departure before and is refused again is told nothing. -/
theorem lookup_eq_none_of_departure (h : Sound g p tick districts) {id : AgentId}
    {verdict : DepartureVerdict} (hentry : (id, verdict) ∈ (resolution p districts now).departures)
    (hmatters : verdict.matters = false) :
    (resolution p districts now).rulings.lookup id = none := by
  obtain ⟨wish, hwish, -⟩ := Resolution.exists_departureOffer hentry
  obtain ⟨a, refused, hwaiting, -⟩ := Situation.departure?_eq_some_iff.1
    (h.mem_offers_departures_iff.1 hwish)
  apply lookup_eq_none_of_not_mem
  intro hmem
  obtain ⟨entry, hruling, rfl⟩ := List.mem_map.1 hmem
  rcases List.mem_append.1 hruling with hlink | hdeparture
  · obtain ⟨decided, hverdict, htold⟩ := List.mem_flatMap.1 hlink
    obtain ⟨b, held?, hsituation, -⟩ := h.underWay_of_ruling hverdict htold
    rw [hwaiting] at hsituation
    cases hsituation
  · obtain ⟨other, hother, rfl⟩ := List.mem_map.1 hdeparture
    obtain ⟨hdecided, hconcerns⟩ := List.mem_filter.1 hother
    have hsame : other = (other.1, verdict) :=
      List.inj_on_of_nodup_map h.nodup_departures hdecided hentry rfl
    rw [hsame, hmatters] at hconcerns
    cases hconcerns

/-- Whoever is refused the way on stays at the front, and its refusal is kept. -/
theorem rebuffed_of_link (h : Sound g p tick districts) (clock : Clock)
    {entry : LinkId × LinkVerdict} (hverdict : entry ∈ (resolution p districts now).links)
    (hsome : entry.2.refusal? = some refusal) :
    Situation.Rebuffed refusal.target refusal.firstAttempt (situation districts refusal.agent)
      ((situation districts refusal.agent).outcome clock
        ((resolution p districts now).rulings.lookup refusal.agent)).finally := by
  obtain ⟨d, hd, q, hq, -, hanswers⟩ := exists_queue_of_verdict hverdict
  obtain ⟨queued, hqueued, hoffer⟩ := List.mem_map.1 (hanswers.mem_of_refusal hsome)
  obtain ⟨a, held?, hsituation, hagent, hnext, hfirst⟩ := Situation.exists_of_offer_eq_move hoffer
  have hmem : queued.agent ∈ q.agentIds :=
    List.mem_map_of_mem (District.mem_of_mem_offer hqueued)
  have hruling : (refusal.agent, Ruling.hold refusal.target) ∈
      (resolution p districts now).rulings := by
    refine List.mem_append_left _ (List.mem_flatMap.2 ⟨_, hverdict, List.mem_append_right _ ?_⟩)
    exact List.mem_map.2 ⟨refusal, Option.mem_toList.2 hsome, rfl⟩
  rw [(lookup_eq_some_iff_mem h.nodup_rulings).2 hruling, hagent,
    h.situation_of_queued hd hq hmem, hsituation]
  exact .move hnext hfirst

/-- Whoever is refused its departure goes on waiting, and is told so the first time. -/
theorem rebuffed_of_departure (h : Sound g p tick districts) (clock : Clock) {id : AgentId}
    {verdict : DepartureVerdict} (hentry : (id, verdict) ∈ (resolution p districts now).departures)
    (hnone : verdict.seq? = none) :
    Situation.Rebuffed verdict.link verdict.firstAttempt (situation districts id)
      ((situation districts id).outcome clock
        ((resolution p districts now).rulings.lookup id)).finally := by
  obtain ⟨offer, hoffer, hlink, hfirst⟩ := Resolution.exists_departureOffer hentry
  obtain ⟨a, refused, hwaiting, hcurrent, hattempt⟩ := Situation.departure?_eq_some_iff.1
    (h.mem_offers_departures_iff.1 hoffer)
  rw [← hlink] at hcurrent
  rw [← hfirst] at hattempt
  rw [hwaiting]
  cases hknown : verdict.firstAttempt with
  | true =>
      have hmatters : verdict.matters = true := by simp [DepartureVerdict.matters, hknown]
      have hruling : (id, Ruling.wait verdict.link) ∈ (resolution p districts now).rulings := by
        refine List.mem_append_right _
          (List.mem_map.2 ⟨_, List.mem_filter.2 ⟨hentry, hmatters⟩, ?_⟩)
        rw [DepartureVerdict.ruling, hnone]
      rw [(lookup_eq_some_iff_mem h.nodup_rulings).2 hruling]
      exact .departure hcurrent (hknown.symm.trans hattempt)
  | false =>
      have hmatters : verdict.matters = false := by
        rw [DepartureVerdict.matters, hknown, hnone]
        rfl
      obtain rfl : refused = true := by simpa [hknown] using hattempt
      rw [h.lookup_eq_none_of_departure hentry hmatters, Situation.outcome_none]
      exact .departure hcurrent rfl

theorem rebuffed (h : Sound g p tick districts) (clock : Clock)
    (hrefusal : refusal ∈ (resolution p districts now).refusals) :
    Situation.Rebuffed refusal.target refusal.firstAttempt (situation districts refusal.agent)
      ((situation districts refusal.agent).outcome clock
        ((resolution p districts now).rulings.lookup refusal.agent)).finally := by
  rcases Resolution.mem_refusals_iff.1 hrefusal with
    ⟨entry, hverdict, hsome⟩ | ⟨entry, hentry, hnone, rfl⟩
  · exact h.rebuffed_of_link clock hverdict hsome
  · exact h.rebuffed_of_departure clock hentry hnone

end City.Sound

end Thoroughfare

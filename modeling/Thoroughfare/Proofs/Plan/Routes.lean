import Mathlib.Data.List.Chain
import Thoroughfare.Proofs.Network.Rows
import Thoroughfare.Proofs.Plan.Transitions
import Thoroughfare.Proofs.Road.Offers

/-!
# Routes that are checked

The check of a route lets a route pass just if it can be driven: it is not empty, begins and ends
where it should, all its links exist, and each of them leads to where the next one begins.
Otherwise it names the link to blame.  The causes are looked for one after the other, each along the
whole route, so a missing link counts before wrong ends, and these count before a gap.

An agent whose next leg has passed makes all transitions up to its next activity, and no link on its
way refuses it for coming from elsewhere.
-/

namespace Thoroughfare

/-- The first link leads to where the second one begins. -/
def Network.Meets (g : Network) (a b : LinkId) : Prop :=
  ∃ l m, g.link? a = some l ∧ g.link? b = some m ∧ l.endNode = m.startNode

theorem Network.adjacent_iff_meets {g : Network} {a b : LinkId} :
    g.adjacent a b = true ↔ g.Meets a b := by
  unfold adjacent
  split
  · rename_i l m hl hm
    rw [decide_eq_true_eq]
    refine ⟨fun hnode => ⟨l, m, hl, hm, hnode⟩, fun ⟨l', m', hl', hm', hnode⟩ => ?_⟩
    rw [hl, Option.some.injEq] at hl'
    rw [hm, Option.some.injEq] at hm'
    exact hl' ▸ hm' ▸ hnode
  · rename_i hnot
    exact ⟨nofun, fun ⟨l, m, hl, hm, _⟩ => (hnot l m hl hm).elim⟩

namespace Route

variable {g : Network} {origin destination bad : LinkId} {route : List LinkId}

/-! ## Gaps -/

theorem firstGap?_eq_none_iff : firstGap? g route = none ↔ route.IsChain g.Meets := by
  induction route with
  | nil => exact ⟨fun _ => .nil, fun _ => rfl⟩
  | cons a rest ih =>
      cases rest with
      | nil => exact ⟨fun _ => .singleton a, fun _ => rfl⟩
      | cons b rest =>
          rw [firstGap?, List.isChain_cons_cons, ← ih, ← Network.adjacent_iff_meets]
          split <;> simp [*]

theorem firstGap?_append {before rest : List LinkId} {a : LinkId}
    (h : (before ++ [a]).IsChain g.Meets) :
    firstGap? g (before ++ a :: rest) = firstGap? g (a :: rest) := by
  induction before with
  | nil => rfl
  | cons first before ih =>
      cases before with
      | nil =>
          rw [List.cons_append, List.nil_append, List.isChain_cons_cons] at h
          exact if_pos (Network.adjacent_iff_meets.2 h.1)
      | cons second before =>
          rw [List.cons_append, List.cons_append, List.isChain_cons_cons] at h
          rw [← ih h.2]
          exact if_pos (Network.adjacent_iff_meets.2 h.1)

/-- The link behind the first gap is the second one of the first two neighbours that do not
meet. -/
theorem firstGap?_eq_some_iff : firstGap? g route = some bad ↔
    ∃ before a after, route = before ++ a :: bad :: after ∧ (before ++ [a]).IsChain g.Meets ∧
      ¬ g.Meets a bad := by
  constructor
  · intro h
    fun_induction firstGap? g route with
    | case1 a b rest hmeet ih =>
        obtain ⟨before, a', after, hrest, hchain, hgap⟩ := ih h
        refine ⟨a :: before, a', after, by rw [hrest, List.cons_append], ?_, hgap⟩
        have hhead : (before ++ [a']).head? = some b := by
          have hhead := congrArg List.head? hrest
          rw [List.head?_append] at hhead ⊢
          exact hhead.symm
        refine hchain.cons fun next hnext => ?_
        rw [hhead, Option.mem_some_iff] at hnext
        exact hnext ▸ Network.adjacent_iff_meets.1 hmeet
    | case2 a b rest hmeet =>
        cases h
        rw [Network.adjacent_iff_meets] at hmeet
        exact ⟨[], a, rest, rfl, .singleton a, hmeet⟩
    | case3 => cases h
  · rintro ⟨before, a, after, rfl, hchain, hgap⟩
    rw [firstGap?_append hchain]
    exact if_neg (mt Network.adjacent_iff_meets.1 hgap)

/-! ## Culprits -/

/-- The link to blame for a route that cannot be driven. -/
inductive Blames (g : Network) (origin destination : LinkId) : List LinkId → LinkId → Prop
  | empty : Blames g origin destination [] destination
  | missing {before after : List LinkId} {bad : LinkId}
      (hbefore : ∀ link ∈ before, ∃ l, g.link? link = some l) (hbad : g.link? bad = none) :
      Blames g origin destination (before ++ bad :: after) bad
  | origin {first : LinkId} {rest : List LinkId}
      (hknown : ∀ link ∈ first :: rest, ∃ l, g.link? link = some l) (hfirst : first ≠ origin) :
      Blames g origin destination (first :: rest) origin
  | destination {route : List LinkId} {last : LinkId}
      (hknown : ∀ link ∈ route, ∃ l, g.link? link = some l) (hfirst : route.head? = some origin)
      (hlast : route.getLast? = some last) (hne : last ≠ destination) :
      Blames g origin destination route destination
  | gap {before after : List LinkId} {a b : LinkId}
      (hknown : ∀ link ∈ before ++ a :: b :: after, ∃ l, g.link? link = some l)
      (hfirst : (before ++ a :: b :: after).head? = some origin)
      (hlast : (before ++ a :: b :: after).getLast? = some destination)
      (hjoined : (before ++ [a]).IsChain g.Meets) (hgap : ¬ g.Meets a b) :
      Blames g origin destination (before ++ a :: b :: after) b

theorem hasLink_eq_false_iff {link : LinkId} :
    g.hasLink link = false ↔ g.link? link = none := by
  rw [Bool.eq_false_iff, ne_eq, Network.hasLink_iff, Option.eq_none_iff_forall_ne_some,
    not_exists]

theorem find?_missing_eq_none_iff :
    (route.find? fun link => !g.hasLink link) = none ↔
      ∀ link ∈ route, ∃ l, g.link? link = some l := by
  simp only [List.find?_eq_none, Bool.not_eq_true', Bool.not_eq_false, Network.hasLink_iff]

theorem find?_missing_eq_some_iff :
    (route.find? fun link => !g.hasLink link) = some bad ↔ g.link? bad = none ∧
      ∃ before after, route = before ++ bad :: after ∧
        ∀ link ∈ before, ∃ l, g.link? link = some l := by
  simp only [List.find?_eq_some_iff_append, Bool.not_eq_true', Bool.not_not,
    hasLink_eq_false_iff, Network.hasLink_iff]

/-- A route passes the check just if it can be driven. -/
theorem culprit?_eq_none_iff : culprit? g origin destination route = none ↔
    route ≠ [] ∧ route.head? = some origin ∧ route.getLast? = some destination ∧
      (∀ link ∈ route, ∃ l, g.link? link = some l) ∧ route.IsChain g.Meets := by
  constructor
  · intro h
    unfold culprit? at h
    split at h
    · rename_i first last hfirst hlast
      split at h
      · cases h
      · rename_i hknown
        split at h
        · cases h
        · rename_i horigin
          split at h
          · cases h
          · rename_i hdestination
            rw [ne_eq, Decidable.not_not] at horigin hdestination
            exact ⟨List.ne_nil_of_mem (List.mem_of_head? hfirst), horigin ▸ hfirst,
              hdestination ▸ hlast, find?_missing_eq_none_iff.1 hknown,
              firstGap?_eq_none_iff.1 h⟩
    · cases h
  · rintro ⟨-, hfirst, hlast, hknown, hjoined⟩
    rw [culprit?, hfirst, hlast, find?_missing_eq_none_iff.2 hknown]
    simp only [ne_eq, not_true, if_false]
    exact firstGap?_eq_none_iff.2 hjoined

theorem blames_of_culprit? (h : culprit? g origin destination route = some bad) :
    Blames g origin destination route bad := by
  unfold culprit? at h
  split at h
  · rename_i first last hfirst hlast
    split at h
    · rename_i missing hmissing
      cases h
      obtain ⟨hbad, before, after, rfl, hbefore⟩ := find?_missing_eq_some_iff.1 hmissing
      exact .missing hbefore hbad
    · rename_i hknown
      rw [find?_missing_eq_none_iff] at hknown
      split at h
      · rename_i horigin
        cases h
        obtain ⟨rest, rfl⟩ := List.head?_eq_some_iff.1 hfirst
        exact .origin hknown horigin
      · rename_i horigin
        rw [ne_eq, Decidable.not_not] at horigin
        subst horigin
        split at h
        · rename_i hdestination
          cases h
          exact .destination hknown hfirst hlast hdestination
        · rename_i hdestination
          rw [ne_eq, Decidable.not_not] at hdestination
          subst hdestination
          obtain ⟨before, a, after, rfl, hjoined, hgap⟩ := firstGap?_eq_some_iff.1 h
          exact .gap hknown hfirst hlast hjoined hgap
  · rename_i hends
    cases h
    cases route with
    | nil => exact .empty
    | cons first rest =>
        exact (hends first _ rfl (List.getLast?_eq_some_getLast (List.cons_ne_nil _ _))).elim

theorem culprit?_of_blames (h : Blames g origin destination route bad) :
    culprit? g origin destination route = some bad := by
  cases h with
  | empty => rfl
  | missing hbefore hbad =>
      rename_i before after
      have hne : before ++ bad :: after ≠ [] := by simp
      have hfind := find?_missing_eq_some_iff.2 ⟨hbad, before, after, rfl, hbefore⟩
      rw [culprit?, List.head?_eq_some_head hne, List.getLast?_eq_some_getLast hne, hfind]
  | origin hknown hfirst =>
      rename_i first rest
      have hne : first :: rest ≠ [] := List.cons_ne_nil _ _
      rw [culprit?, List.head?_cons, List.getLast?_eq_some_getLast hne,
        find?_missing_eq_none_iff.2 hknown]
      exact if_pos hfirst
  | destination hknown hfirst hlast hne =>
      rw [culprit?, hfirst, hlast, find?_missing_eq_none_iff.2 hknown]
      simp [hne]
  | gap hknown hfirst hlast hjoined hgap =>
      rw [culprit?, hfirst, hlast, find?_missing_eq_none_iff.2 hknown]
      simp only [ne_eq, not_true, if_false]
      exact firstGap?_eq_some_iff.2 ⟨_, _, _, rfl, hjoined, hgap⟩

theorem culprit?_eq_some_iff : culprit? g origin destination route = some bad ↔
    Blames g origin destination route bad :=
  ⟨blames_of_culprit?, culprit?_of_blames⟩

/-! ## The way along a route -/

/-- The entries that a route asks for: into its first link from an activity, and into each further
one from the link before it. -/
def entries (route : List LinkId) : List (Option LinkId × LinkId) :=
  (none :: route.map some).zip route

theorem entries_cons (first : LinkId) (rest : List LinkId) :
    entries (first :: rest) =
      (none, first) :: ((first :: rest).zip rest).map fun step => (some step.1, step.2) := by
  rw [entries, List.zip_cons_cons, List.zip_map_left]
  rfl

theorem meets_of_mem_zip {first left entered : LinkId} {rest : List LinkId}
    (h : (first :: rest).IsChain g.Meets) (hstep : (left, entered) ∈ (first :: rest).zip rest) :
    g.Meets left entered := by
  induction rest generalizing first with
  | nil => cases hstep
  | cons second rest ih =>
      rw [List.isChain_cons_cons] at h
      rw [List.zip_cons_cons, List.mem_cons] at hstep
      rcases hstep with hfirst | hlater
      · rw [Prod.mk.injEq] at hfirst
        exact hfirst.1 ▸ hfirst.2 ▸ h.1
      · exact ih h.2 hlater

/-- Along a route whose links meet, every further entry is from a link that meets the next. -/
theorem meets_of_mem_entries {left entered : LinkId} (h : route.IsChain g.Meets)
    (hentry : (some left, entered) ∈ entries route) : g.Meets left entered := by
  cases route with
  | nil => cases hentry
  | cons first rest =>
      rw [entries_cons, List.mem_cons, List.mem_map] at hentry
      rcases hentry with hfirst | ⟨step, hstep, hsame⟩
      · cases hfirst
      · cases hsame
        exact meets_of_mem_zip h hstep

end Route

theorem LinkQueue.enter_of_meets {α : Type} {g : Network} {q : LinkQueue α}
    {source : Option LinkId} (h : ∀ left, source = some left → g.Meets left q.link)
    (agent : AgentId) (now : Nat) : ∃ admission, q.enter g agent source now = .ok admission := by
  obtain ⟨-, exit, henter⟩ | ⟨-, henter⟩ | ⟨left, hleft, hgap, -⟩ :=
    q.enter_cases g agent source now
  · exact ⟨_, henter⟩
  · exact ⟨_, henter⟩
  · rw [Network.adjacent_iff_meets.2 (h left hleft)] at hgap
    cases hgap

/-! ## Trips -/

namespace Agent

variable {a : Agent} {leg : Leg} {now : Nat}

/-- The transitions of a trip over so many links, from one activity to the next. -/
def trip (links : Nat) : List Transition :=
  .endActivity :: .enterNetwork ::
    (List.replicate (links - 1) .advanceLink ++ [.arrive, .startActivity])

/-- Ask an agent for some transitions at a second, one after the other, up to the first one that it
refuses; the links that each of them names are answered. -/
def askAll (now : Nat) : List Transition → Agent →
    Except IllegalTransition (List (List LinkId) × Agent)
  | [], a => .ok ([], a)
  | t :: rest, a => do
      let (links, a) ← ask now t a
      let (answers, a) ← askAll now rest a
      return (links :: answers, a)

theorem askAll_cons {t : Transition} {rest : List Transition} {links : List LinkId} {a' : Agent}
    {answers : List (List LinkId)} {a'' : Agent} (h : ask now t a = .ok (links, a'))
    (hrest : askAll now rest a' = .ok (answers, a'')) :
    askAll now (t :: rest) a = .ok (links :: answers, a'') := by
  rw [askAll, h]
  simp only [bind, Except.bind, hrest]
  rfl

theorem ask_endActivity {first : LinkId} (hstate : a.state = .atActivity)
    (hleg : a.nextLeg? = some leg) (hfirst : leg.route.head? = some first) :
    ask now .endActivity a = .ok ([first], a.goneOff) := by
  simp only [ask, endActivity, hstate, hleg, Option.bind_some, hfirst, if_true]
  rfl

theorem ask_enterNetwork {first : LinkId} (hstate : a.state = .departing)
    (hleg : a.currentLeg? = some leg) (hfirst : leg.route[a.routeIndex]? = some first) :
    ask now .enterNetwork a = .ok ([first], a.enteredTraffic) := by
  have hlink : a.currentLink? = some first := by simp [currentLink?, hstate, hleg, hfirst]
  rw [ask, enterNetwork_eq hstate hlink]
  rfl

theorem ask_advanceLink {left entered : LinkId} (hstate : a.state = .enRoute)
    (hleg : a.currentLeg? = some leg) (hleft : leg.route[a.routeIndex]? = some left)
    (hentered : leg.route[a.routeIndex + 1]? = some entered) :
    ask now .advanceLink a = .ok ([left, entered], a.onNextLink) := by
  have hcurrent : a.currentLink? = some left := by simp [currentLink?, hstate, hleg, hleft]
  have hnext : a.nextLink? = some entered := nextLink?_eq_some_iff.2 ⟨hstate, leg, hleg, hentered⟩
  simp only [ask, advanceLink, hcurrent, hnext]
  rfl

theorem ask_arrive {last : LinkId} (hstate : a.state = .enRoute)
    (hleg : a.currentLeg? = some leg) (hlast : leg.route[a.routeIndex]? = some last)
    (hlength : leg.route.length = a.routeIndex + 1) :
    ask now .arrive a = .ok ([last], a.offTheRoad) := by
  have hcurrent : a.currentLink? = some last := by simp [currentLink?, hstate, hleg, hlast]
  have hnext : a.nextLink? = none := by simp [nextLink?, hstate, hleg, hlength]
  simp only [ask, arrive, hstate, hnext, hcurrent, and_self, if_true]
  rfl

theorem ask_startActivity {next : Activity} (hstate : a.state = .arriving)
    (hnext : a.nextActivity? = some next) :
    ask now .startActivity a = .ok ([next.link], a.atNextActivity now) := by
  simp only [ask, startActivity, hstate, hnext, if_true]
  rfl

/-- So many links further along its route. -/
def along (a : Agent) (links : Nat) : Agent :=
  { a with routeIndex := a.routeIndex + links }

theorem along_onNextLink (a : Agent) (links : Nat) :
    a.onNextLink.along links = a.along (links + 1) := by
  rw [along, along, onNextLink, Nat.add_assoc, Nat.add_comm 1]

/-- An agent goes on link by link to the end of its route. -/
theorem askAll_advanceLink {link : LinkId} {rest : List LinkId} {more : List Transition}
    {answers : List (List LinkId)} {a' : Agent} (hstate : a.state = .enRoute)
    (hleg : a.currentLeg? = some leg) (hroute : leg.route.drop a.routeIndex = link :: rest)
    (hmore : askAll now more (a.along rest.length) = .ok (answers, a')) :
    askAll now (List.replicate rest.length .advanceLink ++ more) a =
      .ok (((link :: rest).zip rest).map (fun step => [step.1, step.2]) ++ answers, a') := by
  induction rest generalizing a link with
  | nil => exact hmore
  | cons next rest ih =>
      have hbehind : leg.route.drop (a.routeIndex + 1) = next :: rest := by
        rw [← List.tail_drop, hroute, List.tail_cons]
      have hleft : leg.route[a.routeIndex]? = some link := by
        rw [← List.head?_drop, hroute, List.head?_cons]
      have hentered : leg.route[a.routeIndex + 1]? = some next := by
        rw [← List.head?_drop, hbehind, List.head?_cons]
      rw [List.length_cons, ← along_onNextLink] at hmore
      exact askAll_cons (ask_advanceLink hstate hleg hleft hentered)
        (ih (a := a.onNextLink) hstate hleg hbehind hmore)

/-- An agent whose next leg has a route makes the whole trip to its next activity. -/
theorem askAll_trip {first last : LinkId} {next : Activity} (hstate : a.state = .atActivity)
    (hleg : a.nextLeg? = some leg) (hfirst : leg.route.head? = some first)
    (hlast : leg.route.getLast? = some last)
    (hnext : a.itinerary.activity? (a.segment + 2) = some next) :
    askAll now (trip leg.route.length) a =
      .ok ([first] :: (Route.entries leg.route).map (fun entry => entry.1.toList ++ [entry.2]) ++
        [[last], [next.link]], a.goneOff.atNextActivity now) := by
  obtain ⟨rest, hroute⟩ := List.head?_eq_some_iff.1 hfirst
  have hcurrent : a.goneOff.currentLeg? = some leg := by
    obtain ⟨here, -, hbehind⟩ := Option.bind_eq_some_iff.1 hleg
    exact hbehind
  have hahead : a.goneOff.nextActivity? = some next := by
    rw [nextActivity?, hcurrent]
    exact hnext
  have hend : leg.route[rest.length]? = some last := by
    rw [List.getLast?_eq_getElem?, hroute, List.length_cons, Nat.add_sub_cancel] at hlast
    rw [hroute]
    exact hlast
  have hlength : leg.route.length = rest.length + 1 := by rw [hroute, List.length_cons]
  rw [trip, hlength, Nat.add_sub_cancel, hroute, Route.entries_cons, List.map_cons, List.map_map,
    List.cons_append, List.cons_append]
  refine askAll_cons (ask_endActivity hstate hleg hfirst) ?_
  refine askAll_cons (ask_enterNetwork rfl hcurrent (hroute ▸ rfl)) ?_
  refine askAll_advanceLink (a := a.goneOff.enteredTraffic) rfl hcurrent hroute ?_
  refine askAll_cons (ask_arrive rfl hcurrent ?_ ?_) ?_
  · rw [← hend]
    exact congrArg (leg.route[·]?) (Nat.zero_add _)
  · rw [hlength]
    exact congrArg (· + 1) (Nat.zero_add _).symm
  · exact askAll_cons (ask_startActivity rfl hahead) rfl

theorem exists_nextActivity_of_nextLeg (h : a.nextLeg? = some leg) :
    ∃ next, a.itinerary.activity? (a.segment + 2) = some next := by
  obtain ⟨here, -, hbehind⟩ := Option.bind_eq_some_iff.1 h
  have hodd := Itinerary.odd_of_leg hbehind
  have hlength := a.itinerary.fitsPlace.1
  have hlt : a.segment + 1 < a.itinerary.length :=
    (List.getElem?_eq_some_iff.1 (Itinerary.leg?_eq_some_iff.1 hbehind)).1
  exact Itinerary.exists_activity_of_even (by omega) (by omega)

end Agent

namespace Route

/-- A route passes the check just if it is not empty, begins with the origin, ends with the
destination, has only links that exist, and each of them leads to where the next one begins.
Otherwise the link to blame is named: the destination for an empty route, else the first link that
does not exist, else the origin or the destination if the route misses it, else the link behind the
first gap.  Whoever is at an activity and has a route ahead that passed goes off, enters traffic,
takes link after link, arrives and starts the next activity, and none of it is refused; nor does any
link on the way refuse an entry for not meeting the link before. -/
theorem checked_routes_are_driven (g : Network) (origin destination : LinkId)
    (route : List LinkId) :
    (culprit? g origin destination route = none ↔
      route ≠ [] ∧ route.head? = some origin ∧ route.getLast? = some destination ∧
        (∀ link ∈ route, ∃ l, g.link? link = some l) ∧ route.IsChain g.Meets) ∧
    (∀ bad, culprit? g origin destination route = some bad ↔
      Blames g origin destination route bad) ∧
    (culprit? g origin destination route = none →
      (∀ (a : Agent) (leg : Leg) (now : Nat), a.state = .atActivity → a.nextLeg? = some leg →
        leg.route = route → ∃ next, a.itinerary.activity? (a.segment + 2) = some next ∧
          Agent.askAll now (Agent.trip route.length) a = .ok
            ([origin] :: (entries route).map (fun entry => entry.1.toList ++ [entry.2]) ++
              [[destination], [next.link]],
            { a with
              segment := a.segment + 2
              routeIndex := 0
              state := .atActivity
              activityStart := now })) ∧
      ∀ source link, (source, link) ∈ entries route →
        (∀ left, source = some left → g.Meets left link) ∧
        ∀ {α : Type} (q : LinkQueue α) (agent : AgentId) (now : Nat), q.link = link →
          ∃ admission, q.enter g agent source now = .ok admission) := by
  refine ⟨culprit?_eq_none_iff, fun bad => culprit?_eq_some_iff, fun hpassed => ?_⟩
  obtain ⟨-, hfirst, hlast, -, hjoined⟩ := culprit?_eq_none_iff.1 hpassed
  constructor
  · rintro a leg now hstate hleg rfl
    obtain ⟨next, hnext⟩ := Agent.exists_nextActivity_of_nextLeg hleg
    exact ⟨next, hnext, Agent.askAll_trip hstate hleg hfirst hlast hnext⟩
  · intro source link hentry
    have hmeets : ∀ left, source = some left → g.Meets left link := by
      rintro left rfl
      exact meets_of_mem_entries hjoined hentry
    refine ⟨hmeets, ?_⟩
    rintro α q agent now rfl
    exact LinkQueue.enter_of_meets hmeets agent now

/-- A day on which somebody turns twice on the way. -/
def detour : Itinerary where
  segments := [.activity ⟨"home", ⟨0⟩, some 10, none⟩, .leg (.byCar [⟨0⟩, ⟨1⟩, ⟨1⟩, ⟨3⟩]),
    .activity ⟨"shop", ⟨3⟩, none, none⟩]
  faultless := by decide

/-- A detour over one link twice is driven to its end; who leaves the road at its end cannot go on
to the place to turn. -/
theorem checked_routes_are_driven_detour : ∃ g,
    Network.build Network.standardPeriodSecs [.origin, .origin, .origin] Network.turning = .ok g ∧
    culprit? g ⟨0⟩ ⟨3⟩ [⟨0⟩, ⟨1⟩, ⟨1⟩, ⟨3⟩] = none ∧
    (∃ a, Agent.askAll 20 (Agent.trip 4) (Agent.new ⟨0⟩ detour 0) =
      .ok ([[⟨0⟩], [⟨0⟩], [⟨0⟩, ⟨1⟩], [⟨1⟩, ⟨1⟩], [⟨1⟩, ⟨3⟩], [⟨3⟩], [⟨3⟩]], a)) ∧
    (∀ (q : LinkQueue Rat) (agent : AgentId) (now : Nat), q.link = ⟨1⟩ →
      ∃ admission, q.enter g agent (some ⟨1⟩) now = .ok admission) ∧
    Blames g ⟨0⟩ ⟨3⟩ [⟨0⟩, ⟨3⟩, ⟨1⟩, ⟨3⟩] ⟨1⟩ := by
  obtain ⟨g, hg, hpassed, hgap⟩ : ∃ g,
      Network.build Network.standardPeriodSecs [.origin, .origin, .origin] Network.turning =
        .ok g ∧
      culprit? g ⟨0⟩ ⟨3⟩ [⟨0⟩, ⟨1⟩, ⟨1⟩, ⟨3⟩] = none ∧
      culprit? g ⟨0⟩ ⟨3⟩ [⟨0⟩, ⟨3⟩, ⟨1⟩, ⟨3⟩] = some ⟨1⟩ :=
    ⟨_, rfl, by decide +kernel, by decide +kernel⟩
  obtain ⟨htrip, hentries⟩ :=
    (checked_routes_are_driven g ⟨0⟩ ⟨3⟩ [⟨0⟩, ⟨1⟩, ⟨1⟩, ⟨3⟩]).2.2 hpassed
  obtain ⟨next, hnext, hdriven⟩ := htrip (Agent.new ⟨0⟩ detour 0) _ 20 rfl rfl rfl
  cases hnext
  refine ⟨g, hg, hpassed, ⟨_, hdriven⟩, ?_, ?_⟩
  · exact (hentries (some ⟨1⟩) ⟨1⟩ (by decide)).2
  · exact ((checked_routes_are_driven g ⟨0⟩ ⟨3⟩ [⟨0⟩, ⟨3⟩, ⟨1⟩, ⟨3⟩]).2.1 ⟨1⟩).1 hgap

end Route
end Thoroughfare

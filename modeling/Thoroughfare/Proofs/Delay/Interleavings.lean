import Thoroughfare.Proofs.Delay.Accounts
import Thoroughfare.Proofs.Delay.Traversals

/-!
# Delays and the mixing of histories

A table of delays says of each agent what is in the journal of the agent, and of each link and each
bin of a link how long the traversals took that were told of.  Both can be read off the events of
each agent alone.  So it does not matter how the events of different agents are mixed, nor whether
what is told of an agent makes sense.
-/

namespace Thoroughfare

/-! ## What a table is to say -/

/-- The delay of some traversals together. -/
def DelayTotals.ofTraversals (free : LinkId → Nat) (ts : List Traversal) : DelayTotals :=
  ⟨(ts.map fun tr => tr.delaySecs free).sum, ts.length⟩

/-- The row of some traversals; there is none for none. -/
def DelayTotals.row? (free : LinkId → Nat) (ts : List Traversal) : Option DelayTotals :=
  if ts = [] then none else some (ofTraversals free ts)

/-- The delay on the links that were left so far, behind the first one. -/
def Outing.delaySecs (free : LinkId → Nat) (o : Outing) : Nat :=
  ((o.later.zip o.later.tail).map fun stops =>
    stops.2.2 - stops.1.2 - free stops.1.1).sum

/-- The trip of an outing. -/
def Outing.trip (free : LinkId → Nat) (o : Outing) : OpenTrip :=
  ⟨o.departed, o.later.getLast?, o.delaySecs free⟩

/-- The delay on all links of a drive behind the first one. -/
def Drive.delaySecs (free : LinkId → Nat) (d : Drive) : Nat :=
  d.outing.delaySecs free + (d.outing.trip free).closingDelay free d.arrived

/-- The row of some drives; there is none for none. -/
def AgentDelay.row? (free : LinkId → Nat) (past : List Drive) : Option AgentDelay :=
  if past = [] then none
  else some ⟨past.length, (past.map Drive.travelSecs).sum,
    (past.map fun d => d.delaySecs free).sum⟩

/-- Whether a bin of some seconds that ends at a time contains a second. -/
def InBin (binSecs binEnd time : Nat) : Prop :=
  binSecs ∣ binEnd ∧ binEnd - binSecs ≤ time ∧ time < binEnd

instance (binSecs binEnd time : Nat) : Decidable (InBin binSecs binEnd time) :=
  inferInstanceAs (Decidable (_ ∧ _ ∧ _))

/-- A table says what is in the journal of each agent, and has counted each traversal once for its
link and once for the bin in which it ended. -/
structure DelayTable.Tallies (free : LinkId → Nat) (told : List Event) (t : DelayTable) : Prop where
  trips : ∀ id, t.trips[id]? = (Journal.ofAgent id told).present?.map (Outing.trip free)
  agents : ∀ id, t.agents[id]? = AgentDelay.row? free (Journal.ofAgent id told).past
  links : ∀ link, t.links[link]? =
    DelayTotals.row? free ((traversals told).filter fun tr => tr.link = link)
  bins : ∀ link binEnd, t.bin? link binEnd =
    DelayTotals.row? free ((traversals told).filter fun tr =>
      tr.link = link ∧ InBin t.binSecs binEnd tr.left)
  binned : ∀ link : LinkId, t.bins[link]?.isSome = t.links[link]?.isSome

variable {free : LinkId → Nat}

/-! ## One more of each -/

theorem DelayTotals.traversals_ofTraversals (free : LinkId → Nat) (ts : List Traversal) :
    (ofTraversals free ts).traversals = (ts.map fun _ => 1).sum := by
  rw [List.map_const', List.sum_replicate_nat, Nat.mul_one]
  rfl

theorem DelayTotals.row?_concat (free : LinkId → Nat) (ts : List Traversal) (tr : Traversal) :
    row? free (ts ++ [tr]) = some (((row? free ts).getD .zero).add (tr.delaySecs free)) := by
  rw [row?, if_neg (by simp), row?]
  by_cases hts : ts = []
  · subst hts
    simp [ofTraversals, add, zero]
  · rw [if_neg hts, Option.getD_some]
    simp [ofTraversals, add]

/-- A traversal that does not count changes no row. -/
theorem DelayTotals.row?_filter_concat (free : LinkId → Nat) (ts : List Traversal) (tr : Traversal)
    (p : Traversal → Bool) :
    row? free ((ts ++ [tr]).filter p) =
      if p tr then some (((row? free (ts.filter p)).getD .zero).add (tr.delaySecs free))
      else row? free (ts.filter p) := by
  rw [List.filter_append]
  by_cases hp : p tr
  · rw [List.filter_cons_of_pos hp, List.filter_nil, row?_concat, if_pos hp]
  · rw [List.filter_cons_of_neg hp, List.filter_nil, List.append_nil, if_neg hp]

theorem AgentDelay.row?_concat (free : LinkId → Nat) (past : List Drive) (d : Drive) :
    row? free (past ++ [d]) =
      some (DelayTable.completed (row? free past) d.travelSecs (d.delaySecs free)) := by
  rw [row?, if_neg (by simp), row?]
  by_cases hpast : past = []
  · subst hpast
    simp [DelayTable.completed, zero]
  · rw [if_neg hpast]
    simp [DelayTable.completed]

/-- A place behind all others is next to the last of them. -/
theorem zip_tail_concat {β : Type} (l : List β) (b : β) :
    (l ++ [b]).zip (l ++ [b]).tail = l.zip l.tail ++ (l.getLast?.map fun a => (a, b)).toList := by
  induction l with
  | nil => rfl
  | cons a rest ih =>
      rcases rest with _ | ⟨c, rest⟩
      · rfl
      · rw [List.getLast?_cons_cons]
        exact congrArg ((a, c) :: ·) ih

theorem Outing.trip_entering (free : LinkId → Nat) (o : Outing) (link : LinkId) (time : Nat) :
    (o.entering link time).trip free = ⟨(o.trip free).departed, some (link, time),
      (o.trip free).delaySecs + (o.trip free).closingDelay free time⟩ := by
  simp only [trip, delaySecs, entering, zip_tail_concat, List.map_append, List.sum_append_nat,
    List.getLast?_concat, OpenTrip.closingDelay]
  cases o.later.getLast? <;> rfl

namespace DelayTable

variable {t : DelayTable} {told : List Event} {e : Event} {link : LinkId} {binEnd : Nat}

/-! ## Bins -/

theorem inBin_binEnd (t : DelayTable) (time : Nat) : InBin t.binSecs (t.binEnd time) time := by
  have hsplit := Nat.div_add_mod time t.binSecs
  have hlt := Nat.mod_lt time t.binSecs_pos
  refine ⟨Nat.dvd_mul_left _ _, ?_, ?_⟩
  · rw [binEnd, Nat.add_mul, Nat.one_mul, Nat.add_sub_cancel]
    exact Nat.div_mul_le_self time t.binSecs
  · rw [binEnd, Nat.add_mul, Nat.one_mul, Nat.mul_comm]
    omega

/-- There is just one bin for each second. -/
theorem inBin_iff {time : Nat} : InBin t.binSecs binEnd time ↔ t.binEnd time = binEnd := by
  constructor
  · rintro ⟨⟨n, rfl⟩, hfrom, hbefore⟩
    rcases n with _ | n
    · exact absurd hbefore (Nat.not_lt_zero time)
    · rw [Nat.mul_succ, Nat.add_sub_cancel, Nat.mul_comm] at hfrom
      rw [Nat.mul_comm] at hbefore ⊢
      rw [DelayTable.binEnd, Nat.div_eq_of_lt_le hfrom hbefore]
  · rintro rfl
    exact t.inBin_binEnd time

theorem existsUnique_inBin (t : DelayTable) (time : Nat) :
    ∃! binEnd, InBin t.binSecs binEnd time :=
  ⟨t.binEnd time, t.inBin_binEnd time, fun _ h => (inBin_iff.1 h).symm⟩

/-! ## What an event adds -/

/-- The table with one more traversal, if there is one. -/
def booked (free : LinkId → Nat) (t : DelayTable) (tr? : Option Traversal) : DelayTable :=
  tr?.elim t fun tr => t.count tr.link tr.left (tr.delaySecs free)

theorem bin?_count (t : DelayTable) (entered : LinkId) (left delaySecs : Nat) :
    (t.count entered left delaySecs).bin? link binEnd =
      if entered = link ∧ t.binEnd left = binEnd then
        some (((t.bin? link binEnd).getD .zero).add delaySecs)
      else t.bin? link binEnd := by
  rw [bin?, bin?, count, getElem?_alter_ident]
  by_cases hlink : entered = link
  · subst hlink
    rw [if_pos rfl, Option.bind_some, Std.ExtTreeMap.getElem?_alter]
    by_cases hbin : t.binEnd left = binEnd
    · subst hbin
      cases hbins : t.bins[entered]? <;> simp
    · cases hbins : t.bins[entered]? <;> simp [hbin]
  · simp [hlink]

theorem close_eq_booked (hknows : t.Knows free) (trip : OpenTrip) (id : AgentId) (time : Nat) :
    (t.close trip time).2 =
      t.booked free (trip.onLink?.map fun stop => ⟨id, stop.1, stop.2, time⟩) := by
  unfold close booked
  cases trip.onLink? with
  | none => rfl
  | some stop =>
      have hdelay : t.delayOn stop.1 stop.2 time = time - stop.2 - free stop.1 := by
        rw [delayOn, hknows]
      exact congrArg (t.count stop.1 time) hdelay

/-- An event adds to the links and the bins the traversal that it ends. -/
theorem record_books (hknows : t.Knows free)
    (htrip : t.trips[e.agent]? = (Journal.ofAgent e.agent told).present?.map (Outing.trip free)) :
    (t.record e).links = (t.booked free (ended? told e)).links ∧
      (t.record e).bins = (t.booked free (ended? told e)).bins := by
  rw [ended?_eq, Journal.stop?]
  obtain ⟨time, id, kind⟩ := e
  change t.trips[id]? = _ at htrip
  cases kind with
  | linkEnter left link =>
      cases ho : (Journal.ofAgent id told).present? with
      | none =>
          rw [ho] at htrip
          simp [record, htrip, booked]
      | some o =>
          rw [ho, Option.map_some] at htrip
          rw [record_linkEnter htrip, close_eq_booked hknows _ id]
          exact ⟨rfl, rfl⟩
  | arrival link =>
      cases ho : (Journal.ofAgent id told).present? with
      | none =>
          rw [ho] at htrip
          simp [record, htrip, booked]
      | some o =>
          rw [ho, Option.map_some] at htrip
          rw [record_arrival htrip, close_eq_booked hknows _ id]
          exact ⟨rfl, rfl⟩
  | _ => exact ⟨rfl, rfl⟩

/-- An event changes the rows of its agent as it changes the journal. -/
theorem record_notes {j : Journal} (hknows : t.Knows free)
    (htrip : t.trips[e.agent]? = j.present?.map (Outing.trip free))
    (hagent : t.agents[e.agent]? = AgentDelay.row? free j.past) :
    (t.record e).trips[e.agent]? = (j.note e).present?.map (Outing.trip free) ∧
      (t.record e).agents[e.agent]? = AgentDelay.row? free (j.note e).past := by
  by_cases hquiet : e.kind.isTravel = false
  · rw [record_of_quiet hquiet, Journal.note_of_quiet hquiet]
    exact ⟨htrip, hagent⟩
  obtain ⟨time, id, kind⟩ := e
  change t.trips[id]? = _ at htrip
  change t.agents[id]? = _ at hagent
  cases kind with
  | departure link => exact ⟨getElem?_insert_ident.trans (if_pos rfl), hagent⟩
  | linkEnter left link =>
      cases ho : j.present? with
      | none =>
          rw [ho] at htrip
          simp [record, htrip, Journal.note, ho, hagent]
      | some o =>
          rw [ho, Option.map_some] at htrip
          rw [record_linkEnter htrip, Journal.note_linkEnter ho, fst_close hknows]
          refine ⟨?_, ?_⟩
          · rw [Option.map_some, Outing.trip_entering]
            exact getElem?_insert_ident.trans (if_pos rfl)
          · simp only [agents_close]
            exact hagent
  | arrival link =>
      cases ho : j.present? with
      | none =>
          rw [ho] at htrip
          simp [record, htrip, Journal.note, ho, hagent]
      | some o =>
          rw [ho, Option.map_some] at htrip
          rw [record_arrival htrip, Journal.note_arrival ho, fst_close hknows]
          refine ⟨getElem?_erase_ident.trans (if_pos rfl), ?_⟩
          simp only [getElem?_alter_ident, if_true]
          rw [hagent, AgentDelay.row?_concat]
          rfl
  | _ => exact absurd rfl hquiet

theorem links_booked (tr? : Option Traversal) (hlinks : ∀ link, t.links[link]? =
      DelayTotals.row? free ((traversals told).filter fun tr => tr.link = link)) (link : LinkId) :
    (t.booked free tr?).links[link]? =
      DelayTotals.row? free ((traversals told ++ tr?.toList).filter fun tr => tr.link = link) := by
  cases tr? with
  | none =>
      rw [Option.toList_none, List.append_nil]
      exact hlinks link
  | some tr =>
      rw [Option.toList_some, DelayTotals.row?_filter_concat, ← hlinks]
      simp only [booked, Option.elim_some, count, getElem?_alter_ident, decide_eq_true_eq]
      by_cases hlink : tr.link = link
      · rw [if_pos hlink, if_pos hlink, hlink]
      · rw [if_neg hlink, if_neg hlink]

theorem bins_booked (tr? : Option Traversal) (hbins : ∀ link binEnd, t.bin? link binEnd =
      DelayTotals.row? free ((traversals told).filter fun tr =>
        tr.link = link ∧ InBin t.binSecs binEnd tr.left)) (link : LinkId) (binEnd : Nat) :
    (t.booked free tr?).bin? link binEnd =
      DelayTotals.row? free ((traversals told ++ tr?.toList).filter fun tr =>
        tr.link = link ∧ InBin t.binSecs binEnd tr.left) := by
  cases tr? with
  | none =>
      rw [Option.toList_none, List.append_nil]
      exact hbins link binEnd
  | some tr =>
      rw [Option.toList_some, DelayTotals.row?_filter_concat, ← hbins, booked, Option.elim_some,
        bin?_count]
      simp only [inBin_iff, decide_eq_true_eq]

theorem binned_booked (tr? : Option Traversal)
    (hbinned : ∀ link : LinkId, t.bins[link]?.isSome = t.links[link]?.isSome) (link : LinkId) :
    (t.booked free tr?).bins[link]?.isSome = (t.booked free tr?).links[link]?.isSome := by
  cases tr? with
  | none => exact hbinned link
  | some tr =>
      simp only [booked, Option.elim_some, count, getElem?_alter_ident]
      by_cases hlink : tr.link = link
      · rw [if_pos hlink, if_pos hlink]
        rfl
      · rw [if_neg hlink, if_neg hlink]
        exact hbinned link

/-! ## All that is told -/

theorem tallies_empty (g : Network) (binSecs : Nat) (free : LinkId → Nat) :
    (empty g binSecs).Tallies free [] := by
  constructor
  case trips => exact fun id => Std.ExtTreeMap.getElem?_empty
  case agents => exact fun id => Std.ExtTreeMap.getElem?_empty
  case links => exact fun link => Std.ExtTreeMap.getElem?_empty
  case bins =>
    intro link binEnd
    rw [bin?, empty, Std.ExtTreeMap.getElem?_empty]
    rfl
  case binned => exact fun link => by simp [empty]

theorem Tallies.record (h : t.Tallies free told) (hknows : t.Knows free) (e : Event) :
    (t.record e).Tallies free (told ++ [e]) := by
  obtain ⟨hlinks, hbins⟩ := record_books hknows (h.trips e.agent)
  obtain ⟨htrip, hagent⟩ := record_notes hknows (h.trips e.agent) (h.agents e.agent)
  rw [← Journal.ofAgent_concat_self] at htrip hagent
  constructor
  case trips =>
    intro id
    by_cases hid : e.agent = id
    · subst hid
      exact htrip
    · rw [(rows_record_of_ne hid).1, Journal.ofAgent_concat_of_ne hid]
      exact h.trips id
  case agents =>
    intro id
    by_cases hid : e.agent = id
    · subst hid
      exact hagent
    · rw [(rows_record_of_ne hid).2, Journal.ofAgent_concat_of_ne hid]
      exact h.agents id
  case links =>
    intro link
    rw [hlinks, traversals_concat]
    exact links_booked (ended? told e) h.links link
  case bins =>
    intro link binEnd
    rw [bin?, hbins, traversals_concat, (setting_record t e).2]
    exact bins_booked (ended? told e) h.bins link binEnd
  case binned =>
    intro link
    rw [hlinks, hbins]
    exact binned_booked (ended? told e) h.binned link

/-- Whatever is told, the table says what the journals and the traversals say. -/
theorem tallies_recordAll (g : Network) (binSecs : Nat) (told : List Event) :
    ((empty g binSecs).recordAll told).Tallies g.freeFlowSecs told := by
  induction told using List.reverseRecOn with
  | nil => exact tallies_empty g binSecs g.freeFlowSecs
  | append_singleton told e ih =>
      rw [recordAll_concat]
      exact ih.record ((knows_empty g binSecs).recordAll told) e

theorem setting_recordAll (t : DelayTable) (told : List Event) :
    (t.recordAll told).freeFlow = t.freeFlow ∧ (t.recordAll told).binSecs = t.binSecs := by
  induction told using List.reverseRecOn with
  | nil => exact ⟨rfl, rfl⟩
  | append_singleton told e ih =>
      rw [recordAll_concat, (setting_record _ e).1, (setting_record _ e).2]
      exact ih

end DelayTable

theorem DelayTotals.row?_congr (free : LinkId → Nat) {ts ts' : List Traversal} (h : ts.Perm ts') :
    row? free ts = row? free ts' := by
  have hempty : ts = [] ↔ ts' = [] := by rw [← List.length_eq_zero_iff, ← List.length_eq_zero_iff,
    h.length_eq]
  rw [row?, row?, ofTraversals, ofTraversals, h.length_eq, (h.map _).sum_nat]
  simp only [hempty]

namespace DelayTable

variable {t t' : DelayTable} {told other : List Event}

/-- Tables that keep bins for the same links and have the same in each bin have the same bins. -/
theorem bins_ext (hkept : ∀ link : LinkId, t'.bins[link]?.isSome = t.bins[link]?.isSome)
    (hbin : ∀ link binEnd, t'.bin? link binEnd = t.bin? link binEnd) : t'.bins = t.bins := by
  ext link : 1
  have hsame := hkept link
  cases hrow : t.bins[link]? with
  | none =>
      rw [hrow] at hsame
      exact Option.isNone_iff_eq_none.1 (by rw [← Option.not_isSome, hsame]; rfl)
  | some bins =>
      rw [hrow] at hsame
      obtain ⟨bins', hrow'⟩ := Option.isSome_iff_exists.1 hsame
      rw [hrow', Option.some_inj]
      ext binEnd : 1
      have heach := hbin link binEnd
      simp only [bin?, hrow, hrow', Option.bind_some] at heach
      exact heach

/-- Tables that say what is told in the order of each agent say the same. -/
theorem Tallies.eq (h : t.Tallies free told) (h' : t'.Tallies free other)
    (hfree : t'.freeFlow = t.freeFlow) (hbinSecs : t'.binSecs = t.binSecs)
    (hown : ∀ id, other.filter (fun e => e.agent = id) = told.filter fun e => e.agent = id) :
    t' = t := by
  have hperm := traversals_perm hown
  have htrips : t'.trips = t.trips := by
    ext id : 1
    rw [h'.trips, h.trips, ofAgent_congr hown]
  have hagents : t'.agents = t.agents := by
    ext id : 1
    rw [h'.agents, h.agents, ofAgent_congr hown]
  have hlinks : t'.links = t.links := by
    ext link : 1
    rw [h'.links, h.links, DelayTotals.row?_congr free (hperm.filter _)]
  have hbins : t'.bins = t.bins := by
    refine bins_ext (fun link => ?_) fun link binEnd => ?_
    · rw [h'.binned, h.binned, hlinks]
    · rw [h'.bins, h.bins, hbinSecs, DelayTotals.row?_congr free (hperm.filter _)]
  cases t
  cases t'
  cases hfree
  cases hbinSecs
  cases htrips
  cases hagents
  cases hlinks
  cases hbins
  rfl

theorem mem_binsOf_iff {link : LinkId} {entry : Nat × DelayTotals} :
    entry ∈ t.binsOf link ↔ t.bin? link entry.1 = some entry.2 := by
  rw [binsOf, bin?]
  cases t.bins[link]? with
  | none => simp
  | some bins => exact Std.ExtTreeMap.mem_toList_iff_getElem?_eq_some

theorem nodup_map_fst_binsOf (t : DelayTable) (link : LinkId) :
    ((t.binsOf link).map (·.1)).Nodup := by
  rw [binsOf]
  cases t.bins[link]? with
  | none => exact List.nodup_nil
  | some bins =>
      rw [Std.ExtTreeMap.map_fst_toList_eq_keys]
      exact Std.ExtTreeMap.nodup_keys

/-- The bins of a link part the traversals of the link. -/
theorem Tallies.perm_binsOf (h : t.Tallies free told) (link : LinkId) :
    (((t.binsOf link).map (·.1)).flatMap fun binEnd => (traversals told).filter fun tr =>
      tr.link = link ∧ InBin t.binSecs binEnd tr.left).Perm
      ((traversals told).filter fun tr => tr.link = link) := by
  have hmade : ∀ binEnd ∈ (t.binsOf link).map (·.1), ∀ tr ∈ (traversals told).filter fun tr =>
      tr.link = link ∧ InBin t.binSecs binEnd tr.left, t.binEnd tr.left = id binEnd :=
    fun binEnd _ tr htr => inBin_iff.1 (of_decide_eq_true (List.mem_filter.1 htr).2).2
  have hpart : ∀ binEnd, ((traversals told).filter fun tr => tr.link = link).filter
      (fun tr => t.binEnd tr.left = binEnd) =
        (traversals told).filter fun tr => tr.link = link ∧ InBin t.binSecs binEnd tr.left := by
    intro binEnd
    rw [List.filter_filter]
    simp only [inBin_iff, Bool.decide_and, Bool.and_comm]
  suffices hsame : ∀ binEnd, (((t.binsOf link).map (·.1)).flatMap fun binEnd =>
      (traversals told).filter fun tr => tr.link = link ∧ InBin t.binSecs binEnd tr.left).filter
        (fun tr => t.binEnd tr.left = binEnd) =
      ((traversals told).filter fun tr => tr.link = link).filter
        fun tr => t.binEnd tr.left = binEnd from perm_of_filter_key hsame
  intro binEnd
  rw [hpart]
  by_cases hbin : binEnd ∈ (t.binsOf link).map (·.1)
  · refine filter_flatMap_of_mem ?_ hmade hbin
    rw [List.map_id]
    exact nodup_map_fst_binsOf t link
  · rw [filter_flatMap_of_not_mem hmade (by rwa [List.map_id])]
    have hnone : t.bin? link binEnd = none := by
      refine Option.eq_none_iff_forall_ne_some.2 fun totals htotals => hbin ?_
      have hentry : (binEnd, totals) ∈ t.binsOf link := mem_binsOf_iff.2 htotals
      exact List.mem_map_of_mem hentry
    rw [h.bins, DelayTotals.row?] at hnone
    split at hnone
    · rename_i hempty
      exact hempty.symm
    · cases hnone

/-- What the bins of a link say is, together, what its row says. -/
theorem Tallies.sum_binsOf (h : t.Tallies free told) (link : LinkId) {pick : DelayTotals → Nat}
    {weigh : Traversal → Nat}
    (hpick : ∀ ts, pick (.ofTraversals free ts) = (ts.map weigh).sum) :
    ((t.binsOf link).map fun entry => pick entry.2).sum =
      pick (t.links[link]?.getD .zero) := by
  have hrow : ∀ ts, pick ((DelayTotals.row? free ts).getD .zero) = (ts.map weigh).sum := by
    intro ts
    rw [← hpick, DelayTotals.row?]
    split
    · rename_i hempty
      rw [hempty]
      rfl
    · rfl
  rw [h.links, hrow, ← ((h.perm_binsOf link).map weigh).sum_nat,
    List.map_flatMap, List.flatMap_def, List.sum_flatten, List.map_map, List.map_map]
  refine congrArg List.sum (List.map_congr_left fun entry hentry => ?_)
  rw [Function.comp_apply, Function.comp_apply, ← hrow, ← h.bins, mem_binsOf_iff.1 hentry,
    Option.getD_some]

end DelayTable

/-- What a table of delays says in the end can be read off the events of each agent, in whatever
order those of different agents come and whether or not they make sense. -/
theorem delays_depend_on_own_histories (g : Network) (binSecs : Nat) {told : List Event}
    (horder : InTimeOrder told) :
    let t := (DelayTable.empty g binSecs).recordAll told
    t.Tallies g.freeFlowSecs told ∧
      (∀ time, ∃! binEnd, InBin t.binSecs binEnd time) ∧
      (∀ link : LinkId,
        ((t.binsOf link).map (·.2.delaySecs)).sum =
            (t.links[link]?.getD .zero).delaySecs ∧
          ((t.binsOf link).map (·.2.traversals)).sum =
            (t.links[link]?.getD .zero).traversals) ∧
      (∀ tr ∈ traversals told, tr.entered ≤ tr.left) ∧
      (∀ id, ∀ drive ∈ (Journal.ofAgent id told).past, drive.outing.departed ≤ drive.arrived) ∧
      ∀ other : List Event,
        (∀ id, other.filter (fun e => e.agent = id) = told.filter fun e => e.agent = id) →
          (DelayTable.empty g binSecs).recordAll other = t := by
  intro t
  have htallies : t.Tallies g.freeFlowSecs told := DelayTable.tallies_recordAll g binSecs told
  have hsetting := DelayTable.setting_recordAll (.empty g binSecs) told
  refine ⟨htallies, t.existsUnique_inBin, fun link => ⟨?_, ?_⟩,
    fun tr htr => horder.entered_le_left htr,
    fun id drive hdrive => horder.departed_le_arrived hdrive, fun other hown => ?_⟩
  · exact htallies.sum_binsOf link fun ts => rfl
  · exact htallies.sum_binsOf link (DelayTotals.traversals_ofTraversals g.freeFlowSecs)
  · have hothers := DelayTable.setting_recordAll (.empty g binSecs) other
    exact htallies.eq (DelayTable.tallies_recordAll g binSecs other)
      (hothers.1.trans hsetting.1.symm) (hothers.2.trans hsetting.2.symm) hown

/-- A network without links, on which all travel is delay. -/
def wilderness : Network :=
  ⟨#[], #[], ⟨#[], #[]⟩, ⟨#[], #[]⟩, Network.standardPeriodSecs⟩

/-- Two agents go the same way, one a little later than the other. -/
def tandem : List Event :=
  [⟨0, ⟨1⟩, .departure ⟨4⟩⟩, ⟨5, ⟨2⟩, .departure ⟨4⟩⟩, ⟨10, ⟨1⟩, .linkEnter ⟨4⟩ ⟨7⟩⟩,
    ⟨12, ⟨2⟩, .linkEnter ⟨4⟩ ⟨7⟩⟩, ⟨40, ⟨1⟩, .arrival ⟨7⟩⟩, ⟨65, ⟨2⟩, .arrival ⟨7⟩⟩]

theorem delays_depend_on_own_histories_tandem :
    InTimeOrder tandem ∧
      ((DelayTable.empty wilderness 60).recordAll tandem).Tallies wilderness.freeFlowSecs tandem ∧
      (DelayTable.empty wilderness 60).recordAll
          (tandem.filter (fun e => e.agent = ⟨2⟩) ++ tandem.filter fun e => e.agent = ⟨1⟩) =
        (DelayTable.empty wilderness 60).recordAll tandem ∧
      ((DelayTable.empty wilderness 60).recordAll tandem).binsOf ⟨7⟩ =
        [(60, ⟨30, 1⟩), (120, ⟨53, 1⟩)] ∧
      ((DelayTable.empty wilderness 60).recordAll tandem).links[(⟨7⟩ : LinkId)]? =
        some ⟨83, 2⟩ := by
  have horder : InTimeOrder tandem := .of_pairwise (by decide)
  obtain ⟨htallies, -, -, -, -, hothers⟩ := delays_depend_on_own_histories wilderness 60 horder
  refine ⟨horder, htallies, hothers _ fun id => ?_, by decide +kernel, by decide +kernel⟩
  rw [List.filter_append, List.filter_filter, List.filter_filter]
  by_cases hfirst : id = ⟨1⟩
  · subst hfirst
    decide
  by_cases hsecond : id = ⟨2⟩
  · subst hsecond
    decide
  · simp [tandem, Ne.symm hfirst, Ne.symm hsecond]

end Thoroughfare

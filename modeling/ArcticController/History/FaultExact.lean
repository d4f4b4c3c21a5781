/-
The fault spans are those of the events.

* `GroupedByBoot`, `AtMostOpen`: event lists as the log has them;
* `alreadyOpen`, `spanEnd`, `eventSpans`: the span of every event that opens a site;
* `endOf_eq_spanEnd`: the pass ends it there;
* `KnowsSites`, `takenSpans_eq`: the pass takes exactly these events;
* `pair_spans_exact`: what it returns.
-/
import ArcticController.History.FaultSpans

namespace ArcticController

/-! ### The spans of the events -/

/-- Between two events of a boot there is none of another. -/
def GroupedByBoot (events : List EventEntry) : Prop :=
  ∀ a b c, [a, b, c].Sublist events → a.bootId = c.bootId → b.bootId = a.bootId

/-- The event opens or closes the site in the boot. -/
def concerns (kind : SpanKind) (boot : UInt32) (site : UInt16) (e : EventEntry) : Bool :=
  e.bootId == boot && siteOf kind e == site && (opens kind e || closes kind e)

/-- The last event of the boot that concerns the site opens it. -/
def alreadyOpen (kind : SpanKind) (before : List EventEntry) (boot : UInt32) (site : UInt16) : Bool :=
  (before.filter (concerns kind boot site)).getLast?.any (opens kind)

/-- At any time at most `n` sites are open in the boot. -/
def AtMostOpen (n : ℕ) (kind : SpanKind) (events : List EventEntry) : Prop :=
  ∀ before e, before ++ [e] <+: events → ∀ sites : List UInt16, sites.Nodup →
    (∀ site ∈ sites, alreadyOpen kind (before ++ [e]) e.bootId site) → sites.length ≤ n

/-- The event closes the site of `e` in its boot. -/
def endsSpan (kind : SpanKind) (e c : EventEntry) : Bool :=
  c.bootId == e.bootId && siteOf kind c == siteOf kind e && closes kind c

/-- Where the span that `e` opens ends: at the first later event that closes it, else still active
in the current boot if that is the last, else at the boot's last event. -/
def spanEnd (kind : SpanKind) (currentBootId : UInt32) (e : EventEntry) (after : List EventEntry) :
    UInt32 :=
  match after.find? (endsSpan kind e) with
  | some c => c.timestamp
  | none =>
      if e.bootId = currentBootId ∧ (after.getLastD e).bootId = e.bootId then 0
      else ((after.filter (·.bootId == e.bootId)).getLastD e).timestamp

/-- A span for every event that opens a site not already open in its boot. -/
def eventSpans (kind : SpanKind) (currentBootId : UInt32) :
    List EventEntry → List EventEntry → List FaultInterval
  | _, [] => []
  | before, e :: after =>
      (if opens kind e && !alreadyOpen kind before e.bootId (siteOf kind e) then
        [{ start := e.timestamp, endS := spanEnd kind currentBootId e after, site := siteOf kind e }]
      else []) ++ eventSpans kind currentBootId (before ++ [e]) after

section Exact

variable {kind : SpanKind} {currentBootId : UInt32} {e last x : EventEntry}
  {before after : List EventEntry} {o : OpenSites}

/-! ### Where a span ends -/

lemma GroupedByBoot.sublist {events events' : List EventEntry} (h : GroupedByBoot events)
    (hsub : events'.Sublist events) : GroupedByBoot events' :=
  fun a b c hsub' => h a b c (hsub'.trans hsub)

/-- After an event of another boot there is none of this one. -/
lemma GroupedByBoot.left_behind (h : GroupedByBoot (last :: x :: after))
    (hne : x.bootId ≠ last.bootId) : ∀ y ∈ x :: after, y.bootId ≠ last.bootId := by
  intro y hy heq
  rcases List.mem_cons.mp hy with rfl | hy
  · exact hne heq
  · have hsub : [last, x, y].Sublist (last :: x :: after) :=
      ((List.singleton_sublist.mpr hy).cons_cons x).cons_cons last
    exact hne (h last x y hsub heq.symm)

/-- The pass ends a span where it ends; `last` is the boot's last event so far. -/
lemma endOf_eq (hboot : last.bootId = e.bootId) (hle : e.timestamp ≤ last.timestamp)
    (hgrouped : GroupedByBoot (last :: after))
    (hrise : (last :: after).Pairwise fun a b => a.timestamp ≤ b.timestamp) :
    endOf kind currentBootId e.bootId (siteOf kind e) e.timestamp last.timestamp after =
      match after.find? (endsSpan kind e) with
      | some c => c.timestamp
      | none =>
          if e.bootId = currentBootId ∧ (after.getLastD last).bootId = e.bootId then 0
          else ((after.filter (·.bootId == e.bootId)).getLastD last).timestamp := by
  induction after generalizing last with
  | nil =>
      have hguard : ¬ last.timestamp < e.timestamp := UInt32.not_lt.mpr hle
      rw [endOf, if_neg hguard]
      by_cases hcurrent : e.bootId = currentBootId
      · exact (if_pos hcurrent).trans (if_pos ⟨hcurrent, hboot⟩).symm
      · exact (if_neg hcurrent).trans (if_neg fun h => hcurrent h.1).symm
  | cons x after ih =>
      have hguard : ¬ last.timestamp < e.timestamp := UInt32.not_lt.mpr hle
      by_cases hother : x.bootId ≠ e.bootId
      · -- the boot is over
        have hleft : ∀ y ∈ x :: after, y.bootId ≠ e.bootId := fun y hy heq =>
          hgrouped.left_behind (hboot ▸ hother) y hy (heq.trans hboot.symm)
        have hnone : (x :: after).find? (endsSpan kind e) = none := by
          refine List.find?_eq_none.mpr fun y hy hends => hleft y hy ?_
          rw [endsSpan, Bool.and_eq_true, Bool.and_eq_true] at hends
          exact eq_of_beq hends.1.1
        have hfilter : (x :: after).filter (·.bootId == e.bootId) = [] :=
          List.filter_eq_nil_iff.mpr fun y hy heq => hleft y hy (eq_of_beq heq)
        have hlast : ((x :: after).getLastD last).bootId ≠ e.bootId := by
          rw [List.getLastD_eq_getLast?, List.getLast?_eq_some_getLast (List.cons_ne_nil _ _)]
          exact hleft _ (List.getLast_mem _)
        rw [endOf, if_pos hother, if_neg hguard, hnone, hfilter]
        exact (if_neg fun h => hlast h.2).symm
      · have hsame : x.bootId = e.bootId := not_not.mp hother
        have hfilter : (x :: after).filter (·.bootId == e.bootId)
            = x :: after.filter (·.bootId == e.bootId) := by
          rw [List.filter_cons, if_pos (beq_iff_eq.mpr hsame)]
        by_cases hcloses : closes kind x ∧ siteOf kind x = siteOf kind e
        · have hends : endsSpan kind e x = true := by
            rw [endsSpan, Bool.and_eq_true, Bool.and_eq_true]
            exact ⟨⟨beq_iff_eq.mpr hsame, beq_iff_eq.mpr hcloses.2⟩, hcloses.1⟩
          rw [endOf_cons_closed hsame hcloses, List.find?_cons_of_pos hends]
        · have hends : ¬ endsSpan kind e x = true := by
            rw [endsSpan, Bool.and_eq_true, Bool.and_eq_true]
            exact fun h => hcloses ⟨h.2, eq_of_beq h.1.2⟩
          obtain ⟨hfirst, hrest⟩ := List.pairwise_cons.mp hrise
          have hlater := UInt32.le_trans hle (hfirst x List.mem_cons_self)
          rw [endOf_cons_same hsame hcloses, List.find?_cons_of_neg hends, hfilter,
            List.getLastD_cons, List.getLastD_cons]
          exact ih hsame hlater (hgrouped.sublist (List.sublist_cons_self _ _)) hrest

lemma endOf_eq_spanEnd (hgrouped : GroupedByBoot (e :: after))
    (hrise : (e :: after).Pairwise fun a b => a.timestamp ≤ b.timestamp) :
    endOf kind currentBootId e.bootId (siteOf kind e) e.timestamp e.timestamp after
      = spanEnd kind currentBootId e after :=
  endOf_eq rfl (UInt32.le_refl _) hgrouped hrise

/-! ### The events taken -/

lemma alreadyOpen_concat (kind : SpanKind) (before : List EventEntry) (e : EventEntry)
    (boot : UInt32) (site : UInt16) :
    alreadyOpen kind (before ++ [e]) boot site =
      if concerns kind boot site e then opens kind e else alreadyOpen kind before boot site := by
  rw [alreadyOpen, List.filter_append, List.filter_cons, List.filter_nil]
  split
  · rw [List.getLast?_concat]
    rfl
  · rw [List.append_nil]
    rfl

/-- The pass knows the sites open in the boot of the last event. -/
structure KnowsSites (kind : SpanKind) (before : List EventEntry) (o : OpenSites) : Prop where
  boot : o.boot = before.getLast?.map EventEntry.bootId
  nodup : o.sites.Nodup
  sites : ∀ boot, o.boot = some boot → ∀ site, site ∈ o.sites ↔ alreadyOpen kind before boot site

/-- The sites open when the next event comes in. -/
lemma KnowsSites.atBoot (h : KnowsSites kind before o) (hgrouped : GroupedByBoot (before ++ e :: after)) :
    (o.atBoot e.bootId).Nodup ∧
      ∀ site, site ∈ o.atBoot e.bootId ↔ alreadyOpen kind before e.bootId site := by
  rw [OpenSites.atBoot]
  by_cases hboot : o.boot = some e.bootId
  · rw [if_pos hboot]
    exact ⟨h.nodup, h.sites e.bootId hboot⟩
  · -- the boot's first event
    have hnew : ∀ y ∈ before, y.bootId ≠ e.bootId := by
      intro y hy heq
      obtain ⟨pre, last, rfl⟩ : ∃ pre last, before = pre ++ [last] :=
        ⟨before.dropLast, before.getLast (List.ne_nil_of_mem hy),
          (List.dropLast_append_getLast _).symm⟩
      rw [h.boot, List.getLast?_concat, Option.map_some] at hboot
      rcases List.mem_append.mp hy with hpre | hlast
      · have hsub : [y, last, e].Sublist (pre ++ [last] ++ e :: after) := by
          rw [List.append_assoc]
          exact (List.singleton_sublist.mpr hpre).append
            (((List.nil_sublist after).cons_cons e).cons_cons last)
        exact hboot (congrArg some ((hgrouped y last e hsub heq).trans heq))
      · rw [List.mem_singleton.mp hlast] at heq
        exact hboot (congrArg some heq)
    rw [if_neg hboot]
    refine ⟨.nil, fun site => ⟨by rintro ⟨⟩, fun hopen => ?_⟩⟩
    have hnone : before.filter (concerns kind e.bootId site) = [] := by
      refine List.filter_eq_nil_iff.mpr fun y hy hc => hnew y hy ?_
      rw [concerns, Bool.and_eq_true, Bool.and_eq_true] at hc
      exact eq_of_beq hc.1.1
    rw [alreadyOpen, hnone] at hopen
    exact absurd hopen Bool.false_ne_true

/-- There is room for every site that opens. -/
lemma KnowsSites.takes (h : KnowsSites kind before o) (hgrouped : GroupedByBoot (before ++ e :: after))
    (hsites : AtMostOpen kMaxOpen kind (before ++ e :: after)) :
    o.takes kind e = (opens kind e && !alreadyOpen kind before e.bootId (siteOf kind e)) := by
  obtain ⟨hnodup, hmem⟩ := h.atBoot hgrouped
  have hcontains : (o.atBoot e.bootId).contains (siteOf kind e)
      = alreadyOpen kind before e.bootId (siteOf kind e) := by
    rw [Bool.eq_iff_iff, List.contains_iff_mem]
    exact hmem _
  rw [OpenSites.takes, hcontains]
  by_cases hnew : (opens kind e && !alreadyOpen kind before e.bootId (siteOf kind e)) = true
  · rw [hnew, Bool.true_and, decide_eq_true_iff]
    rw [Bool.and_eq_true, Bool.not_eq_true'] at hnew
    have hnot : siteOf kind e ∉ o.atBoot e.bootId := by
      rw [hmem, hnew.2]
      exact Bool.false_ne_true
    have hall : ∀ site ∈ siteOf kind e :: o.atBoot e.bootId,
        alreadyOpen kind (before ++ [e]) e.bootId site := by
      intro site hsite
      rw [alreadyOpen_concat]
      rcases List.mem_cons.mp hsite with rfl | hsite
      · rw [if_pos (by simp [concerns, hnew.1])]
        exact hnew.1
      · have hother : ¬ concerns kind e.bootId site e = true := by
          rw [concerns, Bool.and_eq_true, Bool.and_eq_true]
          intro hc
          exact hnot (eq_of_beq hc.1.2 ▸ hsite)
        rw [if_neg hother]
        exact (hmem site).mp hsite
    have hlength := hsites before e ⟨after, by simp⟩ _ (List.nodup_cons.mpr ⟨hnot, hnodup⟩) hall
    rw [List.length_cons] at hlength
    omega
  · rw [Bool.eq_false_iff.mpr hnew, Bool.false_and]

/-- **The step lemma**: one more event. -/
lemma KnowsSites.next (h : KnowsSites kind before o) (hgrouped : GroupedByBoot (before ++ e :: after))
    (hsites : AtMostOpen kMaxOpen kind (before ++ e :: after)) :
    KnowsSites kind (before ++ [e]) (o.next kind e) := by
  obtain ⟨hnodup, hmem⟩ := h.atBoot hgrouped
  have htakes := h.takes hgrouped hsites
  have hother : ∀ site, site ≠ siteOf kind e → ¬ concerns kind e.bootId site e = true := by
    intro site hne hc
    rw [concerns, Bool.and_eq_true, Bool.and_eq_true] at hc
    exact hne (eq_of_beq hc.1.2).symm
  have hboot : (o.next kind e).boot = (before ++ [e]).getLast?.map EventEntry.bootId := by
    rw [List.getLast?_concat]
    rfl
  suffices hnext : (o.next kind e).sites.Nodup ∧ ∀ site, site ∈ (o.next kind e).sites ↔
      alreadyOpen kind (before ++ [e]) e.bootId site by
    refine ⟨hboot, hnext.1, fun boot hb => ?_⟩
    obtain rfl := Option.some.inj hb
    exact hnext.2
  rw [OpenSites.next]
  dsimp only
  by_cases ht : o.takes kind e
  · rw [if_pos ht]
    rw [htakes, Bool.and_eq_true, Bool.not_eq_true'] at ht
    have hnot : siteOf kind e ∉ o.atBoot e.bootId := by
      rw [hmem, ht.2]
      exact Bool.false_ne_true
    refine ⟨List.Nodup.append hnodup (List.nodup_singleton _) (List.disjoint_singleton.mpr hnot),
      fun site => ?_⟩
    rw [alreadyOpen_concat, List.mem_append, List.mem_singleton]
    by_cases hsite : site = siteOf kind e
    · have hconcerns : concerns kind e.bootId site e = true := by simp [concerns, hsite, ht.1]
      rw [if_pos hconcerns]
      exact ⟨fun _ => ht.1, fun _ => .inr hsite⟩
    · rw [if_neg (hother site hsite), ← hmem]
      exact ⟨fun hor => hor.resolve_right hsite, .inl⟩
  rw [if_neg ht]
  by_cases hcloses : closes kind e
  · rw [if_pos hcloses]
    have hnotOpens : ¬ opens kind e := fun ho => not_closes_of_opens ho hcloses
    refine ⟨hnodup.filter _, fun site => ?_⟩
    rw [alreadyOpen_concat, List.mem_filter, decide_eq_true_iff]
    by_cases hsite : site = siteOf kind e
    · have hconcerns : concerns kind e.bootId site e = true := by simp [concerns, hsite, hcloses]
      rw [if_pos hconcerns]
      exact ⟨fun hm => absurd hsite hm.2, fun ho => absurd ho hnotOpens⟩
    · rw [if_neg (hother site hsite), ← hmem]
      exact ⟨fun hm => hm.1, fun hm => ⟨hm, hsite⟩⟩
  · rw [if_neg hcloses]
    refine ⟨hnodup, fun site => ?_⟩
    rw [alreadyOpen_concat, hmem]
    by_cases hconcerns : concerns kind e.bootId site e = true
    · -- the site is open and opens once more
      have hc := hconcerns
      rw [concerns, Bool.and_eq_true, Bool.and_eq_true, Bool.or_eq_true] at hc
      have hopens : opens kind e = true := hc.2.resolve_right hcloses
      have hsite : siteOf kind e = site := eq_of_beq hc.1.2
      have hopen : alreadyOpen kind before e.bootId site = true := by
        rw [htakes, hopens, Bool.true_and, Bool.not_eq_true', hsite, Bool.not_eq_false] at ht
        exact ht
      rw [if_pos hconcerns, hopens, hopen]
    · rw [if_neg hconcerns]

/-- **The run lemma**: the spans of any further events. -/
lemma takenSpans_eq : ∀ (after : List EventEntry) {before : List EventEntry} {o : OpenSites},
    KnowsSites kind before o → GroupedByBoot (before ++ after) →
    AtMostOpen kMaxOpen kind (before ++ after) →
    ((before ++ after).Pairwise fun a b => a.timestamp ≤ b.timestamp) →
    takenSpans kind currentBootId o after = eventSpans kind currentBootId before after := by
  intro after
  induction after with
  | nil => exact fun _ _ _ _ => rfl
  | cons e after ih =>
      intro before o h hgrouped hsites hrise
      have hsuffix : (e :: after).Sublist (before ++ e :: after) := List.sublist_append_right _ _
      have hend := @endOf_eq_spanEnd kind currentBootId e after (hgrouped.sublist hsuffix)
        (hrise.sublist hsuffix)
      have hsplit : before ++ e :: after = (before ++ [e]) ++ after := by simp
      have hnext := h.next hgrouped hsites
      rw [takenSpans, eventSpans, h.takes hgrouped hsites, spanFrom, hend]
      rw [hsplit] at hgrouped hsites hrise
      rw [ih hnext hgrouped hsites hrise]

end Exact

/-! ### What the pass returns -/

lemma groupedByBoot_of_rising {events : List EventEntry}
    (h : events.Pairwise fun a b => a.bootId ≤ b.bootId) : GroupedByBoot events := by
  intro a b c hsub heq
  have hpairs := h.sublist hsub
  rw [List.pairwise_cons, List.pairwise_cons] at hpairs
  obtain ⟨ha, hb, -⟩ := hpairs
  have hbc := hb c List.mem_cons_self
  rw [← heq] at hbc
  exact UInt32.le_antisymm hbc (ha b List.mem_cons_self)

/-- No more sites are open than there are events. -/
lemma atMostOpen_of_length {kind : SpanKind} {events : List EventEntry} {n : ℕ}
    (h : events.length ≤ n) : AtMostOpen n kind events := by
  intro before e hfront sites hnodup hopen
  have hsub : sites ⊆ (before ++ [e]).map (siteOf kind) := by
    intro site hsite
    have hany := hopen site hsite
    rw [alreadyOpen, Option.any_eq_true_iff_get] at hany
    obtain ⟨hsome, -⟩ := hany
    have hmem := List.mem_of_getLast? (Option.some_get hsome).symm
    obtain ⟨hin, hconcerns⟩ := List.mem_filter.mp hmem
    rw [concerns, Bool.and_eq_true, Bool.and_eq_true] at hconcerns
    exact List.mem_map.mpr ⟨_, hin, eq_of_beq hconcerns.1.2⟩
  have hle := (hnodup.subperm hsub).length_le
  rw [List.length_map] at hle
  exact hle.trans (hfront.length_le.trans h)

/-- **The spans are reconstructed exactly.** With room for at least one span the pass counts the
spans of the events that overlap the window and returns the newest `cap` of them by start, in the
order of their starts. -/
theorem pair_spans_exact (kind : SpanKind) (events : List EventEntry)
    (windowStart windowEnd currentBootId : UInt32) (cap : ℕ) (hcap : 1 ≤ cap)
    (hrise : (timedEvents events).Pairwise fun a b => a.timestamp ≤ b.timestamp)
    (hgrouped : GroupedByBoot (timedEvents events))
    (hsites : AtMostOpen 16 kind (timedEvents events)) :
    let spans := (eventSpans kind currentBootId [] (timedEvents events)).filter
      (FaultInterval.overlaps windowStart windowEnd)
    (pairSpans kind events windowStart windowEnd currentBootId cap).2 = spans.length ∧
      Greatest FaultInterval.key cap spans
        (pairSpans kind events windowStart windowEnd currentBootId cap).1 ∧
      SortedByStart (pairSpans kind events windowStart windowEnd currentBootId cap).1 := by
  have hstart : KnowsSites kind [] {} := ⟨rfl, .nil, nofun⟩
  have heq := @takenSpans_eq kind currentBootId (timedEvents events) [] {} hstart hgrouped hsites hrise
  have hspec := pairSpans_spec kind events windowStart windowEnd currentBootId hcap
  rw [heq] at hspec
  exact hspec

/-- An event that a boot logs. -/
def eventAt (timestamp bootId type payload : UInt32) : EventEntry where
  timestamp := timestamp
  bootId := bootId
  uptimeMs := 0
  type := type
  payload := payload

/-- A fault cut off by a restart and logged again, one that clears and one still active: of the
three the newest two. -/
theorem pair_spans_exact_restart :
    let events := [eventAt 100 1 eventErrorAppeared 2, eventAt 400 1 eventModeChanged 0,
      eventAt 5010 2 eventErrorAppeared 2, eventAt 5100 2 eventErrorAppeared 7,
      eventAt 5300 2 eventErrorCleared 2]
    let spans : List FaultInterval := [{ start := 100, endS := 400, site := 2 },
      { start := 5010, endS := 5300, site := 2 }, { start := 5100, endS := 0, site := 7 }]
    (pairSpans .fault events 0 9000 2 2).2 = 3 ∧
      Greatest FaultInterval.key 2 spans (pairSpans .fault events 0 9000 2 2).1 ∧
      SortedByStart (pairSpans .fault events 0 9000 2 2).1 := by
  intro events spans
  have hspans : (eventSpans .fault 2 [] (timedEvents events)).filter
      (FaultInterval.overlaps 0 9000) = spans := by decide +kernel
  have h := pair_spans_exact .fault events 0 9000 2 2 (by decide) (by decide +kernel)
    (groupedByBoot_of_rising (by decide +kernel)) (atMostOpen_of_length (by decide +kernel))
  dsimp only at h
  rw [hspans] at h
  exact h

/-- Without room for any span the pass counts none of them. -/
theorem pair_spans_no_room :
    let events := [eventAt 100 1 eventErrorAppeared 2]
    (timedEvents events).Pairwise (fun a b => a.timestamp ≤ b.timestamp) ∧
      GroupedByBoot (timedEvents events) ∧ AtMostOpen 16 .fault (timedEvents events) ∧
      (pairSpans .fault events 0 9000 1 0).2 = 0 ∧
      ((eventSpans .fault 1 [] (timedEvents events)).filter
        (FaultInterval.overlaps 0 9000)).length = 1 :=
  ⟨by decide +kernel, groupedByBoot_of_rising (by decide +kernel),
    atMostOpen_of_length (by decide +kernel), by decide +kernel, by decide +kernel⟩

end ArcticController

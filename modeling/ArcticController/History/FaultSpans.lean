/-
The spans that the pass over the events writes, for any events.

* `endOf`: where an open span ends, by the events still to come;
* `OpenSites`: the sites open in the newest boot, as far as the pass follows them;
* `takenSpans`: a span for every opening event that it takes;
* `Tracks`, `step_emits`: what one event writes, and what it leaves open;
* `pairSpans_spec`: what the pass returns.
-/
import ArcticController.History.FaultHistory

namespace ArcticController

/-! ### The spans of the events -/

/-- Where a span of the boot `boot` ends: at the first event that closes its site, else with the
boot, or not yet. -/
def endOf (kind : SpanKind) (currentBootId boot : UInt32) (site : UInt16) (start : UInt32) :
    UInt32 → List EventEntry → UInt32
  | lastTs, [] =>
      if boot = currentBootId then 0 else if lastTs < start then start else lastTs
  | lastTs, e :: rest =>
      if e.bootId ≠ boot then (if lastTs < start then start else lastTs)
      else if closes kind e ∧ siteOf kind e = site then e.timestamp
      else endOf kind currentBootId boot site start e.timestamp rest

/-- The span that the event `e` opens, with the events after it. -/
def spanFrom (kind : SpanKind) (currentBootId : UInt32) (e : EventEntry) (rest : List EventEntry) :
    FaultInterval where
  start := e.timestamp
  endS := endOf kind currentBootId e.bootId (siteOf kind e) e.timestamp e.timestamp rest
  site := siteOf kind e

/-- The sites open in the newest boot. -/
structure OpenSites where
  boot : Option UInt32 := none
  sites : List UInt16 := []

namespace OpenSites

/-- The sites open when an event of the boot comes in. -/
def atBoot (o : OpenSites) (boot : UInt32) : List UInt16 :=
  if o.boot = some boot then o.sites else []

/-- The event opens a site that is not open, and there is room. -/
def takes (kind : SpanKind) (o : OpenSites) (e : EventEntry) : Bool :=
  opens kind e && !(o.atBoot e.bootId).contains (siteOf kind e) &&
    (o.atBoot e.bootId).length < kMaxOpen

def next (kind : SpanKind) (o : OpenSites) (e : EventEntry) : OpenSites where
  boot := some e.bootId
  sites :=
    if o.takes kind e then o.atBoot e.bootId ++ [siteOf kind e]
    else if closes kind e then (o.atBoot e.bootId).filter (· ≠ siteOf kind e)
    else o.atBoot e.bootId

end OpenSites

/-- A span for every event taken, in the order of the events. -/
def takenSpans (kind : SpanKind) (currentBootId : UInt32) :
    OpenSites → List EventEntry → List FaultInterval
  | _, [] => []
  | o, e :: rest =>
      (if o.takes kind e then [spanFrom kind currentBootId e rest] else []) ++
        takenSpans kind currentBootId (o.next kind e) rest

/-- The events with a time. -/
def timedEvents (events : List EventEntry) : List EventEntry := events.filter (·.timestamp != 0)

/-! ### One event -/

/-- The pass has the sites open that `o` has. -/
structure Tracks (c : PairScan) (o : OpenSites) : Prop where
  boot : o.boot = if c.haveBoot then some c.boot else none
  sites : (c.opened.map OpenSpan.site).Perm o.sites
  nodup : o.sites.Nodup
  idle : ¬ c.haveBoot → c.opened = []

/-- The spans that are open, as the events to come end them. -/
def openEnds (kind : SpanKind) (currentBootId : UInt32) (c : PairScan) (rest : List EventEntry) :
    List FaultInterval :=
  c.opened.map fun p =>
    { start := p.start
      endS := endOf kind currentBootId c.boot p.site p.start c.lastTs rest
      site := p.site }

section Step

variable {kind : SpanKind} {currentBootId : UInt32} {c : PairScan} {o : OpenSites} {e : EventEntry}
  {rest : List EventEntry}

lemma closeAll_eq (c : PairScan) (endS : UInt32) :
    c.closeAll endS =
      { c with
        builder := c.builder.emitAll (c.opened.map fun p =>
          { start := p.start, endS := if endS < p.start then p.start else endS, site := p.site })
        opened := [] } := by
  rw [PairScan.closeAll, Builder.emitAll, List.foldl_map]

/-- An event's boot is entered: the spans of another boot end, those of this one stay open. -/
lemma enterBoot_emits (h : Tracks c o) (e : EventEntry) (rest : List EventEntry) :
    ∃ emitted, (c.enterBoot e).builder = c.builder.emitAll emitted ∧
      ((c.enterBoot e).opened.map OpenSpan.site).Perm (o.atBoot e.bootId) ∧
      (o.atBoot e.bootId).Nodup ∧
      emitted ++ ((c.enterBoot e).opened.map fun p =>
        { start := p.start
          endS := endOf kind currentBootId e.bootId p.site p.start c.lastTs (e :: rest)
          site := p.site }) = openEnds kind currentBootId c (e :: rest) := by
  rw [PairScan.enterBoot, OpenSites.atBoot, h.boot, openEnds]
  by_cases hchange : c.haveBoot ∧ e.bootId ≠ c.boot
  · have hother : ¬ ((if c.haveBoot then some c.boot else none) = some e.bootId) := by
      rw [if_pos hchange.1]
      exact fun heq => hchange.2 (Option.some.inj heq).symm
    rw [if_pos hchange, if_neg hother, closeAll_eq]
    refine ⟨_, rfl, .refl _, .nil, ?_⟩
    dsimp only
    rw [List.map_nil, List.append_nil]
    refine List.map_congr_left fun p _ => ?_
    rw [endOf, if_pos hchange.2]
  · rw [if_neg hchange]
    by_cases hboot : c.haveBoot
    · have hsame : e.bootId = c.boot := by
        by_contra hne
        exact hchange ⟨hboot, hne⟩
      rw [if_pos hboot, hsame, if_pos rfl]
      exact ⟨[], rfl, h.sites, h.nodup, rfl⟩
    · have hnil := h.idle hboot
      rw [if_neg hboot, if_neg nofun]
      refine ⟨[], rfl, ?_, .nil, ?_⟩
      · dsimp only
        rw [hnil]
        exact .refl _
      · dsimp only
        rw [hnil]
        rfl

lemma endOf_cons_same {boot : UInt32} {site : UInt16} {start lastTs : UInt32}
    (hboot : e.bootId = boot) (hopen : ¬ (closes kind e ∧ siteOf kind e = site)) :
    endOf kind currentBootId boot site start lastTs (e :: rest)
      = endOf kind currentBootId boot site start e.timestamp rest := by
  rw [endOf, if_neg (not_not.mpr hboot), if_neg hopen]

lemma endOf_cons_closed {boot : UInt32} {site : UInt16} {start lastTs : UInt32}
    (hboot : e.bootId = boot) (hclosed : closes kind e ∧ siteOf kind e = site) :
    endOf kind currentBootId boot site start lastTs (e :: rest) = e.timestamp := by
  rw [endOf, if_neg (not_not.mpr hboot), if_pos hclosed]

/-- The removed span and the rest are all there were. -/
lemma swapRemove_perm {opened : List OpenSpan} {j : ℕ} (hj : j < opened.length) :
    (opened[j] :: swapRemove opened j).Perm opened := by
  have hne : opened ≠ [] := List.ne_nil_of_length_pos (by omega)
  obtain ⟨pre, last, rfl⟩ : ∃ pre last, opened = pre ++ [last] :=
    ⟨opened.dropLast, opened.getLast hne, (List.dropLast_append_getLast hne).symm⟩
  rw [swapRemove, List.getLastD_concat]
  rcases Nat.lt_or_ge j pre.length with hlt | hge
  · rw [List.set_append_left _ _ hlt, List.dropLast_concat, List.getElem_append_left hlt]
    have hset : (pre[j] :: pre.set j last).Perm (last :: pre) := by
      have hperm := List.set_perm_cons_eraseIdx hlt last
      have hmem := List.getElem_cons_eraseIdx_perm hlt
      exact ((hperm.cons _).trans (.swap _ _ _)).trans (hmem.cons _)
    exact hset.trans (List.perm_append_singleton last pre).symm
  · have hlast : j = pre.length := by
      rw [List.length_append, List.length_singleton] at hj
      omega
    subst hlast
    rw [List.getElem_concat_length rfl, List.set_append_right _ _ le_rfl, Nat.sub_self,
      List.set_cons_zero, List.dropLast_concat]
    exact (List.perm_append_singleton last pre).symm

/-- The spans open when `e` comes in, as the events from `e` on end them. -/
def endsFrom (kind : SpanKind) (currentBootId : UInt32) (c : PairScan) (lastTs : UInt32)
    (e : EventEntry) (rest : List EventEntry) : List FaultInterval :=
  c.opened.map fun p =>
    { start := p.start
      endS := endOf kind currentBootId e.bootId p.site p.start lastTs (e :: rest)
      site := p.site }

/-- In the event's boot with the sites `o` has open there. -/
structure Entered (c : PairScan) (o : OpenSites) (e : EventEntry) : Prop where
  boot : c.boot = e.bootId
  lastTs : c.lastTs = e.timestamp
  haveBoot : c.haveBoot = true
  sites : (c.opened.map OpenSpan.site).Perm (o.atBoot e.bootId)
  nodup : (o.atBoot e.bootId).Nodup

namespace Entered

variable {lastTs : UInt32}

/-- The spans that stay open. -/
lemma endsFrom_open (h : Entered c o e)
    (hopen : ∀ p ∈ c.opened, ¬ (closes kind e ∧ siteOf kind e = p.site)) :
    endsFrom kind currentBootId c lastTs e rest = openEnds kind currentBootId c rest := by
  rw [endsFrom, openEnds, h.boot, h.lastTs]
  refine List.map_congr_left fun p hp => ?_
  rw [endOf_cons_same rfl (hopen p hp)]

lemma any_site (h : Entered c o e) (site : UInt16) :
    (c.opened.any fun p => p.site == site) = (o.atBoot e.bootId).contains site := by
  rw [Bool.eq_iff_iff, List.any_eq_true, List.contains_iff_mem, ← h.sites.mem_iff, List.mem_map]
  exact exists_congr fun p => and_congr_right fun _ => beq_iff_eq

/-- An opening event. -/
lemma openSpan_emits (h : Entered c o e) (hopens : opens kind e) :
    (c.openSpan (siteOf kind e) e.timestamp).builder = c.builder ∧
      Tracks (c.openSpan (siteOf kind e) e.timestamp) (o.next kind e) ∧
      openEnds kind currentBootId (c.openSpan (siteOf kind e) e.timestamp) rest
        = endsFrom kind currentBootId c lastTs e rest ++
          if o.takes kind e then [spanFrom kind currentBootId e rest] else [] := by
  have hcloses := not_closes_of_opens hopens
  have hends : endsFrom kind currentBootId c lastTs e rest = openEnds kind currentBootId c rest :=
    h.endsFrom_open fun _ _ hc => hcloses hc.1
  have hlength : c.opened.length = (o.atBoot e.bootId).length := by
    rw [← h.sites.length_eq, List.length_map]
  have htakes : (¬ (c.opened.any fun p => p.site == siteOf kind e) ∧ c.opened.length < kMaxOpen) ↔
      o.takes kind e := by
    rw [OpenSites.takes, hopens, h.any_site, hlength, Bool.true_and, Bool.and_eq_true,
      Bool.not_eq_true', Bool.not_eq_true, decide_eq_true_iff]
  rw [PairScan.openSpan, hends]
  by_cases ht : o.takes kind e
  · have hnew : siteOf kind e ∉ o.atBoot e.bootId := by
      have hnot := (htakes.mpr ht).1
      rw [h.any_site, List.contains_iff_mem] at hnot
      exact hnot
    have hnext : (o.next kind e).sites = o.atBoot e.bootId ++ [siteOf kind e] := if_pos ht
    rw [if_pos (htakes.mpr ht), if_pos ht]
    refine ⟨rfl, ⟨?_, ?_, ?_, fun hidle => absurd h.haveBoot hidle⟩, ?_⟩
    · show some e.bootId = if c.haveBoot then some c.boot else none
      rw [if_pos h.haveBoot, h.boot]
    · rw [hnext, List.map_append]
      exact h.sites.append_right [siteOf kind e]
    · rw [hnext]
      exact List.Nodup.append h.nodup (List.nodup_singleton _)
        (List.disjoint_singleton.mpr hnew)
    · rw [openEnds, List.map_append]
      dsimp only
      rw [h.boot, h.lastTs, openEnds, h.boot, h.lastTs]
      rfl
  · have hnext : (o.next kind e).sites = o.atBoot e.bootId := by
      rw [OpenSites.next]
      dsimp only
      rw [if_neg ht, if_neg hcloses]
    rw [if_neg fun hc => ht (htakes.mp hc), if_neg ht, List.append_nil]
    refine ⟨rfl, ⟨?_, ?_, ?_, fun hidle => absurd h.haveBoot hidle⟩, rfl⟩
    · show some e.bootId = if c.haveBoot then some c.boot else none
      rw [if_pos h.haveBoot, h.boot]
    · exact hnext ▸ h.sites
    · exact hnext ▸ h.nodup

/-- A closing event. -/
lemma closeSpan_emits (h : Entered c o e) (hcloses : closes kind e) :
    ∃ emitted, (c.closeSpan (siteOf kind e) e.timestamp).builder = c.builder.emitAll emitted ∧
      Tracks (c.closeSpan (siteOf kind e) e.timestamp) (o.next kind e) ∧
      (emitted ++ openEnds kind currentBootId (c.closeSpan (siteOf kind e) e.timestamp) rest).Perm
        (endsFrom kind currentBootId c lastTs e rest) := by
  have hnot : ¬ o.takes kind e := by
    intro ht
    rw [OpenSites.takes, Bool.and_eq_true, Bool.and_eq_true] at ht
    exact not_closes_of_opens ht.1.1 hcloses
  have hnext : (o.next kind e).sites = (o.atBoot e.bootId).filter (· ≠ siteOf kind e) := by
    rw [OpenSites.next]
    dsimp only
    rw [if_neg hnot, if_pos hcloses]
  have hboot : (o.next kind e).boot = if c.haveBoot then some c.boot else none := by
    rw [if_pos h.haveBoot, h.boot]
    rfl
  have hnodup : (o.next kind e).sites.Nodup := hnext ▸ h.nodup.filter _
  rw [PairScan.closeSpan]
  cases hfind : c.opened.findIdx? fun p => p.site == siteOf kind e with
  | none =>
      have hall : ∀ p ∈ c.opened, p.site ≠ siteOf kind e := fun p hp heq =>
        absurd (beq_iff_eq.mpr heq) (Bool.eq_false_iff.mp (List.findIdx?_eq_none_iff.mp hfind p hp))
      refine ⟨[], rfl, ⟨hboot, ?_, hnodup, fun hidle => absurd h.haveBoot hidle⟩, ?_⟩
      · have hkept : (o.atBoot e.bootId).filter (· ≠ siteOf kind e) = o.atBoot e.bootId := by
          refine List.filter_eq_self.mpr fun site hsite => decide_eq_true ?_
          obtain ⟨p, hp, rfl⟩ := List.mem_map.mp (h.sites.mem_iff.mpr hsite)
          exact hall p hp
        rw [hnext, hkept]
        exact h.sites
      · rw [h.endsFrom_open fun p hp hc => hall p hp hc.2.symm]
        exact .refl _
  | some j =>
      obtain ⟨hj, hsite, -⟩ := List.findIdx?_eq_some_iff_getElem.mp hfind
      have hsite' : c.opened[j].site = siteOf kind e := eq_of_beq hsite
      have hperm := swapRemove_perm hj
      have hsites : (siteOf kind e :: (swapRemove c.opened j).map OpenSpan.site).Perm
          (o.atBoot e.bootId) := by
        have hmap := hperm.map OpenSpan.site
        rw [List.map_cons, hsite'] at hmap
        exact hmap.trans h.sites
      have hnodup' := (hsites.nodup_iff.mpr h.nodup)
      have hothers : ∀ p ∈ swapRemove c.opened j, p.site ≠ siteOf kind e := fun p hp heq =>
        (List.nodup_cons.mp hnodup').1 (List.mem_map.mpr ⟨p, hp, heq⟩)
      dsimp only
      refine ⟨[{ start := c.opened[j].start, endS := e.timestamp, site := siteOf kind e }], ?_,
        ⟨hboot, ?_, hnodup, fun hidle => absurd h.haveBoot hidle⟩, ?_⟩
      · rw [List.getD_eq_getElem _ _ hj]
        rfl
      · rw [hnext]
        have hfilter := (hsites.filter (· ≠ siteOf kind e))
        rw [List.filter_cons, if_neg (by simp), List.filter_eq_self.mpr fun site hs => by
          obtain ⟨p, hp, rfl⟩ := List.mem_map.mp hs
          exact decide_eq_true (hothers p hp)] at hfilter
        exact hfilter
      · have hends := (hperm.map fun p : OpenSpan => ({
            start := p.start
            endS := endOf kind currentBootId e.bootId p.site p.start lastTs (e :: rest)
            site := p.site } : FaultInterval))
        rw [List.map_cons, hsite', endOf_cons_closed rfl ⟨hcloses, rfl⟩] at hends
        refine List.Perm.trans (List.Perm.of_eq ?_) hends
        rw [List.singleton_append, openEnds]
        refine congrArg _ (List.map_congr_left fun p hp => ?_)
        rw [h.boot, h.lastTs, endOf_cons_same rfl fun hc => hothers p hp hc.2.symm]

end Entered

/-- **The step lemma**: an event writes the spans that it ends, and leaves the others open. -/
lemma step_emits (h : Tracks c o) (htimed : e.timestamp ≠ 0) (rest : List EventEntry) :
    ∃ emitted, (c.step kind e).builder = c.builder.emitAll emitted ∧
      Tracks (c.step kind e) (o.next kind e) ∧
      (emitted ++ openEnds kind currentBootId (c.step kind e) rest).Perm
        (openEnds kind currentBootId c (e :: rest) ++
          if o.takes kind e then [spanFrom kind currentBootId e rest] else []) := by
  obtain ⟨ended, hbuilder, hsites, hnodup, hends⟩ :=
    @enterBoot_emits kind currentBootId c o h e rest
  have hentered : Entered (c.enterBoot e) o e := ⟨rfl, rfl, rfl, hsites, hnodup⟩
  have hends' : ended ++ endsFrom kind currentBootId (c.enterBoot e) c.lastTs e rest
      = openEnds kind currentBootId c (e :: rest) := hends
  rw [PairScan.step, if_neg htimed]
  dsimp only
  rw [← hends']
  by_cases hopens : opens kind e
  · obtain ⟨hsame, htracks, hopen⟩ :=
      @Entered.openSpan_emits kind currentBootId _ o e rest c.lastTs hentered hopens
    rw [if_pos hopens]
    refine ⟨ended, hsame.trans hbuilder, htracks, ?_⟩
    rw [hopen, List.append_assoc]
  have hnot : ¬ o.takes kind e := by
    intro ht
    rw [OpenSites.takes, Bool.and_eq_true, Bool.and_eq_true] at ht
    exact hopens ht.1.1
  rw [if_neg hopens, if_neg hnot, List.append_nil]
  by_cases hcloses : closes kind e
  · obtain ⟨emitted, hclosed, htracks, hperm⟩ :=
      @Entered.closeSpan_emits kind currentBootId _ o e rest c.lastTs hentered hcloses
    rw [if_pos hcloses]
    refine ⟨ended ++ emitted, ?_, htracks, ?_⟩
    · rw [hclosed, hbuilder, Builder.emitAll_append]
    · rw [List.append_assoc]
      exact hperm.append_left ended
  · have hnext : (o.next kind e).sites = o.atBoot e.bootId := by
      rw [OpenSites.next]
      dsimp only
      rw [if_neg hnot, if_neg hcloses]
    rw [if_neg hcloses]
    refine ⟨ended, hbuilder, ⟨rfl, hnext ▸ hsites, hnext ▸ hnodup, fun hidle => absurd rfl hidle⟩, ?_⟩
    rw [hentered.endsFrom_open fun _ _ hc => hcloses hc.1]

/-- **The run lemma**: the spans of any further events. -/
lemma run_emits : ∀ (events : List EventEntry) {c : PairScan} {o : OpenSites}, Tracks c o →
    (∀ e ∈ events, e.timestamp ≠ 0) →
    ∃ emitted, ((events.foldl (PairScan.step kind) c).finish currentBootId).builder
        = c.builder.emitAll emitted ∧
      emitted.Perm (openEnds kind currentBootId c events ++
        takenSpans kind currentBootId o events) := by
  intro events
  induction events with
  | nil =>
      intro c o h _
      show ∃ emitted, (c.finish currentBootId).builder = c.builder.emitAll emitted ∧ _
      refine ⟨openEnds kind currentBootId c [], ?_, List.Perm.of_eq (List.append_nil _).symm⟩
      rw [PairScan.finish, openEnds]
      by_cases hcurrent : c.haveBoot ∧ c.boot = currentBootId
      · rw [if_pos hcurrent, Builder.emitAll, List.foldl_map]
        simp only [endOf, if_pos hcurrent.2]
      · rw [if_neg hcurrent, closeAll_eq]
        by_cases hboot : c.haveBoot
        · have hother : c.boot ≠ currentBootId := fun heq => hcurrent ⟨hboot, heq⟩
          simp only [endOf, if_neg hother]
        · rw [h.idle hboot]
          rfl
  | cons e events ih =>
      intro c o h htimed
      obtain ⟨emitted, hbuilder, htracks, hperm⟩ :=
        @step_emits kind currentBootId c o e h (htimed e List.mem_cons_self) events
      obtain ⟨later, hlater, hrest⟩ := ih htracks fun e he => htimed e (List.mem_cons_of_mem _ he)
      refine ⟨emitted ++ later, ?_, ?_⟩
      · rw [List.foldl_cons, hlater, hbuilder, Builder.emitAll_append]
      · rw [takenSpans, ← List.append_assoc]
        refine (hrest.append_left emitted).trans ?_
        rw [← List.append_assoc]
        exact hperm.append_right _

/-- Events without a time are left out. -/
lemma foldl_timedEvents (events : List EventEntry) (c : PairScan) :
    events.foldl (PairScan.step kind) c = (timedEvents events).foldl (PairScan.step kind) c := by
  induction events generalizing c with
  | nil => rfl
  | cons e events ih =>
      rw [List.foldl_cons, ih, timedEvents, timedEvents, List.filter_cons]
      by_cases htimed : e.timestamp = 0
      · have hnot : ¬ (e.timestamp != 0) = true := by simp [htimed]
        rw [if_neg hnot, PairScan.step, if_pos htimed]
      · rw [if_pos (bne_iff_ne.mpr htimed), List.foldl_cons]

end Step

/-- What the pass returns: the spans of the events it takes, those in the window, the newest of
them in the order of their starts. -/
lemma pairSpans_spec (kind : SpanKind) (events : List EventEntry)
    (windowStart windowEnd currentBootId : UInt32) {cap : ℕ} (hcap : 0 < cap) :
    let spans := (takenSpans kind currentBootId {} (timedEvents events)).filter
      (FaultInterval.overlaps windowStart windowEnd)
    (pairSpans kind events windowStart windowEnd currentBootId cap).2 = spans.length ∧
      Greatest FaultInterval.key cap spans
        (pairSpans kind events windowStart windowEnd currentBootId cap).1 ∧
      SortedByStart (pairSpans kind events windowStart windowEnd currentBootId cap).1 := by
  intro spans
  rw [pairSpans, if_neg hcap.ne']
  dsimp only
  have htracks : Tracks { builder := { windowStart, windowEnd, cap } } {} :=
    ⟨rfl, .refl _, .nil, fun _ => rfl⟩
  have htimed : ∀ e ∈ timedEvents events, e.timestamp ≠ 0 := fun e he =>
    bne_iff_ne.mp (List.mem_filter.mp he).2
  obtain ⟨emitted, hbuilder, hperm⟩ :=
    @run_emits kind currentBootId (timedEvents events) _ _ htracks htimed
  rw [foldl_timedEvents, hbuilder]
  obtain ⟨htotal, hgreatest⟩ := Builder.emitAll_spec hcap emitted
  obtain ⟨hsort, hsorted⟩ := sortByStart_spec
    (({ windowStart, windowEnd, cap } : Builder).emitAll emitted).out
  have hspans : (emitted.filter (FaultInterval.overlaps windowStart windowEnd)).Perm spans :=
    hperm.filter _
  exact ⟨htotal.trans hspans.length_eq, (hgreatest.of_perm hspans).perm hsort, hsorted⟩

end ArcticController

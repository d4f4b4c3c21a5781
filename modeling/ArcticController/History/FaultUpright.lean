/-
No span of the history charts ends before it starts, but where the clock steps back in it.

* `ClosedAt`, `StepsBack`: an open site's closing event, and one stamped before the opening;
* `endOf_closedAt`, `endOf_unclosed`: where a span ends with it and without;
* `mem_takenSpans`: the spans written, by their events;
* `WellDrawn`: what the charts rely on;
* `pair_spans_well_drawn`: when it holds.
-/
import ArcticController.History.FaultExact

namespace ArcticController

/-! ### Closing events -/

/-- `c` is the first event of `rest` that closes the site, before any of another boot. -/
def ClosedAt (kind : SpanKind) (boot : UInt32) (site : UInt16) (rest : List EventEntry)
    (c : EventEntry) : Prop :=
  ∃ mid after, rest = mid ++ c :: after ∧
    (∀ x ∈ mid, x.bootId = boot ∧ ¬ (closes kind x ∧ siteOf kind x = site)) ∧
    c.bootId = boot ∧ closes kind c ∧ siteOf kind c = site

/-- The sites open after some events. -/
def openSitesAfter (kind : SpanKind) (before : List EventEntry) : OpenSites :=
  before.foldl (OpenSites.next kind) {}

/-- `e` opens a span that `c` closes, stamped before it, and the two reach into the window. -/
def StepsBack (kind : SpanKind) (events : List EventEntry) (windowStart windowEnd : UInt32)
    (e c : EventEntry) : Prop :=
  ∃ before rest, timedEvents events = before ++ e :: rest ∧
    (openSitesAfter kind before).takes kind e ∧
    ClosedAt kind e.bootId (siteOf kind e) rest c ∧
    c.timestamp < e.timestamp ∧ e.timestamp ≤ windowEnd ∧ windowStart ≤ c.timestamp

section Ends

variable {kind : SpanKind} {currentBootId boot start : UInt32} {site : UInt16}
  {e c x : EventEntry} {rest : List EventEntry}

lemma endOf_closedAt (h : ClosedAt kind boot site rest c) (lastTs : UInt32) :
    endOf kind currentBootId boot site start lastTs rest = c.timestamp := by
  obtain ⟨mid, after, rfl, hmid, hboot, hcloses⟩ := h
  induction mid generalizing lastTs with
  | nil => exact endOf_cons_closed hboot hcloses
  | cons y mid ih =>
      obtain ⟨hy, hopen⟩ := hmid y List.mem_cons_self
      rw [List.cons_append, endOf_cons_same hy hopen]
      exact ih y.timestamp fun z hz => hmid z (List.mem_cons_of_mem _ hz)

lemma ClosedAt.cons (h : ClosedAt kind boot site rest c) (hx : x.bootId = boot)
    (hopen : ¬ (closes kind x ∧ siteOf kind x = site)) : ClosedAt kind boot site (x :: rest) c := by
  obtain ⟨mid, after, rfl, hmid, hclosed⟩ := h
  refine ⟨x :: mid, after, rfl, fun y hy => ?_, hclosed⟩
  rcases List.mem_cons.mp hy with rfl | hy
  · exact ⟨hx, hopen⟩
  · exact hmid y hy

/-- A span that no event closes is still active, or ends no earlier than it starts. -/
lemma endOf_unclosed (h : ∀ c, ¬ ClosedAt kind boot site rest c) (lastTs : UInt32) :
    (endOf kind currentBootId boot site start lastTs rest = 0 ∧ boot = currentBootId ∧
        ∀ y ∈ rest, y.bootId = boot) ∨
      start ≤ endOf kind currentBootId boot site start lastTs rest := by
  have hguarded : ∀ t : UInt32, start ≤ if t < start then start else t := by
    intro t
    split
    · exact UInt32.le_refl _
    · next hnot => exact UInt32.not_lt.mp hnot
  induction rest generalizing lastTs with
  | nil =>
      rw [endOf]
      by_cases hcurrent : boot = currentBootId
      · exact .inl ⟨if_pos hcurrent, hcurrent, by rintro _ ⟨⟩⟩
      · rw [if_neg hcurrent]
        exact .inr (hguarded lastTs)
  | cons x rest ih =>
      by_cases hother : x.bootId ≠ boot
      · rw [endOf, if_pos hother]
        exact .inr (hguarded lastTs)
      have hsame : x.bootId = boot := not_not.mp hother
      have hopen : ¬ (closes kind x ∧ siteOf kind x = site) := fun hc =>
        h x ⟨[], rest, rfl, by rintro _ ⟨⟩, hsame, hc⟩
      rw [endOf_cons_same hsame hopen]
      rcases ih (fun c hc => h c (hc.cons hsame hopen)) x.timestamp with ⟨hzero, hcurrent, hall⟩ | hle
      · refine .inl ⟨hzero, hcurrent, fun y hy => ?_⟩
        rcases List.mem_cons.mp hy with rfl | hy
        · exact hsame
        · exact hall y hy
      · exact .inr hle

/-- The spans are those of the events taken. -/
lemma mem_takenSpans {span : FaultInterval} : ∀ {events : List EventEntry} {o : OpenSites},
    span ∈ takenSpans kind currentBootId o events ↔
      ∃ before e rest, events = before ++ e :: rest ∧
        (before.foldl (OpenSites.next kind) o).takes kind e ∧
        span = spanFrom kind currentBootId e rest := by
  intro events
  induction events with
  | nil =>
      refine fun {o} => ⟨fun h => absurd h List.not_mem_nil, ?_⟩
      rintro ⟨before, e, rest, heq, -⟩
      exact absurd heq.symm (by simp)
  | cons x events ih =>
      intro o
      rw [takenSpans, List.mem_append, ih]
      constructor
      · rintro (hhead | ⟨before, e, rest, rfl, htakes, rfl⟩)
        · by_cases hx : o.takes kind x
          · rw [if_pos hx, List.mem_singleton] at hhead
            exact ⟨[], x, events, rfl, hx, hhead⟩
          · rw [if_neg hx] at hhead
            exact absurd hhead List.not_mem_nil
        · exact ⟨x :: before, e, rest, rfl, htakes, rfl⟩
      · rintro ⟨before, e, rest, heq, htakes, rfl⟩
        cases before with
        | nil =>
            obtain ⟨rfl, rfl⟩ := List.cons.inj heq
            left
            rw [if_pos (show o.takes kind x = true from htakes)]
            exact List.mem_cons_self
        | cons y before =>
            obtain ⟨rfl, rfl⟩ := List.cons.inj heq
            exact .inr ⟨before, e, rest, rfl, htakes, rfl⟩

end Ends

/-! ### What the charts rely on -/

/-- The spans that overlap the window, in the order of their opening events. -/
def spansInWindow (kind : SpanKind) (events : List EventEntry)
    (windowStart windowEnd currentBootId : UInt32) : List FaultInterval :=
  (takenSpans kind currentBootId {} (timedEvents events)).filter
    (FaultInterval.overlaps windowStart windowEnd)

/-- The span of an opening event of the current boot, with none of another boot after it. -/
def OfCurrentBoot (kind : SpanKind) (events : List EventEntry) (currentBootId : UInt32)
    (x : FaultInterval) : Prop :=
  ∃ before e rest, timedEvents events = before ++ e :: rest ∧ opens kind e ∧
    e.bootId = currentBootId ∧ x.start = e.timestamp ∧ x.site = siteOf kind e ∧
    ∀ y ∈ rest, y.bootId = currentBootId

/-- No span ends before it starts, only spans of the current boot are still active, and they come
in the order of their starts. -/
structure WellDrawn (kind : SpanKind) (events : List EventEntry) (currentBootId : UInt32)
    (out : List FaultInterval) : Prop where
  upright : ∀ x ∈ out, x.endS = 0 ∨ x.start ≤ x.endS
  active : ∀ x ∈ out, x.endS = 0 → OfCurrentBoot kind events currentBootId x
  sorted : SortedByStart out

section WellDrawn

variable {kind : SpanKind} {events : List EventEntry} {windowStart windowEnd currentBootId : UInt32}
  {cap : ℕ} {e c : EventEntry} {x : FaultInterval}

lemma timed_of_split {before rest : List EventEntry}
    (h : timedEvents events = before ++ e :: rest) : e.timestamp ≠ 0 := by
  have hmem : e ∈ timedEvents events := by
    rw [h]
    exact List.mem_append_right _ List.mem_cons_self
  exact bne_iff_ne.mp (List.mem_filter.mp hmem).2

lemma ClosedAt.timed {before rest : List EventEntry} {boot : UInt32} {site : UInt16}
    (h : ClosedAt kind boot site rest c) (hsplit : timedEvents events = before ++ e :: rest) :
    c.timestamp ≠ 0 := by
  obtain ⟨mid, after, rfl, -⟩ := h
  have hsplit' : timedEvents events = (before ++ e :: mid) ++ c :: after := by
    rw [hsplit, List.append_assoc, List.cons_append]
  exact timed_of_split hsplit'

/-- A step back in the window is an inverted span. -/
lemma StepsBack.span (h : StepsBack kind events windowStart windowEnd e c) :
    ∃ x ∈ spansInWindow kind events windowStart windowEnd currentBootId,
      x.start = e.timestamp ∧ x.endS = c.timestamp ∧ x.endS ≠ 0 ∧ x.endS < x.start := by
  obtain ⟨before, rest, hsplit, htakes, hclosed, hback, hend, hstart⟩ := h
  have hends : (spanFrom kind currentBootId e rest).endS = c.timestamp := endOf_closedAt hclosed _
  have hmem : spanFrom kind currentBootId e rest
      ∈ takenSpans kind currentBootId {} (timedEvents events) :=
    mem_takenSpans.mpr ⟨before, e, rest, hsplit, htakes, rfl⟩
  refine ⟨spanFrom kind currentBootId e rest, List.mem_filter.mpr ⟨hmem, ?_⟩, rfl, hends, ?_, ?_⟩
  · exact decide_eq_true ⟨hend, .inr (hends ▸ hstart)⟩
  · exact hends ▸ hclosed.timed hsplit
  · exact hends ▸ hback

/-- A span of the window is upright, or the clock steps back in it. -/
lemma upright_or_stepsBack
    (hx : x ∈ spansInWindow kind events windowStart windowEnd currentBootId) :
    (x.endS = 0 ∨ x.start ≤ x.endS) ∨
      ∃ e c, StepsBack kind events windowStart windowEnd e c ∧ e.timestamp = x.start := by
  obtain ⟨hmem, hin⟩ := List.mem_filter.mp hx
  obtain ⟨before, e, rest, hsplit, htakes, rfl⟩ := mem_takenSpans.mp hmem
  by_cases hclosed : ∃ c, ClosedAt kind e.bootId (siteOf kind e) rest c
  · obtain ⟨c, hclosed⟩ := hclosed
    have hends : (spanFrom kind currentBootId e rest).endS = c.timestamp :=
      endOf_closedAt hclosed _
    obtain ⟨hend, hstart⟩ := of_decide_eq_true hin
    by_cases hback : c.timestamp < e.timestamp
    · refine .inr ⟨e, c, ⟨before, rest, hsplit, htakes, hclosed, hback, hend, ?_⟩, rfl⟩
      rw [← hends]
      exact hstart.resolve_left (hends ▸ hclosed.timed hsplit)
    · exact .inl (.inr (hends ▸ UInt32.not_lt.mp hback))
  · rcases @endOf_unclosed kind currentBootId e.bootId e.timestamp (siteOf kind e) rest
      (not_exists.mp hclosed) e.timestamp with ⟨hzero, -⟩ | hle
    · exact .inl (.inl hzero)
    · exact .inl (.inr hle)

/-- Only spans of the current boot are still active. -/
lemma active_of_mem (hx : x ∈ spansInWindow kind events windowStart windowEnd currentBootId)
    (hzero : x.endS = 0) : OfCurrentBoot kind events currentBootId x := by
  obtain ⟨hmem, -⟩ := List.mem_filter.mp hx
  obtain ⟨before, e, rest, hsplit, htakes, rfl⟩ := mem_takenSpans.mp hmem
  have hunclosed : ∀ c, ¬ ClosedAt kind e.bootId (siteOf kind e) rest c := by
    intro c hclosed
    exact hclosed.timed hsplit ((endOf_closedAt hclosed _).symm.trans hzero)
  rw [OpenSites.takes, Bool.and_eq_true, Bool.and_eq_true] at htakes
  rcases @endOf_unclosed kind currentBootId e.bootId e.timestamp (siteOf kind e) rest hunclosed
    e.timestamp with ⟨-, hcurrent, hall⟩ | hle
  · exact ⟨before, e, rest, hsplit, htakes.1.1, hcurrent, rfl, rfl, fun y hy =>
      (hall y hy).trans hcurrent⟩
  · have hend : endOf kind currentBootId e.bootId (siteOf kind e) e.timestamp e.timestamp rest = 0 :=
      hzero
    rw [hend] at hle
    exact absurd (UInt32.le_zero_iff.mp hle) (timed_of_split hsplit)

/-- How many spans of the window start after `t`, and how many at `t` or after. -/
def startingAfter (spans : List FaultInterval) (t : UInt32) : ℕ :=
  spans.countP fun x => t < x.start

def startingFrom (spans : List FaultInterval) (t : UInt32) : ℕ :=
  spans.countP fun x => t ≤ x.start

/-- With enough newer spans in the way of every inverted one. -/
lemma wellDrawn_of_hidden (h : ∀ e c, StepsBack kind events windowStart windowEnd e c →
    cap ≤ startingAfter (spansInWindow kind events windowStart windowEnd currentBootId) e.timestamp) :
    WellDrawn kind events currentBootId
      (pairSpans kind events windowStart windowEnd currentBootId cap).1 := by
  by_cases hzero : cap = 0
  · rw [pairSpans, if_pos hzero]
    exact ⟨by rintro _ ⟨⟩, by rintro _ ⟨⟩, .nil⟩
  obtain ⟨-, hgreatest, hsorted⟩ := pairSpans_spec kind events windowStart windowEnd currentBootId
    (Nat.pos_of_ne_zero hzero)
  refine ⟨fun x hx => ?_, fun x hx => active_of_mem (hgreatest.subset hx), hsorted⟩
  refine (upright_or_stepsBack (hgreatest.subset hx)).resolve_right ?_
  rintro ⟨e, c, hback, hstart⟩
  have hcount := h e c hback
  have hkeys : startingAfter (spansInWindow kind events windowStart windowEnd currentBootId)
      e.timestamp = (spansInWindow kind events windowStart windowEnd currentBootId).countP
        fun y => decide (x.key < y.key) := by
    refine List.countP_congr fun y _ => ?_
    rw [decide_eq_true_iff, decide_eq_true_iff, hstart]
    exact UInt32.lt_iff_toNat_lt
  rw [hkeys] at hcount
  exact hgreatest.not_mem_of_le_countP hcount hx

/-- An inverted span is returned unless newer ones take its place. -/
lemma hidden_of_wellDrawn (h : WellDrawn kind events currentBootId
      (pairSpans kind events windowStart windowEnd currentBootId cap).1)
    (hback : StepsBack kind events windowStart windowEnd e c) :
    cap < startingFrom (spansInWindow kind events windowStart windowEnd currentBootId)
      e.timestamp := by
  obtain ⟨x, hx, hstart, -, hne, hlt⟩ := @StepsBack.span _ _ _ _ currentBootId _ _ hback
  have hkeys : startingFrom (spansInWindow kind events windowStart windowEnd currentBootId)
      e.timestamp = (spansInWindow kind events windowStart windowEnd currentBootId).countP
        fun y => decide (x.key ≤ y.key) := by
    refine List.countP_congr fun y _ => ?_
    rw [decide_eq_true_iff, decide_eq_true_iff, ← hstart]
    exact UInt32.le_iff_toNat_le
  by_contra hge
  rw [hkeys] at hge
  by_cases hzero : cap = 0
  · have hpos : 0 < (spansInWindow kind events windowStart windowEnd currentBootId).countP
        fun y => decide (x.key ≤ y.key) :=
      List.countP_pos_iff.mpr ⟨x, hx, decide_eq_true le_rfl⟩
    omega
  obtain ⟨-, hgreatest, -⟩ := pairSpans_spec kind events windowStart windowEnd currentBootId
    (Nat.pos_of_ne_zero hzero)
  have hout := hgreatest.mem_of_countP_le hx (not_lt.mp hge)
  rcases h.upright x hout with hz | hle
  · exact hne hz
  · exact UInt32.not_lt.mpr hle hlt

end WellDrawn

/-- **No span is inverted unless the clock steps back.** Whatever the room, the spans are well
drawn exactly if no event in the window closes its span with an earlier stamp than it opened with;
with room for `cap` spans only, also if at least `cap` others start later than every such span, and
not if no more than `cap` start at least as late. -/
theorem pair_spans_well_drawn (kind : SpanKind) (events : List EventEntry)
    (windowStart windowEnd currentBootId : UInt32) :
    let drawn cap := WellDrawn kind events currentBootId
      (pairSpans kind events windowStart windowEnd currentBootId cap).1
    let spans := spansInWindow kind events windowStart windowEnd currentBootId
    ((∀ cap, drawn cap) ↔ ∀ e c, ¬ StepsBack kind events windowStart windowEnd e c) ∧
      ∀ cap, ((∀ e c, StepsBack kind events windowStart windowEnd e c →
          cap ≤ startingAfter spans e.timestamp) → drawn cap) ∧
        (drawn cap → ∀ e c, StepsBack kind events windowStart windowEnd e c →
          cap < startingFrom spans e.timestamp) := by
  intro drawn spans
  refine ⟨⟨fun h e c hback => ?_, fun h cap => ?_⟩, fun cap =>
    ⟨wellDrawn_of_hidden, fun h e c => hidden_of_wellDrawn h⟩⟩
  · have hlt := hidden_of_wellDrawn (h spans.length) hback
    exact absurd hlt (not_lt.mpr List.countP_le_length)
  · exact wellDrawn_of_hidden fun e c hback => absurd hback (h e c)

/-- The clock is set back by a minute while a fault is active: its span ends before it starts. -/
theorem pair_spans_inverted :
    (pairSpans .fault [eventAt 1000 1 eventErrorAppeared 7, eventAt 940 1 eventErrorCleared 7]
      0 5000 1 16).1 = [{ start := 1000, endS := 940, site := 7 }] := by
  decide +kernel

end ArcticController

/-
The fault, defrost and freeze-protection spans of the history charts (`fault_history.cpp`), rebuilt
from the events of the log.

* `FaultInterval`, `Builder`: the spans written so far, the newest `cap` of those in the window;
* `SpanKind`, `opens`, `closes`: the events that begin and end a span;
* `PairScan`, `PairScan.step`, `pairSpans`: the pass over the events;
* `Builder.emitAll_spec`: what the builder holds after any spans;
* `sortByStart_spec`: the order they are returned in.
-/
import ArcticController.Base.Greatest
import ArcticController.History.EventRecord
import Mathlib.Data.List.DropRight

namespace ArcticController

/-! ### Spans -/

/-- A span (`fault_interval_t`); an end of 0 is a span still active. -/
structure FaultInterval where
  start : UInt32 := 0
  endS : UInt32 := 0
  site : UInt16 := 0
deriving DecidableEq, Repr

/-- The index of the first of the spans that start earliest. -/
def oldestInterval (out : List FaultInterval) : ℕ :=
  (List.range out.length).foldl (fun oldest i =>
    if (out.getD i {}).start < (out.getD oldest {}).start then i else oldest) 0

/-- The spans written, of those that overlap the window, and how many these are. -/
structure Builder where
  windowStart : UInt32
  windowEnd : UInt32
  cap : ℕ
  out : List FaultInterval := []
  total : ℕ := 0

/-- A span goes into the output, at the cost of the oldest one when it is full. -/
def Builder.emit (b : Builder) (site : UInt16) (start endS : UInt32) : Builder :=
  if start > b.windowEnd then b
  else if endS ≠ 0 ∧ endS < b.windowStart then b
  else if b.out.length < b.cap then
    { b with total := b.total + 1, out := b.out ++ [{ start, endS, site }] }
  else
    -- full: the newest faults matter most
    let oldest := oldestInterval b.out
    if start > (b.out.getD oldest {}).start then
      { b with total := b.total + 1, out := b.out.set oldest { start, endS, site } }
    else { b with total := b.total + 1 }

/-! ### Events -/

def eventModeChanged : UInt32 := 3
def eventDefrostStart : UInt32 := 13
def eventDefrostEnd : UInt32 := 14
def eventErrorAppeared : UInt32 := 15
def eventErrorCleared : UInt32 := 16

inductive SpanKind where
  | fault
  | defrost
  | freezeProtection
deriving DecidableEq, Repr

/-- The working mode of freeze protection. -/
def kFreezeProtectionMode : UInt32 := 2

def opens (kind : SpanKind) (e : EventEntry) : Bool :=
  match kind with
  | .fault => e.type == eventErrorAppeared
  | .defrost => e.type == eventDefrostStart
  | .freezeProtection =>
      e.type == eventModeChanged && e.payload &&& 0xFF == kFreezeProtectionMode &&
        (e.payload >>> 8) &&& 0xFF != kFreezeProtectionMode

def closes (kind : SpanKind) (e : EventEntry) : Bool :=
  match kind with
  | .fault => e.type == eventErrorCleared
  | .defrost => e.type == eventDefrostEnd
  | .freezeProtection =>
      e.type == eventModeChanged && (e.payload >>> 8) &&& 0xFF == kFreezeProtectionMode &&
        e.payload &&& 0xFF != kFreezeProtectionMode

/-- Only faults have a site. -/
def siteOf (kind : SpanKind) (e : EventEntry) : UInt16 :=
  match kind with
  | .fault => e.payload.toUInt16
  | _ => 0

/-- No event both opens and closes a span. -/
lemma not_closes_of_opens {kind : SpanKind} {e : EventEntry} (h : opens kind e) :
    ¬ closes kind e := by
  cases kind with
  | fault =>
      rw [opens, beq_iff_eq] at h
      rw [closes, h]
      decide
  | defrost =>
      rw [opens, beq_iff_eq] at h
      rw [closes, h]
      decide
  | freezeProtection =>
      rw [opens, Bool.and_eq_true, Bool.and_eq_true, beq_iff_eq] at h
      rw [closes, Bool.and_eq_true, Bool.and_eq_true]
      exact fun hc => bne_iff_ne.mp h.2 (eq_of_beq hc.1.2)

/-! ### The pass over the events -/

def kMaxOpen : ℕ := 16

structure OpenSpan where
  site : UInt16 := 0
  start : UInt32 := 0
deriving DecidableEq, Repr

/-- The last one takes the place of the one removed. -/
def swapRemove (opened : List OpenSpan) (j : ℕ) : List OpenSpan :=
  (opened.set j (opened.getLastD {})).dropLast

/-- Where the pass is: the spans written, those open, the boot and the time of the last timed
event. -/
structure PairScan where
  builder : Builder
  opened : List OpenSpan := []
  boot : UInt32 := 0
  lastTs : UInt32 := 0
  haveBoot : Bool := false

namespace PairScan

def closeAll (c : PairScan) (endS : UInt32) : PairScan :=
  { c with
    builder := c.opened.foldl (fun b o =>
      b.emit o.site o.start (if endS < o.start then o.start else endS)) c.builder
    opened := [] }

/-- The boot and the time of an event; an earlier boot's spans end at its last event. -/
def enterBoot (c : PairScan) (e : EventEntry) : PairScan :=
  let c := if c.haveBoot ∧ e.bootId ≠ c.boot then c.closeAll c.lastTs else c
  { c with boot := e.bootId, lastTs := e.timestamp, haveBoot := true }

def openSpan (c : PairScan) (site : UInt16) (start : UInt32) : PairScan :=
  let already := c.opened.any fun o => o.site == site
  if ¬ already ∧ c.opened.length < kMaxOpen then
    { c with opened := c.opened ++ [{ site, start }] }
  else c

def closeSpan (c : PairScan) (site : UInt16) (endS : UInt32) : PairScan :=
  match c.opened.findIdx? fun o => o.site == site with
  | some j =>
      { c with
        builder := c.builder.emit site (c.opened.getD j {}).start endS
        opened := swapRemove c.opened j }
  | none => c

/-- One event. -/
def step (kind : SpanKind) (c : PairScan) (e : EventEntry) : PairScan :=
  if e.timestamp = 0 then c
  else
    let c := c.enterBoot e
    if opens kind e then c.openSpan (siteOf kind e) e.timestamp
    else if closes kind e then c.closeSpan (siteOf kind e) e.timestamp
    else c

/-- The end of the events: only a span of the current boot is still active. -/
def finish (currentBootId : UInt32) (c : PairScan) : PairScan :=
  if c.haveBoot ∧ c.boot = currentBootId then
    { c with
      builder := c.opened.foldl (fun b o => b.emit o.site o.start 0) c.builder
      opened := [] }
  else c.closeAll c.lastTs

end PairScan

/-- One step of the insertion sort: the spans that start later move up. -/
def insertByStart (sorted : List FaultInterval) (v : FaultInterval) : List FaultInterval :=
  sorted.rdropWhile (fun x => v.start < x.start) ++
    v :: sorted.rtakeWhile (fun x => v.start < x.start)

def sortByStart (out : List FaultInterval) : List FaultInterval := out.foldl insertByStart []

/-- The newest `cap` spans that overlap the window, by start, and how many overlap it. -/
def pairSpans (kind : SpanKind) (events : List EventEntry)
    (windowStart windowEnd currentBootId : UInt32) (cap : ℕ) : List FaultInterval × ℕ :=
  if cap = 0 then ([], 0)
  else
    let c : PairScan := { builder := { windowStart, windowEnd, cap } }
    let b := ((events.foldl (PairScan.step kind) c).finish currentBootId).builder
    (sortByStart b.out, b.total)

def faultIntervalsFromEvents : List EventEntry → UInt32 → UInt32 → UInt32 → ℕ →
    List FaultInterval × ℕ :=
  pairSpans .fault

def defrostIntervalsFromEvents (events : List EventEntry)
    (windowStart windowEnd currentBootId : UInt32) (cap : ℕ) : List FaultInterval :=
  (pairSpans .defrost events windowStart windowEnd currentBootId cap).1

def freezeProtectionIntervalsFromEvents (events : List EventEntry)
    (windowStart windowEnd currentBootId : UInt32) (cap : ℕ) : List FaultInterval :=
  (pairSpans .freezeProtection events windowStart windowEnd currentBootId cap).1

/-! ### The builder -/

/-- The span overlaps the window. -/
def FaultInterval.overlaps (windowStart windowEnd : UInt32) (x : FaultInterval) : Bool :=
  x.start ≤ windowEnd ∧ (x.endS = 0 ∨ windowStart ≤ x.endS)

/-- Spans written one after another. -/
def Builder.emitAll (b : Builder) (spans : List FaultInterval) : Builder :=
  spans.foldl (fun b x => b.emit x.site x.start x.endS) b

def FaultInterval.key (x : FaultInterval) : ℕ := x.start.toNat

/-- What the builder holds after the spans `emitted`. -/
structure Builder.Holds (b : Builder) (emitted : List FaultInterval) : Prop where
  total : b.total = (emitted.filter (FaultInterval.overlaps b.windowStart b.windowEnd)).length
  greatest : Greatest FaultInterval.key b.cap
    (emitted.filter (FaultInterval.overlaps b.windowStart b.windowEnd)) b.out

namespace Builder

variable {b : Builder} {emitted : List FaultInterval}

lemma emitAll_append (b : Builder) (xs ys : List FaultInterval) :
    b.emitAll (xs ++ ys) = (b.emitAll xs).emitAll ys :=
  List.foldl_append

lemma oldestInterval_spec {out : List FaultInterval} (hne : out ≠ []) :
    ∃ h : oldestInterval out < out.length,
      ∀ a ∈ out, (out[oldestInterval out]).key ≤ a.key := by
  have hless : ∀ a b : FaultInterval, a.start < b.start ↔ a.key < b.key := fun a b =>
    UInt32.lt_iff_toNat_lt
  exact foldl_least hless {} hne

/-- What `emit` does to the output: nothing to a span outside the window. -/
lemma emit_eq (b : Builder) (x : FaultInterval) :
    b.emit x.site x.start x.endS =
      if x.overlaps b.windowStart b.windowEnd then
        { b with
          total := b.total + 1
          out := if b.out.length < b.cap then b.out ++ [x]
            else if (b.out.getD (oldestInterval b.out) {}).start < x.start then
              b.out.set (oldestInterval b.out) x
            else b.out }
      else b := by
  rw [emit, FaultInterval.overlaps]
  by_cases hlate : x.start > b.windowEnd
  · have hnot : ¬ (x.start ≤ b.windowEnd) := UInt32.not_le.mpr hlate
    rw [if_pos hlate, if_neg]
    simp [hnot]
  have hle : x.start ≤ b.windowEnd := UInt32.not_lt.mp hlate
  rw [if_neg hlate]
  by_cases hearly : x.endS ≠ 0 ∧ x.endS < b.windowStart
  · have hnot : ¬ (b.windowStart ≤ x.endS) := UInt32.not_le.mpr hearly.2
    rw [if_pos hearly, if_neg]
    simp [hnot, hearly.1]
  have hends : x.endS = 0 ∨ b.windowStart ≤ x.endS := by
    by_cases hzero : x.endS = 0
    · exact .inl hzero
    · exact .inr (UInt32.not_lt.mp fun h => hearly ⟨hzero, h⟩)
  rw [if_neg hearly, if_pos (decide_eq_true ⟨hle, hends⟩)]
  by_cases hroom : b.out.length < b.cap
  · rw [if_pos hroom, if_pos hroom]
  · rw [if_neg hroom, if_neg hroom]
    by_cases hnewer : (b.out.getD (oldestInterval b.out) {}).start < x.start
    · exact (if_pos hnewer).trans (by rw [if_pos hnewer])
    · exact (if_neg hnewer).trans (by rw [if_neg hnewer])

/-- **The step lemma**: one more span. -/
lemma Holds.emit (h : b.Holds emitted) (hcap : 0 < b.cap) (x : FaultInterval) :
    (b.emit x.site x.start x.endS).Holds (emitted ++ [x]) := by
  rw [emit_eq]
  split
  · next hin =>
      have hfilter : (emitted ++ [x]).filter (FaultInterval.overlaps b.windowStart b.windowEnd)
          = emitted.filter (FaultInterval.overlaps b.windowStart b.windowEnd) ++ [x] := by
        rw [List.filter_append, List.filter_cons, if_pos hin, List.filter_nil]
      constructor
      · dsimp only
        rw [hfilter, List.length_append, h.total]
        rfl
      · dsimp only
        rw [hfilter]
        have hgreatest := h.greatest
        split
        · next hroom => exact hgreatest.grow hroom x
        · next hfull =>
            have hne : b.out ≠ [] := by
              intro hnil
              rw [hnil, List.length_nil] at hfull
              exact hfull hcap
            obtain ⟨hlt, hleast⟩ := oldestInterval_spec hne
            rw [List.getD_eq_getElem _ _ hlt]
            split
            · next hnewer =>
                exact hgreatest.replace (not_lt.mp hfull) hlt hleast
                  (UInt32.lt_iff_toNat_lt.mp hnewer).le
            · next hnewer =>
                have hle := UInt32.le_iff_toNat_le.mp (UInt32.not_lt.mp hnewer)
                exact hgreatest.skip (not_lt.mp hfull) fun a ha => hle.trans (hleast a ha)
  · next hout =>
      have hfilter : (emitted ++ [x]).filter (FaultInterval.overlaps b.windowStart b.windowEnd)
          = emitted.filter (FaultInterval.overlaps b.windowStart b.windowEnd) := by
        rw [List.filter_append, List.filter_cons, if_neg hout, List.filter_nil, List.append_nil]
      constructor
      · rw [hfilter]
        exact h.total
      · rw [hfilter]
        exact h.greatest

lemma emit_fields (b : Builder) (x : FaultInterval) :
    (b.emit x.site x.start x.endS).windowStart = b.windowStart ∧
      (b.emit x.site x.start x.endS).windowEnd = b.windowEnd ∧
      (b.emit x.site x.start x.endS).cap = b.cap := by
  rw [emit_eq]
  split <;> exact ⟨rfl, rfl, rfl⟩

/-- **The run lemma**: any more spans. -/
lemma emitAll_holds : ∀ (spans : List FaultInterval) {b : Builder} {emitted : List FaultInterval},
    b.Holds emitted → 0 < b.cap → (b.emitAll spans).Holds (emitted ++ spans) ∧
      (b.emitAll spans).windowStart = b.windowStart ∧ (b.emitAll spans).windowEnd = b.windowEnd ∧
      (b.emitAll spans).cap = b.cap := by
  intro spans
  induction spans with
  | nil =>
      intro b emitted h _
      rw [List.append_nil]
      exact ⟨h, rfl, rfl, rfl⟩
  | cons x spans ih =>
      intro b emitted h hcap
      obtain ⟨hstart, hend, hsame⟩ := b.emit_fields x
      have hrest := ih (h.emit hcap x) (hsame ▸ hcap)
      rw [hstart, hend, hsame, List.append_assoc] at hrest
      exact hrest

/-- All spans, written to an empty output: how many overlap the window, and the newest of them. -/
lemma emitAll_spec {windowStart windowEnd : UInt32} {cap : ℕ} (hcap : 0 < cap)
    (spans : List FaultInterval) :
    (({ windowStart, windowEnd, cap } : Builder).emitAll spans).total
        = (spans.filter (FaultInterval.overlaps windowStart windowEnd)).length ∧
      Greatest FaultInterval.key cap (spans.filter (FaultInterval.overlaps windowStart windowEnd))
        (({ windowStart, windowEnd, cap } : Builder).emitAll spans).out := by
  have hempty : ({ windowStart, windowEnd, cap } : Builder).Holds [] := ⟨rfl, .nil⟩
  obtain ⟨hholds, hstart, hend, hsame⟩ := emitAll_holds spans hempty hcap
  have htotal := hholds.total
  have hgreatest := hholds.greatest
  rw [List.nil_append, hstart, hend] at htotal hgreatest
  rw [hsame] at hgreatest
  exact ⟨htotal, hgreatest⟩

end Builder

/-! ### The order of the spans -/

/-- The spans start one after the other. -/
def SortedByStart (out : List FaultInterval) : Prop := out.Pairwise fun a b => a.start ≤ b.start

lemma insertByStart_concat (sorted : List FaultInterval) (x v : FaultInterval) :
    insertByStart (sorted ++ [x]) v =
      if v.start < x.start then insertByStart sorted v ++ [x] else sorted ++ [x] ++ [v] := by
  rw [insertByStart, insertByStart, List.rdropWhile_concat, List.rtakeWhile_concat]
  by_cases h : v.start < x.start
  · rw [if_pos (decide_eq_true h), if_pos (decide_eq_true h), if_pos h, List.append_assoc,
      List.cons_append]
  · have hnot : ¬ decide (v.start < x.start) = true := fun hd => h (of_decide_eq_true hd)
    rw [if_neg hnot, if_neg hnot, if_neg h]

lemma insertByStart_perm (sorted : List FaultInterval) (v : FaultInterval) :
    (insertByStart sorted v).Perm (sorted ++ [v]) := by
  induction sorted using List.reverseRecOn with
  | nil => exact .refl _
  | append_singleton sorted x ih =>
      rw [insertByStart_concat]
      split
      · rw [List.append_assoc]
        refine (ih.append_right [x]).trans ?_
        rw [List.append_assoc]
        exact List.perm_append_comm.append_left sorted
      · exact .refl _

lemma insertByStart_sorted {sorted : List FaultInterval} (h : SortedByStart sorted)
    (v : FaultInterval) : SortedByStart (insertByStart sorted v) := by
  induction sorted using List.reverseRecOn with
  | nil => exact List.pairwise_singleton _ _
  | append_singleton sorted x ih =>
      obtain ⟨hsorted, -, hlast⟩ := List.pairwise_append.mp h
      have hle : ∀ a ∈ sorted, a.start ≤ x.start := fun a ha => hlast a ha x List.mem_cons_self
      rw [insertByStart_concat]
      split
      · next hlt =>
          refine List.pairwise_append.mpr ⟨ih hsorted, List.pairwise_singleton _ _, ?_⟩
          intro a ha b hb
          rw [List.mem_singleton.mp hb]
          rcases List.mem_append.mp ((insertByStart_perm sorted v).mem_iff.mp ha) with ha | ha
          · exact hle a ha
          · rw [List.mem_singleton.mp ha]
            exact UInt32.le_of_lt hlt
      · next hlt =>
          have hxv := UInt32.not_lt.mp hlt
          refine List.pairwise_append.mpr ⟨h, List.pairwise_singleton _ _, fun a ha b hb => ?_⟩
          rw [List.mem_singleton.mp hb]
          rcases List.mem_append.mp ha with ha | ha
          · exact UInt32.le_trans (hle a ha) hxv
          · rw [List.mem_singleton.mp ha]
            exact hxv

lemma sortByStart_spec (out : List FaultInterval) :
    (sortByStart out).Perm out ∧ SortedByStart (sortByStart out) := by
  have hfold : ∀ (rest sorted : List FaultInterval), SortedByStart sorted →
      (rest.foldl insertByStart sorted).Perm (sorted ++ rest) ∧
        SortedByStart (rest.foldl insertByStart sorted) := by
    intro rest
    induction rest with
    | nil =>
        intro sorted h
        rw [List.append_nil]
        exact ⟨.refl _, h⟩
    | cons v rest ih =>
        intro sorted h
        obtain ⟨hperm, hsorted⟩ := ih (insertByStart sorted v) (insertByStart_sorted h v)
        have hinsert := (insertByStart_perm sorted v).append_right rest
        rw [List.append_assoc, List.singleton_append] at hinsert
        exact ⟨hperm.trans hinsert, hsorted⟩
  exact hfold out [] .nil

end ArcticController

/-
The runs of the home screen are those of the samples.

* `HomeRun.Holds`, `HomeRun.Before`: the time a run covers, and runs one after the other;
* `RunsOf`: a list of runs covers exactly the running samples, cut at the gaps;
* `RunsOf.close`, `.stopped`, `.begin`, `.goOn`: what a sample does to it;
* `Scanned`, `scanned_scan`: the pass keeps it over any samples;
* `SameRuns`, `Agrees`: the pass with less room keeps the newest runs;
* `home_runs_exact`: the runs and the summary of any samples.
-/
import ArcticController.History.HomeStats
import ArcticController.Base.ClaimedRing

namespace ArcticController

/-! ### Runs -/

namespace HomeRun

/-- A time the run covers. -/
def Holds (r : HomeRun) (t : UInt32) : Prop := r.start ≤ t ∧ (r.endS = 0 ∨ t < r.endS)

instance (r : HomeRun) (t : UInt32) : Decidable (r.Holds t) := inferInstanceAs (Decidable (_ ∧ _))

/-- The run is over when the other begins. -/
def Before (r r' : HomeRun) : Prop := r.endS ≠ 0 ∧ r.endS ≤ r'.start

lemma not_holds_of_ended {r : HomeRun} {t : UInt32} (hend : r.endS ≠ 0) (hle : r.endS ≤ t) :
    ¬ r.Holds t := by
  rintro ⟨-, h | h⟩
  · exact hend h
  · exact UInt32.not_le.mpr h hle

lemma not_holds_of_lt {r : HomeRun} {t : UInt32} (h : t < r.start) : ¬ r.Holds t :=
  fun hr => UInt32.not_le.mpr h hr.1

end HomeRun

/-- Samples one right after the other. -/
def Adjacent (samples : List TelemetrySample) (a b : TelemetrySample) : Prop := [a, b] <:+: samples

/-- Samples are missing between the two. -/
def GapBetween (a b : TelemetrySample) : Prop := b.timestamp - a.timestamp > gapSeconds

instance (a b : TelemetrySample) : Decidable (GapBetween a b) :=
  inferInstanceAs (Decidable (_ > _))

lemma adjacent_concat {done : List TelemetrySample} {a b s : TelemetrySample} :
    Adjacent (done ++ [s]) a b ↔ Adjacent done a b ∨ (done.getLast? = some a ∧ b = s) := by
  rw [Adjacent, Adjacent, List.infix_concat_iff]
  constructor
  · rintro (⟨pre, hpre⟩ | h)
    · right
      have hsplit : (pre ++ [a]) ++ [b] = done ++ [s] := by
        rw [← hpre, List.append_assoc]
        rfl
      obtain ⟨rfl, hb⟩ := List.append_inj' hsplit rfl
      exact ⟨List.getLast?_concat, List.head_eq_of_cons_eq hb⟩
    · exact .inl h
  · rintro (h | ⟨hlast, rfl⟩)
    · exact .inr h
    · left
      obtain ⟨pre, rfl⟩ := List.getLast?_eq_some_iff.mp hlast
      exact ⟨pre, by rw [List.append_assoc]; rfl⟩

/-- The runs of some samples: one after the other, covering exactly the running samples, and two
adjacent ones together unless samples are missing between them. -/
structure RunsOf (samples : List TelemetrySample) (runs : List HomeRun) : Prop where
  order : runs.Pairwise HomeRun.Before
  covers : ∀ s ∈ samples, isRunning s ↔ ∃ r ∈ runs, r.Holds s.timestamp
  gaps : ∀ a b, Adjacent samples a b → GapBetween a b →
    ∀ r ∈ runs, ¬ (r.Holds a.timestamp ∧ r.Holds b.timestamp)
  joined : ∀ a b, Adjacent samples a b → ¬ GapBetween a b → isRunning a → isRunning b →
    ∃ r ∈ runs, r.Holds a.timestamp ∧ r.Holds b.timestamp

lemma mem_of_adjacent {samples : List TelemetrySample} {a b : TelemetrySample}
    (h : Adjacent samples a b) : a ∈ samples ∧ b ∈ samples :=
  ⟨h.subset List.mem_cons_self, h.subset (List.mem_cons_of_mem _ List.mem_cons_self)⟩

namespace RunsOf

variable {done : List TelemetrySample} {out : List HomeRun} {o : HomeRun} {s : TelemetrySample}

lemma nil : RunsOf [] [] where
  order := .nil
  covers := nofun
  gaps _ _ h := absurd (mem_of_adjacent h).1 List.not_mem_nil
  joined _ _ h := absurd (mem_of_adjacent h).1 List.not_mem_nil

/-- A run in progress that ends after all samples covers the same of them. -/
lemma close (h : RunsOf done (out ++ [o])) {e : UInt32} (hopen : o.endS = 0)
    (hdone : ∀ d ∈ done, d.timestamp < e) : RunsOf done (out ++ [{ o with endS := e }]) := by
  have hholds : ∀ d ∈ done, ({ o with endS := e } : HomeRun).Holds d.timestamp ↔
      o.Holds d.timestamp := fun d hd =>
    ⟨fun hr => ⟨hr.1, .inl hopen⟩, fun hr => ⟨hr.1, .inr (hdone d hd)⟩⟩
  have hexists : ∀ d d', d ∈ done → d' ∈ done →
      ((∃ r ∈ out ++ [{ o with endS := e }], r.Holds d.timestamp ∧ r.Holds d'.timestamp) ↔
        ∃ r ∈ out ++ [o], r.Holds d.timestamp ∧ r.Holds d'.timestamp) := by
    intro d d' hd hd'
    simp only [List.mem_append, List.mem_singleton, or_and_right, exists_or, exists_eq_left,
      hholds d hd, hholds d' hd']
  constructor
  · have horder := List.pairwise_append.mp h.order
    refine List.pairwise_append.mpr ⟨horder.1, List.pairwise_singleton _ _, fun r hr r' hr' => ?_⟩
    rw [List.mem_singleton.mp hr']
    exact horder.2.2 r hr o List.mem_cons_self
  · intro d hd
    have hd' := hexists d d hd hd
    simp only [and_self] at hd'
    rw [hd']
    exact h.covers d hd
  · intro a b hab hgap r hr hboth
    obtain ⟨ha, hb⟩ := mem_of_adjacent hab
    obtain ⟨r', hr', hboth'⟩ := (hexists a b ha hb).mp ⟨r, hr, hboth⟩
    exact h.gaps a b hab hgap r' hr' hboth'
  · intro a b hab hgap hra hrb
    obtain ⟨ha, hb⟩ := mem_of_adjacent hab
    exact (hexists a b ha hb).mpr (h.joined a b hab hgap hra hrb)

/-- A stopped sample after all runs. -/
lemma stopped (h : RunsOf done out) (hs : ¬ isRunning s)
    (hended : ∀ r ∈ out, ¬ r.Holds s.timestamp) : RunsOf (done ++ [s]) out where
  order := h.order
  covers d hd := by
    rcases List.mem_append.mp hd with hd | hd
    · exact h.covers d hd
    · rw [List.mem_singleton.mp hd]
      exact ⟨fun hr => absurd hr hs, fun ⟨r, hr, hholds⟩ => absurd hholds (hended r hr)⟩
  gaps a b hab hgap r hr hboth := by
    rcases adjacent_concat.mp hab with hab | ⟨-, rfl⟩
    · exact h.gaps a b hab hgap r hr hboth
    · exact hended r hr hboth.2
  joined a b hab hgap hra hrb := by
    rcases adjacent_concat.mp hab with hab | ⟨-, rfl⟩
    · exact h.joined a b hab hgap hra hrb
    · exact absurd hrb hs

/-- A running sample that begins a run: after a gap or a stopped one. -/
lemma begin (h : RunsOf done out) (hs : isRunning s) (ho : o.start = s.timestamp ∧ o.endS = 0)
    (hdone : ∀ d ∈ done, d.timestamp < s.timestamp)
    (hended : ∀ r ∈ out, r.endS ≠ 0 ∧ r.endS ≤ s.timestamp)
    (hfirst : ∀ last, done.getLast? = some last → GapBetween last s ∨ ¬ isRunning last) :
    RunsOf (done ++ [s]) (out ++ [o]) where
  order := by
    refine List.pairwise_append.mpr ⟨h.order, List.pairwise_singleton _ _, fun r hr r' hr' => ?_⟩
    rw [List.mem_singleton.mp hr']
    exact ⟨(hended r hr).1, ho.1.symm ▸ (hended r hr).2⟩
  covers d hd := by
    have hnew : o.Holds s.timestamp := ⟨ho.1 ▸ UInt32.le_refl _, .inl ho.2⟩
    rcases List.mem_append.mp hd with hd | hd
    · rw [h.covers d hd]
      constructor
      · rintro ⟨r, hr, hholds⟩
        exact ⟨r, List.mem_append_left _ hr, hholds⟩
      · rintro ⟨r, hr, hholds⟩
        rcases List.mem_append.mp hr with hr | hr
        · exact ⟨r, hr, hholds⟩
        · rw [List.mem_singleton.mp hr] at hholds
          exact absurd hholds (HomeRun.not_holds_of_lt (ho.1.symm ▸ hdone d hd))
    · rw [List.mem_singleton.mp hd]
      exact ⟨fun _ => ⟨o, List.mem_append_right _ List.mem_cons_self, hnew⟩, fun _ => hs⟩
  gaps a b hab hgap r hr hboth := by
    have hmem : ∀ d ∈ done, r.Holds d.timestamp → r ∈ out := by
      intro d hd hholds
      rcases List.mem_append.mp hr with hr | hr
      · exact hr
      · rw [List.mem_singleton.mp hr] at hholds
        exact absurd hholds (HomeRun.not_holds_of_lt (ho.1.symm ▸ hdone d hd))
    rcases adjacent_concat.mp hab with hab | ⟨hlast, rfl⟩
    · exact h.gaps a b hab hgap r (hmem a (mem_of_adjacent hab).1 hboth.1) hboth
    · have hout := hmem a (List.mem_of_getLast? hlast) hboth.1
      exact HomeRun.not_holds_of_ended (hended r hout).1 (hended r hout).2 hboth.2
  joined a b hab hgap hra hrb := by
    rcases adjacent_concat.mp hab with hab | ⟨hlast, rfl⟩
    · obtain ⟨r, hr, hboth⟩ := h.joined a b hab hgap hra hrb
      exact ⟨r, List.mem_append_left _ hr, hboth⟩
    · rcases hfirst a hlast with hg | hnot
      · exact absurd hg hgap
      · exact absurd hra hnot

/-- A running sample right after another goes on with its run. -/
lemma goOn (h : RunsOf done (out ++ [o])) (hs : isRunning s) (hopen : o.endS = 0)
    {last : TelemetrySample} (hlast : done.getLast? = some last) (hle : o.start ≤ last.timestamp)
    (hlt : last.timestamp < s.timestamp) (hgap : ¬ GapBetween last s) :
    RunsOf (done ++ [s]) (out ++ [o]) where
  order := h.order
  covers d hd := by
    rcases List.mem_append.mp hd with hd | hd
    · exact h.covers d hd
    · rw [List.mem_singleton.mp hd]
      exact ⟨fun _ => ⟨o, List.mem_append_right _ List.mem_cons_self,
        UInt32.le_trans hle (UInt32.le_of_lt hlt), .inl hopen⟩, fun _ => hs⟩
  gaps a b hab hg r hr hboth := by
    rcases adjacent_concat.mp hab with hab | ⟨hlast', rfl⟩
    · exact h.gaps a b hab hg r hr hboth
    · rw [hlast] at hlast'
      obtain rfl := Option.some.inj hlast'
      exact hgap hg
  joined a b hab hg hra hrb := by
    rcases adjacent_concat.mp hab with hab | ⟨hlast', rfl⟩
    · exact h.joined a b hab hg hra hrb
    · rw [hlast] at hlast'
      obtain rfl := Option.some.inj hlast'
      exact ⟨o, List.mem_append_right _ List.mem_cons_self, ⟨hle, .inl hopen⟩,
        UInt32.le_trans hle (UInt32.le_of_lt hlt), .inl hopen⟩

end RunsOf

/-! ### The pass with room for every run -/

/-- The runs so far, the one in progress last. -/
def HomeScan.runs (c : HomeScan) : List HomeRun := c.out ++ if c.isOpen then [c.opened] else []

/-- The pass after the samples `done`. -/
structure Scanned (done : List TelemetrySample) (c : HomeScan) : Prop where
  runsOf : RunsOf done c.runs
  prev : c.prev = done.getLast?
  isOpen : c.isOpen = done.getLast?.any isRunning
  length : c.runs.length ≤ done.length
  opened : c.isOpen → c.opened.endS = 0 ∧
    ∀ last, done.getLast? = some last → c.opened.start ≤ last.timestamp
  ended : ∀ r ∈ c.out, r.start < r.endS ∧
    ∀ last, done.getLast? = some last → r.endS ≤ last.timestamp
  last : c.sum.last = c.out.getLast?.getD {}
  current : c.sum.current = {}

/-- The timestamps rise. -/
def TimestampsRise (samples : List TelemetrySample) : Prop :=
  samples.Pairwise fun a b => a.timestamp < b.timestamp

section Scanned

variable {done : List TelemetrySample} {c c' : HomeScan} {s : TelemetrySample} {cap : ℕ}
  {now : UInt32}

/-- After a gap there is time for an interval. -/
lemma add_interval_lt {a b : UInt32} (hlt : a < b) (hgap : b - a > gapSeconds) :
    a < a + telemetrySampleIntervalSec ∧ a + telemetrySampleIntervalSec < b := by
  have hab := UInt32.lt_iff_toNat_lt.mp hlt
  have hsub := UInt32.lt_iff_toNat_lt.mp hgap
  have hb := b.toNat_lt
  rw [UInt32.toNat_sub_of_le _ _ (UInt32.le_of_lt hlt)] at hsub
  have hconst : gapSeconds.toNat = 90 := rfl
  have hadd : (a + telemetrySampleIntervalSec).toNat = a.toNat + 30 := by
    rw [UInt32.toNat_add]
    exact Nat.mod_eq_of_lt (by show a.toNat + 30 < 2 ^ 32; omega)
  rw [UInt32.lt_iff_toNat_lt, UInt32.lt_iff_toNat_lt, hadd]
  omega

lemma pushRun_of_lt {out : List HomeRun} {run : HomeRun} (h : out.length < cap) :
    pushRun out cap run = out ++ [run] := by
  rw [pushRun, if_neg (by omega), if_neg (by omega)]

/-- The time the run in progress ends at lies after the last sample and not after this one. -/
lemma Scanned.closingTime (h : Scanned done c) {last : TelemetrySample}
    (hlast : done.getLast? = some last) (hlt : last.timestamp < s.timestamp) :
    last.timestamp < c.closingTime s ∧ c.closingTime s ≤ s.timestamp := by
  have hprev : c.prev = some last := h.prev.trans hlast
  rw [HomeScan.closingTime, hprev]
  dsimp only
  split
  · next hgap =>
      rw [HomeScan.gap, hprev] at hgap
      obtain ⟨hlo, hhi⟩ := add_interval_lt hlt (of_decide_eq_true hgap)
      exact ⟨hlo, UInt32.le_of_lt hhi⟩
  · exact ⟨hlt, UInt32.le_refl _⟩

/-- Before the first sample. -/
lemma scanned_start : Scanned [] {} :=
  ⟨.nil, rfl, rfl, le_rfl, nofun, nofun, rfl, rfl⟩

/-- Every sample so far lies before the next one. -/
lemma TimestampsRise.lt_of_mem (h : TimestampsRise (done ++ [s])) :
    ∀ d ∈ done, d.timestamp < s.timestamp := fun d hd =>
  (List.pairwise_append.mp h).2.2 d hd s List.mem_cons_self

/-- No sample so far lies after the last one. -/
lemma TimestampsRise.le_last (h : TimestampsRise done) {last : TelemetrySample}
    (hlast : done.getLast? = some last) : ∀ d ∈ done, d.timestamp ≤ last.timestamp := by
  obtain ⟨pre, rfl⟩ := List.getLast?_eq_some_iff.mp hlast
  intro d hd
  rcases List.mem_append.mp hd with hd | hd
  · exact UInt32.le_of_lt (h.lt_of_mem d hd)
  · rw [List.mem_singleton.mp hd]
    exact UInt32.le_refl _

/-- There is a last sample while a run is in progress. -/
lemma Scanned.last_of_open (h : Scanned done c) (hopen : c.isOpen) :
    ∃ last, done.getLast? = some last := by
  have hany := h.isOpen.symm.trans hopen
  cases hl : done.getLast? with
  | none =>
      rw [hl] at hany
      cases hany
  | some last => exact ⟨last, rfl⟩

/-- A sample ends the run in progress: the runs with its end, before the sample comes in. -/
lemma Scanned.closed (h : Scanned done c) (hrise : TimestampsRise (done ++ [s])) (hopen : c.isOpen) :
    RunsOf done (c.out ++ [{ c.opened with endS := c.closingTime s }]) ∧
      c.opened.start < c.closingTime s ∧ c.closingTime s ≤ s.timestamp := by
  obtain ⟨last, hlast⟩ := h.last_of_open hopen
  have hlt := hrise.lt_of_mem last (List.mem_of_getLast? hlast)
  obtain ⟨hlo, hhi⟩ := h.closingTime hlast hlt
  obtain ⟨hzero, hstart⟩ := h.opened hopen
  have hruns := h.runsOf
  rw [HomeScan.runs, if_pos hopen] at hruns
  have hdone : TimestampsRise done := (List.pairwise_append.mp hrise).1
  refine ⟨hruns.close hzero fun d hd => ?_, UInt32.lt_of_le_of_lt (hstart last hlast) hlo, hhi⟩
  exact UInt32.lt_of_le_of_lt (hdone.le_last hlast d hd) hlo

lemma ne_zero_of_lt {a b : UInt32} (h : a < b) : b ≠ 0 := by
  rintro rfl
  exact UInt32.not_lt_zero h

/-- A sample that goes on with no run: what it leaves. -/
lemma scanned_fresh (hstepped : c.Stepped cap s c') (hgoes : isRunning s → ¬ (c.isOpen ∧ ¬ c.gap s))
    (hdone : ∀ d ∈ done, d.timestamp < s.timestamp) (hruns : RunsOf done c'.out)
    (hended : ∀ r ∈ c'.out, r.start < r.endS ∧ r.endS ≤ s.timestamp)
    (hfirst : isRunning s → ∀ last, done.getLast? = some last →
      GapBetween last s ∨ ¬ isRunning last)
    (hlength : c'.out.length ≤ done.length) (hlast : c'.sum.last = c'.out.getLast?.getD {})
    (hcurrent : c'.sum.current = {}) : Scanned (done ++ [s]) c' := by
  have hlast' : (done ++ [s]).getLast? = some s := List.getLast?_concat
  have hbound : ∀ last, (done ++ [s]).getLast? = some last → s = last := fun last hl =>
    Option.some.inj (hlast'.symm.trans hl)
  have hopened : isRunning s → c'.opened.start = s.timestamp ∧ c'.opened.endS = 0 := by
    intro hr
    rw [hstepped.opened hr, HomeScan.following, if_neg (hgoes hr)]
    exact ⟨rfl, rfl⟩
  have hclosed : ∀ r ∈ c'.out, r.endS ≠ 0 ∧ r.endS ≤ s.timestamp := fun r hr =>
    ⟨ne_zero_of_lt (hended r hr).1, (hended r hr).2⟩
  refine ⟨?_, hstepped.prev.trans hlast'.symm, ?_, ?_, fun hopen => ?_, fun r hr => ?_, hlast,
    hcurrent⟩
  · rw [HomeScan.runs, hstepped.isOpen]
    by_cases hr : isRunning s
    · rw [if_pos hr]
      exact hruns.begin hr (hopened hr) hdone hclosed (hfirst hr)
    · rw [if_neg hr, List.append_nil]
      exact hruns.stopped hr fun r hmem =>
        HomeRun.not_holds_of_ended (hclosed r hmem).1 (hclosed r hmem).2
  · rw [hstepped.isOpen, hlast']
    rfl
  · rw [HomeScan.runs, List.length_append, List.length_append]
    split <;> simp only [List.length_cons, List.length_nil] <;> omega
  · obtain ⟨hstart, hzero⟩ := hopened (hstepped.isOpen ▸ hopen)
    refine ⟨hzero, fun last hl => ?_⟩
    rw [hstart, hbound last hl]
    exact UInt32.le_refl _
  · refine ⟨(hended r hr).1, fun last hl => ?_⟩
    rw [← hbound last hl]
    exact (hended r hr).2

/-- **The step lemma**: one more sample. -/
lemma Scanned.step (h : Scanned done c) (hrise : TimestampsRise (done ++ [s]))
    (hcap : done.length < cap) : Scanned (done ++ [s]) (c.step cap now s) := by
  have hstepped := HomeScan.step_stepped cap now c s
  generalize c.step cap now s = c' at hstepped
  have hdone := hrise.lt_of_mem
  have hout := hstepped.out
  have hlastRun := hstepped.last
  have hcurrent := hstepped.current.trans h.current
  have hlength := h.length
  rw [HomeScan.runs, List.length_append] at hlength
  have hended : ∀ r ∈ c.out, r.start < r.endS ∧ r.endS ≤ s.timestamp := by
    intro r hr
    refine ⟨(h.ended r hr).1, ?_⟩
    cases hl : done.getLast? with
    | none =>
        rw [List.getLast?_eq_none_iff] at hl
        rw [hl] at hlength
        have hnil : c.out = [] := List.length_eq_zero_iff.mp (by
          rw [List.length_nil] at hlength
          omega)
        rw [hnil] at hr
        exact absurd hr List.not_mem_nil
    | some last =>
        exact UInt32.le_trans ((h.ended r hr).2 last hl)
          (UInt32.le_of_lt (hdone last (List.mem_of_getLast? hl)))
  by_cases hopen : c.isOpen
  swap
  · -- no run is in progress
    have hnone : c.closing s = none := if_neg fun hc => hopen hc.1
    rw [hnone] at hout hlastRun
    have hruns := h.runsOf
    rw [HomeScan.runs, if_neg hopen, List.append_nil] at hruns
    refine scanned_fresh hstepped (fun _ hg => hopen hg.1) hdone (hout ▸ hruns) (hout ▸ hended)
      (fun _ last hl => .inr fun hr => hopen ?_) ?_ ?_ hcurrent
    · rw [h.isOpen, hl]
      exact hr
    · rw [hout]
      exact (Nat.le_add_right _ _).trans hlength
    · rw [hout]
      exact hlastRun.trans h.last
  rw [if_pos hopen] at hlength
  by_cases hgoes : ¬ c.gap s ∧ isRunning s
  · -- the run goes on
    have hnone : c.closing s = none :=
      if_neg fun hc => hc.2.elim (fun hg => hgoes.1 hg) fun hn => hn hgoes.2
    have hopened := hstepped.opened hgoes.2
    rw [HomeScan.following, if_pos ⟨hopen, hgoes.1⟩] at hopened
    rw [hnone] at hout hlastRun
    obtain ⟨last, hlast⟩ := h.last_of_open hopen
    have hprev : c.prev = some last := h.prev.trans hlast
    have hlt := hdone last (List.mem_of_getLast? hlast)
    have hgap : ¬ GapBetween last s := by
      have hg := hgoes.1
      rw [HomeScan.gap, hprev] at hg
      exact fun hbetween => hg (decide_eq_true hbetween)
    obtain ⟨hzero, hstart⟩ := h.opened hopen
    have hlast' : (done ++ [s]).getLast? = some s := List.getLast?_concat
    have hbound : ∀ last, (done ++ [s]).getLast? = some last → s = last := fun last hl =>
      Option.some.inj (hlast'.symm.trans hl)
    have hruns := h.runsOf
    rw [HomeScan.runs, if_pos hopen] at hruns
    refine ⟨?_, hstepped.prev.trans hlast'.symm, ?_, ?_, fun _ => ?_, fun r hr => ?_, ?_, hcurrent⟩
    · rw [HomeScan.runs, hstepped.isOpen, if_pos hgoes.2, hout, hopened]
      exact hruns.goOn hgoes.2 hzero hlast (hstart last hlast) hlt hgap
    · rw [hstepped.isOpen, hlast']
      rfl
    · rw [HomeScan.runs, hstepped.isOpen, if_pos hgoes.2, hout, List.length_append,
        List.length_append]
      exact hlength.trans (Nat.le_add_right _ _)
    · rw [hopened]
      refine ⟨hzero, fun last' hl => ?_⟩
      rw [← hbound last' hl]
      exact UInt32.le_trans (hstart last hlast) (UInt32.le_of_lt hlt)
    · rw [hout] at hr
      refine ⟨(hended r hr).1, fun last' hl => ?_⟩
      rw [← hbound last' hl]
      exact (hended r hr).2
    · rw [hout]
      exact hlastRun.trans h.last
  · -- the run ends here or at the gap before
    have hcloses : c.gap s ∨ ¬ isRunning s := by
      by_cases hg : c.gap s
      · exact .inl hg
      · exact .inr fun hr => hgoes ⟨hg, hr⟩
    have hsome : c.closing s = some { c.opened with endS := c.closingTime s } :=
      if_pos ⟨hopen, hcloses⟩
    rw [hsome] at hout hlastRun
    obtain ⟨hruns, hlt, hle⟩ := h.closed hrise hopen
    have hpush : pushRun c.out cap { c.opened with endS := c.closingTime s }
        = c.out ++ [{ c.opened with endS := c.closingTime s }] :=
      pushRun_of_lt (by simp only [List.length_cons, List.length_nil] at hlength; omega)
    replace hout : c'.out = c.out ++ [{ c.opened with endS := c.closingTime s }] :=
      hout.trans hpush
    have hgoes' : isRunning s → c.gap s := fun hr => hcloses.resolve_right (not_not.mpr hr)
    refine scanned_fresh hstepped (fun hr hg => hg.2 (hgoes' hr)) hdone (hout ▸ hruns)
      (fun r hr => ?_) (fun hr last hl => .inl ?_) ?_ ?_ hcurrent
    · rw [hout] at hr
      rcases List.mem_append.mp hr with hr | hr
      · exact hended r hr
      · rw [List.mem_singleton.mp hr]
        exact ⟨hlt, hle⟩
    · have hg := hgoes' hr
      rw [HomeScan.gap, h.prev.trans hl] at hg
      exact of_decide_eq_true hg
    · rw [hout, List.length_append]
      exact hlength
    · rw [hout, List.getLast?_concat]
      exact hlastRun

/-- **The run lemma**: any more samples. -/
lemma Scanned.scan : ∀ (rest : List TelemetrySample) {done : List TelemetrySample} {c : HomeScan},
    Scanned done c → TimestampsRise (done ++ rest) → (done ++ rest).length ≤ cap →
    Scanned (done ++ rest) (c.scan cap now rest) := by
  intro rest
  induction rest with
  | nil =>
      intro done c h _ _
      rw [List.append_nil]
      exact h
  | cons s rest ih =>
      intro done c h hrise hcap
      have hsplit : done ++ s :: rest = (done ++ [s]) ++ rest := by simp
      rw [hsplit] at hrise hcap ⊢
      have hlt : done.length < cap := by
        simp only [List.length_append, List.length_cons, List.length_nil] at hcap
        omega
      exact ih (h.step (List.pairwise_append.mp hrise).1 hlt) hrise hcap

/-- The runs of the samples at `now`: one after the other, every running sample in exactly one,
none across a gap, and one in progress exactly if the last sample is a recent running one. -/
structure RunsExact (samples : List TelemetrySample) (now : UInt32) (runs : List HomeRun) : Prop where
  order : runs.Pairwise HomeRun.Before
  exactly_one : ∀ s ∈ samples, isRunning s ↔ ∃! r, r ∈ runs ∧ r.Holds s.timestamp
  gaps : ∀ a b, Adjacent samples a b → GapBetween a b →
    ∀ r ∈ runs, ¬ (r.Holds a.timestamp ∧ r.Holds b.timestamp)
  joined : ∀ a b, Adjacent samples a b → ¬ GapBetween a b → isRunning a → isRunning b →
    ∃ r ∈ runs, r.Holds a.timestamp ∧ r.Holds b.timestamp
  in_progress : (∃ r ∈ runs, r.endS = 0) ↔
    ∃ last, samples.getLast? = some last ∧ isRunning last ∧ HomeScan.Recent now last

/-- Of runs one after the other only one covers a time. -/
lemma unique_of_order {runs : List HomeRun} (h : runs.Pairwise HomeRun.Before) {t : UInt32} :
    ∀ {r r' : HomeRun}, r ∈ runs → r' ∈ runs → r.Holds t → r'.Holds t → r = r' := by
  induction h with
  | nil => exact fun h => absurd h List.not_mem_nil
  | @cons first rest hfirst _ ih =>
      have hnot : ∀ r ∈ rest, first.Holds t → ¬ r.Holds t := by
        intro r hr hholds hholds'
        obtain ⟨hne, hle⟩ := hfirst r hr
        exact HomeRun.not_holds_of_ended hne (UInt32.le_trans hle hholds'.1) hholds
      intro r r' hr hr' hholds hholds'
      rcases List.mem_cons.mp hr with heq | hr <;> rcases List.mem_cons.mp hr' with heq' | hr'
      · exact heq.trans heq'.symm
      · exact absurd hholds' (hnot r' hr' (heq ▸ hholds))
      · exact absurd hholds (hnot r hr (heq' ▸ hholds'))
      · exact ih hr hr' hholds hholds'

lemma RunsOf.exactly_one {samples : List TelemetrySample} {runs : List HomeRun}
    (h : RunsOf samples runs) {s : TelemetrySample} (hs : s ∈ samples) :
    isRunning s ↔ ∃! r, r ∈ runs ∧ r.Holds s.timestamp := by
  rw [h.covers s hs]
  constructor
  · rintro ⟨r, hr, hholds⟩
    exact ⟨r, ⟨hr, hholds⟩, fun r' hr' => unique_of_order h.order hr'.1 hr hr'.2 hholds⟩
  · rintro ⟨r, ⟨hr, hholds⟩, -⟩
    exact ⟨r, hr, hholds⟩

/-- The summary shows the newest of the ended runs and the one in progress. -/
def Summarizes (sum : HomeRunSummary) (runs : List HomeRun) : Prop :=
  sum.last = (runs.filter fun r => r.endS ≠ 0).getLast?.getD {} ∧
    sum.current = (runs.find? fun r => r.endS = 0).getD {}

lemma filter_ended {out : List HomeRun} (h : ∀ r ∈ out, r.endS ≠ 0) :
    out.filter (fun r => r.endS ≠ 0) = out :=
  List.filter_eq_self.mpr fun r hr => decide_eq_true (h r hr)

lemma find_ended {out : List HomeRun} (h : ∀ r ∈ out, r.endS ≠ 0) :
    out.find? (fun r => r.endS = 0) = none :=
  List.find?_eq_none.mpr fun r hr hzero => h r hr (of_decide_eq_true hzero)

/-- The end of the samples. -/
lemma Scanned.finish (h : Scanned done c) (hrise : TimestampsRise done) (hcap : done.length ≤ cap)
    (hwrap : ∀ last, done.getLast? = some last → isRunning last → ¬ HomeScan.Recent now last →
      last.timestamp < last.timestamp + telemetrySampleIntervalSec) :
    RunsExact done now (c.finish cap now).out ∧
      Summarizes (c.finish cap now).sum (c.finish cap now).out := by
  have hended : ∀ r ∈ c.out, r.endS ≠ 0 := fun r hr => ne_zero_of_lt (h.ended r hr).1
  have hlength := h.length
  have hruns := h.runsOf
  rw [HomeScan.runs] at hlength hruns
  by_cases hopen : c.isOpen
  swap
  · rw [if_neg hopen, List.append_nil] at hruns
    rw [HomeScan.finish_idle hopen]
    refine ⟨⟨hruns.order, fun s hs => hruns.exactly_one hs, hruns.gaps, hruns.joined, ?_⟩, ?_, ?_⟩
    · constructor
      · rintro ⟨r, hr, hzero⟩
        exact absurd hzero (hended r hr)
      · rintro ⟨last, hlast, hr, -⟩
        refine absurd ?_ hopen
        rw [h.isOpen, hlast]
        exact hr
    · rw [h.last, filter_ended hended]
    · rw [h.current, find_ended hended]
      rfl
  obtain ⟨last, hlast⟩ := h.last_of_open hopen
  obtain ⟨hzero, hstart⟩ := h.opened hopen
  rw [if_pos hopen] at hruns hlength
  have hprev : c.prev = some last := h.prev.trans hlast
  have hrunning : isRunning last := by
    have hany := h.isOpen.symm.trans hopen
    rw [hlast] at hany
    exact hany
  have hroom : c.out.length < cap := by
    simp only [List.length_append, List.length_cons, List.length_nil] at hlength
    omega
  by_cases hrecent : HomeScan.Recent now last
  · -- the run is in progress
    have hsame : ({ c.opened with endS := 0 } : HomeRun) = c.opened := by rw [← hzero]
    rw [HomeScan.finish_recent hprev hopen hrecent, pushRun_of_lt hroom, hsame]
    refine ⟨⟨hruns.order, fun s hs => hruns.exactly_one hs, hruns.gaps, hruns.joined, ?_⟩, ?_, ?_⟩
    · exact ⟨fun _ => ⟨last, hlast, hrunning, hrecent⟩, fun _ =>
        ⟨c.opened, List.mem_append_right _ List.mem_cons_self, hzero⟩⟩
    · have hone : [c.opened].filter (fun r => r.endS ≠ 0) = [] := by simp [hzero]
      rw [List.filter_append, filter_ended hended, hone, List.append_nil]
      exact h.last
    · have hone : [c.opened].find? (fun r => r.endS = 0) = some c.opened := by simp [hzero]
      rw [List.find?_append, find_ended hended, hone]
      rfl
  · -- it ended an interval after its last sample
    have hlt := hwrap last hlast hrunning hrecent
    have hclosed := hruns.close hzero fun d hd =>
      UInt32.lt_of_le_of_lt (hrise.le_last hlast d hd) hlt
    have hall : ∀ r ∈ c.out ++
        [{ c.opened with endS := last.timestamp + telemetrySampleIntervalSec }], r.endS ≠ 0 := by
      intro r hr
      rcases List.mem_append.mp hr with hr | hr
      · exact hended r hr
      · rw [List.mem_singleton.mp hr]
        exact ne_zero_of_lt hlt
    rw [HomeScan.finish_stale hprev hopen hrecent, pushRun_of_lt hroom]
    refine ⟨⟨hclosed.order, fun s hs => hclosed.exactly_one hs, hclosed.gaps, hclosed.joined, ?_⟩,
      ?_, ?_⟩
    · constructor
      · rintro ⟨r, hr, hz⟩
        exact absurd hz (hall r hr)
      · rintro ⟨last', hl, -, hrec⟩
        rw [hlast] at hl
        obtain rfl := Option.some.inj hl
        exact absurd hrec hrecent
    · rw [filter_ended hall, List.getLast?_concat]
      rfl
    · rw [find_ended hall]
      exact h.current

end Scanned

/-! ### The pass with less room -/

/-- A full list gives up its oldest run. -/
lemma pushRun_rtake (cap : ℕ) (all : List HomeRun) (run : HomeRun) :
    pushRun (all.rtake cap) cap run = (all ++ [run]).rtake cap := by
  rw [pushRun]
  split
  · next hzero =>
      subst hzero
      rw [List.rtake_zero, List.rtake_zero]
  · next hne =>
      have hlength : (all.rtake cap).length = min cap all.length := by
        rw [List.rtake, List.length_drop]
        omega
      split
      · next hfull =>
          rw [List.drop_one, rtake_concat (by omega) (by omega)]
      · next hroom =>
          have hall : all.rtake cap = all := by
            rw [List.rtake, Nat.sub_eq_zero_of_le (by omega), List.drop_zero]
          rw [hall, List.rtake, List.length_append, List.length_singleton,
            Nat.sub_eq_zero_of_le (by omega), List.drop_zero]

/-- Two passes over the same samples, whatever runs they have written. -/
structure SameRuns (c c' : HomeScan) : Prop where
  prev : c.prev = c'.prev
  isOpen : c.isOpen = c'.isOpen
  opened : c'.isOpen → c.opened = c'.opened
  last : c.sum.last = c'.sum.last
  current : c.sum.current = c'.sum.current

section SameRuns

variable {cap cap' : ℕ} {now now' : UInt32} {c c' : HomeScan} {s : TelemetrySample}

lemma gap_congr (h : c.prev = c'.prev) (s : TelemetrySample) : c.gap s = c'.gap s := by
  rw [HomeScan.gap, HomeScan.gap, h]

lemma startSeen_congr (h : c.prev = c'.prev) (s : TelemetrySample) :
    c.startSeen s = c'.startSeen s := by
  rw [HomeScan.startSeen, HomeScan.startSeen, h, gap_congr h]

lemma closingTime_congr (h : c.prev = c'.prev) (s : TelemetrySample) :
    c.closingTime s = c'.closingTime s := by
  rw [HomeScan.closingTime, HomeScan.closingTime, h, gap_congr h]

lemma SameRuns.closing (h : SameRuns c c') (s : TelemetrySample) : c.closing s = c'.closing s := by
  rw [HomeScan.closing, HomeScan.closing, h.isOpen, gap_congr h.prev, closingTime_congr h.prev]
  by_cases hclose : c'.isOpen ∧ (c'.gap s ∨ ¬ isRunning s)
  · rw [if_pos hclose, if_pos hclose, h.opened hclose.1]
  · rw [if_neg hclose, if_neg hclose]

lemma SameRuns.following (h : SameRuns c c') (s : TelemetrySample) :
    c.following s = c'.following s := by
  rw [HomeScan.following, HomeScan.following, h.isOpen, gap_congr h.prev, startSeen_congr h.prev]
  by_cases hgoes : c'.isOpen ∧ ¬ c'.gap s
  · rw [if_pos hgoes, if_pos hgoes, h.opened hgoes.1]
  · rw [if_neg hgoes, if_neg hgoes]

lemma SameRuns.step (h : SameRuns c c') :
    SameRuns (c.step cap now s) (c'.step cap' now' s) := by
  have hstepped := HomeScan.step_stepped cap now c s
  have hstepped' := HomeScan.step_stepped cap' now' c' s
  refine ⟨hstepped.prev.trans hstepped'.prev.symm, hstepped.isOpen.trans hstepped'.isOpen.symm,
    fun hopen => ?_, ?_, ?_⟩
  · have hr : isRunning s := hstepped'.isOpen ▸ hopen
    rw [hstepped.opened hr, hstepped'.opened hr, h.following]
  · rw [hstepped.last, hstepped'.last, h.closing, h.last]
  · rw [hstepped.current, hstepped'.current, h.current]

lemma SameRuns.scan : ∀ (samples : List TelemetrySample) {c c' : HomeScan}, SameRuns c c' →
    SameRuns (c.scan cap now samples) (c'.scan cap' now' samples) := by
  intro samples
  induction samples with
  | nil => exact fun h => h
  | cons s samples ih => exact fun h => ih h.step

lemma SameRuns.finish (h : SameRuns c c') :
    (c.finish cap now).sum.last = (c'.finish cap' now).sum.last ∧
      (c.finish cap now).sum.current = (c'.finish cap' now).sum.current := by
  by_cases hopen : c'.isOpen
  swap
  · rw [HomeScan.finish_idle hopen, HomeScan.finish_idle (h.isOpen ▸ hopen)]
    exact ⟨h.last, h.current⟩
  have hopen' : c.isOpen := h.isOpen ▸ hopen
  cases hprev : c'.prev with
  | none =>
      have hsame : c'.finish cap' now = c' := by rw [HomeScan.finish, hprev]
      have hsame' : c.finish cap now = c := by rw [HomeScan.finish, h.prev.trans hprev]
      rw [hsame, hsame']
      exact ⟨h.last, h.current⟩
  | some last =>
      have hprev' : c.prev = some last := h.prev.trans hprev
      by_cases hrecent : HomeScan.Recent now last
      · rw [HomeScan.finish_recent hprev hopen hrecent,
          HomeScan.finish_recent hprev' hopen' hrecent, h.opened hopen]
        exact ⟨h.last, rfl⟩
      · rw [HomeScan.finish_stale hprev hopen hrecent,
          HomeScan.finish_stale hprev' hopen' hrecent, h.opened hopen]
        exact ⟨rfl, h.current⟩

end SameRuns

/-- Two passes over the same samples: `c` keeps the newest `cap` runs of `c'`. -/
structure Agrees (cap : ℕ) (c c' : HomeScan) : Prop where
  same : SameRuns c c'
  out : c.out = c'.out.rtake cap

section Agrees

variable {cap full : ℕ} {now : UInt32} {c c' : HomeScan} {s : TelemetrySample}

lemma Agrees.step (h : Agrees cap c c') (hroom : c'.out.length < full) :
    Agrees cap (c.step cap now s) (c'.step full now s) := by
  have hstepped := HomeScan.step_stepped cap now c s
  have hstepped' := HomeScan.step_stepped full now c' s
  refine ⟨h.same.step, ?_⟩
  rw [hstepped.out, hstepped'.out, h.same.closing s]
  cases c'.closing s with
  | none => exact h.out
  | some run =>
      rw [Option.elim_some, Option.elim_some, pushRun_of_lt hroom, h.out]
      exact pushRun_rtake cap c'.out run

lemma Agrees.finish (h : Agrees cap c c') (hroom : c'.isOpen → c'.out.length < full) :
    (c.finish cap now).out = (c'.finish full now).out.rtake cap := by
  by_cases hopen : c'.isOpen
  swap
  · rw [HomeScan.finish_idle hopen, HomeScan.finish_idle (h.same.isOpen ▸ hopen)]
    exact h.out
  have hopen' : c.isOpen := h.same.isOpen ▸ hopen
  cases hprev : c'.prev with
  | none =>
      have hsame : c'.finish full now = c' := by rw [HomeScan.finish, hprev]
      have hsame' : c.finish cap now = c := by rw [HomeScan.finish, h.same.prev.trans hprev]
      rw [hsame, hsame']
      exact h.out
  | some last =>
      have hprev' : c.prev = some last := h.same.prev.trans hprev
      by_cases hrecent : HomeScan.Recent now last
      · rw [HomeScan.finish_recent hprev hopen hrecent,
          HomeScan.finish_recent hprev' hopen' hrecent, h.same.opened hopen]
        dsimp only
        rw [pushRun_of_lt (hroom hopen), h.out]
        exact pushRun_rtake cap c'.out _
      · rw [HomeScan.finish_stale hprev hopen hrecent,
          HomeScan.finish_stale hprev' hopen' hrecent, h.same.opened hopen]
        dsimp only
        rw [pushRun_of_lt (hroom hopen), h.out]
        exact pushRun_rtake cap c'.out _

/-- The two passes agree over any samples. -/
lemma Agrees.scan : ∀ (rest : List TelemetrySample) {done : List TelemetrySample} {c c' : HomeScan},
    Agrees cap c c' → Scanned done c' → TimestampsRise (done ++ rest) →
    (done ++ rest).length ≤ full →
    Agrees cap (c.scan cap now rest) (c'.scan full now rest) := by
  intro rest
  induction rest with
  | nil => exact fun h _ _ _ => h
  | cons s rest ih =>
      intro done c c' h hscanned hrise hfull
      have hsplit : done ++ s :: rest = (done ++ [s]) ++ rest := by simp
      rw [hsplit] at hrise hfull
      have hlt : done.length < full := by
        simp only [List.length_append, List.length_cons, List.length_nil] at hfull
        omega
      have hout : c'.out.length < full := by
        have hlength := hscanned.length
        rw [HomeScan.runs, List.length_append] at hlength
        omega
      exact ih (h.step hout) (hscanned.step (List.pairwise_append.mp hrise).1 hlt) hrise hfull

end Agrees

/-! ### The runs of any samples -/

/-- **The runs are reconstructed exactly.** With room for every run the pass returns the runs of
the samples, with less room the newest of them, and the summary shows the newest ended run and
the one in progress; the end of a last run that is over has to fit. -/
theorem home_runs_exact (samples : List TelemetrySample) (now : UInt32)
    (hrise : TimestampsRise samples)
    (hwrap : ∀ last, samples.getLast? = some last → isRunning last →
      ¬ HomeScan.Recent now last → last.timestamp < last.timestamp + telemetrySampleIntervalSec) :
    let runs := (homeStatsRuns samples now samples.length).1
    RunsExact samples now runs ∧
      ∀ cap, (homeStatsRuns samples now cap).1 = runs.rtake cap ∧
        Summarizes (homeStatsRuns samples now cap).2 runs := by
  intro runs
  have hscanned : Scanned samples (HomeScan.scan samples.length now {} samples) :=
    scanned_start.scan samples hrise le_rfl
  obtain ⟨hexact, hsum⟩ := hscanned.finish hrise le_rfl hwrap
  refine ⟨hexact, fun cap => ?_⟩
  have hagrees : Agrees cap (HomeScan.scan cap now {} samples)
      (HomeScan.scan samples.length now {} samples) := by
    refine Agrees.scan samples ⟨⟨rfl, rfl, fun _ => rfl, rfl, rfl⟩, ?_⟩ scanned_start hrise le_rfl
    exact (List.rtake_nil _).symm
  have hroom : (HomeScan.scan samples.length now {} samples).isOpen →
      (HomeScan.scan samples.length now {} samples).out.length < samples.length := by
    intro hopen
    have hlength := hscanned.length
    rw [HomeScan.runs, if_pos hopen, List.length_append, List.length_singleton] at hlength
    omega
  obtain ⟨hlast, hcurrent⟩ := hagrees.same.finish
  exact ⟨hagrees.finish hroom, hlast.trans hsum.1, hcurrent.trans hsum.2⟩

/-- A sample of a compressor that heats, or stands. -/
def sampleAt (running : Bool) (timestamp : UInt32) : TelemetrySample :=
  { timestamp
    mode := 1
    flags := if running then telemetryCompressorValid ||| telemetryCompressorRunning
      else telemetryCompressorValid }

/-- A run that stops, one that an outage cuts off and one still going on. -/
theorem home_runs_exact_outage :
    let samples := [sampleAt false 1000, sampleAt true 1030, sampleAt false 1060, sampleAt true 1090,
      sampleAt true 1300]
    let runs : List HomeRun := [{ start := 1030, endS := 1060, mode := 1, seenStart := true },
      { start := 1090, endS := 1120, mode := 1, seenStart := true }, { start := 1300, mode := 1 }]
    RunsExact samples 1310 runs ∧ (homeStatsRuns samples 1310 2).1 = runs.rtake 2 ∧
      Summarizes (homeStatsRuns samples 1310 2).2 runs := by
  intro samples runs
  have hruns : (homeStatsRuns samples 1310 samples.length).1 = runs := by decide +kernel
  have h := home_runs_exact samples 1310 (by unfold TimestampsRise; decide +kernel) (by
    intro last hlast _ hstale
    obtain rfl := Option.some.inj hlast
    exact absurd (by decide +kernel) hstale)
  dsimp only at h
  rw [hruns] at h
  exact ⟨h.1, h.2 2⟩

/-- A run whose end wraps to 0 seems to go on, and a sample newer than `now` is no run in
progress. -/
theorem home_runs_not_exact :
    ((homeStatsRuns [sampleAt true 0xFFFFFFE2] 0 1).1
        = [{ start := 0xFFFFFFE2, endS := 0, mode := 1 }] ∧
      ¬ HomeScan.Recent 0 (sampleAt true 0xFFFFFFE2)) ∧
    (homeStatsRuns [sampleAt true 1000] 990 1).1 = [{ start := 1000, endS := 1030, mode := 1 }] ∧
      (990 : UInt32) ≤ (sampleAt true 1000).timestamp + gapSeconds := by
  decide +kernel

end ArcticController

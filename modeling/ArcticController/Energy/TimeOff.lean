/-
The lifetime totals across time off (`energy_store.cpp`): what becomes of them
when the unit is away for days, months or years between two commits.

* `DayCommit`, `lifetimes`: a sequence of commits and the totals each returns;
* `Near`, `TotalsFit`: the next month lies within the look-back, and no total
  outgrows 32 bits;
* `MonthStore.restarts`: beyond the look-back the totals start from zero, with
  the older month still in the store;
* `lifetimes_continue_iff`: **the totals go on from commit to commit exactly
  when** every month is near the one before and the totals fit.
-/
import ArcticController.Energy.MonthRuns

namespace ArcticController

/-! ### Sequences of commits -/

/-- One call: what `esp_random` returns, the day, and what fails. -/
structure DayCommit where
  random : UInt32
  day : DayRecord
  script : List NvsFault

/-- The call as a step of a run. -/
def DayCommit.step (x : DayCommit) : StoreStep := .commit x.random x.day x.script

/-- The call made on a store. -/
def DayCommit.result (x : DayCommit) (st : StoreState) :
    Result (Nvs EnergyKey) NvsFault (NvsOp EnergyKey) EspErr (Option Lifetime) :=
  storeCommitDay x.random x.day st.nvs x.script

/-- The totals the calls return, one after the other. -/
def lifetimes : StoreState → List DayCommit → List Lifetime
  | _, [] => []
  | st, x :: xs =>
      match (x.result st).out with
      | .val (some life) => life :: lifetimes (st.step x.step) xs
      | _ => lifetimes (st.step x.step) xs

/-- Every call succeeds, and none of its reads fails. -/
def AllSucceed : StoreState → List DayCommit → Prop
  | _, [] => True
  | st, x :: xs =>
      readsSucceed.Covers (x.result st).ops ∧ (∃ life, (x.result st).out = .val (some life)) ∧
        AllSucceed (st.step x.step) xs

/-- The month of `b` is at most as far from that of `a` as the look-back goes. -/
def Near (a b : DayRecord) : Prop :=
  monthIndex (monthOf b.date) ≤ monthIndex (monthOf a.date) + (kMonthsKept + 2)

/-- The totals over the days, as plain numbers, stay below 2³². -/
structure TotalsFit (days : List DayRecord) : Prop where
  elecWh : (days.map fun d => (totalElecWh d).toNat).sum < 2 ^ 32
  thermalWh : ∀ i, (days.map fun d => (d.thermalWh i).toNat).sum < 2 ^ 32
  coveredElecWh : ∀ i, (days.map fun d => (d.coveredElecWh i).toNat).sum < 2 ^ 32
  powerS : (days.map fun d => d.powerS.toNat).sum < 2 ^ 32
  thermalS : (days.map fun d => d.thermalS.toNat).sum < 2 ^ 32

/-! ### Totals that fit -/

lemma TotalsFit.of_append {days rest : List DayRecord} (h : TotalsFit (days ++ rest)) :
    TotalsFit days := by
  obtain ⟨h1, h2, h3, h4, h5⟩ := h
  simp only [List.map_append, List.sum_append] at h1 h2 h3 h4 h5
  exact ⟨by omega, fun i => by have := h2 i; omega, fun i => by have := h3 i; omega, by omega,
    by omega⟩

/-- Totals that fit are the sums over the days. -/
lemma foldDays_toNat {resetId : UInt32} {days : List DayRecord} (h : TotalsFit days) :
    (foldDays resetId days).elecWh.toNat = (days.map fun d => (totalElecWh d).toNat).sum ∧
    (∀ i, ((foldDays resetId days).thermalWh i).toNat
      = (days.map fun d => (d.thermalWh i).toNat).sum) ∧
    (∀ i, ((foldDays resetId days).coveredElecWh i).toNat
      = (days.map fun d => (d.coveredElecWh i).toNat).sum) ∧
    (foldDays resetId days).powerS.toNat = (days.map fun d => d.powerS.toNat).sum ∧
    (foldDays resetId days).thermalS.toNat = (days.map fun d => d.thermalS.toNat).sum := by
  induction days using List.reverseRecOn with
  | nil => exact ⟨rfl, fun _ => rfl, fun _ => rfl, rfl, rfl⟩
  | append_singleton days day ih =>
      obtain ⟨i1, i2, i3, i4, i5⟩ := ih h.of_append
      obtain ⟨h1, h2, h3, h4, h5⟩ := h
      simp only [List.map_append, List.sum_append, List.map_cons, List.map_nil, List.sum_cons,
        List.sum_nil, Nat.add_zero] at h1 h2 h3 h4 h5 ⊢
      rw [foldDays_concat]
      refine ⟨?_, fun i => ?_, fun i => ?_, ?_, ?_⟩
      · rw [← i1] at h1 ⊢
        exact u32_toNat_add h1
      · have hi := h2 i
        rw [← i2 i] at hi ⊢
        exact u32_toNat_add hi
      · have hi := h3 i
        rw [← i3 i] at hi ⊢
        exact u32_toNat_add hi
      · rw [← i4] at h4 ⊢
        exact u32_toNat_add h4
      · rw [← i5] at h5 ⊢
        exact u32_toNat_add h5

/-- One more day wraps no total exactly when the sums still fit. -/
lemma fits_iff_totalsFit {resetId : UInt32} {days : List DayRecord} {day : DayRecord}
    (h : TotalsFit days) : (foldDays resetId days).Fits day ↔ TotalsFit (days ++ [day]) := by
  obtain ⟨i1, i2, i3, i4, i5⟩ := @foldDays_toNat resetId _ h
  constructor
  · intro hfits
    obtain ⟨h1, h2, h3, h4, h5⟩ := hfits
    rw [i1] at h1
    simp only [i2] at h2
    simp only [i3] at h3
    rw [i4] at h4
    rw [i5] at h5
    refine ⟨?_, ?_, ?_, ?_, ?_⟩ <;> simpa using by assumption
  · intro hfits
    obtain ⟨h1, h2, h3, h4, h5⟩ := hfits
    refine ⟨?_, fun i => ?_, fun i => ?_, ?_, ?_⟩
    · rw [i1]; simpa using h1
    · rw [i2 i]; simpa using h2 i
    · rw [i3 i]; simpa using h3 i
    · rw [i4]; simpa using h4
    · rw [i5]; simpa using h5

/-! ### The count of days and the first date -/

/-- There are no more days than dates of 32 bits. -/
lemma length_lt_of_sorted {days : List DayRecord} (hsort : days.Pairwise fun a b => a.date < b.date)
    {day : DayRecord} (hlast : ∀ d ∈ days, d.date < day.date)
    (hpos : ∀ d ∈ days, 0 < d.date.toNat) : days.length < day.date.toNat ∨ days = [] := by
  induction days using List.reverseRecOn generalizing day with
  | nil => exact .inr rfl
  | append_singleton days d ih =>
      left
      obtain ⟨hs, -, hlt⟩ := List.pairwise_append.mp hsort
      have hd := UInt32.lt_iff_toNat_lt.mp (hlast d (by simp))
      have hd0 := hpos d (by simp)
      rw [List.length_append, List.length_singleton]
      obtain hlen | rfl := ih hs (fun e he => hlt e he d (List.mem_singleton_self _))
        (fun e he => hpos e (List.mem_append_left _ he))
      · omega
      · simp only [List.length_nil]
        omega

lemma foldDays_days (resetId : UInt32) (days : List DayRecord) :
    (foldDays resetId days).days.toNat = days.length % 2 ^ 32 := by
  induction days using List.reverseRecOn with
  | nil => rfl
  | append_singleton days day ih =>
      rw [foldDays_concat, fold_days, UInt32.toNat_add, ih]
      simp

/-- The totals begin with the first day, as long as the count does not wrap. -/
lemma foldDays_sinceDate (resetId : UInt32) {days : List DayRecord} (hne : days ≠ [])
    (hlen : days.length < 2 ^ 32) :
    (foldDays resetId days).sinceDate = (days.head hne).date := by
  induction days using List.reverseRecOn with
  | nil => exact absurd rfl hne
  | append_singleton days day ih =>
      rw [foldDays_concat]
      by_cases hnil : days = []
      · subst hnil
        rfl
      · rw [List.length_append, List.length_singleton] at hlen
        have hdays : (foldDays resetId days).days ≠ 0 := by
          intro h0
          have hcount := foldDays_days resetId days
          rw [h0, Nat.mod_eq_of_lt (by omega)] at hcount
          exact hnil (List.length_eq_zero_iff.mp hcount.symm)
        have hsince : (fold (foldDays resetId days) day).sinceDate
            = (foldDays resetId days).sinceDate := if_neg hdays
        rw [hsince, ih hnil (by omega), List.head_append_of_ne_nil]

/-! ### One commit of a later day -/

namespace MonthStore

variable {resetId : UInt32} {days : List DayRecord} {c : EnergyContents}

lemma date_pos (h : MonthStore resetId days c) {d : DayRecord} (hd : d ∈ days) : 0 < d.date.toNat := by
  have hdom := (h.dom d hd).1
  omega

/-- Fewer days are stored than the count can take. -/
lemma length_lt (h : MonthStore resetId days c) {day : DayRecord}
    (hlast : ∀ d ∈ days, d.date < day.date) : days.length + 1 < 2 ^ 32 := by
  have hmax := day.date.toNat_lt
  obtain hlen | rfl := length_lt_of_sorted h.sorted hlast fun d hd => h.date_pos hd
  · omega
  · decide

/-- A later day that was committed landed, and the totals returned are those of
its month with the day added. -/
lemma later (h : MonthStore resetId days c) {random : UInt32} {day : DayRecord}
    {o : Outcome EspErr (Option Lifetime)} {s' : Nvs EnergyKey} {w : List NvsEvent}
    (hmonth : ValidMonth (monthOf day.date)) (hlt : ∀ d ∈ days, d.date < day.date)
    (hreads : NvsEvent.readError ∉ w) (heff : CommitEffect c random day o s' w) {life : Lifetime}
    (ho : o = .val (some life)) :
    landed w = true ∧ life = fold (monthFor c random (monthOf day.date)).life day := by
  cases heff with
  | kept hstored hsettled hw hcounted =>
      obtain ⟨m, hm, hdate, -⟩ := hcounted life ho
      rw [hm hreads] at hdate
      obtain ⟨⟨d, hd, heq⟩, -⟩ := h.counted random hmonth (fun d hd => UInt32.le_of_lt (hlt d hd)) hdate
      have := hlt d hd
      rw [heq] at this
      exact absurd this (UInt32.lt_irrefl _)
  | stored hismonth hm hdom hdate hswept hsettled hw hlife =>
      exact ⟨hw, by rw [hlife life ho, hm hreads]⟩

/-- **Beyond the look-back the totals start from zero**, although the month of
the last day is still stored. -/
lemma restarts (h : MonthStore resetId days c) (hne : days ≠ []) (random : UInt32) {ym : UInt32}
    (hym : ValidMonth ym)
    (hfar : monthIndex (monthOf (days.getLast hne).date) + (kMonthsKept + 2) < monthIndex ym) :
    monthFor c random ym = blankMonth ym (freshLifetime (random ||| 1)) ∧
      (readMonth c (monthOf (days.getLast hne).date)).isSome := by
  obtain ⟨m, hm, -⟩ := h.newest hne
  refine ⟨?_, by rw [hm]; rfl⟩
  have hself : readMonth c ym = none :=
    h.readMonth_between hne hym (j := 0) (by omega)
  have hback : ∀ j < kMonthsKept + 2, readMonth c (prevMonth^[j] (prevMonth ym)) = none := by
    intro j hj
    rw [← Function.iterate_succ_apply]
    exact h.readMonth_between hne hym (by omega)
  rw [monthFor, hself, findMonth_none hback]
  rfl

/-- Totals that start from zero do not go on from the old ones. -/
lemma not_continues_fresh (h : MonthStore resetId days c) (hne : days ≠ []) {day : DayRecord}
    (hlt : ∀ d ∈ days, d.date < day.date) (resetId' : UInt32) :
    ¬ (foldDays resetId days).Continues (fold (freshLifetime resetId') day) := by
  intro hcont
  have hlen := h.length_lt hlt
  have hsince := hcont.sinceDate
  rw [foldDays_sinceDate resetId hne (by omega)] at hsince
  have hnew : (fold (freshLifetime resetId') day).sinceDate = day.date := rfl
  rw [hnew] at hsince
  have hfirst := hlt _ (List.head_mem hne)
  rw [← hsince] at hfirst
  exact UInt32.lt_irrefl _ hfirst

/-- Totals carried over go on exactly when none of them wraps. -/
lemma continues_iff (h : MonthStore resetId days c) (hne : days ≠ []) {day : DayRecord}
    (hlt : ∀ d ∈ days, d.date < day.date) (hfit : TotalsFit days) :
    (foldDays resetId days).Continues (foldDays resetId (days ++ [day]))
      ↔ TotalsFit (days ++ [day]) := by
  have hlen := h.length_lt hlt
  have hcount := foldDays_days resetId days
  rw [Nat.mod_eq_of_lt (by omega)] at hcount
  have hpos : 0 < days.length := List.length_pos_of_ne_nil hne
  rw [foldDays_concat, continues_fold_iff ?_ (by omega), fits_iff_totalsFit hfit]
  intro h0
  rw [h0, UInt32.toNat_zero] at hcount
  omega

end MonthStore

/-! ### Any sequence of commits -/

lemma StoreState.Holds.after_success {resetId : UInt32} {st : StoreState} (h : st.Holds resetId)
    {x : DayCommit} (hmonth : ValidMonth (monthOf x.day.date))
    (hlt : ∀ d ∈ st.landed, d.date < x.day.date) (hlatest : st.latest ≤ x.day.date)
    (hreads : readsSucceed.Covers (x.result st).ops) {life : Lifetime}
    (hlife : (x.result st).out = .val (some life))
    (hnear : ∀ d ∈ st.landed.getLast?, Near d x.day) :
    (st.step x.step).landed = st.landed ++ [x.day] ∧
    ∃ resetId', (st.landed ≠ [] → resetId' = resetId) ∧ (st.step x.step).Holds resetId' ∧
      life = foldDays resetId' (st.landed ++ [x.day]) := by
  have heff := commitEffect_of_settled h.settled x.random x.day x.script
  obtain ⟨hland, -⟩ := h.store.later hmonth hlt (readError_notMem_of_readsSucceed hreads) heff hlife
  obtain ⟨resetId', hid, hholds, hsuccess⟩ := h.commit ⟨hreads, hmonth, hlatest, fun _ => hnear⟩
  have hlanded : (st.step x.step).landed = st.landed ++ [x.day] := if_pos hland
  refine ⟨hlanded, resetId', hid, hholds, ?_⟩
  rw [← hlanded]
  exact (hsuccess life hlife).2

/-- The totals of the calls from a store that holds days. -/
lemma lifetimes_isChain_iff : ∀ (xs : List DayCommit) {st : StoreState} {resetId : UInt32}
    (hne : st.landed ≠ []), st.Holds resetId → TotalsFit st.landed → AllSucceed st xs →
    (∀ x ∈ xs, ValidMonth (monthOf x.day.date)) →
    (∀ x ∈ xs, st.latest ≤ x.day.date ∧ ∀ d ∈ st.landed, d.date < x.day.date) →
    xs.Pairwise (fun x y => x.day.date < y.day.date) →
    ((foldDays resetId st.landed :: lifetimes st xs).IsChain Lifetime.Continues ↔
      (st.landed.getLast hne :: xs.map (·.day)).IsChain Near ∧
        TotalsFit (st.landed ++ xs.map (·.day))) := by
  intro xs
  induction xs with
  | nil =>
      intro st resetId hne h hfit _ _ _ _
      simp only [lifetimes, List.map_nil, List.append_nil, List.isChain_singleton, true_and, true_iff]
      exact hfit
  | cons x xs ih =>
      intro st resetId hne h hfit hall hmonths hlater hsort
      obtain ⟨hreads, ⟨life, hlife⟩, hrest⟩ := hall
      obtain ⟨hlatest, hlt⟩ := hlater x List.mem_cons_self
      obtain ⟨hx, hxs⟩ := List.pairwise_cons.mp hsort
      have hmonth := hmonths x List.mem_cons_self
      have hlives : lifetimes st (x :: xs) = life :: lifetimes (st.step x.step) xs := by
        rw [lifetimes, hlife]
      rw [hlives, List.isChain_cons_cons, List.map_cons, List.isChain_cons_cons]
      by_cases hnear : Near (st.landed.getLast hne) x.day
      · obtain ⟨hlanded, resetId', hid, hholds, hfold⟩ :=
          h.after_success hmonth hlt hlatest hreads hlife fun d hd => by
            rw [List.getLast?_eq_some_getLast hne] at hd
            rw [← Option.some.inj hd]
            exact hnear
        rw [hid hne] at hholds hfold
        have hcont := h.store.continues_iff hne hlt hfit
        rw [← hfold] at hcont
        have hsplit : st.landed ++ x.day :: xs.map (·.day)
            = (st.landed ++ [x.day]) ++ xs.map (·.day) := by simp
        rw [hcont, hsplit]
        constructor
        · rintro ⟨hfit', hchain⟩
          have hrec := @ih (st.step x.step) _ (by rw [hlanded]; simp) hholds
            (by rw [hlanded]; exact hfit') hrest (fun y hy => hmonths y (List.mem_cons_of_mem _ hy))
            (fun y hy => ⟨UInt32.le_of_lt (hx y hy), fun d hd => ?_⟩) hxs
          · simp only [hlanded, List.getLast_append_singleton, ← hfold] at hrec
            obtain ⟨h1, h2⟩ := hrec.mp hchain
            exact ⟨⟨hnear, h1⟩, h2⟩
          · rw [hlanded] at hd
            cases List.mem_append.mp hd with
            | inl hd => exact (hlater y (List.mem_cons_of_mem _ hy)).2 d hd
            | inr hd =>
                rw [List.mem_singleton.mp hd]
                exact hx y hy
        · rintro ⟨⟨-, hchain⟩, hfit'⟩
          have hrec := @ih (st.step x.step) _ (by rw [hlanded]; simp) hholds
            (by rw [hlanded]; exact hfit'.of_append) hrest
            (fun y hy => hmonths y (List.mem_cons_of_mem _ hy))
            (fun y hy => ⟨UInt32.le_of_lt (hx y hy), fun d hd => ?_⟩) hxs
          · simp only [hlanded, List.getLast_append_singleton, ← hfold] at hrec
            exact ⟨hfit'.of_append, hrec.mpr ⟨hchain, hfit'⟩⟩
          · rw [hlanded] at hd
            cases List.mem_append.mp hd with
            | inl hd => exact (hlater y (List.mem_cons_of_mem _ hy)).2 d hd
            | inr hd =>
                rw [List.mem_singleton.mp hd]
                exact hx y hy
      · have heff := commitEffect_of_settled h.settled x.random x.day x.script
        obtain ⟨-, hlife'⟩ :=
          h.store.later hmonth hlt (readError_notMem_of_readsSucceed hreads) heff hlife
        rw [(h.store.restarts hne x.random hmonth (not_le.mp hnear)).1] at hlife'
        constructor
        · rintro ⟨hcont, -⟩
          rw [hlife'] at hcont
          exact absurd hcont (h.store.not_continues_fresh hne hlt _)
        · rintro ⟨⟨hnear', -⟩, -⟩
          exact absurd hnear' hnear

/-- Without faults every commit of a date with a slot succeeds. -/
lemma allSucceed_quiet : ∀ (xs : List DayCommit) {st : StoreState}, st.nvs.Settled →
    (∀ x ∈ xs, x.script = [] ∧ ValidDom x.day.date) → AllSucceed st xs := by
  intro xs
  induction xs with
  | nil => exact fun _ _ => trivial
  | cons x xs ih =>
      intro st hst hxs
      obtain ⟨hscript, hdom⟩ := hxs x List.mem_cons_self
      obtain ⟨life, c', hrun⟩ := runs_storeCommitDay st.nvs.stored x.random hdom
      rw [← hst.eq] at hrun
      refine ⟨?_, ⟨life, ?_⟩, ih ?_ fun y hy => hxs y (List.mem_cons_of_mem _ hy)⟩
      · rw [DayCommit.result, hscript]
        exact (quiet_storeCommitDay _ _).readsSucceed _
      · rw [DayCommit.result, hscript]
        exact hrun.out
      · have heff := commitEffect_of_settled hst x.random x.day x.script
        exact afterCall_settled heff.settled

/-- **Lifetime totals across time off.** For commits that all succeed, with
strictly increasing dates and any gaps, from a store without months: each call's
totals go on from those of the call before exactly when no month is further from
the one before than the look-back reaches and no total outgrows 32 bits. -/
theorem lifetimes_continue_iff {contents : EnergyContents}
    (hempty : ∀ ym, readMonth contents ym = none) {xs : List DayCommit}
    (hall : AllSucceed (.start contents) xs)
    (hmonths : ∀ x ∈ xs, ValidMonth (monthOf x.day.date))
    (hsort : xs.Pairwise fun x y => x.day.date < y.day.date) :
    (lifetimes (.start contents) xs).IsChain Lifetime.Continues ↔
      (xs.map (·.day)).IsChain Near ∧ TotalsFit (xs.map (·.day)) := by
  have hone : ∀ d : DayRecord, TotalsFit [d] := fun d =>
    ⟨by simpa using (totalElecWh d).toNat_lt, fun i => by simpa using (d.thermalWh i).toNat_lt,
      fun i => by simpa using (d.coveredElecWh i).toNat_lt, by simpa using d.powerS.toNat_lt,
      by simpa using d.thermalS.toNat_lt⟩
  cases xs with
  | nil =>
      refine iff_of_true List.isChain_nil ⟨List.isChain_nil, ?_⟩
      exact TotalsFit.of_append (hone default)
  | cons x xs =>
      obtain ⟨hreads, ⟨life, hlife⟩, hrest⟩ := hall
      obtain ⟨hx, hxs⟩ := List.pairwise_cons.mp hsort
      have hstart := holds_start hempty 0
      obtain ⟨hlanded, resetId, -, hholds, hfold⟩ :=
        hstart.after_success (hmonths x List.mem_cons_self) (fun d hd => absurd hd List.not_mem_nil)
          (UInt32.zero_le) hreads hlife fun d hd => by cases hd
      have hlanded' : ((StoreState.start contents).step x.step).landed = [x.day] := hlanded
      have hlives : lifetimes (.start contents) (x :: xs)
          = life :: lifetimes ((StoreState.start contents).step x.step) xs := by
        rw [lifetimes, hlife]
      have hrec := @lifetimes_isChain_iff xs ((StoreState.start contents).step x.step) _
        (by rw [hlanded']; simp) hholds (by rw [hlanded']; exact hone _) hrest
        (fun y hy => hmonths y (List.mem_cons_of_mem _ hy))
        (fun y hy => ⟨UInt32.le_of_lt (hx y hy), fun d hd => ?_⟩) hxs
      · simp only [hlanded', List.getLast_singleton] at hrec
        rw [hlives, hfold]
        exact hrec
      · rw [hlanded', List.mem_singleton] at hd
        rw [hd]
        exact hx y hy

/-- Two days, fifteen months apart. -/
def nearCommits : List DayCommit := [⟨7, exampleDay 20240131, []⟩, ⟨9, exampleDay 20250401, []⟩]

theorem lifetimes_continue_nearCommits :
    (lifetimes (.start fun _ => none) nearCommits).IsChain Lifetime.Continues := by
  have hquiet : ∀ x ∈ nearCommits, x.script = [] ∧ ValidDom x.day.date := by
    intro x hx
    simp only [nearCommits, List.mem_cons, List.not_mem_nil, or_false] at hx
    obtain rfl | rfl := hx <;> exact ⟨rfl, by decide, by decide⟩
  have hmonths : ∀ x ∈ nearCommits, ValidMonth (monthOf x.day.date) := by
    intro x hx
    simp only [nearCommits, List.mem_cons, List.not_mem_nil, or_false] at hx
    obtain rfl | rfl := hx <;> exact ⟨by decide, by decide, by decide⟩
  have hsort : nearCommits.Pairwise fun x y => x.day.date < y.day.date := by
    simp only [nearCommits, List.pairwise_cons, List.mem_singleton, forall_eq, List.not_mem_nil,
      false_implies, implies_true, List.Pairwise.nil, and_true]
    decide
  refine (lifetimes_continue_iff (fun _ => rfl)
    (@allSucceed_quiet nearCommits (.start fun _ => none) rfl hquiet) hmonths hsort).mpr
    ⟨?_, ?_, ?_, ?_, ?_, ?_⟩
  · simp only [nearCommits, List.map_cons, List.map_nil, List.isChain_cons_cons,
      List.isChain_singleton, and_true, Near]
    decide
  all_goals decide

/-- Two days, sixteen months apart. -/
def farCommits : List DayCommit := [⟨7, exampleDay 20240101, []⟩, ⟨9, exampleDay 20250501, []⟩]

/-- After sixteen months away the totals start over, although the month of the
earlier day is still stored when the later one is committed. -/
theorem lifetimes_restart_farCommits :
    AllSucceed (.start fun _ => none) farCommits ∧
      farCommits.Pairwise (fun x y => x.day.date < y.day.date) ∧
      (readMonth (runStore (.start fun _ => none) [.commit 7 (exampleDay 20240101) []]).nvs.stored
        202401).isSome ∧
      ¬ (lifetimes (.start fun _ => none) farCommits).IsChain Lifetime.Continues := by
  have hquiet : ∀ x ∈ farCommits, x.script = [] ∧ ValidDom x.day.date := by
    intro x hx
    simp only [farCommits, List.mem_cons, List.not_mem_nil, or_false] at hx
    obtain rfl | rfl := hx <;> exact ⟨rfl, by decide, by decide⟩
  have hall := @allSucceed_quiet farCommits (.start fun _ => none) rfl hquiet
  have hsort : farCommits.Pairwise fun x y => x.day.date < y.day.date := by
    simp only [farCommits, List.pairwise_cons, List.mem_singleton, forall_eq, List.not_mem_nil,
      false_implies, implies_true, List.Pairwise.nil, and_true]
    decide
  have hjan : ValidMonth (monthOf (exampleDay 20240101).date) := ⟨by decide, by decide, by decide⟩
  have hmay : ValidMonth (monthOf (exampleDay 20250501).date) := ⟨by decide, by decide, by decide⟩
  have hlt : (exampleDay 20240101).date < (exampleDay 20250501).date := by decide
  obtain ⟨hreads, ⟨life, hlife⟩, hreads', ⟨life', hlife'⟩, -⟩ := id hall
  -- the first day is stored, and its totals are returned
  obtain ⟨hlanded, resetId, -, hholds, hfold⟩ :=
    (@holds_start (fun _ => none) (fun _ => rfl) 0).after_success hjan
      (fun d hd => absurd hd List.not_mem_nil) UInt32.zero_le hreads hlife fun d hd => by cases hd
  have hlanded' : ((StoreState.start fun _ => none).step
      (.commit 7 (exampleDay 20240101) [])).landed = [exampleDay 20240101] := hlanded
  have hne : ((StoreState.start fun _ => none).step
      (.commit 7 (exampleDay 20240101) [])).landed ≠ [] := by rw [hlanded']; simp
  have hlater : ∀ d ∈ ((StoreState.start fun _ => none).step
      (.commit 7 (exampleDay 20240101) [])).landed, d.date < (exampleDay 20250501).date := by
    rw [hlanded']
    simpa using hlt
  -- the second starts from zero
  obtain ⟨hfresh, hstill⟩ := hholds.store.restarts hne 9 hmay (by
    have hlast := List.getLast_singleton (a := exampleDay 20240101) (h := by simp)
    simp only [DayCommit.step, hlanded', hlast]
    decide)
  obtain ⟨-, hnew⟩ := hholds.store.later hmay hlater (readError_notMem_of_readsSucceed hreads')
    (commitEffect_of_settled hholds.settled _ _ _) hlife'
  refine ⟨hall, hsort, ?_, ?_⟩
  · simp only [DayCommit.step, hlanded', List.getLast_singleton] at hstill
    exact hstill
  · have hlives : lifetimes (.start fun _ => none) farCommits = [life, life'] := by
      rw [farCommits, lifetimes, hlife, lifetimes, hlife', lifetimes]
    rw [hlives, List.isChain_cons_cons, hnew, hfresh, hfold]
    rintro ⟨hcont, -⟩
    have hstore := hholds.store
    exact hstore.not_continues_fresh hne hlater _ (by
      simp only [DayCommit.step, hlanded']
      exact hcont)

end ArcticController

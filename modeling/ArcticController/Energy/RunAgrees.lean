/-
The day ledger and the run tracker agree.

* `RunTally.thermal`, `.covered`, `.run`, `.outdoor`, `.outdoorSum`: the
  counters of a run as words of the shares the days hold;
* `sum_modEq_of_words`, `sum_eq_of_words`: totals of words, up to a multiple of
  the counter's range and exactly;
* `days_and_runs_agree`: over any readings the days and the runs have the same
  totals;
* `tenDays_disagree`: an open day that lasts too long for its 32 bit sum of the
  outdoor reading while the run's 64 bit sum goes on.
-/
import ArcticController.Energy.LedgerConserves
import ArcticController.Energy.RunBook

namespace ArcticController

/-! ### Shares over all modes -/

/-- Heat in any mode. -/
def thermalTotal : Share := fun D a b p => ∑ m, thermalShare m D a b p

/-- Electricity while the heat counts, in any mode. -/
def coveredTotal : Share := fun D a b p => ∑ m, coveredShare m D a b p

/-- Only the mode of a reading has a share. -/
lemma sum_of_mode {share : Fin kModes → ℤ} {p : Input} {k : Fin kModes}
    (hmode : p.bucket.mode = some k) (hother : ∀ m, p.bucket.mode ≠ some m → share m = 0) :
    ∑ m, share m = share k :=
  Finset.sum_eq_single k (fun m _ hm => hother m fun h => hm (Option.some.inj (h.symm.trans hmode)))
    fun h => absurd (Finset.mem_univ k) h

lemma thermalShare_other {m : Fin kModes} {p : Input} (h : p.bucket.mode ≠ some m) (D a b : ℤ) :
    thermalShare m D a b p = 0 := by
  rw [thermalShare, rateShare, if_neg fun hc => h hc.1.2.2.2, zero_mul]

lemma coveredShare_other {m : Fin kModes} {p : Input} (h : p.bucket.mode ≠ some m) (D a b : ℤ) :
    coveredShare m D a b p = 0 := by
  rw [coveredShare, rateShare, if_neg fun hc => h hc.2.2.2, zero_mul]

/-! ### Nothing counts while the compressor stands -/

lemma heatCounts_active {p : Input} {m : Fin kModes} (hp : p.Sound) (h : heatCounts m p) :
    p.active :=
  (RunTracker.runs_iff p).mp ⟨hp.thermal h.2.1, h.1⟩

lemma runOutdoorCounts_active {p : Input} (h : runOutdoorCounts p) : p.active :=
  (RunTracker.runs_iff p).mp ⟨h.2.2.2.1, h.1⟩

lemma rateShare_idle {rate : Input → ℤ} (h : ∀ p : Input, p.Sound → ¬ p.active → rate p = 0) :
    (rateShare rate).Idle := fun D a b p hp hidle => by rw [rateShare, h p hp hidle, zero_mul]

lemma outdoorRate_idle {rate : Input → ℤ} (h : ∀ p : Input, p.Sound → ¬ p.active → rate p = 0) :
    (outdoorRate rate).Idle := fun D a b p hp hidle => by rw [outdoorRate, h p hp hidle, zero_mul]

lemma thermalShare_idle (m : Fin kModes) : (thermalShare m).Idle :=
  rateShare_idle fun _ hp hidle => if_neg fun h => hidle (heatCounts_active hp h.1)

lemma coveredShare_idle (m : Fin kModes) : (coveredShare m).Idle :=
  rateShare_idle fun _ hp hidle => if_neg fun h => hidle (heatCounts_active hp h)

lemma runShare_idle (m : Fin kModes) : (runShare m).Idle :=
  rateShare_idle fun p _ hidle => if_neg fun h => hidle ((RunTracker.runs_iff p).mp ⟨h.2.1, h.1⟩)

lemma outdoorShare_idle : outdoorShare.Idle :=
  outdoorRate_idle fun _ _ hidle => if_neg fun h => hidle (runOutdoorCounts_active h)

lemma outdoorSumShare_idle : outdoorSumShare.Idle :=
  outdoorRate_idle fun _ _ hidle => if_neg fun h => hidle (runOutdoorCounts_active h)

/-! ### Shares that only grow -/

lemma thermalShare_grows (m : Fin kModes) : (thermalShare m).Grows :=
  rateShare_grows fun p => by
    by_cases h : heatCounts m p ∧ modeHeat p > 0
    · rw [if_pos h]
      exact (Int32.lt_iff_toInt_lt.mp h.2).le
    · rw [if_neg h]

lemma coveredShare_grows (m : Fin kModes) : (coveredShare m).Grows :=
  rateShare_grows fun p => by split <;> simp

lemma runShare_grows (m : Fin kModes) : (runShare m).Grows :=
  rateShare_grows fun p => by split <;> simp

lemma outdoorShare_grows : outdoorShare.Grows :=
  outdoorRate_grows fun p => by split <;> simp

/-! ### The counters of a run -/

/-- The outdoor reading in tenths, in the ledger's 16 bits as in the tracker's 32. -/
lemma Input.Sound.deci {p : Input} (hp : p.Sound) :
    (p.outdoorC * 10).toInt = p.outdoorC.toInt * 10 ∧
      (p.outdoorC.toInt32 * 10).toInt = p.outdoorC.toInt * 10 := by
  obtain ⟨hlo, hhi⟩ := hp.outdoor
  have hten : (10 : Int16).toInt = 10 := rfl
  have hten' : (10 : Int32).toInt = 10 := rfl
  rw [Int16.toInt_mul, Int32.toInt_mul, Int16.toInt_toInt32, hten, hten']
  exact ⟨Int.bmod_eq_of_le (by omega) (by omega), Int.bmod_eq_of_le (by omega) (by omega)⟩

namespace RunSums

variable {r c : RunSums} {p : Input} {D a b : ℤ}

lemma Booked.thermal (h : r.Booked p D a b c) (hab : a ≤ b) (hstep : b - a ≤ kMaxStepSeconds)
    (hc : p.connected) :
    c.thermalWs.toBitVec = r.thermalWs.toBitVec + BitVec.ofInt 64 (thermalTotal D a b p) := by
  rw [h.thermalWs]
  cases hm : p.bucket.mode with
  | none =>
      have hnot : ¬ (thermalBooked p ∧ modeHeat p > 0) := fun h => by simp [thermalBooked, hm] at h
      rw [if_neg hnot, thermalTotal, Finset.sum_eq_zero fun m _ =>
        thermalShare_other (by simp [hm]) D a b]
      exact add_ofInt_zero _
  | some k =>
      rw [thermalTotal, sum_of_mode hm fun m hother => thermalShare_other hother D a b, thermalShare,
        rateShare, span_of_le hab]
      have hiff : (thermalBooked p ∧ modeHeat p > 0) ↔ (heatCounts k p ∧ modeHeat p > 0) := by
        simp [thermalBooked, heatCounts, hm, hc]
      by_cases hb : thermalBooked p ∧ modeHeat p > 0
      · rw [if_pos hb, if_pos (hiff.mp hb), UInt64.toBitVec_add, UInt64.toBitVec_mul,
          Int32.word64, stepSeconds_word64 hab hstep, BitVec.ofInt_mul]
      · rw [if_neg hb, if_neg fun h => hb (hiff.mpr h), zero_mul]
        exact add_ofInt_zero _

lemma Booked.covered (h : r.Booked p D a b c) (hab : a ≤ b) (hstep : b - a ≤ kMaxStepSeconds)
    (hc : p.connected) :
    c.coveredWs.toBitVec = r.coveredWs.toBitVec + BitVec.ofInt 64 (coveredTotal D a b p) := by
  rw [h.coveredWs]
  cases hm : p.bucket.mode with
  | none =>
      have hnot : ¬ thermalBooked p := fun h => by simp [thermalBooked, hm] at h
      rw [if_neg hnot, coveredTotal, Finset.sum_eq_zero fun m _ =>
        coveredShare_other (by simp [hm]) D a b]
      exact add_ofInt_zero _
  | some k =>
      rw [coveredTotal, sum_of_mode hm fun m hother => coveredShare_other hother D a b, coveredShare,
        rateShare, span_of_le hab]
      have hiff : thermalBooked p ↔ heatCounts k p := by simp [thermalBooked, heatCounts, hm, hc]
      by_cases hb : thermalBooked p
      · rw [if_pos hb, if_pos (hiff.mp hb), UInt64.toBitVec_add, UInt64.toBitVec_mul,
          UInt32.word64, stepSeconds_word64 hab hstep, BitVec.ofInt_mul]
      · rw [if_neg hb, if_neg fun h => hb (hiff.mpr h), zero_mul]
        exact add_ofInt_zero _

lemma Booked.run (h : r.Booked p D a b c) (hab : a ≤ b) (hc : p.connected) (m : Fin kModes) :
    (c.runS m).toBitVec = (r.runS m).toBitVec + BitVec.ofInt 32 (runShare m D a b p) := by
  rw [h.runS]
  exact runAfter_word r.runS hab hc m

/-- The outdoor reading is booked when it counts over more than nothing. -/
lemma outdoorBooked_iff (hc : p.connected) :
    outdoorBooked p D a b ↔ runOutdoorCounts p ∧ outdoorFrom D a < b := by
  rw [outdoorBooked, runOutdoorCounts]
  tauto

lemma Booked.outdoor (h : r.Booked p D a b c) (hc : p.connected) :
    c.outdoorS.toBitVec = r.outdoorS.toBitVec + BitVec.ofInt 32 (outdoorShare D a b p) := by
  rw [h.outdoorS]
  exact outdoor_word _ (outdoorBooked_iff hc)

lemma Booked.outdoorSum (h : r.Booked p D a b c) (hstep : b - a ≤ kMaxStepSeconds)
    (hc : p.connected) (hp : p.Sound) : c.outdoorSumDeciS.toBitVec
      = r.outdoorSumDeciS.toBitVec + BitVec.ofInt 64 (outdoorSumShare D a b p) := by
  rw [h.outdoorSumDeciS]
  by_cases hcounts : runOutdoorCounts p ∧ outdoorFrom D a < b
  · have hfrom := le_outdoorFrom D a
    have hdt := stepSeconds_word64 hcounts.2.le (by omega)
    have hdeci : (p.outdoorC.toInt32 * 10).toInt64.toBitVec
        = BitVec.ofInt 64 (p.outdoorC * 10).toInt := by
      rw [hp.deci.1, ← hp.deci.2]
      exact Int32.word64 _
    rw [if_pos ((outdoorBooked_iff hc).mpr hcounts), outdoorSumShare, outdoorRate,
      span_of_le hcounts.2.le, if_pos hcounts.1, Int64.toBitVec_add, Int64.toBitVec_mul, hdeci,
      BitVec.ofInt_mul, ← hdt]
    rfl
  · rw [if_neg fun h => hcounts ((outdoorBooked_iff hc).mp h), outdoorSumShare,
      outdoorRate_of_not hcounts fun h => if_neg h]
    exact add_ofInt_zero _

end RunSums

namespace RunTally

def thermal : RunTally where
  width := 64
  field r := r.thermalWs.toBitVec
  share := thermalTotal
  fresh _ _ _ _ := rfl
  booked h hab hstep hc _ := h.thermal hab hstep hc

def covered : RunTally where
  width := 64
  field r := r.coveredWs.toBitVec
  share := coveredTotal
  fresh _ _ _ _ := rfl
  booked h hab hstep hc _ := h.covered hab hstep hc

def run (m : Fin kModes) : RunTally where
  width := 32
  field r := (r.runS m).toBitVec
  share := runShare m
  fresh _ _ _ _ := rfl
  booked h hab _ hc _ := h.run hab hc m

def outdoor : RunTally where
  width := 32
  field r := r.outdoorS.toBitVec
  share := outdoorShare
  fresh _ _ _ _ := rfl
  booked h _ _ hc _ := h.outdoor hc

def outdoorSum : RunTally where
  width := 64
  field r := r.outdoorSumDeciS.toBitVec
  share := outdoorSumShare
  fresh _ _ _ _ := rfl
  booked h _ hstep hc hp := h.outdoorSum hstep hc hp

end RunTally

/-! ### Totals -/

/-- The amounts of an unsigned counter do not pass its range. -/
def Fits (w : ℕ) (amounts : List ℤ) : Prop := ∀ x ∈ amounts, x < 2 ^ w

/-- The amounts of a signed counter do not pass its range. -/
def FitsSigned (w : ℕ) (amounts : List ℤ) : Prop :=
  ∀ x ∈ amounts, -2 ^ (w - 1) ≤ x ∧ x < 2 ^ (w - 1)

/-- Two totals are the same up to multiples of `2 ^ w`, and the same number
where the amounts behind them fit their counters. -/
def Agree (w : ℕ) (fits : Prop) (x y : ℤ) : Prop := x ≡ y [ZMOD 2 ^ w] ∧ (fits → x = y)

/-- A total of numbers read off the words of some amounts. -/
lemma sum_modEq_of_words {w : ℕ} (read : BitVec w → ℤ)
    (hread : ∀ x, read (BitVec.ofInt w x) ≡ x [ZMOD 2 ^ w]) {α : Type} {xs : List α}
    {word : α → BitVec w} {amounts : List ℤ} (hwords : xs.map word = amounts.map (BitVec.ofInt w)) :
    (xs.map fun a => read (word a)).sum ≡ amounts.sum [ZMOD 2 ^ w] := by
  have hread' : xs.map (fun a => read (word a)) = amounts.map fun x => read (BitVec.ofInt w x) := by
    have := congrArg (List.map read) hwords
    rwa [List.map_map, List.map_map] at this
  rw [hread']
  clear hwords hread'
  induction amounts with
  | nil => rfl
  | cons x amounts ih =>
      rw [List.map_cons, List.sum_cons, List.sum_cons]
      exact (hread x).add ih

lemma toNat_ofInt_modEq (w : ℕ) (x : ℤ) : ((BitVec.ofInt w x).toNat : ℤ) ≡ x [ZMOD 2 ^ w] := by
  rw [BitVec.toNat_ofInt]
  have hpow : ((2 ^ w : ℕ) : ℤ) = 2 ^ w := by push_cast; rfl
  have hpos : (0 : ℤ) < 2 ^ w := by positivity
  rw [hpow, Int.toNat_of_nonneg (Int.emod_nonneg _ hpos.ne')]
  exact Int.mod_modEq x _

lemma toInt_ofInt_modEq (w : ℕ) (x : ℤ) : (BitVec.ofInt w x).toInt ≡ x [ZMOD 2 ^ w] := by
  rw [BitVec.toInt_ofInt]
  have hpow : ((2 ^ w : ℕ) : ℤ) = 2 ^ w := by push_cast; rfl
  rw [← hpow]
  exact Int.bmod_emod

/-- A sum over lists and modes, either way round. -/
lemma sum_map_modes {α : Type} (xs : List α) (f : Fin kModes → α → ℤ) :
    (xs.map fun a => ∑ m, f m a).sum = ∑ m, (xs.map (f m)).sum := by
  induction xs with
  | nil => simp
  | cons x xs ih => simp only [List.map_cons, List.sum_cons, ih, Finset.sum_add_distrib]

/-- What the intervals of some readings add to a counter. -/
def sharesOf (share : Share) (steps : List LedgerStep) : ℤ :=
  ((intervals {} steps).map (·.share share)).sum

section

variable {clock : ℤ} {steps : List LedgerStep}

lemma Books.total_modEq (t : Tally) (hrise : ClockRises clock steps) :
    ((({} : Books).run steps).days.map fun a => ((t.field a).toNat : ℤ)).sum
      ≡ sharesOf t.share steps [ZMOD 2 ^ t.width] := by
  have h := sum_modEq_of_words (fun u => (u.toNat : ℤ)) (toNat_ofInt_modEq t.width)
    (Books.days_run t hrise)
  rwa [DayBook.total_of t.splits hrise] at h

lemma RunBooks.total_modEq (t : RunTally) (hidle : t.share.Idle) (hrise : ClockRises clock steps)
    (hsteps : ∀ step ∈ steps, step.Sound) :
    ((({} : RunBooks).run steps).runs.map fun r => ((t.field r).toNat : ℤ)).sum
      ≡ sharesOf t.share steps [ZMOD 2 ^ t.width] := by
  have h := sum_modEq_of_words (fun u => (u.toNat : ℤ)) (toNat_ofInt_modEq t.width)
    (RunBooks.runs_run t hrise hsteps)
  rwa [RunBook.total_of hidle hsteps] at h

lemma Books.total_eq (t : Tally) (hgrows : t.share.Grows) (hrise : ClockRises clock steps)
    (hfits : Fits t.width (DayBook.of t.share steps).days) :
    ((({} : Books).run steps).days.map fun a => ((t.field a).toNat : ℤ)).sum
      = sharesOf t.share steps :=
  (total_of_words (Books.days_run t hrise) hgrows hfits).trans (DayBook.total_of t.splits hrise)

lemma RunBooks.total_eq (t : RunTally) (hgrows : t.share.Grows) (hidle : t.share.Idle)
    (hrise : ClockRises clock steps) (hsteps : ∀ step ∈ steps, step.Sound)
    (hfits : Fits t.width (RunBook.of t.share steps).runs) :
    ((({} : RunBooks).run steps).runs.map fun r => ((t.field r).toNat : ℤ)).sum
      = sharesOf t.share steps := by
  have hpos : ∀ x ∈ (RunBook.of t.share steps).runs, 0 ≤ x :=
    RunBook.grows_run hgrows steps (b := {}) (r := {}) nofun
  have hnum := toNat_sum fun x hx => ⟨hpos x hx, hfits x hx⟩
  rw [← RunBooks.runs_run t hrise hsteps, List.map_map, RunBook.total_of hidle hsteps] at hnum
  exact hnum

/-- The days and the runs agree on a counter both have. -/
lemma agree_of_tallies (t : Tally) (u : RunTally) (hshare : u.share = t.share)
    (hwidth : u.width = t.width) (hgrows : t.share.Grows) (hidle : t.share.Idle)
    (hrise : ClockRises clock steps) (hsteps : ∀ step ∈ steps, step.Sound) :
    Agree t.width
      (Fits t.width (DayBook.of t.share steps).days ∧ Fits t.width (RunBook.of t.share steps).runs)
      ((({} : Books).run steps).days.map fun a => ((t.field a).toNat : ℤ)).sum
      ((({} : RunBooks).run steps).runs.map fun r => ((u.field r).toNat : ℤ)).sum := by
  have hidle' : u.share.Idle := hshare ▸ hidle
  constructor
  · have hruns := RunBooks.total_modEq u hidle' hrise hsteps
    have hmod : (2 : ℤ) ^ u.width = 2 ^ t.width := by rw [hwidth]
    rw [hshare, hmod] at hruns
    exact (Books.total_modEq t hrise).trans hruns.symm
  · rintro ⟨hdays, hruns⟩
    rw [Books.total_eq t hgrows hrise hdays,
      RunBooks.total_eq u (hshare ▸ hgrows) hidle' hrise hsteps (by rw [hshare, hwidth]; exact hruns),
      hshare]

/-- The days by mode and the runs over all modes agree on a counter. -/
lemma agree_of_modes (t : Fin kModes → Tally) (u : RunTally)
    (hshare : u.share = fun D a b p => ∑ m, (t m).share D a b p)
    (hwidth : ∀ m, (t m).width = u.width) (hgrows : ∀ m, (t m).share.Grows)
    (hidle : ∀ m, (t m).share.Idle) (hrise : ClockRises clock steps)
    (hsteps : ∀ step ∈ steps, step.Sound) :
    Agree u.width
      ((∀ m, Fits u.width (DayBook.of (t m).share steps).days) ∧
        Fits u.width (RunBook.of u.share steps).runs)
      ((({} : Books).run steps).days.map fun a => ∑ m, (((t m).field a).toNat : ℤ)).sum
      ((({} : RunBooks).run steps).runs.map fun r => ((u.field r).toNat : ℤ)).sum := by
  have hidle' : u.share.Idle := fun D a b p hp hi => by
    rw [hshare]
    exact Finset.sum_eq_zero fun m _ => hidle m D a b p hp hi
  have hgrows' : u.share.Grows := fun D a b p => by
    rw [hshare]
    exact Finset.sum_nonneg fun m _ => hgrows m D a b p
  have htotal : sharesOf u.share steps = ∑ m, sharesOf (t m).share steps := by
    rw [hshare]
    exact sum_map_modes (intervals {} steps) fun m i => i.share (t m).share
  rw [sum_map_modes]
  constructor
  · refine Int.ModEq.trans ?_ (RunBooks.total_modEq u hidle' hrise hsteps).symm
    rw [htotal]
    rw [Int.modEq_iff_dvd, ← Finset.sum_sub_distrib]
    refine Finset.dvd_sum fun m _ => Int.modEq_iff_dvd.mp ?_
    have hmod : (2 : ℤ) ^ (t m).width = 2 ^ u.width := by rw [hwidth m]
    have hm := Books.total_modEq (t m) hrise
    rwa [hmod] at hm
  · rintro ⟨hdays, hruns⟩
    rw [RunBooks.total_eq u hgrows' hidle' hrise hsteps hruns, htotal]
    refine Finset.sum_congr rfl fun m _ => Books.total_eq (t m) (hgrows m) hrise ?_
    rw [hwidth m]
    exact hdays m

/-- The days and the runs agree on the sum of the outdoor reading, which may be
negative: 32 bits of it in a day, 64 in a run. -/
lemma agree_outdoorSum (hrise : ClockRises clock steps) (hsteps : ∀ step ∈ steps, step.Sound) :
    Agree 32
      (FitsSigned 32 (DayBook.of outdoorSumShare steps).days ∧
        FitsSigned 64 (RunBook.of outdoorSumShare steps).runs)
      ((({} : Books).run steps).days.map fun a => a.runOutdoorSumDeciS.toInt).sum
      ((({} : RunBooks).run steps).runs.map fun r => r.outdoorSumDeciS.toInt).sum := by
  have hdays : (({} : Books).run steps).days.map (·.runOutdoorSumDeciS.toBitVec)
      = (DayBook.of outdoorSumShare steps).days.map (BitVec.ofInt 32) :=
    Books.days_run Tally.outdoorSum hrise
  have hruns : (({} : RunBooks).run steps).runs.map (·.outdoorSumDeciS.toBitVec)
      = (RunBook.of outdoorSumShare steps).runs.map (BitVec.ofInt 64) :=
    RunBooks.runs_run RunTally.outdoorSum hrise hsteps
  have hdaySum : (DayBook.of outdoorSumShare steps).days.sum = sharesOf outdoorSumShare steps :=
    DayBook.total_of Tally.outdoorSum.splits hrise
  have hrunSum : (RunBook.of outdoorSumShare steps).runs.sum = sharesOf outdoorSumShare steps :=
    RunBook.total_of outdoorSumShare_idle hsteps
  constructor
  · have hday := sum_modEq_of_words BitVec.toInt (toInt_ofInt_modEq 32) hdays
    have hrun := sum_modEq_of_words BitVec.toInt (toInt_ofInt_modEq 64) hruns
    rw [hrunSum] at hrun
    have hrun' := hrun.of_dvd (show (2 : ℤ) ^ 32 ∣ 2 ^ 64 from pow_dvd_pow 2 (by norm_num))
    rw [hdaySum] at hday
    exact hday.trans hrun'.symm
  · rintro ⟨hfitsDays, hfitsRuns⟩
    have hday := toInt_sum (w := 31) hfitsDays
    have hrun := toInt_sum (w := 63) hfitsRuns
    rw [← hdays, List.map_map] at hday
    rw [← hruns, List.map_map] at hrun
    exact (hday.trans (hdaySum.trans hrunSum.symm)).trans hrun.symm

end

/-! ### The ledger and the tracker -/

/-- **The day ledger and the run tracker agree.** Over any readings in the order
of the clock and any pauses, the heat, its electricity, the running time of
each mode and the running outdoor average have the same totals over the days
as over the runs, in the arithmetic of their counters, and the same numbers as
long as no day and no run passes the range of its counter. -/
theorem days_and_runs_agree (clock : ℤ) (steps : List LedgerStep) (hrise : ClockRises clock steps)
    (hsteps : ∀ step ∈ steps, step.Sound) :
    let days := (({} : Books).run steps).days
    let runs := (({} : RunBooks).run steps).runs
    let dayAmounts share := (DayBook.of share steps).days
    let runAmounts share := (RunBook.of share steps).runs
    Agree 64
      ((∀ m, Fits 64 (dayAmounts (thermalShare m))) ∧ Fits 64 (runAmounts thermalTotal))
      (days.map fun a => ∑ m, ((a.thermalWs m).toNat : ℤ)).sum
      (runs.map fun r => (r.thermalWs.toNat : ℤ)).sum ∧
    Agree 64
      ((∀ m, Fits 64 (dayAmounts (coveredShare m))) ∧ Fits 64 (runAmounts coveredTotal))
      (days.map fun a => ∑ m, ((a.coveredElecWs m).toNat : ℤ)).sum
      (runs.map fun r => (r.coveredWs.toNat : ℤ)).sum ∧
    (∀ m, Agree 32 (Fits 32 (dayAmounts (runShare m)) ∧ Fits 32 (runAmounts (runShare m)))
      (days.map fun a => ((a.runS m).toNat : ℤ)).sum
      (runs.map fun r => ((r.runS m).toNat : ℤ)).sum) ∧
    Agree 32 (Fits 32 (dayAmounts outdoorShare) ∧ Fits 32 (runAmounts outdoorShare))
      (days.map fun a => (a.runOutdoorS.toNat : ℤ)).sum
      (runs.map fun r => (r.outdoorS.toNat : ℤ)).sum ∧
    Agree 32
      (FitsSigned 32 (dayAmounts outdoorSumShare) ∧ FitsSigned 64 (runAmounts outdoorSumShare))
      (days.map fun a => a.runOutdoorSumDeciS.toInt).sum
      (runs.map fun r => r.outdoorSumDeciS.toInt).sum := by
  intro days runs dayAmounts runAmounts
  refine ⟨?_, ?_, fun m => ?_, ?_, ?_⟩
  · exact agree_of_modes Tally.thermal RunTally.thermal rfl (fun _ => rfl)
      thermalShare_grows thermalShare_idle hrise hsteps
  · exact agree_of_modes Tally.covered RunTally.covered rfl (fun _ => rfl)
      coveredShare_grows coveredShare_idle hrise hsteps
  · exact agree_of_tallies (Tally.run m) (RunTally.run m) rfl rfl
      (runShare_grows m) (runShare_idle m) hrise hsteps
  · exact agree_of_tallies Tally.outdoor RunTally.outdoor rfl rfl
      outdoorShare_grows outdoorShare_idle hrise hsteps
  · exact agree_outdoorSum hrise hsteps

/-- A defrost, a stop and a midnight between readings a minute apart. -/
theorem days_and_runs_agree_midnight :
    let heating : Input :=
      { connected := true, powerValid := true, powerW := 1000, running := true, bucket := .heating,
        thermalValid := true, thermalW := 3000, outdoorValid := true, outdoorC := 5 }
    let steps : List LedgerStep :=
      [.add 86340 { date := 20250101, startS := 0 } heating,
        .add 86430 { date := 20250102, startS := 86400 } { heating with defrost := true },
        .add 86490 { date := 20250102, startS := 86400 } { connected := true }]
    ((({} : Books).run steps).days.map fun a => ∑ m, ((a.thermalWs m).toNat : ℤ)).sum
      = ((({} : RunBooks).run steps).runs.map fun r => (r.thermalWs.toNat : ℤ)).sum := by
  intro heating steps
  exact (days_and_runs_agree 86340 steps (by decide) (by decide)).1.2
    ⟨by unfold Fits; decide, by unfold Fits; decide⟩

/-! ### A day that outlasts its counter -/

/-- A compressor that runs in the hottest air. -/
def hotRun : Input :=
  { connected := true, running := true, bucket := .heating, outdoorValid := true, outdoorC := 255 }

/-- An open day of a million seconds. -/
def longDay : Day := { date := 20250101, startS := 0, endS := 1000000 }

/-- `n` readings two minutes apart, from `t` on. -/
def hotSteps : ℕ → ℤ → List LedgerStep
  | 0, _ => []
  | n + 1, t => .add t longDay hotRun :: hotSteps n (t + 120)

lemma hotSteps_rises : ∀ (n : ℕ) (t : ℤ), 0 ≤ t → t + 120 * n ≤ 1000000 →
    ∀ clock ≤ t, ClockRises clock (hotSteps n t) := by
  intro n
  induction n with
  | zero => exact fun t _ _ clock _ => trivial
  | succ n ih =>
      intro t ht hend clock hclock
      push_cast at hend
      exact ⟨hclock, ⟨ht, show t < 1000000 by omega⟩,
        ih (t + 120) (by omega) (by omega) t (by omega)⟩

lemma hotSteps_sound : ∀ (n : ℕ) (t : ℤ), ∀ step ∈ hotSteps n t, step.Sound := by
  intro n
  induction n with
  | zero => exact fun t => List.forall_mem_nil _
  | succ n ih =>
      intro t
      exact List.forall_mem_cons.mpr ⟨show hotRun.Sound by decide, ih (t + 120)⟩

/-- The reference after a reading of the long day. -/
def hotReference (t : ℤ) : Reference := { last := some (t, hotRun) }

lemma hotReference_interval (t : ℤ) :
    (hotReference (t - 120)).interval t = some ⟨-2 ^ 62, t - 120, t, hotRun⟩ := by
  rw [Reference.interval, hotReference]
  exact if_pos (by rw [kMaxStepSeconds]; omega)

/-- Two minutes at 255 °C. -/
lemma hotRun_share {t : ℤ} (ht : 120 ≤ t) :
    outdoorSumShare (-2 ^ 62) (t - 120) t hotRun = 306000 := by
  have hfrom : outdoorFrom (-2 ^ 62) (t - 120) = t - 120 := by
    rw [outdoorFrom, if_pos]
    rw [kPostDefrostSeconds]
    omega
  have hcounts : (if runOutdoorCounts hotRun then (hotRun.outdoorC * 10).toInt else 0) = 2550 := by
    decide
  rw [outdoorSumShare, outdoorRate, hfrom, hcounts, span_of_le (by omega)]
  omega

/-- Each reading but the first adds two minutes at 255 °C to the day. -/
lemma hotSteps_day : ∀ (n : ℕ) (t x : ℤ), 120 ≤ t → t + 120 * n ≤ 1000000 →
    DayBook.run outdoorSumShare ⟨[], some ⟨20250101, 1000000, x⟩⟩ (hotReference (t - 120))
        (hotSteps n t)
      = ⟨[], some ⟨20250101, 1000000, x + 306000 * n⟩⟩ := by
  intro n
  induction n with
  | zero => intro t x _ _; simp [hotSteps, DayBook.run]
  | succ n ih =>
      intro t x ht hend
      push_cast at hend
      have hstep : (hotReference (t - 120)).step (.add t longDay hotRun) = hotReference t := rfl
      have hat : (⟨20250101, 1000000, x⟩ : OpenDay).at t longDay = ⟨20250101, 1000000, x⟩ := by
        rw [OpenDay.at, if_neg]
        exact fun h => absurd h.1 (by show ¬ (1000000 : ℤ) ≤ t; omega)
      have hadd : DayBook.add outdoorSumShare ⟨[], some ⟨20250101, 1000000, x⟩⟩
          (some ⟨-2 ^ 62, t - 120, t, hotRun⟩) t longDay
          = ⟨[], some ⟨20250101, 1000000, x + 306000⟩⟩ := by
        rw [DayBook.add]
        dsimp only
        rw [hat, if_pos (show t < 1000000 by omega), partOf, startOf, hotRun_share ht]
      have hrest := ih (t + 120) (x + 306000) (by omega) (by omega)
      rw [add_sub_cancel_right] at hrest
      rw [hotSteps, DayBook.run, hotReference_interval, hadd, hstep, hrest]
      congr 3
      push_cast
      ring

/-- And to the run. -/
lemma hotSteps_run : ∀ (n : ℕ) (t x : ℤ), 120 ≤ t →
    RunBook.run outdoorSumShare ⟨[], some x⟩ (hotReference (t - 120)) (hotSteps n t)
      = ⟨[], some (x + 306000 * n)⟩ := by
  intro n
  induction n with
  | zero => intro t x _; simp [hotSteps, RunBook.run]
  | succ n ih =>
      intro t x ht
      have hstep : (hotReference (t - 120)).step (.add t longDay hotRun) = hotReference t := rfl
      have hadd : RunBook.add outdoorSumShare ⟨[], some x⟩
          (some ⟨-2 ^ 62, t - 120, t, hotRun⟩) hotRun.active = ⟨[], some (x + 306000)⟩ := by
        rw [← hotRun_share ht]
        rfl
      have hrest := ih (t + 120) (x + 306000) (by omega)
      rw [add_sub_cancel_right] at hrest
      rw [hotSteps, RunBook.run, hotReference_interval, hadd, hstep, hrest]
      congr 2
      push_cast
      ring

/-- The first reading opens the day and starts the run. -/
lemma hotSteps_first (n : ℕ) :
    DayBook.of outdoorSumShare (hotSteps (n + 1) 0) = DayBook.run outdoorSumShare
        ⟨[], some ⟨20250101, 1000000, 0⟩⟩ (hotReference (120 - 120)) (hotSteps n 120) ∧
      RunBook.of outdoorSumShare (hotSteps (n + 1) 0) = RunBook.run outdoorSumShare
        ⟨[], some 0⟩ (hotReference (120 - 120)) (hotSteps n 120) :=
  ⟨rfl, rfl⟩

/-- **Ten days in one disagree.** The 32 bit sum of the open day wraps while the
64 bit sum of the run goes on. -/
theorem tenDays_disagree :
    let steps := hotSteps 7021 0
    ClockRises 0 steps ∧ (∀ step ∈ steps, step.Sound) ∧
      ((({} : Books).run steps).days.map fun a => a.runOutdoorSumDeciS.toInt).sum
        ≠ ((({} : RunBooks).run steps).runs.map fun r => r.outdoorSumDeciS.toInt).sum := by
  intro steps
  have hrise : ClockRises 0 steps := hotSteps_rises 7021 0 le_rfl (by norm_num) 0 le_rfl
  have hsound : ∀ step ∈ steps, step.Sound := hotSteps_sound 7021 0
  refine ⟨hrise, hsound, ?_⟩
  have hdays : (({} : Books).run steps).days.map (·.runOutdoorSumDeciS.toBitVec)
      = (DayBook.of outdoorSumShare steps).days.map (BitVec.ofInt 32) :=
    Books.days_run Tally.outdoorSum hrise
  have hruns : (({} : RunBooks).run steps).runs.map (·.outdoorSumDeciS.toBitVec)
      = (RunBook.of outdoorSumShare steps).runs.map (BitVec.ofInt 64) :=
    RunBooks.runs_run RunTally.outdoorSum hrise hsound
  have hday : (DayBook.of outdoorSumShare steps).days = [2148120000] := by
    rw [(hotSteps_first 7020).1, hotSteps_day 7020 120 0 le_rfl (by norm_num)]
    rfl
  have hrun : (RunBook.of outdoorSumShare steps).runs = [2148120000] := by
    rw [(hotSteps_first 7020).2, hotSteps_run 7020 120 0 le_rfl]
    rfl
  have hday' := congrArg (fun words => (words.map BitVec.toInt).sum) hdays
  have hrun' := congrArg (fun words => (words.map BitVec.toInt).sum) hruns
  rw [hday] at hday'
  rw [hrun] at hrun'
  simp only [List.map_map] at hday' hrun'
  intro heq
  have hsame := hday'.symm.trans (heq.trans hrun')
  revert hsame
  decide

end ArcticController

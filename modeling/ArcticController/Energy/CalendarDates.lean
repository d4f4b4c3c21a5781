/-
The calendar arithmetic of the energy files (`energy_ledger.h`, `run_ledger.h`).

* `CivilDate.stamp`, `CivilDate.Fits`: a date as it is stored;
* `daysFromDate_stamp`: `days_from_date` computes the number of a date;
* `yearOfEra`, `dateFromDays_dayNumber`: `date_from_days` recovers the date;
* `InStoredYears`, `calendar_bijection`: both are inverse to each other, in order and day by day;
* `dateAddDays_ne`: a date is no other number of days away from itself, whatever it is made of.
-/
import ArcticController.Base.Calendar
import ArcticController.Energy.RunStore

namespace ArcticController

/-! ### Stored dates -/

/-- A date as `YYYYMMDD`. -/
def CivilDate.stamp (d : CivilDate) : UInt32 := UInt32.ofNat d.code

/-- A date that 32 bits hold, up to the year 429496. -/
def CivilDate.Fits (d : CivilDate) : Prop := d.code < 2 ^ 32

section Stamp

variable {d : CivilDate}

lemma toNat_dateStamp (h : d.Fits) : d.stamp.toNat = d.code := by
  rw [CivilDate.stamp, UInt32.toNat_ofNat']
  exact Nat.mod_eq_of_lt h

/-- Year, month and day of a stored date. -/
lemma dateStamp_parts (h : d.Fits) : (d.stamp / 10000).toNat = d.year ∧
    (d.stamp / 100 % 100).toNat = d.month ∧ (d.stamp % 100).toNat = d.day := by
  have hday := d.day_lt
  have hmonth := d.month_le
  simp only [UInt32.toNat_div, UInt32.toNat_mod, toNat_dateStamp h, CivilDate.code,
    UInt32.reduceToNat]
  omega

/-! ### The number of a stored date -/

lemma era_eq (y : ℤ) : (if y ≥ 0 then y else y - 399).tdiv 400 = y / 400 := by
  split
  · next h => exact Int.tdiv_eq_ediv_of_nonneg h
  · next h =>
      have hneg : (y - 399).tdiv 400 = -((399 - y) / 400) := by
        rw [← Int.tdiv_eq_ediv_of_nonneg (by omega), ← Int.neg_tdiv, neg_sub]
      omega

/-- The days of whole years, from those of whole eras. -/
lemma yearDays_eq (y : ℤ) : yearDays y
    = y / 400 * 146097 + ((y - y / 400 * 400) * 365 + (y - y / 400 * 400).tdiv 4
      - (y - y / 400 * 400).tdiv 100) := by
  rw [Int.tdiv_eq_ediv_of_nonneg (by omega), Int.tdiv_eq_ediv_of_nonneg (by omega), yearDays]
  omega

/-- `days_from_date` computes the number of a date. -/
lemma daysFromDate_stamp (h : d.Fits) : daysFromDate d.stamp = d.dayNumber - 719468 := by
  obtain ⟨hyear, hmonth, hday⟩ := dateStamp_parts h
  have hmarch : ((d.month : ℤ) + if (d.month : ℤ) > 2 then -3 else 9) = d.marchMonth := by
    rw [CivilDate.marchMonth]
    split <;> split <;> omega
  have hmarchYear : ((d.year : ℤ) - if (d.month : ℤ) ≤ 2 then 1 else 0) = d.marchYear := by
    rw [CivilDate.marchYear]
    split <;> split <;> omega
  have hpos := d.marchMonth_bounds
  rw [daysFromDate, hyear, hmonth, hday]
  rw [hmarch, hmarchYear, era_eq, CivilDate.dayNumber, CivilDate.dayOfYear, yearDays_eq,
    Int.tdiv_eq_ediv_of_nonneg (by omega : 0 ≤ 153 * d.marchMonth + 2)]
  ring

/-! ### The date of a number -/

/-- The year of an era that `date_from_days` finds, from the centuries, the leap periods and the
years of which its days are made. -/
lemma yearOfEra {c q r doy doe : ℤ} (hc : 0 ≤ c ∧ c ≤ 3) (hq : 0 ≤ q ∧ q ≤ 24)
    (hr : 0 ≤ r ∧ r ≤ 3)
    (hdoy : 0 ≤ doy ∧ (doy ≤ 364 ∨ (doy = 365 ∧ r = 3 ∧ (q = 24 → c = 3))))
    (hdoe : doe = 36524 * c + 1461 * q + 365 * r + doy) :
    (doe - doe / 1460 + doe / 36524 - doe / 146096) / 365 = 100 * c + 4 * q + r := by
  have hera : doe / 146096 = 0 ∨ doe = 146096 := by omega
  have hcentury : doe / 36524 = c ∨ doe = 146096 := by omega
  have hleap : doe / 1460 = 25 * c + q ∨ doe / 1460 = 25 * c + q + 1 := by omega
  omega

/-- The days within an era, and the year of the era that they are in. -/
lemma doe_spec (d : CivilDate) {e doe : ℤ} (he : e = d.marchYear / 400)
    (hdoe : doe = d.dayNumber - e * 146097) :
    0 ≤ doe ∧ doe < 146097 ∧
      (doe - doe / 1460 + doe / 36524 - doe / 146096) / 365 = d.marchYear - e * 400 := by
  have hdoy := d.dayOfYear_bounds
  rw [CivilDate.dayNumber, yearDays] at hdoe
  generalize d.dayOfYear = doy at *
  generalize d.marchYear = y at *
  -- the centuries of the era, the leap periods of the century, the years of the period
  obtain ⟨c, hc⟩ : ∃ c, c = (y - e * 400) / 100 := ⟨_, rfl⟩
  obtain ⟨q, hq⟩ : ∃ q, q = (y - e * 400 - c * 100) / 4 := ⟨_, rfl⟩
  obtain ⟨r, hr⟩ : ∃ r, r = y - e * 400 - c * 100 - q * 4 := ⟨_, rfl⟩
  have hparts : doe = 36524 * c + 1461 * q + 365 * r + doy := by omega
  have hyear := @yearOfEra c q r doy doe (by omega) (by omega) (by omega) (by omega) hparts
  refine ⟨by omega, by omega, ?_⟩
  rw [hyear]
  omega

lemma eraOfDays_eq {z e doe : ℤ} (h : z = e * 146097 + doe) (h₀ : 0 ≤ doe) (h₁ : doe < 146097) :
    (if z ≥ 0 then z else z - 146096).tdiv 146097 = e := by
  split
  · next hz =>
      rw [Int.tdiv_eq_ediv_of_nonneg hz]
      omega
  · next hz =>
      have hneg : (z - 146096).tdiv 146097 = -((146096 - z) / 146097) := by
        rw [← Int.tdiv_eq_ediv_of_nonneg (by omega), ← Int.neg_tdiv, neg_sub]
      omega

/-- The month of a day of the year. -/
lemma monthOfDay (d : CivilDate) : (5 * d.dayOfYear + 2) / 153 = d.marchMonth := by
  have hmonth := d.marchMonth_bounds
  have hpos := d.day_pos
  have hdoy := d.dayOfYear_bounds
  rw [CivilDate.dayOfYear] at hdoy ⊢
  by_cases hlast : d.marchMonth < 11
  · have hday := d.day_le_next_month hlast
    generalize d.marchMonth = m at *
    obtain ⟨hlow, hhigh⟩ := hmonth
    interval_cases m <;> omega
  · have hmonth' : d.marchMonth = 11 := by omega
    rw [hmonth'] at hdoy ⊢
    omega

/-- `date_from_days` recovers the date. -/
lemma dateFromDays_dayNumber (d : CivilDate) :
    dateFromDays (d.dayNumber - 719468) = d.stamp := by
  obtain ⟨hlow, hhigh, hyear⟩ := doe_spec d rfl rfl
  have hdoy := d.dayOfYear_bounds
  have hmonth := d.marchMonth_bounds
  have hera := eraOfDays_eq (z := d.dayNumber) (by ring : d.dayNumber
    = d.marchYear / 400 * 146097 + (d.dayNumber - d.marchYear / 400 * 146097)) hlow hhigh
  rw [dateFromDays, sub_add_cancel]
  rw [hera]
  generalize hdoe : d.dayNumber - d.marchYear / 400 * 146097 = doe at *
  generalize hyoe : d.marchYear - d.marchYear / 400 * 400 = yoe at *
  have hyoe₀ : 0 ≤ yoe := by omega
  have hdiv : (doe - doe.tdiv 1460 + doe.tdiv 36524 - doe.tdiv 146096).tdiv 365 = yoe := by
    rw [Int.tdiv_eq_ediv_of_nonneg hlow, Int.tdiv_eq_ediv_of_nonneg hlow,
      Int.tdiv_eq_ediv_of_nonneg hlow, Int.tdiv_eq_ediv_of_nonneg (by omega), hyear]
  rw [hdiv]
  have hday : doe - (365 * yoe + yoe.tdiv 4 - yoe.tdiv 100) = d.dayOfYear := by
    rw [← hdoe, CivilDate.dayNumber, yearDays_eq, hyoe]
    ring
  rw [hday, Int.tdiv_eq_ediv_of_nonneg (by omega : 0 ≤ 5 * d.dayOfYear + 2), monthOfDay,
    Int.tdiv_eq_ediv_of_nonneg (by omega : 0 ≤ 153 * d.marchMonth + 2)]
  have hd : d.dayOfYear - (153 * d.marchMonth + 2) / 5 + 1 = d.day := by
    rw [CivilDate.dayOfYear]
    ring
  have hpos := d.month_pos
  have hle := d.month_le
  have hm : (d.marchMonth + if d.marchMonth < 10 then 3 else -9) = d.month := by
    rw [CivilDate.marchMonth]
    split <;> split <;> omega
  rw [hd, hm]
  have hy : (yoe + d.marchYear / 400 * 400 + if (d.month : ℤ) ≤ 2 then 1 else 0) = d.year := by
    rw [← hyoe, CivilDate.marchYear]
    split <;> split <;> omega
  have hcode : ((d.year : ℤ) * 10000 + d.month * 100 + d.day) = (d.code : ℤ) := by
    rw [CivilDate.code]
    push_cast
    rfl
  rw [hy, hcode, CivilDate.stamp]
  refine UInt32.toNat.inj ?_
  rw [UInt32.ofInt, UInt32.toNat_ofNat', UInt32.toNat_ofNat']
  omega

end Stamp

/-! ### Inverse to each other -/

/-- A day number from the first of January of the year 0 to the last day that is stored, the 31st of
December of the year 429496. -/
structure InStoredYears (z : ℤ) : Prop where
  low : daysFromDate 101 ≤ z
  high : z ≤ daysFromDate 4294961231

/-- The last date of the last year that 32 bits hold. -/
def lastStored : CivilDate := ⟨429496, 12, 31, Nat.le_add_left 1 11, le_rfl, by decide, by decide⟩

lemma CivilDate.fits_of_le {d : CivilDate} (h : d ≤ lastStored) : d.Fits :=
  lt_of_le_of_lt h (by decide : lastStored.code < 2 ^ 32)

/-- A number of the stored years is that of a stored date. -/
lemma InStoredYears.dated {z : ℤ} (h : InStoredYears z) :
    ∃ d : CivilDate, d.Fits ∧ d.dayNumber - 719468 = z := by
  have hfirst : daysFromDate 101 = -719528 := by decide +kernel
  have hlast : daysFromDate 4294961231 = lastStored.dayNumber - 719468 :=
    daysFromDate_stamp (d := lastStored) (CivilDate.fits_of_le le_rfl)
  have hlow := h.low
  have hhigh := h.high
  obtain ⟨d, hd⟩ := CivilDate.exists_dayNumber (z := z + 719468) (by omega)
  refine ⟨d, CivilDate.fits_of_le (not_lt.mp fun hlt => ?_), by omega⟩
  have hgreater := CivilDate.dayNumber_lt hlt
  omega

/-- The date of a number of the stored years. -/
lemma InStoredYears.daysFromDate_dateFromDays {z : ℤ} (h : InStoredYears z) :
    daysFromDate (dateFromDays z) = z := by
  obtain ⟨d, hfits, rfl⟩ := h.dated
  rw [dateFromDays_dayNumber, daysFromDate_stamp hfits]

/-- **Calendar arithmetic is a bijection.** `date_from_days` undoes `days_from_date` on every
date from the year 0 on, and is undone by it on every day number of these years, whose date is a
date of the calendar; the order is kept, consecutive dates differ by one day, and days are added
one number after the other as at once. -/
theorem calendar_bijection :
    (∀ d : CivilDate, d.Fits → dateFromDays (daysFromDate d.stamp) = d.stamp) ∧
      (∀ z, InStoredYears z → daysFromDate (dateFromDays z) = z ∧
        ∃ d : CivilDate, d.Fits ∧ dateFromDays z = d.stamp) ∧
      (∀ a b : CivilDate, a.Fits → b.Fits → (a < b ↔ daysFromDate a.stamp < daysFromDate b.stamp)) ∧
      (∀ a b : CivilDate, a.Fits → b.Fits → a ⋖ b →
        daysFromDate b.stamp = daysFromDate a.stamp + 1) ∧
      ∀ (d : CivilDate) (m n : ℤ), d.Fits → InStoredYears (daysFromDate d.stamp + m) →
        dateAddDays (dateAddDays d.stamp m) n = dateAddDays d.stamp (m + n) := by
  refine ⟨fun d hd => ?_, fun z hz => ⟨hz.daysFromDate_dateFromDays, ?_⟩, fun a b ha hb => ?_,
    fun a b ha hb hnext => ?_, fun d m n hd hm => ?_⟩
  · rw [daysFromDate_stamp hd, dateFromDays_dayNumber]
  · obtain ⟨d, hfits, rfl⟩ := hz.dated
    exact ⟨d, hfits, dateFromDays_dayNumber d⟩
  · rw [daysFromDate_stamp ha, daysFromDate_stamp hb, ← CivilDate.dayNumber_lt_iff]
    exact (sub_lt_sub_iff_right _).symm
  · rw [daysFromDate_stamp ha, daysFromDate_stamp hb, CivilDate.eq_next hnext,
      CivilDate.dayNumber_next]
    ring
  · rw [dateAddDays, dateAddDays, dateAddDays, hm.daysFromDate_dateFromDays, add_assoc]

/-! ### Days apart -/

/-- The number of a date, whatever it is made of, is about that of its year. -/
lemma daysFromDate_bounds (date : UInt32) :
    yearDays ((date / 10000).toNat - 1) - 719469 ≤ daysFromDate date ∧
      daysFromDate date ≤ yearDays (date / 10000).toNat - 716300 := by
  have hm : (date / 100 % 100).toNat < 100 := by
    rw [UInt32.toNat_mod]
    exact Nat.mod_lt _ (by decide)
  have hd : (date % 100).toNat < 100 := by
    rw [UInt32.toNat_mod]
    exact Nat.mod_lt _ (by decide)
  rw [daysFromDate]
  generalize (date / 10000).toNat = y at *
  generalize (date / 100 % 100).toNat = m at *
  generalize (date % 100).toNat = d at *
  have hyear : ∀ y : ℤ, (if y ≥ 0 then y else y - 399).tdiv 400 * 146097
      + ((y - (if y ≥ 0 then y else y - 399).tdiv 400 * 400) * 365
        + (y - (if y ≥ 0 then y else y - 399).tdiv 400 * 400).tdiv 4
        - (y - (if y ≥ 0 then y else y - 399).tdiv 400 * 400).tdiv 100) = yearDays y := by
    intro y
    rw [era_eq, yearDays_eq]
  have hdoy : (153 * ((m : ℤ) + if (m : ℤ) > 2 then -3 else 9) + 2).tdiv 5
      = (153 * ((m : ℤ) + if (m : ℤ) > 2 then -3 else 9) + 2) / 5 :=
    Int.tdiv_eq_ediv_of_nonneg (by split <;> omega)
  have hthis := hyear ((y : ℤ) - if (m : ℤ) ≤ 2 then 1 else 0)
  simp only [hdoy]
  simp only [yearDays] at hthis ⊢
  split_ifs at hthis ⊢ <;> omega

/-- Before the year 0 the four digits of the year wrap to the last years. -/
lemma dateFromDays_wrapped : ∀ i : Fin 500,
    4294900000 ≤ (dateFromDays (-719529 - (i : ℕ))).toNat := by
  decide +kernel

/-- The date some days before a date is another one, whatever the date is made of. -/
lemma dateAddDays_ne {date : UInt32} {k : ℤ} (hk : -100 ≤ k) (hneg : k < 0) :
    dateAddDays date k ≠ date := by
  intro h
  obtain ⟨hlow, hhigh⟩ := daysFromDate_bounds date
  have hyear : (date / 10000).toNat = date.toNat / 10000 := UInt32.toNat_div _ _
  have hlt := date.toNat_lt
  have hfirst : daysFromDate 101 = -719528 := by decide +kernel
  have hlast : daysFromDate 4294961231 = lastStored.dayNumber - 719468 :=
    daysFromDate_stamp (d := lastStored) (CivilDate.fits_of_le le_rfl)
  have hlastDay : lastStored.dayNumber = 156870498 := by decide +kernel
  rw [dateAddDays] at h
  rw [hyear] at hlow hhigh
  by_cases hz : InStoredYears (daysFromDate date + k)
  · have hback := hz.daysFromDate_dateFromDays
    rw [h] at hback
    omega
  · rcases lt_or_ge (daysFromDate date + k) (daysFromDate 101) with hbefore | hafter
    · have hwrapped := dateFromDays_wrapped ⟨(-719529 - (daysFromDate date + k)).toNat, by
        simp only [yearDays] at hlow
        omega⟩
      have hnumber : (-719529 - ((-719529 - (daysFromDate date + k)).toNat : ℤ))
          = daysFromDate date + k := by omega
      simp only [hnumber, h] at hwrapped
      simp only [yearDays] at hlow
      omega
    · have hbehind : daysFromDate 4294961231 < daysFromDate date + k :=
        not_le.mp fun hle => hz ⟨hafter, hle⟩
      obtain ⟨d, hd⟩ := @CivilDate.exists_dayNumber (daysFromDate date + k + 719468) (by omega)
      have hstamp : d.stamp = date := by
        rw [← dateFromDays_dayNumber, hd, add_sub_cancel_right, h]
      have hgreater : lastStored < d := CivilDate.dayNumber_lt_iff.mp (by omega)
      let far : CivilDate := ⟨429510, 1, 1, by decide, by decide, by decide, by decide⟩
      have hfar : far.dayNumber = 156875246 := by decide +kernel
      have hless : d < far := CivilDate.dayNumber_lt_iff.mp (by
        simp only [yearDays] at hhigh
        omega)
      have hcode := CivilDate.lt_iff.mp hgreater
      have hcode' := CivilDate.lt_iff.mp hless
      have hlastCode : lastStored.code = 4294961231 := by decide +kernel
      have hfarCode : far.code = 4295100101 := by decide +kernel
      have hday := d.day_le
      have hlength := CivilDate.monthLength_le d.year d.month
      have hmonth := d.month_le
      have hparts : d.code = d.year * 10000 + d.month * 100 + d.day := rfl
      have hnat : d.stamp.toNat = d.code % 2 ^ 32 := UInt32.toNat_ofNat'
      rw [hstamp] at hnat
      have hlate : 429497 ≤ d.year := by omega
      have hsmall : date.toNat / 10000 ≤ 13 := by omega
      simp only [yearDays] at hhigh
      omega

end ArcticController

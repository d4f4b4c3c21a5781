/-
The proleptic Gregorian calendar from the year 0 on.

* `isLeap`, `monthLength`, `CivilDate`: the dates, in their order;
* `CivilDate.next`, `next_le`, `eq_next`: the date after, which is the next one in the order;
* `marchYear`, `dayOfYear`, `dayNumber`: the number of a date, by years that begin in March;
* `dayNumber_next`, `dayNumber_lt`: each date has the next number;
* `exists_dayNumber`: every number from the first one on is that of a date.
-/
import Mathlib.Tactic
import Mathlib.Order.Cover

namespace ArcticController

/-! ### Dates -/

def isLeap (year : ℕ) : Prop := year % 4 = 0 ∧ (year % 100 ≠ 0 ∨ year % 400 = 0)

instance (year : ℕ) : Decidable (isLeap year) := inferInstanceAs (Decidable (_ ∧ _))

def monthLength (year month : ℕ) : ℕ :=
  match month with
  | 2 => if isLeap year then 29 else 28
  | 4 | 6 | 9 | 11 => 30
  | _ => 31

/-- A date of the calendar. -/
structure CivilDate where
  year : ℕ
  month : ℕ
  day : ℕ
  month_pos : 1 ≤ month
  month_le : month ≤ 12
  day_pos : 1 ≤ day
  day_le : day ≤ monthLength year month
deriving DecidableEq, Repr

namespace CivilDate

/-- A date written as `YYYYMMDD`. -/
def code (d : CivilDate) : ℕ := d.year * 10000 + d.month * 100 + d.day

lemma monthLength_le (year month : ℕ) : monthLength year month ≤ 31 := by
  unfold monthLength
  split
  · split <;> omega
  all_goals omega

lemma le_monthLength (year month : ℕ) : 28 ≤ monthLength year month := by
  unfold monthLength
  split
  · split <;> omega
  all_goals omega

lemma day_lt (d : CivilDate) : d.day < 100 := by
  have hday := d.day_le
  have hlength := monthLength_le d.year d.month
  omega

lemma code_injective : Function.Injective code := by
  rintro ⟨y, m, d, hm, hm', hd, hd'⟩ ⟨y', m', d', hm₂, hm₂', hd₂, hd₂'⟩ h
  have hlength := monthLength_le y m
  have hlength' := monthLength_le y' m'
  dsimp only [code] at h
  obtain rfl : y = y' := by omega
  obtain rfl : m = m' := by omega
  obtain rfl : d = d' := by omega
  rfl

/-- The order of the dates is that of their codes. -/
instance : LinearOrder CivilDate := LinearOrder.lift' code code_injective

lemma lt_iff {a b : CivilDate} : a < b ↔ a.code < b.code := Iff.rfl

lemma le_iff {a b : CivilDate} : a ≤ b ↔ a.code ≤ b.code := Iff.rfl

/-- The first date: the first of January of the year 0. -/
def first : CivilDate := ⟨0, 1, 1, le_rfl, by decide, le_rfl, by decide⟩

/-! ### The date after -/

/-- The date after: in the same month, in the next one, or in the next year. -/
def next (d : CivilDate) : CivilDate :=
  if hday : d.day < monthLength d.year d.month then
    { d with
      day := d.day + 1
      day_pos := Nat.le_add_left 1 d.day
      day_le := hday }
  else if hmonth : d.month < 12 then
    { year := d.year
      month := d.month + 1
      day := 1
      month_pos := Nat.le_add_left 1 d.month
      month_le := hmonth
      day_pos := le_rfl
      day_le := le_trans (by decide) (le_monthLength _ _) }
  else
    { year := d.year + 1
      month := 1
      day := 1
      month_pos := le_rfl
      month_le := by decide
      day_pos := le_rfl
      day_le := le_trans (by decide) (le_monthLength _ _) }

/-- The three cases of the date after. -/
lemma next_cases (d : CivilDate) :
    (d.next.year = d.year ∧ d.next.month = d.month ∧ d.next.day = d.day + 1) ∨
      (d.day = monthLength d.year d.month ∧ d.month < 12 ∧ d.next.year = d.year ∧
        d.next.month = d.month + 1 ∧ d.next.day = 1) ∨
      (d.day = monthLength d.year d.month ∧ d.month = 12 ∧ d.next.year = d.year + 1 ∧
        d.next.month = 1 ∧ d.next.day = 1) := by
  have hday := d.day_le
  have hmonth := d.month_le
  rw [next]
  split
  · exact .inl ⟨rfl, rfl, rfl⟩
  · split
    · next hlt => exact .inr (.inl ⟨by omega, hlt, rfl, rfl, rfl⟩)
    · exact .inr (.inr ⟨by omega, by omega, rfl, rfl, rfl⟩)

lemma lt_next (d : CivilDate) : d < d.next := by
  have hday := d.day_lt
  rw [lt_iff, code, code]
  rcases d.next_cases with ⟨hy, hm, hd⟩ | ⟨-, -, hy, hm, hd⟩ | ⟨-, -, hy, hm, hd⟩
  · omega
  · omega
  · have hmonth := d.month_le
    omega

/-- No date lies between a date and the one after. -/
lemma next_le {a b : CivilDate} (h : a < b) : a.next ≤ b := by
  have hday := b.day_le
  have hpos := b.day_pos
  have hmonth := b.month_pos
  have hlength := monthLength_le b.year b.month
  have hmonth' := b.month_le
  rw [lt_iff, code, code] at h
  rw [le_iff, code, code]
  rcases a.next_cases with ⟨hy, hm, hd⟩ | ⟨hlast, hlt, hy, hm, hd⟩ | ⟨hlast, hlast', hy, hm, hd⟩
  · omega
  · by_cases hsame : b.year = a.year ∧ b.month = a.month
    · rw [hsame.1, hsame.2] at hday
      omega
    · have hd' := a.day_lt
      have hp := a.day_pos
      omega
  · by_cases hsame : b.year = a.year ∧ b.month = a.month
    · rw [hsame.1, hsame.2] at hday
      omega
    · have hd' := a.day_lt
      have hp := a.day_pos
      omega

/-- The date that comes next in the order is the date after. -/
lemma eq_next {a b : CivilDate} (h : a ⋖ b) : b = a.next := by
  rcases (next_le h.lt).lt_or_eq with hlt | heq
  · exact absurd hlt (h.2 a.lt_next)
  · exact heq.symm

end CivilDate

/-! ### The number of a date -/

/-- The days of the years before a year, for years that begin in March. -/
def yearDays (y : ℤ) : ℤ := 365 * y + y / 4 - y / 100 + y / 400

namespace CivilDate

/-- The year of a date, counted from March. -/
def marchYear (d : CivilDate) : ℤ := d.year - if d.month ≤ 2 then 1 else 0

/-- The month of a date, counted from March as 0. -/
def marchMonth (d : CivilDate) : ℤ := d.month + if d.month ≤ 2 then 9 else -3

/-- The day of a date within its year from March, counted from 0. -/
def dayOfYear (d : CivilDate) : ℤ := (153 * d.marchMonth + 2) / 5 + d.day - 1

/-- The days of a date since the first of March of the year 0. -/
def dayNumber (d : CivilDate) : ℤ := yearDays d.marchYear + d.dayOfYear

lemma marchMonth_bounds (d : CivilDate) : 0 ≤ d.marchMonth ∧ d.marchMonth ≤ 11 := by
  have hpos := d.month_pos
  have hle := d.month_le
  rw [marchMonth]
  split <;> omega

/-- The days of a month, but for the last one of the year from March, are those up to the next. -/
lemma day_le_next_month (d : CivilDate) (h : d.marchMonth < 11) :
    (d.day : ℤ) ≤ (153 * (d.marchMonth + 1) + 2) / 5 - (153 * d.marchMonth + 2) / 5 := by
  have hlength := d.day_le
  have hpos := d.month_pos
  have hle := d.month_le
  rw [marchMonth] at h ⊢
  generalize d.month = month at *
  split at h
  · obtain rfl : month = 1 := by omega
    have hmost := monthLength_le d.year 1
    norm_num
    omega
  · next hmarch =>
      rw [if_neg hmarch]
      interval_cases month <;> simp only [monthLength] at hlength <;> omega

lemma isLeap_iff (year : ℕ) :
    isLeap year ↔ (year : ℤ) % 4 = 0 ∧ ((year : ℤ) % 100 = 0 → (year : ℤ) % 400 = 0) := by
  rw [isLeap]
  omega

/-- The last month of the year from March has a 29th day only before a leap day. -/
lemma dayOfYear_bounds (d : CivilDate) : 0 ≤ d.dayOfYear ∧ (d.dayOfYear ≤ 364 ∨
    (d.dayOfYear = 365 ∧ (d.marchYear + 1) % 4 = 0 ∧
      ((d.marchYear + 1) % 100 = 0 → (d.marchYear + 1) % 400 = 0))) := by
  obtain ⟨hlow, hhigh⟩ := d.marchMonth_bounds
  have hpos := d.day_pos
  rw [dayOfYear]
  by_cases hlast : d.marchMonth < 11
  · have hday := d.day_le_next_month hlast
    omega
  · have hfebruary : d.month = 2 := by
      rw [marchMonth] at hlast
      have hle := d.month_le
      split at hlast <;> omega
    have hlength := d.day_le
    rw [hfebruary, monthLength] at hlength
    have hyear : d.marchYear + 1 = d.year := by
      rw [marchYear, hfebruary, if_pos le_rfl]
      omega
    have hmonth : d.marchMonth = 11 := by omega
    rw [hmonth, hyear]
    split at hlength
    · next hleap =>
        have hleap' := (isLeap_iff _).mp hleap
        omega
    · omega

lemma yearDays_succ (y : ℤ) : yearDays (y + 1) = yearDays y + 365 +
    (if (y + 1) % 4 = 0 ∧ ((y + 1) % 100 = 0 → (y + 1) % 400 = 0) then 1 else 0) := by
  rw [yearDays, yearDays]
  split <;> omega

lemma yearDays_mono {y y' : ℤ} (h : y ≤ y') : yearDays y ≤ yearDays y' := by
  rw [yearDays, yearDays]
  omega

lemma yearDays_lt {y y' : ℤ} (h : y < y') : yearDays (y + 1) ≤ yearDays y' := yearDays_mono h

/-- A later date has a greater number. -/
lemma dayNumber_lt {a b : CivilDate} (h : a < b) : a.dayNumber < b.dayNumber := by
  have ha := a.dayOfYear_bounds
  have hb := b.dayOfYear_bounds
  have hsucc := yearDays_succ a.marchYear
  -- the order is that of year and month counted from March
  have horder : a.marchYear < b.marchYear ∨ (a.marchYear = b.marchYear ∧
      (a.marchMonth < b.marchMonth ∨ (a.marchMonth = b.marchMonth ∧ a.day < b.day))) := by
    have hday := a.day_lt
    have hday' := b.day_lt
    have hmonth := a.month_le
    have hmonth' := b.month_le
    have hpos := a.month_pos
    have hpos' := b.month_pos
    rw [lt_iff, code, code] at h
    simp only [marchYear, marchMonth]
    split <;> split <;> omega
  rw [dayNumber, dayNumber]
  rcases horder with hyear | ⟨hyear, hmonth | ⟨hmonth, hday⟩⟩
  · have hle := yearDays_lt hyear
    split at hsucc <;> omega
  · have hnext := a.day_le_next_month (by have := b.marchMonth_bounds; omega)
    have hpos := b.day_pos
    rw [hyear, dayOfYear, dayOfYear]
    omega
  · rw [hyear, dayOfYear, dayOfYear, hmonth]
    omega

/-- The date after has the next number. -/
lemma dayNumber_next (d : CivilDate) : d.next.dayNumber = d.dayNumber + 1 := by
  rcases d.next_cases with ⟨hy, hm, hd⟩ | ⟨hlast, hlt, hy, hm, hd⟩ | ⟨hlast, htwelve, hy, hm, hd⟩
  · rw [dayNumber, dayNumber, dayOfYear, dayOfYear, marchYear, marchYear, marchMonth, marchMonth, hy,
      hm, hd]
    push_cast
    ring
  · have hpos := d.month_pos
    simp only [dayNumber, dayOfYear, marchYear, marchMonth, hy, hm, hd, hlast]
    by_cases hfebruary : d.month = 2
    · -- March begins another year
      have hsucc := yearDays_succ (d.year - 1)
      rw [sub_add_cancel] at hsucc
      rw [hfebruary, monthLength]
      by_cases hleap : isLeap d.year
      · rw [if_pos ((isLeap_iff _).mp hleap)] at hsucc
        norm_num [hleap]
        omega
      · rw [if_neg fun h => hleap ((isLeap_iff _).mpr h)] at hsucc
        norm_num [hleap]
        omega
    · generalize d.month = month at *
      generalize d.year = year at *
      interval_cases month <;> simp [monthLength] at hfebruary ⊢ <;> ring
  · simp only [dayNumber, dayOfYear, marchYear, marchMonth, hy, hm, hd, hlast, htwelve, monthLength]
    norm_num
    ring

/-- The number of the first date. -/
lemma dayNumber_first : first.dayNumber = -60 := by decide

/-- Every number from the first one on is that of a date. -/
lemma exists_dayNumber {z : ℤ} (h : -60 ≤ z) : ∃ d : CivilDate, d.dayNumber = z := by
  induction z, h using Int.leInduction with
  | base => exact ⟨first, dayNumber_first⟩
  | succ z _ ih =>
      obtain ⟨d, rfl⟩ := ih
      exact ⟨d.next, d.dayNumber_next⟩

lemma dayNumber_lt_iff {a b : CivilDate} : a.dayNumber < b.dayNumber ↔ a < b := by
  refine ⟨fun h => ?_, dayNumber_lt⟩
  by_contra hnot
  rcases (not_lt.mp hnot).lt_or_eq with hlt | heq
  · exact absurd (dayNumber_lt hlt) (by omega)
  · rw [heq] at h
    exact lt_irrefl _ h

end CivilDate

end ArcticController

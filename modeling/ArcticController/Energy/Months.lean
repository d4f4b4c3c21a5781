/-
Calendar months as the energy store counts them: the number `YYYYMM` in a
32-bit word, stepped back and forth with `prev_month` and `next_month`.

* `prevMonth`, `nextMonth`: the two steps of the source;
* `ValidMonth`, `monthIndex`: the months of the calendar, numbered in a row;
* `ValidMonth.iterate_prev`, `ValidMonth.iterate_prev_gt`: walking back from a
  month of the calendar visits one month after the other, and leaves the
  calendar when it passes year 0;
* `iterate_prevMonth_ne`: a walk of up to 900 months never meets a month twice,
  wherever it starts;
* `ValidMonth.le_or_nextMonth_le`: walking forth skips no month of the calendar.
-/
import Mathlib.Tactic

namespace ArcticController

/-- The calendar month before a `YYYYMM` value. -/
def prevMonth (yyyymm : UInt32) : UInt32 :=
  if yyyymm % 100 ≤ 1 then (yyyymm / 100 - 1) * 100 + 12 else yyyymm - 1

/-- The calendar month after a `YYYYMM` value. -/
def nextMonth (yyyymm : UInt32) : UInt32 :=
  if yyyymm % 100 ≥ 12 then (yyyymm / 100 + 1) * 100 + 1 else yyyymm + 1

/-- The month of a date. -/
def monthOf (date : UInt32) : UInt32 := date / 100

/-- The largest value a date of 32 bits leaves for its month. -/
def maxMonth : ℕ := 42949672

lemma monthOf_le (date : UInt32) : (monthOf date).toNat ≤ maxMonth := by
  have h := date.toNat_lt
  simp only [monthOf, UInt32.toNat_div, UInt32.toNat_ofNat, Nat.reducePow, Nat.reduceMod, maxMonth]
  omega

variable {a b ym : UInt32}

lemma monthOf_mono (h : a ≤ b) : monthOf a ≤ monthOf b := by
  rw [UInt32.le_iff_toNat_le] at h ⊢
  simp only [monthOf, UInt32.toNat_div, UInt32.toNat_ofNat, Nat.reducePow, Nat.reduceMod]
  omega

/-! ### Any walk back -/

/-- `prevMonth` on numbers: below year 0 it wraps round. -/
lemma prevMonth_toNat (ym : UInt32) :
    (prevMonth ym).toNat =
      if ym.toNat % 100 ≤ 1 then
        if ym.toNat < 100 then 2 ^ 32 - 88 else (ym.toNat / 100 - 1) * 100 + 12
      else ym.toNat - 1 := by
  have hlt := ym.toNat_lt
  have hcond : ym % 100 ≤ 1 ↔ ym.toNat % 100 ≤ 1 := by
    rw [UInt32.le_iff_toNat_le]; simp
  by_cases h : ym.toNat % 100 ≤ 1
  · rw [prevMonth, if_pos (hcond.mpr h), if_pos h]
    by_cases h0 : ym.toNat < 100
    · rw [if_pos h0]
      have hz : ym / 100 = 0 := by
        rw [← UInt32.toNat_inj]; simp; omega
      rw [hz]
      decide
    · rw [if_neg h0]
      simp only [UInt32.toNat_add, UInt32.toNat_mul, UInt32.toNat_sub, UInt32.toNat_div,
        UInt32.toNat_ofNat, Nat.reducePow, Nat.reduceMod]
      omega
  · rw [prevMonth, if_neg (fun hc => h (hcond.mp hc)), if_neg h]
    simp only [UInt32.toNat_sub, UInt32.toNat_ofNat, Nat.reducePow, Nat.reduceMod]
    omega

lemma prevMonth_ne_zero (ym : UInt32) : prevMonth ym ≠ 0 := by
  intro h
  have h0 := prevMonth_toNat ym
  rw [h] at h0
  simp only [UInt32.toNat_zero] at h0
  split_ifs at h0
  omega

/-- The place of a month on a walk back: the months past year 0 come below all
others. -/
def monthRank (ym : UInt32) : ℤ :=
  if ym.toNat ≤ maxMonth then ym.toNat else (ym.toNat : ℤ) - 2 ^ 32

lemma monthRank_prevMonth (h : -100000 ≤ monthRank ym) :
    monthRank (prevMonth ym) < monthRank ym ∧ monthRank ym - 100 ≤ monthRank (prevMonth ym) := by
  have hlt := ym.toNat_lt
  simp only [monthRank, maxMonth, prevMonth_toNat] at h ⊢
  split_ifs at h ⊢ <;> omega

lemma monthRank_iterate (h : 0 ≤ monthRank ym) :
    ∀ k ≤ 1000, monthRank (prevMonth^[k] ym) ≤ monthRank ym - k ∧
      -100 * k ≤ monthRank (prevMonth^[k] ym) := by
  intro k
  induction k with
  | zero => exact fun _ => ⟨by simp, by simpa using h⟩
  | succ k ih =>
      intro hk
      obtain ⟨h1, h2⟩ := ih (by omega)
      obtain ⟨h3, h4⟩ := @monthRank_prevMonth (prevMonth^[k] ym) (by omega)
      rw [Function.iterate_succ_apply']
      push_cast
      constructor <;> omega

lemma monthRank_nonneg (h : ym.toNat ≤ maxMonth) : 0 ≤ monthRank ym := by
  rw [monthRank, if_pos h]
  exact Int.natCast_nonneg _

/-- A month a walk of `k` steps reaches is reached by no shorter walk. -/
lemma iterate_prevMonth_ne (h : ym.toNat ≤ maxMonth) {j k : ℕ} (hjk : j < k) (hk : k ≤ 900) :
    prevMonth^[k] ym ≠ prevMonth^[j] ym := by
  have hsteps : ∀ d i, i + d ≤ 900 → monthRank (prevMonth^[i + d] ym) ≤ monthRank (prevMonth^[i] ym) - d := by
    intro d
    induction d with
    | zero => intro i _; simp
    | succ d ih =>
        intro i hi
        have hlow := (monthRank_iterate (monthRank_nonneg h) (i + d) (by omega)).2
        have hstep := (@monthRank_prevMonth (prevMonth^[i + d] ym) (by omega)).1
        have hrec := ih i (by omega)
        rw [← Nat.add_assoc, Function.iterate_succ_apply']
        push_cast
        omega
  intro heq
  obtain ⟨d, rfl⟩ := Nat.exists_eq_add_of_lt hjk
  have := hsteps (d + 1) j (by omega)
  rw [show j + d + 1 = j + (d + 1) by omega] at heq
  rw [heq] at this
  push_cast at this
  omega

/-! ### The months of the calendar -/

/-- A month of the calendar that a date of 32 bits may have. -/
structure ValidMonth (ym : UInt32) : Prop where
  one_le : 1 ≤ ym.toNat % 100
  le_twelve : ym.toNat % 100 ≤ 12
  le_max : ym.toNat ≤ maxMonth

/-- The number of a month, counted from January of year 0. -/
def monthIndex (ym : UInt32) : ℕ := ym.toNat / 100 * 12 + ym.toNat % 100 - 1

lemma ValidMonth.index_inj (ha : ValidMonth a) (hb : ValidMonth b)
    (h : monthIndex a = monthIndex b) : a = b := by
  obtain ⟨ha1, ha2, -⟩ := ha
  obtain ⟨hb1, hb2, -⟩ := hb
  rw [← UInt32.toNat_inj]
  simp only [monthIndex] at h
  omega

lemma ValidMonth.index_lt_iff (ha : ValidMonth a) (hb : ValidMonth b) :
    monthIndex a < monthIndex b ↔ a < b := by
  obtain ⟨ha1, ha2, -⟩ := ha
  obtain ⟨hb1, hb2, -⟩ := hb
  rw [UInt32.lt_iff_toNat_lt]
  simp only [monthIndex]
  omega

lemma ValidMonth.index_le_iff (ha : ValidMonth a) (hb : ValidMonth b) :
    monthIndex a ≤ monthIndex b ↔ a ≤ b := by
  obtain ⟨ha1, ha2, -⟩ := ha
  obtain ⟨hb1, hb2, -⟩ := hb
  rw [UInt32.le_iff_toNat_le]
  simp only [monthIndex]
  omega

/-- One step back from a month of the calendar. -/
lemma ValidMonth.prev (h : ValidMonth ym) (hpos : 0 < monthIndex ym) :
    ValidMonth (prevMonth ym) ∧ monthIndex (prevMonth ym) + 1 = monthIndex ym := by
  obtain ⟨h1, h2, h3⟩ := h
  have hstep := prevMonth_toNat ym
  simp only [monthIndex, maxMonth] at *
  split_ifs at hstep
  · omega
  · exact ⟨⟨by omega, by omega, by simp only [maxMonth]; omega⟩, by omega⟩
  · exact ⟨⟨by omega, by omega, by simp only [maxMonth]; omega⟩, by omega⟩

/-- Walking back `k` months within the calendar. -/
lemma ValidMonth.iterate_prev (h : ValidMonth ym) :
    ∀ k ≤ monthIndex ym, ValidMonth (prevMonth^[k] ym) ∧
      monthIndex (prevMonth^[k] ym) + k = monthIndex ym := by
  intro k
  induction k with
  | zero => exact fun _ => ⟨h, rfl⟩
  | succ k ih =>
      intro hk
      obtain ⟨hv, hi⟩ := ih (by omega)
      obtain ⟨hv', hi'⟩ := hv.prev (by omega)
      rw [Function.iterate_succ_apply']
      exact ⟨hv', by omega⟩

/-- Walking back past year 0 leaves the months a date may have. -/
lemma ValidMonth.iterate_prev_gt (h : ValidMonth ym) {k : ℕ} (hk : monthIndex ym < k)
    (hk' : k ≤ monthIndex ym + 900) : maxMonth < (prevMonth^[k] ym).toNat := by
  obtain ⟨d, rfl⟩ := Nat.exists_eq_add_of_lt hk
  obtain ⟨hv, hi⟩ := h.iterate_prev (monthIndex ym) le_rfl
  have hfirst : (prevMonth^[monthIndex ym] ym).toNat = 1 := by
    obtain ⟨h1, h2, -⟩ := hv
    simp only [monthIndex] at *
    omega
  have hle : (prevMonth^[monthIndex ym] ym).toNat ≤ maxMonth := hv.le_max
  obtain ⟨h1, h2⟩ := monthRank_iterate (monthRank_nonneg hle) (d + 1) (by omega)
  rw [show monthIndex ym + d + 1 = (d + 1) + monthIndex ym by omega, Function.iterate_add_apply]
  have hrank : monthRank (prevMonth^[monthIndex ym] ym) = 1 := by
    rw [monthRank, if_pos hle, hfirst]; rfl
  rw [hrank] at h1
  by_contra hcon
  rw [monthRank, if_pos (not_lt.mp hcon)] at h1
  have hone : (prevMonth (prevMonth^[monthIndex ym] ym)).toNat = 2 ^ 32 - 88 := by
    rw [prevMonth_toNat, hfirst]; rfl
  push_cast at h1
  have hd : d = 0 := by omega
  subst hd
  rw [Function.iterate_one, hone] at hcon
  exact hcon (by decide)

/-- A month of the calendar that lies `k` months back is what a walk of `k`
months reaches. -/
lemma ValidMonth.iterate_eq (ha : ValidMonth a) (hb : ValidMonth b) {k : ℕ}
    (h : monthIndex a + k = monthIndex b) : prevMonth^[k] b = a := by
  obtain ⟨hv, hi⟩ := hb.iterate_prev k (by omega)
  exact hv.index_inj ha (by omega)

/-! ### Walking forth -/

lemma nextMonth_toNat (h : ym.toNat ≤ maxMonth) :
    (nextMonth ym).toNat =
      if 12 ≤ ym.toNat % 100 then (ym.toNat / 100 + 1) * 100 + 1 else ym.toNat + 1 := by
  have hcond : ym % 100 ≥ 12 ↔ 12 ≤ ym.toNat % 100 := by
    rw [ge_iff_le, UInt32.le_iff_toNat_le]; simp
  simp only [maxMonth] at h
  by_cases hc : 12 ≤ ym.toNat % 100
  · rw [nextMonth, if_pos (hcond.mpr hc), if_pos hc]
    simp only [UInt32.toNat_add, UInt32.toNat_mul, UInt32.toNat_div, UInt32.toNat_ofNat, Nat.reducePow, Nat.reduceMod]
    omega
  · rw [nextMonth, if_neg (fun h' => hc (hcond.mp h')), if_neg hc]
    simp only [UInt32.toNat_add, UInt32.toNat_ofNat, Nat.reducePow, Nat.reduceMod]
    omega

lemma lt_nextMonth (h : ym.toNat ≤ maxMonth) : ym.toNat < (nextMonth ym).toNat := by
  rw [nextMonth_toNat h]
  split_ifs <;> omega

/-- No month of the calendar is skipped on the way forth. -/
lemma ValidMonth.le_or_nextMonth_le {m : UInt32} (h : ym.toNat ≤ maxMonth) (hm : ValidMonth m)
    (hle : ym.toNat ≤ m.toNat) : m = ym ∨ (nextMonth ym).toNat ≤ m.toNat := by
  rcases Nat.eq_or_lt_of_le hle with heq | hlt
  · exact .inl (UInt32.toNat_inj.mp heq.symm)
  · right
    obtain ⟨h1, h2, -⟩ := hm
    rw [nextMonth_toNat h]
    split_ifs <;> omega

end ArcticController

/-
Sums of weighted values and the average taken of them.

* `Weighted`: the sum of `n` units of values that lie between two bounds;
* `Weighted.zero`, `.add`, `.mono`: nothing, one more value, wider bounds;
* `Weighted.tdiv`: the average, rounded towards zero, lies between the bounds;
* `Weighted.abs_sum_le`: how large the sum can be.
-/
import Mathlib.Tactic

namespace ArcticController

/-- The sum `s` of `n` units of values between `lo` and `hi`. -/
structure Weighted (lo hi n s : ℤ) : Prop where
  lower : lo * n ≤ s
  upper : s ≤ hi * n

namespace Weighted

variable {lo hi n s : ℤ}

lemma zero : Weighted lo hi 0 0 := ⟨(mul_zero lo).le, (mul_zero hi).ge⟩

/-- `d` more units of the value `x`. -/
lemma add (h : Weighted lo hi n s) {x d : ℤ} (hlo : lo ≤ x) (hhi : x ≤ hi) (hd : 0 ≤ d) :
    Weighted lo hi (n + d) (s + x * d) where
  lower := by
    rw [mul_add]
    exact add_le_add h.lower (mul_le_mul_of_nonneg_right hlo hd)
  upper := by
    rw [mul_add]
    exact add_le_add h.upper (mul_le_mul_of_nonneg_right hhi hd)

lemma mono (h : Weighted lo hi n s) (hn : 0 ≤ n) {lo' hi' : ℤ} (hlo : lo' ≤ lo) (hhi : hi ≤ hi') :
    Weighted lo' hi' n s where
  lower := (mul_le_mul_of_nonneg_right hlo hn).trans h.lower
  upper := h.upper.trans (mul_le_mul_of_nonneg_right hhi hn)

/-- Rounding towards zero keeps the average between the bounds, whatever their signs. -/
lemma tdiv (h : Weighted lo hi n s) (hn : 0 < n) : lo ≤ s.tdiv n ∧ s.tdiv n ≤ hi := by
  have hlo := Int.tdiv_le_tdiv hn h.lower
  have hhi := Int.tdiv_le_tdiv hn h.upper
  rw [Int.mul_tdiv_cancel _ hn.ne'] at hlo hhi
  exact ⟨hlo, hhi⟩

/-- The sum is no larger than its units at the larger bound. -/
lemma abs_sum_le (h : Weighted lo hi n s) (hn : 0 ≤ n) {c : ℤ} (hlo : -c ≤ lo) (hhi : hi ≤ c) :
    |s| ≤ c * n := by
  obtain ⟨hlower, hupper⟩ := h.mono hn hlo hhi
  rw [neg_mul] at hlower
  exact abs_le'.mpr ⟨hupper, by omega⟩

end Weighted

end ArcticController

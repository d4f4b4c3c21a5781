/-
A clock that is read modulo `2^32`.

* `stamp`: what the clock shows at a moment;
* `elapsed_stamp`, `elapsed_exact`: the difference of two stamps, which is exact within one turn of
  the clock;
* `deadline_passed_iff`: the sign of a difference tells whether a deadline has passed, within half
  a turn.
-/
import Mathlib.Tactic

namespace ArcticController

/-- What the clock shows at a moment. -/
def stamp (ms : ℕ) : UInt32 := UInt32.ofNat ms

lemma toNat_stamp (ms : ℕ) : (stamp ms).toNat = ms % 2 ^ 32 := UInt32.toNat_ofNat'

lemma stamp_add (ms : ℕ) (d : UInt32) : stamp ms + d = stamp (ms + d.toNat) := by
  rw [stamp, stamp, UInt32.ofNat_add, UInt32.ofNat_toNat]

section Elapsed

variable {a b : ℕ}

/-- The difference of two stamps misses whole turns. -/
lemma elapsed_stamp (h : a ≤ b) : (stamp b - stamp a).toNat = (b - a) % 2 ^ 32 := by
  obtain ⟨d, rfl⟩ := Nat.exists_eq_add_of_le h
  rw [UInt32.toNat_sub, toNat_stamp, toNat_stamp]
  omega

lemma elapsed_exact (h : a ≤ b) (hturn : b < a + 2 ^ 32) : (stamp b - stamp a).toNat = b - a := by
  rw [elapsed_stamp h]
  exact Nat.mod_eq_of_lt (by omega)

/-- Within one turn, more than a span has elapsed only if it has. -/
lemma elapsed_gt_iff {span : UInt32} (h : a ≤ b) (hturn : b < a + 2 ^ 32) :
    stamp b - stamp a > span ↔ a + span.toNat < b := by
  rw [gt_iff_lt, UInt32.lt_iff_toNat_lt, elapsed_exact h hturn]
  omega

/-- What seems to have elapsed has. -/
lemma elapsed_ge {span : UInt32} (h : a ≤ b) (hge : span ≤ stamp b - stamp a) :
    a + span.toNat ≤ b := by
  rw [UInt32.le_iff_toNat_le, elapsed_stamp h] at hge
  have hmod := Nat.mod_le (b - a) (2 ^ 32)
  omega

/-- Within half a turn, the sign tells whether a deadline has passed. -/
lemma deadline_passed_iff (hearly : a ≤ b + 2 ^ 31) (hlate : b < a + 2 ^ 31) :
    0 ≤ (stamp b - stamp a).toInt32 ↔ a ≤ b := by
  have hword : (stamp b - stamp a).toInt32.toInt = (stamp b - stamp a).toBitVec.toInt := rfl
  have hnat : (stamp b - stamp a).toBitVec.toNat = (stamp b - stamp a).toNat := rfl
  have hsub : (stamp b - stamp a).toNat = (2 ^ 32 - a % 2 ^ 32 + b % 2 ^ 32) % 2 ^ 32 := by
    rw [UInt32.toNat_sub, toNat_stamp, toNat_stamp]
  have hzero : (0 : Int32).toInt = 0 := rfl
  rw [Int32.le_iff_toInt_le, hword, hzero, BitVec.toInt_eq_toNat_cond, hnat, hsub]
  split <;> omega

end Elapsed

end ArcticController

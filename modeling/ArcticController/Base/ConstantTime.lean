/-
Comparing two byte strings in a time that does not depend on where they differ.

* `constantTimeEqual`: the comparison, as the differences ored together;
* `constantTimeEqual_iff`: it says whether the strings are the same.
-/
import Mathlib.Data.List.GetD
import Mathlib.Tactic

namespace ArcticController

/-- The differences of the first `len` bytes, ored together, are none. -/
def constantTimeEqual (len : ℕ) (lhs rhs : List UInt8) : Bool :=
  (List.range len).foldl (fun difference i => difference ||| (lhs.getD i 0 ^^^ rhs.getD i 0)) 0 == 0

lemma foldl_or_eq_zero (f : ℕ → UInt8) : ∀ (l : List ℕ) (d : UInt8),
    l.foldl (fun d i => d ||| f i) d = 0 ↔ d = 0 ∧ ∀ i ∈ l, f i = 0 := by
  intro l
  induction l with
  | nil => intro d; simp
  | cons i l ih =>
      intro d
      rw [List.foldl_cons, ih, UInt8.or_eq_zero_iff, List.forall_mem_cons, and_assoc]

/-- Strings of that length compare equal exactly if they are the same. -/
theorem constantTimeEqual_iff {len : ℕ} {lhs rhs : List UInt8} (hlhs : lhs.length = len)
    (hrhs : rhs.length = len) : constantTimeEqual len lhs rhs ↔ lhs = rhs := by
  rw [constantTimeEqual, beq_iff_eq, foldl_or_eq_zero]
  constructor
  · rintro ⟨-, h⟩
    refine List.ext_getElem (hlhs.trans hrhs.symm) fun i hl hr => ?_
    have hi := UInt8.xor_eq_zero_iff.mp (h i (List.mem_range.mpr (hlhs ▸ hl)))
    rwa [List.getD_eq_getElem _ _ hl, List.getD_eq_getElem _ _ hr] at hi
  · rintro rfl
    exact ⟨rfl, fun i _ => UInt8.xor_eq_zero_iff.mpr rfl⟩

end ArcticController

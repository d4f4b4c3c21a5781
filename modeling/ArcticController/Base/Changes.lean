/-
How often a value changed along a list.

* `changes`: the number of runs of equal values;
* `changes_concat`: one more value counts when it differs from the last one;
* `changes_mono`: the count of a beginning is at most that of the whole list;
* `changes_eq_iff`: it is the same exactly if the value did not change since.
-/
import Mathlib.Tactic

namespace ArcticController

variable {α : Type} [DecidableEq α]

/-- The number of runs of equal values. -/
def changes : List α → ℕ
  | [] => 0
  | [_] => 1
  | a :: b :: l => (if a = b then 0 else 1) + changes (b :: l)

/-- One more value counts when it differs from the last one. -/
lemma changes_concat (a b : α) : ∀ l : List α,
    changes (l ++ [a, b]) = changes (l ++ [a]) + if a = b then 0 else 1
  | [] => by
      show (if a = b then 0 else 1) + 1 = 1 + if a = b then 0 else 1
      exact Nat.add_comm _ _
  | [c] => by
      have h := changes_concat a b []
      simp only [List.nil_append] at h
      simp only [List.cons_append, List.nil_append, changes] at h ⊢
      omega
  | c :: d :: l => by
      have h := changes_concat a b (d :: l)
      simp only [List.cons_append] at h
      simp only [List.cons_append, changes, h, Nat.add_assoc]

lemma changes_append_le (l : List α) : ∀ more : List α, changes l ≤ changes (l ++ more) := by
  intro more
  induction more using List.reverseRecOn with
  | nil => rw [List.append_nil]
  | append_singleton more a ih =>
      refine ih.trans ?_
      rw [← List.append_assoc]
      rcases List.eq_nil_or_concat (l ++ more) with h | ⟨m, b, h⟩
      · rw [h]
        exact Nat.zero_le _
      · rw [h, List.concat_eq_append, List.append_assoc, List.singleton_append, changes_concat]
        exact Nat.le_add_right _ _

/-- The count of a beginning is at most that of the whole list. -/
lemma changes_mono {l more : List α} (h : l <+: more) : changes l ≤ changes more := by
  obtain ⟨rest, rfl⟩ := h
  exact changes_append_le l rest

/-- Nothing changed exactly if all later values are the last one. -/
lemma changes_eq_iff (l : List α) (a : α) (more : List α) :
    changes (l ++ a :: more) = changes (l ++ [a]) ↔ ∀ b ∈ more, b = a := by
  induction more using List.reverseRecOn with
  | nil => exact iff_of_true rfl nofun
  | append_singleton more b ih =>
      obtain ⟨m, c, hm⟩ : ∃ m c, l ++ a :: more = m ++ [c] := by
        rcases List.eq_nil_or_concat (l ++ a :: more) with h | ⟨m, c, h⟩
        · cases (List.append_eq_nil_iff.mp h).2
        · exact ⟨m, c, h.trans (List.concat_eq_append ..)⟩
      have hcount : changes (l ++ a :: (more ++ [b])) =
          changes (l ++ a :: more) + if c = b then 0 else 1 := by
        rw [← List.cons_append, ← List.append_assoc, hm, List.append_assoc, List.singleton_append,
          changes_concat]
      have hle : changes (l ++ [a]) ≤ changes (l ++ a :: more) :=
        changes_mono ⟨more, by rw [List.append_assoc, List.singleton_append]⟩
      have hlast : (∀ x ∈ more, x = a) → c = a := by
        intro hall
        rcases List.eq_nil_or_concat more with rfl | ⟨more', d, rfl⟩
        · exact (List.append_inj' hm rfl).2 |> List.singleton_inj.mp |> Eq.symm
        · rw [List.concat_eq_append, ← List.cons_append, ← List.append_assoc] at hm
          have hd := List.singleton_inj.mp (List.append_inj' hm rfl).2
          rw [← hd]
          exact hall d (by rw [List.concat_eq_append]; exact List.mem_append_right _ List.mem_cons_self)
      rw [hcount, List.forall_mem_append, List.forall_mem_singleton]
      constructor
      · intro h
        have hsame : changes (l ++ a :: more) = changes (l ++ [a]) := by omega
        have hcb : c = b := by
          by_contra hne
          rw [if_neg hne] at h
          omega
        have hall := ih.mp hsame
        exact ⟨hall, hcb ▸ hlast hall⟩
      · rintro ⟨hall, rfl⟩
        rw [if_pos (hlast hall), ih.mpr hall, Nat.add_zero]

end ArcticController

/-
Lists in which two values take turns.

* `AlternatesFrom`: the list is `a, b, a, b, …`;
* `AlternatesFrom.pair`, `AlternatesFrom.of_append`: a pair more in front, and the front of a list;
* `AlternatesFrom.concat_first`, `AlternatesFrom.concat_second`: one value more, in turn.
-/
import Mathlib.Data.List.Basic
import Mathlib.Tactic

namespace ArcticController

variable {α : Type}

/-- The list is `a, b, a, b, …`. -/
def AlternatesFrom (a b : α) : List α → Prop
  | [] => True
  | x :: l => x = a ∧ AlternatesFrom b a l

namespace AlternatesFrom

variable {a b : α} {l : List α}

lemma pair (h : AlternatesFrom a b l) :
    AlternatesFrom a b (a :: b :: l) := ⟨rfl, rfl, h⟩

lemma of_append {l' : List α} (h : AlternatesFrom a b (l ++ l')) : AlternatesFrom a b l := by
  induction l generalizing a b with
  | nil => exact trivial
  | cons x l ih => exact ⟨h.1, ih h.2⟩

/-- The last value is one of the two. -/
lemma getLast (h : AlternatesFrom a b l) : ∀ x ∈ l.getLast?, x = a ∨ x = b := by
  induction l generalizing a b with
  | nil => nofun
  | cons y l ih =>
      intro x hx
      cases l with
      | nil => exact .inl ((Option.some_inj.mp hx).symm.trans h.1)
      | cons z l => exact (ih h.2 x (by rwa [List.getLast?_cons_cons] at hx)).symm

lemma concat (hne : a ≠ b) (h : AlternatesFrom a b l) :
    (l.getLast? ≠ some a → AlternatesFrom a b (l ++ [a])) ∧
      (l.getLast? = some a → AlternatesFrom a b (l ++ [b])) := by
  induction l generalizing a b with
  | nil => exact ⟨fun _ => ⟨rfl, trivial⟩, nofun⟩
  | cons x l ih =>
      obtain ⟨rfl, htail⟩ := h
      cases l with
      | nil => exact ⟨fun hlast => absurd rfl hlast, fun _ => ⟨rfl, rfl, trivial⟩⟩
      | cons y l =>
          obtain ⟨hother, hsame⟩ := ih (Ne.symm hne) htail
          rw [List.getLast?_cons_cons]
          refine ⟨fun hlast => ⟨rfl, hsame ?_⟩, fun hlast => ⟨rfl, hother ?_⟩⟩
          · obtain ⟨z, hz⟩ : ∃ z, (y :: l).getLast? = some z :=
              ⟨_, List.getLast?_eq_some_getLast (List.cons_ne_nil y l)⟩
            rcases htail.getLast z hz with rfl | rfl
            · exact hz
            · exact absurd hz hlast
          · rw [hlast]
            exact fun heq => hne (Option.some_inj.mp heq)

lemma concat_first (hne : a ≠ b) (h : AlternatesFrom a b l) (hlast : l.getLast? ≠ some a) :
    AlternatesFrom a b (l ++ [a]) := (concat hne h).1 hlast

lemma concat_second (hne : a ≠ b) (h : AlternatesFrom a b l) (hlast : l.getLast? = some a) :
    AlternatesFrom a b (l ++ [b]) := (concat hne h).2 hlast

end AlternatesFrom

end ArcticController

/-
The longest stretch at the end of a list of which a predicate holds.

* `TailRun`: the stretch begins with an element;
* `TailRun.start`, `TailRun.concat`: one more element begins a stretch or goes on with it;
* `TailRun.mem`, `TailRun.mem_after`: the first element is one of the list, after every element of
  which the predicate does not hold.
-/
import Mathlib.Data.List.Basic
import Mathlib.Tactic

namespace ArcticController

variable {α : Type} {p : α → Prop} {l : List α} {x y : α}

/-- The list ends with a stretch of which the predicate holds, and `x` is the first of it. -/
def TailRun (p : α → Prop) (l : List α) (x : α) : Prop :=
  ∃ before rest, l = before ++ x :: rest ∧ (∀ y ∈ x :: rest, p y) ∧ ∀ y ∈ before.getLast?, ¬ p y

namespace TailRun

lemma start (hlast : ∀ y ∈ l.getLast?, ¬ p y) (hx : p x) : TailRun p (l ++ [x]) x :=
  ⟨l, [], rfl, by simpa using hx, hlast⟩

lemma concat (h : TailRun p l x) (hy : p y) : TailRun p (l ++ [y]) x := by
  obtain ⟨before, rest, rfl, hall, hlast⟩ := h
  refine ⟨before, rest ++ [y], by simp, fun z hz => ?_, hlast⟩
  rw [← List.cons_append, List.mem_append, List.mem_singleton] at hz
  rcases hz with hz | rfl
  · exact hall z hz
  · exact hy

lemma mem (h : TailRun p l x) : x ∈ l := by
  obtain ⟨before, rest, rfl, -, -⟩ := h
  exact List.mem_append_right _ List.mem_cons_self

lemma mem_after {before rest : List α} (h : TailRun p (before ++ y :: rest) x) (hy : ¬ p y) :
    x ∈ rest := by
  obtain ⟨before', rest', hsplit, hall, -⟩ := h
  rcases List.append_eq_append_iff.mp hsplit with ⟨between, rfl, hlater⟩ | ⟨between, rfl, hlater⟩
  · cases between with
    | nil =>
        rw [List.nil_append, List.cons_eq_cons] at hlater
        exact absurd (hlater.1 ▸ hall x List.mem_cons_self) hy
    | cons z between =>
        rw [List.cons_append, List.cons_eq_cons] at hlater
        rw [hlater.2]
        exact List.mem_append_right _ List.mem_cons_self
  · refine absurd (hall y ?_) hy
    rw [hlater]
    exact List.mem_append_right _ List.mem_cons_self

end TailRun

end ArcticController

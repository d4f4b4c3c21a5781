/-
A lock that one of many tasks may hold.

* `Guards`: the tasks inside of the section a lock guards are those that hold it;
* `Guards.take`, `Guards.give`, `Guards.stay`: a task that takes the lock, gives
  it back, or moves without either;
* `Guards.unique`: no two tasks are inside.
-/
import Mathlib.Logic.Function.Basic
import Mathlib.Tactic

namespace ArcticController

variable {τ : Type}

/-- The tasks inside are those that hold the lock. -/
def Guards (inside : τ → Prop) (holder : Option ℕ) (task : ℕ → τ) : Prop :=
  ∀ t, inside (task t) ↔ holder = some t

namespace Guards

variable {inside : τ → Prop} {holder : Option ℕ} {task : ℕ → τ}

lemma take (h : Guards inside none task) {t : ℕ} {new : τ} (hnew : inside new) :
    Guards inside (some t) (Function.update task t new) := by
  intro t'
  by_cases ht : t' = t
  · subst ht
    rw [Function.update_self]
    exact iff_of_true hnew rfl
  · rw [Function.update_of_ne ht, h t']
    exact iff_of_false nofun fun heq => ht (Option.some.inj heq).symm

lemma give (h : Guards inside holder task) {t : ℕ} (hold : inside (task t)) {new : τ}
    (hnew : ¬ inside new) : Guards inside none (Function.update task t new) := by
  intro t'
  by_cases ht : t' = t
  · subst ht
    rw [Function.update_self]
    exact iff_of_false hnew nofun
  · rw [Function.update_of_ne ht, h t', (h t).mp hold]
    exact iff_of_false (fun heq => ht (Option.some.inj heq).symm) nofun

lemma stay (h : Guards inside holder task) {t : ℕ} {new : τ} (hnew : inside new ↔ inside (task t)) :
    Guards inside holder (Function.update task t new) := by
  intro t'
  by_cases ht : t' = t
  · subst ht
    rw [Function.update_self, hnew, h t']
  · rw [Function.update_of_ne ht, h t']

/-- No two tasks are inside. -/
lemma unique (h : Guards inside holder task) {t t' : ℕ} (ht : inside (task t))
    (ht' : inside (task t')) : t = t' :=
  Option.some.inj (((h t).mp ht).symm.trans ((h t').mp ht'))

/-- Nobody is inside while the lock is free. -/
lemma outside (h : Guards inside none task) (t : ℕ) : ¬ inside (task t) := fun ht =>
  nomatch (h t).mp ht

end Guards

end ArcticController

/-
Edge detection: what is reported about a sampled value by comparing each sample
with the one before.

* `transitions`: the changes along a list of samples, each with the old and the
  new value, against a baseline or against the first sample;
* `Linked`: every old value is the previous new one (`linked_transitions`);
* `Linked.map`: and stays so under any faithful reading;
* `isChain_news`: the new values differ from one another in turn;
* `last_news`: the last of them is the last sample.
-/
import Mathlib.Tactic

namespace ArcticController

variable {α : Type} [DecidableEq α]

/-- The changes along a list of samples; without a baseline the first sample is
the baseline. -/
def transitions : Option α → List α → List (α × α)
  | _, [] => []
  | none, a :: l => transitions (some a) l
  | some b, a :: l => if b = a then transitions (some a) l else (b, a) :: transitions (some a) l

/-- Every old value is the new value before it, the first one the baseline; without
a baseline there is no change. -/
def Linked : Option α → List (α × α) → Prop
  | _, [] => True
  | none, _ :: _ => False
  | some b, p :: l => p.1 = b ∧ p.1 ≠ p.2 ∧ Linked (some p.2) l

@[simp] lemma transitions_nil (base : Option α) : transitions base [] = [] := by
  cases base <;> rfl

lemma transitions_none_cons (a : α) (l : List α) :
    transitions none (a :: l) = transitions (some a) l := rfl

lemma transitions_cons (b a : α) (l : List α) :
    transitions (some b) (a :: l)
      = (if b = a then [] else [(b, a)]) ++ transitions (some a) l := by
  rw [transitions]
  split <;> rfl

/-- The baseline after a sample that may be missing. -/
lemma transitions_append (base o : Option α) (l : List α) :
    transitions base (o.toList ++ l) = transitions base o.toList ++ transitions (o.or base) l := by
  cases o with
  | none => simp
  | some a =>
      cases base with
      | none => rfl
      | some b =>
          simp only [Option.toList_some, List.singleton_append, Option.some_or]
          rw [transitions_cons, transitions_cons, transitions_nil, List.append_nil]

/-- The changes are linked to the baseline. -/
lemma linked_transitions (b : α) (l : List α) : Linked (some b) (transitions (some b) l) := by
  induction l generalizing b with
  | nil => trivial
  | cons a l ih =>
      rw [transitions]
      split
      · next h => exact h ▸ ih a
      · next h => exact ⟨rfl, h, ih a⟩

/-- Without a baseline the changes are linked to the first sample. -/
lemma linked_transitions_none (l : List α) : Linked l.head? (transitions none l) := by
  cases l with
  | nil => trivial
  | cons a l => exact linked_transitions a l

omit [DecidableEq α] in
/-- Linked changes have new values that differ in turn. -/
lemma Linked.isChain_news {b : α} : ∀ {l : List (α × α)}, Linked (some b) l →
    (b :: l.map Prod.snd).IsChain (· ≠ ·)
  | [], _ => List.isChain_singleton b
  | _ :: _, ⟨hold, hne, hrest⟩ => by
      rw [List.map_cons, List.isChain_cons_cons]
      exact ⟨hold ▸ hne, hrest.isChain_news⟩

omit [DecidableEq α] in
/-- Linked changes stay linked when their values are read faithfully. -/
lemma Linked.map {β : Type} {f : α → β} (hf : Function.Injective f) :
    ∀ {base : Option α} {l : List (α × α)}, Linked base l →
      Linked (base.map f) (l.map fun p => (f p.1, f p.2))
  | none, [], _ => trivial
  | some _, [], _ => trivial
  | some _, _ :: _, ⟨hold, hne, hrest⟩ =>
      ⟨congrArg f hold, fun h => hne (hf h), Linked.map hf hrest⟩

lemma isChain_news (b : α) (l : List α) :
    (b :: (transitions (some b) l).map Prod.snd).IsChain (· ≠ ·) :=
  (linked_transitions b l).isChain_news

/-- The last new value is the last sample, the baseline where there is none. -/
lemma last_news (b : α) (l : List α) :
    ((transitions (some b) l).map Prod.snd).getLastD b = l.getLastD b := by
  induction l generalizing b with
  | nil => rfl
  | cons a l ih =>
      rw [transitions_cons, List.map_append, List.getLastD_cons]
      split
      · next h => rw [List.map_nil, List.nil_append, h, ih]
      · rw [List.map_cons, List.map_nil, List.singleton_append, List.getLastD_cons, ih]

end ArcticController

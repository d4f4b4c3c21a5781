/-
Tables of slots, looked up by the first slot that fits.

* `changeFirst`: the first slot that fits is changed;
* `changeFirst_forall₂`: slot by slot, nothing else is;
* `mem_changeFirst`: where at most one slot fits, none that fits is left as it was;
* `exists_of_forall₂`, `pairwise_of_forall₂`: what carries over slot by slot.
-/
import Mathlib.Data.List.Forall2
import Mathlib.Tactic

namespace ArcticController

variable {α : Type} {p : α → Bool} {f : α → α}

/-- Change the first slot that fits. -/
def changeFirst (p : α → Bool) (f : α → α) : List α → List α
  | [] => []
  | slot :: slots => if p slot then f slot :: slots else slot :: changeFirst p f slots

/-- A slot is left as it was or it fits and is changed. -/
lemma changeFirst_forall₂ (p : α → Bool) (f : α → α) (slots : List α) :
    List.Forall₂ (fun old new => new = old ∨ (p old = true ∧ new = f old)) slots
      (changeFirst p f slots) := by
  induction slots with
  | nil => exact .nil
  | cons slot slots ih =>
      rw [changeFirst]
      split
      · next hp => exact .cons (.inr ⟨hp, rfl⟩) (List.forall₂_same.mpr fun _ _ => .inl rfl)
      · exact .cons (.inl rfl) ih

/-- Where at most one slot fits, a slot afterwards does not fit or is the one changed. -/
lemma mem_changeFirst {slots : List α}
    (honly : slots.Pairwise fun a b => p a = true → p b = true → False) {new : α}
    (h : new ∈ changeFirst p f slots) :
    (new ∈ slots ∧ p new = false) ∨ ∃ old ∈ slots, p old = true ∧ new = f old := by
  induction slots with
  | nil => cases h
  | cons slot slots ih =>
      obtain ⟨hslot, hrest⟩ := List.pairwise_cons.mp honly
      rw [changeFirst] at h
      split at h
      · next hp =>
          rcases List.mem_cons.mp h with rfl | hmem
          · exact .inr ⟨slot, List.mem_cons_self, hp, rfl⟩
          · exact .inl ⟨List.mem_cons_of_mem _ hmem, Bool.eq_false_iff.mpr (hslot new hmem hp)⟩
      · next hp =>
          rcases List.mem_cons.mp h with rfl | hmem
          · exact .inl ⟨List.mem_cons_self, Bool.eq_false_iff.mpr hp⟩
          · rcases ih hrest hmem with ⟨hold, hnot⟩ | ⟨old, hold, hfits, rfl⟩
            · exact .inl ⟨List.mem_cons_of_mem _ hold, hnot⟩
            · exact .inr ⟨old, List.mem_cons_of_mem _ hold, hfits, rfl⟩

variable {β : Type} {R : α → β → Prop} {olds : List α} {news : List β}

/-- A new slot comes from an old one. -/
lemma exists_of_forall₂ (h : List.Forall₂ R olds news) {new : β} (hmem : new ∈ news) :
    ∃ old ∈ olds, R old new := by
  induction h with
  | nil => cases hmem
  | cons hR _ ih =>
      rcases List.mem_cons.mp hmem with rfl | hmem
      · exact ⟨_, List.mem_cons_self, hR⟩
      · obtain ⟨old, hold, hrel⟩ := ih hmem
        exact ⟨old, List.mem_cons_of_mem _ hold, hrel⟩

/-- What holds between any two slots carries over. -/
lemma pairwise_of_forall₂ {P : α → α → Prop} {Q : β → β → Prop} (h : List.Forall₂ R olds news)
    (hPQ : ∀ a a' b b', R a b → R a' b' → P a a' → Q b b') (hP : olds.Pairwise P) :
    news.Pairwise Q := by
  induction h with
  | nil => exact .nil
  | cons hR hrest ih =>
      obtain ⟨hhead, htail⟩ := List.pairwise_cons.mp hP
      refine List.pairwise_cons.mpr ⟨fun b' hb' => ?_, ih htail⟩
      obtain ⟨a', ha', hR'⟩ := exists_of_forall₂ hrest hb'
      exact hPQ _ _ _ _ hR hR' (hhead a' ha')

/-- What holds between any two slots holds with the changed one in place, if it does
between that and the others. -/
lemma pairwise_changeFirst {P : α → α → Prop} {slots : List α} (h : slots.Pairwise P)
    (hf : ∀ a ∈ slots, ∀ b, p b = true → P a (f b) ∧ P (f b) a) :
    (changeFirst p f slots).Pairwise P := by
  induction slots with
  | nil => exact .nil
  | cons slot slots ih =>
      obtain ⟨hslot, hrest⟩ := List.pairwise_cons.mp h
      have hf' := fun a ha => hf a (List.mem_cons_of_mem slot ha)
      rw [changeFirst]
      split
      · next hp => exact List.pairwise_cons.mpr ⟨fun a ha => (hf' a ha slot hp).2, hrest⟩
      · refine List.pairwise_cons.mpr ⟨fun new hnew => ?_, ih hrest hf'⟩
        obtain ⟨old, hold, rfl | ⟨hp, rfl⟩⟩ := exists_of_forall₂ (changeFirst_forall₂ p f slots) hnew
        · exact hslot _ hold
        · exact (hf slot List.mem_cons_self old hp).1

end ArcticController

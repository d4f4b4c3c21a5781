/-
Runs of a transition system whose steps may leave an event.

* `Run`: the states reached from a start with the events on the way, oldest
  first;
* `Run.invariant`: what holds at the start and is kept by every step holds of
  every state reached, with the events so far;
* `Run.split`, `Run.event`: the run up to a place in the list of events, and the
  step that left an event;
* `split_step`: a place in the events after a step is the last one or an earlier one.
-/
import Mathlib.Data.List.Basic
import Mathlib.Tactic

namespace ArcticController

variable {σ ε : Type}

/-- A place in the events after a step: the event of the step, or one before it. -/
lemma split_step {log pre post : List ε} {e : Option ε} {x : ε}
    (h : log ++ e.toList = pre ++ x :: post) :
    (e = some x ∧ log = pre ∧ post = []) ∨ ∃ post', log = pre ++ x :: post' ∧ post = post' ++ e.toList := by
  cases e with
  | none =>
      rw [Option.toList_none, List.append_nil] at h
      exact .inr ⟨post, h, (List.append_nil _).symm⟩
  | some e =>
      rcases List.eq_nil_or_concat post with rfl | ⟨post', e', rfl⟩
      · obtain ⟨rfl, hlast⟩ := List.append_inj' h rfl
        exact .inl ⟨congrArg some (List.singleton_inj.mp hlast), rfl, rfl⟩
      · rw [List.concat_eq_append, ← List.cons_append, ← List.append_assoc] at h
        obtain ⟨hlog, hlast⟩ := List.append_inj' h rfl
        exact .inr ⟨post', hlog, by rw [List.concat_eq_append, hlast]⟩

/-- The states reached from `start`, with the events left on the way. -/
inductive Run (step : σ → Option ε → σ → Prop) (start : σ) : σ → List ε → Prop where
  | start : Run step start start []
  | step {s s' : σ} {log : List ε} {e : Option ε} (run : Run step start s log)
      (h : step s e s') : Run step start s' (log ++ e.toList)

namespace Run

variable {step : σ → Option ε → σ → Prop} {start : σ}

/-- What holds at the start and is kept by every step holds of every run. -/
theorem invariant {I : σ → List ε → Prop} (hstart : I start [])
    (hstep : ∀ s log e s', Run step start s log → I s log → step s e s' → I s' (log ++ e.toList))
    {s : σ} {log : List ε} (hrun : Run step start s log) : I s log := by
  induction hrun with
  | start => exact hstart
  | step run h ih => exact hstep _ _ _ _ run ih h

/-- A run passes through a state for every beginning of its events. -/
theorem split {s : σ} {log : List ε} (hrun : Run step start s log) : ∀ pre post, log = pre ++ post →
    ∃ s', Run step start s' pre := by
  induction hrun with
  | start =>
      intro pre post h
      obtain ⟨rfl, -⟩ := List.append_eq_nil_iff.mp h.symm
      exact ⟨start, .start⟩
  | @step s s' log e run h ih =>
      intro pre post hsplit
      cases e with
      | none => exact ih pre post (by simpa using hsplit)
      | some e =>
          rcases List.eq_nil_or_concat post with rfl | ⟨post, e', rfl⟩
          · rw [List.append_nil] at hsplit
            exact ⟨s', hsplit ▸ run.step h⟩
          · rw [List.concat_eq_append, ← List.append_assoc] at hsplit
            exact ih pre post (List.append_inj_left' hsplit rfl)

/-- The step that left an event, from a state reached by the events before it. -/
theorem event {s : σ} {log : List ε} (hrun : Run step start s log) : ∀ pre e post,
    log = pre ++ e :: post →
    ∃ s₁ s₂, Run step start s₁ pre ∧ step s₁ (some e) s₂ ∧ Run step start s₂ (pre ++ [e]) := by
  induction hrun with
  | start =>
      intro pre e post h
      cases (List.append_eq_nil_iff.mp h.symm).2
  | @step s s' log e' run h ih =>
      intro pre e post hsplit
      cases e' with
      | none => exact ih pre e post (by simpa using hsplit)
      | some e' =>
          rcases List.eq_nil_or_concat post with rfl | ⟨post, e'', rfl⟩
          · obtain ⟨rfl, hlast⟩ := List.append_inj' hsplit rfl
            cases hlast
            exact ⟨s, s', run, h, run.step h⟩
          · rw [List.concat_eq_append, ← List.cons_append, ← List.append_assoc] at hsplit
            exact ih pre e post (List.append_inj_left' hsplit rfl)

end Run

end ArcticController

/-
Requests to one server by generations: a request raises a counter, and the server
stores its result and then the generation it has served.

* `Generations`: the requests, the last generation served and the last result;
* `Serving`: where the server is with one generation;
* `ServerStep`: what the server does next;
* `Ordered`: no generation is served before it was asked for;
* `Answered`: who sees its own generation served with a good result has reached
  `Goal`; it is kept by every step of either side as long as each generation that
  contains the request ends well only in `Goal`.
-/
import Mathlib.Tactic

namespace ArcticController

structure Generations where
  req : ℕ := 0
  done : ℕ := 0
  lastOk : Bool
deriving DecidableEq, Repr

/-- The server works on a generation, has a result, or has stored the result but not
the generation. -/
inductive Serving where
  | away
  | working (gen : ℕ)
  | finished (gen : ℕ) (ok : Bool)
  | stored (gen : ℕ)
deriving DecidableEq, Repr

def Serving.gen : Serving → Option ℕ
  | .away => none
  | .working gen | .finished gen _ | .stored gen => some gen

namespace Generations

/-- One more request. -/
def raise (c : Generations) : Generations := { c with req := c.req + 1 }

def storeOk (c : Generations) (ok : Bool) : Generations := { c with lastOk := ok }

def storeDone (c : Generations) (gen : ℕ) : Generations := { c with done := gen }

/-- The generation that is served was asked for, and none after it has been served. -/
structure Ordered (c : Generations) (p : Serving) : Prop where
  done_le : c.done ≤ c.req
  gen_le : ∀ gen, p.gen = some gen → c.done ≤ gen ∧ gen ≤ c.req

/-- Who asked for generation `asked` and sees it served with a good result has reached
`Goal`, and so has the server when it is about to say so. -/
structure Answered (c : Generations) (p : Serving) (asked : ℕ) (Goal : Prop) : Prop where
  asked_le : asked ≤ c.req
  finished : ∀ gen, p = .finished gen true → asked ≤ gen → Goal
  stored : ∀ gen, p = .stored gen → asked ≤ gen → c.lastOk = true → Goal
  done : asked ≤ c.done → c.lastOk = true → Goal

/-- A step of the server: it looks at the requests, goes on, leaves a generation that is
served, has a result, stores the result, or stores the generation. -/
inductive ServerStep : Generations → Serving → Generations → Serving → Prop where
  | load (c) : ServerStep c .away c (.working c.req)
  | stay (c p) : ServerStep c p c p
  | leave (c gen) : ServerStep c (.working gen) c .away
  | finish (c gen ok) : ServerStep c (.working gen) c (.finished gen ok)
  | storeOk (c gen ok) : ServerStep c (.finished gen ok) (c.storeOk ok) (.stored gen)
  | storeDone (c gen) : ServerStep c (.stored gen) (c.storeDone gen) .away

variable {c c' : Generations} {p p' : Serving} {asked : ℕ} {Goal Goal' : Prop}

/-! ### Order -/

lemma ordered_start (ok : Bool) : Ordered { lastOk := ok } .away := ⟨Nat.le_refl _, nofun⟩

lemma Ordered.raise (h : Ordered c p) : Ordered c.raise p :=
  ⟨h.done_le.trans (Nat.le_succ _), fun gen hgen =>
    ⟨(h.gen_le gen hgen).1, (h.gen_le gen hgen).2.trans (Nat.le_succ _)⟩⟩

lemma Ordered.step (h : Ordered c p) (hstep : ServerStep c p c' p') : Ordered c' p' := by
  cases hstep with
  | load => exact ⟨h.done_le, fun gen hgen => by cases hgen; exact ⟨h.done_le, Nat.le_refl _⟩⟩
  | stay => exact h
  | leave => exact ⟨h.done_le, nofun⟩
  | finish gen ok => exact ⟨h.done_le, h.gen_le⟩
  | storeOk gen ok => exact ⟨h.done_le, h.gen_le⟩
  | storeDone gen => exact ⟨(h.gen_le gen rfl).2, nofun⟩

/-- What is served stays served. -/
lemma Ordered.done_le_step (h : Ordered c p) (hstep : ServerStep c p c' p') : c.done ≤ c'.done := by
  cases hstep with
  | storeDone gen => exact (h.gen_le gen rfl).1
  | _ => exact Nat.le_refl _

/-! ### Answers -/

lemma Answered.mono (h : Answered c p asked Goal) (hgoal : Goal → Goal') :
    Answered c p asked Goal' :=
  ⟨h.asked_le, fun gen hp hle => hgoal (h.finished gen hp hle),
    fun gen hp hle hok => hgoal (h.stored gen hp hle hok), fun hle hok => hgoal (h.done hle hok)⟩

/-- A request is new to everything the server has done. -/
lemma Ordered.ask (h : Ordered c p) : Answered c.raise p (c.req + 1) Goal where
  asked_le := Nat.le_refl _
  finished gen hp hle := by
    have := (h.gen_le gen (by rw [hp]; rfl)).2
    omega
  stored gen hp hle _ := by
    have := (h.gen_le gen (by rw [hp]; rfl)).2
    omega
  done hle _ := by
    have := h.done_le
    have hsame : c.raise.done = c.done := rfl
    omega

lemma Answered.raise (h : Answered c p asked Goal) : Answered c.raise p asked Goal :=
  ⟨h.asked_le.trans (Nat.le_succ _), h.finished, h.stored, h.done⟩

/-- A step of the server, if a generation with the request in it ends well only in
`Goal`. -/
lemma Answered.step (h : Answered c p asked Goal) (hordered : Ordered c p)
    (hstep : ServerStep c p c' p')
    (hgoal : ∀ gen, p = .working gen → p' = .finished gen true → asked ≤ gen → Goal) :
    Answered c' p' asked Goal := by
  cases hstep with
  | load => exact ⟨h.asked_le, nofun, nofun, h.done⟩
  | stay => exact h
  | leave => exact ⟨h.asked_le, nofun, nofun, h.done⟩
  | finish gen ok =>
      refine ⟨h.asked_le, fun gen' hp hle => ?_, nofun, h.done⟩
      cases hp
      exact hgoal gen rfl rfl hle
  | storeOk gen ok =>
      have hgood : asked ≤ gen → ok = true → Goal := by
        rintro hle rfl
        exact h.finished gen rfl hle
      refine ⟨h.asked_le, nofun, fun gen' hp hle hok => ?_, fun hle hok => ?_⟩
      · cases hp
        exact hgood hle hok
      · exact hgood (Nat.le_trans hle (hordered.gen_le gen rfl).1) hok
  | storeDone gen =>
      exact ⟨h.asked_le, nofun, nofun, fun hle hok => h.stored gen rfl hle hok⟩

end Generations

end ArcticController

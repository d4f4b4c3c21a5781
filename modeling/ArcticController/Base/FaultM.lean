/-
Programs over a device that fails: a computation runs against a device state
and a script of faults, one for each device operation it performs, and ends
with a value, with an error its caller sees, or because power was lost. It
also reports what it asked of the device and which fault hit each request, so
that a claim can be made about every single operation.

* `FaultM`: the computations, with `perform` for one device operation,
  `attempt` to look at an error, `zoom` to run on a part of a larger state and
  `relabel` to tell apart who asked;
* `FaultM.Quiet`: under the empty script nothing goes wrong, with one rule for
  each way of building a computation;
* `FaultM.Runs`: what a computation returns and leaves under the empty script;
* `Rely`: the faults a claim allows at each operation and the promise it makes
  about every operation;
* `wp`: the weakest precondition under a `Rely`, with one rule for each way
  of building a computation (`wp_bind`, `wp_perform`, `wp_attempt`,
  `wp_zoom`) and the rule of consequence `wp_mono`;
* `wpObs`: the same with a view of the operations performed, through an
  observer that picks some of them;
* `Keeps`: a computation that keeps an assertion about the state, with one rule for
  each way of building it;
* `Ends`: the usual shape of a postcondition, one assertion for success and
  one for every interruption, with its rules `wp_bind_ends` and
  `wp_attempt_ends`.
-/
import Mathlib.Tactic

namespace ArcticController

/-- How a computation ends: with a value, with an error reported to the
caller, or because power was lost while it ran. -/
inductive Outcome (ε α : Type) where
  | val (a : α)
  | err (e : ε)
  | cut
deriving DecidableEq, Repr

/-- What a computation leaves behind: its outcome, the state, the faults it
did not consume, and the device operations it performed, oldest first, each
with the fault that hit it. -/
structure Result (σ φ κ ε α : Type) where
  out : Outcome ε α
  state : σ
  script : List φ
  ops : List (κ × φ)

/-- A computation on the state `σ` whose device operations fail as the script
of faults `φ` says, each leaving an entry `κ` in the log of operations. -/
def FaultM (σ φ κ ε α : Type) : Type := σ → List φ → Result σ φ κ ε α

namespace FaultM

variable {σ τ φ κ κ' ε α β : Type}

/-- Return a value without touching the device. -/
protected def pure (a : α) : FaultM σ φ κ ε α := fun s fs => ⟨.val a, s, fs, []⟩

/-- Run `m` and hand its value on; an error or a loss of power ends the whole
computation. -/
protected def bind (m : FaultM σ φ κ ε α) (k : α → FaultM σ φ κ ε β) :
    FaultM σ φ κ ε β := fun s fs =>
  match m s fs with
  | ⟨.val a, s', fs', l⟩ =>
      let r := k a s' fs'
      ⟨r.out, r.state, r.script, l ++ r.ops⟩
  | ⟨.err e, s', fs', l⟩ => ⟨.err e, s', fs', l⟩
  | ⟨.cut, s', fs', l⟩ => ⟨.cut, s', fs', l⟩

instance : Monad (FaultM σ φ κ ε) where
  pure := FaultM.pure
  bind := FaultM.bind

/-- End with an error. -/
def throw (e : ε) : FaultM σ φ κ ε α := fun s fs => ⟨.err e, s, fs, []⟩

/-- Read the state. -/
def get : FaultM σ φ κ ε σ := fun s fs => ⟨.val s, s, fs, []⟩

/-- Change the state in RAM, which cannot fail. -/
def modify (g : σ → σ) : FaultM σ φ κ ε Unit := fun s fs => ⟨.val (), g s, fs, []⟩

/-- Turn an error into a value the caller can look at. -/
def attempt (m : FaultM σ φ κ ε α) : FaultM σ φ κ ε (Except ε α) := fun s fs =>
  match m s fs with
  | ⟨.val a, s', fs', l⟩ => ⟨.val (.ok a), s', fs', l⟩
  | ⟨.err e, s', fs', l⟩ => ⟨.val (.error e), s', fs', l⟩
  | ⟨.cut, s', fs', l⟩ => ⟨.cut, s', fs', l⟩

/-- One device operation: it consumes the next fault of the script (none, the
default, once the script is used up) and is logged as `entry` of the state it
finds. -/
def perform [Inhabited φ] (entry : σ → κ) (op : φ → σ → Outcome ε α × σ) :
    FaultM σ φ κ ε α := fun s fs =>
  let r := op (fs.headD default) s
  ⟨r.1, r.2, fs.tail, [(entry s, fs.headD default)]⟩

/-- Run a computation on the first half of a larger state. -/
def zoom (m : FaultM σ φ κ ε α) : FaultM (σ × τ) φ κ ε α := fun s fs =>
  let r := m s.1 fs
  ⟨r.out, (r.state, s.2), r.script, r.ops⟩

/-- Log the operations of a computation under other names. -/
def relabel (g : κ → κ') (m : FaultM σ φ κ ε α) : FaultM σ φ κ' ε α := fun s fs =>
  let r := m s fs
  ⟨r.out, r.state, r.script, r.ops.map fun p => (g p.1, p.2)⟩

end FaultM

/-! ### Runs without faults -/

namespace FaultM

section Quiet

variable {σ τ φ κ ε α β : Type} [Inhabited φ]

/-- Under the empty script every operation meets the default fault. -/
def Quiet (m : FaultM σ φ κ ε α) : Prop :=
  ∀ s, (m s []).script = [] ∧ ∀ p ∈ (m s []).ops, p.2 = default

lemma quiet_pure (a : α) : Quiet (pure a : FaultM σ φ κ ε α) := fun _ =>
  ⟨rfl, fun _ h => absurd h List.not_mem_nil⟩

lemma quiet_throw (e : ε) : Quiet (throw e : FaultM σ φ κ ε α) := fun _ =>
  ⟨rfl, fun _ h => absurd h List.not_mem_nil⟩

lemma quiet_get : Quiet (get : FaultM σ φ κ ε σ) := fun _ =>
  ⟨rfl, fun _ h => absurd h List.not_mem_nil⟩

lemma quiet_modify (g : σ → σ) : Quiet (modify g : FaultM σ φ κ ε Unit) := fun _ =>
  ⟨rfl, fun _ h => absurd h List.not_mem_nil⟩

variable {m : FaultM σ φ κ ε α}

lemma Quiet.bind {k : α → FaultM σ φ κ ε β} (hm : Quiet m) (hk : ∀ a, Quiet (k a)) :
    Quiet (m >>= k) := by
  intro s
  have h := hm s
  simp only [Bind.bind, FaultM.bind]
  rcases hr : m s [] with ⟨o, s', fs', l⟩
  rw [hr] at h
  obtain ⟨h1, h2⟩ := h
  dsimp only at h1 h2
  subst h1
  cases o with
  | val a => exact ⟨(hk a s').1, List.forall_mem_append.mpr ⟨h2, (hk a s').2⟩⟩
  | err e => exact ⟨rfl, h2⟩
  | cut => exact ⟨rfl, h2⟩

lemma Quiet.attempt (hm : Quiet m) : Quiet m.attempt := by
  intro s
  have h := hm s
  simp only [FaultM.attempt]
  rcases hr : m s [] with ⟨o, s', fs', l⟩
  rw [hr] at h
  cases o with
  | val a => exact h
  | err e => exact h
  | cut => exact h

lemma quiet_perform (entry : σ → κ) (op : φ → σ → Outcome ε α × σ) :
    Quiet (perform entry op) := fun _ =>
  ⟨rfl, fun p h => by rw [List.mem_singleton.mp h]; rfl⟩

lemma Quiet.zoom (hm : Quiet m) :
    Quiet (m.zoom : FaultM (σ × τ) φ κ ε α) := fun s => hm s.1

lemma Quiet.ite {c : Prop} [Decidable c] {m' : FaultM σ φ κ ε α} (hm : Quiet m) (hm' : Quiet m') :
    Quiet (if c then m else m') := by
  split
  · exact hm
  · exact hm'

end Quiet

/-! ### Runs that end with a value -/

section Runs

variable {σ τ φ κ ε α β : Type}

/-- Without faults `m` goes from `s` to `s'` and returns `a`. -/
def Runs (m : FaultM σ φ κ ε α) (s : σ) (a : α) (s' : σ) : Prop :=
  ∃ l, m s [] = ⟨.val a, s', [], l⟩

variable {m : FaultM σ φ κ ε α}

lemma Runs.out {s s' : σ} {a : α} (h : Runs m s a s') : (m s []).out = .val a := by
  obtain ⟨l, hl⟩ := h
  rw [hl]

lemma Runs.state {s s' : σ} {a : α} (h : Runs m s a s') : (m s []).state = s' := by
  obtain ⟨l, hl⟩ := h
  rw [hl]

lemma runs_pure (a : α) (s : σ) : Runs (pure a : FaultM σ φ κ ε α) s a s := ⟨[], rfl⟩

lemma runs_get (s : σ) : Runs (get : FaultM σ φ κ ε σ) s s s := ⟨[], rfl⟩

lemma runs_modify (g : σ → σ) (s : σ) : Runs (modify g : FaultM σ φ κ ε Unit) s () (g s) := ⟨[], rfl⟩

lemma Runs.bind {k : α → FaultM σ φ κ ε β} {s s' s'' : σ} {a : α} {b : β} (h : Runs m s a s')
    (hk : Runs (k a) s' b s'') : Runs (m >>= k) s b s'' := by
  obtain ⟨l, hl⟩ := h
  obtain ⟨l', hl'⟩ := hk
  refine ⟨l ++ l', ?_⟩
  simp only [Bind.bind, FaultM.bind, hl, hl']

lemma Runs.attempt {s s' : σ} {a : α} (h : Runs m s a s') : Runs m.attempt s (.ok a) s' := by
  obtain ⟨l, hl⟩ := h
  refine ⟨l, ?_⟩
  simp only [FaultM.attempt, hl]

end Runs

/-! ### Sequences -/

section Sequences

variable {σ φ κ ε α β : Type} {m : FaultM σ φ κ ε α} {k : α → FaultM σ φ κ ε β} {s : σ}
  {fs : List φ}

/-- The run of a sequence whose first half ends with a value. -/
lemma run_bind {a : α} (h : (m s fs).out = .val a) :
    (m >>= k) s fs
      = ⟨(k a (m s fs).state (m s fs).script).out, (k a (m s fs).state (m s fs).script).state,
          (k a (m s fs).state (m s fs).script).script,
          (m s fs).ops ++ (k a (m s fs).state (m s fs).script).ops⟩ := by
  simp only [bind, FaultM.bind]
  rcases hr : m s fs with ⟨o, s', fs', l⟩
  rw [hr] at h
  dsimp only at h
  subst h
  rfl

/-- A sequence performs the operations of its first half. -/
lemma ops_subset_bind : (m s fs).ops ⊆ ((m >>= k) s fs).ops := by
  simp only [bind, FaultM.bind]
  rcases m s fs with ⟨o, s', fs', l⟩
  cases o with
  | val a => exact List.subset_append_left _ _
  | err e => exact List.Subset.refl _
  | cut => exact List.Subset.refl _

end Sequences

end FaultM

/-! ### Weakest preconditions -/

/-- What a claim relies on and promises: the faults that may hit an operation,
and what holds of every operation performed. -/
structure Rely (φ κ : Type) where
  allowed : κ → φ → Prop
  promise : κ → Prop

/-- No operation of a log was hit by a fault that `R` does not allow. -/
def Rely.Covers {φ κ : Type} (R : Rely φ κ) (ops : List (κ × φ)) : Prop :=
  ∀ p ∈ ops, R.allowed p.1 p.2

/-- Every operation of a log keeps the promise of `R`. -/
def Rely.Kept {φ κ : Type} (R : Rely φ κ) (ops : List (κ × φ)) : Prop :=
  ∀ p ∈ ops, R.promise p.1

section WeakestPrecondition

variable {σ τ φ κ ε α β : Type} {R : Rely φ κ}

lemma Rely.covers_append {l l' : List (κ × φ)} : R.Covers (l ++ l') ↔ R.Covers l ∧ R.Covers l' :=
  List.forall_mem_append

lemma Rely.kept_append {l l' : List (κ × φ)} : R.Kept (l ++ l') ↔ R.Kept l ∧ R.Kept l' :=
  List.forall_mem_append

lemma Rely.covers_nil : R.Covers [] := fun _ h => absurd h List.not_mem_nil

lemma Rely.kept_nil : R.Kept [] := fun _ h => absurd h List.not_mem_nil

/-- `wp R m Q s`: from `s`, under every script that hits the operations of `m`
with allowed faults only, `m` ends with an outcome and a state that satisfy
`Q`, and every operation it performs keeps the promise. -/
def wp (R : Rely φ κ) (m : FaultM σ φ κ ε α) (Q : Outcome ε α → σ → Prop) (s : σ) : Prop :=
  ∀ fs : List φ, R.Covers (m s fs).ops →
    Q (m s fs).out (m s fs).state ∧ R.Kept (m s fs).ops

/-- The postcondition of the first half of a sequence: a value must lead the
second half to `Q`, an error or a loss of power must satisfy `Q` already. -/
def andThen (R : Rely φ κ) (k : α → FaultM σ φ κ ε β) (Q : Outcome ε β → σ → Prop) :
    Outcome ε α → σ → Prop
  | .val a, s => wp R (k a) Q s
  | .err e, s => Q (.err e) s
  | .cut, s => Q .cut s

@[simp] lemma andThen_val (k : α → FaultM σ φ κ ε β) (Q : Outcome ε β → σ → Prop) (a : α)
    (s : σ) : andThen R k Q (.val a) s = wp R (k a) Q s := rfl

@[simp] lemma andThen_err (k : α → FaultM σ φ κ ε β) (Q : Outcome ε β → σ → Prop) (e : ε)
    (s : σ) : andThen R k Q (.err e) s = Q (.err e) s := rfl

@[simp] lemma andThen_cut (k : α → FaultM σ φ κ ε β) (Q : Outcome ε β → σ → Prop) (s : σ) :
    andThen R k Q .cut s = Q .cut s := rfl

variable {m : FaultM σ φ κ ε α} {Q : Outcome ε α → σ → Prop} {s : σ} {bad' : σ → Prop}

/-- The rule of consequence. -/
lemma wp_mono {Q' : Outcome ε α → σ → Prop} (h : wp R m Q s) (hQ : ∀ o s', Q o s' → Q' o s') :
    wp R m Q' s := by
  intro fs hfs
  obtain ⟨h1, h2⟩ := h fs hfs
  exact ⟨hQ _ _ h1, h2⟩

/-- What holds under more faults holds under fewer. -/
lemma wp_rely {R' : Rely φ κ} (h : wp R m Q s) (hallowed : ∀ o f, R'.allowed o f → R.allowed o f)
    (hpromise : ∀ o, R.promise o → R'.promise o) : wp R' m Q s := by
  intro fs hfs
  obtain ⟨h1, h2⟩ := h fs fun p hp => hallowed _ _ (hfs p hp)
  exact ⟨h1, fun p hp => hpromise _ (h2 p hp)⟩

/-- Two postconditions of one computation hold together. -/
lemma wp_and {Q' : Outcome ε α → σ → Prop} (h : wp R m Q s) (h' : wp R m Q' s) :
    wp R m (fun o s' => Q o s' ∧ Q' o s') s := by
  intro fs hfs
  obtain ⟨h1, h2⟩ := h fs hfs
  exact ⟨⟨h1, (h' fs hfs).1⟩, h2⟩

lemma wp_pure {a : α} (h : Q (.val a) s) : wp R (pure a : FaultM σ φ κ ε α) Q s :=
  fun _ _ => ⟨h, Rely.kept_nil⟩

lemma wp_throw {e : ε} (h : Q (.err e) s) : wp R (FaultM.throw e : FaultM σ φ κ ε α) Q s :=
  fun _ _ => ⟨h, Rely.kept_nil⟩

lemma wp_get {Q : Outcome ε σ → σ → Prop} (h : Q (.val s) s) :
    wp R (FaultM.get : FaultM σ φ κ ε σ) Q s :=
  fun _ _ => ⟨h, Rely.kept_nil⟩

lemma wp_modify {g : σ → σ} {Q : Outcome ε Unit → σ → Prop} (h : Q (.val ()) (g s)) :
    wp R (FaultM.modify g : FaultM σ φ κ ε Unit) Q s :=
  fun _ _ => ⟨h, Rely.kept_nil⟩

/-- The rule of sequencing. -/
lemma wp_bind {k : α → FaultM σ φ κ ε β} {Q : Outcome ε β → σ → Prop}
    (h : wp R m (andThen R k Q) s) : wp R (m >>= k) Q s := by
  intro fs
  have hm := h fs
  simp only [bind, FaultM.bind]
  rcases hr : m s fs with ⟨o, s', fs', l⟩
  rw [hr] at hm
  cases o with
  | val a =>
      intro hfs
      obtain ⟨hl, hk⟩ := Rely.covers_append.mp hfs
      obtain ⟨h1, h2⟩ := hm hl
      obtain ⟨k1, k2⟩ := h1 fs' hk
      exact ⟨k1, Rely.kept_append.mpr ⟨h2, k2⟩⟩
  | err e => exact hm
  | cut => exact hm

lemma wp_get_bind {k : σ → FaultM σ φ κ ε β} {Q : Outcome ε β → σ → Prop} (h : wp R (k s) Q s) :
    wp R (FaultM.get >>= k) Q s := wp_bind (wp_get h)

lemma wp_modify_bind {g : σ → σ} {k : Unit → FaultM σ φ κ ε β} {Q : Outcome ε β → σ → Prop}
    (h : wp R (k ()) Q (g s)) : wp R (FaultM.modify g >>= k) Q s :=
  wp_bind (wp_modify h)

/-- A branch taken. -/
lemma wp_if_pos {c : Prop} [Decidable c] {m' : FaultM σ φ κ ε α} (hc : c) (h : wp R m Q s) :
    wp R (if c then m else m') Q s := by
  rwa [if_pos hc]

/-- A branch not taken. -/
lemma wp_if_neg {c : Prop} [Decidable c] {m' : FaultM σ φ κ ε α} (hc : ¬ c) (h : wp R m' Q s) :
    wp R (if c then m else m') Q s := by
  rwa [if_neg hc]

/-- The postcondition of `attempt`: an error becomes a value. -/
def attempted (Q : Outcome ε (Except ε α) → σ → Prop) : Outcome ε α → σ → Prop
  | .val a, s => Q (.val (.ok a)) s
  | .err e, s => Q (.val (.error e)) s
  | .cut, s => Q .cut s

@[simp] lemma attempted_val (Q : Outcome ε (Except ε α) → σ → Prop) (a : α) (s : σ) :
    attempted Q (.val a) s = Q (.val (.ok a)) s := rfl

@[simp] lemma attempted_err (Q : Outcome ε (Except ε α) → σ → Prop) (e : ε) (s : σ) :
    attempted Q (.err e) s = Q (.val (.error e)) s := rfl

@[simp] lemma attempted_cut (Q : Outcome ε (Except ε α) → σ → Prop) (s : σ) :
    attempted Q .cut s = Q .cut s := rfl

/-- The rule of looking at an error. -/
lemma wp_attempt {Q : Outcome ε (Except ε α) → σ → Prop} (h : wp R m (attempted Q) s) :
    wp R m.attempt Q s := by
  intro fs
  have hm := h fs
  simp only [FaultM.attempt]
  rcases hr : m s fs with ⟨o, s', fs', l⟩
  rw [hr] at hm
  cases o with
  | val a => exact hm
  | err e => exact hm
  | cut => exact hm

/-- The rule of one device operation: whatever allowed fault hits it, its
effect satisfies `Q`. -/
lemma wp_perform [Inhabited φ] {entry : σ → κ} {op : φ → σ → Outcome ε α × σ}
    (h : ∀ f, R.allowed (entry s) f → Q (op f s).1 (op f s).2) (hp : R.promise (entry s)) :
    wp R (FaultM.perform entry op) Q s := by
  intro fs hfs
  refine ⟨h _ (hfs _ (List.mem_singleton_self _)), fun p hp' => ?_⟩
  rw [List.mem_singleton.mp hp']
  exact hp

/-- The rule of running on a part of the state: the rest is untouched. -/
lemma wp_zoom {Q : Outcome ε α → σ × τ → Prop} {t : τ} (h : wp R m (fun o s' => Q o (s', t)) s) :
    wp R m.zoom Q (s, t) :=
  fun fs hfs => h fs hfs

/-- What a claim relies on and promises about operations under other names. -/
def Rely.comap {κ' : Type} (R : Rely φ κ') (g : κ → κ') : Rely φ κ :=
  ⟨fun o f => R.allowed (g o) f, fun o => R.promise (g o)⟩

/-- The rule of renaming operations. -/
lemma wp_relabel {κ' : Type} {R : Rely φ κ'} {g : κ → κ'} (h : wp (R.comap g) m Q s) :
    wp R (m.relabel g) Q s := by
  intro fs hfs
  have hcovers : (R.comap g).Covers (m s fs).ops := fun p hp => hfs _ (List.mem_map_of_mem hp)
  obtain ⟨h1, h2⟩ := h fs hcovers
  refine ⟨h1, fun p hp => ?_⟩
  obtain ⟨q, hq, rfl⟩ := List.mem_map.mp hp
  exact h2 q hq

/-! ### Observing the operations -/

/-- `wpObs R obs m Q s`: as `wp`, where `Q` also sees what the observer `obs`
makes of the operations performed. -/
def wpObs {ω : Type} (R : Rely φ κ) (obs : κ × φ → Option ω) (m : FaultM σ φ κ ε α)
    (Q : Outcome ε α → σ → List ω → Prop) (s : σ) : Prop :=
  ∀ fs : List φ, R.Covers (m s fs).ops →
    Q (m s fs).out (m s fs).state ((m s fs).ops.filterMap obs) ∧ R.Kept (m s fs).ops

section Observing

variable {ω : Type} {obs : κ × φ → Option ω}

variable {m : FaultM σ φ κ ε α} {Q : Outcome ε α → σ → List ω → Prop} {s : σ}

lemma wpObs_mono {Q' : Outcome ε α → σ → List ω → Prop} (h : wpObs R obs m Q s)
    (hQ : ∀ o s' w, Q o s' w → Q' o s' w) : wpObs R obs m Q' s :=
  fun fs hfs => ⟨hQ _ _ _ (h fs hfs).1, (h fs hfs).2⟩

/-- Forget the observations. -/
lemma wp_of_wpObs {Q : Outcome ε α → σ → Prop} (h : wpObs R obs m (fun o s' _ => Q o s') s) :
    wp R m Q s := h

/-- A computation of which the observer sees nothing. -/
lemma wpObs_silent
    (h : wp ⟨R.allowed, fun o => R.promise o ∧ ∀ f, obs (o, f) = none⟩ m
      (fun o s' => Q o s' []) s) :
    wpObs R obs m Q s := by
  intro fs hfs
  obtain ⟨h1, h2⟩ := h fs hfs
  have hnil : (m s fs).ops.filterMap obs = [] :=
    List.filterMap_eq_nil_iff.mpr fun p hp => (h2 p hp).2 p.2
  rw [hnil]
  exact ⟨h1, fun p hp => (h2 p hp).1⟩

lemma wpObs_pure {a : α} (h : Q (.val a) s []) : wpObs R obs (pure a : FaultM σ φ κ ε α) Q s :=
  fun _ _ => ⟨h, Rely.kept_nil⟩

/-- The rule of sequencing: the second half adds to what was observed. -/
lemma wpObs_bind {k : α → FaultM σ φ κ ε β} {Q : Outcome ε β → σ → List ω → Prop}
    (h : wpObs R obs m (fun o s' w => match o with
      | .val a => wpObs R obs (k a) (fun o' s'' w' => Q o' s'' (w ++ w')) s'
      | .err e => Q (.err e) s' w
      | .cut => Q .cut s' w) s) :
    wpObs R obs (m >>= k) Q s := by
  intro fs
  have hm := h fs
  simp only [bind, FaultM.bind]
  rcases hr : m s fs with ⟨o, s', fs', l⟩
  rw [hr] at hm
  cases o with
  | val a =>
      intro hfs
      obtain ⟨hl, hk⟩ := Rely.covers_append.mp hfs
      obtain ⟨h1, h2⟩ := hm hl
      obtain ⟨k1, k2⟩ := h1 fs' hk
      rw [← List.filterMap_append] at k1
      exact ⟨k1, Rely.kept_append.mpr ⟨h2, k2⟩⟩
  | err e => exact hm
  | cut => exact hm

lemma wpObs_get_bind {k : σ → FaultM σ φ κ ε β} {Q : Outcome ε β → σ → List ω → Prop}
    (h : wpObs R obs (k s) Q s) : wpObs R obs (FaultM.get >>= k) Q s :=
  wpObs_bind fun _ _ => ⟨h, Rely.kept_nil⟩

lemma wpObs_modify_bind {g : σ → σ} {k : Unit → FaultM σ φ κ ε β}
    {Q : Outcome ε β → σ → List ω → Prop} (h : wpObs R obs (k ()) Q (g s)) :
    wpObs R obs (FaultM.modify g >>= k) Q s :=
  wpObs_bind fun _ _ => ⟨h, Rely.kept_nil⟩

lemma wpObs_if_pos {c : Prop} [Decidable c] {m' : FaultM σ φ κ ε α} (hc : c)
    (h : wpObs R obs m Q s) : wpObs R obs (if c then m else m') Q s := by
  rwa [if_pos hc]

lemma wpObs_if_neg {c : Prop} [Decidable c] {m' : FaultM σ φ κ ε α} (hc : ¬ c)
    (h : wpObs R obs m' Q s) : wpObs R obs (if c then m else m') Q s := by
  rwa [if_neg hc]

/-- The rule of looking at an error. -/
lemma wpObs_attempt {Q : Outcome ε (Except ε α) → σ → List ω → Prop}
    (h : wpObs R obs m (fun o s' w => attempted (fun o' s'' => Q o' s'' w) o s') s) :
    wpObs R obs m.attempt Q s := by
  intro fs
  have hm := h fs
  simp only [FaultM.attempt]
  rcases hr : m s fs with ⟨o, s', fs', l⟩
  rw [hr] at hm
  cases o with
  | val a => exact hm
  | err e => exact hm
  | cut => exact hm

/-- The rule of one device operation. -/
lemma wpObs_perform [Inhabited φ] {entry : σ → κ} {op : φ → σ → Outcome ε α × σ}
    (h : ∀ f, R.allowed (entry s) f →
      Q (op f s).1 (op f s).2 ([(entry s, f)].filterMap obs))
    (hp : R.promise (entry s)) : wpObs R obs (FaultM.perform entry op) Q s := by
  intro fs hfs
  refine ⟨h _ (hfs _ (List.mem_singleton_self _)), fun p hp' => ?_⟩
  rw [List.mem_singleton.mp hp']
  exact hp

lemma wpObs_zoom {Q : Outcome ε α → σ × τ → List ω → Prop} {t : τ}
    (h : wpObs R obs m (fun o s' w => Q o (s', t) w) s) : wpObs R obs m.zoom Q (s, t) :=
  fun fs hfs => h fs hfs

end Observing

/-! ### Assertions a computation keeps -/

/-- The computation keeps an assertion about the state, however it ends. -/
def Keeps (R : Rely φ κ) (P : σ → Prop) (m : FaultM σ φ κ ε α) : Prop :=
  ∀ s, P s → wp R m (fun _ s' => P s') s

section Keeping

variable {P : σ → Prop}

lemma keeps_pure (a : α) : Keeps R P (pure a : FaultM σ φ κ ε α) := fun _ hs => wp_pure hs

lemma keeps_throw (e : ε) : Keeps R P (FaultM.throw e : FaultM σ φ κ ε α) := fun _ hs => wp_throw hs

lemma keeps_get : Keeps R P (FaultM.get : FaultM σ φ κ ε σ) := fun _ hs => wp_get hs

lemma keeps_modify {g : σ → σ} (h : ∀ s, P s → P (g s)) :
    Keeps R P (FaultM.modify g : FaultM σ φ κ ε Unit) := fun s hs => wp_modify (h s hs)

variable {m : FaultM σ φ κ ε α}

lemma Keeps.bind {k : α → FaultM σ φ κ ε β} (hm : Keeps R P m) (hk : ∀ a, Keeps R P (k a)) :
    Keeps R P (m >>= k) := fun s hs =>
  wp_bind (wp_mono (hm s hs) fun o s' hs' => by
    cases o with
    | val a => exact hk a s' hs'
    | err e => exact hs'
    | cut => exact hs')

lemma Keeps.attempt (hm : Keeps R P m) : Keeps R P m.attempt := fun s hs =>
  wp_attempt (wp_mono (hm s hs) fun o s' hs' => by
    cases o with
    | val a => exact hs'
    | err e => exact hs'
    | cut => exact hs')

lemma Keeps.ite {c : Prop} [Decidable c] {m' : FaultM σ φ κ ε α} (hm : Keeps R P m)
    (hm' : Keeps R P m') : Keeps R P (if c then m else m') := by
  split
  · exact hm
  · exact hm'

end Keeping

/-! ### Success or interruption -/

/-- The usual shape of a postcondition: `good` after success, `bad` after an
error or a loss of power, each only where such an ending is possible. -/
def Ends (mayFail mayCut : Prop) (good : α → σ → Prop) (bad : σ → Prop) :
    Outcome ε α → σ → Prop
  | .val a, s => good a s
  | .err _, s => mayFail ∧ bad s
  | .cut, s => mayCut ∧ bad s

variable {mayFail mayCut : Prop} {good : α → σ → Prop} {bad : σ → Prop}

@[simp] lemma ends_val (a : α) (s : σ) :
    Ends mayFail mayCut good bad (.val a : Outcome ε α) s = good a s := rfl

lemma Ends.mono {good' : α → σ → Prop} {o : Outcome ε α} (h : Ends mayFail mayCut good bad o s)
    (hg : ∀ a, good a s → good' a s) (hb : bad s → bad' s) :
    Ends mayFail mayCut good' bad' o s := by
  cases o with
  | val a => exact hg a h
  | err e => exact ⟨h.1, hb h.2⟩
  | cut => exact ⟨h.1, hb h.2⟩

lemma wp_ends_mono {good' : α → σ → Prop} (h : wp R m (Ends mayFail mayCut good bad) s)
    (hg : ∀ a s', good a s' → good' a s') (hb : ∀ s', bad s' → bad' s') :
    wp R m (Ends mayFail mayCut good' bad') s :=
  wp_mono h fun _ s' ho => ho.mono (fun a => hg a s') (hb s')

/-- Sequencing for this shape: the second half goes on from any success of the
first, and an interruption of the first interrupts the whole. -/
lemma wp_bind_ends {k : α → FaultM σ φ κ ε β} {good' : β → σ → Prop}
    (h : wp R m (Ends mayFail mayCut good bad) s)
    (hk : ∀ a s', good a s' → wp R (k a) (Ends mayFail mayCut good' bad') s')
    (hb : ∀ s', bad s' → bad' s') : wp R (m >>= k) (Ends mayFail mayCut good' bad') s := by
  refine wp_bind (wp_mono h fun o s' ho => ?_)
  cases o with
  | val a => exact hk a s' ho
  | err e => exact ⟨ho.1, hb s' ho.2⟩
  | cut => exact ⟨ho.1, hb s' ho.2⟩

/-- Where nothing can go wrong, `attempt` sees a success. -/
lemma wp_attempt_ends {Q : Outcome ε (Except ε α) → σ → Prop}
    (h : wp R m (Ends mayFail mayCut good bad) s) (hg : ∀ a s', good a s' → Q (.val (.ok a)) s')
    (he : mayFail → ∀ e s', bad s' → Q (.val (.error e)) s')
    (hc : mayCut → ∀ s', bad s' → Q .cut s') : wp R m.attempt Q s := by
  refine wp_attempt (wp_mono h fun o s' ho => ?_)
  cases o with
  | val a => exact hg a s' ho
  | err e => exact he ho.1 e s' ho.2
  | cut => exact hc ho.1 s' ho.2

end WeakestPrecondition

end ArcticController

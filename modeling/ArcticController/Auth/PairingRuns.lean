/-
The pairing code over every interleaving of the tasks that use it.

* `Window`, `window`: the code shown last as the events tell it, with the calls
  rejected against it;
* `PairingSystem.Agrees`: an open window is the one of the events, and a task
  that consumes knows the shape of its code;
* `agrees_step`: every step keeps this;
* `pairing_code_safe`: a code is accepted once at most, only as it was shown,
  before its deadline and before it was cancelled or replaced, and after fewer
  than five rejected calls; at most five calls are rejected against it; and a
  claim whose token could not be stored had consumed it.
-/
import ArcticController.Auth.SetupPairing

namespace ArcticController

/-! ### Codes -/

lemma validCodeShape_sixDigits (value : ℕ) : validCodeShape (some (sixDigits value)) := by
  have digit : ∀ d : Fin 10, (48 : UInt8) ≤ 48 + UInt8.ofNat d ∧ 48 + UInt8.ofNat d ≤ (57 : UInt8) := by
    decide
  rw [validCodeShape, Bool.and_eq_true, beq_iff_eq, List.all_eq_true]
  refine ⟨rfl, fun c hc => ?_⟩
  obtain ⟨unit, -, rfl⟩ := List.mem_map.mp hc
  have hd := digit ⟨value / unit % 10, Nat.mod_lt _ (by decide)⟩
  rw [Bool.and_eq_true, decide_eq_true_iff, decide_eq_true_iff]
  exact hd

variable {code : List UInt8} {log : List PairingEvent} {s s' : PairingSystem} {t : ℕ}

/-- A code that was drawn has six digits. -/
lemma validCodeShape_drawCode {randoms : List UInt32} (h : drawCode randoms = some code) :
    validCodeShape (some code) := by
  obtain ⟨r, -, rfl⟩ := Option.map_eq_some_iff.mp h
  exact validCodeShape_sixDigits _

lemma length_of_validCodeShape {code : Option (List UInt8)} (h : validCodeShape code) :
    ∃ c, code = some c ∧ c.length = setupPairingCodeLen := by
  cases code with
  | none => cases h
  | some c =>
      simp only [validCodeShape, Bool.and_eq_true, beq_iff_eq] at h
      exact ⟨c, rfl, h.1⟩

/-! ### The window of the events -/

/-- A code that may still be used, and how many calls were rejected against it. -/
structure Window where
  code : List UInt8
  deadlineUs : ℤ
  rejected : ℕ

/-- The window after an event. -/
def Window.next (w : Option Window) : PairingEvent → Option Window
  | .opened code deadlineUs => some ⟨code, deadlineUs, 0⟩
  | .cancelled => none
  | .evaluated _ _ _ _ .invalidCode => w.map fun w => { w with rejected := w.rejected + 1 }
  | .evaluated _ _ _ _ _ => none
  | .claimed _ _ _ => w

/-- The window the events leave. -/
def window (log : List PairingEvent) : Option Window := log.foldl Window.next none

lemma window_append (log : List PairingEvent) (e : PairingEvent) :
    window (log ++ [e]) = Window.next (window log) e := by
  rw [window, List.foldl_append]
  rfl

/-- A call that was evaluated against a code and did not match it. -/
def PairingEvent.isRejected : PairingEvent → Bool
  | .evaluated _ _ _ _ .invalidCode => true
  | .evaluated _ _ _ _ .locked => true
  | _ => false

/-- A call that was accepted. -/
def PairingEvent.isAccepted : PairingEvent → Bool
  | .evaluated _ _ _ _ .ok => true
  | _ => false

def PairingEvent.isOpened : PairingEvent → Bool
  | .opened _ _ => true
  | _ => false

/-- An event that leaves the code usable. -/
def PairingEvent.keeps : PairingEvent → Bool
  | .evaluated _ _ _ _ .invalidCode => true
  | .claimed _ _ _ => true
  | _ => false

/-- A window comes from the code shown last: nothing since has closed it, and
its rejected calls are those since. -/
lemma window_some : ∀ (log : List PairingEvent) {w : Window}, window log = some w →
    ∃ pre mid, log = pre ++ .opened w.code w.deadlineUs :: mid ∧
      (∀ e ∈ mid, e.keeps) ∧ mid.countP (·.isRejected) = w.rejected := by
  intro log
  induction log using List.reverseRecOn with
  | nil => intro w h; cases h
  | append_singleton log e ih =>
      intro w h
      rw [window_append] at h
      cases e with
      | opened code deadlineUs =>
          cases h
          exact ⟨log, [], rfl, nofun, rfl⟩
      | cancelled => cases h
      | claimed t stored result =>
          obtain ⟨pre, mid, rfl, hkeeps, hcount⟩ := ih h
          refine ⟨pre, mid ++ [.claimed t stored result], by simp, ?_, ?_⟩
          · exact List.forall_mem_append.mpr ⟨hkeeps, by simp [PairingEvent.keeps]⟩
          · rw [List.countP_append, hcount]
            rfl
      | evaluated t consumer code nowUs result =>
          cases result with
          | invalidCode =>
              obtain ⟨w', hw', rfl⟩ := Option.map_eq_some_iff.mp h
              obtain ⟨pre, mid, rfl, hkeeps, hcount⟩ := ih hw'
              refine ⟨pre, mid ++ [.evaluated t consumer code nowUs .invalidCode], by simp, ?_, ?_⟩
              · exact List.forall_mem_append.mpr ⟨hkeeps, by simp [PairingEvent.keeps]⟩
              · rw [List.countP_append, hcount]
                rfl
          | ok => cases h
          | notOpen => cases h
          | locked => cases h
          | storageError => cases h

/-! ### Calls since a code was shown -/

/-- The events since a code was shown, newest first. -/
def sinceOpened (log : List PairingEvent) : List PairingEvent :=
  log.reverse.takeWhile fun e => !e.isOpened

lemma sinceOpened_append (log : List PairingEvent) (e : PairingEvent) :
    sinceOpened (log ++ [e]) = if e.isOpened then [] else e :: sinceOpened log := by
  rw [sinceOpened, List.reverse_append, List.reverse_singleton, List.singleton_append,
    List.takeWhile_cons]
  cases e.isOpened <;> rfl

/-- The events after a code was shown, while no other one was. -/
lemma sinceOpened_of_split {pre mid : List PairingEvent} {deadlineUs : ℤ}
    (h : ∀ e ∈ mid, ¬ e.isOpened) :
    sinceOpened (pre ++ .opened code deadlineUs :: mid) = mid.reverse := by
  rw [sinceOpened, List.reverse_append, List.reverse_cons, List.append_assoc,
    List.takeWhile_append_of_pos]
  · simp [PairingEvent.isOpened]
  · intro e he
    simpa using h e (List.mem_reverse.mp he)

def rejectedSince (log : List PairingEvent) : ℕ := (sinceOpened log).countP (·.isRejected)

def acceptedSince (log : List PairingEvent) : ℕ := (sinceOpened log).countP (·.isAccepted)

/-- No code has more than five calls rejected against it or more than one
accepted, and none accepted while it may still be used. -/
structure Bounded (log : List PairingEvent) : Prop where
  open_ : ∀ w, window log = some w → rejectedSince log = w.rejected ∧ acceptedSince log = 0
  rejected : rejectedSince log ≤ 5
  accepted : acceptedSince log ≤ 1

/-- An event that is not about a call leaves the bounds. -/
lemma Bounded.other (h : Bounded log) {e : PairingEvent} (hopened : ¬ e.isOpened)
    (hrejected : ¬ e.isRejected) (haccepted : ¬ e.isAccepted)
    (hwindow : ∀ w, Window.next (window log) e = some w → window log = some w) :
    Bounded (log ++ [e]) := by
  have hr : rejectedSince (log ++ [e]) = rejectedSince log := by
    rw [rejectedSince, sinceOpened_append, if_neg hopened, List.countP_cons_of_neg hrejected]
    rfl
  have ha : acceptedSince (log ++ [e]) = acceptedSince log := by
    rw [acceptedSince, sinceOpened_append, if_neg hopened, List.countP_cons_of_neg haccepted]
    rfl
  refine ⟨fun w hw => ?_, hr ▸ h.rejected, ha ▸ h.accepted⟩
  rw [window_append] at hw
  rw [hr, ha]
  exact h.open_ w (hwindow w hw)

lemma Bounded.opened (code : List UInt8) (deadlineUs : ℤ) :
    Bounded (log ++ [.opened code deadlineUs]) := by
  have hnil : sinceOpened (log ++ [.opened code deadlineUs]) = [] := sinceOpened_append _ _
  have hr : rejectedSince (log ++ [.opened code deadlineUs]) = 0 := by rw [rejectedSince, hnil]; rfl
  have ha : acceptedSince (log ++ [.opened code deadlineUs]) = 0 := by rw [acceptedSince, hnil]; rfl
  refine ⟨fun w hw => ?_, by rw [hr]; exact Nat.zero_le _, by rw [ha]; exact Nat.zero_le _⟩
  rw [window_append] at hw
  cases hw
  exact ⟨hr, ha⟩

/-- So does a call evaluated against a code that fewer than five were rejected
against. -/
lemma Bounded.evaluated (h : Bounded log) {w : Window} (hw : window log = some w)
    (hlt : w.rejected < 5) (t : ℕ) (consumer : Consumer) (code : Option (List UInt8)) (nowUs : ℤ)
    (result : PairingResult) : Bounded (log ++ [.evaluated t consumer code nowUs result]) := by
  obtain ⟨hr, ha⟩ := h.open_ w hw
  have hsince : sinceOpened (log ++ [.evaluated t consumer code nowUs result])
      = .evaluated t consumer code nowUs result :: sinceOpened log := sinceOpened_append _ _
  have hrejected : rejectedSince (log ++ [.evaluated t consumer code nowUs result])
      = w.rejected + if (PairingEvent.evaluated t consumer code nowUs result).isRejected then 1
        else 0 := by
    rw [rejectedSince, hsince, List.countP_cons, ← hr]
    rfl
  have haccepted : acceptedSince (log ++ [.evaluated t consumer code nowUs result])
      = if (PairingEvent.evaluated t consumer code nowUs result).isAccepted then 1 else 0 := by
    have : (sinceOpened log).countP (·.isAccepted) = 0 := ha
    rw [acceptedSince, hsince, List.countP_cons, this, Nat.zero_add]
  refine ⟨fun w' hw' => ?_, ?_, ?_⟩
  · rw [window_append, hw] at hw'
    cases result with
    | invalidCode =>
        cases hw'
        exact ⟨hrejected, haccepted⟩
    | ok => cases hw'
    | notOpen => cases hw'
    | locked => cases hw'
    | storageError => cases hw'
  · rw [hrejected]
    split <;> omega
  · rw [haccepted]
    split <;> omega

/-! ### The system and its events -/

/-- An open window is the one the events tell, with a code of six digits. -/
structure Pairing.Agrees (s : Pairing) (log : List PairingEvent) : Prop where
  window : s.active → window log = some ⟨s.code, s.deadlineUs, s.failedAttempts.toNat⟩
  shape : s.active → validCodeShape (some s.code)
  attempts : s.active → s.failedAttempts.toNat < 5

/-- A claim of a task was accepted, and the task has not answered it yet. -/
def AcceptedClaim (t : ℕ) (log : List PairingEvent) : Prop :=
  ∃ pre code nowUs mid, log = pre ++ .evaluated t .claim code nowUs .ok :: mid ∧
    ∀ stored result, .claimed t stored result ∉ mid

/-- A task carries a code of six digits to the window, or knows whether its own
is one; a claim whose token is being issued was accepted. -/
def PairingTask.Agrees (t : ℕ) (log : List PairingEvent) : PairingTask → Prop
  | .starting code => validCodeShape (some code)
  | .consuming _ code shapeValid => shapeValid = validCodeShape code
  | .issuing => AcceptedClaim t log
  | _ => True

/-- The system is as its events tell. -/
structure PairingSystem.Agrees (s : PairingSystem) (log : List PairingEvent) : Prop where
  pairing : s.pairing.Agrees log
  task : ∀ t, (s.task t).Agrees t log
  bounded : Bounded log

/-- What a critical section makes of a code. -/
inductive ConsumeCase (s : Pairing) (code : Option (List UInt8)) (nowUs : ℤ) :
    Pairing → PairingResult → Prop where
  | notOpen (s' : Pairing) (h : ¬ s'.active) : ConsumeCase s code nowUs s' .notOpen
  | ok (hactive : s.active) (hnow : nowUs < s.deadlineUs) (hcode : code = some s.code) :
      ConsumeCase s code nowUs {} .ok
  | invalidCode (hactive : s.active) (hnow : nowUs < s.deadlineUs) (hcode : code ≠ some s.code)
      (hlt : s.failedAttempts.toNat + 1 < 5) :
      ConsumeCase s code nowUs { s with failedAttempts := s.failedAttempts + 1 } .invalidCode
  | locked (hactive : s.active) (hnow : nowUs < s.deadlineUs) (hcode : code ≠ some s.code) :
      ConsumeCase s code nowUs {} .locked

namespace Pairing

lemma expiredLocked_active {s : Pairing} {nowUs : ℤ} (h : (s.expiredLocked nowUs).active) :
    s.expiredLocked nowUs = s ∧ s.active ∧ nowUs < s.deadlineUs := by
  rw [expiredLocked] at h ⊢
  by_cases hexp : s.active ∧ nowUs ≥ s.deadlineUs
  · rw [if_pos hexp] at h
    cases h
  · rw [if_neg hexp] at h ⊢
    exact ⟨rfl, h, not_le.mp fun hle => hexp ⟨h, hle⟩⟩

/-- A code is compared only if its shape is right, so it matches exactly if it
is the code shown. -/
lemma matches_iff {s : Pairing} {code : Option (List UInt8)} (hdigits : validCodeShape (some s.code)) :
    (validCodeShape code ∧ constantTimeEqual setupPairingCodeLen (code.getD []) s.code)
      ↔ code = some s.code := by
  obtain ⟨-, ⟨⟩, hlen⟩ := length_of_validCodeShape hdigits
  constructor
  · rintro ⟨hshape, heq⟩
    obtain ⟨c, rfl, hc⟩ := length_of_validCodeShape hshape
    rw [(constantTimeEqual_iff hc hlen).mp heq]
  · rintro rfl
    exact ⟨hdigits, (constantTimeEqual_iff hlen hlen).mpr rfl⟩

/-- What `consumeSection` does, by the state it finds. -/
lemma consumeSection_cases {s : Pairing} (code : Option (List UInt8)) (nowUs : ℤ)
    (hshape : s.active → validCodeShape (some s.code))
    (hattempts : s.active → s.failedAttempts.toNat < 5) :
    ConsumeCase s code nowUs (s.consumeSection (code.getD []) (validCodeShape code) nowUs).1
      (s.consumeSection (code.getD []) (validCodeShape code) nowUs).2 := by
  rw [consumeSection]
  by_cases hactive : (s.expiredLocked nowUs).active
  · obtain ⟨heq, hs, hnow⟩ := expiredLocked_active hactive
    rw [heq, if_neg (not_not.mpr hs)]
    by_cases hmatch : code = some s.code
    · rw [if_neg (not_not.mpr ((matches_iff (hshape hs)).mpr hmatch))]
      exact .ok hs hnow hmatch
    · rw [if_pos (fun h => hmatch ((matches_iff (hshape hs)).mp h))]
      have hlt := hattempts hs
      have hsucc : (s.failedAttempts + 1).toNat = s.failedAttempts.toNat + 1 := by
        rw [UInt8.toNat_add, UInt8.toNat_one]
        omega
      by_cases hmax : s.failedAttempts + 1 ≥ setupPairingMaxAttempts
      · rw [if_pos hmax]
        exact .locked hs hnow hmatch
      · rw [if_neg hmax]
        refine .invalidCode hs hnow hmatch (not_le.mp fun hle => hmax ?_)
        exact UInt8.le_iff_toNat_le.mpr (hsucc ▸ hle)
  · rw [if_pos hactive]
    exact .notOpen _ hactive

end Pairing

/-! ### One step -/

lemma Pairing.Agrees.closed {s : Pairing} (h : ¬ s.active) (log : List PairingEvent) :
    s.Agrees log :=
  ⟨fun h' => absurd h' h, fun h' => absurd h' h, fun h' => absurd h' h⟩

lemma Pairing.Agrees.opened (s : Pairing) (hcode : validCodeShape (some code)) (nowUs : ℤ)
    (log : List PairingEvent) :
    (s.openSection code nowUs).Agrees
      (log ++ [.opened code (nowUs + setupPairingWindowSeconds * 1000000)]) :=
  ⟨fun _ => window_append _ _, fun _ => hcode,
    fun _ => (by decide : (0 : UInt8).toNat < 5)⟩

lemma Pairing.Agrees.expired {s : Pairing} (h : s.Agrees log) (nowUs : ℤ) :
    (s.expiredLocked nowUs).Agrees log := by
  by_cases hactive : (s.expiredLocked nowUs).active
  · rwa [(expiredLocked_active hactive).1]
  · exact .closed hactive log

/-- An answer to a claim is no matter of the window. -/
lemma Pairing.Agrees.claimed {s : Pairing} (h : s.Agrees log) (t : ℕ) (stored : Bool)
    (result : PairingResult) : s.Agrees (log ++ [.claimed t stored result]) := by
  refine ⟨fun ha => ?_, h.shape, h.attempts⟩
  rw [window_append, h.window ha]
  rfl

lemma AcceptedClaim.append (h : AcceptedClaim t log) {e : PairingEvent}
    (he : ∀ stored result, e ≠ .claimed t stored result) : AcceptedClaim t (log ++ [e]) := by
  obtain ⟨pre, code, nowUs, mid, rfl, hmid⟩ := h
  refine ⟨pre, code, nowUs, mid ++ [e], by simp, fun stored result hmem => ?_⟩
  rcases List.mem_append.mp hmem with hmem | hmem
  · exact hmid _ _ hmem
  · exact he _ _ (List.mem_singleton.mp hmem).symm

/-- An event of another task does not matter to a task. -/
lemma PairingTask.Agrees.append {task : PairingTask} (h : task.Agrees t log) {e : PairingEvent}
    (he : ∀ stored result, e ≠ .claimed t stored result) : task.Agrees t (log ++ [e]) := by
  cases task with
  | issuing => exact AcceptedClaim.append h he
  | _ => exact h

/-- The tasks after one of them moved. -/
lemma agrees_update {task : ℕ → PairingTask} {new : PairingTask}
    (h : ∀ t', t' ≠ t → (task t').Agrees t' log) (hnew : new.Agrees t log) (t' : ℕ) :
    (Function.update task t new t').Agrees t' log := by
  exact (Function.forall_update_iff task fun t' task' => task'.Agrees t' log).mpr ⟨hnew, h⟩ t'

/-- A critical section of a claim or an authorization keeps the agreement. -/
lemma agrees_consume (h : s.Agrees log) (t : ℕ) (consumer : Consumer) (code : Option (List UInt8))
    {p : Pairing} {result : PairingResult} (hcase : ConsumeCase s.pairing code s.clockUs p result) :
    PairingSystem.Agrees
      { s with pairing := p, task := Function.update s.task t (afterConsume consumer result) }
      (log ++ (evaluatedEvent t consumer code s.clockUs result).toList) := by
  have hothers : ∀ e : PairingEvent, (∀ t stored result, e ≠ .claimed t stored result) →
      ∀ t' ≠ t, (s.task t').Agrees t' (log ++ [e]) := fun e he t' _ => (h.task t').append (he t')
  have hidle : ∀ result, result ≠ .ok → afterConsume consumer result = .idle := by
    intro result hne
    cases consumer <;> cases result <;> first | rfl | exact absurd rfl hne
  cases hcase with
  | notOpen p hclosed =>
      rw [hidle _ (by decide)]
      refine ⟨.closed hclosed _, agrees_update (fun t' _ => ?_) trivial, ?_⟩
      · exact (List.append_nil log).symm ▸ h.task t'
      · exact (List.append_nil log).symm ▸ h.bounded
  | ok hactive hnow hcode =>
      refine ⟨.closed Bool.false_ne_true _, agrees_update (hothers _ nofun) ?_, ?_⟩
      · cases consumer with
        | claim => exact ⟨log, code, s.clockUs, [], rfl, fun _ _ => List.not_mem_nil⟩
        | authorize => trivial
      · exact h.bounded.evaluated (h.pairing.window hactive) (h.pairing.attempts hactive) _ _ _ _ _
  | invalidCode hactive hnow hcode hlt =>
      rw [hidle _ (by decide)]
      have hwindow := h.pairing.window hactive
      refine ⟨⟨fun _ => ?_, fun _ => h.pairing.shape hactive, fun _ => ?_⟩,
        agrees_update (hothers _ nofun) trivial,
        h.bounded.evaluated hwindow (h.pairing.attempts hactive) _ _ _ _ _⟩
      · have hsucc : (s.pairing.failedAttempts + 1).toNat = s.pairing.failedAttempts.toNat + 1 := by
          rw [UInt8.toNat_add, UInt8.toNat_one]
          omega
        refine (window_append _ _).trans ?_
        rw [hwindow]
        exact congrArg (fun n => some (Window.mk s.pairing.code s.pairing.deadlineUs n)) hsucc.symm
      · show (s.pairing.failedAttempts + 1).toNat < 5
        rw [UInt8.toNat_add, UInt8.toNat_one]
        omega
  | locked hactive hnow hcode =>
      rw [hidle _ (by decide)]
      exact ⟨.closed Bool.false_ne_true _, agrees_update (hothers _ nofun) trivial,
        h.bounded.evaluated (h.pairing.window hactive) (h.pairing.attempts hactive) _ _ _ _ _⟩

/-- Every step of every task keeps the agreement of the system with its events. -/
theorem agrees_step {e : Option PairingEvent} (h : s.Agrees log) (hstep : PairingStep s e s') :
    s'.Agrees (log ++ e.toList) := by
  have hnil : log ++ (none : Option PairingEvent).toList = log := List.append_nil log
  cases hstep with
  | tick nowUs _ => exact hnil.symm ▸ ⟨h.pairing, h.task, h.bounded⟩
  | nullOutput t _ => exact hnil.symm ▸ h
  | callStart t randoms code _ hdraw =>
      rw [hnil]
      exact ⟨h.pairing, agrees_update (fun t' _ => h.task t') (validCodeShape_drawCode hdraw),
        h.bounded⟩
  | start t code ht =>
      have hcode : (PairingTask.starting code).Agrees t log := ht ▸ h.task t
      exact ⟨.opened s.pairing hcode s.clockUs log,
        agrees_update (fun t' _ => (h.task t').append nofun) trivial, .opened _ _⟩
  | callCancel t _ =>
      rw [hnil]
      exact ⟨h.pairing, agrees_update (fun t' _ => h.task t') trivial, h.bounded⟩
  | cancel t _ =>
      refine ⟨.closed Bool.false_ne_true _, agrees_update (fun t' _ => (h.task t').append nofun) trivial, ?_⟩
      exact h.bounded.other (by decide) (by decide) (by decide) nofun
  | callGetStatus t _ =>
      rw [hnil]
      exact ⟨h.pairing, agrees_update (fun t' _ => h.task t') trivial, h.bounded⟩
  | getStatus t nowUs _ =>
      rw [hnil]
      exact ⟨h.pairing.expired nowUs, agrees_update (fun t' _ => h.task t') trivial, h.bounded⟩
  | callConsume t consumer code _ =>
      rw [hnil]
      exact ⟨h.pairing, agrees_update (fun t' _ => h.task t') rfl, h.bounded⟩
  | consume t consumer code shapeValid ht =>
      have hshape : (PairingTask.consuming consumer code shapeValid).Agrees t log := ht ▸ h.task t
      cases hshape
      exact agrees_consume h t consumer code
        (Pairing.consumeSection_cases code s.clockUs h.pairing.shape h.pairing.attempts)
  | issueToken t stored _ =>
      refine ⟨h.pairing.claimed t stored _, agrees_update (fun t' hne => ?_) trivial, ?_⟩
      · exact (h.task t').append fun _ _ heq => hne (by cases heq; rfl)
      · exact h.bounded.other Bool.false_ne_true Bool.false_ne_true Bool.false_ne_true fun _ hw => hw

/-- The system agrees with its events in every run. -/
lemma agrees_run {clockUs : ℤ} (hrun : Run PairingStep (.boot clockUs) s log) : s.Agrees log :=
  hrun.invariant ⟨.closed Bool.false_ne_true _, fun _ => trivial,
    ⟨nofun, Nat.zero_le _, Nat.zero_le _⟩⟩ fun _ _ _ _ _ => agrees_step

/-! ### Every run -/

/-- The step behind an accepted call: the window was open with exactly its code. -/
lemma accepted_window (h : s.Agrees log) {consumer : Consumer} {code : Option (List UInt8)}
    {nowUs : ℤ} (hstep : PairingStep s (some (.evaluated t consumer code nowUs .ok)) s') :
    ∃ w, window log = some w ∧ code = some w.code ∧ nowUs < w.deadlineUs ∧ w.rejected < 5 := by
  generalize he : some (PairingEvent.evaluated t consumer code nowUs .ok) = e at hstep
  cases hstep with
  | consume t' consumer' code' shapeValid ht =>
      have hshape : (PairingTask.consuming consumer' code' shapeValid).Agrees t' log := ht ▸ h.task t'
      cases hshape
      have hcase := Pairing.consumeSection_cases code' s.clockUs h.pairing.shape h.pairing.attempts
      generalize s.pairing.consumeSection (code'.getD []) (validCodeShape code') s.clockUs
        = result at he hcase
      obtain ⟨p, result⟩ := result
      cases hcase with
      | ok hactive hnow hcode =>
          cases he
          exact ⟨_, h.pairing.window hactive, hcode, hnow, h.pairing.attempts hactive⟩
      | notOpen => cases he
      | invalidCode => cases he
      | locked => cases he
  | _ => cases he

/-- The step behind the answer to a claim: the claim was accepted before. -/
lemma claimed_accepted (h : s.Agrees log) {stored : Bool} {result : PairingResult}
    (hstep : PairingStep s (some (.claimed t stored result)) s') :
    result = claimAnswer stored ∧ AcceptedClaim t log := by
  generalize he : some (PairingEvent.claimed t stored result) = e at hstep
  cases hstep with
  | issueToken t' stored' ht =>
      cases he
      have hissuing : PairingTask.issuing.Agrees t log := ht ▸ h.task t
      exact ⟨rfl, hissuing⟩
  | consume t' consumer code shapeValid ht =>
      generalize (s.pairing.consumeSection (code.getD []) shapeValid s.clockUs).2 = r at he
      cases r <;> cases he
  | _ => cases he

/-- **The pairing code is single-use, time-limited and guess-limited**, in every
run of any number of tasks, their critical sections in any order. A call is
accepted only with exactly the code shown last, before its deadline, with no
cancel and no accepted call since, and with fewer than five rejected calls
since. Against each code at most five calls are rejected and at most one is
accepted. A claim whose token could not be stored answers so, and had consumed
the code. -/
theorem pairing_code_safe {clockUs : ℤ} {s : PairingSystem} {log : List PairingEvent}
    (hrun : Run PairingStep (.boot clockUs) s log) :
    (∀ pre t consumer code nowUs post,
      log = pre ++ .evaluated t consumer code nowUs .ok :: post →
      ∃ pre' shown deadlineUs mid, pre = pre' ++ .opened shown deadlineUs :: mid ∧
        code = some shown ∧ nowUs < deadlineUs ∧ (∀ e ∈ mid, e.keeps) ∧
        mid.countP (·.isRejected) < setupPairingMaxAttempts.toNat) ∧
    (∀ pre shown deadlineUs mid post,
      log = pre ++ .opened shown deadlineUs :: mid ++ post → (∀ e ∈ mid, ¬ e.isOpened) →
      mid.countP (·.isRejected) ≤ setupPairingMaxAttempts.toNat ∧
        mid.countP (·.isAccepted) ≤ 1) ∧
    (∀ pre t result post, log = pre ++ .claimed t false result :: post →
      result = .storageError ∧ AcceptedClaim t pre) := by
  refine ⟨?_, ?_, ?_⟩
  · intro pre t consumer code nowUs post hlog
    obtain ⟨s₁, s₂, hrun₁, hstep, -⟩ := hrun.event pre _ post hlog
    obtain ⟨w, hw, hcode, hnow, hlt⟩ := accepted_window (agrees_run hrun₁) hstep
    obtain ⟨pre', mid, hpre, hkeeps, hcount⟩ := window_some pre hw
    exact ⟨pre', w.code, w.deadlineUs, mid, hpre, hcode, hnow, hkeeps, hcount ▸ hlt⟩
  · intro pre shown deadlineUs mid post hlog hmid
    obtain ⟨s₁, hrun₁⟩ := hrun.split (pre ++ .opened shown deadlineUs :: mid) post hlog
    have hbounded := (agrees_run hrun₁).bounded
    have hsince : sinceOpened (pre ++ .opened shown deadlineUs :: mid) = mid.reverse :=
      sinceOpened_of_split hmid
    constructor
    · have := hbounded.rejected
      rwa [rejectedSince, hsince, List.countP_reverse] at this
    · have := hbounded.accepted
      rwa [acceptedSince, hsince, List.countP_reverse] at this
  · intro pre t result post hlog
    obtain ⟨s₁, s₂, hrun₁, hstep, -⟩ := hrun.event pre _ post hlog
    exact claimed_accepted (agrees_run hrun₁) hstep

/-- A code shown, a wrong claim, then the code itself, whose token cannot be
stored. -/
theorem pairing_code_safe_stored_not :
    ∃ log, log = [.opened (sixDigits 42) 300000000, .evaluated 1 .claim (some []) 7 .invalidCode,
        .evaluated 1 .claim (some (sixDigits 42)) 7 .ok, .claimed 1 false .storageError] ∧
      ∀ pre t result post, log = pre ++ .claimed t false result :: post →
        result = PairingResult.storageError ∧ AcceptedClaim t pre := by
  have hrun := (((((((((@Run.start _ _ PairingStep (.boot 0)).step
    (.callStart _ 0 [42] (sixDigits 42) rfl (by decide +kernel))).step
    (.start _ 0 _ rfl)).step
    (.tick _ 7 (by decide))).step
    (.callConsume _ 1 .claim (some []) rfl)).step
    (.consume _ 1 _ _ _ rfl)).step
    (.callConsume _ 1 .claim (some (sixDigits 42)) rfl)).step
    (.consume _ 1 _ _ _ rfl)).step
    (.issueToken _ 1 false rfl))
  exact ⟨_, rfl, (pairing_code_safe hrun).2.2⟩

end ArcticController

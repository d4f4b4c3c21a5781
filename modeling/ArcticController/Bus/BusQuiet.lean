/-
The RS-485 bus is quiet once the restart path holds it, over every interleaving of the
tasks.

* `HoldsBus`, `inFlight`: who holds the bus and which transactions are in flight, as the
  events tell;
* `BusEffect`: what a step can do to the mutex, the flag and a task;
* `BusFollows`: the state is the one the events tell;
* `bus_quiet_after_quiesce`: one transaction at a time, at most one write after the flag
  was set, and none after the restart path got the mutex.
-/
import ArcticController.Base.TaskLock
import ArcticController.Bus.MaconMaster

namespace ArcticController

/-! ### What is to hold -/

def BusEvent.task : BusEvent → ℕ
  | .took t | .gave t | .cleared t | .started t _ | .ended t _ | .shutdown t | .quiesced t _
  | .released t => t

/-- A task took the mutex and did not give it back. -/
def HoldsBus (t : ℕ) (log : List BusEvent) : Prop :=
  ∃ pre post, log = pre ++ .took t :: post ∧ .gave t ∉ post

/-- The tasks with a transaction in flight. -/
def inFlight (log : List BusEvent) : List ℕ :=
  log.foldl (fun flying e =>
    match e with
    | .started t _ => t :: flying
    | .ended t _ => flying.erase t
    | _ => flying) []

def BusEvent.startsWrite : BusEvent → Bool
  | .started _ (.write _) => true
  | _ => false

def BusEvent.endsWrite : BusEvent → Bool
  | .ended _ (.write _) => true
  | _ => false

/-- At most one transaction is in flight; a write starts only if the flag was clear while
its task held the bus, so after the flag was set at most one write starts and one ends, of
the task that holds the bus then; and once the restart path got the mutex nothing is in
flight, also when the transceiver is released, and nothing starts. -/
structure BusQuiet (log : List BusEvent) : Prop where
  single : ∀ pre post, log = pre ++ post → (inFlight pre).length ≤ 1
  fenced : ∀ pre t w post, log = pre ++ .started t (.write w) :: post → ∃ before since,
    pre = before ++ .cleared t :: since ∧ HoldsBus t before ∧ (∀ u, .shutdown u ∉ before) ∧
    .gave t ∉ since
  last : ∀ pre u post, log = pre ++ .shutdown u :: post →
    (∀ t w, .started t (.write w) ∈ post ∨ .ended t (.write w) ∈ post → HoldsBus t pre) ∧
    (post.filter (·.startsWrite)).length ≤ 1 ∧ (post.filter (·.endsWrite)).length ≤ 1
  quiesced : ∀ pre t post, log = pre ++ .quiesced t true :: post →
    (∀ mid rest, post = mid ++ rest → inFlight (pre ++ .quiesced t true :: mid) = []) ∧
    ∀ u x, .started u x ∉ post

variable {t : ℕ} {log : List BusEvent} {e : Option BusEvent} {s : BusSystem}

lemma holdsBus_append :
    HoldsBus t (log ++ e.toList) ↔ e = some (.took t) ∨ (HoldsBus t log ∧ e ≠ some (.gave t)) := by
  constructor
  · rintro ⟨pre, post, hsplit, hpost⟩
    rcases split_step hsplit with ⟨he, -, -⟩ | ⟨post', hlog, rfl⟩
    · exact .inl he
    · refine .inr ⟨⟨pre, post', hlog, fun h => hpost (List.mem_append_left _ h)⟩, ?_⟩
      rintro rfl
      exact hpost (List.mem_append_right _ List.mem_cons_self)
  · rintro (rfl | ⟨⟨pre, post, rfl, hpost⟩, he⟩)
    · exact ⟨log, [], rfl, List.not_mem_nil⟩
    · refine ⟨pre, post ++ e.toList, by rw [List.append_assoc, List.cons_append], ?_⟩
      rw [List.mem_append, Option.mem_toList]
      rintro (h | h)
      · exact hpost h
      · exact he h

lemma HoldsBus.later {more : List BusEvent} (h : HoldsBus t log) (hmore : .gave t ∉ more) :
    HoldsBus t (log ++ more) := by
  obtain ⟨pre, post, rfl, hpost⟩ := h
  refine ⟨pre, post ++ more, by rw [List.append_assoc, List.cons_append], ?_⟩
  rw [List.mem_append]
  rintro (h | h)
  · exact hpost h
  · exact hmore h

/-! ### What a step can do -/

namespace BusTask

/-- Between taking the mutex and giving it back. -/
def inside : BusTask → Prop
  | .pollHolding _ | .polling _ | .polled _ | .writeHolding _ | .writeRejecting _
  | .writeCleared _ | .writing _ | .written _ _ => True
  | _ => False

/-- In a transaction. -/
def flying : BusTask → Prop
  | .polling _ | .writing _ => True
  | _ => False

/-- What a writing task did since it found the flag clear. -/
def passed (t : ℕ) : BusTask → Option (List BusEvent)
  | .writeCleared _ => some []
  | .writing w => some [.started t (.write w)]
  | _ => none

lemma inside_of_flying {task : BusTask} (h : task.flying) : task.inside := by
  cases task with
  | polling => trivial
  | writing => trivial
  | _ => cases h

end BusTask

def BusMutex.holder : BusMutex → Option ℕ
  | .held t => some t
  | _ => none

/-- What a step does to the mutex, the flag and the task that makes it. -/
inductive BusEffect (s : BusSystem) : Option BusEvent → BusSystem → Prop where
  | active (active : Bool) : BusEffect s none { s with active }
  | move (t : ℕ) (new : BusTask) (hinside : new.inside ↔ (s.task t).inside) (hnew : ¬ new.flying)
      (hold : ¬ (s.task t).flying) (hpassed : new.passed t = none) :
      BusEffect s none (s.goes t new)
  | take (t : ℕ) (new : BusTask) (hfree : s.mutex = .free) (hnew : new.inside)
      (hnew' : ¬ new.flying) (hpassed : new.passed t = none) :
      BusEffect s (some (.took t)) { s.goes t new with mutex := .held t }
  | give (t : ℕ) (new : BusTask) (hold : (s.task t).inside) (hold' : ¬ (s.task t).flying)
      (hnew : ¬ new.inside) (hpassed : new.passed t = none) :
      BusEffect s (some (.gave t)) { s.goes t new with mutex := .free }
  | clear (t : ℕ) (w : BusWrite) (h : s.task t = .writeHolding w) (hclear : ¬ s.shutdown) :
      BusEffect s (some (.cleared t)) (s.goes t (.writeCleared w))
  | startPoll (t : ℕ) (window : PollWindow) (h : s.task t = .pollHolding window) :
      BusEffect s (some (.started t (.poll window))) (s.goes t (.polling window))
  | startWrite (t : ℕ) (w : BusWrite) (h : s.task t = .writeCleared w) :
      BusEffect s (some (.started t (.write w))) (s.goes t (.writing w))
  | ends (t : ℕ) (x : BusTransaction) (new : BusTask) (hold : (s.task t).flying)
      (hnew : new.inside) (hnew' : ¬ new.flying) (hpassed : new.passed t = none) :
      BusEffect s (some (.ended t x)) (s.goes t new)
  | shutdown (t : ℕ) (new : BusTask) (hold : ¬ (s.task t).inside) (hnew : ¬ new.inside)
      (hpassed : new.passed t = none) :
      BusEffect s (some (.shutdown t)) { s.goes t new with shutdown := true }
  | quiesced (t : ℕ) (got : Bool) (hold : ¬ (s.task t).inside) (hfree : got → s.mutex = .free) :
      BusEffect s (some (.quiesced t got))
        { s.goes t (.releasing got) with mutex := if got then .kept else s.mutex }
  | released (t : ℕ) (got : Bool) (h : s.task t = .releasing got) :
      BusEffect s (some (.released t)) (s.goes t .idle)

lemma goes_same {task : BusTask} (h : s.task t = task) : s.goes t task = s := by
  rw [BusSystem.goes, ← h, Function.update_eq_self]

/-- A task that moves outside of the section. -/
lemma BusEffect.outside {old : BusTask} (h : s.task t = old) (hold : ¬ old.inside) {new : BusTask}
    (hnew : ¬ new.inside) (hpassed : new.passed t = none) : BusEffect s none (s.goes t new) := by
  refine .move t new ?_ (fun hf => hnew (BusTask.inside_of_flying hf)) ?_ hpassed
  · rw [h]
    exact iff_of_false hnew hold
  · rw [h]
    exact fun hf => hold (BusTask.inside_of_flying hf)

lemma BusStep.effect {s' : BusSystem} (h : BusStep s e s') : BusEffect s e s' := by
  cases h with
  | activate => exact .active true
  | notCreated => exact .active false
  | createPoll t h => exact .outside h id id rfl
  | pollTake t window h hfree => exact .take t _ hfree trivial id rfl
  | pollStart t window h => exact .startPoll t window h
  | pollEnd t window h => exact .ends t _ _ (by rw [h]; trivial) trivial id rfl
  | pollGive t window h =>
      refine .give t _ (by rw [h]; trivial) (by rw [h]; exact id) ?_ ?_
      · cases window <;> exact id
      · cases window <;> rfl
  | pollDelay t h => exact .outside h id id rfl
  | notActive t hidle hactive => exact .active s.active
  | ask t w h hactive => exact .outside h id id rfl
  | reject t w h hset => exact .outside h id id rfl
  | wait t w h hclear => exact .outside h id id rfl
  | writeTake t w h hfree => exact .take t _ hfree trivial id rfl
  | clear t w h hclear => exact .clear t w h hclear
  | notClear t w h hset =>
      exact .move t _ (by rw [h]; exact Iff.rfl) id (by rw [h]; exact id) rfl
  | rejectGive t w h => exact .give t _ (by rw [h]; trivial) (by rw [h]; exact id) id rfl
  | writeStart t w h => exact .startWrite t w h
  | writeEnd t w ok h => exact .ends t _ _ (by rw [h]; trivial) trivial id rfl
  | writeGive t w ok h => exact .give t _ (by rw [h]; trivial) (by rw [h]; exact id) id rfl
  | beginShutdown t hidle =>
      have heffect := @BusEffect.shutdown s t .idle (by rw [hidle]; exact id) id rfl
      rwa [goes_same hidle] at heffect
  | quiesce t hidle => exact .shutdown t .quiesceWaiting (by rw [hidle]; exact id) id rfl
  | quiesceTake t h hfree => exact .quiesced t true (by rw [h]; exact id) fun _ => hfree
  | quiesceTimeout t h => exact .quiesced t false (by rw [h]; exact id) nofun
  | release t got h => exact .released t got h

/-! ### The state and its events -/

/-- A task found the flag clear while it held the bus, and did `own` since. -/
def Passed (t : ℕ) (own : List BusEvent) (log : List BusEvent) : Prop :=
  ∃ before since, log = before ++ .cleared t :: since ∧ HoldsBus t before ∧
    (∀ u, .shutdown u ∉ before) ∧ (since.filter fun e => e.task = t) = own

lemma Passed.append {own : List BusEvent} (h : Passed t own log) (e : Option BusEvent) :
    Passed t (own ++ e.toList.filter fun e => e.task = t) (log ++ e.toList) := by
  obtain ⟨before, since, rfl, hholds, hclear, rfl⟩ := h
  refine ⟨before, since ++ e.toList, by rw [List.append_assoc, List.cons_append], hholds, hclear, ?_⟩
  rw [List.filter_append]

/-- What others do is none of its own. -/
lemma Passed.other {t' : ℕ} {own : List BusEvent} (h : Passed t own log)
    (he : ∀ e' ∈ e, e'.task = t') (hne : t ≠ t') : Passed t own (log ++ e.toList) := by
  have hnone : (e.toList.filter fun e => e.task = t) = [] := by
    refine List.filter_eq_nil_iff.mpr fun e' he' heq => hne ?_
    rw [← of_decide_eq_true heq, he e' (Option.mem_toList.mp he')]
  have happend := h.append e
  rwa [hnone, List.append_nil] at happend

structure BusFollows (s : BusSystem) (log : List BusEvent) : Prop where
  guards : Guards BusTask.inside s.mutex.holder s.task
  holds : ∀ t, (s.task t).inside ↔ HoldsBus t log
  flag : s.shutdown ↔ ∃ u, .shutdown u ∈ log
  passed : ∀ t own, (s.task t).passed t = some own → Passed t own log
  flight : (inFlight log = [] ∧ ∀ t, ¬ (s.task t).flying) ∨
    ∃ t, inFlight log = [t] ∧ (s.task t).flying
  kept : ∀ t, .quiesced t true ∈ log → s.mutex = .kept

lemma inFlight_append (log : List BusEvent) (e : BusEvent) :
    inFlight (log ++ [e]) =
      match e with
      | .started t _ => t :: inFlight log
      | .ended t _ => (inFlight log).erase t
      | _ => inFlight log := by
  rw [inFlight, List.foldl_append]
  cases e <;> rfl

namespace BusFollows

variable {s s' : BusSystem} {log : List BusEvent} {t : ℕ} {new : BusTask}

lemma start : BusFollows {} [] where
  guards t := iff_of_false id nofun
  holds t := by
    refine iff_of_false id ?_
    rintro ⟨pre, post, h, -⟩
    cases (List.append_eq_nil_iff.mp h.symm).2
  flag := iff_of_false nofun fun ⟨_, h⟩ => nomatch h
  passed t own h := by cases h
  flight := .inl ⟨rfl, fun _ => id⟩
  kept t h := by cases h

/-- Nothing is in flight while the one task inside does not fly. -/
lemma still (h : BusFollows s log) (hold : (s.task t).inside) (hnot : ¬ (s.task t).flying) :
    inFlight log = [] ∧ ∀ u, ¬ (s.task u).flying := by
  rcases h.flight with hnone | ⟨u, -, hu⟩
  · exact hnone
  · rw [h.guards.unique (BusTask.inside_of_flying hu) hold] at hu
    exact absurd hu hnot

/-- Nothing is in flight while nobody is inside. -/
lemma still_of_outside (h : BusFollows s log) (hholder : s.mutex.holder = none) :
    inFlight log = [] ∧ ∀ u, ¬ (s.task u).flying := by
  rcases h.flight with hnone | ⟨u, -, hu⟩
  · exact hnone
  · have hguards := h.guards
    rw [hholder] at hguards
    exact absurd (BusTask.inside_of_flying hu) (hguards.outside u)

variable {e : Option BusEvent}

lemma passed_goes (h : BusFollows s log) (he : ∀ e' ∈ e, e'.task = t)
    (hnew : ∀ own, new.passed t = some own → Passed t own (log ++ e.toList)) (u : ℕ)
    (own : List BusEvent) (hpassed : ((s.goes t new).task u).passed u = some own) :
    Passed u own (log ++ e.toList) := by
  rw [BusSystem.goes] at hpassed
  dsimp only at hpassed
  rcases eq_or_ne u t with rfl | hne
  · rw [Function.update_self] at hpassed
    exact hnew own hpassed
  · rw [Function.update_of_ne hne] at hpassed
    exact (h.passed u own hpassed).other he hne

lemma holds_goes (h : BusFollows s log) (he : ∀ e' ∈ e, e'.task = t)
    (hnew : new.inside ↔ HoldsBus t (log ++ e.toList)) (u : ℕ) :
    ((s.goes t new).task u).inside ↔ HoldsBus u (log ++ e.toList) := by
  rw [BusSystem.goes]
  dsimp only
  rcases eq_or_ne u t with rfl | hne
  · rw [Function.update_self]
    exact hnew
  · rw [Function.update_of_ne hne, h.holds u, holdsBus_append]
    constructor
    · refine fun hholds => .inr ⟨hholds, fun heq => hne ?_⟩
      exact he (.gave u) (heq ▸ rfl)
    · rintro (heq | ⟨hholds, -⟩)
      · exact absurd (he (.took u) (heq ▸ rfl)) hne
      · exact hholds

lemma flying_goes {u : ℕ} (hu : ((s.goes t new).task u).flying) :
    (u = t ∧ new.flying) ∨ (u ≠ t ∧ (s.task u).flying) := by
  rw [BusSystem.goes] at hu
  dsimp only at hu
  rcases eq_or_ne u t with rfl | hne
  · rw [Function.update_self] at hu
    exact .inl ⟨rfl, hu⟩
  · rw [Function.update_of_ne hne] at hu
    exact .inr ⟨hne, hu⟩

lemma flying_self (hnew : new.flying) : ((s.goes t new).task t).flying := by
  rw [BusSystem.goes]
  dsimp only
  rwa [Function.update_self]

/-- The flag after an event that does not set it. -/
lemma flag_append (h : BusFollows s log) (he : ∀ u, e ≠ some (.shutdown u)) :
    s.shutdown ↔ ∃ u, .shutdown u ∈ log ++ e.toList := by
  rw [h.flag]
  refine exists_congr fun u => ?_
  rw [List.mem_append, Option.mem_toList]
  exact (or_iff_left (he u)).symm

lemma kept_append (h : BusFollows s log) (he : ∀ u, e ≠ some (.quiesced u true)) {u : ℕ}
    (hmem : .quiesced u true ∈ log ++ e.toList) : s.mutex = .kept := by
  rcases List.mem_append.mp hmem with hmem | hmem
  · exact h.kept u hmem
  · exact absurd (Option.mem_toList.mp hmem) (he u)

lemma flight_same (h : BusFollows s log) (he : inFlight (log ++ e.toList) = inFlight log)
    (hnew : new.flying ↔ (s.task t).flying) :
    (inFlight (log ++ e.toList) = [] ∧ ∀ u, ¬ ((s.goes t new).task u).flying) ∨
    ∃ u, inFlight (log ++ e.toList) = [u] ∧ ((s.goes t new).task u).flying := by
  have hsame : ∀ u, ((s.goes t new).task u).flying ↔ (s.task u).flying := by
    intro u
    rw [BusSystem.goes]
    dsimp only
    rcases eq_or_ne u t with rfl | hne
    · rw [Function.update_self, hnew]
    · rw [Function.update_of_ne hne]
  rw [he]
  exact h.flight.imp (And.imp_right fun hnone u => (hsame u).not.mpr (hnone u))
    (Exists.imp fun u => And.imp_right (hsame u).mpr)

/-- A task that moves inside the section, or outside of it. -/
lemma holds_stay (h : BusFollows s log) (htook : e ≠ some (.took t)) (hgave : e ≠ some (.gave t))
    (hnew : new.inside ↔ (s.task t).inside) : new.inside ↔ HoldsBus t (log ++ e.toList) := by
  rw [hnew, h.holds t, holdsBus_append]
  constructor
  · exact fun hholds => .inr ⟨hholds, hgave⟩
  · rintro (heq | ⟨hholds, -⟩)
    · exact absurd heq htook
    · exact hholds

lemma not_kept (h : BusFollows s log) (hold : (s.task t).inside) : s.mutex ≠ .kept := by
  intro hkept
  have hholder := (h.guards t).mp hold
  rw [hkept] at hholder
  cases hholder

/-- Every effect keeps this. -/
lemma step (h : BusFollows s log) (heffect : BusEffect s e s') :
    BusFollows s' (log ++ e.toList) := by
  cases heffect with
  | active active =>
      rw [Option.toList_none, List.append_nil]
      exact ⟨h.guards, h.holds, h.flag, h.passed, h.flight, h.kept⟩
  | move t new hinside hnew hold hpassed =>
      refine ⟨h.guards.stay hinside, h.holds_goes nofun (h.holds_stay (by nofun) (by nofun) hinside),
        h.flag_append nofun, h.passed_goes nofun ?_, h.flight_same ?_ (iff_of_false hnew hold),
        fun u hmem => h.kept_append (by nofun) hmem⟩
      · rw [hpassed]
        exact nofun
      · rw [Option.toList_none, List.append_nil]
  | take t new hfree hnew hnew' hpassed =>
      have hholder : s.mutex.holder = none := by rw [hfree]; rfl
      have hguards : Guards BusTask.inside none s.task := hholder ▸ h.guards
      obtain ⟨hnone, hstill⟩ := h.still_of_outside hholder
      refine ⟨hguards.take hnew, h.holds_goes (by rintro _ ⟨⟩; rfl) ?_, h.flag_append nofun,
        h.passed_goes (by rintro _ ⟨⟩; rfl) ?_, .inl ⟨(inFlight_append log _).trans hnone, ?_⟩, ?_⟩
      · exact iff_of_true hnew (holdsBus_append.mpr (.inl rfl))
      · rw [hpassed]
        exact nofun
      · intro u hu
        rcases flying_goes hu with ⟨-, hu⟩ | ⟨-, hu⟩
        · exact hnew' hu
        · exact hstill u hu
      · intro u hmem
        have hkept := h.kept_append (by nofun) hmem
        rw [hfree] at hkept
        cases hkept
  | give t new hold hold' hnew hpassed =>
      obtain ⟨hnone, hstill⟩ := h.still hold hold'
      refine ⟨h.guards.give hold hnew, h.holds_goes (by rintro _ ⟨⟩; rfl) ?_, h.flag_append nofun,
        h.passed_goes (by rintro _ ⟨⟩; rfl) ?_, .inl ⟨(inFlight_append log _).trans hnone, ?_⟩,
        fun u hmem => absurd (h.kept_append (by nofun) hmem) (h.not_kept hold)⟩
      · refine iff_of_false hnew fun hholds => ?_
        rcases holdsBus_append.mp hholds with heq | ⟨-, hne⟩
        · cases heq
        · exact hne rfl
      · rw [hpassed]
        exact nofun
      · intro u hu
        rcases flying_goes hu with ⟨-, hu⟩ | ⟨-, hu⟩
        · exact hnew (BusTask.inside_of_flying hu)
        · exact hstill u hu
  | clear t w htask hclear =>
      have hinside : (BusTask.writeCleared w).inside ↔ (s.task t).inside := by rw [htask]; exact Iff.rfl
      have hholds := (h.holds t).mp (by rw [htask]; trivial)
      refine ⟨h.guards.stay hinside,
        h.holds_goes (by rintro _ ⟨⟩; rfl) (h.holds_stay (by nofun) (by nofun) hinside), h.flag_append nofun,
        h.passed_goes (by rintro _ ⟨⟩; rfl) ?_,
        h.flight_same (inFlight_append log _) (by rw [htask]; exact Iff.rfl),
        fun u hmem => h.kept_append (by nofun) hmem⟩
      rintro own ⟨⟩
      exact ⟨log, [], rfl, hholds, fun u hmem => hclear (h.flag.mpr ⟨u, hmem⟩), rfl⟩
  | startPoll t window htask =>
      have hinside : (BusTask.polling window).inside ↔ (s.task t).inside := by rw [htask]; exact Iff.rfl
      obtain ⟨hnone, -⟩ := h.still (by rw [htask]; trivial) (by rw [htask]; exact id)
      refine ⟨h.guards.stay hinside,
        h.holds_goes (by rintro _ ⟨⟩; rfl) (h.holds_stay (by nofun) (by nofun) hinside), h.flag_append nofun,
        h.passed_goes (by rintro _ ⟨⟩; rfl) (by nofun), .inr ⟨t, ?_, ?_⟩,
        fun u hmem => h.kept_append (by nofun) hmem⟩
      · exact (inFlight_append log _).trans (congrArg (t :: ·) hnone)
      · exact flying_self trivial
  | startWrite t w htask =>
      have hinside : (BusTask.writing w).inside ↔ (s.task t).inside := by rw [htask]; exact Iff.rfl
      obtain ⟨hnone, -⟩ := h.still (by rw [htask]; trivial) (by rw [htask]; exact id)
      have hpassed : Passed t [] log := h.passed t [] (by rw [htask]; rfl)
      refine ⟨h.guards.stay hinside,
        h.holds_goes (by rintro _ ⟨⟩; rfl) (h.holds_stay (by nofun) (by nofun) hinside), h.flag_append nofun,
        h.passed_goes (by rintro _ ⟨⟩; rfl) ?_, .inr ⟨t, ?_, ?_⟩,
        fun u hmem => h.kept_append (by nofun) hmem⟩
      · rintro own ⟨⟩
        have happend := hpassed.append (some (.started t (.write w)))
        have hown : ((some (BusEvent.started t (.write w))).toList.filter fun e => e.task = t) =
            [.started t (.write w)] := List.filter_eq_self.mpr (by rintro _ (_ | ⟨_, ⟨⟩⟩); simp [BusEvent.task])
        rwa [hown] at happend
      · exact (inFlight_append log _).trans (congrArg (t :: ·) hnone)
      · exact flying_self trivial
  | ends t x new hold hnew hnew' hpassed =>
      have hinside : new.inside ↔ (s.task t).inside :=
        iff_of_true hnew (BusTask.inside_of_flying hold)
      refine ⟨h.guards.stay hinside,
        h.holds_goes (by rintro _ ⟨⟩; rfl) (h.holds_stay (by nofun) (by nofun) hinside), h.flag_append nofun,
        h.passed_goes (by rintro _ ⟨⟩; rfl) ?_, .inl ?_, fun u hmem => h.kept_append (by nofun) hmem⟩
      · rw [hpassed]
        exact nofun
      · -- the transaction that ends is the only one
        have honly : ∀ u, (s.task u).flying → u = t := fun u hu =>
          h.guards.unique (BusTask.inside_of_flying hu) (BusTask.inside_of_flying hold)
        rcases h.flight with ⟨-, hnone⟩ | ⟨u, hflight, hu⟩
        · exact absurd hold (hnone t)
        · obtain rfl := honly u hu
          refine ⟨(inFlight_append log _).trans ?_, fun u' hu' => ?_⟩
          · rw [hflight]
            exact List.erase_cons_head ..
          · rcases flying_goes hu' with ⟨-, hu'⟩ | ⟨hne, hu'⟩
            · exact hnew' hu'
            · exact hne (honly u' hu')
  | shutdown t new hold hnew hpassed =>
      have hinside : new.inside ↔ (s.task t).inside := iff_of_false hnew hold
      have hflying : new.flying ↔ (s.task t).flying :=
        iff_of_false (fun hf => hnew (BusTask.inside_of_flying hf))
          fun hf => hold (BusTask.inside_of_flying hf)
      refine ⟨h.guards.stay hinside,
        h.holds_goes (by rintro _ ⟨⟩; rfl) (h.holds_stay (by nofun) (by nofun) hinside), ?_,
        h.passed_goes (by rintro _ ⟨⟩; rfl) ?_, h.flight_same (inFlight_append log _) hflying,
        fun u hmem => h.kept_append (by nofun) hmem⟩
      · exact iff_of_true rfl ⟨t, List.mem_append_right _ List.mem_cons_self⟩
      · rw [hpassed]
        exact nofun
  | quiesced t got hold hfree =>
      have hinside : (BusTask.releasing got).inside ↔ (s.task t).inside := iff_of_false id hold
      have hflying : (BusTask.releasing got).flying ↔ (s.task t).flying :=
        iff_of_false id fun hf => hold (BusTask.inside_of_flying hf)
      refine ⟨?_, h.holds_goes (by rintro _ ⟨⟩; rfl) (h.holds_stay (by nofun) (by nofun) hinside),
        h.flag_append nofun, h.passed_goes (by rintro _ ⟨⟩; rfl) (by nofun),
        h.flight_same (inFlight_append log _) hflying, fun u hmem => ?_⟩
      · have hguards := h.guards.stay hinside
        cases got with
        | false => exact hguards
        | true =>
            rw [hfree rfl] at hguards
            exact hguards
      · cases got with
        | false => exact h.kept_append (by nofun) hmem
        | true => rfl
  | released t got htask =>
      have hinside : BusTask.idle.inside ↔ (s.task t).inside := by rw [htask]; exact Iff.rfl
      exact ⟨h.guards.stay hinside,
        h.holds_goes (by rintro _ ⟨⟩; rfl) (h.holds_stay (by nofun) (by nofun) hinside), h.flag_append nofun,
        h.passed_goes (by rintro _ ⟨⟩; rfl) (by nofun),
        h.flight_same (inFlight_append log _) (by rw [htask]; exact Iff.rfl),
        fun u hmem => h.kept_append (by nofun) hmem⟩

end BusFollows

lemma busFollows_run (hrun : Run BusStep {} s log) : BusFollows s log :=
  hrun.invariant .start fun _ _ _ _ _ h hstep => h.step hstep.effect

/-! ### Every run -/

section Runs

variable {s : BusSystem} {log : List BusEvent}

/-- A write is in the hands of a task that found the flag clear, and did no more since than
to start it. -/
lemma passed_of_write (hrun : Run BusStep {} s log) {pre post : List BusEvent} {t : ℕ} {w : BusWrite}
    {e : BusEvent} (he : e = .started t (.write w) ∨ e = .ended t (.write w))
    (hsplit : log = pre ++ e :: post) : ∃ own, Passed t own pre ∧ .gave t ∉ own ∧
      (e = .started t (.write w) → own = []) ∧
      (e = .ended t (.write w) → ∃ w', own = [.started t (.write w')]) := by
  obtain ⟨s₁, s₂, hrun₁, hstep, -⟩ := hrun.event pre e post hsplit
  have h₁ := busFollows_run hrun₁
  generalize hevent : some e = event at hstep
  rcases he with rfl | rfl
  · cases hstep with
    | writeStart t' w' htask =>
        cases hevent
        exact ⟨[], h₁.passed t [] (by rw [htask]; rfl), List.not_mem_nil, fun _ => rfl, nofun⟩
    | _ => cases hevent
  · cases hstep with
    | writeEnd t' w' ok htask =>
        cases hevent
        refine ⟨_, h₁.passed t _ (by rw [htask]; rfl), ?_, nofun, fun _ => ⟨w, rfl⟩⟩
        rintro (_ | ⟨_, ⟨⟩⟩)
    | _ => cases hevent

lemma mem_filter_task {t : ℕ} {own since : List BusEvent} {e : BusEvent}
    (h : (since.filter fun e => e.task = t) = own) (he : e.task = t) (hnot : e ∉ own) :
    e ∉ since := fun hmem =>
  hnot (h ▸ List.mem_filter.mpr ⟨hmem, decide_eq_true he⟩)

/-- A write after the flag was set is of the task that held the bus then, which has done
nothing since it found the flag clear but what `own` tells. -/
lemma passed_before_shutdown {pre post own : List BusEvent} {u t : ℕ}
    (h : Passed t own (pre ++ .shutdown u :: post)) (hgave : .gave t ∉ own) :
    HoldsBus t pre ∧ ∀ e ∈ post, e.task = t → e ∈ own := by
  obtain ⟨before, since, hsplit, hholds, hclear, hown⟩ := h
  rcases List.append_eq_append_iff.mp hsplit with ⟨gap, rfl, hrest⟩ | ⟨gap, rfl, hrest⟩
  · -- the flag would have been set before it was found clear
    cases gap with
    | nil => cases hrest
    | cons e gap =>
        cases hrest
        exact absurd (List.mem_append_right _ List.mem_cons_self) (hclear u)
  · cases gap with
    | nil => cases hrest
    | cons e gap =>
        cases hrest
        have hnot : .gave t ∉ gap := fun hmem =>
          mem_filter_task hown rfl hgave (List.mem_append_left _ hmem)
        refine ⟨hholds.later ?_, fun e' hmem he' => ?_⟩
        · rintro (_ | ⟨_, hmem⟩)
          exact hnot hmem
        · rw [← hown]
          exact List.mem_filter.mpr
            ⟨List.mem_append_right _ (List.mem_cons_of_mem _ hmem), decide_eq_true he'⟩

/-- Of events that cannot stand one after the other there is at most one. -/
lemma length_filter_le_one {p : BusEvent → Bool} {l : List BusEvent}
    (h : ∀ a x b y c, l = a ++ x :: b ++ y :: c → p x → p y → False) : (l.filter p).length ≤ 1 := by
  rcases hfilter : l.filter p with _ | ⟨x, _ | ⟨y, rest⟩⟩
  · exact Nat.zero_le _
  · exact le_rfl
  · obtain ⟨a, l', rfl, -, hx, hrest⟩ := List.filter_eq_cons_iff.mp hfilter
    obtain ⟨b, c, rfl, -, hy, -⟩ := List.filter_eq_cons_iff.mp hrest
    exact absurd (h a x b y c (by rw [List.append_assoc, List.cons_append]) hx hy) id

/-- **The bus is quiet after quiesce.** -/
theorem bus_quiet_after_quiesce (hrun : Run BusStep {} s log) : BusQuiet log := by
  -- a write after the flag was set, with what its task did before
  have hlast : ∀ pre u m e n t w, log = pre ++ .shutdown u :: (m ++ e :: n) →
      e = .started t (.write w) ∨ e = .ended t (.write w) →
      HoldsBus t pre ∧ (∀ e' ∈ m, e'.task = t → ∃ w', e' = .started t (.write w') ∧
        e = .ended t (.write w)) := by
    intro pre u m e n t w hsplit he
    have hsplit' : log = (pre ++ .shutdown u :: m) ++ e :: n := by
      rw [hsplit, List.append_assoc, List.cons_append]
    obtain ⟨own, hpassed, hgave, hstarted, hended⟩ := passed_of_write hrun he hsplit'
    obtain ⟨hholds, hown⟩ := passed_before_shutdown hpassed hgave
    refine ⟨hholds, fun e' hmem he' => ?_⟩
    have hmine := hown e' hmem he'
    rcases he with he | he
    · rw [hstarted he] at hmine
      cases hmine
    · obtain ⟨w', rfl⟩ := hended he
      exact ⟨w', List.mem_singleton.mp hmine, he⟩
  refine ⟨fun pre post hsplit => ?_, fun pre t w post hsplit => ?_, fun pre u post hsplit => ?_,
    fun pre t post hsplit => ?_⟩
  · obtain ⟨s', hrun'⟩ := hrun.split pre post hsplit
    rcases (busFollows_run hrun').flight with ⟨hnone, -⟩ | ⟨t, hone, -⟩
    · rw [hnone]
      exact Nat.zero_le _
    · rw [hone]
      exact le_rfl
  · obtain ⟨own, ⟨before, since, rfl, hholds, hclear, hown⟩, hgave, -, -⟩ :=
      passed_of_write hrun (.inl rfl) hsplit
    exact ⟨before, since, rfl, hholds, hclear, mem_filter_task hown rfl hgave⟩
  · obtain ⟨s', hrun'⟩ := hrun.split pre _ hsplit
    have h' := busFollows_run hrun'
    -- two writes after the flag would be of one task
    have hsame : ∀ t t', HoldsBus t pre → HoldsBus t' pre → t = t' := fun t t' ht ht' =>
      h'.guards.unique ((h'.holds t).mpr ht) ((h'.holds t').mpr ht')
    refine ⟨fun t w hmem => ?_, length_filter_le_one fun a x b y c hpost hx hy => ?_,
      length_filter_le_one fun a x b y c hpost hx hy => ?_⟩
    · rcases hmem with hmem | hmem
      · obtain ⟨m, n, rfl⟩ := List.append_of_mem hmem
        exact (hlast pre u m _ n t w hsplit (.inl rfl)).1
      · obtain ⟨m, n, rfl⟩ := List.append_of_mem hmem
        exact (hlast pre u m _ n t w hsplit (.inr rfl)).1
    · match x, hx, y, hy with
      | .started t (.write w), _, .started t' (.write w'), _ =>
          have hfirst := hlast pre u a _ (b ++ .started t' (.write w') :: c) t w
            (by rw [hsplit, hpost, List.append_assoc, List.cons_append]) (.inl rfl)
          have hsecond := hlast pre u (a ++ .started t (.write w) :: b) _ c t' w'
            (by rw [hsplit, hpost]) (.inl rfl)
          obtain ⟨w'', -, hne⟩ := hsecond.2 _ (List.mem_append_right _ List.mem_cons_self)
            (hsame t t' hfirst.1 hsecond.1)
          cases hne
    · match x, hx, y, hy with
      | .ended t (.write w), _, .ended t' (.write w'), _ =>
          have hfirst := hlast pre u a _ (b ++ .ended t' (.write w') :: c) t w
            (by rw [hsplit, hpost, List.append_assoc, List.cons_append]) (.inr rfl)
          have hsecond := hlast pre u (a ++ .ended t (.write w) :: b) _ c t' w'
            (by rw [hsplit, hpost]) (.inr rfl)
          obtain ⟨w'', heq, -⟩ := hsecond.2 _ (List.mem_append_right _ List.mem_cons_self)
            (hsame t t' hfirst.1 hsecond.1)
          cases heq
  · have hkept : ∀ mid rest, post = mid ++ rest → ∃ s', Run BusStep {} s' (pre ++ .quiesced t true :: mid) ∧
        s'.mutex = .kept := by
      rintro mid rest rfl
      have hsplit' : log = (pre ++ .quiesced t true :: mid) ++ rest := by
        rw [hsplit, List.append_assoc, List.cons_append]
      obtain ⟨s', hrun'⟩ := hrun.split _ rest hsplit'
      exact ⟨s', hrun', (busFollows_run hrun').kept t (List.mem_append_right _ List.mem_cons_self)⟩
    refine ⟨fun mid rest hpost => ?_, fun u x hmem => ?_⟩
    · obtain ⟨s', hrun', hmutex⟩ := hkept mid rest hpost
      exact ((busFollows_run hrun').still_of_outside (by rw [hmutex]; rfl)).1
    · obtain ⟨mid, rest, hpost⟩ := List.append_of_mem hmem
      have hsplit' : log = (pre ++ .quiesced t true :: mid) ++ .started u x :: rest := by
        rw [hsplit, hpost, List.append_assoc, List.cons_append]
      obtain ⟨s₁, s₂, hrun₁, hstep, -⟩ := hrun.event _ _ _ hsplit'
      have h₁ := busFollows_run hrun₁
      have hmutex := h₁.kept t (List.mem_append_right _ List.mem_cons_self)
      -- who starts a transaction is inside, but nobody can be
      generalize hevent : some (BusEvent.started u x) = event at hstep
      cases hstep with
      | pollStart t' window htask =>
          exact h₁.not_kept (t := t') (by rw [htask]; trivial) hmutex
      | writeStart t' w htask =>
          exact h₁.not_kept (t := t') (by rw [htask]; trivial) hmutex
      | _ => cases hevent

end Runs

/-! ### A write while the flag is set -/

/-- A write that found the flag clear goes on while it is set; the restart path waits for
it. -/
def quiesceEvents : List BusEvent :=
  [.took 1, .cleared 1, .shutdown 0, .started 1 (.write (.register 5 1)),
    .ended 1 (.write (.register 5 1)), .gave 1, .quiesced 0 true, .released 0]

theorem bus_quiet_after_quiesce_lastWrite : BusQuiet quiesceEvents := by
  have hask := (@Run.start _ _ BusStep {}).step (.activate _) |>.step
    (.ask _ 1 (.register 5 1) rfl rfl)
  have htake := (hask.step (.wait _ 1 _ rfl nofun)).step (.writeTake _ 1 _ rfl rfl)
  have hset := (htake.step (.clear _ 1 _ rfl nofun)).step (.quiesce _ 0 rfl)
  have hwrite := (hset.step (.writeStart _ 1 _ rfl)).step (.writeEnd _ 1 _ true rfl)
  have hquiesce := (hwrite.step (.writeGive _ 1 _ true rfl)).step (.quiesceTake _ 0 rfl rfl)
  exact bus_quiet_after_quiesce (hquiesce.step (.release _ 0 true rfl))

end ArcticController

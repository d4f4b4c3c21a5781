/-
Refreshes of the weather, `weather.cpp`.

* `WeatherSystem`, `WeatherStep`: the worker, the callback on the UI task and any number
  of refreshes, step by step of their locked sections, unlocked writes and notifications;
* `WeatherSystem.LooksAhead`: the worker will look at the pending flag again;
* `HeardStep`: a refresh that finds the service busy comes while it will;
* `WeatherInvariant`: a busy service has something to come, a pending refresh is looked at,
  and the coordinates are fetched or will be;
* `refreshes_heard`: with such refreshes none is lost.
-/
import ArcticController.Base.Runs

namespace ArcticController

section Weather

variable {C D : Type}

/-! ### The tasks -/

/-- Where the worker stands: parked, past its notification, past the section that reads the
coordinates, past the fetch, past the section that stores the result, past the call to the
UI task. -/
inductive WeatherPhase (C D : Type)
  | parked
  | signalled
  | fetching (coords : Option C)
  | fetched (data : Option D)
  | finished (again : Bool)
  | called (again : Bool)
deriving DecidableEq

/-- The static variables, the notification and the callbacks of the worker, the refreshes
that have not notified it yet, and the coordinates of the last fetch. -/
structure WeatherSystem (C D : Type) where
  coords : Option C := none
  busy : Bool := false
  pending : Bool := false
  result : Option D := none
  notified : Bool := false
  notifying : ℕ := 0
  worker : WeatherPhase C D := .parked
  queued : ℕ := 0
  applying : Bool := false
  shown : Option D := none
  lastFetched : Option C := none
deriving DecidableEq

/-- A step of one of the tasks; a refresh leaves its coordinates. -/
inductive WeatherStep : WeatherSystem C D → Option C → WeatherSystem C D → Prop
  -- The section of `weather_service_refresh`, and the notification behind it.
  | refreshBusy {s} (c : C) (hbusy : s.busy = true) :
      WeatherStep s (some c) { s with coords := some c, pending := true }
  | refreshIdle {s} (c : C) (hidle : s.busy = false) :
      WeatherStep s (some c)
        { s with coords := some c, busy := true, notifying := s.notifying + 1 }
  | notify {s} (h : 0 < s.notifying) :
      WeatherStep s none { s with notifying := s.notifying - 1, notified := true }
  -- The turns of `weather_worker`.
  | take {s} (hphase : s.worker = .parked) (h : s.notified = true) :
      WeatherStep s none { s with notified := false, worker := .signalled }
  | read {s} (hphase : s.worker = .signalled) :
      WeatherStep s none { s with worker := .fetching s.coords }
  | fetch {s} (coords : Option C) (data : Option D) (hphase : s.worker = .fetching coords) :
      WeatherStep s none { s with worker := .fetched data, lastFetched := coords }
  | store {s} (data : Option D) (hphase : s.worker = .fetched data) :
      WeatherStep s none
        { s with result := data, pending := false, worker := .finished s.pending }
  | callUi {s} (again : Bool) (hphase : s.worker = .finished again) :
      WeatherStep s none { s with worker := .called again, queued := s.queued + 1 }
  | loop {s} (again : Bool) (hphase : s.worker = .called again) :
      WeatherStep s none { s with worker := .parked, notified := s.notified || again }
  -- `apply_result_cb`: the reading under the lock, and the write without it.
  | apply {s} (h : 0 < s.queued) (hidle : s.applying = false) :
      WeatherStep s none
        { s with queued := s.queued - 1, applying := true, shown := s.result.or s.shown }
  | applied {s} (h : s.applying = true) :
      WeatherStep s none { s with applying := false, busy := false }

/-! ### What is lost and what is heard -/

/-- The worker comes to the section that looks at the pending flag, or has found it set. -/
def WeatherPhase.willLook : WeatherPhase C D → Bool
  | .parked => false
  | .signalled => true
  | .fetching _ => true
  | .fetched _ => true
  | .finished again => again
  | .called again => again

namespace WeatherSystem

/-- The worker is notified, or will be by a refresh. -/
def Woken (s : WeatherSystem C D) : Prop := 0 < s.notifying ∨ s.notified = true

/-- The worker will look at the pending flag again. -/
def LooksAhead (s : WeatherSystem C D) : Prop := s.Woken ∨ s.worker.willLook = true

/-- All tasks rest. -/
structure Quiescent (s : WeatherSystem C D) : Prop where
  parked : s.worker = .parked
  notified : s.notified = false
  notifying : s.notifying = 0
  queued : s.queued = 0
  applying : s.applying = false

/-- The last fetch used the last coordinates, and the next refresh starts one. -/
structure UpToDate (s : WeatherSystem C D) : Prop where
  fetched : s.lastFetched = s.coords
  busy : s.busy = false
  pending : s.pending = false

end WeatherSystem

/-- A step whose refresh, if it finds the service busy, comes while the worker will look at
the pending flag again. -/
def HeardStep (s : WeatherSystem C D) (e : Option C) (s' : WeatherSystem C D) : Prop :=
  WeatherStep s e s' ∧ (e ≠ none → s.busy = true → s.LooksAhead)

/-- The coordinates have been fetched, or will be. -/
def Served (s : WeatherSystem C D) : Prop :=
  match s.worker with
  | .parked => s.lastFetched = s.coords ∨ s.Woken
  | .signalled => True
  | .fetching coords => coords = s.coords ∨ s.pending = true ∨ s.Woken
  | .fetched _ => s.lastFetched = s.coords ∨ s.pending = true ∨ s.Woken
  | .finished again => s.lastFetched = s.coords ∨ again = true ∨ s.Woken
  | .called again => s.lastFetched = s.coords ∨ again = true ∨ s.Woken

/-- A busy service has a fetch or a callback to come, a pending refresh is looked at, and
the coordinates are served. -/
structure WeatherInvariant (s : WeatherSystem C D) : Prop where
  busy : s.busy = true → s.LooksAhead ∨ (∃ again, s.worker = .finished again) ∨ 0 < s.queued ∨
    s.applying = true
  pending : s.pending = true → s.LooksAhead
  served : Served s

lemma WeatherInvariant.start : WeatherInvariant ({} : WeatherSystem C D) where
  busy := fun h => nomatch h
  pending := fun h => nomatch h
  served := .inl rfl

/-- Where the worker will be notified the coordinates are served. -/
lemma served_of_woken {s : WeatherSystem C D} (h : s.Woken) : Served s := by
  rw [Served]
  cases s.worker with
  | parked => exact .inr h
  | signalled => trivial
  | fetching coords => exact .inr (.inr h)
  | fetched data => exact .inr (.inr h)
  | finished again => exact .inr (.inr h)
  | called again => exact .inr (.inr h)

/-- A pending refresh that will be looked at is served. -/
lemma served_of_looksAhead {s : WeatherSystem C D} (h : s.LooksAhead) (hpending : s.pending = true) :
    Served s := by
  rcases h with hwoken | hlook
  · exact served_of_woken hwoken
  · rw [Served]
    cases hphase : s.worker with
    | parked =>
        rw [hphase] at hlook
        cases hlook
    | signalled => trivial
    | fetching coords => exact .inr (.inl hpending)
    | fetched data => exact .inr (.inl hpending)
    | finished again =>
        rw [hphase] at hlook
        exact .inr (.inl hlook)
    | called again =>
        rw [hphase] at hlook
        exact .inr (.inl hlook)

/-- Every step keeps the invariant if its refresh is heard. -/
lemma WeatherInvariant.step {s s' : WeatherSystem C D} {e : Option C} (h : WeatherInvariant s)
    (hstep : HeardStep s e s') : WeatherInvariant s' := by
  obtain ⟨hbusy, hpending, hserved⟩ := h
  obtain ⟨hstep, hheard⟩ := hstep
  rw [Served] at hserved
  cases hstep with
  | refreshBusy c hb =>
      have hahead := hheard (Option.some_ne_none c) hb
      exact ⟨fun _ => .inl hahead, fun _ => hahead, served_of_looksAhead hahead rfl⟩
  | refreshIdle c hidle =>
      have hwoken : 0 < s.notifying + 1 := Nat.succ_pos _
      exact ⟨fun _ => .inl (.inl (.inl hwoken)), fun _ => .inl (.inl hwoken),
        served_of_woken (.inl hwoken)⟩
  | notify hn =>
      exact ⟨fun _ => .inl (.inl (.inr rfl)), fun _ => .inl (.inr rfl), served_of_woken (.inr rfl)⟩
  | take hphase hn =>
      exact ⟨fun _ => .inl (.inr rfl), fun _ => .inr rfl, trivial⟩
  | read hphase =>
      exact ⟨fun _ => .inl (.inr rfl), fun _ => .inr rfl, .inl rfl⟩
  | fetch coords data hphase =>
      rw [hphase] at hserved
      exact ⟨fun _ => .inl (.inr rfl), fun _ => .inr rfl, hserved⟩
  | store data hphase =>
      rw [hphase] at hserved
      exact ⟨fun _ => .inr (.inl ⟨_, rfl⟩), fun h => (nomatch h), hserved⟩
  | callUi again hphase =>
      rw [hphase] at hserved
      refine ⟨fun _ => .inr (.inr (.inl (Nat.succ_pos _))), fun hp => ?_, hserved⟩
      exact (hpending hp).imp_right fun hlook => by rwa [hphase] at hlook
  | loop again hphase =>
      rw [hphase] at hserved
      have hwoken : again = true ∨ s.Woken → 0 < s.notifying ∨ (s.notified || again) = true := by
        rintro (rfl | hn | hn)
        · exact .inr (Bool.or_true _)
        · exact .inl hn
        · exact .inr (by rw [hn, Bool.true_or])
      -- A look that was found needed is the next notification.
      have hahead : s.LooksAhead → 0 < s.notifying ∨ (s.notified || again) = true := by
        rintro (hw | hlook)
        · exact hwoken (.inr hw)
        · rw [hphase] at hlook
          exact hwoken (.inl hlook)
      refine ⟨fun hb => ?_, fun hp => .inl (hahead (hpending hp)), hserved.imp_right hwoken⟩
      rcases hbusy hb with hlook | ⟨again', hfinished⟩ | hcallback
      · exact .inl (.inl (hahead hlook))
      · rw [hphase] at hfinished
        cases hfinished
      · exact .inr (.inr hcallback)
  | apply hq hidle =>
      refine ⟨fun hb => ?_, hpending, hserved⟩
      exact (hbusy hb).imp_right fun h => h.imp_right fun _ => .inr rfl
  | applied ha =>
      exact ⟨fun h => (nomatch h), hpending, hserved⟩

/-- **No refresh is lost in a run whose refreshes come, where they find the service busy,
while the worker will look at the pending flag again**: whenever all tasks rest, the last
coordinates have been fetched and the next refresh starts a fetch. -/
theorem refreshes_heard {s : WeatherSystem C D} {log : List C} (hrun : Run HeardStep {} s log)
    (hrest : s.Quiescent) : s.UpToDate := by
  obtain ⟨hbusy, hpending, hserved⟩ : WeatherInvariant s :=
    hrun.invariant (I := fun s _ => WeatherInvariant s) .start
      fun _ _ _ _ _ hinv hstep => hinv.step hstep
  obtain ⟨hparked, hnotified, hnotifying, hqueued, happlying⟩ := hrest
  have hasleep : ¬ s.Woken := by
    rintro (hn | hn)
    · omega
    · rw [hnotified] at hn
      cases hn
  have hblind : ¬ s.LooksAhead := by
    rintro (hw | hlook)
    · exact hasleep hw
    · rw [hparked] at hlook
      cases hlook
  rw [Served, hparked] at hserved
  refine ⟨hserved.resolve_right hasleep, ?_, ?_⟩
  · by_contra hb
    rcases hbusy (Bool.eq_true_of_not_eq_false hb) with hlook | ⟨again, hfinished⟩ | hq | ha
    · exact hblind hlook
    · rw [hparked] at hfinished
      cases hfinished
    · omega
    · rw [happlying] at ha
      cases ha
  · by_contra hp
    exact hblind (hpending (Bool.eq_true_of_not_eq_false hp))

end Weather

/-! ### A refresh that is lost -/

section Example

/-- One refresh, from the notification to the result. -/
lemma run_fetched {step : WeatherSystem Bool ℕ → Option Bool → WeatherSystem Bool ℕ → Prop}
    (hstep : ∀ s e s', WeatherStep s e s' → (e ≠ none → s.busy = true → s.LooksAhead) →
      step s e s') :
    Run step {}
      { coords := some true
        busy := true
        result := some 20
        worker := .finished false
        lastFetched := some true } [true] := by
  have hnone : ∀ s s', WeatherStep s none s' → step s none s' := fun s s' h =>
    hstep s none s' h fun h => absurd rfl h
  have hrefresh := (@Run.start _ _ step {}).step
    (hstep {} _ _ (.refreshIdle true rfl) fun _ h => (nomatch h))
  have hnotify := hrefresh.step (hnone _ _ (.notify (Nat.succ_pos _)))
  have htake := hnotify.step (hnone _ _ (.take rfl rfl))
  have hread := htake.step (hnone _ _ (.read rfl))
  have hfetch := hread.step (hnone _ _ (.fetch _ (some 20) rfl))
  exact hfetch.step (hnone _ _ (.store _ rfl))

/-- A refresh at rest is up to date. -/
theorem refreshes_heard_once :
    ({ coords := some true
       result := some 20
       shown := some 20
       lastFetched := some true } : WeatherSystem Bool ℕ).UpToDate := by
  have hfetched := @run_fetched HeardStep fun s e s' h hheard => ⟨h, hheard⟩
  have hnone : ∀ s s' : WeatherSystem Bool ℕ, WeatherStep s none s' → HeardStep s none s' :=
    fun s s' h => ⟨h, fun h => absurd rfl h⟩
  have hcall := hfetched.step (hnone _ _ (.callUi _ rfl))
  have hloop := hcall.step (hnone _ _ (.loop _ rfl))
  have happly := hloop.step (hnone _ _ (.apply (Nat.succ_pos _) rfl))
  have happlied := happly.step (hnone _ _ (.applied rfl))
  exact refreshes_heard happlied ⟨rfl, rfl, rfl, rfl, rfl⟩

/-- A refresh between the section that clears the pending flag and the write that clears
the busy flag stays pending for good, and its coordinates are not fetched. -/
theorem refresh_lost : ¬ ∀ (s : WeatherSystem Bool ℕ) (log : List Bool),
    Run WeatherStep {} s log → s.Quiescent → s.UpToDate := by
  intro h
  have hfetched := @run_fetched WeatherStep fun s e s' h _ => h
  have hlate := hfetched.step (.refreshBusy false rfl)
  have hcall := hlate.step (.callUi _ rfl)
  have hloop := hcall.step (.loop _ rfl)
  have happly := hloop.step (.apply (Nat.succ_pos _) rfl)
  have happlied := happly.step (.applied rfl)
  cases (h _ _ happlied ⟨rfl, rfl, rfl, rfl, rfl⟩).pending

end Example

end ArcticController

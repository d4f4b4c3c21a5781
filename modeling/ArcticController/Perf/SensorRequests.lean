/-
Browsing, discovery and tests of external sensors (`ext_temp_sensors.cpp`): any
number of tasks call `browse_blocking`, `discover_blocking` and `test_blocking`, and
one worker serves them.

* `BrowseRequest`: a host and a port;
* `SensorRequests`: the three mailboxes and where the worker is;
* `RequestEvent`, `RequestStep`: one section under `s_mutex`, or one write of the
  worker to a result buffer;
* `RequestEvent.Spared`: no execution overlaps a caller of an earlier request, and no
  ticket in use is given;
* `answers_to_callers`: then the answers go to the callers that asked.
-/
import ArcticController.Base.Mailbox
import ArcticController.Base.Runs
import ArcticController.Perf.Settings

namespace ArcticController

/-! ### The tasks and the worker -/

/-- A host that fits the buffer it is copied to, and a port. -/
structure BrowseRequest where
  host : List UInt8
  port : UInt16
  fits : host.length < kHostMax
deriving DecidableEq

/-- What the worker looks at next; after the three requests it polls. -/
inductive WorkerPhase where
  | test
  | discover
  | browse
  | poll
deriving DecidableEq, Repr

-- `BrowseResult`, `DiscoverResult` and `TestResult`, which are only copied here.
variable (B D T : Type)

/-- The requests, guarded by `s_mutex`, and the worker. -/
structure SensorRequests where
  browse : Mailbox BrowseRequest B
  discover : Mailbox Unit D
  test : Letterbox SensorConfig T
  phase : WorkerPhase := .test

/-- What happens to the requests. -/
inductive RequestEvent where
  | browse (e : MailboxEvent BrowseRequest B)
  | discover (e : MailboxEvent Unit D)
  | test (e : MailboxEvent SensorConfig T)

variable {B D T}

/-- One step of a task or of the worker. A browse is refused while a discovery is
busy, and the other way round. -/
inductive RequestStep (s : SensorRequests B D T) :
    Option (RequestEvent B D T) → SensorRequests B D T → Prop
  | browseBlocking {e m} (h : CallerStep s.discover.busy s.browse e m) :
      RequestStep s (e.map .browse) { s with browse := m }
  | discoverBlocking {e m} (h : CallerStep s.browse.busy s.discover e m) :
      RequestStep s (e.map .discover) { s with discover := m }
  | testBlocking {e m} (h : LetterboxCallerStep s.test e m) :
      RequestStep s (e.map .test) { s with test := m }
  | runTest {e m} (hphase : s.phase = .test) (h : LetterboxWorkerStep s.test e m) :
      RequestStep s (e.map .test)
        { s with test := m, phase := if m.running.isSome then .test else .discover }
  | noTest (hphase : s.phase = .test) (hidle : s.test.running = none)
      (hpending : s.test.pending = false) : RequestStep s none { s with phase := .discover }
  | runDiscover {e m} (hphase : s.phase = .discover) (h : WorkerStep s.discover e m) :
      RequestStep s (e.map .discover)
        { s with discover := m, phase := if m.running.isSome then .discover else .browse }
  | noDiscover (hphase : s.phase = .discover) (hidle : s.discover.running = none)
      (hpending : s.discover.pending = false) : RequestStep s none { s with phase := .browse }
  | runBrowse {e m} (hphase : s.phase = .browse) (h : WorkerStep s.browse e m) :
      RequestStep s (e.map .browse)
        { s with browse := m, phase := if m.running.isSome then .browse else .poll }
  | noBrowse (hphase : s.phase = .browse) (hidle : s.browse.running = none)
      (hpending : s.browse.pending = false) : RequestStep s none { s with phase := .poll }
  | poll (hphase : s.phase = .poll) : RequestStep s none { s with phase := .test }

/-- The requests after a boot. -/
def SensorRequests.boot (cfg : SensorConfig) (browsed : B) (discovered : D) (tested : T) :
    SensorRequests B D T where
  browse := { request := ⟨[], 0, by decide⟩, buffer := browsed }
  discover := { request := (), buffer := discovered }
  test := { request := cfg, result := tested }

/-! ### The claim -/

/-- The events of the browses. -/
def browseLog (log : List (RequestEvent B D T)) : List (MailboxEvent BrowseRequest B) :=
  log.filterMap fun e => match e with
    | .browse e => some e
    | _ => none

/-- The events of the discoveries. -/
def discoverLog (log : List (RequestEvent B D T)) : List (MailboxEvent Unit D) :=
  log.filterMap fun e => match e with
    | .discover e => some e
    | _ => none

/-- The events of the tests. -/
def testLog (log : List (RequestEvent B D T)) : List (MailboxEvent SensorConfig T) :=
  log.filterMap fun e => match e with
    | .test e => some e
    | _ => none

/-- No execution overlaps a caller of an earlier request, and no ticket in use is
given. -/
def RequestEvent.Spared : RequestEvent B D T → Prop
  | .browse e => e.Spared
  | .discover e => e.Spared
  | .test e => e.Spared

instance : DecidablePred (RequestEvent.Spared : RequestEvent B D T → Prop)
  | .browse e => inferInstanceAs (Decidable e.Spared)
  | .discover e => inferInstanceAs (Decidable e.Spared)
  | .test e => inferInstanceAs (Decidable e.Spared)

/-- The answers go to the callers that asked, and at most one browse or discovery is
busy, or being executed. -/
structure AnswersToCallers (s : SensorRequests B D T) (log : List (RequestEvent B D T)) : Prop where
  browse : AnswersOwn (browseLog log)
  discover : AnswersOwn (discoverLog log)
  test : AnswersOwn (testLog log)
  oneExecuting : s.browse.running = none ∨ s.discover.running = none
  oneBusy : s.browse.busy = false ∨ s.discover.busy = false

/-! ### The invariant -/

/-- The mailboxes keep their invariants, and one of browse and discovery is free. -/
structure RequestsKept (s : SensorRequests B D T) (log : List (RequestEvent B D T)) : Prop where
  browse : MailboxKept s.browse (browseLog log)
  discover : MailboxKept s.discover (discoverLog log)
  test : LetterboxKept s.test (testLog log)
  oneBusy : s.browse.busy = false ∨ s.discover.busy = false

section Logs

variable (log : List (RequestEvent B D T))

lemma browseLog_browse (e : Option (MailboxEvent BrowseRequest B)) :
    browseLog (log ++ (e.map RequestEvent.browse).toList) = browseLog log ++ e.toList := by
  rw [browseLog, List.filterMap_append]
  cases e <;> rfl

lemma browseLog_discover (e : Option (MailboxEvent Unit D)) :
    browseLog (log ++ (e.map RequestEvent.discover).toList) = browseLog log := by
  rw [browseLog, List.filterMap_append]
  cases e <;> exact List.append_nil _

lemma browseLog_test (e : Option (MailboxEvent SensorConfig T)) :
    browseLog (log ++ (e.map RequestEvent.test).toList) = browseLog log := by
  rw [browseLog, List.filterMap_append]
  cases e <;> exact List.append_nil _

lemma discoverLog_browse (e : Option (MailboxEvent BrowseRequest B)) :
    discoverLog (log ++ (e.map RequestEvent.browse).toList) = discoverLog log := by
  rw [discoverLog, List.filterMap_append]
  cases e <;> exact List.append_nil _

lemma discoverLog_discover (e : Option (MailboxEvent Unit D)) :
    discoverLog (log ++ (e.map RequestEvent.discover).toList) = discoverLog log ++ e.toList := by
  rw [discoverLog, List.filterMap_append]
  cases e <;> rfl

lemma discoverLog_test (e : Option (MailboxEvent SensorConfig T)) :
    discoverLog (log ++ (e.map RequestEvent.test).toList) = discoverLog log := by
  rw [discoverLog, List.filterMap_append]
  cases e <;> exact List.append_nil _

lemma testLog_browse (e : Option (MailboxEvent BrowseRequest B)) :
    testLog (log ++ (e.map RequestEvent.browse).toList) = testLog log := by
  rw [testLog, List.filterMap_append]
  cases e <;> exact List.append_nil _

lemma testLog_discover (e : Option (MailboxEvent Unit D)) :
    testLog (log ++ (e.map RequestEvent.discover).toList) = testLog log := by
  rw [testLog, List.filterMap_append]
  cases e <;> exact List.append_nil _

lemma testLog_test (e : Option (MailboxEvent SensorConfig T)) :
    testLog (log ++ (e.map RequestEvent.test).toList) = testLog log ++ e.toList := by
  rw [testLog, List.filterMap_append]
  cases e <;> rfl

end Logs

section Steps

variable {s s' : SensorRequests B D T} {log : List (RequestEvent B D T)}

/-- A step of the worker on a mailbox keeps it busy or frees it. -/
lemma WorkerStep.busy_le {κ ρ : Type} {m m' : Mailbox κ ρ} {e : Option (MailboxEvent κ ρ)}
    (h : WorkerStep m e m') (hbusy : m.busy = false) : m'.busy = false := by
  cases h with
  | start _ _ => exact hbusy
  | write _ _ => exact hbusy
  | finish _ _ _ => rfl

/-- A caller makes a mailbox busy only if it is not blocked. -/
lemma CallerStep.busy_or {κ ρ : Type} {blocked : Bool} {m m' : Mailbox κ ρ}
    {e : Option (MailboxEvent κ ρ)} (h : CallerStep blocked m e m')
    (hbusy : m.busy = false ∨ blocked = false) : m'.busy = false ∨ blocked = false := by
  cases h with
  | call _ _ hblocked => exact .inr hblocked
  | pick _ _ _ => exact hbusy
  | timeOut _ _ => exact hbusy

/-- The step lemma. -/
lemma RequestsKept.step {e : Option (RequestEvent B D T)} (h : RequestsKept s log)
    (hstep : RequestStep s e s') (hspared : ∀ x ∈ e, x.Spared) :
    RequestsKept s' (log ++ e.toList) := by
  cases hstep with
  | @browseBlocking e m hcaller =>
      refine ⟨?_, ?_, ?_, hcaller.busy_or h.oneBusy⟩
      · rw [browseLog_browse]
        exact h.browse.callerStep hcaller fun x hx => hspared _ (Option.mem_map_of_mem _ hx)
      · rw [discoverLog_browse]
        exact h.discover
      · rw [testLog_browse]
        exact h.test
  | @discoverBlocking e m hcaller =>
      refine ⟨?_, ?_, ?_, (hcaller.busy_or h.oneBusy.symm).symm⟩
      · rw [browseLog_discover]
        exact h.browse
      · rw [discoverLog_discover]
        exact h.discover.callerStep hcaller fun x hx => hspared _ (Option.mem_map_of_mem _ hx)
      · rw [testLog_discover]
        exact h.test
  | @testBlocking e m hcaller =>
      refine ⟨?_, ?_, ?_, h.oneBusy⟩
      · rw [browseLog_test]
        exact h.browse
      · rw [discoverLog_test]
        exact h.discover
      · rw [testLog_test]
        exact h.test.callerStep hcaller fun x hx => hspared _ (Option.mem_map_of_mem _ hx)
  | @runTest e m hphase hworker =>
      refine ⟨?_, ?_, ?_, h.oneBusy⟩
      · rw [browseLog_test]
        exact h.browse
      · rw [discoverLog_test]
        exact h.discover
      · rw [testLog_test]
        exact h.test.workerStep hworker
  | @runDiscover e m hphase hworker =>
      refine ⟨?_, ?_, ?_, h.oneBusy.imp_right hworker.busy_le⟩
      · rw [browseLog_discover]
        exact h.browse
      · rw [discoverLog_discover]
        exact h.discover.workerStep hworker fun x hx => hspared _ (Option.mem_map_of_mem _ hx)
      · rw [testLog_discover]
        exact h.test
  | @runBrowse e m hphase hworker =>
      refine ⟨?_, ?_, ?_, h.oneBusy.imp_left hworker.busy_le⟩
      · rw [browseLog_browse]
        exact h.browse.workerStep hworker fun x hx => hspared _ (Option.mem_map_of_mem _ hx)
      · rw [discoverLog_browse]
        exact h.discover
      · rw [testLog_browse]
        exact h.test
  | noTest hphase hidle hpending =>
      rw [Option.toList_none, List.append_nil]
      exact ⟨h.browse, h.discover, h.test, h.oneBusy⟩
  | noDiscover hphase hidle hpending =>
      rw [Option.toList_none, List.append_nil]
      exact ⟨h.browse, h.discover, h.test, h.oneBusy⟩
  | noBrowse hphase hidle hpending =>
      rw [Option.toList_none, List.append_nil]
      exact ⟨h.browse, h.discover, h.test, h.oneBusy⟩
  | poll hphase =>
      rw [Option.toList_none, List.append_nil]
      exact ⟨h.browse, h.discover, h.test, h.oneBusy⟩

end Steps

/-- The run lemma. -/
lemma requestsKept_run {cfg : SensorConfig} {browsed : B} {discovered : D} {tested : T}
    {s : SensorRequests B D T} {log : List (RequestEvent B D T)}
    (hrun : Run RequestStep (.boot cfg browsed discovered tested) s log) :
    (∀ e ∈ log, e.Spared) → RequestsKept s log := by
  refine hrun.invariant (I := fun s log => (∀ e ∈ log, e.Spared) → RequestsKept s log) ?_ ?_
  · exact fun _ => ⟨.init _ _, .init _ _, .init _ _, .inl rfl⟩
  · intro s log e s' _ ih hstep hspared
    refine (ih fun x hx => hspared x (List.mem_append_left _ hx)).step hstep fun x hx => ?_
    exact hspared x (List.mem_append_right _ (Option.mem_toList.mpr hx))

/-- **Answers go to the caller that asked**: in every interleaving of any number of
tasks and the worker in which the worker begins no browse or discovery while the
caller of an earlier one still waits, and no ticket in use is given, every call that
returns with a result has exactly the complete one computed for its own host and
port or configuration, a call that times out cancels at most its own request, and at
most one browse or discovery is being executed. -/
theorem answers_to_callers {cfg : SensorConfig} {browsed : B} {discovered : D} {tested : T}
    {s : SensorRequests B D T} {log : List (RequestEvent B D T)}
    (hrun : Run RequestStep (.boot cfg browsed discovered tested) s log)
    (hspared : ∀ e ∈ log, e.Spared) : AnswersToCallers s log := by
  have h := requestsKept_run hrun hspared
  refine ⟨h.browse.answers, h.discover.answers, h.test.answers, ?_, h.oneBusy⟩
  rcases h.oneBusy with hfree | hfree
  · refine .inl (Option.eq_none_iff_forall_not_mem.mpr fun p hp => ?_)
    have hbusy := (h.browse.running p.1 p.2 hp).1
    rw [hfree] at hbusy
    cases hbusy
  · refine .inr (Option.eq_none_iff_forall_not_mem.mpr fun p hp => ?_)
    have hbusy := (h.discover.running p.1 p.2 hp).1
    rw [hfree] at hbusy
    cases hbusy

/-- The requests after a boot, with numbers for the results of browses. -/
def bootedRequests : SensorRequests ℕ Unit Unit := .boot defaultSensor 0 () ()

/-- A task browses a host and returns with the result. -/
theorem answers_to_callers_oneBrowse : ∃ s log,
    Run RequestStep bootedRequests s log ∧
      .browse (.copied 1 ⟨[97], 47808, by decide⟩ 7) ∈ log ∧ AnswersToCallers s log := by
  have hserved := ((((((@Run.start _ _ RequestStep bootedRequests).step
    (.browseBlocking (.call ⟨[97], 47808, by decide⟩ rfl rfl))).step (.noTest rfl rfl rfl)).step
    (.noDiscover rfl rfl rfl)).step (.runBrowse rfl (.start rfl rfl))).step
    (.runBrowse rfl (.write 7 nofun))).step (.runBrowse rfl (.finish 1 ⟨[97], 47808, by decide⟩ rfl))
  have hpicked := hserved.step (.browseBlocking (.pick ⟨1, 1, ⟨[97], 47808, by decide⟩⟩
    (List.mem_singleton_self _) rfl))
  exact ⟨_, _, hpicked, List.mem_append_right _ (List.mem_singleton_self _),
    answers_to_callers hpicked (by decide +kernel)⟩

/-- A second task browses another host before the first one looks: the first one
returns with what the worker has written for the second. -/
theorem second_browse_answers_first : ∃ s log,
    Run RequestStep bootedRequests s log ∧ ¬ AnswersToCallers s log := by
  have hserved := ((((((@Run.start _ _ RequestStep bootedRequests).step
    (.browseBlocking (.call ⟨[97], 47808, by decide⟩ rfl rfl))).step (.noTest rfl rfl rfl)).step
    (.noDiscover rfl rfl rfl)).step (.runBrowse rfl (.start rfl rfl))).step
    (.runBrowse rfl (.write 7 nofun))).step (.runBrowse rfl (.finish 1 ⟨[97], 47808, by decide⟩ rfl))
  have hsecond := ((((((hserved.step (.poll rfl)).step
    (.browseBlocking (.call ⟨[98], 47808, by decide⟩ rfl rfl))).step (.noTest rfl rfl rfl)).step
    (.noDiscover rfl rfl rfl)).step (.runBrowse rfl (.start rfl rfl))).step
    (.runBrowse rfl (.write 8 nofun))).step (.browseBlocking (.pick
      ⟨1, 1, ⟨[97], 47808, by decide⟩⟩ (List.mem_cons_of_mem _ (List.mem_singleton_self _)) rfl))
  refine ⟨_, _, hsecond, fun h => ?_⟩
  have hmem := h.browse.copied 1 ⟨[97], 47808, by decide⟩ 8 (by decide +kernel)
  revert hmem
  decide +kernel

end ArcticController

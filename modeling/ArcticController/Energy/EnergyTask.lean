/-
The energy ledger in the controller (`heatpump_controller.cpp`): what the poll task
books under `s_state_mutex`, and the queue of finished runs.

* `EnergyState`: what the mutex guards;
* `queueRun`, `popRun`: a finished run behind the others, and the head of the queue
  once it was stored;
* `updateEnergyLedger`: one reading;
* `finishedRun`, `updateEnergyLedger_runQueue`: the run a reading finishes.
-/
import ArcticController.Energy.RunTracker

namespace ArcticController

/-- What `s_state_mutex` guards of the energy ledger. -/
structure EnergyState where
  ledger : EnergyLedger := {}
  ledgerLoaded : Bool := false
  lifetime : Lifetime := default
  lifetimeValid : Bool := false
  closedDay : DayRecord := default
  closedPending : Bool := false
  migrateWs : UInt64 := 0
  runs : RunTracker := {}
  runQueue : List RunRecord := []
  energyTodayWh : UInt32 := 0
  energyTodayValid : Bool := false

def kRunQueue : ℕ := 4

/-- A finished run behind the others; when the queue is full the oldest gives way. -/
def queueRun (queue : List RunRecord) (run : RunRecord) : List RunRecord :=
  (if queue.length = kRunQueue then queue.tail else queue) ++ [run]

/-- The queue without its head, if that is still the run that was stored. -/
def popRun (queue : List RunRecord) (run : RunRecord) : List RunRecord :=
  match queue with
  | head :: rest => if head.startS = run.startS then rest else queue
  | [] => []

/-- A day that a reading closed waits for the store, unless one does already. -/
def EnergyState.takeClosed (s : EnergyState) : EnergyState :=
  if s.closedPending then s
  else
    match s.ledger.takeFinished with
    | some day => { s with closedDay := day, closedPending := true }
    | none => s

def EnergyState.takeRun (s : EnergyState) : EnergyState :=
  match s.runs.takeFinished with
  | some run => { s with runQueue := queueRun s.runQueue run }
  | none => s

/-- What the firmware before the ledger integrated goes to the open day. -/
def EnergyState.migrate (s : EnergyState) : EnergyState :=
  if s.migrateWs ≠ 0 then
    { s with ledger := s.ledger.addUnattributed s.migrateWs, migrateWs := 0 }
  else s

/-- One reading, at the local day of its time. -/
def updateEnergyLedger (synced : Bool) (nowS : ℤ) (day : Day) (input : Input) (s : EnergyState) :
    EnergyState :=
  if !synced || !s.ledgerLoaded then { s with ledger := s.ledger.pause, runs := s.runs.pause }
  else
    let s := { s with ledger := s.ledger.add nowS day input }.takeClosed
    let s := { s with runs := s.runs.add nowS day.date input }.takeRun
    let s := s.migrate
    { s with energyTodayWh := s.ledger.todayElecWh, energyTodayValid := s.ledger.isOpen }

/-- The run a reading finishes. -/
def finishedRun (synced : Bool) (nowS : ℤ) (day : Day) (input : Input) (s : EnergyState) :
    Option RunRecord :=
  if !synced || !s.ledgerLoaded then none else (s.runs.add nowS day.date input).takeFinished

lemma takeClosed_runQueue (s : EnergyState) : s.takeClosed.runQueue = s.runQueue := by
  rw [EnergyState.takeClosed]
  split
  · rfl
  · split <;> rfl

lemma takeClosed_runs (s : EnergyState) : s.takeClosed.runs = s.runs := by
  rw [EnergyState.takeClosed]
  split
  · rfl
  · split <;> rfl

lemma migrate_runQueue (s : EnergyState) : s.migrate.runQueue = s.runQueue := by
  rw [EnergyState.migrate]
  split <;> rfl

/-- A reading adds the run it finishes, and nothing else. -/
lemma updateEnergyLedger_runQueue (synced : Bool) (nowS : ℤ) (day : Day) (input : Input)
    (s : EnergyState) : (updateEnergyLedger synced nowS day input s).runQueue
      = match finishedRun synced nowS day input s with
        | some run => queueRun s.runQueue run
        | none => s.runQueue := by
  rw [updateEnergyLedger, finishedRun]
  by_cases h : (!synced || !s.ledgerLoaded) = true
  · rw [if_pos h, if_pos h]
  · rw [if_neg h, if_neg h]
    dsimp only
    rw [migrate_runQueue, EnergyState.takeRun]
    dsimp only
    rw [takeClosed_runs]
    dsimp only
    cases (s.runs.add nowS day.date input).takeFinished with
    | none => exact takeClosed_runQueue _
    | some run =>
        dsimp only
        rw [takeClosed_runQueue]

end ArcticController

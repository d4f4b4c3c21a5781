/-
The event log (`event_log.cpp`): a ring of the newest events in RAM, kept in
step with the journal in flash.

* `EventLog`: the static variables of the module;
* `eventLogInit`, `eventLogRecord`, `eventLogTimeSynced`, `eventLogClear`, with
  `compactLocked` and the back-fill loop `backfillEntries`, as the source
  computes them;
* `EventCall`, `EventCall.exec`: one call into the module, or a reset followed
  by the next boot;
* `runEvents`: a run of calls, each with the faults that hit it.
-/
import ArcticController.Base.Ring
import ArcticController.History.EventJournal

namespace ArcticController

/-- The capacity of the ring (`EVENT_LOG_MAX_ENTRIES`). -/
def eventLogMaxEntries : ℕ := 1000

def eventSystemStart : UInt32 := 0

/-- The static variables of `event_log.cpp`; `mutex` says that the mutex has
been created. -/
structure EventLog where
  buffer : ℕ → EventEntry := fun _ => default
  eventIds : ℕ → UInt32 := fun _ => 0
  head : ℕ := 0
  count : ℕ := 0
  nextEventId : UInt32 := 1
  bootId : UInt32 := 0
  revision : UInt32 := 0
  mutex : Bool := false
  storageReady : Bool := false

/-- The storage module and the event log above it. -/
abbrev EventWorld : Type := Storage × EventLog

/-- Computations of the event log. -/
abbrev EventLogM (α : Type) : Type :=
  FaultM EventWorld FlashFault (FlashOp × Storage) EspErr α

/-- The (event id, entry) list held in the ring, oldest first. -/
def EventLog.entries (log : EventLog) : List (UInt32 × EventEntry) :=
  ringList eventLogMaxEntries log.head log.count fun i => (log.eventIds i, log.buffer i)

/-! ### Time -/

/-- `get_unix_timestamp`: zero until the clock shows 2024 or later. -/
def getUnixTimestamp (now : ℤ) : UInt32 :=
  if now < 1704067200 then 0 else UInt32.ofNat now.toNat

/-- The epoch of the boot, in milliseconds, as a time synchronisation finds it. -/
def bootEpochMs (syncedSec syncedUsec : ℤ) (uptimeMs : UInt64) : ℤ :=
  syncedSec * 1000 + syncedUsec.tdiv 1000 - uptimeMs.toInt64.toInt

/-! ### Changes to the ring -/

/-- A new event written at the head of the ring. -/
def EventLog.push (log : EventLog) (entry : EventEntry) : EventLog :=
  { log with
    buffer := Function.update log.buffer log.head entry
    eventIds := Function.update log.eventIds log.head log.nextEventId
    nextEventId := advance log.nextEventId
    head := (log.head + 1) % eventLogMaxEntries
    count := ringCount eventLogMaxEntries log.count
    revision := log.revision + 1 }

/-- The entry with its timestamp back-filled, if it belongs to this boot, has
none yet, and the time it would get is a plausible one. -/
def EventLog.backfilled (log : EventLog) (bootEpochMs : ℤ) (index : ℕ) : Option EventEntry :=
  let entry := log.buffer index
  if entry.bootId ≠ log.bootId ∨ entry.timestamp ≠ 0 then none
  else
    let eventEpochMs := bootEpochMs + entry.uptimeMs.toInt64.toInt
    if eventEpochMs < 1704067200000 then none
    else some { entry with timestamp := UInt32.ofNat (eventEpochMs.tdiv 1000).toNat }

/-- An entry of the ring overwritten in place. -/
def EventLog.setEntry (log : EventLog) (index : ℕ) (entry : EventEntry) : EventLog :=
  { log with buffer := Function.update log.buffer index entry }

/-! ### The calls -/

/-- `compact_locked`: the error of a compaction is logged and dropped. -/
def compactLocked : EventLogM Unit := do
  let (_, log) ← FaultM.get
  if !log.storageReady then pure ()
  else do
    let _ ← (historyStorageReplaceEvents log.buffer log.eventIds eventLogMaxEntries
      log.head log.count).zoom.attempt
    pure ()

def eventLogRecord (type payload : UInt32) (now : ℤ) (uptimeMs : UInt64) : EventLogM Unit := do
  let (_, log) ← FaultM.get
  if !log.mutex then pure ()
  else if type ≥ eventTypeCount then pure ()
  else do
    let entry : EventEntry := ⟨getUnixTimestamp now, log.bootId, uptimeMs, type, payload⟩
    FaultM.modify fun w => (w.1, log.push entry)
    if log.storageReady then
      match ← (historyStorageAppendEvent log.nextEventId entry).zoom.attempt with
      | .ok () => pure ()
      | .error _ => compactLocked
    else pure ()

/-- The loop of `event_log_time_synced`, newest entry first: whether an append
failed, after which none is tried any more, and the number of entries updated. -/
def backfillEntries (bootEpochMs : ℤ) : ℕ → ℕ → Bool → ℕ → EventLogM (Bool × ℕ)
  | 0, _, compact, updated => pure (compact, updated)
  | left + 1, i, compact, updated => do
      let (_, log) ← FaultM.get
      let index := (log.head + eventLogMaxEntries * 2 - 1 - i) % eventLogMaxEntries
      match log.backfilled bootEpochMs index with
      | none => backfillEntries bootEpochMs left (i + 1) compact updated
      | some entry => do
          FaultM.modify fun w => (w.1, log.setEntry index entry)
          if log.storageReady && !compact then
            match ← (historyStorageAppendEvent (log.eventIds index) entry).zoom.attempt with
            | .ok () => backfillEntries bootEpochMs left (i + 1) compact (updated + 1)
            | .error _ => backfillEntries bootEpochMs left (i + 1) true (updated + 1)
          else backfillEntries bootEpochMs left (i + 1) compact (updated + 1)

def eventLogTimeSynced (syncedSec syncedUsec : ℤ) (uptimeMs : UInt64) : EventLogM Unit := do
  let (_, log) ← FaultM.get
  if !log.mutex then pure ()
  else do
    let (compact, updated) ←
      backfillEntries (bootEpochMs syncedSec syncedUsec uptimeMs) log.count 0 false 0
    if compact then compactLocked else pure ()
    if updated > 0 then
      FaultM.modify fun w => (w.1, { w.2 with revision := w.2.revision + 1 })
    else pure ()

/-- The ring as `event_log_clear` leaves it. -/
def EventLog.cleared (log : EventLog) : EventLog :=
  { log with
    head := 0
    count := 0
    buffer := fun _ => default
    eventIds := fun _ => 0
    revision := log.revision + 1 }

def eventLogClear : EventLogM Unit := do
  let (_, log) ← FaultM.get
  if !log.mutex then pure ()
  else do
    FaultM.modify fun w => (w.1, log.cleared)
    compactLocked

/-- The ring filled from a load: all of it after a success; after an error the
next free id alone is taken over, from however far the load had come. -/
def EventLog.restored (log : EventLog) (out : LoadedEvents) (ok : Bool) : EventLog :=
  { log with
    buffer := fun i => (out.events.getD i default).2
    eventIds := fun i => (out.events.getD i default).1
    nextEventId := out.nextEventId
    count := if ok then out.events.length else 0
    head := if ok then out.events.length % eventLogMaxEntries else 0
    storageReady := ok }

/-- The part of `event_log_init` before the first event is recorded. -/
def restoreEvents (bootId : UInt32) : EventLogM Unit := do
  FaultM.modify fun w => (w.1, { mutex := true, bootId := bootId })
  match ← (historyStorageInit.zoom : EventLogM Unit).attempt with
  | .error _ => pure ()
  | .ok () => do
      let (out, status) ← (historyStorageLoadEvents eventLogMaxEntries).zoom
      FaultM.modify fun w => (w.1, w.2.restored out status.isOk)

/-- `event_log_init`; `bootId` is the first random number that is not zero. -/
def eventLogInit (bootId : UInt32) (now : ℤ) (uptimeMs : UInt64) : EventLogM Unit := do
  restoreEvents bootId
  eventLogRecord eventSystemStart 0 now uptimeMs

/-! ### Runs -/

/-- What can happen to the event log: a call into it, or a reset and the boot
that follows. The clock readings are inputs. -/
inductive EventCall where
  | record (type payload : UInt32) (now : ℤ) (uptimeMs : UInt64)
  | timeSynced (syncedSec syncedUsec : ℤ) (uptimeMs : UInt64)
  | clear
  | reboot (bootId : UInt32) (now : ℤ) (uptimeMs : UInt64)
deriving DecidableEq, Repr

def EventCall.exec : EventCall → EventLogM Unit
  | .record type payload now uptimeMs => eventLogRecord type payload now uptimeMs
  | .timeSynced syncedSec syncedUsec uptimeMs => eventLogTimeSynced syncedSec syncedUsec uptimeMs
  | .clear => eventLogClear
  | .reboot bootId now uptimeMs => do
      FaultM.modify fun w => (w.1.reboot, {})
      eventLogInit bootId now uptimeMs

/-- The device before its first boot, on a given flash image. -/
def unbooted (f : NorFlash) : EventWorld := ({ flash := f }, {})

/-- A run of calls, each with the faults that hit it: the state it leaves and
every flash operation it performed. -/
def runEvents (w : EventWorld) :
    List (EventCall × List FlashFault) → EventWorld × List ((FlashOp × Storage) × FlashFault)
  | [] => (w, [])
  | (call, faults) :: rest =>
      let r := call.exec w faults
      let r' := runEvents r.state rest
      (r'.1, r.ops ++ r'.2)

/-! ### Runs without faults -/

section Quiet

open FaultM

lemma quiet_compactLocked : Quiet compactLocked :=
  quiet_get.bind fun _ => .ite (quiet_pure _) <|
    (quiet_historyStorageReplaceEvents _ _ _ _ _).zoom.attempt.bind fun _ => quiet_pure _

lemma quiet_eventLogRecord (type payload : UInt32) (now : ℤ) (uptimeMs : UInt64) :
    Quiet (eventLogRecord type payload now uptimeMs) :=
  quiet_get.bind fun _ => .ite (quiet_pure _) <| .ite (quiet_pure _) <|
    (quiet_modify _).bind fun _ => .ite
      ((quiet_historyStorageAppendEvent _ _).zoom.attempt.bind fun
        | .ok () => quiet_pure _
        | .error _ => quiet_compactLocked)
      (quiet_pure _)

lemma quiet_backfillEntries (bootEpochMs : ℤ) (left : ℕ) : ∀ i compact updated,
    Quiet (backfillEntries bootEpochMs left i compact updated) := by
  induction left with
  | zero => exact fun _ _ _ => quiet_pure _
  | succ left ih =>
      refine fun i compact updated => quiet_get.bind fun w => ?_
      dsimp only
      cases w.2.backfilled bootEpochMs
        ((w.2.head + eventLogMaxEntries * 2 - 1 - i) % eventLogMaxEntries) with
      | none => exact ih _ _ _
      | some entry =>
          exact (quiet_modify _).bind fun _ => .ite
            ((quiet_historyStorageAppendEvent _ _).zoom.attempt.bind fun
              | .ok () => ih _ _ _
              | .error _ => ih _ _ _)
            (ih _ _ _)

lemma quiet_eventLogTimeSynced (syncedSec syncedUsec : ℤ) (uptimeMs : UInt64) :
    Quiet (eventLogTimeSynced syncedSec syncedUsec uptimeMs) :=
  quiet_get.bind fun _ => .ite (quiet_pure _) <| (quiet_backfillEntries _ _ _ _ _).bind fun _ =>
    .ite (quiet_compactLocked.bind fun _ => .ite (quiet_modify _) (quiet_pure _))
      (.ite (quiet_modify _) (quiet_pure _))

lemma quiet_eventLogClear : Quiet eventLogClear :=
  quiet_get.bind fun _ => .ite (quiet_pure _) <| (quiet_modify _).bind fun _ =>
    quiet_compactLocked

lemma quiet_restoreEvents (bootId : UInt32) : Quiet (restoreEvents bootId) :=
  (quiet_modify _).bind fun _ => quiet_historyStorageInit.zoom.attempt.bind fun
    | .error _ => quiet_pure _
    | .ok () => (quiet_historyStorageLoadEvents _).zoom.bind fun _ => quiet_modify _

lemma quiet_exec : ∀ call : EventCall, Quiet call.exec
  | .record _ _ _ _ => quiet_eventLogRecord _ _ _ _
  | .timeSynced _ _ _ => quiet_eventLogTimeSynced _ _ _
  | .clear => quiet_eventLogClear
  | .reboot _ _ _ => (quiet_modify _).bind fun _ => (quiet_restoreEvents _).bind fun _ =>
      quiet_eventLogRecord _ _ _ _

end Quiet

end ArcticController

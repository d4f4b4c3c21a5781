/-
The factory reset (`factory_reset.cpp`) among the tasks that go on running until it
restarts the device.

* `FlashOp.apply`: one flash operation that succeeds;
* `FlashSection`, `flashSection`: a critical section under way, as the operations it has
  still to perform and the variables it leaves behind;
* `LogLine`, `ringText`: the log ring, each line with whether the reset had begun;
* `ResetSystem`, `ResetAction`, `ResetSystem.step`, `ResetSystem.run`: the tasks
  interleaved, one flash operation at a time;
* `NextBoot`: what the boot after the restart finds.
-/
import ArcticController.History.EventLog
import ArcticController.History.TelemetryJournal
import ArcticController.Log.LogBuffer
import ArcticController.Log.LogPersist

namespace ArcticController

/-! ### Flash operations one at a time -/

instance : OnFlash NorFlash where
  flash := id
  withFlash _ f := f

/-- A flash operation on a chip. -/
def FlashOp.perform : FlashOp → FaultM NorFlash FlashFault (FlashOp × NorFlash) EspErr Unit
  | .read off len => do
      let _ ← espPartitionRead off len
      pure ()
  | .write off bytes => espPartitionWrite off bytes
  | .erase off len => espPartitionEraseRange off len

/-- What a flash operation that meets no fault leaves on the chip. -/
def FlashOp.apply (op : FlashOp) (f : NorFlash) : NorFlash := (op.perform f []).state

/-- The same on a state that holds a chip. -/
def FlashOp.applyTo {σ : Type} [OnFlash σ] (op : FlashOp) (s : σ) : σ :=
  OnFlash.withFlash s (op.apply (OnFlash.flash s))

/-- A critical section under way: the flash operations it has still to perform, and the
state its end leaves but for the flash. -/
structure FlashSection (σ : Type) where
  left : List FlashOp
  leaves : σ

/-- The operation succeeds, or is a read that reports an error. -/
def noWriteFails {κ : Type} (p : (FlashOp × κ) × FlashFault) : Bool :=
  p.2.isNone || match p.1.1, p.2 with
    | .read _ _, .error _ _ _ => true
    | _, _ => false

/-- The section that runs `m` from `s`, if every erase and write in it succeeds. While it
lasts nobody else changes what it reads, so what it does is settled when it begins. -/
def flashSection {σ κ α : Type} (m : FaultM σ FlashFault (FlashOp × κ) EspErr α) (s : σ)
    (faults : List FlashFault) : Option (FlashSection σ) :=
  let r := m s faults
  if r.ops.all noWriteFails then some ⟨r.ops.map fun p => p.1.1, r.state⟩ else none

/-! ### The log ring -/

/-- A formatted line of the log ring, and whether it was logged before the reset began. -/
structure LogLine where
  text : List UInt8
  beforeReset : Bool
deriving DecidableEq, Repr

/-- The formatted ring, oldest line first, each byte with the mark of its line. -/
def ringText (ring : List LogLine) : List (UInt8 × Bool) :=
  ring.flatMap fun line => line.text.map (·, line.beforeReset)

/-- The end of the ring a text of this length was taken from holds something logged before
the reset began. -/
def tailBeforeReset (ring : List LogLine) (length : ℕ) : Bool :=
  ((ringText ring).drop ((ringText ring).length - length)).any (·.2)

/-! ### The system -/

/-- Where `factory_reset_task` stands: what it did last. -/
inductive ResetStage where
  | idle
  | begun
  | telemetryStopped
  | eventsStopped
  | logErased
  | historyErased
  | restarted
deriving DecidableEq, Repr

/-- A flush under way: its section, the snapshot it writes, and whether the text of the
snapshot holds something logged before the reset began. -/
structure Flush where
  flashing : FlashSection LogPersist
  snapshot : LogRecord
  beforeReset : Bool

/-- The modules that keep history, the tasks inside their critical sections, and the
reset. `written` lists the snapshots programmed, each with the mark of its flush. -/
structure ResetSystem where
  history : Storage
  events : EventLog
  log : LogPersist
  ring : List LogLine := []
  eventSection : Option (FlashSection EventWorld) := none
  telemetrySection : Option (FlashSection Storage) := none
  flush : Option Flush := none
  written : List (LogRecord × Bool) := []
  stage : ResetStage := .idle

/-- The calls that write to the event log. -/
inductive EventWrite where
  | record (type payload : UInt32) (now : ℤ) (uptimeMs : UInt64)
  | timeSynced (syncedSec syncedUsec : ℤ) (uptimeMs : UInt64)
  | clear
deriving DecidableEq, Repr

def EventWrite.exec : EventWrite → EventLogM Unit
  | .record type payload now uptimeMs => eventLogRecord type payload now uptimeMs
  | .timeSynced syncedSec syncedUsec uptimeMs => eventLogTimeSynced syncedSec syncedUsec uptimeMs
  | .clear => eventLogClear

/-- The calls into the telemetry journal. -/
inductive TelemetryCall where
  | append (sample : TelemetrySample)
  | query (startTimestamp endTimestamp : UInt32) (capacity : ℕ)
deriving DecidableEq, Repr

def TelemetryCall.exec : TelemetryCall → HistoryM Unit
  | .append sample => historyStorageAppendTelemetry sample
  | .query startTimestamp endTimestamp capacity => do
      let _ ← historyStorageQueryTelemetry startTimestamp endTimestamp capacity
      pure ()

/-- What can happen next: a line is logged or the ring cleared, a task takes its mutex,
performs the next flash operation of its section or gives the mutex back, or the reset
task goes on. -/
inductive ResetAction where
  | log (text : List UInt8)
  | clearLog
  | event (call : EventWrite) (faults : List FlashFault)
  | eventFlash
  | eventGive
  | telemetry (call : TelemetryCall) (faults : List FlashFault)
  | telemetryFlash
  | telemetryGive
  | flush (reason : UInt8)
  | flushFlash
  | flushGive
  | reset

/-- The storage module after a section of the event log: the variables of the event
journal are its own. -/
def Storage.afterEvents (s leaves : Storage) : Storage :=
  { s with
    activeBank := leaves.activeBank
    generation := leaves.generation
    nextJournalSequence := leaves.nextJournalSequence
    nextRecord := leaves.nextRecord }

/-- The storage module after a section of the telemetry journal, which may have been the
first to open the partition. -/
def Storage.afterTelemetry (s leaves : Storage) : Storage :=
  if s.partition then { s with telemetry := leaves.telemetry }
  else { s.afterEvents leaves with
    partition := leaves.partition
    telemetryMutex := s.telemetryMutex || leaves.telemetryMutex
    telemetry := leaves.telemetry }

section Step

variable (crc32 : UInt32 → List UInt8 → UInt32)

/-- The next step of `factory_reset_task`; it waits for the mutexes of the two gates. The
recorder that is asked to stop may still be writing when the wait for it times out, and
the erases of partitions that hold no history are left out. -/
def ResetSystem.resetStep (s : ResetSystem) : ResetSystem :=
  match s.stage with
  | .idle => { s with stage := .begun }
  | .begun =>
      if s.telemetrySection.isSome then s
      else { s with
        history := (historyStoragePrepareFactoryReset s.history []).state
        stage := .telemetryStopped }
  | .telemetryStopped =>
      if s.eventSection.isSome then s
      else { s with
        events := if s.events.mutex then { s.events with storageReady := false } else s.events
        stage := .eventsStopped }
  | .eventsStopped =>
      { s with log := (FlashOp.erase 0 s.log.flash.size).applyTo s.log, stage := .logErased }
  | .logErased =>
      { s with
        history := (FlashOp.erase 0 s.history.flash.size).applyTo s.history
        stage := .historyErased }
  | .historyErased => { s with stage := .restarted }
  | .restarted => s

/-- A flush that begins: it formats the ring, and what it does is settled. -/
def ResetSystem.beginFlush (s : ResetSystem) (reason : UInt8) : Option Flush :=
  let scratch := (ringText s.ring).map (·.1)
  let snapshot := s.log.snapshot reason scratch
  (flashSection (flushLocked crc32 reason (some scratch)) s.log []).map fun flashing =>
    { flashing, snapshot, beforeReset := tailBeforeReset s.ring snapshot.text.length }

/-- The snapshots programmed by the next operation of a flush. -/
def Flush.programs (fl : Flush) : List (LogRecord × Bool) :=
  match fl.flashing.left with
  | .write _ _ :: _ => [(fl.snapshot, fl.beforeReset)]
  | _ => []

/-- One step; nothing happens any more after the restart. -/
def ResetSystem.step (s : ResetSystem) (action : ResetAction) : ResetSystem :=
  if s.stage = .restarted then s
  else match action with
    | .log text =>
        let ring := s.ring ++ [⟨text, s.stage = .idle⟩]
        { s with ring := ring.drop (ring.length - logBufferMaxEntries) }
    | .clearLog => { s with ring := [] }
    | .event call faults => match s.eventSection with
        | some _ => s
        | none => { s with eventSection := flashSection call.exec (s.history, s.events) faults }
    | .eventFlash => match s.eventSection with
        | some ⟨op :: left, leaves⟩ =>
            { s with history := op.applyTo s.history, eventSection := some ⟨left, leaves⟩ }
        | _ => s
    | .eventGive => match s.eventSection with
        | some ⟨[], leaves⟩ =>
            { s with
              history := s.history.afterEvents leaves.1
              events := leaves.2
              eventSection := none }
        | _ => s
    | .telemetry call faults => match s.telemetrySection with
        | some _ => s
        | none => { s with telemetrySection := flashSection call.exec s.history faults }
    | .telemetryFlash => match s.telemetrySection with
        | some ⟨op :: left, leaves⟩ =>
            { s with history := op.applyTo s.history, telemetrySection := some ⟨left, leaves⟩ }
        | _ => s
    | .telemetryGive => match s.telemetrySection with
        | some ⟨[], leaves⟩ =>
            { s with history := s.history.afterTelemetry leaves, telemetrySection := none }
        | _ => s
    | .flush reason => match s.flush with
        | some _ => s
        | none => { s with flush := s.beginFlush crc32 reason }
    | .flushFlash => match s.flush with
        | some ⟨⟨op :: left, leaves⟩, snapshot, beforeReset⟩ =>
            { s with
              log := op.applyTo s.log
              flush := some ⟨⟨left, leaves⟩, snapshot, beforeReset⟩
              written := s.written ++
                (Flush.mk ⟨op :: left, leaves⟩ snapshot beforeReset).programs }
        | _ => s
    | .flushGive => match s.flush with
        | some ⟨⟨[], leaves⟩, _, _⟩ =>
            { s with log := { leaves with flash := s.log.flash }, flush := none }
        | _ => s
    | .reset => s.resetStep

def ResetSystem.run (s : ResetSystem) (actions : List ResetAction) : ResetSystem :=
  actions.foldl (ResetSystem.step crc32) s

/-! ### The next boot -/

/-- What the boot after the restart finds, whatever faults hit it: the event log is
restored, telemetry queried, and the debug log scanned. -/
structure NextBoot where
  eventEntries : List (UInt32 × EventEntry)
  telemetry : Outcome EspErr (List TelemetrySample × Except EspErr Unit)
  previousText : Option (List UInt8)
  previousInfo : LogPrevInfo

/-- The inputs of a boot: its random numbers, the query made and the faults. -/
structure BootInputs where
  bootId : UInt32
  logBootId : UInt32
  startTimestamp : UInt32
  endTimestamp : UInt32
  capacity : ℕ
  eventFaults : List FlashFault
  telemetryFaults : List FlashFault
  logFaults : List FlashFault

def ResetSystem.nextBoot (s : ResetSystem) (inputs : BootInputs) : NextBoot :=
  let restored := (restoreEvents inputs.bootId (unbooted s.history.flash) inputs.eventFaults).state
  let log := (logPersistInit crc32 inputs.logBootId s.log.reboot inputs.logFaults).state
  { eventEntries := restored.2.entries
    telemetry := (historyStorageQueryTelemetry inputs.startTimestamp inputs.endTimestamp
      inputs.capacity restored.1 inputs.telemetryFaults).out
    previousText := log.prevText
    previousInfo := log.prevInfo }

end Step

end ArcticController

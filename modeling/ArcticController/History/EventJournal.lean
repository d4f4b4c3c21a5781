/-
The event journal of `history_storage.cpp`: finding the active bank at boot,
replaying it, appending to it and compacting it into the other bank.

* `Storage`: the flash partition and the static variables of the module;
* `historyStorageInit`, `historyStorageLoadEvents`, `historyStorageAppendEvent`
  and `historyStorageReplaceEvents`, with `writeRecord`, `commitBank` and
  `initializeEmptyBank`, as the source computes them;
* `Storage.reboot`: what a reset leaves.
-/
import ArcticController.Base.Window
import ArcticController.History.EventRecord

namespace ArcticController

/-! ### The state of the module -/

/-- The static variables of the telemetry journal. -/
structure TelemetryStatics where
  initialized : Bool := false
  sectorCount : ℕ := 0
  activeSector : ℕ := 0
  nextSlot : ℕ := 0
  generation : UInt32 := 0
  nextSequence : UInt32 := 1
  lastTimestamp : UInt32 := 0
deriving DecidableEq, Repr

/-- The history partition and the static variables of `history_storage.cpp`;
`partition` says that `s_partition` is set, `telemetryMutex` that the mutex has
been created. -/
structure Storage where
  flash : NorFlash
  partition : Bool := false
  activeBank : ℤ := -1
  generation : UInt32 := 0
  nextJournalSequence : UInt32 := 1
  nextRecord : ℕ := 0
  telemetryMutex : Bool := false
  factoryResetPending : Bool := false
  rebootPending : Bool := false
  telemetry : TelemetryStatics := {}

/-- A reset keeps the flash and nothing else. -/
def Storage.reboot (s : Storage) : Storage := { flash := s.flash }

instance : OnFlash Storage where
  flash := Storage.flash
  withFlash s f := { s with flash := f }

/-- Computations of the module, each flash operation logged with the state it
found. -/
abbrev HistoryM (α : Type) : Type :=
  FaultM Storage FlashFault (FlashOp × Storage) EspErr α

/-! ### Offsets -/

/-- `bank_offset`: the bank is cast to a 32-bit `size_t`, so the bank `-1` of a
module that has not been initialised lies beyond every partition. -/
def bankOffset (bank : ℤ) : ℕ := (bank * eventBankSize % 2 ^ 32).toNat

def recordOffset (bank : ℤ) (recordIndex : ℕ) : ℕ :=
  bankOffset bank + flashSectorSize + recordIndex * eventRecordSize

/-- The offset of the commit word in a bank header. -/
def committedOffset : ℕ := 12

/-! ### Writing -/

def readHeader (bank : ℤ) : HistoryM EventBankHeader := do
  let bytes ← espPartitionRead (bankOffset bank) eventBankHeader.size
  pure (eventBankHeader.dec bytes)

def writeRecord (bank : ℤ) (recordIndex : ℕ) (journalSequence eventId : UInt32)
    (entry : EventEntry) : HistoryM Unit :=
  espPartitionWrite (recordOffset bank recordIndex)
    (eventJournalRecord.enc (journalRecord journalSequence eventId entry))

/-- `commit_bank`: the header first, its commit word last. -/
def commitBank (bank : ℤ) (generation : UInt32) : HistoryM Unit := do
  espPartitionWrite (bankOffset bank) (eventBankHeader.enc (bankHeader generation))
  espPartitionWrite (bankOffset bank + committedOffset) (Codec.u32.enc bankCommittedWord)

def initializeEmptyBank : HistoryM Unit := do
  espPartitionEraseRange 0 eventBankSize
  commitBank 0 1
  FaultM.modify fun s =>
    { s with activeBank := 0, generation := 1, nextJournalSequence := 1, nextRecord := 0 }

/-! ### Finding the active bank -/

/-- Read a header; on an error the partition is let go of. -/
def readHeaderOrRelease (bank : ℤ) : HistoryM EventBankHeader := do
  match ← (readHeader bank).attempt with
  | .ok header => pure header
  | .error e => do
      FaultM.modify fun s => { s with partition := false }
      FaultM.throw e

/-- The bank the two headers make the active one: the newer valid one. -/
def chooseBank (header0 header1 : EventBankHeader) : Option ℤ :=
  if headerValid header0 && headerValid header1 then
    some (if header1.generation > header0.generation then 1 else 0)
  else if headerValid header0 then some 0
  else if headerValid header1 then some 1
  else none

def historyStorageInit : HistoryM Unit := do
  let s ← FaultM.get
  if s.partition then pure ()
  else do
    FaultM.modify fun s => { s with telemetryMutex := true, partition := true }
    if s.flash.size < historyEventRegionSize then do
      FaultM.modify fun s => { s with partition := false }
      FaultM.throw .invalidSize
    else do
      let header0 ← readHeaderOrRelease 0
      let header1 ← readHeaderOrRelease 1
      match chooseBank header0 header1 with
      | none => initializeEmptyBank
      | some bank =>
          FaultM.modify fun s =>
            { s with activeBank := bank
                     generation := if bank = 1 then header1.generation else header0.generation }

/-! ### Appending and compacting -/

/-- The counter after `x`: zero is skipped when it wraps. -/
def advance (x : UInt32) : UInt32 := if x + 1 = 0 then 1 else x + 1

def historyStorageAppendEvent (eventId : UInt32) (entry : EventEntry) : HistoryM Unit := do
  let s ← FaultM.get
  if eventId = 0 then FaultM.throw .invalidArg
  else if s.rebootPending then FaultM.throw .invalidState
  else if !s.partition || s.activeBank < 0 then FaultM.throw .invalidState
  else if s.nextRecord ≥ eventRecordsPerBank then FaultM.throw .noMem
  else do
    writeRecord s.activeBank s.nextRecord s.nextJournalSequence eventId entry
    FaultM.modify fun s =>
      { s with nextRecord := s.nextRecord + 1
               nextJournalSequence := advance s.nextJournalSequence }

/-- The copy loop of a compaction, from the `i`-th oldest ring entry on. -/
def writeRecords (bank : ℤ) (entries : ℕ → EventEntry) (eventIds : ℕ → UInt32)
    (capacity head count : ℕ) : ℕ → ℕ → HistoryM Unit
  | 0, _ => pure ()
  | left + 1, i => do
      let index := (head + capacity - count + i) % capacity
      let s ← FaultM.get
      writeRecord bank i s.nextJournalSequence (eventIds index) (entries index)
      FaultM.modify fun s => { s with nextJournalSequence := advance s.nextJournalSequence }
      writeRecords bank entries eventIds capacity head count left (i + 1)

def historyStorageReplaceEvents (entries : ℕ → EventEntry) (eventIds : ℕ → UInt32)
    (capacity head count : ℕ) : HistoryM Unit := do
  let s ← FaultM.get
  if s.rebootPending then FaultM.throw .invalidState
  else if !s.partition || s.activeBank < 0 then FaultM.throw .invalidState
  else if count > capacity || count > eventRecordsPerBank then FaultM.throw .invalidArg
  else do
    let replacementBank := 1 - s.activeBank
    let replacementGeneration := s.generation + 1
    espPartitionEraseRange (bankOffset replacementBank) eventBankSize
    writeRecords replacementBank entries eventIds capacity head count count 0
    commitBank replacementBank replacementGeneration
    FaultM.modify fun s =>
      { s with activeBank := replacementBank
               generation := replacementGeneration
               nextRecord := count }

/-! ### Replaying -/

/-- What a load hands back: the events, oldest first, and the next free id.
After an error they are as far as the replay had come. -/
structure LoadedEvents where
  events : List (UInt32 × EventEntry) := []
  nextEventId : UInt32 := 1
deriving DecidableEq, Repr

/-- What a record says: an event under its id. -/
def EventJournalRecord.event (record : EventJournalRecord) : UInt32 × EventEntry :=
  (record.eventId, record.entry)

/-- One valid record folded into the result. -/
def LoadedEvents.add (capacity : ℕ) (out : LoadedEvents) (record : EventJournalRecord) :
    LoadedEvents where
  events := upsert capacity out.events record.event
  nextEventId := if record.eventId ≥ out.nextEventId then advance record.eventId
    else out.nextEventId

/-- The scan of the active bank from `slot` on. Its verdict says whether it
ended at a damaged record rather than at an erased one or the end of the bank. -/
def loadSlots (capacity : ℕ) :
    ℕ → ℕ → LoadedEvents → HistoryM (LoadedEvents × Except EspErr Bool)
  | 0, _, out => pure (out, .ok false)
  | left + 1, slot, out => do
      let s ← FaultM.get
      match ← (espPartitionRead (recordOffset s.activeBank slot) eventRecordSize).attempt with
      | .error e => pure (out, .error e)
      | .ok bytes =>
          let record := eventJournalRecord.dec bytes
          if bytesAreErased bytes then do
            FaultM.modify fun s => { s with nextRecord := slot }
            pure (out, .ok false)
          else if !recordValid record then do
            FaultM.modify fun s => { s with nextRecord := slot }
            pure (out, .ok true)
          else do
            FaultM.modify fun s =>
              { s with nextRecord := slot + 1
                       nextJournalSequence :=
                         if record.journalSequence ≥ s.nextJournalSequence
                         then advance record.journalSequence else s.nextJournalSequence }
            loadSlots capacity left (slot + 1) (out.add capacity record)

/-- The replay of the active bank: everything `history_storage_load_events`
does once the storage is initialised. -/
def replayActiveBank (capacity : ℕ) : HistoryM (LoadedEvents × Except EspErr Unit) := do
  FaultM.modify fun s => { s with nextJournalSequence := 1, nextRecord := 0 }
  let (out, verdict) ← loadSlots capacity eventRecordsPerBank 0 {}
  match verdict with
  | .error e => pure (out, .error e)
  | .ok false => pure (out, .ok ())
  | .ok true => do
      -- a damaged tail is dropped by compacting what was read
      let count := out.events.length
      let status ← (historyStorageReplaceEvents
        (fun i => (out.events.getD i default).2) (fun i => (out.events.getD i default).1)
        capacity count count).attempt
      pure (out, status)

/-- `history_storage_load_events`. The status is returned next to the output
arrays, which the source fills even when it fails. -/
def historyStorageLoadEvents (capacity : ℕ) :
    HistoryM (LoadedEvents × Except EspErr Unit) := do
  if capacity = 0 then pure ({}, .error .invalidArg)
  else
    match ← historyStorageInit.attempt with
    | .error e => pure ({}, .error e)
    | .ok () => replayActiveBank capacity

/-! ### Runs without faults -/

section Quiet

open FaultM

lemma quiet_readHeader (bank : ℤ) : Quiet (readHeader bank) :=
  (quiet_read _ _).bind fun _ => quiet_pure _

lemma quiet_commitBank (bank : ℤ) (generation : UInt32) : Quiet (commitBank bank generation) :=
  (quiet_write _ _).bind fun _ => quiet_write _ _

lemma quiet_readHeaderOrRelease (bank : ℤ) : Quiet (readHeaderOrRelease bank) :=
  (quiet_readHeader bank).attempt.bind fun
    | .ok _ => quiet_pure _
    | .error _ => (quiet_modify _).bind fun _ => quiet_throw _

lemma quiet_initializeEmptyBank : Quiet initializeEmptyBank :=
  (quiet_erase _ _).bind fun _ => (quiet_commitBank _ _).bind fun _ => quiet_modify _

lemma quiet_historyStorageInit : Quiet historyStorageInit :=
  quiet_get.bind fun _ => .ite (quiet_pure _) <| (quiet_modify _).bind fun _ =>
    .ite ((quiet_modify _).bind fun _ => quiet_throw _) <|
      (quiet_readHeaderOrRelease 0).bind fun header0 =>
        (quiet_readHeaderOrRelease 1).bind fun header1 => by
          cases chooseBank header0 header1 with
          | none => exact quiet_initializeEmptyBank
          | some bank => exact quiet_modify _

lemma quiet_historyStorageAppendEvent (eventId : UInt32) (entry : EventEntry) :
    Quiet (historyStorageAppendEvent eventId entry) :=
  quiet_get.bind fun _ => .ite (quiet_throw _) <| .ite (quiet_throw _) <|
    .ite (quiet_throw _) <| .ite (quiet_throw _) <|
      (quiet_write _ _).bind fun _ => quiet_modify _

lemma quiet_writeRecords (bank : ℤ) (entries : ℕ → EventEntry) (eventIds : ℕ → UInt32)
    (capacity head count left : ℕ) : ∀ i,
      Quiet (writeRecords bank entries eventIds capacity head count left i) := by
  induction left with
  | zero => exact fun _ => quiet_pure _
  | succ left ih =>
      exact fun i => quiet_get.bind fun _ => (quiet_write _ _).bind fun _ =>
        (quiet_modify _).bind fun _ => ih (i + 1)

lemma quiet_historyStorageReplaceEvents (entries : ℕ → EventEntry) (eventIds : ℕ → UInt32)
    (capacity head count : ℕ) :
    Quiet (historyStorageReplaceEvents entries eventIds capacity head count) :=
  quiet_get.bind fun _ => .ite (quiet_throw _) <| .ite (quiet_throw _) <|
    .ite (quiet_throw _) <| (quiet_erase _ _).bind fun _ =>
      (quiet_writeRecords _ _ _ _ _ _ _ _).bind fun _ =>
        (quiet_commitBank _ _).bind fun _ => quiet_modify _

lemma quiet_loadSlots (capacity left : ℕ) : ∀ slot out,
    Quiet (loadSlots capacity left slot out) := by
  induction left with
  | zero => exact fun _ _ => quiet_pure _
  | succ left ih =>
      exact fun slot out => quiet_get.bind fun _ => (quiet_read _ _).attempt.bind fun
        | .error _ => quiet_pure _
        | .ok _ => .ite ((quiet_modify _).bind fun _ => quiet_pure _) <|
            .ite ((quiet_modify _).bind fun _ => quiet_pure _) <|
              (quiet_modify _).bind fun _ => ih _ _

lemma quiet_replayActiveBank (capacity : ℕ) : Quiet (replayActiveBank capacity) :=
  (quiet_modify _).bind fun _ => (quiet_loadSlots _ _ _ _).bind fun
    | (_, .error _) => quiet_pure _
    | (_, .ok false) => quiet_pure _
    | (_, .ok true) => (quiet_historyStorageReplaceEvents _ _ _ _ _).attempt.bind fun _ =>
        quiet_pure _

lemma quiet_historyStorageLoadEvents (capacity : ℕ) :
    Quiet (historyStorageLoadEvents capacity) :=
  .ite (quiet_pure _) <| quiet_historyStorageInit.attempt.bind fun
    | .error _ => quiet_pure _
    | .ok () => quiet_replayActiveBank capacity

end Quiet

end ArcticController

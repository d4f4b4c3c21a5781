/-
The external temperature sensors (`ext_temp_sensors.cpp`): the settings in RAM,
the tasks that change and save them, and the worker that polls.

* `applySection`, `applySlot`: what `apply_settings` makes of the settings handed
  in and the current ones;
* `compareRom`, `bookModbus`, `bookBacnet`: what the worker does under the lock;
* `SensorTask`, `WorkerTask`, `SensorSystem`, `SensorStep`: the tasks between their
  sections under `s_mutex`, with `s_save_mutex` held over whole saves, and the
  steps of all of them in any order.
-/
import ArcticController.Perf.Settings
import ArcticController.Base.Runs

namespace ArcticController

/-! ### Slots and readings -/

/-- The result of an attempt to read a sensor. -/
inductive SensorError where
  | none
  | notRead
  | resolve
  | connect
  | timeout
  | protocol
  | exception
  | rejected
  | units
  | noReading
  | outOfRange
  | sensorChanged
  | wrongDevice
  | busy
deriving DecidableEq, Repr

inductive ThermuxState where
  | unknown
  | yes
  | no
deriving DecidableEq, Repr

/-- `celsius` is the reading's 32 bits. -/
structure SlotStatus where
  configured : Bool
  hasReading : Bool := false
  celsius : UInt32 := 0
  error : SensorError
  exception : UInt8 := 0
  errorClass : UInt8 := 0
  objectName : CharArray 41 := .zero
  romHex : CharArray 17 := .zero
  bacnetDeviceKnown : Bool := false
  bacnetDeviceInstance : UInt32 := 0
deriving DecidableEq

structure SensorSlot where
  status : SlotStatus
  lastOkMs : UInt32 := 0
  thermux : ThermuxState := .unknown
deriving DecidableEq

/-- What a Modbus sensor answered. -/
structure ValueRead where
  error : SensorError
  exception : UInt8
  celsius : UInt32
deriving DecidableEq

/-- What a BACnet sensor answered. -/
structure BacnetRead where
  error : SensorError
  exception : UInt8
  errorClass : UInt8
  celsius : UInt32
  objectName : CharArray 41
  romHex : CharArray 17
  deviceKnown : Bool
  deviceInstance : UInt32
deriving DecidableEq

abbrev RomId : Type := Fin kRomLen → UInt8

def kTempStart : UInt16 := 100
def kChannelCount : UInt16 := 100

/-- A slot that looks like a channel of a Thermux. -/
def candidate (s : SensorConfig) : Bool :=
  s.source == .modbusTcp && s.regType == .input && s.valueType == .int16 && s.scaleExp == -2 &&
    kTempStart ≤ s.address && s.address < kTempStart + kChannelCount

def hexDigit (c : UInt8) : Bool :=
  (48 ≤ c && c ≤ 57) || (97 ≤ c && c ≤ 102) || (65 ≤ c && c ≤ 70)

/-- Sixteen hex digits. -/
def isHex16 (hex : CharArray 17) : Bool :=
  (List.range 16).all (fun i => hexDigit ((List.ofFn hex).getD i 0)) &&
    (List.ofFn hex).getD 16 0 == 0

def hexNibble (c : UInt8) : UInt8 :=
  if 48 ≤ c && c ≤ 57 then c - 48
  else if 97 ≤ c && c ≤ 102 then c - 97 + 10
  else c - 65 + 10

def romFromHex (hex : CharArray 17) : RomId := fun i =>
  hexNibble ((List.ofFn hex).getD (2 * i) 0) <<< 4 ||| hexNibble ((List.ofFn hex).getD (2 * i + 1) 0)

/-! ### Applying settings -/

def bacnetEndpointChanged (a b : SensorConfig) : Bool :=
  a.source != b.source || a.host.cstr != b.host.cstr || a.port != b.port ||
    a.bacnetType != b.bacnetType || a.bacnetInstance != b.bacnetInstance

def sameBacnetIdentity (a b : SensorConfig) : Bool :=
  a.bacnetDeviceKnown == b.bacnetDeviceKnown &&
    (!a.bacnetDeviceKnown || a.bacnetDeviceInstance == b.bacnetDeviceInstance) &&
    a.bacnetObjectName.cstr == b.bacnetObjectName.cstr && a.romKnown == b.romKnown &&
    (!a.romKnown || decide (a.rom = b.rom))

def clearBacnetIdentity (s : SensorConfig) : SensorConfig :=
  { s with
    bacnetDeviceKnown := false
    bacnetDeviceInstance := kBacnetDeviceWildcard
    bacnetDeviceName := s.bacnetDeviceName.strlcpy []
    bacnetObjectName := s.bacnetObjectName.strlcpy []
    romKnown := false
    rom := fun _ => 0 }

/-- A BACnet slot whose endpoint changed does not keep the identity it had there. -/
def dropStaleIdentity (s cur : SensorConfig) : SensorConfig :=
  if s.source = .bacnetIp ∧ bacnetEndpointChanged s cur ∧ sameBacnetIdentity s cur then
    clearBacnetIdentity s
  else s

/-- The identity of the current slot, which an unedited one of the same source keeps. -/
def keepIdentity (s cur : SensorConfig) : SensorConfig :=
  { s with
    romKnown := cur.romKnown
    rom := cur.rom
    bacnetDeviceKnown := cur.bacnetDeviceKnown
    bacnetDeviceInstance := cur.bacnetDeviceInstance
    bacnetDeviceName := s.bacnetDeviceName.strlcpy cur.bacnetDeviceName.cstr
    bacnetObjectName := s.bacnetObjectName.strlcpy cur.bacnetObjectName.cstr }

def applySlot (edited : Bool) (s cur : SensorConfig) : SensorConfig :=
  let s := dropStaleIdentity s cur
  if edited ∨ ¬ sameSource s cur then
    if s.source ≠ .bacnetIp then clearBacnetIdentity s else s
  else keepIdentity s cur

/-- The readings so far are of no use for the new slot. -/
def sensorChanged (s cur : SensorConfig) : Bool :=
  !sameSource s cur || s.scaleExp != cur.scaleExp || s.noReading != cur.noReading ||
    !sameBacnetIdentity s cur

/-- The settings to be saved and installed, and whether a sensor changed. -/
def applySection (cur input : Settings) (edited : Fin kSlotCount → Bool) : Settings × Bool :=
  let next : Settings :=
    { input with
      sensors := fun i => applySlot (edited i) (input.sensors i) (cur.sensors i) }
  (next, decide (∃ i, sensorChanged (next.sensors i) (cur.sensors i)))

/-- `reset_slots_locked`. -/
def resetSlots (settings : Settings) : Fin kSlotCount → SensorSlot := fun i =>
  { status :=
      { configured :=
          (settings.sensors i).source == .modbusTcp || (settings.sensors i).source == .bacnetIp
        error := .notRead } }

/-! ### Polling -/

/-- The ROM ID read from a sensor is compared with the one of its slot: it is to
be learned, or the sensor is another one. -/
def compareRom (cur cfg : SensorConfig) (r : ValueRead) (rom : RomId) : ValueRead × Option RomId :=
  if ¬ sameSource cur cfg then (r, none)
  else if ¬ cur.romKnown then (r, some rom)
  else if cur.rom ≠ rom then ({ r with error := .sensorChanged }, none)
  else (r, none)

def compareBacnetRom (cur cfg : SensorConfig) (r : BacnetRead) (rom : RomId) : BacnetRead :=
  if sameSource cur cfg ∧ cur.romKnown ∧ cur.rom ≠ rom then { r with error := .sensorChanged } else r

/-- A slot after a poll on Modbus. -/
def bookModbusSlot (slot : SensorSlot) (r : ValueRead) (thermux : ThermuxState) (nowMs : UInt32) :
    SensorSlot :=
  let slot : SensorSlot :=
    { slot with
      status := { slot.status with error := r.error, exception := r.exception }
      thermux := if r.error = .connect ∨ r.error = .resolve then .unknown else thermux }
  if r.error = .none then
    { slot with
      status := { slot.status with hasReading := true, celsius := r.celsius }
      lastOkMs := nowMs }
  else slot

/-- A slot after a poll on BACnet. -/
def bookBacnetSlot (slot : SensorSlot) (r : BacnetRead) (nowMs : UInt32) : SensorSlot :=
  let slot : SensorSlot :=
    { slot with
      status :=
        { slot.status with
          error := r.error
          exception := r.exception
          errorClass := r.errorClass
          objectName := slot.status.objectName.strlcpy r.objectName.cstr
          romHex := slot.status.romHex.strlcpy r.romHex.cstr
          bacnetDeviceKnown := r.deviceKnown
          bacnetDeviceInstance := r.deviceInstance }
      thermux := .no }
  if r.error = .none then
    { slot with
      status := { slot.status with hasReading := true, celsius := r.celsius }
      lastOkMs := nowMs }
  else slot

/-! ### The tasks -/

/-- A task that calls `apply_settings` or `service`. From `applyHolding` and
`serviceHolding` on it holds `s_save_mutex`. -/
inductive SensorTask where
  | idle
  | applyWaiting (input : Settings) (edited : Fin kSlotCount → Bool)
  | applyHolding (input : Settings) (edited : Fin kSlotCount → Bool)
  | applySaving (input : Settings) (edited : Fin kSlotCount → Bool) (next : Settings)
      (sensorsChanged : Bool)
  | applyInstalling (input : Settings) (edited : Fin kSlotCount → Bool) (next : Settings)
      (sensorsChanged : Bool)
  | serviceWaiting
  | serviceHolding
  | serviceSaving (copy : Settings)
  | serviceFailed
  | releasing

/-- Where the worker is: before a slot, between the sections of one, or idle. -/
inductive WorkerTask where
  | idle
  | polling (cfg : Settings) (i : Fin kSlotCount)
  | probing (cfg : Settings) (i : Fin kSlotCount) (r : ValueRead) (thermux : ThermuxState)
  | booking (cfg : Settings) (i : Fin kSlotCount) (r : ValueRead) (thermux : ThermuxState)
      (learned : Option RomId)
  | bookingBacnet (cfg : Settings) (i : Fin kSlotCount) (r : BacnetRead)

/-- The slot after this one, or the end of the poll. -/
def WorkerTask.next (cfg : Settings) (i : Fin kSlotCount) : WorkerTask :=
  if h : i + 1 < kSlotCount then .polling cfg ⟨i + 1, h⟩ else .idle

structure SensorSystem where
  settings : Settings
  savePending : Bool := false
  slots : Fin kSlotCount → SensorSlot
  saved : Settings
  saveMutex : Option ℕ := none
  task : ℕ → SensorTask := fun _ => .idle
  worker : WorkerTask := .idle

/-- What the consistency is about: the settings read by an `apply_settings`, those
it installed, and a poll booked to a slot. An installation drops what was learned
of the slots it edits or gives another source. -/
inductive SensorEvent where
  | snapshotted (task : ℕ)
  | installed (task : ℕ) (drops : Fin kSlotCount → Bool) (reset : Bool)
  | booked (slot : Fin kSlotCount) (cfg : SensorConfig) (learned : Option RomId)

/-- The slots that are edited or get another source. -/
def droppedSlots (cur input : Settings) (edited : Fin kSlotCount → Bool) (i : Fin kSlotCount) : Bool :=
  edited i || !sameSource (input.sensors i) (cur.sensors i)

namespace SensorSystem

/-- The worker books a Modbus poll, if the slot still has the source it polled. -/
def bookModbus (s : SensorSystem) (cfg : Settings) (i : Fin kSlotCount) (r : ValueRead)
    (thermux : ThermuxState) (learned : Option RomId) (nowMs : UInt32) : SensorSystem :=
  if sameSource (s.settings.sensors i) (cfg.sensors i) then
    let s : SensorSystem :=
      { s with
        slots := Function.update s.slots i (bookModbusSlot (s.slots i) r thermux nowMs)
        worker := .next cfg i }
    match learned with
    | none => s
    | some rom =>
        { s with
          settings :=
            { s.settings with
              sensors := Function.update s.settings.sensors i
                { s.settings.sensors i with romKnown := true, rom := rom } }
          savePending := true }
  else { s with worker := .next cfg i }

/-- The worker books a BACnet poll, if the slot still has the source it polled. -/
def bookBacnet (s : SensorSystem) (cfg : Settings) (i : Fin kSlotCount) (r : BacnetRead)
    (nowMs : UInt32) : SensorSystem :=
  if sameSource (s.settings.sensors i) (cfg.sensors i) then
    { s with
      slots := Function.update s.slots i (bookBacnetSlot (s.slots i) r nowMs)
      worker := .next cfg i }
  else { s with worker := .next cfg i }

/-- The event of a booking; a poll of another source leaves none. -/
def bookedEvent (s : SensorSystem) (cfg : Settings) (i : Fin kSlotCount) (learned : Option RomId) :
    Option SensorEvent :=
  if sameSource (s.settings.sensors i) (cfg.sensors i) then
    some (.booked i (cfg.sensors i) learned)
  else none

/-- New settings, with the slots reset if a sensor changed. -/
def install (s : SensorSystem) (next : Settings) (sensorsChanged : Bool) : SensorSystem :=
  { s with
    settings := next
    slots := if sensorsChanged then resetSlots next else s.slots }

def moveTask (s : SensorSystem) (t : ℕ) (task : SensorTask) : SensorSystem :=
  { s with task := Function.update s.task t task }

end SensorSystem

/-- Whether a sensor is a Thermux, once it was asked. -/
def ProbedAs (cfg : SensorConfig) (r : ValueRead) (thermux thermux' : ThermuxState) : Prop :=
  if r.error = .none ∧ candidate cfg ∧ thermux = .unknown then thermux' ≠ .unknown
  else thermux' = thermux

instance (cfg : SensorConfig) (r : ValueRead) (thermux thermux' : ThermuxState) :
    Decidable (ProbedAs cfg r thermux thermux') :=
  inferInstanceAs (Decidable (if _ ∧ _ ∧ _ then _ else _))

/-- One step of one task or of the worker. A save stores valid settings or
fails. -/
inductive SensorStep (macon : MaconFluid) :
    SensorSystem → Option SensorEvent → SensorSystem → Prop where
  | applyInvalid (s : SensorSystem) (t : ℕ) (input : Settings) (hidle : s.task t = .idle)
      (hinvalid : validate macon input ≠ .none) : SensorStep macon s none s
  | callApply (s : SensorSystem) (t : ℕ) (input : Settings) (edited : Fin kSlotCount → Bool)
      (hidle : s.task t = .idle) (hvalid : validate macon input = .none) :
      SensorStep macon s none (s.moveTask t (.applyWaiting input edited))
  | applyTake (s : SensorSystem) (t : ℕ) (input : Settings) (edited : Fin kSlotCount → Bool)
      (h : s.task t = .applyWaiting input edited) (hfree : s.saveMutex = none) :
      SensorStep macon s none
        { s.moveTask t (.applyHolding input edited) with saveMutex := some t }
  | applySnapshot (s : SensorSystem) (t : ℕ) (input : Settings) (edited : Fin kSlotCount → Bool)
      (h : s.task t = .applyHolding input edited) :
      SensorStep macon s (some (.snapshotted t))
        (s.moveTask t (.applySaving input edited (applySection s.settings input edited).1
          (applySection s.settings input edited).2))
  | applySaved (s : SensorSystem) (t : ℕ) (input : Settings) (edited : Fin kSlotCount → Bool)
      (next : Settings) (sensorsChanged : Bool)
      (h : s.task t = .applySaving input edited next sensorsChanged)
      (hvalid : validate macon next = .none) :
      SensorStep macon s none
        { s.moveTask t (.applyInstalling input edited next sensorsChanged) with saved := next }
  | applyNotSaved (s : SensorSystem) (t : ℕ) (input : Settings) (edited : Fin kSlotCount → Bool)
      (next : Settings) (sensorsChanged : Bool)
      (h : s.task t = .applySaving input edited next sensorsChanged) :
      SensorStep macon s none (s.moveTask t .releasing)
  | applyInstall (s : SensorSystem) (t : ℕ) (input : Settings) (edited : Fin kSlotCount → Bool)
      (next : Settings) (sensorsChanged : Bool)
      (h : s.task t = .applyInstalling input edited next sensorsChanged) :
      SensorStep macon s
        (some (.installed t (droppedSlots s.settings input edited) sensorsChanged))
        ((s.install next sensorsChanged).moveTask t .releasing)
  | callService (s : SensorSystem) (t : ℕ) (hidle : s.task t = .idle) :
      SensorStep macon s none (s.moveTask t .serviceWaiting)
  | serviceTake (s : SensorSystem) (t : ℕ) (h : s.task t = .serviceWaiting)
      (hfree : s.saveMutex = none) :
      SensorStep macon s none { s.moveTask t .serviceHolding with saveMutex := some t }
  | serviceSnapshot (s : SensorSystem) (t : ℕ) (h : s.task t = .serviceHolding) :
      SensorStep macon s none
        { s.moveTask t (if s.savePending then .serviceSaving s.settings else .releasing) with
          savePending := false }
  | serviceSaved (s : SensorSystem) (t : ℕ) (copy : Settings) (h : s.task t = .serviceSaving copy)
      (hvalid : validate macon copy = .none) :
      SensorStep macon s none { s.moveTask t .releasing with saved := copy }
  | serviceNotSaved (s : SensorSystem) (t : ℕ) (copy : Settings)
      (h : s.task t = .serviceSaving copy) :
      SensorStep macon s none (s.moveTask t .serviceFailed)
  | serviceRetry (s : SensorSystem) (t : ℕ) (h : s.task t = .serviceFailed) :
      SensorStep macon s none { s.moveTask t .releasing with savePending := true }
  | release (s : SensorSystem) (t : ℕ) (h : s.task t = .releasing) :
      SensorStep macon s none { s.moveTask t .idle with saveMutex := none }
  | pollStart (s : SensorSystem) (h : s.worker = .idle) :
      SensorStep macon s none { s with worker := .polling s.settings ⟨0, by decide⟩ }
  | pollSkip (s : SensorSystem) (cfg : Settings) (i : Fin kSlotCount) (h : s.worker = .polling cfg i)
      (hmodbus : (cfg.sensors i).source ≠ .modbusTcp) (hbacnet : (cfg.sensors i).source ≠ .bacnetIp) :
      SensorStep macon s none { s with worker := .next cfg i }
  | pollModbus (s : SensorSystem) (cfg : Settings) (i : Fin kSlotCount) (r : ValueRead)
      (h : s.worker = .polling cfg i) (hsource : (cfg.sensors i).source = .modbusTcp) :
      SensorStep macon s none { s with worker := .probing cfg i r (s.slots i).thermux }
  | probeOnly (s : SensorSystem) (cfg : Settings) (i : Fin kSlotCount) (r : ValueRead)
      (thermux thermux' : ThermuxState) (h : s.worker = .probing cfg i r thermux)
      (hprobed : ProbedAs (cfg.sensors i) r thermux thermux') :
      SensorStep macon s none { s with worker := .booking cfg i r thermux' none }
  | probeRom (s : SensorSystem) (cfg : Settings) (i : Fin kSlotCount) (r : ValueRead)
      (thermux : ThermuxState) (rom : RomId) (h : s.worker = .probing cfg i r thermux)
      (hprobed : ProbedAs (cfg.sensors i) r thermux .yes) (herror : r.error = .none)
      (hcandidate : candidate (cfg.sensors i)) :
      SensorStep macon s none
        { s with
          worker := .booking cfg i (compareRom (s.settings.sensors i) (cfg.sensors i) r rom).1 .yes
            (compareRom (s.settings.sensors i) (cfg.sensors i) r rom).2 }
  | book (s : SensorSystem) (cfg : Settings) (i : Fin kSlotCount) (r : ValueRead)
      (thermux : ThermuxState) (learned : Option RomId) (nowMs : UInt32)
      (h : s.worker = .booking cfg i r thermux learned) :
      SensorStep macon s (s.bookedEvent cfg i learned) (s.bookModbus cfg i r thermux learned nowMs)
  | pollBacnet (s : SensorSystem) (cfg : Settings) (i : Fin kSlotCount) (r : BacnetRead)
      (h : s.worker = .polling cfg i) (hsource : (cfg.sensors i).source = .bacnetIp)
      (hrom : ¬ (r.error = .none ∧ isHex16 r.romHex)) :
      SensorStep macon s none { s with worker := .bookingBacnet cfg i r }
  | pollBacnetRom (s : SensorSystem) (cfg : Settings) (i : Fin kSlotCount) (r : BacnetRead)
      (h : s.worker = .polling cfg i) (hsource : (cfg.sensors i).source = .bacnetIp)
      (herror : r.error = .none) (hrom : isHex16 r.romHex) :
      SensorStep macon s none
        { s with
          worker := .bookingBacnet cfg i
            (compareBacnetRom (s.settings.sensors i) (cfg.sensors i) r (romFromHex r.romHex)) }
  | bookBacnet (s : SensorSystem) (cfg : Settings) (i : Fin kSlotCount) (r : BacnetRead)
      (nowMs : UInt32) (h : s.worker = .bookingBacnet cfg i r) :
      SensorStep macon s (s.bookedEvent cfg i none) (s.bookBacnet cfg i r nowMs)

/-- The system after `init` loaded some settings. -/
def SensorSystem.boot (settings : Settings) : SensorSystem :=
  { settings := settings, slots := resetSlots settings, saved := settings }

end ArcticController

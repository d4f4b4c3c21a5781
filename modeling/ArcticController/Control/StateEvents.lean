/-
The events `heatpump_controller.cpp` logs about the machine: each decoded state
is compared with the one before.

* `HeatPumpState`, `Poll`: a decoded state and which fields its window decoded;
* `PrevState`: the static variables the next state is compared with;
* `modePayload`, `setpointPayload` and their readers `eventPayloadFrom`,
  `eventPayloadTo`, `eventPayloadSetpoint`;
* `detectAndLogStateEvents`, `logStates`: one call, and a sequence of calls.
-/
import ArcticController.Control.HaCommands

namespace ArcticController

/-! ### States -/

/-- The five opaque fault-byte groups. -/
structure FaultBytes where
  run : UInt8 := 0
  ee : UInt8 := 0
  comp : UInt8 := 0
  elec : UInt8 := 0
  ref : UInt8 := 0
deriving DecidableEq

/-- The fields of `HeatPumpState` that are compared. -/
structure HeatPumpState where
  unitOn : Bool
  workingMode : WorkingMode
  coolingSetpoint : Int16
  heatingSetpoint : Int16
  hotWaterSetpoint : Int16
  compressorRunning : Bool
  fanRunning : Bool
  pumpRunning : Bool
  backupHeater : Bool
  defrosting : Bool
  faults : FaultBytes

/-- A state, and whether its mode and setpoints have been decoded. -/
structure Poll where
  state : HeatPumpState
  modeValid : Bool
  coolingSetpointValid : Bool
  heatingSetpointDecoded : Bool
  hotWaterSetpointValid : Bool

/-- The `s_prev_…` variables, as a boot leaves them. -/
structure PrevState where
  unitOn : Bool := false
  mode : WorkingMode := .cooling
  compressor : Bool := false
  fan : Bool := false
  pump : Bool := false
  auxHeater : Bool := false
  defrosting : Bool := false
  faultBytes : FaultBytes := {}
  coolingSp : Int16 := 0
  heatingSp : Int16 := 0
  hotwaterSp : Int16 := 0
  stateValid : Bool := false
  modeValid : Bool := false
  coolingSpValid : Bool := false
  heatingSpValid : Bool := false
  hotwaterSpValid : Bool := false

/-! ### Events -/

/-- The event types logged here (`event_type_t`). -/
inductive EventType where
  | powerOn
  | powerOff
  | modeChanged
  | setpointChanged
  | compressorOn
  | compressorOff
  | fanOn
  | fanOff
  | pumpOn
  | pumpOff
  | auxHeaterOn
  | auxHeaterOff
  | defrostStart
  | defrostEnd
  | errorAppeared
  | errorCleared
deriving DecidableEq

/-- What `event_log_record` is given. -/
structure LoggedEvent where
  type : EventType
  payload : UInt32
deriving DecidableEq

/-- The value of a working mode. -/
def WorkingMode.value : WorkingMode → UInt32
  | .cooling => 0
  | .heating => 1
  | .freezeProtection => 2
  | .mode3 => 3
  | .mode4 => 4
  | .hotWater => 5
  | .hotWaterCooling => 6
  | .unknown => 0xFF

/-- The value of a setpoint kind (`event_setpoint_t`). -/
def SetpointKind.value : SetpointKind → UInt32
  | .cooling => 0
  | .heating => 1
  | .hotWater => 2

def modePayload (old new : WorkingMode) : UInt32 := (old.value <<< 8) ||| new.value

/-- The two setpoints are widened without a mask. -/
def setpointPayload (kind : SetpointKind) (old new : Int16) : UInt32 :=
  (kind.value <<< 16) ||| (old.toUInt16.toUInt32 <<< 8) ||| new.toUInt16.toUInt32

def eventPayloadFrom (payload : UInt32) : UInt32 := (payload >>> 8) &&& 0xFF

def eventPayloadTo (payload : UInt32) : UInt32 := payload &&& 0xFF

def eventPayloadSetpoint (payload : UInt32) : UInt32 := (payload >>> 16) &&& 0xFF

/-- The parts of the machine that are on or off. -/
inductive Device where
  | unit
  | compressor
  | fan
  | pump
  | auxHeater
  | defrost
deriving DecidableEq

def Device.onEvent : Device → EventType
  | .unit => .powerOn
  | .compressor => .compressorOn
  | .fan => .fanOn
  | .pump => .pumpOn
  | .auxHeater => .auxHeaterOn
  | .defrost => .defrostStart

def Device.offEvent : Device → EventType
  | .unit => .powerOff
  | .compressor => .compressorOff
  | .fan => .fanOff
  | .pump => .pumpOff
  | .auxHeater => .auxHeaterOff
  | .defrost => .defrostEnd

/-! ### One call -/

/-- A device that went on or off. -/
def deviceEvents (device : Device) (prev cur : Bool) : List LoggedEvent :=
  if cur ≠ prev then [⟨if cur then device.onEvent else device.offEvent, 0⟩] else []

/-- A setpoint that changed since it was last decoded. -/
def setpointEvents (kind : SetpointKind) (valid prevValid : Bool) (prev cur : Int16) :
    List LoggedEvent :=
  if valid && prevValid && cur != prev then [⟨.setpointChanged, setpointPayload kind prev cur⟩]
  else []

def modeEvents (valid prevValid : Bool) (prev cur : WorkingMode) : List LoggedEvent :=
  if valid && prevValid && cur != prev then [⟨.modeChanged, modePayload prev cur⟩] else []

/-- The changes of the fields that need a state before. -/
def PrevState.changes (prev : PrevState) (poll : Poll) : List LoggedEvent :=
  deviceEvents .unit prev.unitOn poll.state.unitOn ++
  modeEvents poll.modeValid prev.modeValid prev.mode poll.state.workingMode ++
  setpointEvents .cooling poll.coolingSetpointValid prev.coolingSpValid prev.coolingSp
    poll.state.coolingSetpoint ++
  setpointEvents .heating poll.heatingSetpointDecoded prev.heatingSpValid prev.heatingSp
    poll.state.heatingSetpoint ++
  setpointEvents .hotWater poll.hotWaterSetpointValid prev.hotwaterSpValid prev.hotwaterSp
    poll.state.hotWaterSetpoint ++
  deviceEvents .compressor prev.compressor poll.state.compressorRunning ++
  deviceEvents .fan prev.fan poll.state.fanRunning ++
  deviceEvents .pump prev.pump poll.state.pumpRunning ++
  deviceEvents .auxHeater prev.auxHeater poll.state.backupHeater ++
  deviceEvents .defrost prev.defrosting poll.state.defrosting

/-- The fault sites that came and went. -/
def faultEvents (prev cur : List UInt16) : List LoggedEvent :=
  (cur.filter fun site => !prev.contains site).map (fun site => ⟨.errorAppeared, site.toUInt32⟩) ++
  (prev.filter fun site => !cur.contains site).map (fun site => ⟨.errorCleared, site.toUInt32⟩)

/-- The baseline after a call: a field that was not decoded keeps its own. -/
def PrevState.next (prev : PrevState) (poll : Poll) : PrevState where
  unitOn := poll.state.unitOn
  mode := if poll.modeValid then poll.state.workingMode else prev.mode
  modeValid := poll.modeValid || prev.modeValid
  coolingSp := if poll.coolingSetpointValid then poll.state.coolingSetpoint else prev.coolingSp
  coolingSpValid := poll.coolingSetpointValid || prev.coolingSpValid
  heatingSp := if poll.heatingSetpointDecoded then poll.state.heatingSetpoint else prev.heatingSp
  heatingSpValid := poll.heatingSetpointDecoded || prev.heatingSpValid
  hotwaterSp := if poll.hotWaterSetpointValid then poll.state.hotWaterSetpoint else prev.hotwaterSp
  hotwaterSpValid := poll.hotWaterSetpointValid || prev.hotwaterSpValid
  compressor := poll.state.compressorRunning
  fan := poll.state.fanRunning
  pump := poll.state.pumpRunning
  auxHeater := poll.state.backupHeater
  defrosting := poll.state.defrosting
  faultBytes := poll.state.faults
  stateValid := true

section Calls

-- `macon_decode_faults` of the macon library: the active sites of the five bytes.
variable (maconDecodeFaults : FaultBytes → List UInt16)

/-- `detectAndLogStateEvents`: the new baseline and the events recorded. The faults
are compared on the first call too, with the all-clear baseline. -/
def detectAndLogStateEvents (prev : PrevState) (poll : Poll) : PrevState × List LoggedEvent :=
  (prev.next poll,
    (if prev.stateValid then prev.changes poll else []) ++
      faultEvents (maconDecodeFaults prev.faultBytes) (maconDecodeFaults poll.state.faults))

/-- The events of a sequence of calls. -/
def logStates : PrevState → List Poll → List LoggedEvent
  | _, [] => []
  | prev, poll :: polls =>
      (detectAndLogStateEvents maconDecodeFaults prev poll).2 ++
        logStates (detectAndLogStateEvents maconDecodeFaults prev poll).1 polls

end Calls

end ArcticController

/-
The power, mode and setpoint requests of Home Assistant (`api_server.cpp`), served by
any number of tasks.

* `HaCall`: a well-formed request, with the values in which the three handlers differ
  (`haPowerPut`, `haModePut`, `haSetpointPut`);
* `haCommandBegin`, `haCommandFinish`: the cache of accepted commands;
* `HaExit`: the ways a request ends, with status and message;
* `HaSystem`, `HaStep`: the tasks between the sections of `s_ha_command_mutex`.
-/
import ArcticController.Base.Runs

namespace ArcticController

/-! ### Requests -/

def haCommandIdMax : ℕ := 64
def haCommandOperationMax : ℕ := 16
def haCommandPayloadMax : ℕ := 96
def haCommandCacheSize : ℕ := 32

/-- A string as `snprintf` writes it into an array of `n + 1` bytes. -/
def clip (n : ℕ) (string : String) : String := String.ofList (string.toList.take n)

/-- What a command is compared by. -/
structure HaCommand where
  commandId : String
  operation : String
  payload : String
deriving DecidableEq

/-- An id that `integration_command_id` takes: short, and printable without blanks. -/
def integrationCommandId (commandId : String) : Bool :=
  0 < commandId.length && commandId.length ≤ haCommandIdMax &&
    commandId.toList.all fun c => 0x21 ≤ c.toNat && c.toNat ≤ 0x7e

inductive WorkingMode where
  | unknown
  | cooling
  | heating
  | freezeProtection
  | mode3
  | mode4
  | hotWater
  | hotWaterCooling
deriving DecidableEq

def parseSelectableWorkingMode (key : String) : Option WorkingMode :=
  [("cooling", WorkingMode.cooling), ("heating", .heating), ("hot_water", .hotWater),
    ("hot_water_cooling", .hotWaterCooling), ("floor_heating", .heating),
    ("auto", .hotWaterCooling)].lookup key

inductive SetpointKind where
  | cooling
  | heating
  | hotWater
deriving DecidableEq

structure SetpointLimits where
  minC : ℤ
  maxC : ℤ

/-- The calls that write to the heat pump. -/
inductive HaSetter where
  | setUnitPower (on : Bool)
  | setWorkingMode (mode : WorkingMode)
  | setCoolingSetpoint (value : Int16)
  | setHotWaterSetpoint (value : Int16)
deriving DecidableEq

/-- What decides which controls are supported. -/
structure HaRuntime where
  connected : Bool
  demoMode : Bool
  masterActive : Bool

def haSupportsPower (r : HaRuntime) : Bool := r.connected && r.demoMode

def haSupportsMode (r : HaRuntime) : Bool := r.connected && (r.demoMode || r.masterActive)

def haSupportsSetpoint (kind : String) (r : HaRuntime) : Bool :=
  if ¬ r.connected then false
  else if r.demoMode then kind == "cooling" || kind == "heating" || kind == "hot_water"
  else if r.masterActive then kind == "cooling" || kind == "heating" || kind == "hot_water"
  else false

def haControlUnavailableMessage (operation : String) (r : HaRuntime) : String :=
  if ¬ r.connected then "Heat pump not connected"
  else if operation == "power" then "Power control is unsupported by the active runtime"
  else if operation == "mode" then "Selected-mode control is unsupported by the active runtime"
  else "Setpoint control is unsupported by the active runtime"

/-- A well-formed request. Without a setter nothing is written and the request fails. -/
structure HaCall where
  command : HaCommand
  supported : HaRuntime → Bool
  setter : Option HaSetter
  notAccepted : String

/-- A request whose id is refused ends with the message about its body. -/
def haCall (bodyMessage commandId : String) (call : HaCall) : Except String HaCall :=
  if integrationCommandId commandId then .ok call else .error bodyMessage

def haPowerPut (commandId : String) (on : Bool) : Except String HaCall :=
  haCall "Body must contain only command_id and boolean on" commandId
    { command := ⟨commandId, "power", clip haCommandPayloadMax ("on=" ++ if on then "1" else "0")⟩
      supported := haSupportsPower
      setter := some (.setUnitPower on)
      notAccepted := "Power command was not accepted" }

def haModePut (commandId key : String) : Except String HaCall :=
  match parseSelectableWorkingMode key with
  | none => .error "Body must contain command_id and an allowlisted mode"
  | some workingMode =>
      haCall "Body must contain command_id and an allowlisted mode" commandId
        { command := ⟨commandId, "mode", clip haCommandPayloadMax ("mode=" ++ key)⟩
          supported := haSupportsMode
          setter := some (.setWorkingMode workingMode)
          notAccepted := "Selected-mode command was not accepted" }

def setpointKindOf (kind : String) : Option SetpointKind :=
  if kind == "cooling" then some .cooling
  else if kind == "heating" then some .heating
  else if kind == "hot_water" then some .hotWater
  else none

/-- The setter of a setpoint; there is none for heating. -/
def setpointSetter (kind : SetpointKind) (value : ℤ) : Option HaSetter :=
  match kind with
  | .cooling => some (.setCoolingSetpoint (Int16.ofInt value))
  | .heating => none
  | .hotWater => some (.setHotWaterSetpoint (Int16.ofInt value))

def haSetpointPut (setpointLimits : SetpointKind → SetpointLimits) (commandId kind : String)
    (value : ℤ) : Except String HaCall :=
  match setpointKindOf kind with
  | none => .error "Body must contain command_id, kind, and integer value"
  | some setpointKind =>
      if ¬ integrationCommandId commandId then
        .error "Body must contain command_id, kind, and integer value"
      else if value < (setpointLimits setpointKind).minC ∨ (setpointLimits setpointKind).maxC < value then
        .error "Setpoint is outside the advertised inclusive range"
      else
        .ok
          { command := ⟨commandId, "setpoint",
              clip haCommandPayloadMax ("kind=" ++ kind ++ ";value=" ++ toString value)⟩
            supported := haSupportsSetpoint kind
            setter := setpointSetter setpointKind value
            notAccepted := "Setpoint command was not accepted" }

/-- A request that passed the authentication, with the fields of its body. -/
inductive HaRequest where
  | power (commandId : String) (on : Bool)
  | mode (commandId key : String)
  | setpoint (commandId kind : String) (value : ℤ)

def HaRequest.call (setpointLimits : SetpointKind → SetpointLimits) :
    HaRequest → Except String HaCall
  | .power commandId on => haPowerPut commandId on
  | .mode commandId key => haModePut commandId key
  | .setpoint commandId kind value => haSetpointPut setpointLimits commandId kind value

/-! ### The cache of accepted commands -/

structure HaCommandRecord where
  accepted : Bool := false
  commandId : String := ""
  operation : String := ""
  payload : String := ""
deriving DecidableEq

inductive HaCommandLookup where
  | new
  | duplicate
  | conflict
deriving DecidableEq

/-- The cache and the counter of the claimed slots. -/
structure HaCommandCache where
  record : ℕ → HaCommandRecord := fun _ => {}
  next : UInt32 := 0

namespace HaCommandCache

/-- The first slot with an accepted command of this id. -/
def find (cache : HaCommandCache) (commandId : String) : Option ℕ :=
  (List.range haCommandCacheSize).find? fun i =>
    (cache.record i).accepted && (cache.record i).commandId == commandId

/-- The slot that the next new command claims. -/
def slot (cache : HaCommandCache) : ℕ := cache.next.toNat % haCommandCacheSize

/-- The cache after the claim, whose slot is wiped. -/
def claim (cache : HaCommandCache) : HaCommandCache :=
  { record := Function.update cache.record cache.slot {}
    next := cache.next + 1 }

end HaCommandCache

/-- Under the mutex: what the cache knows of a command, the slot and the cache left. -/
def haCommandBegin (cache : HaCommandCache) (c : HaCommand) :
    HaCommandLookup × ℕ × HaCommandCache :=
  match cache.find c.commandId with
  | some i =>
      if (cache.record i).operation == c.operation && (cache.record i).payload == c.payload then
        (.duplicate, i, cache)
      else (.conflict, 0, cache)
  | none => (.new, cache.slot, cache.claim)

/-- Under the mutex: an accepted command is recorded in the slot it claimed. -/
def haCommandFinish (cache : HaCommandCache) (slot : ℕ) (accepted : Bool) (c : HaCommand) :
    HaCommandCache :=
  if accepted then
    { cache with
      record := Function.update cache.record slot
        { accepted := true
          commandId := clip haCommandIdMax c.commandId
          operation := clip haCommandOperationMax c.operation
          payload := clip haCommandPayloadMax c.payload } }
  else cache

/-! ### The handlers -/

/-- How a request ends. -/
inductive HaExit where
  | conflict
  | repeated
  | unsupported (runtime : HaRuntime)
  | rotated
  | notWritten
  | accepted

namespace HaExit

def status : HaExit → String
  | .conflict => "409 Conflict"
  | .repeated => "202 Accepted"
  | .unsupported _ => "503 Service Unavailable"
  | .rotated => "401 Unauthorized"
  | .notWritten => "503 Service Unavailable"
  | .accepted => "202 Accepted"

/-- The text of the answer: the error, or the status of the accepted command. -/
def message (call : HaCall) : HaExit → String
  | .conflict => "command_id was already used with a different command"
  | .repeated => "accepted_waiting_for_reported_state"
  | .unsupported runtime => haControlUnavailableMessage call.command.operation runtime
  | .rotated => "Integration token rotated"
  | .notWritten => call.notAccepted
  | .accepted => "accepted_waiting_for_reported_state"

/-- A command is recorded when it was written. -/
def isAccepted : HaExit → Bool
  | .accepted => true
  | _ => false

end HaExit

/-- Where a task is: from `found` to `wrote` it holds the mutex. -/
inductive HaTask where
  | idle
  | waiting (call : HaCall)
  | found (call : HaCall) (lookup : HaCommandLookup) (slot : ℕ)
  | writing (call : HaCall) (slot : ℕ)
  | wrote (call : HaCall) (slot : ℕ) (written : Bool)
  | answering (call : HaCall) (exit : HaExit)

structure HaSystem where
  cache : HaCommandCache := {}
  mutex : Option ℕ := none
  task : ℕ → HaTask := fun _ => .idle

/-- What the tasks do with commands: a look into the cache, which takes the mutex, the
call of a setter, the two ways of giving the mutex back, and the answer. -/
inductive HaEvent where
  | looked (task : ℕ) (c : HaCommand) (lookup : HaCommandLookup)
  | set (task : ℕ) (c : HaCommand) (setter : HaSetter) (written : Bool)
  | gave (task : ℕ) (c : HaCommand)
  | finished (task : ℕ) (c : HaCommand) (exit : HaExit)
  | answered (task : ℕ) (c : HaCommand) (status message : String)

/-- One step of one task. What the runtime supports, whether the token was rotated and
what a setter returns are up to the environment. -/
inductive HaStep (setpointLimits : SetpointKind → SetpointLimits) :
    HaSystem → Option HaEvent → HaSystem → Prop where
  | receive (s : HaSystem) (t : ℕ) (request : HaRequest) (call : HaCall) (hidle : s.task t = .idle)
      (hcall : request.call setpointLimits = .ok call) :
      HaStep setpointLimits s none { s with task := Function.update s.task t (.waiting call) }
  | look (s : HaSystem) (t : ℕ) (call : HaCall) (lookup : HaCommandLookup) (slot : ℕ)
      (cache : HaCommandCache) (h : s.task t = .waiting call) (hfree : s.mutex = none)
      (hbegin : haCommandBegin s.cache call.command = (lookup, slot, cache)) :
      HaStep setpointLimits s (some (.looked t call.command lookup))
        { cache
          mutex := some t
          task := Function.update s.task t (.found call lookup slot) }
  | giveRepeated (s : HaSystem) (t : ℕ) (call : HaCall) (slot : ℕ)
      (h : s.task t = .found call .duplicate slot) :
      HaStep setpointLimits s (some (.gave t call.command))
        { s with
          mutex := none
          task := Function.update s.task t (.answering call .repeated) }
  | giveConflict (s : HaSystem) (t : ℕ) (call : HaCall) (slot : ℕ)
      (h : s.task t = .found call .conflict slot) :
      HaStep setpointLimits s (some (.gave t call.command))
        { s with
          mutex := none
          task := Function.update s.task t (.answering call .conflict) }
  | unsupported (s : HaSystem) (t : ℕ) (call : HaCall) (slot : ℕ) (runtime runtime' : HaRuntime)
      (h : s.task t = .found call .new slot) (hsupported : ¬ call.supported runtime) :
      HaStep setpointLimits s (some (.finished t call.command (.unsupported runtime')))
        { cache := haCommandFinish s.cache slot false call.command
          mutex := none
          task := Function.update s.task t (.answering call (.unsupported runtime')) }
  | rotated (s : HaSystem) (t : ℕ) (call : HaCall) (slot : ℕ) (runtime : HaRuntime)
      (h : s.task t = .found call .new slot) (hsupported : call.supported runtime) :
      HaStep setpointLimits s (some (.finished t call.command .rotated))
        { cache := haCommandFinish s.cache slot false call.command
          mutex := none
          task := Function.update s.task t (.answering call .rotated) }
  | beginWrite (s : HaSystem) (t : ℕ) (call : HaCall) (slot : ℕ) (runtime : HaRuntime)
      (h : s.task t = .found call .new slot) (hsupported : call.supported runtime) :
      HaStep setpointLimits s none { s with task := Function.update s.task t (.writing call slot) }
  | set (s : HaSystem) (t : ℕ) (call : HaCall) (slot : ℕ) (setter : HaSetter) (written : Bool)
      (h : s.task t = .writing call slot) (hsetter : call.setter = some setter) :
      HaStep setpointLimits s (some (.set t call.command setter written))
        { s with task := Function.update s.task t (.wrote call slot written) }
  | noSetter (s : HaSystem) (t : ℕ) (call : HaCall) (slot : ℕ) (h : s.task t = .writing call slot)
      (hsetter : call.setter = none) :
      HaStep setpointLimits s none
        { s with task := Function.update s.task t (.wrote call slot false) }
  | notWritten (s : HaSystem) (t : ℕ) (call : HaCall) (slot : ℕ)
      (h : s.task t = .wrote call slot false) :
      HaStep setpointLimits s (some (.finished t call.command .notWritten))
        { cache := haCommandFinish s.cache slot false call.command
          mutex := none
          task := Function.update s.task t (.answering call .notWritten) }
  | written (s : HaSystem) (t : ℕ) (call : HaCall) (slot : ℕ)
      (h : s.task t = .wrote call slot true) :
      HaStep setpointLimits s (some (.finished t call.command .accepted))
        { cache := haCommandFinish s.cache slot true call.command
          mutex := none
          task := Function.update s.task t (.answering call .accepted) }
  | answer (s : HaSystem) (t : ℕ) (call : HaCall) (exit : HaExit)
      (h : s.task t = .answering call exit) :
      HaStep setpointLimits s
        (some (.answered t call.command exit.status (exit.message call)))
        { s with task := Function.update s.task t .idle }

end ArcticController

/-
Reading a BACnet sensor (`ext_temp_sensors.cpp`): the requests, with what comes back
for them, and what the worker makes of it.

* `FloatOps`: arithmetic on the bits of 32-bit numbers, which the target has;
* `Attempt`, `Replies`, `ExchangeReplies`: what the network does in one exchange;
* `WorkerContext`: the buffers that outlive an exchange, and the last invoke id;
* `request`, `readProperty`, `readDeviceInstance`: one request each;
* `acquireValues`, `judge`, `bacnetReadValue`: the values, all at once or one by one,
  and whether they are a reading;
* `WorkerExchange`: the polls and the browses that share the buffers.
-/
import ArcticController.Bacnet.PropertyAnswers
import ArcticController.Perf.ExtTempSensors

namespace ArcticController

namespace Bacnet

/-! ### Numbers -/

/-- Arithmetic and order of 32-bit numbers, on their bits. -/
structure FloatOps where
  sub : UInt32 → UInt32 → UInt32
  mul : UInt32 → UInt32 → UInt32
  div : UInt32 → UInt32 → UInt32
  le : UInt32 → UInt32 → Bool

def kUnitsC : UInt32 := 62
def kUnitsF : UInt32 := 64
def kUnitsK : UInt32 := 63
def kReliabilityNoFault : UInt32 := 0
def kReliabilityUnknown : UInt32 := 0xFFFFFFFF

/-- The bits of -40. -/
def kMinPlausibleC : UInt32 := 0xC2200000
/-- The bits of 120. -/
def kMaxPlausibleC : UInt32 := 0x42F00000

/-- From Fahrenheit `(v - 32) * 5 / 9`, from Kelvin `v - 273.15`. -/
def bacnetToCelsius (ops : FloatOps) (v units : UInt32) : UInt32 :=
  if units = kUnitsF then ops.div (ops.mul (ops.sub v 0x42000000) 0x40A00000) 0x41100000
  else if units = kUnitsK then ops.sub v 0x43889333
  else v

def plausibleCelsius (ops : FloatOps) (celsius : UInt32) : Bool :=
  ops.le kMinPlausibleC celsius && ops.le celsius kMaxPlausibleC

def unitsSupported (units : UInt32) : Bool :=
  units == kUnitsC || units == kUnitsF || units == kUnitsK

/-- Fault or out of service. -/
def bacnetStatusFault (bits : UInt8) : Bool := bits &&& 0x40 != 0 || bits &&& 0x10 != 0

/-! ### Requests -/

/-- One attempt at a request: whether its time was over before, whether it could be
sent, and the datagrams that came before the time was over. -/
structure Attempt where
  expired : Bool := false
  sent : Bool := true
  datagrams : List (List UInt8) := []

/-- What comes back for one request. -/
structure Replies where
  first : Attempt := {}
  second : Attempt := {}

/-- What outlives an exchange: the receive buffer, the values and the last invoke id. -/
structure WorkerContext where
  rx : List UInt8 := List.replicate kMaxFrame 0
  values : Vector PropertyValue 8 := Vector.replicate 8 {}
  invoke : UInt8 := 0

/-- The worker's buffers, and whether the socket is open. -/
structure Session extends WorkerContext where
  connected : Bool := true

/-- Zero is no invoke id. -/
def nextInvoke (invoke : UInt8) : UInt8 :=
  if invoke + 1 = 0 then invoke + 2 else invoke + 1

/-- The first datagram that answers, received into the buffer like those before it.
An empty one ends the attempt. -/
def awaitReply (invoke service : UInt8) (expected : ObjectId) :
    List (List UInt8) → List UInt8 → Option ℕ × List UInt8
  | [], rx => (none, rx)
  | datagram :: datagrams, rx =>
      let frame := datagram.take kMaxFrame
      if frame = [] then (none, rx)
      else
        let rx := frame ++ rx.drop frame.length
        if frameMatchesObject rx frame.length invoke service expected then (some frame.length, rx)
        else awaitReply invoke service expected datagrams rx

/-- The length of the answer in the buffer. The socket is closed when no attempt is
answered, but not when one could not be sent. -/
def requestAttempts (invoke service : UInt8) (expected : ObjectId) :
    List Attempt → Session → Except SensorError ℕ × Session
  | [], s => (.error .timeout, { s with connected := false })
  | attempt :: attempts, s =>
      if attempt.expired then (.error .timeout, { s with connected := false })
      else if !attempt.sent then (.error .timeout, s)
      else
        match awaitReply invoke service expected attempt.datagrams s.rx with
        | (some len, rx) => (.ok len, { s with rx := rx })
        | (none, rx) => requestAttempts invoke service expected attempts { s with rx := rx }

def request (replies : Replies) (invoke service : UInt8) (expected : ObjectId) (s : Session) :
    Except SensorError ℕ × Session :=
  if !s.connected then (.error .connect, s)
  else requestAttempts invoke service expected [replies.first, replies.second] s

/-- Why a property was not read. -/
structure ReadFailure where
  error : SensorError
  exception : UInt8 := 0
  errorClass : UInt8 := 0
deriving DecidableEq, Repr

def propertyFailure (p : Parse) (info : ErrorInfo) : ReadFailure :=
  match p with
  | .error => { error := .rejected, exception := info.errorCode, errorClass := info.errorClass }
  | .reject | .abort => { error := .rejected, exception := info.reason }
  | _ => { error := .protocol }

/-- `bacnet_read_property_value`; with an array index, `bacnet_read_property`. -/
def readProperty (object : ObjectId) (property : UInt32) (arrayIndex : Option UInt32)
    (replies : Replies) (s : Session) : Except ReadFailure Value × Session :=
  let invoke := nextInvoke s.invoke
  let s := { s with invoke := invoke }
  match buildReadProperty invoke object.type object.inst property arrayIndex kMaxFrame with
  | none => (.error { error := .protocol }, s)
  | some _ =>
      match request replies invoke kServiceReadProperty object s with
      | (.error e, s) => (.error { error := e }, s)
      | (.ok len, s) =>
          match parseReadPropertyAck s.rx len invoke property {} (some object) with
          | (.ok, v, _) => (.ok v, s)
          | (p, _, info) => (.error (propertyFailure p info), s)

/-! ### Readings -/

/-- What a BACnet sensor answered, with its units and its reliability. -/
structure BacnetReading extends BacnetRead where
  units : UInt32
  reliability : UInt32
  reliabilityKnown : Bool
deriving DecidableEq

def BacnetReading.initial : BacnetReading where
  error := .none
  exception := 0
  errorClass := 0
  celsius := 0
  objectName := .zero
  romHex := .zero
  units := 0
  reliability := kReliabilityUnknown
  reliabilityKnown := false
  deviceKnown := false
  deviceInstance := kBacnetDeviceWildcard

def BacnetReading.fail (r : BacnetReading) (failure : ReadFailure) : BacnetReading :=
  { r with
    error := failure.error
    exception := failure.exception
    errorClass := failure.errorClass }

def mapBacnetParse (p : Parse) (info : ErrorInfo) : ReadFailure :=
  match p with
  | .error => { error := .rejected, errorClass := info.errorClass, exception := info.errorCode }
  | .reject | .abort => { error := .rejected, exception := info.reason }
  | .notFound => { error := .noReading }
  | _ => { error := .protocol }

/-- The instance in the device's own object identifier. -/
def readDeviceInstance (replies : Replies) (s : Session) : Except ReadFailure UInt32 × Session :=
  match readProperty ⟨.device, kDeviceWildcard⟩ propObjectIdentifier none replies s with
  | (.error failure, s) => (.error failure, s)
  | (.ok v, s) =>
      if v.type = .objectId ∧ v.object.type = .device then (.ok v.object.inst, s)
      else (.error { error := .protocol }, s)

def bacnetObjectType (cfg : SensorConfig) : ObjectType :=
  if cfg.bacnetType = .analogValue then .analogValue else .analogInput

/-- The object a sensor is configured to. -/
def expectedObject (cfg : SensorConfig) : ObjectId := ⟨bacnetObjectType cfg, cfg.bacnetInstance⟩

def props : List UInt32 :=
  [propObjectName, propPresentValue, propUnits, propStatusFlags, propReliability, propDescription]

/-- What comes back in one exchange: to the request for the device's instance, to the
one for all properties, and to those for one property each. -/
structure ExchangeReplies where
  device : Replies := {}
  multiple : Replies := {}
  single : UInt32 → Replies := fun _ => {}

/-- Those without which there is no reading. -/
def required (prop : UInt32) : Bool :=
  prop == propPresentValue || prop == propUnits || prop == propStatusFlags

/-- The properties one by one; the values are written from the first entry on. -/
def readOneByOne (object : ObjectId) (single : UInt32 → Replies) :
    List UInt32 → ℕ → Session → Except ReadFailure ℕ × Session
  | [], count, s => (.ok count, s)
  | prop :: props, count, s =>
      match readProperty object prop none (single prop) s with
      | (.ok v, s) =>
          if h : count < 8 then
            let pv := { s.values[count] with object := object, property := prop, value := v }
            readOneByOne object single props (count + 1) { s with values := s.values.set count pv }
          else if required prop then (.error { error := .none }, s)
          else readOneByOne object single props count s
      | (.error failure, s) =>
          if required prop then (.error failure, s) else readOneByOne object single props count s

/-- The number of values read, which are in the worker's buffer. -/
def acquireValues (object : ObjectId) (replies : ExchangeReplies) (s : Session) :
    Except ReadFailure ℕ × Session :=
  let invoke := nextInvoke s.invoke
  let s := { s with invoke := invoke }
  match buildReadPropertyMultiple invoke object.type object.inst props kMaxFrame with
  | none => (.error { error := .protocol }, s)
  | some _ =>
      match request replies.multiple invoke kServiceReadPropertyMultiple object s with
      | (.error e, s) => (.error { error := e }, s)
      | (.ok len, s) =>
          let ack := parseReadPropertyMultipleAck s.rx len invoke s.values (some object)
          let s := { s with values := ack.out }
          match ack.parse with
          | .ok => (.ok ack.count, s)
          | .reject | .error => readOneByOne object replies.single props 0 s
          | p => (.error (mapBacnetParse p ack.err), s)

/-- The reading while the values are looked at. -/
structure Gathered where
  reading : BacnetReading
  haveValue : Bool := false
  haveUnits : Bool := false
  haveStatus : Bool := false
  statusBits : UInt8 := 0
deriving DecidableEq

/-- The string in a value's array. -/
def Value.string (v : Value) : List UInt8 := v.str.cstr

/-- Sixteen hex digits and a terminator. -/
def Value.hex16 (v : Value) : Bool :=
  (List.range 16).all (fun i => hexDigit ((List.ofFn v.str).getD i 0)) &&
    (List.ofFn v.str).getD 16 0 == 0

def applyBacnetValue (prop : UInt32) (v : Value) (g : Gathered) : Gathered :=
  if prop = propObjectName then
    if v.type = .string then
      { g with reading.objectName := g.reading.objectName.strlcpy v.string }
    else g
  else if prop = propPresentValue then
    if v.type = .real then { g with reading.celsius := v.real, haveValue := true } else g
  else if prop = propUnits then
    if v.type = .enumerated then { g with reading.units := v.u, haveUnits := true } else g
  else if prop = propStatusFlags then
    if v.type = .bitString ∧ 4 ≤ v.bitCount then { g with statusBits := v.bits, haveStatus := true }
    else g
  else if prop = propReliability then
    if v.type = .enumerated then
      { g with reading.reliability := v.u, reading.reliabilityKnown := true }
    else g
  else if prop = propDescription then
    if v.type = .string ∧ v.hex16 then
      { g with reading.romHex := g.reading.romHex.strlcpy v.string }
    else g
  else g

/-- One entry: an error of the present value is a missing reading, any other error is
passed over. -/
def gatherEntry (g : Gathered) (pv : PropertyValue) : Gathered :=
  if pv.error then
    if pv.property = propPresentValue then { g with reading.error := .noReading } else g
  else applyBacnetValue pv.property pv.value g

/-- Whether the values looked at are a reading. -/
def judge (ops : FloatOps) (g : Gathered) : BacnetReading :=
  let r := g.reading
  if r.error ≠ .none then r
  else if !g.haveValue then { r with error := .noReading }
  else if !g.haveUnits || !unitsSupported r.units then { r with error := .units }
  else if !g.haveStatus then { r with error := .protocol }
  else if (r.reliabilityKnown && r.reliability != kReliabilityNoFault)
      || bacnetStatusFault g.statusBits then { r with error := .noReading }
  else
    let celsius := bacnetToCelsius ops r.celsius r.units
    { r with
      celsius := celsius
      error := if plausibleCelsius ops celsius then .none else .outOfRange }

def bacnetReadValue (ops : FloatOps) (cfg : SensorConfig) (replies : ExchangeReplies)
    (s : Session) : BacnetReading × Session :=
  match readDeviceInstance replies.device s with
  | (.error failure, s) => (BacnetReading.initial.fail failure, s)
  | (.ok device, s) =>
      let r := { BacnetReading.initial with deviceKnown := true, deviceInstance := device }
      if cfg.bacnetDeviceKnown && device != cfg.bacnetDeviceInstance then
        (r.fail { error := .wrongDevice }, s)
      else
        match acquireValues (expectedObject cfg) replies s with
        | (.error failure, s) => (r.fail failure, s)
        | (.ok count, s) =>
            (judge ops ((s.values.toList.take count).foldl gatherEntry { reading := r }), s)

/-! ### The worker -/

/-- A request of a browse. -/
inductive BrowseRequestMade where
  | property (object : ObjectId) (property : UInt32) (arrayIndex : Option UInt32)
      (replies : Replies)
  | values (object : ObjectId) (replies : Replies)

def browseProps : List UInt32 :=
  [propObjectName, propPresentValue, propUnits, propReliability, propStatusFlags, propDescription]

/-- What a request of a browse leaves in the worker's buffers. -/
def browseRequest (s : Session) : BrowseRequestMade → Session
  | .property object property arrayIndex replies =>
      (readProperty object property arrayIndex replies s).2
  | .values object replies =>
      let invoke := nextInvoke s.invoke
      let s := { s with invoke := invoke }
      match buildReadPropertyMultiple invoke object.type object.inst browseProps kMaxFrame with
      | none => s
      | some _ =>
          match request replies invoke kServiceReadPropertyMultiple object s with
          | (.error _, s) => s
          | (.ok len, s) =>
              { s with
                values := (parseReadPropertyMultipleAck s.rx len invoke s.values (some object)).out }

/-- What uses the worker's buffers: a poll or a test of a sensor, and a browse with
the requests it makes. -/
inductive WorkerExchange where
  | poll (cfg : SensorConfig) (replies : ExchangeReplies)
  | browse (requests : List BrowseRequestMade)

/-- Every exchange has a socket of its own. -/
def WorkerExchange.run (ops : FloatOps) (w : WorkerContext) : WorkerExchange → WorkerContext
  | .poll cfg replies => (bacnetReadValue ops cfg replies { toWorkerContext := w }).2.toWorkerContext
  | .browse requests => (requests.foldl browseRequest { toWorkerContext := w }).toWorkerContext

/-- The buffers after some exchanges; before the first they are zeroed. -/
def workerAfter (ops : FloatOps) (exchanges : List WorkerExchange) : WorkerContext :=
  exchanges.foldl (WorkerExchange.run ops) {}

end Bacnet

end ArcticController

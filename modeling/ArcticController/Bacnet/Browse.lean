/-
Browsing a BACnet device (`run_browse_internal` of `ext_temp_sensors.cpp`): its object
list is read entry by entry, and the analog objects in it are listed as sensors.

* `BrowseSensor`, `BrowseResult`: what is handed out, the sensors in an array;
* `bacnetReadProperty`: one property, with what an exception leaves in the result;
* `applyBrowseValue`, `browseEntry`, `fillSlot`: the values of an object, written to
  the next slot of the array, which is listed if its units are supported;
* `browseTurn`, `browseLoop`: one entry of the object list, and all of them;
* `browseDevice`, `runBrowse`: what is asked first, and the whole browse.
-/
import ArcticController.Bacnet.BacnetClient

namespace ArcticController

namespace Bacnet

/-! ### The result -/

def kBrowseMaxObjects : ℕ := 512
def kBrowseMaxResults : ℕ := 64

structure BrowseSensor where
  objectType : BacnetObjectType := .analogInput
  objectInstance : UInt32 := 0
  objectName : CharArray 41 := .zero
  celsius : UInt32 := 0
  units : UInt32 := 0
  reliability : UInt32 := 0
  reliabilityKnown : Bool := false
  available : Bool := false
  romValid : Bool := false
  romHex : CharArray 17 := .zero

/-- The last exception a device answered with. -/
structure LastException where
  exception : UInt8 := 0
  errorClass : UInt8 := 0

structure BrowseResult extends LastException where
  error : SensorError := .none
  deviceName : CharArray 41 := .zero
  modelName : CharArray 41 := .zero
  deviceInstanceKnown : Bool := false
  deviceInstance : UInt32 := 0
  sensors : Vector BrowseSensor kBrowseMaxResults := .replicate kBrowseMaxResults {}
  count : ℕ := 0
  totalObjects : UInt32 := 0
  scanned : ℕ := 0
  truncated : Bool := false

/-! ### One property -/

/-- `bacnet_read_property`; `late` if its time is over before. -/
def bacnetReadProperty (late : Bool) (object : ObjectId) (property : UInt32)
    (arrayIndex : Option UInt32) (replies : Replies) (ex : LastException) (s : Session) :
    Except SensorError Value × LastException × Session :=
  if late then (.error .timeout, ex, s)
  else
    let invoke := nextInvoke s.invoke
    let s := { s with invoke := invoke }
    match buildReadProperty invoke object.type object.inst property arrayIndex kMaxFrame with
    | none => (.error .protocol, ex, s)
    | some _ =>
        match request replies invoke kServiceReadProperty object s with
        | (.error e, s) => (.error e, ex, s)
        | (.ok len, s) =>
            match parseReadPropertyAck s.rx len invoke property {} (some object) with
            | (.ok, v, _) => (.ok v, ex, s)
            | (.error, _, info) =>
                (.error .rejected, { exception := info.errorCode, errorClass := info.errorClass }, s)
            | (.reject, _, info) | (.abort, _, info) =>
                (.error .rejected, { ex with exception := info.reason }, s)
            | _ => (.error .protocol, ex, s)

/-! ### One object -/

/-- The slot while the values are looked at. -/
structure BrowseGathered where
  sensor : BrowseSensor
  haveValue : Bool := false
  haveUnits : Bool := false
  haveStatus : Bool := false
  statusBits : UInt8 := 0

def applyBrowseValue (prop : UInt32) (v : Value) (g : BrowseGathered) : BrowseGathered :=
  if prop = propObjectName then
    if v.type = .string then
      { g with sensor.objectName := g.sensor.objectName.strlcpy v.string }
    else g
  else if prop = propPresentValue then
    if v.type = .real then { g with sensor.celsius := v.real, haveValue := true } else g
  else if prop = propUnits then
    if v.type = .enumerated then { g with sensor.units := v.u, haveUnits := true } else g
  else if prop = propReliability then
    if v.type = .enumerated then
      { g with sensor.reliability := v.u, sensor.reliabilityKnown := true }
    else g
  else if prop = propStatusFlags then
    if v.type = .bitString ∧ 4 ≤ v.bitCount then { g with statusBits := v.bits, haveStatus := true }
    else g
  else if prop = propDescription then
    if v.type = .string ∧ v.hex16 then
      { g with sensor.romValid := true, sensor.romHex := g.sensor.romHex.strlcpy v.string }
    else g
  else g

/-- An error of any property is passed over. -/
def browseEntry (g : BrowseGathered) (pv : PropertyValue) : BrowseGathered :=
  if pv.error then g else applyBrowseValue pv.property pv.value g

def perfBacnetType (type : ObjectType) : BacnetObjectType :=
  if type = .analogValue then .analogValue else .analogInput

/-- The slot as it is when the first value is looked at: the rest is what it was. -/
def BrowseSensor.start (slot : BrowseSensor) (object : ObjectId) : BrowseSensor :=
  { slot with
    objectType := perfBacnetType object.type
    objectInstance := object.inst
    reliability := kReliabilityUnknown }

/-- What the values say in the end, for a sensor whose units are supported. -/
def BrowseGathered.listed (ops : FloatOps) (g : BrowseGathered) : BrowseSensor :=
  let celsius := if g.haveValue then bacnetToCelsius ops g.sensor.celsius g.sensor.units
    else g.sensor.celsius
  { g.sensor with
    celsius := celsius
    available := g.haveValue && g.haveStatus && !bacnetStatusFault g.statusBits
      && (!g.sensor.reliabilityKnown || g.sensor.reliability == kReliabilityNoFault)
      && plausibleCelsius ops celsius }

/-- The values of an object go to the next slot, which counts if the units are
supported and is used again by the next object if not. -/
def fillSlot (ops : FloatOps) (object : ObjectId) (values : List PropertyValue)
    (out : BrowseResult) (h : out.count < kBrowseMaxResults) : BrowseResult :=
  let g := values.foldl browseEntry { sensor := out.sensors[out.count].start object }
  if !g.haveUnits || !unitsSupported g.sensor.units then
    { out with sensors := out.sensors.set out.count g.sensor }
  else
    { out with sensors := out.sensors.set out.count (g.listed ops), count := out.count + 1 }

/-! ### The object list -/

/-- What happens at one entry of the object list: whether the browse is called off
before, whether its time is over before, before the entry is asked for and before the
values are, and what comes back. -/
structure BrowseTurn where
  cancelled : Bool := false
  expired : Bool := false
  entryLate : Bool := false
  entry : Replies := {}
  valuesLate : Bool := false
  values : Replies := {}

/-- The buffers of the worker, and the result so far. -/
structure Browsing where
  session : Session
  out : BrowseResult

/-- How a turn of the loop ends. -/
inductive TurnEnd where
  | next
  | stop
  | cancelled
deriving DecidableEq, Repr

/-- The object an entry names, if it is an analog input or value. -/
def Value.analogObject (v : Value) : Option ObjectId :=
  if v.type = .objectId ∧ (v.object.type = .analogInput ∨ v.object.type = .analogValue) then
    some v.object
  else none

/-- One entry of the object list; the invoke id is taken before the time is looked at. -/
def browseTurn (ops : FloatOps) (device : UInt32) (idx : ℕ) (turn : BrowseTurn) (b : Browsing)
    (h : b.out.count < kBrowseMaxResults) : TurnEnd × Browsing :=
  if turn.cancelled then (.cancelled, { b with out.error := .timeout })
  else if turn.expired then (.stop, { b with out.truncated := true })
  else
    match bacnetReadProperty turn.entryLate ⟨.device, device⟩ propObjectList (some (UInt32.ofNat idx))
      turn.entry b.out.toLastException b.session with
    | (.error _, ex, s) => (.next, ⟨s, { b.out with toLastException := ex, scanned := idx }⟩)
    | (.ok v, ex, s) =>
        let out := { b.out with toLastException := ex, scanned := idx }
        match v.analogObject with
        | none => (.next, ⟨s, out⟩)
        | some object =>
            let invoke := nextInvoke s.invoke
            let s := { s with invoke := invoke }
            if turn.valuesLate then (.stop, ⟨s, { out with truncated := true }⟩)
            else
              match buildReadPropertyMultiple invoke object.type object.inst browseProps
                kMaxFrame with
              | none => (.next, ⟨s, out⟩)
              | some _ =>
                  match request turn.values invoke kServiceReadPropertyMultiple object s with
                  | (.error _, s) => (.next, ⟨s, out⟩)
                  | (.ok len, s) =>
                      let ack := parseReadPropertyMultipleAck s.rx len invoke s.values (some object)
                      let s := { s with values := ack.out }
                      if ack.parse ≠ .ok then (.next, ⟨s, out⟩)
                      else
                        (.next, ⟨s, fillSlot ops object (s.values.toList.take ack.count) out h⟩)

/-- At most `n` entries from `idx` on, as long as there are free slots. -/
def browseLoop (ops : FloatOps) (device : UInt32) (turns : ℕ → BrowseTurn) :
    ℕ → ℕ → Browsing → TurnEnd × Browsing
  | _, 0, b => (.next, b)
  | idx, n + 1, b =>
      if h : b.out.count < kBrowseMaxResults then
        match browseTurn ops device idx (turns idx) b h with
        | (.next, b) => browseLoop ops device turns (idx + 1) n b
        | r => r
      else (.next, b)

/-! ### The browse -/

/-- What comes back for a property, and whether the time was over before. -/
structure PropertyReplies where
  late : Bool := false
  replies : Replies := {}

/-- What happens in a browse: whether the socket opens, and what comes back for the
identifier of the device, its two names, the length of its object list and the
entries. -/
structure BrowseReplies where
  openError : SensorError := .none
  identifier : PropertyReplies := {}
  objectName : PropertyReplies := {}
  modelName : PropertyReplies := {}
  listLength : PropertyReplies := {}
  turns : ℕ → BrowseTurn := fun _ => {}

/-- A property of the device itself. -/
def readDeviceProperty (device property : UInt32) (arrayIndex : Option UInt32) (r : PropertyReplies)
    (b : Browsing) : Except SensorError Value × Browsing :=
  match bacnetReadProperty r.late ⟨.device, device⟩ property arrayIndex r.replies
    b.out.toLastException b.session with
  | (v, ex, s) => (v, ⟨s, { b.out with toLastException := ex }⟩)

/-- A name of the device, if it has one. -/
def readDeviceName (device property : UInt32) (r : PropertyReplies) (name : CharArray 41)
    (b : Browsing) : CharArray 41 × Browsing :=
  match readDeviceProperty device property none r b with
  | (.ok v, b) => (if v.type = .string then name.strlcpy v.string else name, b)
  | (.error _, b) => (name, b)

/-- The instance that the rest is asked of, when the length of the object list is
known. A device that does not name itself is asked under the wildcard. -/
def browseDevice (r : BrowseReplies) (b : Browsing) : Option UInt32 × Browsing :=
  match readDeviceProperty kDeviceWildcard propObjectIdentifier none r.identifier b with
  | (.error e, b) => (none, { b with out.error := e })
  | (.ok v, b) =>
      let device := if v.type = .objectId then v.object.inst else kDeviceWildcard
      let b := if v.type = .objectId then
          { b with out.deviceInstanceKnown := true, out.deviceInstance := device }
        else b
      let (deviceName, b) := readDeviceName device propObjectName r.objectName b.out.deviceName b
      let b := { b with out.deviceName := deviceName }
      let (modelName, b) := readDeviceName device propModelName r.modelName b.out.modelName b
      let b := { b with out.modelName := modelName }
      match readDeviceProperty device propObjectList (some 0) r.listLength b with
      | (.error e, b) => (none, { b with out.error := e })
      | (.ok v, b) =>
          if v.type ≠ .unsigned then (none, { b with out.error := .protocol })
          else (some device, { b with out.totalObjects := v.u })

/-- The end of a browse that was not called off. -/
def BrowseResult.finished (out : BrowseResult) : BrowseResult :=
  { out with
    truncated := out.truncated || decide (out.scanned < out.totalObjects.toNat)
      || decide (kBrowseMaxObjects ≤ out.scanned) || decide (kBrowseMaxResults ≤ out.count)
    error := .none }

def scanLimit (out : BrowseResult) : ℕ := min out.totalObjects.toNat kBrowseMaxObjects

/-- A whole browse. -/
def runBrowse (ops : FloatOps) (host : CharArray kHostMax) (port : UInt16) (r : BrowseReplies)
    (w : WorkerContext) : BrowseResult × WorkerContext :=
  if !hostValid host || port == 0 then ({ error := .resolve }, w)
  else if r.openError ≠ .none then ({ error := r.openError }, w)
  else
    match browseDevice r ⟨{ toWorkerContext := w }, {}⟩ with
    | (none, b) => (b.out, b.session.toWorkerContext)
    | (some device, b) =>
        match browseLoop ops device r.turns 1 (scanLimit b.out) b with
        | (.cancelled, b) => (b.out, b.session.toWorkerContext)
        | (_, b) => (b.out.finished, b.session.toWorkerContext)

end Bacnet

end ArcticController

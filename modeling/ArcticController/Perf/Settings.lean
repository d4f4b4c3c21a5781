/-
The heat output settings (`perf_settings.cpp`): where the supply and the return
temperature come from, and the fluid in the loop.

* `SensorConfig`, `Settings`: the settings, with `defaultSensor` and `defaults`;
* `MaconFluid`: the limits of the fluid, which the settings take from elsewhere;
* `hostValid`, `validateSensor`, `validate`: what is accepted;
* `sameSource`: whether two slots name the same sensor;
* `validateSensor_eq_none_iff`, `validate_eq_none_iff`: the conditions of an
  accepted value, all at once.
-/
import ArcticController.Base.CharArray

namespace ArcticController

/-! ### Enumerations, with the byte they are stored as -/

structure SensorSource where
  byte : UInt8
deriving DecidableEq, Repr

namespace SensorSource

def heatPump : SensorSource := ⟨0⟩
def modbusTcp : SensorSource := ⟨1⟩
def bacnetIp : SensorSource := ⟨2⟩

end SensorSource

structure RegisterType where
  byte : UInt8
deriving DecidableEq, Repr

namespace RegisterType

def input : RegisterType := ⟨0⟩
def holding : RegisterType := ⟨1⟩

end RegisterType

structure BacnetObjectType where
  byte : UInt8
deriving DecidableEq, Repr

namespace BacnetObjectType

def analogInput : BacnetObjectType := ⟨0⟩
def analogValue : BacnetObjectType := ⟨1⟩

end BacnetObjectType

structure ValueType where
  byte : UInt8
deriving DecidableEq, Repr

namespace ValueType

def int16 : ValueType := ⟨0⟩
def uint16 : ValueType := ⟨1⟩
def float32 : ValueType := ⟨2⟩
def float32Swapped : ValueType := ⟨3⟩

end ValueType

/-- The raw value that means no reading. -/
structure NoReading where
  byte : UInt8
deriving DecidableEq, Repr

namespace NoReading

def none : NoReading := ⟨0⟩
def x8000 : NoReading := ⟨1⟩
def x7fff : NoReading := ⟨2⟩
def xffff : NoReading := ⟨3⟩

end NoReading

structure LoopFluid where
  byte : UInt8
deriving DecidableEq, Repr

/-! ### The settings -/

def kHostMax : ℕ := 64
def kRomLen : ℕ := 8
def kBacnetDeviceNameMax : ℕ := 64
def kBacnetObjectNameMax : ℕ := 41
def kSlotCount : ℕ := 2

lemma supply_lt : 0 < kSlotCount := by decide

lemma return_lt : 1 < kSlotCount := by decide

def kFlowMinX10 : UInt16 := 10
def kFlowMaxX10 : UInt16 := 3000
def kFlowDefaultX10 : UInt16 := 400
def kGlycolStep : UInt8 := 5
def kGlycolDefault : UInt8 := 30
def kDefaultPort : UInt16 := 502
def kDefaultUnitId : UInt8 := 1
def kBacnetInstanceMax : UInt32 := 4194302
def kBacnetDeviceWildcard : UInt32 := 4194303
def kBacnetUnsetInstance : UInt32 := kBacnetDeviceWildcard

/-- Where one temperature comes from. -/
structure SensorConfig where
  source : SensorSource
  host : CharArray kHostMax
  port : UInt16
  unitId : UInt8
  address : UInt16
  regType : RegisterType
  bacnetType : BacnetObjectType
  bacnetInstance : UInt32
  bacnetDeviceKnown : Bool
  bacnetDeviceInstance : UInt32
  bacnetDeviceName : CharArray kBacnetDeviceNameMax
  bacnetObjectName : CharArray kBacnetObjectNameMax
  valueType : ValueType
  scaleExp : Int8
  noReading : NoReading
  romKnown : Bool
  rom : Fin kRomLen → UInt8
deriving DecidableEq

structure Settings where
  flowLpmX10 : UInt16
  fluid : LoopFluid
  glycolPct : UInt8
  sensors : Fin kSlotCount → SensorConfig
deriving DecidableEq

/-- The fluids and the highest share of glycol, of the heat pump's library. -/
structure MaconFluid where
  water : LoopFluid
  ethyleneGlycol : LoopFluid
  kGlycolPctMax : UInt8

/-- Three fluids, of which water is the first, and no more than 60 % of glycol. -/
def waterLoop : MaconFluid := ⟨⟨0⟩, ⟨2⟩, 60⟩

def defaultSensor : SensorConfig where
  source := .heatPump
  host := .zero
  port := kDefaultPort
  unitId := kDefaultUnitId
  address := 0
  regType := .input
  bacnetType := .analogInput
  bacnetInstance := kBacnetUnsetInstance
  bacnetDeviceKnown := false
  bacnetDeviceInstance := kBacnetDeviceWildcard
  bacnetDeviceName := .zero
  bacnetObjectName := .zero
  valueType := .int16
  scaleExp := -2
  noReading := .x8000
  romKnown := false
  rom := fun _ => 0

def defaults (macon : MaconFluid) : Settings where
  flowLpmX10 := kFlowDefaultX10
  fluid := macon.water
  glycolPct := kGlycolDefault
  sensors := fun _ => defaultSensor

/-! ### Validation -/

/-- A letter, a digit, or one of `.`, `-`, `_`. -/
def hostChar (c : UInt8) : Bool :=
  (97 ≤ c && c ≤ 122) || (65 ≤ c && c ≤ 90) || (48 ≤ c && c ≤ 57) || c == 46 || c == 45 || c == 95

/-- A dot or a dash, which no name begins or ends with. -/
def hostEdge (c : UInt8) : Bool := c == 46 || c == 45

/-- A host name or an address: a string shorter than its array. -/
def hostValid (host : CharArray kHostMax) : Bool :=
  let string := host.cstr
  let len := string.length
  if string.isEmpty then false
  else if len ≥ kHostMax then false
  else if hostEdge (string.getD 0 0) || hostEdge (string.getD (len - 1) 0) then false
  else
    (List.range len).all fun i =>
      hostChar (string.getD i 0) &&
        !(string.getD i 0 == 46 && i + 1 < len && string.getD (i + 1) 0 == 46)

def registerCount (t : ValueType) : ℕ := if t = .float32 ∨ t = .float32Swapped then 2 else 1

/-- What is wrong with a value. -/
inductive Invalid where
  | none
  | flow
  | fluid
  | glycol
  | source
  | host
  | port
  | register
  | registerType
  | bacnetObjectType
  | bacnetObjectInstance
  | valueType
  | scale
  | noReading
deriving DecidableEq, Repr

/-- The object instance is one that the source can name. -/
def bacnetInstanceValid (s : SensorConfig) : Bool :=
  if s.source = .bacnetIp then s.bacnetInstance ≤ kBacnetInstanceMax
  else s.bacnetInstance == kBacnetUnsetInstance || s.bacnetInstance ≤ kBacnetInstanceMax

def validateSensor (s : SensorConfig) : Invalid :=
  if s.source ≠ .heatPump ∧ s.source ≠ .modbusTcp ∧ s.source ≠ .bacnetIp then .source
  else if s.host.cstr.length ≥ kHostMax then .host
  else if (s.source = .modbusTcp ∨ s.source = .bacnetIp ∨ s.host.cstr.length > 0) ∧
      ¬ hostValid s.host then .host
  else if s.port = 0 then .port
  else if s.regType.byte > RegisterType.holding.byte then .registerType
  else if s.bacnetType.byte > BacnetObjectType.analogValue.byte then .bacnetObjectType
  else if ¬ bacnetInstanceValid s then .bacnetObjectInstance
  else if s.valueType.byte > ValueType.float32Swapped.byte then .valueType
  else if s.address.toNat + registerCount s.valueType - 1 > 0xFFFF then .register
  else if s.scaleExp > 0 ∨ s.scaleExp < -3 then .scale
  else if s.noReading.byte > NoReading.xffff.byte then .noReading
  else .none

/-- The first complaint about a slot, or none. -/
def validateSensors (sensors : Fin kSlotCount → SensorConfig) : Invalid :=
  ((List.ofFn sensors).map validateSensor).foldr (fun v rest => if v ≠ .none then v else rest) .none

def validate (macon : MaconFluid) (s : Settings) : Invalid :=
  if s.flowLpmX10 < kFlowMinX10 ∨ s.flowLpmX10 > kFlowMaxX10 then .flow
  else if s.fluid.byte > macon.ethyleneGlycol.byte then .fluid
  else if s.glycolPct > macon.kGlycolPctMax ∨ s.glycolPct % kGlycolStep ≠ 0 then .glycol
  else validateSensors s.sensors

/-- The slots name the same sensor. Scale, the raw value for no reading and the
sensor learned are left out. -/
def sameSource (a b : SensorConfig) : Bool :=
  a.source == b.source && a.host.cstr == b.host.cstr && a.port == b.port && a.unitId == b.unitId &&
    a.address == b.address && a.regType == b.regType && a.bacnetType == b.bacnetType &&
    a.bacnetInstance == b.bacnetInstance && a.bacnetDeviceKnown == b.bacnetDeviceKnown &&
    (!a.bacnetDeviceKnown || a.bacnetDeviceInstance == b.bacnetDeviceInstance) &&
    a.valueType == b.valueType

/-! ### The conditions of an accepted value -/

/-- The fields of a slot a validation looks at are in order. -/
structure SensorConfig.Valid (s : SensorConfig) : Prop where
  source : s.source = .heatPump ∨ s.source = .modbusTcp ∨ s.source = .bacnetIp
  terminated : s.host.cstr.length < kHostMax
  host : s.source ≠ .heatPump ∨ s.host.cstr.length > 0 → hostValid s.host
  port : s.port ≠ 0
  regType : s.regType.byte ≤ RegisterType.holding.byte
  bacnetType : s.bacnetType.byte ≤ BacnetObjectType.analogValue.byte
  bacnetInstance : bacnetInstanceValid s
  valueType : s.valueType.byte ≤ ValueType.float32Swapped.byte
  register : s.address.toNat + registerCount s.valueType - 1 ≤ 0xFFFF
  scale : ¬ (s.scaleExp > 0 ∨ s.scaleExp < -3)
  noReading : s.noReading.byte ≤ NoReading.xffff.byte

lemma if_ne_none_iff {c : Prop} [Decidable c] {v rest : Invalid} (hv : v ≠ .none) :
    (if c then v else rest) = .none ↔ ¬ c ∧ rest = .none := by
  by_cases hc : c
  · simp [hc, hv]
  · simp [hc]

theorem validateSensor_eq_none_iff (s : SensorConfig) : validateSensor s = .none ↔ s.Valid := by
  rw [validateSensor]
  simp only [ne_eq, reduceCtorEq, not_false_eq_true, if_ne_none_iff, and_true]
  constructor
  · rintro ⟨hsource, hlen, hhost, hport, hreg, htype, hinst, hvalue, haddr, hscale, hno⟩
    have hsource' : s.source = .heatPump ∨ s.source = .modbusTcp ∨ s.source = .bacnetIp := by tauto
    refine ⟨hsource', not_le.mp hlen, fun h => ?_, hport, UInt8.not_lt.mp hreg,
      UInt8.not_lt.mp htype, not_not.mp hinst, UInt8.not_lt.mp hvalue, not_lt.mp haddr, hscale,
      UInt8.not_lt.mp hno⟩
    by_contra hinvalid
    refine hhost ⟨?_, hinvalid⟩
    tauto
  · intro h
    refine ⟨?_, not_le.mpr h.terminated, ?_, h.port, UInt8.not_lt.mpr h.regType,
      UInt8.not_lt.mpr h.bacnetType, not_not.mpr h.bacnetInstance, UInt8.not_lt.mpr h.valueType,
      not_lt.mpr h.register, h.scale, UInt8.not_lt.mpr h.noReading⟩
    · have := h.source
      tauto
    · rintro ⟨hneeds, hinvalid⟩
      refine hinvalid (h.host ?_)
      rcases hneeds with hs | hs | hs
      · exact .inl (hs ▸ by decide)
      · exact .inl (hs ▸ by decide)
      · exact .inr hs

lemma validateSensors_eq_none_iff (sensors : Fin kSlotCount → SensorConfig) :
    validateSensors sensors = .none ↔ ∀ i, (sensors i).Valid := by
  have hlist : ∀ l : List SensorConfig,
      (l.map validateSensor).foldr (fun v rest => if v ≠ .none then v else rest) .none = .none ↔
        ∀ s ∈ l, s.Valid := by
    intro l
    induction l with
    | nil => simp
    | cons s l ih =>
        rw [List.map_cons, List.foldr_cons, List.forall_mem_cons, ← validateSensor_eq_none_iff, ← ih]
        by_cases hs : validateSensor s = .none
        · simp [hs]
        · simp [hs]
  rw [validateSensors, hlist]
  simp [List.mem_ofFn]

/-- The fields outside of the slots are in order. -/
structure Settings.LoopValid (macon : MaconFluid) (s : Settings) : Prop where
  flow : ¬ (s.flowLpmX10 < kFlowMinX10 ∨ s.flowLpmX10 > kFlowMaxX10)
  fluid : ¬ s.fluid.byte > macon.ethyleneGlycol.byte
  glycol : ¬ (s.glycolPct > macon.kGlycolPctMax ∨ s.glycolPct % kGlycolStep ≠ 0)

theorem validate_eq_none_iff (macon : MaconFluid) (s : Settings) :
    validate macon s = .none ↔ s.LoopValid macon ∧ ∀ i, (s.sensors i).Valid := by
  rw [validate, ← validateSensors_eq_none_iff]
  simp only [ne_eq, reduceCtorEq, not_false_eq_true, if_ne_none_iff]
  exact ⟨fun ⟨h1, h2, h3, h4⟩ => ⟨⟨h1, h2, h3⟩, h4⟩, fun ⟨⟨h1, h2, h3⟩, h4⟩ => ⟨h1, h2, h3, h4⟩⟩

end ArcticController

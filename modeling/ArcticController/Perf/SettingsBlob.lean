/-
The two blobs the heat output settings are stored as (`perf_settings.cpp`).

* `SensorRecord`, `sensorRecord`: one slot in the first blob, which knows nothing
  of BACnet; `serialize`, `deserialize`: the blob;
* `BacnetRecord`, `bacnetRecord`: one slot in the second one, of this version or,
  without a device name, of the one before; `serializeBacnetExt`,
  `deserializeBacnetExt`: the blob, and merging it into settings;
* `deserialize_serialize`, `deserializeBacnetExt_serialize`: what reading the
  blobs of some settings gives.
-/
import ArcticController.Perf.Settings
import ArcticController.Base.Checksums

namespace ArcticController

def kBlobVersion : UInt8 := 1
def kBacnetExtVersion : UInt8 := 2

/-- `char[n]` in a blob. -/
def charArray (n : ℕ) : Codec (CharArray n) := .array n .u8

def rom : Codec (Fin kRomLen → UInt8) := .array kRomLen .u8

/-- A flag as it is stored. -/
def flagByte (b : Bool) : UInt8 := if b then 1 else 0

/-! ### The first blob -/

/-- The fields of a slot in the first blob. -/
structure SensorRecord where
  source : UInt8
  host : CharArray kHostMax
  port : UInt16
  unitId : UInt8
  address : UInt16
  regType : UInt8
  valueType : UInt8
  scaleExp : UInt8
  noReading : UInt8
  romKnown : UInt8
  rom : Fin kRomLen → UInt8

/-- The 83 bytes of a slot. -/
def sensorRecord : Codec SensorRecord :=
  (Codec.pair .u8 <| .pair (charArray kHostMax) <| .pair .be16 <| .pair .u8 <| .pair .be16 <|
      .pair .u8 <| .pair .u8 <| .pair .u8 <| .pair .u8 <| .pair .u8 rom).iso
    (fun (source, host, port, unitId, address, regType, valueType, scaleExp, noReading, romKnown,
        rom) =>
      { source, host, port, unitId, address, regType, valueType, scaleExp, noReading, romKnown, rom })
    (fun r => (r.source, r.host, r.port, r.unitId, r.address, r.regType, r.valueType, r.scaleExp,
      r.noReading, r.romKnown, r.rom))
    (fun _ => rfl)

/-- What the checksum covers: version, flow, fluid, glycol and the slots. -/
def settingsBody : Codec (UInt8 × UInt16 × UInt8 × UInt8 × (Fin kSlotCount → SensorRecord)) :=
  .pair .u8 <| .pair .be16 <| .pair .u8 <| .pair .u8 <| .array kSlotCount sensorRecord

/-- The size of the first blob. -/
def kBlobSize : ℕ := settingsBody.size + Codec.u32.size

/-- A slot as it is stored: one on BACnet passes for the heat pump's own. -/
def SensorConfig.toRecord (s : SensorConfig) : SensorRecord where
  source := (if s.source = .bacnetIp then SensorSource.heatPump else s.source).byte
  host := .copyString kHostMax s.host.cstr
  port := s.port
  unitId := s.unitId
  address := s.address
  regType := s.regType.byte
  valueType := s.valueType.byte
  scaleExp := s.scaleExp.toUInt8
  noReading := s.noReading.byte
  romKnown := flagByte s.romKnown
  rom := s.rom

/-- A slot read back, with nothing known of BACnet. -/
def SensorRecord.toSensor (r : SensorRecord) : SensorConfig where
  source := ⟨r.source⟩
  host := r.host.terminate
  port := r.port
  unitId := r.unitId
  address := r.address
  regType := ⟨r.regType⟩
  bacnetType := .analogInput
  bacnetInstance := kBacnetUnsetInstance
  bacnetDeviceKnown := false
  bacnetDeviceInstance := kBacnetDeviceWildcard
  bacnetDeviceName := .zero
  bacnetObjectName := .zero
  valueType := ⟨r.valueType⟩
  scaleExp := r.scaleExp.toInt8
  noReading := ⟨r.noReading⟩
  romKnown := r.romKnown ≠ 0
  rom := r.rom

def blobBody (s : Settings) : List UInt8 :=
  settingsBody.enc (kBlobVersion, s.flowLpmX10, s.fluid.byte, s.glycolPct,
    fun i => (s.sensors i).toRecord)

def serialize (s : Settings) : List UInt8 :=
  blobBody s ++ Codec.u32.enc (espCrc32Le 0 (blobBody s))

/-- The checksum at the end of a blob, and the one its other bytes have. -/
def checksumValid (buf : List UInt8) : Bool :=
  espCrc32Le 0 (buf.take (buf.length - 4)) == Codec.u32.dec (buf.drop (buf.length - 4))

def deserialize (macon : MaconFluid) (buf : List UInt8) : Option Settings :=
  if buf.length ≠ kBlobSize ∨ buf.getD 0 0 ≠ kBlobVersion then none
  else if ¬ checksumValid buf then none
  else
    let (_, flowLpmX10, fluid, glycolPct, records) := settingsBody.dec buf
    let s : Settings :=
      { flowLpmX10, fluid := ⟨fluid⟩, glycolPct, sensors := fun i => (records i).toSensor }
    if validate macon s ≠ .none then none else some s

/-! ### The second blob -/

/-- The fields of a slot in the second blob. -/
structure BacnetRecord where
  enabled : UInt8
  host : CharArray kHostMax
  port : UInt16
  bacnetType : UInt8
  instance_ : UInt32
  deviceKnown : UInt8
  deviceInstance : UInt32
  deviceName : CharArray kBacnetDeviceNameMax
  objectName : CharArray kBacnetObjectNameMax
  romKnown : UInt8
  rom : Fin kRomLen → UInt8

/-- The fields before the device name. -/
def bacnetHead : Codec (UInt8 × CharArray kHostMax × UInt16 × UInt8 × UInt32 × UInt8 × UInt32) :=
  .pair .u8 <| .pair (charArray kHostMax) <| .pair .be16 <| .pair .u8 <| .pair .be32 <|
    .pair .u8 .be32

/-- The fields after the device name. -/
def bacnetTail : Codec (CharArray kBacnetObjectNameMax × UInt8 × (Fin kRomLen → UInt8)) :=
  .pair (charArray kBacnetObjectNameMax) <| .pair .u8 rom

/-- The 190 bytes of a slot. -/
def bacnetRecord : Codec BacnetRecord :=
  (Codec.pair bacnetHead <| .pair (charArray kBacnetDeviceNameMax) bacnetTail).iso
    (fun ((enabled, host, port, bacnetType, instance_, deviceKnown, deviceInstance), deviceName,
        objectName, romKnown, rom) =>
      { enabled, host, port, bacnetType, instance_, deviceKnown, deviceInstance, deviceName,
        objectName, romKnown, rom })
    (fun r => ((r.enabled, r.host, r.port, r.bacnetType, r.instance_, r.deviceKnown,
      r.deviceInstance), r.deviceName, r.objectName, r.romKnown, r.rom))
    (fun _ => rfl)

/-- The 126 bytes a slot had in version 1. -/
def bacnetRecordV1 : Codec ((UInt8 × CharArray kHostMax × UInt16 × UInt8 × UInt32 × UInt8 ×
    UInt32) × (CharArray kBacnetObjectNameMax × UInt8 × (Fin kRomLen → UInt8))) :=
  .pair bacnetHead bacnetTail

/-- What the checksum covers: version, checksum of the first blob, slots. -/
def bacnetExtBody : Codec (UInt8 × UInt32 × (Fin kSlotCount → BacnetRecord)) :=
  .pair .u8 <| .pair .be32 <| .array kSlotCount bacnetRecord

/-- The sizes of the second blob, now and in version 1. -/
def kBacnetExtSize : ℕ := bacnetExtBody.size + Codec.u32.size
def kBacnetExtV1Size : ℕ := 1 + 4 + kSlotCount * bacnetRecordV1.size + 4

def SensorConfig.toBacnetRecord (s : SensorConfig) : BacnetRecord where
  enabled := flagByte (s.source = .bacnetIp)
  host := .copyString kHostMax s.host.cstr
  port := s.port
  bacnetType := s.bacnetType.byte
  instance_ := s.bacnetInstance
  deviceKnown := flagByte s.bacnetDeviceKnown
  deviceInstance := s.bacnetDeviceInstance
  deviceName := .copyString kBacnetDeviceNameMax s.bacnetDeviceName.cstr
  objectName := .copyString kBacnetObjectNameMax s.bacnetObjectName.cstr
  romKnown := flagByte s.romKnown
  rom := s.rom

def bacnetBody (s : Settings) (primaryCrc : UInt32) : List UInt8 :=
  bacnetExtBody.enc (kBacnetExtVersion, primaryCrc, fun i => (s.sensors i).toBacnetRecord)

def serializeBacnetExt (s : Settings) (primaryCrc : UInt32) : List UInt8 :=
  bacnetBody s primaryCrc ++ Codec.u32.enc (espCrc32Le 0 (bacnetBody s primaryCrc))

/-- The slots of a second blob, from behind its version and checksum. -/
def bacnetRecords (v1 : Bool) (slots : List UInt8) (i : Fin kSlotCount) : BacnetRecord :=
  if v1 then
    let ((enabled, host, port, bacnetType, instance_, deviceKnown, deviceInstance), objectName,
      romKnown, rom) := (Codec.array kSlotCount bacnetRecordV1).dec slots i
    { enabled, host, port, bacnetType, instance_, deviceKnown, deviceInstance, deviceName := .zero,
      objectName, romKnown, rom }
  else (Codec.array kSlotCount bacnetRecord).dec slots i

/-- A slot on the heat pump that the second blob says is on BACnet. -/
def SensorConfig.merge (s : SensorConfig) (r : BacnetRecord) : SensorConfig :=
  if r.enabled = 0 ∨ s.source ≠ .heatPump then s
  else
    { s with
      source := .bacnetIp
      host := .copyString kHostMax r.host.terminate.cstr
      port := r.port
      bacnetType := ⟨r.bacnetType⟩
      bacnetInstance := r.instance_
      bacnetDeviceKnown := r.deviceKnown ≠ 0
      bacnetDeviceInstance := if r.deviceKnown ≠ 0 then r.deviceInstance else kBacnetDeviceWildcard
      bacnetDeviceName := .copyString kBacnetDeviceNameMax r.deviceName.terminate.cstr
      bacnetObjectName := .copyString kBacnetObjectNameMax r.objectName.terminate.cstr
      romKnown := r.romKnown ≠ 0
      rom := r.rom }

/-- The settings with the second blob merged in, if it belongs to the first one. -/
def deserializeBacnetExt (macon : MaconFluid) (buf : List UInt8) (primaryCrc : UInt32)
    (s : Settings) : Option Settings :=
  let v1 := buf.getD 0 0 == 1 && buf.length == kBacnetExtV1Size
  if ¬ v1 ∧ (buf.getD 0 0 ≠ kBacnetExtVersion ∨ buf.length ≠ kBacnetExtSize) then none
  else if ¬ checksumValid buf then none
  else if Codec.be32.dec (buf.drop 1) ≠ primaryCrc then none
  else
    let records := bacnetRecords v1 (buf.drop 5)
    let merged : Settings := { s with sensors := fun i => (s.sensors i).merge (records i) }
    if validate macon merged ≠ .none then none else some merged

/-! ### Reading a blob that was written -/

lemma getD_enc_u8 {α : Type} (c : Codec α) (v : UInt8) (a : α) (rest : List UInt8) :
    ((Codec.pair .u8 c).enc (v, a) ++ rest).getD 0 0 = v := by
  have hv : Codec.u8.enc v = [v] := by
    show [UInt8.ofNat v.toNat] = [v]
    rw [UInt8.ofNat_toNat]
  show ((Codec.u8.enc v ++ c.enc a) ++ rest).getD 0 0 = v
  rw [hv]
  rfl

/-- The bytes behind the first field. -/
lemma drop_enc_pair {α β : Type} (c : Codec α) (d : Codec β) (a : α) (b : β) (rest : List UInt8) :
    ((Codec.pair c d).enc (a, b) ++ rest).drop c.size = d.enc b ++ rest := by
  show ((c.enc a ++ d.enc b) ++ rest).drop c.size = d.enc b ++ rest
  rw [List.append_assoc, List.drop_left' (c.length_enc a)]

/-- A body with its checksum behind it. -/
lemma checksumValid_append (body : List UInt8) :
    checksumValid (body ++ Codec.u32.enc (espCrc32Le 0 body)) := by
  have hlen : (body ++ Codec.u32.enc (espCrc32Le 0 body)).length - 4 = body.length := by
    rw [List.length_append, Codec.length_enc]
    rfl
  rw [checksumValid, hlen, List.take_left, List.drop_left, Codec.dec_enc, beq_self_eq_true]

lemma length_blobBody (s : Settings) : (blobBody s).length = settingsBody.size :=
  settingsBody.length_enc _

lemma length_serialize (s : Settings) : (serialize s).length = kBlobSize := by
  rw [serialize, List.length_append, length_blobBody, Codec.length_enc, kBlobSize]

/-- The settings as the first blob alone has them. -/
def Settings.primary (s : Settings) : Settings :=
  { s with sensors := fun i => (s.sensors i).toRecord.toSensor }

/-- Reading a first blob that was written, up to its validation. -/
lemma deserialize_serialize (macon : MaconFluid) (s : Settings) :
    deserialize macon (serialize s)
      = if validate macon s.primary ≠ .none then none else some s.primary := by
  have hversion : (serialize s).getD 0 0 = kBlobVersion := getD_enc_u8 _ _ _ _
  have hsum : checksumValid (serialize s) := checksumValid_append _
  have hbody : settingsBody.dec (serialize s) = (kBlobVersion, s.flowLpmX10, s.fluid.byte,
      s.glycolPct, fun i => (s.sensors i).toRecord) := settingsBody.dec_enc_append _ _
  rw [deserialize, if_neg (by simp only [length_serialize, hversion, ne_eq, not_true_eq_false,
    or_self, not_false_eq_true]), if_neg (not_not.mpr hsum), hbody]
  rfl

lemma length_bacnetBody (s : Settings) (primaryCrc : UInt32) :
    (bacnetBody s primaryCrc).length = bacnetExtBody.size := bacnetExtBody.length_enc _

lemma length_serializeBacnetExt (s : Settings) (primaryCrc : UInt32) :
    (serializeBacnetExt s primaryCrc).length = kBacnetExtSize := by
  rw [serializeBacnetExt, List.length_append, length_bacnetBody, Codec.length_enc, kBacnetExtSize]

/-- The settings `t` with the BACnet slots of `s`. -/
def Settings.mergeAll (t s : Settings) : Settings :=
  { t with sensors := fun i => (t.sensors i).merge (s.sensors i).toBacnetRecord }

/-- Reading a second blob that was written, up to its validation. -/
lemma deserializeBacnetExt_serialize (macon : MaconFluid) (s t : Settings) (crc crc' : UInt32) :
    deserializeBacnetExt macon (serializeBacnetExt s crc) crc' t
      = if crc ≠ crc' then none
        else if validate macon (t.mergeAll s) ≠ .none then none else some (t.mergeAll s) := by
  have hversion : (serializeBacnetExt s crc).getD 0 0 = kBacnetExtVersion := getD_enc_u8 _ _ _ _
  have hsum : checksumValid (serializeBacnetExt s crc) := checksumValid_append _
  have hv1 : (kBacnetExtVersion == 1 && kBacnetExtSize == kBacnetExtV1Size) = false := rfl
  have hrest : (serializeBacnetExt s crc).drop 1 = Codec.be32.enc crc ++
      ((Codec.array kSlotCount bacnetRecord).enc (fun i => (s.sensors i).toBacnetRecord) ++
        Codec.u32.enc (espCrc32Le 0 (bacnetBody s crc))) :=
    (drop_enc_pair Codec.u8 _ _ _ _).trans (List.append_assoc _ _ _)
  have hcrc : Codec.be32.dec ((serializeBacnetExt s crc).drop 1) = crc := by
    rw [hrest, Codec.be32.dec_enc_append]
  have hslots : bacnetRecords false ((serializeBacnetExt s crc).drop 5)
      = fun i => (s.sensors i).toBacnetRecord := by
    have hdrop : (serializeBacnetExt s crc).drop 5
        = ((serializeBacnetExt s crc).drop 1).drop Codec.be32.size := by
      rw [List.drop_drop]
      rfl
    rw [hdrop, hrest, List.drop_left' (Codec.be32.length_enc _)]
    funext i
    rw [bacnetRecords, if_neg Bool.false_ne_true, Codec.dec_enc_append]
  rw [deserializeBacnetExt]
  simp only [hversion, length_serializeBacnetExt, hv1, hcrc]
  rw [if_neg (by simp), if_neg (not_not.mpr hsum), hslots]
  rfl

end ArcticController

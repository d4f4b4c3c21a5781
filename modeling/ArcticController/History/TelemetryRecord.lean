/-
The telemetry records (`history_storage.cpp`): a sample in 40 bytes of flash, and
back.

* `TelemetrySample`: a sample, with the flags of its optional values;
* `TelemetryRecord`, `telemetryRecord`: format 2 and its layout;
* `packTelemetryRecord`, `decodeV2Record`: the writer and the reader;
* `canonicalSample`: what a sample says, without what no flag vouches for;
* `telemetry_round_trip`: a record written is read back as the canonical sample.
-/
import ArcticController.History.EventRecord
import Mathlib.Data.FinEnum

namespace ArcticController

/-! ### Samples -/

def telemetryModeHotWater : UInt8 := 3

def telemetryTankValid : UInt8 := 0x40
def telemetryPowerValid : UInt8 := 0x80

def telemetryHeatValid : UInt8 := 0x01
def telemetryCopValid : UInt8 := 0x02
def telemetryOutdoorCoilValid : UInt8 := 0x04
def telemetryOutdoorAirValid : UInt8 := 0x08

/-- A sample (`history_telemetry_sample_t`). -/
structure TelemetrySample where
  timestamp : UInt32 := 0
  sequence : UInt32 := 0
  inletDeciC : Int16 := 0
  outletDeciC : Int16 := 0
  setpointDeciC : Int16 := 0
  mode : UInt8 := 0
  flags : UInt8 := 0
  tankDeciC : Int16 := 0
  averagePowerW : UInt16 := 0
  averageHeatW : UInt16 := 0
  averageCopX100 : UInt16 := 0
  outdoorCoilDeciC : Int16 := 0
  outdoorAirDeciC : Int16 := 0
  flags2 : UInt8 := 0
deriving DecidableEq, Repr

/-- A record of format 2 (`telemetry_record_t`). -/
structure TelemetryRecord where
  sequence : UInt32
  timestamp : UInt32
  inletDeciC : Int16
  outletDeciC : Int16
  setpointDeciC : Int16
  mode : UInt8
  flags : UInt8
  tankDeciC : Int16
  averagePowerW : UInt16
  averageHeatW : UInt16
  averageCopX100 : UInt16
  outdoorCoilDeciC : Int16
  outdoorAirDeciC : Int16
  flags2 : UInt8
  spare : Fin 7 → UInt8
  crc32 : UInt32

/-- The 36 bytes of a record its checksum covers. -/
def telemetryBody : Codec (UInt32 × UInt32 × Int16 × Int16 × Int16 × UInt8 × UInt8 × Int16 ×
    UInt16 × UInt16 × UInt16 × Int16 × Int16 × UInt8 × (Fin 7 → UInt8)) :=
  .pair .u32 <| .pair .u32 <| .pair .i16 <| .pair .i16 <| .pair .i16 <| .pair .u8 <| .pair .u8 <|
    .pair .i16 <| .pair .u16 <| .pair .u16 <| .pair .u16 <| .pair .i16 <| .pair .i16 <|
    .pair .u8 <| .array 7 .u8

def TelemetryRecord.body (r : TelemetryRecord) : UInt32 × UInt32 × Int16 × Int16 × Int16 × UInt8 ×
    UInt8 × Int16 × UInt16 × UInt16 × UInt16 × Int16 × Int16 × UInt8 × (Fin 7 → UInt8) :=
  (r.sequence, r.timestamp, r.inletDeciC, r.outletDeciC, r.setpointDeciC, r.mode, r.flags,
    r.tankDeciC, r.averagePowerW, r.averageHeatW, r.averageCopX100, r.outdoorCoilDeciC,
    r.outdoorAirDeciC, r.flags2, r.spare)

/-- The 40 bytes of a record. -/
def telemetryRecord : Codec TelemetryRecord :=
  (Codec.pair telemetryBody .u32).iso
    (fun ((sequence, timestamp, inletDeciC, outletDeciC, setpointDeciC, mode, flags, tankDeciC,
        averagePowerW, averageHeatW, averageCopX100, outdoorCoilDeciC, outdoorAirDeciC, flags2,
        spare), crc32) =>
      { sequence, timestamp, inletDeciC, outletDeciC, setpointDeciC, mode, flags, tankDeciC,
        averagePowerW, averageHeatW, averageCopX100, outdoorCoilDeciC, outdoorAirDeciC, flags2,
        spare, crc32 })
    (fun r => (r.body, r.crc32)) (fun _ => rfl)

/-- The checksum of a record: everything before the checksum itself. -/
def telemetryRecordCrc (r : TelemetryRecord) : UInt32 := espCrc32Le 0 (telemetryBody.enc r.body)

/-! ### Writing and reading -/

/-- The record of a sample. What no flag vouches for is left erased, and the erased
marker is no reading of power, heat or COP. -/
def packTelemetryRecord (sample : TelemetrySample) (sequence : UInt32) : TelemetryRecord :=
  let flags := sample.flags
  let flags2 := sample.flags2 &&&
    (telemetryHeatValid ||| telemetryCopValid ||| telemetryOutdoorCoilValid |||
      telemetryOutdoorAirValid)
  let tank := flags &&& telemetryTankValid != 0
  let power := flags &&& telemetryPowerValid != 0 && sample.averagePowerW != 0xFFFF
  let flags := if power then flags else flags &&& ~~~telemetryPowerValid
  let heat := flags2 &&& telemetryHeatValid != 0 && sample.averageHeatW != 0xFFFF
  let flags2 := if heat then flags2 else flags2 &&& ~~~telemetryHeatValid
  let cop := flags2 &&& telemetryCopValid != 0 && sample.averageCopX100 != 0xFFFF
  let flags2 := if cop then flags2 else flags2 &&& ~~~telemetryCopValid
  let coil := flags2 &&& telemetryOutdoorCoilValid != 0
  let air := flags2 &&& telemetryOutdoorAirValid != 0
  let record : TelemetryRecord := {
    sequence := sequence
    timestamp := sample.timestamp
    inletDeciC := sample.inletDeciC
    outletDeciC := sample.outletDeciC
    setpointDeciC := sample.setpointDeciC
    mode := sample.mode
    flags := flags
    tankDeciC := if tank then sample.tankDeciC else -1
    averagePowerW := if power then sample.averagePowerW else 0xFFFF
    averageHeatW := if heat then sample.averageHeatW else 0xFFFF
    averageCopX100 := if cop then sample.averageCopX100 else 0xFFFF
    outdoorCoilDeciC := if coil then sample.outdoorCoilDeciC else -1
    outdoorAirDeciC := if air then sample.outdoorAirDeciC else -1
    flags2 := flags2
    spare := fun _ => 0xFF
    crc32 := 0xFFFFFFFF }
  { record with crc32 := telemetryRecordCrc record }

def decodeV2Record (bytes : List UInt8) : Option TelemetrySample :=
  let record := telemetryRecord.dec bytes
  if record.sequence == 0 || record.sequence == 0xFFFFFFFF || telemetryModeHotWater < record.mode
      || record.crc32 != telemetryRecordCrc record then none
  else
    let power := record.flags &&& telemetryPowerValid != 0 && record.averagePowerW != 0xFFFF
    let flags := if power then record.flags else record.flags &&& ~~~telemetryPowerValid
    let flags2 := record.flags2
    let heat := flags2 &&& telemetryHeatValid != 0 && record.averageHeatW != 0xFFFF
    let flags2 := if heat then flags2 else flags2 &&& ~~~telemetryHeatValid
    let cop := flags2 &&& telemetryCopValid != 0 && record.averageCopX100 != 0xFFFF
    let flags2 := if cop then flags2 else flags2 &&& ~~~telemetryCopValid
    some {
      timestamp := record.timestamp
      sequence := record.sequence
      inletDeciC := record.inletDeciC
      outletDeciC := record.outletDeciC
      setpointDeciC := record.setpointDeciC
      mode := record.mode
      flags := flags
      tankDeciC := if record.flags &&& telemetryTankValid != 0 then record.tankDeciC else 0
      averagePowerW := if power then record.averagePowerW else 0
      averageHeatW := if heat then record.averageHeatW else 0
      averageCopX100 := if cop then record.averageCopX100 else 0
      outdoorCoilDeciC := if flags2 &&& telemetryOutdoorCoilValid != 0 then record.outdoorCoilDeciC
        else 0
      outdoorAirDeciC := if flags2 &&& telemetryOutdoorAirValid != 0 then record.outdoorAirDeciC
        else 0
      flags2 := flags2 }

/-! ### Canonical samples -/

namespace TelemetrySample

/-- A flag of the first flags byte is set. -/
def has (s : TelemetrySample) (flag : UInt8) : Bool := s.flags &&& flag != 0

/-- A flag of the second flags byte is set. -/
def has2 (s : TelemetrySample) (flag : UInt8) : Bool := s.flags2 &&& flag != 0

def powerKept (s : TelemetrySample) : Bool := s.has telemetryPowerValid && s.averagePowerW != 0xFFFF

def heatKept (s : TelemetrySample) : Bool := s.has2 telemetryHeatValid && s.averageHeatW != 0xFFFF

def copKept (s : TelemetrySample) : Bool := s.has2 telemetryCopValid && s.averageCopX100 != 0xFFFF

/-- What a sample says under a sequence number: its optional values with a flag, where
the erased marker is no value and takes the flag with it, zeros for the others, and
no flags but the known ones. -/
def canonical (s : TelemetrySample) (sequence : UInt32) : TelemetrySample where
  timestamp := s.timestamp
  sequence := sequence
  inletDeciC := s.inletDeciC
  outletDeciC := s.outletDeciC
  setpointDeciC := s.setpointDeciC
  mode := s.mode
  flags := if s.powerKept then s.flags else s.flags &&& ~~~telemetryPowerValid
  tankDeciC := if s.has telemetryTankValid then s.tankDeciC else 0
  averagePowerW := if s.powerKept then s.averagePowerW else 0
  averageHeatW := if s.heatKept then s.averageHeatW else 0
  averageCopX100 := if s.copKept then s.averageCopX100 else 0
  outdoorCoilDeciC := if s.has2 telemetryOutdoorCoilValid then s.outdoorCoilDeciC else 0
  outdoorAirDeciC := if s.has2 telemetryOutdoorAirValid then s.outdoorAirDeciC else 0
  flags2 := (if s.heatKept then telemetryHeatValid else 0) |||
    (if s.copKept then telemetryCopValid else 0) |||
    (s.flags2 &&& telemetryOutdoorCoilValid) ||| (s.flags2 &&& telemetryOutdoorAirValid)

end TelemetrySample

/-! ### Flags -/

/-- What the writer makes of the first flags byte, if the power is a reading. -/
lemma flags_facts : ∀ (f : UInt8) (reading : Bool),
    let kept := f &&& telemetryPowerValid != 0 && reading
    let g := if kept then f else f &&& ~~~telemetryPowerValid
    g &&& telemetryTankValid = f &&& telemetryTankValid ∧ (g &&& telemetryPowerValid != 0) = kept ∧
      (if kept then g else g &&& ~~~telemetryPowerValid) = g := by
  decide +kernel

/-- What the writer makes of the second flags byte, if heat and COP are readings. -/
lemma flags2_facts : ∀ (f : UInt8) (heatReading copReading : Bool),
    let known := telemetryHeatValid ||| telemetryCopValid ||| telemetryOutdoorCoilValid |||
      telemetryOutdoorAirValid
    let heat := f &&& telemetryHeatValid != 0 && heatReading
    let cop := f &&& telemetryCopValid != 0 && copReading
    let g := (if heat then telemetryHeatValid else 0) ||| (if cop then telemetryCopValid else 0) |||
      (f &&& telemetryOutdoorCoilValid) ||| (f &&& telemetryOutdoorAirValid)
    let f₁ := if heat then f &&& known else (f &&& known) &&& ~~~telemetryHeatValid
    let f₂ := if cop then f₁ else f₁ &&& ~~~telemetryCopValid
    f &&& known &&& telemetryHeatValid = f &&& telemetryHeatValid ∧
      f₁ &&& telemetryCopValid = f &&& telemetryCopValid ∧ f₂ = g ∧
      (g &&& telemetryHeatValid != 0) = heat ∧ (g &&& telemetryCopValid != 0) = cop ∧
      g &&& telemetryOutdoorCoilValid = f &&& telemetryOutdoorCoilValid ∧
      g &&& telemetryOutdoorAirValid = f &&& telemetryOutdoorAirValid ∧
      (if heat then g else g &&& ~~~telemetryHeatValid) = g ∧
      (if cop then g else g &&& ~~~telemetryCopValid) = g := by
  decide +kernel

/-! ### The round trip -/

/-- A record with its checksum. -/
def TelemetryRecord.sealed (r : TelemetryRecord) : TelemetryRecord :=
  { r with crc32 := telemetryRecordCrc r }

/-- The record of a sample, before its checksum: the canonical flags, and every value
that has one of them. -/
def TelemetrySample.unsealed (s : TelemetrySample) (sequence : UInt32) : TelemetryRecord where
  sequence := sequence
  timestamp := s.timestamp
  inletDeciC := s.inletDeciC
  outletDeciC := s.outletDeciC
  setpointDeciC := s.setpointDeciC
  mode := s.mode
  flags := (s.canonical sequence).flags
  tankDeciC := if s.has telemetryTankValid then s.tankDeciC else -1
  averagePowerW := if s.powerKept then s.averagePowerW else 0xFFFF
  averageHeatW := if s.heatKept then s.averageHeatW else 0xFFFF
  averageCopX100 := if s.copKept then s.averageCopX100 else 0xFFFF
  outdoorCoilDeciC := if s.has2 telemetryOutdoorCoilValid then s.outdoorCoilDeciC else -1
  outdoorAirDeciC := if s.has2 telemetryOutdoorAirValid then s.outdoorAirDeciC else -1
  flags2 := (s.canonical sequence).flags2
  spare := fun _ => 0xFF
  crc32 := 0xFFFFFFFF

/-- The writer makes the flags canonical. -/
lemma packTelemetryRecord_eq (s : TelemetrySample) (sequence : UInt32) :
    packTelemetryRecord s sequence = (s.unsealed sequence).sealed := by
  obtain ⟨hheat, hcop, hflags2, -, -, hcoil, hair, -, -⟩ :=
    flags2_facts s.flags2 (s.averageHeatW != 0xFFFF) (s.averageCopX100 != 0xFFFF)
  unfold packTelemetryRecord
  dsimp only
  rw [hheat, hcop, hflags2, hcoil, hair]
  rfl

namespace TelemetrySample

variable (s : TelemetrySample) (sequence : UInt32)

lemma has_tank_canonical :
    (s.canonical sequence).has telemetryTankValid = s.has telemetryTankValid :=
  congrArg (· != 0) (flags_facts s.flags (s.averagePowerW != 0xFFFF)).1

lemma has_power_canonical : (s.canonical sequence).has telemetryPowerValid = s.powerKept :=
  (flags_facts s.flags (s.averagePowerW != 0xFFFF)).2.1

lemma has2_canonical :
    (s.canonical sequence).has2 telemetryHeatValid = s.heatKept ∧
      (s.canonical sequence).has2 telemetryCopValid = s.copKept ∧
      (s.canonical sequence).has2 telemetryOutdoorCoilValid = s.has2 telemetryOutdoorCoilValid ∧
      (s.canonical sequence).has2 telemetryOutdoorAirValid = s.has2 telemetryOutdoorAirValid := by
  obtain ⟨-, -, -, hheat, hcop, hcoil, hair, -, -⟩ :=
    flags2_facts s.flags2 (s.averageHeatW != 0xFFFF) (s.averageCopX100 != 0xFFFF)
  exact ⟨hheat, hcop, congrArg (· != 0) hcoil, congrArg (· != 0) hair⟩

/-- A value that is kept is no erased marker. -/
lemma kept_and_ne {flag reading : Bool} {v : UInt16} (h : reading = (v != 0xFFFF)) :
    ((flag && reading) && (if flag && reading then v else 0xFFFF) != 0xFFFF) = (flag && reading) := by
  subst h
  cases flag
  · rfl
  · cases hv : (v != 0xFFFF)
    · rfl
    · simpa using hv

lemma kept_and_ne_zero {flag reading : Bool} {v : UInt16} (h : reading = (v != 0xFFFF)) :
    ((flag && reading) && (if flag && reading then v else 0) != 0xFFFF) = (flag && reading) := by
  subst h
  cases flag
  · rfl
  · cases hv : (v != 0xFFFF)
    · rfl
    · simpa using hv

lemma kept_canonical : (s.canonical sequence).powerKept = s.powerKept ∧
    (s.canonical sequence).heatKept = s.heatKept ∧ (s.canonical sequence).copKept = s.copKept := by
  obtain ⟨hheat, hcop, -, -⟩ := s.has2_canonical sequence
  refine ⟨?_, ?_, ?_⟩
  · rw [powerKept, has_power_canonical]
    exact kept_and_ne_zero rfl
  · rw [heatKept, hheat]
    exact kept_and_ne_zero rfl
  · rw [copKept, hcop]
    exact kept_and_ne_zero rfl

lemma flags_canonical_canonical :
    ((s.canonical sequence).canonical sequence).flags = (s.canonical sequence).flags ∧
      ((s.canonical sequence).canonical sequence).flags2 = (s.canonical sequence).flags2 := by
  obtain ⟨hpower, hheat, hcop⟩ := s.kept_canonical sequence
  obtain ⟨-, -, -, -, -, hcoil, hair, -, -⟩ :=
    flags2_facts s.flags2 (s.averageHeatW != 0xFFFF) (s.averageCopX100 != 0xFFFF)
  refine ⟨?_, ?_⟩
  · have hflags := (flags_facts s.flags (s.averagePowerW != 0xFFFF)).2.2
    rw [canonical, hpower]
    exact hflags
  · rw [canonical, hheat, hcop]
    dsimp only
    rw [canonical]
    dsimp only
    rw [heatKept, copKept, has2, has2, hcoil, hair]

/-- A canonical sample makes the same record. -/
lemma unsealed_canonical : (s.canonical sequence).unsealed sequence = s.unsealed sequence := by
  obtain ⟨hpower, hheat, hcop⟩ := s.kept_canonical sequence
  obtain ⟨-, -, hcoil, hair⟩ := s.has2_canonical sequence
  obtain ⟨hflags, hflags2⟩ := s.flags_canonical_canonical sequence
  rw [unsealed, unsealed, hpower, hheat, hcop, hcoil, hair, s.has_tank_canonical, hflags, hflags2]
  simp only [canonical]
  congr 1
  all_goals split <;> rfl

/-- The reader finds the canonical sample in a record. -/
lemma decode_sealed (hmode : s.mode ≤ telemetryModeHotWater) (hzero : sequence ≠ 0)
    (hmax : sequence ≠ 0xFFFFFFFF) :
    decodeV2Record (telemetryRecord.enc (s.unsealed sequence).sealed) = some (s.canonical sequence) := by
  obtain ⟨-, -, -, -, -, -, -, hheatFlag, hcopFlag⟩ :=
    flags2_facts s.flags2 (s.averageHeatW != 0xFFFF) (s.averageCopX100 != 0xFFFF)
  have hpowerClear : (if s.powerKept then (s.canonical sequence).flags
      else (s.canonical sequence).flags &&& ~~~telemetryPowerValid) = (s.canonical sequence).flags :=
    (flags_facts s.flags (s.averagePowerW != 0xFFFF)).2.2
  have hheatClear : (if s.heatKept then (s.canonical sequence).flags2
      else (s.canonical sequence).flags2 &&& ~~~telemetryHeatValid)
        = (s.canonical sequence).flags2 := hheatFlag
  have hcopClear : (if s.copKept then (s.canonical sequence).flags2
      else (s.canonical sequence).flags2 &&& ~~~telemetryCopValid)
        = (s.canonical sequence).flags2 := hcopFlag
  obtain ⟨hheatHas, hcopHas, hcoil, hair⟩ := s.has2_canonical sequence
  have htank := s.has_tank_canonical sequence
  have hpower : ((s.canonical sequence).flags &&& telemetryPowerValid != 0 &&
      (if s.powerKept then s.averagePowerW else 0xFFFF) != 0xFFFF) = s.powerKept := by
    have := s.has_power_canonical sequence
    rw [has] at this
    rw [this]
    exact kept_and_ne rfl
  have hheat : ((s.canonical sequence).flags2 &&& telemetryHeatValid != 0 &&
      (if s.heatKept then s.averageHeatW else 0xFFFF) != 0xFFFF) = s.heatKept := by
    rw [has2] at hheatHas
    rw [hheatHas]
    exact kept_and_ne rfl
  have hcop : ((s.canonical sequence).flags2 &&& telemetryCopValid != 0 &&
      (if s.copKept then s.averageCopX100 else 0xFFFF) != 0xFFFF) = s.copKept := by
    rw [has2] at hcopHas
    rw [hcopHas]
    exact kept_and_ne rfl
  rw [has] at htank
  rw [has2] at hcoil hair
  unfold decodeV2Record
  rw [Codec.dec_enc]
  dsimp only [TelemetryRecord.sealed, unsealed]
  rw [if_neg, hpower, hheat, hheatClear, hcop, hcopClear, hpowerClear, htank, hcoil, hair]
  · simp only [canonical]
    congr 2
    all_goals split <;> rfl
  · have hsum : telemetryRecordCrc (s.unsealed sequence) = telemetryRecordCrc
        (s.unsealed sequence).sealed := rfl
    rw [Bool.or_eq_true, Bool.or_eq_true, Bool.or_eq_true, beq_iff_eq, beq_iff_eq,
      decide_eq_true_iff, bne_iff_ne]
    rintro (((h | h) | h) | h)
    · exact hzero h
    · exact hmax h
    · exact UInt8.not_lt.mpr hmode h
    · exact h hsum

end TelemetrySample

/-- Only a record with the erased sequence number is all erased. -/
lemma sequence_eq_of_erased (r : TelemetryRecord)
    (h : bytesAreErased (telemetryRecord.enc r) = true) : r.sequence = 0xFFFFFFFF := by
  obtain ⟨rest, hrest⟩ : ∃ rest, telemetryRecord.enc r = (Codec.u32.enc r.sequence ++ rest) ++
      Codec.u32.enc r.crc32 := ⟨_, rfl⟩
  rw [List.append_assoc] at hrest
  rw [bytesAreErased, hrest, List.all_append, Bool.and_eq_true, List.all_eq_true] at h
  have hbytes : Codec.u32.enc r.sequence = List.replicate 4 0xFF :=
    List.eq_replicate_iff.mpr ⟨Codec.u32.enc_length _, fun b hb => by simpa using h.1 b hb⟩
  rw [← Codec.u32.dec_enc r.sequence, hbytes]
  decide

/-- **The round trip of a telemetry record**: the record of a sample is read back as the
canonical sample, which makes the same record, and its bytes are not all erased. -/
theorem telemetry_round_trip (s : TelemetrySample) {sequence : UInt32}
    (hmode : s.mode ≤ telemetryModeHotWater) (hfirst : 1 ≤ sequence) (hlast : sequence ≤ 0xFFFFFFFE) :
    decodeV2Record (telemetryRecord.enc (packTelemetryRecord s sequence))
        = some (s.canonical sequence) ∧
      telemetryRecord.enc (packTelemetryRecord (s.canonical sequence) sequence)
        = telemetryRecord.enc (packTelemetryRecord s sequence) ∧
      bytesAreErased (telemetryRecord.enc (packTelemetryRecord s sequence)) = false := by
  have hzero : sequence ≠ 0 := by
    rintro rfl
    exact absurd hfirst (by decide)
  have hmax : sequence ≠ 0xFFFFFFFF := by
    rintro rfl
    exact absurd hlast (by decide)
  rw [packTelemetryRecord_eq, packTelemetryRecord_eq]
  refine ⟨s.decode_sealed sequence hmode hzero hmax, ?_, ?_⟩
  · rw [s.unsealed_canonical]
  · refine Bool.eq_false_of_not_eq_true fun herased => hmax ?_
    exact sequence_eq_of_erased _ herased

/-- A sample with a tank reading, a power that is the erased marker, and a flag that is
not known. -/
theorem telemetry_round_trip_tank :
    let s : TelemetrySample := { timestamp := 1700000000, mode := 1, flags := 0xC1, tankDeciC := 480,
                                 averagePowerW := 0xFFFF, averageHeatW := 5200, flags2 := 0x11 }
    decodeV2Record (telemetryRecord.enc (packTelemetryRecord s 7)) = some (s.canonical 7) ∧
      telemetryRecord.enc (packTelemetryRecord (s.canonical 7) 7)
        = telemetryRecord.enc (packTelemetryRecord s 7) ∧
      bytesAreErased (telemetryRecord.enc (packTelemetryRecord s 7)) = false :=
  telemetry_round_trip _ (by decide) (by decide) (by decide)

end ArcticController

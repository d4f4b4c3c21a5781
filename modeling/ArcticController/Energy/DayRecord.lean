/-
The records of the daily energy ledger (`energy_ledger.h`, `energy_store.h`)
and the way they are persisted.

* `DayAccum`: the running totals of the open day, in watt-seconds;
* `DayRecord`: a day as it is stored and reported, in watt-hours;
* `toRecord`: the record of an accumulation;
* `Lifetime` and `fold`: the totals over all closed days and how a closed day
  is added to them;
* `dayAccum`, `dayRecord`, `lifetime`: the packed layouts, without padding;
* `Lifetime.Continues`, `Lifetime.Fits`, `continues_fold_iff`: adding a day goes
  on from the totals exactly when it wraps none of them.
-/
import ArcticController.Base.Codec

namespace ArcticController

/-! ### Constants -/

/-- What a reading's electricity is booked to. -/
inductive Bucket where
  | heating
  | cooling
  | hotWater
  | standby
deriving DecidableEq, Repr, Inhabited

abbrev kBuckets : ℕ := 4

/-- Heating, cooling and hot water. -/
abbrev kModes : ℕ := 3

abbrev kSources : ℕ := 4

/-- The index of a bucket. -/
def Bucket.index : Bucket → Fin kBuckets
  | .heating => 0
  | .cooling => 1
  | .hotWater => 2
  | .standby => 3

/-- The temperature source of a reading. -/
inductive Source where
  | unit
  | external
  | fallback
  | settling
deriving DecidableEq, Repr, Inhabited

def Source.index : Source → Fin kSources
  | .unit => 0
  | .external => 1
  | .fallback => 2
  | .settling => 3

/-- The mode of a bucket; standby is none. -/
def Bucket.mode : Bucket → Option (Fin kModes)
  | .heating => some 0
  | .cooling => some 1
  | .hotWater => some 2
  | .standby => none

/-- Flow or glycol changed during the day. -/
def dayMixedSettings : UInt8 := 1

def daySettingsSet : UInt8 := 2

def dayOutdoorSet : UInt8 := 4

/-- `outdoorRunAvgDeci` is set. -/
def dayRunOutdoorSet : UInt8 := 8

/-! ### The records -/

/-- The running totals of the open day. -/
structure DayAccum where
  date : UInt32
  utcOffsetMin : Int16
  flags : UInt8
  glycolPct : UInt8
  flowLpmX10 : UInt16
  starts : UInt16
  defrosts : UInt16
  reserved : UInt16
  elecWs : Fin kBuckets → UInt64
  elecUnattributedWs : UInt64
  thermalWs : Fin kModes → UInt64
  coveredElecWs : Fin kModes → UInt64
  defrostThermalWs : Int64
  defrostS : UInt32
  powerS : UInt32
  thermalS : UInt32
  sourceS : Fin kSources → UInt32
  runS : Fin kModes → UInt32
  outdoorMinDeci : Int16
  outdoorMaxDeci : Int16
  runOutdoorSumDeciS : Int32
  outdoorSumDeciS : Int64
  outdoorS : UInt32
  runOutdoorS : UInt32
deriving DecidableEq, Inhabited

/-- A finished day, or the open one so far, as it is stored and reported; the
date 0 marks an empty slot. -/
structure DayRecord where
  date : UInt32
  utcOffsetMin : Int16
  flags : UInt8
  glycolPct : UInt8
  flowLpmX10 : UInt16
  starts : UInt16
  elecWh : Fin kBuckets → UInt32
  elecUnattributedWh : UInt32
  thermalWh : Fin kModes → UInt32
  coveredElecWh : Fin kModes → UInt32
  defrostThermalWh : Int32
  defrosts : UInt16
  reserved : UInt16
  defrostS : UInt32
  powerS : UInt32
  thermalS : UInt32
  sourceS : Fin kSources → UInt32
  runS : Fin kModes → UInt32
  outdoorMinDeci : Int16
  outdoorMaxDeci : Int16
  outdoorAvgDeci : Int16
  outdoorRunAvgDeci : Int16
deriving DecidableEq, Inhabited

/-- The totals over all days the ledger closed. -/
structure Lifetime where
  resetId : UInt32
  sinceDate : UInt32
  throughDate : UInt32
  days : UInt32
  elecWh : UInt32
  thermalWh : Fin kModes → UInt32
  coveredElecWh : Fin kModes → UInt32
  powerS : UInt32
  thermalS : UInt32
  reserved : UInt32
deriving DecidableEq, Inhabited

/-! ### From watt-seconds to watt-hours -/

def wsToWh (ws : UInt64) : UInt32 := ((ws + 1800) / 3600).toUInt32

def wsToWhSigned (ws : Int64) : Int32 :=
  (if ws ≥ 0 then (ws + 1800) / 3600 else -((-ws + 1800) / 3600)).toInt32

/-- The sum of a bucket array, added to `t` one bucket after the other. -/
def addBuckets (t : UInt32) (wh : Fin kBuckets → UInt32) : UInt32 :=
  (List.ofFn wh).foldl (· + ·) t

def totalElecWh (r : DayRecord) : UInt32 := addBuckets r.elecUnattributedWh r.elecWh

/-- The record of an accumulation. -/
def toRecord (a : DayAccum) : DayRecord :=
  { (default : DayRecord) with
    date := a.date
    utcOffsetMin := a.utcOffsetMin
    flags := if a.runOutdoorS > 0 then a.flags ||| dayRunOutdoorSet
      else a.flags &&& ~~~dayRunOutdoorSet
    glycolPct := a.glycolPct
    flowLpmX10 := a.flowLpmX10
    starts := a.starts
    elecWh := fun b => wsToWh (a.elecWs b)
    elecUnattributedWh := wsToWh a.elecUnattributedWs
    thermalWh := fun m => wsToWh (a.thermalWs m)
    coveredElecWh := fun m => wsToWh (a.coveredElecWs m)
    runS := a.runS
    defrostThermalWh := wsToWhSigned a.defrostThermalWs
    defrosts := a.defrosts
    defrostS := a.defrostS
    powerS := a.powerS
    thermalS := a.thermalS
    sourceS := a.sourceS
    outdoorMinDeci := if a.outdoorS > 0 then a.outdoorMinDeci else 0
    outdoorMaxDeci := if a.outdoorS > 0 then a.outdoorMaxDeci else 0
    outdoorAvgDeci :=
      if a.outdoorS > 0 then (a.outdoorSumDeciS / a.outdoorS.toUInt64.toInt64).toInt16 else 0
    outdoorRunAvgDeci :=
      if a.runOutdoorS > 0 then (a.runOutdoorSumDeciS / a.runOutdoorS.toInt32).toInt16 else 0 }

/-! ### The lifetime totals -/

/-- Add a closed day to the lifetime totals. -/
def fold (life : Lifetime) (d : DayRecord) : Lifetime :=
  { life with
    sinceDate := if life.days = 0 then d.date else life.sinceDate
    throughDate := d.date
    days := life.days + 1
    elecWh := life.elecWh + totalElecWh d
    thermalWh := fun i => life.thermalWh i + d.thermalWh i
    coveredElecWh := fun i => life.coveredElecWh i + d.coveredElecWh i
    powerS := life.powerS + d.powerS
    thermalS := life.thermalS + d.thermalS }

@[simp] lemma fold_throughDate (life : Lifetime) (d : DayRecord) :
    (fold life d).throughDate = d.date := rfl

@[simp] lemma fold_days (life : Lifetime) (d : DayRecord) :
    (fold life d).days = life.days + 1 := rfl

/-- The totals of a counter that has just started over under `resetId`. -/
def freshLifetime (resetId : UInt32) : Lifetime := { (default : Lifetime) with resetId }

/-- The totals `b` go on from `a`: the same counter, and no total smaller. -/
structure Lifetime.Continues (a b : Lifetime) : Prop where
  resetId : b.resetId = a.resetId
  sinceDate : b.sinceDate = a.sinceDate
  days : a.days ≤ b.days
  elecWh : a.elecWh ≤ b.elecWh
  thermalWh : ∀ i, a.thermalWh i ≤ b.thermalWh i
  coveredElecWh : ∀ i, a.coveredElecWh i ≤ b.coveredElecWh i
  powerS : a.powerS ≤ b.powerS
  thermalS : a.thermalS ≤ b.thermalS

/-- Adding the day wraps none of the 32-bit totals. -/
structure Lifetime.Fits (life : Lifetime) (d : DayRecord) : Prop where
  elecWh : life.elecWh.toNat + (totalElecWh d).toNat < 2 ^ 32
  thermalWh : ∀ i, (life.thermalWh i).toNat + (d.thermalWh i).toNat < 2 ^ 32
  coveredElecWh : ∀ i, (life.coveredElecWh i).toNat + (d.coveredElecWh i).toNat < 2 ^ 32
  powerS : life.powerS.toNat + d.powerS.toNat < 2 ^ 32
  thermalS : life.thermalS.toNat + d.thermalS.toNat < 2 ^ 32

lemma u32_le_add_iff (a b : UInt32) : a ≤ a + b ↔ a.toNat + b.toNat < 2 ^ 32 := by
  rw [UInt32.le_iff_toNat_le, UInt32.toNat_add]
  have ha := a.toNat_lt
  have hb := b.toNat_lt
  omega

/-- While the count of days does not wrap either, adding a day to a running
counter goes on from it exactly when nothing wraps. -/
lemma continues_fold_iff {life : Lifetime} {d : DayRecord} (hdays : life.days ≠ 0)
    (hmax : life.days.toNat + 1 < 2 ^ 32) :
    life.Continues (fold life d) ↔ life.Fits d := by
  have hsince : (fold life d).sinceDate = life.sinceDate := if_neg hdays
  have hcount : life.days ≤ (fold life d).days := (u32_le_add_iff _ _).mpr (by simpa using hmax)
  constructor
  · intro h
    exact ⟨(u32_le_add_iff _ _).mp h.elecWh, fun i => (u32_le_add_iff _ _).mp (h.thermalWh i),
      fun i => (u32_le_add_iff _ _).mp (h.coveredElecWh i), (u32_le_add_iff _ _).mp h.powerS,
      (u32_le_add_iff _ _).mp h.thermalS⟩
  · intro h
    exact ⟨rfl, hsince, hcount, (u32_le_add_iff _ _).mpr h.elecWh,
      fun i => (u32_le_add_iff _ _).mpr (h.thermalWh i),
      fun i => (u32_le_add_iff _ _).mpr (h.coveredElecWh i),
      (u32_le_add_iff _ _).mpr h.powerS, (u32_le_add_iff _ _).mpr h.thermalS⟩

/-! ### Layouts -/

/-- The 176 bytes of an accumulation. -/
def dayAccum : Codec DayAccum :=
  (Codec.pair .u32 <| .pair .i16 <| .pair .u8 <| .pair .u8 <| .pair .u16 <| .pair .u16 <|
      .pair .u16 <| .pair .u16 <| .pair (.array kBuckets .u64) <| .pair .u64 <|
      .pair (.array kModes .u64) <| .pair (.array kModes .u64) <| .pair .i64 <| .pair .u32 <|
      .pair .u32 <| .pair .u32 <| .pair (.array kSources .u32) <| .pair (.array kModes .u32) <|
      .pair .i16 <| .pair .i16 <| .pair .i32 <| .pair .i64 <| .pair .u32 .u32).iso
    (fun (date, utcOffsetMin, flags, glycolPct, flowLpmX10, starts, defrosts, reserved, elecWs,
        elecUnattributedWs, thermalWs, coveredElecWs, defrostThermalWs, defrostS, powerS, thermalS,
        sourceS, runS, outdoorMinDeci, outdoorMaxDeci, runOutdoorSumDeciS, outdoorSumDeciS,
        outdoorS, runOutdoorS) =>
      { date, utcOffsetMin, flags, glycolPct, flowLpmX10, starts, defrosts, reserved, elecWs,
        elecUnattributedWs, thermalWs, coveredElecWs, defrostThermalWs, defrostS, powerS, thermalS,
        sourceS, runS, outdoorMinDeci, outdoorMaxDeci, runOutdoorSumDeciS, outdoorSumDeciS,
        outdoorS, runOutdoorS })
    (fun a => (a.date, a.utcOffsetMin, a.flags, a.glycolPct, a.flowLpmX10, a.starts, a.defrosts,
      a.reserved, a.elecWs, a.elecUnattributedWs, a.thermalWs, a.coveredElecWs,
      a.defrostThermalWs, a.defrostS, a.powerS, a.thermalS, a.sourceS, a.runS, a.outdoorMinDeci,
      a.outdoorMaxDeci, a.runOutdoorSumDeciS, a.outdoorSumDeciS, a.outdoorS, a.runOutdoorS))
    (fun _ => rfl)

/-- The 112 bytes of a day. -/
def dayRecord : Codec DayRecord :=
  (Codec.pair .u32 <| .pair .i16 <| .pair .u8 <| .pair .u8 <| .pair .u16 <| .pair .u16 <|
      .pair (.array kBuckets .u32) <| .pair .u32 <| .pair (.array kModes .u32) <|
      .pair (.array kModes .u32) <| .pair .i32 <| .pair .u16 <| .pair .u16 <| .pair .u32 <|
      .pair .u32 <| .pair .u32 <| .pair (.array kSources .u32) <| .pair (.array kModes .u32) <|
      .pair .i16 <| .pair .i16 <| .pair .i16 .i16).iso
    (fun (date, utcOffsetMin, flags, glycolPct, flowLpmX10, starts, elecWh, elecUnattributedWh,
        thermalWh, coveredElecWh, defrostThermalWh, defrosts, reserved, defrostS, powerS, thermalS,
        sourceS, runS, outdoorMinDeci, outdoorMaxDeci, outdoorAvgDeci, outdoorRunAvgDeci) =>
      { date, utcOffsetMin, flags, glycolPct, flowLpmX10, starts, elecWh, elecUnattributedWh,
        thermalWh, coveredElecWh, defrostThermalWh, defrosts, reserved, defrostS, powerS, thermalS,
        sourceS, runS, outdoorMinDeci, outdoorMaxDeci, outdoorAvgDeci, outdoorRunAvgDeci })
    (fun r => (r.date, r.utcOffsetMin, r.flags, r.glycolPct, r.flowLpmX10, r.starts, r.elecWh,
      r.elecUnattributedWh, r.thermalWh, r.coveredElecWh, r.defrostThermalWh, r.defrosts,
      r.reserved, r.defrostS, r.powerS, r.thermalS, r.sourceS, r.runS, r.outdoorMinDeci,
      r.outdoorMaxDeci, r.outdoorAvgDeci, r.outdoorRunAvgDeci))
    (fun _ => rfl)

/-- The 56 bytes of the lifetime totals. -/
def lifetime : Codec Lifetime :=
  (Codec.pair .u32 <| .pair .u32 <| .pair .u32 <| .pair .u32 <| .pair .u32 <|
      .pair (.array kModes .u32) <| .pair (.array kModes .u32) <| .pair .u32 <|
      .pair .u32 .u32).iso
    (fun (resetId, sinceDate, throughDate, days, elecWh, thermalWh, coveredElecWh, powerS,
        thermalS, reserved) =>
      { resetId, sinceDate, throughDate, days, elecWh, thermalWh, coveredElecWh, powerS, thermalS,
        reserved })
    (fun l => (l.resetId, l.sinceDate, l.throughDate, l.days, l.elecWh, l.thermalWh,
      l.coveredElecWh, l.powerS, l.thermalS, l.reserved))
    (fun _ => rfl)

lemma dayRecord_size : dayRecord.size = 112 := rfl

/-- A sum that does not wrap. -/
lemma u32_toNat_add {a b : UInt32} (h : a.toNat + b.toNat < 2 ^ 32) :
    (a + b).toNat = a.toNat + b.toNat := by
  rw [UInt32.toNat_add, Nat.mod_eq_of_lt h]

end ArcticController

/-
The energy store (`energy_store.cpp`): the checkpoint of the open day and one
blob per month in the NVS namespace `energy`.

* `EnergyKey`: the keys of the namespace; `month_key` writes each month into a
  key of its own;
* `TodayBlob`, `MonthBlob` with their layouts `todayBlob`, `monthBlob` and the
  checks `todayValid`, `monthValid`;
* `storeLoadToday`, `storeSaveToday`: the checkpoint;
* `loadMonth`, `findMonthAtOrBefore`, `storeCommitDay`, `storeLoadLifetime`,
  `storeReadDays`: the month blobs;
* `readMonth`, `findMonth`: what the reads return while none of them fails;
* `decodeMonth_enc`, `monthValid_addDay`: a blob that was written is read back.
-/
import ArcticController.Platform.Nvs
import ArcticController.Energy.DayRecord
import ArcticController.Energy.Months

namespace ArcticController

/-! ### Blobs -/

/-- The keys of the namespace `energy`. -/
inductive EnergyKey where
  | today
  | month (yyyymm : UInt32)
deriving DecidableEq, Repr

/-- The contents of the namespace. -/
abbrev EnergyContents : Type := EnergyKey → Option (List UInt8)

abbrev EnergyM (α : Type) : Type := NvsM EnergyKey α

/-- How many months are kept. -/
def kMonthsKept : ℕ := 13

def kTodayMagic : UInt32 := 0x59444F54

def kMonthMagic : UInt32 := 0x48544E4D

def kVersion : UInt16 := 1

/-- The checkpoint of the open day. -/
structure TodayBlob where
  magic : UInt32
  version : UInt16
  accumSize : UInt16
  generation : UInt32
  reserved : UInt32
  accum : DayAccum
  crc32 : UInt32
  reserved2 : UInt32

/-- The closed days of a month, and the totals through the last of them. -/
structure MonthBlob where
  magic : UInt32
  version : UInt16
  recordSize : UInt16
  yyyymm : UInt32
  reserved : UInt32
  life : Lifetime
  days : Fin 31 → DayRecord
  crc32 : UInt32
deriving DecidableEq, Inhabited

/-- What the checksum of a checkpoint covers. -/
def todayBody : Codec (UInt32 × UInt16 × UInt16 × UInt32 × UInt32 × DayAccum) :=
  .pair .u32 <| .pair .u16 <| .pair .u16 <| .pair .u32 <| .pair .u32 dayAccum

/-- The 200 bytes of a checkpoint. -/
def todayBlob : Codec TodayBlob :=
  (Codec.pair todayBody <| .pair .u32 .u32).iso
    (fun ((magic, version, accumSize, generation, reserved, accum), crc32, reserved2) =>
      { magic, version, accumSize, generation, reserved, accum, crc32, reserved2 })
    (fun b => ((b.magic, b.version, b.accumSize, b.generation, b.reserved, b.accum), b.crc32,
      b.reserved2))
    (fun _ => rfl)

/-- What the checksum of a month covers. -/
def monthBody : Codec (UInt32 × UInt16 × UInt16 × UInt32 × UInt32 × Lifetime ×
    (Fin 31 → DayRecord)) :=
  .pair .u32 <| .pair .u16 <| .pair .u16 <| .pair .u32 <| .pair .u32 <| .pair lifetime <|
    .array 31 dayRecord

/-- The 3548 bytes of a month. -/
def monthBlob : Codec MonthBlob :=
  (Codec.pair monthBody .u32).iso
    (fun ((magic, version, recordSize, yyyymm, reserved, life, days), crc32) =>
      { magic, version, recordSize, yyyymm, reserved, life, days, crc32 })
    (fun m => ((m.magic, m.version, m.recordSize, m.yyyymm, m.reserved, m.life, m.days), m.crc32))
    (fun _ => rfl)

/-- The checksum of a checkpoint. -/
def todayCrc (b : TodayBlob) : UInt32 :=
  espCrc32Le 0 (todayBody.enc (b.magic, b.version, b.accumSize, b.generation, b.reserved, b.accum))

/-- The checksum of a month. -/
def monthCrc (m : MonthBlob) : UInt32 :=
  espCrc32Le 0 (monthBody.enc (m.magic, m.version, m.recordSize, m.yyyymm, m.reserved, m.life,
    m.days))

def todayValid (b : TodayBlob) : Bool :=
  b.magic == kTodayMagic && b.version == kVersion && b.accumSize.toNat == dayAccum.size &&
    b.crc32 == todayCrc b

def monthValid (yyyymm : UInt32) (m : MonthBlob) : Bool :=
  m.magic == kMonthMagic && m.version == kVersion && m.recordSize.toNat == dayRecord.size &&
    m.yyyymm == yyyymm && m.crc32 == monthCrc m

/-! ### The checkpoint of the open day -/

/-- The checkpoint bytes hold, if they hold one. -/
def decodeToday (blob : List UInt8) : Option DayAccum :=
  if blob.length = todayBlob.size then
    let b := todayBlob.dec blob
    if todayValid b then some b.accum else none
  else none

def storeLoadToday : EnergyM (Option DayAccum) := do
  match ← (espMalloc todayBlob.size).attempt with
  | .error _ => pure none
  | .ok _ =>
    match ← nvsOpen.attempt with
    | .error _ => pure none
    | .ok _ =>
      match ← (nvsGetBlob .today todayBlob.size).attempt with
      | .error _ => pure none
      | .ok blob => pure (decodeToday blob)

/-- The checkpoint written for `accum` under a generation. -/
def checkpointBlob (generation : UInt32) (accum : DayAccum) : TodayBlob :=
  let b : TodayBlob := ⟨kTodayMagic, kVersion, 176, generation, 0, accum, 0, 0⟩
  { b with crc32 := todayCrc b }

/-- Write the checkpoint. The second half of the state is the generation
counter, a static variable. -/
def storeSaveToday (accum : DayAccum) :
    FaultM (Nvs EnergyKey × UInt32) NvsFault (NvsOp EnergyKey) EspErr Bool := do
  match ← (FaultM.zoom (espMalloc todayBlob.size)).attempt with
  | .error _ => pure false
  | .ok _ =>
    FaultM.modify fun s => (s.1, s.2 + 1)
    let generation := (← FaultM.get).2
    match ← (FaultM.zoom nvsOpen).attempt with
    | .error _ => pure false
    | .ok _ =>
      match ← (FaultM.zoom
          (nvsSetBlob .today (todayBlob.enc (checkpointBlob generation accum)))).attempt with
      | .error _ => pure false
      | .ok _ =>
        match ← (FaultM.zoom nvsCommit).attempt with
        | .error _ => pure false
        | .ok _ => pure true

/-! ### The month blobs -/

/-- The month bytes hold, if they hold that month. -/
def decodeMonth (yyyymm : UInt32) (blob : List UInt8) : Option MonthBlob :=
  if blob.length = monthBlob.size then
    let m := monthBlob.dec blob
    if monthValid yyyymm m then some m else none
  else none

/-- A failed read counts as no blob. -/
def loadMonth (yyyymm : UInt32) : EnergyM (Option MonthBlob) := do
  match ← (nvsGetBlob (.month yyyymm) monthBlob.size).attempt with
  | .error _ => pure none
  | .ok blob => pure (decodeMonth yyyymm blob)

/-- The newest of `looks` months back from `yyyymm` that has a blob. The source
returns its month, and 0 for none: a blob found under month 0 is lost. -/
def findMonthFrom : ℕ → UInt32 → EnergyM (Option MonthBlob)
  | 0, _ => pure none
  | looks + 1, yyyymm => do
      match ← loadMonth yyyymm with
      | some m => pure (if yyyymm = 0 then none else some m)
      | none => findMonthFrom looks (prevMonth yyyymm)

def findMonthAtOrBefore (yyyymm : UInt32) : EnergyM (Option MonthBlob) :=
  findMonthFrom (kMonthsKept + 2) yyyymm

/-- An empty month that starts from the totals `life`. -/
def blankMonth (yyyymm : UInt32) (life : Lifetime) : MonthBlob :=
  { (default : MonthBlob) with
    magic := kMonthMagic
    version := kVersion
    recordSize := 112
    yyyymm
    life }

/-- The totals a new month starts from: those of the newest earlier one, or
zero under a new `reset_id`. -/
def carriedLife (random : UInt32) : Option MonthBlob → Lifetime
  | some m => m.life
  | none => freshLifetime (random ||| 1)

/-- The blob a day is added to. -/
def loadOrStartMonth (random yyyymm : UInt32) : EnergyM MonthBlob := do
  match ← loadMonth yyyymm with
  | some m => pure m
  | none => do
      let found ← findMonthAtOrBefore (prevMonth yyyymm)
      pure (blankMonth yyyymm (carriedLife random found))

/-- The slot of a day in its month. -/
def daySlot (date : UInt32) : Fin 31 := Fin.ofNat 31 ((date % 100).toNat - 1)

/-- The month with a day added. -/
def addDay (m : MonthBlob) (day : DayRecord) : MonthBlob :=
  let m' := { m with days := Function.update m.days (daySlot day.date) day, life := fold m.life day }
  { m' with crc32 := monthCrc m' }

/-- Drop `count` months, walking back from `old`. -/
def eraseAgedOut : ℕ → UInt32 → EnergyM Unit
  | 0, _ => pure ()
  | count + 1, old => do
      match ← (nvsEraseKey (.month old)).attempt with
      | .error _ => eraseAgedOut count (prevMonth old)
      | .ok _ => do
          let _ ← nvsCommit.attempt
          eraseAgedOut count (prevMonth old)

/-- Store a closed day: the totals after it, or none if that failed. `random`
is what `esp_random` returns. -/
def storeCommitDay (random : UInt32) (day : DayRecord) : EnergyM (Option Lifetime) :=
  let yyyymm := monthOf day.date
  let dom := day.date % 100
  if dom < 1 ∨ dom > 31 then pure none
  else do
    match ← (espMalloc monthBlob.size).attempt with
    | .error _ => pure none
    | .ok _ =>
      match ← nvsOpen.attempt with
      | .error _ => pure none
      | .ok _ =>
        let m ← loadOrStartMonth random yyyymm
        if day.date ≤ m.life.throughDate then pure (some m.life)
        else do
          let m' := addDay m day
          match ← (nvsSetBlob (.month yyyymm) (monthBlob.enc m')).attempt with
          | .error _ => pure none
          | .ok _ =>
            match ← nvsCommit.attempt with
            | .error _ => pure none
            | .ok _ => do
                eraseAgedOut 36 (prevMonth^[kMonthsKept] yyyymm)
                pure (some m'.life)

def storeLoadLifetime (date : UInt32) : EnergyM (Option Lifetime) := do
  match ← (espMalloc monthBlob.size).attempt with
  | .error _ => pure none
  | .ok _ =>
    match ← nvsOpen.attempt with
    | .error _ => pure none
    | .ok _ =>
      let found ← findMonthAtOrBefore (monthOf date)
      pure (found.map (·.life))

/-- Whether a stored day lies in the range asked for. -/
def inRange (fromDate toDate : UInt32) (r : DayRecord) : Bool :=
  r.date != 0 && r.date ≥ fromDate && r.date ≤ toDate

/-- Append the days of a month that lie in the range, as far as they fit. -/
def appendDays (fromDate toDate : UInt32) (capacity : ℕ) (m : MonthBlob) (out : List DayRecord) :
    List DayRecord :=
  (List.ofFn m.days).foldl
    (fun out r => if out.length < capacity && inRange fromDate toDate r then out ++ [r] else out) out

/-- Collect the days of the months from `ym` on; the first argument bounds the
months visited. -/
def readDaysFrom (fromDate toDate : UInt32) (capacity : ℕ) :
    ℕ → UInt32 → List DayRecord → EnergyM (List DayRecord)
  | 0, _, out => pure out
  | fuel + 1, ym, out =>
      if ym ≤ monthOf toDate ∧ out.length < capacity then do
        match ← loadMonth ym with
        | none => readDaysFrom fromDate toDate capacity fuel (nextMonth ym) out
        | some m =>
            readDaysFrom fromDate toDate capacity fuel (nextMonth ym)
              (appendDays fromDate toDate capacity m out)
      else pure out

/-- The closed days from `fromDate` to `toDate`, oldest first. -/
def storeReadDays (fromDate toDate : UInt32) (capacity : ℕ) : EnergyM (List DayRecord) :=
  if fromDate > toDate ∨ capacity = 0 then pure []
  else do
    match ← (espMalloc monthBlob.size).attempt with
    | .error _ => pure []
    | .ok _ =>
      match ← nvsOpen.attempt with
      | .error _ => pure []
      | .ok _ =>
        -- one more than the months between the two dates
        readDaysFrom fromDate toDate capacity
          ((monthOf toDate).toNat - (monthOf fromDate).toNat + 1) (monthOf fromDate) []

/-! ### What the contents say -/

/-- The blob of a month, read without failure. -/
def readMonth (c : EnergyContents) (yyyymm : UInt32) : Option MonthBlob :=
  (c (.month yyyymm)).bind (decodeMonth yyyymm)

/-- The checkpoint, read without failure. -/
def readToday (c : EnergyContents) : Option DayAccum := (c .today).bind decodeToday

/-- The newest of `looks` months back from `yyyymm` that has a blob. -/
def findMonth (c : EnergyContents) : ℕ → UInt32 → Option MonthBlob
  | 0, _ => none
  | looks + 1, yyyymm =>
      match readMonth c yyyymm with
      | some m => if yyyymm = 0 then none else some m
      | none => findMonth c looks (prevMonth yyyymm)

/-- The blob a day of the month `yyyymm` is added to. -/
def monthFor (c : EnergyContents) (random yyyymm : UInt32) : MonthBlob :=
  match readMonth c yyyymm with
  | some m => m
  | none =>
      blankMonth yyyymm (carriedLife random (findMonth c (kMonthsKept + 2) (prevMonth yyyymm)))

variable {yyyymm : UInt32} {m : MonthBlob}

/-- A blob that passed the checks is a month of the right number. -/
lemma decodeMonth_some {blob : List UInt8} (h : decodeMonth yyyymm blob = some m) :
    monthValid yyyymm m = true := by
  simp only [decodeMonth] at h
  split_ifs at h with h1 h2
  rw [Option.some.injEq] at h
  exact h ▸ h2

lemma readMonth_valid {c : EnergyContents} (h : readMonth c yyyymm = some m) :
    monthValid yyyymm m = true := by
  obtain ⟨blob, -, hblob⟩ := Option.bind_eq_some_iff.mp h
  exact decodeMonth_some hblob

/-- What was written is read back. -/
lemma decodeMonth_enc (h : monthValid yyyymm m = true) :
    decodeMonth yyyymm (monthBlob.enc m) = some m := by
  simp [decodeMonth, h]

lemma monthValid_addDay_of_fields (day : DayRecord) (hmagic : m.magic = kMonthMagic)
    (hversion : m.version = kVersion) (hsize : m.recordSize = 112) (hmonth : m.yyyymm = yyyymm) :
    monthValid yyyymm (addDay m day) = true := by
  simp only [monthValid, addDay, hmagic, hversion, hsize, hmonth, monthCrc, dayRecord_size]
  simp

end ArcticController

/-
The telemetry journal (`history_storage.cpp`): a ring of flash sectors, each with a
committed header and the records of one format.

* `TelemetrySectorHeader`, `TelemetryV1Record`: the other two layouts on flash;
* `telemetrySectorFormat`, `decodeV1Record`, `telemetryDecodeSlot`: what the reader
  accepts;
* `TelemetryScan`, `scanTelemetrySectors`, `telemetryInitializeLocked`: the recovery;
* `telemetryCommitSector`, `telemetryRotateLocked`, `historyStorageAppendTelemetry`: the
  writer;
* `keepNewest`, `historyStorageQueryTelemetry`: a bounded query;
* `historyStoragePrepareFactoryReset`: the gate of a factory reset.
-/
import ArcticController.History.EventJournal
import ArcticController.History.TelemetryRecord

namespace ArcticController

/-! ### Layouts -/

def telemetryRegionOffset : ℕ := historyEventRegionSize

def telemetrySectorHeaderSize : ℕ := 32

def telemetryRecordsPerSector : ℕ :=
  (flashSectorSize - telemetrySectorHeaderSize) / telemetryRecord.size

def telemetryV1RecordSize : ℕ := 32

def telemetryV1RecordsPerSector : ℕ :=
  (flashSectorSize - telemetrySectorHeaderSize) / telemetryV1RecordSize

def telemetrySectorMagic : UInt32 := 0x48545331

def telemetryV1RecordMagic : UInt32 := 0x48545231

def telemetryFormatVersion : UInt16 := 2

def telemetryV1FormatVersion : UInt16 := 1

def telemetryCommitted : UInt32 := 0

/-- The header of a sector (`telemetry_sector_header_t`). -/
structure TelemetrySectorHeader where
  magic : UInt32
  version : UInt16
  headerSize : UInt16
  generation : UInt32
  firstSequence : UInt32
  recordSize : UInt16
  recordsPerSector : UInt16
  reserved : UInt32
  crc32 : UInt32
  committed : UInt32

/-- The 24 bytes of a header its checksum covers. -/
def telemetryHeaderBody :
    Codec (UInt32 × UInt16 × UInt16 × UInt32 × UInt32 × UInt16 × UInt16 × UInt32) :=
  .pair .u32 <| .pair .u16 <| .pair .u16 <| .pair .u32 <| .pair .u32 <| .pair .u16 <|
    .pair .u16 .u32

def TelemetrySectorHeader.body (h : TelemetrySectorHeader) :
    UInt32 × UInt16 × UInt16 × UInt32 × UInt32 × UInt16 × UInt16 × UInt32 :=
  (h.magic, h.version, h.headerSize, h.generation, h.firstSequence, h.recordSize,
    h.recordsPerSector, h.reserved)

/-- The 32 bytes of a sector header. -/
def telemetrySectorHeader : Codec TelemetrySectorHeader :=
  (Codec.pair telemetryHeaderBody (.pair .u32 .u32)).iso
    (fun ((magic, version, headerSize, generation, firstSequence, recordSize, recordsPerSector,
        reserved), crc32, committed) =>
      { magic, version, headerSize, generation, firstSequence, recordSize, recordsPerSector,
        reserved, crc32, committed })
    (fun h => (h.body, h.crc32, h.committed)) (fun _ => rfl)

lemma telemetrySectorHeader_size : telemetrySectorHeader.size = telemetrySectorHeaderSize := rfl

/-- The checksum of a header: everything before the checksum itself. -/
def telemetryHeaderCrc (h : TelemetrySectorHeader) : UInt32 :=
  espCrc32Le 0 (telemetryHeaderBody.enc h.body)

/-- The offset of the commit word in a sector header. -/
def telemetryCommittedOffset : ℕ := 28

/-- A record of format 1 (`telemetry_record_v1_t`), the flash sample spread out. -/
structure TelemetryV1Record where
  magic : UInt32
  sequence : UInt32
  timestamp : UInt32
  sampleSequence : UInt32
  inletDeciC : Int16
  outletDeciC : Int16
  setpointDeciC : Int16
  mode : UInt8
  flags : UInt8
  tankDeciC : Int16
  averagePowerW : UInt16
  crc32 : UInt32

/-- The 28 bytes of a record of format 1 its checksum covers. -/
def telemetryV1Body : Codec (UInt32 × UInt32 × UInt32 × UInt32 × Int16 × Int16 × Int16 × UInt8 ×
    UInt8 × Int16 × UInt16) :=
  .pair .u32 <| .pair .u32 <| .pair .u32 <| .pair .u32 <| .pair .i16 <| .pair .i16 <|
    .pair .i16 <| .pair .u8 <| .pair .u8 <| .pair .i16 .u16

def TelemetryV1Record.body (r : TelemetryV1Record) : UInt32 × UInt32 × UInt32 × UInt32 × Int16 ×
    Int16 × Int16 × UInt8 × UInt8 × Int16 × UInt16 :=
  (r.magic, r.sequence, r.timestamp, r.sampleSequence, r.inletDeciC, r.outletDeciC,
    r.setpointDeciC, r.mode, r.flags, r.tankDeciC, r.averagePowerW)

/-- The 32 bytes of a record of format 1. -/
def telemetryV1Record : Codec TelemetryV1Record :=
  (Codec.pair telemetryV1Body .u32).iso
    (fun ((magic, sequence, timestamp, sampleSequence, inletDeciC, outletDeciC, setpointDeciC,
        mode, flags, tankDeciC, averagePowerW), crc32) =>
      { magic, sequence, timestamp, sampleSequence, inletDeciC, outletDeciC, setpointDeciC, mode,
        flags, tankDeciC, averagePowerW, crc32 })
    (fun r => (r.body, r.crc32)) (fun _ => rfl)

lemma telemetryV1Record_size : telemetryV1Record.size = telemetryV1RecordSize := rfl

def telemetryV1RecordCrc (r : TelemetryV1Record) : UInt32 :=
  espCrc32Le 0 (telemetryV1Body.enc r.body)

/-! ### What the reader accepts -/

/-- The record formats this firmware reads. -/
inductive TelemetryFormat where
  | v1
  | v2
deriving DecidableEq, Repr

/-- The record format a committed sector holds, if it is one this firmware can read. -/
def telemetrySectorFormat (header : TelemetrySectorHeader) : Option TelemetryFormat :=
  if header.magic != telemetrySectorMagic || header.headerSize.toNat != telemetrySectorHeaderSize ||
      header.committed != telemetryCommitted || header.crc32 != telemetryHeaderCrc header then none
  else if header.version == telemetryFormatVersion &&
      header.recordSize.toNat == telemetryRecord.size &&
      header.recordsPerSector.toNat == telemetryRecordsPerSector then some .v2
  else if header.version == telemetryV1FormatVersion &&
      header.recordSize.toNat == telemetryV1RecordSize &&
      header.recordsPerSector.toNat == telemetryV1RecordsPerSector then some .v1
  else none

def telemetrySlotsIn : TelemetryFormat → ℕ
  | .v2 => telemetryRecordsPerSector
  | .v1 => telemetryV1RecordsPerSector

def telemetryRecordSizeOf : TelemetryFormat → ℕ
  | .v2 => telemetryRecord.size
  | .v1 => telemetryV1RecordSize

def decodeV1Record (bytes : List UInt8) : Option TelemetrySample :=
  let record := telemetryV1Record.dec bytes
  if record.magic != telemetryV1RecordMagic || record.sequence == 0 ||
      record.sampleSequence != record.sequence || telemetryModeHotWater < record.mode ||
      record.crc32 != telemetryV1RecordCrc record then none
  else
    let power := record.flags &&& telemetryPowerValid != 0 && record.averagePowerW != 0xFFFF
    some {
      timestamp := record.timestamp
      sequence := record.sampleSequence
      inletDeciC := record.inletDeciC
      outletDeciC := record.outletDeciC
      setpointDeciC := record.setpointDeciC
      mode := record.mode
      flags := if power then record.flags else record.flags &&& ~~~telemetryPowerValid
      tankDeciC := if record.flags &&& telemetryTankValid != 0 then record.tankDeciC else 0
      averagePowerW := if power then record.averagePowerW else 0 }

/-- The bytes of a slot in the image of a sector. -/
def telemetrySlotBytes (format : TelemetryFormat) (sectorData : List UInt8) (slot : ℕ) :
    List UInt8 :=
  (sectorData.drop (telemetrySectorHeaderSize + slot * telemetryRecordSizeOf format)).take
    (telemetryRecordSizeOf format)

/-- `telemetry_decode_slot`: nothing for an erased, torn or corrupt slot. -/
def telemetryDecodeSlot (format : TelemetryFormat) (sectorData : List UInt8) (slot : ℕ) :
    Option TelemetrySample :=
  let bytes := telemetrySlotBytes format sectorData slot
  if bytesAreErased bytes then none
  else match format with
    | .v2 => decodeV2Record bytes
    | .v1 => decodeV1Record bytes

/-- `generation_newer`: the distance is read as a signed number. -/
def generationNewer (candidate current : UInt32) : Bool := 0 < (candidate - current).toInt32

/-- The header at the start of the image of a sector. -/
def sectorHeader (sectorData : List UInt8) : TelemetrySectorHeader :=
  telemetrySectorHeader.dec (sectorData.take telemetrySectorHeaderSize)

/-! ### Writing a sector header -/

def telemetrySectorOffset (sector : ℕ) : ℕ := telemetryRegionOffset + sector * flashSectorSize

lemma telemetrySectorOffset_eq (sector : ℕ) :
    telemetrySectorOffset sector = 262144 + sector * 4096 := rfl

/-- The number of telemetry sectors of a partition. -/
def telemetrySectors (f : NorFlash) : ℕ := (f.size - telemetryRegionOffset) / flashSectorSize

/-- The offset of a slot in a format 2 sector, the only format written. -/
def telemetryRecordOffset (sector slot : ℕ) : ℕ :=
  telemetrySectorOffset sector + telemetrySectorHeaderSize + slot * telemetryRecord.size

/-- The header `telemetry_commit_sector` programs: complete but for the commit word,
which is left erased. -/
def newSectorHeader (generation firstSequence : UInt32) : TelemetrySectorHeader :=
  let header : TelemetrySectorHeader := {
    magic := telemetrySectorMagic
    version := telemetryFormatVersion
    headerSize := UInt16.ofNat telemetrySectorHeaderSize
    generation := generation
    firstSequence := firstSequence
    recordSize := UInt16.ofNat telemetryRecord.size
    recordsPerSector := UInt16.ofNat telemetryRecordsPerSector
    reserved := 0xFFFFFFFF
    crc32 := 0xFFFFFFFF
    committed := 0xFFFFFFFF }
  { header with crc32 := telemetryHeaderCrc header }

/-- `telemetry_commit_sector`: the sector is erased, the commit word comes last. -/
def telemetryCommitSector (sector : ℕ) (generation firstSequence : UInt32) : HistoryM Unit := do
  espPartitionEraseRange (telemetrySectorOffset sector) flashSectorSize
  espPartitionWrite (telemetrySectorOffset sector)
    (telemetrySectorHeader.enc (newSectorHeader generation firstSequence))
  espPartitionWrite (telemetrySectorOffset sector + telemetryCommittedOffset)
    (Codec.u32.enc telemetryCommitted)

/-- `telemetry_rotate_locked`: on to the next sector of the ring. -/
def telemetryRotateLocked : HistoryM Unit := do
  let s ← FaultM.get
  let nextSector := (s.telemetry.activeSector + 1) % s.telemetry.sectorCount
  let nextGeneration := advance s.telemetry.generation
  telemetryCommitSector nextSector nextGeneration s.telemetry.nextSequence
  FaultM.modify fun s => { s with telemetry := { s.telemetry with
    activeSector := nextSector, generation := nextGeneration, nextSlot := 0 } }

/-! ### Recovery -/

/-- What the scan of one sector has found so far. -/
structure SectorScan where
  nextSequence : UInt32
  newest : UInt32 := 0
  lastProgrammed : Option ℕ := none

/-- One slot of a sector scanned. -/
def SectorScan.slot (format : TelemetryFormat) (sectorData : List UInt8) (scan : SectorScan)
    (slot : ℕ) : SectorScan :=
  let lastProgrammed := if bytesAreErased (telemetrySlotBytes format sectorData slot)
    then scan.lastProgrammed else some slot
  match telemetryDecodeSlot format sectorData slot with
  | none => { scan with lastProgrammed }
  | some sample =>
      { nextSequence := if sample.sequence ≥ scan.nextSequence then advance sample.sequence
          else scan.nextSequence
        newest := if sample.timestamp > scan.newest then sample.timestamp else scan.newest
        lastProgrammed }

/-- What the scan of the ring has found so far. -/
structure TelemetryScan where
  foundHeader : Bool := false
  activeSector : ℕ := 0
  activeFormat : Option TelemetryFormat := none
  activeNewest : UInt32 := 0
  activeGeneration : UInt32 := 0
  activeNextSlot : ℕ := 0
  maxGeneration : UInt32 := 0
  nextSequence : UInt32 := 1
  lastTimestamp : UInt32 := 0

/-- One sector scanned: the active one is that of the newest record, not simply that of
the highest generation. -/
def TelemetryScan.sector (scan : TelemetryScan) (sector : ℕ) (sectorData : List UInt8) :
    TelemetryScan :=
  let header := sectorHeader sectorData
  match telemetrySectorFormat header with
  | none => scan
  | some format =>
      let nextSequence := if header.firstSequence > scan.nextSequence then header.firstSequence
        else scan.nextSequence
      let found := (List.range (telemetrySlotsIn format)).foldl (SectorScan.slot format sectorData)
        { nextSequence }
      let scanned : TelemetryScan := { scan with
        foundHeader := true
        maxGeneration := if !scan.foundHeader || generationNewer header.generation scan.maxGeneration
          then header.generation else scan.maxGeneration
        nextSequence := found.nextSequence
        lastTimestamp := if found.newest > scan.lastTimestamp then found.newest
          else scan.lastTimestamp }
      if !scan.foundHeader || found.newest > scan.activeNewest ||
          (found.newest == scan.activeNewest &&
            generationNewer header.generation scan.activeGeneration) then
        { scanned with
          activeSector := sector
          activeFormat := some format
          activeNewest := found.newest
          activeGeneration := header.generation
          activeNextSlot := found.lastProgrammed.elim 0 (· + 1) }
      else scanned

/-- The scan of the ring from `sector` on; an error ends it. -/
def scanTelemetrySectors : ℕ → ℕ → TelemetryScan → HistoryM TelemetryScan
  | 0, _, scan => pure scan
  | left + 1, sector, scan => do
      let sectorData ← espPartitionRead (telemetrySectorOffset sector) flashSectorSize
      scanTelemetrySectors left (sector + 1) (scan.sector sector sectorData)

/-- The journal taken over from what the scan found. -/
def adoptTelemetryScan (scan : TelemetryScan) : HistoryM Unit := do
  if !scan.foundHeader then do
    telemetryCommitSector 0 1 1
    FaultM.modify fun s => { s with telemetry := { s.telemetry with
      activeSector := 0
      generation := 1
      nextSequence := 1
      nextSlot := 0
      lastTimestamp := 0
      initialized := true } }
  else do
    FaultM.modify fun s => { s with telemetry := { s.telemetry with
      activeSector := scan.activeSector
      generation := scan.maxGeneration
      nextSequence := scan.nextSequence
      nextSlot := scan.activeNextSlot
      lastTimestamp := scan.lastTimestamp } }
    -- a sector of the older format is left as it is
    if scan.activeFormat ≠ some .v2 then telemetryRotateLocked else pure ()
    FaultM.modify fun s => { s with telemetry := { s.telemetry with initialized := true } }

def telemetryInitializeLocked : HistoryM Unit := do
  let s ← FaultM.get
  if s.factoryResetPending then FaultM.throw .invalidState
  else if s.telemetry.initialized then pure ()
  else do
    historyStorageInit
    let s ← FaultM.get
    if s.flash.size ≤ telemetryRegionOffset then FaultM.throw .invalidSize
    else do
      let sectorCount := (s.flash.size - telemetryRegionOffset) / flashSectorSize
      FaultM.modify fun s => { s with telemetry := { s.telemetry with sectorCount } }
      if sectorCount = 0 then FaultM.throw .invalidSize
      else do
        let scan ← scanTelemetrySectors sectorCount 0 {}
        adoptTelemetryScan scan

/-! ### Appending -/

/-- The attempts to write a record: a slot that could not be written is given up. -/
def telemetryTryAppend (sample : TelemetrySample) : ℕ → EspErr → HistoryM Unit
  | 0, e => FaultM.throw e
  | attempts + 1, _ => do
      let s ← FaultM.get
      if s.telemetry.nextSlot ≥ telemetryRecordsPerSector then telemetryRotateLocked else pure ()
      let s ← FaultM.get
      let written ← (espPartitionWrite
        (telemetryRecordOffset s.telemetry.activeSector s.telemetry.nextSlot)
        (telemetryRecord.enc (packTelemetryRecord sample s.telemetry.nextSequence))).attempt
      FaultM.modify fun s => { s with telemetry := { s.telemetry with
        nextSlot := s.telemetry.nextSlot + 1 } }
      match written with
      | .ok () => FaultM.modify fun s => { s with telemetry := { s.telemetry with
          lastTimestamp := sample.timestamp, nextSequence := advance s.telemetry.nextSequence } }
      | .error e => telemetryTryAppend sample attempts e

/-- The mutex is created by the first call. -/
def ensureTelemetryMutex : HistoryM Unit := do
  let s ← FaultM.get
  if s.telemetryMutex then pure () else historyStorageInit

def historyStorageAppendTelemetry (sample : TelemetrySample) : HistoryM Unit := do
  let s ← FaultM.get
  if sample.timestamp = 0 then FaultM.throw .invalidArg
  else if s.rebootPending then FaultM.throw .invalidState
  else do
    ensureTelemetryMutex
    telemetryInitializeLocked
    let s ← FaultM.get
    if sample.timestamp ≤ s.telemetry.lastTimestamp then FaultM.throw .invalidState
    else telemetryTryAppend sample 2 .fail

/-! ### Querying -/

def telemetrySampleCompare (lhs rhs : TelemetrySample) : Ordering :=
  if lhs.timestamp ≠ rhs.timestamp then
    (if lhs.timestamp < rhs.timestamp then .lt else .gt)
  else if lhs.sequence = rhs.sequence then .eq
  else if lhs.sequence < rhs.sequence then .lt else .gt

/-- The index of the oldest of the samples kept. -/
def oldestSample (samples : List TelemetrySample) : ℕ :=
  (List.range samples.length).foldl (fun oldest i =>
    if telemetrySampleCompare (samples.getD i {}) (samples.getD oldest {}) = .lt then i
    else oldest) 0

/-- A match goes into the output, at the cost of the oldest one when it is full. -/
def keepNewest (capacity : ℕ) (samples : List TelemetrySample) (sample : TelemetrySample) :
    List TelemetrySample :=
  if samples.length < capacity then samples ++ [sample]
  else
    let oldest := oldestSample samples
    if telemetrySampleCompare sample (samples.getD oldest {}) = .gt then samples.set oldest sample
    else samples

/-- The slots of one sector looked through. -/
def querySector (startTimestamp endTimestamp : UInt32) (capacity : ℕ)
    (samples : List TelemetrySample) (sectorData : List UInt8) : List TelemetrySample :=
  match telemetrySectorFormat (sectorHeader sectorData) with
  | none => samples
  | some format =>
      (List.range (telemetrySlotsIn format)).foldl (fun samples slot =>
        match telemetryDecodeSlot format sectorData slot with
        | none => samples
        | some sample =>
            if sample.timestamp < startTimestamp ∨ sample.timestamp ≥ endTimestamp then samples
            else keepNewest capacity samples sample) samples

/-- The sectors of the ring looked through, as far as they can be read. -/
def queryTelemetrySectors (startTimestamp endTimestamp : UInt32) (capacity : ℕ) :
    ℕ → ℕ → List TelemetrySample → HistoryM (List TelemetrySample × Except EspErr Unit)
  | 0, _, samples => pure (samples, .ok ())
  | left + 1, sector, samples => do
      match ← (espPartitionRead (telemetrySectorOffset sector) flashSectorSize).attempt with
      | .error e => pure (samples, .error e)
      | .ok sectorData =>
          queryTelemetrySectors startTimestamp endTimestamp capacity left (sector + 1)
            (querySector startTimestamp endTimestamp capacity samples sectorData)

/-- `history_storage_query_telemetry`. The status is returned next to the output array,
which the source fills as far as it comes. -/
def historyStorageQueryTelemetry (startTimestamp endTimestamp : UInt32) (capacity : ℕ) :
    HistoryM (List TelemetrySample × Except EspErr Unit) := do
  if capacity = 0 ∨ startTimestamp ≥ endTimestamp then pure ([], .error .invalidArg)
  else
    match ← (do ensureTelemetryMutex; telemetryInitializeLocked : HistoryM Unit).attempt with
    | .error e => pure ([], .error e)
    | .ok () => do
        let s ← FaultM.get
        let (samples, status) ← queryTelemetrySectors startTimestamp endTimestamp capacity
          s.telemetry.sectorCount 0 []
        if status.isOk then
          pure (samples.mergeSort (fun a b => telemetrySampleCompare a b ≠ .gt), status)
        else pure (samples, status)

/-! ### Factory reset -/

/-- `history_storage_prepare_factory_reset`: no telemetry call gets past its gate any
more. -/
def historyStoragePrepareFactoryReset : HistoryM Unit := do
  match ← ensureTelemetryMutex.attempt with
  | .error _ => pure ()
  | .ok () => FaultM.modify fun s => { s with factoryResetPending := true }

end ArcticController

/-
The event journal as it lies in flash (`history_storage.cpp`): two banks of
128 KB, each a header sector followed by 64-byte records.

* `EventEntry`, `EventJournalRecord`, `EventBankHeader` with their layouts
  `eventEntry`, `eventJournalRecord`, `eventBankHeader`;
* `recordValid`, `headerValid`, `bytesAreErased`: what the reader accepts;
* `journalRecord`, `bankHeader`: what the writer builds;
* `recordValid_journalRecord`, `headerValid_bankHeader`: what is written
  completely is accepted;
* `TornRejected`: the checksum tells what an interruption left of a record from
  the record.
-/
import ArcticController.Base.Codec
import ArcticController.Platform.Partition

namespace ArcticController

/-! ### Sizes and magic numbers -/

/-- The part of the history partition that holds the two event banks. -/
def historyEventRegionSize : ℕ := 256 * 1024

def eventBankSize : ℕ := historyEventRegionSize / 2

def eventRecordSize : ℕ := 64

/-- The records of one bank: its first sector holds the header alone. -/
def eventRecordsPerBank : ℕ := (eventBankSize - flashSectorSize) / eventRecordSize

def bankMagic : UInt32 := 0x48424B31

def recordMagic : UInt32 := 0x48455631

def formatVersion : UInt16 := 1

def recordKindUpsert : UInt16 := 1

/-- The word that commits a bank once it is programmed into its header. -/
def bankCommittedWord : UInt32 := 0

/-- The number of event types (`EVENT_TYPE_COUNT`). -/
def eventTypeCount : UInt32 := 35

/-! ### Structures and their layouts -/

/-- An event (`event_entry_t`). -/
structure EventEntry where
  timestamp : UInt32
  bootId : UInt32
  uptimeMs : UInt64
  type : UInt32
  payload : UInt32
deriving DecidableEq, Repr, Inhabited

/-- The 24 bytes of an event. -/
def eventEntry : Codec EventEntry :=
  (Codec.pair .u32 <| .pair .u32 <| .pair .u64 <| .pair .u32 .u32).iso
    (fun p => ⟨p.1, p.2.1, p.2.2.1, p.2.2.2.1, p.2.2.2.2⟩)
    (fun e => (e.timestamp, e.bootId, e.uptimeMs, e.type, e.payload)) (fun _ => rfl)

/-- The header of a bank (`event_bank_header_t`). -/
structure EventBankHeader where
  magic : UInt32
  version : UInt16
  headerSize : UInt16
  generation : UInt32
  committed : UInt32
  reserved : Fin 16 → UInt8

/-- The 32 bytes of a bank header. -/
def eventBankHeader : Codec EventBankHeader :=
  (Codec.pair .u32 <| .pair .u16 <| .pair .u16 <| .pair .u32 <| .pair .u32 <|
      .array 16 .u8).iso
    (fun p => ⟨p.1, p.2.1, p.2.2.1, p.2.2.2.1, p.2.2.2.2.1, p.2.2.2.2.2⟩)
    (fun h => (h.magic, h.version, h.headerSize, h.generation, h.committed, h.reserved))
    (fun _ => rfl)

/-- A journal record (`event_journal_record_t`). -/
structure EventJournalRecord where
  magic : UInt32
  version : UInt16
  kind : UInt16
  journalSequence : UInt32
  eventId : UInt32
  entry : EventEntry
  reserved : Fin 20 → UInt8
  crc32 : UInt32

/-- The 60 bytes of a record its checksum covers. -/
def eventJournalBody :
    Codec (UInt32 × UInt16 × UInt16 × UInt32 × UInt32 × EventEntry × (Fin 20 → UInt8)) :=
  .pair .u32 <| .pair .u16 <| .pair .u16 <| .pair .u32 <| .pair .u32 <| .pair eventEntry <|
    .array 20 .u8

/-- The 64 bytes of a record. -/
def eventJournalRecord : Codec EventJournalRecord :=
  (Codec.pair eventJournalBody .u32).iso
    (fun p => ⟨p.1.1, p.1.2.1, p.1.2.2.1, p.1.2.2.2.1, p.1.2.2.2.2.1, p.1.2.2.2.2.2.1,
      p.1.2.2.2.2.2.2, p.2⟩)
    (fun r => ((r.magic, r.version, r.kind, r.journalSequence, r.eventId, r.entry, r.reserved),
      r.crc32))
    (fun _ => rfl)

lemma eventBankHeader_size : eventBankHeader.size = 32 := rfl

lemma eventJournalRecord_size : eventJournalRecord.size = eventRecordSize := rfl

/-! ### What the reader accepts -/

/-- Every byte is erased (`bytes_are_erased`). -/
def bytesAreErased (bytes : List UInt8) : Bool := bytes.all (· == 0xFF)

/-- The checksum of a record: everything before the checksum itself. -/
def recordCrc (record : EventJournalRecord) : UInt32 :=
  espCrc32Le 0 ((eventJournalRecord.enc record).take 60)

def headerValid (header : EventBankHeader) : Bool :=
  header.magic == bankMagic && header.version == formatVersion &&
    header.headerSize.toNat == eventBankHeader.size && header.committed == bankCommittedWord

def recordValid (record : EventJournalRecord) : Bool :=
  record.magic == recordMagic && record.version == formatVersion &&
    record.kind == recordKindUpsert && record.eventId != 0 &&
    record.entry.type < eventTypeCount && record.crc32 == recordCrc record

/-! ### What the writer builds -/

/-- The record `write_record` programs: unused bytes stay erased and the
checksum is computed last. -/
def journalRecord (journalSequence eventId : UInt32) (entry : EventEntry) :
    EventJournalRecord :=
  let record : EventJournalRecord :=
    ⟨recordMagic, formatVersion, recordKindUpsert, journalSequence, eventId, entry,
      fun _ => 0xFF, 0xFFFFFFFF⟩
  { record with crc32 := recordCrc record }

/-- The header `commit_bank` programs: complete but for the commit word, which
is left erased. -/
def bankHeader (generation : UInt32) : EventBankHeader :=
  ⟨bankMagic, formatVersion, 32, generation, 0xFFFFFFFF, fun _ => 0xFF⟩

/-- The checksum does not depend on the field that stores it. -/
lemma recordCrc_with_crc32 (record : EventJournalRecord) (c : UInt32) :
    recordCrc { record with crc32 := c } = recordCrc record := by
  have htake : ∀ r : EventJournalRecord, (eventJournalRecord.enc r).take 60
      = eventJournalBody.enc (r.magic, r.version, r.kind, r.journalSequence, r.eventId, r.entry,
          r.reserved) := fun r =>
    List.take_left' (eventJournalBody.enc_length _)
  rw [recordCrc, recordCrc, htake, htake]

/-- A completely written record with a usable id and type is accepted. -/
lemma recordValid_journalRecord {q id : UInt32} {entry : EventEntry} (hid : id ≠ 0)
    (htype : entry.type < eventTypeCount) : recordValid (journalRecord q id entry) = true := by
  have hcrc : recordCrc (journalRecord q id entry) = (journalRecord q id entry).crc32 :=
    recordCrc_with_crc32 _ _
  simp only [recordValid, hcrc]
  simp [journalRecord, hid, htype]

lemma recordValid_fields {record : EventJournalRecord} (h : recordValid record = true) :
    record.eventId ≠ 0 ∧ record.entry.type < eventTypeCount := by
  simp only [recordValid, Bool.and_eq_true, bne_iff_ne, decide_eq_true_eq] at h
  exact ⟨h.1.1.2, h.1.2⟩

/-- A header with its commit word programmed is accepted. -/
lemma headerValid_bankHeader (generation : UInt32) :
    headerValid { bankHeader generation with committed := bankCommittedWord } = true := by
  simp [headerValid, bankHeader, eventBankHeader_size]

lemma bytesAreErased_iff (bytes : List UInt8) :
    bytesAreErased bytes = true ↔ bytes = List.replicate bytes.length 0xFF := by
  rw [bytesAreErased, List.all_eq_true, List.eq_replicate_iff]
  simp

/-- The first byte of a record, which is never the erased one. -/
lemma journalRecord_head (q id : UInt32) (entry : EventEntry) :
    ∃ rest, eventJournalRecord.enc (journalRecord q id entry) = 0x31 :: rest := by
  have hmagic : Codec.u32.enc recordMagic = [0x31, 0x56, 0x45, 0x48] := by decide
  have hsplit : ∃ rest, eventJournalRecord.enc (journalRecord q id entry)
      = Codec.u32.enc recordMagic ++ rest :=
    ⟨_, List.append_assoc (Codec.u32.enc recordMagic) _ _⟩
  obtain ⟨rest, hrest⟩ := hsplit
  exact ⟨_, by rw [hrest, hmagic]; rfl⟩

/-- A record of which at least one byte was programmed does not look erased. -/
lemma bytesAreErased_torn {q id : UInt32} {entry : EventEntry} {k : ℕ} (hk : 0 < k) :
    bytesAreErased (NorFlash.torn (eventJournalRecord.enc (journalRecord q id entry)) k)
      = false := by
  obtain ⟨rest, hrest⟩ := journalRecord_head q id entry
  obtain ⟨n, rfl⟩ : ∃ n, k = n + 1 := ⟨k - 1, by omega⟩
  rw [hrest, NorFlash.torn, List.take_succ_cons]
  simp [bytesAreErased]

lemma bytesAreErased_enc (q id : UInt32) (entry : EventEntry) :
    bytesAreErased (eventJournalRecord.enc (journalRecord q id entry)) = false := by
  have h := @bytesAreErased_torn q id entry 64 (by decide)
  rwa [NorFlash.torn_of_length_le (by simp [eventJournalRecord_size, eventRecordSize])] at h

/-- The checksum tells a record from what an interruption after `k` bytes left
of it: that is the whole record or not a valid one. -/
def TornRejected (bytes : List UInt8) (k : ℕ) : Prop :=
  bytes.length = eventRecordSize → NorFlash.torn bytes k ≠ bytes →
    recordValid (eventJournalRecord.dec (NorFlash.torn bytes k)) = false

instance (bytes : List UInt8) (k : ℕ) : Decidable (TornRejected bytes k) :=
  inferInstanceAs (Decidable (_ → _ → _))

/-- What an interrupted program operation may leave of a record in an erased
slot. -/
lemma TornRejected.cases {record : EventJournalRecord} {k : ℕ}
    (h : TornRejected (eventJournalRecord.enc record) k) :
    NorFlash.torn (eventJournalRecord.enc record) k = eventJournalRecord.enc record ∨
      recordValid (eventJournalRecord.dec (NorFlash.torn (eventJournalRecord.enc record) k))
        = false :=
  or_iff_not_imp_left.mpr (h (by rw [Codec.length_enc, eventJournalRecord_size]))

end ArcticController

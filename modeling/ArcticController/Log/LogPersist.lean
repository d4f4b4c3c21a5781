/-
The persistent debug log of `log_persist.cpp`: snapshots of the log ring in
32 KB slots written round-robin, and the scan that finds the newest one at boot.

* `LpHeader`, `LogRecord`, `recordBytes`: a snapshot and its bytes;
* `LogPersist`: the partition and the static variables of the module;
* `buildTailText`, `flushLocked`: what a flush writes, and where;
* `scanLogSlot`, `scanLogSlots`, `scanAndLoadPrevious`, `logPersistInit`: the boot;
* `acceptedHeader`: what the scan accepts in a slot that can be read.
-/
import ArcticController.Base.Codec
import ArcticController.Base.FlashParts
import ArcticController.Platform.Partition

namespace ArcticController

/-! ### Slots and records -/

def lpSlotSize : ℕ := 32 * 1024

def lpMagic : UInt32 := 0xD10B0106

/-- The header of a slot (`lp_header_t`). -/
structure LpHeader where
  magic : UInt32
  seq : UInt32
  bootId : UInt32
  len : UInt32
  crc : UInt32
  reason : UInt8
  pad : Fin 3 → UInt8

/-- The 24 bytes of a slot header. -/
def lpHeader : Codec LpHeader :=
  (Codec.pair .u32 <| .pair .u32 <| .pair .u32 <| .pair .u32 <| .pair .u32 <| .pair .u8 <|
      .array 3 .u8).iso
    (fun p => ⟨p.1, p.2.1, p.2.2.1, p.2.2.2.1, p.2.2.2.2.1, p.2.2.2.2.2.1, p.2.2.2.2.2.2⟩)
    (fun h => (h.magic, h.seq, h.bootId, h.len, h.crc, h.reason, h.pad)) (fun _ => rfl)

lemma lpHeader_size : lpHeader.size = 24 := rfl

def lpPayloadMax : ℕ := lpSlotSize - lpHeader.size

lemma lpPayloadMax_eq : lpPayloadMax = 32744 := rfl

/-- A snapshot: its text fits into a slot. -/
structure LogRecord where
  seq : UInt32
  bootId : UInt32
  reason : UInt8
  text : List UInt8
  fits : text.length ≤ lpPayloadMax
deriving DecidableEq

section Record

variable (crc32 : UInt32 → List UInt8 → UInt32)

/-- The header `flush_locked` fills in, the rest of the record being zero. -/
def LogRecord.header (r : LogRecord) : LpHeader where
  magic := lpMagic
  seq := r.seq
  bootId := r.bootId
  len := UInt32.ofNat r.text.length
  crc := crc32 0 r.text
  reason := r.reason
  pad := fun _ => 0

/-- A snapshot without the bytes that round its length up. -/
def LogRecord.bytes (r : LogRecord) : List UInt8 := lpHeader.enc (r.header crc32) ++ r.text

def roundUp4 (n : ℕ) : ℕ := (n + 3) / 4 * 4

/-- What is programmed: the snapshot, rounded up to whole words. -/
def recordBytes (r : LogRecord) : List UInt8 :=
  r.bytes crc32 ++ List.replicate (roundUp4 (r.bytes crc32).length - (r.bytes crc32).length) 0

end Record

/-! ### The state of the module -/

/-- What is known about the snapshot of the previous boot (`log_persist_prev_info_t`). -/
structure LogPrevInfo where
  present : Bool := false
  seq : UInt32 := 0
  bootId : UInt32 := 0
  len : UInt32 := 0
  reason : UInt8 := 0
deriving DecidableEq, Repr

/-- The partition and the static variables of `log_persist.cpp`; `part` says
that `s_part` is set. -/
structure LogPersist where
  flash : NorFlash
  part : Bool := false
  bootId : UInt32 := 0
  nextSeq : UInt32 := 1
  nextSlot : ℕ := 0
  prevText : Option (List UInt8) := none
  prevInfo : LogPrevInfo := {}

/-- A reset keeps the flash and nothing else. -/
def LogPersist.reboot (s : LogPersist) : LogPersist := { flash := s.flash }

/-- `s_n_slots`, computed from the size of the partition. -/
def LogPersist.nSlots (s : LogPersist) : ℕ := s.flash.size / lpSlotSize

instance : OnFlash LogPersist where
  flash := LogPersist.flash
  withFlash s f := { s with flash := f }

/-- Computations of the module, each flash operation logged with the state it
found. -/
abbrev LogM (α : Type) : Type := FaultM LogPersist FlashFault (FlashOp × LogPersist) EspErr α

/-! ### Flushing -/

/-- The part of the formatted ring a slot has room for: its end, from the first
line on that starts there. -/
def buildTailText (scratch : List UInt8) : List UInt8 :=
  if lpPayloadMax < scratch.length then
    let start := scratch.drop (scratch.length - lpPayloadMax)
    match start.dropWhile (· != 0x0A) with
    | _ :: rest => rest
    | [] => start
  else scratch

/-- The snapshot the next flush writes. -/
def LogPersist.snapshot (s : LogPersist) (reason : UInt8) (scratch : List UInt8) : LogRecord where
  seq := s.nextSeq
  bootId := s.bootId
  reason := reason
  text := (buildTailText scratch).take lpPayloadMax
  fits := List.length_take_le _ _

/-- Erase a slot and program a record into it. -/
def writeSlot (slot : ℕ) (bytes : List UInt8) : LogM Unit := do
  espPartitionEraseRange (slot * lpSlotSize) lpSlotSize
  espPartitionWrite (slot * lpSlotSize) bytes

section Module

variable (crc32 : UInt32 → List UInt8 → UInt32)

/-- `flush_locked`, of the formatted ring `scratch`, `none` where one of its
buffers cannot be had. It returns whether the snapshot was reported written. -/
def flushLocked (reason : UInt8) (scratch : Option (List UInt8)) : LogM Bool := do
  let s ← FaultM.get
  if s.part then
    match scratch with
    | none => pure false
    | some scratch => do
        match ← (writeSlot s.nextSlot (recordBytes crc32 (s.snapshot reason scratch))).attempt with
        | .ok () => do
            FaultM.modify fun s =>
              { s with nextSeq := s.nextSeq + 1, nextSlot := (s.nextSlot + 1) % s.nSlots }
            pure true
        | .error _ => pure false
  else pure false

/-! ### Booting -/

/-- What the scan finds in one slot; a slot that cannot be read is passed over. -/
def scanLogSlot (slot : ℕ) : LogM (Option LpHeader) := do
  match ← (espPartitionRead (slot * lpSlotSize) lpHeader.size).attempt with
  | .error _ => pure none
  | .ok bytes =>
      let hdr := lpHeader.dec bytes
      if hdr.magic ≠ lpMagic then pure none
      else if hdr.len = 0 ∨ lpPayloadMax < hdr.len.toNat then pure none
      else do
        match ← (espPartitionRead (slot * lpSlotSize + lpHeader.size) hdr.len.toNat).attempt with
        | .error _ => pure none
        | .ok payload => pure (if crc32 0 payload ≠ hdr.crc then none else some hdr)

/-- One round of the scan: a slot replaces the best one so far unless it is older. -/
def newer (best : Option (ℕ × LpHeader)) (slot : ℕ) : Option LpHeader → Option (ℕ × LpHeader)
  | none => best
  | some hdr => if (best.elim 0 fun b => b.2.seq) ≤ hdr.seq then some (slot, hdr) else best

def scanLogSlots : List ℕ → Option (ℕ × LpHeader) → LogM (Option (ℕ × LpHeader))
  | [], best => pure best
  | slot :: slots, best => do
      let found ← scanLogSlot crc32 slot
      scanLogSlots slots (newer best slot found)

/-- What is kept about the snapshot that is loaded. -/
def prevInfoOf (hdr : LpHeader) : LogPrevInfo where
  present := true
  seq := hdr.seq
  bootId := hdr.bootId
  len := hdr.len
  reason := hdr.reason

def scanAndLoadPrevious : LogM Unit := do
  let s ← FaultM.get
  match ← scanLogSlots crc32 (List.range s.nSlots) none with
  | none => FaultM.modify fun s => { s with nextSeq := 1, nextSlot := 0 }
  | some (slot, hdr) => do
      match ← (espPartitionRead (slot * lpSlotSize + lpHeader.size) hdr.len.toNat).attempt with
      | .ok text =>
          FaultM.modify fun s => { s with prevText := some text, prevInfo := prevInfoOf hdr }
      | .error _ => pure ()
      FaultM.modify fun s =>
        { s with nextSeq := hdr.seq + 1, nextSlot := (slot + 1) % s.nSlots }

/-- `log_persist_init`, with the random number that names the boot. -/
def logPersistInit (bootId : UInt32) : LogM Bool := do
  FaultM.modify fun s => { s with bootId := bootId, part := true }
  let s ← FaultM.get
  if s.nSlots < 1 then do
    FaultM.modify fun s => { s with part := false }
    pure false
  else do
    scanAndLoadPrevious crc32
    pure true

/-- What the scan accepts in the image of a slot. -/
def acceptedHeader (slot : NorFlash) : Option LpHeader :=
  let hdr := lpHeader.dec (slot.read 0 lpHeader.size)
  if hdr.magic ≠ lpMagic then none
  else if hdr.len = 0 ∨ lpPayloadMax < hdr.len.toNat then none
  else if crc32 0 (slot.read lpHeader.size hdr.len.toNat) ≠ hdr.crc then none
  else some hdr

end Module

end ArcticController

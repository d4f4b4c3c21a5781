/-
A decoder of uncompressed PNG files with three chunks.

* `readChunk`: a chunk with its length and its CRC-32;
* `readStored`: stored deflate blocks, up to the final one;
* `zlibStored`: a zlib stream of them, with its Adler-32;
* `readRows`: rows without a filter;
* `decodePng`: a file of eight bits a channel, red, green and blue.
-/
import ArcticController.Base.BigEndian
import ArcticController.Base.Checksums

namespace ArcticController

/-! ### Bytes -/

/-- The first `n` bytes, and those behind them. -/
def takeBytes (n : ℕ) (bytes : List UInt8) : Option (List UInt8 × List UInt8) :=
  if n ≤ bytes.length then some (bytes.take n, bytes.drop n) else none

@[simp] lemma takeBytes_append {n : ℕ} {bytes : List UInt8} (h : bytes.length = n)
    (rest : List UInt8) : takeBytes n (bytes ++ rest) = some (bytes, rest) := by
  subst h
  rw [takeBytes, if_pos (by rw [List.length_append]; omega), List.take_left', List.drop_left'] <;> rfl

/-! ### Chunks -/

structure PngChunk where
  type : List UInt8
  data : List UInt8
deriving DecidableEq, Repr

def readChunk (bytes : List UInt8) : Option (PngChunk × List UInt8) := do
  let (len, bytes) ← takeBytes 4 bytes
  let (type, bytes) ← takeBytes 4 bytes
  let (data, bytes) ← takeBytes (beNat len) bytes
  let (crc, bytes) ← takeBytes 4 bytes
  if beNat len < 2 ^ 31 ∧ beNat crc = (crc32 (type ++ data)).toNat then some (⟨type, data⟩, bytes)
  else none

/-! ### The compressed stream -/

/-- The contents of stored blocks up to the final one, and the bytes behind it. There
are no more than `fuel` blocks. -/
def readStored : ℕ → List UInt8 → Option (List UInt8 × List UInt8)
  | 0, _ => none
  | fuel + 1, bytes => do
      let (head, bytes) ← takeBytes 1 bytes
      let (len, bytes) ← takeBytes 2 bytes
      let (nlen, bytes) ← takeBytes 2 bytes
      let (data, bytes) ← takeBytes (leNat 2 len) bytes
      if leNat 2 len + leNat 2 nlen = 65535 then
        if head = [1] then some (data, bytes)
        else if head = [0] then
          (readStored fuel bytes).map fun (rest, bytes) => (data ++ rest, bytes)
        else none
      else none

/-- A header of deflate with a window of at most 32 K and no dictionary. -/
def zlibHeader (header : List UInt8) : Bool :=
  let cmf := (header.headD 0).toNat
  let flg := (header.getD 1 0).toNat
  cmf % 16 == 8 && decide (cmf / 16 ≤ 7) && (cmf * 256 + flg) % 31 == 0 && flg / 32 % 2 == 0

def zlibStored (bytes : List UInt8) : Option (List UInt8) := do
  let (header, bytes) ← takeBytes 2 bytes
  let (raw, bytes) ← readStored bytes.length bytes
  if zlibHeader header = true ∧ bytes.length = 4 ∧ beNat bytes = (adler32 raw).toNat then some raw
  else none

/-! ### Images -/

/-- The pixels of some rows, all of them without a filter. -/
def readRows (rowBytes : ℕ) : ℕ → List UInt8 → Option (List UInt8)
  | 0, bytes => if bytes = [] then some [] else none
  | rows + 1, bytes => do
      let (filter, bytes) ← takeBytes 1 bytes
      let (row, bytes) ← takeBytes rowBytes bytes
      let rest ← readRows rowBytes rows bytes
      if filter = [0] then some (row ++ rest) else none

structure PngImage where
  width : ℕ
  height : ℕ
  pixels : List UInt8
deriving DecidableEq, Repr

def pngSignature : List UInt8 := [0x89, 0x50, 0x4E, 0x47, 0x0D, 0x0A, 0x1A, 0x0A]

def typeIhdr : List UInt8 := [0x49, 0x48, 0x44, 0x52]
def typeIdat : List UInt8 := [0x49, 0x44, 0x41, 0x54]
def typeIend : List UInt8 := [0x49, 0x45, 0x4E, 0x44]

/-- The width and the height of a header of eight bits a channel, in colour, with
neither interlacing nor other filters than those of each row. -/
def readIhdr (c : PngChunk) : Option (ℕ × ℕ) :=
  let w := beNat (c.data.take 4)
  let h := beNat ((c.data.drop 4).take 4)
  if c.type = typeIhdr ∧ c.data.drop 8 = [8, 2, 0, 0, 0] ∧ (0 < w ∧ w < 2 ^ 31) ∧ 0 < h ∧ h < 2 ^ 31 then
    some (w, h)
  else none

def decodePng (bytes : List UInt8) : Option PngImage := do
  let (signature, bytes) ← takeBytes 8 bytes
  let (header, bytes) ← readChunk bytes
  let (data, bytes) ← readChunk bytes
  let (last, bytes) ← readChunk bytes
  let (w, h) ← readIhdr header
  let raw ← zlibStored data.data
  let pixels ← readRows (3 * w) h raw
  if signature = pngSignature ∧ data.type = typeIdat ∧ last = ⟨typeIend, []⟩ ∧ bytes = [] then
    some ⟨w, h, pixels⟩
  else none

end ArcticController

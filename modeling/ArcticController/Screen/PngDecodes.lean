/-
A screenshot decodes to its pixels.

* `readChunk_chunkBytes`: a chunk is read back, whatever follows it;
* `readStored_rows`: the stored blocks hold the rows, and the last one is the final one;
* `readRows_rows`, `flatMap_pngRow`: the rows hold the pixels;
* `decodePng_pngBytes`: the file decodes to the image;
* `screenshot_decodes`: what reaches the callback.
-/
import ArcticController.Screen.PngWrites

namespace ArcticController

/-! ### Numbers -/

lemma beNat_be32 (v : UInt32) : beNat (be32 v) = v.toNat := by
  have hlt := v.toNat_lt
  have hshift : ∀ k : UInt32, k.toNat < 32 →
      (v >>> k).toUInt8.toNat = v.toNat / 2 ^ k.toNat % 256 := by
    intro k hk
    rw [UInt32.toNat_toUInt8, UInt32.toNat_shiftRight, Nat.mod_eq_of_lt hk,
      Nat.shiftRight_eq_div_pow]
  have h₂₄ : (v >>> 24).toUInt8.toNat = v.toNat / 16777216 % 256 := hshift 24 (by decide)
  have h₁₆ : (v >>> 16).toUInt8.toNat = v.toNat / 65536 % 256 := hshift 16 (by decide)
  have h₈ : (v >>> 8).toUInt8.toNat = v.toNat / 256 % 256 := hshift 8 (by decide)
  have h₀ : v.toUInt8.toNat = v.toNat % 256 := UInt32.toNat_toUInt8 v
  simp only [be32, beNat, List.foldl_cons, List.foldl_nil, h₂₄, h₁₆, h₈, h₀]
  omega

@[simp] lemma be32_length (v : UInt32) : (be32 v).length = 4 := rfl

lemma leNat_le16 (v : UInt16) : leNat 2 (le16 v) = v.toNat := by
  have hlt := v.toNat_lt
  have h₀ : v.toUInt8.toNat = v.toNat % 256 := UInt16.toNat_toUInt8 v
  have h₈ : (v >>> 8).toUInt8.toNat = v.toNat / 256 % 256 := by
    rw [UInt16.toNat_toUInt8, UInt16.toNat_shiftRight]
    exact congrArg (· % 256) (Nat.shiftRight_eq_div_pow _ 8)
  simp only [le16, leNat, h₀, h₈]
  omega

/-! ### Chunks -/

/-- A chunk is read back. -/
lemma readChunk_chunkBytes {type data : List UInt8} (htype : type.length = 4)
    (hdata : data.length < 2 ^ 31) (rest : List UInt8) :
    readChunk (chunkBytes type data ++ rest) = some (⟨type, data⟩, rest) := by
  have hlen : beNat (be32 (UInt32.ofNat data.length)) = data.length := by
    rw [beNat_be32, UInt32.toNat_ofNat_of_lt' (show data.length < 2 ^ 32 by omega)]
  have hparts : chunkBytes type data ++ rest = be32 (UInt32.ofNat data.length) ++
      (type ++ (data ++ (be32 (crc32 (type ++ data)) ++ rest))) := by
    simp only [chunkBytes, List.append_assoc]
  rw [readChunk, hparts]
  simp only [takeBytes_append (be32_length _), takeBytes_append htype, takeBytes_append hlen.symm,
    Option.bind_eq_bind, Option.bind_some]
  rw [if_pos ⟨by rw [hlen]; exact hdata, beNat_be32 _⟩]

/-! ### Rows -/

/-- The widths and heights the format and the encoder can hold. -/
structure Encodable (w h : UInt32) (pixels : List UInt8) : Prop where
  width_pos : 1 ≤ w.toNat
  height_pos : 1 ≤ h.toNat
  scanline : 3 * w.toNat + 1 ≤ 65535
  payload : 2 + h.toNat * (5 + (1 + 3 * w.toNat)) + 4 < 2 ^ 31
  pixels_length : pixels.length = h.toNat * (3 * w.toNat)

section Encodable

variable {w h : UInt32} {pixels : List UInt8}

lemma Encodable.rowBytes (henc : Encodable w h pixels) : (w * 3).toNat = 3 * w.toNat := by
  have := henc.scanline
  rw [UInt32.toNat_mul]
  exact (Nat.mod_eq_of_lt (show w.toNat * 3 < 2 ^ 32 by omega)).trans (Nat.mul_comm _ _)

lemma Encodable.scanline_toNat (henc : Encodable w h pixels) :
    (1 + w * 3).toNat = 3 * w.toNat + 1 := by
  have := henc.scanline
  rw [UInt32.toNat_add, henc.rowBytes]
  exact (Nat.mod_eq_of_lt (show 1 + 3 * w.toNat < 2 ^ 32 by omega)).trans (Nat.add_comm _ _)

lemma Encodable.height_lt (henc : Encodable w h pixels) : h.toNat < 2 ^ 31 := by
  have := henc.payload
  have := Nat.mul_le_mul_left h.toNat (show 1 ≤ 5 + (1 + 3 * w.toNat) by omega)
  omega

lemma pngRow_length (henc : Encodable w h pixels) {y : ℕ} (hy : y < h.toNat) :
    (pngRow w pixels y).length = 3 * w.toNat := by
  have hmul : (y + 1) * (3 * w.toNat) ≤ h.toNat * (3 * w.toNat) := Nat.mul_le_mul_right _ hy
  have hexpand : (y + 1) * (3 * w.toNat) = y * w.toNat * 3 + 3 * w.toNat := by ring
  rw [pngRow, List.length_take, List.length_drop, henc.rowBytes, henc.pixels_length]
  omega

lemma rawRow_length (henc : Encodable w h pixels) {y : ℕ} (hy : y < h.toNat) :
    (rawRow w pixels y).length = 3 * w.toNat + 1 := by
  rw [rawRow, List.length_cons, pngRow_length henc hy]

lemma storedRow_length (henc : Encodable w h pixels) {y : ℕ} (hy : y < h.toNat) :
    (storedRow w h pixels y).length = 5 + (1 + 3 * w.toNat) := by
  have hblk : (pngBlk w h y).length = 5 := rfl
  rw [storedRow, List.length_append, hblk, rawRow_length henc hy]
  omega

/-- The length and its complement in the header of a block. -/
lemma blk_lengths (henc : Encodable w h pixels) :
    leNat 2 (le16 (1 + w * 3).toUInt16) = 3 * w.toNat + 1 ∧
      leNat 2 (le16 (1 + w * 3).toUInt16) + leNat 2 (le16 (~~~ (1 + w * 3)).toUInt16) = 65535 := by
  have hs := henc.scanline_toNat
  have := henc.scanline
  have hlow : (1 + w * 3).toUInt16.toNat = 3 * w.toNat + 1 := by
    rw [UInt32.toNat_toUInt16, hs]
    exact Nat.mod_eq_of_lt (by omega)
  have hhigh : (~~~ (1 + w * 3)).toUInt16.toNat = 65535 - (3 * w.toNat + 1) := by
    rw [UInt32.toNat_toUInt16, UInt32.toNat_not, hs]
    change (4294967296 - 1 - (3 * w.toNat + 1)) % 65536 = _
    omega
  rw [leNat_le16, leNat_le16, hlow, hhigh]
  omega

/-- One stored block is read back: the final one ends the stream. -/
lemma readStored_storedRow (henc : Encodable w h pixels) {y : ℕ} (hy : y < h.toNat) (fuel : ℕ)
    (rest : List UInt8) : readStored (fuel + 1) (storedRow w h pixels y ++ rest)
      = if UInt32.ofNat y = h - 1 then some (rawRow w pixels y, rest)
        else (readStored fuel rest).map fun (r : List UInt8 × List UInt8) =>
          (rawRow w pixels y ++ r.1, r.2) := by
  obtain ⟨hlen, hsum⟩ := blk_lengths henc
  have hparts : storedRow w h pixels y ++ rest
      = [if UInt32.ofNat y = h - 1 then 0x01 else 0x00] ++ (le16 (1 + w * 3).toUInt16 ++
          (le16 (~~~ (1 + w * 3)).toUInt16 ++ (rawRow w pixels y ++ rest))) := by
    simp only [storedRow, pngBlk, List.append_assoc, List.cons_append, List.nil_append]
  have hraw : (rawRow w pixels y).length = leNat 2 (le16 (1 + w * 3).toUInt16) := by
    rw [hlen, rawRow_length henc hy]
  rw [readStored, hparts]
  simp only [takeBytes_append (List.length_singleton), takeBytes_append (show (le16 _).length = 2 from rfl),
    takeBytes_append hraw, Option.bind_eq_bind, Option.bind_some]
  rw [if_pos hsum]
  by_cases hlast : UInt32.ofNat y = h - 1
  · rw [if_pos hlast, if_pos hlast, if_pos rfl]
  · rw [if_neg hlast, if_neg hlast, if_neg (by decide), if_pos rfl]

/-- The last row has the final block, and no other one. -/
lemma last_row_iff (henc : Encodable w h pixels) {y : ℕ} (hy : y < h.toNat) :
    UInt32.ofNat y = h - 1 ↔ y + 1 = h.toNat := by
  have hpos := henc.height_pos
  have hlt := h.toNat_lt
  have hsub : (h - 1).toNat = h.toNat - 1 := UInt32.toNat_sub_of_le _ _ (by
    rw [UInt32.le_iff_toNat_le]
    exact hpos)
  rw [← UInt32.toNat_inj, hsub, UInt32.toNat_ofNat_of_lt' (show y < 2 ^ 32 by omega)]
  omega

/-- The stored blocks from a row on; the induction is on the rows that follow it. -/
lemma readStored_rows (henc : Encodable w h pixels) (rest : List UInt8) (n : ℕ) {y fuel : ℕ}
    (hy : y + n + 1 = h.toNat) (hfuel : n < fuel) :
    readStored fuel ((List.range' y (n + 1)).flatMap (storedRow w h pixels) ++ rest)
      = some ((List.range' y (n + 1)).flatMap (rawRow w pixels), rest) := by
  induction n generalizing y fuel with
  | zero =>
      obtain ⟨fuel, rfl⟩ := Nat.exists_eq_succ_of_ne_zero (Nat.ne_of_gt hfuel)
      have hlast : UInt32.ofNat y = h - 1 := (last_row_iff henc (by omega)).mpr hy
      simp only [List.range'_succ, List.range'_zero, List.flatMap_cons, List.flatMap_nil,
        List.append_nil]
      rw [readStored_storedRow henc (by omega), if_pos hlast]
  | succ n ih =>
      obtain ⟨fuel, rfl⟩ := Nat.exists_eq_succ_of_ne_zero (Nat.ne_of_gt (Nat.zero_lt_of_lt hfuel))
      have hlast : ¬ UInt32.ofNat y = h - 1 := fun heq => by
        have := (last_row_iff henc (by omega)).mp heq
        omega
      rw [List.range'_succ, List.flatMap_cons, List.flatMap_cons, List.append_assoc,
        readStored_storedRow henc (by omega), if_neg hlast, ih (by omega) (by omega)]
      rfl

lemma readRows_rows (henc : Encodable w h pixels) (n : ℕ) {y : ℕ} (hy : y + n ≤ h.toNat) :
    readRows (3 * w.toNat) n ((List.range' y n).flatMap (rawRow w pixels))
      = some ((List.range' y n).flatMap (pngRow w pixels)) := by
  induction n generalizing y with
  | zero => rfl
  | succ n ih =>
      have hrow := pngRow_length henc (show y < h.toNat by omega)
      have hparts : rawRow w pixels y ++ (List.range' (y + 1) n).flatMap (rawRow w pixels)
          = [0x00] ++ (pngRow w pixels y ++ (List.range' (y + 1) n).flatMap (rawRow w pixels)) := by
        simp only [rawRow, List.cons_append, List.nil_append]
      rw [List.range'_succ, List.flatMap_cons, List.flatMap_cons, readRows, hparts]
      simp only [takeBytes_append List.length_singleton, takeBytes_append hrow,
        ih (show y + 1 + n ≤ h.toNat by omega), Option.bind_eq_bind, Option.bind_some, if_true]

/-- The rows are the pixels. -/
lemma flatMap_pngRow (henc : Encodable w h pixels) (n y : ℕ) :
    (List.range' y n).flatMap (pngRow w pixels)
      = (pixels.drop (y * (3 * w.toNat))).take (n * (3 * w.toNat)) := by
  induction n generalizing y with
  | zero => simp
  | succ n ih =>
      have hstart : y * w.toNat * 3 = y * (3 * w.toNat) := by ring
      rw [List.range'_succ, List.flatMap_cons, ih, pngRow, henc.rowBytes, hstart,
        Nat.add_mul n 1, Nat.one_mul, Nat.add_comm (n * (3 * w.toNat)), List.take_add, List.drop_drop,
        Nat.add_mul y 1, Nat.one_mul]

lemma rawImage_eq : rawImage w h pixels = (List.range' 0 h.toNat).flatMap (rawRow w pixels) := by
  rw [rawImage, List.range_eq_range']

/-! ### The file -/

lemma idatBytes_length (henc : Encodable w h pixels) :
    (idatBytes w h pixels).length = 2 + h.toNat * (5 + (1 + 3 * w.toNat)) + 4 := by
  have hrows : ((List.range h.toNat).flatMap (storedRow w h pixels)).length
      = h.toNat * (5 + (1 + 3 * w.toNat)) := by
    rw [List.length_flatMap, List.map_congr_left (g := fun _ => 5 + (1 + 3 * w.toNat))]
    · rw [List.map_const', List.sum_replicate, List.length_range, smul_eq_mul]
    · exact fun y hy => storedRow_length henc (List.mem_range.mp hy)
  rw [idatBytes, List.length_append, List.length_append, hrows]
  rfl

/-- The length of the compressed stream was computed rightly before it was written. -/
lemma idatDataSize_eq (henc : Encodable w h pixels) :
    (idatDataSize w h).toUInt32 = UInt32.ofNat (idatBytes w h pixels).length := by
  have hs := henc.scanline_toNat
  have := henc.scanline
  have := henc.payload
  have hscan : (5 + (1 + w * 3)).toUInt64.toNat = 5 + (1 + 3 * w.toNat) := by
    rw [UInt32.toNat_toUInt64, UInt32.toNat_add, hs]
    change (5 + (3 * w.toNat + 1)) % 2 ^ 32 = _
    omega
  have hblocks : (h.toUInt64 * (5 + (1 + w * 3)).toUInt64).toNat
      = h.toNat * (5 + (1 + 3 * w.toNat)) := by
    rw [UInt64.toNat_mul, hscan, UInt32.toNat_toUInt64]
    exact Nat.mod_eq_of_lt (by omega)
  have hnat : (idatDataSize w h).toNat = 2 + h.toNat * (5 + (1 + 3 * w.toNat)) + 4 := by
    rw [idatDataSize, UInt64.toNat_add, UInt64.toNat_add, hblocks]
    change ((2 + h.toNat * (5 + (1 + 3 * w.toNat))) % 2 ^ 64 + 4) % 2 ^ 64 = _
    omega
  apply UInt32.toNat_inj.mp
  rw [UInt64.toNat_toUInt32, hnat, idatBytes_length henc]
  rfl

lemma zlibStored_idatBytes (henc : Encodable w h pixels) :
    zlibStored (idatBytes w h pixels) = some (rawImage w h pixels) := by
  obtain ⟨n, hn⟩ := Nat.exists_eq_succ_of_ne_zero (Nat.ne_of_gt henc.height_pos)
  have hlen := idatBytes_length henc
  have hmul := Nat.mul_le_mul_left h.toNat (show 1 ≤ 5 + (1 + 3 * w.toNat) by omega)
  have hfuel : n < ((List.range h.toNat).flatMap (storedRow w h pixels) ++
      be32 (adler32 (rawImage w h pixels))).length := by
    rw [idatBytes, List.append_assoc, List.length_append] at hlen
    change 2 + _ = _ at hlen
    omega
  have hrows : readStored ((List.range h.toNat).flatMap (storedRow w h pixels) ++
        be32 (adler32 (rawImage w h pixels))).length
      ((List.range h.toNat).flatMap (storedRow w h pixels) ++ be32 (adler32 (rawImage w h pixels)))
      = some (rawImage w h pixels, be32 (adler32 (rawImage w h pixels))) := by
    generalize be32 (adler32 (rawImage w h pixels)) = sum at hfuel ⊢
    rw [List.range_eq_range', hn] at hfuel ⊢
    rw [readStored_rows henc _ n (by omega) hfuel, rawImage_eq, hn]
  rw [zlibStored, idatBytes, List.append_assoc]
  simp only [takeBytes_append (show [(0x78 : UInt8), 0x01].length = 2 from rfl), hrows,
    Option.bind_eq_bind, Option.bind_some]
  rw [if_pos ⟨by decide, rfl, beNat_be32 _⟩]

lemma readIhdr_pngIhdr (henc : Encodable w h pixels) :
    readIhdr ⟨typeIhdr, pngIhdr w h⟩ = some (w.toNat, h.toNat) := by
  have := henc.scanline
  have hw : beNat ((pngIhdr w h).take 4) = w.toNat := beNat_be32 w
  have hh : beNat (((pngIhdr w h).drop 4).take 4) = h.toNat := beNat_be32 h
  rw [readIhdr]
  dsimp only
  rw [hw, hh, if_pos ⟨rfl, rfl, ⟨henc.width_pos, by omega⟩, henc.height_pos, henc.height_lt⟩]

/-- The file decodes to the image. -/
theorem decodePng_pngBytes (henc : Encodable w h pixels) :
    decodePng (pngBytes w h pixels) = some ⟨w.toNat, h.toNat, pixels⟩ := by
  have hidat : (idatBytes w h pixels).length < 2 ^ 31 := by
    rw [idatBytes_length henc]
    exact henc.payload
  have hihdr : (pngIhdr w h).length < 2 ^ 31 := show 13 < 2 ^ 31 by decide
  have hiend : ([] : List UInt8).length < 2 ^ 31 := by decide
  have hparts : pngBytes w h pixels = pngSignature ++ (chunkBytes typeIhdr (pngIhdr w h) ++
      (chunkBytes typeIdat (idatBytes w h pixels) ++ (chunkBytes typeIend [] ++ []))) := by
    rw [pngBytes, List.append_nil, List.append_assoc, List.append_assoc]
  have hpixels : readRows (3 * w.toNat) h.toNat (rawImage w h pixels) = some pixels := by
    rw [rawImage_eq, readRows_rows henc _ (by omega), flatMap_pngRow henc, Nat.zero_mul,
      List.drop_zero, ← henc.pixels_length, List.take_length]
  rw [decodePng, hparts]
  simp only [takeBytes_append (show pngSignature.length = 8 from rfl),
    readChunk_chunkBytes (show typeIhdr.length = 4 from rfl) hihdr,
    readChunk_chunkBytes (show typeIdat.length = 4 from rfl) hidat,
    readChunk_chunkBytes (show typeIend.length = 4 from rfl) hiend,
    readIhdr_pngIhdr henc, zlibStored_idatBytes henc, hpixels, Option.bind_eq_bind, Option.bind_some, and_self, if_true]

/-- A refused block is the last one, and its error is the one returned. -/
lemma FailedLast.last {fn : List (List UInt8) → List UInt8 → Option EspErr}
    {blocks pre post : List (List UInt8)} {block : List UInt8} {e e' : EspErr}
    (hfail : FailedLast fn e blocks) (hsplit : blocks = pre ++ block :: post)
    (hrefused : fn pre block = some e') : post = [] ∧ e = e' := by
  obtain ⟨before, last, rfl, hlast, hok⟩ := hfail
  rcases List.eq_nil_or_concat post with rfl | ⟨post, b, rfl⟩
  · obtain ⟨rfl, hb⟩ := List.append_inj' hsplit rfl
    obtain rfl : last = block := by simpa using hb
    exact ⟨rfl, Option.some.inj (hlast.symm.trans hrefused)⟩
  · rw [List.concat_eq_append, ← List.cons_append, ← List.append_assoc] at hsplit
    have hnone := hok _ _ _ (List.append_inj' hsplit rfl).1
    rw [hrefused] at hnone
    cases hnone

/-- **A screenshot decodes to its pixels.** What a callback that takes every block
receives is one and the same file with and without a staging buffer, and it decodes to
the image; the first block that is refused is the last one handed out, and its error is
returned. -/
theorem screenshot_decodes (henc : Encodable w h pixels) :
    ∃ bytes, decodePng bytes = some ⟨w.toNat, h.toNat, pixels⟩ ∧
      ∀ cap, HasRoom cap → ∀ fn r bw, pngEncodeUncompressedRgb888 fn cap pixels w h {} = (r, bw) →
        ((∀ blocks block, fn blocks block = none) → r = .ok () ∧ bw.handed.flatten = bytes) ∧
        ∀ pre block post e, bw.handed = pre ++ block :: post → fn pre block = some e →
          post = [] ∧ r = .error e := by
  have hw : w ≠ 0 := by
    rintro rfl
    exact absurd henc.width_pos (by decide)
  have hh : h ≠ 0 := by
    rintro rfl
    exact absurd henc.height_pos (by decide)
  refine ⟨pngBytes w h pixels, decodePng_pngBytes henc, fun cap hcap fn r bw hrun => ?_⟩
  rcases @pngEncode_cases fn cap w h pixels hcap hw hh (idatDataSize_eq henc) with
    ⟨bw', hrun', hok, hbytes⟩ | ⟨e, bw', hrun', hfail⟩
  · obtain ⟨rfl, rfl⟩ := Prod.mk.inj (hrun.symm.trans hrun')
    refine ⟨fun _ => ⟨rfl, hbytes⟩, fun pre block post e hsplit hrefused => ?_⟩
    have hnone := hok pre block post hsplit
    rw [hrefused] at hnone
    cases hnone
  · obtain ⟨rfl, rfl⟩ := Prod.mk.inj (hrun.symm.trans hrun')
    refine ⟨fun hall => ?_, fun pre block post e' hsplit hrefused => ?_⟩
    · obtain ⟨pre, block, -, hrefused, -⟩ := hfail
      rw [hall pre block] at hrefused
      cases hrefused
    · obtain ⟨hpost, rfl⟩ := hfail.last hsplit hrefused
      exact ⟨hpost, rfl⟩

/-- Two pixels, through a staging buffer of four bytes and without one. -/
theorem screenshot_decodes_two :
    ∃ bytes, decodePng bytes = some ⟨2, 1, [1, 2, 3, 4, 5, 6]⟩ ∧
      (pngEncodeUncompressedRgb888 (fun _ _ => none) (some 4) [1, 2, 3, 4, 5, 6] 2 1 {}).2.handed.flatten
        = bytes ∧
      (pngEncodeUncompressedRgb888 (fun _ _ => none) none [1, 2, 3, 4, 5, 6] 2 1 {}).2.handed.flatten
        = bytes := by
  obtain ⟨bytes, hdecode, hbytes⟩ := @screenshot_decodes 2 1 [1, 2, 3, 4, 5, 6]
    ⟨by decide, by decide, by decide, by decide, by decide⟩
  refine ⟨bytes, hdecode, ?_, ?_⟩
  · exact ((hbytes (some 4) (fun n hn => by cases hn; decide) (fun _ _ => none) _ _ Prod.mk.eta.symm).1
      fun _ _ => rfl).2
  · exact ((hbytes none nofun (fun _ _ => none) _ _ Prod.mk.eta.symm).1 fun _ _ => rfl).2

end Encodable

end ArcticController

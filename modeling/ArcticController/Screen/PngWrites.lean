/-
What the PNG encoder hands to its callback.

* `crc32Update_eq`, `adler32Update_eq`: the running checksums are those of the format;
* `Answered`, `FailedLast`: every block so far was taken, or the last one was refused;
* `Writes`: a computation that writes some bytes, or stops at the first refused block,
  with the rules `Writes.pure`, `Writes.bind`, `writes_bwWrite`, `writes_foldlM`;
* `pngBytes`: the file, and `writes_pngEncode`: the encoder writes it.
-/
import ArcticController.Base.PngFormat
import ArcticController.Screen.PngUncompressed

namespace ArcticController

/-! ### Checksums -/

/-- The entries of the table are the remainders of the single bytes. -/
lemma crc32Table_eq : ∀ i < 256, crc32Table.getD i 0 = crcTable (UInt32.ofNat i) := by
  decide +kernel

lemma crc32Update_eq (crc : UInt32) (buf : List UInt8) : crc32Update crc buf = crcBits crc buf := by
  have hstep : ∀ (c : UInt32) (b : UInt8),
      crc32Table.getD ((c ^^^ b.toUInt32) &&& 0xFF).toNat 0 ^^^ (c >>> 8)
        = crcBit^[8] (c ^^^ b.toUInt32) := by
    intro c b
    have hlt : ((c ^^^ b.toUInt32) &&& 0xFF).toNat < 256 := by
      rw [UInt32.toNat_and]
      exact lt_of_le_of_lt Nat.and_le_right (by decide)
    rw [crc32Table_eq _ hlt, UInt32.ofNat_toNat, crcBits_byte]
  rw [crc32Update, crcBits]
  simp only [hstep]

/-- Two reduced sums in one word. -/
def packAdler (s : ℕ × ℕ) : UInt32 := UInt32.ofNat (s.2 * 65536 + s.1)

/-- Sums that are reduced. -/
def Reduced (s : ℕ × ℕ) : Prop := s.1 < 65521 ∧ s.2 < 65521

lemma reduced_adlerStep (s : ℕ × ℕ) (b : UInt8) : Reduced (adlerStep s b) :=
  ⟨Nat.mod_lt _ (by decide), Nat.mod_lt _ (by decide)⟩

variable {s : ℕ × ℕ}

lemma reduced_foldl (h : Reduced s) (buf : List UInt8) : Reduced (buf.foldl adlerStep s) := by
  induction buf generalizing s with
  | nil => exact h
  | cons b buf ih => exact ih (reduced_adlerStep s b)

lemma adlerBlock_eq (s : ℕ × ℕ) (buf : List UInt8) :
    adlerBlock (UInt32.ofNat s.1, UInt32.ofNat s.2) buf
      = (UInt32.ofNat (rawSums s buf).1, UInt32.ofNat (rawSums s buf).2) := by
  induction buf generalizing s with
  | nil => rfl
  | cons b buf ih =>
      have hb : b.toUInt32 = UInt32.ofNat b.toNat := by
        apply UInt32.toNat_inj.mp
        have := b.toNat_lt
        rw [UInt8.toNat_toUInt32, UInt32.toNat_ofNat_of_lt' (show b.toNat < 2 ^ 32 by omega)]
      rw [adlerBlock, List.foldl_cons, hb, ← UInt32.ofNat_add, ← UInt32.ofNat_add]
      exact ih (rawStep s b)

lemma ofNat_mod_adler {n : ℕ} (h : n < 2 ^ 32) :
    UInt32.ofNat n % 65521 = UInt32.ofNat (n % 65521) := by
  apply UInt32.toNat_inj.mp
  rw [UInt32.toNat_mod, UInt32.toNat_ofNat_of_lt' h,
    UInt32.toNat_ofNat_of_lt' (show n % 65521 < 2 ^ 32 by omega)]
  rfl

/-- The sums of a whole buffer, reduced after every block, are those reduced after
every byte. -/
lemma adlerLoop_eq (h : Reduced s) (fuel : ℕ) (buf : List UInt8) (hfuel : buf.length ≤ fuel) :
    adlerLoop fuel (UInt32.ofNat s.1, UInt32.ofNat s.2) buf
      = (UInt32.ofNat (buf.foldl adlerStep s).1, UInt32.ofNat (buf.foldl adlerStep s).2) := by
  induction fuel generalizing s buf with
  | zero =>
      rw [List.length_eq_zero_iff.mp (Nat.le_zero.mp hfuel)]
      rfl
  | succ fuel ih =>
      rw [adlerLoop]
      by_cases hempty : buf = []
      · rw [if_pos hempty, hempty]
        rfl
      · rw [if_neg hempty]
        dsimp only
        have hpos := List.length_pos_of_ne_nil hempty
        obtain ⟨hlt₁, hlt₂⟩ := rawSums_lt h.1 h.2 (List.length_take_le 5552 buf)
        have hmod := rawSums_mod s (buf.take 5552)
        rw [Nat.mod_eq_of_lt h.1, Nat.mod_eq_of_lt h.2] at hmod
        rw [adlerBlock_eq, ofNat_mod_adler hlt₁, ofNat_mod_adler hlt₂]
        have hblock : Reduced ((buf.take 5552).foldl adlerStep s) := reduced_foldl h _
        have hrest := ih hblock (buf.drop 5552) (by rw [List.length_drop]; omega)
        rw [← hmod] at hrest
        rw [hrest, hmod, ← List.foldl_append, List.take_append_drop]

lemma packAdler_low (h : Reduced s) : packAdler s &&& 0xFFFF = UInt32.ofNat s.1 := by
  have := h.1
  have := h.2
  apply UInt32.toNat_inj.mp
  rw [packAdler, UInt32.toNat_and, UInt32.toNat_ofNat_of_lt' (show s.2 * 65536 + s.1 < 2 ^ 32 by omega),
    UInt32.toNat_ofNat_of_lt' (show s.1 < 2 ^ 32 by omega)]
  refine (Nat.and_two_pow_sub_one_eq_mod _ 16).trans ?_
  omega

lemma packAdler_high (h : Reduced s) : (packAdler s >>> 16) &&& 0xFFFF = UInt32.ofNat s.2 := by
  have := h.1
  have := h.2
  apply UInt32.toNat_inj.mp
  rw [packAdler, UInt32.toNat_and, UInt32.toNat_shiftRight,
    UInt32.toNat_ofNat_of_lt' (show s.2 * 65536 + s.1 < 2 ^ 32 by omega),
    UInt32.toNat_ofNat_of_lt' (show s.2 < 2 ^ 32 by omega)]
  refine (Nat.and_two_pow_sub_one_eq_mod _ 16).trans ?_
  refine (congrArg (· % 2 ^ 16) (Nat.shiftRight_eq_div_pow _ 16)).trans ?_
  omega

/-- The running Adler-32, from reduced sums. -/
lemma adler32Update_eq (h : Reduced s) (buf : List UInt8) :
    adler32Update (packAdler s) buf = packAdler (buf.foldl adlerStep s) := by
  have hend := reduced_foldl h buf
  have h₁ := hend.1
  have h₂ := hend.2
  rw [adler32Update, packAdler_low h, packAdler_high h, adlerLoop_eq h _ _ (Nat.le_refl _)]
  dsimp only
  generalize buf.foldl adlerStep s = t at h₁ h₂
  apply UInt32.toNat_inj.mp
  rw [packAdler, UInt32.toNat_or, UInt32.toNat_shiftLeft,
    UInt32.toNat_ofNat_of_lt' (show t.2 * 65536 + t.1 < 2 ^ 32 by omega),
    UInt32.toNat_ofNat_of_lt' (show t.2 < 2 ^ 32 by omega),
    UInt32.toNat_ofNat_of_lt' (show t.1 < 2 ^ 32 by omega)]
  have hshift : t.2 <<< 16 % 2 ^ 32 = 2 ^ 16 * t.2 := by
    rw [Nat.shiftLeft_eq, Nat.mul_comm]
    exact Nat.mod_eq_of_lt (by omega)
  refine (congrArg (· ||| t.1) hshift).trans ?_
  refine (Nat.two_pow_add_eq_or_of_lt (show t.1 < 2 ^ 16 by omega) t.2).symm.trans ?_
  omega

/-! ### Blocks that are handed out -/

/-- Everything that was written: handed out, or staged. -/
def PngWriter.emitted (bw : PngWriter) : List UInt8 := bw.handed.flatten ++ bw.staged

/-- What is staged has a place in the staging buffer. -/
def FitsStaging : Option ℕ → PngWriter → Prop
  | none, bw => bw.staged = []
  | some cap, bw => bw.staged.length ≤ cap

section Writes

variable {α β : Type} (fn : List (List UInt8) → List UInt8 → Option EspErr)

/-- The callback took every block. -/
def Answered (blocks : List (List UInt8)) : Prop :=
  ∀ pre block post, blocks = pre ++ block :: post → fn pre block = none

/-- The callback refused the last block, and took the others. -/
def FailedLast (e : EspErr) (blocks : List (List UInt8)) : Prop :=
  ∃ pre block, blocks = pre ++ [block] ∧ fn pre block = some e ∧ Answered fn pre

variable {fn}

lemma answered_nil : Answered fn [] := fun pre block post h => by simp at h

lemma Answered.snoc {blocks : List (List UInt8)} {block : List UInt8} (h : Answered fn blocks)
    (hlast : fn blocks block = none) : Answered fn (blocks ++ [block]) := by
  intro pre b post heq
  rcases List.eq_nil_or_concat post with rfl | ⟨post, last, rfl⟩
  · obtain ⟨rfl, hb⟩ := List.append_inj' heq rfl
    obtain rfl : block = b := by simpa using hb
    exact hlast
  · rw [List.concat_eq_append, ← List.cons_append, ← List.append_assoc] at heq
    exact h _ _ _ (List.append_inj' heq rfl).1

variable (fn) in
/-- A computation that writes these bytes and returns `a`, or stops at the first block
that is refused. -/
def Writes (cap : Option ℕ) (m : PngM α) (bytes : List UInt8) (a : α) : Prop :=
  ∀ bw, FitsStaging cap bw → Answered fn bw.handed →
    (∃ bw', m bw = (.ok a, bw') ∧ FitsStaging cap bw' ∧ Answered fn bw'.handed ∧
      bw'.emitted = bw.emitted ++ bytes) ∨
    ∃ e bw', m bw = (.error e, bw') ∧ FailedLast fn e bw'.handed

variable {cap : Option ℕ}

lemma Writes.pure (a : α) : Writes fn cap (pure a : PngM α) [] a := fun bw hfits hok =>
  .inl ⟨bw, rfl, hfits, hok, (List.append_nil _).symm⟩

variable {f : α → PngM β} {m : PngM α} {bw : PngWriter}

lemma Writes.pure_bind {bytes : List UInt8} {a : α} {b : β} (h : Writes fn cap (f a) bytes b) :
    Writes fn cap ((Pure.pure a : PngM α) >>= f) bytes b := h

lemma PngM.bind_ok {bw' : PngWriter} {a : α} (h : m bw = (.ok a, bw')) :
    (m >>= f) bw = f a bw' := by
  simp only [bind, h]

lemma PngM.bind_error {bw' : PngWriter} {e : EspErr} (h : m bw = (.error e, bw')) :
    (m >>= f) bw = (.error e, bw') := by
  simp only [bind, h]

lemma Writes.bind {first rest : List UInt8} {a : α} {b : β} (hm : Writes fn cap m first a)
    (hf : Writes fn cap (f a) rest b) : Writes fn cap (m >>= f) (first ++ rest) b := by
  intro bw hfits hok
  rcases hm bw hfits hok with ⟨bw₁, hrun, hfits₁, hok₁, hbytes₁⟩ | ⟨e, bw₁, hrun, hfail⟩
  · rw [PngM.bind_ok hrun]
    rcases hf bw₁ hfits₁ hok₁ with ⟨bw₂, hrun₂, hfits₂, hok₂, hbytes₂⟩ | hfail
    · exact .inl ⟨bw₂, hrun₂, hfits₂, hok₂, by rw [hbytes₂, hbytes₁, List.append_assoc]⟩
    · exact .inr hfail
  · exact .inr ⟨e, bw₁, PngM.bind_error hrun, hfail⟩

lemma Writes.bind_pure {bytes : List UInt8} {a : α} (hm : Writes fn cap m bytes a) (b : β) :
    Writes fn cap (m >>= fun _ => Pure.pure b) bytes b := by
  rw [← List.append_nil bytes]
  exact hm.bind (Writes.pure b)

/-- One call of the callback. -/
lemma handOut_cases (hok : Answered fn bw.handed) (block : List UInt8) :
    (handOut fn block bw = (.ok (), { bw with handed := bw.handed ++ [block] }) ∧
      Answered fn (bw.handed ++ [block])) ∨
    ∃ e, handOut fn block bw = (.error e, { bw with handed := bw.handed ++ [block] }) ∧
      FailedLast fn e (bw.handed ++ [block]) := by
  cases h : fn bw.handed block with
  | none => exact .inl ⟨by rw [handOut, h], hok.snoc h⟩
  | some e => exact .inr ⟨e, by rw [handOut, h], bw.handed, block, rfl, h, hok⟩

/-- A flush hands out what is staged. -/
lemma bwFlush_cases (hok : Answered fn bw.handed) :
    (∃ bw', bwFlush fn bw = (.ok (), bw') ∧ bw'.staged = [] ∧ Answered fn bw'.handed ∧
      bw'.handed.flatten = bw.emitted) ∨
    ∃ e bw', bwFlush fn bw = (.error e, bw') ∧ FailedLast fn e bw'.handed := by
  rw [bwFlush]
  by_cases hempty : bw.staged = []
  · rw [if_pos hempty]
    exact .inl ⟨bw, rfl, hempty, hok, by rw [PngWriter.emitted, hempty, List.append_nil]⟩
  · rw [if_neg hempty]
    rcases handOut_cases hok bw.staged with ⟨hrun, hok'⟩ | ⟨e, hrun, hfail⟩
    · rw [hrun]
      exact .inl ⟨_, rfl, rfl, hok', by simp [PngWriter.emitted]⟩
    · rw [hrun]
      exact .inr ⟨e, _, rfl, hfail⟩

/-- Before bytes are staged, a full buffer is flushed. -/
lemma bwMakeRoom_cases {n : ℕ} (hn : 1 ≤ n) (hfits : FitsStaging (some n) bw)
    (hok : Answered fn bw.handed) :
    (∃ bw', bwMakeRoom fn n bw = (.ok (), bw') ∧
      bw'.staged.length < n ∧ Answered fn bw'.handed ∧ bw'.emitted = bw.emitted) ∨
    ∃ e bw', bwMakeRoom fn n bw = (.error e, bw') ∧
      FailedLast fn e bw'.handed := by
  rw [bwMakeRoom]
  by_cases hfull : bw.staged.length = n
  · rw [if_pos hfull]
    rcases bwFlush_cases hok with ⟨bw', hrun, hstaged, hok', hbytes⟩ | hfail
    · refine .inl ⟨bw', hrun, ?_, hok', ?_⟩
      · rw [hstaged]
        exact hn
      · rw [PngWriter.emitted, hstaged, List.append_nil, hbytes]
    · exact .inr hfail
  · rw [if_neg hfull]
    exact .inl ⟨bw, rfl, lt_of_le_of_ne hfits hfull, hok, rfl⟩

lemma bwFill_run (n : ℕ) (data : List UInt8) (bw : PngWriter) :
    bwFill n data bw = (.ok (min (n - bw.staged.length) data.length),
      { bw with
        staged := bw.staged ++ data.take (min (n - bw.staged.length) data.length) }) := rfl

/-- Bytes through the staging buffer; the induction is on the turns of the loop, each
of which takes a byte at least. -/
lemma writes_bwStage {n : ℕ} (hn : 1 ≤ n) (fuel : ℕ) {data : List UInt8}
    (hfuel : data.length ≤ fuel) : Writes fn (some n) (bwStage fn n fuel data) data () := by
  induction fuel generalizing data with
  | zero =>
      rw [List.length_eq_zero_iff.mp (Nat.le_zero.mp hfuel)]
      exact Writes.pure ()
  | succ fuel ih =>
      by_cases hne : data = []
      · rw [bwStage, if_pos hne, hne]
        exact Writes.pure ()
      · intro bw hfits hok
        have hpos := List.length_pos_of_ne_nil hne
        rw [bwStage, if_neg hne]
        rcases bwMakeRoom_cases hn hfits hok with ⟨bw₁, hrun, hlt, hok₁, hbytes⟩ | ⟨e, bw₁, hrun, hfail⟩
        · rw [PngM.bind_ok hrun, PngM.bind_ok (bwFill_run n data bw₁)]
          set k := min (n - bw₁.staged.length) data.length with hk
          have hrest : (data.drop k).length ≤ fuel := by
            rw [List.length_drop]
            omega
          have hfits₁ : FitsStaging (some n) { bw₁ with staged := bw₁.staged ++ data.take k } := by
            change (bw₁.staged ++ data.take k).length ≤ n
            rw [List.length_append, List.length_take]
            omega
          rcases ih hrest _ hfits₁ hok₁ with ⟨bw₂, hrun₂, hfits₂, hok₂, hbytes₂⟩ | hfail
          · refine .inl ⟨bw₂, hrun₂, hfits₂, hok₂, ?_⟩
            rw [hbytes₂, ← hbytes]
            simp only [PngWriter.emitted, List.append_assoc, List.take_append_drop]
          · exact .inr hfail
        · exact .inr ⟨e, bw₁, PngM.bind_error hrun, hfail⟩

/-- A staging buffer that was allocated holds a byte at least. -/
def HasRoom (cap : Option ℕ) : Prop := ∀ n, cap = some n → 1 ≤ n

lemma writes_bwWrite (hcap : HasRoom cap) (data : List UInt8) :
    Writes fn cap (bwWrite fn cap data) data () := by
  cases cap with
  | some n => exact writes_bwStage (hcap n rfl) _ le_rfl
  | none =>
      intro bw hfits hok
      rcases handOut_cases hok data with ⟨hrun, hok'⟩ | ⟨e, hrun, hfail⟩
      · refine .inl ⟨_, hrun, hfits, hok', ?_⟩
        have hstaged : bw.staged = [] := hfits
        simp [PngWriter.emitted, hstaged]
      · exact .inr ⟨e, _, hrun, hfail⟩

/-! ### The file -/

/-- A chunk: its length, its type, its data and its checksum. -/
def chunkBytes (type data : List UInt8) : List UInt8 :=
  be32 (UInt32.ofNat data.length) ++ type ++ data ++ be32 (crc32 (type ++ data))

lemma writes_writeChunk (hcap : HasRoom cap) (type data : List UInt8) :
    Writes fn cap (writeChunk fn cap type data) (chunkBytes type data) () := by
  rw [writeChunk, chunkBytes, List.append_assoc _ data]
  refine (writes_bwWrite hcap _).bind ?_
  dsimp only
  rw [crc32Update_eq, crc32Update_eq, crc32, crcBits_append]
  by_cases hempty : data = []
  · rw [if_pos hempty, hempty]
    exact (writes_bwWrite hcap _).pure_bind
  · rw [if_neg hempty]
    exact (writes_bwWrite hcap data).bind (writes_bwWrite hcap _).pure_bind

variable {w h : UInt32} {pixels : List UInt8}

/-- A row behind its filter. -/
def rawRow (w : UInt32) (pixels : List UInt8) (y : ℕ) : List UInt8 := 0x00 :: pngRow w pixels y

/-- A stored block with one row. -/
def storedRow (w h : UInt32) (pixels : List UInt8) (y : ℕ) : List UInt8 :=
  pngBlk w h y ++ rawRow w pixels y

lemma writes_writeRow (hcap : HasRoom cap) (c : UInt32) {t : ℕ × ℕ} (ht : Reduced t) (y : ℕ) :
    Writes fn cap (writeRow fn cap w h pixels (c, packAdler t) y) (storedRow w h pixels y)
      (crcBits c (storedRow w h pixels y),
        packAdler ((rawRow w pixels y).foldl adlerStep t)) := by
  rw [writeRow, storedRow, rawRow]
  dsimp only
  rw [crc32Update_eq, crc32Update_eq, crc32Update_eq, ← crcBits_append, ← crcBits_append,
    adler32Update_eq ht, adler32Update_eq (reduced_foldl ht _), ← List.foldl_append]
  refine (writes_bwWrite hcap _).bind ?_
  refine Writes.bind (writes_bwWrite hcap [0x00]) ?_
  exact (writes_bwWrite hcap (pngRow w pixels y)).bind_pure _

/-- The rows from some sums on; the induction is on the rows. -/
lemma writes_rows (hcap : HasRoom cap) (c : UInt32) {t : ℕ × ℕ} (ht : Reduced t) (ys : List ℕ) :
    Writes fn cap (ys.foldlM (writeRow fn cap w h pixels) (c, packAdler t))
      (ys.flatMap (storedRow w h pixels))
      (crcBits c (ys.flatMap (storedRow w h pixels)),
        packAdler ((ys.flatMap (rawRow w pixels)).foldl adlerStep t)) := by
  induction ys generalizing c t with
  | nil => exact Writes.pure _
  | cons y ys ih =>
      rw [List.foldlM_cons, List.flatMap_cons, List.flatMap_cons, crcBits_append,
        List.foldl_append]
      exact (writes_writeRow hcap c ht y).bind (ih _ (reduced_foldl ht _))

/-- All rows, each behind its filter. -/
def rawImage (w h : UInt32) (pixels : List UInt8) : List UInt8 :=
  (List.range h.toNat).flatMap (rawRow w pixels)

/-- The compressed stream. -/
def idatBytes (w h : UInt32) (pixels : List UInt8) : List UInt8 :=
  [0x78, 0x01] ++ (List.range h.toNat).flatMap (storedRow w h pixels) ++
    be32 (adler32 (rawImage w h pixels))

def pngBytes (w h : UInt32) (pixels : List UInt8) : List UInt8 :=
  pngSignature ++ chunkBytes typeIhdr (pngIhdr w h) ++ chunkBytes typeIdat (idatBytes w h pixels) ++
    chunkBytes typeIend []

/-- The pieces are those of the file, when the length of the compressed stream is the
one computed before. -/
lemma writes_writePieces (hcap : HasRoom cap)
    (hsize : (idatDataSize w h).toUInt32 = UInt32.ofNat (idatBytes w h pixels).length) :
    Writes fn cap (writePieces fn cap pixels w h) (pngBytes w h pixels) () := by
  have hred : Reduced (1, 0) := ⟨by decide, by decide⟩
  have hrun := @writes_rows fn cap w h pixels hcap
    (crcBits (crcBits 0xFFFFFFFF typeIdat) [0x78, 0x01]) (1, 0) hred (List.range h.toNat)
  have hcrc : crc32 (typeIdat ++ idatBytes w h pixels)
      = ~~~ crcBits (crcBits (crcBits (crcBits 0xFFFFFFFF typeIdat) [0x78, 0x01])
          ((List.range h.toNat).flatMap (storedRow w h pixels)))
          (be32 (adler32 (rawImage w h pixels))) := by
    rw [crc32, idatBytes, crcBits_append, crcBits_append, crcBits_append]
  have hidat : Writes fn cap (do
      bwWrite fn cap (be32 (UInt32.ofNat (idatBytes w h pixels).length) ++ typeIdat)
      bwWrite fn cap [0x78, 0x01]
      let sums ← (List.range h.toNat).foldlM (writeRow fn cap w h pixels)
        (crcBits (crcBits 0xFFFFFFFF typeIdat) [0x78, 0x01], packAdler (1, 0))
      bwWrite fn cap (be32 sums.2)
      bwWrite fn cap (be32 (~~~ crcBits sums.1 (be32 sums.2)))
      writeChunk fn cap typeIend [])
      (be32 (UInt32.ofNat (idatBytes w h pixels).length) ++ typeIdat ++ ([0x78, 0x01] ++
        ((List.range h.toNat).flatMap (storedRow w h pixels) ++
          (be32 (adler32 (rawImage w h pixels)) ++ (be32 (crc32 (typeIdat ++ idatBytes w h pixels)) ++
            chunkBytes typeIend []))))) () := by
    rw [hcrc]
    exact (writes_bwWrite hcap _).bind ((writes_bwWrite hcap _).bind (hrun.bind
      ((writes_bwWrite hcap _).bind ((writes_bwWrite hcap _).bind
        (writes_writeChunk hcap _ _)))))
  have hbytes : pngBytes w h pixels = pngSignature ++ (chunkBytes typeIhdr (pngIhdr w h) ++
      (be32 (UInt32.ofNat (idatBytes w h pixels).length) ++ typeIdat ++ ([0x78, 0x01] ++
        ((List.range h.toNat).flatMap (storedRow w h pixels) ++
          (be32 (adler32 (rawImage w h pixels)) ++ (be32 (crc32 (typeIdat ++ idatBytes w h pixels)) ++
            chunkBytes typeIend [])))))) := by
    have hchunk : chunkBytes typeIdat (idatBytes w h pixels)
        = be32 (UInt32.ofNat (idatBytes w h pixels).length) ++ typeIdat ++ idatBytes w h pixels ++
          be32 (crc32 (typeIdat ++ idatBytes w h pixels)) := rfl
    rw [pngBytes, hchunk, idatBytes]
    simp only [List.append_assoc]
  rw [writePieces, hbytes]
  simp only [crc32Update_eq, hsize]
  exact (writes_bwWrite hcap _).bind ((writes_writeChunk hcap _ _).bind hidat)

/-- A run of the encoder from the start: the whole file, or the first refusal. -/
theorem pngEncode_cases (hcap : HasRoom cap) (hw : w ≠ 0) (hh : h ≠ 0)
    (hsize : (idatDataSize w h).toUInt32 = UInt32.ofNat (idatBytes w h pixels).length) :
    (∃ bw, pngEncodeUncompressedRgb888 fn cap pixels w h {} = (.ok (), bw) ∧
      Answered fn bw.handed ∧ bw.handed.flatten = pngBytes w h pixels) ∨
    ∃ e bw, pngEncodeUncompressedRgb888 fn cap pixels w h {} = (.error e, bw) ∧
      FailedLast fn e bw.handed := by
  have hfits : FitsStaging cap {} := by
    cases cap with
    | none => rfl
    | some n => exact Nat.zero_le n
  have hnot : ¬ (w = 0 ∨ h = 0) := fun hz => hz.elim hw hh
  have hencode : pngEncodeUncompressedRgb888 fn cap pixels w h
      = writePieces fn cap pixels w h >>= fun _ => bwFlush fn := if_neg hnot
  rw [hencode]
  rcases writes_writePieces hcap hsize {} hfits answered_nil with
    ⟨bw, hrun, -, hok, hbytes⟩ | ⟨e, bw, hrun, hfail⟩
  · rw [PngM.bind_ok hrun]
    rcases bwFlush_cases hok with ⟨bw', hrun', -, hok', hbytes'⟩ | hfail
    · exact .inl ⟨bw', hrun', hok', by rw [hbytes', hbytes]; rfl⟩
    · exact .inr hfail
  · exact .inr ⟨e, bw, PngM.bind_error hrun, hfail⟩

end Writes

end ArcticController

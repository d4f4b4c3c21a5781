/-
The checksums of PNG files, byte by byte.

* `crc32`: the CRC-32, one bit of the division at a time;
* `crcBits_byte`: a table of the 256 single bytes takes eight bits at once;
* `crcBits_burst`: it finds an error within four bytes;
* `adlerStep`, `adler32`: the Adler-32, two sums reduced after every byte;
* `rawSums`, `rawSums_mod`: sums that are reduced later have the same remainders;
* `rawSums_lt`: up to 5552 bytes they fit in 32 bits.
-/
import ArcticController.Base.Codec
import ArcticController.Platform.Partition

namespace ArcticController

/-! ### CRC-32 -/

/-- The remainder after some more bytes, one bit after the other. -/
def crcBits (crc : UInt32) (bytes : List UInt8) : UInt32 :=
  bytes.foldl (fun c b => crcBit^[8] (c ^^^ b.toUInt32)) crc

/-- The CRC-32 of some bytes. -/
def crc32 (bytes : List UInt8) : UInt32 := ~~~ crcBits 0xFFFFFFFF bytes

lemma crcBits_append (crc : UInt32) (bytes rest : List UInt8) :
    crcBits crc (bytes ++ rest) = crcBits (crcBits crc bytes) rest := List.foldl_append

lemma and_one_cases (x : UInt32) : x &&& 1 = 0 ∨ x &&& 1 = 1 := by
  have h : (x &&& 1).toNat = x.toNat % 2 := by
    rw [UInt32.toNat_and]
    exact Nat.and_one_is_mod _
  rcases Nat.mod_two_eq_zero_or_one x.toNat with h' | h'
  · exact .inl (UInt32.toNat_inj.mp (h.trans h'))
  · exact .inr (UInt32.toNat_inj.mp (h.trans h'))

lemma and_xor_distrib (x y z : UInt32) : (x ^^^ y) &&& z = (x &&& z) ^^^ (y &&& z) := by
  apply UInt32.toBitVec_inj.mp
  ext i hi
  simp [Bool.and_xor_distrib_right]

/-- The division is linear. -/
lemma crcBit_xor (x y : UInt32) : crcBit (x ^^^ y) = crcBit x ^^^ crcBit y := by
  rw [crcBit, crcBit, crcBit, and_xor_distrib, UInt32.shiftRight_xor]
  rcases and_one_cases x with hx | hx <;> rcases and_one_cases y with hy | hy <;> rw [hx, hy]
  · rfl
  · rw [if_pos (by decide), if_neg (by decide), if_pos rfl, ← UInt32.xor_assoc,
      ← UInt32.xor_assoc, UInt32.xor_comm (0xEDB88320 : UInt32) (x >>> 1)]
  · rw [if_pos (by decide), if_pos rfl, if_neg (by decide), UInt32.xor_assoc]
  · rw [if_neg (by decide), if_pos rfl, if_pos rfl, UInt32.xor_comm (0xEDB88320 : UInt32) (x >>> 1),
      UInt32.xor_assoc, ← UInt32.xor_assoc (0xEDB88320 : UInt32), UInt32.xor_self, UInt32.zero_xor]

lemma crcBit_iterate_xor (n : ℕ) (x y : UInt32) :
    crcBit^[n] (x ^^^ y) = crcBit^[n] x ^^^ crcBit^[n] y := by
  induction n generalizing x y with
  | zero => rfl
  | succ n ih => rw [Function.iterate_succ_apply, Function.iterate_succ_apply,
      Function.iterate_succ_apply, crcBit_xor, ih]

/-- Zero bits are shifted out. -/
lemma crcBit_iterate_ofNat (n k : ℕ) (h : k * 2 ^ n < 2 ^ 32) :
    crcBit^[n] (UInt32.ofNat (k * 2 ^ n)) = UInt32.ofNat k := by
  induction n with
  | zero => simp
  | succ n ih =>
      have hhalf : k * 2 ^ (n + 1) = 2 * (k * 2 ^ n) := by ring
      have hlt : k * 2 ^ n < 2 ^ 32 := by omega
      have hbit : crcBit (UInt32.ofNat (k * 2 ^ (n + 1))) = UInt32.ofNat (k * 2 ^ n) := by
        have heven : UInt32.ofNat (k * 2 ^ (n + 1)) &&& 1 = 0 := by
          apply UInt32.toNat_inj.mp
          rw [UInt32.toNat_and, UInt32.toNat_ofNat_of_lt' h]
          refine (Nat.and_one_is_mod _).trans ?_
          rw [hhalf]
          exact Nat.mul_mod_right 2 _
        rw [crcBit, heven, if_neg (by decide)]
        apply UInt32.toNat_inj.mp
        rw [UInt32.toNat_shiftRight, UInt32.toNat_ofNat_of_lt' h, UInt32.toNat_ofNat_of_lt' hlt, hhalf]
        exact (Nat.shiftRight_eq_div_pow _ 1).trans (by omega)
      rw [Function.iterate_succ_apply, hbit]
      exact ih hlt

/-- The low byte and the others. -/
lemma xor_low_high (x : UInt32) :
    (x &&& (0xFF : UInt32)) ^^^ ((x >>> (8 : UInt32)) <<< (8 : UInt32)) = x := by
  apply UInt32.toBitVec_inj.mp
  ext i hi
  interval_cases i <;> simp

/-- Eight bits of the division: those of the low byte, and the others shifted. -/
lemma crcBit_iterate_eight (x : UInt32) :
    crcBit^[8] x = crcBit^[8] (x &&& 0xFF) ^^^ (x >>> 8) := by
  have hlt := x.toNat_lt
  have hshift : x >>> 8 = UInt32.ofNat (x.toNat / 256) := by
    apply UInt32.toNat_inj.mp
    rw [UInt32.toNat_shiftRight, UInt32.toNat_ofNat_of_lt' (show x.toNat / 256 < 2 ^ 32 by omega)]
    exact Nat.shiftRight_eq_div_pow _ 8
  have hhigh : (x >>> 8) <<< 8 = UInt32.ofNat (x.toNat / 256 * 2 ^ 8) := by
    apply UInt32.toNat_inj.mp
    rw [hshift, UInt32.toNat_shiftLeft,
      UInt32.toNat_ofNat_of_lt' (show x.toNat / 256 < 2 ^ 32 by omega),
      UInt32.toNat_ofNat_of_lt' (show x.toNat / 256 * 2 ^ 8 < 2 ^ 32 by omega)]
    exact (congrArg (· % 2 ^ 32) (Nat.shiftLeft_eq _ 8)).trans (Nat.mod_eq_of_lt (by omega))
  conv_lhs => rw [← xor_low_high x]
  rw [crcBit_iterate_xor, hhigh, crcBit_iterate_ofNat _ _ (by omega), hshift]

/-- A table of the single bytes takes a byte at once. -/
theorem crcBits_byte (c : UInt32) (b : UInt8) :
    crcBit^[8] (c ^^^ b.toUInt32) = crcTable ((c ^^^ b.toUInt32) &&& 0xFF) ^^^ (c >>> 8) := by
  have hshift : (c ^^^ b.toUInt32) >>> 8 = c >>> 8 := by
    have hb : b.toUInt32 >>> 8 = 0 := by
      apply UInt32.toNat_inj.mp
      have hlt := b.toNat_lt
      rw [UInt32.toNat_shiftRight, UInt8.toNat_toUInt32]
      exact (Nat.shiftRight_eq_div_pow _ 8).trans (Nat.div_eq_of_lt (by omega))
    rw [UInt32.shiftRight_xor, hb, UInt32.xor_zero]
  rw [crcBit_iterate_eight, hshift]
  rfl

/-! ### Errors that the CRC-32 finds -/

lemma crcBit_eq_zero {x : UInt32} (h : crcBit x = 0) : x = 0 := by
  have hlt := x.toNat_lt
  have hhalf : (x >>> 1).toNat = x.toNat / 2 := Nat.shiftRight_eq_div_pow _ 1
  have hlow : (x &&& 1).toNat = x.toNat % 2 := Nat.and_one_is_mod _
  rw [crcBit] at h
  rcases and_one_cases x with hx | hx
  · rw [hx, if_neg (by decide)] at h
    rw [h] at hhalf
    rw [hx] at hlow
    exact UInt32.toNat_inj.mp (by simp at hhalf hlow ⊢; omega)
  · rw [hx, if_pos rfl] at h
    rw [← UInt32.xor_eq_zero_iff.mp h] at hhalf
    simp at hhalf
    omega

/-- The division forgets nothing. -/
lemma crcBit_injective : Function.Injective crcBit := fun x y h =>
  UInt32.xor_eq_zero_iff.mp (crcBit_eq_zero (by rw [crcBit_xor, h, UInt32.xor_self]))

lemma crcBits_injective (bytes : List UInt8) : Function.Injective (crcBits · bytes) := by
  induction bytes with
  | nil => exact fun _ _ h => h
  | cons b bytes ih =>
      exact fun c c' h => (UInt32.xor_left_inj _).mp (crcBit_injective.iterate 8 (ih h))

lemma leNat_lt (w : ℕ) (bytes : List UInt8) : leNat w bytes < 256 ^ w := by
  induction w generalizing bytes with
  | zero => exact Nat.one_pos
  | succ w ih =>
      cases bytes with
      | nil => exact Nat.pow_pos (by decide)
      | cons b bytes =>
          have hb := b.toNat_lt
          have hrest := ih bytes
          rw [leNat, pow_succ]
          omega

lemma leNat_inj : ∀ {w w' : List UInt8}, w.length = w'.length →
    leNat w.length w = leNat w.length w' → w = w'
  | [], [], _, _ => rfl
  | b :: w, b' :: w', hlen, h => by
      have hb := b.toNat_lt
      have hb' := b'.toNat_lt
      simp only [List.length_cons, leNat] at h
      have hhead : b = b' := UInt8.toNat_inj.mp (by omega)
      rw [hhead, leNat_inj (Nat.succ.inj hlen) (by omega)]

/-- A byte below some others. -/
lemma xor_mul_byte (b : UInt8) (n : ℕ) : b.toNat ^^^ n * 2 ^ 8 = b.toNat + 256 * n := by
  have hb : b.toNat < 2 ^ 8 := b.toNat_lt
  refine Nat.eq_of_testBit_eq fun i => ?_
  rw [Nat.testBit_xor, Nat.testBit_mul_two_pow, Nat.add_comm, Nat.testBit_two_pow_mul_add n hb]
  by_cases hi : i < 8
  · simp [hi, not_le.mpr hi]
  · rw [Nat.testBit_lt_two_pow (hb.trans_le (Nat.pow_le_pow_right (by decide) (not_lt.mp hi)))]
    simp [hi, not_lt.mp hi]

/-- Up to four bytes are taken at once. -/
lemma crcBits_window (c : UInt32) : ∀ w : List UInt8, w.length ≤ 4 →
    crcBits c w = crcBit^[8 * w.length] (c ^^^ UInt32.ofNat (leNat w.length w))
  | [], _ => UInt32.xor_zero.symm
  | b :: w, hlen => by
      have hw : leNat w.length w * 2 ^ 8 < 2 ^ 32 := by
        have hlt := leNat_lt w.length w
        have hle : 256 ^ w.length ≤ 256 ^ 3 := Nat.pow_le_pow_right (by decide) (Nat.le_of_succ_le_succ hlen)
        omega
      have hb : b.toUInt32 ^^^ UInt32.ofNat (leNat w.length w * 2 ^ 8)
          = UInt32.ofNat (leNat (b :: w).length (b :: w)) := by
        rw [List.length_cons, leNat, ← xor_mul_byte, UInt32.ofNat_xor, ← UInt8.toNat_toUInt32,
          UInt32.ofNat_toNat]
      rw [crcBits, List.foldl_cons]
      refine (crcBits_window _ w (Nat.le_of_succ_le hlen)).trans ?_
      rw [← crcBit_iterate_ofNat 8 _ hw, ← crcBit_iterate_xor, ← Function.iterate_add_apply,
        UInt32.xor_assoc, hb]
      rfl

/-- **The CRC-32 finds every burst of up to four bytes.** -/
theorem crcBits_burst {c : UInt32} {before w w' behind : List UInt8} (hlen : w.length = w'.length)
    (hle : w.length ≤ 4) (h : crcBits c (before ++ w ++ behind) = crcBits c (before ++ w' ++ behind)) :
    w = w' := by
  simp only [crcBits_append] at h
  have hwindow := crcBits_injective behind h
  rw [crcBits_window _ w hle, crcBits_window _ w' (hlen ▸ hle), ← hlen] at hwindow
  have hword := congrArg UInt32.toNat ((UInt32.xor_right_inj _).mp (crcBit_injective.iterate _ hwindow))
  have hlt : ∀ v, leNat w.length v < 2 ^ 32 := fun v =>
    (leNat_lt _ v).trans_le (Nat.pow_le_pow_right (by decide) hle)
  rw [UInt32.toNat_ofNat_of_lt' (hlt w), UInt32.toNat_ofNat_of_lt' (hlt w')] at hword
  exact leNat_inj hlen hword

/-! ### Adler-32 -/

/-- The two sums after another byte. -/
def adlerStep (s : ℕ × ℕ) (b : UInt8) : ℕ × ℕ :=
  ((s.1 + b.toNat) % 65521, (s.2 + (s.1 + b.toNat)) % 65521)

/-- The Adler-32 of some bytes. -/
def adler32 (bytes : List UInt8) : UInt32 :=
  let s := bytes.foldl adlerStep (1, 0)
  UInt32.ofNat (s.2 * 65536 + s.1)

/-- The two sums, not reduced. -/
def rawStep (s : ℕ × ℕ) (b : UInt8) : ℕ × ℕ := (s.1 + b.toNat, s.2 + (s.1 + b.toNat))

def rawSums (s : ℕ × ℕ) (bytes : List UInt8) : ℕ × ℕ := bytes.foldl rawStep s

/-- Reducing later gives the same remainders. -/
lemma rawSums_mod (s : ℕ × ℕ) (bytes : List UInt8) :
    ((rawSums s bytes).1 % 65521, (rawSums s bytes).2 % 65521)
      = bytes.foldl adlerStep (s.1 % 65521, s.2 % 65521) := by
  induction bytes generalizing s with
  | nil => rfl
  | cons b bytes ih =>
      rw [rawSums, List.foldl_cons, List.foldl_cons]
      refine (ih _).trans (congrArg (bytes.foldl adlerStep) ?_)
      simp only [rawStep, adlerStep, Prod.mk.injEq]
      omega

/-- The sums after some bytes are bounded. -/
lemma rawSums_le (s : ℕ × ℕ) (bytes : List UInt8) :
    (rawSums s bytes).1 ≤ s.1 + 255 * bytes.length ∧
      2 * (rawSums s bytes).2
        ≤ 2 * s.2 + 2 * (bytes.length * s.1) + 255 * (bytes.length * (bytes.length + 1)) := by
  induction bytes generalizing s with
  | nil => simp [rawSums]
  | cons b bytes ih =>
      obtain ⟨h₁, h₂⟩ := ih (rawStep s b)
      have hb : b.toNat ≤ 255 := by
        have := b.toNat_lt
        omega
      have hmul : bytes.length * b.toNat ≤ bytes.length * 255 := Nat.mul_le_mul_left _ hb
      simp only [rawStep, Nat.mul_add] at h₁ h₂
      rw [rawSums, List.foldl_cons, List.length_cons]
      refine ⟨h₁.trans (by omega), h₂.trans ?_⟩
      have hexpand : (bytes.length + 1) * s.1 = bytes.length * s.1 + s.1 := by ring
      have hsquare : (bytes.length + 1) * (bytes.length + 1 + 1)
          = bytes.length * bytes.length + 3 * bytes.length + 2 := by ring
      rw [hexpand, hsquare]
      omega

/-- Up to 5552 bytes after reduced sums fit in 32 bits. -/
theorem rawSums_lt {s : ℕ × ℕ} (h₁ : s.1 < 65521) (h₂ : s.2 < 65521) {bytes : List UInt8}
    (hlen : bytes.length ≤ 5552) :
    (rawSums s bytes).1 < 2 ^ 32 ∧ (rawSums s bytes).2 < 2 ^ 32 := by
  obtain ⟨hle₁, hle₂⟩ := rawSums_le s bytes
  have hmul : bytes.length * s.1 ≤ 5552 * 65520 := Nat.mul_le_mul hlen (by omega)
  have hsquare : bytes.length * (bytes.length + 1) ≤ 5552 * 5553 :=
    Nat.mul_le_mul hlen (by omega)
  omega

end ArcticController

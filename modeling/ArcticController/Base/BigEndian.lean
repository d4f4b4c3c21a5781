/-
Words put together from bytes, the most significant one first.

* `word16`: a word of two bytes, and `bytes16`, the bytes of a word;
* `word16_bytes`, `bytes16_word16`: one undoes the other;
* `wordsOf`, `bytesOfWords`: some words from the front of a list, and the bytes of some words;
* `beNat`: the number that bytes spell; `toNat_shift_or`: one byte more of a 32-bit word;
* `bytes32`: the bytes of a 32-bit word, `beNat_bytes32`;
* `natBytes`: a number in the fewest bytes, `natBytes_beNat`.
-/
import Mathlib.Tactic

namespace ArcticController

/-! ### Words of two bytes -/

def word16 (hi lo : UInt8) : UInt16 := hi.toUInt16 <<< 8 ||| lo.toUInt16

def bytes16 (w : UInt16) : List UInt8 := [(w >>> 8).toUInt8, w.toUInt8]

lemma toNat_word16 (hi lo : UInt8) : (word16 hi lo).toNat = 256 * hi.toNat + lo.toNat := by
  have hhi := hi.toNat_lt
  have hlo := lo.toNat_lt
  have hshift : (hi.toUInt16 <<< 8).toNat = 2 ^ 8 * hi.toNat := by
    rw [UInt16.toNat_shiftLeft, UInt8.toNat_toUInt16, Nat.shiftLeft_eq]
    have height : (8 : UInt16).toNat % 16 = 8 := rfl
    rw [height, Nat.mod_eq_of_lt (by omega), mul_comm]
  rw [word16, UInt16.toNat_or, hshift, UInt8.toNat_toUInt16, ← Nat.two_pow_add_eq_or_of_lt hlo]

lemma toNat_high (w : UInt16) : (w >>> 8).toUInt8.toNat = w.toNat / 256 := by
  have hw := w.toNat_lt
  have height : (8 : UInt16).toNat % 16 = 8 := rfl
  rw [UInt16.toNat_toUInt8, UInt16.toNat_shiftRight, height, Nat.shiftRight_eq_div_pow]
  omega

lemma toNat_low (w : UInt16) : w.toUInt8.toNat = w.toNat % 256 := UInt16.toNat_toUInt8 w

@[simp] lemma word16_bytes (w : UInt16) : word16 (w >>> 8).toUInt8 w.toUInt8 = w := by
  apply UInt16.toNat_inj.mp
  rw [toNat_word16, toNat_high, toNat_low]
  omega

@[simp] lemma bytes16_word16 (hi lo : UInt8) : bytes16 (word16 hi lo) = [hi, lo] := by
  have hlo := lo.toNat_lt
  have hhi : (word16 hi lo >>> 8).toUInt8 = hi := by
    apply UInt8.toNat_inj.mp
    rw [toNat_high, toNat_word16]
    omega
  have hlow : (word16 hi lo).toUInt8 = lo := by
    apply UInt8.toNat_inj.mp
    rw [toNat_low, toNat_word16]
    omega
  rw [bytes16, hhi, hlow]

/-- The bytes of some words. -/
def bytesOfWords (ws : List UInt16) : List UInt8 := ws.flatMap bytes16

/-- The words at the front of a list. -/
def wordsOf : ℕ → List UInt8 → List UInt16
  | n + 1, hi :: lo :: rest => word16 hi lo :: wordsOf n rest
  | _, _ => []

lemma length_bytesOfWords (ws : List UInt16) : (bytesOfWords ws).length = 2 * ws.length := by
  induction ws with
  | nil => rfl
  | cons w ws ih =>
      rw [bytesOfWords, List.flatMap_cons, List.length_append, List.length_cons]
      rw [bytesOfWords] at ih
      rw [ih, bytes16]
      simp only [List.length_cons, List.length_nil]
      omega

/-- The words of the bytes of some words. -/
lemma wordsOf_bytesOfWords (ws : List UInt16) (rest : List UInt8) :
    wordsOf ws.length (bytesOfWords ws ++ rest) = ws := by
  induction ws with
  | nil => rfl
  | cons w ws ih =>
      show word16 _ _ :: wordsOf ws.length (bytesOfWords ws ++ rest) = w :: ws
      rw [ih, word16_bytes]

variable {n : ℕ} {bytes : List UInt8}

/-- The bytes of the words at the front of a list. -/
lemma bytesOfWords_wordsOf (h : 2 * n ≤ bytes.length) :
    bytesOfWords (wordsOf n bytes) = bytes.take (2 * n) ∧ (wordsOf n bytes).length = n := by
  induction n generalizing bytes with
  | zero => cases bytes <;> exact ⟨rfl, rfl⟩
  | succ n ih =>
      obtain _ | ⟨hi, _ | ⟨lo, rest⟩⟩ := bytes
      · rw [List.length_nil] at h
        omega
      · rw [List.length_singleton] at h
        omega
      · have hrest : 2 * n ≤ rest.length := by
          simp only [List.length_cons] at h
          omega
        obtain ⟨hbytes, hlength⟩ := ih hrest
        refine ⟨?_, congrArg (· + 1) hlength⟩
        show bytes16 (word16 hi lo) ++ bytesOfWords (wordsOf n rest) = _
        rw [bytes16_word16, hbytes]
        rfl

/-! ### Words of some bytes -/

/-- The number that some bytes spell, most significant byte first. -/
def beNat (bytes : List UInt8) : ℕ := bytes.foldl (fun v b => v * 256 + b.toNat) 0

lemma beNat_concat (bytes : List UInt8) (b : UInt8) :
    beNat (bytes ++ [b]) = beNat bytes * 256 + b.toNat := by
  rw [beNat, List.foldl_append]
  rfl

lemma beNat_lt (bytes : List UInt8) : beNat bytes < 256 ^ bytes.length := by
  induction bytes using List.reverseRecOn with
  | nil => exact Nat.one_pos
  | append_singleton bytes b ih =>
      have hb := b.toNat_lt
      rw [beNat_concat, List.length_append, List.length_singleton, pow_succ]
      omega

/-- One byte more of a 32-bit word. -/
lemma toNat_shift_or {v : UInt32} (b : UInt8) (hv : v.toNat < 2 ^ 24) :
    (v <<< 8 ||| b.toUInt32).toNat = v.toNat * 256 + b.toNat := by
  have hb := b.toNat_lt
  have hshift : (v <<< 8).toNat = 2 ^ 8 * v.toNat := by
    have height : (8 : UInt32).toNat % 32 = 8 := rfl
    rw [UInt32.toNat_shiftLeft, height, Nat.shiftLeft_eq, Nat.mod_eq_of_lt (by omega), mul_comm]
  rw [UInt32.toNat_or, hshift, UInt8.toNat_toUInt32, ← Nat.two_pow_add_eq_or_of_lt hb, mul_comm]

def bytes32 (w : UInt32) : List UInt8 :=
  [(w >>> 24).toUInt8, (w >>> 16).toUInt8, (w >>> 8).toUInt8, w.toUInt8]

lemma toNat_shiftRight_toUInt8 (w : UInt32) {k : UInt32} (hk : k.toNat < 32) :
    (w >>> k).toUInt8.toNat = w.toNat / 2 ^ k.toNat % 256 := by
  rw [UInt32.toNat_toUInt8, UInt32.toNat_shiftRight, Nat.mod_eq_of_lt hk, Nat.shiftRight_eq_div_pow]

/-- The lowest bytes of a word. -/
lemma toNat_bytes32 (w : UInt32) :
    (w >>> 24).toUInt8.toNat = w.toNat / 16777216 % 256 ∧
      (w >>> 16).toUInt8.toNat = w.toNat / 65536 % 256 ∧
      (w >>> 8).toUInt8.toNat = w.toNat / 256 % 256 ∧ w.toUInt8.toNat = w.toNat % 256 :=
  ⟨toNat_shiftRight_toUInt8 w (k := 24) (by decide), toNat_shiftRight_toUInt8 w (k := 16) (by decide),
    toNat_shiftRight_toUInt8 w (k := 8) (by decide), UInt32.toNat_toUInt8 w⟩

lemma beNat_bytes32 (w : UInt32) : beNat (bytes32 w) = w.toNat := by
  have hw := w.toNat_lt
  obtain ⟨h₂₄, h₁₆, h₈, h₀⟩ := toNat_bytes32 w
  simp only [bytes32, beNat, List.foldl_cons, List.foldl_nil, h₂₄, h₁₆, h₈, h₀]
  omega

/-- Bytes of one length are the same if they spell the same number. -/
lemma beNat_inj {bytes' : List UInt8} (hlength : bytes.length = bytes'.length)
    (h : beNat bytes = beNat bytes') : bytes = bytes' := by
  induction bytes using List.reverseRecOn generalizing bytes' with
  | nil => exact (List.length_eq_zero_iff.mp hlength.symm).symm
  | append_singleton bytes b ih =>
      cases bytes' using List.reverseRecOn with
      | nil =>
          rw [List.length_append, List.length_singleton, List.length_nil] at hlength
          omega
      | append_singleton bytes' b' =>
          have hb := b.toNat_lt
          have hb' := b'.toNat_lt
          rw [beNat_concat, beNat_concat] at h
          rw [List.length_append, List.length_append, List.length_singleton,
            List.length_singleton] at hlength
          have hfront : bytes = bytes' := ih (by omega) (by omega)
          have hlast : b = b' := UInt8.toNat_inj.mp (by omega)
          rw [hfront, hlast]

/-! ### The fewest bytes -/

/-- The number in as few bytes as it needs. -/
def natBytes (n : ℕ) : List UInt8 :=
  if n < 256 then [UInt8.ofNat n] else natBytes (n / 256) ++ [UInt8.ofNat n]

/-- No byte in front that could be left out. -/
def Fewest (bytes : List UInt8) : Prop :=
  bytes ≠ [] ∧ (bytes.length = 1 ∨ bytes.headD 0 ≠ 0)

lemma natBytes_of_lt (h : n < 256) : natBytes n = [UInt8.ofNat n] := by
  rw [natBytes, if_pos h]

lemma natBytes_of_le (h : 256 ≤ n) : natBytes n = natBytes (n / 256) ++ [UInt8.ofNat n] := by
  rw [natBytes, if_neg (not_lt.mpr h)]

lemma beNat_natBytes (n : ℕ) : beNat (natBytes n) = n := by
  induction n using Nat.strong_induction_on with
  | _ n ih =>
      have hlow : (UInt8.ofNat n).toNat = n % 256 := UInt8.toNat_ofNat'
      by_cases hn : n < 256
      · rw [natBytes_of_lt hn]
        simp only [beNat, List.foldl_cons, List.foldl_nil, hlow]
        omega
      · rw [natBytes_of_le (by omega), beNat_concat, ih (n / 256) (by omega), hlow]
        omega

lemma headD_append (h : bytes ≠ []) (rest : List UInt8) :
    (bytes ++ rest).headD 0 = bytes.headD 0 := by
  obtain ⟨b, bytes, rfl⟩ := List.exists_cons_of_ne_nil h
  rfl

lemma fewest_natBytes (n : ℕ) : Fewest (natBytes n) := by
  induction n using Nat.strong_induction_on with
  | _ n ih =>
      by_cases hn : n < 256
      · rw [natBytes_of_lt hn]
        exact ⟨List.cons_ne_nil _ _, .inl rfl⟩
      · rw [natBytes_of_le (by omega)]
        obtain ⟨hne, hhead⟩ := ih (n / 256) (by omega)
        refine ⟨List.append_ne_nil_of_left_ne_nil hne _, .inr ?_⟩
        rw [headD_append hne]
        rcases hhead with hone | hhead
        · -- a single byte that spells a positive number
          obtain ⟨b, hb⟩ := List.length_eq_one_iff.mp hone
          have hbeNat := beNat_natBytes (n / 256)
          rw [hb] at hbeNat ⊢
          rintro (rfl : b = 0)
          simp only [beNat, List.foldl_cons, List.foldl_nil, UInt8.toNat_zero] at hbeNat
          omega
        · exact hhead

lemma beNat_pos (h : bytes.headD 0 ≠ 0) : 0 < beNat bytes := by
  induction bytes using List.reverseRecOn with
  | nil => exact absurd rfl h
  | append_singleton bytes b ih =>
      rw [beNat_concat]
      by_cases hempty : bytes = []
      · subst hempty
        have hb : b.toNat ≠ 0 := fun hzero => h (UInt8.toNat_inj.mp hzero)
        omega
      · rw [headD_append hempty] at h
        have := ih h
        omega

/-- The fewest bytes of a number are its bytes. -/
lemma natBytes_beNat (h : Fewest bytes) : natBytes (beNat bytes) = bytes := by
  induction bytes using List.reverseRecOn with
  | nil => exact absurd rfl h.1
  | append_singleton bytes b ih =>
      have hb := b.toNat_lt
      rw [beNat_concat]
      by_cases hempty : bytes = []
      · subst hempty
        have hzero : beNat [] = 0 := rfl
        rw [hzero, Nat.zero_mul, Nat.zero_add, natBytes_of_lt hb, UInt8.ofNat_toNat]
        rfl
      · have hhead : bytes.headD 0 ≠ 0 := by
          rcases h.2 with hone | hhead
          · rw [List.length_append, List.length_singleton] at hone
            exact absurd (List.length_eq_zero_iff.mp (by omega)) hempty
          · rwa [headD_append hempty] at hhead
        have hpos := beNat_pos hhead
        have hdiv : (beNat bytes * 256 + b.toNat) / 256 = beNat bytes := by omega
        have hlow : UInt8.ofNat (beNat bytes * 256 + b.toNat) = b := by
          apply UInt8.toNat_inj.mp
          rw [UInt8.toNat_ofNat']
          omega
        rw [natBytes_of_le (by omega), hdiv, hlow, ih ⟨hempty, .inr hhead⟩]

lemma length_natBytes_le {k : ℕ} (h : n < 256 ^ (k + 1)) : (natBytes n).length ≤ k + 1 := by
  induction k generalizing n with
  | zero =>
      rw [natBytes_of_lt (by simpa using h)]
      rfl
  | succ k ih =>
      by_cases hn : n < 256
      · rw [natBytes_of_lt hn, List.length_singleton]
        omega
      · rw [natBytes_of_le (by omega), List.length_append, List.length_singleton]
        have hdiv : n / 256 < 256 ^ (k + 1) := by
          rw [pow_succ] at h
          exact Nat.div_lt_of_lt_mul (by omega)
        have := ih hdiv
        omega

/-- A number takes four bytes or fewer exactly below `2 ^ 32`. -/
lemma length_natBytes_le_four : (natBytes n).length ≤ 4 ↔ n < 2 ^ 32 := by
  constructor
  · intro h
    calc n = beNat (natBytes n) := (beNat_natBytes n).symm
      _ < 256 ^ (natBytes n).length := beNat_lt _
      _ ≤ 256 ^ 4 := Nat.pow_le_pow_right (by decide) h
      _ = 2 ^ 32 := by decide
  · exact fun h => length_natBytes_le h

end ArcticController

/-
The bytes of UTF-8.

* `Utf8Form`: the sequences of one to four bytes that encode a code point, written
  with arithmetic: the least number of bytes, no surrogate, nothing above U+10FFFF;
* `utf8Form_iff`: they are what Lean encodes a character as;
* `utf8Encode`: the bytes of a list of characters;
* `Utf8Starts`: bytes that begin with a form; `utf8Starts_one` to `utf8Starts_four` and
  `not_utf8Starts` say which by the first byte;
* `lead_two`, `lead_three`, `lead_four`, `continuation`: the masks a decoder tests;
* `two_bytes`, `three_bytes`, `four_bytes`: the code point it puts together.
-/
import Mathlib.Data.Nat.Bitwise
import Mathlib.Tactic

namespace ArcticController

/-- The encoded forms of a code point. -/
inductive Utf8Form : List UInt8 → ℕ → Prop
  | one {a : UInt8} (ha : a.toNat < 0x80) : Utf8Form [a] a.toNat
  | two {a b : UInt8} {cp : ℕ} (ha : 0xC0 ≤ a.toNat ∧ a.toNat < 0xE0)
      (hb : 0x80 ≤ b.toNat ∧ b.toNat < 0xC0)
      (hcp : cp = a.toNat % 0x20 * 0x40 + b.toNat % 0x40) (hleast : 0x80 ≤ cp) :
      Utf8Form [a, b] cp
  | three {a b c : UInt8} {cp : ℕ} (ha : 0xE0 ≤ a.toNat ∧ a.toNat < 0xF0)
      (hb : 0x80 ≤ b.toNat ∧ b.toNat < 0xC0) (hc : 0x80 ≤ c.toNat ∧ c.toNat < 0xC0)
      (hcp : cp = a.toNat % 0x10 * 0x1000 + b.toNat % 0x40 * 0x40 + c.toNat % 0x40)
      (hleast : 0x800 ≤ cp) (hscalar : cp < 0xD800 ∨ 0xDFFF < cp) : Utf8Form [a, b, c] cp
  | four {a b c d : UInt8} {cp : ℕ} (ha : 0xF0 ≤ a.toNat ∧ a.toNat < 0xF8)
      (hb : 0x80 ≤ b.toNat ∧ b.toNat < 0xC0) (hc : 0x80 ≤ c.toNat ∧ c.toNat < 0xC0)
      (hd : 0x80 ≤ d.toNat ∧ d.toNat < 0xC0)
      (hcp : cp = a.toNat % 0x08 * 0x40000 + b.toNat % 0x40 * 0x1000 + c.toNat % 0x40 * 0x40
        + d.toNat % 0x40)
      (hleast : 0x10000 ≤ cp) (hscalar : cp ≤ 0x10FFFF) : Utf8Form [a, b, c, d] cp

/-- The bytes of a list of characters. -/
def utf8Encode (chars : List Char) : List UInt8 := chars.flatMap String.utf8EncodeChar

@[simp] lemma utf8Encode_cons (c : Char) (chars : List Char) :
    utf8Encode (c :: chars) = String.utf8EncodeChar c ++ utf8Encode chars := rfl

/-! ### A character and its bytes -/

/-- What a character is encoded as. -/
lemma utf8Form_encodeChar (c : Char) : Utf8Form (String.utf8EncodeChar c) c.val.toNat := by
  have hvalid : c.val.toNat < 0xD800 ∨ (0xDFFF < c.val.toNat ∧ c.val.toNat < 0x110000) := c.valid
  rw [String.utf8EncodeChar]
  split_ifs with h1 h2 h3
  · have ha : (UInt8.ofNat c.val.toNat).toNat = c.val.toNat := by
      rw [UInt8.toNat_ofNat']
      omega
    have h := Utf8Form.one (a := UInt8.ofNat c.val.toNat) (by omega)
    rwa [ha] at h
  · refine .two ?_ ?_ ?_ (by omega) <;> simp only [UInt8.toNat_ofNat'] <;> omega
  · refine .three ?_ ?_ ?_ ?_ (by omega) (by omega) <;> simp only [UInt8.toNat_ofNat'] <;> omega
  · refine .four ?_ ?_ ?_ ?_ ?_ (by omega) (by omega) <;>
      simp only [UInt8.toNat_ofNat'] <;> omega

/-- The code point of a form is one of a character. -/
lemma Utf8Form.isValidChar {bytes : List UInt8} {cp : ℕ} (h : Utf8Form bytes cp) :
    cp.isValidChar := by
  cases h with
  | one ha => exact .inl (by omega)
  | two ha hb hcp hleast => exact .inl (by omega)
  | three ha hb hc hcp hleast hscalar =>
      rcases hscalar with h | h
      · exact .inl h
      · exact .inr ⟨h, by omega⟩
  | four ha hb hc hd hcp hleast hscalar => exact .inr ⟨by omega, by omega⟩

lemma Utf8Form.length_pos {bytes : List UInt8} {cp : ℕ} (h : Utf8Form bytes cp) :
    0 < bytes.length := by
  cases h <;> exact Nat.succ_pos _

/-- A byte that ends in the bits of a number. -/
lemma ofNat_eq {n : ℕ} {b : UInt8} (h : n = b.toNat) : UInt8.ofNat n = b := by
  rw [h, UInt8.ofNat_toNat]

/-- The forms are the encodings of the characters. -/
lemma utf8Form_iff {bytes : List UInt8} {cp : ℕ} :
    Utf8Form bytes cp ↔ ∃ c : Char, c.val.toNat = cp ∧ String.utf8EncodeChar c = bytes := by
  constructor
  · intro h
    have hchar : (Char.ofNatAux cp h.isValidChar).val.toNat = cp := rfl
    refine ⟨Char.ofNatAux cp h.isValidChar, hchar, ?_⟩
    rw [String.utf8EncodeChar, hchar]
    cases h with
    | one ha => rw [if_pos (by omega), UInt8.ofNat_toNat]
    | two ha hb hcp hleast =>
        rw [if_neg (by omega), if_pos (by omega)]
        simp only [List.cons.injEq, and_true]
        exact ⟨ofNat_eq (by omega), ofNat_eq (by omega)⟩
    | three ha hb hc hcp hleast hscalar =>
        rw [if_neg (by omega), if_neg (by omega), if_pos (by omega)]
        simp only [List.cons.injEq, and_true]
        exact ⟨ofNat_eq (by omega), ofNat_eq (by omega), ofNat_eq (by omega)⟩
    | four ha hb hc hd hcp hleast hscalar =>
        rw [if_neg (by omega), if_neg (by omega), if_neg (by omega)]
        simp only [List.cons.injEq, and_true]
        exact ⟨ofNat_eq (by omega), ofNat_eq (by omega), ofNat_eq (by omega), ofNat_eq (by omega)⟩
  · rintro ⟨c, rfl, rfl⟩
    exact utf8Form_encodeChar c

/-! ### The form bytes begin with -/

/-- Bytes that begin with a form of a code point. -/
def Utf8Starts (bytes : List UInt8) (cp len : ℕ) : Prop :=
  ∃ form, Utf8Form form cp ∧ form.length = len ∧ form <+: bytes

section Starts

variable {a b c d : UInt8} {rest : List UInt8} {cp len : ℕ}

lemma utf8Starts_one (ha : a.toNat < 0x80) :
    Utf8Starts (a :: rest) cp len ↔ len = 1 ∧ cp = a.toNat := by
  constructor
  · rintro ⟨form, hform, rfl, hstarts⟩
    cases hform with
    | one => exact ⟨rfl, by rw [(List.cons_prefix_cons.mp hstarts).1]⟩
    | two ha' => have := (List.cons_prefix_cons.mp hstarts).1; subst this; omega
    | three ha' => have := (List.cons_prefix_cons.mp hstarts).1; subst this; omega
    | four ha' => have := (List.cons_prefix_cons.mp hstarts).1; subst this; omega
  · rintro ⟨rfl, rfl⟩
    exact ⟨[a], .one ha, rfl, rest, rfl⟩

lemma utf8Starts_two (ha : 0xC0 ≤ a.toNat ∧ a.toNat < 0xE0) :
    Utf8Starts (a :: rest) cp len ↔ len = 2 ∧ ∃ b rest', rest = b :: rest' ∧
      (0x80 ≤ b.toNat ∧ b.toNat < 0xC0) ∧ cp = a.toNat % 0x20 * 0x40 + b.toNat % 0x40 ∧
      0x80 ≤ cp := by
  constructor
  · rintro ⟨form, hform, rfl, hstarts⟩
    obtain ⟨tail, htail⟩ := hstarts
    cases hform with
    | one ha' => cases htail; omega
    | two _ hb hcp hleast => cases htail; exact ⟨rfl, _, _, rfl, hb, hcp, hleast⟩
    | three ha' => cases htail; omega
    | four ha' => cases htail; omega
  · rintro ⟨rfl, b, rest', rfl, hb, hcp, hleast⟩
    exact ⟨[a, b], .two ha hb hcp hleast, rfl, rest', rfl⟩

lemma utf8Starts_three (ha : 0xE0 ≤ a.toNat ∧ a.toNat < 0xF0) :
    Utf8Starts (a :: rest) cp len ↔ len = 3 ∧ ∃ b c rest', rest = b :: c :: rest' ∧
      (0x80 ≤ b.toNat ∧ b.toNat < 0xC0) ∧ (0x80 ≤ c.toNat ∧ c.toNat < 0xC0) ∧
      cp = a.toNat % 0x10 * 0x1000 + b.toNat % 0x40 * 0x40 + c.toNat % 0x40 ∧
      0x800 ≤ cp ∧ (cp < 0xD800 ∨ 0xDFFF < cp) := by
  constructor
  · rintro ⟨form, hform, rfl, hstarts⟩
    obtain ⟨tail, htail⟩ := hstarts
    cases hform with
    | one ha' => cases htail; omega
    | two ha' => cases htail; omega
    | three _ hb hc hcp hleast hscalar =>
        cases htail
        exact ⟨rfl, _, _, _, rfl, hb, hc, hcp, hleast, hscalar⟩
    | four ha' => cases htail; omega
  · rintro ⟨rfl, b, c, rest', rfl, hb, hc, hcp, hleast, hscalar⟩
    exact ⟨[a, b, c], .three ha hb hc hcp hleast hscalar, rfl, rest', rfl⟩

lemma utf8Starts_four (ha : 0xF0 ≤ a.toNat ∧ a.toNat < 0xF8) :
    Utf8Starts (a :: rest) cp len ↔ len = 4 ∧ ∃ b c d rest', rest = b :: c :: d :: rest' ∧
      (0x80 ≤ b.toNat ∧ b.toNat < 0xC0) ∧ (0x80 ≤ c.toNat ∧ c.toNat < 0xC0) ∧
      (0x80 ≤ d.toNat ∧ d.toNat < 0xC0) ∧
      cp = a.toNat % 0x08 * 0x40000 + b.toNat % 0x40 * 0x1000 + c.toNat % 0x40 * 0x40
        + d.toNat % 0x40 ∧
      0x10000 ≤ cp ∧ cp ≤ 0x10FFFF := by
  constructor
  · rintro ⟨form, hform, rfl, hstarts⟩
    obtain ⟨tail, htail⟩ := hstarts
    cases hform with
    | one ha' => cases htail; omega
    | two ha' => cases htail; omega
    | three ha' => cases htail; omega
    | four _ hb hc hd hcp hleast hscalar =>
        cases htail
        exact ⟨rfl, _, _, _, _, rfl, hb, hc, hd, hcp, hleast, hscalar⟩
  · rintro ⟨rfl, b, c, d, rest', rfl, hb, hc, hd, hcp, hleast, hscalar⟩
    exact ⟨[a, b, c, d], .four ha hb hc hd hcp hleast hscalar, rfl, rest', rfl⟩

/-- A continuation byte and the bytes from `F8` on begin nothing. -/
lemma not_utf8Starts (ha : 0x80 ≤ a.toNat) (htwo : ¬ (0xC0 ≤ a.toNat ∧ a.toNat < 0xE0))
    (hthree : ¬ (0xE0 ≤ a.toNat ∧ a.toNat < 0xF0)) (hfour : ¬ (0xF0 ≤ a.toNat ∧ a.toNat < 0xF8)) :
    ¬ Utf8Starts (a :: rest) cp len := by
  rintro ⟨form, hform, rfl, tail, htail⟩
  cases hform with
  | one ha' => cases htail; omega
  | two ha' => cases htail; omega
  | three ha' => cases htail; omega
  | four ha' => cases htail; omega

end Starts

/-! ### The masks of a decoder -/

/-- The upper bits of a byte are the byte without what lies below. -/
lemma masked_byte : ∀ n : Fin 256,
    n.val &&& 0xC0 = n.val / 0x40 * 0x40 ∧ n.val &&& 0xE0 = n.val / 0x20 * 0x20 ∧
    n.val &&& 0xF0 = n.val / 0x10 * 0x10 ∧ n.val &&& 0xF8 = n.val / 0x08 * 0x08 := by
  decide +kernel

section Masks

variable (a : UInt8)

lemma masked_toNat :
    a.toNat &&& 0xC0 = a.toNat / 0x40 * 0x40 ∧ a.toNat &&& 0xE0 = a.toNat / 0x20 * 0x20 ∧
    a.toNat &&& 0xF0 = a.toNat / 0x10 * 0x10 ∧ a.toNat &&& 0xF8 = a.toNat / 0x08 * 0x08 :=
  masked_byte ⟨a.toNat, a.toNat_lt⟩

lemma lead_two : a &&& 0xE0 = 0xC0 ↔ 0xC0 ≤ a.toNat ∧ a.toNat < 0xE0 := by
  have h := (masked_toNat a).2.1
  rw [← UInt8.toNat_inj, UInt8.toNat_and]
  change a.toNat &&& 0xE0 = 0xC0 ↔ _
  omega

lemma lead_three : a &&& 0xF0 = 0xE0 ↔ 0xE0 ≤ a.toNat ∧ a.toNat < 0xF0 := by
  have h := (masked_toNat a).2.2.1
  rw [← UInt8.toNat_inj, UInt8.toNat_and]
  change a.toNat &&& 0xF0 = 0xE0 ↔ _
  omega

lemma lead_four : a &&& 0xF8 = 0xF0 ↔ 0xF0 ≤ a.toNat ∧ a.toNat < 0xF8 := by
  have h := (masked_toNat a).2.2.2
  rw [← UInt8.toNat_inj, UInt8.toNat_and]
  change a.toNat &&& 0xF8 = 0xF0 ↔ _
  omega

lemma continuation : a &&& 0xC0 = 0x80 ↔ 0x80 ≤ a.toNat ∧ a.toNat < 0xC0 := by
  have h := (masked_toNat a).1
  rw [← UInt8.toNat_inj, UInt8.toNat_and]
  change a.toNat &&& 0xC0 = 0x80 ↔ _
  omega

/-- The lower bits of a byte, widened. -/
lemma toNat_lowBits (k : ℕ) (mask : UInt8) (hmask : mask.toNat = 2 ^ k - 1) :
    (a &&& mask).toUInt32.toNat = a.toNat % 2 ^ k := by
  rw [UInt8.toNat_toUInt32, UInt8.toNat_and, hmask, Nat.and_two_pow_sub_one_eq_mod]

end Masks

/-! ### The code point put together -/

/-- A shift by a constant that loses nothing. -/
lemma toNat_shiftLeft32 {x k : UInt32} (hk : k.toNat < 32) (hx : x.toNat * 2 ^ k.toNat < 2 ^ 32) :
    (x <<< k).toNat = x.toNat * 2 ^ k.toNat := by
  rw [UInt32.toNat_shiftLeft, Nat.mod_eq_of_lt hk, Nat.shiftLeft_eq, Nat.mod_eq_of_lt hx]

/-- Bits beside bits that end above them. -/
lemma toNat_or32 {x y : UInt32} (k : ℕ) (hx : 2 ^ k ∣ x.toNat) (hy : y.toNat < 2 ^ k) :
    (x ||| y).toNat = x.toNat + y.toNat := by
  obtain ⟨q, hq⟩ := hx
  rw [UInt32.toNat_or, hq, Nat.two_pow_add_eq_or_of_lt hy]

section CodePoints

variable (a b c d : UInt8)

lemma toNat_two_bytes :
    ((a &&& 0x1F).toUInt32 <<< 6 ||| (b &&& 0x3F).toUInt32).toNat
      = a.toNat % 0x20 * 0x40 + b.toNat % 0x40 := by
  have ha : (a &&& 0x1F).toUInt32.toNat = a.toNat % 0x20 := toNat_lowBits a 5 0x1F rfl
  have hb : (b &&& 0x3F).toUInt32.toNat = b.toNat % 0x40 := toNat_lowBits b 6 0x3F rfl
  have hshift : ((a &&& 0x1F).toUInt32 <<< 6).toNat = a.toNat % 0x20 * 0x40 := by
    rw [toNat_shiftLeft32 (by decide) (by rw [ha]; change _ * 64 < _; omega), ha]
    rfl
  rw [toNat_or32 6 (by rw [hshift]; exact Dvd.intro_left _ rfl) (by omega), hshift, hb]

lemma toNat_three_bytes :
    ((a &&& 0x0F).toUInt32 <<< 12 ||| (b &&& 0x3F).toUInt32 <<< 6 |||
      (c &&& 0x3F).toUInt32).toNat
      = a.toNat % 0x10 * 0x1000 + b.toNat % 0x40 * 0x40 + c.toNat % 0x40 := by
  have ha : (a &&& 0x0F).toUInt32.toNat = a.toNat % 0x10 := toNat_lowBits a 4 0x0F rfl
  have hb : (b &&& 0x3F).toUInt32.toNat = b.toNat % 0x40 := toNat_lowBits b 6 0x3F rfl
  have hc : (c &&& 0x3F).toUInt32.toNat = c.toNat % 0x40 := toNat_lowBits c 6 0x3F rfl
  have hhigh : ((a &&& 0x0F).toUInt32 <<< 12).toNat = a.toNat % 0x10 * 0x1000 := by
    rw [toNat_shiftLeft32 (by decide) (by rw [ha]; change _ * 4096 < _; omega), ha]
    rfl
  have hmid : ((b &&& 0x3F).toUInt32 <<< 6).toNat = b.toNat % 0x40 * 0x40 := by
    rw [toNat_shiftLeft32 (by decide) (by rw [hb]; change _ * 64 < _; omega), hb]
    rfl
  have hupper := toNat_or32 (x := (a &&& 0x0F).toUInt32 <<< 12)
    (y := (b &&& 0x3F).toUInt32 <<< 6) 12 (by rw [hhigh]; exact Dvd.intro_left _ rfl) (by omega)
  rw [toNat_or32 6 (by rw [hupper]; omega) (by omega), hupper, hhigh, hmid, hc]

lemma toNat_four_bytes :
    ((a &&& 0x07).toUInt32 <<< 18 ||| (b &&& 0x3F).toUInt32 <<< 12 |||
      (c &&& 0x3F).toUInt32 <<< 6 ||| (d &&& 0x3F).toUInt32).toNat
      = a.toNat % 0x08 * 0x40000 + b.toNat % 0x40 * 0x1000 + c.toNat % 0x40 * 0x40
        + d.toNat % 0x40 := by
  have ha : (a &&& 0x07).toUInt32.toNat = a.toNat % 0x08 := toNat_lowBits a 3 0x07 rfl
  have hb : (b &&& 0x3F).toUInt32.toNat = b.toNat % 0x40 := toNat_lowBits b 6 0x3F rfl
  have hc : (c &&& 0x3F).toUInt32.toNat = c.toNat % 0x40 := toNat_lowBits c 6 0x3F rfl
  have hd : (d &&& 0x3F).toUInt32.toNat = d.toNat % 0x40 := toNat_lowBits d 6 0x3F rfl
  have hhigh : ((a &&& 0x07).toUInt32 <<< 18).toNat = a.toNat % 0x08 * 0x40000 := by
    rw [toNat_shiftLeft32 (by decide) (by rw [ha]; change _ * 262144 < _; omega), ha]
    rfl
  have hmid : ((b &&& 0x3F).toUInt32 <<< 12).toNat = b.toNat % 0x40 * 0x1000 := by
    rw [toNat_shiftLeft32 (by decide) (by rw [hb]; change _ * 4096 < _; omega), hb]
    rfl
  have hlow : ((c &&& 0x3F).toUInt32 <<< 6).toNat = c.toNat % 0x40 * 0x40 := by
    rw [toNat_shiftLeft32 (by decide) (by rw [hc]; change _ * 64 < _; omega), hc]
    rfl
  have hupper := toNat_or32 (x := (a &&& 0x07).toUInt32 <<< 18)
    (y := (b &&& 0x3F).toUInt32 <<< 12) 18 (by rw [hhigh]; exact Dvd.intro_left _ rfl) (by omega)
  have hthree := toNat_or32 (x := (a &&& 0x07).toUInt32 <<< 18 ||| (b &&& 0x3F).toUInt32 <<< 12)
    (y := (c &&& 0x3F).toUInt32 <<< 6) 12 (by rw [hupper]; omega) (by omega)
  rw [toNat_or32 6 (by rw [hthree]; omega) (by omega), hthree, hupper, hhigh, hmid, hlow, hd]

end CodePoints

end ArcticController

/-
Packed records: values laid out in a fixed number of bytes, least significant
byte first, the way a C structure without padding is stored.

* `leBytes`, `leNat`: the little-endian bytes of a number and the number read
  back from the front of a byte string (`leNat_leBytes`);
* `Codec`: a layout, that is a size, an encoder and a decoder that undoes it
  whatever bytes follow;
* `Codec.u8` … `Codec.u64`, `Codec.i16` … `Codec.i64`: machine integers, and
  `Codec.be16`, `Codec.be32` with the most significant byte first;
* `Codec.pair`, `Codec.array`, `Codec.iso`: two fields in a row, an array of
  equal fields, and a structure built from its fields.
-/
import Mathlib.Tactic

namespace ArcticController

/-! ### Little-endian numbers -/

/-- The lowest `w` bytes of a number, least significant first. -/
def leBytes : ℕ → ℕ → List UInt8
  | 0, _ => []
  | w + 1, n => UInt8.ofNat n :: leBytes w (n / 256)

/-- The number the first `w` bytes of a string spell. -/
def leNat : ℕ → List UInt8 → ℕ
  | 0, _ => 0
  | _ + 1, [] => 0
  | w + 1, b :: bs => b.toNat + 256 * leNat w bs

@[simp] lemma leBytes_length (w n : ℕ) : (leBytes w n).length = w := by
  induction w generalizing n with
  | zero => rfl
  | succ w ih => simp [leBytes, ih]

lemma leNat_leBytes (w n : ℕ) (rest : List UInt8) :
    leNat w (leBytes w n ++ rest) = n % 256 ^ w := by
  induction w generalizing n with
  | zero => simp [leNat, Nat.mod_one]
  | succ w ih =>
      have hlow : (UInt8.ofNat n).toNat = n % 256 := by simp
      rw [leBytes, List.cons_append, leNat, ih, hlow, pow_succ, mul_comm (256 ^ w) 256,
        Nat.mod_mul]

/-! ### Layouts -/

/-- A layout of `α` in a fixed number of bytes: the decoder reads a value back
from the front of any string its encoding is a prefix of. -/
structure Codec (α : Type) where
  size : ℕ
  enc : α → List UInt8
  dec : List UInt8 → α
  enc_length : ∀ a, (enc a).length = size
  dec_enc_append : ∀ a rest, dec (enc a ++ rest) = a

namespace Codec

variable {α β : Type}

@[simp] lemma length_enc (c : Codec α) (a : α) : (c.enc a).length = c.size := c.enc_length a

@[simp] lemma dec_enc (c : Codec α) (a : α) : c.dec (c.enc a) = a := by
  simpa using c.dec_enc_append a []

/-- A byte. -/
def u8 : Codec UInt8 where
  size := 1
  enc a := leBytes 1 a.toNat
  dec bs := UInt8.ofNat (leNat 1 bs)
  enc_length a := leBytes_length _ _
  dec_enc_append a rest := by
    rw [leNat_leBytes, Nat.mod_eq_of_lt (by simpa using a.toNat_lt), UInt8.ofNat_toNat]

/-- A 16-bit word. -/
def u16 : Codec UInt16 where
  size := 2
  enc a := leBytes 2 a.toNat
  dec bs := UInt16.ofNat (leNat 2 bs)
  enc_length a := leBytes_length _ _
  dec_enc_append a rest := by
    rw [leNat_leBytes, Nat.mod_eq_of_lt (by simpa using a.toNat_lt), UInt16.ofNat_toNat]

/-- A 32-bit word. -/
def u32 : Codec UInt32 where
  size := 4
  enc a := leBytes 4 a.toNat
  dec bs := UInt32.ofNat (leNat 4 bs)
  enc_length a := leBytes_length _ _
  dec_enc_append a rest := by
    rw [leNat_leBytes, Nat.mod_eq_of_lt (by simpa using a.toNat_lt), UInt32.ofNat_toNat]

/-- A 64-bit word. -/
def u64 : Codec UInt64 where
  size := 8
  enc a := leBytes 8 a.toNat
  dec bs := UInt64.ofNat (leNat 8 bs)
  enc_length a := leBytes_length _ _
  dec_enc_append a rest := by
    rw [leNat_leBytes, Nat.mod_eq_of_lt (by simpa using a.toNat_lt), UInt64.ofNat_toNat]

/-- A 16-bit word, most significant byte first. -/
def be16 : Codec UInt16 where
  size := 2
  enc a := (leBytes 2 a.toNat).reverse
  dec bs := UInt16.ofNat (leNat 2 (bs.take 2).reverse)
  enc_length a := by rw [List.length_reverse, leBytes_length]
  dec_enc_append a rest := by
    have h := leNat_leBytes 2 a.toNat []
    rw [List.append_nil] at h
    rw [List.take_left' (by rw [List.length_reverse, leBytes_length]), List.reverse_reverse, h,
      Nat.mod_eq_of_lt (by simpa using a.toNat_lt), UInt16.ofNat_toNat]

/-- A 32-bit word, most significant byte first. -/
def be32 : Codec UInt32 where
  size := 4
  enc a := (leBytes 4 a.toNat).reverse
  dec bs := UInt32.ofNat (leNat 4 (bs.take 4).reverse)
  enc_length a := by rw [List.length_reverse, leBytes_length]
  dec_enc_append a rest := by
    have h := leNat_leBytes 4 a.toNat []
    rw [List.append_nil] at h
    rw [List.take_left' (by rw [List.length_reverse, leBytes_length]), List.reverse_reverse, h,
      Nat.mod_eq_of_lt (by simpa using a.toNat_lt), UInt32.ofNat_toNat]

/-- A value stored as another one it can be rebuilt from. -/
def iso (c : Codec α) (build : α → β) (fields : β → α) (h : ∀ b, build (fields b) = b) :
    Codec β where
  size := c.size
  enc b := c.enc (fields b)
  dec bs := build (c.dec bs)
  enc_length b := c.enc_length _
  dec_enc_append b rest := by rw [c.dec_enc_append, h]

/-- Signed words, stored in two's complement. -/
def i16 : Codec Int16 := u16.iso (fun a => a.toInt16) (fun a => a.toUInt16) (by simp)

/-- A signed 32-bit word. -/
def i32 : Codec Int32 := u32.iso (fun a => a.toInt32) (fun a => a.toUInt32) (by simp)

/-- A signed 64-bit word. -/
def i64 : Codec Int64 := u64.iso (fun a => a.toInt64) (fun a => a.toUInt64) (by simp)

/-- Two fields in a row. -/
def pair (c : Codec α) (d : Codec β) : Codec (α × β) where
  size := c.size + d.size
  enc p := c.enc p.1 ++ d.enc p.2
  dec bs := (c.dec bs, d.dec (bs.drop c.size))
  enc_length p := by simp
  dec_enc_append p rest := by
    rw [List.append_assoc, c.dec_enc_append, List.drop_left' (c.enc_length _),
      d.dec_enc_append]

/-- The part of an encoded array from its `i`-th element on. -/
lemma drop_flatMap_enc (c : Codec α) (l : List α) (rest : List UInt8) :
    ∀ i (h : i < l.length), (l.flatMap c.enc ++ rest).drop (i * c.size)
      = c.enc l[i] ++ ((l.drop (i + 1)).flatMap c.enc ++ rest) := by
  induction l with
  | nil => intro i h; simp at h
  | cons a l ih =>
      intro i h
      cases i with
      | zero => simp
      | succ i =>
          have hi : i < l.length := by simpa using h
          have hlen : (c.enc a).length ≤ (i + 1) * c.size := by
            rw [c.enc_length, Nat.succ_mul]; exact Nat.le_add_left _ _
          have hdrop : (i + 1) * c.size - (c.enc a).length = i * c.size := by
            rw [c.enc_length, Nat.succ_mul, Nat.add_sub_cancel]
          rw [List.flatMap_cons, List.append_assoc, List.drop_append,
            List.drop_eq_nil_of_le hlen, hdrop, List.nil_append, ih i hi]
          simp

lemma length_flatMap_enc (c : Codec α) (l : List α) :
    (l.flatMap c.enc).length = l.length * c.size := by
  induction l with
  | nil => simp
  | cons a l ih => simp [ih, Nat.succ_mul, Nat.add_comm]

/-- An array of `n` equal fields. -/
def array (n : ℕ) (c : Codec α) : Codec (Fin n → α) where
  size := n * c.size
  enc f := (List.ofFn f).flatMap c.enc
  dec bs := fun i => c.dec (bs.drop (i * c.size))
  enc_length f := by rw [length_flatMap_enc, List.length_ofFn]
  dec_enc_append f rest := by
    funext i
    rw [drop_flatMap_enc c _ rest i (by simp), c.dec_enc_append, List.getElem_ofFn]

end Codec

end ArcticController

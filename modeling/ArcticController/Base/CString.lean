/-
Strings in memory, as C passes them.

* `isspace`: the white space of the C locale;
* `CString`: bytes none of which is the terminator; `read` gives the bytes up to and
  including the terminator and nothing behind it;
* `read_eq_headD`: a read at an offset is the first byte of what is left, or the
  terminator;
* `readable_succ`: behind a byte that is no terminator another one may be read.
-/
import Mathlib.Data.List.Basic
import Mathlib.Tactic

namespace ArcticController

/-- `isspace` in the C locale. -/
def isspace (b : UInt8) : Bool := b == 0x20 || (0x09 ≤ b && b ≤ 0x0D)

/-- A string: no byte of it is the terminator. -/
structure CString where
  bytes : List UInt8
  noNul : ∀ b ∈ bytes, b ≠ 0

namespace CString

variable (s : CString)

/-- The empty string. -/
def empty : CString := ⟨[], fun _ hb => absurd hb List.not_mem_nil⟩

/-- The string with these bytes. -/
def ofBytes (bytes : List UInt8) (h : bytes.all (· != 0) = true) : CString :=
  ⟨bytes, fun b hb => bne_iff_ne.mp (List.all_eq_true.mp h b hb)⟩

/-- `strlen`. -/
def length : ℕ := s.bytes.length

/-- A byte of the string or its terminator; there is nothing to read behind that. -/
def read (i : ℕ) : Option UInt8 := (s.bytes ++ [0])[i]?

/-- `memcpy` out of the string. -/
def copy (i n : ℕ) : Option (List UInt8) :=
  if i + n ≤ s.length + 1 then some (((s.bytes ++ [0]).drop i).take n) else none

variable {s} {i : ℕ}

/-- A read is the first byte of what is left, or the terminator. -/
lemma read_eq_headD (hi : i ≤ s.length) : s.read i = some ((s.bytes.drop i).headD 0) := by
  rw [read, ← List.head?_drop, List.drop_append_of_le_length hi]
  cases s.bytes.drop i with
  | nil => rfl
  | cons b rest => rfl

lemma read_nil (h : s.bytes.drop i = []) (hi : i ≤ s.length) : s.read i = some 0 := by
  rw [read_eq_headD hi, h, List.headD_nil]

variable {b : UInt8} {rest : List UInt8}

lemma read_cons (h : s.bytes.drop i = b :: rest) : s.read i = some b := by
  have hlt : i < s.bytes.length := by
    by_contra hge
    rw [List.drop_eq_nil_of_le (not_lt.mp hge)] at h
    cases h
  rw [read_eq_headD hlt.le, h, List.headD_cons]

lemma drop_succ (h : s.bytes.drop i = b :: rest) : s.bytes.drop (i + 1) = rest := by
  rw [← List.drop_drop, h, List.drop_succ_cons, List.drop_zero]

lemma lt_length (h : s.bytes.drop i = b :: rest) : i < s.length := by
  by_contra hge
  rw [List.drop_eq_nil_of_le (not_lt.mp hge)] at h
  cases h

lemma ne_nul (h : s.bytes.drop i = b :: rest) : b ≠ 0 :=
  s.noNul b (List.mem_of_mem_drop (by rw [h]; exact List.mem_cons_self))

/-- Behind a byte that is no terminator another one may be read. -/
lemma readable_succ (h : s.read i = some b) (hb : b ≠ 0) : i + 1 ≤ s.length := by
  rw [read, List.getElem?_append] at h
  split at h
  · assumption
  · next hi =>
      rw [List.getElem?_singleton] at h
      split at h
      · exact absurd (Option.some.inj h).symm hb
      · cases h

/-- What is copied of the string itself. -/
lemma copy_eq {n : ℕ} (h : i + n ≤ s.length) : s.copy i n = some ((s.bytes.drop i).take n) := by
  have hlength : s.length = s.bytes.length := rfl
  rw [copy, if_pos (by omega), List.drop_append_of_le_length (by omega),
    List.take_append_of_le_length (by rw [List.length_drop]; omega)]

end CString

end ArcticController

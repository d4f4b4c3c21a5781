/-
Strings in arrays of a fixed size, as C keeps them.

* `CharArray`: the array, and `cstr` the string up to its terminator;
* `copyString`: `strncpy` into a wiped array, all but its last byte;
* `terminate`: a terminator in the last byte; `strlcpy`: a string written over
  another one;
* `cstr_copyString`, `cstr_strlcpy`: a copy holds the string it was made of, as far as
  it fits.
-/
import Mathlib.Data.List.GetD
import Mathlib.Data.List.TakeWhile
import Mathlib.Tactic

namespace ArcticController

/-- `char[n]`. -/
abbrev CharArray (n : ℕ) : Type := Fin n → UInt8

namespace CharArray

variable {n : ℕ}

def zero : CharArray n := fun _ => 0

/-- The string in an array: what stands before its first terminator. -/
def cstr (a : CharArray n) : List UInt8 := (List.ofFn a).takeWhile (· ≠ 0)

/-- A string copied into a wiped array, whose last byte stays free. -/
def copyString (n : ℕ) (string : List UInt8) : CharArray n :=
  fun i => if i + 1 < n then string.getD i 0 else 0

/-- The array with a terminator in its last byte. -/
def terminate (a : CharArray n) : CharArray n := fun i => if i + 1 < n then a i else 0

/-- `strlcpy` of a string over an array, whose bytes behind the terminator stay. -/
def strlcpy (a : CharArray n) (string : List UInt8) : CharArray n := fun i =>
  if i < min string.length (n - 1) then string.getD i 0
  else if i = min string.length (n - 1) then 0 else a i

lemma length_cstr_le (a : CharArray n) : a.cstr.length ≤ n := by
  have := (List.takeWhile_prefix (l := List.ofFn a) (· ≠ 0)).length_le
  rwa [List.length_ofFn] at this

lemma cstr_ne_zero (a : CharArray n) : ∀ c ∈ a.cstr, c ≠ 0 := fun c hc => by
  simpa using List.mem_takeWhile_imp hc

@[simp] lemma cstr_zero : (zero : CharArray n).cstr = [] := by
  cases n with
  | zero => rfl
  | succ n =>
      rw [cstr, List.ofFn_succ, List.takeWhile_cons_of_neg]
      simp [zero]

@[simp] lemma terminate_copyString (string : List UInt8) :
    (copyString n string).terminate = copyString n string := by
  funext i
  rw [terminate, copyString]
  split <;> rfl

end CharArray

/-- A string followed by bytes of which the first is a terminator. -/
lemma takeWhile_ne_zero_append {string rest : List UInt8} (h : ∀ c ∈ string, c ≠ 0)
    (hrest : rest = [] ∨ rest.head? = some 0) :
    (string ++ rest).takeWhile (· ≠ 0) = string := by
  rw [List.takeWhile_append_of_pos (by simpa using h)]
  rcases hrest with rfl | hrest
  · simp
  · cases rest with
    | nil => simp
    | cons c rest =>
        cases hrest
        simp

/-- A copy of a string that fits is the string. -/
lemma CharArray.cstr_copyString {n : ℕ} {string : List UInt8} (h : ∀ c ∈ string, c ≠ 0)
    (hlen : string.length < n) : (CharArray.copyString n string).cstr = string := by
  have hbytes : List.ofFn (CharArray.copyString n string)
      = string ++ List.replicate (n - string.length) 0 := by
    refine List.ext_getElem (by simp; omega) fun i hi _ => ?_
    rw [List.length_ofFn] at hi
    rw [List.getElem_ofFn, CharArray.copyString]
    by_cases hin : i < string.length
    · rw [if_pos (by simp; omega), List.getElem_append_left hin, List.getD_eq_getElem _ _ hin]
    · rw [List.getElem_append_right (not_lt.mp hin), List.getElem_replicate]
      split
      · exact List.getD_eq_default _ _ (not_lt.mp hin)
      · rfl
  rw [CharArray.cstr, hbytes]
  refine takeWhile_ne_zero_append h (.inr ?_)
  rw [List.head?_replicate, if_neg (by omega)]

/-- A string copied over another one is read back as far as it fits. -/
lemma CharArray.cstr_strlcpy {n : ℕ} (hn : 0 < n) (a : CharArray n) {string : List UInt8}
    (h : ∀ c ∈ string, c ≠ 0) : (a.strlcpy string).cstr = string.take (n - 1) := by
  have hlen : (string.take (n - 1)).length = min string.length (n - 1) := by
    rw [List.length_take, Nat.min_comm]
  have htake : (List.ofFn (a.strlcpy string)).take (min string.length (n - 1))
      = string.take (n - 1) := by
    refine List.ext_getElem (by simp; omega) fun i _ hi => ?_
    rw [hlen] at hi
    rw [List.getElem_take, List.getElem_ofFn, List.getElem_take, CharArray.strlcpy, if_pos hi,
      List.getD_eq_getElem _ _ (lt_of_lt_of_le hi (min_le_left _ _))]
  have hbytes := List.take_append_drop (min string.length (n - 1)) (List.ofFn (a.strlcpy string))
  rw [htake] at hbytes
  rw [CharArray.cstr, ← hbytes]
  refine takeWhile_ne_zero_append (fun c hc => h c (List.mem_of_mem_take hc)) (.inr ?_)
  rw [List.head?_drop, List.getElem?_eq_getElem (by simp; omega), List.getElem_ofFn,
    CharArray.strlcpy, if_neg (by simp), if_pos rfl]

/-- A copy holds at most one byte less than the array. -/
lemma CharArray.length_cstr_copyString_lt {n : ℕ} (hn : 0 < n) (string : List UInt8) :
    (CharArray.copyString n string).cstr.length < n := by
  refine lt_of_le_of_ne (CharArray.length_cstr_le _) fun heq => ?_
  have hall : (List.ofFn (CharArray.copyString n string)).takeWhile (· ≠ 0)
      = List.ofFn (CharArray.copyString n string) := by
    refine (List.takeWhile_prefix _).eq_of_length ?_
    rw [List.length_ofFn]
    exact heq
  have hlast : CharArray.copyString n string ⟨n - 1, by omega⟩ ≠ 0 := by
    have := List.takeWhile_eq_self_iff.mp hall _ (List.mem_ofFn.mpr ⟨⟨n - 1, by omega⟩, rfl⟩)
    simpa using this
  refine hlast ?_
  rw [CharArray.copyString, if_neg (by simp; omega)]

end ArcticController

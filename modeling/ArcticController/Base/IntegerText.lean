/-
Integers in text, as `strtol` reads them in base 10.

* `digitsValue`: the value of decimal digits;
* `IntegerScan`, `scanInteger`: the sign and the digits a text begins with, after white
  space, and what stands behind them;
* `strtol`: the integer, saturated to the width of the result, and the rest;
* `scanInteger_append`: a longer text has the same digits, or more of them;
* `ScansOn.value`: more digits lead further from zero.
-/
import ArcticController.Base.CString
import Mathlib.Data.List.TakeWhile

namespace ArcticController

/-- `isdigit`. -/
def isdigit (b : UInt8) : Bool := 0x30 ≤ b && b ≤ 0x39

/-- The value of decimal digits, the first one the highest. -/
def digitsValue (digits : List UInt8) : ℕ :=
  digits.foldl (fun n b => n * 10 + (b - 0x30).toNat) 0

/-- More digits do not make a value smaller. -/
lemma digitsValue_le_append (digits more : List UInt8) :
    digitsValue digits ≤ digitsValue (digits ++ more) := by
  rw [digitsValue, digitsValue, List.foldl_append]
  generalize digits.foldl (fun n b => n * 10 + (b - 0x30).toNat) 0 = n
  induction more generalizing n with
  | nil => exact le_rfl
  | cons b more ih =>
      rw [List.foldl_cons]
      calc n ≤ n * 10 + (b - 0x30).toNat := by omega
        _ ≤ _ := ih _

/-- What a text begins with: a sign, digits, and the rest. -/
structure IntegerScan where
  negative : Bool
  digits : List UInt8
  rest : List UInt8
deriving DecidableEq, Repr

/-- The digits after a sign that may be missing. -/
def scanSigned : List UInt8 → IntegerScan
  | 0x2B :: s => ⟨false, s.takeWhile isdigit, s.dropWhile isdigit⟩
  | 0x2D :: s => ⟨true, s.takeWhile isdigit, s.dropWhile isdigit⟩
  | s => ⟨false, s.takeWhile isdigit, s.dropWhile isdigit⟩

def scanInteger (s : List UInt8) : IntegerScan := scanSigned (s.dropWhile isspace)

/-- The integer that was scanned; without digits it is 0. -/
def IntegerScan.value (scan : IntegerScan) : ℤ :=
  if scan.negative then -digitsValue scan.digits else digitsValue scan.digits

/-- `strtol` for a result of `w` bits; where no digits are read the rest is the text. -/
def strtol (w : ℕ) (s : List UInt8) : ℤ × List UInt8 :=
  let scan := scanInteger s
  if scan.digits = [] then (0, s)
  else (max (-2 ^ (w - 1)) (min scan.value (2 ^ (w - 1) - 1)), scan.rest)

/-! ### A longer text -/

lemma dropWhile_append_of_ne_nil {α : Type} {p : α → Bool} {s : List α} (t : List α)
    (h : s.dropWhile p ≠ []) : (s ++ t).dropWhile p = s.dropWhile p ++ t := by
  rw [List.dropWhile_append, if_neg (by simpa using h)]

/-- The digits of a longer text are the same if something else stands behind them, and go
on if nothing does. -/
lemma takeWhile_digits_append (s t : List UInt8) :
    ((s ++ t).takeWhile isdigit = s.takeWhile isdigit ∧
        (s ++ t).dropWhile isdigit = s.dropWhile isdigit ++ t) ∨
      (s.dropWhile isdigit = [] ∧
        (s ++ t).takeWhile isdigit = s.takeWhile isdigit ++ t.takeWhile isdigit ∧
        (s ++ t).dropWhile isdigit = t.dropWhile isdigit) := by
  by_cases hall : s.dropWhile isdigit = []
  · have hdigits : s.takeWhile isdigit = s := by
      have hsplit := List.takeWhile_append_dropWhile (p := isdigit) (l := s)
      rwa [hall, List.append_nil] at hsplit
    refine .inr ⟨hall, ?_, ?_⟩
    · rw [List.takeWhile_append, hdigits, if_pos rfl]
    · rw [List.dropWhile_append, hall]
      rfl
  · have hlen : (s.takeWhile isdigit).length ≠ s.length := fun hlen => by
      have hsplit := congrArg List.length (List.takeWhile_append_dropWhile (p := isdigit) (l := s))
      rw [List.length_append, hlen] at hsplit
      exact hall (List.eq_nil_of_length_eq_zero (by omega))
    refine .inl ⟨?_, dropWhile_append_of_ne_nil t hall⟩
    rw [List.takeWhile_append, if_neg hlen]

/-- The scan of a longer text: the same digits, or as many more as follow. -/
structure ScansOn (scan scan' : IntegerScan) (t : List UInt8) : Prop where
  negative : scan'.negative = scan.negative
  digits : (scan'.digits = scan.digits ∧ scan'.rest = scan.rest ++ t) ∨
    (scan.rest = [] ∧ scan'.digits = scan.digits ++ t.takeWhile isdigit ∧
      scan'.rest = t.dropWhile isdigit)

lemma scanSigned_append {s : List UInt8} (h : s ≠ []) (t : List UInt8) :
    ScansOn (scanSigned s) (scanSigned (s ++ t)) t := by
  cases s with
  | nil => exact absurd rfl h
  | cons b s =>
      by_cases hplus : b = 0x2B
      · subst hplus
        exact ⟨rfl, takeWhile_digits_append s t⟩
      · by_cases hminus : b = 0x2D
        · subst hminus
          exact ⟨rfl, takeWhile_digits_append s t⟩
        · have hscan : ∀ s, scanSigned (b :: s)
              = ⟨false, (b :: s).takeWhile isdigit, (b :: s).dropWhile isdigit⟩ := fun s => by
            rw [scanSigned]
            · exact fun _ heq => hplus (List.cons.inj heq).1
            · exact fun _ heq => hminus (List.cons.inj heq).1
          rw [List.cons_append, hscan, hscan]
          exact ⟨rfl, takeWhile_digits_append (b :: s) t⟩

/-- Where a text has digits a longer one scans on from them. -/
lemma scanInteger_append {s : List UInt8} (h : (scanInteger s).digits ≠ []) (t : List UInt8) :
    ScansOn (scanInteger s) (scanInteger (s ++ t)) t := by
  have hne : s.dropWhile isspace ≠ [] := fun hnil => by
    rw [scanInteger, hnil] at h
    exact h rfl
  rw [scanInteger, scanInteger, dropWhile_append_of_ne_nil t hne]
  exact scanSigned_append hne t

/-- More digits lead further from zero. -/
lemma ScansOn.value {scan scan' : IntegerScan} {t : List UInt8} (h : ScansOn scan scan' t) :
    scan'.value = scan.value ∨ scan'.value ≤ scan.value ∧ scan.value ≤ 0 ∨
      scan.value ≤ scan'.value ∧ 0 ≤ scan.value := by
  rw [IntegerScan.value, IntegerScan.value, h.negative]
  rcases h.digits with ⟨hsame, -⟩ | ⟨-, hmore, -⟩
  · exact .inl (by rw [hsame])
  · have hle := digitsValue_le_append scan.digits (t.takeWhile isdigit)
    rw [← hmore] at hle
    cases scan.negative with
    | true => exact .inr (.inl ⟨by simpa using hle, by simp⟩)
    | false => exact .inr (.inr ⟨by simpa using hle, by simp⟩)

end ArcticController

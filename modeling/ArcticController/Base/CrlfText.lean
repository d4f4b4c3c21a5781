/-
Text that arrives in pieces and is divided by CRLF.

* `FirstAt`: the first place of a pattern; `FirstAt.append`: more text behind it leaves it
  there, and `infix_iff_firstAt`: a text has one if it has the pattern at all;
* `readsAs`: a comparison byte by byte, of bytes that are there;
* `crlfLines`: the first line of a text and the others;
* `scanLines`: what stands behind the first CRLF that a test accepts, and
  `scanLines_map`: it is the first of the other lines that the test accepts.
-/
import Mathlib.Data.List.Infix
import Mathlib.Tactic

namespace ArcticController

/-! ### The first place of a pattern -/

section First

variable {α : Type} {pat s : List α} {i : ℕ}

/-- The pattern stands at `i` and nowhere before it. -/
structure FirstAt (pat s : List α) (i : ℕ) : Prop where
  here : pat <+: s.drop i
  before : ∀ j < i, ¬ pat <+: s.drop j

lemma FirstAt.add_length_le (h : FirstAt pat s i) (hpat : pat ≠ []) :
    i + pat.length ≤ s.length := by
  have hle := h.here.length_le
  have hpos := List.length_pos_of_ne_nil hpat
  rw [List.length_drop] at hle
  omega

/-- More text changes nothing about places that leave room for the pattern. -/
lemma prefix_drop_append_iff (t : List α) (h : i + pat.length ≤ s.length) :
    pat <+: (s ++ t).drop i ↔ pat <+: s.drop i := by
  rw [List.drop_append_of_le_length (by omega)]
  constructor
  · intro hpre
    exact List.prefix_of_prefix_length_le hpre (List.prefix_append _ _)
      (by rw [List.length_drop]; omega)
  · exact fun hpre => hpre.trans (List.prefix_append _ _)

lemma FirstAt.append (h : FirstAt pat s i) (hpat : pat ≠ []) (t : List α) :
    FirstAt pat (s ++ t) i := by
  have hroom := h.add_length_le hpat
  refine ⟨(prefix_drop_append_iff t hroom).mpr h.here, fun j hj hpre => ?_⟩
  exact h.before j hj ((prefix_drop_append_iff t (by omega)).mp hpre)

lemma FirstAt.unique {j : ℕ} (h : FirstAt pat s i) (h' : FirstAt pat s j) : i = j := by
  rcases Nat.lt_trichotomy i j with hlt | heq | hgt
  · exact absurd h.here (h'.before i hlt)
  · exact heq
  · exact absurd h'.here (h.before j hgt)

lemma infix_iff_drop : pat <:+: s ↔ ∃ i, pat <+: s.drop i := by
  constructor
  · rintro ⟨before, after, rfl⟩
    refine ⟨before.length, ?_⟩
    rw [List.append_assoc, List.drop_left]
    exact List.prefix_append _ _
  · rintro ⟨i, hpre⟩
    exact hpre.isInfix.trans (List.drop_suffix i s).isInfix

/-- A text that has the pattern has a first place of it. -/
lemma infix_iff_firstAt : pat <:+: s ↔ ∃ i, FirstAt pat s i := by
  classical
  rw [infix_iff_drop]
  constructor
  · intro h
    exact ⟨Nat.find h, Nat.find_spec h, fun j hj => Nat.find_min h hj⟩
  · rintro ⟨i, h⟩
    exact ⟨i, h.here⟩

end First

/-! ### Comparing bytes -/

/-- The bytes from `i` on against a pattern, each one folded first and none read after the
first difference. -/
def readsAs (fold : UInt8 → UInt8) (buf : List UInt8) : ℕ → List UInt8 → Option Bool
  | _, [] => some true
  | i, b :: pat => do
      let c ← buf[i]?
      if fold c = b then readsAs fold buf (i + 1) pat else some false

/-- Bytes that are all there are compared. -/
lemma readsAs_eq (fold : UInt8 → UInt8) {buf : List UInt8} {i : ℕ} {pat : List UInt8}
    (h : i + pat.length ≤ buf.length) :
    readsAs fold buf i pat = some (pat.isPrefixOf ((buf.drop i).map fold)) := by
  induction pat generalizing i with
  | nil => rfl
  | cons b pat ih =>
      rw [List.length_cons] at h
      have hlt : i < buf.length := by omega
      rw [readsAs, List.getElem?_eq_getElem hlt, List.drop_eq_getElem_cons hlt, List.map_cons,
        List.isPrefixOf_cons_cons]
      dsimp only [Option.bind_eq_bind, Option.bind_some]
      by_cases hfold : fold buf[i] = b
      · rw [if_pos hfold, ih (by omega), hfold, beq_self_eq_true, Bool.true_and]
      · rw [if_neg hfold, beq_eq_false_iff_ne.mpr (Ne.symm hfold), Bool.false_and]

/-- Only the bytes that are compared matter. -/
lemma readsAs_take (fold : UInt8 → UInt8) {buf : List UInt8} {n i : ℕ} {pat : List UInt8}
    (h : i + pat.length ≤ n) : readsAs fold (buf.take n) i pat = readsAs fold buf i pat := by
  induction pat generalizing i with
  | nil => rfl
  | cons b pat ih =>
      rw [List.length_cons] at h
      rw [readsAs, readsAs, List.getElem?_take_of_lt (by omega)]
      simp only [ih (show i + 1 + pat.length ≤ n by omega)]

/-- A pattern without a byte ends before it. -/
lemma isPrefixOf_append_cons {pat : List UInt8} {c : UInt8} (h : c ∉ pat) (m rest : List UInt8) :
    pat.isPrefixOf (m ++ c :: rest) = pat.isPrefixOf m := by
  induction pat generalizing m with
  | nil => rw [List.isPrefixOf_nil_left, List.isPrefixOf_nil_left]
  | cons b pat ih =>
      have hb := List.ne_of_not_mem_cons h
      have hpat := List.not_mem_of_not_mem_cons h
      cases m with
      | nil =>
          rw [List.nil_append, List.isPrefixOf_cons_cons, beq_eq_false_iff_ne.mpr (Ne.symm hb)]
          rfl
      | cons a m => rw [List.cons_append, List.isPrefixOf_cons_cons, List.isPrefixOf_cons_cons, ih hpat]

/-- What is taken ends at a byte that neither test accepts. -/
lemma takeWhile_dropWhile_append_cons {p q : UInt8 → Bool} {c : UInt8} (hp : p c = false)
    (hq : q c = false) (m rest : List UInt8) :
    ((m ++ c :: rest).dropWhile p).takeWhile q = (m.dropWhile p).takeWhile q := by
  have htake : ∀ m : List UInt8, (m ++ c :: rest).takeWhile q = m.takeWhile q := by
    intro m
    induction m with
    | nil => simp [hq]
    | cons a m ih => simp [List.takeWhile_cons, ih]
  induction m with
  | nil => simp [hp, hq]
  | cons a m ih =>
      cases ha : p a with
      | true => simpa [ha] using ih
      | false => simpa [ha] using htake (a :: m)

/-! ### Lines -/

/-- What divides the lines. -/
def crlf : List UInt8 := [0x0D, 0x0A]

/-- The first line of a text, and the others. -/
def crlfLines : List UInt8 → List UInt8 × List (List UInt8)
  | [] => ([], [])
  | 0x0D :: 0x0A :: t => ([], (crlfLines t).1 :: (crlfLines t).2)
  | b :: t => (b :: (crlfLines t).1, (crlfLines t).2)

/-- What stands behind the first CRLF that `p` accepts. -/
def scanLines (p : List UInt8 → Bool) : List UInt8 → Option (List UInt8)
  | [] => none
  | b :: t =>
      if crlf.isPrefixOf (b :: t) && p ((b :: t).drop 2) then some ((b :: t).drop 2)
      else scanLines p t

/-- A text is its first line, or goes on behind it with a CRLF. -/
lemma crlfLines_append (t : List UInt8) :
    t = (crlfLines t).1 ∨ ∃ rest, t = (crlfLines t).1 ++ crlf ++ rest := by
  induction t using crlfLines.induct with
  | case1 => exact .inl rfl
  | case2 t ih => exact .inr ⟨t, by rw [crlfLines]; rfl⟩
  | case3 b t hne ih =>
      rw [crlfLines]
      · rcases ih with ih | ⟨rest, ih⟩
        · exact .inl (congrArg (b :: ·) ih)
        · exact .inr ⟨rest, congrArg (b :: ·) ih⟩
      · exact hne

/-- **The scan finds the first line behind the first one** that the test accepts, for tests
and functions of a line alone. -/
theorem scanLines_map {β : Type} {p : List UInt8 → Bool} {f : List UInt8 → β}
    (hp : ∀ l rest, p (l ++ crlf ++ rest) = p l)
    (hf : ∀ l rest, p l = true → f (l ++ crlf ++ rest) = f l) (t : List UInt8) :
    (scanLines p t).map f = ((crlfLines t).2.find? p).map f := by
  induction t using crlfLines.induct with
  | case1 => rfl
  | case2 t ih =>
      have hskip : scanLines p (0x0A :: t) = scanLines p t := by
        rw [scanLines, if_neg]
        simp [crlf]
      have hfirst : p (crlfLines t).1 = p t ∧ (p t = true → f (crlfLines t).1 = f t) := by
        rcases crlfLines_append t with h | ⟨rest, h⟩
        · rw [← h]
          exact ⟨rfl, fun _ => rfl⟩
        · have hpt : p t = p (crlfLines t).1 := by
            conv_lhs => rw [h]
            exact hp _ _
          refine ⟨hpt.symm, fun htrue => ?_⟩
          conv_rhs => rw [h]
          exact (hf _ _ (hpt ▸ htrue)).symm
      rw [scanLines, crlfLines, List.find?_cons, hfirst.1]
      cases hpt : p t with
      | true =>
          rw [if_pos (by simpa [crlf] using hpt)]
          exact congrArg some (hfirst.2 hpt).symm
      | false =>
          rw [if_neg (by simp [crlf, hpt]), hskip]
          exact ih
  | case3 b t hne ih =>
      have hno : crlf.isPrefixOf (b :: t) = false := by
        by_contra hpre
        obtain ⟨rest, hrest⟩ := List.isPrefixOf_iff_prefix.mp (Bool.not_eq_false _ ▸ hpre)
        obtain ⟨hb, ht⟩ := List.cons.inj hrest
        exact hne rest hb.symm ht.symm
      rw [scanLines, hno, Bool.false_and, if_neg (by decide), crlfLines]
      · exact ih
      · exact hne

end ArcticController

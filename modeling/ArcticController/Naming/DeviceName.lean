/-
The check of the controller's name, `device_name.cpp`.

* `decodeUtf8`, `isControl`, `skipBlanks`, `trimEnd`, `copyName` and
  `deviceNameValidateAndNormalize`, translated from the source; every read of the input
  goes through `CString.read`, so `none` stands for a read behind the terminator;
* `decodeUtf8_spec`: the decoder finds the form the bytes begin with;
* `copyName_spec`: the loop copies its bytes if they are characters it allows;
* `device_name_accepts_exactly`: what is accepted, and as what.
-/
import ArcticController.Base.CString
import ArcticController.Base.Utf8
import Mathlib.Data.List.DropRight

namespace ArcticController

/-- `APP_PREFS_DEVICE_NAME_MAX_CODEPOINTS`. -/
def appPrefsDeviceNameMaxCodepoints : ℕ := 30

/-! ### The code -/

/-- The code point and the length of the sequence at `s`, if it is one. -/
def decodeUtf8 (input : CString) (s : ℕ) : Option (Option (UInt32 × ℕ)) :=
  (input.read s).bind fun s0 =>
    if s0 < 0x80 then some (some (s0.toUInt32, 1))
    else if s0 &&& 0xE0 = 0xC0 then
      (input.read (s + 1)).bind fun s1 =>
        if s1 &&& 0xC0 ≠ 0x80 then some none
        else
          let cp := (s0 &&& 0x1F).toUInt32 <<< 6 ||| (s1 &&& 0x3F).toUInt32
          some (if 0x80 ≤ cp then some (cp, 2) else none)
    else if s0 &&& 0xF0 = 0xE0 then
      (input.read (s + 1)).bind fun s1 =>
        if s1 &&& 0xC0 ≠ 0x80 then some none
        else (input.read (s + 2)).bind fun s2 =>
          if s2 &&& 0xC0 ≠ 0x80 then some none
          else
            let cp := (s0 &&& 0x0F).toUInt32 <<< 12 ||| (s1 &&& 0x3F).toUInt32 <<< 6 |||
              (s2 &&& 0x3F).toUInt32
            some (if 0x800 ≤ cp ∧ (cp < 0xD800 ∨ cp > 0xDFFF) then some (cp, 3) else none)
    else if s0 &&& 0xF8 = 0xF0 then
      (input.read (s + 1)).bind fun s1 =>
        if s1 &&& 0xC0 ≠ 0x80 then some none
        else (input.read (s + 2)).bind fun s2 =>
          if s2 &&& 0xC0 ≠ 0x80 then some none
          else (input.read (s + 3)).bind fun s3 =>
            if s3 &&& 0xC0 ≠ 0x80 then some none
            else
              let cp := (s0 &&& 0x07).toUInt32 <<< 18 ||| (s1 &&& 0x3F).toUInt32 <<< 12 |||
                (s2 &&& 0x3F).toUInt32 <<< 6 ||| (s3 &&& 0x3F).toUInt32
              some (if 0x10000 ≤ cp ∧ cp ≤ 0x10FFFF then some (cp, 4) else none)
    else some none

def isControl (cp : UInt32) : Bool := cp < 0x20 || (0x7F ≤ cp && cp ≤ 0x9F)

/-- The first byte from `start` on that is no blank. -/
def skipBlanks (input : CString) (start : ℕ) : Option ℕ :=
  match h : input.read start with
  | none => none
  | some b => if hb : b ≠ 0 ∧ isspace b then skipBlanks input (start + 1) else some start
termination_by input.length + 1 - start
decreasing_by
  have := CString.readable_succ h hb.1
  omega

/-- The end without the blanks before it. -/
def trimEnd (input : CString) (start : ℕ) : ℕ → Option ℕ
  | 0 => some 0
  | stop + 1 =>
      if start < stop + 1 then
        (input.read stop).bind fun b =>
          if isspace b then trimEnd input start stop else some (stop + 1)
      else some (stop + 1)

/-! ### The decoder -/

section Decoder

variable {input : CString} {s : ℕ}

lemma toNat_toUInt32 (b : UInt8) : b.toUInt32.toNat = b.toNat := UInt8.toNat_toUInt32 b

/-- A code point is chosen by its number. -/
lemma chosen_iff {P : Prop} [Decidable P] {cp cp' : UInt32} {n n' : ℕ} :
    (if P then some (cp', n') else none) = some (cp, n) ↔ n = n' ∧ cp.toNat = cp'.toNat ∧ P := by
  split
  · next h =>
      rw [Option.some.injEq, Prod.mk.injEq, ← UInt32.toNat_inj]
      constructor
      · rintro ⟨hcp, hn⟩
        exact ⟨hn.symm, hcp.symm, h⟩
      · rintro ⟨hn, hcp, -⟩
        exact ⟨hcp.symm, hn.symm⟩
  · next h =>
      constructor
      · intro h'
        cases h'
      · rintro ⟨-, -, hP⟩
        exact absurd hP h

/-- What is read next: a continuation byte with what is left behind it, or a byte that is
none, and then what is left begins with none. -/
lemma read_next {i : ℕ} {rest : List UInt8} (h : input.bytes.drop i = rest)
    (hi : i ≤ input.length) :
    ∃ b, input.read i = some b ∧
      ((b &&& 0xC0 = 0x80 ∧ ∃ rest', rest = b :: rest') ∨
        (b &&& 0xC0 ≠ 0x80 ∧ ∀ b' rest', rest = b' :: rest' →
          ¬ (0x80 ≤ b'.toNat ∧ b'.toNat < 0xC0))) := by
  cases rest with
  | nil => exact ⟨0, CString.read_nil h hi, .inr ⟨by decide, fun _ _ h => nomatch h⟩⟩
  | cons b rest =>
      refine ⟨b, CString.read_cons h, ?_⟩
      by_cases hb : b &&& 0xC0 = 0x80
      · exact .inl ⟨hb, rest, rfl⟩
      · refine .inr ⟨hb, fun b' rest' heq => ?_⟩
        obtain ⟨rfl, -⟩ := List.cons.inj heq
        rwa [continuation] at hb

/-- The decoder reads no byte behind the terminator and finds the form the bytes begin
with. -/
lemma decodeUtf8_spec {s0 : UInt8} {rest : List UInt8} (h : input.bytes.drop s = s0 :: rest) :
    ∃ found, decodeUtf8 input s = some found ∧
      ∀ cp len, found = some (cp, len) ↔ Utf8Starts (s0 :: rest) cp.toNat len := by
  have hlt := CString.lt_length h
  obtain ⟨s1, hread1, hs1⟩ := read_next (CString.drop_succ h) hlt
  rw [decodeUtf8, CString.read_cons h, Option.bind_some]
  by_cases hone : s0 < 0x80
  · rw [if_pos hone]
    refine ⟨_, rfl, fun cp len => ?_⟩
    rw [utf8Starts_one (UInt8.lt_iff_toNat_lt.mp hone), Option.some.injEq, Prod.mk.injEq,
      ← UInt32.toNat_inj, toNat_toUInt32]
    exact ⟨fun ⟨h, h'⟩ => ⟨h'.symm, h.symm⟩, fun ⟨h, h'⟩ => ⟨h'.symm, h.symm⟩⟩
  rw [if_neg hone, hread1]
  by_cases htwo : s0 &&& 0xE0 = 0xC0
  · rw [if_pos htwo, Option.bind_some]
    rw [lead_two] at htwo
    rcases hs1 with ⟨h1, rest, rfl⟩ | ⟨h1, hnone⟩
    · rw [if_neg (not_not.mpr h1)]
      rw [continuation] at h1
      refine ⟨_, rfl, fun cp len => ?_⟩
      rw [chosen_iff, utf8Starts_two htwo, UInt32.le_iff_toNat_le, toNat_two_bytes]
      simp only [List.cons.injEq]
      constructor
      · rintro ⟨rfl, hcp, hleast⟩
        exact ⟨rfl, s1, rest, ⟨rfl, rfl⟩, h1, hcp, hcp ▸ hleast⟩
      · rintro ⟨rfl, _, _, ⟨rfl, rfl⟩, -, hcp, hleast⟩
        exact ⟨rfl, hcp, hcp ▸ hleast⟩
    · rw [if_pos h1]
      refine ⟨none, rfl, fun cp len => ?_⟩
      rw [utf8Starts_two htwo]
      simp only [reduceCtorEq, false_iff]
      rintro ⟨-, b, rest', hrest, hb, -⟩
      exact hnone b rest' hrest hb
  rw [if_neg htwo]
  by_cases hthree : s0 &&& 0xF0 = 0xE0
  · rw [if_pos hthree, Option.bind_some]
    rw [lead_three] at hthree
    rcases hs1 with ⟨h1, rest, rfl⟩ | ⟨h1, hnone⟩
    · rw [if_neg (not_not.mpr h1)]
      rw [continuation] at h1
      have hdrop1 := CString.drop_succ h
      obtain ⟨s2, hread2, hs2⟩ := read_next (CString.drop_succ hdrop1) (CString.lt_length hdrop1)
      rw [hread2, Option.bind_some]
      rcases hs2 with ⟨h2, rest, rfl⟩ | ⟨h2, hnone⟩
      · rw [if_neg (not_not.mpr h2)]
        rw [continuation] at h2
        refine ⟨_, rfl, fun cp len => ?_⟩
        rw [chosen_iff, utf8Starts_three hthree, UInt32.le_iff_toNat_le,
          UInt32.lt_iff_toNat_lt, gt_iff_lt, UInt32.lt_iff_toNat_lt, toNat_three_bytes]
        simp only [List.cons.injEq]
        constructor
        · rintro ⟨rfl, hcp, hleast, hscalar⟩
          rw [← hcp] at hleast hscalar
          exact ⟨rfl, s1, s2, rest, ⟨rfl, rfl, rfl⟩, h1, h2, hcp, hleast, hscalar⟩
        · rintro ⟨rfl, _, _, _, ⟨rfl, rfl, rfl⟩, -, -, hcp, hleast, hscalar⟩
          rw [← hcp]
          exact ⟨rfl, rfl, hleast, hscalar⟩
      · rw [if_pos h2]
        refine ⟨none, rfl, fun cp len => ?_⟩
        rw [utf8Starts_three hthree]
        simp only [reduceCtorEq, List.cons.injEq, false_iff]
        rintro ⟨-, _, c, rest', ⟨-, hrest⟩, -, hc, -⟩
        exact hnone c rest' hrest hc
    · rw [if_pos h1]
      refine ⟨none, rfl, fun cp len => ?_⟩
      rw [utf8Starts_three hthree]
      simp only [reduceCtorEq, false_iff]
      rintro ⟨-, b, c, rest', hrest, hb, -⟩
      exact hnone b _ hrest hb
  rw [if_neg hthree]
  by_cases hfour : s0 &&& 0xF8 = 0xF0
  · rw [if_pos hfour, Option.bind_some]
    rw [lead_four] at hfour
    rcases hs1 with ⟨h1, rest, rfl⟩ | ⟨h1, hnone⟩
    · rw [if_neg (not_not.mpr h1)]
      rw [continuation] at h1
      have hdrop1 := CString.drop_succ h
      obtain ⟨s2, hread2, hs2⟩ := read_next (CString.drop_succ hdrop1) (CString.lt_length hdrop1)
      rw [hread2, Option.bind_some]
      rcases hs2 with ⟨h2, rest, rfl⟩ | ⟨h2, hnone⟩
      · rw [if_neg (not_not.mpr h2)]
        rw [continuation] at h2
        have hdrop2 := CString.drop_succ hdrop1
        obtain ⟨s3, hread3, hs3⟩ :=
          read_next (CString.drop_succ hdrop2) (CString.lt_length hdrop2)
        rw [hread3, Option.bind_some]
        rcases hs3 with ⟨h3, rest, rfl⟩ | ⟨h3, hnone⟩
        · rw [if_neg (not_not.mpr h3)]
          rw [continuation] at h3
          refine ⟨_, rfl, fun cp len => ?_⟩
          rw [chosen_iff, utf8Starts_four hfour, UInt32.le_iff_toNat_le,
            UInt32.le_iff_toNat_le, toNat_four_bytes]
          simp only [List.cons.injEq]
          constructor
          · rintro ⟨rfl, hcp, hleast, hscalar⟩
            rw [← hcp] at hleast hscalar
            exact ⟨rfl, s1, s2, s3, rest, ⟨rfl, rfl, rfl, rfl⟩, h1, h2, h3, hcp, hleast, hscalar⟩
          · rintro ⟨rfl, _, _, _, _, ⟨rfl, rfl, rfl, rfl⟩, -, -, -, hcp, hleast, hscalar⟩
            rw [← hcp]
            exact ⟨rfl, rfl, hleast, hscalar⟩
        · rw [if_pos h3]
          refine ⟨none, rfl, fun cp len => ?_⟩
          rw [utf8Starts_four hfour]
          simp only [reduceCtorEq, List.cons.injEq, false_iff]
          rintro ⟨-, _, _, d, rest', ⟨-, -, hrest⟩, -, -, hd, -⟩
          exact hnone d rest' hrest hd
      · rw [if_pos h2]
        refine ⟨none, rfl, fun cp len => ?_⟩
        rw [utf8Starts_four hfour]
        simp only [reduceCtorEq, List.cons.injEq, false_iff]
        rintro ⟨-, _, c, d, rest', ⟨-, hrest⟩, -, hc, -⟩
        exact hnone c _ hrest hc
    · rw [if_pos h1]
      refine ⟨none, rfl, fun cp len => ?_⟩
      rw [utf8Starts_four hfour]
      simp only [reduceCtorEq, false_iff]
      rintro ⟨-, b, c, d, rest', hrest, hb, -⟩
      exact hnone b _ hrest hb
  rw [if_neg hfour]
  rw [lead_two] at htwo
  rw [lead_three] at hthree
  rw [lead_four] at hfour
  refine ⟨none, rfl, fun cp len => ?_⟩
  simp only [reduceCtorEq, false_iff]
  exact not_utf8Starts (not_lt.mp fun h => hone (UInt8.lt_iff_toNat_lt.mpr h)) htwo hthree hfour

/-- The sequence found is not empty. -/
lemma decodeUtf8_pos {cp : UInt32} {len : ℕ} (h : decodeUtf8 input s = some (some (cp, len))) :
    0 < len := by
  cases hrest : input.bytes.drop s with
  | nil =>
      by_cases hs : s ≤ input.length
      · rw [decodeUtf8, CString.read_nil hrest hs, Option.bind_some, if_pos (by decide)] at h
        cases h
        exact one_pos
      · have hnone : input.read s = none := by
          rw [CString.read, List.getElem?_eq_none]
          have hlength : input.length = input.bytes.length := rfl
          rw [List.length_append, List.length_singleton]
          omega
        rw [decodeUtf8, hnone, Option.bind_none] at h
        cases h
  | cons s0 rest =>
      obtain ⟨found, hfound, hstarts⟩ := decodeUtf8_spec hrest
      rw [hfound, Option.some.injEq] at h
      obtain ⟨form, hform, rfl, -⟩ := (hstarts cp len).mp h
      exact hform.length_pos

end Decoder

/-! ### The loop over the characters -/

/-- The loop over the characters, which are written behind each other; `output` is what
stands in the buffer before `out_pos`. -/
def copyName (fontHasGlyph : UInt32 → Bool) (outputLen : ℕ) (input : CString) (stop s : ℕ)
    (output : List UInt8) (codepoints : ℕ) : Option (Except String (List UInt8)) :=
  if s < stop then
    match h : decodeUtf8 input s with
    | none => none
    | some none => some (.error "Controller name must be valid UTF-8")
    | some (some (cp, len)) =>
        if s + len > stop then some (.error "Controller name must be valid UTF-8")
        else if isControl cp then
          some (.error "Controller name cannot contain control characters")
        else if !fontHasGlyph cp then
          some (.error "Controller name contains a character this display cannot show")
        else if codepoints + 1 > appPrefsDeviceNameMaxCodepoints then
          some (.error "Controller name must be 30 characters or fewer")
        else if output.length + len ≥ outputLen then
          some (.error "Controller name is too long")
        else
          (input.copy s len).bind fun bytes =>
            copyName fontHasGlyph outputLen input stop (s + len) (output ++ bytes)
              (codepoints + 1)
  else some (.ok (output ++ [0]))
termination_by stop - s
decreasing_by
  have := decodeUtf8_pos h
  omega

/-- The string written to the output, with its terminator, or the message of the error. -/
def deviceNameValidateAndNormalize (fontHasGlyph : UInt32 → Bool) (input : CString)
    (outputLen : ℕ) : Option (Except String (List UInt8)) :=
  if outputLen = 0 then some (.error "Controller name must be a string")
  else
    (skipBlanks input 0).bind fun start =>
      (trimEnd input start input.length).bind fun stop =>
        copyName fontHasGlyph outputLen input stop start [] 0

/-! ### What is accepted -/

/-- A control character. -/
def ControlChar (c : Char) : Prop := c.val.toNat < 0x20 ∨ (0x7F ≤ c.val.toNat ∧ c.val.toNat ≤ 0x9F)

/-- The bytes without the blanks before and behind them. -/
def trimmed (bytes : List UInt8) : List UInt8 := (bytes.dropWhile isspace).rdropWhile isspace

/-- Characters in UTF-8 that may stand behind `k` others. -/
def NameTail (fontHasGlyph : UInt32 → Bool) (k : ℕ) (bytes : List UInt8) : Prop :=
  ∃ chars : List Char, bytes = utf8Encode chars ∧
    (∀ c ∈ chars, ¬ ControlChar c ∧ fontHasGlyph c.val = true) ∧
    k + chars.length ≤ appPrefsDeviceNameMaxCodepoints

/-- A name that may be kept in `outputLen` bytes. -/
def AcceptableName (fontHasGlyph : UInt32 → Bool) (outputLen : ℕ) (name : List UInt8) : Prop :=
  NameTail fontHasGlyph 0 name ∧ name.length + 1 ≤ outputLen

/-! ### The loop -/

section Loop

variable {fontHasGlyph : UInt32 → Bool} {input : CString}

lemma isControl_iff (c : Char) : isControl c.val = true ↔ ControlChar c := by
  rw [isControl, Bool.or_eq_true, Bool.and_eq_true, decide_eq_true_iff, decide_eq_true_iff,
    decide_eq_true_iff, UInt32.lt_iff_toNat_lt, UInt32.le_iff_toNat_le, UInt32.le_iff_toNat_le]
  rfl

/-- What begins with one character only is a name if that character may stand in one and
the rest is one. -/
lemma nameTail_cons {k : ℕ} {bytes : List UInt8} {c : Char} (hne : bytes ≠ [])
    (honly : ∀ c', String.utf8EncodeChar c' <+: bytes → c' = c) :
    NameTail fontHasGlyph k bytes ↔ ¬ ControlChar c ∧ fontHasGlyph c.val = true ∧
      ∃ rest, bytes = String.utf8EncodeChar c ++ rest ∧ NameTail fontHasGlyph (k + 1) rest := by
  constructor
  · rintro ⟨chars, rfl, hall, hlength⟩
    cases chars with
    | nil => exact absurd rfl hne
    | cons c' chars =>
        obtain rfl := honly c' ⟨_, rfl⟩
        obtain ⟨hcontrol, hglyph⟩ := hall c' List.mem_cons_self
        refine ⟨hcontrol, hglyph, utf8Encode chars, rfl, chars, rfl,
          fun c hc => hall c (List.mem_cons_of_mem _ hc), ?_⟩
        rw [List.length_cons] at hlength
        omega
  · rintro ⟨hcontrol, hglyph, _, rfl, chars, rfl, hall, hlength⟩
    refine ⟨c :: chars, rfl, fun c' hc' => ?_, ?_⟩
    · rcases List.mem_cons.mp hc' with rfl | hc'
      · exact ⟨hcontrol, hglyph⟩
      · exact hall c' hc'
    · rw [List.length_cons]
      omega

/-- The loop reads no byte behind the terminator and copies its bytes if they are
characters that may stand in a name and fit. -/
lemma copyName_spec {outputLen stop : ℕ} (hstop : stop ≤ input.length) :
    ∀ (n s : ℕ) (output : List UInt8) (k : ℕ), n = stop - s → s ≤ stop →
      output.length < outputLen → k ≤ appPrefsDeviceNameMaxCodepoints →
      ∃ result, copyName fontHasGlyph outputLen input stop s output k = some result ∧
        ∀ out, result = .ok out ↔ out = output ++ (input.bytes.drop s).take n ++ [0] ∧
          NameTail fontHasGlyph k ((input.bytes.drop s).take n) ∧
          output.length + ((input.bytes.drop s).take n).length < outputLen := by
  intro n
  induction n using Nat.strong_induction_on with
  | _ n ih =>
    intro s output k hn hs hroom hk
    rw [copyName]
    by_cases hlt : s < stop
    · rw [if_pos hlt]
      have hsn : s + n = stop := by omega
      have hlength : input.length = input.bytes.length := rfl
      obtain ⟨s0, rest, hdrop⟩ : ∃ s0 rest, input.bytes.drop s = s0 :: rest := by
        rw [← List.ne_nil_iff_exists_cons, Ne, List.drop_eq_nil_iff]
        omega
      have hbytes : ((input.bytes.drop s).take n).length = n := by
        rw [List.length_take, List.length_drop]
        omega
      have hne : (input.bytes.drop s).take n ≠ [] := by
        rw [← List.length_pos_iff, hbytes]
        omega
      obtain ⟨found, hfound, hstarts⟩ := decodeUtf8_spec hdrop
      rw [← hdrop] at hstarts
      -- The first character of a name is the one that was found.
      have hfirst : ∀ c, String.utf8EncodeChar c <+: (input.bytes.drop s).take n →
          found = some (c.val, (String.utf8EncodeChar c).length) := fun c hc =>
        (hstarts _ _).mpr ⟨_, utf8Form_encodeChar c, rfl, hc.trans (List.take_prefix _ _)⟩
      have reject : ∀ message : String, ¬ (NameTail fontHasGlyph k ((input.bytes.drop s).take n) ∧
          output.length + ((input.bytes.drop s).take n).length < outputLen) →
          ∃ result, (some (.error message) : Option (Except String (List UInt8))) = some result ∧
            ∀ out, result = .ok out ↔ out = output ++ (input.bytes.drop s).take n ++ [0] ∧
              NameTail fontHasGlyph k ((input.bytes.drop s).take n) ∧
              output.length + ((input.bytes.drop s).take n).length < outputLen := fun message hno =>
        ⟨_, rfl, fun out => ⟨fun h => (nomatch h), fun h => absurd h.2 hno⟩⟩
      split
      · next h => rw [hfound] at h; cases h
      · next h =>
          rw [hfound, Option.some.injEq] at h
          refine reject _ fun ⟨⟨chars, hchars, _⟩, _⟩ => ?_
          cases chars with
          | nil => exact hne hchars
          | cons c chars =>
              have := hfirst c ⟨utf8Encode chars, by rw [hchars, utf8Encode_cons]⟩
              rw [h] at this
              cases this
      · next cp len h =>
          rw [hfound, Option.some.injEq] at h
          obtain ⟨form, hform, hlen, hstart⟩ := (hstarts cp len).mp h
          obtain ⟨c, hc, rfl⟩ := utf8Form_iff.mp hform
          obtain rfl : c.val = cp := UInt32.toNat_inj.mp hc
          subst hlen
          have honly : ∀ c', String.utf8EncodeChar c' <+: (input.bytes.drop s).take n → c' = c := by
            intro c' hc'
            have h' := hfirst c' hc'
            rw [h, Option.some.injEq, Prod.mk.injEq] at h'
            exact Char.ext h'.1.symm
          have hcons : ∀ k, NameTail fontHasGlyph k _ ↔ _ := fun k => nameTail_cons hne honly
          by_cases hover : s + (String.utf8EncodeChar c).length > stop
          · rw [if_pos hover]
            refine reject _ fun ⟨hname, _⟩ => ?_
            obtain ⟨-, -, rest', heq, -⟩ := (hcons k).mp hname
            have := congrArg List.length heq
            rw [hbytes, List.length_append] at this
            omega
          rw [if_neg hover]
          by_cases hcontrol : isControl c.val
          · rw [if_pos hcontrol]
            exact reject _ fun ⟨hname, _⟩ => ((hcons k).mp hname).1 ((isControl_iff c).mp hcontrol)
          rw [if_neg hcontrol]
          by_cases hglyph : fontHasGlyph c.val
          swap
          · rw [if_pos (by rwa [Bool.not_eq_true', ← Bool.not_eq_true])]
            exact reject _ fun ⟨hname, _⟩ => hglyph ((hcons k).mp hname).2.1
          rw [if_neg (by rwa [Bool.not_eq_true', Bool.not_eq_false])]
          by_cases hmany : k + 1 > appPrefsDeviceNameMaxCodepoints
          · rw [if_pos hmany]
            refine reject _ fun ⟨hname, _⟩ => ?_
            obtain ⟨-, -, _, -, chars, -, -, hcount⟩ := (hcons k).mp hname
            omega
          rw [if_neg hmany]
          by_cases hlong : output.length + (String.utf8EncodeChar c).length ≥ outputLen
          · rw [if_pos hlong]
            refine reject _ fun ⟨_, hfits⟩ => ?_
            rw [hbytes] at hfits
            omega
          rw [if_neg hlong, CString.copy_eq (by omega), Option.bind_some]
          have hpos := hform.length_pos
          obtain ⟨result, hresult, hok⟩ := ih (n - (String.utf8EncodeChar c).length) (by omega)
            (s + (String.utf8EncodeChar c).length)
            (output ++ (input.bytes.drop s).take (String.utf8EncodeChar c).length) (k + 1)
            (by omega) (by omega)
            (by rw [List.length_append, List.length_take, List.length_drop]; omega) (by omega)
          refine ⟨result, hresult, fun out => (hok out).trans ?_⟩
          have hform' : (input.bytes.drop s).take (String.utf8EncodeChar c).length
              = String.utf8EncodeChar c := (List.prefix_iff_eq_take.mp hstart).symm
          have hsplit : (input.bytes.drop s).take n = String.utf8EncodeChar c ++
              (input.bytes.drop (s + (String.utf8EncodeChar c).length)).take
                (n - (String.utf8EncodeChar c).length) := by
            conv_lhs => rw [show n = (String.utf8EncodeChar c).length +
              (n - (String.utf8EncodeChar c).length) from by omega]
            rw [List.take_add, hform', List.drop_drop]
          rw [hcons k, hform', hsplit, List.length_append, List.length_append, ← Nat.add_assoc,
            ← List.append_assoc output]
          constructor
          · rintro ⟨hout, hname, hfits⟩
            exact ⟨hout, ⟨fun h => hcontrol ((isControl_iff c).mpr h), hglyph, _, rfl, hname⟩,
              hfits⟩
          · rintro ⟨hout, ⟨-, -, rest', heq, hname⟩, hfits⟩
            obtain rfl := List.append_cancel_left heq
            exact ⟨hout, hname, hfits⟩
    · rw [if_neg hlt]
      refine ⟨_, rfl, fun out => ?_⟩
      obtain rfl : n = 0 := by omega
      rw [List.take_zero, List.append_nil, List.length_nil, Except.ok.injEq]
      constructor
      · rintro rfl
        exact ⟨rfl, ⟨[], rfl, fun _ hc => absurd hc List.not_mem_nil, hk⟩, hroom⟩
      · rintro ⟨rfl, -⟩
        rfl

end Loop

/-! ### The blanks around a name -/

section Blanks

variable {input : CString}

/-- The blanks before a name end where something else stands, or the terminator. -/
lemma skipBlanks_spec : ∀ (n i : ℕ), n = input.length - i → i ≤ input.length →
    ∃ start, skipBlanks input i = some start ∧ start ≤ input.length ∧
      input.bytes.drop start = (input.bytes.drop i).dropWhile isspace := by
  intro n
  induction n with
  | zero =>
      intro i hn hi
      have hnil : input.bytes.drop i = [] := by
        rw [List.drop_eq_nil_iff]
        exact Nat.sub_eq_zero_iff_le.mp hn.symm
      refine ⟨i, ?_, hi, by rw [hnil, List.dropWhile_nil]⟩
      rw [skipBlanks]
      split
      · next h => rw [CString.read_nil hnil hi] at h; cases h
      · next b h =>
          rw [CString.read_nil hnil hi, Option.some.injEq] at h
          rw [dif_neg fun hb => hb.1 h.symm]
  | succ n ih =>
      intro i hn hi
      obtain ⟨b, rest, hdrop⟩ : ∃ b rest, input.bytes.drop i = b :: rest := by
        rw [← List.ne_nil_iff_exists_cons, Ne, List.drop_eq_nil_iff]
        have hlength : input.length = input.bytes.length := rfl
        omega
      rw [skipBlanks, hdrop]
      split
      · next h => rw [CString.read_cons hdrop] at h; cases h
      · next b' h =>
          rw [CString.read_cons hdrop, Option.some.injEq] at h
          subst h
          by_cases hb : isspace b
          · rw [dif_pos ⟨CString.ne_nul hdrop, hb⟩, List.dropWhile_cons_of_pos hb]
            have h := ih (i + 1) (by omega) (by omega)
            rwa [CString.drop_succ hdrop] at h
          · rw [dif_neg fun h => hb h.2, List.dropWhile_cons_of_neg hb]
            exact ⟨i, rfl, hi, hdrop⟩

/-- The end before the blanks behind a name. -/
lemma trimEnd_spec {start : ℕ} : ∀ stop, start ≤ stop → stop ≤ input.length →
    ∃ stop', trimEnd input start stop = some stop' ∧ start ≤ stop' ∧ stop' ≤ input.length ∧
      (input.bytes.drop start).take (stop' - start)
        = ((input.bytes.drop start).take (stop - start)).rdropWhile isspace := by
  intro stop
  induction stop with
  | zero =>
      intro hstart hstop
      refine ⟨0, rfl, hstart, hstop, ?_⟩
      rw [Nat.zero_sub, List.take_zero, List.rdropWhile_nil]
  | succ stop ih =>
      intro hstart hstop
      rw [trimEnd]
      by_cases hlt : start < stop + 1
      · obtain ⟨b, rest, hdrop⟩ : ∃ b rest, input.bytes.drop stop = b :: rest := by
          rw [← List.ne_nil_iff_exists_cons, Ne, List.drop_eq_nil_iff]
          have hlength : input.length = input.bytes.length := rfl
          omega
        have htake : (input.bytes.drop start).take (stop + 1 - start)
            = (input.bytes.drop start).take (stop - start) ++ [b] := by
          rw [Nat.sub_add_comm (by omega : start ≤ stop), List.take_add, List.drop_drop,
            Nat.add_sub_cancel' (by omega : start ≤ stop), hdrop]
          rfl
        rw [if_pos hlt, CString.read_cons hdrop, Option.bind_some, htake]
        by_cases hb : isspace b
        · rw [if_pos hb, List.rdropWhile_concat_pos _ _ _ hb]
          exact ih (by omega) (by omega)
        · rw [if_neg hb, List.rdropWhile_concat_neg _ _ _ hb]
          exact ⟨stop + 1, rfl, hstart, hstop, htake⟩
      · rw [if_neg hlt]
        refine ⟨stop + 1, rfl, hstart, hstop, ?_⟩
        obtain rfl : start = stop + 1 := by omega
        rw [Nat.sub_self, List.take_zero, List.rdropWhile_nil]

end Blanks

/-- A trimmed name has no blanks around it. -/
lemma trimmed_trimmed (bytes : List UInt8) : trimmed (trimmed bytes) = trimmed bytes := by
  have hhead : (trimmed bytes).dropWhile isspace = trimmed bytes := by
    cases h : trimmed bytes with
    | nil => rfl
    | cons b rest =>
        have hstarts : trimmed bytes <+: bytes.dropWhile isspace := List.rdropWhile_prefix _ _
        rw [h] at hstarts
        obtain ⟨tail, htail⟩ := hstarts
        refine List.dropWhile_cons_of_neg fun hb => ?_
        have hne : bytes.dropWhile isspace ≠ [] := by
          rw [← htail]
          exact List.cons_ne_nil _ _
        have hfirst := List.head_dropWhile_not isspace hne
        simp only [← htail, List.cons_append, List.head_cons] at hfirst
        rw [hb] at hfirst
        cases hfirst
  rw [trimmed, hhead, trimmed, List.rdropWhile_idempotent]

/-- What is left of a string is one. -/
lemma trimmed_noNul (input : CString) : ∀ b ∈ trimmed input.bytes, b ≠ 0 := fun b hb =>
  input.noNul b ((List.dropWhile_suffix _).subset
    ((List.rdropWhile_prefix _ _).subset hb))

/-! ### The whole check -/

section Check

variable (fontHasGlyph : UInt32 → Bool) (input : CString) (outputLen : ℕ)

/-- The check reads no byte behind the terminator; what it accepts is the trimmed input. -/
lemma deviceNameValidateAndNormalize_spec :
    ∃ result, deviceNameValidateAndNormalize fontHasGlyph input outputLen = some result ∧
      ∀ output, result = .ok output ↔ output = trimmed input.bytes ++ [0] ∧
        AcceptableName fontHasGlyph outputLen (trimmed input.bytes) := by
  rw [deviceNameValidateAndNormalize]
  by_cases hnone : outputLen = 0
  · rw [if_pos hnone]
    refine ⟨_, rfl, fun output => ?_⟩
    simp only [reduceCtorEq, false_iff]
    rintro ⟨-, -, hfits⟩
    omega
  rw [if_neg hnone]
  obtain ⟨start, hskip, hstart, hdrop⟩ :=
    @skipBlanks_spec input input.length 0 rfl (Nat.zero_le _)
  obtain ⟨stop, htrim, hle, hstop, htake⟩ := trimEnd_spec input.length hstart le_rfl
  rw [hskip, Option.bind_some, htrim, Option.bind_some]
  have hname : (input.bytes.drop start).take (stop - start) = trimmed input.bytes := by
    have hall : (input.bytes.drop start).take (input.length - start) = input.bytes.drop start := by
      refine List.take_of_length_le ?_
      rw [List.length_drop]
      rfl
    rw [htake, hall, hdrop, List.drop_zero, trimmed]
  obtain ⟨result, hresult, hok⟩ := @copyName_spec fontHasGlyph input outputLen stop hstop
    (stop - start) start [] 0 rfl hle (Nat.pos_of_ne_zero hnone) (Nat.zero_le _)
  refine ⟨result, hresult, fun output => (hok output).trans ?_⟩
  rw [hname, List.nil_append, List.length_nil, Nat.zero_add]
  rfl

/-- **A name is accepted exactly if, without the blanks around it, it is characters in
UTF-8 that may stand in a name, no more than thirty, and fits the output.** The output is
then that name, and is accepted again as it is. Nothing behind the terminator is read. -/
theorem device_name_accepts_exactly :
    ∃ result, deviceNameValidateAndNormalize fontHasGlyph input outputLen = some result ∧
      ((∃ output, result = .ok output) ↔
        AcceptableName fontHasGlyph outputLen (trimmed input.bytes)) ∧
      ∀ output, result = .ok output → ∃ name : CString,
        name.bytes = trimmed input.bytes ∧ output = name.bytes ++ [0] ∧
        deviceNameValidateAndNormalize fontHasGlyph name outputLen = some (.ok output) := by
  obtain ⟨result, hresult, hok⟩ :=
    deviceNameValidateAndNormalize_spec fontHasGlyph input outputLen
  refine ⟨result, hresult, ⟨fun ⟨output, h⟩ => ((hok output).mp h).2,
    fun h => ⟨_, (hok _).mpr ⟨rfl, h⟩⟩⟩, fun output h => ?_⟩
  obtain ⟨rfl, hname⟩ := (hok output).mp h
  obtain ⟨again, hagain, hok'⟩ := deviceNameValidateAndNormalize_spec fontHasGlyph
    ⟨trimmed input.bytes, trimmed_noNul input⟩ outputLen
  refine ⟨⟨trimmed input.bytes, trimmed_noNul input⟩, rfl, rfl, hagain.trans ?_⟩
  rw [(hok' (trimmed input.bytes ++ [0])).mpr
    ⟨by rw [trimmed_trimmed], by rwa [trimmed_trimmed]⟩]

end Check

end ArcticController

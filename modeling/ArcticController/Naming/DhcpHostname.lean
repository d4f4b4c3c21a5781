/-
The name routers list the controller under, `dhcp_hostname.h`.

* `dhcpHostnameLatin1Base`, `skipContinuation`, `nextBase`, `dhcpHostnameLoop` and
  `dhcpHostnameBuild`, translated from the source; as in the check of the device name,
  `none` stands for a read behind the terminator;
* `hostLetters`: which bytes of a name stand for a letter or a digit;
* `hostName`: the letters with one hyphen for each run of other bytes between them;
* `hostText`: the same, written down from left to right;
* `dhcpHostnameLoop_spec`: the loop writes that text and cuts it at the capacity;
* `dhcp_hostname_legal`: every name built is legal and faithful.
-/
import ArcticController.Base.CString
import ArcticController.Base.Utf8
import Mathlib.Data.List.DropRight
import Mathlib.Data.List.Destutter

namespace ArcticController

/-- `DHCP_HOSTNAME_MAX`. -/
def dhcpHostnameMax : ℕ := 32

/-- `'-'`. -/
def hyphen : UInt8 := 0x2D

/-! ### The code -/

/-- The base letters of `U+00C0` to `U+00FF`, without one for `×`, `÷` and thorn. -/
def latin1Map : List Char :=
  ['A', 'A', 'A', 'A', 'A', 'A', 'A', 'C', 'E', 'E', 'E', 'E', 'I', 'I', 'I', 'I',
   'D', 'N', 'O', 'O', 'O', 'O', 'O', '\x00', 'O', 'U', 'U', 'U', 'U', 'Y', '\x00', 's',
   'a', 'a', 'a', 'a', 'a', 'a', 'a', 'c', 'e', 'e', 'e', 'e', 'i', 'i', 'i', 'i',
   'd', 'n', 'o', 'o', 'o', 'o', 'o', '\x00', 'o', 'u', 'u', 'u', 'u', 'y', '\x00', 'y']

/-- The base letter of a code point, or 0. -/
def dhcpHostnameLatin1Base (cp : UInt32) : UInt8 :=
  if cp < 0xC0 ∨ cp > 0xFF then 0
  else UInt8.ofNat (latin1Map.getD (cp.toNat - 0xC0) '\x00').toNat

/-- An ASCII letter or digit. -/
def isAlnum (b : UInt8) : Bool :=
  (0x61 ≤ b && b ≤ 0x7A) || (0x41 ≤ b && b ≤ 0x5A) || (0x30 ≤ b && b ≤ 0x39)

/-- The first byte from `i` on that continues nothing. -/
def skipContinuation (s : CString) (i : ℕ) : Option ℕ :=
  match h : s.read i with
  | none => none
  | some b => if hb : b &&& 0xC0 = 0x80 then skipContinuation s (i + 1) else some i
termination_by s.length + 1 - i
decreasing_by
  have := CString.readable_succ h (by rintro rfl; exact absurd hb (by decide))
  omega

/-- The letter the bytes at `i` stand for, or 0, and where the next ones begin. -/
def nextBase (s : CString) (i : ℕ) (b : UInt8) : Option (UInt8 × ℕ) :=
  if b < 0x80 then some (if isAlnum b then b else 0, i + 1)
  else if b &&& 0xE0 = 0xC0 then
    (s.read (i + 1)).bind fun b' =>
      if b' &&& 0xC0 = 0x80 then
        some (dhcpHostnameLatin1Base ((b &&& 0x1F).toUInt32 <<< 6 ||| (b' &&& 0x3F).toUInt32),
          i + 2)
      else (skipContinuation s (i + 1)).map fun j => (0, j)
  else (skipContinuation s (i + 1)).map fun j => (0, j)

/-- Continuation bytes are only passed over. -/
lemma le_of_skipContinuation {s : CString} {i j : ℕ} (h : skipContinuation s i = some j) :
    i ≤ j := by
  induction i using skipContinuation.induct s with
  | case1 i hread =>
      rw [skipContinuation] at h
      split at h
      · cases h
      · next h' => rw [hread] at h'; cases h'
  | case2 i b hread hb ih =>
      rw [skipContinuation] at h
      split at h
      · cases h
      · next b' h' =>
          rw [hread, Option.some.injEq] at h'
          subst h'
          rw [dif_pos hb] at h
          exact (Nat.le_succ i).trans (ih h)
  | case3 i b hread hb =>
      rw [skipContinuation] at h
      split at h
      · cases h
      · next b' h' =>
          rw [hread, Option.some.injEq] at h'
          subst h'
          rw [dif_neg hb, Option.some.injEq] at h
          exact h.le

/-- Every turn of the loop passes a byte. -/
lemma lt_of_nextBase {s : CString} {i j : ℕ} {b c : UInt8} (h : nextBase s i b = some (c, j)) :
    i < j := by
  have hskip : ∀ {j' : ℕ}, ((skipContinuation s (i + 1)).map fun j => ((0 : UInt8), j)) = some (c, j')
      → i < j' := by
    intro j' h
    obtain ⟨j'', hj, heq⟩ := Option.map_eq_some_iff.mp h
    cases heq
    exact le_of_skipContinuation hj
  rw [nextBase] at h
  by_cases hone : b < 0x80
  · rw [if_pos hone] at h
    cases h
    exact Nat.lt_succ_self i
  rw [if_neg hone] at h
  by_cases htwo : b &&& 0xE0 = 0xC0
  · rw [if_pos htwo] at h
    obtain ⟨b', -, h⟩ := Option.bind_eq_some_iff.mp h
    by_cases hb' : b' &&& 0xC0 = 0x80
    · rw [if_pos hb'] at h
      cases h
      omega
    · rw [if_neg hb'] at h
      exact hskip h
  · rw [if_neg htwo] at h
    exact hskip h

lemma loop_decreases {s : CString} {i j : ℕ} {b c : UInt8} (hread : s.read i = some b)
    (hb : b ≠ 0) (hnext : nextBase s i b = some (c, j)) :
    s.length + 1 - j < s.length + 1 - i := by
  have hi := CString.readable_succ hread hb
  have hj := lt_of_nextBase hnext
  omega

/-- The loop over the bytes; `out` is what has been written. -/
def dhcpHostnameLoop (s : CString) (cap i : ℕ) (out : List UInt8) (pending : Bool) :
    Option (List UInt8) :=
  match _hread : s.read i with
  | none => none
  | some b =>
      if _hb : b ≠ 0 ∧ out.length < cap then
        match _hnext : nextBase s i b with
        | none => none
        | some (c, j) =>
            if c ≠ 0 then
              if pending ∧ out.length > 0 then
                if out.length + 2 > cap then some out
                else dhcpHostnameLoop s cap j (out ++ [hyphen, c]) false
              else dhcpHostnameLoop s cap j (out ++ [c]) false
            else dhcpHostnameLoop s cap j out true
      else some out
termination_by s.length + 1 - i
decreasing_by
  · exact loop_decreases _hread _hb.1 _hnext
  · exact loop_decreases _hread _hb.1 _hnext
  · exact loop_decreases _hread _hb.1 _hnext

/-- A digit of `%X`. -/
def upperHex (n : ℕ) : UInt8 := if n < 10 then UInt8.ofNat (0x30 + n) else UInt8.ofNat (0x37 + n)

/-- `"%02X"`. -/
def twoHex (b : UInt8) : List UInt8 := [upperHex (b.toNat / 16), upperHex (b.toNat % 16)]

/-- `"Macon-Heat-Pump-Controller-"`. -/
def hostnameStem : List UInt8 :=
  ['M', 'a', 'c', 'o', 'n', '-', 'H', 'e', 'a', 't', '-', 'P', 'u', 'm', 'p', '-', 'C', 'o',
   'n', 't', 'r', 'o', 'l', 'l', 'e', 'r', '-'].map fun c =>
    UInt8.ofNat c.toNat

/-- The name of a controller without one of its own. -/
def defaultHostname (mac : Fin 6 → UInt8) : List UInt8 :=
  hostnameStem ++ twoHex (mac 4) ++ twoHex (mac 5)

/-- What is written to the buffer, with its terminator. -/
def dhcpHostnameBuild (friendly : Option CString) (mac : Fin 6 → UInt8) (outLen : ℕ) :
    Option (List UInt8) :=
  let cap := if outLen - 1 < dhcpHostnameMax then outLen - 1 else dhcpHostnameMax
  (dhcpHostnameLoop (friendly.getD CString.empty) cap 0 [] false).map fun out =>
    if out.length = 0 then (defaultHostname mac).take (outLen - 1) ++ [0] else out ++ [0]

/-! ### The letters of a name -/

/-- The base letter behind a `C3`. -/
def accentBase (b : UInt8) : UInt8 := dhcpHostnameLatin1Base (0xC0 + (b &&& 0x3F).toUInt32)

/-- The letters and digits of a name, and `none` for every byte of something else: an
accented letter is `C3` with a continuation byte. -/
def hostLetters : List UInt8 → List (Option UInt8)
  | [] => []
  | [b] => [if isAlnum b then some b else none]
  | b :: b' :: rest =>
      if isAlnum b then some b :: hostLetters (b' :: rest)
      else if b = 0xC3 ∧ b' &&& 0xC0 = 0x80 ∧ accentBase b' ≠ 0 then
        some (accentBase b') :: hostLetters rest
      else none :: hostLetters (b' :: rest)

/-- The letters with one hyphen for each run of others between them. -/
def hostName (letters : List (Option UInt8)) : List UInt8 :=
  (((letters.dropWhile Option.isNone).rdropWhile Option.isNone).destutter
    fun a b => a ≠ none ∨ b ≠ none).map fun letter => letter.getD hyphen

/-- The base letter of a character. -/
def charBase (c : Char) : Option UInt8 :=
  if isAlnum c.toUInt8 ∧ c.val < 0x80 then some c.toUInt8
  else if dhcpHostnameLatin1Base c.val ≠ 0 then some (dhcpHostnameLatin1Base c.val) else none

/-- A name that may stand in a DNS label. -/
structure LegalHostName (name : List UInt8) : Prop where
  nonempty : name ≠ []
  length_le : name.length ≤ dhcpHostnameMax
  chars : ∀ c ∈ name, isAlnum c = true ∨ c = hyphen
  head : name.head? ≠ some hyphen
  last : name.getLast? ≠ some hyphen
  single : name.IsChain fun a b => a ≠ hyphen ∨ b ≠ hyphen

section Letters

variable {b b' : UInt8} {rest : List UInt8}

lemma hostLetters_alnum (hb : isAlnum b = true) :
    hostLetters (b :: rest) = some b :: hostLetters rest := by
  cases rest with
  | nil => simp [hostLetters, hb]
  | cons b' rest => rw [hostLetters, if_pos hb]

lemma hostLetters_other (hb : isAlnum b = false) (hlead : b ≠ 0xC3) :
    hostLetters (b :: rest) = none :: hostLetters rest := by
  cases rest with
  | nil => simp [hostLetters, hb]
  | cons b' rest => simp [hostLetters, hb, hlead]

lemma isAlnum_iff : isAlnum b = true ↔ (0x61 ≤ b.toNat ∧ b.toNat ≤ 0x7A) ∨
    (0x41 ≤ b.toNat ∧ b.toNat ≤ 0x5A) ∨ (0x30 ≤ b.toNat ∧ b.toNat ≤ 0x39) := by
  rw [isAlnum, Bool.or_eq_true, Bool.or_eq_true, Bool.and_eq_true, Bool.and_eq_true,
    Bool.and_eq_true]
  simp only [decide_eq_true_iff, UInt8.le_iff_toNat_le]
  rw [or_assoc]
  rfl

/-- A continuation byte is no letter and begins none. -/
lemma hostLetters_continuation (hb : b &&& 0xC0 = 0x80) :
    hostLetters (b :: rest) = none :: hostLetters rest := by
  rw [continuation] at hb
  refine hostLetters_other ?_ ?_
  · rw [← Bool.not_eq_true, isAlnum_iff]
    omega
  · rintro rfl
    exact absurd hb.2 (by decide)

/-- A byte with no continuation behind it is no accented letter. -/
lemma hostLetters_alone (hb : isAlnum b = false)
    (hrest : ∀ b' rest', rest = b' :: rest' → b' &&& 0xC0 ≠ 0x80) :
    hostLetters (b :: rest) = none :: hostLetters rest := by
  cases rest with
  | nil => simp [hostLetters, hb]
  | cons b' rest => simp [hostLetters, hb, hrest b' rest rfl]

/-- The letters of the table. -/
lemma latin1Map_letters : ∀ i : Fin 64, UInt8.ofNat (latin1Map.getD i '\x00').toNat = 0 ∨
    isAlnum (UInt8.ofNat (latin1Map.getD i '\x00').toNat) = true := by
  decide

lemma isAlnum_latin1Base {cp : UInt32} (h : dhcpHostnameLatin1Base cp ≠ 0) :
    isAlnum (dhcpHostnameLatin1Base cp) = true := by
  rw [dhcpHostnameLatin1Base] at h ⊢
  by_cases hcp : cp < 0xC0 ∨ cp > 0xFF
  · rw [if_pos hcp] at h
    exact absurd rfl h
  · rw [if_neg hcp] at h ⊢
    have hlt : cp.toNat - 0xC0 < 64 := by
      rw [not_or, gt_iff_lt, UInt32.lt_iff_toNat_lt, UInt32.lt_iff_toNat_lt] at hcp
      have h1 : ¬ cp.toNat < 192 := hcp.1
      have h2 : ¬ 255 < cp.toNat := hcp.2
      omega
    exact (latin1Map_letters ⟨cp.toNat - 0xC0, hlt⟩).resolve_left h

/-- Of the two-byte sequences those with `C3` have base letters. -/
lemma latin1Base_two_bytes (hb : 0xC0 ≤ b.toNat ∧ b.toNat < 0xE0) :
    dhcpHostnameLatin1Base ((b &&& 0x1F).toUInt32 <<< 6 ||| (b' &&& 0x3F).toUInt32)
      = if b = 0xC3 then accentBase b' else 0 := by
  have hcp := toNat_two_bytes b b'
  by_cases hlead : b = 0xC3
  · rw [if_pos hlead, accentBase]
    refine congrArg dhcpHostnameLatin1Base (UInt32.toNat_inj.mp ?_)
    have hlow : (b' &&& 0x3F).toUInt32.toNat = b'.toNat % 0x40 := toNat_lowBits b' 6 0x3F rfl
    have hb3 : b.toNat = 0xC3 := by rw [hlead]; rfl
    rw [hcp, UInt32.toNat_add, hlow, hb3]
    change 3 * 64 + b'.toNat % 64 = (192 + b'.toNat % 64) % 2 ^ 32
    omega
  · have hne : b.toNat ≠ 0xC3 := fun h => hlead (UInt8.toNat_inj.mp h)
    rw [if_neg hlead, dhcpHostnameLatin1Base, if_pos]
    rw [gt_iff_lt, UInt32.lt_iff_toNat_lt, UInt32.lt_iff_toNat_lt, hcp]
    change _ < 192 ∨ 255 < _
    omega

/-- An accented letter, or two bytes of something else. -/
lemma hostLetters_two_bytes (hb : 0xC0 ≤ b.toNat ∧ b.toNat < 0xE0) (hb' : b' &&& 0xC0 = 0x80) :
    hostLetters (b :: b' :: rest) =
      if b = 0xC3 ∧ accentBase b' ≠ 0 then some (accentBase b') :: hostLetters rest
      else none :: none :: hostLetters rest := by
  have halnum : isAlnum b = false := by
    rw [← Bool.not_eq_true, isAlnum_iff]
    omega
  rw [hostLetters, halnum]
  by_cases hletter : b = 0xC3 ∧ accentBase b' ≠ 0
  · rw [if_neg Bool.false_ne_true, if_pos ⟨hletter.1, hb', hletter.2⟩, if_pos hletter]
  · rw [if_neg Bool.false_ne_true, if_neg fun h => hletter ⟨h.1, h.2.2⟩, if_neg hletter,
      hostLetters_continuation hb']

/-- Every letter of a name is one. -/
lemma isAlnum_of_mem_hostLetters {bytes : List UInt8} {c : UInt8} (h : some c ∈ hostLetters bytes) :
    isAlnum c = true := by
  induction bytes using hostLetters.induct with
  | case1 => cases h
  | case2 b =>
      rw [hostLetters, List.mem_singleton] at h
      by_cases hb : isAlnum b
      · rw [if_pos hb] at h
        cases h
        exact hb
      · rw [if_neg hb] at h
        cases h
  | case3 b b' rest hb ih =>
      rw [hostLetters, if_pos hb] at h
      rcases List.mem_cons.mp h with h | h
      · cases h
        exact hb
      · exact ih h
  | case4 b b' rest hb hletter ih =>
      rw [hostLetters, if_neg hb, if_pos hletter] at h
      rcases List.mem_cons.mp h with h | h
      · cases h
        exact isAlnum_latin1Base hletter.2.2
      · exact ih h
  | case5 b b' rest hb hletter ih =>
      rw [hostLetters, if_neg hb, if_neg hletter] at h
      rcases List.mem_cons.mp h with h | h
      · cases h
      · exact ih h

end Letters

/-! ### What a turn of the loop passes -/

section Turns

variable {s : CString} {i : ℕ}

/-- The bytes passed over are no letters. -/
lemma skipContinuation_spec : ∀ (n i : ℕ), n = s.length - i → i ≤ s.length →
    ∃ j k, skipContinuation s i = some j ∧ j ≤ s.length ∧
      hostLetters (s.bytes.drop i) = List.replicate k none ++ hostLetters (s.bytes.drop j) := by
  intro n
  induction n with
  | zero =>
      intro i hn hi
      have hnil : s.bytes.drop i = [] := by
        rw [List.drop_eq_nil_iff]
        exact Nat.sub_eq_zero_iff_le.mp hn.symm
      refine ⟨i, 0, ?_, hi, rfl⟩
      rw [skipContinuation]
      split
      · next h => rw [CString.read_nil hnil hi] at h; cases h
      · next b h =>
          rw [CString.read_nil hnil hi, Option.some.injEq] at h
          subst h
          rw [dif_neg (by decide)]
  | succ n ih =>
      intro i hn hi
      obtain ⟨b, rest, hdrop⟩ : ∃ b rest, s.bytes.drop i = b :: rest := by
        rw [← List.ne_nil_iff_exists_cons, Ne, List.drop_eq_nil_iff]
        have hlength : s.length = s.bytes.length := rfl
        omega
      rw [skipContinuation]
      split
      · next h => rw [CString.read_cons hdrop] at h; cases h
      · next b' h =>
          rw [CString.read_cons hdrop, Option.some.injEq] at h
          subst h
          by_cases hb : b &&& 0xC0 = 0x80
          · rw [dif_pos hb]
            obtain ⟨j, k, hj, hlen, hletters⟩ := ih (i + 1) (by omega) (by omega)
            refine ⟨j, k + 1, hj, hlen, ?_⟩
            rw [CString.drop_succ hdrop] at hletters
            rw [hdrop, hostLetters_continuation hb, hletters, List.replicate_succ, List.cons_append]
          · rw [dif_neg hb]
            exact ⟨i, 0, rfl, hi, rfl⟩

/-- A turn reads no byte behind the terminator; it passes one letter, or some bytes that are
none. -/
lemma nextBase_spec {b : UInt8} {rest : List UInt8} (h : s.bytes.drop i = b :: rest) :
    ∃ c j, nextBase s i b = some (c, j) ∧ i < j ∧ j ≤ s.length ∧
      ((c ≠ 0 ∧ hostLetters (s.bytes.drop i) = some c :: hostLetters (s.bytes.drop j)) ∨
        (c = 0 ∧ ∃ k, hostLetters (s.bytes.drop i)
          = none :: List.replicate k none ++ hostLetters (s.bytes.drop j))) := by
  have hlt := CString.lt_length h
  have hdrop := CString.drop_succ h
  obtain ⟨j, k, hj, hlen, hletters⟩ :=
    skipContinuation_spec (s.length - (i + 1)) (i + 1) rfl hlt
  -- A byte that is no letter, with the continuation bytes behind it.
  have hskip : hostLetters (b :: rest) = none :: hostLetters rest →
      ∃ c j, (skipContinuation s (i + 1)).map (fun j => ((0 : UInt8), j)) = some (c, j) ∧ i < j ∧
        j ≤ s.length ∧
        ((c ≠ 0 ∧ hostLetters (s.bytes.drop i) = some c :: hostLetters (s.bytes.drop j)) ∨
          (c = 0 ∧ ∃ k, hostLetters (s.bytes.drop i)
            = none :: List.replicate k none ++ hostLetters (s.bytes.drop j))) := by
    intro hb
    refine ⟨0, j, by rw [hj, Option.map_some], le_of_skipContinuation hj, hlen,
      .inr ⟨rfl, k, ?_⟩⟩
    rw [h, hb, ← hdrop, hletters, List.cons_append]
  rw [nextBase]
  by_cases hone : b < 0x80
  · rw [if_pos hone]
    refine ⟨_, i + 1, rfl, Nat.lt_succ_self i, hlt, ?_⟩
    rw [h, hdrop]
    by_cases hb : isAlnum b
    · rw [if_pos hb]
      exact .inl ⟨CString.ne_nul h, hostLetters_alnum hb⟩
    · rw [if_neg hb]
      refine .inr ⟨rfl, 0, hostLetters_other (Bool.not_eq_true _ ▸ hb) ?_⟩
      rintro rfl
      exact absurd hone (by decide)
  rw [if_neg hone]
  have halnum : isAlnum b = false := by
    rw [UInt8.lt_iff_toNat_lt] at hone
    change ¬ b.toNat < 128 at hone
    rw [← Bool.not_eq_true, isAlnum_iff]
    omega
  by_cases htwo : b &&& 0xE0 = 0xC0
  · rw [if_pos htwo]
    rw [lead_two] at htwo
    cases rest with
    | nil =>
        rw [CString.read_nil hdrop hlt, Option.bind_some, if_neg (by decide)]
        exact hskip (hostLetters_alone halnum fun _ _ h => nomatch h)
    | cons b' rest =>
        rw [CString.read_cons hdrop, Option.bind_some]
        by_cases hb' : b' &&& 0xC0 = 0x80
        · have hdrop2 := CString.drop_succ hdrop
          rw [if_pos hb', latin1Base_two_bytes htwo, h, hostLetters_two_bytes htwo hb']
          refine ⟨_, i + 2, rfl, by omega, CString.lt_length hdrop, ?_⟩
          rw [show i + 2 = i + 1 + 1 from rfl, hdrop2]
          by_cases hlead : b = 0xC3
          · by_cases hbase : accentBase b' = 0
            · rw [if_pos hlead, if_neg fun h => h.2 hbase]
              exact .inr ⟨hbase, 1, rfl⟩
            · rw [if_pos hlead, if_pos ⟨hlead, hbase⟩]
              exact .inl ⟨hbase, rfl⟩
          · rw [if_neg hlead, if_neg fun h => hlead h.1]
            exact .inr ⟨rfl, 1, rfl⟩
        · rw [if_neg hb']
          refine hskip (hostLetters_alone halnum fun b'' rest' heq => ?_)
          obtain ⟨rfl, -⟩ := List.cons.inj heq
          exact hb'
  · rw [if_neg htwo]
    refine hskip (hostLetters_other halnum ?_)
    rintro rfl
    exact absurd rfl htwo

end Turns

/-! ### The text written from left to right -/

/-- The text of letters once something has been written, and once others came since. -/
def hostText : Bool → Bool → List (Option UInt8) → List UInt8
  | _, _, [] => []
  | started, _, none :: letters => hostText started true letters
  | started, pending, some c :: letters =>
      (if pending ∧ started then [hyphen, c] else [c]) ++ hostText true false letters

section Text

variable {started pending : Bool} {letters : List (Option UInt8)} {c : UInt8}

@[simp] lemma hostText_nil : hostText started pending [] = [] := rfl

@[simp] lemma hostText_none :
    hostText started pending (none :: letters) = hostText started true letters := rfl

@[simp] lemma hostText_some : hostText started pending (some c :: letters) =
    (if pending ∧ started then [hyphen, c] else [c]) ++ hostText true false letters := rfl

/-- Any number of others is one. -/
@[simp] lemma hostText_replicate (k : ℕ) :
    hostText started true (List.replicate k none ++ letters) = hostText started true letters := by
  induction k with
  | zero => rfl
  | succ k ih => rw [List.replicate_succ, List.cons_append, hostText_none, ih]

/-- Before the first letter nothing is written. -/
lemma hostText_start (pending : Bool) (letters : List (Option UInt8)) :
    hostText false pending letters = hostText false false letters := by
  induction letters generalizing pending with
  | nil => rfl
  | cons letter letters ih =>
      cases letter with
      | none => rw [hostText_none, hostText_none]
      | some c => simp

/-- The trailing others of a list with something before them. -/
lemma rdropWhile_cons (letter : Option UInt8) (letters : List (Option UInt8)) :
    (letter :: letters).rdropWhile Option.isNone =
      if letters.rdropWhile Option.isNone = [] ∧ letter = none then []
      else letter :: letters.rdropWhile Option.isNone := by
  rw [List.rdropWhile, List.rdropWhile, List.reverse_cons, List.dropWhile_append]
  by_cases h : List.dropWhile Option.isNone letters.reverse = []
  · cases letter with
    | none => simp [h]
    | some c => simp [h]
  · simp [h]

/-- Behind what has been kept the text goes on with the letters and one hyphen for each run. -/
lemma hostText_destutter (letters : List (Option UInt8)) :
    (∀ c, ((letters.rdropWhile Option.isNone).destutter'
        (fun a b => a ≠ none ∨ b ≠ none) (some c)).map (fun letter => letter.getD hyphen)
      = c :: hostText true false letters) ∧
    (letters.rdropWhile Option.isNone ≠ [] →
      ((letters.rdropWhile Option.isNone).destutter'
        (fun a b => a ≠ none ∨ b ≠ none) none).map (fun letter => letter.getD hyphen)
      = hostText true true letters) ∧
    (letters.rdropWhile Option.isNone = [] → hostText true true letters = []) := by
  induction letters with
  | nil =>
      rw [List.rdropWhile_nil]
      exact ⟨fun c => rfl, fun h => absurd rfl h, fun _ => rfl⟩
  | cons letter letters ih =>
      obtain ⟨hsome, hnone, hend⟩ := ih
      rw [rdropWhile_cons]
      cases letter with
      | none =>
          rw [hostText_none, hostText_none]
          by_cases h : letters.rdropWhile Option.isNone = []
          · rw [if_pos ⟨h, rfl⟩, hend h]
            exact ⟨fun c => rfl, fun h => absurd rfl h, fun _ => rfl⟩
          · rw [if_neg fun h' => h h'.1]
            refine ⟨fun c => ?_, fun _ => ?_, fun h' => absurd h' (List.cons_ne_nil _ _)⟩
            · rw [List.destutter'_cons_pos _ (by simp), List.map_cons, hnone h, Option.getD_some]
            · rw [List.destutter'_cons_neg _ (by simp), hnone h]
      | some d =>
          rw [if_neg (by simp)]
          refine ⟨fun c => ?_, fun _ => ?_, fun h' => absurd h' (List.cons_ne_nil _ _)⟩
          · rw [List.destutter'_cons_pos _ (by simp), List.map_cons, hsome d, Option.getD_some]
            simp
          · rw [List.destutter'_cons_pos _ (by simp), List.map_cons, hsome d, Option.getD_none]
            simp

/-- The text from the start is the name. -/
lemma hostText_eq_hostName (letters : List (Option UInt8)) :
    hostText false false letters = hostName letters := by
  rw [hostName]
  induction letters with
  | nil => rfl
  | cons letter letters ih =>
      cases letter with
      | none => rw [hostText_none, hostText_start, ih, List.dropWhile_cons_of_pos rfl]
      | some c =>
          rw [List.dropWhile_cons_of_neg (by simp), rdropWhile_cons, if_neg (by simp),
            List.destutter_cons', (hostText_destutter letters).1 c]
          simp

end Text

/-! ### The loop -/

/-- A text without a hyphen at its end is left as it is. -/
lemma rdropWhile_of_last {out : List UInt8} (h : out.getLast? ≠ some hyphen) :
    out.rdropWhile (· == hyphen) = out := by
  rw [List.rdropWhile_eq_self_iff]
  intro hne heq
  rw [List.getLast?_eq_some_getLast hne] at h
  exact h (congrArg some (beq_iff_eq.mp heq))

/-- The loop reads no byte behind the terminator. It writes the text and cuts it at the
capacity, without a hyphen at its end. -/
lemma dhcpHostnameLoop_spec {s : CString} {cap : ℕ} : ∀ (n i : ℕ) (out : List UInt8)
    (pending : Bool), n = s.length - i → i ≤ s.length → out.length ≤ cap →
    out.getLast? ≠ some hyphen →
    dhcpHostnameLoop s cap i out pending =
      some (((out ++ hostText (decide (out ≠ [])) pending (hostLetters (s.bytes.drop i))).take
        cap).rdropWhile (· == hyphen)) := by
  intro n
  induction n using Nat.strong_induction_on with
  | _ n ih =>
    intro i out pending hn hi hcap hlast
    have hout : ∀ rest, out.length = cap → ((out ++ rest).take cap).rdropWhile (· == hyphen) = out := by
      rintro rest rfl
      rw [List.take_left, rdropWhile_of_last hlast]
    rw [dhcpHostnameLoop]
    cases hdrop : s.bytes.drop i with
    | nil =>
        have hread := CString.read_nil hdrop hi
        split
        · next h => rw [hread] at h; cases h
        · next b h =>
            rw [hread, Option.some.injEq] at h
            subst h
            rw [dif_neg fun h => h.1 rfl, hostLetters, hostText_nil, List.append_nil,
              List.take_of_length_le hcap, rdropWhile_of_last hlast]
    | cons b rest =>
        have hread := CString.read_cons hdrop
        split
        · next h => rw [hread] at h; cases h
        · next b' h =>
            rw [hread, Option.some.injEq] at h
            subst h
            by_cases hroom : out.length < cap
            · rw [dif_pos ⟨CString.ne_nul hdrop, hroom⟩]
              obtain ⟨c, j, hnext, hij, hj, hletters⟩ := nextBase_spec hdrop
              have hless : s.length - j < n := by
                have := CString.lt_length hdrop
                omega
              split
              · next h => rw [hnext] at h; cases h
              · next c' j' h =>
                  rw [hnext, Option.some.injEq, Prod.mk.injEq] at h
                  obtain ⟨rfl, rfl⟩ := h
                  rw [← hdrop]
                  rcases hletters with ⟨hc, hletters⟩ | ⟨rfl, k, hletters⟩
                  · have hne : c ≠ hyphen := by
                      have hmem : some c ∈ hostLetters (s.bytes.drop i) := by
                        rw [hletters]
                        exact List.mem_cons_self
                      rintro rfl
                      exact absurd (isAlnum_of_mem_hostLetters hmem) (by decide)
                    rw [if_pos hc, hletters, hostText_some]
                    by_cases hgap : pending ∧ out.length > 0
                    · have hstart : pending = true ∧ decide (out ≠ []) = true :=
                        ⟨hgap.1, decide_eq_true (List.length_pos_iff.mp hgap.2)⟩
                      rw [if_pos hgap]
                      by_cases hfull : out.length + 2 > cap
                      · have hcut : (out ++ ([hyphen, c] ++ hostText true false
                            (hostLetters (s.bytes.drop j)))).take cap = out ++ [hyphen] := by
                          obtain rfl : cap = out.length + 1 := by omega
                          rw [List.take_length_add_append]
                          rfl
                        rw [if_pos hfull, if_pos hstart, hcut, List.rdropWhile_concat_pos _ _ _ (by rfl),
                          rdropWhile_of_last hlast]
                      · rw [if_neg hfull, if_pos hstart, ih _ hless j (out ++ [hyphen, c]) false rfl hj
                          (by rw [List.length_append]; exact not_lt.mp hfull) (by simp [hne]),
                          decide_eq_true (by simp), List.append_assoc]
                    · have hstart : ¬ (pending = true ∧ decide (out ≠ []) = true) := by
                        rintro ⟨hpending, hsome⟩
                        exact hgap ⟨hpending, List.length_pos_iff.mpr (of_decide_eq_true hsome)⟩
                      rw [if_neg hgap, if_neg hstart, ih _ hless j (out ++ [c]) false rfl hj
                        (by rw [List.length_append]; exact hroom) (by simp [hne]),
                        decide_eq_true (by simp), List.append_assoc]
                  · rw [if_neg (not_not.mpr rfl), hletters,
                      ih _ hless j out true rfl hj hcap hlast, List.cons_append, hostText_none,
                      hostText_replicate]
            · rw [dif_neg fun h => hroom h.2, hout _ (by omega)]

/-! ### Legal names -/

section Legal

variable {letters : List (Option UInt8)}

lemma ne_hyphen_of_isAlnum {c : UInt8} (hc : isAlnum c = true) : c ≠ hyphen := by
  rintro rfl
  exact absurd hc (by decide)

/-- A text is letters, digits and hyphens. -/
lemma mem_hostText (hletters : ∀ c, some c ∈ letters → isAlnum c = true) (started pending : Bool) :
    ∀ c ∈ hostText started pending letters, isAlnum c = true ∨ c = hyphen := by
  induction letters generalizing started pending with
  | nil => exact fun c hc => absurd hc List.not_mem_nil
  | cons letter letters ih =>
      have hrest : ∀ c, some c ∈ letters → isAlnum c = true :=
        fun c hc => hletters c (List.mem_cons_of_mem _ hc)
      cases letter with
      | none => exact ih hrest _ _
      | some d =>
          have hd := hletters d List.mem_cons_self
          intro c hc
          rw [hostText_some, List.mem_append] at hc
          rcases hc with hc | hc
          · split at hc
            · rcases List.mem_cons.mp hc with rfl | hc
              · exact .inr rfl
              · rw [List.mem_singleton.mp hc]
                exact .inl hd
            · rw [List.mem_singleton.mp hc]
              exact .inl hd
          · exact ih hrest _ _ c hc

/-- Behind a letter no two hyphens stand together. -/
lemma isChain_cons_hostText (hletters : ∀ c, some c ∈ letters → isAlnum c = true) (pending : Bool)
    {a : UInt8} (ha : a ≠ hyphen) :
    (a :: hostText true pending letters).IsChain fun a b => a ≠ hyphen ∨ b ≠ hyphen := by
  induction letters generalizing pending a with
  | nil => exact List.isChain_singleton a
  | cons letter letters ih =>
      have hrest : ∀ c, some c ∈ letters → isAlnum c = true :=
        fun c hc => hletters c (List.mem_cons_of_mem _ hc)
      cases letter with
      | none => exact ih hrest true ha
      | some c =>
          have hc := ne_hyphen_of_isAlnum (hletters c List.mem_cons_self)
          have htail := ih hrest false hc
          rw [hostText_some]
          cases pending with
          | true =>
              exact List.isChain_cons_cons.mpr ⟨.inl ha, List.isChain_cons_cons.mpr
                ⟨.inr hc, htail⟩⟩
          | false => exact List.isChain_cons_cons.mpr ⟨.inl ha, htail⟩

/-- A text begins with a letter, and is empty only where there is none. -/
lemma hostText_cases (pending : Bool) :
    (hostText false pending letters = [] ∧ ∀ c, some c ∉ letters) ∨
    ∃ c rest, some c ∈ letters ∧ (∀ d, some d ∈ rest → some d ∈ letters) ∧
      hostText false pending letters = c :: hostText true false rest := by
  induction letters generalizing pending with
  | nil => exact .inl ⟨rfl, fun c => List.not_mem_nil⟩
  | cons letter letters ih =>
      cases letter with
      | none =>
          rw [hostText_none]
          rcases ih true with ⟨hnil, hnone⟩ | ⟨c, rest, hc, hrest, heq⟩
          · refine .inl ⟨hnil, fun c hc => hnone c ?_⟩
            rcases List.mem_cons.mp hc with h | h
            · cases h
            · exact h
          · exact .inr ⟨c, rest, List.mem_cons_of_mem _ hc,
              fun d hd => List.mem_cons_of_mem _ (hrest d hd), heq⟩
      | some c =>
          refine .inr ⟨c, letters, List.mem_cons_self, fun d hd => List.mem_cons_of_mem _ hd, ?_⟩
          rw [hostText_some, if_neg fun h => Bool.false_ne_true h.2]
          rfl

/-- A name cut at the limit is legal. -/
lemma legalHostName_cut {c : UInt8} (hletters : ∀ c, some c ∈ letters → isAlnum c = true)
    (hc : some c ∈ letters) :
    LegalHostName (((hostName letters).take dhcpHostnameMax).rdropWhile (· == hyphen)) := by
  rw [← hostText_eq_hostName]
  have hall := mem_hostText hletters false false
  rcases @hostText_cases letters false with ⟨-, hnone⟩ | ⟨d, rest, hd, hrest, heq⟩
  · exact absurd hc (hnone c)
  have hdne := ne_hyphen_of_isAlnum (hletters d hd)
  have hchain := isChain_cons_hostText (fun e he => hletters e (hrest e he)) false hdne
  rw [heq] at hall ⊢
  set text := d :: hostText true false rest with htext
  have hcut : (text.take dhcpHostnameMax).rdropWhile (· == hyphen) <+: text :=
    (List.rdropWhile_prefix _ _).trans (List.take_prefix _ _)
  have hne : (text.take dhcpHostnameMax).rdropWhile (· == hyphen) ≠ [] := by
    rw [Ne, List.rdropWhile_eq_nil_iff]
    intro h
    exact hdne (beq_iff_eq.mp (h d (by rw [htext]; exact List.mem_cons_self)))
  refine ⟨hne, ?_, fun e he => hall e (hcut.subset he), ?_, ?_, ?_⟩
  · exact (List.rdropWhile_prefix _ _).length_le.trans
      (List.length_take_le _ _)
  · obtain ⟨tail, htail⟩ := hcut
    cases hcase : (text.take dhcpHostnameMax).rdropWhile (· == hyphen) with
    | nil => exact absurd hcase hne
    | cons e cut =>
        rw [hcase, htext, List.cons_append] at htail
        obtain ⟨rfl, -⟩ := List.cons.inj htail
        rw [List.head?_cons]
        exact fun h => hdne (Option.some.inj h)
  · rw [List.getLast?_eq_some_getLast hne]
    intro h
    exact List.rdropWhile_last_not _ _ hne (beq_iff_eq.mpr (Option.some.inj h))
  · obtain ⟨tail, htail⟩ := hcut
    rw [← htail] at hchain
    exact hchain.left_of_append

lemma isAlnum_upperHex {n : ℕ} (hn : n < 16) : isAlnum (upperHex n) = true := by
  have h : ∀ n : Fin 16, isAlnum (upperHex n) = true := by decide
  exact h ⟨n, hn⟩

/-- The name without one of its own is legal. -/
lemma legalHostName_default (mac : Fin 6 → UInt8) : LegalHostName (defaultHostname mac) := by
  have hdigits : ∀ c ∈ twoHex (mac 4) ++ twoHex (mac 5), isAlnum c = true := by
    have h4 := (mac 4).toNat_lt
    have h5 := (mac 5).toNat_lt
    intro c hc
    simp only [twoHex, List.cons_append, List.nil_append, List.mem_cons, List.not_mem_nil,
      or_false] at hc
    rcases hc with rfl | rfl | rfl | rfl <;> exact isAlnum_upperHex (by omega)
  have hsplit : defaultHostname mac = hostnameStem ++ (twoHex (mac 4) ++ twoHex (mac 5)) := by
    rw [defaultHostname, List.append_assoc]
  have hstem : ∀ c ∈ hostnameStem, isAlnum c = true ∨ c = hyphen := by
    have hall : (hostnameStem.all fun c => isAlnum c || c == hyphen) = true := by decide
    intro c hc
    have hone := List.all_eq_true.mp hall c hc
    rwa [Bool.or_eq_true, beq_iff_eq] at hone
  refine ⟨by rw [hsplit]; exact List.cons_ne_nil _ _, ?_, fun c hc => ?_, ?_, ?_, ?_⟩
  · rw [hsplit]
    exact (by decide : hostnameStem.length + 4 ≤ dhcpHostnameMax)
  · rw [hsplit, List.mem_append] at hc
    rcases hc with hc | hc
    · exact hstem c hc
    · exact .inl (hdigits c hc)
  · rw [hsplit]
    exact (by decide : (some 0x4D : Option UInt8) ≠ some hyphen)
  · have hlast : (defaultHostname mac).getLast? = some (upperHex ((mac 5).toNat % 16)) := by
      rw [hsplit, ← List.append_assoc, show twoHex (mac 5) =
        [upperHex ((mac 5).toNat / 16)] ++ [upperHex ((mac 5).toNat % 16)] from rfl,
        ← List.append_assoc]
      exact List.getLast?_concat
    rw [hlast]
    exact fun h => ne_hyphen_of_isAlnum (isAlnum_upperHex (Nat.mod_lt _ (by decide)))
      (Option.some.inj h)
  · rw [hsplit, List.isChain_append]
    refine ⟨by decide, ?_, fun a _ b hb => .inr (ne_hyphen_of_isAlnum (hdigits b ?_))⟩
    · exact (List.pairwise_of_forall_mem_list fun a _ b hb =>
        .inr (ne_hyphen_of_isAlnum (hdigits b hb))).isChain
    · exact List.mem_of_mem_head? hb

end Legal

/-! ### Names in UTF-8 -/

section Characters

/-- The bytes of a character stand for its base letter, or for nothing. -/
lemma hostLetters_encodeChar (c : Char) (rest : List UInt8) :
    (∃ b, charBase c = some b ∧
      hostLetters (String.utf8EncodeChar c ++ rest) = some b :: hostLetters rest) ∨
    (charBase c = none ∧ ∃ k, hostLetters (String.utf8EncodeChar c ++ rest)
      = none :: List.replicate k none ++ hostLetters rest) := by
  have hform := utf8Form_encodeChar c
  have hlow : c.toUInt8.toNat = c.val.toNat % 256 := UInt32.toNat_toUInt8 c.val
  have hlt : c.val < 0x80 ↔ c.val.toNat < 128 := UInt32.lt_iff_toNat_lt
  have hnobase : c.val.toNat < 192 ∨ 255 < c.val.toNat → dhcpHostnameLatin1Base c.val = 0 := by
    intro h
    rw [dhcpHostnameLatin1Base, if_pos]
    rwa [gt_iff_lt, UInt32.lt_iff_toNat_lt, UInt32.lt_iff_toNat_lt]
  generalize hbytes : String.utf8EncodeChar c = bytes at hform
  generalize hcp : c.val.toNat = cp at hform hlow hlt hnobase
  cases hform with
  | @one a ha =>
      have hself : c.toUInt8 = a := UInt8.toNat_inj.mp (by rw [hlow]; omega)
      rw [charBase, hself, hnobase (.inl (by omega)), if_neg (not_not.mpr rfl)]
      by_cases halnum : isAlnum a
      · rw [if_pos ⟨halnum, hlt.mpr ha⟩]
        exact .inl ⟨a, rfl, hostLetters_alnum halnum⟩
      · rw [if_neg fun h => halnum h.1]
        refine .inr ⟨rfl, 0, hostLetters_other (Bool.not_eq_true _ ▸ halnum) ?_⟩
        rintro rfl
        exact absurd ha (by decide)
  | @two a b cp ha hb hcp' hleast =>
      have hval : c.val = (a &&& 0x1F).toUInt32 <<< 6 ||| (b &&& 0x3F).toUInt32 :=
        UInt32.toNat_inj.mp (by rw [toNat_two_bytes, hcp, hcp'])
      have hbase := @latin1Base_two_bytes a b ha
      rw [← hval] at hbase
      rw [charBase, if_neg fun h => by have := hlt.mp h.2; omega, hbase, List.cons_append,
        List.cons_append, List.nil_append,
        hostLetters_two_bytes ha ((continuation b).mpr hb)]
      by_cases hlead : a = 0xC3
      · by_cases hnone : accentBase b = 0
        · rw [if_pos hlead, if_neg (not_not.mpr hnone), if_neg fun h => h.2 hnone]
          exact .inr ⟨rfl, 1, rfl⟩
        · rw [if_pos hlead, if_pos hnone, if_pos ⟨hlead, hnone⟩]
          exact .inl ⟨_, rfl, rfl⟩
      · rw [if_neg hlead, if_neg (not_not.mpr rfl), if_neg fun h => hlead h.1]
        exact .inr ⟨rfl, 1, rfl⟩
  | @three a b d cp ha hb hd hcp' hleast hscalar =>
      rw [charBase, if_neg fun h => by have := hlt.mp h.2; omega, hnobase (.inr (by omega)),
        if_neg (not_not.mpr rfl)]
      refine .inr ⟨rfl, 2, ?_⟩
      rw [List.cons_append, List.cons_append, List.cons_append, List.nil_append,
        hostLetters_other (by rw [← Bool.not_eq_true, isAlnum_iff]; omega)
          (by rintro rfl; exact absurd ha.1 (by decide)),
        hostLetters_continuation ((continuation b).mpr hb),
        hostLetters_continuation ((continuation d).mpr hd)]
      rfl
  | @four a b d e cp ha hb hd he hcp' hleast hscalar =>
      rw [charBase, if_neg fun h => by have := hlt.mp h.2; omega, hnobase (.inr (by omega)),
        if_neg (not_not.mpr rfl)]
      refine .inr ⟨rfl, 3, ?_⟩
      rw [List.cons_append, List.cons_append, List.cons_append, List.cons_append, List.nil_append,
        hostLetters_other (by rw [← Bool.not_eq_true, isAlnum_iff]; omega)
          (by rintro rfl; exact absurd ha.1 (by decide)),
        hostLetters_continuation ((continuation b).mpr hb),
        hostLetters_continuation ((continuation d).mpr hd),
        hostLetters_continuation ((continuation e).mpr he)]
      rfl

/-- The text of characters in UTF-8 is that of their base letters. -/
lemma hostText_utf8Encode (chars : List Char) (started pending : Bool) :
    hostText started pending (hostLetters (utf8Encode chars))
      = hostText started pending (chars.map charBase) := by
  induction chars generalizing started pending with
  | nil => rfl
  | cons c chars ih =>
      rw [utf8Encode_cons, List.map_cons]
      rcases hostLetters_encodeChar c (utf8Encode chars) with ⟨b, hb, heq⟩ | ⟨hb, k, heq⟩
      · rw [heq, hb, hostText_some, hostText_some, ih]
      · rw [heq, hb, List.cons_append, hostText_none, hostText_replicate, hostText_none, ih]

end Characters

/-! ### Every name built -/

/-- **Whatever the friendly name, the name built is legal and faithful.** Nothing behind the
terminator is read; a friendly name with letters or digits gives these, with their accents
taken off and one hyphen for each run of other bytes between them, cut at the limit without
a hyphen at its end. In UTF-8 the letters are those of its characters. -/
theorem dhcp_hostname_legal (friendly : Option CString) (mac : Fin 6 → UInt8) (outLen : ℕ)
    (hout : dhcpHostnameMax + 1 ≤ outLen) :
    ∃ name, dhcpHostnameBuild friendly mac outLen = some (name ++ [0]) ∧ LegalHostName name ∧
      ((∃ c, some c ∈ hostLetters (friendly.getD CString.empty).bytes) →
        name <+: hostName (hostLetters (friendly.getD CString.empty).bytes) ∧
        name = ((hostName (hostLetters (friendly.getD CString.empty).bytes)).take
          dhcpHostnameMax).rdropWhile (· == hyphen)) ∧
      ∀ chars, (friendly.getD CString.empty).bytes = utf8Encode chars →
        hostName (hostLetters (friendly.getD CString.empty).bytes) =
          hostName (chars.map charBase) := by
  rw [dhcpHostnameBuild]
  generalize friendly.getD CString.empty = s
  have hcap : (if outLen - 1 < dhcpHostnameMax then outLen - 1 else dhcpHostnameMax)
      = dhcpHostnameMax := if_neg (by omega)
  have hletters : ∀ c, some c ∈ hostLetters s.bytes → isAlnum c = true :=
    fun c hc => isAlnum_of_mem_hostLetters hc
  have hutf8 : ∀ chars, s.bytes = utf8Encode chars →
      hostName (hostLetters s.bytes) = hostName (chars.map charBase) := by
    rintro chars hbytes
    rw [hbytes, ← hostText_eq_hostName, ← hostText_eq_hostName, hostText_utf8Encode]
  have hloop := dhcpHostnameLoop_spec s.length 0 [] false rfl (Nat.zero_le _)
    (Nat.zero_le dhcpHostnameMax) (by simp)
  rw [List.nil_append, List.drop_zero, decide_eq_false (by simp), hostText_eq_hostName] at hloop
  rw [hcap, hloop, Option.map_some]
  rcases @hostText_cases (hostLetters s.bytes) false with ⟨hnil, hnone⟩ | ⟨c, -, hc, -⟩
  · rw [hostText_eq_hostName] at hnil
    have hlength : (defaultHostname mac).length ≤ outLen - 1 :=
      (legalHostName_default mac).length_le.trans (by omega)
    refine ⟨defaultHostname mac, ?_, legalHostName_default mac,
      fun ⟨c, hc⟩ => absurd hc (hnone c), hutf8⟩
    rw [hnil, List.take_nil, List.rdropWhile_nil, if_pos List.length_nil,
      List.take_of_length_le hlength]
  · have hlegal := legalHostName_cut hletters hc
    refine ⟨_, ?_, hlegal, fun _ =>
      ⟨(List.rdropWhile_prefix _ _).trans (List.take_prefix _ _), rfl⟩, hutf8⟩
    rw [if_neg fun h => hlegal.nonempty (List.length_eq_zero_iff.mp h)]

/-- A friendly name with an accent. -/
def chaletName : CString :=
  .ofBytes [0x43, 0x68, 0xC3, 0xA2, 0x74, 0x20, 0x23, 0x32] (by decide)

/-- A buffer of the least size for it. -/
theorem dhcp_hostname_legal_chalet :
    ∃ name, dhcpHostnameBuild (some chaletName) (fun _ => 0x0A) 33 = some (name ++ [0]) ∧
      LegalHostName name := by
  obtain ⟨name, hname, hlegal, -⟩ := dhcp_hostname_legal (some chaletName) (fun _ => 0x0A) 33
    (by decide)
  exact ⟨name, hname, hlegal⟩

end ArcticController

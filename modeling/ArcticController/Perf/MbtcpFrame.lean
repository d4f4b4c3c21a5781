/-
Modbus TCP frames of the external sensors (`mbtcp_frame.cpp`).

* `buildRead`: a request to read registers;
* `frameLength`, `parseRead`: the length that a response declares and what it says, read from
  memory of which only some bytes may be read;
* `readResponse`: the response that a request asks for;
* `lengthOf`, `replyOf`: the same from bytes that are all there, and `parseRead_eq`, which bytes
  a response is read from;
* `response_parsed`: every response, as it comes in.
-/
import Mathlib.Data.List.GetD
import ArcticController.Base.BigEndian

namespace ArcticController

namespace Mbtcp

def kFcReadHolding : UInt8 := 0x03
def kFcReadInput : UInt8 := 0x04
def kMaxReadCount : UInt16 := 125
/-- The header, with the unit. -/
def kHeaderLen : ℕ := 7
def kMaxResponseLen : ℕ := kHeaderLen + 2 + 2 * kMaxReadCount.toNat

def buildRead (transaction : UInt16) (unit fc : UInt8) (start count : UInt16) :
    Option (List UInt8) :=
  if fc ≠ kFcReadHolding ∧ fc ≠ kFcReadInput then none
  else if count = 0 ∨ kMaxReadCount < count then none
  else if 0xFFFF < start.toNat + count.toNat - 1 then none
  else
    some [(transaction >>> 8).toUInt8, transaction.toUInt8, 0, 0, 0, 6, unit, fc,
      (start >>> 8).toUInt8, start.toUInt8, (count >>> 8).toUInt8, count.toUInt8]

inductive Parse where
  | ok
  | incomplete
  | badProtocol
  | wrongTransaction
  | wrongUnit
  | wrongFunction
  | badLength
  | exception
deriving DecidableEq, Repr

/-- The outcome, with the registers and the exception code that it has written. -/
structure Reply where
  parse : Parse
  regs : List UInt16 := []
  exceptionCode : Option UInt8 := none
deriving DecidableEq, Repr

/-- The word at a position, if it may be read. -/
def wordAt (mem : List UInt8) (pos : ℕ) : Option UInt16 := do
  let hi ← mem[pos]?
  let lo ← mem[pos + 1]?
  return word16 hi lo

def frameLength (mem : List UInt8) (len : ℕ) : Option ℕ :=
  if len < 6 then some 0
  else do
    let follow ← wordAt mem 4
    return if follow.toNat < 3 ∨ kMaxResponseLen - 6 < follow.toNat then 0 else 6 + follow.toNat

/-- The content of a response of the wanted transaction and unit. -/
def parseContent (mem : List UInt8) (total : ℕ) (fc : UInt8) (count : UInt16) : Option Reply := do
  let rfc ← mem[7]?
  if rfc = fc ||| 0x80 then
    if total ≠ kHeaderLen + 2 then return { parse := .badLength }
    else
      let code ← mem[8]?
      return { parse := .exception, exceptionCode := some code }
  else if rfc ≠ fc then return { parse := .wrongFunction }
  else
    let bytes ← mem[8]?
    if bytes.toNat ≠ 2 * count.toNat ∨ total ≠ kHeaderLen + 2 + bytes.toNat then
      return { parse := .badLength }
    else
      let regs ← (List.range count.toNat).mapM fun i => wordAt mem (9 + 2 * i)
      return { parse := .ok, regs }

/-- `none` when a byte is read that may not be. -/
def parseRead (mem : List UInt8) (len : ℕ) (transaction : UInt16) (unit fc : UInt8)
    (count : UInt16) : Option Reply := do
  let total ← frameLength mem len
  if len < 6 then return { parse := .incomplete }
  else
    let protocol ← wordAt mem 2
    if protocol ≠ 0 then return { parse := .badProtocol }
    else if total = 0 then return { parse := .badLength }
    else if len < total then return { parse := .incomplete }
    else
      let answered ← wordAt mem 0
      if answered ≠ transaction then return { parse := .wrongTransaction }
      else
        let answering ← mem[6]?
        if answering ≠ unit then return { parse := .wrongUnit }
        else parseContent mem total fc count

/-- The response that carries some registers. -/
def readResponse (transaction : UInt16) (unit fc : UInt8) (regs : List UInt16) : List UInt8 :=
  bytes16 transaction ++ [0, 0] ++ bytes16 (UInt16.ofNat (3 + 2 * regs.length)) ++
    [unit, fc, UInt8.ofNat (2 * regs.length)] ++ bytesOfWords regs

/-! ### From bytes that are all there -/

def wordIn (bytes : List UInt8) (pos : ℕ) : UInt16 :=
  word16 (bytes.getD pos 0) (bytes.getD (pos + 1) 0)

/-- The length that a response declares, if it may. -/
def declared (follow : UInt16) : ℕ :=
  if follow.toNat < 3 ∨ kMaxResponseLen - 6 < follow.toNat then 0 else 6 + follow.toNat

def lengthOf (bytes : List UInt8) (len : ℕ) : ℕ := if len < 6 then 0 else declared (wordIn bytes 4)

def contentOf (bytes : List UInt8) (total : ℕ) (fc : UInt8) (count : UInt16) : Reply :=
  if bytes.getD 7 0 = fc ||| 0x80 then
    if total ≠ kHeaderLen + 2 then { parse := .badLength }
    else { parse := .exception, exceptionCode := some (bytes.getD 8 0) }
  else if bytes.getD 7 0 ≠ fc then { parse := .wrongFunction }
  else if (bytes.getD 8 0).toNat ≠ 2 * count.toNat ∨
      total ≠ kHeaderLen + 2 + (bytes.getD 8 0).toNat then { parse := .badLength }
  else { parse := .ok, regs := (List.range count.toNat).map fun i => wordIn bytes (9 + 2 * i) }

def replyOf (bytes : List UInt8) (len : ℕ) (transaction : UInt16) (unit fc : UInt8)
    (count : UInt16) : Reply :=
  if len < 6 then { parse := .incomplete }
  else if wordIn bytes 2 ≠ 0 then { parse := .badProtocol }
  else if lengthOf bytes len = 0 then { parse := .badLength }
  else if len < lengthOf bytes len then { parse := .incomplete }
  else if wordIn bytes 0 ≠ transaction then { parse := .wrongTransaction }
  else if bytes.getD 6 0 ≠ unit then { parse := .wrongUnit }
  else contentOf bytes (lengthOf bytes len) fc count

/-- The first bytes may be read. -/
def Reads (mem bytes : List UInt8) (n : ℕ) : Prop := ∀ i < n, mem[i]? = some (bytes.getD i 0)

section Reading

variable {mem bytes : List UInt8} {len total n pos : ℕ} {transaction : UInt16} {unit fc : UInt8}
  {count : UInt16}

lemma Reads.wordAt (h : Reads mem bytes n) (hpos : pos + 1 < n) :
    wordAt mem pos = some (wordIn bytes pos) := by
  rw [Mbtcp.wordAt, h pos (by omega), h (pos + 1) hpos]
  rfl

lemma mapM_eq_map {α β : Type} {f : α → Option β} {g : α → β} {l : List α}
    (h : ∀ a ∈ l, f a = some (g a)) : l.mapM f = some (l.map g) := by
  induction l with
  | nil => rfl
  | cons a l ih =>
      rw [List.mapM_cons, h a List.mem_cons_self, ih fun b hb => h b (List.mem_cons_of_mem a hb)]
      rfl

lemma declared_cases (follow : UInt16) :
    declared follow = 0 ∨ (9 ≤ declared follow ∧ declared follow = 6 + follow.toNat ∧
      declared follow ≤ kMaxResponseLen) := by
  have hmax : kMaxResponseLen = 259 := rfl
  rw [declared]
  split
  · exact .inl rfl
  · exact .inr (by omega)

lemma lengthOf_cases (bytes : List UInt8) (len : ℕ) :
    lengthOf bytes len = 0 ∨ (6 ≤ len ∧ 9 ≤ lengthOf bytes len ∧
      lengthOf bytes len = 6 + (wordIn bytes 4).toNat) := by
  rw [lengthOf]
  split
  · exact .inl rfl
  · exact (declared_cases (wordIn bytes 4)).imp_right fun h => ⟨by omega, h.1, h.2.1⟩

lemma frameLength_eq (h : 6 ≤ len → Reads mem bytes 6) :
    frameLength mem len = some (lengthOf bytes len) := by
  rw [frameLength, lengthOf]
  split
  · rfl
  · rw [(h (by omega)).wordAt (by omega)]
    rfl

lemma parseContent_eq (h : Reads mem bytes total) (htotal : 9 ≤ total) :
    parseContent mem total fc count = some (contentOf bytes total fc count) := by
  have h₇ := h 7 (by omega)
  have h₈ := h 8 (by omega)
  rw [parseContent, contentOf, h₇]
  simp only [Option.bind_eq_bind, Option.bind_some, h₈, Option.pure_def]
  split
  · split <;> rfl
  · split
    · rfl
    · split
      · rfl
      · rename_i hlengths
        rw [mapM_eq_map (g := fun i => wordIn bytes (9 + 2 * i))]
        · rfl
        · intro i hi
          refine h.wordAt ?_
          rw [not_or, not_not, not_not, kHeaderLen] at hlengths
          have hcount := List.mem_range.mp hi
          omega

/-- A response is read from its own bytes, and from the six of its header. -/
lemma parseRead_eq (hheader : 6 ≤ len → Reads mem bytes 6)
    (hframe : lengthOf bytes len ≤ len → Reads mem bytes (lengthOf bytes len)) :
    parseRead mem len transaction unit fc count =
      some (replyOf bytes len transaction unit fc count) := by
  rw [parseRead, replyOf, frameLength_eq hheader]
  simp only [Option.bind_eq_bind, Option.bind_some, Option.pure_def]
  split
  · rfl
  · rename_i hlen
    have h := hheader (by omega)
    rw [h.wordAt (by omega), h.wordAt (by omega)]
    simp only [Option.bind_some]
    split
    · rfl
    · split
      · rfl
      · rename_i hzero
        have hnine : 9 ≤ lengthOf bytes len := by
          rcases lengthOf_cases bytes len with h | h
          · exact absurd h hzero
          · exact h.2.1
        split
        · rfl
        · rename_i hall
          have hreads := hframe (by omega)
          rw [hreads 6 (by omega), parseContent_eq hreads hnine]
          simp only [Option.bind_some]
          split
          · rfl
          · split <;> rfl

end Reading

/-! ### Every response -/

section Response

variable {bytes more : List UInt8} {transaction : UInt16} {unit fc : UInt8} {count : UInt16}

lemma wordIn_append {pos : ℕ} (h : pos + 1 < bytes.length) :
    wordIn (bytes ++ more) pos = wordIn bytes pos := by
  rw [wordIn, wordIn, List.getD_append _ _ _ _ (by omega), List.getD_append _ _ _ _ h]

lemma lengthOf_append (h : 6 ≤ bytes.length) :
    lengthOf (bytes ++ more) (bytes ++ more).length = lengthOf bytes bytes.length := by
  rw [lengthOf, lengthOf, if_neg (by rw [List.length_append]; omega), if_neg (by omega),
    wordIn_append (by omega)]

lemma contentOf_append {total : ℕ} (htotal : 9 ≤ total) (h : total ≤ bytes.length) :
    contentOf (bytes ++ more) total fc count = contentOf bytes total fc count := by
  rw [contentOf, contentOf, List.getD_append _ _ _ _ (by omega), List.getD_append _ _ _ _ (by omega)]
  split
  · rfl
  · split
    · rfl
    · split
      · rfl
      · rename_i hlengths
        rw [not_or, not_not, not_not, kHeaderLen] at hlengths
        refine congrArg (Reply.mk .ok · none) (List.map_congr_left fun i hi => ?_)
        have hcount := List.mem_range.mp hi
        exact wordIn_append (by omega)

/-- Once the header is there. -/
lemma replyOf_header (h : 6 ≤ bytes.length) :
    replyOf bytes bytes.length transaction unit fc count =
      if wordIn bytes 2 ≠ 0 then { parse := .badProtocol }
      else if lengthOf bytes bytes.length = 0 then { parse := .badLength }
      else if bytes.length < lengthOf bytes bytes.length then { parse := .incomplete }
      else if wordIn bytes 0 ≠ transaction then { parse := .wrongTransaction }
      else if bytes.getD 6 0 ≠ unit then { parse := .wrongUnit }
      else contentOf bytes (lengthOf bytes bytes.length) fc count := by
  rw [replyOf, if_neg (not_lt.mpr h)]

/-- What has been said of the bytes that are there stays when more of them come. -/
lemma replyOf_append
    (h : (replyOf bytes bytes.length transaction unit fc count).parse ≠ .incomplete) :
    replyOf (bytes ++ more) (bytes ++ more).length transaction unit fc count =
      replyOf bytes bytes.length transaction unit fc count := by
  have hsix : 6 ≤ bytes.length := by
    by_contra hshort
    rw [replyOf, if_pos (not_le.mp hshort)] at h
    exact h rfl
  have hmore : bytes.length ≤ (bytes ++ more).length := by
    rw [List.length_append]
    omega
  have hprotocol : wordIn (bytes ++ more) 2 = wordIn bytes 2 := wordIn_append (by omega)
  rw [replyOf_header (hsix.trans hmore), hprotocol, lengthOf_append hsix]
  rw [replyOf_header hsix] at h ⊢
  by_cases hbad : wordIn bytes 2 ≠ 0
  · rw [if_pos hbad, if_pos hbad]
  rw [if_neg hbad] at h ⊢
  rw [if_neg hbad]
  by_cases hzero : lengthOf bytes bytes.length = 0
  · rw [if_pos hzero, if_pos hzero]
  rw [if_neg hzero] at h ⊢
  rw [if_neg hzero]
  have hall : ¬ bytes.length < lengthOf bytes bytes.length := by
    intro hshort
    rw [if_pos hshort] at h
    exact h rfl
  have hnine : 9 ≤ lengthOf bytes bytes.length :=
    ((lengthOf_cases bytes bytes.length).resolve_left hzero).2.1
  have hall' : ¬ (bytes ++ more).length < lengthOf bytes bytes.length := by omega
  have hword : wordIn (bytes ++ more) 0 = wordIn bytes 0 := wordIn_append (by omega)
  rw [if_neg hall, if_neg hall', hword, List.getD_append _ _ _ _ (by omega),
    contentOf_append hnine (by omega)]

/-- A response that is there to its declared length is not incomplete. -/
lemma replyOf_complete (hzero : lengthOf bytes bytes.length ≠ 0)
    (hall : lengthOf bytes bytes.length ≤ bytes.length) :
    (replyOf bytes bytes.length transaction unit fc count).parse ≠ .incomplete := by
  have hsix : 6 ≤ bytes.length := (lengthOf_cases bytes bytes.length).resolve_left hzero |>.1
  rw [replyOf_header hsix]
  by_cases hbad : wordIn bytes 2 ≠ 0
  · rw [if_pos hbad]
    nofun
  rw [if_neg hbad, if_neg hzero, if_neg (not_lt.mpr hall)]
  split
  · nofun
  · split
    · nofun
    · rw [contentOf]
      split
      · split <;> nofun
      · split
        · nofun
        · split <;> nofun

/-- Registers are written only with Ok, as many as were asked for. -/
lemma length_regs_replyOf (bytes : List UInt8) :
    (replyOf bytes bytes.length transaction unit fc count).regs.length ≤ count.toNat := by
  rw [replyOf]
  repeat' split
  all_goals first | exact Nat.zero_le _ | skip
  rw [contentOf]
  repeat' split
  all_goals first | exact Nat.zero_le _ | skip
  rw [List.length_map, List.length_range]

/-- The registers from a position on. -/
lemma wordsOf_drop (n : ℕ) {pos : ℕ} (bytes : List UInt8) (h : pos + 2 * n ≤ bytes.length) :
    (List.range n).map (fun i => wordIn bytes (pos + 2 * i)) = wordsOf n (bytes.drop pos) := by
  induction n generalizing pos with
  | zero =>
      cases bytes.drop pos <;> rfl
  | succ n ih =>
      have hdrop : bytes.drop pos = bytes.getD pos 0 :: bytes.getD (pos + 1) 0 :: bytes.drop (pos + 2) := by
        rw [List.drop_eq_getElem_cons (by omega), List.drop_eq_getElem_cons (by omega),
          List.getD_eq_getElem _ _ (by omega), List.getD_eq_getElem _ _ (by omega)]
      rw [hdrop, wordsOf, ← ih (by omega), List.range_succ_eq_map, List.map_cons, List.map_map]
      refine congrArg₂ List.cons rfl (List.map_congr_left fun i _ => ?_)
      rw [Function.comp_apply, Nat.succ_eq_add_one]
      congr 1
      omega

/-- The fields of a response that is taken for the answer. -/
structure Answers (bytes : List UInt8) (transaction : UInt16) (unit fc : UInt8) (count : UInt16) :
    Prop where
  complete : 9 + 2 * count.toNat ≤ bytes.length
  transaction : wordIn bytes 0 = transaction
  protocol : wordIn bytes 2 = 0
  length : (wordIn bytes 4).toNat = 3 + 2 * count.toNat
  unit : bytes.getD 6 0 = unit
  function : bytes.getD 7 0 = fc
  byteCount : (bytes.getD 8 0).toNat = 2 * count.toNat

lemma answers_of_ok
    (h : (replyOf bytes bytes.length transaction unit fc count).parse = .ok) :
    Answers bytes transaction unit fc count ∧
      replyOf bytes bytes.length transaction unit fc count =
        { parse := .ok, regs := wordsOf count.toNat (bytes.drop 9) } := by
  have hsix : 6 ≤ bytes.length := by
    by_contra hshort
    rw [replyOf, if_pos (not_le.mp hshort)] at h
    cases h
  rw [replyOf_header hsix] at h ⊢
  by_cases hbad : wordIn bytes 2 ≠ 0
  · rw [if_pos hbad] at h
    cases h
  by_cases hzero : lengthOf bytes bytes.length = 0
  · rw [if_neg hbad, if_pos hzero] at h
    cases h
  by_cases hshort : bytes.length < lengthOf bytes bytes.length
  · rw [if_neg hbad, if_neg hzero, if_pos hshort] at h
    cases h
  by_cases hother : wordIn bytes 0 ≠ transaction
  · rw [if_neg hbad, if_neg hzero, if_neg hshort, if_pos hother] at h
    cases h
  by_cases hunit : bytes.getD 6 0 ≠ unit
  · rw [if_neg hbad, if_neg hzero, if_neg hshort, if_neg hother, if_pos hunit] at h
    cases h
  rw [if_neg hbad, if_neg hzero, if_neg hshort, if_neg hother, if_neg hunit] at h ⊢
  obtain ⟨-, -, hlength⟩ := (lengthOf_cases bytes bytes.length).resolve_left hzero
  rw [contentOf] at h ⊢
  by_cases hexception : bytes.getD 7 0 = fc ||| 0x80
  · rw [if_pos hexception] at h
    split at h <;> cases h
  by_cases hfunction : bytes.getD 7 0 ≠ fc
  · rw [if_neg hexception, if_pos hfunction] at h
    cases h
  by_cases hlengths : (bytes.getD 8 0).toNat ≠ 2 * count.toNat ∨
      lengthOf bytes bytes.length ≠ kHeaderLen + 2 + (bytes.getD 8 0).toNat
  · rw [if_neg hexception, if_neg hfunction, if_pos hlengths] at h
    cases h
  rw [if_neg hexception, if_neg hfunction, if_neg hlengths]
  rw [not_or, not_not, not_not, kHeaderLen] at hlengths
  refine ⟨⟨by omega, not_not.mp hother, not_not.mp hbad, by omega, not_not.mp hunit,
    not_not.mp hfunction, hlengths.1⟩, ?_⟩
  rw [wordsOf_drop count.toNat bytes (by omega)]

/-- A function code is not that of an exception. -/
lemma Answers.ok (h : Answers bytes transaction unit fc count) (hfc : fc ≠ fc ||| 0x80)
    (hcount : count ≤ kMaxReadCount) :
    replyOf bytes bytes.length transaction unit fc count =
      { parse := .ok, regs := wordsOf count.toNat (bytes.drop 9) } := by
  have hcomplete := h.complete
  have hlength := h.length
  have hmax : count.toNat ≤ 125 := UInt16.le_iff_toNat_le.mp hcount
  have hlong : kMaxResponseLen = 259 := rfl
  have htotal : lengthOf bytes bytes.length = 9 + 2 * count.toNat := by
    rw [lengthOf, if_neg (by omega), declared, if_neg (by omega)]
    omega
  have hshort : ¬ bytes.length < lengthOf bytes bytes.length := by omega
  have hzero : lengthOf bytes bytes.length ≠ 0 := by omega
  have hlengths : ¬ ((bytes.getD 8 0).toNat ≠ 2 * count.toNat ∨
      lengthOf bytes bytes.length ≠ kHeaderLen + 2 + (bytes.getD 8 0).toNat) := by
    rw [not_or, not_not, not_not, kHeaderLen, h.byteCount, htotal]
    exact ⟨rfl, rfl⟩
  rw [replyOf_header (by omega), if_neg (not_not.mpr h.protocol), if_neg hzero, if_neg hshort,
    if_neg (not_not.mpr h.transaction), if_neg (not_not.mpr h.unit), contentOf,
    if_neg (h.function ▸ hfc), if_neg (not_not.mpr h.function), if_neg hlengths,
    wordsOf_drop count.toNat bytes (by omega)]

lemma header_eq (h : 9 ≤ bytes.length) :
    bytes = [bytes.getD 0 0, bytes.getD 1 0] ++ ([bytes.getD 2 0, bytes.getD 3 0] ++
      ([bytes.getD 4 0, bytes.getD 5 0] ++ ([bytes.getD 6 0, bytes.getD 7 0, bytes.getD 8 0] ++
        bytes.drop 9))) := by
  have hcons : ∀ i < 9, bytes.drop i = bytes.getD i 0 :: bytes.drop (i + 1) := fun i hi => by
    rw [List.drop_eq_getElem_cons (by omega), List.getD_eq_getElem _ _ (by omega)]
  calc bytes = bytes.drop 0 := rfl
    _ = _ := by
      rw [hcons 0 (by omega), hcons 1 (by omega), hcons 2 (by omega), hcons 3 (by omega),
        hcons 4 (by omega), hcons 5 (by omega), hcons 6 (by omega), hcons 7 (by omega),
        hcons 8 (by omega)]
      rfl

/-- The answers are the responses that carry as many registers as were asked for. -/
lemma answers_iff (hcount : count ≤ kMaxReadCount) :
    Answers bytes transaction unit fc count ↔ ∃ regs, regs.length = count.toNat ∧
      readResponse transaction unit fc regs <+: bytes := by
  have hmax : count.toNat ≤ 125 := UInt16.le_iff_toNat_le.mp hcount
  constructor
  · intro h
    have hcomplete := h.complete
    obtain ⟨hbytes, hlength⟩ := @bytesOfWords_wordsOf count.toNat (bytes.drop 9) (by
      rw [List.length_drop]
      omega)
    refine ⟨wordsOf count.toNat (bytes.drop 9), hlength, (bytes.drop 9).drop (2 * count.toNat), ?_⟩
    have hfollow : wordIn bytes 4 = UInt16.ofNat (3 + 2 * count.toNat) := by
      apply UInt16.toNat_inj.mp
      rw [h.length, UInt16.toNat_ofNat', Nat.mod_eq_of_lt (by omega)]
    have hcountByte : bytes.getD 8 0 = UInt8.ofNat (2 * count.toNat) := by
      apply UInt8.toNat_inj.mp
      rw [h.byteCount, UInt8.toNat_ofNat', Nat.mod_eq_of_lt (by omega)]
    have hzero : [bytes.getD 2 0, bytes.getD 3 0] = [0, 0] :=
      (bytes16_word16 _ _).symm.trans (congrArg bytes16 h.protocol)
    rw [readResponse, hlength, hbytes, ← hfollow, ← h.transaction, ← h.unit, ← h.function,
      ← hcountByte, ← hzero, wordIn, wordIn, bytes16_word16, bytes16_word16]
    simp only [List.append_assoc, List.take_append_drop]
    exact (header_eq (by omega)).symm
  · rintro ⟨regs, hlength, rest, rfl⟩
    have hbytes := length_bytesOfWords regs
    exact
      { complete := by
          simp only [readResponse, bytes16, List.length_append, List.length_cons, List.length_nil]
          omega
        transaction := word16_bytes transaction
        protocol := show word16 0 0 = 0 by decide
        length := by
          have hword : wordIn (readResponse transaction unit fc regs ++ rest) 4 =
              UInt16.ofNat (3 + 2 * regs.length) := word16_bytes _
          rw [hword, UInt16.toNat_ofNat', Nat.mod_eq_of_lt (by omega), hlength]
        unit := rfl
        function := rfl
        byteCount := by
          show (UInt8.ofNat (2 * regs.length)).toNat = 2 * count.toNat
          rw [UInt8.toNat_ofNat', Nat.mod_eq_of_lt (by omega), hlength] }

end Response

/-- **Every response, as it comes in.** The verdict on the bytes so far is read from no byte behind
the declared length; it is Ok exactly for bytes that begin with the response of as many registers
as were asked for, and these are written; a response that is complete is not incomplete; and a
verdict stays when more bytes follow. -/
theorem response_parsed (transaction : UInt16) (unit fc : UInt8) (start count : UInt16)
    (hasked : (buildRead transaction unit fc start count).isSome) (bytes : List UInt8) :
    ∃ total reply, frameLength bytes bytes.length = some total ∧
      parseRead bytes bytes.length transaction unit fc count = some reply ∧
      parseRead (bytes.take (max 6 total)) bytes.length transaction unit fc count = some reply ∧
      reply.regs.length ≤ count.toNat ∧
      (reply.parse = .ok ↔ ∃ regs, regs.length = count.toNat ∧
        readResponse transaction unit fc regs <+: bytes) ∧
      (∀ regs, regs.length = count.toNat → readResponse transaction unit fc regs <+: bytes →
        reply = { parse := .ok, regs }) ∧
      (total ≠ 0 → total ≤ bytes.length → reply.parse ≠ .incomplete) ∧
      (reply.parse ≠ .incomplete → ∀ more,
        parseRead (bytes ++ more) (bytes ++ more).length transaction unit fc count = some reply) := by
  obtain ⟨hfc, hcount⟩ : fc ≠ fc ||| 0x80 ∧ count ≤ kMaxReadCount := by
    rw [buildRead] at hasked
    split at hasked
    · cases hasked
    case isFalse hfc =>
      split at hasked
      · cases hasked
      case isFalse hcount =>
        refine ⟨?_, UInt16.not_lt.mp (not_or.mp hcount).2⟩
        rw [not_and_or, not_not, not_not] at hfc
        rcases hfc with rfl | rfl <;> decide
  have hreads : ∀ {bytes : List UInt8} {n : ℕ}, n ≤ bytes.length → Reads bytes bytes n := by
    intro bytes n hn i hi
    rw [List.getElem?_eq_getElem (hi.trans_le hn), List.getD_eq_getElem _ _ (hi.trans_le hn)]
  have hparse : ∀ bytes, parseRead bytes bytes.length transaction unit fc count =
      some (replyOf bytes bytes.length transaction unit fc count) := fun bytes =>
    parseRead_eq hreads hreads
  refine ⟨lengthOf bytes bytes.length, replyOf bytes bytes.length transaction unit fc count,
    frameLength_eq hreads, hparse bytes, ?_, length_regs_replyOf bytes, ?_, ?_, replyOf_complete,
    fun h more => (hparse _).trans (congrArg some (replyOf_append h))⟩
  · have htaken : ∀ {n : ℕ}, n ≤ bytes.length → n ≤ max 6 (lengthOf bytes bytes.length) →
        Reads (bytes.take (max 6 (lengthOf bytes bytes.length))) bytes n := by
      intro n hn hle i hi
      rw [List.getElem?_take_of_lt (hi.trans_le hle)]
      exact hreads hn i hi
    exact parseRead_eq (fun h => htaken h (le_max_left _ _)) fun h => htaken h (le_max_right _ _)
  · rw [← answers_iff hcount]
    exact ⟨fun h => (answers_of_ok h).1, fun h => congrArg Reply.parse (h.ok hfc hcount)⟩
  · intro regs hlength hprefix
    have hanswers := (answers_iff hcount).mpr ⟨regs, hlength, hprefix⟩
    obtain ⟨rest, rfl⟩ := hprefix
    rw [hanswers.ok hfc hcount]
    have hdrop : (readResponse transaction unit fc regs ++ rest).drop 9 = bytesOfWords regs ++ rest :=
      rfl
    rw [hdrop, ← hlength, wordsOf_bytesOfWords]

/-- Two registers, and what follows them. -/
theorem response_parsed_two :
    parseRead (readResponse 7 1 kFcReadInput [0x0102, 0xFFFE] ++ [9]) 14 7 1 kFcReadInput 2 =
      some { parse := .ok, regs := [0x0102, 0xFFFE] } := by
  obtain ⟨-, reply, -, hparse, -, -, -, hok, -, hstays⟩ :=
    response_parsed 7 1 kFcReadInput 100 2 (by decide) (readResponse 7 1 kFcReadInput [0x0102, 0xFFFE])
  obtain rfl := hok [0x0102, 0xFFFE] (by decide) (List.prefix_refl _)
  exact hstays nofun [9]

end Mbtcp

end ArcticController

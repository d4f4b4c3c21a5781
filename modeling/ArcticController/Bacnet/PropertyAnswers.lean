/-
What a frame answers, apart from the array the results are written to.

* `SameUpTo`: two buffers with the same first bytes; the readers look at no others;
* `PropertyAnswer`: one result of a frame, its value as it stands there, and `store`,
  what becomes of an entry it is written to;
* `propertyAnswer`, `resultAnswers`, `objectAnswers`, `multipleAnswers`: the results of
  an answer to ReadPropertyMultiple;
* `propertyTlv`: the value of an answer to ReadProperty;
* `parseReadPropertyMultipleAck_eq`, `parseReadPropertyAck_eq`: the parsers write these
  results, one over each entry.
-/
import ArcticController.Bacnet.BacnetFrame

namespace ArcticController

namespace Bacnet

/-! ### Readers look at no byte behind the frame -/

/-- The same first `len` bytes. -/
def SameUpTo (len : ℕ) (buf buf' : List UInt8) : Prop := ∀ i < len, byteAt buf i = byteAt buf' i

section Same

variable {len len' pos n : ℕ} {buf buf' : List UInt8}

lemma SameUpTo.mono (h : SameUpTo len buf buf') (hle : len' ≤ len) : SameUpTo len' buf buf' :=
  fun i hi => h i (by omega)

/-- A frame written to the beginning of a buffer. -/
lemma sameUpTo_append (frame rest : List UInt8) : SameUpTo frame.length (frame ++ rest) frame :=
  fun i hi => by rw [byteAt, byteAt, List.getD_append _ _ _ _ hi]

lemma bytesAt_congr (h : SameUpTo len buf buf') (hle : pos + n ≤ len) :
    bytesAt buf pos n = bytesAt buf' pos n := by
  refine List.map_congr_left fun i hi => h _ ?_
  have := List.mem_range.mp hi
  omega

lemma decodeTagLen_congr (h : SameUpTo len buf buf') (pos : ℕ) :
    decodeTagLen buf len pos = decodeTagLen buf' len pos := by
  rw [decodeTagLen, decodeTagLen]
  by_cases hpos : len ≤ pos
  · rw [if_pos hpos, if_pos hpos]
  · rw [if_neg hpos, if_neg hpos, h pos (by omega)]
    by_cases hnext : len ≤ pos + 1
    · simp only [hnext, if_true]
    · rw [h (pos + 1) (by omega)]

/-- A tag lies behind the position, and what it announces within the buffer. -/
lemma decodeTagLen_le {t : Tag} (h : decodeTagLen buf len pos = some t) :
    pos < t.pos ∧ t.pos + t.valueLen ≤ len := by
  rw [decodeTagLen] at h
  by_cases hpos : len ≤ pos
  · rw [if_pos hpos] at h
    cases h
  · rw [if_neg hpos] at h
    dsimp only at h
    split_ifs at h <;> cases h <;> constructor <;> dsimp only <;> omega

lemma readContextUint_congr (h : SameUpTo len buf buf') (pos : ℕ) (wanted : UInt8) :
    readContextUint buf len pos wanted = readContextUint buf' len pos wanted := by
  rw [readContextUint, readContextUint, ← decodeTagLen_congr h]
  cases htag : decodeTagLen buf len pos with
  | none => rfl
  | some t =>
      dsimp only
      rw [bytesAt_congr h (decodeTagLen_le htag).2]

lemma readContextUint_le {wanted : UInt8} {v : UInt32} {pos' : ℕ}
    (h : readContextUint buf len pos wanted = some (v, pos')) : pos < pos' ∧ pos' ≤ len := by
  rw [readContextUint] at h
  cases htag : decodeTagLen buf len pos with
  | none =>
      rw [htag] at h
      cases h
  | some t =>
      have hle := decodeTagLen_le htag
      rw [htag] at h
      dsimp only at h
      split at h
      · cases h
      · cases h
        omega

lemma readContextObject_congr (h : SameUpTo len buf buf') (pos : ℕ) (wanted : UInt8) :
    readContextObject buf len pos wanted = readContextObject buf' len pos wanted := by
  rw [readContextObject, readContextObject, readContextUint_congr h]

lemma appTlv_congr (h : SameUpTo len buf buf') (pos : ℕ) :
    appTlv buf len pos = appTlv buf' len pos := by
  rw [appTlv, appTlv, ← decodeTagLen_congr h]
  cases htag : decodeTagLen buf len pos with
  | none => rfl
  | some t =>
      dsimp only
      rw [bytesAt_congr h (decodeTagLen_le htag).2]

lemma appTlv_le {t : Tlv} {pos' : ℕ} (h : appTlv buf len pos = some (t, pos')) :
    pos < pos' ∧ pos' ≤ len := by
  rw [appTlv] at h
  cases htag : decodeTagLen buf len pos with
  | none =>
      rw [htag] at h
      cases h
  | some tag =>
      have hle := decodeTagLen_le htag
      rw [htag] at h
      dsimp only at h
      split at h
      · cases h
      · cases h
        omega

lemma frameLength_congr (h : SameUpTo len buf buf') (hlen : 7 ≤ len) :
    frameLength buf = frameLength buf' := by
  rw [frameLength, frameLength, h 2 (by omega), h 3 (by omega)]

lemma readEnum_congr (h : SameUpTo len buf buf') (p : ℕ) :
    readEnum buf len p = readEnum buf' len p := by
  have hat : ∀ p n : ℕ, (if n == 0 || decide (4 < n) || decide (len < p + n) then
        ((none : Option UInt8), p) else (some (readBe (bytesAt buf p n)).toUInt8, p + n))
      = if n == 0 || decide (4 < n) || decide (len < p + n) then (none, p)
        else (some (readBe (bytesAt buf' p n)).toUInt8, p + n) := by
    intro p n
    by_cases hout : len < p + n
    · simp [hout]
    · rw [bytesAt_congr h (by omega)]
  by_cases hp : len ≤ p
  · simp only [readEnum, hp, decide_true, Bool.true_or, if_true]
  · by_cases hnext : len ≤ p + 1
    · simp only [readEnum, h p (by omega), hnext, if_true, hat]
    · simp only [readEnum, h p (by omega), h (p + 1) (by omega), hat]

lemma readErrorInfo_congr (h : SameUpTo len buf buf') :
    readErrorInfo buf len = readErrorInfo buf' len := by
  simp only [readErrorInfo, readEnum_congr h]

lemma parseHeader_congr (h : SameUpTo len buf buf') (invoke service : UInt8) :
    parseHeader buf len invoke service = parseHeader buf' len invoke service := by
  by_cases hlen : len < 7
  · simp only [parseHeader, hlen, if_true]
  · have htotal := frameLength_congr h (by omega)
    by_cases hle : len < frameLength buf'
    · simp only [parseHeader, htotal, hle, h 0 (by omega), h 1 (by omega), if_true]
    · by_cases hnine : frameLength buf' < 9
      · simp only [parseHeader, htotal, hnine, if_true, h 0 (by omega), h 1 (by omega),
          h 4 (by omega), h 5 (by omega), h 6 (by omega)]
      · have herr := readErrorInfo_congr (h.mono (not_lt.mp hle))
        simp only [parseHeader, htotal, herr, h 0 (by omega), h 1 (by omega), h 4 (by omega),
          h 5 (by omega), h 6 (by omega), h 7 (by omega), h 8 (by omega)]

/-- A frame whose header is in order lies within the buffer. -/
lemma parseHeader_ok {invoke service : UInt8} {err : ErrorInfo}
    (h : parseHeader buf len invoke service = (.ok, err)) : 7 ≤ len ∧ frameLength buf ≤ len := by
  by_cases hlen : len < 7
  · rw [parseHeader, if_pos hlen] at h
    cases h
  · by_cases hle : len < frameLength buf
    · rw [parseHeader, if_neg hlen, if_pos hle] at h
      split at h <;> cases h
    · omega

lemma frameMatchesObject_congr (h : SameUpTo len buf buf') (invoke service : UInt8)
    (expected : ObjectId) : frameMatchesObject buf len invoke service expected
      = frameMatchesObject buf' len invoke service expected := by
  rw [frameMatchesObject, frameMatchesObject, ← parseHeader_congr h]
  rcases hheader : parseHeader buf len invoke service with ⟨p, err⟩
  cases p with
  | ok =>
      obtain ⟨hlen, htotal⟩ := parseHeader_ok hheader
      have htotal' := frameLength_congr h hlen
      dsimp only
      rw [← htotal', readContextObject_congr (h.mono htotal)]
  | _ => rfl

end Same

/-! ### Results -/

inductive Answer where
  | error (errorClass errorCode : UInt8)
  | value (t : Tlv)
deriving DecidableEq, Repr

/-- One result of an answer. -/
structure PropertyAnswer where
  object : ObjectId
  property : UInt32
  answer : Answer
deriving DecidableEq, Repr

def Answer.isValue : Answer → Bool
  | .error _ _ => false
  | .value _ => true

/-- What becomes of the entry a result is written to. -/
def PropertyAnswer.store (a : PropertyAnswer) (pv : PropertyValue) : PropertyValue :=
  match a.answer with
  | .error cls code => { pv with
      object := a.object
      property := a.property
      error := true
      errorInfo := { pv.errorInfo with errorClass := cls, errorCode := code } }
  | .value t => { pv with object := a.object, property := a.property, value := t.decode.2 }

/-- The answer in the brackets that `pos` is at, and the position behind them. -/
def answerAt (buf : List UInt8) (len pos : ℕ) : Option (Answer × ℕ) :=
  if len ≤ pos then none
  else if isOpen (byteAt buf pos) 5 then
    (readPropertyError buf len (pos + 1)).map fun (cls, code, pos) => (.error cls code, pos)
  else if isOpen (byteAt buf pos) 4 then
    match appTlv buf len (pos + 1) with
    | none => none
    | some (t, pos) =>
        if t.decode.1 && (pos < len && isClose (byteAt buf pos) 4) then some (.value t, pos + 1)
        else none
  else none

def propertyAnswer (buf : List UInt8) (len pos : ℕ) (object : ObjectId) :
    Option (PropertyAnswer × ℕ) :=
  match readContextUint buf len pos 2 with
  | none => none
  | some (prop, pos) =>
      (answerAt buf len pos).map fun (answer, pos) => (⟨object, prop, answer⟩, pos)

/-- The results of one object up to its closing tag, if there are at most `room`. -/
def resultAnswers (buf : List UInt8) (total : ℕ) (object : ObjectId) :
    ℕ → ℕ → ℕ → Except Parse (List PropertyAnswer × ℕ)
  | 0, _, _ => .error .badFrame
  | fuel + 1, pos, room =>
      if pos < total && !isClose (byteAt buf pos) 1 then
        if 0 < room then
          match propertyAnswer buf total pos object with
          | none => .error .badFrame
          | some (a, pos) =>
              match resultAnswers buf total object fuel pos (room - 1) with
              | .error p => .error p
              | .ok (answers, pos) => .ok (a :: answers, pos)
        else .error .unsupported
      else if pos < total then .ok ([], pos + 1)
      else .error .badFrame

/-- The results of all objects. -/
def objectAnswers (buf : List UInt8) (total : ℕ) (expected : Option ObjectId) :
    ℕ → ℕ → ℕ → Except Parse (List PropertyAnswer)
  | 0, _, _ => .error .badFrame
  | fuel + 1, pos, room =>
      if pos < total then
        match objectAt buf total pos expected with
        | none => .error .badFrame
        | some (object, pos) =>
            match resultAnswers buf total object (total + 1) pos room with
            | .error p => .error p
            | .ok (answers, pos) =>
                match objectAnswers buf total expected fuel pos (room - answers.length) with
                | .error p => .error p
                | .ok rest => .ok (answers ++ rest)
      else .ok []

/-- The results of an answer to ReadPropertyMultiple, or why there are none. -/
def multipleAnswers (buf : List UInt8) (len : ℕ) (invoke : UInt8) (cap : ℕ)
    (expected : Option ObjectId) : Except (Parse × ErrorInfo) (List PropertyAnswer) :=
  match parseHeader buf len invoke kServiceReadPropertyMultiple with
  | (.ok, err) =>
      match objectAnswers buf (frameLength buf) expected (frameLength buf + 1) headerEnd cap with
      | .error p => .error (p, err)
      | .ok answers => .ok answers
  | (p, err) => .error (p, err)

section Same

variable {len pos : ℕ} {buf buf' : List UInt8}

lemma readPropertyError_congr (h : SameUpTo len buf buf') (pos : ℕ) :
    readPropertyError buf len pos = readPropertyError buf' len pos := by
  rw [readPropertyError, readPropertyError, ← readContextUint_congr h]
  cases readContextUint buf len pos 0 with
  | none => rfl
  | some r =>
      dsimp only
      rw [← readContextUint_congr h]
      cases readContextUint buf len r.2 1 with
      | none => rfl
      | some r' =>
          dsimp only
          by_cases hpos : r'.2 < len
          · rw [h _ hpos]
          · simp only [hpos, decide_false, Bool.false_and]

lemma answerAt_congr (h : SameUpTo len buf buf') (pos : ℕ) :
    answerAt buf len pos = answerAt buf' len pos := by
  rw [answerAt, answerAt]
  by_cases hpos : len ≤ pos
  · rw [if_pos hpos, if_pos hpos]
  · rw [if_neg hpos, if_neg hpos, h pos (by omega), readPropertyError_congr h, appTlv_congr h]
    cases appTlv buf' len (pos + 1) with
    | none => rfl
    | some r =>
        dsimp only
        by_cases hend : r.2 < len
        · rw [h _ hend]
        · simp only [hend, decide_false, Bool.false_and, Bool.and_false]

lemma propertyAnswer_congr (h : SameUpTo len buf buf') (pos : ℕ) (object : ObjectId) :
    propertyAnswer buf len pos object = propertyAnswer buf' len pos object := by
  rw [propertyAnswer, propertyAnswer, readContextUint_congr h]
  simp only [answerAt_congr h]

lemma resultAnswers_congr (h : SameUpTo len buf buf') (object : ObjectId) (fuel pos room : ℕ) :
    resultAnswers buf len object fuel pos room = resultAnswers buf' len object fuel pos room := by
  induction fuel generalizing pos room with
  | zero => rfl
  | succ fuel ih =>
      rw [resultAnswers, resultAnswers]
      by_cases hpos : pos < len
      · rw [h _ hpos, propertyAnswer_congr h]
        simp only [ih]
      · simp only [hpos, decide_false, Bool.false_and, Bool.false_eq_true, if_false]

lemma objectAt_congr (h : SameUpTo len buf buf') (pos : ℕ) (expected : Option ObjectId) :
    objectAt buf len pos expected = objectAt buf' len pos expected := by
  rw [objectAt, objectAt, readContextObject_congr h]
  cases readContextObject buf' len pos 0 with
  | none => rfl
  | some r =>
      dsimp only
      by_cases hpos : r.2 < len
      · rw [h _ hpos]
      · simp only [hpos, decide_false, Bool.false_and]

lemma objectAnswers_congr (h : SameUpTo len buf buf') (expected : Option ObjectId)
    (fuel pos room : ℕ) :
    objectAnswers buf len expected fuel pos room = objectAnswers buf' len expected fuel pos room := by
  induction fuel generalizing pos room with
  | zero => rfl
  | succ fuel ih =>
      rw [objectAnswers, objectAnswers, objectAt_congr h]
      simp only [resultAnswers_congr h, ih]

lemma multipleAnswers_congr (h : SameUpTo len buf buf') (invoke : UInt8) (cap : ℕ)
    (expected : Option ObjectId) : multipleAnswers buf len invoke cap expected
      = multipleAnswers buf' len invoke cap expected := by
  rw [multipleAnswers, multipleAnswers, ← parseHeader_congr h]
  rcases hheader : parseHeader buf len invoke kServiceReadPropertyMultiple with ⟨p, err⟩
  cases p with
  | ok =>
      obtain ⟨hlen, htotal⟩ := parseHeader_ok hheader
      dsimp only
      rw [← frameLength_congr h hlen, objectAnswers_congr (h.mono htotal)]
  | _ => rfl

end Same

/-! ### Results over an array -/

/-- The results written over the entries from `count` on. -/
def storeFrom {cap : ℕ} (out : Vector PropertyValue cap) :
    ℕ → List PropertyAnswer → Vector PropertyValue cap
  | _, [] => out
  | count, a :: answers =>
      if h : count < cap then storeFrom (out.set count (a.store out[count])) (count + 1) answers
      else out

section Store

variable {cap : ℕ}

lemma storeFrom_append (out : Vector PropertyValue cap) (count : ℕ)
    (answers rest : List PropertyAnswer) (hroom : count + answers.length ≤ cap) :
    storeFrom out count (answers ++ rest)
      = storeFrom (storeFrom out count answers) (count + answers.length) rest := by
  induction answers generalizing out count with
  | nil => rfl
  | cons a answers ih =>
      rw [List.length_cons] at hroom ⊢
      have hcount : count < cap := by omega
      rw [List.cons_append, storeFrom, storeFrom, dif_pos hcount, dif_pos hcount,
        ih _ _ (by omega)]
      congr 1
      omega

/-- An entry is what its own result makes of it. -/
lemma getElem_storeFrom (out : Vector PropertyValue cap) (count : ℕ)
    (answers : List PropertyAnswer) (hroom : count + answers.length ≤ cap) {i : ℕ} (hi : i < cap) :
    (storeFrom out count answers)[i]
      = if h : count ≤ i ∧ i < count + answers.length then
          (answers.get ⟨i - count, by omega⟩).store out[i]
        else out[i] := by
  induction answers generalizing out count with
  | nil =>
      rw [dif_neg (by simp only [List.length_nil]; omega)]
      rfl
  | cons a answers ih =>
      rw [List.length_cons] at hroom
      have hcount : count < cap := by omega
      simp only [storeFrom, dif_pos hcount, List.length_cons]
      rw [ih _ _ (by omega)]
      rcases lt_trichotomy i count with hlt | rfl | hgt
      · rw [dif_neg (by omega), dif_neg (by omega), Vector.getElem_set_ne _ _ (by omega)]
      · rw [dif_neg (by omega), dif_pos (by omega), Vector.getElem_set_self]
        simp only [Nat.sub_self, List.get_eq_getElem, List.getElem_cons_zero]
      · have hnext : i - count = i - (count + 1) + 1 := by omega
        by_cases hend : i < count + (answers.length + 1)
        · rw [dif_pos (by omega), dif_pos (by omega), Vector.getElem_set_ne _ _ (by omega)]
          simp only [hnext, List.get_eq_getElem, List.getElem_cons_succ]
        · rw [dif_neg (by omega), dif_neg (by omega), Vector.getElem_set_ne _ _ (by omega)]

/-- The entries the results are written to. -/
lemma toList_storeFrom_take (out : Vector PropertyValue cap) (answers : List PropertyAnswer)
    (hroom : answers.length ≤ cap) : (storeFrom out 0 answers).toList.take answers.length
      = List.zipWith PropertyAnswer.store answers out.toList := by
  refine List.ext_getElem ?_ fun i h₁ h₂ => ?_
  · simp [hroom]
  · have hi : i < answers.length := by
      rw [List.length_take] at h₁
      omega
    rw [List.getElem_take, Vector.getElem_toList, getElem_storeFrom _ _ _ (by omega) (by omega),
      dif_pos (by omega), List.getElem_zipWith, Vector.getElem_toList, List.get_eq_getElem]
    simp only [Nat.sub_zero]

/-- A result of one property, written over `pv`. -/
lemma readPropertyResult_eq (buf : List UInt8) (len pos : ℕ) (object : ObjectId)
    (pv : PropertyValue) :
    (readPropertyResult buf len pos object pv).1 = (propertyAnswer buf len pos object).map Prod.snd ∧
      ∀ a pos', propertyAnswer buf len pos object = some (a, pos') →
        (readPropertyResult buf len pos object pv).2 = a.store pv := by
  rw [readPropertyResult, propertyAnswer]
  cases readContextUint buf len pos 2 with
  | none => exact ⟨rfl, nofun⟩
  | some r =>
      dsimp only
      rw [answerAt]
      by_cases hpos : len ≤ r.2
      · rw [if_pos hpos, if_pos hpos]
        exact ⟨rfl, nofun⟩
      · rw [if_neg hpos, if_neg hpos]
        by_cases hfive : isOpen (byteAt buf r.2) 5
        · rw [if_pos hfive, if_pos hfive]
          cases readPropertyError buf len (r.2 + 1) with
          | none => exact ⟨rfl, nofun⟩
          | some e =>
              refine ⟨rfl, fun a pos' ha => ?_⟩
              cases ha
              rfl
        · rw [if_neg hfive, if_neg hfive]
          by_cases hfour : isOpen (byteAt buf r.2) 4
          · rw [if_pos hfour, if_pos hfour, decodeAppValue]
            cases appTlv buf len (r.2 + 1) with
            | none => exact ⟨rfl, nofun⟩
            | some t =>
                dsimp only
                by_cases hknown : t.1.decode.1
                · by_cases hclose : decide (t.2 < len) && isClose (byteAt buf t.2) 4
                  · simp only [hknown, hclose, if_true, Bool.and_self]
                    refine ⟨rfl, fun a pos' ha => ?_⟩
                    cases ha
                    rfl
                  · simp only [hknown, hclose, if_true, Bool.and_false, if_false,
                      Bool.false_eq_true]
                    exact ⟨rfl, nofun⟩
                · simp only [hknown, Bool.false_and, Bool.false_eq_true, if_false]
                  exact ⟨rfl, nofun⟩
          · rw [if_neg hfour, if_neg hfour]
            exact ⟨rfl, nofun⟩

/-- The loop over the results of one object. -/
lemma readResults_eq (buf : List UInt8) (total : ℕ) (object : ObjectId) (fuel pos count : ℕ)
    (out : Vector PropertyValue cap) (hcount : count ≤ cap) :
    match resultAnswers buf total object fuel pos (cap - count) with
    | .error p => (readResults buf total object fuel pos count out).1 = .error p ∧ (p = .badFrame ∨ p = .unsupported)
    | .ok (answers, pos') => count + answers.length ≤ cap ∧
        readResults buf total object fuel pos count out
          = (.ok pos', count + answers.length, storeFrom out count answers) := by
  induction fuel generalizing pos count out with
  | zero => exact ⟨rfl, .inl rfl⟩
  | succ fuel ih =>
      rw [resultAnswers, readResults]
      by_cases hmore : decide (pos < total) && !isClose (byteAt buf pos) 1
      · rw [if_pos hmore, if_pos hmore]
        by_cases hroom : count < cap
        · rw [if_pos (by omega), dif_pos hroom]
          obtain ⟨hpos, hstore⟩ := readPropertyResult_eq buf total pos object out[count]
          rcases hread : readPropertyResult buf total pos object out[count] with ⟨_ | q, pv⟩
          · rw [hread] at hpos
            rw [Option.map_eq_none_iff.mp hpos.symm]
            exact ⟨rfl, .inl rfl⟩
          · rw [hread] at hpos
            obtain ⟨⟨a, q'⟩, ha, rfl⟩ := Option.map_eq_some_iff.mp hpos.symm
            have hpv : pv = a.store out[count] := by
              rw [← hstore a q' ha, hread]
            rw [ha]
            dsimp only
            have hnext := ih q' (count + 1) (out.set count pv) (by omega)
            rw [Nat.sub_add_eq] at hnext
            cases hrest : resultAnswers buf total object fuel q' (cap - count - 1) with
            | error p =>
                rw [hrest] at hnext
                exact hnext
            | ok r =>
                rw [hrest] at hnext
                obtain ⟨hle, heq⟩ := hnext
                refine ⟨by rw [List.length_cons]; omega, ?_⟩
                rw [heq, storeFrom, dif_pos hroom, hpv, List.length_cons, Nat.add_assoc,
                  Nat.add_comm 1]
        · rw [if_neg (by omega), dif_neg hroom]
          exact ⟨rfl, .inr rfl⟩
      · rw [if_neg hmore, if_neg hmore]
        by_cases hend : pos < total
        · rw [if_pos hend, if_pos hend]
          exact ⟨hcount, rfl⟩
        · rw [if_neg hend, if_neg hend]
          exact ⟨rfl, .inl rfl⟩

/-- A result takes at least one byte. -/
lemma propertyAnswer_lt {buf : List UInt8} {len pos pos' : ℕ} {object : ObjectId}
    {a : PropertyAnswer} (h : propertyAnswer buf len pos object = some (a, pos')) :
    pos < pos' ∧ pos' ≤ len := by
  rw [propertyAnswer] at h
  cases hprop : readContextUint buf len pos 2 with
  | none =>
      rw [hprop] at h
      cases h
  | some r =>
      have hle := readContextUint_le (v := r.1) hprop
      rw [hprop] at h
      obtain ⟨⟨answer, q⟩, hanswer, heq⟩ := Option.map_eq_some_iff.mp h
      obtain ⟨-, rfl⟩ := Prod.mk.inj heq
      suffices r.2 < q ∧ q ≤ len by omega
      rw [answerAt] at hanswer
      split_ifs at hanswer with hpos hfive hfour
      · obtain ⟨⟨cls, code, q'⟩, herror, heq'⟩ := Option.map_eq_some_iff.mp hanswer
        obtain ⟨-, rfl⟩ := Prod.mk.inj heq'
        rw [readPropertyError] at herror
        cases hcls : readContextUint buf len (r.2 + 1) 0 with
        | none =>
            rw [hcls] at herror
            cases herror
        | some c =>
            have hlec := readContextUint_le (v := c.1) hcls
            rw [hcls] at herror
            dsimp only at herror
            cases hcode : readContextUint buf len c.2 1 with
            | none =>
                rw [hcode] at herror
                cases herror
            | some d =>
                have hled := readContextUint_le (v := d.1) hcode
                rw [hcode] at herror
                dsimp only at herror
                split_ifs at herror with hclose
                cases herror
                have := (Bool.and_eq_true _ _).mp hclose
                have := of_decide_eq_true this.1
                omega
      · cases htlv : appTlv buf len (r.2 + 1) with
        | none =>
            rw [htlv] at hanswer
            cases hanswer
        | some t =>
            have hlet := appTlv_le (t := t.1) htlv
            rw [htlv] at hanswer
            dsimp only at hanswer
            split_ifs at hanswer with hclose
            cases hanswer
            have := of_decide_eq_true ((Bool.and_eq_true _ _).mp ((Bool.and_eq_true _ _).mp hclose).2).1
            omega

/-- The loop over the objects. -/
lemma readObjects_eq (buf : List UInt8) (total : ℕ) (expected : Option ObjectId)
    (fuel pos count : ℕ) (out : Vector PropertyValue cap) (hcount : count ≤ cap) :
    match objectAnswers buf total expected fuel pos (cap - count) with
    | .error p => (readObjects buf total expected fuel pos count out).1 = p ∧
        (p = .badFrame ∨ p = .unsupported)
    | .ok answers => count + answers.length ≤ cap ∧
        readObjects buf total expected fuel pos count out
          = (.ok, count + answers.length, storeFrom out count answers) := by
  induction fuel generalizing pos count out with
  | zero => exact ⟨rfl, .inl rfl⟩
  | succ fuel ih =>
      rw [objectAnswers, readObjects]
      by_cases hmore : pos < total
      · rw [if_pos hmore, if_pos hmore]
        cases objectAt buf total pos expected with
        | none => exact ⟨rfl, .inl rfl⟩
        | some r =>
            obtain ⟨object, q⟩ := r
            dsimp only
            have hresults := readResults_eq buf total object (total + 1) q count out hcount
            cases hanswers : resultAnswers buf total object (total + 1) q (cap - count) with
            | error p =>
                rw [hanswers] at hresults
                rcases hread : readResults buf total object (total + 1) q count out with ⟨r, c, o⟩
                rw [hread] at hresults
                obtain ⟨rfl, hp⟩ := hresults
                exact ⟨rfl, hp⟩
            | ok r =>
                obtain ⟨answers, q'⟩ := r
                rw [hanswers] at hresults
                obtain ⟨hle, hread⟩ := hresults
                rw [hread]
                dsimp only
                have hnext := ih q' (count + answers.length) (storeFrom out count answers) hle
                rw [Nat.sub_add_eq] at hnext
                cases hrest : objectAnswers buf total expected fuel q'
                    (cap - count - answers.length) with
                | error p =>
                    rw [hrest] at hnext
                    exact hnext
                | ok rest =>
                    rw [hrest] at hnext
                    obtain ⟨hle', heq⟩ := hnext
                    dsimp only
                    rw [List.length_append, ← Nat.add_assoc]
                    refine ⟨hle', ?_⟩
                    rw [heq, storeFrom_append _ _ _ _ hle]
      · rw [if_neg hmore, if_neg hmore]
        exact ⟨hcount, rfl⟩

/-- A refusal or an error leaves the array as it was. -/
lemma parseReadPropertyMultipleAck_refused (buf : List UInt8) (len : ℕ) (invoke : UInt8)
    (out : Vector PropertyValue cap) (expected : Option ObjectId)
    (h : (parseReadPropertyMultipleAck buf len invoke out expected).parse = .reject ∨
      (parseReadPropertyMultipleAck buf len invoke out expected).parse = .error) :
    (parseReadPropertyMultipleAck buf len invoke out expected).out = out := by
  revert h
  rw [parseReadPropertyMultipleAck]
  rcases parseHeader buf len invoke kServiceReadPropertyMultiple with ⟨p, err⟩
  cases p with
  | ok =>
      have hobjects := readObjects_eq buf (frameLength buf) expected (frameLength buf + 1) headerEnd 0
        out (Nat.zero_le _)
      dsimp only
      cases hanswers : objectAnswers buf (frameLength buf) expected (frameLength buf + 1) headerEnd
          (cap - 0) with
      | error p =>
          rw [hanswers] at hobjects
          obtain ⟨heq, hp⟩ := hobjects
          rw [heq]
          rintro (rfl | rfl) <;> simp at hp
      | ok answers =>
          rw [hanswers] at hobjects
          rw [hobjects.2]
          rintro (h | h) <;> cases h
  | _ => exact fun _ => rfl

/-- The parser reads the results of the frame and writes each over its entry. -/
theorem parseReadPropertyMultipleAck_eq (buf : List UInt8) (len : ℕ) (invoke : UInt8)
    (out : Vector PropertyValue cap) (expected : Option ObjectId) :
    match multipleAnswers buf len invoke cap expected with
    | .error (p, err) => p ≠ .ok ∧
        (parseReadPropertyMultipleAck buf len invoke out expected).parse = p ∧
        (parseReadPropertyMultipleAck buf len invoke out expected).err = err
    | .ok answers => answers.length ≤ cap ∧
        (parseReadPropertyMultipleAck buf len invoke out expected).parse = .ok ∧
        (parseReadPropertyMultipleAck buf len invoke out expected).count = answers.length ∧
        (parseReadPropertyMultipleAck buf len invoke out expected).out = storeFrom out 0 answers := by
  rw [multipleAnswers, parseReadPropertyMultipleAck]
  rcases parseHeader buf len invoke kServiceReadPropertyMultiple with ⟨p, err⟩
  cases p with
  | ok =>
      have hobjects := readObjects_eq buf (frameLength buf) expected (frameLength buf + 1) headerEnd 0
        out (Nat.zero_le _)
      rw [Nat.sub_zero] at hobjects
      dsimp only
      cases hanswers : objectAnswers buf (frameLength buf) expected (frameLength buf + 1) headerEnd
          cap with
      | error p =>
          rw [hanswers] at hobjects
          exact ⟨by rcases hobjects.2 with rfl | rfl <;> decide, hobjects.1, rfl⟩
      | ok answers =>
          rw [hanswers] at hobjects
          obtain ⟨hle, heq⟩ := hobjects
          rw [Nat.zero_add] at hle heq
          rw [heq]
          exact ⟨hle, rfl, rfl, rfl⟩
  | _ => exact ⟨by decide, rfl, rfl⟩

end Store

/-! ### The answer to ReadProperty -/

/-- The value of an answer to ReadProperty, or why there is none. -/
def propertyTlv (buf : List UInt8) (len : ℕ) (invoke : UInt8) (property : UInt32)
    (expected : Option ObjectId) : Except (Parse × ErrorInfo) Tlv :=
  match parseHeader buf len invoke kServiceReadProperty with
  | (.ok, err) =>
      match ackValueAt buf (frameLength buf) property expected with
      | .error p => .error (p, err)
      | .ok pos =>
          match appTlv buf (frameLength buf) pos with
          | none => .error (.badFrame, err)
          | some (t, pos) =>
              if t.decode.1 && (pos < frameLength buf && isClose (byteAt buf pos) 3) then .ok t
              else .error (.badFrame, err)
  | (p, err) => .error (p, err)

section Same

variable {len : ℕ} {buf buf' : List UInt8}

lemma ackValueAt_congr (h : SameUpTo len buf buf') (property : UInt32)
    (expected : Option ObjectId) :
    ackValueAt buf len property expected = ackValueAt buf' len property expected := by
  rw [ackValueAt, ackValueAt, readContextObject_congr h]
  cases readContextObject buf' len headerEnd 0 with
  | none => rfl
  | some r =>
      dsimp only
      rw [readContextUint_congr h]
      cases readContextUint buf' len r.2 1 with
      | none => rfl
      | some r' =>
          dsimp only
          have hindex : (if decide (r'.2 < len) && byteAt buf r'.2 >>> 4 == 2
                && byteAt buf r'.2 &&& 0x08 != 0 then
              (readContextUint buf len r'.2 2).map Prod.snd else some r'.2)
            = if decide (r'.2 < len) && byteAt buf' r'.2 >>> 4 == 2
                && byteAt buf' r'.2 &&& 0x08 != 0 then
              (readContextUint buf' len r'.2 2).map Prod.snd else some r'.2 := by
            by_cases hpos : r'.2 < len
            · rw [h _ hpos, readContextUint_congr h]
            · simp only [hpos, decide_false, Bool.false_and, Bool.false_eq_true, if_false]
          rw [hindex]
          generalize (if decide (r'.2 < len) && byteAt buf' r'.2 >>> 4 == 2
                && byteAt buf' r'.2 &&& 0x08 != 0 then
              (readContextUint buf' len r'.2 2).map Prod.snd else some r'.2) = index
          cases index with
          | none => rfl
          | some pos =>
              dsimp only
              by_cases hpos : pos < len
              · rw [h _ hpos]
              · simp only [hpos, decide_false, Bool.false_and]

lemma propertyTlv_congr (h : SameUpTo len buf buf') (invoke : UInt8) (property : UInt32)
    (expected : Option ObjectId) : propertyTlv buf len invoke property expected
      = propertyTlv buf' len invoke property expected := by
  rw [propertyTlv, propertyTlv, ← parseHeader_congr h]
  rcases hheader : parseHeader buf len invoke kServiceReadProperty with ⟨p, err⟩
  cases p with
  | ok =>
      obtain ⟨hlen, htotal⟩ := parseHeader_ok hheader
      have hsame := h.mono htotal
      dsimp only
      rw [← frameLength_congr h hlen, ackValueAt_congr hsame]
      cases ackValueAt buf' (frameLength buf) property expected with
      | error p => rfl
      | ok pos =>
          dsimp only
          rw [appTlv_congr hsame]
          cases appTlv buf' (frameLength buf) pos with
          | none => rfl
          | some r =>
              dsimp only
              by_cases hpos : r.2 < frameLength buf
              · rw [hsame _ hpos]
              · simp only [hpos, decide_false, Bool.false_and, Bool.and_false]
  | _ => rfl

end Same

lemma ackValueAt_error {buf : List UInt8} {total : ℕ} {property : UInt32}
    {expected : Option ObjectId} {p : Parse} (h : ackValueAt buf total property expected = .error p) :
    p ≠ .ok := by
  rw [ackValueAt] at h
  cases hobject : readContextObject buf total headerEnd 0 with
  | none =>
      rw [hobject] at h
      cases h
      decide
  | some r =>
      rw [hobject] at h
      dsimp only at h
      cases hprop : readContextUint buf total r.2 1 with
      | none =>
          rw [hprop] at h
          cases h
          decide
      | some r' =>
          rw [hprop] at h
          dsimp only at h
          generalize (if decide (r'.2 < total) && byteAt buf r'.2 >>> 4 == 2
                && byteAt buf r'.2 &&& 0x08 != 0 then
              (readContextUint buf total r'.2 2).map Prod.snd else some r'.2) = index at h
          split_ifs at h
          · cases h
            decide
          · cases h
            decide
          · cases index with
            | none =>
                cases h
                decide
            | some pos =>
                dsimp only at h
                split_ifs at h
                cases h
                decide

/-- The parser decodes the value of the frame. -/
theorem parseReadPropertyAck_eq (buf : List UInt8) (len : ℕ) (invoke : UInt8) (property : UInt32)
    (out : Value) (expected : Option ObjectId) :
    match propertyTlv buf len invoke property expected with
    | .error (p, err) => p ≠ .ok ∧
        (parseReadPropertyAck buf len invoke property out expected).1 = p ∧
        (parseReadPropertyAck buf len invoke property out expected).2.2 = err
    | .ok t => (parseReadPropertyAck buf len invoke property out expected).1 = .ok ∧
        (parseReadPropertyAck buf len invoke property out expected).2.1 = t.decode.2 := by
  rw [propertyTlv, parseReadPropertyAck]
  rcases parseHeader buf len invoke kServiceReadProperty with ⟨p, err⟩
  cases p with
  | ok =>
      dsimp only
      cases hat : ackValueAt buf (frameLength buf) property expected with
      | error p => exact ⟨ackValueAt_error hat, rfl, rfl⟩
      | ok pos =>
          dsimp only
          rw [decodeAppValue]
          cases appTlv buf (frameLength buf) pos with
          | none => exact ⟨by decide, rfl, rfl⟩
          | some r =>
              obtain ⟨t, pos⟩ := r
              dsimp only
              by_cases hknown : t.decode.1
              · by_cases hclose : decide (pos < frameLength buf) && isClose (byteAt buf pos) 3
                · simp only [hknown, hclose, if_true, Bool.and_self]
                  exact ⟨trivial, trivial⟩
                · simp only [hknown, hclose, if_true, Bool.and_false, Bool.false_eq_true, if_false]
                  exact ⟨by decide, trivial, trivial⟩
              · simp only [hknown, Bool.false_and, Bool.false_eq_true, if_false]
                exact ⟨by decide, trivial, trivial⟩
  | _ => exact ⟨by decide, rfl, rfl⟩

end Bacnet

end ArcticController

/-
The results of an answer to ReadPropertyMultiple, as bytes.

* `TaggedAnswer`, `TaggedResult`, `TaggedObject`: a value or an error, the result of one property
  and the results of one object, their tags in any form;
* `answerAt_iff`, `propertyAnswer_iff`, `resultAnswers_iff`, `objectAnswers_iff`: each reader reads
  exactly what stands there;
* `multipleAnswers_iff`: the results of a frame are those of the objects that it carries.
-/
import ArcticController.Bacnet.AckGrammar

namespace ArcticController

namespace Bacnet

/-! ### Results as they stand in a frame -/

inductive TaggedAnswer where
  | error (errorClass errorCode : RawTag)
  | value (value : RawTag)

namespace TaggedAnswer

def bytes : TaggedAnswer → List UInt8
  | error cls code => 0x5E :: (cls.bytes ++ (code.bytes ++ [0x5F]))
  | value v => 0x4E :: (v.bytes ++ [0x4F])

/-- The tags are those of an error, or of a value that the reader knows. -/
def Accepted : TaggedAnswer → Prop
  | error cls code => cls.IsNumber 0 ∧ code.IsNumber 1
  | value v => v.IsValue ∧ v.tlv.decode.1 = true

def answer : TaggedAnswer → Answer
  | error cls code => .error cls.number.toUInt8 code.number.toUInt8
  | value v => .value v.tlv

end TaggedAnswer

/-- The result of one property. -/
structure TaggedResult where
  property : RawTag
  answer : TaggedAnswer

namespace TaggedResult

def bytes (r : TaggedResult) : List UInt8 := r.property.bytes ++ r.answer.bytes

structure Accepted (r : TaggedResult) : Prop where
  property : r.property.IsNumber 2
  answer : r.answer.Accepted

/-- The result, for the object it stands under. -/
def answerOf (object : ObjectId) (r : TaggedResult) : PropertyAnswer :=
  ⟨object, r.property.number, r.answer.answer⟩

end TaggedResult

/-- The results of one object in their brackets. -/
structure TaggedObject where
  object : RawTag
  results : List TaggedResult

namespace TaggedObject

def resultBytes (results : List TaggedResult) : List UInt8 :=
  results.flatMap TaggedResult.bytes ++ [0x1F]

def bytes (o : TaggedObject) : List UInt8 := o.object.bytes ++ 0x1E :: resultBytes o.results

structure Accepted (o : TaggedObject) (wanted : Option ObjectId) : Prop where
  object : o.object.IsNumber 0
  expected : ∀ e ∈ wanted, Expected (objectOf o.object.number) e
  results : ∀ r ∈ o.results, r.Accepted

def answers (o : TaggedObject) : List PropertyAnswer :=
  o.results.map (TaggedResult.answerOf (objectOf o.object.number))

lemma resultBytes_cons (r : TaggedResult) (rs : List TaggedResult) :
    resultBytes (r :: rs) = r.bytes ++ resultBytes rs := by
  rw [resultBytes, List.flatMap_cons, List.append_assoc, resultBytes]

lemma flatMap_bytes_cons (o : TaggedObject) (objects : List TaggedObject) :
    (o :: objects).flatMap bytes
      = (o.object.bytes ++ [0x1E]) ++ (resultBytes o.results ++ objects.flatMap bytes) := by
  rw [List.flatMap_cons, bytes]
  simp only [List.append_assoc, List.cons_append, List.nil_append]

lemma length_flatMap_bytes_cons (o : TaggedObject) (objects : List TaggedObject) :
    ((o :: objects).flatMap bytes).length = o.object.bytes.length + 1
      + (resultBytes o.results).length + (objects.flatMap bytes).length := by
  rw [flatMap_bytes_cons, List.length_append, List.length_append, List.length_singleton,
    List.length_append, ← Nat.add_assoc]

lemma length_answers (o : TaggedObject) : o.answers.length = o.results.length := List.length_map _

end TaggedObject

/-- The results of all objects, in the order of the frame. -/
def answersOf (objects : List TaggedObject) : List PropertyAnswer :=
  objects.flatMap TaggedObject.answers

lemma answersOf_cons (o : TaggedObject) (objects : List TaggedObject) :
    answersOf (o :: objects) = o.answers ++ answersOf objects := List.flatMap_cons

/-! ### Readers -/

section Readers

variable {buf : List UInt8} {len total pos pos' : ℕ} {expected : Option ObjectId}

/-- A value or an error is read exactly if it stands there. -/
lemma answerAt_iff {a : Answer} : answerAt buf len pos = some (a, pos') ↔
    ∃ t : TaggedAnswer, t.Accepted ∧ Stands buf pos t.bytes ∧ pos' = pos + t.bytes.length ∧
      pos' ≤ len ∧ a = t.answer := by
  constructor
  · intro h
    rw [answerAt] at h
    split_ifs at h with hpos hfive hfour
    · obtain ⟨⟨cls, code, q⟩, herror, heq⟩ := Option.map_eq_some_iff.mp h
      obtain ⟨rfl, rfl⟩ := Prod.mk.inj heq
      rw [readPropertyError] at herror
      cases hcls : readContextUint buf len (pos + 1) 0 with
      | none =>
          rw [hcls] at herror
          cases herror
      | some r =>
          obtain ⟨c, pos₁⟩ := r
          rw [hcls] at herror
          dsimp only at herror
          cases hcode : readContextUint buf len pos₁ 1 with
          | none =>
              rw [hcode] at herror
              cases herror
          | some r =>
              obtain ⟨d, pos₂⟩ := r
              rw [hcode] at herror
              dsimp only at herror
              split_ifs at herror with hclose
              cases herror
              rw [Bool.and_eq_true, decide_eq_true_eq] at hclose
              obtain ⟨tcls, htcls, hstands, rfl, -, rfl⟩ := readContextUint_iff.mp hcls
              obtain ⟨tcode, htcode, hstands', rfl, -, rfl⟩ := readContextUint_iff.mp hcode
              refine ⟨.error tcls tcode, ⟨htcls, htcode⟩, ?_, ?_, hclose.1, rfl⟩
              · exact stands_cons.mpr ⟨eq_of_beq hfive, stands_append.mpr ⟨hstands,
                  stands_append.mpr ⟨hstands', stands_cons.mpr ⟨eq_of_beq hclose.2, stands_nil⟩⟩⟩⟩
              · simp only [TaggedAnswer.bytes, List.length_cons, List.length_append,
                  List.length_nil]
                omega
    · cases htlv : appTlv buf len (pos + 1) with
      | none =>
          rw [htlv] at h
          cases h
      | some r =>
          obtain ⟨t, q⟩ := r
          rw [htlv] at h
          dsimp only at h
          split_ifs at h with hclose
          cases h
          rw [Bool.and_eq_true, Bool.and_eq_true, decide_eq_true_eq] at hclose
          obtain ⟨v, hv, hstands, rfl, -, rfl⟩ := appTlv_iff.mp htlv
          refine ⟨.value v, ⟨hv, hclose.1⟩, ?_, ?_, hclose.2.1, rfl⟩
          · exact stands_cons.mpr ⟨eq_of_beq hfour, stands_append.mpr ⟨hstands,
              stands_cons.mpr ⟨eq_of_beq hclose.2.2, stands_nil⟩⟩⟩
          · simp only [TaggedAnswer.bytes, List.length_cons, List.length_append, List.length_nil]
            omega
  · rintro ⟨t, ht, hstands, rfl, hle, rfl⟩
    cases t with
    | error cls code =>
        simp only [TaggedAnswer.bytes, List.length_cons, List.length_append, List.length_nil]
          at hle ⊢
        obtain ⟨hopen, hstands⟩ := stands_cons.mp hstands
        obtain ⟨hcls, hstands⟩ := stands_append.mp hstands
        obtain ⟨hcode, hclose⟩ := stands_append.mp hstands
        have hreadCls := readContextUint_iff.mpr ⟨cls, ht.1, hcls, rfl,
          (by omega : pos + 1 + cls.bytes.length ≤ len), rfl⟩
        have hreadCode := readContextUint_iff.mpr ⟨code, ht.2, hcode, rfl,
          (by omega : pos + 1 + cls.bytes.length + code.bytes.length ≤ len), rfl⟩
        have hlt : pos + 1 + cls.bytes.length + code.bytes.length < len := by omega
        have hfive : isOpen (byteAt buf pos) 5 = true := by
          rw [hopen]
          rfl
        have hend : (decide (pos + 1 + cls.bytes.length + code.bytes.length < len)
            && isClose (byteAt buf (pos + 1 + cls.bytes.length + code.bytes.length)) 5) = true := by
          rw [decide_eq_true hlt, (stands_cons.mp hclose).1]
          rfl
        rw [answerAt, if_neg (by omega), if_pos hfive, readPropertyError, hreadCls]
        dsimp only
        rw [hreadCode]
        dsimp only
        rw [if_pos hend, Option.map_some]
        congr 2
        change pos + 1 + cls.bytes.length + code.bytes.length + 1 = _
        omega
    | value v =>
        simp only [TaggedAnswer.bytes, List.length_cons, List.length_append, List.length_nil]
          at hle ⊢
        obtain ⟨hopen, hstands⟩ := stands_cons.mp hstands
        obtain ⟨hvalue, hclose⟩ := stands_append.mp hstands
        have hread := appTlv_iff.mpr ⟨v, ht.1, hvalue, rfl,
          (by omega : pos + 1 + v.bytes.length ≤ len), rfl⟩
        have hlt : pos + 1 + v.bytes.length < len := by omega
        have hnotFive : ¬isOpen (byteAt buf pos) 5 = true := by
          rw [hopen]
          decide
        have hfour : isOpen (byteAt buf pos) 4 = true := by
          rw [hopen]
          rfl
        have hend : (v.tlv.decode.1 && (decide (pos + 1 + v.bytes.length < len)
            && isClose (byteAt buf (pos + 1 + v.bytes.length)) 4)) = true := by
          rw [ht.2, decide_eq_true hlt, (stands_cons.mp hclose).1]
          rfl
        rw [answerAt, if_neg (by omega), if_neg hnotFive, if_pos hfour, hread]
        dsimp only
        rw [if_pos hend]
        congr 2
        omega

/-- The result of a property is read exactly if it stands there. -/
lemma propertyAnswer_iff {object : ObjectId} {a : PropertyAnswer} :
    propertyAnswer buf len pos object = some (a, pos') ↔
      ∃ r : TaggedResult, r.Accepted ∧ Stands buf pos r.bytes ∧ pos' = pos + r.bytes.length ∧
        pos' ≤ len ∧ a = r.answerOf object := by
  constructor
  · intro h
    rw [propertyAnswer] at h
    cases hprop : readContextUint buf len pos 2 with
    | none =>
        rw [hprop] at h
        cases h
    | some r =>
        obtain ⟨prop, pos₁⟩ := r
        rw [hprop] at h
        obtain ⟨⟨answer, q⟩, hanswer, heq⟩ := Option.map_eq_some_iff.mp h
        obtain ⟨rfl, rfl⟩ := Prod.mk.inj heq
        obtain ⟨t, ht, hstands, rfl, -, rfl⟩ := readContextUint_iff.mp hprop
        obtain ⟨ta, hta, hstands', rfl, hle, rfl⟩ := answerAt_iff.mp hanswer
        refine ⟨⟨t, ta⟩, ⟨ht, hta⟩, stands_append.mpr ⟨hstands, hstands'⟩, ?_, hle, rfl⟩
        rw [TaggedResult.bytes, List.length_append, Nat.add_assoc]
  · rintro ⟨r, hr, hstands, rfl, hle, rfl⟩
    rw [TaggedResult.bytes, List.length_append] at hle ⊢
    obtain ⟨hprop, hanswer⟩ := stands_append.mp hstands
    have hreadProp := readContextUint_iff.mpr ⟨r.property, hr.property, hprop, rfl,
      (by omega : pos + r.property.bytes.length ≤ len), rfl⟩
    have hreadAnswer := answerAt_iff.mpr ⟨r.answer, hr.answer, hanswer, rfl,
      (by omega : pos + r.property.bytes.length + r.answer.bytes.length ≤ len), rfl⟩
    rw [propertyAnswer, hreadProp]
    dsimp only
    rw [hreadAnswer, Option.map_some, Nat.add_assoc]
    rfl

/-- The first byte of a result is no closing bracket. -/
lemma TaggedResult.Accepted.not_close {r : TaggedResult} (hr : r.Accepted)
    (h : Stands buf pos r.bytes) : isClose (byteAt buf pos) 1 = false := by
  obtain ⟨hhigh, -⟩ := hr.property.byteAt (stands_append.mp h).1
  rw [isClose, beq_eq_false_iff_ne]
  intro heq
  rw [heq] at hhigh
  exact absurd hhigh (by decide)

/-- The results of one object are read exactly if they stand there. -/
lemma resultAnswers_iff {object : ObjectId} {fuel room : ℕ} {answers : List PropertyAnswer}
    (hfuel : total - pos < fuel) :
    resultAnswers buf total object fuel pos room = .ok (answers, pos') ↔
      ∃ rs : List TaggedResult, (∀ r ∈ rs, r.Accepted) ∧ rs.length ≤ room ∧
        Stands buf pos (TaggedObject.resultBytes rs) ∧
        pos' = pos + (TaggedObject.resultBytes rs).length ∧ pos' ≤ total ∧
        answers = rs.map (TaggedResult.answerOf object) := by
  induction fuel generalizing pos room answers with
  | zero => omega
  | succ fuel ih =>
      rw [resultAnswers]
      constructor
      · intro h
        split_ifs at h with hmore hroom hend
        · rw [Bool.and_eq_true, decide_eq_true_eq] at hmore
          cases ha : propertyAnswer buf total pos object with
          | none =>
              rw [ha] at h
              cases h
          | some r =>
              obtain ⟨a, q⟩ := r
              rw [ha] at h
              dsimp only at h
              have hlt := propertyAnswer_lt ha
              cases hrest : resultAnswers buf total object fuel q (room - 1) with
              | error p =>
                  rw [hrest] at h
                  cases h
              | ok r =>
                  obtain ⟨rest, q'⟩ := r
                  rw [hrest] at h
                  cases h
                  obtain ⟨rs, hrs, hlength, hstands, rfl, hle, rfl⟩ := (ih (by omega)).mp hrest
                  obtain ⟨r, hr, hstands', rfl, -, rfl⟩ := propertyAnswer_iff.mp ha
                  refine ⟨r :: rs, List.forall_mem_cons.mpr ⟨hr, hrs⟩, ?_, ?_, ?_, hle, rfl⟩
                  · rw [List.length_cons]
                    omega
                  · rw [TaggedObject.resultBytes_cons]
                    exact stands_append.mpr ⟨hstands', hstands⟩
                  · rw [TaggedObject.resultBytes_cons, List.length_append, Nat.add_assoc]
        · cases h
          rw [Bool.and_eq_true, decide_eq_true_eq, not_and, Bool.not_eq_true', Bool.not_eq_false]
            at hmore
          exact ⟨[], by rintro _ ⟨⟩, Nat.zero_le _, stands_cons.mpr ⟨eq_of_beq (hmore hend), stands_nil⟩,
            rfl, hend, rfl⟩
      · rintro ⟨rs, hrs, hlength, hstands, hend, hle, rfl⟩
        cases rs with
        | nil =>
            obtain rfl : pos' = pos + 1 := hend
            have hclose : isClose (byteAt buf pos) 1 = true := by
              rw [(stands_cons.mp hstands).1]
              rfl
            have hlt : pos < total := hle
            rw [hclose, Bool.not_true, Bool.and_false, if_neg Bool.false_ne_true, if_pos hlt]
            rfl
        | cons r rs =>
            obtain ⟨hr, hrs⟩ := List.forall_mem_cons.mp hrs
            rw [TaggedObject.resultBytes_cons, List.length_append, ← Nat.add_assoc] at hend
            rw [TaggedObject.resultBytes_cons] at hstands
            obtain ⟨hresult, hrest⟩ := stands_append.mp hstands
            rw [List.length_cons] at hlength
            have hread := propertyAnswer_iff.mpr ⟨r, hr, hresult, rfl,
              (by omega : pos + r.bytes.length ≤ total), (rfl : r.answerOf object = _)⟩
            have hlt := propertyAnswer_lt hread
            have hroom : rs.length ≤ room - 1 := by omega
            have hnext := (@ih (pos + r.bytes.length) (room - 1) _ (by omega)).mpr
              ⟨rs, hrs, hroom, hrest, hend, hle, rfl⟩
            have hmore : (decide (pos < total) && !isClose (byteAt buf pos) 1) = true := by
              rw [hr.not_close hresult, decide_eq_true (by omega)]
              rfl
            rw [if_pos hmore, if_pos (by omega), hread]
            dsimp only
            rw [hnext]
            rfl

/-- The opening of an object is read exactly if it stands there. -/
lemma objectAt_iff {object : ObjectId} : objectAt buf total pos expected = some (object, pos') ↔
    ∃ t : RawTag, t.IsNumber 0 ∧ (∀ e ∈ expected, Expected (objectOf t.number) e) ∧
      Stands buf pos (t.bytes ++ [0x1E]) ∧ pos' = pos + t.bytes.length + 1 ∧ pos' ≤ total ∧
      object = objectOf t.number := by
  constructor
  · intro h
    rw [objectAt, readContextObject] at h
    cases hobject : readContextUint buf total pos 0 with
    | none =>
        rw [hobject] at h
        cases h
    | some r =>
        obtain ⟨v, q⟩ := r
        rw [hobject] at h
        dsimp only [Option.map_some] at h
        split_ifs at h with hopen
        cases h
        rw [Bool.and_eq_true, Bool.and_eq_true, decide_eq_true_eq, Bool.not_eq_true'] at hopen
        obtain ⟨t, ht, hstands, rfl, -, rfl⟩ := readContextUint_iff.mp hobject
        exact ⟨t, ht, any_expected.mp (Bool.eq_false_iff.mp hopen.2),
          stands_append.mpr ⟨hstands, stands_cons.mpr ⟨eq_of_beq hopen.1.2, stands_nil⟩⟩, rfl,
          hopen.1.1, rfl⟩
  · rintro ⟨t, ht, hexpected, hstands, rfl, hle, rfl⟩
    obtain ⟨hobject, hopen⟩ := stands_append.mp hstands
    have hread := readContextUint_iff.mpr ⟨t, ht, hobject, rfl,
      (by omega : pos + t.bytes.length ≤ total), rfl⟩
    have hlt : pos + t.bytes.length < total := hle
    have hall : (decide (pos + t.bytes.length < total)
        && isOpen (byteAt buf (pos + t.bytes.length)) 1
        && !expected.any (fun expected => !objectExpected (objectOf t.number) expected)) = true := by
      rw [decide_eq_true hlt, (stands_cons.mp hopen).1,
        Bool.eq_false_iff.mpr (any_expected.mpr hexpected)]
      rfl
    rw [objectAt, readContextObject, hread]
    exact if_pos hall

/-- The objects are read exactly if they stand there up to the end. -/
lemma objectAnswers_iff {fuel room : ℕ} {answers : List PropertyAnswer} (hfuel : total - pos < fuel)
    (hpos : pos ≤ total) : objectAnswers buf total expected fuel pos room = .ok answers ↔
      ∃ objects : List TaggedObject, (∀ o ∈ objects, o.Accepted expected) ∧
        Stands buf pos (objects.flatMap TaggedObject.bytes) ∧
        pos + (objects.flatMap TaggedObject.bytes).length = total ∧
        (answersOf objects).length ≤ room ∧ answers = answersOf objects := by
  induction fuel generalizing pos room answers with
  | zero => omega
  | succ fuel ih =>
      rw [objectAnswers]
      by_cases hmore : pos < total
      · rw [if_pos hmore]
        constructor
        · intro h
          cases hobject : objectAt buf total pos expected with
          | none =>
              rw [hobject] at h
              cases h
          | some r =>
              obtain ⟨object, q⟩ := r
              rw [hobject] at h
              dsimp only at h
              obtain ⟨t, ht, hexpected, hstands, rfl, hle, rfl⟩ := objectAt_iff.mp hobject
              cases hresults : resultAnswers buf total (objectOf t.number) (total + 1)
                  (pos + t.bytes.length + 1) room with
              | error p =>
                  rw [hresults] at h
                  cases h
              | ok r =>
                  obtain ⟨first, q'⟩ := r
                  rw [hresults] at h
                  dsimp only at h
                  obtain ⟨rs, hrs, hlength, hstands', rfl, hle', rfl⟩ :=
                    (resultAnswers_iff (by omega)).mp hresults
                  cases hrest : objectAnswers buf total expected fuel
                      (pos + t.bytes.length + 1 + (TaggedObject.resultBytes rs).length)
                      (room - (rs.map (TaggedResult.answerOf (objectOf t.number))).length) with
                  | error p =>
                      rw [hrest] at h
                      cases h
                  | ok rest =>
                      rw [hrest] at h
                      cases h
                      obtain ⟨objects, hobjects, hbehind, hend, hroom, rfl⟩ :=
                        (ih (by omega) hle').mp hrest
                      rw [List.length_map] at hroom
                      refine ⟨⟨t, rs⟩ :: objects, List.forall_mem_cons.mpr
                        ⟨⟨ht, hexpected, hrs⟩, hobjects⟩, ?_, ?_, ?_, rfl⟩
                      · rw [TaggedObject.flatMap_bytes_cons]
                        refine stands_append.mpr ⟨hstands, stands_append.mpr ⟨?_, ?_⟩⟩
                        · rwa [List.length_append, List.length_singleton, ← Nat.add_assoc]
                        · rwa [List.length_append, List.length_singleton, ← Nat.add_assoc]
                      · rw [TaggedObject.length_flatMap_bytes_cons]
                        dsimp only
                        omega
                      · rw [answersOf_cons, List.length_append, TaggedObject.length_answers]
                        dsimp only
                        omega
        · rintro ⟨objects, hobjects, hstands, hend, hroom, rfl⟩
          cases objects with
          | nil =>
              rw [List.flatMap_nil, List.length_nil] at hend
              omega
          | cons o objects =>
              obtain ⟨ho, hobjects⟩ := List.forall_mem_cons.mp hobjects
              rw [TaggedObject.flatMap_bytes_cons] at hstands
              rw [TaggedObject.length_flatMap_bytes_cons] at hend
              rw [answersOf_cons, List.length_append, TaggedObject.length_answers] at hroom
              obtain ⟨hopen, hstands⟩ := stands_append.mp hstands
              rw [List.length_append, List.length_singleton, ← Nat.add_assoc] at hstands
              obtain ⟨hresults, hrest⟩ := stands_append.mp hstands
              have hobject := objectAt_iff.mpr ⟨o.object, ho.object, ho.expected, hopen, rfl,
                (by omega : pos + o.object.bytes.length + 1 ≤ total), rfl⟩
              have hle : pos + o.object.bytes.length + 1
                  + (TaggedObject.resultBytes o.results).length ≤ total := by omega
              have hread := (@resultAnswers_iff buf total (pos + o.object.bytes.length + 1) _
                (objectOf o.object.number) (total + 1) room _ (by omega)).mpr
                ⟨o.results, ho.results, by omega, hresults, rfl, hle, rfl⟩
              have hlength : (o.results.map (TaggedResult.answerOf
                  (objectOf o.object.number))).length = o.results.length := List.length_map _
              have hnext := (@ih _ (room - o.results.length) _ (by omega) hle).mpr
                ⟨objects, hobjects, hrest, by omega, by omega, rfl⟩
              rw [hobject]
              dsimp only
              rw [hread]
              dsimp only
              rw [hlength, hnext]
              rfl
      · rw [if_neg hmore]
        constructor
        · intro h
          cases h
          exact ⟨[], by rintro _ ⟨⟩, stands_nil, by simp; omega, Nat.zero_le _, rfl⟩
        · rintro ⟨objects, -, -, hend, -, rfl⟩
          cases objects with
          | nil => rfl
          | cons o objects =>
              rw [TaggedObject.length_flatMap_bytes_cons] at hend
              omega

end Readers

end Bacnet

end ArcticController

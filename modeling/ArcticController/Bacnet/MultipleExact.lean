/-
What the reader of an answer to ReadPropertyMultiple returns.

* `ResultsRun`, `ObjectsRun`: the two loops, turn by turn; `readResults_run`, `readObjects_run`:
  they come to an end, with what the reader returns;
* `parseReadPropertyMultipleAck_within`: no byte behind the frame is looked at;
* `Reports`: an entry that says what a result says;
* `ReadsResults`: the loops end, nothing is read behind the frame or written behind the array, and
  the entries say what the results of the frame say;
* `results_reported`: this holds exactly if the entries of the values bear no old error mark;
* `old_error_kept`: an entry that was an error once.
-/
import ArcticController.Bacnet.MultipleGrammar

namespace ArcticController

namespace Bacnet

/-! ### The loops -/

/-- The loop over the results of one object, one turn for each. -/
inductive ResultsRun (buf : List UInt8) (total : ℕ) (object : ObjectId) {cap : ℕ} :
    ℕ → ℕ → Vector PropertyValue cap → Except Parse ℕ × ℕ × Vector PropertyValue cap → Prop
  | short {pos count : ℕ} {out : Vector PropertyValue cap} (hpos : ¬pos < total) :
      ResultsRun buf total object pos count out (.error .badFrame, count, out)
  | close {pos count : ℕ} {out : Vector PropertyValue cap} (hpos : pos < total)
      (hclose : isClose (byteAt buf pos) 1 = true) :
      ResultsRun buf total object pos count out (.ok (pos + 1), count, out)
  | full {pos count : ℕ} {out : Vector PropertyValue cap} (hpos : pos < total)
      (hclose : isClose (byteAt buf pos) 1 = false) (hcount : ¬count < cap) :
      ResultsRun buf total object pos count out (.error .unsupported, count, out)
  | bad {pos count : ℕ} {out : Vector PropertyValue cap} (hpos : pos < total)
      (hclose : isClose (byteAt buf pos) 1 = false) (hcount : count < cap) {pv : PropertyValue}
      (hread : readPropertyResult buf total pos object out[count] = (none, pv)) :
      ResultsRun buf total object pos count out (.error .badFrame, count, out.set count pv)
  | turn {pos count : ℕ} {out : Vector PropertyValue cap} (hpos : pos < total)
      (hclose : isClose (byteAt buf pos) 1 = false) (hcount : count < cap) {pos' : ℕ}
      {pv : PropertyValue}
      (hread : readPropertyResult buf total pos object out[count] = (some pos', pv))
      {r : Except Parse ℕ × ℕ × Vector PropertyValue cap}
      (rest : ResultsRun buf total object pos' (count + 1) (out.set count pv) r) :
      ResultsRun buf total object pos count out r

/-- The loop over the objects. -/
inductive ObjectsRun (buf : List UInt8) (total : ℕ) (expected : Option ObjectId) {cap : ℕ} :
    ℕ → ℕ → Vector PropertyValue cap → Parse × ℕ × Vector PropertyValue cap → Prop
  | done {pos count : ℕ} {out : Vector PropertyValue cap} (hpos : ¬pos < total) :
      ObjectsRun buf total expected pos count out (.ok, count, out)
  | bad {pos count : ℕ} {out : Vector PropertyValue cap} (hpos : pos < total)
      (hobject : objectAt buf total pos expected = none) :
      ObjectsRun buf total expected pos count out (.badFrame, count, out)
  | stopped {pos count : ℕ} {out : Vector PropertyValue cap} (hpos : pos < total)
      {object : ObjectId} {pos₁ : ℕ} (hobject : objectAt buf total pos expected = some (object, pos₁))
      {p : Parse} {count' : ℕ} {out' : Vector PropertyValue cap}
      (results : ResultsRun buf total object pos₁ count out (.error p, count', out')) :
      ObjectsRun buf total expected pos count out (p, count', out')
  | turn {pos count : ℕ} {out : Vector PropertyValue cap} (hpos : pos < total)
      {object : ObjectId} {pos₁ : ℕ} (hobject : objectAt buf total pos expected = some (object, pos₁))
      {pos₂ count' : ℕ} {out' : Vector PropertyValue cap}
      (results : ResultsRun buf total object pos₁ count out (.ok pos₂, count', out'))
      {r : Parse × ℕ × Vector PropertyValue cap}
      (rest : ObjectsRun buf total expected pos₂ count' out' r) :
      ObjectsRun buf total expected pos count out r

section Runs

variable {cap : ℕ} {buf : List UInt8} {total : ℕ} {object : ObjectId} {expected : Option ObjectId}

/-- A result that is read takes at least one byte. -/
lemma readPropertyResult_lt {pos pos' : ℕ} {pv pv' : PropertyValue}
    (h : readPropertyResult buf total pos object pv = (some pos', pv')) : pos < pos' := by
  have hanswer := (readPropertyResult_eq buf total pos object pv).1
  rw [h] at hanswer
  obtain ⟨⟨a, q⟩, ha, rfl⟩ := Option.map_eq_some_iff.mp hanswer.symm
  exact (propertyAnswer_lt ha).1

/-- The loop over the results ends, as it comes closer to the end of the frame in each turn. -/
lemma readResults_run {fuel pos : ℕ} (count : ℕ) (out : Vector PropertyValue cap)
    (hfuel : total - pos < fuel) : ResultsRun buf total object pos count out
      (readResults buf total object fuel pos count out) := by
  induction fuel generalizing pos count out with
  | zero => omega
  | succ fuel ih =>
      rw [readResults]
      by_cases hpos : pos < total
      · cases hclose : isClose (byteAt buf pos) 1 with
        | true =>
            rw [decide_eq_true hpos, Bool.not_true, Bool.and_false, if_neg Bool.false_ne_true,
              if_pos hpos]
            exact .close hpos hclose
        | false =>
            rw [decide_eq_true hpos, Bool.not_false, Bool.and_self, if_pos rfl]
            by_cases hcount : count < cap
            · rw [dif_pos hcount]
              rcases hread : readPropertyResult buf total pos object out[count] with ⟨_ | pos', pv⟩
              · exact .bad hpos hclose hcount hread
              · have hlt := readPropertyResult_lt hread
                exact .turn hpos hclose hcount hread (ih _ _ (by omega))
            · rw [dif_neg hcount]
              exact .full hpos hclose hcount
      · rw [decide_eq_false hpos, Bool.false_and, if_neg Bool.false_ne_true, if_neg hpos]
        exact .short hpos

lemma ResultsRun.pos_lt {pos count : ℕ} {out : Vector PropertyValue cap}
    {r : Except Parse ℕ × ℕ × Vector PropertyValue cap}
    (h : ResultsRun buf total object pos count out r) : ∀ pos', r.1 = .ok pos' → pos < pos' := by
  induction h with
  | short | full | bad => exact nofun
  | close =>
      rintro _ ⟨⟩
      exact Nat.lt_succ_self _
  | turn hpos hclose hcount hread rest ih =>
      intro pos' hok
      exact (readPropertyResult_lt hread).trans (ih pos' hok)

/-- The loop over the objects ends. -/
lemma readObjects_run {fuel pos : ℕ} (count : ℕ) (out : Vector PropertyValue cap)
    (hfuel : total - pos < fuel) : ObjectsRun buf total expected pos count out
      (readObjects buf total expected fuel pos count out) := by
  induction fuel generalizing pos count out with
  | zero => omega
  | succ fuel ih =>
      rw [readObjects]
      by_cases hpos : pos < total
      · rw [if_pos hpos]
        cases hobject : objectAt buf total pos expected with
        | none => exact .bad hpos hobject
        | some r =>
            obtain ⟨object, pos₁⟩ := r
            dsimp only
            obtain ⟨t, -, -, -, rfl, hle, -⟩ := objectAt_iff.mp hobject
            have hrun := @readResults_run cap buf total object (total + 1)
              (pos + t.bytes.length + 1) count out (by omega)
            rcases hread : readResults buf total object (total + 1) (pos + t.bytes.length + 1) count
              out with ⟨p | pos₂, count', out'⟩
            · rw [hread] at hrun
              exact .stopped hpos hobject hrun
            · rw [hread] at hrun
              have hlt := hrun.pos_lt pos₂ rfl
              exact .turn hpos hobject hrun (ih _ _ (by omega))
      · rw [if_neg hpos]
        exact .done hpos

/-- Nothing is written behind the results that are counted, and one more. -/
lemma ResultsRun.room {pos count : ℕ} {out : Vector PropertyValue cap}
    {r : Except Parse ℕ × ℕ × Vector PropertyValue cap}
    (h : ResultsRun buf total object pos count out r) (hcount : count ≤ cap) :
    count ≤ r.2.1 ∧ r.2.1 ≤ cap ∧ ∀ i (hi : i < cap), r.2.1 < i → r.2.2[i] = out[i] := by
  induction h with
  | short | close | full => exact ⟨le_rfl, hcount, fun i hi _ => rfl⟩
  | bad hpos hclose hlt hread =>
      refine ⟨le_rfl, hcount, fun i hi hbehind => ?_⟩
      exact Vector.getElem_set_ne hlt hi (by dsimp only at hbehind; omega)
  | turn hpos hclose hlt hread rest ih =>
      obtain ⟨hle, hcap, hsame⟩ := ih hlt
      refine ⟨by omega, hcap, fun i hi hbehind => ?_⟩
      rw [hsame i hi hbehind]
      exact Vector.getElem_set_ne hlt hi (by omega)

lemma ObjectsRun.room {pos count : ℕ} {out : Vector PropertyValue cap}
    {r : Parse × ℕ × Vector PropertyValue cap} (h : ObjectsRun buf total expected pos count out r)
    (hcount : count ≤ cap) :
    count ≤ r.2.1 ∧ r.2.1 ≤ cap ∧ ∀ i (hi : i < cap), r.2.1 < i → r.2.2[i] = out[i] := by
  induction h with
  | done | bad => exact ⟨le_rfl, hcount, fun i hi _ => rfl⟩
  | stopped hpos hobject results => exact results.room hcount
  | turn hpos hobject results rest ih =>
      obtain ⟨hle, hcap, hsame⟩ := results.room hcount
      obtain ⟨hle', hcap', hsame'⟩ := ih hcap
      refine ⟨hle.trans hle', hcap', fun i hi hbehind => ?_⟩
      rw [hsame' i hi hbehind]
      exact hsame i hi (lt_of_le_of_lt hle' hbehind)

end Runs

/-! ### The bytes that are read -/

section Within

variable {cap len : ℕ} {buf buf' : List UInt8} {expected : Option ObjectId}

lemma readPropertyResult_congr (h : SameUpTo len buf buf') (pos : ℕ) (object : ObjectId)
    (pv : PropertyValue) :
    readPropertyResult buf len pos object pv = readPropertyResult buf' len pos object pv := by
  rw [readPropertyResult, readPropertyResult, readContextUint_congr h]
  cases readContextUint buf' len pos 2 with
  | none => rfl
  | some r =>
      dsimp only
      by_cases hpos : len ≤ r.2
      · rw [if_pos hpos, if_pos hpos]
      · rw [if_neg hpos, if_neg hpos, h _ (not_le.mp hpos), readPropertyError_congr h,
          decodeAppValue, decodeAppValue, appTlv_congr h]
        cases appTlv buf' len (r.2 + 1) with
        | none => rfl
        | some t =>
            dsimp only
            cases t.1.decode.1 with
            | false => rfl
            | true =>
                simp only [if_true]
                by_cases hend : t.2 < len
                · rw [h _ hend]
                · simp only [hend, decide_false, Bool.false_and]

lemma readResults_congr (h : SameUpTo len buf buf') (object : ObjectId) (fuel pos count : ℕ)
    (out : Vector PropertyValue cap) : readResults buf len object fuel pos count out
      = readResults buf' len object fuel pos count out := by
  induction fuel generalizing pos count out with
  | zero => rfl
  | succ fuel ih =>
      rw [readResults, readResults]
      by_cases hpos : pos < len
      · rw [h _ hpos]
        simp only [readPropertyResult_congr h, ih]
      · simp only [hpos, decide_false, Bool.false_and, Bool.false_eq_true, if_false]

lemma readObjects_congr (h : SameUpTo len buf buf') (fuel pos count : ℕ)
    (out : Vector PropertyValue cap) : readObjects buf len expected fuel pos count out
      = readObjects buf' len expected fuel pos count out := by
  induction fuel generalizing pos count out with
  | zero => rfl
  | succ fuel ih =>
      rw [readObjects, readObjects, objectAt_congr h]
      simp only [readResults_congr h, ih]

/-- No byte behind the frame or the buffer is looked at. -/
lemma parseReadPropertyMultipleAck_within (h : SameUpTo (readLength buf len) buf buf')
    (invoke : UInt8) (out : Vector PropertyValue cap) :
    parseReadPropertyMultipleAck buf len invoke out expected
      = parseReadPropertyMultipleAck buf' len invoke out expected := by
  rw [parseReadPropertyMultipleAck, parseReadPropertyMultipleAck, ← parseHeader_within h]
  rcases hheader : parseHeader buf len invoke kServiceReadPropertyMultiple with ⟨p, err⟩
  cases p with
  | ok =>
      obtain ⟨htotal, hsame⟩ := sameUpTo_frame h hheader
      dsimp only
      rw [htotal, readObjects_congr hsame]
  | _ => rfl

end Within

/-! ### Frames -/

/-- What an answer to ReadPropertyMultiple carries. -/
def multipleNpdu (control pdu invoke : UInt8) (objects : List TaggedObject) : List UInt8 :=
  kNpduVersion :: control :: pdu :: invoke :: kServiceReadPropertyMultiple ::
    objects.flatMap TaggedObject.bytes

/-- The frame is an answer with the results of these objects, in this order. -/
structure Answers (buf : List UInt8) (len : ℕ) (invoke : UInt8) (expected : Option ObjectId)
    (objects : List TaggedObject) : Prop where
  carried : ∃ control pdu, control &&& 0x28 = 0 ∧ pdu &&& 0xF0 = kComplexAck ∧
    Carried buf len (multipleNpdu control pdu invoke objects)
  accepted : ∀ o ∈ objects, o.Accepted expected

section Frames

variable {cap len : ℕ} {buf : List UInt8} {invoke : UInt8} {expected : Option ObjectId}

/-- The results of a frame are those of the objects that it carries. -/
lemma multipleAnswers_iff {answers : List PropertyAnswer} :
    multipleAnswers buf len invoke cap expected = .ok answers ↔
      ∃ objects, Answers buf len invoke expected objects ∧ (answersOf objects).length ≤ cap ∧
        answers = answersOf objects := by
  have hnine : headerEnd = 9 := rfl
  constructor
  · intro h
    rw [multipleAnswers] at h
    rcases hheader : parseHeader buf len invoke kServiceReadPropertyMultiple with ⟨p, err⟩
    rw [hheader] at h
    have hok : (parseHeader buf len invoke kServiceReadPropertyMultiple).1 = .ok := by
      rw [hheader]
      cases p with
      | ok => rfl
      | _ => cases h
    obtain ⟨control, pdu, rest, hcontrol, hpdu, hcarried⟩ := parseHeader_ok_iff.mp hok
    rw [hheader] at hok
    obtain rfl : p = .ok := hok
    dsimp only at h
    have hlength := hcarried.declared
    simp only [List.length_cons] at hlength
    cases hobjects : objectAnswers buf (frameLength buf) expected (frameLength buf + 1) headerEnd
        cap with
    | error p =>
        rw [hobjects] at h
        cases h
    | ok answers' =>
        rw [hobjects] at h
        cases h
        obtain ⟨objects, haccepted, hstands, hend, hroom, rfl⟩ :=
          (objectAnswers_iff (by omega) (by omega)).mp hobjects
        refine ⟨objects, ⟨⟨control, pdu, hcontrol, hpdu, hcarried.type, hcarried.function, ?_,
          hcarried.within, ?_⟩, haccepted⟩, hroom, rfl⟩
        · rw [multipleNpdu]
          simp only [List.length_cons]
          omega
        · exact stands_header.mpr ⟨(stands_header.mp hcarried.bytes).1, hstands⟩
  · rintro ⟨objects, ⟨⟨control, pdu, hcontrol, hpdu, hcarried⟩, haccepted⟩, hroom, rfl⟩
    have hok := parseHeader_ok_iff.mpr ⟨control, pdu, _, hcontrol, hpdu, hcarried⟩
    have hlength := hcarried.declared
    simp only [multipleNpdu, List.length_cons] at hlength
    have hobjects := (@objectAnswers_iff buf (frameLength buf) headerEnd expected
      (frameLength buf + 1) cap _ (by omega) (by omega)).mpr
      ⟨objects, haccepted, (stands_header.mp hcarried.bytes).2, by omega, hroom, rfl⟩
    rw [multipleAnswers]
    rcases hheader : parseHeader buf len invoke kServiceReadPropertyMultiple with ⟨p, err⟩
    rw [hheader] at hok
    obtain rfl : p = .ok := hok
    dsimp only
    rw [hobjects]

/-- A frame is an answer with some results in one way only. -/
lemma Answers.unique {objects objects' : List TaggedObject}
    (h : Answers buf len invoke expected objects) (h' : Answers buf len invoke expected objects') :
    answersOf objects = answersOf objects' := by
  have hread := (@multipleAnswers_iff (max (answersOf objects).length (answersOf objects').length)
    len buf invoke expected _).mpr ⟨objects, h, le_max_left _ _, rfl⟩
  rw [multipleAnswers_iff.mpr ⟨objects', h', le_max_right _ _, rfl⟩] at hread
  exact (Except.ok.inj hread).symm

/-- A frame is read exactly if it is an answer and its results have room. -/
lemma multiple_ok_iff (out : Vector PropertyValue cap) :
    (parseReadPropertyMultipleAck buf len invoke out expected).parse = .ok ↔
      ∃ objects, Answers buf len invoke expected objects ∧ (answersOf objects).length ≤ cap := by
  have h := parseReadPropertyMultipleAck_eq buf len invoke out expected
  cases hanswers : multipleAnswers buf len invoke cap expected with
  | error e =>
      rw [hanswers] at h
      obtain ⟨hne, hparse, -⟩ := h
      refine iff_of_false (by rwa [hparse]) ?_
      rintro ⟨objects, hobjects, hroom⟩
      have hok := multipleAnswers_iff.mpr ⟨objects, hobjects, hroom, rfl⟩
      rw [hanswers] at hok
      cases hok
  | ok answers =>
      rw [hanswers] at h
      obtain ⟨objects, hobjects, hroom, -⟩ := multipleAnswers_iff.mp hanswers
      exact iff_of_true h.2.1 ⟨objects, hobjects, hroom⟩

/-- The entries of a frame that is read. -/
lemma multiple_out {objects : List TaggedObject} (hobjects : Answers buf len invoke expected objects)
    (hroom : (answersOf objects).length ≤ cap) (out : Vector PropertyValue cap) :
    (parseReadPropertyMultipleAck buf len invoke out expected).count = (answersOf objects).length ∧
      (parseReadPropertyMultipleAck buf len invoke out expected).out
        = storeFrom out 0 (answersOf objects) := by
  have h := parseReadPropertyMultipleAck_eq buf len invoke out expected
  rw [multipleAnswers_iff.mpr ⟨objects, hobjects, hroom, rfl⟩] at h
  exact ⟨h.2.2.1, h.2.2.2⟩

/-- The number of results is within the array, and entries behind it are left alone. -/
lemma multiple_room (out : Vector PropertyValue cap) :
    (parseReadPropertyMultipleAck buf len invoke out expected).count ≤ cap ∧
      ∀ i (hi : i < cap), (parseReadPropertyMultipleAck buf len invoke out expected).count < i →
        (parseReadPropertyMultipleAck buf len invoke out expected).out[i] = out[i] := by
  rw [parseReadPropertyMultipleAck]
  rcases parseHeader buf len invoke kServiceReadPropertyMultiple with ⟨p, err⟩
  cases p with
  | ok => exact ((@readObjects_run cap buf (frameLength buf) expected (frameLength buf + 1)
      headerEnd 0 out (by omega)).room (Nat.zero_le _)).2
  | _ => exact ⟨Nat.zero_le _, fun i hi _ => rfl⟩

end Frames

/-! ### Entries -/

/-- The entry says what the result says. -/
structure Reports (pv : PropertyValue) (a : PropertyAnswer) : Prop where
  object : pv.object = a.object
  property : pv.property = a.property
  error : pv.error = !a.answer.isValue
  value : ∀ t, a.answer = .value t → pv.value = t.decode.2
  info : ∀ cls code, a.answer = .error cls code →
    pv.errorInfo.errorClass = cls ∧ pv.errorInfo.errorCode = code

/-- A result written over an entry is reported there, except for an old error mark. -/
lemma reports_store_iff {a : PropertyAnswer} {pv : PropertyValue} :
    Reports (a.store pv) a ↔ (a.answer.isValue = true → pv.error = false) := by
  obtain ⟨object, property, answer⟩ := a
  cases answer with
  | error cls code =>
      refine iff_of_true ⟨rfl, rfl, rfl, nofun, fun cls' code' h => ?_⟩ nofun
      obtain ⟨rfl, rfl⟩ := Answer.error.inj h
      exact ⟨rfl, rfl⟩
  | value t =>
      refine ⟨fun h _ => h.error, fun h => ⟨rfl, rfl, h rfl, fun t' h' => ?_, nofun⟩⟩
      rw [← Answer.value.inj h']
      rfl

/-- The loops over the answer end, the bytes of the frame and the entries of the array are all that
is touched, and a frame that is read is an answer of which each entry reports one result. -/
structure ReadsResults (buf : List UInt8) (len : ℕ) (invoke : UInt8) {cap : ℕ}
    (out : Vector PropertyValue cap) (expected : Option ObjectId) : Prop where
  ends : ObjectsRun buf (frameLength buf) expected headerEnd 0 out
    (readObjects buf (frameLength buf) expected (frameLength buf + 1) headerEnd 0 out)
  within : ∀ buf', SameUpTo (readLength buf len) buf buf' →
    parseReadPropertyMultipleAck buf len invoke out expected
      = parseReadPropertyMultipleAck buf' len invoke out expected
  room : (parseReadPropertyMultipleAck buf len invoke out expected).count ≤ cap ∧
    ∀ i (hi : i < cap), (parseReadPropertyMultipleAck buf len invoke out expected).count < i →
      (parseReadPropertyMultipleAck buf len invoke out expected).out[i] = out[i]
  answer : (parseReadPropertyMultipleAck buf len invoke out expected).parse = .ok →
    ∃ objects, Answers buf len invoke expected objects
  results : (parseReadPropertyMultipleAck buf len invoke out expected).parse = .ok →
    ∀ objects, Answers buf len invoke expected objects →
      (parseReadPropertyMultipleAck buf len invoke out expected).count
        = (answersOf objects).length ∧
      ∀ i (hi : i < cap) (ha : i < (answersOf objects).length),
        Reports (parseReadPropertyMultipleAck buf len invoke out expected).out[i] (answersOf objects)[i]

/-- The results of the frame, if it is an answer and they have room, find no old error mark on an
entry that a value is written to. -/
def MarksClear (buf : List UInt8) (len : ℕ) (invoke : UInt8) {cap : ℕ}
    (out : Vector PropertyValue cap) (expected : Option ObjectId) : Prop :=
  ∀ objects, Answers buf len invoke expected objects → (answersOf objects).length ≤ cap →
    ∀ i (hi : i < cap) (ha : i < (answersOf objects).length),
      (answersOf objects)[i].answer.isValue = true → out[i].error = false

/-- **Each result is reported if the error marks are clear**: the reader ends, stays within the
frame and the array, and its entries report the results of all objects of the frame in their order,
if and only if no entry that a value goes to bears an error mark before. -/
theorem results_reported (buf : List UInt8) (len : ℕ) (invoke : UInt8) {cap : ℕ}
    (out : Vector PropertyValue cap) (expected : Option ObjectId) :
    ReadsResults buf len invoke out expected ↔ MarksClear buf len invoke out expected := by
  have hentry : ∀ objects, Answers buf len invoke expected objects →
      (answersOf objects).length ≤ cap → ∀ i (hi : i < cap) (ha : i < (answersOf objects).length),
      (Reports (parseReadPropertyMultipleAck buf len invoke out expected).out[i]
          (answersOf objects)[i] ↔
        ((answersOf objects)[i].answer.isValue = true → out[i].error = false)) := by
    intro objects hobjects hroom i hi ha
    have hout := (multiple_out hobjects hroom out).2
    simp only [hout]
    rw [getElem_storeFrom _ _ _ (by omega) hi, dif_pos (by omega)]
    exact reports_store_iff
  constructor
  · intro h objects hobjects hroom i hi ha
    have hok := (multiple_ok_iff out).mpr ⟨objects, hobjects, hroom⟩
    exact (hentry objects hobjects hroom i hi ha).mp ((h.results hok objects hobjects).2 i hi ha)
  · intro h
    refine ⟨readObjects_run 0 out (by omega),
      fun buf' hsame => parseReadPropertyMultipleAck_within hsame invoke out, multiple_room out,
      fun hok => ?_, fun hok objects hobjects => ?_⟩
    · obtain ⟨objects, hobjects, -⟩ := (multiple_ok_iff out).mp hok
      exact ⟨objects, hobjects⟩
    · have hroom : (answersOf objects).length ≤ cap := by
        obtain ⟨objects', hobjects', hroom⟩ := (multiple_ok_iff out).mp hok
        rwa [hobjects.unique hobjects']
      exact ⟨(multiple_out hobjects hroom out).1, fun i hi ha =>
        (hentry objects hobjects hroom i hi ha).mpr (h objects hobjects hroom i hi ha)⟩

/-- The present value of an analog input, the number 21.5. -/
def plainAnswer : List UInt8 :=
  [0x81, 0x0A, 0, 0x19, 1, 0, 0x30, 7, 14, 0x0C, 0, 0, 0, 1, 0x1E, 0x29, 0x55, 0x4E, 0x44,
    0x41, 0xAC, 0, 0, 0x4F, 0x1F]

/-- An entry that was an error once stays one, whatever value is read into it. -/
theorem old_error_kept :
    ¬ReadsResults plainAnswer plainAnswer.length 7 #v[({ error := true } : PropertyValue)]
      (some ⟨.analogInput, 1⟩) := by
  intro h
  let objects : List TaggedObject := [⟨⟨0, true, false, [0, 0, 0, 1]⟩,
    [⟨⟨2, true, false, [85]⟩, .value ⟨4, false, false, [0x41, 0xAC, 0, 0]⟩⟩]⟩]
  have hobject : (⟨0, true, false, [0, 0, 0, 1]⟩ : RawTag).IsNumber 0 :=
    ⟨⟨by decide, nofun, by decide, by decide⟩, rfl, rfl, by decide, by decide⟩
  have hproperty : (⟨2, true, false, [85]⟩ : RawTag).IsNumber 2 :=
    ⟨⟨by decide, nofun, by decide, by decide⟩, rfl, rfl, by decide, by decide⟩
  have hvalue : (⟨4, false, false, [0x41, 0xAC, 0, 0]⟩ : RawTag).IsValue :=
    ⟨⟨by decide, nofun, by decide, nofun⟩, rfl⟩
  have hobjects : Answers plainAnswer plainAnswer.length 7 (some ⟨.analogInput, 1⟩) objects := by
    refine ⟨⟨0, 0x30, rfl, rfl, rfl, rfl, rfl, by decide, rfl⟩, ?_⟩
    refine List.forall_mem_singleton.mpr ⟨hobject, fun e he => Option.some.inj he ▸ ⟨rfl, .inr rfl⟩,
      List.forall_mem_singleton.mpr ⟨hproperty, hvalue, rfl⟩⟩
  have hok := (multiple_ok_iff #v[({ error := true } : PropertyValue)]).mpr
    ⟨objects, hobjects, show 1 ≤ 1 from le_rfl⟩
  have herror := ((h.results hok objects hobjects).2 0 (by decide) (by decide)).error
  have hkept : (parseReadPropertyMultipleAck plainAnswer plainAnswer.length 7
      #v[({ error := true } : PropertyValue)] (some ⟨.analogInput, 1⟩)).out[0].error = true := by
    decide +kernel
  rw [hkept] at herror
  cases herror

end Bacnet

end ArcticController

/-
A BACnet reading is accepted exactly when the device vouches for it in the exchange.

* `lastOf`, `presentValue`, `Tlv.statusFlags`: what the results say of a property;
* `Vouched`: a temperature that the device's answers of one exchange vouch for;
* `Unmarked`: no entry that takes a value carries the error mark of an earlier one;
* `BitsCounted`: the number of status flags is what eight bits can count;
* `GatheredFrom`, `judge_iff`: what is gathered are the last answers, and what is made
  of them;
* `reading_vouched`: then a reading is accepted exactly when it is vouched for, and is
  the one that fresh buffers give.
-/
import ArcticController.Bacnet.BacnetExchange

namespace ArcticController

namespace Bacnet

/-! ### What a device answers -/

def Answer.value? : Answer → Option Tlv
  | .error _ _ => none
  | .value t => some t

/-- The last answer of a property that `pick` finds something in. -/
def lastOf {α : Type} (pick : Tlv → Option α) (property : UInt32)
    (answers : List PropertyAnswer) : Option α :=
  answers.reverse.findSome? fun a =>
    if a.property = property then a.answer.value?.bind pick else none

/-- The bits of a Real. -/
def Tlv.realBits (t : Tlv) : Option UInt32 :=
  if t.tag = 4 ∧ t.content.length = 4 then some (readBe t.content) else none

/-- An Enumerated of at most four octets. -/
def Tlv.enumerated (t : Tlv) : Option UInt32 :=
  if t.tag = 9 ∧ 0 < t.content.length ∧ t.content.length ≤ 4 then some (readBe t.content) else none

/-- The number of bits of a bit string: its first octet is the number of unused ones. -/
def Tlv.bitLength (t : Tlv) : ℕ := 8 * (t.content.length - 1) - (t.content.headD 0).toNat

/-- The first octet of at least four status flags. -/
def Tlv.statusFlags (t : Tlv) : Option UInt8 :=
  if t.tag = 8 ∧ 4 ≤ t.bitLength then some (t.content.tail.headD 0) else none

/-- The present value is answered with an error. -/
def valueError (a : PropertyAnswer) : Bool :=
  !a.answer.isValue && a.property == propPresentValue

/-- The last Real present value, if none is answered with an error. -/
def presentValue (answers : List PropertyAnswer) : Option UInt32 :=
  if answers.any valueError then none else lastOf Tlv.realBits propPresentValue answers

/-- The device's answers vouch for a temperature of `celsius`: a Real in supported
units, with status flags of which neither fault nor out of service is set, and no
reliability but no-fault, that is plausible. -/
structure VouchedBy (ops : FloatOps) (answers : List PropertyAnswer) (celsius : UInt32) : Prop where
  value : ∃ v units, presentValue answers = some v ∧
    lastOf Tlv.enumerated propUnits answers = some units ∧ unitsSupported units = true ∧
    celsius = bacnetToCelsius ops v units
  status : ∃ flags, lastOf Tlv.statusFlags propStatusFlags answers = some flags ∧
    bacnetStatusFault flags = false
  reliability : ∀ r, lastOf Tlv.enumerated propReliability answers = some r → r = kReliabilityNoFault
  temperature : plausibleCelsius ops celsius = true

/-- In an exchange with these replies the expected device vouches for `celsius`. -/
def Vouched (ops : FloatOps) (cfg : SensorConfig) (replies : ExchangeReplies) (l : Link)
    (celsius : UInt32) : Prop :=
  ∃ a, exchange cfg replies l = .ok a ∧
    (cfg.bacnetDeviceKnown = true → a.device = cfg.bacnetDeviceInstance) ∧
    VouchedBy ops a.answers celsius

/-! ### The defects -/

/-- No entry that takes a value carries an error mark. -/
def Unmarked (answers : List PropertyAnswer) (values : List PropertyValue) : Prop :=
  ∀ p ∈ answers.zip values, p.1.answer.isValue = true → p.2.error = false

instance (answers : List PropertyAnswer) (values : List PropertyValue) :
    Decidable (Unmarked answers values) := by
  unfold Unmarked
  infer_instance

/-- Eight bits count to at least four exactly if there are that many bits. They do not
if more bits are unused than there are, or if there are 256 or more. -/
def Tlv.BitsCounted (t : Tlv) : Prop :=
  t.tag = 8 → (4 ≤ UInt8.ofNat ((t.content.length - 1) * 8) - t.content.headD 0 ↔ 4 ≤ t.bitLength)

instance (t : Tlv) : Decidable t.BitsCounted := by
  unfold Tlv.BitsCounted
  infer_instance

/-- The status flags among some results are counted right. -/
def FlagsCounted (answers : List PropertyAnswer) : Prop :=
  ∀ a ∈ answers, a.property = propStatusFlags → ∀ t, a.answer = .value t → t.BitsCounted

/-- The exchange has no result that meets an error mark, or flags that are miscounted. -/
def Spared (cfg : SensorConfig) (replies : ExchangeReplies) (l : Link)
    (values : Vector PropertyValue 8) : Prop :=
  ∀ a, exchange cfg replies l = .ok a → Unmarked a.answers values.toList ∧ FlagsCounted a.answers

/-! ### Values -/

lemma Tlv.tag_eq_iff (t : Tlv) (n : UInt8) : t.tag = n ↔ t.tag.toNat = n.toNat :=
  UInt8.toNat_inj.symm

/-- The tags of the values that are looked at. -/
lemma Tlv.decode_type (t : Tlv) :
    (t.decode.2.type = .real → t.tag.toNat = 4) ∧ (t.decode.2.type = .enumerated → t.tag.toNat = 9) ∧
      (t.decode.2.type = .bitString → t.tag.toNat = 8) := by
  rw [Tlv.decode]
  split <;> (try split) <;> simp_all

/-- A value is decoded to a number exactly if it is a Real. -/
lemma Tlv.realBits_eq (t : Tlv) :
    t.realBits = if t.decode.2.type = .real then some t.decode.2.real else none := by
  have htag : t.tag = 4 ↔ t.tag.toNat = 4 := t.tag_eq_iff 4
  by_cases h : t.tag.toNat = 4
  · by_cases hlen : t.content.length = 4 <;> simp [Tlv.realBits, Tlv.decode, htag, h, hlen]
  · rw [Tlv.realBits, if_neg (fun h' => h (htag.mp h'.1)), if_neg (fun h' => h (t.decode_type.1 h'))]

lemma Tlv.enumerated_eq (t : Tlv) :
    t.enumerated = if t.decode.2.type = .enumerated then some t.decode.2.u else none := by
  have htag : t.tag = 9 ↔ t.tag.toNat = 9 := t.tag_eq_iff 9
  by_cases h : t.tag.toNat = 9
  · by_cases hsize : 0 < t.content.length ∧ t.content.length ≤ 4
    · have hzero : t.content.length ≠ 0 := by omega
      have hfour : ¬ 4 < t.content.length := by omega
      simp [Tlv.enumerated, Tlv.decode, htag, h, hsize, hzero, hfour]
    · rw [Tlv.enumerated, if_neg (fun h' => hsize h'.2)]
      have hrefused : (t.content.length == 0 || decide (4 < t.content.length)) = true := by
        rw [Bool.or_eq_true, beq_iff_eq, decide_eq_true_iff]
        omega
      simp [Tlv.decode, h, hrefused]
  · rw [Tlv.enumerated, if_neg (fun h' => h (htag.mp h'.1)),
      if_neg (fun h' => h (t.decode_type.2.1 h'))]

lemma Tlv.statusFlags_eq {t : Tlv} (hcounted : t.BitsCounted) :
    t.statusFlags
      = if t.decode.2.type = .bitString ∧ 4 ≤ t.decode.2.bitCount then some t.decode.2.bits
        else none := by
  have htag : t.tag = 8 ↔ t.tag.toNat = 8 := t.tag_eq_iff 8
  by_cases h : t.tag.toNat = 8
  · have hcount := hcounted (htag.mpr h)
    by_cases hempty : t.content.length = 0
    · simp [Tlv.statusFlags, Tlv.decode, htag, h, hempty, Tlv.bitLength]
    · have hpos : ¬ t.content.length < 1 := by omega
      simp [Tlv.statusFlags, Tlv.decode, htag, h, hpos, ← hcount]
  · rw [Tlv.statusFlags, if_neg (fun h' => h (htag.mp h'.1)),
      if_neg (fun h' => h (t.decode_type.2.2 h'.1))]

/-! ### What is gathered -/

lemma lastOf_concat {α : Type} (pick : Tlv → Option α) (property : UInt32)
    (answers : List PropertyAnswer) (a : PropertyAnswer) :
    lastOf pick property (answers ++ [a])
      = ((if a.property = property then a.answer.value?.bind pick else none).or
          (lastOf pick property answers)) := by
  rw [lastOf, List.reverse_append, List.reverse_singleton, List.singleton_append,
    List.findSome?_cons]
  cases (if a.property = property then a.answer.value?.bind pick else none) with
  | none => rfl
  | some x => rfl

lemma lastOf_concat_of_ne {α : Type} {pick : Tlv → Option α} {property : UInt32}
    {answers : List PropertyAnswer} {a : PropertyAnswer} (h : a.property ≠ property) :
    lastOf pick property (answers ++ [a]) = lastOf pick property answers := by
  rw [lastOf_concat, if_neg h, Option.none_or]

lemma lastOf_concat_error {α : Type} {pick : Tlv → Option α} {property : UInt32}
    {answers : List PropertyAnswer} {a : PropertyAnswer} {cls code : UInt8}
    (h : a.answer = .error cls code) :
    lastOf pick property (answers ++ [a]) = lastOf pick property answers := by
  rw [lastOf_concat, h]
  simp [Answer.value?]

/-- What a result does to an entry without a mark. -/
def gatherAnswer (g : Gathered) (a : PropertyAnswer) : Gathered := gatherEntry g (a.store {})

lemma gatherEntry_store {a : PropertyAnswer} {pv : PropertyValue} (g : Gathered)
    (h : a.answer.isValue = true → pv.error = false) :
    gatherEntry g (a.store pv) = gatherAnswer g a := by
  rw [gatherAnswer, gatherEntry, gatherEntry]
  cases hanswer : a.answer with
  | error cls code => simp only [PropertyAnswer.store, hanswer, if_true]
  | value t => simp only [PropertyAnswer.store, hanswer, h (by rw [hanswer]; rfl)]

/-- Without marks the entries give what the results give to fresh ones. -/
lemma foldl_store {γ : Type} {f : γ → PropertyValue → γ}
    (hf : ∀ g a pv, (a.answer.isValue = true → pv.error = false) →
      f g (PropertyAnswer.store a pv) = f g (a.store {}))
    (answers : List PropertyAnswer) (values : List PropertyValue)
    (hle : answers.length ≤ values.length) (h : Unmarked answers values) (g : γ) :
    (List.zipWith PropertyAnswer.store answers values).foldl f g
      = answers.foldl (fun g a => f g (a.store {})) g := by
  induction answers generalizing values g with
  | nil => rfl
  | cons a answers ih =>
      cases values with
      | nil => simp at hle
      | cons pv values =>
          rw [List.zipWith_cons_cons, List.foldl_cons, List.foldl_cons,
            hf g a pv (h (a, pv) (by simp))]
          exact ih values (by simpa using hle)
            (fun p hp => h p (by rw [List.zip_cons_cons]; exact List.mem_cons_of_mem _ hp)) _

lemma foldl_gatherEntry (answers : List PropertyAnswer) (values : List PropertyValue)
    (hle : answers.length ≤ values.length) (h : Unmarked answers values) (g : Gathered) :
    (List.zipWith PropertyAnswer.store answers values).foldl gatherEntry g
      = answers.foldl gatherAnswer g :=
  foldl_store (fun g _ _ hmark => gatherEntry_store g hmark) answers values hle h g

/-- What is gathered from some results: the last of each property. -/
structure GatheredFrom (answers : List PropertyAnswer) (g : Gathered) : Prop where
  error : g.reading.error = if answers.any valueError then .noReading else .none
  value : lastOf Tlv.realBits propPresentValue answers
    = if g.haveValue then some g.reading.celsius else none
  units : lastOf Tlv.enumerated propUnits answers
    = if g.haveUnits then some g.reading.units else none
  status : lastOf Tlv.statusFlags propStatusFlags answers
    = if g.haveStatus then some g.statusBits else none
  reliability : lastOf Tlv.enumerated propReliability answers
    = if g.reading.reliabilityKnown then some g.reading.reliability else none

lemma lastOf_concat_value {α : Type} {pick : Tlv → Option α} {property : UInt32}
    {answers : List PropertyAnswer} {a : PropertyAnswer} {t : Tlv} (h : a.property = property)
    (hanswer : a.answer = .value t) :
    lastOf pick property (answers ++ [a]) = (pick t).or (lastOf pick property answers) := by
  rw [lastOf_concat, if_pos h, hanswer]
  rfl

lemma gatherAnswer_error {a : PropertyAnswer} {cls code : UInt8} (g : Gathered)
    (h : a.answer = .error cls code) : gatherAnswer g a =
      if a.property = propPresentValue then { g with reading.error := .noReading } else g := by
  rw [gatherAnswer, gatherEntry]
  simp only [PropertyAnswer.store, h, if_true]

lemma gatherAnswer_value {a : PropertyAnswer} {t : Tlv} (g : Gathered) (h : a.answer = .value t) :
    gatherAnswer g a = applyBacnetValue a.property t.decode.2 g := by
  rw [gatherAnswer, gatherEntry]
  simp only [PropertyAnswer.store, h, Bool.false_eq_true, if_false]

/-- The step lemma. -/
lemma GatheredFrom.concat {answers : List PropertyAnswer} {g : Gathered}
    (h : GatheredFrom answers g) (a : PropertyAnswer)
    (hflags : a.property = propStatusFlags → ∀ t, a.answer = .value t → t.BitsCounted) :
    GatheredFrom (answers ++ [a]) (gatherAnswer g a) := by
  obtain ⟨herror, hvalue, hunits, hstatus, hreliability⟩ := h
  cases hanswer : a.answer with
  | error cls code =>
      have hmark : valueError a = (a.property == propPresentValue) := by
        rw [valueError, hanswer]
        rfl
      rw [gatherAnswer_error g hanswer]
      by_cases hprop : a.property = propPresentValue
      · rw [if_pos hprop]
        refine ⟨?_, ?_, ?_, ?_, ?_⟩
        · simp [List.any_append, hmark, hprop]
        all_goals rw [lastOf_concat_error hanswer]
        all_goals assumption
      · rw [if_neg hprop]
        refine ⟨?_, ?_, ?_, ?_, ?_⟩
        · simp [List.any_append, hmark, hprop, herror]
        all_goals rw [lastOf_concat_error hanswer]
        all_goals assumption
  | value t =>
      have hmark : valueError a = false := by
        rw [valueError, hanswer]
        rfl
      have hany : (answers ++ [a]).any valueError = answers.any valueError := by
        simp [List.any_append, hmark]
      have he : g.reading.error = if (answers ++ [a]).any valueError then .noReading else .none := by
        rw [hany, herror]
      have hv : a.property ≠ propPresentValue → lastOf Tlv.realBits propPresentValue
          (answers ++ [a]) = if g.haveValue then some g.reading.celsius else none :=
        fun hne => (lastOf_concat_of_ne hne).trans hvalue
      have hu : a.property ≠ propUnits → lastOf Tlv.enumerated propUnits (answers ++ [a])
          = if g.haveUnits then some g.reading.units else none :=
        fun hne => (lastOf_concat_of_ne hne).trans hunits
      have hs : a.property ≠ propStatusFlags → lastOf Tlv.statusFlags propStatusFlags
          (answers ++ [a]) = if g.haveStatus then some g.statusBits else none :=
        fun hne => (lastOf_concat_of_ne hne).trans hstatus
      have hr : a.property ≠ propReliability → lastOf Tlv.enumerated propReliability
          (answers ++ [a]) = if g.reading.reliabilityKnown then some g.reading.reliability else none :=
        fun hne => (lastOf_concat_of_ne hne).trans hreliability
      rw [gatherAnswer_value g hanswer, applyBacnetValue]
      by_cases hname : a.property = propObjectName
      · rw [if_pos hname]
        rw [hname] at hv hu hs hr
        split <;> exact ⟨he, hv (by decide), hu (by decide), hs (by decide), hr (by decide)⟩
      rw [if_neg hname]
      by_cases hpv : a.property = propPresentValue
      · rw [if_pos hpv]
        have hlast := (@lastOf_concat_value _ Tlv.realBits _ answers a t hpv hanswer).trans
          (congrArg (Option.or · _) t.realBits_eq)
        rw [hpv] at hu hs hr
        by_cases htype : t.decode.2.type = .real
        · rw [if_pos htype] at hlast ⊢
          exact ⟨he, hlast, hu (by decide), hs (by decide), hr (by decide)⟩
        · rw [if_neg htype] at hlast ⊢
          exact ⟨he, hlast.trans hvalue, hu (by decide), hs (by decide), hr (by decide)⟩
      rw [if_neg hpv]
      by_cases hun : a.property = propUnits
      · rw [if_pos hun]
        have hlast := (@lastOf_concat_value _ Tlv.enumerated _ answers a t hun hanswer).trans
          (congrArg (Option.or · _) t.enumerated_eq)
        rw [hun] at hs hr
        by_cases htype : t.decode.2.type = .enumerated
        · rw [if_pos htype] at hlast ⊢
          exact ⟨he, hv hpv, hlast, hs (by decide), hr (by decide)⟩
        · rw [if_neg htype] at hlast ⊢
          exact ⟨he, hv hpv, hlast.trans hunits, hs (by decide), hr (by decide)⟩
      rw [if_neg hun]
      by_cases hst : a.property = propStatusFlags
      · rw [if_pos hst]
        have hlast := (@lastOf_concat_value _ Tlv.statusFlags _ answers a t hst hanswer).trans
          (congrArg (Option.or · _) (Tlv.statusFlags_eq (hflags hst t hanswer)))
        rw [hst] at hr
        by_cases htype : t.decode.2.type = .bitString ∧ 4 ≤ t.decode.2.bitCount
        · rw [if_pos htype] at hlast ⊢
          exact ⟨he, hv hpv, hu hun, hlast, hr (by decide)⟩
        · rw [if_neg htype] at hlast ⊢
          exact ⟨he, hv hpv, hu hun, hlast.trans hstatus, hr (by decide)⟩
      rw [if_neg hst]
      by_cases hrel : a.property = propReliability
      · rw [if_pos hrel]
        have hlast := (@lastOf_concat_value _ Tlv.enumerated _ answers a t hrel hanswer).trans
          (congrArg (Option.or · _) t.enumerated_eq)
        by_cases htype : t.decode.2.type = .enumerated
        · rw [if_pos htype] at hlast ⊢
          exact ⟨he, hv hpv, hu hun, hs hst, hlast⟩
        · rw [if_neg htype] at hlast ⊢
          exact ⟨he, hv hpv, hu hun, hs hst, hlast.trans hreliability⟩
      rw [if_neg hrel]
      split
      · split <;> exact ⟨he, hv hpv, hu hun, hs hst, hr hrel⟩
      · exact ⟨he, hv hpv, hu hun, hs hst, hr hrel⟩

/-- What is gathered from the results of an exchange. -/
lemma gatheredFrom_foldl (device : UInt32) (answers : List PropertyAnswer)
    (hflags : FlagsCounted answers) : GatheredFrom answers
      (answers.foldl gatherAnswer { reading := BacnetReading.ofDevice device }) := by
  induction answers using List.reverseRecOn with
  | nil => exact ⟨rfl, rfl, rfl, rfl, rfl⟩
  | append_singleton answers a ih =>
      rw [List.foldl_append]
      refine (ih fun b hb => hflags b (List.mem_append_left _ hb)).concat a ?_
      exact hflags a (List.mem_append_right _ (List.mem_singleton_self a))

/-- A reading is made exactly of what the results vouch for. -/
lemma judge_iff (ops : FloatOps) {answers : List PropertyAnswer} {g : Gathered}
    (h : GatheredFrom answers g) (celsius : UInt32) :
    ((judge ops g).error = .none ∧ (judge ops g).celsius = celsius)
      ↔ VouchedBy ops answers celsius := by
  obtain ⟨herror, hvalue, hunits, hstatus, hreliability⟩ := h
  rw [judge]
  by_cases hmark : answers.any valueError = true
  · rw [if_pos hmark] at herror
    rw [if_pos (by rw [herror]; decide)]
    refine ⟨fun h => absurd (herror.symm.trans h.1) (by decide), fun h => ?_⟩
    obtain ⟨v, units, hv, -⟩ := h.value
    rw [presentValue, if_pos hmark] at hv
    cases hv
  rw [if_neg hmark] at herror
  rw [if_neg (by rw [herror]; decide)]
  have hpresent : presentValue answers = if g.haveValue then some g.reading.celsius else none := by
    rw [presentValue, if_neg hmark, hvalue]
  cases hhave : g.haveValue with
  | false =>
      refine ⟨fun h => absurd h.1 (by nofun), fun h => ?_⟩
      obtain ⟨v, units, hv, -⟩ := h.value
      rw [hpresent, hhave] at hv
      cases hv
  | true =>
      rw [hhave] at hpresent
      simp only [Bool.not_true, Bool.false_eq_true, if_false]
      by_cases hsupported : g.haveUnits = true ∧ unitsSupported g.reading.units = true
      swap
      · rw [if_pos (by revert hsupported; cases g.haveUnits <;> simp)]
        refine ⟨fun h => absurd h.1 (by nofun), fun h => ?_⟩
        obtain ⟨v, units, -, hu, hsup, -⟩ := h.value
        rw [hunits] at hu
        split at hu
        · next hknown =>
            cases hu
            exact absurd ⟨hknown, hsup⟩ hsupported
        · cases hu
      obtain ⟨hknown, hsup⟩ := hsupported
      rw [hknown] at hunits
      rw [if_neg (by rw [hknown, hsup]; decide)]
      cases hflags : g.haveStatus with
      | false =>
          refine ⟨fun h => absurd h.1 (by nofun), fun h => ?_⟩
          obtain ⟨flags, hf, -⟩ := h.status
          rw [hstatus, hflags] at hf
          cases hf
      | true =>
          rw [hflags] at hstatus
          simp only [Bool.not_true, Bool.false_eq_true, if_false]
          by_cases hfault : (g.reading.reliabilityKnown && g.reading.reliability != kReliabilityNoFault)
              || bacnetStatusFault g.statusBits
          · rw [if_pos hfault]
            refine ⟨fun h => absurd h.1 (by nofun), fun h => ?_⟩
            obtain ⟨flags, hf, hclear⟩ := h.status
            cases hstatus.symm.trans hf
            rw [hclear, Bool.or_false, Bool.and_eq_true, bne_iff_ne] at hfault
            rw [hfault.1] at hreliability
            exact absurd (h.reliability _ hreliability) hfault.2
          · rw [if_neg hfault]
            rw [Bool.or_eq_true, not_or, Bool.not_eq_true, Bool.not_eq_true] at hfault
            constructor
            · rintro ⟨hok, rfl⟩
              have hbounds : plausibleCelsius ops (bacnetToCelsius ops g.reading.celsius g.reading.units)
                  = true := by
                by_contra hno
                rw [if_neg hno] at hok
                cases hok
              refine ⟨⟨_, _, hpresent, hunits, hsup, rfl⟩, ⟨_, hstatus, hfault.2⟩, fun r hr => ?_,
                hbounds⟩
              rw [hreliability] at hr
              split at hr
              · next hrel =>
                  cases hr
                  have := hfault.1
                  rw [hrel, Bool.true_and] at this
                  simpa using this
              · cases hr
            · intro h
              obtain ⟨v, units, hv, hu, -, rfl⟩ := h.value
              cases hpresent.symm.trans hv
              cases hunits.symm.trans hu
              exact ⟨if_pos h.temperature, rfl⟩

/-! ### Exchanges without answers -/

lemma attemptReply_error {invoke service : UInt8} {expected : ObjectId} {attempts : List Attempt}
    {e : SensorError} (h : (attemptReply invoke service expected attempts).1 = .error e) :
    e ≠ .none := by
  induction attempts with
  | nil =>
      cases h
      decide
  | cons attempt attempts ih =>
      rw [attemptReply] at h
      split_ifs at h
      · cases h
        decide
      · cases h
        decide
      · cases hfirst : firstReply invoke service expected attempt.datagrams with
        | none =>
            rw [hfirst] at h
            exact ih h
        | some frame =>
            rw [hfirst] at h
            cases h

lemma answerTo_error {replies : Replies} {invoke service : UInt8} {expected : ObjectId}
    {connected : Bool} {e : SensorError}
    (h : (answerTo replies invoke service expected connected).1 = .error e) : e ≠ .none := by
  rw [answerTo] at h
  split at h
  · cases h
    decide
  · exact attemptReply_error h

lemma propertyFailure_error (p : Parse) (info : ErrorInfo) :
    (propertyFailure p info).error ≠ .none := by
  cases p <;> nofun

lemma mapBacnetParse_error (p : Parse) (info : ErrorInfo) :
    (mapBacnetParse p info).error ≠ .none := by
  cases p <;> nofun

lemma propertyReply_error {object : ObjectId} {property : UInt32} {arrayIndex : Option UInt32}
    {replies : Replies} {l : Link} {failure : ReadFailure}
    (h : (propertyReply object property arrayIndex replies l).1 = .error failure) :
    failure.error ≠ .none := by
  rw [propertyReply] at h
  cases hbuild : buildReadProperty (nextInvoke l.invoke) object.type object.inst property arrayIndex
      kMaxFrame with
  | none =>
      rw [hbuild] at h
      cases h
      rintro ⟨⟩
  | some frame =>
      rw [hbuild] at h
      dsimp only at h
      rcases hanswer : answerTo replies (nextInvoke l.invoke) kServiceReadProperty object l.connected
        with ⟨_ | frame, connected⟩
      · rename_i e
        rw [hanswer] at h
        cases h
        exact answerTo_error (congrArg Prod.fst hanswer)
      · rw [hanswer] at h
        dsimp only at h
        cases htlv : propertyTlv frame frame.length (nextInvoke l.invoke) property (some object) with
        | error e =>
            rw [htlv] at h
            cases h
            exact propertyFailure_error _ _
        | ok t =>
            rw [htlv] at h
            cases h

lemma deviceReply_error {replies : Replies} {l : Link} {failure : ReadFailure}
    (h : (deviceReply replies l).1 = .error failure) : failure.error ≠ .none := by
  rw [deviceReply] at h
  rcases hreply : propertyReply ⟨.device, kDeviceWildcard⟩ propObjectIdentifier none replies l
    with ⟨_ | t, l'⟩
  · rw [hreply] at h
    cases h
    exact propertyReply_error (congrArg Prod.fst hreply)
  · rw [hreply] at h
    dsimp only at h
    cases hdevice : t.deviceInstance with
    | none =>
        rw [hdevice] at h
        cases h
        rintro ⟨⟩
    | some device =>
        rw [hdevice] at h
        cases h

lemma oneByOne_error {object : ObjectId} {single : UInt32 → Replies} {props : List UInt32}
    {l : Link} {failure : ReadFailure} (h : oneByOne object single props l = .error failure) :
    failure.error ≠ .none := by
  induction props generalizing l with
  | nil => cases h
  | cons prop props ih =>
      rw [oneByOne] at h
      rcases hreply : propertyReply object prop none (single prop) l with ⟨_ | t, l'⟩
      · rw [hreply] at h
        dsimp only at h
        split at h
        · cases h
          exact propertyReply_error (congrArg Prod.fst hreply)
        · exact ih h
      · rw [hreply] at h
        dsimp only at h
        cases hrest : oneByOne object single props l' with
        | error failure' =>
            rw [hrest] at h
            cases h
            exact ih hrest
        | ok answers =>
            rw [hrest] at h
            cases h

lemma acquired_error {object : ObjectId} {replies : ExchangeReplies} {l : Link}
    {failure : ReadFailure} (h : acquired object replies l = .error failure) :
    failure.error ≠ .none := by
  rw [acquired] at h
  cases hbuild : buildReadPropertyMultiple (nextInvoke l.invoke) object.type object.inst props
      kMaxFrame with
  | none =>
      rw [hbuild] at h
      cases h
      rintro ⟨⟩
  | some frame =>
      rw [hbuild] at h
      dsimp only at h
      rcases hanswer : answerTo replies.multiple (nextInvoke l.invoke) kServiceReadPropertyMultiple
        object l.connected with ⟨_ | frame, connected⟩
      · rw [hanswer] at h
        cases h
        exact answerTo_error (congrArg Prod.fst hanswer)
      · rw [hanswer] at h
        dsimp only at h
        cases hanswers : multipleAnswers frame frame.length (nextInvoke l.invoke) 8 (some object) with
        | ok answers =>
            rw [hanswers] at h
            cases h
        | error e =>
            obtain ⟨p, info⟩ := e
            rw [hanswers] at h
            cases p with
            | reject => exact oneByOne_error h
            | error => exact oneByOne_error h
            | _ =>
                cases h
                exact mapBacnetParse_error _ info

/-- An exchange without answers is a failure. -/
lemma exchange_error {cfg : SensorConfig} {replies : ExchangeReplies} {l : Link}
    {r : BacnetReading} (h : exchange cfg replies l = .error r) : r.error ≠ .none := by
  rw [exchange] at h
  rcases hreply : deviceReply replies.device l with ⟨_ | device, l'⟩
  · rw [hreply] at h
    cases h
    exact deviceReply_error (congrArg Prod.fst hreply)
  · rw [hreply] at h
    dsimp only at h
    split at h
    · cases h
      rintro ⟨⟩
    · cases hanswers : acquired (expectedObject cfg) replies l' with
      | error failure =>
          rw [hanswers] at h
          cases h
          exact acquired_error hanswers
      | ok answers =>
          rw [hanswers] at h
          cases h

/-- An exchange that has answers has them from the expected device. -/
lemma exchange_device {cfg : SensorConfig} {replies : ExchangeReplies} {l : Link} {a : Acquired}
    (h : exchange cfg replies l = .ok a) :
    cfg.bacnetDeviceKnown = true → a.device = cfg.bacnetDeviceInstance := by
  intro hknown
  rw [exchange] at h
  rcases hreply : deviceReply replies.device l with ⟨_ | device, l'⟩
  · rw [hreply] at h
    cases h
  · rw [hreply] at h
    dsimp only at h
    split at h
    · cases h
    · next hwrong =>
        cases hanswers : acquired (expectedObject cfg) replies l' with
        | error failure =>
            rw [hanswers] at h
            cases h
        | ok answers =>
            rw [hanswers] at h
            cases h
            rw [hknown, Bool.true_and, Bool.not_eq_true, bne_eq_false_iff_eq] at hwrong
            exact hwrong

/-- There are no more results than entries. -/
lemma exchange_length {cfg : SensorConfig} {replies : ExchangeReplies} {l : Link} {a : Acquired}
    (h : exchange cfg replies l = .ok a) : a.answers.length ≤ 8 := by
  rw [exchange] at h
  rcases hreply : deviceReply replies.device l with ⟨_ | device, l'⟩
  · rw [hreply] at h
    cases h
  · rw [hreply] at h
    dsimp only at h
    split at h
    · cases h
    · have hvalues := acquireValues_eq (expectedObject cfg) replies
        { invoke := l'.invoke, connected := l'.connected }
      dsimp only [Session.link] at hvalues
      cases hanswers : acquired (expectedObject cfg) replies l' with
      | error failure =>
          rw [hanswers] at h
          cases h
      | ok answers =>
          rw [hanswers] at h hvalues
          cases h
          exact hvalues.1

/-! ### Readings over whole runs -/

/-- A reading is accepted, with its temperature, exactly if the device vouches for that
in the exchange, and it is the one that fresh buffers give. -/
structure ReadingVouched (ops : FloatOps) (cfg : SensorConfig) (replies : ExchangeReplies)
    (w : WorkerContext) : Prop where
  accepted : ∀ celsius,
    ((bacnetReadValue ops cfg replies { toWorkerContext := w }).1.error = .none ∧
      (bacnetReadValue ops cfg replies { toWorkerContext := w }).1.celsius = celsius)
      ↔ Vouched ops cfg replies ⟨w.invoke, true⟩ celsius
  fresh : (bacnetReadValue ops cfg replies { toWorkerContext := w }).1
    = (bacnetReadValue ops cfg replies { toWorkerContext := { invoke := w.invoke } }).1

/-- The reading of an exchange in which no result meets a mark. -/
lemma bacnetReadValue_unmarked (ops : FloatOps) {cfg : SensorConfig} {replies : ExchangeReplies}
    {w : WorkerContext} {a : Acquired} (ha : exchange cfg replies ⟨w.invoke, true⟩ = .ok a)
    (hunmarked : Unmarked a.answers w.values.toList) :
    (bacnetReadValue ops cfg replies { toWorkerContext := w }).1 = judge ops
      (a.answers.foldl gatherAnswer { reading := BacnetReading.ofDevice a.device }) := by
  rw [bacnetReadValue_eq]
  dsimp only [Session.link]
  rw [ha]
  dsimp only
  rw [foldl_gatherEntry _ _ (by simpa using exchange_length ha) hunmarked]

/-- Fresh buffers have no marks. -/
lemma unmarked_fresh (answers : List PropertyAnswer) :
    Unmarked answers (Vector.replicate 8 ({} : PropertyValue)).toList := by
  intro p hp _
  have hmem := (List.of_mem_zip hp).2
  rw [Vector.toList_replicate] at hmem
  rw [List.eq_of_mem_replicate hmem]

/-- **A reading is accepted exactly when the device vouches for it now**: after any
polls and browses, whatever comes back in the exchange, and whether the properties
come in one answer or one by one, as long as no value is written over an error mark
that an earlier exchange left and the status flags are no more than eight bits can
count. -/
theorem reading_vouched (ops : FloatOps) {exchanges : List WorkerExchange} {cfg : SensorConfig}
    {replies : ExchangeReplies} (h : Spared cfg replies ⟨(workerAfter ops exchanges).invoke, true⟩
      (workerAfter ops exchanges).values) :
    ReadingVouched ops cfg replies (workerAfter ops exchanges) := by
  generalize workerAfter ops exchanges = w at h
  cases hanswers : exchange cfg replies ⟨w.invoke, true⟩ with
  | error r =>
      have hread : ∀ w' : WorkerContext, w'.invoke = w.invoke →
          (bacnetReadValue ops cfg replies { toWorkerContext := w' }).1 = r := by
        intro w' hinvoke
        rw [bacnetReadValue_eq]
        dsimp only [Session.link]
        rw [hinvoke, hanswers]
      refine ⟨fun celsius => ⟨fun haccepted => ?_, ?_⟩, ?_⟩
      · rw [hread w rfl] at haccepted
        exact absurd haccepted.1 (exchange_error hanswers)
      · rintro ⟨a, ha, -⟩
        cases hanswers.symm.trans ha
      · rw [hread w rfl, hread { invoke := w.invoke } rfl]
  | ok a =>
      obtain ⟨hunmarked, hflags⟩ := h a hanswers
      have hread := bacnetReadValue_unmarked ops hanswers hunmarked
      have hfresh := bacnetReadValue_unmarked ops (w := { invoke := w.invoke }) hanswers
        (unmarked_fresh a.answers)
      refine ⟨fun celsius => ?_, hread.trans hfresh.symm⟩
      rw [hread, judge_iff ops (gatheredFrom_foldl a.device a.answers hflags)]
      constructor
      · exact fun hvouched => ⟨a, hanswers, exchange_device hanswers, hvouched⟩
      · rintro ⟨a', ha', -, hvouched⟩
        cases hanswers.symm.trans ha'
        exact hvouched

/-- The order of numbers by their bits, where neither is no number; there is no
arithmetic in degrees Celsius. -/
def celsiusOps : FloatOps where
  sub v _ := v
  mul v _ := v
  div v _ := v
  le a b :=
    let key (v : UInt32) : ℤ :=
      if v &&& 0x80000000 = 0 then v.toNat else -((v &&& 0x7FFFFFFF).toNat : ℤ)
    decide (key a ≤ key b)

/-- Analog input 3 of device 7. -/
def analogInput3 : SensorConfig :=
  { defaultSensor with
    source := .bacnetIp
    bacnetInstance := 3
    bacnetDeviceKnown := true
    bacnetDeviceInstance := 7 }

/-- The frames in which device 7 names itself and answers with some results. -/
def device7 (invoke : UInt8) (results : List UInt8) : ExchangeReplies where
  device := { first := { datagrams := [[0x81, 0x0A, 0, 23, 1, 0, 0x30, invoke, 12, 0x0C, 2, 0, 0, 7,
    0x19, 75, 0x3E, 0xC4, 2, 0, 0, 7, 0x3F]] } }
  multiple := { first := { datagrams := [[0x81, 0x0A, 0, UInt8.ofNat (16 + results.length), 1, 0, 0x30,
    invoke + 1, 14, 0x0C, 0, 0, 0, 3, 0x1E] ++ results ++ [0x1F]] } }

/-- Degrees Celsius, and none of four status flags. -/
def celsiusInOrder : List UInt8 := [0x29, 117, 0x4E, 0x91, 62, 0x4F, 0x29, 111, 0x4E, 0x82, 4, 0, 0x4F]

/-- A present value of 21.5. -/
def value21 : List UInt8 := [0x29, 85, 0x4E, 0x44, 0x41, 0xAC, 0, 0, 0x4F]

/-- A present value answered with an error. -/
def valueRefused : List UInt8 := [0x29, 85, 0x5E, 0x09, 2, 0x19, 31, 0x5F]

/-- A browse that found no device, then a poll of 21.5 degrees. -/
theorem reading_vouched_afterBrowse : ReadingVouched celsiusOps analogInput3
    (device7 1 (value21 ++ celsiusInOrder)) (workerAfter celsiusOps [.browse []]) := by
  refine reading_vouched celsiusOps fun a ha => ?_
  have hanswers : exchange analogInput3 (device7 1 (value21 ++ celsiusInOrder)) ⟨0, true⟩
      = .ok ⟨7, [⟨⟨⟨0⟩, 3⟩, 85, .value ⟨4, [0x41, 0xAC, 0, 0]⟩⟩, ⟨⟨⟨0⟩, 3⟩, 117, .value ⟨9, [62]⟩⟩,
        ⟨⟨⟨0⟩, 3⟩, 111, .value ⟨8, [4, 0]⟩⟩]⟩ := by
    decide +kernel
  cases hanswers.symm.trans ha
  refine ⟨by decide, fun b hb _ t ht => ?_⟩
  simp only [List.mem_cons, List.not_mem_nil, or_false] at hb
  rcases hb with rfl | rfl | rfl <;> cases ht <;> decide

/-- A poll whose present value is answered with an error leaves its mark: the next one,
in which the device vouches for 21.5 degrees, has no reading. -/
theorem marked_entry_hides_reading : ¬ ReadingVouched celsiusOps analogInput3
    (device7 3 (value21 ++ celsiusInOrder))
    (workerAfter celsiusOps [.poll analogInput3 (device7 1 (valueRefused ++ celsiusInOrder))]) := by
  intro h
  have hfresh := congrArg (fun r => r.error) h.fresh
  revert hfresh
  decide +kernel

end Bacnet

end ArcticController

/-
What a browse makes of the answers of the objects, one after the other.

* `ObjectAnswers`, `BrowseEntry`, `ownEntry`: an object's answers, and the sensor they
  describe;
* `leftIn`, `entryOver`, `listing`: what skipped objects leave in the slot, and the
  sensors listed over that;
* `GivenItself`, `GivenThemselves`, `listing_eq_own_iff`: these are the objects' own
  exactly if every object gives itself what was left;
* `field_foldl`, `HeldBy`, `Listed`, `Listed.fillSlot`: the slots are filled so.
-/
import ArcticController.Bacnet.Browse
import ArcticController.Bacnet.ReadingVouched

namespace ArcticController

namespace Bacnet

/-! ### Sensors -/

/-- An object whose properties were answered. -/
structure ObjectAnswers where
  object : ObjectId
  answers : List PropertyAnswer
deriving DecidableEq

/-- A sensor as it is handed out, its arrays read as strings. -/
structure BrowseEntry where
  objectType : BacnetObjectType
  objectInstance : UInt32
  objectName : List UInt8
  celsius : UInt32
  units : UInt32
  reliability : UInt32
  reliabilityKnown : Bool
  available : Bool
  romValid : Bool
  romHex : List UInt8
deriving DecidableEq

def BrowseSensor.entry (s : BrowseSensor) : BrowseEntry where
  objectType := s.objectType
  objectInstance := s.objectInstance
  objectName := s.objectName.cstr
  celsius := s.celsius
  units := s.units
  reliability := s.reliability
  reliabilityKnown := s.reliabilityKnown
  available := s.available
  romValid := s.romValid
  romHex := s.romHex.cstr

/-- The sensors of a result. -/
def BrowseResult.entries (out : BrowseResult) : List BrowseEntry :=
  (out.sensors.toList.take out.count).map BrowseSensor.entry

/-- A character string, up to its first terminator. -/
def Tlv.text (t : Tlv) : Option (List UInt8) :=
  if t.decode.2.type = .string then some t.decode.2.string else none

/-- A character string that is a ROM id. -/
def Tlv.romId (t : Tlv) : Option (List UInt8) :=
  if t.decode.2.type = .string ∧ t.decode.2.hex16 then some t.decode.2.string else none

/-- The first octet of a bit string that counts as at least four flags. -/
def Tlv.flagBits (t : Tlv) : Option UInt8 :=
  if t.decode.2.type = .bitString ∧ 4 ≤ t.decode.2.bitCount then some t.decode.2.bits else none

/-- As much of an object name as is kept. -/
def nameIn (answers : List PropertyAnswer) : List UInt8 :=
  ((lastOf Tlv.text propObjectName answers).map (·.take 40)).getD []

def romIn (answers : List PropertyAnswer) : List UInt8 :=
  ((lastOf Tlv.romId propDescription answers).map (·.take 16)).getD []

def valueIn (answers : List PropertyAnswer) : Option UInt32 :=
  lastOf Tlv.realBits propPresentValue answers

def reliabilityIn (answers : List PropertyAnswer) : Option UInt32 :=
  lastOf Tlv.enumerated propReliability answers

/-- The units, if they are supported ones. -/
def supportedUnits (answers : List PropertyAnswer) : Option UInt32 :=
  (lastOf Tlv.enumerated propUnits answers).filter unitsSupported

/-- No fault, and not out of service. -/
def inService (answers : List PropertyAnswer) : Bool :=
  (lastOf Tlv.flagBits propStatusFlags answers).any fun bits => !bacnetStatusFault bits

/-- The sensor that an object's answers describe, if they carry supported units. -/
def ownEntry (ops : FloatOps) (a : ObjectAnswers) : Option BrowseEntry :=
  (supportedUnits a.answers).map fun units =>
    let celsius := ((valueIn a.answers).map (bacnetToCelsius ops · units)).getD 0
    { objectType := perfBacnetType a.object.type
      objectInstance := a.object.inst
      objectName := nameIn a.answers
      celsius := celsius
      units := units
      reliability := (reliabilityIn a.answers).getD kReliabilityUnknown
      reliabilityKnown := (reliabilityIn a.answers).isSome
      available := (valueIn a.answers).isSome && inService a.answers
        && (reliabilityIn a.answers).all (· == kReliabilityNoFault) && plausibleCelsius ops celsius
      romValid := (lastOf Tlv.romId propDescription a.answers).isSome
      romHex := romIn a.answers }

/-! ### Slots -/

/-- What the objects skipped since the last sensor answered, and what comes after
another object. -/
def leave (left : List PropertyAnswer) (a : ObjectAnswers) : List PropertyAnswer :=
  if (supportedUnits a.answers).isSome then [] else left ++ a.answers

def leftIn (objects : List ObjectAnswers) : List PropertyAnswer := objects.foldl leave []

/-- The sensor listed for an object in supported units over what was left. -/
def entryOver (ops : FloatOps) (left : List PropertyAnswer) (units : UInt32) (a : ObjectAnswers) :
    BrowseEntry :=
  let celsius := ((valueIn a.answers).map (bacnetToCelsius ops · units)).getD ((valueIn left).getD 0)
  let known := (reliabilityIn (left ++ a.answers)).isSome
  let reliability := (reliabilityIn a.answers).getD kReliabilityUnknown
  { objectType := perfBacnetType a.object.type
    objectInstance := a.object.inst
    objectName := nameIn (left ++ a.answers)
    celsius := celsius
    units := units
    reliability := reliability
    reliabilityKnown := known
    available := (valueIn a.answers).isSome && inService a.answers
      && (!known || reliability == kReliabilityNoFault) && plausibleCelsius ops celsius
    romValid := (lastOf Tlv.romId propDescription (left ++ a.answers)).isSome
    romHex := romIn (left ++ a.answers) }

/-- The sensors listed for some objects. -/
def listing (ops : FloatOps) (objects : List ObjectAnswers) : List BrowseEntry :=
  (objects.foldl (fun (r : List BrowseEntry × List PropertyAnswer) a =>
    (r.1 ++ ((supportedUnits a.answers).map fun units => entryOver ops r.2 units a).toList,
      leave r.2 a)) ([], [])).1

/-- An object in supported units gives itself what was left, unless that is an empty
name or a value of zero. -/
structure GivenItself (left answers : List PropertyAnswer) : Prop where
  objectName : (lastOf Tlv.text propObjectName answers).isSome = true ∨ nameIn left = []
  value : (valueIn answers).isSome = true ∨ (valueIn left).getD 0 = 0
  reliability : (reliabilityIn answers).isSome = true ∨ reliabilityIn left = none
  romId : (lastOf Tlv.romId propDescription answers).isSome = true ∨
    lastOf Tlv.romId propDescription left = none

/-- Every listed object gives itself what the objects skipped before it left. -/
def GivenThemselves (objects : List ObjectAnswers) : Prop :=
  ∀ pre a post, objects = pre ++ a :: post → (supportedUnits a.answers).isSome = true →
    GivenItself (leftIn pre) a.answers

/-! ### Own entries -/

lemma lastOf_append {α : Type} (pick : Tlv → Option α) (property : UInt32)
    (left answers : List PropertyAnswer) : lastOf pick property (left ++ answers)
      = (lastOf pick property answers).or (lastOf pick property left) := by
  rw [lastOf, lastOf, lastOf, List.reverse_append, List.findSome?_append]

lemma leftIn_concat (objects : List ObjectAnswers) (a : ObjectAnswers) :
    leftIn (objects ++ [a]) = leave (leftIn objects) a := by
  rw [leftIn, List.foldl_append]
  rfl

lemma listing_concat (ops : FloatOps) (objects : List ObjectAnswers) (a : ObjectAnswers) :
    listing ops (objects ++ [a]) = listing ops objects
      ++ ((supportedUnits a.answers).map fun units => entryOver ops (leftIn objects) units a).toList := by
  have hleft : ∀ objects : List ObjectAnswers, ∀ r : List BrowseEntry × List PropertyAnswer,
      (objects.foldl (fun (r : List BrowseEntry × List PropertyAnswer) a =>
        (r.1 ++ ((supportedUnits a.answers).map fun units => entryOver ops r.2 units a).toList,
          leave r.2 a)) r).2 = objects.foldl leave r.2 := by
    intro objects
    induction objects with
    | nil => exact fun r => rfl
    | cons a objects ih => exact fun r => ih _
  rw [listing, List.foldl_append, List.foldl_cons, List.foldl_nil, hleft]
  rfl

lemma givenThemselves_nil : GivenThemselves [] :=
  fun pre a post h => absurd (congrArg List.length h) (by simp)

lemma givenThemselves_concat (objects : List ObjectAnswers) (a : ObjectAnswers) :
    GivenThemselves (objects ++ [a]) ↔ GivenThemselves objects ∧
      ((supportedUnits a.answers).isSome = true → GivenItself (leftIn objects) a.answers) := by
  constructor
  · refine fun h => ⟨fun pre x post hsplit => ?_, h objects a [] rfl⟩
    refine h pre x (post ++ [a]) ?_
    rw [hsplit, List.append_assoc, List.cons_append]
  · rintro ⟨hbefore, hlast⟩ pre x post hsplit hunits
    rcases split_step (e := some a) hsplit with ⟨hx, rfl, -⟩ | ⟨post', rfl, -⟩
    · cases hx
      exact hlast hunits
    · exact hbefore pre x post' rfl hunits

/-- An answer is given over what was left exactly if it is given, or nothing was left. -/
lemma isSome_over_iff {α : Type} (pick : Tlv → Option α) (property : UInt32)
    (left answers : List PropertyAnswer) :
    (lastOf pick property (left ++ answers)).isSome = (lastOf pick property answers).isSome ↔
      (lastOf pick property answers).isSome = true ∨ lastOf pick property left = none := by
  rw [lastOf_append]
  cases lastOf pick property answers with
  | none => simp
  | some x => simp

lemma nameIn_over_iff (left answers : List PropertyAnswer) :
    nameIn (left ++ answers) = nameIn answers ↔
      (lastOf Tlv.text propObjectName answers).isSome = true ∨ nameIn left = [] := by
  rw [nameIn, nameIn, nameIn, lastOf_append]
  cases lastOf Tlv.text propObjectName answers with
  | none => simp
  | some name => simp

lemma romIn_over {left answers : List PropertyAnswer}
    (h : (lastOf Tlv.romId propDescription answers).isSome = true ∨
      lastOf Tlv.romId propDescription left = none) : romIn (left ++ answers) = romIn answers := by
  rw [romIn, romIn, lastOf_append]
  rcases h with h | h
  · obtain ⟨rom, hrom⟩ := Option.isSome_iff_exists.mp h
    rw [hrom, Option.some_or]
  · rw [h, Option.or_none]

/-- The sensor listed is the one over a fresh slot exactly if the object gives itself
what was left. -/
lemma entryOver_eq_iff (ops : FloatOps) (left : List PropertyAnswer) (units : UInt32)
    (a : ObjectAnswers) :
    entryOver ops left units a = entryOver ops [] units a ↔ GivenItself left a.answers := by
  constructor
  · intro h
    refine ⟨(nameIn_over_iff _ _).mp (congrArg BrowseEntry.objectName h), ?_,
      (isSome_over_iff _ _ _ _).mp (congrArg BrowseEntry.reliabilityKnown h),
      (isSome_over_iff _ _ _ _).mp (congrArg BrowseEntry.romValid h)⟩
    have hcelsius := congrArg BrowseEntry.celsius h
    dsimp only [entryOver] at hcelsius
    cases hvalue : valueIn a.answers with
    | none =>
        rw [hvalue] at hcelsius
        exact .inr hcelsius
    | some v => exact .inl rfl
  · intro h
    have hcelsius : ((valueIn a.answers).map (bacnetToCelsius ops · units)).getD ((valueIn left).getD 0)
        = ((valueIn a.answers).map (bacnetToCelsius ops · units)).getD 0 := by
      rcases h.value with h | h
      · obtain ⟨v, hv⟩ := Option.isSome_iff_exists.mp h
        rw [hv]
        rfl
      · rw [h]
    have hname := (nameIn_over_iff left a.answers).mpr h.objectName
    have hknown : (reliabilityIn (left ++ a.answers)).isSome = (reliabilityIn a.answers).isSome :=
      (isSome_over_iff _ _ left a.answers).mpr h.reliability
    have hrom := (isSome_over_iff Tlv.romId propDescription left a.answers).mpr h.romId
    rw [entryOver, entryOver, hcelsius, hname, hknown, hrom, romIn_over h.romId]
    rfl

/-- An object's own sensor is the one listed over a fresh slot. -/
lemma ownEntry_eq (ops : FloatOps) (a : ObjectAnswers) :
    ownEntry ops a = (supportedUnits a.answers).map fun units => entryOver ops [] units a := by
  have hreliability : (reliabilityIn a.answers).all (· == kReliabilityNoFault)
      = (!(reliabilityIn a.answers).isSome
        || (reliabilityIn a.answers).getD kReliabilityUnknown == kReliabilityNoFault) := by
    cases reliabilityIn a.answers <;> rfl
  rw [ownEntry]
  congr 1
  funext units
  rw [hreliability]
  rfl

/-- The sensors listed are the objects' own exactly if the objects give themselves what
was left. -/
theorem listing_eq_own_iff (ops : FloatOps) (objects : List ObjectAnswers) :
    listing ops objects = objects.filterMap (ownEntry ops) ↔ GivenThemselves objects := by
  induction objects using List.reverseRecOn with
  | nil => exact ⟨fun _ => givenThemselves_nil, fun _ => rfl⟩
  | append_singleton objects a ih =>
      rw [listing_concat, List.filterMap_append, givenThemselves_concat, ← ih]
      cases hunits : supportedUnits a.answers with
      | none => simp [ownEntry, hunits]
      | some units =>
          have hown : [a].filterMap (ownEntry ops) = [entryOver ops [] units a] := by
            rw [List.filterMap_cons, ownEntry_eq, hunits]
            rfl
          rw [hown, Option.map_some, Option.toList_some]
          constructor
          · intro h
            obtain ⟨hbefore, hlast⟩ := List.append_inj' h rfl
            exact ⟨hbefore, fun _ => (entryOver_eq_iff ops _ units a).mp (List.singleton_inj.mp hlast)⟩
          · rintro ⟨hbefore, hlast⟩
            rw [hbefore, (entryOver_eq_iff ops _ units a).mpr (hlast rfl)]

/-! ### What a slot holds -/

/-- What a result does to the slot without a mark. -/
def browseAnswer (g : BrowseGathered) (a : PropertyAnswer) : BrowseGathered :=
  browseEntry g (a.store {})

lemma browseEntry_store {a : PropertyAnswer} {pv : PropertyValue} (g : BrowseGathered)
    (h : a.answer.isValue = true → pv.error = false) :
    browseEntry g (a.store pv) = browseAnswer g a := by
  rw [browseAnswer, browseEntry, browseEntry]
  cases hanswer : a.answer with
  | error cls code => simp only [PropertyAnswer.store, hanswer, if_true]
  | value t => simp only [PropertyAnswer.store, hanswer, h (by rw [hanswer]; rfl)]

/-- A field that every value of a property overwrites holds the last one. -/
lemma field_foldl {α β : Type} {pick : Tlv → Option α} {property : UInt32}
    (field : BrowseGathered → β) (put : α → β)
    (hvalue : ∀ prop t g, field (applyBrowseValue prop t.decode.2 g)
      = ((if prop = property then pick t else none).map put).getD (field g))
    (answers : List PropertyAnswer) (g : BrowseGathered) :
    field (answers.foldl browseAnswer g)
      = ((lastOf pick property answers).map put).getD (field g) := by
  induction answers using List.reverseRecOn with
  | nil => rfl
  | append_singleton answers a ih =>
      rw [List.foldl_append, List.foldl_cons, List.foldl_nil, lastOf_concat, browseAnswer, browseEntry]
      cases hanswer : a.answer with
      | error cls code =>
          simp only [PropertyAnswer.store, hanswer, if_true, Answer.value?, Option.bind_none,
            ite_self, Option.none_or, ih]
      | value t =>
          simp only [PropertyAnswer.store, hanswer, Bool.false_eq_true, if_false, Answer.value?,
            Option.bind_some, hvalue, ih]
          cases (if a.property = property then pick t else none) with
          | none => rfl
          | some x => rfl

lemma gathered_objectName (answers : List PropertyAnswer) (g : BrowseGathered) :
    (answers.foldl browseAnswer g).sensor.objectName.cstr
      = ((lastOf Tlv.text propObjectName answers).map (·.take 40)).getD g.sensor.objectName.cstr := by
  refine field_foldl (fun g => g.sensor.objectName.cstr) _ (fun prop t g => ?_) answers g
  have hcopy := CharArray.cstr_strlcpy (by decide) g.sensor.objectName
    (CharArray.cstr_ne_zero t.decode.2.str)
  by_cases hprop : prop = propObjectName
  · subst hprop
    rw [applyBrowseValue, if_pos rfl, if_pos rfl, Tlv.text]
    split
    · exact hcopy
    · rfl
  · rw [applyBrowseValue, if_neg hprop, if_neg hprop]
    split_ifs <;> rfl

lemma gathered_value (answers : List PropertyAnswer) (g : BrowseGathered) :
    (answers.foldl browseAnswer g).sensor.celsius = (valueIn answers).getD g.sensor.celsius ∧
      (answers.foldl browseAnswer g).haveValue = ((valueIn answers).isSome || g.haveValue) := by
  have hvalue : ∀ prop (t : Tlv) (g : BrowseGathered),
      (applyBrowseValue prop t.decode.2 g).sensor.celsius
          = ((if prop = propPresentValue then t.realBits else none).map id).getD g.sensor.celsius ∧
        (applyBrowseValue prop t.decode.2 g).haveValue
          = ((if prop = propPresentValue then t.realBits else none).map fun _ => true).getD
            g.haveValue := by
    intro prop t g
    rw [t.realBits_eq]
    by_cases hprop : prop = propPresentValue
    · subst hprop
      rw [applyBrowseValue, if_neg (by decide), if_pos rfl, if_pos rfl]
      split_ifs <;> exact ⟨rfl, rfl⟩
    · simp only [applyBrowseValue, hprop, if_false]
      split_ifs <;> exact ⟨rfl, rfl⟩
  refine ⟨?_, ?_⟩
  · rw [field_foldl (fun g => g.sensor.celsius) id (fun prop t g => (hvalue prop t g).1) answers g,
      Option.map_id, valueIn]
    rfl
  · rw [field_foldl (fun g => g.haveValue) (fun _ => true) (fun prop t g => (hvalue prop t g).2)
      answers g, valueIn]
    cases lastOf Tlv.realBits propPresentValue answers <;> simp

lemma gathered_units (answers : List PropertyAnswer) (sensor : BrowseSensor) :
    let g := answers.foldl browseAnswer { sensor := sensor }
    (if g.haveUnits then some g.sensor.units else none)
      = lastOf Tlv.enumerated propUnits answers := by
  dsimp only
  rw [field_foldl (fun g => if g.haveUnits then some g.sensor.units else none) some
    (fun prop t g => ?_) answers { sensor := sensor }]
  · cases lastOf Tlv.enumerated propUnits answers <;> rfl
  · rw [t.enumerated_eq]
    by_cases hprop : prop = propUnits
    · subst hprop
      rw [if_pos rfl, show applyBrowseValue propUnits t.decode.2 g
        = if t.decode.2.type = .enumerated then
            { g with sensor.units := t.decode.2.u, haveUnits := true } else g from rfl]
      by_cases htype : t.decode.2.type = .enumerated
      · rw [if_pos htype, if_pos htype]
        rfl
      · rw [if_neg htype, if_neg htype]
        rfl
    · simp only [applyBrowseValue, hprop, if_false]
      split_ifs <;> rfl

lemma gathered_status (answers : List PropertyAnswer) (sensor : BrowseSensor) :
    let g := answers.foldl browseAnswer { sensor := sensor }
    (g.haveStatus && !bacnetStatusFault g.statusBits) = inService answers := by
  have hbits : ∀ g : BrowseGathered, (g.haveStatus && !bacnetStatusFault g.statusBits)
      = (if g.haveStatus then some g.statusBits else none).any fun bits => !bacnetStatusFault bits := by
    intro g
    cases hstatus : g.haveStatus with
    | false => rfl
    | true => rfl
  dsimp only
  rw [hbits, inService]
  congr 1
  rw [field_foldl (fun g => if g.haveStatus then some g.statusBits else none) some
    (fun prop t g => ?_) answers { sensor := sensor }]
  · cases lastOf Tlv.flagBits propStatusFlags answers <;> rfl
  · by_cases hprop : prop = propStatusFlags
    · subst hprop
      rw [if_pos rfl, Tlv.flagBits, show applyBrowseValue propStatusFlags t.decode.2 g
        = if t.decode.2.type = .bitString ∧ 4 ≤ t.decode.2.bitCount then
            { g with statusBits := t.decode.2.bits, haveStatus := true } else g from rfl]
      by_cases htype : t.decode.2.type = .bitString ∧ 4 ≤ t.decode.2.bitCount
      · rw [if_pos htype, if_pos htype]
        rfl
      · rw [if_neg htype, if_neg htype]
        rfl
    · simp only [applyBrowseValue, hprop, if_false]
      split_ifs <;> rfl

lemma gathered_reliability (answers : List PropertyAnswer) (g : BrowseGathered) :
    (answers.foldl browseAnswer g).sensor.reliability
        = (reliabilityIn answers).getD g.sensor.reliability ∧
      (answers.foldl browseAnswer g).sensor.reliabilityKnown
        = ((reliabilityIn answers).isSome || g.sensor.reliabilityKnown) := by
  have hvalue : ∀ prop (t : Tlv) (g : BrowseGathered),
      (applyBrowseValue prop t.decode.2 g).sensor.reliability
          = ((if prop = propReliability then t.enumerated else none).map id).getD
            g.sensor.reliability ∧
        (applyBrowseValue prop t.decode.2 g).sensor.reliabilityKnown
          = ((if prop = propReliability then t.enumerated else none).map fun _ => true).getD
            g.sensor.reliabilityKnown := by
    intro prop t g
    rw [t.enumerated_eq]
    by_cases hprop : prop = propReliability
    · subst hprop
      rw [applyBrowseValue, if_neg (by decide), if_neg (by decide), if_neg (by decide), if_pos rfl,
        if_pos rfl]
      split_ifs <;> exact ⟨rfl, rfl⟩
    · simp only [applyBrowseValue, hprop, if_false]
      split_ifs <;> exact ⟨rfl, rfl⟩
  refine ⟨?_, ?_⟩
  · rw [field_foldl (fun g => g.sensor.reliability) id (fun prop t g => (hvalue prop t g).1) answers g,
      Option.map_id, reliabilityIn]
    rfl
  · rw [field_foldl (fun g => g.sensor.reliabilityKnown) (fun _ => true)
      (fun prop t g => (hvalue prop t g).2) answers g, reliabilityIn]
    cases lastOf Tlv.enumerated propReliability answers <;> simp

lemma gathered_romId (answers : List PropertyAnswer) (g : BrowseGathered) :
    (answers.foldl browseAnswer g).sensor.romHex.cstr
        = ((lastOf Tlv.romId propDescription answers).map (·.take 16)).getD g.sensor.romHex.cstr ∧
      (answers.foldl browseAnswer g).sensor.romValid
        = ((lastOf Tlv.romId propDescription answers).isSome || g.sensor.romValid) := by
  have hvalue : ∀ prop (t : Tlv) (g : BrowseGathered),
      (applyBrowseValue prop t.decode.2 g).sensor.romHex.cstr
          = ((if prop = propDescription then t.romId else none).map (·.take 16)).getD
            g.sensor.romHex.cstr ∧
        (applyBrowseValue prop t.decode.2 g).sensor.romValid
          = ((if prop = propDescription then t.romId else none).map fun _ => true).getD
            g.sensor.romValid := by
    intro prop t g
    have hcopy := CharArray.cstr_strlcpy (by decide) g.sensor.romHex
      (CharArray.cstr_ne_zero t.decode.2.str)
    by_cases hprop : prop = propDescription
    · subst hprop
      rw [applyBrowseValue, if_neg (by decide), if_neg (by decide), if_neg (by decide),
        if_neg (by decide), if_neg (by decide), if_pos rfl, if_pos rfl, Tlv.romId]
      split_ifs
      · exact ⟨hcopy, rfl⟩
      · exact ⟨rfl, rfl⟩
    · simp only [applyBrowseValue, hprop, if_false]
      split_ifs <;> exact ⟨rfl, rfl⟩
  refine ⟨field_foldl (fun g => g.sensor.romHex.cstr) _ (fun prop t g => (hvalue prop t g).1) answers g,
    ?_⟩
  rw [field_foldl (fun g => g.sensor.romValid) (fun _ => true) (fun prop t g => (hvalue prop t g).2)
    answers g]
  cases lastOf Tlv.romId propDescription answers <;> simp

/-- No value touches the rest of the slot. -/
lemma gathered_kept (answers : List PropertyAnswer) (g : BrowseGathered) :
    (answers.foldl browseAnswer g).sensor.objectType = g.sensor.objectType ∧
      (answers.foldl browseAnswer g).sensor.objectInstance = g.sensor.objectInstance := by
  have hkept : ∀ prop v (g : BrowseGathered),
      (applyBrowseValue prop v g).sensor.objectType = g.sensor.objectType ∧
        (applyBrowseValue prop v g).sensor.objectInstance = g.sensor.objectInstance := by
    intro prop v g
    rw [applyBrowseValue]
    split_ifs <;> exact ⟨rfl, rfl⟩
  induction answers generalizing g with
  | nil => exact ⟨rfl, rfl⟩
  | cons a answers ih =>
      obtain ⟨htype, hinstance⟩ := ih (browseAnswer g a)
      rw [List.foldl_cons, htype, hinstance, browseAnswer, browseEntry]
      split
      · exact ⟨rfl, rfl⟩
      · exact hkept _ _ g

/-- The slot holds what some answers left in a fresh one. -/
structure HeldBy (left : List PropertyAnswer) (slot : BrowseSensor) : Prop where
  objectName : slot.objectName.cstr = nameIn left
  celsius : slot.celsius = (valueIn left).getD 0
  reliabilityKnown : slot.reliabilityKnown = (reliabilityIn left).isSome
  romValid : slot.romValid = (lastOf Tlv.romId propDescription left).isSome
  romHex : slot.romHex.cstr = romIn left

lemma heldBy_fresh : HeldBy [] {} :=
  ⟨CharArray.cstr_zero, rfl, rfl, rfl, CharArray.cstr_zero⟩

section Gathered

variable {left : List PropertyAnswer} {slot : BrowseSensor}

/-- The step lemma: the slot holds the answers of one more object over what was left. -/
lemma HeldBy.gathered (h : HeldBy left slot) (object : ObjectId) (answers : List PropertyAnswer) :
    HeldBy (left ++ answers) (answers.foldl browseAnswer { sensor := slot.start object }).sensor := by
  refine ⟨?_, ?_, ?_, ?_, ?_⟩
  · rw [gathered_objectName, nameIn, lastOf_append]
    cases lastOf Tlv.text propObjectName answers with
    | none => exact h.objectName
    | some name => rfl
  · rw [(gathered_value answers _).1, valueIn, valueIn, lastOf_append]
    cases lastOf Tlv.realBits propPresentValue answers with
    | none => exact h.celsius
    | some v => rfl
  · rw [(gathered_reliability answers _).2, reliabilityIn, reliabilityIn, lastOf_append]
    cases lastOf Tlv.enumerated propReliability answers with
    | none => exact h.reliabilityKnown
    | some r => rfl
  · rw [(gathered_romId answers _).2, lastOf_append]
    cases lastOf Tlv.romId propDescription answers with
    | none => exact h.romValid
    | some rom => rfl
  · rw [(gathered_romId answers _).1, romIn, lastOf_append]
    cases lastOf Tlv.romId propDescription answers with
    | none => exact h.romHex
    | some rom => rfl

/-- The slot of an object in supported units is the sensor over what was left. -/
lemma HeldBy.listed (h : HeldBy left slot) (ops : FloatOps) (a : ObjectAnswers) {units : UInt32}
    (hunits : lastOf Tlv.enumerated propUnits a.answers = some units) :
    ((a.answers.foldl browseAnswer { sensor := slot.start a.object }).listed ops).entry
      = entryOver ops left units a := by
  have hheld := h.gathered a.object a.answers
  obtain ⟨hcelsius, hvalue⟩ := gathered_value a.answers { sensor := slot.start a.object }
  have hread := gathered_units a.answers (slot.start a.object)
  have hstatus := gathered_status a.answers (slot.start a.object)
  obtain ⟨hreliability, -⟩ := gathered_reliability a.answers { sensor := slot.start a.object }
  obtain ⟨htype, hinstance⟩ := gathered_kept a.answers { sensor := slot.start a.object }
  dsimp only at hread hstatus
  generalize a.answers.foldl browseAnswer { sensor := slot.start a.object } = g at *
  rw [hunits] at hread
  obtain ⟨-, rfl⟩ : g.haveUnits = true ∧ g.sensor.units = units := by
    cases hhave : g.haveUnits with
    | false =>
        rw [hhave] at hread
        cases hread
    | true =>
        rw [hhave] at hread
        exact ⟨rfl, Option.some.inj hread⟩
  have hfinal : (if g.haveValue then bacnetToCelsius ops g.sensor.celsius g.sensor.units
      else g.sensor.celsius)
      = ((valueIn a.answers).map (bacnetToCelsius ops · g.sensor.units)).getD ((valueIn left).getD 0) := by
    rw [hvalue, hcelsius]
    cases valueIn a.answers with
    | none => exact h.celsius
    | some v => rfl
  rw [BrowseGathered.listed, BrowseSensor.entry, entryOver]
  dsimp only
  rw [hfinal, hheld.objectName, hheld.reliabilityKnown, hheld.romValid, hheld.romHex, htype, hinstance,
    hreliability, ← hstatus, hvalue, Bool.or_false, Bool.and_assoc (valueIn a.answers).isSome]
  rfl

end Gathered

/-! ### The array -/

/-- The sensors of a result are those listed for some objects, and the next slot holds
what was left. -/
structure Listed (ops : FloatOps) (objects : List ObjectAnswers) (out : BrowseResult) : Prop where
  entries : out.entries = listing ops objects
  slot : ∀ h : out.count < kBrowseMaxResults, HeldBy (leftIn objects) out.sensors[out.count]
  fresh : ∀ i, ∀ h : i < kBrowseMaxResults, out.count < i → out.sensors[i] = {}
  count_le : out.count ≤ kBrowseMaxResults

lemma listed_fresh (ops : FloatOps) : Listed ops [] {} where
  entries := rfl
  slot h := by
    rw [show (({} : BrowseResult).sensors)[({} : BrowseResult).count] = {} from
      Vector.getElem_replicate ..]
    exact heldBy_fresh
  fresh i h _ := Vector.getElem_replicate ..
  count_le := by decide

/-- The sensors and their number are all that matters. -/
lemma Listed.congr {ops : FloatOps} {objects : List ObjectAnswers} {out out' : BrowseResult}
    (h : Listed ops objects out) (hsensors : out'.sensors = out.sensors)
    (hcount : out'.count = out.count) : Listed ops objects out' := by
  obtain ⟨ex, error, deviceName, modelName, known, device, sensors, count, total, scanned, truncated⟩ :=
    out'
  dsimp only at hsensors hcount
  subst hsensors hcount
  exact ⟨h.entries, h.slot, h.fresh, h.count_le⟩

/-- Writing the next slot keeps the sensors before it. -/
lemma take_set_slot {sensors : Vector BrowseSensor kBrowseMaxResults} {count : ℕ}
    (h : count < kBrowseMaxResults) (sensor : BrowseSensor) :
    (sensors.set count sensor).toList.take count = sensors.toList.take count := by
  rw [Vector.toList_set, List.take_set_of_le (Nat.le_refl count)]

lemma take_succ_set_slot {sensors : Vector BrowseSensor kBrowseMaxResults} {count : ℕ}
    (h : count < kBrowseMaxResults) (sensor : BrowseSensor) :
    (sensors.set count sensor).toList.take (count + 1) = sensors.toList.take count ++ [sensor] := by
  have hlen : count < (sensors.set count sensor).toList.length := by simpa using h
  rw [List.take_succ_eq_append_getElem hlen, take_set_slot h]
  simp

/-- The step lemma: an answered object is listed, or leaves its answers. -/
theorem Listed.fillSlot {ops : FloatOps} {objects : List ObjectAnswers} {out : BrowseResult}
    (h : Listed ops objects out) (a : ObjectAnswers) {stored : List PropertyValue}
    (hle : a.answers.length ≤ stored.length) (hunmarked : Unmarked a.answers stored)
    (hroom : out.count < kBrowseMaxResults) :
    Listed ops (objects ++ [a]) (fillSlot ops a.object
      (List.zipWith PropertyAnswer.store a.answers stored) out hroom) := by
  have hgathered : (List.zipWith PropertyAnswer.store a.answers stored).foldl browseEntry
      { sensor := out.sensors[out.count].start a.object }
      = a.answers.foldl browseAnswer { sensor := out.sensors[out.count].start a.object } :=
    foldl_store (fun g _ _ hmark => browseEntry_store g hmark) a.answers stored hle hunmarked _
  have hslot := h.slot hroom
  have hheld := hslot.gathered a.object a.answers
  have hlisted := fun units => @HeldBy.listed _ _ hslot ops a units
  have hread := gathered_units a.answers (out.sensors[out.count].start a.object)
  rw [Bacnet.fillSlot, hgathered]
  dsimp only at hread ⊢
  generalize a.answers.foldl browseAnswer { sensor := out.sensors[out.count].start a.object } = g at *
  by_cases hskip : (!g.haveUnits || !unitsSupported g.sensor.units) = true
  · have hnone : supportedUnits a.answers = none := by
      rw [supportedUnits, ← hread]
      cases hhave : g.haveUnits with
      | false => rfl
      | true =>
          rw [hhave] at hskip
          simpa using hskip
    rw [if_pos hskip]
    refine ⟨?_, fun _ => ?_, fun i hi hlt => ?_, h.count_le⟩
    · rw [listing_concat, hnone, ← h.entries, BrowseResult.entries, take_set_slot hroom]
      exact (List.append_nil _).symm
    · rw [leftIn_concat, leave, hnone, Vector.getElem_set_self]
      exact hheld
    · rw [Vector.getElem_set_ne _ _ (Nat.ne_of_lt hlt)]
      exact h.fresh i hi hlt
  · rw [Bool.or_eq_true, not_or, Bool.not_eq_true, Bool.not_eq_false', Bool.not_eq_true,
      Bool.not_eq_false'] at hskip
    rw [hskip.1, if_pos rfl] at hread
    have hunits : supportedUnits a.answers = some g.sensor.units := by
      rw [supportedUnits, ← hread]
      simpa using hskip.2
    rw [if_neg (by rw [hskip.1, hskip.2]; decide)]
    refine ⟨?_, fun hnext => ?_, fun i hi hlt => ?_, hroom⟩
    · rw [listing_concat, hunits, ← h.entries, BrowseResult.entries, take_succ_set_slot hroom,
        List.map_append, List.map_singleton, hlisted _ hread.symm]
      rfl
    · rw [leftIn_concat, leave, hunits, Vector.getElem_set_ne _ _ (Nat.ne_of_lt (Nat.lt_succ_self _)),
        h.fresh _ hnext (Nat.lt_succ_self _)]
      exact heldBy_fresh
    · dsimp only at hlt
      rw [Vector.getElem_set_ne _ _ (by omega)]
      exact h.fresh i hi (by omega)

end Bacnet

end ArcticController

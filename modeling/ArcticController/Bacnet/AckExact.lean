/-
Which answers to ReadProperty are read as BACnet prescribes.

* `PropertyAck`: an answer as it is prescribed, `npdu` its bytes;
* `ReadsExactly`: the answer is read within the frame, is accepted exactly if it is a prescribed
  one, and its value is the one encoded;
* `AnswersPrescribed`: the answer in a frame, if the client takes it, is a prescribed one, and a
  prescribed one has a value that fits;
* `acks_read_exactly`: the first holds exactly under the second;
* `true_refused`: the answer of a Boolean `true` is refused.
-/
import ArcticController.Bacnet.AckGrammar
import ArcticController.Bacnet.PrescribedValues

namespace ArcticController

namespace Bacnet

/-! ### Answers -/

/-- An answer to ReadProperty as BACnet prescribes it. -/
structure PropertyAck where
  control : UInt8
  pdu : UInt8
  object : ObjectId
  index : Option ℕ
  value : AppValue

namespace PropertyAck

/-- The object, the property, the array index if there is one, and the opening bracket. -/
def front (a : PropertyAck) (property : UInt32) : List UInt8 :=
  primitiveBytes 0 true (bytes32 (objectIdWord a.object.type a.object.inst)) ++
    (primitiveBytes 1 true (natBytes property.toNat) ++
      ((a.index.elim [] fun n => primitiveBytes 2 true (natBytes n)) ++ [0x3E]))

def npdu (a : PropertyAck) (invoke : UInt8) (property : UInt32) : List UInt8 :=
  kNpduVersion :: a.control :: a.pdu :: invoke :: kServiceReadProperty ::
    (a.front property ++ (a.value.bytes ++ [0x3F]))

/-- An application message without routing fields, and a ComplexACK that is not segmented. -/
structure WellFormed (a : PropertyAck) (wanted : Option ObjectId) : Prop where
  control : a.control &&& 0xA8 = 0
  pdu : a.pdu &&& 0xF8 = kComplexAck
  object : a.object.type.code < 1024 ∧ a.object.inst ≤ kDeviceWildcard
  expected : ∀ e ∈ wanted, Expected a.object e
  value : a.value.WellFormed

end PropertyAck

/-- The answer is read as it is prescribed, and no byte behind it. -/
structure ReadsExactly (buf : List UInt8) (len : ℕ) (invoke : UInt8) (property : UInt32)
    (expected : Option ObjectId) : Prop where
  within : ∀ buf' out, SameUpTo (readLength buf len) buf buf' →
    parseReadPropertyAck buf len invoke property out expected
      = parseReadPropertyAck buf' len invoke property out expected
  accepted : ∀ out, (parseReadPropertyAck buf len invoke property out expected).1 = .ok ↔
    ∃ a : PropertyAck, a.WellFormed expected ∧ Carried buf len (a.npdu invoke property)
  value : ∀ out (a : PropertyAck), a.WellFormed expected →
    Carried buf len (a.npdu invoke property) →
    a.value.Represents (parseReadPropertyAck buf len invoke property out expected).2.1

/-- A tagged answer that is as prescribed: an application message, not segmented, the object in
four bytes, numbers in the fewest bytes and lengths in their shortest form, nothing behind. -/
structure TaggedAck.Prescribed (a : TaggedAck) : Prop where
  message : a.control &&& 0x80 = 0
  unsegmented : a.pdu &&& 0x08 = 0
  object : a.front.object.Plain ∧ a.front.object.content.length = 4
  property : a.front.property.Plain ∧ Fewest a.front.property.content
  index : ∀ t ∈ a.front.index, t.Plain ∧ Fewest t.content
  value : a.value.PlainValue
  rest : a.rest = []

/-- What the client takes is as prescribed, and what is prescribed fits. -/
structure AnswersPrescribed (buf : List UInt8) (len : ℕ) (invoke : UInt8) (property : UInt32)
    (expected : Option ObjectId) : Prop where
  prescribed : ∀ a : TaggedAck, a.Accepted property expected → Carried buf len (a.npdu invoke) →
    a.Prescribed
  fits : ∀ a : PropertyAck, a.WellFormed expected → Carried buf len (a.npdu invoke property) →
    a.value.Fits ∧ ∀ n ∈ a.index, n < 2 ^ 32

/-! ### Numbers under context tags -/

section Numbers

variable {tag : UInt8} {context : Bool} {content rest rest' : List UInt8} {t : RawTag}

/-- The first byte of an encoding. -/
lemma primitiveBytes_cons (tag : UInt8) (context : Bool) (content : List UInt8) :
    ∃ n < 8, ∃ rest, primitiveBytes tag context content = tagByte tag context n :: rest := by
  rw [primitiveBytes]
  split_ifs with hfew
  · exact ⟨_, by omega, _, rfl⟩
  · exact ⟨5, by decide, _, rfl⟩
  · exact ⟨5, by decide, _, rfl⟩
  · exact ⟨5, by decide, _, rfl⟩

/-- A content of five bytes or more has its length behind the tag. -/
lemma primitiveBytes_long (hmany : 5 ≤ content.length) : ∃ size rest,
    primitiveBytes tag context content = tagByte tag context 5 :: size :: rest ∧
      5 ≤ size.toNat := by
  rw [primitiveBytes]
  rw [if_neg (by omega)]
  split_ifs with hshort
  · refine ⟨_, _, rfl, ?_⟩
    rw [UInt8.toNat_ofNat']
    omega
  · exact ⟨_, _, rfl, by decide⟩
  · exact ⟨_, _, rfl, by decide⟩

/-- A number that is read is encoded in four bytes at most. -/
lemma RawTag.IsNumber.eq_plain (ht : t.IsNumber tag)
    (h : t.bytes ++ rest = primitiveBytes tag true content ++ rest') :
    content.length ≤ 4 ∧ t = .plain tag true content ∧ rest = rest' := by
  have htag : tag.toNat < 16 := by
    rw [← ht.tag]
    exact ht.wellFormed.tag_lt
  by_cases hfew : content.length ≤ 4
  · have hshort : content.length < 254 := by omega
    have hplain : (RawTag.plain tag true content).Plain := RawTag.plain_plain hshort
    have hbytes : (RawTag.plain tag true content).bytes = primitiveBytes tag true content :=
      hplain.bytes_eq
    rw [← hbytes] at h
    exact ⟨hfew, RawTag.bytes_append_inj ht.wellFormed (RawTag.plain_wellFormed htag hshort) h⟩
  · exfalso
    obtain ⟨size, behind, hlong, hsize⟩ :=
      @primitiveBytes_long tag true content (by omega)
    obtain ⟨tag', context, extended, content'⟩ := t
    obtain ⟨hwell, hcontext, rfl, hsome, hfew'⟩ := ht
    dsimp only at hcontext hsome hfew'
    subst hcontext
    rw [hlong] at h
    cases extended with
    | false =>
        have hlvt := (RawTag.tagByte_inj htag htag (hwell.short rfl).1 (by decide)
          (List.cons.inj h).1).2.2
        exact (hwell.short rfl).2 hlvt
    | true =>
        have hbyte : UInt8.ofNat content'.length = size := (List.cons.inj (List.cons.inj h).2).1
        rw [← hbyte, UInt8.toNat_ofNat', Nat.mod_eq_of_lt (by omega)] at hsize
        omega

/-- A number in its prescribed form is read. -/
lemma plain_isNumber (htag : tag.toNat < 16) (hsome : 0 < content.length)
    (hfew : content.length ≤ 4) : (RawTag.plain tag true content).IsNumber tag where
  wellFormed := RawTag.plain_wellFormed htag (by omega)
  context := rfl
  tag := rfl
  nonempty := hsome
  few := hfew

/-- A number of 32 bits in its prescribed form. -/
lemma plain_natBytes (htag : tag.toNat < 16) {n : ℕ} (hn : n < 2 ^ 32) :
    (RawTag.plain tag true (natBytes n)).IsNumber tag ∧
      (RawTag.plain tag true (natBytes n)).bytes = primitiveBytes tag true (natBytes n) ∧
      (RawTag.plain tag true (natBytes n)).number.toNat = n := by
  have hfew := length_natBytes_le_four.mpr hn
  have hplain : (RawTag.plain tag true (natBytes n)).Plain :=
    RawTag.plain_plain (show (natBytes n).length < 254 by omega)
  refine ⟨plain_isNumber htag (List.length_pos_of_ne_nil (fewest_natBytes n).1) hfew,
    hplain.bytes_eq, ?_⟩
  show (readBe (natBytes n)).toNat = n
  rw [toNat_readBe hfew, beNat_natBytes]

end Numbers

/-! ### The tags in front of the value -/

namespace PropertyAck

variable {a : PropertyAck} {property : UInt32} {expected : Option ObjectId}

/-- The tags in front of the value, in their prescribed form. -/
def rawFront (a : PropertyAck) (property : UInt32) : AckFront where
  object := .plain 0 true (bytes32 (objectIdWord a.object.type a.object.inst))
  property := .plain 1 true (natBytes property.toNat)
  index := a.index.map fun n => .plain 2 true (natBytes n)

lemma rawFront_bytes (hindex : ∀ n ∈ a.index, n < 2 ^ 32) :
    (a.rawFront property).bytes = a.front property := by
  have hobject : (a.rawFront property).object.bytes
      = primitiveBytes 0 true (bytes32 (objectIdWord a.object.type a.object.inst)) := rfl
  have hoption : optionBytes (a.rawFront property).index
      = a.index.elim [] fun n => primitiveBytes 2 true (natBytes n) := by
    rw [rawFront]
    cases hsome : a.index with
    | none => rfl
    | some n => exact (plain_natBytes (by decide) (hindex n hsome)).2.1
  rw [AckFront.bytes, front, hobject, hoption]
  exact congrArg (_ ++ ·) (congrArg (· ++ _) (plain_natBytes (by decide) property.toNat_lt).2.1)

lemma rawFront_asked (ha : a.WellFormed expected) (hindex : ∀ n ∈ a.index, n < 2 ^ 32) :
    (a.rawFront property).Asked property expected where
  object := plain_isNumber (by decide) (show 0 < 4 by decide) (le_refl 4)
  expected := by
    have hobject : objectOf (a.rawFront property).object.number = a.object := by
      show objectOf (readBe (bytes32 _)) = _
      rw [readBe_bytes32, objectOf_objectIdWord ha.object.1 ha.object.2]
    rw [hobject]
    exact ha.expected
  property := (plain_natBytes (by decide) property.toNat_lt).1
  same := UInt32.toNat_inj.mp (plain_natBytes (by decide) property.toNat_lt).2.2
  index t ht := by
    obtain ⟨n, hn, rfl⟩ := Option.map_eq_some_iff.mp ht
    exact (plain_natBytes (by decide) (hindex n hn)).1

/-- An array index is the same in both readings, and none is read for a bracket. -/
lemma index_eq {t : Option RawTag} {index : Option ℕ} {rest rest' : List UInt8}
    (ht : ∀ r ∈ t, r.IsNumber 2) (h : optionBytes t ++ 0x3E :: rest
      = (index.elim [] fun n => primitiveBytes 2 true (natBytes n)) ++ 0x3E :: rest') :
    (∀ n ∈ index, n < 2 ^ 32) ∧ t = index.map (fun n => .plain 2 true (natBytes n)) ∧
      rest = rest' := by
  have hbracket : ∀ n < 8, tagByte 2 true n ≠ 0x3E := by decide
  cases t with
  | none =>
      cases index with
      | none => exact ⟨nofun, rfl, (List.cons.inj h).2⟩
      | some n =>
          obtain ⟨k, hk, behind, hcons⟩ := primitiveBytes_cons 2 true (natBytes n)
          rw [Option.elim_some, hcons] at h
          exact absurd (List.cons.inj h).1.symm (hbracket k hk)
  | some r =>
      have hr := ht r rfl
      cases index with
      | none =>
          obtain ⟨behind, hcons⟩ := r.header_cons
          rw [optionBytes, Option.elim_some, RawTag.bytes, hcons, hr.tag, hr.context] at h
          exact absurd (List.cons.inj h).1 (hbracket _ hr.wellFormed.lvt_lt)
      | some n =>
          obtain ⟨hfew, hplain, hrest⟩ := hr.eq_plain h
          exact ⟨fun n' hn' => Option.some.inj hn' ▸ length_natBytes_le_four.mp hfew,
            congrArg some hplain, (List.cons.inj hrest).2⟩

/-- The tags of a prescribed answer, as the client reads them. -/
lemma front_eq {f : AckFront} (hf : f.Asked property expected) {rest rest' : List UInt8}
    (h : f.bytes ++ rest = a.front property ++ rest') :
    (∀ n ∈ a.index, n < 2 ^ 32) ∧ f = a.rawFront property ∧ rest = rest' := by
  obtain ⟨object, prop, index⟩ := f
  rw [AckFront.bytes, front] at h
  simp only [List.append_assoc] at h
  obtain ⟨-, hobject, hrest⟩ := hf.object.eq_plain h
  obtain ⟨-, hprop, hrest⟩ := hf.property.eq_plain hrest
  obtain ⟨hindex, hsame, hrest⟩ := index_eq hf.index hrest
  dsimp only at hobject hprop hsame
  refine ⟨hindex, ?_, hrest⟩
  rw [rawFront, hobject, hprop, hsame]

end PropertyAck

/-! ### The whole answer -/

lemma header_bits : ∀ b : Fin 256,
    (UInt8.ofNat b &&& 0xA8 = 0 ↔ UInt8.ofNat b &&& 0x28 = 0 ∧ UInt8.ofNat b &&& 0x80 = 0) ∧
      (UInt8.ofNat b &&& 0xF8 = kComplexAck ↔
        UInt8.ofNat b &&& 0xF0 = kComplexAck ∧ UInt8.ofNat b &&& 0x08 = 0) := by
  decide +kernel

/-- The client looks at the routing bits of the control byte only. -/
lemma control_bits {b : UInt8} : b &&& 0xA8 = 0 ↔ b &&& 0x28 = 0 ∧ b &&& 0x80 = 0 := by
  have h := (header_bits ⟨b.toNat, b.toNat_lt⟩).1
  rwa [UInt8.ofNat_toNat] at h

/-- The client looks at the kind of the answer only. -/
lemma pdu_bits {b : UInt8} :
    b &&& 0xF8 = kComplexAck ↔ b &&& 0xF0 = kComplexAck ∧ b &&& 0x08 = 0 := by
  have h := (header_bits ⟨b.toNat, b.toNat_lt⟩).2
  rwa [UInt8.ofNat_toNat] at h

/-- No tag is read of the Boolean `true`: the closing bracket is taken for its content. -/
lemma bytes_ne_true {t : RawTag} (ht : t.IsValue) (rest : List UInt8) :
    t.bytes ++ 0x3F :: rest ≠ [tagByte 1 false 1] ++ [0x3F] := by
  intro h
  have hwell : (⟨1, false, false, [0x3F]⟩ : RawTag).WellFormed :=
    ⟨by decide, nofun, fun _ => by decide, nofun⟩
  have h' : t.bytes ++ 0x3F :: rest = (⟨1, false, false, [0x3F]⟩ : RawTag).bytes ++ [] := h
  cases (RawTag.bytes_append_inj ht.wellFormed hwell h').2

variable {a : PropertyAck} {property : UInt32} {expected : Option ObjectId}

/-- What the client reads of a prescribed answer. -/
lemma tagged_eq {t : TaggedAck} {invoke : UInt8} (ht : t.Accepted property expected)
    (h : t.npdu invoke = a.npdu invoke property) :
    (∀ n ∈ a.index, n < 2 ^ 32) ∧ a.value ≠ .bool true ∧
      (a.value.Fits → t = ⟨a.control, a.pdu, a.rawFront property, a.value.raw, []⟩) := by
  obtain ⟨control, pdu, f, value, rest⟩ := t
  rw [TaggedAck.npdu, PropertyAck.npdu] at h
  simp only [List.cons.injEq, true_and] at h
  obtain ⟨hcontrol, hpdu, h⟩ := h
  obtain ⟨hindex, hfront, hrest⟩ := PropertyAck.front_eq ht.asked h
  refine ⟨hindex, ?_, fun hfits => ?_⟩
  · intro htrue
    rw [htrue] at hrest
    exact bytes_ne_true ht.value rest hrest
  · rw [← AppValue.raw_bytes hfits] at hrest
    obtain ⟨hvalue, hrest⟩ := RawTag.bytes_append_inj ht.value.wellFormed
      (AppValue.raw_isValue hfits).wellFormed hrest
    dsimp only at hfront hvalue
    rw [hcontrol, hpdu, hfront, hvalue, (List.cons.inj hrest).2]

/-- A prescribed answer that fits is taken. -/
lemma tagged_accepted (ha : a.WellFormed expected) (hfits : a.value.Fits)
    (hindex : ∀ n ∈ a.index, n < 2 ^ 32) :
    (⟨a.control, a.pdu, a.rawFront property, a.value.raw, []⟩ : TaggedAck).Accepted property
      expected where
  control := (control_bits.mp ha.control).1
  pdu := (pdu_bits.mp ha.pdu).1
  asked := PropertyAck.rawFront_asked ha hindex
  value := AppValue.raw_isValue hfits
  known := (AppValue.raw_decode ha.value hfits).1

lemma npdu_tagged {invoke : UInt8} (hfits : a.value.Fits) (hindex : ∀ n ∈ a.index, n < 2 ^ 32) :
    (⟨a.control, a.pdu, a.rawFront property, a.value.raw, []⟩ : TaggedAck).npdu invoke
      = a.npdu invoke property := by
  rw [TaggedAck.npdu, PropertyAck.npdu]
  dsimp only
  rw [PropertyAck.rawFront_bytes hindex, AppValue.raw_bytes hfits]

/-- It is as prescribed. -/
lemma tagged_prescribed (ha : a.WellFormed expected) (hfits : a.value.Fits)
    (hindex : ∀ n ∈ a.index, n < 2 ^ 32) :
    (⟨a.control, a.pdu, a.rawFront property, a.value.raw, []⟩ : TaggedAck).Prescribed where
  message := (control_bits.mp ha.control).2
  unsegmented := (pdu_bits.mp ha.pdu).2
  object := ⟨RawTag.plain_plain (show 4 < 254 by decide), rfl⟩
  property := by
    have hfew := length_natBytes_le_four.mpr property.toNat_lt
    exact ⟨RawTag.plain_plain (show (natBytes property.toNat).length < 254 by omega),
      fewest_natBytes _⟩
  index t ht := by
    obtain ⟨n, hn, rfl⟩ := Option.map_eq_some_iff.mp ht
    have hfew := length_natBytes_le_four.mpr (hindex n hn)
    exact ⟨RawTag.plain_plain (show (natBytes n).length < 254 by omega), fewest_natBytes _⟩
  value := AppValue.raw_plainValue ha.value hfits
  rest := rfl

/-- A number as prescribed is the encoding of what is read. -/
lemma bytes_eq_natBytes {t : RawTag} {tag : UInt8} (ht : t.IsNumber tag) (hplain : t.Plain)
    (hfewest : Fewest t.content) :
    t.bytes = primitiveBytes tag true (natBytes t.number.toNat) := by
  rw [hplain.bytes_eq, ht.tag, ht.context, RawTag.number, toNat_readBe ht.few,
    natBytes_beNat hfewest]

/-- What the client takes, if it is as prescribed, is a prescribed answer. -/
lemma exists_propertyAck {t : TaggedAck} {invoke : UInt8} (ht : t.Accepted property expected)
    (hp : t.Prescribed) :
    ∃ a : PropertyAck, a.WellFormed expected ∧ a.npdu invoke property = t.npdu invoke := by
  obtain ⟨v, hv, hbytes⟩ := exists_appValue ht.value ht.known hp.value
  obtain ⟨hword, hcode, hinst⟩ := objectIdWord_objectOf t.front.object.number
  refine ⟨⟨t.control, t.pdu, objectOf t.front.object.number,
    t.front.index.map fun r => r.number.toNat, v⟩, ⟨control_bits.mpr ⟨ht.control, hp.message⟩,
      pdu_bits.mpr ⟨ht.pdu, hp.unsegmented⟩, ⟨hcode, hinst⟩, ht.asked.expected, hv⟩, ?_⟩
  have hobject : primitiveBytes 0 true (bytes32 (objectIdWord
      (objectOf t.front.object.number).type (objectOf t.front.object.number).inst))
      = t.front.object.bytes := by
    rw [hword, RawTag.number, bytes32_readBe hp.object.2, hp.object.1.bytes_eq,
      ht.asked.object.tag, ht.asked.object.context]
  have hprop : primitiveBytes 1 true (natBytes property.toNat) = t.front.property.bytes := by
    rw [bytes_eq_natBytes ht.asked.property hp.property.1 hp.property.2, ht.asked.same]
  have hindex : ((t.front.index.map fun r => r.number.toNat).elim []
      fun n => primitiveBytes 2 true (natBytes n)) = optionBytes t.front.index := by
    cases hsome : t.front.index with
    | none => rfl
    | some r =>
        obtain ⟨hplain, hfewest⟩ := hp.index r hsome
        exact (bytes_eq_natBytes (ht.asked.index r hsome) hplain hfewest).symm
  rw [PropertyAck.npdu, TaggedAck.npdu, PropertyAck.front, AckFront.bytes, hp.rest]
  dsimp only
  rw [hobject, hprop, hindex, hbytes]

/-! ### Reading exactly -/

section Exact

variable {buf : List UInt8} {len : ℕ} {invoke : UInt8} {property : UInt32}
  {expected : Option ObjectId}

/-- The client takes an answer exactly if it is one with the tags asked for. -/
lemma ack_ok_iff (out : Value) :
    (parseReadPropertyAck buf len invoke property out expected).1 = .ok ↔
      ∃ t : TaggedAck, t.Accepted property expected ∧ Carried buf len (t.npdu invoke) := by
  have h := parseReadPropertyAck_eq buf len invoke property out expected
  cases htlv : propertyTlv buf len invoke property expected with
  | error e =>
      rw [htlv] at h
      obtain ⟨hne, hparse, -⟩ := h
      refine iff_of_false (by rwa [hparse]) ?_
      rintro ⟨t, ht, hcarried⟩
      have hok := propertyTlv_iff.mpr ⟨t, ht, hcarried, rfl⟩
      rw [htlv] at hok
      cases hok
  | ok v =>
      rw [htlv] at h
      obtain ⟨t, ht, hcarried, -⟩ := propertyTlv_iff.mp htlv
      exact iff_of_true h.1 ⟨t, ht, hcarried⟩

/-- The value of an answer that is taken. -/
lemma ack_value {t : TaggedAck} (ht : t.Accepted property expected)
    (hcarried : Carried buf len (t.npdu invoke)) (out : Value) :
    (parseReadPropertyAck buf len invoke property out expected).2.1 = t.value.tlv.decode.2 := by
  have h := parseReadPropertyAck_eq buf len invoke property out expected
  rw [propertyTlv_iff.mpr ⟨t, ht, hcarried, rfl⟩] at h
  exact h.2

/-- A frame that is read exactly has a prescribed answer that fits, or none that is taken. -/
lemma ReadsExactly.fits (h : ReadsExactly buf len invoke property expected) {a : PropertyAck}
    (ha : a.WellFormed expected) (hcarried : Carried buf len (a.npdu invoke property)) :
    a.value.Fits ∧ ∀ n ∈ a.index, n < 2 ^ 32 := by
  obtain ⟨t, ht, hcarried'⟩ := (ack_ok_iff {}).mp ((h.accepted {}).mpr ⟨a, ha, hcarried⟩)
  obtain ⟨hindex, htrue, -⟩ := tagged_eq ht (hcarried'.eq hcarried)
  have hvalue := h.value {} a ha hcarried
  rw [ack_value ht hcarried'] at hvalue
  exact ⟨hvalue.fits ha.value htrue, hindex⟩

/-- **Answers are read exactly if they are prescribed**: the client reads no byte behind the frame,
takes exactly the prescribed answers and returns the value that is encoded, if and only if what it
would take in the frame is as prescribed and a prescribed answer there has a value that fits. -/
theorem acks_read_exactly (buf : List UInt8) (len : ℕ) (invoke : UInt8) (property : UInt32)
    (expected : Option ObjectId) : ReadsExactly buf len invoke property expected ↔
      AnswersPrescribed buf len invoke property expected := by
  constructor
  · intro h
    refine ⟨fun t ht hcarried => ?_, fun a ha hcarried => h.fits ha hcarried⟩
    obtain ⟨a, ha, hcarried'⟩ := (h.accepted {}).mp ((ack_ok_iff {}).mpr ⟨t, ht, hcarried⟩)
    obtain ⟨hfits, hindex⟩ := h.fits ha hcarried'
    rw [(tagged_eq ht (hcarried.eq hcarried')).2.2 hfits]
    exact tagged_prescribed ha hfits hindex
  · intro h
    have htaken : ∀ a : PropertyAck, a.WellFormed expected →
        Carried buf len (a.npdu invoke property) → ∃ t : TaggedAck, t.Accepted property expected ∧
          Carried buf len (t.npdu invoke) ∧ a.value.Represents t.value.tlv.decode.2 := by
      intro a ha hcarried
      obtain ⟨hfits, hindex⟩ := h.fits a ha hcarried
      exact ⟨_, tagged_accepted ha hfits hindex, by rwa [npdu_tagged hfits hindex],
        (AppValue.raw_decode ha.value hfits).2⟩
    refine ⟨fun buf' out hsame => parseReadPropertyAck_within hsame invoke out, fun out => ?_,
      fun out a ha hcarried => ?_⟩
    · rw [ack_ok_iff]
      constructor
      · rintro ⟨t, ht, hcarried⟩
        obtain ⟨a, ha, hnpdu⟩ := exists_propertyAck ht (h.prescribed t ht hcarried)
        exact ⟨a, ha, hnpdu ▸ hcarried⟩
      · rintro ⟨a, ha, hcarried⟩
        obtain ⟨t, ht, hcarried', -⟩ := htaken a ha hcarried
        exact ⟨t, ht, hcarried'⟩
    · obtain ⟨t, ht, hcarried', hvalue⟩ := htaken a ha hcarried
      rwa [ack_value ht hcarried']

end Exact

/-- The property `out-of-service` of an analog input, which is true. -/
def trueAck : PropertyAck := ⟨0, 0x30, ⟨.analogInput, 1⟩, none, .bool true⟩

def trueAnswer : List UInt8 :=
  [0x81, 0x0A, 0, 0x13, 1, 0, 0x30, 7, 12, 0x0C, 0, 0, 0, 1, 0x19, 0x51, 0x3E, 0x11, 0x3F]

/-- The answer of a Boolean `true` is refused. -/
theorem true_refused : ¬ReadsExactly trueAnswer trueAnswer.length 7 81 (some ⟨.analogInput, 1⟩) := by
  intro h
  have hbytes : trueAck.npdu 7 81
      = [1, 0, 0x30, 7, 12, 0x0C, 0, 0, 0, 1, 0x19, 0x51, 0x3E, 0x11, 0x3F] := by
    have hproperty : natBytes (81 : UInt32).toNat = [0x51] := natBytes_of_lt (by decide)
    rw [PropertyAck.npdu, PropertyAck.front, hproperty]
    rfl
  have hcarried : Carried trueAnswer trueAnswer.length (trueAck.npdu 7 81) := by
    rw [hbytes]
    exact ⟨rfl, rfl, rfl, by decide, rfl⟩
  have hwell : trueAck.WellFormed (some ⟨.analogInput, 1⟩) :=
    ⟨by decide, by decide, by decide, fun e he => Option.some.inj he ▸ ⟨rfl, .inr rfl⟩, trivial⟩
  have hok := (h.accepted {}).mpr ⟨trueAck, hwell, hcarried⟩
  revert hok
  decide +kernel

end Bacnet

end ArcticController

/-
Which frames the client takes for an answer, as bytes.

* `parseHeader_ok_iff`: the header of an answer, and what it carries behind it;
* `TaggedAck`: an answer to ReadProperty with its tags in any form, `TaggedAck.Accepted` what is
  asked of them;
* `ackValueAt_iff`: where the reader finds the value;
* `propertyTlv_iff`: the reader takes exactly these answers;
* `parseReadPropertyAck_within`: no byte behind the frame or the buffer is looked at.
-/
import ArcticController.Bacnet.RawTags

namespace ArcticController

namespace Bacnet

/-! ### Headers -/

section Header

variable {buf buf' : List UInt8} {len : ℕ} {invoke service : UInt8}

lemma refused_or {c : Prop} [Decidable c] {p : Parse} (hp : p ≠ .ok) {err : ErrorInfo}
    {r : Parse × ErrorInfo} : (if c then (p, err) else r).1 = .ok ↔ ¬c ∧ r.1 = .ok := by
  by_cases hc : c
  · rw [if_pos hc]
    exact ⟨fun h => absurd h hp, fun h => absurd hc h.1⟩
  · rw [if_neg hc]
    exact ⟨fun h => ⟨hc, h⟩, And.right⟩

/-- The checks of the header, one after the other. -/
lemma parseHeader_checks : (parseHeader buf len invoke service).1 = .ok ↔
    ¬len < 7 ∧ ¬(byteAt buf 0 != kBvlcType || byteAt buf 1 != kBvlcOriginalUnicast) = true ∧
      ¬len < frameLength buf ∧ ¬frameLength buf < 7 ∧ ¬(byteAt buf 4 != kNpduVersion) = true ∧
      ¬(byteAt buf 5 &&& 0x28 != 0) = true ∧ (byteAt buf 6 &&& 0xF0 == kComplexAck) = true ∧
      ¬frameLength buf < 9 ∧ ¬(byteAt buf 7 != invoke) = true ∧
      ¬(byteAt buf 8 != service) = true := by
  have hinc : Parse.incomplete ≠ .ok := nofun
  have hbad : Parse.badFrame ≠ .ok := nofun
  have hinvoke : Parse.wrongInvoke ≠ .ok := nofun
  have hservice : Parse.wrongService ≠ .ok := nofun
  rw [parseHeader, refused_or hinc, refused_or hbad, refused_or hinc, refused_or hbad,
    refused_or hbad, refused_or hbad]
  by_cases hack : (byteAt buf 6 &&& 0xF0 == kComplexAck) = true
  · rw [if_pos hack, refused_or hinc, refused_or hinvoke, refused_or hservice]
    simp only [hack, true_and, and_true]
  · rw [if_neg hack]
    -- the other kinds of answer are not in order
    refine iff_of_false (fun h => ?_) fun h => hack h.2.2.2.2.2.2.1
    have hrest := h.2.2.2.2.2.2
    by_cases herror : (byteAt buf 6 &&& 0xF0 == kErrorPdu) = true
    · rw [if_pos herror, refused_or hinc, refused_or hinvoke] at hrest
      cases hrest.2.2
    · rw [if_neg herror] at hrest
      by_cases hrefusal : (byteAt buf 6 &&& 0xF0 == kRejectPdu
          || byteAt buf 6 &&& 0xF0 == kAbortPdu) = true
      · rw [if_pos hrefusal, refused_or hinc, refused_or hinvoke] at hrest
        have hlast := hrest.2.2
        split at hlast <;> cases hlast
      · rw [if_neg hrefusal] at hrest
        cases hrest

/-- The header of an answer. -/
lemma parseHeader_ok_iff : (parseHeader buf len invoke service).1 = .ok ↔
    ∃ control pdu rest, control &&& 0x28 = 0 ∧ pdu &&& 0xF0 = kComplexAck ∧
      Carried buf len (kNpduVersion :: control :: pdu :: invoke :: service :: rest) := by
  rw [parseHeader_checks]
  constructor
  · rintro ⟨hlen, htype, hlong, hshort, hversion, hrouting, hack, hnine, hinvoke, hservice⟩
    simp only [Bool.or_eq_true, bne_iff_ne, ne_eq, not_or, not_not] at htype
    rw [bne_iff_ne, ne_eq, not_not] at hversion hrouting hinvoke hservice
    refine ⟨byteAt buf 5, byteAt buf 6, bytesAt buf 9 (frameLength buf - 9), hrouting,
      eq_of_beq hack, htype.1, htype.2, ?_, not_lt.mp hlong, ?_⟩
    · simp only [List.length_cons, length_bytesAt]
      omega
    · exact stands_cons.mpr ⟨hversion, stands_cons.mpr ⟨rfl, stands_cons.mpr ⟨rfl,
        stands_cons.mpr ⟨hinvoke, stands_cons.mpr ⟨hservice, stands_bytesAt _ _ _⟩⟩⟩⟩⟩
  · rintro ⟨control, pdu, rest, hcontrol, hpdu, hcarried⟩
    have hlength := hcarried.declared
    have hwithin := hcarried.within
    simp only [List.length_cons] at hlength
    obtain ⟨hversion, hbytes⟩ := stands_cons.mp hcarried.bytes
    obtain ⟨hfive, hbytes⟩ := stands_cons.mp hbytes
    obtain ⟨hsix, hbytes⟩ := stands_cons.mp hbytes
    obtain ⟨hinvoke, hbytes⟩ := stands_cons.mp hbytes
    obtain ⟨hservice, -⟩ := stands_cons.mp hbytes
    rw [hcarried.type, hcarried.function, hversion, hfive, hsix, hinvoke, hservice, hcontrol, hpdu]
    simp only [bne_self_eq_false, Bool.or_self, Bool.false_eq_true, beq_self_eq_true,
      not_false_eq_true, true_and, and_true]
    omega

/-- The header, and what is behind it. -/
lemma stands_header {version control pdu : UInt8} {rest : List UInt8} :
    Stands buf 4 (version :: control :: pdu :: invoke :: service :: rest) ↔
      Stands buf 4 [version, control, pdu, invoke, service] ∧ Stands buf headerEnd rest :=
  @stands_append buf [version, control, pdu, invoke, service] rest 4

/-- A header in order is the one of the frame alone. -/
lemma parseHeader_frame (hlow : 7 ≤ frameLength buf) (hle : frameLength buf ≤ len) :
    parseHeader buf len invoke service = parseHeader buf (frameLength buf) invoke service := by
  rw [parseHeader, parseHeader]
  have hlen : ¬len < 7 := by omega
  rw [if_neg hlen, if_neg (not_lt.mpr hle), if_neg (not_lt.mpr hlow), if_neg (not_lt.mpr hlow),
    if_neg (lt_irrefl (frameLength buf))]

/-- The reader looks at the first four bytes and at what they declare. -/
def readLength (buf : List UInt8) (len : ℕ) : ℕ := min len (max 4 (frameLength buf))

lemma parseHeader_within (h : SameUpTo (readLength buf len) buf buf') :
    parseHeader buf len invoke service = parseHeader buf' len invoke service := by
  by_cases hlen : len < 7
  · simp only [parseHeader, hlen, if_true]
  · have hfour : 4 ≤ readLength buf len := by
      rw [readLength]
      omega
    have htotal : frameLength buf' = frameLength buf := by
      rw [frameLength, frameLength, h 2 (by omega), h 3 (by omega)]
    by_cases hlow : 7 ≤ frameLength buf
    · by_cases hle : frameLength buf ≤ len
      · have hsame : SameUpTo (frameLength buf) buf buf' := h.mono (by rw [readLength]; omega)
        have hlow' : 7 ≤ frameLength buf' := by omega
        have hle' : frameLength buf' ≤ len := by omega
        rw [parseHeader_frame hlow hle, parseHeader_frame hlow' hle', htotal]
        exact parseHeader_congr hsame _ _
      · exact parseHeader_congr (h.mono (by rw [readLength]; omega)) _ _
    · simp only [parseHeader, htotal, h 0 (by omega), h 1 (by omega),
        show frameLength buf < 7 by omega, if_true]

end Header

/-! ### Answers to ReadProperty -/

/-- The object is the expected one; the wildcard stands for every instance. -/
def Expected (object expected : ObjectId) : Prop :=
  object.type = expected.type ∧ (expected.inst = kDeviceWildcard ∨ object.inst = expected.inst)

lemma objectExpected_iff {object expected : ObjectId} :
    objectExpected object expected = true ↔ Expected object expected := by
  rw [objectExpected, Bool.and_eq_true, Bool.or_eq_true, beq_iff_eq, beq_iff_eq, beq_iff_eq,
    Expected]

lemma any_expected {object : ObjectId} {expected : Option ObjectId} :
    ¬expected.any (fun expected => !objectExpected object expected) = true ↔
      ∀ e ∈ expected, Expected object e := by
  cases expected with
  | none => exact iff_of_true nofun nofun
  | some e =>
      rw [Option.any_some, Bool.not_eq_true', Bool.not_eq_false, objectExpected_iff]
      exact ⟨fun h e' he' => Option.some.inj he' ▸ h, fun h => h e rfl⟩

/-- A tag that may be left out. -/
def optionBytes (t : Option RawTag) : List UInt8 := t.elim [] RawTag.bytes

/-- What an answer to ReadProperty says the value is of, its tags in any form. -/
structure AckFront where
  object : RawTag
  property : RawTag
  index : Option RawTag

namespace AckFront

/-- The tags, and the opening bracket of the value. -/
def bytes (a : AckFront) : List UInt8 :=
  a.object.bytes ++ (a.property.bytes ++ (optionBytes a.index ++ [0x3E]))

/-- The tags are the ones asked for. -/
structure Asked (a : AckFront) (wanted : UInt32) (expected : Option ObjectId) : Prop where
  object : a.object.IsNumber 0
  expected : ∀ e ∈ expected, Expected (objectOf a.object.number) e
  property : a.property.IsNumber 1
  same : a.property.number = wanted
  index : ∀ t ∈ a.index, t.IsNumber 2

end AckFront

/-- An answer to ReadProperty, and what is behind its closing bracket. -/
structure TaggedAck where
  control : UInt8
  pdu : UInt8
  front : AckFront
  value : RawTag
  rest : List UInt8

namespace TaggedAck

def npdu (a : TaggedAck) (invoke : UInt8) : List UInt8 :=
  kNpduVersion :: a.control :: a.pdu :: invoke :: kServiceReadProperty ::
    (a.front.bytes ++ (a.value.bytes ++ 0x3F :: a.rest))

/-- The answers that the client takes. -/
structure Accepted (a : TaggedAck) (wanted : UInt32) (expected : Option ObjectId) : Prop where
  control : a.control &&& 0x28 = 0
  pdu : a.pdu &&& 0xF0 = kComplexAck
  asked : a.front.Asked wanted expected
  value : a.value.IsValue
  known : a.value.tlv.decode.1 = true

end TaggedAck

section Ack

variable {buf buf' : List UInt8} {len total pos pos' : ℕ} {property : UInt32}
  {expected : Option ObjectId}

/-- The first byte of a number. -/
lemma RawTag.IsNumber.byteAt {t : RawTag} {wanted : UInt8} (ht : t.IsNumber wanted)
    (h : Stands buf pos t.bytes) :
    Bacnet.byteAt buf pos >>> 4 = wanted ∧ (Bacnet.byteAt buf pos &&& 0x08 != 0) = true := by
  obtain ⟨rest, hheader⟩ := t.header_cons
  rw [RawTag.bytes, hheader, List.cons_append] at h
  obtain ⟨hhigh, hcontext, -⟩ :=
    @tagByte_fields_of_lt _ t.tag t.context ht.wellFormed.tag_lt ht.wellFormed.lvt_lt
  rw [(stands_cons.mp h).1, hhigh, hcontext, ht.tag, ht.context]
  exact ⟨rfl, rfl⟩

/-- The position behind an array index, if there is one. -/
def indexEnd (buf : List UInt8) (total pos : ℕ) : Option ℕ :=
  if pos < total && byteAt buf pos >>> 4 == 2 && byteAt buf pos &&& 0x08 != 0 then
    (readContextUint buf total pos 2).map Prod.snd
  else some pos

/-- The steps to the value. -/
lemma ackValueAt_ok_iff : ackValueAt buf total property expected = .ok pos ↔
    ∃ object pos₁ pos₂ pos₃, readContextUint buf total headerEnd 0 = some (object, pos₁) ∧
      readContextUint buf total pos₁ 1 = some (property, pos₂) ∧
      (∀ e ∈ expected, Expected (objectOf object) e) ∧ indexEnd buf total pos₂ = some pos₃ ∧
      pos₃ < total ∧ byteAt buf pos₃ = 0x3E ∧ pos = pos₃ + 1 := by
  constructor
  · intro h
    rw [ackValueAt, readContextObject] at h
    cases hobject : readContextUint buf total headerEnd 0 with
    | none =>
        rw [hobject] at h
        cases h
    | some r =>
        obtain ⟨object, pos₁⟩ := r
        rw [hobject] at h
        dsimp only [Option.map_some] at h
        cases hprop : readContextUint buf total pos₁ 1 with
        | none =>
            rw [hprop] at h
            cases h
        | some r =>
            obtain ⟨prop, pos₂⟩ := r
            rw [hprop] at h
            dsimp only at h
            rw [← indexEnd] at h
            split_ifs at h with hany hother
            rw [bne_iff_ne, ne_eq, not_not] at hother
            subst hother
            cases hindex : indexEnd buf total pos₂ with
            | none =>
                rw [hindex] at h
                cases h
            | some pos₃ =>
                rw [hindex] at h
                dsimp only at h
                split_ifs at h with hopen
                rw [Bool.and_eq_true, decide_eq_true_eq] at hopen
                cases h
                exact ⟨object, pos₁, pos₂, pos₃, rfl, hprop, any_expected.mp hany, hindex, hopen.1,
                  eq_of_beq hopen.2, rfl⟩
  · rintro ⟨object, pos₁, pos₂, pos₃, hobject, hprop, hexpected, hindex, hlt, hopen, rfl⟩
    have hsame : ¬(property != property) = true := by
      rw [bne_self_eq_false]
      exact Bool.false_ne_true
    have hbracket : (decide (pos₃ < total) && isOpen (byteAt buf pos₃) 3) = true := by
      rw [decide_eq_true hlt, hopen]
      rfl
    rw [ackValueAt, readContextObject, hobject]
    dsimp only [Option.map_some]
    rw [hprop]
    dsimp only
    rw [if_neg (any_expected.mpr hexpected), if_neg hsame, ← indexEnd, hindex]
    exact if_pos hbracket

/-- An array index is skipped exactly if it stands there. -/
lemma indexEnd_of_stands {t : Option RawTag} (ht : ∀ r ∈ t, r.IsNumber 2)
    (hstands : Stands buf pos (optionBytes t ++ [0x3E]))
    (hlen : pos + (optionBytes t).length < total) :
    indexEnd buf total pos = some (pos + (optionBytes t).length) := by
  cases t with
  | none =>
      have hopen : byteAt buf pos = 0x3E := (stands_cons.mp hstands).1
      have hno : (decide (pos < total) && byteAt buf pos >>> 4 == 2 && byteAt buf pos &&& 0x08 != 0)
          = false := by
        have hthree : ((0x3E : UInt8) >>> 4 == 2) = false := rfl
        rw [hopen, hthree, Bool.and_false, Bool.false_and]
      rw [indexEnd, hno, if_neg Bool.false_ne_true]
      rfl
  | some r =>
      have hr := ht r rfl
      have hbytes : Stands buf pos r.bytes := (stands_append.mp hstands).1
      obtain ⟨hhigh, hcontext⟩ := hr.byteAt hbytes
      change pos + r.bytes.length < total at hlen
      have hread := readContextUint_iff.mpr ⟨r, hr, hbytes, rfl, hlen.le, rfl⟩
      have hyes : (decide (pos < total) && byteAt buf pos >>> 4 == 2 && byteAt buf pos &&& 0x08 != 0)
          = true := by
        have hlt : pos < total := by omega
        rw [hhigh, hcontext, decide_eq_true hlt, beq_self_eq_true]
        rfl
      rw [indexEnd, if_pos hyes, hread]
      rfl

lemma indexEnd_stands (h : indexEnd buf total pos = some pos') : ∃ t : Option RawTag,
    (∀ r ∈ t, r.IsNumber 2) ∧ Stands buf pos (optionBytes t) ∧ pos' = pos + (optionBytes t).length := by
  rw [indexEnd] at h
  split_ifs at h with hmore
  · obtain ⟨⟨v, q⟩, hread, rfl⟩ := Option.map_eq_some_iff.mp h
    obtain ⟨t, ht, hstands, hpos, -, -⟩ := readContextUint_iff.mp hread
    exact ⟨some t, fun r hr => Option.some.inj hr ▸ ht, hstands, hpos⟩
  · cases h
    exact ⟨none, nofun, stands_nil, rfl⟩

/-- The reader comes to the value exactly behind the tags asked for. -/
lemma ackValueAt_iff : ackValueAt buf total property expected = .ok pos ↔
    ∃ a : AckFront, a.Asked property expected ∧ Stands buf headerEnd a.bytes ∧
      pos = headerEnd + a.bytes.length ∧ pos ≤ total := by
  rw [ackValueAt_ok_iff]
  constructor
  · rintro ⟨object, pos₁, pos₂, pos₃, hobject, hprop, hexpected, hindex, hlt, hopen, rfl⟩
    obtain ⟨o, ho, hstandsObject, rfl, -, rfl⟩ := readContextUint_iff.mp hobject
    obtain ⟨p, hp, hstandsProp, rfl, -, hsame⟩ := readContextUint_iff.mp hprop
    obtain ⟨t, ht, hstandsIndex, rfl⟩ := indexEnd_stands hindex
    refine ⟨⟨o, p, t⟩, ⟨ho, hexpected, hp, hsame.symm, ht⟩, ?_, ?_, hlt⟩
    · exact stands_append.mpr ⟨hstandsObject, stands_append.mpr ⟨hstandsProp,
        stands_append.mpr ⟨hstandsIndex, stands_cons.mpr ⟨hopen, stands_nil⟩⟩⟩⟩
    · simp only [AckFront.bytes, List.length_append, List.length_singleton]
      omega
  · rintro ⟨⟨o, p, t⟩, ⟨ho, hexpected, hp, hsame, ht⟩, hstands, rfl, hle⟩
    dsimp only at ho hexpected hp hsame ht
    rw [AckFront.bytes] at hstands
    simp only [AckFront.bytes, List.length_append, List.length_singleton] at hle ⊢
    obtain ⟨hstandsObject, hstands⟩ := stands_append.mp hstands
    obtain ⟨hstandsProp, hstandsIndex⟩ := stands_append.mp hstands
    have hopen := (stands_cons.mp (stands_append.mp hstandsIndex).2).1
    exact ⟨o.number, headerEnd + o.bytes.length, headerEnd + o.bytes.length + p.bytes.length,
      headerEnd + o.bytes.length + p.bytes.length + (optionBytes t).length,
      readContextUint_iff.mpr ⟨o, ho, hstandsObject, rfl, by omega, rfl⟩,
      readContextUint_iff.mpr ⟨p, hp, hstandsProp, rfl, by omega, hsame.symm⟩,
      hexpected, indexEnd_of_stands ht hstandsIndex (by omega), by omega, hopen, by omega⟩

/-- The reader takes exactly the answers asked for, and their values. -/
theorem propertyTlv_iff {invoke : UInt8} {t : Tlv} :
    propertyTlv buf len invoke property expected = .ok t ↔
      ∃ a : TaggedAck, a.Accepted property expected ∧ Carried buf len (a.npdu invoke) ∧
        t = a.value.tlv := by
  constructor
  · intro h
    rw [propertyTlv] at h
    rcases hheader : parseHeader buf len invoke kServiceReadProperty with ⟨p, err⟩
    rw [hheader] at h
    have hok : (parseHeader buf len invoke kServiceReadProperty).1 = .ok := by
      rw [hheader]
      cases p with
      | ok => rfl
      | _ => cases h
    obtain ⟨control, pdu, rest, hcontrol, hpdu, hcarried⟩ := parseHeader_ok_iff.mp hok
    rw [hheader] at hok
    obtain rfl : p = .ok := hok
    dsimp only at h
    cases hat : ackValueAt buf (frameLength buf) property expected with
    | error p =>
        rw [hat] at h
        cases h
    | ok pos =>
        rw [hat] at h
        dsimp only at h
        cases htlv : appTlv buf (frameLength buf) pos with
        | none =>
            rw [htlv] at h
            cases h
        | some r =>
            obtain ⟨t', pos'⟩ := r
            rw [htlv] at h
            dsimp only at h
            split_ifs at h with hclose
            obtain rfl : t' = t := Except.ok.inj h
            rw [Bool.and_eq_true, Bool.and_eq_true, decide_eq_true_eq] at hclose
            obtain ⟨hknown, hlt, hclose⟩ := hclose
            obtain ⟨front, hasked, hfront, rfl, -⟩ := ackValueAt_iff.mp hat
            obtain ⟨value, hvalue, hstands, rfl, -, rfl⟩ := appTlv_iff.mp htlv
            refine ⟨⟨control, pdu, front, value, bytesAt buf
              (headerEnd + front.bytes.length + value.bytes.length + 1) (frameLength buf
                - (headerEnd + front.bytes.length + value.bytes.length + 1))⟩,
              ⟨hcontrol, hpdu, hasked, hvalue, hknown⟩,
              ⟨hcarried.type, hcarried.function, ?_, hcarried.within, ?_⟩, rfl⟩
            · simp only [TaggedAck.npdu, List.length_cons, List.length_append, length_bytesAt]
              have hnine : headerEnd = 9 := rfl
              omega
            · exact stands_header.mpr ⟨(stands_header.mp hcarried.bytes).1, stands_append.mpr ⟨hfront,
                stands_append.mpr ⟨hstands, stands_cons.mpr ⟨eq_of_beq hclose,
                  stands_bytesAt _ _ _⟩⟩⟩⟩
  · rintro ⟨a, ha, hcarried, rfl⟩
    have hok : (parseHeader buf len invoke kServiceReadProperty).1 = .ok :=
      parseHeader_ok_iff.mpr ⟨a.control, a.pdu, _, ha.control, ha.pdu, hcarried⟩
    have hlength := hcarried.declared
    simp only [TaggedAck.npdu, List.length_cons, List.length_append] at hlength
    have hnine : headerEnd = 9 := rfl
    obtain ⟨hfront, hbody⟩ := stands_append.mp (stands_header.mp hcarried.bytes).2
    obtain ⟨hvalue, hclose⟩ := stands_append.mp hbody
    have hat := ackValueAt_iff.mpr ⟨a.front, ha.asked, hfront, rfl,
      (by omega : headerEnd + a.front.bytes.length ≤ frameLength buf)⟩
    have htlv := appTlv_iff.mpr ⟨a.value, ha.value, hvalue, rfl,
      (by omega : headerEnd + a.front.bytes.length + a.value.bytes.length ≤ frameLength buf), rfl⟩
    have hlt : headerEnd + a.front.bytes.length + a.value.bytes.length < frameLength buf := by omega
    have hend : (a.value.tlv.decode.1 && (decide (headerEnd + a.front.bytes.length
        + a.value.bytes.length < frameLength buf) && isClose (byteAt buf (headerEnd
          + a.front.bytes.length + a.value.bytes.length)) 3)) = true := by
      rw [ha.known, decide_eq_true hlt, (stands_cons.mp hclose).1]
      rfl
    rw [propertyTlv]
    rcases hheader : parseHeader buf len invoke kServiceReadProperty with ⟨p, err⟩
    rw [hheader] at hok
    obtain rfl : p = .ok := hok
    dsimp only
    rw [hat]
    dsimp only
    rw [htlv]
    exact if_pos hend

/-- A frame in order is looked at up to its end. -/
lemma sameUpTo_frame {invoke service : UInt8} {err : ErrorInfo}
    (h : SameUpTo (readLength buf len) buf buf')
    (hok : parseHeader buf len invoke service = (.ok, err)) :
    frameLength buf' = frameLength buf ∧ SameUpTo (frameLength buf) buf buf' := by
  obtain ⟨hlen, htotal⟩ := parseHeader_ok hok
  have hfour : 4 ≤ readLength buf len := by
    rw [readLength]
    omega
  refine ⟨?_, h.mono (by rw [readLength]; omega)⟩
  rw [frameLength, frameLength, h 2 (by omega), h 3 (by omega)]

/-- No byte behind the frame or the buffer is looked at. -/
lemma parseReadPropertyAck_within (h : SameUpTo (readLength buf len) buf buf') (invoke : UInt8)
    (out : Value) : parseReadPropertyAck buf len invoke property out expected
      = parseReadPropertyAck buf' len invoke property out expected := by
  rw [parseReadPropertyAck, parseReadPropertyAck, ← parseHeader_within h]
  rcases hheader : parseHeader buf len invoke kServiceReadProperty with ⟨p, err⟩
  cases p with
  | ok =>
      obtain ⟨htotal, hsame⟩ := sameUpTo_frame h hheader
      dsimp only
      rw [htotal, ackValueAt_congr hsame]
      cases ackValueAt buf' (frameLength buf) property expected with
      | error p => rfl
      | ok pos =>
          dsimp only
          rw [decodeAppValue, decodeAppValue, appTlv_congr hsame]
          cases appTlv buf' (frameLength buf) pos with
          | none => rfl
          | some r =>
              dsimp only
              cases r.1.decode.1 with
              | false => rfl
              | true =>
                  simp only [if_true]
                  by_cases hpos : r.2 < frameLength buf
                  · rw [hsame _ hpos]
                  · simp only [hpos, decide_false, Bool.false_and]
  | _ => rfl

end Ack

end Bacnet

end ArcticController

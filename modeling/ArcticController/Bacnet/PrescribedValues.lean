/-
Values as BACnet prescribes them, and which of them the reader knows.

* `primitiveBytes`: a tag, the length of the content in its shortest form, and the content;
* `AppValue`, `AppValue.bytes`: the values of the supported types, each in its one encoding;
* `AppValue.Represents`: a value read that is the one encoded;
* `PlainValue`: the tags with their content that encode such a value;
* `exists_appValue`, `AppValue.raw_bytes`: these and the values that fit are the same bytes.
-/
import ArcticController.Bacnet.RawTags

namespace ArcticController

namespace Bacnet

/-! ### Encodings -/

/-- A tag with its content: the length is in the tag, or in one, two or four bytes behind it. -/
def primitiveBytes (tag : UInt8) (context : Bool) (content : List UInt8) : List UInt8 :=
  let n := content.length
  if n < 5 then tagByte tag context n :: content
  else if n < 254 then tagByte tag context 5 :: UInt8.ofNat n :: content
  else if n < 65536 then tagByte tag context 5 :: 254 :: (bytes16 (UInt16.ofNat n) ++ content)
  else tagByte tag context 5 :: 255 :: (bytes32 (UInt32.ofNat n) ++ content)

/-- The bits of a byte, the most significant one first. -/
def byteBits (b : UInt8) : List Bool := (List.range 8).map fun i => b.toNat.testBit (7 - i)

/-- A value of one of the supported types; `unused` bits at the end of a bit string do not count. -/
inductive AppValue where
  | null
  | bool (b : Bool)
  | unsigned (n : ℕ)
  | enumerated (n : ℕ)
  | real (bits : UInt32)
  | string (s : String)
  | bitString (unused : UInt8) (bytes : List UInt8)
  | objectId (object : ObjectId)

/-- The bytes of a string. -/
def utf8 (s : String) : List UInt8 := s.toByteArray.data.toList

namespace AppValue

def tag : AppValue → UInt8
  | null => 0
  | bool _ => 1
  | unsigned _ => 2
  | enumerated _ => 9
  | real _ => 4
  | string _ => 7
  | bitString _ _ => 8
  | objectId _ => 12

/-- The content behind the tag; a string begins with its character set. -/
def content : AppValue → List UInt8
  | null => []
  | bool _ => []
  | unsigned n => natBytes n
  | enumerated n => natBytes n
  | real bits => bytes32 bits
  | string s => 0 :: utf8 s
  | bitString unused bytes => unused :: bytes
  | objectId object => bytes32 (objectIdWord object.type object.inst)

/-- The encoding: a Boolean stands in the length field of its tag. -/
def bytes : AppValue → List UInt8
  | bool b => [tagByte 1 false b.toNat]
  | v => primitiveBytes v.tag false v.content

def WellFormed : AppValue → Prop
  | bitString unused bytes => unused ≤ 7 ∧ (bytes = [] → unused = 0)
  | objectId object => object.type.code < 1024 ∧ object.inst ≤ kDeviceWildcard
  | _ => True

/-- The value read is this one. -/
def Represents (v : Value) : AppValue → Prop
  | null => v.type = .null
  | bool b => v.type = .bool ∧ v.b = b
  | unsigned n => v.type = .unsigned ∧ v.u.toNat = n
  | enumerated n => v.type = .enumerated ∧ v.u.toNat = n
  | real bits => v.type = .real ∧ v.real = bits
  | string s => v.type = .string ∧ v.str.cstr = utf8 s
  | bitString unused bytes => v.type = .bitString ∧
      (byteBits v.bits).take v.bitCount.toNat
        = (bytes.flatMap byteBits).take (8 * bytes.length - unused.toNat)
  | objectId object => v.type = .objectId ∧ v.object = object

/-- A value that the client has room for, and not the Boolean `true`. -/
def Fits : AppValue → Prop
  | bool b => b = false
  | unsigned n => n < 2 ^ 32
  | enumerated n => n < 2 ^ 32
  | string s => (utf8 s).length < 64 ∧ ∀ c ∈ utf8 s, c ≠ 0
  | bitString _ bytes => bytes.length ≤ 1
  | _ => True

end AppValue

/-! ### Plain tags -/

namespace RawTag

/-- A length in its shortest form. -/
structure Plain (t : RawTag) : Prop where
  form : t.extended = decide (4 < t.content.length)
  short : t.content.length < 254

/-- Some content under a tag, the length in its shortest form. -/
def plain (tag : UInt8) (context : Bool) (content : List UInt8) : RawTag :=
  ⟨tag, context, decide (4 < content.length), content⟩

/-- A plain tag that encodes a value of a supported type as it is prescribed. -/
structure PlainValue (t : RawTag) : Prop where
  plain : t.Plain
  bool : t.tag = 1 → t.content = []
  unsigned : t.tag = 2 ∨ t.tag = 9 → Fewest t.content
  string : t.tag = 7 → ByteArray.IsValidUTF8 ⟨t.content.tail.toArray⟩
  bitString : t.tag = 8 →
    t.content.headD 0 ≤ 7 ∧ (t.content.tail = [] → t.content.headD 0 = 0)

section Plain

variable {t : RawTag} {tag : UInt8} {context : Bool} {content : List UInt8}

lemma Plain.bytes_eq (h : t.Plain) : t.bytes = primitiveBytes t.tag t.context t.content := by
  have hform := h.form
  rw [bytes, header, primitiveBytes]
  by_cases hlength : t.content.length < 5
  · rw [hform, decide_eq_false (by omega), if_neg Bool.false_ne_true, if_pos hlength]
    rfl
  · rw [hform, decide_eq_true (by omega), if_pos rfl, if_neg hlength, if_pos h.short]
    rfl

lemma plain_plain (hshort : content.length < 254) : (plain tag context content).Plain :=
  ⟨rfl, hshort⟩

lemma plain_wellFormed (htag : tag.toNat < 16) (hshort : content.length < 254) :
    (plain tag context content).WellFormed where
  tag_lt := htag
  long _ := by
    change content.length < 256
    omega
  short hform := by
    have := of_decide_eq_false hform
    change content.length < 8 ∧ content.length ≠ 5
    omega
  number hform _ := by
    have := of_decide_eq_false hform
    change content.length < 5
    omega

end Plain

end RawTag

/-! ### The values that fit -/

/-- The content of a tag of four bytes. -/
lemma bytes32_readBe {content : List UInt8} (h : content.length = 4) :
    bytes32 (readBe content) = content := by
  refine beNat_inj (by rw [h]; rfl) ?_
  rw [beNat_bytes32, toNat_readBe (by omega)]

lemma objectIdWord_objectOf (word : UInt32) :
    objectIdWord (objectOf word).type (objectOf word).inst = word ∧
      (objectOf word).type.code < 1024 ∧ (objectOf word).inst ≤ kDeviceWildcard := by
  have hplaces : (22 : UInt32).toNat % 32 = 22 := rfl
  have hones : (0x3FFFFF : UInt32).toNat = 2 ^ 22 - 1 := rfl
  have hword := word.toNat_lt
  have hcode : ((word >>> 22).toUInt16).toNat = word.toNat / 2 ^ 22 := by
    rw [UInt32.toNat_toUInt16, UInt32.toNat_shiftRight, hplaces, Nat.shiftRight_eq_div_pow]
    omega
  have hmask : ∀ w : UInt32, (w &&& 0x3FFFFF).toNat = w.toNat % 2 ^ 22 := fun w => by
    rw [UInt32.toNat_and, hones, Nat.and_two_pow_sub_one_eq_mod]
  refine ⟨?_, ?_, ?_⟩
  · apply UInt32.toNat_inj.mp
    have hshift : ((word >>> 22).toUInt16.toUInt32 <<< 22).toNat
        = 2 ^ 22 * (word.toNat / 2 ^ 22) := by
      rw [UInt32.toNat_shiftLeft, hplaces, UInt16.toNat_toUInt32, hcode, Nat.shiftLeft_eq, mul_comm]
      omega
    rw [objectIdWord, objectOf, UInt32.toNat_or, hshift, hmask, hmask, Nat.mod_mod,
      ← Nat.two_pow_add_eq_or_of_lt (Nat.mod_lt _ (by decide))]
    omega
  · rw [UInt16.lt_iff_toNat_lt, objectOf, hcode]
    change _ < 1024
    omega
  · rw [UInt32.le_iff_toNat_le, objectOf, hmask]
    change _ ≤ 4194303
    omega

namespace AppValue

lemma tag_lt (v : AppValue) : v.tag.toNat < 16 := by
  cases v <;> simp [tag]

/-- The tag of a value that fits. -/
def raw (v : AppValue) : RawTag := .plain v.tag false v.content

lemma Fits.short {v : AppValue} (h : v.Fits) : v.content.length < 254 := by
  cases v with
  | null => decide
  | bool b => exact Nat.zero_lt_succ _
  | unsigned n =>
      have := length_natBytes_le_four.mpr h
      change (natBytes n).length < 254
      omega
  | enumerated n =>
      have := length_natBytes_le_four.mpr h
      change (natBytes n).length < 254
      omega
  | real bits => exact (by decide : 4 < 254)
  | string s =>
      have := h.1
      change (utf8 s).length + 1 < 254
      omega
  | bitString unused bytes =>
      have : bytes.length ≤ 1 := h
      change bytes.length + 1 < 254
      omega
  | objectId object => exact (by decide : 4 < 254)

lemma raw_isValue {v : AppValue} (h : v.Fits) : v.raw.IsValue :=
  ⟨RawTag.plain_wellFormed v.tag_lt h.short, rfl⟩

lemma raw_bytes {v : AppValue} (h : v.Fits) : v.raw.bytes = v.bytes := by
  have hplain : v.raw.Plain := RawTag.plain_plain h.short
  rw [hplain.bytes_eq]
  cases v with
  | bool b =>
      obtain rfl : b = false := h
      rfl
  | _ => rfl

lemma raw_plainValue {v : AppValue} (hv : v.WellFormed) (h : v.Fits) : v.raw.PlainValue where
  plain := RawTag.plain_plain h.short
  bool htag := by
    cases v with
    | null => rfl
    | bool b => rfl
    | _ => simp [raw, RawTag.plain, tag] at htag
  unsigned htag := by
    cases v with
    | unsigned n => exact fewest_natBytes n
    | enumerated n => exact fewest_natBytes n
    | _ => simp [raw, RawTag.plain, tag] at htag
  string htag := by
    cases v with
    | string s => exact s.isValidUTF8
    | _ => simp [raw, RawTag.plain, tag] at htag
  bitString htag := by
    cases v with
    | bitString unused bytes => exact hv
    | _ => simp [raw, RawTag.plain, tag] at htag

end AppValue

/-! ### What the reader makes of them -/

/-- A number of one to four bytes. -/
lemma decode_unsigned {content : List UInt8} (hsome : 0 < content.length)
    (hfew : content.length ≤ 4) :
    (⟨2, content⟩ : Tlv).decode = (true, { type := .unsigned, u := readBe content }) ∧
      (⟨9, content⟩ : Tlv).decode = (true, { type := .enumerated, u := readBe content }) := by
  have hrefused : (content.length == 0 || decide (4 < content.length)) = false := by
    rw [Bool.or_eq_false_iff, beq_eq_false_iff_ne, decide_eq_false_iff_not]
    omega
  constructor
  · show (if (content.length == 0 || decide (4 < content.length)) = true then (false, ({} : Value))
      else (true, { type := .unsigned, u := readBe content })) = _
    rw [hrefused, if_neg Bool.false_ne_true]
  · show (if (content.length == 0 || decide (4 < content.length)) = true then (false, ({} : Value))
      else (true, { type := .enumerated, u := readBe content })) = _
    rw [hrefused, if_neg Bool.false_ne_true]

lemma length_byteBits (b : UInt8) : (byteBits b).length = 8 := by
  rw [byteBits, List.length_map, List.length_range]

lemma length_flatMap_byteBits (bytes : List UInt8) :
    (bytes.flatMap byteBits).length = 8 * bytes.length := by
  induction bytes with
  | nil => rfl
  | cons b bytes ih =>
      rw [List.flatMap_cons, List.length_append, length_byteBits, ih, List.length_cons]
      omega

/-- The string that is kept has less than 64 bytes. -/
lemma length_str_lt (t : Tlv) : t.decode.2.str.cstr.length < 64 := by
  have hzero : (CharArray.zero : CharArray 64).cstr.length < 64 := by
    rw [CharArray.cstr_zero]
    decide
  rw [Tlv.decode]
  split
  case h_5 =>
    split
    · exact hzero
    · exact CharArray.length_cstr_copyString_lt (by decide) _
  all_goals first | exact hzero | (split <;> exact hzero)

namespace AppValue

/-- A value that fits is read as it is. -/
lemma raw_decode {v : AppValue} (hv : v.WellFormed) (h : v.Fits) :
    v.raw.tlv.decode.1 = true ∧ v.Represents v.raw.tlv.decode.2 := by
  have hnumber : ∀ n < 2 ^ 32, 0 < (natBytes n).length ∧ (natBytes n).length ≤ 4 ∧
      (readBe (natBytes n)).toNat = n := fun n hn => by
    have hfew := length_natBytes_le_four.mpr hn
    refine ⟨List.length_pos_of_ne_nil (fewest_natBytes n).1, hfew, ?_⟩
    rw [toNat_readBe hfew, beNat_natBytes]
  cases v with
  | null => exact ⟨rfl, rfl⟩
  | bool b =>
      obtain rfl : b = false := h
      exact ⟨rfl, rfl, rfl⟩
  | unsigned n =>
      obtain ⟨hsome, hfew, hvalue⟩ := hnumber n h
      have hdecode := (decode_unsigned hsome hfew).1
      change (⟨2, natBytes n⟩ : Tlv).decode.1 = true ∧ Represents (⟨2, natBytes n⟩ : Tlv).decode.2 _
      rw [hdecode]
      exact ⟨rfl, rfl, hvalue⟩
  | enumerated n =>
      obtain ⟨hsome, hfew, hvalue⟩ := hnumber n h
      have hdecode := (decode_unsigned hsome hfew).2
      change (⟨9, natBytes n⟩ : Tlv).decode.1 = true ∧ Represents (⟨9, natBytes n⟩ : Tlv).decode.2 _
      rw [hdecode]
      exact ⟨rfl, rfl, hvalue⟩
  | real bits => exact ⟨rfl, rfl, readBe_bytes32 bits⟩
  | string s => exact ⟨rfl, rfl, CharArray.cstr_copyString h.2 h.1⟩
  | bitString unused bytes =>
      have hshort : bytes.length ≤ 1 := h
      obtain ⟨hunused, hempty⟩ := hv
      refine ⟨rfl, rfl, ?_⟩
      obtain _ | ⟨b, _ | ⟨b', bytes⟩⟩ := bytes
      · obtain rfl := hempty rfl
        rfl
      · have hcount : (8 - unused).toNat = 8 - unused.toNat := UInt8.toNat_sub_of_le _ _ (by
          rw [UInt8.le_iff_toNat_le] at hunused ⊢
          exact hunused.trans (by decide))
        show (byteBits b).take (8 - unused).toNat = ([b].flatMap byteBits).take (8 * 1 - unused.toNat)
        rw [hcount, List.flatMap_cons, List.flatMap_nil, List.append_nil]
      · rw [List.length_cons, List.length_cons] at hshort
        omega
  | objectId object =>
      refine ⟨rfl, rfl, ?_⟩
      show objectOf (readBe (bytes32 (objectIdWord object.type object.inst))) = object
      rw [readBe_bytes32, objectOf_objectIdWord hv.1 hv.2]

/-- A value that is read is the Boolean `true`, or it fits. -/
lemma Represents.fits {v : AppValue} {t : Tlv} (hv : v.WellFormed) (htrue : v ≠ bool true)
    (h : v.Represents t.decode.2) : v.Fits := by
  cases v with
  | null => trivial
  | bool b =>
      cases b with
      | false => rfl
      | true => exact absurd rfl htrue
  | unsigned n =>
      have hvalue : _ = n := h.2
      rw [Fits, ← hvalue]
      exact UInt32.toNat_lt _
  | enumerated n =>
      have hvalue : _ = n := h.2
      rw [Fits, ← hvalue]
      exact UInt32.toNat_lt _
  | real bits => trivial
  | string s =>
      have hstring : _ = utf8 s := h.2
      rw [Fits, ← hstring]
      exact ⟨length_str_lt t, CharArray.cstr_ne_zero _⟩
  | bitString unused bytes =>
      -- eight bits are kept, and at most seven of the last byte do not count
      have hbits := congrArg List.length h.2
      have hunused := UInt8.le_iff_toNat_le.mp hv.1
      have hseven : (7 : UInt8).toNat = 7 := rfl
      rw [List.length_take, length_byteBits, List.length_take, length_flatMap_byteBits] at hbits
      show bytes.length ≤ 1
      omega
  | objectId object => trivial

end AppValue

/-- A plain value that the reader knows is the encoding of one. -/
lemma exists_appValue {t : RawTag} (ht : t.IsValue) (hknown : t.tlv.decode.1 = true)
    (hplain : t.PlainValue) : ∃ v : AppValue, v.WellFormed ∧ v.bytes = t.bytes := by
  have hbytes : ∀ v : AppValue, v.tag = t.tag → v.content = t.content → (∀ b, v ≠ .bool b) →
      v.bytes = t.bytes := by
    intro v htag hcontent hbool
    rw [hplain.plain.bytes_eq, ht.context, ← htag, ← hcontent]
    cases v with
    | bool b => exact absurd rfl (hbool b)
    | _ => rfl
  have htag : ∀ k : UInt8, t.tlv.tag.toNat = k.toNat → k = t.tag := fun k hk =>
    (UInt8.toNat_inj.mp hk).symm
  have hsplit : ∀ {content : List UInt8}, ¬content.length < 1 →
      content.headD 0 :: content.tail = content := by
    intro content hcontent
    obtain _ | ⟨b, rest⟩ := content
    · exact absurd Nat.zero_lt_one hcontent
    · rfl
  rw [Tlv.decode] at hknown
  split at hknown
  case h_1 heq =>
    refine ⟨.null, trivial, hbytes _ (htag 0 heq) ?_ nofun⟩
    exact (List.length_eq_zero_iff.mp (eq_of_beq hknown)).symm
  case h_2 heq =>
    refine ⟨.bool false, trivial, ?_⟩
    have hone := htag 1 heq
    rw [hplain.plain.bytes_eq, ht.context, ← hone, hplain.bool hone.symm]
    rfl
  case h_3 heq =>
    refine ⟨.unsigned (beNat t.content), trivial, hbytes _ (htag 2 heq) ?_ nofun⟩
    exact natBytes_beNat (hplain.unsigned (.inl (htag 2 heq).symm))
  case h_4 heq =>
    split_ifs at hknown with hfour
    rw [bne_iff_ne, ne_eq, not_not] at hfour
    exact ⟨.real (readBe t.content), trivial, hbytes _ (htag 4 heq) (bytes32_readBe hfour) nofun⟩
  case h_5 heq =>
    split_ifs at hknown with hsome
    have hset : t.content.headD 0 = 0 := eq_of_beq hknown
    refine ⟨.string ⟨⟨t.content.tail.toArray⟩, hplain.string (htag 7 heq).symm⟩, trivial,
      hbytes _ (htag 7 heq) ?_ nofun⟩
    calc 0 :: t.content.tail = t.content.headD 0 :: t.content.tail := by rw [hset]
      _ = t.content := hsplit hsome
  case h_6 heq =>
    split_ifs at hknown with hsome
    exact ⟨.bitString (t.content.headD 0) t.content.tail, hplain.bitString (htag 8 heq).symm,
      hbytes _ (htag 8 heq) (hsplit hsome) nofun⟩
  case h_7 heq =>
    refine ⟨.enumerated (beNat t.content), trivial, hbytes _ (htag 9 heq) ?_ nofun⟩
    exact natBytes_beNat (hplain.unsigned (.inr (htag 9 heq).symm))
  case h_8 heq =>
    split_ifs at hknown with hfour
    rw [bne_iff_ne, ne_eq, not_not] at hfour
    obtain ⟨hword, hcode, hinst⟩ := objectIdWord_objectOf (readBe t.content)
    refine ⟨.objectId (objectOf (readBe t.content)), ⟨hcode, hinst⟩, hbytes _ (htag 12 heq) ?_ nofun⟩
    show bytes32 (objectIdWord _ _) = _
    rw [hword]
    exact bytes32_readBe hfour
  case h_9 => cases hknown

end Bacnet

end ArcticController

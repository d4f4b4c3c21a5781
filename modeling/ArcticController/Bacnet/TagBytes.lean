/-
Tags and values as they stand in a frame, and what the readers make of them.

* `Stands`: some bytes stand at a position of a buffer;
* `tagByte`: the first byte of a tag, and `decodeTagLen_short`, `decodeTagLen_extended`: how it is
  decoded;
* `toNat_readBe`: a number of at most four bytes;
* `contextBytes`, `readContextUint_stands`: a number under a context tag is read back;
* `readContextObject_stands`: an object identifier under a context tag;
* `appBytes`, `appTlv_stands`: a value under an application tag.
-/
import ArcticController.Base.BigEndian
import ArcticController.Bacnet.PropertyAnswers

namespace ArcticController

namespace Bacnet

/-! ### Bytes at a position -/

/-- The bytes stand in the buffer at a position. -/
def Stands (buf : List UInt8) (pos : ℕ) (bytes : List UInt8) : Prop :=
  bytesAt buf pos bytes.length = bytes

section Stands

variable {buf bytes bytes' : List UInt8} {b : UInt8} {pos : ℕ}

lemma bytesAt_succ (buf : List UInt8) (pos n : ℕ) :
    bytesAt buf pos (n + 1) = byteAt buf pos :: bytesAt buf (pos + 1) n := by
  rw [bytesAt, List.range_succ_eq_map, List.map_cons, List.map_map]
  refine congrArg₂ List.cons rfl (List.map_congr_left fun i _ => ?_)
  rw [Function.comp_apply, Nat.succ_eq_add_one]
  congr 1
  omega

lemma stands_cons : Stands buf pos (b :: bytes) ↔ byteAt buf pos = b ∧ Stands buf (pos + 1) bytes := by
  rw [Stands, List.length_cons, bytesAt_succ, List.cons_eq_cons, Stands]

lemma stands_nil : Stands buf pos [] := rfl

lemma stands_append : Stands buf pos (bytes ++ bytes') ↔
    Stands buf pos bytes ∧ Stands buf (pos + bytes.length) bytes' := by
  induction bytes generalizing pos with
  | nil => simp [stands_nil]
  | cons b bytes ih =>
      rw [List.cons_append, stands_cons, stands_cons, ih, List.length_cons, and_assoc]
      have hpos : pos + 1 + bytes.length = pos + (bytes.length + 1) := by omega
      rw [hpos]

lemma stands_self (before buf after : List UInt8) :
    Stands (before ++ buf ++ after) before.length buf := by
  induction buf generalizing before with
  | nil => exact stands_nil
  | cons b buf ih =>
      rw [stands_cons]
      refine ⟨?_, ?_⟩
      · rw [byteAt, List.append_assoc, List.getD_append_right _ _ _ _ le_rfl, Nat.sub_self]
        rfl
      · have h := ih (before ++ [b])
        rw [List.length_append, List.length_singleton] at h
        rwa [List.append_assoc before [b], List.singleton_append] at h

end Stands

/-! ### The first byte of a tag -/

/-- The first byte of a tag, with the length of its content. -/
def tagByte (tag : UInt8) (context : Bool) (lvt : ℕ) : UInt8 :=
  tag <<< 4 ||| UInt8.ofNat lvt ||| if context then 0x08 else 0

lemma tagByte_fields : ∀ tag : Fin 16, ∀ context : Bool, ∀ lvt : Fin 8,
    let b := tagByte (UInt8.ofNat tag) context lvt
    b >>> 4 = UInt8.ofNat tag ∧ (b &&& 0x08 != 0) = context ∧ b &&& 0x07 = UInt8.ofNat lvt := by
  decide

section Tags

variable {buf : List UInt8} {len pos n : ℕ} {tag : UInt8} {context : Bool}

lemma tagByte_fields_of_lt (htag : tag.toNat < 16) (hn : n < 8) :
    tagByte tag context n >>> 4 = tag ∧ (tagByte tag context n &&& 0x08 != 0) = context ∧
      tagByte tag context n &&& 0x07 = UInt8.ofNat n := by
  have h := tagByte_fields ⟨tag.toNat, htag⟩ context ⟨n, hn⟩
  rwa [UInt8.ofNat_toNat] at h

/-- A tag whose content is at most four bytes. -/
lemma decodeTagLen_short (htag : tag.toNat < 16) (hn : n ≤ 4)
    (hbyte : byteAt buf pos = tagByte tag context n) (hlen : pos + 1 + n ≤ len) :
    decodeTagLen buf len pos =
      some { tag, context, opening := false, closing := false, valueLen := n, pos := pos + 1 } := by
  obtain ⟨hhigh, hcontext, hlow⟩ := @tagByte_fields_of_lt n tag context htag (by omega)
  have hlvt : (UInt8.ofNat n).toNat = n := by
    rw [UInt8.toNat_ofNat']
    omega
  have hne : ∀ k : UInt8, 5 ≤ k.toNat → (UInt8.ofNat n == k) = false := by
    intro k hk
    rw [beq_eq_false_iff_ne]
    rintro rfl
    omega
  rw [decodeTagLen, if_neg (by omega), hbyte]
  dsimp only
  rw [hhigh, hcontext, hlow, hne 6 (by decide), hne 7 (by decide), hne 5 (by decide), hlvt]
  simp only [Bool.and_false, Bool.or_self, Bool.false_eq_true, if_false]
  rw [if_pos hlen]

/-- A tag with the length of its content in a byte of its own. -/
lemma decodeTagLen_extended (htag : tag.toNat < 16) {size : UInt8}
    (hbyte : byteAt buf pos = tagByte tag context 5) (hsize : byteAt buf (pos + 1) = size)
    (hlen : pos + 2 + size.toNat ≤ len) :
    decodeTagLen buf len pos =
      some { tag, context, opening := false, closing := false, valueLen := size.toNat, pos := pos + 2 } := by
  obtain ⟨hhigh, hcontext, hlow⟩ := @tagByte_fields_of_lt 5 tag context htag (by omega)
  rw [decodeTagLen, if_neg (by omega), hbyte]
  dsimp only
  rw [hhigh, hcontext, hlow]
  have hsix : (UInt8.ofNat 5 == 6) = false := rfl
  have hseven : (UInt8.ofNat 5 == 7) = false := rfl
  have hfive : (UInt8.ofNat 5 == 5) = true := rfl
  rw [hsix, hseven, hfive]
  simp only [Bool.and_false, Bool.or_self, Bool.false_eq_true, if_false, if_true]
  rw [if_neg (by omega), hsize, if_pos hlen]

end Tags

/-! ### Numbers -/

lemma readBe_concat (bytes : List UInt8) (b : UInt8) :
    readBe (bytes ++ [b]) = readBe bytes <<< 8 ||| b.toUInt32 := by
  rw [readBe, List.foldl_append]
  rfl

lemma toNat_readBe {bytes : List UInt8} (h : bytes.length ≤ 4) :
    (readBe bytes).toNat = beNat bytes := by
  induction bytes using List.reverseRecOn with
  | nil => rfl
  | append_singleton bytes b ih =>
      rw [List.length_append, List.length_singleton] at h
      have hbytes := ih (by omega)
      have hlt : (readBe bytes).toNat < 2 ^ 24 := by
        rw [hbytes]
        calc beNat bytes < 256 ^ bytes.length := beNat_lt bytes
          _ ≤ 256 ^ 3 := Nat.pow_le_pow_right (by decide) (by omega)
          _ = 2 ^ 24 := by decide
      rw [readBe_concat, toNat_shift_or b hlt, hbytes, beNat_concat]

lemma readBe_bytes32 (w : UInt32) : readBe (bytes32 w) = w := by
  apply UInt32.toNat_inj.mp
  rw [toNat_readBe (by simp [bytes32]), beNat_bytes32]

/-- The bytes of a number, no more than it needs. -/
def valueBytes (value : UInt32) : List UInt8 :=
  if value ≤ 0xFF then [value.toUInt8]
  else if value ≤ 0xFFFF then [(value >>> 8).toUInt8, value.toUInt8]
  else if value ≤ 0xFFFFFF then [(value >>> 16).toUInt8, (value >>> 8).toUInt8, value.toUInt8]
  else [(value >>> 24).toUInt8, (value >>> 16).toUInt8, (value >>> 8).toUInt8, value.toUInt8]

lemma length_valueBytes (value : UInt32) :
    0 < (valueBytes value).length ∧ (valueBytes value).length ≤ 4 := by
  rw [valueBytes]
  split
  · simp
  · split
    · simp
    · split <;> simp

lemma beNat_valueBytes (value : UInt32) : beNat (valueBytes value) = value.toNat := by
  have hvalue := value.toNat_lt
  obtain ⟨h₂₄, h₁₆, h₈, h₀⟩ := toNat_bytes32 value
  rw [valueBytes]
  split
  case isTrue hle =>
    rw [UInt32.le_iff_toNat_le] at hle
    have hmax : (0xFF : UInt32).toNat = 255 := rfl
    simp only [beNat, List.foldl_cons, List.foldl_nil, h₀]
    omega
  · split
    case isTrue hle =>
      rw [UInt32.le_iff_toNat_le] at hle
      have hmax : (0xFFFF : UInt32).toNat = 65535 := rfl
      simp only [beNat, List.foldl_cons, List.foldl_nil, h₀, h₈]
      omega
    · split
      case isTrue hle =>
        rw [UInt32.le_iff_toNat_le] at hle
        have hmax : (0xFFFFFF : UInt32).toNat = 16777215 := rfl
        simp only [beNat, List.foldl_cons, List.foldl_nil, h₀, h₈, h₁₆]
        omega
      · exact beNat_bytes32 value

lemma readBe_valueBytes (value : UInt32) : readBe (valueBytes value) = value := by
  apply UInt32.toNat_inj.mp
  rw [toNat_readBe (length_valueBytes value).2, beNat_valueBytes]

/-! ### Numbers under a context tag -/

/-- Some content under a context tag. -/
def contextBytes (tag : UInt8) (content : List UInt8) : List UInt8 :=
  tagByte tag true content.length :: content

lemma contextTag_eq (cap : ℕ) (out : List UInt8) (tag : UInt8) (value : UInt32) :
    contextTag cap out tag value = put cap out (contextBytes tag (valueBytes value)) := rfl

lemma contextObjectId_eq {cap : ℕ} {out : List UInt8} {tag : UInt8} {type : ObjectType}
    {inst : UInt32} (h : inst ≤ kDeviceWildcard) :
    contextObjectId cap out tag type inst =
      put cap out (contextBytes tag (bytes32 (objectIdWord type inst))) := by
  rw [contextObjectId, if_neg (UInt32.not_lt.mpr h)]
  rfl

section Context

variable {buf content : List UInt8} {len pos : ℕ} {tag : UInt8}

/-- The content of a context tag is read back. -/
lemma readContextUint_content (htag : tag.toNat < 16) (hsome : 0 < content.length)
    (hfew : content.length ≤ 4) (hstands : Stands buf pos (contextBytes tag content))
    (hlen : pos + (contextBytes tag content).length ≤ len) :
    readContextUint buf len pos tag =
      some (readBe content, pos + (contextBytes tag content).length) := by
  rw [contextBytes, List.length_cons] at hlen
  obtain ⟨hbyte, hcontent⟩ := stands_cons.mp hstands
  have hzero : (content.length == 0) = false := by
    rw [beq_eq_false_iff_ne]
    omega
  have hfour : decide (4 < content.length) = false := decide_eq_false (by omega)
  rw [readContextUint, decodeTagLen_short htag hfew hbyte (by omega)]
  dsimp only
  rw [hzero, hfour, bne_self_eq_false]
  simp only [Bool.not_true, Bool.or_self, Bool.false_eq_true, if_false]
  rw [Stands] at hcontent
  rw [hcontent, contextBytes, List.length_cons]
  congr 2
  omega

lemma readContextUint_stands {value : UInt32} (htag : tag.toNat < 16)
    (hstands : Stands buf pos (contextBytes tag (valueBytes value)))
    (hlen : pos + (contextBytes tag (valueBytes value)).length ≤ len) :
    readContextUint buf len pos tag =
      some (value, pos + (contextBytes tag (valueBytes value)).length) := by
  have h := readContextUint_content htag (length_valueBytes value).1 (length_valueBytes value).2
    hstands hlen
  rwa [readBe_valueBytes] at h

/-- The parts of the word of an object identifier. -/
lemma objectOf_objectIdWord {type : ObjectType} {inst : UInt32} (htype : type.code < 1024)
    (hinst : inst ≤ kDeviceWildcard) : objectOf (objectIdWord type inst) = ⟨type, inst⟩ := by
  have hcode : type.code.toNat < 1024 := UInt16.lt_iff_toNat_lt.mp htype
  have hinst' : inst.toNat ≤ 4194303 := UInt32.le_iff_toNat_le.mp hinst
  have hshift : (type.code.toUInt32 <<< 22).toNat = 2 ^ 22 * type.code.toNat := by
    have hplaces : (22 : UInt32).toNat % 32 = 22 := rfl
    rw [UInt32.toNat_shiftLeft, hplaces, UInt16.toNat_toUInt32, Nat.shiftLeft_eq, mul_comm]
    exact Nat.mod_eq_of_lt (by omega)
  have hmask : (inst &&& 0x3FFFFF).toNat = inst.toNat := by
    have hones : (0x3FFFFF : UInt32).toNat = 2 ^ 22 - 1 := rfl
    rw [UInt32.toNat_and, hones, Nat.and_two_pow_sub_one_eq_mod]
    exact Nat.mod_eq_of_lt (by omega)
  have hword : (objectIdWord type inst).toNat = 2 ^ 22 * type.code.toNat + inst.toNat := by
    rw [objectIdWord, UInt32.toNat_or, hshift, hmask,
      ← Nat.two_pow_add_eq_or_of_lt (show inst.toNat < 2 ^ 22 by omega)]
  have hhigh : (objectIdWord type inst >>> 22).toUInt16 = type.code := by
    apply UInt16.toNat_inj.mp
    have hplaces : (22 : UInt32).toNat % 32 = 22 := rfl
    rw [UInt32.toNat_toUInt16, UInt32.toNat_shiftRight, hplaces, Nat.shiftRight_eq_div_pow, hword]
    omega
  have hlow : objectIdWord type inst &&& 0x3FFFFF = inst := by
    apply UInt32.toNat_inj.mp
    have hones : (0x3FFFFF : UInt32).toNat = 2 ^ 22 - 1 := rfl
    rw [UInt32.toNat_and, hones, Nat.and_two_pow_sub_one_eq_mod, hword]
    omega
  rw [objectOf, hhigh, hlow]

lemma readContextObject_stands {type : ObjectType} {inst : UInt32} (htag : tag.toNat < 16)
    (htype : type.code < 1024) (hinst : inst ≤ kDeviceWildcard)
    (hstands : Stands buf pos (contextBytes tag (bytes32 (objectIdWord type inst))))
    (hlen : pos + 5 ≤ len) :
    readContextObject buf len pos tag = some (⟨type, inst⟩, pos + 5) := by
  have h := @readContextUint_content buf (bytes32 (objectIdWord type inst)) len pos tag htag
    (by simp [bytes32]) (by simp [bytes32]) hstands hlen
  rw [readContextObject, h, readBe_bytes32]
  show some (objectOf _, _) = _
  rw [objectOf_objectIdWord htype hinst]
  rfl

end Context

/-! ### Values under an application tag -/

/-- Some content under an application tag, its length in a byte of its own if it has five or more.
-/
def appBytes (tag : UInt8) (content : List UInt8) : List UInt8 :=
  if content.length < 5 then tagByte tag false content.length :: content
  else tagByte tag false 5 :: UInt8.ofNat content.length :: content

/-- The content of an application tag is read back. -/
lemma appTlv_stands {buf content : List UInt8} {len pos : ℕ} {tag : UInt8} (htag : tag.toNat < 16)
    (hshort : content.length < 256) (hstands : Stands buf pos (appBytes tag content))
    (hlen : pos + (appBytes tag content).length ≤ len) :
    appTlv buf len pos = some (⟨tag, content⟩, pos + (appBytes tag content).length) := by
  rw [appBytes] at hstands hlen ⊢
  split at hstands
  case isTrue hfew =>
    rw [if_pos hfew] at hlen ⊢
    rw [List.length_cons] at hlen ⊢
    obtain ⟨hbyte, hcontent⟩ := stands_cons.mp hstands
    rw [appTlv, decodeTagLen_short htag (by omega) hbyte (by omega)]
    dsimp only
    simp only [Bool.or_self, Bool.false_eq_true, if_false]
    rw [Stands] at hcontent
    rw [hcontent]
    congr 2
    omega
  case isFalse hmany =>
    rw [if_neg hmany] at hlen ⊢
    rw [List.length_cons, List.length_cons] at hlen ⊢
    obtain ⟨hbyte, hrest⟩ := stands_cons.mp hstands
    obtain ⟨hsize, hcontent⟩ := stands_cons.mp hrest
    have hnat : (UInt8.ofNat content.length).toNat = content.length := by
      rw [UInt8.toNat_ofNat', Nat.mod_eq_of_lt hshort]
    rw [appTlv, decodeTagLen_extended htag hbyte hsize (by omega)]
    dsimp only
    simp only [Bool.or_self, Bool.false_eq_true, if_false]
    rw [Stands] at hcontent
    rw [hnat, hcontent]
    congr 2
    omega

end Bacnet

end ArcticController

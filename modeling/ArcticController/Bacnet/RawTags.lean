/-
The tags that the readers accept, as bytes.

* `RawTag`: a tag with its content and the form of its length; `bytes`, how it stands in a frame;
* `RawTag.bytes_append_inj`: what a tag and the bytes behind it are is determined by the bytes;
* `decodeTagLen_rawTag`, `exists_rawTag`: what is decoded is exactly what stands there;
* `readContextUint_iff`, `appTlv_iff`: numbers under context tags, and values;
* `Carried`: the bytes that a frame carries behind its declared length.
-/
import ArcticController.Bacnet.TagBytes

namespace ArcticController

namespace Bacnet

/-! ### Tags -/

/-- A tag with its content, in one of the two forms of the length. -/
structure RawTag where
  tag : UInt8
  context : Bool
  extended : Bool
  content : List UInt8
deriving DecidableEq, Repr

namespace RawTag

def header (t : RawTag) : List UInt8 :=
  if t.extended then [tagByte t.tag t.context 5, UInt8.ofNat t.content.length]
  else [tagByte t.tag t.context t.content.length]

def bytes (t : RawTag) : List UInt8 := t.header ++ t.content

/-- The lengths that fit the form; under a context tag the short lengths 6 and 7 are brackets. -/
structure WellFormed (t : RawTag) : Prop where
  tag_lt : t.tag.toNat < 16
  long : t.extended → t.content.length < 256
  short : t.extended = false → t.content.length < 8 ∧ t.content.length ≠ 5
  number : t.extended = false → t.context → t.content.length < 5

/-- A number of up to four bytes under a context tag. -/
structure IsNumber (t : RawTag) (wanted : UInt8) : Prop where
  wellFormed : t.WellFormed
  context : t.context
  tag : t.tag = wanted
  nonempty : 0 < t.content.length
  few : t.content.length ≤ 4

/-- A value under an application tag. -/
structure IsValue (t : RawTag) : Prop where
  wellFormed : t.WellFormed
  context : t.context = false

def number (t : RawTag) : UInt32 := readBe t.content

def tlv (t : RawTag) : Tlv := ⟨t.tag, t.content⟩

lemma length_bytes (t : RawTag) : t.bytes.length = t.header.length + t.content.length :=
  List.length_append

lemma header_cons (t : RawTag) : ∃ rest, t.header
    = tagByte t.tag t.context (if t.extended then 5 else t.content.length) :: rest := by
  rw [header]
  cases t.extended
  · exact ⟨_, rfl⟩
  · exact ⟨_, rfl⟩

/-- The length in the first byte. -/
lemma WellFormed.lvt_lt {t : RawTag} (h : t.WellFormed) :
    (if t.extended then 5 else t.content.length) < 8 := by
  cases hform : t.extended with
  | false => exact (h.short hform).1
  | true =>
      rw [if_pos rfl]
      decide

/-- The size in a byte. -/
lemma size_inj {m n : ℕ} (hm : m < 256) (hn : n < 256) (h : UInt8.ofNat m = UInt8.ofNat n) :
    m = n := by
  calc m = (UInt8.ofNat m).toNat := by rw [UInt8.toNat_ofNat', Nat.mod_eq_of_lt hm]
    _ = (UInt8.ofNat n).toNat := by rw [h]
    _ = n := by rw [UInt8.toNat_ofNat', Nat.mod_eq_of_lt hn]

lemma tagByte_inj {tag tag' : UInt8} {context context' : Bool} {n n' : ℕ} (htag : tag.toNat < 16)
    (htag' : tag'.toNat < 16) (hn : n < 8) (hn' : n' < 8)
    (h : tagByte tag context n = tagByte tag' context' n') :
    tag = tag' ∧ context = context' ∧ n = n' := by
  obtain ⟨hhigh, hcontext, hlow⟩ := @tagByte_fields_of_lt n tag context htag hn
  obtain ⟨hhigh', hcontext', hlow'⟩ := @tagByte_fields_of_lt n' tag' context' htag' hn'
  rw [h] at hhigh hcontext hlow
  exact ⟨hhigh.symm.trans hhigh', hcontext.symm.trans hcontext',
    size_inj (by omega) (by omega) (hlow.symm.trans hlow')⟩

/-- Bytes begin with one tag only. -/
lemma bytes_append_inj {t t' : RawTag} (ht : t.WellFormed) (ht' : t'.WellFormed)
    {rest rest' : List UInt8} (h : t.bytes ++ rest = t'.bytes ++ rest') :
    t = t' ∧ rest = rest' := by
  obtain ⟨tag, context, extended, content⟩ := t
  obtain ⟨tag', context', extended', content'⟩ := t'
  have hhead : tagByte tag context (if extended then 5 else content.length)
      = tagByte tag' context' (if extended' then 5 else content'.length) := by
    obtain ⟨after, hcons⟩ := header_cons ⟨tag, context, extended, content⟩
    obtain ⟨after', hcons'⟩ := header_cons ⟨tag', context', extended', content'⟩
    rw [bytes, bytes, hcons, hcons'] at h
    exact (List.cons.inj h).1
  obtain ⟨rfl, rfl, hlvt⟩ := tagByte_inj ht.tag_lt ht'.tag_lt ht.lvt_lt ht'.lvt_lt hhead
  cases extended with
  | false =>
      have hshort := ht.short rfl
      cases extended' with
      | false =>
          rw [if_neg Bool.false_ne_true, if_neg Bool.false_ne_true] at hlvt
          obtain ⟨rfl, rfl⟩ := List.append_inj (List.cons.inj h).2 hlvt
          exact ⟨rfl, rfl⟩
      | true =>
          rw [if_neg Bool.false_ne_true, if_pos rfl] at hlvt
          exact absurd hlvt hshort.2
  | true =>
      cases extended' with
      | false =>
          rw [if_pos rfl, if_neg Bool.false_ne_true] at hlvt
          exact absurd hlvt.symm (ht'.short rfl).2
      | true =>
          obtain ⟨-, htail⟩ := List.cons.inj h
          obtain ⟨hsize, hrest⟩ := List.cons.inj htail
          have hlength := size_inj (ht.long rfl) (ht'.long rfl) hsize
          obtain ⟨rfl, rfl⟩ := List.append_inj hrest hlength
          exact ⟨rfl, rfl⟩

end RawTag

/-! ### Decoding -/

lemma tagByte_of_fields : ∀ b : Fin 256,
    UInt8.ofNat b = tagByte (UInt8.ofNat b >>> 4) (UInt8.ofNat b &&& 0x08 != 0)
      (UInt8.ofNat b &&& 0x07).toNat ∧ (UInt8.ofNat b >>> 4).toNat < 16 ∧
      (UInt8.ofNat b &&& 0x07).toNat < 8 := by
  decide +kernel

lemma tagByte_self (b : UInt8) : b = tagByte (b >>> 4) (b &&& 0x08 != 0) (b &&& 0x07).toNat ∧
    (b >>> 4).toNat < 16 ∧ (b &&& 0x07).toNat < 8 := by
  have h := tagByte_of_fields ⟨b.toNat, b.toNat_lt⟩
  rwa [UInt8.ofNat_toNat] at h

section Decoding

variable {buf : List UInt8} {len pos pos' : ℕ}

lemma length_bytesAt (buf : List UInt8) (pos n : ℕ) : (bytesAt buf pos n).length = n := by
  rw [bytesAt, List.length_map, List.length_range]

lemma stands_bytesAt (buf : List UInt8) (pos n : ℕ) : Stands buf pos (bytesAt buf pos n) := by
  rw [Stands, length_bytesAt]

/-- A tag that stands there is decoded. -/
lemma decodeTagLen_rawTag {t : RawTag} (ht : t.WellFormed) (hstands : Stands buf pos t.bytes)
    (hlen : pos + t.bytes.length ≤ len) :
    decodeTagLen buf len pos = some {
      tag := t.tag
      context := t.context
      opening := false
      closing := false
      valueLen := t.content.length
      pos := pos + t.header.length } := by
  obtain ⟨tag, context, extended, content⟩ := t
  have htag := ht.tag_lt
  cases extended with
  | true =>
      obtain ⟨hbyte, hrest⟩ := stands_cons.mp hstands
      obtain ⟨hsize, -⟩ := stands_cons.mp hrest
      have hnat : (UInt8.ofNat content.length).toNat = content.length := by
        rw [UInt8.toNat_ofNat', Nat.mod_eq_of_lt (ht.long rfl)]
      have hlen' : pos + 2 + content.length ≤ len := by
        rw [RawTag.length_bytes, RawTag.header, if_pos rfl] at hlen
        simp only [List.length_cons, List.length_nil] at hlen
        omega
      dsimp only at htag hbyte hsize
      rw [decodeTagLen_extended htag hbyte hsize (by omega), hnat]
      rfl
  | false =>
      obtain ⟨hbyte, -⟩ := stands_cons.mp hstands
      obtain ⟨hlt, hne⟩ := ht.short rfl
      have hnumber := ht.number rfl
      dsimp only at htag hlt hne hnumber
      have hlen' : pos + 1 + content.length ≤ len := by
        rw [RawTag.length_bytes, RawTag.header, if_neg Bool.false_ne_true] at hlen
        simp only [List.length_cons, List.length_nil] at hlen
        omega
      dsimp only at hbyte
      obtain ⟨hhigh, hcontext, hlow⟩ := @tagByte_fields_of_lt _ tag context htag hlt
      have hlvt : (UInt8.ofNat content.length).toNat = content.length := by
        rw [UInt8.toNat_ofNat']
        omega
      have hne' : ∀ k : UInt8, content.length ≠ k.toNat →
          (UInt8.ofNat content.length == k) = false := by
        intro k hk
        rw [beq_eq_false_iff_ne]
        rintro rfl
        exact hk hlvt.symm
      have hopen : (context && UInt8.ofNat content.length == 6) = false := by
        cases context with
        | false => rfl
        | true => exact hne' 6 (by have := hnumber rfl; change _ ≠ 6; omega)
      have hclose : (context && UInt8.ofNat content.length == 7) = false := by
        cases context with
        | false => rfl
        | true => exact hne' 7 (by have := hnumber rfl; change _ ≠ 7; omega)
      rw [decodeTagLen, if_neg (by omega), hbyte]
      dsimp only
      rw [hhigh, hcontext, hlow, hopen, hclose, hne' 5 hne, hlvt]
      simp only [Bool.or_self, Bool.false_eq_true, if_false]
      rw [if_pos hlen']
      rfl

/-- What is decoded stands there, unless it is a bracket. -/
lemma exists_rawTag {t : Tag} (h : decodeTagLen buf len pos = some t) (hopen : t.opening = false)
    (hclose : t.closing = false) : ∃ r : RawTag, r.WellFormed ∧ Stands buf pos r.bytes ∧
      r.tag = t.tag ∧ r.context = t.context ∧ r.content = bytesAt buf t.pos t.valueLen ∧
      pos + r.bytes.length = t.pos + t.valueLen := by
  obtain ⟨hself, htag, hlvt⟩ := tagByte_self (byteAt buf pos)
  rw [decodeTagLen] at h
  by_cases hpos : len ≤ pos
  · rw [if_pos hpos] at h
    cases h
  rw [if_neg hpos] at h
  dsimp only at h
  generalize hb : byteAt buf pos = b at h hself htag hlvt
  split_ifs at h with hbracket hfive hend hfits hfits
  · cases h
    rw [Bool.or_eq_true] at hbracket
    rcases hbracket with hbracket | hbracket
    · exact absurd (hbracket.symm.trans hopen) Bool.noConfusion
    · exact absurd (hbracket.symm.trans hclose) Bool.noConfusion
  · cases h
    have hlow : (b &&& 0x07).toNat = 5 := congrArg UInt8.toNat (eq_of_beq hfive)
    rw [hlow] at hself
    refine ⟨⟨b >>> 4, b &&& 0x08 != 0, true,
      bytesAt buf (pos + 2) (byteAt buf (pos + 1)).toNat⟩, ⟨htag, ?_, by rintro ⟨⟩, by rintro ⟨⟩⟩, ?_, rfl, rfl, rfl, ?_⟩
    · intro
      rw [length_bytesAt]
      exact UInt8.toNat_lt _
    · refine stands_cons.mpr ⟨hb.trans hself, stands_cons.mpr ⟨?_, stands_bytesAt _ _ _⟩⟩
      rw [length_bytesAt, UInt8.ofNat_toNat]
    · rw [RawTag.length_bytes, length_bytesAt, RawTag.header, if_pos rfl]
      simp only [List.length_cons, List.length_nil]
      omega
  · cases h
    refine ⟨⟨b >>> 4, b &&& 0x08 != 0, false, bytesAt buf (pos + 1) (b &&& 0x07).toNat⟩,
      ⟨htag, by rintro ⟨⟩, ?_, ?_⟩, ?_, rfl, rfl, rfl, ?_⟩
    · intro
      rw [length_bytesAt]
      refine ⟨hlvt, fun heq => hfive (beq_iff_eq.mpr (UInt8.toNat_inj.mp heq))⟩
    · intro _ hcontext
      rw [length_bytesAt]
      dsimp only at hcontext hopen hclose
      rw [hcontext, Bool.true_and] at hopen hclose
      have hsix : (b &&& 0x07).toNat ≠ 6 := fun heq =>
        beq_eq_false_iff_ne.mp hopen (UInt8.toNat_inj.mp heq)
      have hseven : (b &&& 0x07).toNat ≠ 7 := fun heq =>
        beq_eq_false_iff_ne.mp hclose (UInt8.toNat_inj.mp heq)
      have hne : (b &&& 0x07).toNat ≠ 5 := fun heq =>
        hfive (beq_iff_eq.mpr (UInt8.toNat_inj.mp heq))
      omega
    · refine stands_cons.mpr ⟨?_, stands_bytesAt _ _ _⟩
      rw [length_bytesAt]
      exact hb.trans hself
    · rw [RawTag.length_bytes, length_bytesAt, RawTag.header, if_neg Bool.false_ne_true]
      simp only [List.length_cons, List.length_nil]
      omega

/-- A number is read exactly if it stands there. -/
lemma readContextUint_iff {wanted : UInt8} {v : UInt32} :
    readContextUint buf len pos wanted = some (v, pos') ↔
      ∃ t : RawTag, t.IsNumber wanted ∧ Stands buf pos t.bytes ∧ pos' = pos + t.bytes.length ∧
        pos' ≤ len ∧ v = t.number := by
  constructor
  · intro h
    have hle := (readContextUint_le h).2
    rw [readContextUint] at h
    cases htag : decodeTagLen buf len pos with
    | none =>
        rw [htag] at h
        cases h
    | some t =>
        rw [htag] at h
        dsimp only at h
        split_ifs at h with hrefused
        simp only [Bool.or_eq_true, Bool.not_eq_true', bne_iff_ne, ne_eq, beq_iff_eq,
          decide_eq_true_eq, not_or, Bool.not_eq_false, Bool.not_eq_true, not_not] at hrefused
        obtain ⟨⟨⟨⟨⟨hcontext, hopen⟩, hclose⟩, hwanted⟩, hsome⟩, hfew⟩ := hrefused
        obtain ⟨r, hwell, hstands, hr, hrcontext, hcontent, hend⟩ := exists_rawTag htag hopen hclose
        cases h
        have hlength : r.content.length = t.valueLen := by rw [hcontent, length_bytesAt]
        exact ⟨r, ⟨hwell, hrcontext.trans hcontext, hr.trans hwanted, by omega, by omega⟩, hstands,
          hend.symm, hle, by rw [RawTag.number, hcontent]⟩
  · rintro ⟨t, ht, hstands, rfl, hle, rfl⟩
    rw [readContextUint, decodeTagLen_rawTag ht.wellFormed hstands hle]
    dsimp only
    have hzero : (t.content.length == 0) = false := by
      rw [beq_eq_false_iff_ne]
      exact ht.nonempty.ne'
    have hfour : decide (4 < t.content.length) = false := decide_eq_false (not_lt.mpr ht.few)
    rw [ht.context, ht.tag, hzero, hfour, bne_self_eq_false]
    simp only [Bool.not_true, Bool.or_self, Bool.false_eq_true, if_false]
    have hcontent := (stands_append.mp hstands).2
    rw [Stands] at hcontent
    rw [hcontent, RawTag.length_bytes, Nat.add_assoc]
    rfl

/-- A value is read exactly if it stands there. -/
lemma appTlv_iff {t : Tlv} : appTlv buf len pos = some (t, pos') ↔
    ∃ r : RawTag, r.IsValue ∧ Stands buf pos r.bytes ∧ pos' = pos + r.bytes.length ∧
      pos' ≤ len ∧ t = r.tlv := by
  constructor
  · intro h
    have hle := (appTlv_le h).2
    rw [appTlv] at h
    cases htag : decodeTagLen buf len pos with
    | none =>
        rw [htag] at h
        cases h
    | some t =>
        rw [htag] at h
        dsimp only at h
        split_ifs at h with hrefused
        simp only [Bool.or_eq_true, not_or, Bool.not_eq_true] at hrefused
        obtain ⟨⟨hcontext, hopen⟩, hclose⟩ := hrefused
        obtain ⟨r, hwell, hstands, hr, hrcontext, hcontent, hend⟩ := exists_rawTag htag hopen hclose
        cases h
        exact ⟨r, ⟨hwell, hrcontext.trans hcontext⟩, hstands, hend.symm, hle,
          by rw [RawTag.tlv, hr, hcontent]⟩
  · rintro ⟨r, hr, hstands, rfl, hle, rfl⟩
    rw [appTlv, decodeTagLen_rawTag hr.wellFormed hstands hle]
    dsimp only
    rw [hr.context]
    simp only [Bool.or_self, Bool.false_eq_true, if_false]
    have hcontent := (stands_append.mp hstands).2
    rw [Stands] at hcontent
    rw [hcontent, RawTag.length_bytes, Nat.add_assoc]
    rfl

end Decoding

/-! ### Frames -/

/-- The buffer begins with a unicast frame that carries the bytes. -/
structure Carried (buf : List UInt8) (len : ℕ) (npdu : List UInt8) : Prop where
  type : byteAt buf 0 = kBvlcType
  function : byteAt buf 1 = kBvlcOriginalUnicast
  declared : frameLength buf = 4 + npdu.length
  within : frameLength buf ≤ len
  bytes : Stands buf 4 npdu

/-- A frame carries the same bytes however it is looked at. -/
lemma Carried.eq {buf npdu npdu' : List UInt8} {len : ℕ} (h : Carried buf len npdu)
    (h' : Carried buf len npdu') : npdu = npdu' := by
  have hlength : npdu.length = npdu'.length := by
    have := h.declared
    have := h'.declared
    omega
  have hbytes := h.bytes
  have hbytes' := h'.bytes
  rw [Stands] at hbytes hbytes'
  rw [← hbytes, ← hbytes', hlength]

end Bacnet

end ArcticController

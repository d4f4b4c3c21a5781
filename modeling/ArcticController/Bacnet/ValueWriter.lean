/-
The writer of application values (`Writer` in `bacnet_frame.cpp`), and that its values are read
back.

* `Writer.u8`, `Writer.bytes`, `Writer.tag` and the `Writer.application…` calls;
* `Puts`: a call writes some bytes or leaves the writer failed; `Puts.andThen`: one call after
  another;
* `WriterCall`, `writerRun`: the calls, and the writer after them;
* `decodeValues`: the values of a buffer, one after the other;
* `values_read_back`: every sequence of calls that leaves the writer ok.
-/
import ArcticController.Bacnet.TagBytes

namespace ArcticController

namespace Bacnet

/-- The bytes written so far into a buffer of some capacity; it stays failed once a write has not
fitted. -/
structure Writer (cap : ℕ) where
  buf : List UInt8 := []
  ok : Bool := true

namespace Writer

variable {cap : ℕ}

def u8 (v : UInt8) (w : Writer cap) : Writer cap × Bool :=
  if cap ≤ w.buf.length then ({ w with ok := false }, false)
  else ({ w with buf := w.buf ++ [v] }, true)

def bytes (data : List UInt8) (w : Writer cap) : Writer cap × Bool :=
  if cap < w.buf.length + data.length then ({ w with ok := false }, false)
  else ({ w with buf := w.buf ++ data }, true)

/-- `f && g`: what follows a write that failed is not written. -/
def andThen (f g : Writer cap → Writer cap × Bool) (w : Writer cap) : Writer cap × Bool :=
  if (f w).2 then g (f w).1 else f w

def tag (tagId : UInt8) (len : ℕ) : Writer cap → Writer cap × Bool :=
  if len < 5 then u8 (tagId <<< 4 ||| UInt8.ofNat len)
  else andThen (u8 (tagId <<< 4 ||| 5)) (u8 (UInt8.ofNat len))

def applicationObjectId (type : ObjectType) (inst : UInt32) : Writer cap → Writer cap × Bool :=
  andThen (tag 12 4) (bytes (bytes32 (objectIdWord type inst)))

/-- One, two or four bytes. -/
def unsignedBytes (v : UInt32) : List UInt8 :=
  if v ≤ 0xFF then [v.toUInt8]
  else if v ≤ 0xFFFF then [(v >>> 8).toUInt8, v.toUInt8]
  else bytes32 v

def applicationUnsigned (v : UInt32) : Writer cap → Writer cap × Bool :=
  andThen (tag 2 (unsignedBytes v).length) (bytes (unsignedBytes v))

/-- `b[n - 1 - i]` is the byte `v >> 8 * i`. -/
def enumeratedBytes (v : UInt32) : List UInt8 :=
  let n := if v ≤ 0xFF then 1 else if v ≤ 0xFFFF then 2 else 4
  (List.range n).map fun k => (v >>> UInt32.ofNat (8 * (n - 1 - k))).toUInt8

def applicationEnumerated (v : UInt32) : Writer cap → Writer cap × Bool :=
  andThen (tag 9 (enumeratedBytes v).length) (bytes (enumeratedBytes v))

/-- A number by its 32 bits. -/
def applicationReal (bits : UInt32) : Writer cap → Writer cap × Bool :=
  andThen (tag 4 4) (bytes (bytes32 bits))

/-- A string, of which no more than 63 bytes are written. -/
def applicationString (s : List UInt8) : Writer cap → Writer cap × Bool :=
  let n := min s.length 63
  andThen (andThen (tag 7 (n + 1)) (u8 0)) (bytes (s.take n))

def applicationBitstring (bits bitCount : UInt8) : Writer cap → Writer cap × Bool :=
  andThen (tag 8 2) (bytes [8 - bitCount, bits])

end Writer

/-! ### What a call writes -/

/-- A call puts some bytes behind what is there, or fails and leaves the writer failed. -/
def Puts {cap : ℕ} (f : Writer cap → Writer cap × Bool) (bytes : List UInt8) : Prop :=
  ∀ w, ((f w).2 = true ∧ (f w).1 = { w with buf := w.buf ++ bytes } ∧
      (w.buf ++ bytes).length ≤ cap) ∨
    ((f w).2 = false ∧ (f w).1.ok = false)

section Puts

variable {cap : ℕ} {f g : Writer cap → Writer cap × Bool} {data data' : List UInt8}

lemma puts_bytes (data : List UInt8) : @Puts cap (Writer.bytes data) data := by
  intro w
  rw [Writer.bytes]
  split
  · exact .inr ⟨rfl, rfl⟩
  case isFalse hroom =>
    refine .inl ⟨rfl, rfl, ?_⟩
    rw [List.length_append]
    omega

lemma puts_u8 (v : UInt8) : @Puts cap (Writer.u8 v) [v] := by
  intro w
  rw [Writer.u8]
  split
  · exact .inr ⟨rfl, rfl⟩
  case isFalse hroom =>
    refine .inl ⟨rfl, rfl, ?_⟩
    rw [List.length_append, List.length_singleton]
    omega

lemma Puts.andThen (hf : Puts f data) (hg : Puts g data') :
    Puts (Writer.andThen f g) (data ++ data') := by
  intro w
  rw [Writer.andThen]
  rcases hf w with ⟨htrue, hwritten, -⟩ | ⟨hfalse, hfailed⟩
  · rw [if_pos htrue, hwritten]
    rcases hg { w with buf := w.buf ++ data } with ⟨htrue', hwritten', hfits⟩ | hfailed
    · rw [hwritten', ← List.append_assoc]
      exact .inl ⟨htrue', rfl, hfits⟩
    · exact .inr hfailed
  · rw [hfalse, if_neg Bool.false_ne_true]
    exact .inr ⟨hfalse, hfailed⟩

lemma puts_tag_bytes (tagId : UInt8) (data : List UInt8) :
    @Puts cap (Writer.andThen (Writer.tag tagId data.length) (Writer.bytes data))
      (appBytes tagId data) := by
  have hzero : ∀ b : UInt8, b ||| 0 = b := fun _ => UInt8.or_zero
  rw [Writer.tag, appBytes, tagByte, tagByte, if_neg Bool.false_ne_true, hzero, hzero]
  split
  · exact (puts_u8 _).andThen (puts_bytes data)
  · exact ((puts_u8 _).andThen (puts_u8 _)).andThen (puts_bytes data)

end Puts

/-! ### Calls -/

inductive WriterCall where
  | objectId (type : ObjectType) (inst : UInt32)
  | unsigned (v : UInt32)
  | enumerated (v : UInt32)
  | real (bits : UInt32)
  | string (s : List UInt8)
  | bitstring (bits bitCount : UInt8)

namespace WriterCall

/-- A type of ten bits and an instance; a string of at most 63 bytes, none of them its end; one to
eight bits. -/
def WellFormed : WriterCall → Prop
  | .objectId type inst => type.code < 1024 ∧ inst ≤ 4194303
  | .string s => s.length ≤ 63 ∧ ∀ c ∈ s, c ≠ 0
  | .bitstring _ bitCount => 1 ≤ bitCount ∧ bitCount ≤ 8
  | .unsigned _ | .enumerated _ | .real _ => True

def write {cap : ℕ} : WriterCall → Writer cap → Writer cap × Bool
  | .objectId type inst => Writer.applicationObjectId type inst
  | .unsigned v => Writer.applicationUnsigned v
  | .enumerated v => Writer.applicationEnumerated v
  | .real bits => Writer.applicationReal bits
  | .string s => Writer.applicationString s
  | .bitstring bits bitCount => Writer.applicationBitstring bits bitCount

/-- The value that is written. -/
def value : WriterCall → Value
  | .objectId type inst => { type := .objectId, object := ⟨type, inst⟩ }
  | .unsigned v => { type := .unsigned, u := v }
  | .enumerated v => { type := .enumerated, u := v }
  | .real bits => { type := .real, real := bits }
  | .string s => { type := .string, str := .copyString 64 s }
  | .bitstring bits bitCount => { type := .bitString, bitCount, bits }

/-- The tag and the content of the value. -/
def tlv : WriterCall → Tlv
  | .objectId type inst => ⟨12, bytes32 (objectIdWord type inst)⟩
  | .unsigned v => ⟨2, Writer.unsignedBytes v⟩
  | .enumerated v => ⟨9, Writer.enumeratedBytes v⟩
  | .real bits => ⟨4, bytes32 bits⟩
  | .string s => ⟨7, 0 :: s⟩
  | .bitstring bits bitCount => ⟨8, [8 - bitCount, bits]⟩

/-- The bytes of the value. -/
def bytes (c : WriterCall) : List UInt8 := appBytes c.tlv.tag c.tlv.content

end WriterCall

section Values

variable {cap : ℕ} {c : WriterCall}

lemma puts_write (h : c.WellFormed) : @Puts cap c.write c.bytes := by
  cases c with
  | objectId type inst => exact puts_tag_bytes 12 (bytes32 (objectIdWord type inst))
  | unsigned v => exact puts_tag_bytes 2 _
  | enumerated v => exact puts_tag_bytes 9 _
  | real bits => exact puts_tag_bytes 4 (bytes32 bits)
  | string s =>
      have hmin : min s.length 63 = s.length := Nat.min_eq_left h.1
      have hzero : ∀ b : UInt8, b ||| 0 = b := fun _ => UInt8.or_zero
      show Puts (Writer.applicationString s) (appBytes 7 (0 :: s))
      rw [Writer.applicationString, hmin, List.take_length, Writer.tag, appBytes, tagByte, tagByte,
        if_neg Bool.false_ne_true, hzero, hzero, List.length_cons]
      split
      · exact ((puts_u8 _).andThen (puts_u8 0)).andThen (puts_bytes s)
      · exact (((puts_u8 _).andThen (puts_u8 _)).andThen (puts_u8 0)).andThen (puts_bytes s)
  | bitstring bits bitCount => exact puts_tag_bytes 8 [8 - bitCount, bits]

lemma enumeratedBytes_eq (v : UInt32) : Writer.enumeratedBytes v = Writer.unsignedBytes v := by
  have hzero : v >>> 0 = v := UInt32.shiftRight_zero
  rw [Writer.enumeratedBytes, Writer.unsignedBytes]
  split
  · show [(v >>> 0).toUInt8] = _
    rw [hzero]
  · split
    · show [(v >>> 8).toUInt8, (v >>> 0).toUInt8] = _
      rw [hzero]
    · show [(v >>> 24).toUInt8, (v >>> 16).toUInt8, (v >>> 8).toUInt8, (v >>> 0).toUInt8] = _
      rw [hzero]
      rfl

lemma length_unsignedBytes (v : UInt32) :
    0 < (Writer.unsignedBytes v).length ∧ (Writer.unsignedBytes v).length ≤ 4 := by
  rw [Writer.unsignedBytes]
  split
  · simp
  · split <;> simp [bytes32]

lemma readBe_unsignedBytes (v : UInt32) : readBe (Writer.unsignedBytes v) = v := by
  obtain ⟨-, -, h₈, h₀⟩ := toNat_bytes32 v
  apply UInt32.toNat_inj.mp
  rw [toNat_readBe (length_unsignedBytes v).2, Writer.unsignedBytes]
  split
  case isTrue hle =>
    rw [UInt32.le_iff_toNat_le] at hle
    have hmax : (0xFF : UInt32).toNat = 255 := rfl
    simp only [beNat, List.foldl_cons, List.foldl_nil, h₀]
    omega
  · split
    case isTrue hle =>
      rw [UInt32.le_iff_toNat_le] at hle
      have hmax : (0xFFFF : UInt32).toNat = 65535 := rfl
      simp only [beNat, List.foldl_cons, List.foldl_nil, h₀, h₈]
      omega
    · exact beNat_bytes32 v

/-- The decoder makes the value of what was written. -/
lemma decode_tlv (h : c.WellFormed) : c.tlv.decode = (true, c.value) := by
  have hlengths : ∀ {content : List UInt8}, 0 < content.length → content.length ≤ 4 →
      (content.length == 0 || decide (4 < content.length)) = false := by
    intro content hsome hfew
    rw [Bool.or_eq_false_iff, beq_eq_false_iff_ne, decide_eq_false_iff_not]
    omega
  cases c with
  | objectId type inst =>
      show (true, ({ type := .objectId, object := objectOf (readBe (bytes32 _)) } : Value)) = _
      rw [readBe_bytes32, objectOf_objectIdWord h.1 h.2]
      rfl
  | unsigned v =>
      have hn := hlengths (length_unsignedBytes v).1 (length_unsignedBytes v).2
      show (if (Writer.unsignedBytes v).length == 0 || decide (4 < (Writer.unsignedBytes v).length)
        then (false, {}) else (true, { type := .unsigned, u := readBe (Writer.unsignedBytes v) }) :
          Bool × Value) = _
      rw [hn, readBe_unsignedBytes]
      rfl
  | enumerated v =>
      have hn := hlengths (length_unsignedBytes v).1 (length_unsignedBytes v).2
      show (if (Writer.enumeratedBytes v).length == 0 || decide (4 < (Writer.enumeratedBytes v).length)
        then (false, {}) else (true, { type := .enumerated, u := readBe (Writer.enumeratedBytes v) }) :
          Bool × Value) = _
      rw [enumeratedBytes_eq, hn, readBe_unsignedBytes]
      rfl
  | real bits =>
      show (true, ({ type := .real, real := readBe (bytes32 bits) } : Value)) = _
      rw [readBe_bytes32]
      rfl
  | string s =>
      show (if s.length + 1 < 1 then (false, {}) else
        ((0 : UInt8) == 0, { type := .string, str := .copyString 64 s }) : Bool × Value) = _
      rw [if_neg (by omega)]
      rfl
  | bitstring bits bitCount =>
      show (true, ({ type := .bitString, bitCount := 8 - (8 - bitCount), bits } : Value)) = _
      have hback : 8 - (8 - bitCount) = bitCount := by grind
      rw [hback]
      rfl

/-- The content of a value has its length in a byte. -/
lemma length_tlv (h : c.WellFormed) : c.tlv.content.length < 256 := by
  cases c with
  | objectId type inst => exact show 4 < 256 by decide
  | unsigned v => exact (length_unsignedBytes v).2.trans_lt (by decide)
  | enumerated v =>
      show (Writer.enumeratedBytes v).length < 256
      rw [enumeratedBytes_eq]
      exact (length_unsignedBytes v).2.trans_lt (by decide)
  | real bits => exact show 4 < 256 by decide
  | string s =>
      have hlength := h.1
      show (0 :: s).length < 256
      rw [List.length_cons]
      omega
  | bitstring bits bitCount => exact show 2 < 256 by decide

lemma tag_tlv (c : WriterCall) : c.tlv.tag.toNat < 16 := by
  cases c with
  | objectId type inst => exact show (12 : UInt8).toNat < 16 by decide
  | unsigned v => exact show (2 : UInt8).toNat < 16 by decide
  | enumerated v => exact show (9 : UInt8).toNat < 16 by decide
  | real bits => exact show (4 : UInt8).toNat < 16 by decide
  | string s => exact show (7 : UInt8).toNat < 16 by decide
  | bitstring bits bitCount => exact show (8 : UInt8).toNat < 16 by decide

/-- A value that stands in a buffer is read back. -/
lemma decodeAppValue_stands {buf : List UInt8} {len pos : ℕ} (h : c.WellFormed)
    (hstands : Stands buf pos c.bytes) (hlen : pos + c.bytes.length ≤ len) (out : Value) :
    decodeAppValue buf len pos out = (some (pos + c.bytes.length), c.value) := by
  rw [decodeAppValue, appTlv_stands (tag_tlv c) (length_tlv h) hstands hlen]
  dsimp only
  rw [decode_tlv h]
  rfl

end Values

/-! ### Every sequence of calls -/

/-- The writer after some calls. -/
def writerRun (cap : ℕ) (calls : List WriterCall) : Writer cap :=
  calls.foldl (fun w c => (c.write w).1) {}

/-- The values of a buffer from a position to its end, with no more than `fuel` turns. -/
def decodeValues (buf : List UInt8) (len : ℕ) : ℕ → ℕ → Option (List Value)
  | 0, pos => if pos = len then some [] else none
  | fuel + 1, pos =>
      if pos = len then some []
      else
        match decodeAppValue buf len pos {} with
        | (none, _) => none
        | (some pos, v) => (decodeValues buf len fuel pos).map (v :: ·)

section Runs

variable {cap : ℕ} {calls : List WriterCall}

lemma writerRun_concat (calls : List WriterCall) (c : WriterCall) :
    writerRun cap (calls ++ [c]) = (c.write (writerRun cap calls)).1 := by
  rw [writerRun, List.foldl_append]
  rfl

/-- A failed writer stays failed. -/
lemma ok_of_ok_write {c : WriterCall} (hwell : c.WellFormed) {w : Writer cap}
    (h : (c.write w).1.ok = true) :
    w.ok = true ∧ (c.write w).1 = { w with buf := w.buf ++ c.bytes } ∧
      (w.buf ++ c.bytes).length ≤ cap := by
  rcases @puts_write cap _ hwell w with ⟨-, hwritten, hfits⟩ | ⟨-, hfailed⟩
  · rw [hwritten] at h
    exact ⟨h, hwritten, hfits⟩
  · exact absurd (hfailed.symm.trans h) Bool.false_ne_true

/-- What a writer that is ok has written. -/
lemma writerRun_buf (hwell : ∀ c ∈ calls, c.WellFormed) (hok : (writerRun cap calls).ok = true) :
    (writerRun cap calls).buf = (calls.map WriterCall.bytes).flatten ∧
      (writerRun cap calls).buf.length ≤ cap := by
  induction calls using List.reverseRecOn with
  | nil => exact ⟨rfl, Nat.zero_le _⟩
  | append_singleton calls c ih =>
      have hc : c.WellFormed := hwell c (List.mem_append_right _ (List.mem_singleton_self c))
      rw [writerRun_concat] at hok ⊢
      obtain ⟨hbefore, hwritten, hfits⟩ := ok_of_ok_write hc hok
      obtain ⟨hbuf, -⟩ := ih (fun c hc => hwell c (List.mem_append_left _ hc)) hbefore
      rw [hwritten]
      refine ⟨?_, hfits⟩
      rw [hbuf, List.map_append, List.map_singleton, List.flatten_append, List.flatten_singleton]

/-- The writer was ok before, too. -/
lemma writerRun_ok {before after : List WriterCall} (hwell : ∀ c ∈ before ++ after, c.WellFormed)
    (hok : (writerRun cap (before ++ after)).ok = true) : (writerRun cap before).ok = true := by
  induction after using List.reverseRecOn with
  | nil => rwa [List.append_nil] at hok
  | append_singleton after c ih =>
      rw [← List.append_assoc] at hwell hok
      have hc : c.WellFormed := hwell c (List.mem_append_right _ (List.mem_singleton_self c))
      rw [writerRun_concat] at hok
      exact ih (fun c hc => hwell c (List.mem_append_left _ hc)) (ok_of_ok_write hc hok).1

/-- The values behind a position are read back in order. -/
lemma decodeValues_stands {buf : List UInt8} {len : ℕ} (calls : List WriterCall) {pos fuel : ℕ}
    (hwell : ∀ c ∈ calls, c.WellFormed) (hfuel : calls.length ≤ fuel)
    (hstands : Stands buf pos (calls.map WriterCall.bytes).flatten)
    (hlen : pos + (calls.map WriterCall.bytes).flatten.length = len) :
    decodeValues buf len fuel pos = some (calls.map WriterCall.value) := by
  induction calls generalizing pos fuel with
  | nil =>
      have hend : pos = len := hlen
      cases fuel <;> rw [decodeValues, if_pos hend] <;> rfl
  | cons c calls ih =>
      obtain ⟨fuel, rfl⟩ := Nat.exists_eq_succ_of_ne_zero (show fuel ≠ 0 by
        rw [List.length_cons] at hfuel
        omega)
      rw [List.map_cons, List.flatten_cons] at hstands hlen
      obtain ⟨hvalue, hrest⟩ := stands_append.mp hstands
      rw [List.length_append] at hlen
      have hsome : 0 < c.bytes.length := by
        rw [WriterCall.bytes, appBytes]
        split <;> exact Nat.succ_pos _
      rw [decodeValues, if_neg (by omega),
        decodeAppValue_stands (hwell c List.mem_cons_self) hvalue (by omega)]
      dsimp only
      rw [ih (fun c hc => hwell c (List.mem_cons_of_mem _ hc)) (Nat.le_of_succ_le_succ hfuel) hrest
        (by omega)]
      rfl

end Runs

/-- **Values are read back.** Of a writer that is ok, the bytes fit the buffer; decoding them one
after the other gives the values that were written, in order, and each takes the bytes of its own
call. -/
theorem values_read_back (cap : ℕ) (calls : List WriterCall) (hwell : ∀ c ∈ calls, c.WellFormed)
    (hok : (writerRun cap calls).ok = true) :
    (writerRun cap calls).buf.length ≤ cap ∧
    decodeValues (writerRun cap calls).buf (writerRun cap calls).buf.length calls.length 0 =
      some (calls.map WriterCall.value) ∧
    (∀ before c after, calls = before ++ c :: after → ∀ out,
      decodeAppValue (writerRun cap calls).buf (writerRun cap calls).buf.length
          (writerRun cap before).buf.length out =
        (some (writerRun cap (before ++ [c])).buf.length, c.value)) ∧
    ∀ s, .string s ∈ calls → (WriterCall.string s).value.str.cstr = s := by
  obtain ⟨hbuf, hfits⟩ := writerRun_buf hwell hok
  refine ⟨hfits, ?_, ?_, fun s hs => ?_⟩
  · refine decodeValues_stands calls hwell le_rfl ?_ ?_
    · rw [hbuf]
      have h := stands_self [] (calls.map WriterCall.bytes).flatten []
      rwa [List.nil_append, List.append_nil] at h
    · rw [hbuf, Nat.zero_add]
  · rintro before c after rfl out
    have hc : c.WellFormed := hwell c (by simp)
    have hbefore : ∀ c ∈ before, c.WellFormed := fun c hc => hwell c (List.mem_append_left _ hc)
    have hupto : ∀ c' ∈ before ++ [c], c'.WellFormed := fun c' hc' => hwell c' (by
      rw [List.mem_append, List.mem_singleton] at hc'
      rw [List.mem_append, List.mem_cons]
      tauto)
    obtain ⟨hbuf₁, -⟩ := writerRun_buf hbefore (writerRun_ok hwell hok)
    rw [List.append_cons] at hwell hok hbuf ⊢
    obtain ⟨hbuf₂, -⟩ := writerRun_buf hupto (writerRun_ok hwell hok)
    have hstands : Stands (writerRun cap (before ++ [c] ++ after)).buf
        (before.map WriterCall.bytes).flatten.length c.bytes := by
      have h := stands_self (before.map WriterCall.bytes).flatten c.bytes
        (after.map WriterCall.bytes).flatten
      rw [hbuf]
      simpa using h
    have hlength : (writerRun cap (before ++ [c])).buf.length =
        (before.map WriterCall.bytes).flatten.length + c.bytes.length := by
      rw [hbuf₂]
      simp
    have hle : (before.map WriterCall.bytes).flatten.length + c.bytes.length ≤
        (writerRun cap (before ++ [c] ++ after)).buf.length := by
      rw [hbuf]
      simp
    rw [hbuf₁, hlength]
    exact decodeAppValue_stands hc hstands hle out
  · obtain ⟨hlength, hzero⟩ := hwell _ hs
    exact CharArray.cstr_copyString hzero (by omega)

/-- An object, a number and a name in a buffer of twenty bytes. -/
theorem values_read_back_three :
    ∃ calls, (writerRun 20 calls).ok = true ∧ calls.length = 3 ∧
      decodeValues (writerRun 20 calls).buf (writerRun 20 calls).buf.length calls.length 0 =
        some (calls.map WriterCall.value) := by
  obtain ⟨calls, hcalls⟩ : ∃ calls : List WriterCall,
      calls = [.objectId .device 4194303, .unsigned 70000, .string [80, 117, 109, 112]] :=
    ⟨_, rfl⟩
  have hwell : ∀ c ∈ calls, c.WellFormed := by
    intro c hc
    rw [hcalls] at hc
    simp only [List.mem_cons, List.not_mem_nil, or_false] at hc
    rcases hc with rfl | rfl | rfl
    · exact ⟨by decide, by decide⟩
    · exact trivial
    · exact ⟨by decide, by simp⟩
  have hok : (writerRun 20 calls).ok = true := by
    rw [hcalls]
    decide +kernel
  have hlength : calls.length = 3 := by simp [hcalls]
  exact ⟨calls, hok, hlength, (values_read_back 20 calls hwell hok).2.1⟩

end Bacnet

end ArcticController

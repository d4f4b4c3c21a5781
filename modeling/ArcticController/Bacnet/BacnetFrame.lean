/-
The BACnet/IP frames of the external sensors (`bacnet_frame.cpp`): what the client
sends, and how it reads the answers.

* `contextTag`, `contextObjectId`, `buildReadProperty`, `buildReadPropertyMultiple`:
  requests, in a buffer of some capacity;
* `parseHeader`, `frameMatchesObject`: which frames answer a request;
* `decodeTagLen`, `readContextUint`, `decodeAppValue`: tags and values;
* `readPropertyResult`, `readResults`, `readObjects`: the results of one frame,
  written over what the caller's array holds;
* `parseReadPropertyAck`, `parseReadPropertyMultipleAck`: the two answers.

A frame is read in a buffer that may be longer than the frame.
-/
import ArcticController.Base.CharArray

namespace ArcticController

namespace Bacnet

def kInstanceMax : UInt32 := 4194302
def kDeviceWildcard : UInt32 := 4194303
def kMaxFrame : ℕ := 1500

def kBvlcType : UInt8 := 0x81
def kBvlcOriginalUnicast : UInt8 := 0x0A
def kNpduVersion : UInt8 := 0x01
def kNpduExpectingReply : UInt8 := 0x04
def kConfirmedRequest : UInt8 := 0x00
def kComplexAck : UInt8 := 0x30
def kErrorPdu : UInt8 := 0x50
def kRejectPdu : UInt8 := 0x60
def kAbortPdu : UInt8 := 0x70
/-- No segmentation accepted, and up to 1476 bytes. -/
def kMaxSegmentsMaxApdu : UInt8 := 0x05
def kServiceReadProperty : UInt8 := 12
def kServiceReadPropertyMultiple : UInt8 := 14

/-! ### Objects, properties and values -/

structure ObjectType where
  code : UInt16
deriving DecidableEq, Repr

namespace ObjectType

def analogInput : ObjectType := ⟨0⟩
def analogValue : ObjectType := ⟨2⟩
def device : ObjectType := ⟨8⟩

end ObjectType

def propObjectIdentifier : UInt32 := 75
def propObjectList : UInt32 := 76
def propObjectName : UInt32 := 77
def propPresentValue : UInt32 := 85
def propReliability : UInt32 := 103
def propStatusFlags : UInt32 := 111
def propUnits : UInt32 := 117
def propDescription : UInt32 := 28
def propModelName : UInt32 := 70

inductive ValueType where
  | null
  | bool
  | unsigned
  | enumerated
  | real
  | string
  | bitString
  | objectId
deriving DecidableEq, Repr

structure ObjectId where
  type : ObjectType := ⟨0⟩
  inst : UInt32 := 0
deriving DecidableEq, Repr

/-- A value read; `real` is the 32 bits of a number. -/
structure Value where
  type : ValueType := .null
  u : UInt32 := 0
  real : UInt32 := 0
  b : Bool := false
  str : CharArray 64 := .zero
  bitCount : UInt8 := 0
  bits : UInt8 := 0
  object : ObjectId := {}
deriving DecidableEq

inductive Parse where
  | ok
  | incomplete
  | badFrame
  | wrongInvoke
  | wrongService
  | error
  | reject
  | abort
  | unsupported
  | notFound
deriving DecidableEq, Repr

structure ErrorInfo where
  errorClass : UInt8 := 0
  errorCode : UInt8 := 0
  reason : UInt8 := 0
deriving DecidableEq, Repr

structure PropertyValue where
  object : ObjectId := {}
  property : UInt32 := 0
  error : Bool := false
  errorInfo : ErrorInfo := {}
  value : Value := {}
deriving DecidableEq

/-! ### Requests -/

def objectIdWord (type : ObjectType) (inst : UInt32) : UInt32 :=
  type.code.toUInt32 <<< 22 ||| (inst &&& 0x3FFFFF)

/-- The bytes written so far and some more, if the buffer has room for them. -/
def put (cap : ℕ) (out bytes : List UInt8) : Option (List UInt8) :=
  if cap < out.length + bytes.length then none else some (out ++ bytes)

def contextTag (cap : ℕ) (out : List UInt8) (tag : UInt8) (value : UInt32) :
    Option (List UInt8) :=
  let bytes : List UInt8 :=
    if value ≤ 0xFF then [value.toUInt8]
    else if value ≤ 0xFFFF then [(value >>> 8).toUInt8, value.toUInt8]
    else if value ≤ 0xFFFFFF then
      [(value >>> 16).toUInt8, (value >>> 8).toUInt8, value.toUInt8]
    else
      [(value >>> 24).toUInt8, (value >>> 16).toUInt8, (value >>> 8).toUInt8, value.toUInt8]
  put cap out ((tag <<< 4 ||| UInt8.ofNat bytes.length ||| 0x08) :: bytes)

def contextObjectId (cap : ℕ) (out : List UInt8) (tag : UInt8) (type : ObjectType)
    (inst : UInt32) : Option (List UInt8) :=
  if kDeviceWildcard < inst then none
  else
    let oid := objectIdWord type inst
    put cap out [tag <<< 4 ||| 4 ||| 0x08, (oid >>> 24).toUInt8, (oid >>> 16).toUInt8,
      (oid >>> 8).toUInt8, oid.toUInt8]

def opening (cap : ℕ) (out : List UInt8) (tag : UInt8) : Option (List UInt8) :=
  put cap out [tag <<< 4 ||| 0x0E]

def closing (cap : ℕ) (out : List UInt8) (tag : UInt8) : Option (List UInt8) :=
  put cap out [tag <<< 4 ||| 0x0F]

def begin (invoke service : UInt8) (cap : ℕ) : Option (List UInt8) :=
  if cap < 10 then none
  else some [kBvlcType, kBvlcOriginalUnicast, 0, 0, kNpduVersion, kNpduExpectingReply,
    kConfirmedRequest, kMaxSegmentsMaxApdu, invoke, service]

/-- The length of the frame goes to its third and fourth byte. -/
def finish (out : List UInt8) : Option (List UInt8) :=
  if kMaxFrame < out.length then none
  else some ((out.set 2 (UInt8.ofNat (out.length / 256))).set 3 (UInt8.ofNat out.length))

def buildReadProperty (invoke : UInt8) (type : ObjectType) (inst property : UInt32)
    (arrayIndex : Option UInt32) (cap : ℕ) : Option (List UInt8) := do
  let out ← begin invoke kServiceReadProperty cap
  let out ← contextObjectId cap out 0 type inst
  let out ← contextTag cap out 1 property
  let out ← match arrayIndex with
    | none => some out
    | some index => contextTag cap out 2 index
  finish out

def buildReadPropertyMultiple (invoke : UInt8) (type : ObjectType) (inst : UInt32)
    (properties : List UInt32) (cap : ℕ) : Option (List UInt8) := do
  let out ← begin invoke kServiceReadPropertyMultiple cap
  let out ← contextObjectId cap out 0 type inst
  let out ← opening cap out 1
  let out ← properties.foldlM (fun out property => contextTag cap out 0 property) out
  let out ← closing cap out 1
  finish out

/-! ### Tags and values -/

def byteAt (buf : List UInt8) (pos : ℕ) : UInt8 := buf.getD pos 0

def bytesAt (buf : List UInt8) (pos n : ℕ) : List UInt8 :=
  (List.range n).map fun i => byteAt buf (pos + i)

def readBe (bytes : List UInt8) : UInt32 :=
  bytes.foldl (fun v b => v <<< 8 ||| b.toUInt32) 0

def isOpen (b tag : UInt8) : Bool := b == (tag <<< 4 ||| 0x0E)

def isClose (b tag : UInt8) : Bool := b == (tag <<< 4 ||| 0x0F)

/-- A tag, and where what it announces begins. -/
structure Tag where
  tag : UInt8
  context : Bool
  opening : Bool
  closing : Bool
  valueLen : ℕ
  pos : ℕ

def decodeTagLen (buf : List UInt8) (len pos : ℕ) : Option Tag :=
  if len ≤ pos then none
  else
    let b := byteAt buf pos
    let context := b &&& 0x08 != 0
    let lvt := b &&& 0x07
    let t : Tag := {
      tag := b >>> 4
      context := context
      opening := context && lvt == 6
      closing := context && lvt == 7
      valueLen := 0
      pos := pos + 1 }
    if t.opening || t.closing then some t
    else if lvt == 5 then
      if len ≤ pos + 1 then none
      else
        let n := (byteAt buf (pos + 1)).toNat
        if pos + 2 + n ≤ len then some { t with valueLen := n, pos := pos + 2 } else none
    else if pos + 1 + lvt.toNat ≤ len then some { t with valueLen := lvt.toNat } else none

/-- An application-tagged value as it stands in a frame: its tag, and its content. -/
structure Tlv where
  tag : UInt8
  content : List UInt8
deriving DecidableEq, Repr

def objectOf (word : UInt32) : ObjectId :=
  { type := ⟨(word >>> 22).toUInt16⟩, inst := word &&& 0x3FFFFF }

/-- What `decode_app_value` makes of a value, and whether it is one that it knows. -/
def Tlv.decode (t : Tlv) : Bool × Value :=
  let n := t.content.length
  let first := t.content.headD 0
  match t.tag.toNat with
  | 0 => (n == 0, { type := .null })
  | 1 => (true, { type := .bool, b := n != 0 })
  | 2 => if n == 0 || 4 < n then (false, {}) else (true, { type := .unsigned, u := readBe t.content })
  | 4 => if n != 4 then (false, {}) else (true, { type := .real, real := readBe t.content })
  | 7 => if n < 1 then (false, {})
      else (first == 0, { type := .string, str := .copyString 64 t.content.tail })
  -- the number of bits is kept in eight bits
  | 8 => if n < 1 then (false, {})
      else (true, {
        type := .bitString
        bitCount := UInt8.ofNat ((n - 1) * 8) - first
        bits := t.content.tail.headD 0 })
  | 9 => if n == 0 || 4 < n then (false, {})
      else (true, { type := .enumerated, u := readBe t.content })
  | 12 => if n != 4 then (false, {})
      else (true, { type := .objectId, object := objectOf (readBe t.content) })
  | _ => (false, {})

/-- The application-tagged value at a position, and the position behind it. -/
def appTlv (buf : List UInt8) (len pos : ℕ) : Option (Tlv × ℕ) :=
  match decodeTagLen buf len pos with
  | none => none
  | some t =>
      if t.context || t.opening || t.closing then none
      else some (⟨t.tag, bytesAt buf t.pos t.valueLen⟩, t.pos + t.valueLen)

/-- The position behind the value, if it is one; a value that is refused is written
all the same. -/
def decodeAppValue (buf : List UInt8) (len pos : ℕ) (out : Value) : Option ℕ × Value :=
  match appTlv buf len pos with
  | none => (none, out)
  | some (t, pos) => (if t.decode.1 then some pos else none, t.decode.2)

def readContextUint (buf : List UInt8) (len pos : ℕ) (wanted : UInt8) : Option (UInt32 × ℕ) :=
  match decodeTagLen buf len pos with
  | none => none
  | some t =>
      if !t.context || t.opening || t.closing || t.tag != wanted || t.valueLen == 0
          || 4 < t.valueLen then none
      else some (readBe (bytesAt buf t.pos t.valueLen), t.pos + t.valueLen)

def readContextObject (buf : List UInt8) (len pos : ℕ) (wanted : UInt8) :
    Option (ObjectId × ℕ) :=
  (readContextUint buf len pos wanted).map fun (v, pos) => (objectOf v, pos)

/-! ### Headers -/

/-- The length a frame declares. -/
def frameLength (buf : List UInt8) : ℕ := (byteAt buf 2).toNat * 256 + (byteAt buf 3).toNat

/-- Where the content of an answer begins. -/
def headerEnd : ℕ := 9

/-- An enumerated value of an error, if there is one, and where the reader stops. -/
def readEnum (buf : List UInt8) (total p : ℕ) : Option UInt8 × ℕ :=
  let valueAt (p n : ℕ) : Option UInt8 × ℕ :=
    if n == 0 || 4 < n || total < p + n then (none, p)
    else (some (readBe (bytesAt buf p n)).toUInt8, p + n)
  if total ≤ p || byteAt buf p >>> 4 != 9 then (none, p)
  else if byteAt buf p &&& 0x07 == 5 then
    if total ≤ p + 1 then (none, p + 1) else valueAt (p + 2) (byteAt buf (p + 1)).toNat
  else valueAt (p + 1) (byteAt buf p &&& 0x07).toNat

def readErrorInfo (buf : List UInt8) (total : ℕ) : ErrorInfo :=
  let errorClass := readEnum buf total headerEnd
  let errorCode := readEnum buf total errorClass.2
  { errorClass := errorClass.1.getD 0, errorCode := errorCode.1.getD 0 }

def parseHeader (buf : List UInt8) (len : ℕ) (invoke service : UInt8) : Parse × ErrorInfo :=
  let total := frameLength buf
  let pdu := byteAt buf 6 &&& 0xF0
  if len < 7 then (.incomplete, {})
  else if byteAt buf 0 != kBvlcType || byteAt buf 1 != kBvlcOriginalUnicast then (.badFrame, {})
  else if len < total then (.incomplete, {})
  else if total < 7 then (.badFrame, {})
  else if byteAt buf 4 != kNpduVersion then (.badFrame, {})
  else if byteAt buf 5 &&& 0x28 != 0 then (.badFrame, {})
  else if pdu == kComplexAck then
    if total < 9 then (.incomplete, {})
    else if byteAt buf 7 != invoke then (.wrongInvoke, {})
    else if byteAt buf 8 != service then (.wrongService, {})
    else (.ok, {})
  else if pdu == kErrorPdu then
    if total < 9 then (.incomplete, {})
    else if byteAt buf 7 != invoke then (.wrongInvoke, {})
    else (.error, readErrorInfo buf total)
  else if pdu == kRejectPdu || pdu == kAbortPdu then
    if total < 9 then (.incomplete, {})
    else if byteAt buf 7 != invoke then (.wrongInvoke, {})
    else (if pdu == kRejectPdu then .reject else .abort, { reason := byteAt buf 8 })
  else (.unsupported, {})

/-- The object is the expected one; the wildcard stands for every instance. -/
def objectExpected (object expected : ObjectId) : Bool :=
  object.type == expected.type && (expected.inst == kDeviceWildcard || object.inst == expected.inst)

def frameMatchesObject (buf : List UInt8) (len : ℕ) (invoke service : UInt8)
    (expected : ObjectId) : Bool :=
  match (parseHeader buf len invoke service).1 with
  | .error | .reject | .abort => true
  | .ok =>
      match readContextObject buf (frameLength buf) headerEnd 0 with
      | none => false
      | some (object, _) => objectExpected object expected
  | _ => false

/-! ### The answer to ReadProperty -/

/-- The position of the value in an answer of the expected object and property. -/
def ackValueAt (buf : List UInt8) (total : ℕ) (property : UInt32) (expected : Option ObjectId) :
    Except Parse ℕ :=
  match readContextObject buf total headerEnd 0 with
  | none => .error .badFrame
  | some (object, pos) =>
      match readContextUint buf total pos 1 with
      | none => .error .badFrame
      | some (prop, pos) =>
          if expected.any (fun expected => !objectExpected object expected) then .error .badFrame
          else if prop != property then .error .wrongService
          else
            -- an array index is skipped
            let index := if pos < total && byteAt buf pos >>> 4 == 2 && byteAt buf pos &&& 0x08 != 0
              then (readContextUint buf total pos 2).map Prod.snd else some pos
            match index with
            | none => .error .badFrame
            | some pos =>
                if pos < total && isOpen (byteAt buf pos) 3 then .ok (pos + 1)
                else .error .badFrame

def parseReadPropertyAck (buf : List UInt8) (len : ℕ) (invoke : UInt8) (property : UInt32)
    (out : Value) (expected : Option ObjectId) : Parse × Value × ErrorInfo :=
  match parseHeader buf len invoke kServiceReadProperty with
  | (.ok, err) =>
      match ackValueAt buf (frameLength buf) property expected with
      | .error p => (p, out, err)
      | .ok pos =>
          match decodeAppValue buf (frameLength buf) pos out with
          | (none, v) => (.badFrame, v, err)
          | (some pos, v) =>
              if pos < frameLength buf && isClose (byteAt buf pos) 3 then (.ok, v, err)
              else (.badFrame, v, err)
  | (p, err) => (p, out, err)

/-! ### The answer to ReadPropertyMultiple -/

/-- The class and the code of a property error, after its opening tag. -/
def readPropertyError (buf : List UInt8) (len pos : ℕ) : Option (UInt8 × UInt8 × ℕ) :=
  match readContextUint buf len pos 0 with
  | none => none
  | some (cls, pos) =>
      match readContextUint buf len pos 1 with
      | none => none
      | some (code, pos) =>
          if pos < len && isClose (byteAt buf pos) 5 then some (cls.toUInt8, code.toUInt8, pos + 1)
          else none

/-- A result of one property is written over `pv`: a value does not touch its error
mark. -/
def readPropertyResult (buf : List UInt8) (len pos : ℕ) (object : ObjectId) (pv : PropertyValue) :
    Option ℕ × PropertyValue :=
  match readContextUint buf len pos 2 with
  | none => (none, pv)
  | some (prop, pos) =>
      let pv := { pv with object := object, property := prop }
      if len ≤ pos then (none, pv)
      else if isOpen (byteAt buf pos) 5 then
        match readPropertyError buf len (pos + 1) with
        | none => (none, pv)
        | some (cls, code, pos) =>
            (some pos, { pv with
              error := true
              errorInfo := { pv.errorInfo with errorClass := cls, errorCode := code } })
      else if isOpen (byteAt buf pos) 4 then
        match decodeAppValue buf len (pos + 1) pv.value with
        | (none, v) => (none, { pv with value := v })
        | (some pos, v) =>
            (if pos < len && isClose (byteAt buf pos) 4 then some (pos + 1) else none,
              { pv with value := v })
      else (none, pv)

/-- The results of one object up to its closing tag. The loop makes no more turns
than `fuel`; `readResults_fuel` has enough of them. -/
def readResults (buf : List UInt8) (total : ℕ) (object : ObjectId) {cap : ℕ} :
    ℕ → ℕ → ℕ → Vector PropertyValue cap → Except Parse ℕ × ℕ × Vector PropertyValue cap
  | 0, _, count, out => (.error .badFrame, count, out)
  | fuel + 1, pos, count, out =>
      if pos < total && !isClose (byteAt buf pos) 1 then
        if h : count < cap then
          match readPropertyResult buf total pos object out[count] with
          | (none, pv) => (.error .badFrame, count, out.set count pv)
          | (some pos, pv) => readResults buf total object fuel pos (count + 1) (out.set count pv)
        else (.error .unsupported, count, out)
      else if pos < total then (.ok (pos + 1), count, out)
      else (.error .badFrame, count, out)

/-- The expected object at a position, behind it the opening tag of its results. -/
def objectAt (buf : List UInt8) (total pos : ℕ) (expected : Option ObjectId) :
    Option (ObjectId × ℕ) :=
  match readContextObject buf total pos 0 with
  | none => none
  | some (object, pos) =>
      if pos < total && isOpen (byteAt buf pos) 1
          && !expected.any (fun expected => !objectExpected object expected) then
        some (object, pos + 1)
      else none

/-- The objects of an answer, with at most `fuel` turns. -/
def readObjects (buf : List UInt8) (total : ℕ) (expected : Option ObjectId) {cap : ℕ} :
    ℕ → ℕ → ℕ → Vector PropertyValue cap → Parse × ℕ × Vector PropertyValue cap
  | 0, _, count, out => (.badFrame, count, out)
  | fuel + 1, pos, count, out =>
      if pos < total then
        match objectAt buf total pos expected with
        | none => (.badFrame, count, out)
        | some (object, pos) =>
            match readResults buf total object (total + 1) pos count out with
            | (.error p, count, out) => (p, count, out)
            | (.ok pos, count, out) => readObjects buf total expected fuel pos count out
      else (.ok, count, out)

/-- The outcome, the number of results and the caller's array. -/
structure MultipleAck (cap : ℕ) where
  parse : Parse
  err : ErrorInfo
  count : ℕ
  out : Vector PropertyValue cap

def parseReadPropertyMultipleAck (buf : List UInt8) (len : ℕ) (invoke : UInt8) {cap : ℕ}
    (out : Vector PropertyValue cap) (expected : Option ObjectId) : MultipleAck cap :=
  match parseHeader buf len invoke kServiceReadPropertyMultiple with
  | (.ok, err) =>
      let r := readObjects buf (frameLength buf) expected (frameLength buf + 1) headerEnd 0 out
      { parse := r.1, err := err, count := r.2.1, out := r.2.2 }
  | (p, err) => { parse := p, err := err, count := 0, out := out }

end Bacnet

end ArcticController

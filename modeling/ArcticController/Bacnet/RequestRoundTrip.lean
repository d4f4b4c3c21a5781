/-
A request decodes to what was asked.

* `requestHeader`, `propertyRequest`, `multipleRequest`: the bytes of a request;
* `writtenBy`: what the steps of a builder have written when they end, in success or not;
  `buildReadProperty_eq`, `buildReadPropertyMultiple_eq`: the builders are such steps;
* `readProperties`: the property list of a request, up to its closing tag;
* `readProperty_decodes`, `readMultiple_decodes`: every request, in a buffer of every capacity.
-/
import ArcticController.Bacnet.TagBytes

namespace ArcticController

namespace Bacnet

/-! ### The steps of a builder -/

/-- What has been written when the steps end, and whether none of them failed. -/
def writtenBy : List (List UInt8 → Option (List UInt8)) → List UInt8 → List UInt8 × Bool
  | [], out => (out, true)
  | step :: steps, out =>
      match step out with
      | none => (out, false)
      | some out => writtenBy steps out

/-- The steps one after the other, up to one that fails. -/
def runSteps (steps : List (List UInt8 → Option (List UInt8))) (out : List UInt8) :
    Option (List UInt8) :=
  steps.foldlM (fun out step => step out) out

/-- The step that puts some bytes. -/
def putting (cap : ℕ) (bytes : List UInt8) (out : List UInt8) : Option (List UInt8) :=
  put cap out bytes

section Steps

variable {cap : ℕ} {out : List UInt8}

/-- Steps that put some bytes each write no more than the capacity, and fail exactly if the bytes do
not fit. -/
lemma writtenBy_putting (parts : List (List UInt8)) (hout : out.length ≤ cap) :
    (writtenBy (parts.map (putting cap)) out).1.length ≤ cap ∧
      ((writtenBy (parts.map (putting cap)) out).2 = true ↔
        (out ++ parts.flatten).length ≤ cap) ∧
      ((writtenBy (parts.map (putting cap)) out).2 = true →
        (writtenBy (parts.map (putting cap)) out).1 = out ++ parts.flatten) := by
  induction parts generalizing out with
  | nil => simpa [writtenBy] using hout
  | cons bytes parts ih =>
      rw [List.map_cons, List.flatten_cons]
      by_cases hroom : cap < out.length + bytes.length
      · have hstep : putting cap bytes out = none := by rw [putting, put, if_pos hroom]
        rw [writtenBy, hstep]
        refine ⟨hout, ⟨nofun, fun hfits => ?_⟩, nofun⟩
        rw [List.length_append, List.length_append] at hfits
        omega
      · have hstep : putting cap bytes out = some (out ++ bytes) := by
          rw [putting, put, if_neg hroom]
        have hnext := @ih (out ++ bytes) (by rw [List.length_append]; omega)
        rw [writtenBy, hstep, ← List.append_assoc]
        exact hnext

/-- The steps, and what is done with what they have written. -/
lemma runSteps_bind {β : Type} (steps : List (List UInt8 → Option (List UInt8)))
    (next : List UInt8 → Option β) :
    (runSteps steps out).bind next =
      if (writtenBy steps out).2 then next (writtenBy steps out).1 else none := by
  induction steps generalizing out with
  | nil => rfl
  | cons step steps ih =>
      rw [runSteps, List.foldlM_cons, writtenBy]
      cases step out with
      | none => rfl
      | some out => exact ih

end Steps

/-! ### The bytes of a request -/

def requestHeader (invoke service : UInt8) : List UInt8 :=
  [kBvlcType, kBvlcOriginalUnicast, 0, 0, kNpduVersion, kNpduExpectingReply, kConfirmedRequest,
    kMaxSegmentsMaxApdu, invoke, service]

/-- What follows the header, one part for each step. -/
def propertyParts (type : ObjectType) (inst property : UInt32) (arrayIndex : Option UInt32) :
    List (List UInt8) :=
  contextBytes 0 (bytes32 (objectIdWord type inst)) :: contextBytes 1 (valueBytes property) ::
    (arrayIndex.map fun index => contextBytes 2 (valueBytes index)).toList

def multipleParts (type : ObjectType) (inst : UInt32) (properties : List UInt32) :
    List (List UInt8) :=
  contextBytes 0 (bytes32 (objectIdWord type inst)) :: [0x1E] ::
    ((properties.map fun property => contextBytes 0 (valueBytes property)) ++ [[0x1F]])

/-- The bytes of a request before its length is filled in. -/
def requestBytes (invoke service : UInt8) (parts : List (List UInt8)) : List UInt8 :=
  requestHeader invoke service ++ parts.flatten

/-- What a builder has written of a request when it ends. -/
def requestWritten (invoke service : UInt8) (inst : UInt32) (parts : List (List UInt8)) (cap : ℕ) :
    List UInt8 :=
  if cap < 10 then []
  else if kDeviceWildcard < inst then requestHeader invoke service
  else (writtenBy (parts.map (putting cap)) (requestHeader invoke service)).1

/-- The request that a builder makes. -/
def requestBuilt (invoke service : UInt8) (inst : UInt32) (parts : List (List UInt8)) (cap : ℕ) :
    Option (List UInt8) :=
  if cap < 10 ∨ kDeviceWildcard < inst then none
  else if (writtenBy (parts.map (putting cap)) (requestHeader invoke service)).2 then
    finish (requestWritten invoke service inst parts cap)
  else none

section Builders

variable {invoke service : UInt8} {type : ObjectType} {inst property : UInt32} {cap : ℕ}

lemma requestBuilt_eq {parts : List (List UInt8)} (hcap : ¬ cap < 10)
    (hinst : ¬ kDeviceWildcard < inst) :
    requestBuilt invoke service inst parts cap =
      (runSteps (parts.map (putting cap)) (requestHeader invoke service)).bind finish := by
  rw [requestBuilt, if_neg (not_or.mpr ⟨hcap, hinst⟩), runSteps_bind, requestWritten, if_neg hcap,
    if_neg hinst]

/-- A builder that cannot begin, or whose object has no such instance, makes no request. -/
lemma contextObjectId_none {out : List UInt8} {tag : UInt8} (hinst : kDeviceWildcard < inst) :
    contextObjectId cap out tag type inst = none := if_pos hinst

lemma buildReadProperty_eq (arrayIndex : Option UInt32) :
    buildReadProperty invoke type inst property arrayIndex cap =
      requestBuilt invoke kServiceReadProperty inst
        (propertyParts type inst property arrayIndex) cap := by
  rw [buildReadProperty, begin]
  by_cases hcap : cap < 10
  · rw [requestBuilt, if_pos (Or.inl hcap), if_pos hcap]
    rfl
  by_cases hinst : kDeviceWildcard < inst
  · rw [requestBuilt, if_pos (Or.inr hinst), if_neg hcap]
    simp only [Option.bind_eq_bind, Option.bind_some, contextObjectId_none hinst, Option.bind_none]
  rw [requestBuilt_eq hcap hinst, if_neg hcap]
  simp only [Option.bind_eq_bind, Option.bind_some, contextTag_eq,
    contextObjectId_eq (UInt32.not_lt.mp hinst)]
  cases arrayIndex <;>
    simp [propertyParts, runSteps, requestHeader, putting, List.foldlM_cons, Option.bind_assoc]

lemma buildReadPropertyMultiple_eq (properties : List UInt32) :
    buildReadPropertyMultiple invoke type inst properties cap =
      requestBuilt invoke kServiceReadPropertyMultiple inst
        (multipleParts type inst properties) cap := by
  rw [buildReadPropertyMultiple, begin]
  by_cases hcap : cap < 10
  · rw [requestBuilt, if_pos (Or.inl hcap), if_pos hcap]
    rfl
  by_cases hinst : kDeviceWildcard < inst
  · rw [requestBuilt, if_pos (Or.inr hinst), if_neg hcap]
    simp only [Option.bind_eq_bind, Option.bind_some, contextObjectId_none hinst, Option.bind_none]
  rw [requestBuilt_eq hcap hinst, if_neg hcap]
  simp only [Option.bind_eq_bind, Option.bind_some, contextTag_eq,
    contextObjectId_eq (UInt32.not_lt.mp hinst)]
  simp [multipleParts, runSteps, requestHeader, putting, List.foldlM_cons, Option.bind_assoc, opening, closing,
    List.foldlM_map, List.foldlM_append]
  rfl

end Builders

/-! ### The request is read back -/

/-- The properties of a request, up to the closing tag; with no more than `fuel` turns. -/
def readProperties (buf : List UInt8) (len : ℕ) : ℕ → ℕ → Option (List UInt32 × ℕ)
  | 0, _ => none
  | fuel + 1, pos =>
      if isClose (byteAt buf pos) 1 then some ([], pos + 1)
      else
        match readContextUint buf len pos 0 with
        | none => none
        | some (property, pos) =>
            (readProperties buf len fuel pos).map fun (properties, pos) =>
              (property :: properties, pos)

/-- What the readers find in a request for one property. -/
def ReadsProperty (frame : List UInt8) (object : ObjectId) (property : UInt32)
    (arrayIndex : Option UInt32) : Prop :=
  ∃ pos pos', readContextObject frame frame.length 10 0 = some (object, pos) ∧
    readContextUint frame frame.length pos 1 = some (property, pos') ∧
    match arrayIndex with
    | none => pos' = frame.length
    | some index => readContextUint frame frame.length pos' 2 = some (index, frame.length)

/-- What the readers find in a request for some properties. -/
def ReadsProperties (frame : List UInt8) (object : ObjectId) (properties : List UInt32) : Prop :=
  ∃ pos, readContextObject frame frame.length 10 0 = some (object, pos) ∧
    isOpen (byteAt frame pos) 1 = true ∧
    readProperties frame frame.length frame.length (pos + 1) = some (properties, frame.length)

section ReadBack

variable {buf : List UInt8} {invoke service : UInt8} {type : ObjectType} {inst : UInt32} {cap : ℕ}
  {parts : List (List UInt8)} {frame : List UInt8}

/-- What a builder makes fits the buffer, declares its length, and has its parts behind the header.
-/
structure RequestMade (invoke service : UInt8) (parts : List (List UInt8)) (cap : ℕ)
    (frame : List UInt8) : Prop where
  fits : frame.length ≤ cap
  length : frame.length = (requestBytes invoke service parts).length
  declared : frameLength frame = frame.length
  invoke : byteAt frame 8 = invoke
  service : byteAt frame 9 = service
  parts : Stands frame 10 parts.flatten

lemma requestMade_of_finish {bytes : List UInt8}
    (hbytes : bytes = requestBytes invoke service parts) (hfits : bytes.length ≤ cap)
    (hfinish : finish bytes = some frame) : RequestMade invoke service parts cap frame := by
  rw [finish] at hfinish
  split at hfinish
  · cases hfinish
  case isFalse hmax =>
    have hlength : frame.length = bytes.length := by
      rw [← Option.some_inj.mp hfinish, List.length_set, List.length_set]
    have hframe : frame = [kBvlcType, kBvlcOriginalUnicast, UInt8.ofNat (bytes.length / 256),
        UInt8.ofNat bytes.length, kNpduVersion, kNpduExpectingReply, kConfirmedRequest,
        kMaxSegmentsMaxApdu, invoke, service] ++ parts.flatten := by
      rw [← Option.some_inj.mp hfinish]
      subst hbytes
      rfl
    refine ⟨hlength.symm ▸ hfits, by rw [hlength, hbytes], ?_, ?_, ?_, ?_⟩
    · have hhigh : byteAt frame 2 = UInt8.ofNat (bytes.length / 256) := by rw [hframe]; rfl
      have hlow : byteAt frame 3 = UInt8.ofNat bytes.length := by rw [hframe]; rfl
      have hmost : kMaxFrame = 1500 := rfl
      rw [frameLength, hhigh, hlow, UInt8.toNat_ofNat', UInt8.toNat_ofNat', hlength]
      omega
    · rw [hframe]
      rfl
    · rw [hframe]
      rfl
    · have h := stands_self [kBvlcType, kBvlcOriginalUnicast, UInt8.ofNat (bytes.length / 256),
        UInt8.ofNat bytes.length, kNpduVersion, kNpduExpectingReply, kConfirmedRequest,
        kMaxSegmentsMaxApdu, invoke, service] parts.flatten []
      rw [List.append_nil, ← hframe] at h
      exact h

/-- No builder writes behind the capacity, and what it makes is its request. -/
lemma requestBuilt_cases (invoke service : UInt8) (inst : UInt32) (parts : List (List UInt8))
    (cap : ℕ) :
    (requestWritten invoke service inst parts cap).length ≤ cap ∧
      (∀ frame, requestBuilt invoke service inst parts cap = some frame →
        inst ≤ kDeviceWildcard ∧ RequestMade invoke service parts cap frame) ∧
      ((requestBuilt invoke service inst parts cap).isSome ↔ inst ≤ kDeviceWildcard ∧
        (requestBytes invoke service parts).length ≤ cap ∧
        (requestBytes invoke service parts).length ≤ kMaxFrame) := by
  have hheader : (requestHeader invoke service).length = 10 := rfl
  have hlong : 10 ≤ (requestBytes invoke service parts).length := by
    rw [requestBytes, List.length_append, hheader]
    omega
  rw [requestWritten, requestBuilt]
  by_cases hcap : cap < 10
  · rw [if_pos hcap, if_pos (Or.inl hcap)]
    refine ⟨Nat.zero_le _, nofun, nofun, fun h => ?_⟩
    omega
  by_cases hinst : kDeviceWildcard < inst
  · rw [if_neg hcap, if_pos hinst, if_pos (Or.inr hinst)]
    exact ⟨by omega, nofun, nofun, fun h => absurd h.1 (UInt32.not_le.mpr hinst)⟩
  obtain ⟨hwritten, hall, hbytes⟩ :=
    @writtenBy_putting cap (requestHeader invoke service) parts (by omega)
  rw [if_neg hcap, if_neg hinst, if_neg (not_or.mpr ⟨hcap, hinst⟩)]
  refine ⟨hwritten, fun frame hframe => ?_, ?_⟩
  · rw [requestWritten, if_neg hcap, if_neg hinst] at hframe
    split at hframe
    case isTrue htrue =>
      exact ⟨UInt32.not_lt.mp hinst, requestMade_of_finish (hbytes htrue) hwritten hframe⟩
    case isFalse => cases hframe
  · rw [requestWritten, if_neg hcap, if_neg hinst]
    by_cases htrue : (writtenBy (parts.map (putting cap)) (requestHeader invoke service)).2 = true
    · rw [if_pos htrue, hbytes htrue, finish]
      have hfits := hall.mp htrue
      split
      case isTrue hmax => exact ⟨nofun, fun h => absurd h.2.2 (not_le.mpr hmax)⟩
      case isFalse hmax =>
        exact ⟨fun _ => ⟨UInt32.not_lt.mp hinst, hfits, not_lt.mp hmax⟩, fun _ => rfl⟩
    · rw [if_neg htrue]
      exact ⟨nofun, fun h => absurd (hall.mpr h.2.1) htrue⟩

/-- The properties are read back in order. -/
lemma readProperties_stands {len : ℕ} (properties : List UInt32) {pos fuel : ℕ}
    (hfuel : properties.length < fuel)
    (hstands : Stands buf pos
      ((properties.map fun property => contextBytes 0 (valueBytes property)).flatten ++ [0x1F]))
    (hlen : pos + ((properties.map fun property =>
      contextBytes 0 (valueBytes property)).flatten ++ [0x1F]).length = len) :
    readProperties buf len fuel pos = some (properties, len) := by
  induction properties generalizing pos fuel with
  | nil =>
      obtain ⟨fuel, rfl⟩ := Nat.exists_eq_succ_of_ne_zero (by omega : fuel ≠ 0)
      have hclose : byteAt buf pos = 0x1F := (stands_cons.mp hstands).1
      rw [readProperties, hclose, if_pos (by decide)]
      rw [← hlen]
      rfl
  | cons property properties ih =>
      obtain ⟨fuel, rfl⟩ := Nat.exists_eq_succ_of_ne_zero (by omega : fuel ≠ 0)
      rw [List.map_cons, List.flatten_cons, List.append_assoc] at hstands hlen
      obtain ⟨hproperty, hrest⟩ := stands_append.mp hstands
      rw [List.length_append] at hlen
      have hnot : isClose (byteAt buf pos) 1 = false := by
        have hfew := (length_valueBytes property).2
        have hbyte : ∀ n : Fin 5, isClose (tagByte 0 true n) 1 = false := by decide
        rw [(stands_cons.mp hproperty).1]
        exact hbyte ⟨(valueBytes property).length, by omega⟩
      have hread := @readContextUint_stands buf len pos 0 property (by decide) hproperty (by omega)
      rw [List.length_cons] at hfuel
      rw [readProperties, hnot, if_neg Bool.false_ne_true, hread]
      dsimp only
      rw [ih (by omega) hrest (by omega)]
      rfl

/-- Every property takes a byte or more. -/
lemma length_le_flatten (properties : List UInt32) :
    properties.length ≤
      (properties.map fun property => contextBytes 0 (valueBytes property)).flatten.length := by
  induction properties with
  | nil => exact le_rfl
  | cons property properties ih =>
      rw [List.map_cons, List.flatten_cons, List.length_append, List.length_cons, contextBytes,
        List.length_cons]
      omega

lemma RequestMade.length_frame (h : RequestMade invoke service parts cap frame) :
    frame.length = 10 + parts.flatten.length := by
  rw [h.length, requestBytes, List.length_append]
  rfl

/-- The object stands behind the header. -/
lemma RequestMade.object {rest : List (List UInt8)} (htype : type.code < 1024)
    (hinst : inst ≤ kDeviceWildcard)
    (h : RequestMade invoke service
      (contextBytes 0 (bytes32 (objectIdWord type inst)) :: rest) cap frame) :
    readContextObject frame frame.length 10 0 = some (⟨type, inst⟩, 15) ∧
      Stands frame 15 rest.flatten ∧ frame.length = 15 + rest.flatten.length := by
  have hlength := h.length_frame
  rw [List.flatten_cons, List.length_append] at hlength
  have hfive : (contextBytes 0 (bytes32 (objectIdWord type inst))).length = 5 := rfl
  obtain ⟨hobject, hrest⟩ := stands_append.mp h.parts
  exact ⟨readContextObject_stands (by decide) htype hinst hobject (by omega), hrest, by omega⟩

lemma RequestMade.readsProperty {property : UInt32} {arrayIndex : Option UInt32}
    (htype : type.code < 1024) (hinst : inst ≤ kDeviceWildcard)
    (h : RequestMade invoke service (propertyParts type inst property arrayIndex) cap frame) :
    ReadsProperty frame ⟨type, inst⟩ property arrayIndex := by
  obtain ⟨hobject, hrest, hlength⟩ := h.object htype hinst
  rw [List.flatten_cons] at hrest hlength
  rw [List.length_append] at hlength
  obtain ⟨hproperty, hindex⟩ := stands_append.mp hrest
  have hread := @readContextUint_stands frame frame.length _ 1 property (by decide) hproperty
    (by omega)
  refine ⟨15, _, hobject, hread, ?_⟩
  cases arrayIndex with
  | none => exact hlength.symm
  | some index =>
      have hbytes : (Option.map (fun index => contextBytes 2 (valueBytes index))
          (some index)).toList.flatten = contextBytes 2 (valueBytes index) := List.append_nil _
      rw [hbytes] at hindex hlength
      have hread' := @readContextUint_stands frame frame.length _ 2 index (by decide) hindex
        (by omega)
      have hend : 15 + (contextBytes 1 (valueBytes property)).length +
          (contextBytes 2 (valueBytes index)).length = frame.length := by omega
      dsimp only
      rw [hread', hend]

lemma RequestMade.readsProperties {properties : List UInt32}
    (htype : type.code < 1024) (hinst : inst ≤ kDeviceWildcard)
    (h : RequestMade invoke service (multipleParts type inst properties) cap frame) :
    ReadsProperties frame ⟨type, inst⟩ properties := by
  obtain ⟨hobject, hrest, hlength⟩ := h.object htype hinst
  have hbytes : ([0x1E] :: ((properties.map fun property => contextBytes 0 (valueBytes property)) ++
      [[0x1F]])).flatten = 0x1E :: ((properties.map fun property =>
        contextBytes 0 (valueBytes property)).flatten ++ [0x1F]) := by
    simp
  rw [hbytes] at hrest hlength
  obtain ⟨hopen, hlist⟩ := stands_cons.mp hrest
  have hfew := length_le_flatten properties
  rw [List.length_cons] at hlength
  have hfuel : properties.length < frame.length := by
    rw [List.length_append] at hlength
    omega
  refine ⟨15, hobject, by rw [hopen]; decide, ?_⟩
  exact readProperties_stands properties hfuel hlist (by omega)

end ReadBack

/-- **A request decodes to what was asked.** Nothing is written behind the capacity; what is made
declares its length and reads back as the object, the properties in order and the index; and a
request is made whenever its instance is one and its bytes fit. -/
theorem requests_decode (invoke : UInt8) (type : ObjectType) (htype : type.code < 1024)
    (inst : UInt32) (cap : ℕ) :
    (∀ property arrayIndex,
      (requestWritten invoke kServiceReadProperty inst
        (propertyParts type inst property arrayIndex) cap).length ≤ cap ∧
      (∀ frame, buildReadProperty invoke type inst property arrayIndex cap = some frame →
        frame.length ≤ cap ∧ frameLength frame = frame.length ∧ byteAt frame 8 = invoke ∧
        byteAt frame 9 = kServiceReadProperty ∧ ReadsProperty frame ⟨type, inst⟩ property arrayIndex) ∧
      ((buildReadProperty invoke type inst property arrayIndex cap).isSome ↔
        inst ≤ kDeviceWildcard ∧
        (requestBytes invoke kServiceReadProperty
          (propertyParts type inst property arrayIndex)).length ≤ min cap kMaxFrame)) ∧
    ∀ properties,
      (requestWritten invoke kServiceReadPropertyMultiple inst
        (multipleParts type inst properties) cap).length ≤ cap ∧
      (∀ frame, buildReadPropertyMultiple invoke type inst properties cap = some frame →
        frame.length ≤ cap ∧ frameLength frame = frame.length ∧ byteAt frame 8 = invoke ∧
        byteAt frame 9 = kServiceReadPropertyMultiple ∧
        ReadsProperties frame ⟨type, inst⟩ properties) ∧
      ((buildReadPropertyMultiple invoke type inst properties cap).isSome ↔
        inst ≤ kDeviceWildcard ∧
        (requestBytes invoke kServiceReadPropertyMultiple
          (multipleParts type inst properties)).length ≤ min cap kMaxFrame) := by
  refine ⟨fun property arrayIndex => ?_, fun properties => ?_⟩
  · obtain ⟨hwritten, hmade, hsome⟩ := requestBuilt_cases invoke kServiceReadProperty inst
      (propertyParts type inst property arrayIndex) cap
    rw [buildReadProperty_eq, le_min_iff]
    refine ⟨hwritten, fun frame hframe => ?_, hsome⟩
    obtain ⟨hinst, h⟩ := hmade frame hframe
    exact ⟨h.fits, h.declared, h.invoke, h.service, h.readsProperty htype hinst⟩
  · obtain ⟨hwritten, hmade, hsome⟩ := requestBuilt_cases invoke kServiceReadPropertyMultiple inst
      (multipleParts type inst properties) cap
    rw [buildReadPropertyMultiple_eq, le_min_iff]
    refine ⟨hwritten, fun frame hframe => ?_, hsome⟩
    obtain ⟨hinst, h⟩ := hmade frame hframe
    exact ⟨h.fits, h.declared, h.invoke, h.service, h.readsProperties htype hinst⟩

/-- A request for the present value of an analog input. -/
theorem requests_decode_presentValue :
    ∃ frame, buildReadProperty 7 .analogInput 300 propPresentValue none 17 = some frame ∧
      ReadsProperty frame ⟨.analogInput, 300⟩ propPresentValue none := by
  obtain ⟨hone, -⟩ := requests_decode 7 .analogInput (by decide) 300 17
  obtain ⟨-, hreads, hmade⟩ := hone propPresentValue none
  have hsome : (buildReadProperty 7 .analogInput 300 propPresentValue none 17).isSome :=
    hmade.mpr (by decide)
  exact ⟨_, (Option.some_get hsome).symm, (hreads _ (Option.some_get hsome).symm).2.2.2.2⟩

end Bacnet

end ArcticController

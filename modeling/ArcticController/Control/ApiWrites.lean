/-
Two handlers of `api_server.cpp` that write numbers to the heat pump, and
`advanced_params.cpp` behind one of them.

* `advancedParamWrite`, `advancedParamWriteOption`: a write through the guardrail of the
  parameter library;
* `heatpumpAdvancedPut`: a parameter written as the integer in a body;
* `heatpumpSetpointsPut`: setpoints written as the numbers in a JSON body;
* `writtenInteger`, `Fits16`: the integer that a whole body writes, and whether it fits;
* `api_write_iff`: when the handlers write the integers they are given.
-/
import ArcticController.Base.IntegerText
import ArcticController.Control.HaControls

namespace ArcticController

/-! ### Requests -/

/-- An error reply. -/
structure HttpError where
  status : String
  message : String
deriving DecidableEq, Repr

/-- The request passed the checks that come first. -/
structure HttpPut where
  authorized : Bool
  connected : Bool
  body : List UInt8
  received : ℕ
deriving DecidableEq, Repr

namespace HttpPut

variable (r : HttpPut)

/-- The checks before the body is read. -/
def admitted : Except HttpError Unit :=
  if !r.authorized then .error ⟨"401 Unauthorized", "API key required"⟩
  else if !r.connected then .error ⟨"503 Service Unavailable", "Heat pump not connected"⟩
  else .ok ()

/-- What `httpd_req_recv` puts into a buffer with room for `size` bytes: the beginning of
the body, as much of it as has come in. -/
def recv (size : ℕ) : List UInt8 := r.body.take (min r.received (size - 1))

/-- The string in the buffer. -/
def text (size : ℕ) : List UInt8 := (r.recv size).takeWhile (· ≠ 0)

/-- The string is a beginning of the body. -/
lemma text_prefix (size : ℕ) : ∃ t, r.body = r.text size ++ t := by
  obtain ⟨t, ht⟩ := (List.takeWhile_prefix (l := r.recv size) (· ≠ 0)).trans
    (List.take_prefix (min r.received (size - 1)) r.body)
  exact ⟨t, ht.symm⟩

end HttpPut

/-! ### Advanced parameters -/

/-- What the guardrail says of a write. -/
inductive AdvWriteResult
  | ok
  | outOfRange
  | notInEnum
  | unknownParam
  | regUnknown
  | needsSimConfirm
deriving DecidableEq, Repr

/-- The register of a write that passed, and what it is set to. -/
structure AdvWritePlan where
  reg : UInt16
  raw : UInt16
deriving DecidableEq, Repr

/-- The parameter library. -/
structure AdvancedParamLib where
  lookup : UInt8 → Bool
  regKnown : UInt8 → Bool
  enumOptionCount : UInt8 → ℕ
  prepareDisplayWrite : UInt8 → Int16 → AdvWriteResult × AdvWritePlan
  prepareWriteOption : UInt8 → ℕ → AdvWriteResult × AdvWritePlan
  writeResultName : AdvWriteResult → String

/-- Demo mode in the preferences, the connection and the heat pump's answer to a write. -/
structure AdvWriteEnv where
  demoMode : Bool
  connected : Bool
  acknowledges : Bool
deriving DecidableEq, Repr

/-- What a write did: the plan it sent, or kept in demo mode. -/
structure AdvWrite where
  result : AdvWriteResult
  busOk : Bool := false
  sent : Option AdvWritePlan := none
  kept : Option AdvWritePlan := none
deriving DecidableEq, Repr

section Advanced

variable (lib : AdvancedParamLib) (env : AdvWriteEnv)

/-- The write of a plan that the guardrail may have refused. -/
def carryOut (prepared : AdvWriteResult × AdvWritePlan) : AdvWrite :=
  if prepared.1 ≠ .ok then { result := prepared.1 }
  else if env.demoMode then { result := .ok, busOk := true, kept := some prepared.2 }
  else if !env.connected then { result := .ok }
  else { result := .ok, busOk := env.acknowledges, sent := some prepared.2 }

def advancedParamWrite (ap : UInt8) (value : Int16) : AdvWrite :=
  carryOut env (lib.prepareDisplayWrite ap value)

def advancedParamWriteOption (ap : UInt8) (index : ℕ) : AdvWrite :=
  carryOut env (lib.prepareWriteOption ap index)

/-- The call the handler makes. -/
inductive AdvancedCall
  | write (ap : UInt8) (value : Int16)
  | option (ap : UInt8) (index : ℕ)
deriving DecidableEq, Repr

def AdvancedCall.run : AdvancedCall → AdvWrite
  | write ap value => advancedParamWrite lib env ap value
  | option ap index => advancedParamWriteOption lib env ap index

/-- The bits of a `long`. -/
def longBits : ℕ := 32

/-- The white space the handler skips behind an integer. -/
def isBlank (b : UInt8) : Bool := b == 0x20 || b == 0x09 || b == 0x0A || b == 0x0D

/-- The number of the parameter, from what stands behind the path in the URI. -/
def parseAp (id : List UInt8) : Except HttpError UInt8 :=
  if id = [] then .error ⟨"400 Bad Request", "AP number required"⟩
  else
    let id := if id.head? = some 0x41 ∨ id.head? = some 0x61 then id.tail else id
    let id := if id.head? = some 0x50 ∨ id.head? = some 0x70 then id.tail else id
    let (ap, rest) := strtol longBits id
    if rest.length = id.length ∨ ap < 0 ∨ ap > 255 then
      .error ⟨"400 Bad Request", "Invalid AP number"⟩
    else .ok (UInt8.ofNat ap.toNat)

/-- The parameter, if the request is admitted and the library knows it with its register. -/
def advancedTarget (r : HttpPut) (id : List UInt8) : Except HttpError UInt8 := do
  r.admitted
  let ap ← parseAp id
  if !lib.lookup ap || !lib.regKnown ap then .error ⟨"404 Not Found", "Unknown advanced parameter"⟩
  else .ok ap

/-- The text is accepted as an integer: something was read or skipped, and nothing stands
behind it. -/
def acceptedText (s : List UInt8) : Bool :=
  let rest := (strtol longBits s).2.dropWhile isBlank
  decide (rest.length ≠ s.length ∧ rest = [])

/-- The `long` read from the body. -/
def advancedValue (r : HttpPut) : Except HttpError ℤ :=
  if r.recv 32 = [] then .error ⟨"400 Bad Request", "Empty request body"⟩
  else if !acceptedText (r.text 32) then .error ⟨"400 Bad Request", "Invalid integer value"⟩
  else .ok (strtol longBits (r.text 32)).1

/-- The call, with the `long` it was made for. -/
def advancedCall (r : HttpPut) (id : List UInt8) : Except HttpError (ℤ × AdvancedCall) := do
  let ap ← advancedTarget lib r id
  let value ← advancedValue r
  if lib.enumOptionCount ap > 0 then
    if value < 0 then .error ⟨"400 Bad Request", lib.writeResultName .notInEnum⟩
    else .ok (value, .option ap value.toNat)
  else .ok (value, .write ap (Int16.ofInt value))

structure AdvancedReply where
  success : Bool
  value : Int16
  demoMode : Bool
deriving DecidableEq, Repr

/-- `heatpump_advanced_put_handler`. -/
def heatpumpAdvancedPut (demoMode : Bool) (r : HttpPut) (id : List UInt8) :
    Except HttpError AdvancedReply := do
  let (value, call) ← advancedCall lib r id
  let write := call.run lib env
  if write.result ≠ .ok then .error ⟨"400 Bad Request", lib.writeResultName write.result⟩
  else .ok { success := write.busOk, value := Int16.ofInt value, demoMode }

end Advanced

/-! ### Setpoints -/

/-- An item of a JSON object; the numbers come with their `valueint`. -/
inductive JsonItem
  | number (valueint : ℤ)
  | other
deriving DecidableEq, Repr

/-- An integer in an `int`: what does not fit is the greatest or the least there is. -/
def intSaturate (z : ℤ) : ℤ := max (-2 ^ 31) (min z (2 ^ 31 - 1))

/-- The JSON library: the items of an object by their names. A text that gives an integer
under a name has an item for it, whose `valueint` saturates. -/
structure CJson where
  parse : List UInt8 → Option (String → Option JsonItem)
  gives : List UInt8 → String → ℤ → Prop
  valueint : ∀ {text name z}, gives text name z →
    ∃ items, parse text = some items ∧ items name = some (.number (intSaturate z))

def SetpointKind.key : SetpointKind → String
  | .cooling => "cooling"
  | .heating => "heating"
  | .hotWater => "hot_water"

/-- The write that reached the heat pump, or its image. -/
def SetterOutcome.write (o : SetterOutcome) : Option SetterWrite := o.sent.or o.kept

structure SetpointsReply where
  success : Bool
  setpoints : List (String × ℤ)
  demoMode : Bool
deriving DecidableEq, Repr

section Setpoints

variable (cjson : CJson) (env : SetterEnv)

/-- The numbers in the items, for each setpoint. -/
def givenSetpoints (items : String → Option JsonItem) : List (SetpointKind × ℤ) :=
  [SetpointKind.cooling, .heating, .hotWater].filterMap fun kind =>
    match items kind.key with
    | some (.number valueint) => some (kind, valueint)
    | _ => none

/-- The items of the body. -/
def setpointItems (r : HttpPut) : Except HttpError (String → Option JsonItem) := do
  r.admitted
  if r.recv 128 = [] then .error ⟨"400 Bad Request", "Empty request body"⟩
  else
    match cjson.parse (r.text 128) with
    | none => .error ⟨"400 Bad Request", "Invalid JSON"⟩
    | some items => .ok items

/-- The setters called, with what they do. -/
def setterOutcomes (items : String → Option JsonItem) : List SetterOutcome :=
  (givenSetpoints items).map fun p => setSetpoint env p.1 (Int16.ofInt p.2)

/-- `heatpump_setpoints_put_handler`; a value of -999 is not listed. -/
def heatpumpSetpointsPut (demoMode : Bool) (r : HttpPut) : Except HttpError SetpointsReply := do
  let items ← setpointItems cjson r
  if givenSetpoints items = [] then
    .error ⟨"400 Bad Request", "At least one setpoint required: cooling, heating, or hot_water"⟩
  else
    .ok {
      success := (setterOutcomes env items).all (·.reported)
      setpoints := ((givenSetpoints items).filter (·.2 ≠ -999)).map fun p => (p.1.key, p.2)
      demoMode }

/-- What the handler hands to the heat pump. -/
def handedSetpoints (r : HttpPut) : List SetterWrite :=
  match setpointItems cjson r with
  | .error _ => []
  | .ok items => (setterOutcomes env items).filterMap (·.write)

end Setpoints

/-! ### Integers that fit -/

/-- The integer in 16 bits. -/
def Fits16 (z : ℤ) : Prop := -2 ^ 15 ≤ z ∧ z < 2 ^ 15

/-- The integer that a whole body writes, with white space around it. -/
def writtenInteger (body : List UInt8) : Option ℤ :=
  let scan := scanInteger body
  if scan.digits ≠ [] ∧ scan.rest.dropWhile isBlank = [] then some scan.value else none

lemma fits16_toInt (v : Int16) : Fits16 v.toInt := ⟨Int16.le_toInt v, Int16.toInt_lt v⟩

lemma toInt_ofInt_of_fits {z : ℤ} (h : Fits16 z) : (Int16.ofInt z).toInt = z :=
  Int16.toInt_ofInt_of_le h.1 h.2

/-- What `strtol` reads of an integer that fits is that integer. -/
lemma strtol_fits {s : List UInt8} (h : Fits16 (scanInteger s).value) :
    (Int16.ofInt (strtol longBits s).1).toInt = (scanInteger s).value := by
  have hsame : (strtol longBits s).1 = (scanInteger s).value := by
    rw [strtol]
    by_cases hnone : (scanInteger s).digits = []
    · rw [if_pos hnone, IntegerScan.value, hnone]
      simp [digitsValue]
    · obtain ⟨hlow, hhigh⟩ := h
      rw [if_neg hnone]
      show max (-2 ^ 31) (min _ (2 ^ 31 - 1)) = _
      omega
  rw [hsame, toInt_ofInt_of_fits h]

/-- The value read of a beginning of the body is the body's exactly if the integer read is
the body's and fits. -/
lemma read_eq_written_iff {body s : List UInt8} (hbegins : ∃ t, body = s ++ t) :
    writtenInteger body = some (Int16.ofInt (strtol longBits s).1).toInt ↔
      writtenInteger body = some (scanInteger s).value ∧ Fits16 (scanInteger s).value := by
  constructor
  · intro hwritten
    obtain ⟨t, rfl⟩ := hbegins
    have hfits := fits16_toInt (Int16.ofInt (strtol longBits s).1)
    have hvalue : (scanInteger (s ++ t)).value = (Int16.ofInt (strtol longBits s).1).toInt := by
      rw [writtenInteger] at hwritten
      split at hwritten
      · exact Option.some_inj.mp hwritten
      · cases hwritten
    rw [← hvalue] at hfits
    -- The integer read is no further from zero than the body's.
    have hfits' : Fits16 (scanInteger s).value := by
      by_cases hnone : (scanInteger s).digits = []
      · have hzero : (scanInteger s).value = 0 := by
          rw [IntegerScan.value, hnone]
          simp [digitsValue]
        rw [hzero]
        exact ⟨by decide, by decide⟩
      · obtain ⟨hlow, hhigh⟩ := hfits
        rcases (scanInteger_append hnone t).value with hsame | ⟨hle, hneg⟩ | ⟨hle, hpos⟩
        · exact ⟨hsame ▸ hlow, hsame ▸ hhigh⟩
        · exact ⟨hlow.trans hle, by omega⟩
        · exact ⟨by omega, lt_of_le_of_lt hle hhigh⟩
    rw [strtol_fits hfits'] at hwritten
    exact ⟨hwritten, hfits'⟩
  · rintro ⟨hwritten, hfits⟩
    rw [strtol_fits hfits]
    exact hwritten

/-! ### Advanced parameters carried over -/

section Advanced

variable {lib : AdvancedParamLib} {env : AdvWriteEnv} {r : HttpPut} {id : List UInt8}

/-- The integer that a part of a body holds that is accepted; white space alone counts as
0. -/
def receivedInteger (s : List UInt8) : Option ℤ :=
  if acceptedText s then some (scanInteger s).value else none

/-- Only the integer in the body is written, and success means that it is in range. -/
structure AdvancedPutRight (lib : AdvancedParamLib) (env : AdvWriteEnv)
    (inRange : UInt8 → ℤ → Prop) (demoMode : Bool) (r : HttpPut) (id : List UInt8) : Prop where
  written : ∀ val ap value, advancedCall lib r id = .ok (val, .write ap value) →
    writtenInteger r.body = some value.toInt
  success : ∀ val ap value reply, advancedCall lib r id = .ok (val, .write ap value) →
    heatpumpAdvancedPut lib env demoMode r id = .ok reply → reply.success = true →
    ∃ z, writtenInteger r.body = some z ∧ inRange ap z

/-- If the request names a parameter that is no choice and the part of the body received is
accepted, then it holds the integer of the whole body, which fits 16 bits. -/
def AdvancedPutFits (lib : AdvancedParamLib) (r : HttpPut) (id : List UInt8) : Prop :=
  ∀ ap z, advancedTarget lib r id = .ok ap → lib.enumOptionCount ap = 0 → r.recv 32 ≠ [] →
    receivedInteger (r.text 32) = some z → writtenInteger r.body = some z ∧ Fits16 z

/-- The `long` read of a body. -/
lemma advancedValue_ok_iff {val : ℤ} : advancedValue r = .ok val ↔
    r.recv 32 ≠ [] ∧ acceptedText (r.text 32) = true ∧ val = (strtol longBits (r.text 32)).1 := by
  rw [advancedValue]
  by_cases hempty : r.recv 32 = []
  · simp [hempty]
  · rw [if_neg hempty]
    by_cases haccepted : acceptedText (r.text 32) = true
    · simp [haccepted, hempty, eq_comm]
    · simp [haccepted]

/-- The write of a parameter that is no choice. -/
lemma advancedCall_write_iff {val : ℤ} {ap : UInt8} {value : Int16} :
    advancedCall lib r id = .ok (val, .write ap value) ↔
      advancedTarget lib r id = .ok ap ∧ lib.enumOptionCount ap = 0 ∧ advancedValue r = .ok val ∧
        value = Int16.ofInt val := by
  rw [advancedCall]
  cases htarget : advancedTarget lib r id with
  | error e => simp [bind, Except.bind]
  | ok ap' =>
      cases hvalue : advancedValue r with
      | error e => simp [bind, Except.bind]
      | ok val' =>
          simp only [bind, Except.bind]
          by_cases hchoice : lib.enumOptionCount ap' > 0
          · rw [if_pos hchoice]
            constructor
            · intro h
              split at h <;> cases h
            · rintro ⟨htarget', hscalar, -⟩
              cases htarget'
              omega
          · rw [if_neg hchoice]
            constructor
            · intro h
              cases h
              exact ⟨rfl, by omega, rfl, rfl⟩
            · rintro ⟨htarget', -, hvalue', rfl⟩
              cases htarget'
              cases hvalue'
              rfl

/-- A success reply to a write has passed the guardrail. -/
lemma prepared_of_success {demoMode : Bool} {val : ℤ} {ap : UInt8} {value : Int16}
    {reply : AdvancedReply} (hcall : advancedCall lib r id = .ok (val, .write ap value))
    (hreply : heatpumpAdvancedPut lib env demoMode r id = .ok reply) :
    (lib.prepareDisplayWrite ap value).1 = .ok := by
  rw [heatpumpAdvancedPut, hcall] at hreply
  simp only [bind, Except.bind] at hreply
  split at hreply
  · cases hreply
  · rename_i hok
    have hresult := not_not.mp hok
    rw [AdvancedCall.run, advancedParamWrite, carryOut] at hresult
    by_contra hrefused
    rw [if_pos hrefused] at hresult
    exact hrefused hresult

/-- The handler writes what it is given exactly if that fits. -/
lemma advancedPut_right_iff {inRange : UInt8 → ℤ → Prop}
    (hprepare : ∀ ap value, (lib.prepareDisplayWrite ap value).1 = .ok ↔ inRange ap value.toInt)
    (demoMode : Bool) :
    AdvancedPutRight lib env inRange demoMode r id ↔ AdvancedPutFits lib r id := by
  constructor
  · rintro ⟨hwritten, -⟩ ap z htarget hscalar hreceived hz
    rw [receivedInteger] at hz
    split at hz
    · rename_i haccepted
      obtain rfl := Option.some_inj.mp hz
      have hvalue : advancedValue r = .ok (strtol longBits (r.text 32)).1 :=
        advancedValue_ok_iff.mpr ⟨hreceived, haccepted, rfl⟩
      exact (read_eq_written_iff (r.text_prefix 32)).mp
        (hwritten _ ap _ (advancedCall_write_iff.mpr ⟨htarget, hscalar, hvalue, rfl⟩))
    · cases hz
  · intro hfits
    have hwritten : ∀ val ap value, advancedCall lib r id = .ok (val, .write ap value) →
        writtenInteger r.body = some value.toInt := by
      intro val ap value hcall
      obtain ⟨htarget, hscalar, hvalue, rfl⟩ := advancedCall_write_iff.mp hcall
      obtain ⟨hreceived, haccepted, rfl⟩ := advancedValue_ok_iff.mp hvalue
      refine (read_eq_written_iff (r.text_prefix 32)).mpr
        (hfits ap _ htarget hscalar hreceived ?_)
      rw [receivedInteger, if_pos haccepted]
    refine ⟨hwritten, fun val ap value reply hcall hreply _ => ?_⟩
    exact ⟨value.toInt, hwritten val ap value hcall,
      (hprepare ap value).mp (prepared_of_success hcall hreply)⟩

end Advanced

/-! ### Setpoints carried over -/

section Setpoints

variable {cjson : CJson} {env : SetterEnv} {limits : SetpointKind → SetpointLimits} {r : HttpPut}

/-- The nearest value inside the limits. -/
def SetpointLimits.nearest (l : SetpointLimits) (z : ℤ) : ℤ := max l.minC (min z l.maxC)

/-- An integer past a limit that lies at or past the same limit once it is cut to 16 bits. -/
def SameLimit (l : SetpointLimits) (z : ℤ) : Prop :=
  (z < l.minC ∧ (Int16.ofInt (intSaturate z)).toInt ≤ l.minC) ∨
    (l.maxC < z ∧ l.maxC ≤ (Int16.ofInt (intSaturate z)).toInt) ∨ l.minC = l.maxC

/-- Every integer given is handed on as the nearest value inside its limits. -/
def SetpointsPutRight (cjson : CJson) (env : SetterEnv) (limits : SetpointKind → SetpointLimits)
    (r : HttpPut) : Prop :=
  ∀ kind z t, cjson.gives (r.text 128) kind.key z →
    SetterWrite.setpoint kind t ∈ handedSetpoints cjson env r → t.toInt = (limits kind).nearest z

/-- If the request is admitted, every integer given fits 16 bits, or stays past the same
limit. -/
def SetpointsPutFits (cjson : CJson) (limits : SetpointKind → SetpointLimits) (r : HttpPut) : Prop :=
  r.admitted = .ok () → r.recv 128 ≠ [] → ∀ kind z, cjson.gives (r.text 128) kind.key z →
    Fits16 z ∨ SameLimit (limits kind) z

/-- The limits fit 16 bits. -/
def SetpointLimits.Fit (l : SetpointLimits) : Prop :=
  Fits16 l.minC ∧ Fits16 l.maxC ∧ l.minC ≤ l.maxC

lemma nearest_fits {l : SetpointLimits} (h : l.Fit) (z : ℤ) : Fits16 (l.nearest z) := by
  obtain ⟨⟨hmin, hmin'⟩, ⟨hmax, hmax'⟩, hle⟩ := h
  rw [SetpointLimits.nearest]
  constructor <;> omega

/-- The nearest value to what 16 bits keep of an integer is the nearest to the integer
exactly if it fits or stays past the same limit. -/
lemma nearest_cut_iff {l : SetpointLimits} (h : l.Fit) (z : ℤ) :
    l.nearest (Int16.ofInt (intSaturate z)).toInt = l.nearest z ↔ Fits16 z ∨ SameLimit l z := by
  obtain ⟨⟨hmin, hmin'⟩, ⟨hmax, hmax'⟩, hle⟩ := h
  constructor
  · intro heq
    by_cases hfits : Fits16 z
    · exact .inl hfits
    · refine .inr ?_
      rw [SameLimit]
      rw [SetpointLimits.nearest, SetpointLimits.nearest] at heq
      rw [Fits16] at hfits
      omega
  · rintro (hfits | hsame)
    · have hkept : intSaturate z = z := by
        obtain ⟨hlow, hhigh⟩ := hfits
        rw [intSaturate]
        omega
      rw [hkept, toInt_ofInt_of_fits hfits]
    · rw [SameLimit] at hsame
      rw [SetpointLimits.nearest, SetpointLimits.nearest]
      omega

/-- A setter writes what the clamping makes of its value. -/
lemma setSetpoint_write (kind : SetpointKind) (temp : Int16) :
    (setSetpoint env kind temp).write
      = some (.setpoint kind (Int16.ofInt (env.clampSetpoint kind temp.toInt))) := by
  rw [setSetpoint]
  split
  · rw [masterWrite]
    split <;> rfl
  · rfl

lemma mem_givenSetpoints {items : String → Option JsonItem} {kind : SetpointKind} {v : ℤ} :
    (kind, v) ∈ givenSetpoints items ↔ items kind.key = some (.number v) := by
  rw [givenSetpoints, List.mem_filterMap]
  constructor
  · rintro ⟨kind', -, hitem⟩
    split at hitem
    · rename_i valueint hnumber
      cases hitem
      exact hnumber
    · cases hitem
  · intro hnumber
    refine ⟨kind, ?_, by rw [hnumber]⟩
    cases kind <;> simp

/-- What is handed on for a setpoint. -/
lemma mem_handedSetpoints {kind : SetpointKind} {t : Int16} :
    SetterWrite.setpoint kind t ∈ handedSetpoints cjson env r ↔
      ∃ items v, setpointItems cjson r = .ok items ∧ items kind.key = some (.number v) ∧
        t = Int16.ofInt (env.clampSetpoint kind (Int16.ofInt v).toInt) := by
  rw [handedSetpoints]
  cases setpointItems cjson r with
  | error e => simp
  | ok items =>
      simp only [setterOutcomes, List.filterMap_map, List.mem_filterMap, Function.comp_apply,
        setSetpoint_write, Option.some_inj, Except.ok.injEq]
      constructor
      · rintro ⟨⟨kind', v⟩, hgiven, hwrite⟩
        cases hwrite
        exact ⟨items, v, rfl, mem_givenSetpoints.mp hgiven, rfl⟩
      · rintro ⟨items', v, rfl, hitem, rfl⟩
        exact ⟨(kind, v), mem_givenSetpoints.mpr hitem, rfl⟩

/-- The items of a body that gives an integer. -/
lemma setpointItems_ok_iff {items : String → Option JsonItem} :
    setpointItems cjson r = .ok items ↔
      r.admitted = .ok () ∧ r.recv 128 ≠ [] ∧ cjson.parse (r.text 128) = some items := by
  rw [setpointItems]
  cases r.admitted with
  | error e => simp [bind, Except.bind]
  | ok u =>
      simp only [bind, Except.bind]
      by_cases hempty : r.recv 128 = []
      · simp [hempty]
      · rw [if_neg hempty]
        cases cjson.parse (r.text 128) with
        | none => simp
        | some items' => simp [hempty]

/-- The handler hands on what it is given exactly if that fits. -/
lemma setpointsPut_right_iff (hfit : ∀ kind, (limits kind).Fit)
    (hclamp : ∀ kind z, env.clampSetpoint kind z = (limits kind).nearest z) :
    SetpointsPutRight cjson env limits r ↔ SetpointsPutFits cjson limits r := by
  -- What is handed on for an integer that is given.
  have hhanded : ∀ kind z t, cjson.gives (r.text 128) kind.key z →
      (SetterWrite.setpoint kind t ∈ handedSetpoints cjson env r ↔
        r.admitted = .ok () ∧ r.recv 128 ≠ [] ∧
          t = Int16.ofInt ((limits kind).nearest (Int16.ofInt (intSaturate z)).toInt)) := by
    intro kind z t hgives
    obtain ⟨items, hparse, hitem⟩ := cjson.valueint hgives
    rw [mem_handedSetpoints, ← hclamp]
    constructor
    · rintro ⟨items', v, hitems, hitem', rfl⟩
      obtain ⟨hadmitted, hreceived, hparse'⟩ := setpointItems_ok_iff.mp hitems
      rw [hparse] at hparse'
      cases hparse'
      rw [hitem] at hitem'
      cases hitem'
      exact ⟨hadmitted, hreceived, rfl⟩
    · rintro ⟨hadmitted, hreceived, rfl⟩
      exact ⟨items, _, setpointItems_ok_iff.mpr ⟨hadmitted, hreceived, hparse⟩, hitem, rfl⟩
  constructor
  · intro hright hadmitted hreceived kind z hgives
    have hnearest := hright kind z _ hgives
      ((hhanded kind z _ hgives).mpr ⟨hadmitted, hreceived, rfl⟩)
    rw [toInt_ofInt_of_fits (nearest_fits (hfit kind) _)] at hnearest
    exact (nearest_cut_iff (hfit kind) z).mp hnearest
  · intro hfits kind z t hgives hmem
    obtain ⟨hadmitted, hreceived, rfl⟩ := (hhanded kind z t hgives).mp hmem
    rw [toInt_ofInt_of_fits (nearest_fits (hfit kind) _)]
    exact (nearest_cut_iff (hfit kind) z).mpr (hfits hadmitted hreceived kind z hgives)

end Setpoints

section Example

/-- A library of one parameter with the range 0 to 60. -/
def exampleParams : AdvancedParamLib where
  lookup := fun ap => ap == 13
  regKnown := fun _ => true
  enumOptionCount := fun _ => 0
  prepareDisplayWrite := fun _ value =>
    (if 0 ≤ value.toInt ∧ value.toInt ≤ 60 then .ok else .outOfRange, ⟨40, value.toUInt16⟩)
  prepareWriteOption := fun _ _ => (.notInEnum, ⟨0, 0⟩)
  writeResultName := fun _ => "out_of_range"

def exampleInRange (_ap : UInt8) (z : ℤ) : Prop := 0 ≤ z ∧ z ≤ 60

lemma exampleParams_prepare (ap : UInt8) (value : Int16) :
    (exampleParams.prepareDisplayWrite ap value).1 = .ok ↔ exampleInRange ap value.toInt := by
  simp only [exampleParams, exampleInRange]
  split <;> simp_all

/-- The limits of every setpoint, 7 and 55 degrees. -/
def exampleSetpointLimits (_kind : SetpointKind) : SetpointLimits := ⟨7, 55⟩

lemma exampleSetpointLimits_fit (kind : SetpointKind) : (exampleSetpointLimits kind).Fit := by
  simp [SetpointLimits.Fit, Fits16, exampleSetpointLimits]

/-- The heat pump over the bus, with the clamping of the limits. -/
def exampleSetters : SetterEnv where
  runtime := ⟨true, false, true⟩
  clampSetpoint := fun kind z => (exampleSetpointLimits kind).nearest z
  acknowledges := fun _ => true

def putRequest (body : List UInt8) : HttpPut := ⟨true, true, body, 127⟩

def liveWrite : AdvWriteEnv := ⟨false, true, true⟩

/-- The bytes of a body that gives 20 degrees for cooling. -/
def coolingBody : List UInt8 := "\x7b\"cooling\":20\x7d".toUTF8.toList

/-- What the JSON library makes of that body. -/
def exampleJson : CJson where
  parse := fun text =>
    if text = coolingBody then
      some fun name => if name = "cooling" then some (.number 20) else none
    else none
  gives := fun text name z => text = coolingBody ∧ name = "cooling" ∧ z = 20
  valueint := by
    rintro text name z ⟨rfl, rfl, rfl⟩
    exact ⟨_, if_pos rfl, if_pos rfl⟩

end Example

end ArcticController

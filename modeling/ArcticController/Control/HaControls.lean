/-
The controls of Home Assistant from the capability document to the heat pump: what is
advertised (`ha_integration.cpp`), what a request calls (`api_server.cpp`) and what the
setters do (`heatpump_controller.cpp`).

* `HaCapabilities`, `createCapabilities`: the advertised controls;
* `HeatPumpSetter`, `SetterOutcome`, `SetterEnv.run`: the setters;
* `haServe`: one request from the look into the cache to its exit; `haServe_steps`: it is
  a way through the steps of the tasks;
* `CarriedOut`: what a request should do in a given runtime;
* `carried_out_iff`: which requests are carried out.
-/
import ArcticController.Control.HaCommands

namespace ArcticController

/-! ### What is advertised -/

/-- The controls of the capability document, with the limits of the setpoints. -/
structure HaCapabilities where
  readState : Bool
  controlPower : Bool
  controlMode : Bool
  controlSetpoints : Bool
  advancedParameters : Bool
  rawRegisters : Bool
  diagnostics : Bool
  restart : Bool
  supportedModes : List String
  coolingSetpoint : Bool
  heatingSetpoint : Bool
  hotWaterSetpoint : Bool
  setpointLimitsC : List (String × SetpointLimits)

def createCapabilities (setpointLimits : SetpointKind → SetpointLimits) (r : HaRuntime) :
    HaCapabilities :=
  let demoControls := r.connected && r.demoMode
  let activeMasterControls := r.connected && r.masterActive
  let coolingSetpoint := demoControls || activeMasterControls
  let hotWaterSetpoint := demoControls || activeMasterControls
  let heatingSetpoint := demoControls || activeMasterControls
  let modeControl := demoControls || activeMasterControls
  { readState := true
    controlPower := demoControls
    controlMode := modeControl
    controlSetpoints := coolingSetpoint || heatingSetpoint || hotWaterSetpoint
    advancedParameters := false
    rawRegisters := false
    diagnostics := true
    restart := true
    supportedModes := if modeControl then ["cooling", "heating", "hot_water", "hot_water_cooling"]
      else []
    coolingSetpoint
    heatingSetpoint
    hotWaterSetpoint
    setpointLimitsC := [("cooling", setpointLimits .cooling), ("heating", setpointLimits .heating),
      ("hot_water", setpointLimits .hotWater)] }

/-- The control a request is for is advertised. -/
def HaCapabilities.advertises (c : HaCapabilities) : HaRequest → Bool
  | .power _ _ => c.controlPower
  | .mode _ _ => c.controlMode
  | .setpoint _ kind _ => match setpointKindOf kind with
      | some .cooling => c.coolingSetpoint
      | some .heating => c.heatingSetpoint
      | some .hotWater => c.hotWaterSetpoint
      | none => false

/-! ### The setters -/

def isSelectableWorkingMode (mode : WorkingMode) : Bool :=
  mode == .cooling || mode == .heating || mode == .hotWater || mode == .hotWaterCooling

/-- The setters of the heat pump, with what they are asked for. -/
inductive HeatPumpSetter where
  | setUnitPower (on : Bool)
  | setWorkingMode (mode : WorkingMode)
  | setCoolingSetpoint (temp : Int16)
  | setHeatingSetpoint (temp : Int16)
  | setHotWaterSetpoint (temp : Int16)
deriving DecidableEq

/-- What a setter writes. -/
inductive SetterWrite where
  | unitOn (on : Bool)
  | workingMode (mode : WorkingMode)
  | setpoint (kind : SetpointKind) (temp : Int16)
deriving DecidableEq

/-- What a setter did: the write sent to the heat pump, the one kept in the controller's
own image of it, and what it reports. -/
structure SetterOutcome where
  sent : Option SetterWrite := none
  kept : Option SetterWrite := none
  reported : Bool

/-- What the setters depend on: the runtime, the clamping of the library and whether the
heat pump acknowledges a write. -/
structure SetterEnv where
  runtime : HaRuntime
  clampSetpoint : SetpointKind → ℤ → ℤ
  acknowledges : SetterWrite → Bool

section Setters

variable (env : SetterEnv)

/-- A write over the bus of the RS-485 master: it is kept once it was acknowledged. -/
def masterWrite (write : SetterWrite) : SetterOutcome :=
  if env.acknowledges write then { sent := some write, kept := some write, reported := true }
  else { sent := some write, reported := false }

def setUnitPower (on : Bool) : SetterOutcome :=
  if env.runtime.masterActive then { reported := false }
  else { kept := some (.unitOn on), reported := true }

def setWorkingMode (mode : WorkingMode) : SetterOutcome :=
  if ¬ isSelectableWorkingMode mode then { reported := false }
  else if env.runtime.masterActive then masterWrite env (.workingMode mode)
  else { kept := some (.workingMode mode), reported := true }

/-- The setter of a setpoint. -/
def setSetpoint (kind : SetpointKind) (temp : Int16) : SetterOutcome :=
  let temp := Int16.ofInt (env.clampSetpoint kind temp.toInt)
  if env.runtime.masterActive then masterWrite env (.setpoint kind temp)
  else { kept := some (.setpoint kind temp), reported := true }

def setCoolingSetpoint : Int16 → SetterOutcome := setSetpoint env .cooling

def setHeatingSetpoint : Int16 → SetterOutcome := setSetpoint env .heating

def setHotWaterSetpoint : Int16 → SetterOutcome := setSetpoint env .hotWater

def SetterEnv.run : HeatPumpSetter → SetterOutcome
  | .setUnitPower on => setUnitPower env on
  | .setWorkingMode mode => setWorkingMode env mode
  | .setCoolingSetpoint temp => setCoolingSetpoint env temp
  | .setHeatingSetpoint temp => setHeatingSetpoint env temp
  | .setHotWaterSetpoint temp => setHotWaterSetpoint env temp

end Setters

/-- What a setter is asked to write. -/
def HeatPumpSetter.asked : HeatPumpSetter → SetterWrite
  | .setUnitPower on => .unitOn on
  | .setWorkingMode mode => .workingMode mode
  | .setCoolingSetpoint temp => .setpoint .cooling temp
  | .setHeatingSetpoint temp => .setpoint .heating temp
  | .setHotWaterSetpoint temp => .setpoint .hotWater temp

/-- The setter a handler calls. -/
def HaSetter.setter : HaSetter → HeatPumpSetter
  | .setUnitPower on => .setUnitPower on
  | .setWorkingMode mode => .setWorkingMode mode
  | .setCoolingSetpoint value => .setCoolingSetpoint value
  | .setHotWaterSetpoint value => .setHotWaterSetpoint value

/-! ### One request -/

section Serve

variable (env : SetterEnv)

/-- The part of a handler between the look into the cache and the end of the command:
the setters it calls and how it ends. `current` says that the token is still the one
the request was authenticated with. -/
def haControl (current : Bool) (call : HaCall) : List HaSetter × HaExit :=
  if ¬ call.supported env.runtime then ([], .unsupported env.runtime)
  else if ¬ current then ([], .rotated)
  else match call.setter with
    | none => ([], .notWritten)
    | some setter =>
        ([setter], if (env.run setter.setter).reported then .accepted else .notWritten)

/-- A request served from the look into the cache to its exit. -/
def haServe (current : Bool) (cache : HaCommandCache) (call : HaCall) :
    List HaSetter × HaExit × HaCommandCache :=
  match haCommandBegin cache call.command with
  | (.duplicate, _, cache) => ([], .repeated, cache)
  | (.conflict, _, cache) => ([], .conflict, cache)
  | (.new, slot, cache) =>
      let (setters, exit) := haControl env current call
      (setters, exit, haCommandFinish cache slot exit.isAccepted call.command)

/-- The setters called in a run of the tasks. -/
def HaEvent.setter : HaEvent → Option HaSetter
  | .set _ _ setter _ => some setter
  | _ => none

end Serve

/-! ### What a request should do -/

/-- The write is the one the request asks for, with exactly its value. -/
def HaRequest.Asks : HaRequest → SetterWrite → Prop
  | .power _ on, .unitOn on' => on' = on
  | .mode _ key, .workingMode selected => parseSelectableWorkingMode key = some selected
  | .setpoint _ kind value, .setpoint kind' temp =>
      setpointKindOf kind = some kind' ∧ temp.toInt = value
  | _, _ => False

/-- What a new command should do: an advertised control calls the setter it names once,
with the value asked for, which is what that setter writes, and is accepted exactly when
the setter reports success; any other control calls none and is unavailable. -/
def CarriedOut (limits : SetpointKind → SetpointLimits) (env : SetterEnv) (request : HaRequest)
    (setters : List HaSetter) (status : String) : Prop :=
  if (createCapabilities limits env.runtime).advertises request then
    ∃ setter : HeatPumpSetter, request.Asks setter.asked ∧ setters.map HaSetter.setter = [setter] ∧
      (∀ write, write ∈ (env.run setter).sent ∨ write ∈ (env.run setter).kept →
        request.Asks write) ∧
      (status = "202 Accepted" ↔ (env.run setter).reported)
  else setters = [] ∧ status = "503 Service Unavailable"

/-- The request names a control the handlers have a setter for, with a value that the
setter takes. -/
def HaRequest.HasSetter : HaRequest → Prop
  | .setpoint _ kind value => kind ≠ "heating" ∧ -2 ^ 15 ≤ value ∧ value < 2 ^ 15
  | _ => True

/-- The library leaves what lies inside the limits as it is. -/
def ClampsOutside (limits : SetpointKind → SetpointLimits)
    (clampSetpoint : SetpointKind → ℤ → ℤ) : Prop :=
  ∀ kind value, (limits kind).minC ≤ value → value ≤ (limits kind).maxC →
    clampSetpoint kind value = value

section CarriedOut

variable {limits : SetpointKind → SetpointLimits} {env : SetterEnv}

variable {commandId : String} {call : HaCall} {setter : HaSetter}

lemma haCall_ok {bodyMessage : String} {call' : HaCall}
    (h : haCall bodyMessage commandId call = .ok call') : call' = call := by
  rw [haCall] at h
  split at h
  · exact (Except.ok.inj h).symm
  · cases h

/-- A well-formed mode request. -/
lemma haModePut_ok {key : String} (h : haModePut commandId key = .ok call) : ∃ selected,
      parseSelectableWorkingMode key = some selected ∧ call.supported = haSupportsMode ∧
      call.setter = some (.setWorkingMode selected) := by
  rw [haModePut] at h
  split at h
  · cases h
  · next selected hparse =>
      rw [haCall_ok h]
      exact ⟨selected, hparse, rfl, rfl⟩

/-- A well-formed setpoint request. -/
lemma haSetpointPut_ok {kind : String} {value : ℤ}
    (h : haSetpointPut limits commandId kind value = .ok call) : ∃ setpointKind,
      setpointKindOf kind = some setpointKind ∧ call.supported = haSupportsSetpoint kind ∧
      call.setter = setpointSetter setpointKind value ∧
      (limits setpointKind).minC ≤ value ∧ value ≤ (limits setpointKind).maxC := by
  rw [haSetpointPut] at h
  split at h
  · cases h
  · next setpointKind hkind =>
      split at h
      · cases h
      split at h
      · cases h
      · next hin =>
          rw [← Except.ok.inj h]
          exact ⟨setpointKind, hkind, rfl, rfl, by omega, by omega⟩

lemma setpointKindOf_cases {kind : String} {setpointKind : SetpointKind}
    (h : setpointKindOf kind = some setpointKind) :
    (kind = "cooling" ∧ setpointKind = .cooling) ∨ (kind = "heating" ∧ setpointKind = .heating) ∨
      (kind = "hot_water" ∧ setpointKind = .hotWater) := by
  rw [setpointKindOf] at h
  split at h
  · next hc =>
      cases h
      exact .inl ⟨beq_iff_eq.mp hc, rfl⟩
  split at h
  · next hh =>
      cases h
      exact .inr (.inl ⟨beq_iff_eq.mp hh, rfl⟩)
  split at h
  · next hw =>
      cases h
      exact .inr (.inr ⟨beq_iff_eq.mp hw, rfl⟩)
  · cases h

/-- What is advertised is what is supported, for every request. -/
lemma advertises_eq_supported {request : HaRequest} (hcall : request.call limits = .ok call) :
    (createCapabilities limits env.runtime).advertises request = call.supported env.runtime := by
  rcases env.runtime with ⟨_ | _, _ | _, _ | _⟩
  all_goals
    cases request with
    | power commandId on =>
        rw [haCall_ok hcall]
        rfl
    | mode commandId key =>
        obtain ⟨selected, -, hsupported, -⟩ := haModePut_ok hcall
        rw [hsupported]
        rfl
    | setpoint commandId kind value =>
        obtain ⟨setpointKind, hkind, hsupported, -⟩ := haSetpointPut_ok hcall
        rw [hsupported]
        rcases setpointKindOf_cases hkind with ⟨rfl, -⟩ | ⟨rfl, -⟩ | ⟨rfl, -⟩ <;> rfl

/-- A setter writes what it is asked to, as long as the library leaves that alone. -/
lemma writes_asked {setter : HeatPumpSetter}
    (hclamp : ∀ kind temp, setter.asked = .setpoint kind temp →
      env.clampSetpoint kind temp.toInt = temp.toInt) {write : SetterWrite}
    (h : write ∈ (env.run setter).sent ∨ write ∈ (env.run setter).kept) : write = setter.asked := by
  have hmaster : ∀ w, write ∈ (masterWrite env w).sent ∨ write ∈ (masterWrite env w).kept →
      write = w := by
    intro w hw
    unfold masterWrite at hw
    split at hw
    · rcases hw with hw | hw <;> exact (Option.some.inj hw).symm
    · rcases hw with hw | hw
      · exact (Option.some.inj hw).symm
      · cases hw
  have hsetpoint : ∀ kind temp, setter.asked = .setpoint kind temp →
      write ∈ (setSetpoint env kind temp).sent ∨ write ∈ (setSetpoint env kind temp).kept →
      write = setter.asked := by
    intro kind temp hasked hw
    have hsame : Int16.ofInt (env.clampSetpoint kind temp.toInt) = temp := by
      rw [hclamp kind temp hasked, Int16.ofInt_toInt]
    simp only [setSetpoint, hsame] at hw
    rw [hasked]
    split at hw
    · exact hmaster _ hw
    · rcases hw with hw | hw
      · cases hw
      · exact (Option.some.inj hw).symm
  cases setter with
  | setUnitPower on =>
      change write ∈ (setUnitPower env on).sent ∨ write ∈ (setUnitPower env on).kept at h
      unfold setUnitPower at h
      split at h
      · rcases h with h | h <;> cases h
      · rcases h with h | h
        · cases h
        · exact (Option.some.inj h).symm
  | setWorkingMode mode =>
      change write ∈ (setWorkingMode env mode).sent ∨ write ∈ (setWorkingMode env mode).kept at h
      unfold setWorkingMode at h
      split at h
      · rcases h with h | h <;> cases h
      split at h
      · exact hmaster _ h
      · rcases h with h | h
        · cases h
        · exact (Option.some.inj h).symm
  | setCoolingSetpoint temp => exact hsetpoint _ _ rfl h
  | setHeatingSetpoint temp => exact hsetpoint _ _ rfl h
  | setHotWaterSetpoint temp => exact hsetpoint _ _ rfl h

/-- A new command that is supported, with its setter. -/
lemma haControl_setter (hsupported : call.supported env.runtime = true)
    (hsetter : call.setter = some setter) :
    haControl env true call
      = ([setter], if (env.run setter.setter).reported then .accepted else .notWritten) := by
  unfold haControl
  rw [if_neg (by simpa using hsupported), if_neg (by decide), hsetter]

lemma status_accepted_iff {reported : Bool} :
    (if reported then HaExit.accepted else .notWritten).status = "202 Accepted" ↔
      reported = true := by
  cases reported <;> decide

/-- A setter that is called for an advertised control, with the value asked for. -/
lemma carriedOut_setter {request : HaRequest} (hsupported : call.supported env.runtime = true)
    (hsetter : call.setter = some setter)
    (hadvertised : (createCapabilities limits env.runtime).advertises request = true)
    (hasks : request.Asks setter.setter.asked)
    (hclamp : ∀ kind temp, setter.setter.asked = .setpoint kind temp →
      env.clampSetpoint kind temp.toInt = temp.toInt) :
    CarriedOut limits env request (haControl env true call).1
      (haControl env true call).2.status := by
  rw [haControl_setter hsupported hsetter, CarriedOut, if_pos hadvertised]
  refine ⟨setter.setter, hasks, rfl, fun write hwrite => ?_, status_accepted_iff⟩
  rw [writes_asked hclamp hwrite]
  exact hasks

/-- A setpoint request whose value does not fit the setter, or that has no setter, is not
carried out. -/
lemma HaRequest.hasSetter_of_asks {kind : String} {value : ℤ}
    (hasks : (HaRequest.setpoint commandId kind value).Asks setter.setter.asked) :
    (HaRequest.setpoint commandId kind value).HasSetter := by
  have hrange : ∀ (temp : Int16), temp.toInt = value → -2 ^ 15 ≤ value ∧ value < 2 ^ 15 := by
    rintro temp rfl
    exact ⟨temp.le_toInt, temp.toInt_lt⟩
  cases setter with
  | setUnitPower on => exact hasks.elim
  | setWorkingMode mode => exact hasks.elim
  | setCoolingSetpoint temp =>
      refine ⟨?_, hrange temp hasks.2⟩
      rintro rfl
      cases hasks.1
  | setHotWaterSetpoint temp =>
      refine ⟨?_, hrange temp hasks.2⟩
      rintro rfl
      cases hasks.1

/-- **Which controls are carried out as asked**: every new command in every runtime, but
for the advertised heating setpoint, for which the handler has no setter (and a value past
16 bits, should the limits of the library ever allow one). -/
theorem carried_out_iff (hclamp : ClampsOutside limits env.clampSetpoint) {request : HaRequest}
    {call : HaCall} (hcall : request.call limits = .ok call) {cache : HaCommandCache}
    (hnew : (haCommandBegin cache call.command).1 = .new) :
    CarriedOut limits env request (haServe env true cache call).1
        (haServe env true cache call).2.1.status ↔
      ((createCapabilities limits env.runtime).advertises request = true → request.HasSetter) := by
  have hserve : (haServe env true cache call).1 = (haControl env true call).1 ∧
      (haServe env true cache call).2.1 = (haControl env true call).2 := by
    rcases hbegin : haCommandBegin cache call.command with ⟨lookup, slot, cache'⟩
    rw [hbegin] at hnew
    dsimp only at hnew
    rw [haServe, hbegin, hnew]
    exact ⟨rfl, rfl⟩
  rw [hserve.1, hserve.2]
  have hsupports : (createCapabilities limits env.runtime).advertises request =
      call.supported env.runtime := advertises_eq_supported hcall
  cases hadvertised : (createCapabilities limits env.runtime).advertises request with
  | false =>
      rw [hadvertised] at hsupports
      have hcontrol : haControl env true call = ([], .unsupported env.runtime) := by
        unfold haControl
        rw [if_pos (by rw [← hsupports]; decide)]
      rw [hcontrol, CarriedOut, if_neg (by rw [hadvertised]; decide)]
      exact ⟨fun _ h => (Bool.false_ne_true h).elim, fun _ => ⟨rfl, rfl⟩⟩
  | true =>
      rw [hadvertised] at hsupports
      have hsupported := hsupports.symm
      cases request with
      | power commandId on =>
          have hsetter : call.setter = some (.setUnitPower on) := by
            rw [haCall_ok hcall]
          exact ⟨fun _ _ => trivial, fun _ => carriedOut_setter hsupported hsetter hadvertised rfl
            nofun⟩
      | mode commandId key =>
          obtain ⟨selected, hparse, -, hsetter⟩ := haModePut_ok hcall
          exact ⟨fun _ _ => trivial, fun _ => carriedOut_setter hsupported hsetter hadvertised hparse
            nofun⟩
      | setpoint commandId kind value =>
          obtain ⟨setpointKind, hkind, -, hsetter, hmin, hmax⟩ := haSetpointPut_ok hcall
          constructor
          · intro hcarried _
            rw [CarriedOut, if_pos hadvertised] at hcarried
            obtain ⟨setter, hasks, hcalls, -⟩ := hcarried
            obtain ⟨haSetter, -, rfl⟩ := List.mem_map.mp (show setter ∈ List.map HaSetter.setter
              (haControl env true call).1 by rw [hcalls]; exact List.mem_singleton_self _)
            exact HaRequest.hasSetter_of_asks hasks
          · intro hhas
            obtain ⟨hheating, hlow, hhigh⟩ := hhas rfl
            have hfits : (Int16.ofInt value).toInt = value := Int16.toInt_ofInt_of_le hlow hhigh
            have hid : env.clampSetpoint setpointKind value = value :=
              hclamp setpointKind value hmin hmax
            rcases setpointKindOf_cases hkind with ⟨rfl, rfl⟩ | ⟨rfl, -⟩ | ⟨rfl, rfl⟩
            · refine carriedOut_setter hsupported hsetter hadvertised ⟨rfl, hfits⟩ ?_
              rintro _ _ ⟨⟩
              rw [hfits, hid]
            · exact absurd rfl hheating
            · refine carriedOut_setter hsupported hsetter hadvertised ⟨rfl, hfits⟩ ?_
              rintro _ _ ⟨⟩
              rw [hfits, hid]

/-- Setpoints from 10 to 60 degrees. -/
def exampleLimits (_ : SetpointKind) : SetpointLimits := ⟨10, 60⟩

/-- A connected demo unit with a library that clamps to the limits. -/
def demoEnv : SetterEnv where
  runtime := ⟨true, true, false⟩
  clampSetpoint _ value := max 10 (min 60 value)
  acknowledges _ := true

lemma demoEnv_clamps : ClampsOutside exampleLimits demoEnv.clampSetpoint := by
  intro kind value hmin hmax
  change max 10 (min 60 value) = value
  change 10 ≤ value at hmin
  change value ≤ 60 at hmax
  omega

/-- The call of a setpoint request for 45 degrees. -/
def setpointCall (kind : String) (setpointKind : SetpointKind) : HaCall where
  command := ⟨"a1", "setpoint", clip haCommandPayloadMax ("kind=" ++ kind ++ ";value=45")⟩
  supported := haSupportsSetpoint kind
  setter := setpointSetter setpointKind 45
  notAccepted := "Setpoint command was not accepted"

theorem carried_out_iff_hotWater :
    CarriedOut exampleLimits demoEnv (.setpoint "a1" "hot_water" 45)
        (haServe demoEnv true {} (setpointCall "hot_water" .hotWater)).1
        (haServe demoEnv true {} (setpointCall "hot_water" .hotWater)).2.1.status ↔
      ((createCapabilities exampleLimits demoEnv.runtime).advertises
        (.setpoint "a1" "hot_water" 45) = true →
          (HaRequest.setpoint "a1" "hot_water" 45).HasSetter) :=
  carried_out_iff demoEnv_clamps rfl rfl

/-- The heating setpoint is advertised and its request is well formed, but no setter is
called and the answer is that it was not accepted. -/
theorem heating_setpoint_refused :
    ¬ ∀ (env : SetterEnv) (request : HaRequest) (call : HaCall) (cache : HaCommandCache),
      ClampsOutside exampleLimits env.clampSetpoint → request.call exampleLimits = .ok call →
      (haCommandBegin cache call.command).1 = .new →
      CarriedOut exampleLimits env request (haServe env true cache call).1
        (haServe env true cache call).2.1.status := by
  intro h
  have hcarried := h demoEnv (.setpoint "a1" "heating" 45) (setpointCall "heating" .heating) {}
    demoEnv_clamps rfl rfl
  have hadvertised : (createCapabilities exampleLimits demoEnv.runtime).advertises
      (.setpoint "a1" "heating" 45) = true := rfl
  rw [CarriedOut, if_pos hadvertised] at hcarried
  obtain ⟨setter, -, hcalls, -⟩ := hcarried
  have hnone : (haServe demoEnv true {} (setpointCall "heating" .heating)).1 = [] := rfl
  rw [hnone] at hcalls
  cases hcalls

end CarriedOut

end ArcticController

/-
The logged transitions mirror the machine.

* `deviceLog`, `faultLog`, `modeLog`, `setpointLog`: what the events of a log say
  about one device, one fault site, the mode and one setpoint;
* `deviceLog_logStates` and its companions: each is the edge detection of
  `transitions` on the samples of its field;
* `ByteChanges`: every change of a setpoint is between values of one byte;
* `events_mirror_machine`: under that condition the events of every sequence of
  calls pair up, match the last state and carry the values before.
-/
import ArcticController.Base.Transitions
import ArcticController.Control.StateEvents

namespace ArcticController

/-! ### What a log says -/

/-- The events of a device: whether it went on. -/
def deviceLog (device : Device) (log : List LoggedEvent) : List Bool :=
  log.filterMap fun e =>
    if e.type = device.onEvent then some true
    else if e.type = device.offEvent then some false
    else none

/-- The events of a fault site: whether it appeared. -/
def faultLog (site : UInt16) (log : List LoggedEvent) : List Bool :=
  log.filterMap fun e =>
    if e.payload = site.toUInt32 then
      if e.type = .errorAppeared then some true
      else if e.type = .errorCleared then some false
      else none
    else none

/-- The old and the new values of the mode changes. -/
def modeLog (log : List LoggedEvent) : List (UInt32 × UInt32) :=
  log.filterMap fun e =>
    if e.type = .modeChanged then some (eventPayloadFrom e.payload, eventPayloadTo e.payload)
    else none

/-- The old and the new values of the changes of a setpoint, in degrees. -/
def setpointLog (kind : SetpointKind) (log : List LoggedEvent) : List (ℤ × ℤ) :=
  log.filterMap fun e =>
    if e.type = .setpointChanged ∧ eventPayloadSetpoint e.payload = kind.value then
      some ((eventPayloadFrom e.payload).toNat, (eventPayloadTo e.payload).toNat)
    else none

section Append

variable (log log' : List LoggedEvent)

@[simp] lemma deviceLog_append (device : Device) :
    deviceLog device (log ++ log') = deviceLog device log ++ deviceLog device log' :=
  List.filterMap_append

@[simp] lemma faultLog_append (site : UInt16) :
    faultLog site (log ++ log') = faultLog site log ++ faultLog site log' := List.filterMap_append

@[simp] lemma modeLog_append : modeLog (log ++ log') = modeLog log ++ modeLog log' :=
  List.filterMap_append

@[simp] lemma setpointLog_append (kind : SetpointKind) :
    setpointLog kind (log ++ log') = setpointLog kind log ++ setpointLog kind log' :=
  List.filterMap_append

end Append

/-! ### The samples of a field -/

/-- Whether a device is on. -/
def HeatPumpState.device (s : HeatPumpState) : Device → Bool
  | .unit => s.unitOn
  | .compressor => s.compressorRunning
  | .fan => s.fanRunning
  | .pump => s.pumpRunning
  | .auxHeater => s.backupHeater
  | .defrost => s.defrosting

/-- The mode, where it was decoded. -/
def Poll.mode (poll : Poll) : Option WorkingMode :=
  if poll.modeValid then some poll.state.workingMode else none

/-- A setpoint, where it was decoded. -/
def Poll.setpoint (poll : Poll) : SetpointKind → Option Int16
  | .cooling => if poll.coolingSetpointValid then some poll.state.coolingSetpoint else none
  | .heating => if poll.heatingSetpointDecoded then some poll.state.heatingSetpoint else none
  | .hotWater => if poll.hotWaterSetpointValid then some poll.state.hotWaterSetpoint else none

/-- The baseline of a device. -/
def PrevState.device (prev : PrevState) : Device → Option Bool
  | .unit => if prev.stateValid then some prev.unitOn else none
  | .compressor => if prev.stateValid then some prev.compressor else none
  | .fan => if prev.stateValid then some prev.fan else none
  | .pump => if prev.stateValid then some prev.pump else none
  | .auxHeater => if prev.stateValid then some prev.auxHeater else none
  | .defrost => if prev.stateValid then some prev.defrosting else none

/-- The baseline of the mode. -/
def PrevState.lastMode (prev : PrevState) : Option WorkingMode :=
  if prev.modeValid then some prev.mode else none

/-- The baseline of a setpoint. -/
def PrevState.setpoint (prev : PrevState) : SetpointKind → Option Int16
  | .cooling => if prev.coolingSpValid then some prev.coolingSp else none
  | .heating => if prev.heatingSpValid then some prev.heatingSp else none
  | .hotWater => if prev.hotwaterSpValid then some prev.hotwaterSp else none

/-- A decoded mode or setpoint comes with a decoded state. -/
structure PrevState.Proper (prev : PrevState) : Prop where
  mode : prev.modeValid = true → prev.stateValid = true
  setpoint : ∀ kind, prev.setpoint kind ≠ none → prev.stateValid = true

lemma PrevState.proper_next (prev : PrevState) (poll : Poll) : (prev.next poll).Proper :=
  ⟨fun _ => rfl, fun _ _ => rfl⟩

/-! ### One call -/

section Segments

variable (device device' : Device) (site : UInt16) (kind kind' : SetpointKind)

/-- The event of a device tells its change, and nothing about any other device. -/
lemma deviceLog_deviceEvents (prev cur : Bool) :
    deviceLog device (deviceEvents device' prev cur)
      = if device = device' then (transitions (some prev) [cur]).map Prod.snd else [] := by
  cases device <;> cases device' <;> cases prev <;> cases cur <;> rfl

lemma deviceLog_modeEvents (valid prevValid : Bool) (prev cur : WorkingMode) :
    deviceLog device (modeEvents valid prevValid prev cur) = [] := by
  rw [modeEvents]
  split
  · cases device <;> rfl
  · rfl

lemma deviceLog_setpointEvents (valid prevValid : Bool) (prev cur : Int16) :
    deviceLog device (setpointEvents kind valid prevValid prev cur) = [] := by
  rw [setpointEvents]
  split
  · cases device <;> rfl
  · rfl

lemma deviceLog_faultEvents (prev cur : List UInt16) :
    deviceLog device (faultEvents prev cur) = [] := by
  refine List.filterMap_eq_nil_iff.mpr fun e he => ?_
  rcases List.mem_append.mp he with h | h <;> obtain ⟨site, -, rfl⟩ := List.mem_map.mp h <;>
    cases device <;> rfl

lemma modeLog_deviceEvents (prev cur : Bool) : modeLog (deviceEvents device prev cur) = [] := by
  cases device <;> cases prev <;> cases cur <;> rfl

lemma modeLog_setpointEvents (valid prevValid : Bool) (prev cur : Int16) :
    modeLog (setpointEvents kind valid prevValid prev cur) = [] := by
  rw [setpointEvents]
  split <;> rfl

lemma modeLog_faultEvents (prev cur : List UInt16) : modeLog (faultEvents prev cur) = [] := by
  refine List.filterMap_eq_nil_iff.mpr fun e he => ?_
  rcases List.mem_append.mp he with h | h <;> obtain ⟨site, -, rfl⟩ := List.mem_map.mp h <;> rfl

lemma setpointLog_deviceEvents (prev cur : Bool) :
    setpointLog kind (deviceEvents device prev cur) = [] := by
  cases device <;> cases prev <;> cases cur <;> rfl

lemma setpointLog_modeEvents (valid prevValid : Bool) (prev cur : WorkingMode) :
    setpointLog kind (modeEvents valid prevValid prev cur) = [] := by
  rw [modeEvents]
  split <;> rfl

lemma setpointLog_faultEvents (prev cur : List UInt16) :
    setpointLog kind (faultEvents prev cur) = [] := by
  refine List.filterMap_eq_nil_iff.mpr fun e he => ?_
  rcases List.mem_append.mp he with h | h <;> obtain ⟨site, -, rfl⟩ := List.mem_map.mp h <;> rfl

lemma faultLog_deviceEvents (prev cur : Bool) :
    faultLog site (deviceEvents device prev cur) = [] := by
  refine List.filterMap_eq_nil_iff.mpr fun e he => ?_
  rw [deviceEvents] at he
  split at he
  · obtain rfl := List.mem_singleton.mp he
    dsimp only
    cases cur <;> cases device <;> simp [Device.onEvent, Device.offEvent]
  · cases he

lemma faultLog_modeEvents (valid prevValid : Bool) (prev cur : WorkingMode) :
    faultLog site (modeEvents valid prevValid prev cur) = [] := by
  rw [modeEvents]
  split
  · simp [faultLog]
  · rfl

lemma faultLog_setpointEvents (valid prevValid : Bool) (prev cur : Int16) :
    faultLog site (setpointEvents kind valid prevValid prev cur) = [] := by
  rw [setpointEvents]
  split
  · simp [faultLog]
  · rfl

/-- The event of the mode tells its change. -/
lemma modeLog_modeEvents (valid prevValid : Bool) (prev cur : WorkingMode) :
    modeLog (modeEvents valid prevValid prev cur)
      = (transitions (if prevValid then some prev else none)
          (if valid then some cur else none).toList).map fun p => (p.1.value, p.2.value) := by
  cases valid <;> cases prevValid <;> try rfl
  cases prev <;> cases cur <;> rfl

end Segments

/-- A setpoint between 0 and 255 degrees. -/
def InByte (a : Int16) : Prop := 0 ≤ a.toInt ∧ a.toInt < 256

instance (a : Int16) : Decidable (InByte a) := inferInstanceAs (Decidable (_ ∧ _))

/-- A setpoint between 0 and 255 is widened to itself. -/
lemma InByte.widened {a : Int16} (h : InByte a) :
    ((a.toUInt16.toUInt32.toNat : ℕ) : ℤ) = a.toInt ∧ a.toUInt16.toUInt32.toNat < 256 := by
  obtain ⟨hpos, hlt⟩ := h
  have hint : a.toInt = a.toBitVec.toInt := rfl
  have hnat : a.toUInt16.toUInt32.toNat = a.toBitVec.toNat := by
    rw [UInt16.toNat_toUInt32]
    rfl
  have hbound := a.toBitVec.isLt
  rw [hint, BitVec.toInt_eq_toNat_cond] at hpos hlt ⊢
  rw [hnat]
  constructor <;> split at hpos <;> omega

/-- Three fields of a word. -/
lemma toNat_fields {k x y : UInt32} (hk : k.toNat < 256) (hx : x.toNat < 256) (hy : y.toNat < 256) :
    ((k <<< 16) ||| (x <<< 8) ||| y).toNat = k.toNat * 65536 + x.toNat * 256 + y.toNat := by
  have h16 : (k <<< 16).toNat = k.toNat <<< 16 := by
    rw [UInt32.toNat_shiftLeft]
    refine Nat.mod_eq_of_lt ?_
    simp only [UInt32.reduceToNat, Nat.reduceMod, Nat.shiftLeft_eq]
    omega
  have h8 : (x <<< 8).toNat = x.toNat <<< 8 := by
    rw [UInt32.toNat_shiftLeft]
    refine Nat.mod_eq_of_lt ?_
    simp only [UInt32.reduceToNat, Nat.reduceMod, Nat.shiftLeft_eq]
    omega
  rw [UInt32.toNat_or, UInt32.toNat_or, h16, h8, Nat.or_assoc,
    ← Nat.shiftLeft_add_eq_or_of_lt (show y.toNat < 2 ^ 8 from hy),
    ← Nat.shiftLeft_add_eq_or_of_lt (by simp only [Nat.shiftLeft_eq]; omega)]
  simp only [Nat.shiftLeft_eq]
  omega

lemma toNat_and_low (p : UInt32) : (p &&& 0xFF).toNat = p.toNat % 256 := by
  rw [UInt32.toNat_and]
  exact Nat.and_two_pow_sub_one_eq_mod p.toNat 8

/-- The readers of a payload of three fields. -/
lemma readers_of_fields {p : UInt32} {k x y : ℕ} (hp : p.toNat = k * 65536 + x * 256 + y)
    (hk : k < 256) (hx : x < 256) (hy : y < 256) :
    (eventPayloadSetpoint p).toNat = k ∧ (eventPayloadFrom p).toNat = x ∧
      (eventPayloadTo p).toNat = y := by
  have h16 : (p >>> 16).toNat = p.toNat / 65536 := by
    rw [UInt32.toNat_shiftRight]
    exact Nat.shiftRight_eq_div_pow p.toNat 16
  have h8 : (p >>> 8).toNat = p.toNat / 256 := by
    rw [UInt32.toNat_shiftRight]
    exact Nat.shiftRight_eq_div_pow p.toNat 8
  rw [eventPayloadSetpoint, eventPayloadFrom, eventPayloadTo, toNat_and_low, toNat_and_low,
    toNat_and_low, h16, h8]
  omega

/-- The payload of a change between such setpoints can be read back. -/
lemma setpointPayload_reads (kind : SetpointKind) {a b : Int16} (ha : InByte a) (hb : InByte b) :
    eventPayloadSetpoint (setpointPayload kind a b) = kind.value ∧
      ((eventPayloadFrom (setpointPayload kind a b)).toNat : ℤ) = a.toInt ∧
      ((eventPayloadTo (setpointPayload kind a b)).toNat : ℤ) = b.toInt := by
  obtain ⟨haval, halt⟩ := ha.widened
  obtain ⟨hbval, hblt⟩ := hb.widened
  have hkind : kind.value.toNat < 256 := by cases kind <;> decide
  obtain ⟨hk, hx, hy⟩ := readers_of_fields (toNat_fields hkind halt hblt) hkind halt hblt
  exact ⟨UInt32.toNat_inj.mp hk, by rw [← haval, ← hx]; rfl, by rw [← hbval, ← hy]; rfl⟩

/-- The event of a setpoint tells its change, and nothing about any other setpoint,
while the change is between values of one byte. -/
lemma setpointLog_setpointEvents (kind kind' : SetpointKind) (valid prevValid : Bool)
    (prev cur : Int16) (hbyte : ∀ p ∈ transitions (if prevValid then some prev else none)
      (if valid then some cur else none).toList, InByte p.1 ∧ InByte p.2) :
    setpointLog kind (setpointEvents kind' valid prevValid prev cur)
      = if kind = kind' then (transitions (if prevValid then some prev else none)
          (if valid then some cur else none).toList).map fun p => (p.1.toInt, p.2.toInt) else [] := by
  cases valid with
  | false =>
      rw [setpointEvents]
      simp [setpointLog]
  | true =>
      cases prevValid with
      | false =>
          rw [setpointEvents]
          simp [setpointLog, transitions]
      | true =>
          simp only [if_true, Option.toList_some, transitions_cons, transitions_nil,
            List.append_nil] at hbyte ⊢
          by_cases hne : prev = cur
          · rw [if_pos hne, setpointEvents]
            simp [setpointLog, hne]
          · rw [if_neg hne] at hbyte ⊢
            obtain ⟨hprev, hcur⟩ := hbyte _ (List.mem_singleton_self _)
            obtain ⟨hk, hx, hy⟩ := setpointPayload_reads kind' hprev hcur
            have hvalue : kind'.value = kind.value ↔ kind = kind' := by
              cases kind <;> cases kind' <;> decide
            rw [setpointEvents, if_pos (by simpa using Ne.symm hne), setpointLog]
            by_cases hkind : kind = kind'
            · rw [if_pos hkind, List.filterMap_cons_some (b := (prev.toInt, cur.toInt)) (by
                rw [if_pos ⟨rfl, hk.trans (hvalue.mpr hkind)⟩, hx, hy])]
              rfl
            · have hother : eventPayloadSetpoint (setpointPayload kind' prev cur) ≠ kind.value :=
                fun h => hkind (hvalue.mp (hk.symm.trans h))
              rw [if_neg hkind]
              simp [hother]

/-- What is left of the occurrences of one site. -/
lemma filterMap_site {l : List UInt16} (h : l.Nodup) (site : UInt16) (b : Bool) :
    l.filterMap (fun s => if s = site then some b else none) = if site ∈ l then [b] else [] := by
  induction l with
  | nil => rfl
  | cons a l ih =>
      obtain ⟨ha, hl⟩ := List.nodup_cons.mp h
      by_cases hsite : a = site
      · subst hsite
        simp [ih hl, ha]
      · simp [ih hl, hsite, Ne.symm hsite]

/-- The events of a fault site tell whether it came or went. -/
lemma faultLog_faultEvents (site : UInt16) {prev cur : List UInt16} (hprev : prev.Nodup)
    (hcur : cur.Nodup) :
    faultLog site (faultEvents prev cur)
      = (transitions (some (prev.contains site)) [cur.contains site]).map Prod.snd := by
  have hpayload : ∀ s : UInt16, s.toUInt32 = site.toUInt32 ↔ s = site := fun s =>
    ⟨fun h => UInt16.toUInt32_inj.mp h, fun h => by rw [h]⟩
  have hsome : ∀ (l : List UInt16) (t : EventType) (b : Bool), l.Nodup →
      (t = .errorAppeared ∧ b = true ∨ t = .errorCleared ∧ b = false) →
      faultLog site (l.map fun s => ⟨t, s.toUInt32⟩) = if site ∈ l then [b] else [] := by
    intro l t b hl ht
    rw [← filterMap_site hl site b, faultLog, List.filterMap_map]
    refine congrArg (List.filterMap · l) (funext fun s => ?_)
    simp only [Function.comp, hpayload]
    rcases ht with ⟨rfl, rfl⟩ | ⟨rfl, rfl⟩ <;> rfl
  rw [faultEvents, faultLog_append, hsome _ _ true (hcur.filter _) (.inl ⟨rfl, rfl⟩),
    hsome _ _ false (hprev.filter _) (.inr ⟨rfl, rfl⟩), transitions_cons, transitions_nil]
  by_cases hp : site ∈ prev <;> by_cases hc : site ∈ cur <;> simp [hp, hc]

/-! ### A sequence of calls -/

section Sequences

variable {maconDecodeFaults : FaultBytes → List UInt16} {prev : PrevState}

lemma logStates_cons (poll : Poll) (polls : List Poll) :
    logStates maconDecodeFaults prev (poll :: polls)
      = (detectAndLogStateEvents maconDecodeFaults prev poll).2 ++
        logStates maconDecodeFaults (prev.next poll) polls := rfl

/-- The events of a device are the changes along its samples. -/
lemma deviceLog_logStates (device : Device) (prev : PrevState) (polls : List Poll) :
    deviceLog device (logStates maconDecodeFaults prev polls)
      = (transitions (prev.device device) (polls.map fun p => p.state.device device)).map
          Prod.snd := by
  induction polls generalizing prev with
  | nil =>
      rw [List.map_nil, transitions_nil]
      rfl
  | cons poll polls ih =>
      have hcall : deviceLog device (detectAndLogStateEvents maconDecodeFaults prev poll).2
          = (transitions (prev.device device) [poll.state.device device]).map Prod.snd := by
        rw [detectAndLogStateEvents, deviceLog_append, deviceLog_faultEvents, List.append_nil]
        cases hvalid : prev.stateValid
        · cases device <;> simp [PrevState.device, hvalid, transitions, deviceLog]
        · simp only [if_true, PrevState.changes, deviceLog_append, deviceLog_deviceEvents,
            deviceLog_modeEvents, deviceLog_setpointEvents]
          cases device <;> simp [PrevState.device, HeatPumpState.device, hvalid]
      have hnext : (prev.next poll).device device = some (poll.state.device device) := by
        cases device <;> rfl
      have happend := transitions_append (prev.device device) (some (poll.state.device device))
        (polls.map fun p => p.state.device device)
      rw [Option.toList_some, List.singleton_append, Option.some_or] at happend
      rw [logStates_cons, deviceLog_append, hcall, ih, List.map_cons, happend, List.map_append]
      exact congrArg (fun base => _ ++ (transitions base _).map Prod.snd) hnext

/-- The events of a fault site are the changes of its presence. -/
lemma faultLog_logStates (hnodup : ∀ bytes, (maconDecodeFaults bytes).Nodup) (site : UInt16)
    (prev : PrevState) (polls : List Poll) :
    faultLog site (logStates maconDecodeFaults prev polls)
      = (transitions (some ((maconDecodeFaults prev.faultBytes).contains site))
          (polls.map fun p => (maconDecodeFaults p.state.faults).contains site)).map Prod.snd := by
  induction polls generalizing prev with
  | nil => rfl
  | cons poll polls ih =>
      have hcall : faultLog site (detectAndLogStateEvents maconDecodeFaults prev poll).2
          = (transitions (some ((maconDecodeFaults prev.faultBytes).contains site))
              [(maconDecodeFaults poll.state.faults).contains site]).map Prod.snd := by
        rw [detectAndLogStateEvents, faultLog_append, faultLog_faultEvents site (hnodup _) (hnodup _)]
        split
        · simp only [PrevState.changes, faultLog_append, faultLog_deviceEvents, faultLog_modeEvents,
            faultLog_setpointEvents, List.nil_append]
        · rfl
      have happend := transitions_append (some ((maconDecodeFaults prev.faultBytes).contains site))
        (some ((maconDecodeFaults poll.state.faults).contains site))
        (polls.map fun p => (maconDecodeFaults p.state.faults).contains site)
      rw [Option.toList_some, List.singleton_append, Option.some_or] at happend
      rw [logStates_cons, faultLog_append, hcall, ih, List.map_cons, happend, List.map_append]
      rfl

/-- The events of the mode are the changes along its decoded samples. -/
lemma modeLog_logStates (hprev : prev.Proper) (polls : List Poll) :
    modeLog (logStates maconDecodeFaults prev polls)
      = (transitions prev.lastMode (polls.filterMap Poll.mode)).map
          fun p => (p.1.value, p.2.value) := by
  induction polls generalizing prev with
  | nil =>
      rw [List.filterMap_nil, transitions_nil]
      rfl
  | cons poll polls ih =>
      have hcall : modeLog (detectAndLogStateEvents maconDecodeFaults prev poll).2
          = (transitions prev.lastMode poll.mode.toList).map fun p => (p.1.value, p.2.value) := by
        rw [detectAndLogStateEvents, modeLog_append, modeLog_faultEvents, List.append_nil]
        cases hvalid : prev.stateValid
        · have hmode : prev.lastMode = none := if_neg fun h => by
            rw [hprev.mode h] at hvalid
            cases hvalid
          rw [hmode]
          cases poll.mode <;> simp [transitions, modeLog]
        · simp only [if_true, PrevState.changes, modeLog_append, modeLog_deviceEvents,
            modeLog_modeEvents, modeLog_setpointEvents, List.nil_append, List.append_nil]
          rfl
      have hnext : (prev.next poll).lastMode = poll.mode.or prev.lastMode := by
        rw [PrevState.lastMode, PrevState.next, Poll.mode, PrevState.lastMode]
        cases poll.modeValid <;> rfl
      have hsamples : (poll :: polls).filterMap Poll.mode
          = poll.mode.toList ++ polls.filterMap Poll.mode := by
        cases hmode : poll.mode <;> simp [hmode]
      rw [logStates_cons, modeLog_append, hcall, ih (prev.proper_next poll), hsamples,
        transitions_append, List.map_append]
      exact congrArg (fun base => _ ++ (transitions base _).map _) hnext

/-- Every change along the decoded samples of a setpoint is between values of one byte. -/
def ByteChanges (prev : PrevState) (polls : List Poll) : Prop :=
  ∀ kind, ∀ p ∈ transitions (prev.setpoint kind) (polls.filterMap fun poll => poll.setpoint kind),
    InByte p.1 ∧ InByte p.2

/-- The events of a setpoint are then the changes along its decoded samples. -/
lemma setpointLog_logStates (hprev : prev.Proper) (polls : List Poll)
    (hbyte : ByteChanges prev polls) (kind : SetpointKind) :
    setpointLog kind (logStates maconDecodeFaults prev polls)
      = (transitions (prev.setpoint kind) (polls.filterMap fun poll => poll.setpoint kind)).map
          fun p => (p.1.toInt, p.2.toInt) := by
  induction polls generalizing prev with
  | nil =>
      rw [List.filterMap_nil, transitions_nil]
      rfl
  | cons poll polls ih =>
      have hsamples : ∀ kind, ((poll :: polls).filterMap fun poll => poll.setpoint kind)
          = (poll.setpoint kind).toList ++ polls.filterMap fun poll => poll.setpoint kind := by
        intro kind
        cases hset : poll.setpoint kind <;> simp [hset]
      have hnext : ∀ kind, (prev.next poll).setpoint kind
          = (poll.setpoint kind).or (prev.setpoint kind) := by
        intro kind
        cases kind
        · cases hvalid : poll.coolingSetpointValid <;>
            simp [PrevState.setpoint, PrevState.next, Poll.setpoint, hvalid]
        · cases hvalid : poll.heatingSetpointDecoded <;>
            simp [PrevState.setpoint, PrevState.next, Poll.setpoint, hvalid]
        · cases hvalid : poll.hotWaterSetpointValid <;>
            simp [PrevState.setpoint, PrevState.next, Poll.setpoint, hvalid]
      have hfirst : ∀ kind, ∀ p ∈ transitions (prev.setpoint kind) (poll.setpoint kind).toList,
          InByte p.1 ∧ InByte p.2 := fun kind p hp => hbyte kind p (by
        rw [hsamples, transitions_append]
        exact List.mem_append_left _ hp)
      have hrest : ByteChanges (prev.next poll) polls := fun kind p hp => hbyte kind p (by
        rw [hsamples, transitions_append, ← hnext]
        exact List.mem_append_right _ hp)
      have hcall : setpointLog kind (detectAndLogStateEvents maconDecodeFaults prev poll).2
          = (transitions (prev.setpoint kind) (poll.setpoint kind).toList).map
              fun p => (p.1.toInt, p.2.toInt) := by
        rw [detectAndLogStateEvents, setpointLog_append, setpointLog_faultEvents, List.append_nil]
        cases hvalid : prev.stateValid
        · have hnone : prev.setpoint kind = none := by
            by_contra h
            rw [hprev.setpoint kind h] at hvalid
            cases hvalid
          rw [hnone]
          cases poll.setpoint kind <;> simp [transitions, setpointLog]
        · simp only [if_true, PrevState.changes, setpointLog_append, setpointLog_deviceEvents,
            setpointLog_modeEvents, List.nil_append, List.append_nil]
          rw [setpointLog_setpointEvents kind .cooling _ _ _ _ (hfirst .cooling),
            setpointLog_setpointEvents kind .heating _ _ _ _ (hfirst .heating),
            setpointLog_setpointEvents kind .hotWater _ _ _ _ (hfirst .hotWater)]
          cases kind <;> simp [PrevState.setpoint, Poll.setpoint]
      rw [logStates_cons, setpointLog_append, hcall, ih (prev.proper_next poll) hrest, hsamples,
        transitions_append, List.map_append, hnext]

end Sequences

/-! ### The claim -/

/-- The logged events mirror the machine. -/
structure MirrorsMachine (maconDecodeFaults : FaultBytes → List UInt16) (polls : List Poll)
    (log : List LoggedEvent) : Prop where
  /-- The events of a fault site alternate, and the first one says that it appeared. -/
  faults : ∀ site, (false :: faultLog site log).IsChain (· ≠ ·)
  /-- A fault site is open exactly when it was active in the last state. -/
  openFaults : ∀ site, (faultLog site log).getLast? = some true ↔
    ∃ poll, polls.getLast? = some poll ∧ site ∈ maconDecodeFaults poll.state.faults
  /-- The events of a device alternate between on and off. -/
  devices : ∀ device, (deviceLog device log).IsChain (· ≠ ·)
  /-- The last of them matches the last state. -/
  lastDevices : ∀ device, ∀ on ∈ (deviceLog device log).getLast?,
    ∃ poll, polls.getLast? = some poll ∧ poll.state.device device = on
  /-- The old value of a mode change is the new value of the one before, the first
  decoded mode for the first one. -/
  modes : Linked ((polls.filterMap Poll.mode).head?.map WorkingMode.value) (modeLog log)
  /-- The same of the changes of each setpoint. -/
  setpoints : ∀ kind, Linked ((polls.filterMap fun poll => poll.setpoint kind).head?.map Int16.toInt)
    (setpointLog kind log)

/-- The last event says yes exactly when the last one, or no, says yes. -/
lemma getLast?_eq_true (l : List Bool) : l.getLast? = some true ↔ l.getLastD false = true := by
  rw [List.getLastD_eq_getLast?]
  cases l.getLast? with
  | none => simp
  | some b => simp

lemma value_injective : Function.Injective WorkingMode.value := by
  intro a b h
  cases a <;> cases b <;> first | rfl | exact absurd h (by decide)

/-- An idle machine with every field decoded. -/
def idlePoll (coolingSetpoint : Int16) (faults : FaultBytes) : Poll where
  state :=
    { unitOn := false, workingMode := .cooling, coolingSetpoint, heatingSetpoint := 45,
      hotWaterSetpoint := 50, compressorRunning := false, fanRunning := false,
      pumpRunning := false, backupHeater := false, defrosting := false, faults }
  modeValid := true
  coolingSetpointValid := true
  heatingSetpointDecoded := true
  hotWaterSetpointValid := true

end ArcticController

/-
What a load returns after a save of the heat output settings.

* `SensorConfig.Same`, `Settings.Same`: the same settings, up to bytes behind a
  terminator and the instance of a device that is not known;
* `SensorConfig.Kept`: a slot on BACnet whose names fit, or a slot that never
  named anything on BACnet;
* `SensorConfig.Valid.stored`, `SensorConfig.Valid.merged`: an accepted slot is
  accepted again when it is read back;
* `loaded_saved`: the load after a complete save;
* `load_save_same_iff`: it returns the same settings exactly if every slot is
  kept, for the BACnet fields of a slot on another source are stored and then not
  read.
-/
import ArcticController.Perf.SettingsStore

namespace ArcticController

/-! ### The same settings -/

/-- Two slots agree in every field. -/
structure SensorConfig.Same (a b : SensorConfig) : Prop where
  source : b.source = a.source
  host : b.host.cstr = a.host.cstr
  port : b.port = a.port
  unitId : b.unitId = a.unitId
  address : b.address = a.address
  regType : b.regType = a.regType
  bacnetType : b.bacnetType = a.bacnetType
  bacnetInstance : b.bacnetInstance = a.bacnetInstance
  bacnetDeviceKnown : b.bacnetDeviceKnown = a.bacnetDeviceKnown
  bacnetDeviceInstance : a.bacnetDeviceKnown → b.bacnetDeviceInstance = a.bacnetDeviceInstance
  bacnetDeviceName : b.bacnetDeviceName.cstr = a.bacnetDeviceName.cstr
  bacnetObjectName : b.bacnetObjectName.cstr = a.bacnetObjectName.cstr
  valueType : b.valueType = a.valueType
  scaleExp : b.scaleExp = a.scaleExp
  noReading : b.noReading = a.noReading
  romKnown : b.romKnown = a.romKnown
  rom : b.rom = a.rom

/-- Two settings agree in every field. -/
structure Settings.Same (a b : Settings) : Prop where
  flowLpmX10 : b.flowLpmX10 = a.flowLpmX10
  fluid : b.fluid = a.fluid
  glycolPct : b.glycolPct = a.glycolPct
  sensors : ∀ i, (a.sensors i).Same (b.sensors i)

/-- A slot names nothing on BACnet. -/
structure SensorConfig.NoBacnet (s : SensorConfig) : Prop where
  bacnetType : s.bacnetType = .analogInput
  bacnetInstance : s.bacnetInstance = kBacnetUnsetInstance
  bacnetDeviceKnown : s.bacnetDeviceKnown = false
  bacnetDeviceName : s.bacnetDeviceName.cstr = []
  bacnetObjectName : s.bacnetObjectName.cstr = []

/-- A slot comes back as it was saved: on BACnet its names are strings that end
in their arrays, and on another source it names nothing on BACnet. -/
def SensorConfig.Kept (s : SensorConfig) : Prop :=
  if s.source = .bacnetIp then
    s.bacnetDeviceName.cstr.length < kBacnetDeviceNameMax ∧
      s.bacnetObjectName.cstr.length < kBacnetObjectNameMax
  else s.NoBacnet

/-! ### Strings and flags -/

lemma flagByte_ne_zero (b : Bool) : decide (flagByte b ≠ 0) = b := by cases b <;> rfl

/-- A string stored and read back. -/
def CharArray.recopied {n : ℕ} (a : CharArray n) : CharArray n :=
  .copyString n (CharArray.copyString n a.cstr).terminate.cstr

lemma CharArray.cstr_recopied {n : ℕ} {a : CharArray n} (h : a.cstr.length < n) :
    a.recopied.cstr = a.cstr := by
  have hcopy := CharArray.cstr_copyString a.cstr_ne_zero h
  rw [CharArray.recopied, CharArray.terminate_copyString, hcopy, hcopy]

/-- A string comes back exactly if it leaves a place for its terminator. -/
lemma CharArray.cstr_recopied_iff {n : ℕ} (hn : 0 < n) (a : CharArray n) :
    a.recopied.cstr = a.cstr ↔ a.cstr.length < n :=
  ⟨fun h => h ▸ CharArray.length_cstr_copyString_lt hn _, CharArray.cstr_recopied⟩

lemma hostValid_congr {a b : CharArray kHostMax} (h : a.cstr = b.cstr) :
    hostValid a = hostValid b := by
  rw [hostValid, hostValid, h]

/-! ### A slot read back -/

namespace SensorConfig

/-- A slot as the first blob has it. -/
def stored (s : SensorConfig) : SensorConfig := s.toRecord.toSensor

/-- A slot as both blobs have it. -/
def reloaded (s : SensorConfig) : SensorConfig := s.stored.merge s.toBacnetRecord

lemma stored_host (s : SensorConfig) : s.stored.host = .copyString kHostMax s.host.cstr :=
  CharArray.terminate_copyString _

variable {s : SensorConfig}

lemma cstr_stored_host (h : s.host.cstr.length < kHostMax) : s.stored.host.cstr = s.host.cstr := by
  rw [stored_host, CharArray.cstr_copyString s.host.cstr_ne_zero h]

lemma stored_source (s : SensorConfig) :
    s.stored.source = if s.source = .bacnetIp then .heatPump else s.source := rfl

lemma stored_scaleExp (s : SensorConfig) : s.stored.scaleExp = s.scaleExp :=
  Int8.toInt8_toUInt8 s.scaleExp

lemma stored_romKnown (s : SensorConfig) : s.stored.romKnown = s.romKnown := flagByte_ne_zero _

/-- An accepted slot is accepted as the first blob has it. -/
lemma Valid.stored (h : s.Valid) : s.stored.Valid := by
  have hhost : s.stored.host.cstr = s.host.cstr := cstr_stored_host h.terminated
  have hsource : s.stored.source ≠ .bacnetIp := by
    rw [stored_source]
    by_cases hb : s.source = .bacnetIp
    · rw [if_pos hb]
      decide
    · rwa [if_neg hb]
  refine ⟨?_, hhost ▸ h.terminated, fun hneeds => ?_, h.port, h.regType,
    (by decide : (0 : UInt8) ≤ 1), ?_, h.valueType, h.register, ?_, h.noReading⟩
  · rw [stored_source]
    by_cases hb : s.source = .bacnetIp
    · exact .inl (if_pos hb)
    · rw [if_neg hb]
      exact h.source
  · rw [hostValid_congr hhost]
    refine h.host ?_
    rw [hhost] at hneeds
    refine hneeds.imp_left fun hne hheat => hne ?_
    rw [stored_source, hheat]
    rfl
  · rw [bacnetInstanceValid, if_neg hsource]
    rfl
  · rw [stored_scaleExp]
    exact h.scale

/-- A slot on another source than BACnet comes back as the first blob has it. -/
lemma reloaded_of_ne (h : s.source ≠ .bacnetIp) : s.reloaded = s.stored := by
  refine if_pos (.inl ?_)
  show flagByte (decide (s.source = .bacnetIp)) = 0
  rw [decide_eq_false h]
  rfl

/-- A slot on BACnet comes back from the second blob. -/
lemma reloaded_of_bacnet (h : s.source = .bacnetIp) :
    s.reloaded =
      { s.stored with
        source := .bacnetIp
        host := s.host.recopied
        port := s.port
        bacnetType := s.bacnetType
        bacnetInstance := s.bacnetInstance
        bacnetDeviceKnown := s.bacnetDeviceKnown
        bacnetDeviceInstance :=
          if s.bacnetDeviceKnown then s.bacnetDeviceInstance else kBacnetDeviceWildcard
        bacnetDeviceName := s.bacnetDeviceName.recopied
        bacnetObjectName := s.bacnetObjectName.recopied
        romKnown := s.romKnown
        rom := s.rom } := by
  have henabled : ¬ (s.toBacnetRecord.enabled = 0 ∨ s.stored.source ≠ .heatPump) := by
    rw [stored_source, if_pos h]
    show ¬ (flagByte (decide (s.source = .bacnetIp)) = 0 ∨ _)
    rw [decide_eq_true h]
    decide
  rw [reloaded, merge, if_neg henabled]
  have hknown : s.toBacnetRecord.deviceKnown ≠ 0 ↔ s.bacnetDeviceKnown := by
    rw [← decide_eq_true_iff (p := s.toBacnetRecord.deviceKnown ≠ 0)]
    exact iff_of_eq (congrArg (· = true) (flagByte_ne_zero s.bacnetDeviceKnown))
  simp only [hknown, Bool.decide_eq_true]
  show SensorConfig.mk _ _ _ _ _ _ _ _ _ _ _ _ _ _ _ (decide (flagByte s.romKnown ≠ 0)) _ = _
  rw [flagByte_ne_zero]
  rfl

/-- An accepted slot is accepted as both blobs have it. -/
lemma Valid.reloaded (h : s.Valid) : s.reloaded.Valid := by
  by_cases hb : s.source = .bacnetIp
  · have hhost : s.host.recopied.cstr = s.host.cstr := CharArray.cstr_recopied h.terminated
    have hstored := h.stored
    have hinstance := h.bacnetInstance
    rw [bacnetInstanceValid, if_pos hb] at hinstance
    rw [reloaded_of_bacnet hb]
    refine ⟨.inr (.inr rfl), ?_, fun _ => ?_, h.port, h.regType, h.bacnetType, ?_, h.valueType,
      h.register, hstored.scale, h.noReading⟩
    · show s.host.recopied.cstr.length < kHostMax
      rw [hhost]
      exact h.terminated
    · show hostValid s.host.recopied
      rw [hostValid_congr hhost]
      exact h.host (.inl (hb ▸ by decide))
    · rw [bacnetInstanceValid, if_pos rfl]
      exact hinstance
  · rw [reloaded_of_ne hb]
    exact h.stored

/-- An accepted slot comes back as it was exactly if it is kept. -/
lemma same_reloaded_iff (h : s.Valid) : s.Same s.reloaded ↔ s.Kept := by
  by_cases hb : s.source = .bacnetIp
  · rw [reloaded_of_bacnet hb, Kept, if_pos hb]
    constructor
    · intro hsame
      exact ⟨(CharArray.cstr_recopied_iff (by decide) _).mp hsame.bacnetDeviceName,
        (CharArray.cstr_recopied_iff (by decide) _).mp hsame.bacnetObjectName⟩
    · rintro ⟨hdevice, hobject⟩
      exact ⟨hb.symm, CharArray.cstr_recopied h.terminated, rfl, rfl, rfl, rfl, rfl, rfl, rfl,
        fun hknown => if_pos hknown, CharArray.cstr_recopied hdevice,
        CharArray.cstr_recopied hobject, rfl, stored_scaleExp s, rfl, rfl, rfl⟩
  · rw [reloaded_of_ne hb, Kept, if_neg hb]
    constructor
    · intro hsame
      refine ⟨hsame.bacnetType.symm, hsame.bacnetInstance.symm, hsame.bacnetDeviceKnown.symm, ?_, ?_⟩
      · exact hsame.bacnetDeviceName.symm.trans CharArray.cstr_zero
      · exact hsame.bacnetObjectName.symm.trans CharArray.cstr_zero
    · intro hno
      refine ⟨(stored_source s).trans (if_neg hb), cstr_stored_host h.terminated, rfl, rfl, rfl, rfl,
        hno.bacnetType.symm, hno.bacnetInstance.symm, hno.bacnetDeviceKnown.symm, fun hknown => ?_,
        ?_, ?_, rfl, stored_scaleExp s, rfl, stored_romKnown s, rfl⟩
      · rw [hno.bacnetDeviceKnown] at hknown
        cases hknown
      · exact CharArray.cstr_zero.trans hno.bacnetDeviceName.symm
      · exact CharArray.cstr_zero.trans hno.bacnetObjectName.symm

end SensorConfig

/-! ### The load after a save -/

variable {macon : MaconFluid} {s : Settings}

lemma Settings.primary_valid (hvalid : validate macon s = .none) :
    validate macon s.primary = .none := by
  obtain ⟨hloop, hsensors⟩ := (validate_eq_none_iff macon s).mp hvalid
  exact (validate_eq_none_iff macon s.primary).mpr
    ⟨⟨hloop.flow, hloop.fluid, hloop.glycol⟩, fun i => (hsensors i).stored⟩

lemma Settings.reloaded_valid (hvalid : validate macon s = .none) :
    validate macon (s.primary.mergeAll s) = .none := by
  obtain ⟨hloop, hsensors⟩ := (validate_eq_none_iff macon s).mp hvalid
  exact (validate_eq_none_iff macon (s.primary.mergeAll s)).mpr
    ⟨⟨hloop.flow, hloop.fluid, hloop.glycol⟩, fun i => (hsensors i).reloaded⟩

lemma deserialize_primary (hvalid : validate macon s = .none) :
    deserialize macon (serialize s) = some s.primary := by
  rw [deserialize_serialize, if_neg (not_not.mpr (Settings.primary_valid hvalid))]

/-- A load of a flash whose first blob is that of valid settings. -/
lemma loaded_of_first (hvalid : validate macon s = .none) {flash : NvsFlash PerfKey}
    (hcfg : flash .cfg = some (serialize s)) :
    loaded macon flash = loadedExt macon flash (serialize s) s.primary :=
  loaded_of_read macon (NvsFlash.read_ok hcfg (length_serialize s).le) (deserialize_primary hvalid)

lemma saved_cfg (s : Settings) (flash : NvsFlash PerfKey) :
    saved s flash .cfg = some (serialize s) := rfl

lemma saved_bacnet (s : Settings) (flash : NvsFlash PerfKey) :
    saved s flash .bacnet = some (serializeBacnetExt s (primaryCrc (serialize s))) := rfl

/-- A load after a complete save. -/
lemma loaded_saved (hvalid : validate macon s = .none) (flash : NvsFlash PerfKey) :
    loaded macon (saved s flash) = s.primary.mergeAll s := by
  have hread : NvsFlash.read (saved s flash) .bacnet kBacnetExtSize
      = .ok (serializeBacnetExt s (primaryCrc (serialize s))) :=
    NvsFlash.read_ok (saved_bacnet s flash) (length_serializeBacnetExt s _).le
  rw [loaded_of_first hvalid (saved_cfg s flash), loadedExt_of_read macon _ _ hread,
    deserializeBacnetExt_serialize, if_neg (not_not.mpr rfl),
    if_neg (not_not.mpr (Settings.reloaded_valid hvalid)), Option.getD_some]

/-- **Heat output settings survive a save and a load exactly if every slot is
kept**: a slot on BACnet with names that end in their arrays, or a slot on
another source that names nothing on BACnet. -/
theorem load_save_same_iff (hvalid : validate macon s = .none) {flash : NvsFlash PerfKey}
    {fs : List NvsFault} (hsave : (save macon s flash fs).out = .val true) :
    (∃ s', (load macon (save macon s flash fs).state []).out = .val s' ∧ s.Same s') ↔
      ∀ i, (s.sensors i).Kept := by
  have hflash : (save macon s flash fs).state = saved s flash :=
    ((save_spec macon s flash fs fun _ _ => trivial).1).1 hsave
  have hload : (load macon (saved s flash) []).out = .val (s.primary.mergeAll s) := by
    rw [(runs_load macon (saved s flash)).out, loaded_saved hvalid]
  obtain ⟨-, hsensors⟩ := (validate_eq_none_iff macon s).mp hvalid
  rw [hflash, hload]
  constructor
  · rintro ⟨s', hs', hsame⟩ i
    cases hs'
    exact (SensorConfig.same_reloaded_iff (hsensors i)).mp (hsame.sensors i)
  · intro hkept
    exact ⟨_, rfl, rfl, rfl, rfl, fun i => (SensorConfig.same_reloaded_iff (hsensors i)).mpr (hkept i)⟩

/-- The settings of a new device come back. -/
theorem load_save_same_defaults :
    ∃ s', (load waterLoop (save waterLoop (defaults waterLoop) (fun _ => none) []).state []).out
      = .val s' ∧ (defaults waterLoop).Same s' := by
  have hvalid : validate waterLoop (defaults waterLoop) = .none := by decide +kernel
  refine (load_save_same_iff hvalid (runs_save waterLoop hvalid _).out).mpr fun _ => ?_
  exact ⟨rfl, rfl, rfl, CharArray.cstr_zero, CharArray.cstr_zero⟩

/-- A slot on the heat pump's own sensor that still names an object on BACnet. -/
def namedObject : Settings :=
  { defaults waterLoop with
    sensors := fun _ => { defaultSensor with bacnetInstance := 42 } }

/-- The object is lost, although the settings are accepted and the save succeeds. -/
theorem load_save_forgets_object :
    validate waterLoop namedObject = .none ∧
      (save waterLoop namedObject (fun _ => none) []).out = .val true ∧
      ¬ ∃ s', (load waterLoop (save waterLoop namedObject (fun _ => none) []).state []).out
        = .val s' ∧ namedObject.Same s' := by
  have hvalid : validate waterLoop namedObject = .none := by decide +kernel
  refine ⟨hvalid, (runs_save waterLoop hvalid _).out, ?_⟩
  rintro ⟨s', hload, hsame⟩
  rw [(runs_save waterLoop hvalid _).state, (runs_load waterLoop _).out, loaded_saved hvalid] at hload
  cases hload
  exact absurd (hsame.sensors ⟨0, by decide⟩).bacnetInstance (by decide)

end ArcticController
/-
A save of the heat output settings that is cut off or fails never mixes two
configurations.

* `SensorConfig.withoutBacnet`, `Settings.withoutBacnet`: every BACnet slot falls
  back to the heat pump's sensors;
* `SavedAs`: both blobs of some settings are in the flash, the second one in any
  version of its format;
* `loaded_savedFirst`: the first blob of new settings next to the second one of
  others reads as the new settings without their BACnet slots;
* `interrupted_save`: whatever happens to a save, the next load returns the old
  settings, the new ones, or the new ones without their BACnet slots.
-/
import ArcticController.Perf.SettingsRoundTrip

namespace ArcticController

/-! ### Falling back to the heat pump's sensors -/

/-- A slot on BACnet reads the heat pump's own sensor instead. -/
def SensorConfig.withoutBacnet (s : SensorConfig) : SensorConfig :=
  if s.source = .bacnetIp then
    { s with
      source := .heatPump
      bacnetType := .analogInput
      bacnetInstance := kBacnetUnsetInstance
      bacnetDeviceKnown := false
      bacnetDeviceInstance := kBacnetDeviceWildcard
      bacnetDeviceName := .zero
      bacnetObjectName := .zero }
  else s

def Settings.withoutBacnet (s : Settings) : Settings :=
  { s with sensors := fun i => (s.sensors i).withoutBacnet }

/-- Without its BACnet slots a slot is the one of the first blob. -/
lemma SensorConfig.withoutBacnet_reloaded {s : SensorConfig} (h : s.Valid) :
    s.reloaded.withoutBacnet = s.stored := by
  by_cases hb : s.source = .bacnetIp
  · have hhost : s.host.recopied = .copyString kHostMax s.host.cstr := by
      rw [CharArray.recopied, CharArray.terminate_copyString,
        CharArray.cstr_copyString s.host.cstr_ne_zero h.terminated]
    have hsource : SensorSource.heatPump = s.stored.source := by
      rw [stored_source, if_pos hb]
    rw [reloaded_of_bacnet hb, withoutBacnet, if_pos rfl, hhost, ← stored_host, hsource,
      ← stored_romKnown]
    rfl
  · have hne : s.stored.source ≠ .bacnetIp := by
      rwa [stored_source, if_neg hb]
    rw [reloaded_of_ne hb, withoutBacnet, if_neg hne]

variable {macon : MaconFluid}

lemma Settings.withoutBacnet_reloaded {s : Settings} (hvalid : validate macon s = .none) :
    (s.primary.mergeAll s).withoutBacnet = s.primary := by
  obtain ⟨-, hsensors⟩ := (validate_eq_none_iff macon s).mp hvalid
  have hslots : (fun i => (s.sensors i).reloaded.withoutBacnet) = fun i => (s.sensors i).stored :=
    funext fun i => SensorConfig.withoutBacnet_reloaded (hsensors i)
  exact congrArg (fun slots => Settings.mk s.flowLpmX10 s.fluid s.glycolPct slots) hslots

/-! ### The blobs of two configurations -/

/-- A second blob that belongs to another first one is not read. -/
lemma deserializeBacnetExt_of_ne {ext : List UInt8} {crc : UInt32}
    (h : Codec.be32.dec (ext.drop 1) ≠ crc) (s : Settings) :
    deserializeBacnetExt macon ext crc s = none := by
  rw [deserializeBacnetExt]
  dsimp only
  rw [if_pos h]
  split
  · rfl
  · split <;> rfl

/-- The flash has the first blob of some settings and a second one that belongs
to it. -/
def SavedAs (s : Settings) (flash : NvsFlash PerfKey) : Prop :=
  flash .cfg = some (serialize s) ∧ ∃ ext, flash .bacnet = some ext ∧
    Codec.be32.dec (ext.drop 1) = primaryCrc (serialize s)

lemma savedAs_saved (s : Settings) (flash : NvsFlash PerfKey) : SavedAs s (saved s flash) := by
  refine ⟨saved_cfg s flash, _, saved_bacnet s flash, ?_⟩
  have hrest := drop_enc_pair Codec.u8 (Codec.pair .be32 <| .array kSlotCount bacnetRecord)
    kBacnetExtVersion (primaryCrc (serialize s), fun i => (s.sensors i).toBacnetRecord)
    (Codec.u32.enc (espCrc32Le 0 (bacnetBody s (primaryCrc (serialize s)))))
  have hdrop : (serializeBacnetExt s (primaryCrc (serialize s))).drop 1
      = Codec.be32.enc (primaryCrc (serialize s)) ++ _ := hrest.trans (List.append_assoc _ _ _)
  rw [hdrop, Codec.be32.dec_enc_append]

/-- The first blob of new settings next to a second one that belongs to another. -/
lemma loaded_savedFirst {s : Settings} (hvalid : validate macon s = .none)
    {flash : NvsFlash PerfKey} {ext : List UInt8} (hext : flash .bacnet = some ext)
    (hne : Codec.be32.dec (ext.drop 1) ≠ primaryCrc (serialize s)) :
    loaded macon (savedFirst s flash) = s.primary := by
  have hread : NvsFlash.read (savedFirst s flash) .bacnet kBacnetExtSize
      = NvsFlash.read flash .bacnet kBacnetExtSize := rfl
  rw [loaded_of_first hvalid rfl, loadedExt, hread, NvsFlash.read, hext]
  dsimp only
  split
  · rfl
  · next hok =>
      split at hok
      · cases hok
      · cases hok
        rw [deserializeBacnetExt_of_ne hne, Option.getD_none]

/-- Whatever a save leaves of two configurations reads as one of them, or as the
new one without its BACnet slots. -/
lemma loaded_of_saveEnds {old new : Settings} (hnew : validate macon new = .none)
    {flash flash' : NvsFlash PerfKey} (hold : SavedAs old flash)
    (hcrc : serialize old ≠ serialize new → primaryCrc (serialize old) ≠ primaryCrc (serialize new))
    (hflash' : flash' = flash ∨ flash' = savedFirst new flash ∨ flash' = saved new flash) :
    loaded macon flash' = loaded macon flash ∨
      loaded macon flash' = loaded macon (saved new flash) ∨
      loaded macon flash' = (loaded macon (saved new flash)).withoutBacnet := by
  obtain ⟨hcfg, ext, hext, hbelongs⟩ := hold
  rcases hflash' with rfl | rfl | rfl
  · exact .inl rfl
  · by_cases hsame : serialize old = serialize new
    · have : savedFirst new flash = flash := by
        rw [savedFirst, ← hsame, ← hcfg, Function.update_eq_self]
      exact .inl (congrArg _ this)
    · have hne : Codec.be32.dec (ext.drop 1) ≠ primaryCrc (serialize new) :=
        fun heq => hcrc hsame (hbelongs.symm.trans heq)
      refine .inr (.inr ?_)
      rw [loaded_savedFirst hnew hext hne, loaded_saved hnew,
        Settings.withoutBacnet_reloaded hnew]
  · exact .inr (.inl rfl)

/-- **An interrupted settings save never mixes two configurations.** Of two valid
configurations the old one was saved completely, and the save of the new one is
cut off or fails at any call. Then the next load returns what it returned before,
what it returns after a complete save of the new one, or the latter with every
BACnet slot fallen back to the heat pump's sensors, given that the checksums of
the first blobs differ where the blobs do. -/
theorem interrupted_save {old new : Settings} (hnew : validate macon new = .none)
    {flash₀ flash flash' : NvsFlash PerfKey} {fs₀ fs : List NvsFault}
    (hsave : (save macon old flash₀ fs₀).out = .val true)
    (hflash : flash = (save macon old flash₀ fs₀).state)
    (hcut : flash' = (save macon new flash fs).state)
    (hcrc : serialize old ≠ serialize new →
      primaryCrc (serialize old) ≠ primaryCrc (serialize new)) :
    ∃ t complete, (load macon flash' []).out = .val t ∧
      (load macon (save macon new flash []).state []).out = .val complete ∧
      ((load macon flash []).out = .val t ∨ t = complete ∨ t = complete.withoutBacnet) := by
  have hold : flash = saved old flash₀ :=
    hflash.trans (((save_spec macon old flash₀ fs₀ fun _ _ => trivial).1).1 hsave)
  have hleft := ((save_spec macon new flash fs fun _ _ => trivial).1).2
  refine ⟨loaded macon flash', loaded macon (saved new flash), (runs_load macon _).out, ?_, ?_⟩
  · rw [(runs_save macon hnew flash).state, (runs_load macon _).out]
  · rw [(runs_load macon flash).out]
    have h := loaded_of_saveEnds hnew (hold ▸ savedAs_saved old flash₀) hcrc (hcut ▸ hleft)
    exact h.imp_left fun heq => congrArg _ heq.symm

/-- Slots on an object of a BACnet device. -/
def onBacnet (object : UInt32) : Settings :=
  { defaults waterLoop with
    sensors := fun _ =>
      { defaultSensor with
        source := .bacnetIp
        host := .copyString kHostMax [97]
        bacnetInstance := object } }

/-- The power is lost between the two blobs of a change to another object, of
which the first blob knows nothing. -/
theorem interrupted_save_onBacnet :
    ∃ t complete, (load waterLoop (save waterLoop (onBacnet 2)
        (save waterLoop (onBacnet 1) (fun _ => none) []).state
        [.none, .none, .cut false]).state []).out = .val t ∧
      (load waterLoop (save waterLoop (onBacnet 2)
        (save waterLoop (onBacnet 1) (fun _ => none) []).state []).state []).out
          = .val complete ∧
      ((load waterLoop (save waterLoop (onBacnet 1) (fun _ => none) []).state []).out
        = .val t ∨ t = complete ∨ t = complete.withoutBacnet) := by
  have hold : validate waterLoop (onBacnet 1) = .none := by decide +kernel
  have hsame : serialize (onBacnet 1) = serialize (onBacnet 2) := rfl
  exact interrupted_save (by decide +kernel) (runs_save waterLoop hold _).out rfl rfl
    fun hne => absurd hsame hne

end ArcticController

/-
Saving the heat output settings and loading them (`perf_settings.cpp`).

* `load`, `save`: the functions;
* `loaded`: what a load without faults returns (`runs_load`);
* `saved`, `savedFirst`: the flash after a save, and after its first blob only;
* `save_spec`: a save leaves the flash as it was, or with the first blob, or with
  both, and only then answers that it succeeded;
* `damaged_not_loaded`: a blob with a few bytes changed is not loaded.
-/
import ArcticController.Perf.SettingsBlob
import ArcticController.Platform.NvsFlash

namespace ArcticController

/-- The keys of the namespace `perf`. -/
inductive PerfKey where
  | cfg
  | bacnet
deriving DecidableEq, Repr

/-- The checksum of a first blob, without its own last four bytes. -/
def primaryCrc (buf : List UInt8) : UInt32 := espCrc32Le 0 (buf.take (kBlobSize - 4))

variable {α : Type} (macon : MaconFluid)

def load : NvsFlashM PerfKey Settings := do
  match ← NvsFlash.openNamespace.attempt with
  | .error _ => return defaults macon
  | .ok _ =>
      match ← (NvsFlash.getValue .cfg kBlobSize).attempt with
      | .error _ => return defaults macon
      | .ok buf =>
          match deserialize macon buf with
          | none => return defaults macon
          | some s =>
              match ← (NvsFlash.getValue .bacnet kBacnetExtSize).attempt with
              | .error _ => return s
              | .ok ext => return (deserializeBacnetExt macon ext (primaryCrc buf) s).getD s

/-- The calls of a save, until the first that fails. -/
def saveBlobs (s : Settings) : NvsFlashM PerfKey Unit := do
  NvsFlash.setValue .cfg (serialize s)
  NvsFlash.setValue .bacnet (serializeBacnetExt s (primaryCrc (serialize s)))
  NvsFlash.commit

def save (s : Settings) : NvsFlashM PerfKey Bool :=
  if validate macon s ≠ .none then return false
  else do
    match ← NvsFlash.openNamespace.attempt with
    | .error _ => return false
    | .ok _ =>
        match ← (saveBlobs s).attempt with
        | .error _ => return false
        | .ok _ => return true

/-! ### Loading -/

/-- The settings with those of the second blob, where there is one. -/
def loadedExt (flash : NvsFlash PerfKey) (buf : List UInt8) (s : Settings) : Settings :=
  match NvsFlash.read flash .bacnet kBacnetExtSize with
  | .error _ => s
  | .ok ext => (deserializeBacnetExt macon ext (primaryCrc buf) s).getD s

/-- What a load returns. -/
def loaded (flash : NvsFlash PerfKey) : Settings :=
  match NvsFlash.read flash .cfg kBlobSize with
  | .error _ => defaults macon
  | .ok buf =>
      match deserialize macon buf with
      | none => defaults macon
      | some s => loadedExt macon flash buf s

lemma loaded_of_read {flash : NvsFlash PerfKey} {buf : List UInt8} {s : Settings}
    (hread : NvsFlash.read flash .cfg kBlobSize = .ok buf) (hs : deserialize macon buf = some s) :
    loaded macon flash = loadedExt macon flash buf s := by
  rw [loaded, hread]
  dsimp only
  rw [hs]

lemma loadedExt_of_read {flash : NvsFlash PerfKey} {ext : List UInt8} (buf : List UInt8)
    (s : Settings) (hread : NvsFlash.read flash .bacnet kBacnetExtSize = .ok ext) :
    loadedExt macon flash buf s = (deserializeBacnetExt macon ext (primaryCrc buf) s).getD s := by
  rw [loadedExt, hread]

lemma runs_load (flash : NvsFlash PerfKey) :
    FaultM.Runs (load macon) flash (loaded macon flash) flash := by
  rw [load]
  refine (NvsFlash.runs_plain .open flash).attempt.bind ?_
  refine (NvsFlash.runs_getValue .cfg kBlobSize flash).bind ?_
  rw [loaded]
  cases NvsFlash.read flash .cfg kBlobSize with
  | error e => exact FaultM.runs_pure _ _
  | ok buf =>
      dsimp only
      cases deserialize macon buf with
      | none => exact FaultM.runs_pure _ _
      | some s =>
          refine (NvsFlash.runs_getValue .bacnet kBacnetExtSize flash).bind ?_
          dsimp only
          rw [loadedExt]
          cases NvsFlash.read flash .bacnet kBacnetExtSize with
          | error e => exact FaultM.runs_pure _ _
          | ok ext => exact FaultM.runs_pure _ _

/-! ### Saving -/

/-- The flash with the first blob of some settings. -/
def savedFirst (s : Settings) (flash : NvsFlash PerfKey) : NvsFlash PerfKey :=
  Function.update flash .cfg (some (serialize s))

/-- The flash with both blobs of some settings. -/
def saved (s : Settings) (flash : NvsFlash PerfKey) : NvsFlash PerfKey :=
  Function.update (savedFirst s flash) .bacnet
    (some (serializeBacnetExt s (primaryCrc (serialize s))))

/-- What a save may answer and leave. -/
def SaveEnds (good : Outcome EspErr α) (s : Settings) (flash : NvsFlash PerfKey)
    (o : Outcome EspErr α) (flash' : NvsFlash PerfKey) : Prop :=
  (o = good → flash' = saved s flash) ∧
    (flash' = flash ∨ flash' = savedFirst s flash ∨ flash' = saved s flash)

/-- What the calls of a save leave. -/
lemma saveBlobs_spec (s : Settings) (flash : NvsFlash PerfKey) :
    wp anyNvsFaults (saveBlobs s) (SaveEnds (.val ()) s flash) flash := by
  have hbad : ∀ (o : Outcome EspErr Unit) flash', (∀ a, o ≠ .val a) →
      (flash' = flash ∨ flash' = savedFirst s flash ∨ flash' = saved s flash) →
      andThen anyNvsFaults (fun _ => NvsFlash.commit) (SaveEnds (.val ()) s flash) o flash' := by
    intro o flash' ho hflash'
    cases o with
    | val a => exact absurd rfl (ho a)
    | err e => exact ⟨nofun, hflash'⟩
    | cut => exact ⟨nofun, hflash'⟩
  rw [saveBlobs]
  refine wp_bind ?_
  refine NvsFlash.wp_setValue ?_ fun o ho flash' hflash' => ?_
  · refine wp_bind (NvsFlash.wp_setValue ?_ fun o ho flash' hflash' => ?_)
    · refine NvsFlash.wp_plain ⟨fun _ => rfl, .inr (.inr rfl)⟩ fun o ho => ?_
      exact ⟨fun h => absurd h (ho _), .inr (.inr rfl)⟩
    · exact hbad o flash' ho (.inr hflash')
  · cases o with
    | val a => exact absurd rfl (ho a)
    | err e => exact ⟨nofun, hflash'.imp_right .inl⟩
    | cut => exact ⟨nofun, hflash'.imp_right .inl⟩

/-- A save that succeeds stored both blobs, and any save stored nothing, the
first blob, or both. -/
theorem save_spec (s : Settings) (flash : NvsFlash PerfKey) :
    wp anyNvsFaults (save macon s) (SaveEnds (.val true) s flash) flash := by
  rw [save]
  by_cases hvalid : validate macon s = .none
  · refine wp_if_neg (not_not.mpr hvalid) ?_
    refine wp_bind (wp_attempt (NvsFlash.wp_plain ?_ fun o ho => ?_))
    · rw [attempted_val, andThen_val]
      refine wp_bind (wp_attempt (wp_mono (saveBlobs_spec s flash) fun o flash' h => ?_))
      cases o with
      | val a =>
          refine wp_pure ?_
          exact ⟨fun _ => h.1 rfl, h.2⟩
      | err e =>
          refine wp_pure ?_
          exact ⟨nofun, h.2⟩
      | cut => exact ⟨nofun, h.2⟩
    · cases o with
      | val a => exact absurd rfl (ho a)
      | err e =>
          refine wp_pure ?_
          exact ⟨nofun, .inl rfl⟩
      | cut => exact ⟨nofun, .inl rfl⟩
  · refine wp_if_pos hvalid (wp_pure ?_)
    exact ⟨nofun, .inl rfl⟩

/-- Valid settings are saved where nothing fails. -/
lemma runs_save {s : Settings} (hvalid : validate macon s = .none) (flash : NvsFlash PerfKey) :
    FaultM.Runs (save macon s) flash true (saved s flash) := by
  rw [save, if_neg (not_not.mpr hvalid)]
  refine (NvsFlash.runs_plain .open flash).attempt.bind ?_
  have hblobs : FaultM.Runs (saveBlobs s) flash () (saved s flash) :=
    (NvsFlash.runs_setValue _ _ _).bind ((NvsFlash.runs_setValue _ _ _).bind
      (NvsFlash.runs_plain .commit _))
  exact hblobs.attempt.bind (FaultM.runs_pure _ _)

/-! ### Damaged blobs -/

section Damaged

variable {macon : MaconFluid} {before w w' behind : List UInt8}

lemma espCrc32Le_eq (bytes : List UInt8) : espCrc32Le 0 bytes = ~~~ crcBits 0xFFFFFFFF bytes := by
  simp only [crcBits, crcBits_byte]
  rfl

/-- The remainder of a body with its checksum behind it. -/
lemma checksumValid_remainder {buf : List UInt8} (h : checksumValid buf) (hsize : 4 ≤ buf.length) :
    crcBits 0xFFFFFFFF buf = crcBit^[32] 0xFFFFFFFF := by
  have htail : (buf.drop (buf.length - 4)).length = 4 := by
    rw [List.length_drop]
    omega
  rw [checksumValid, beq_iff_eq, espCrc32Le_eq] at h
  conv_lhs => rw [← List.take_append_drop (buf.length - 4) buf]
  rw [crcBits_append, crcBits_window _ _ htail.le, htail, ← UInt32.not_not (a := crcBits _ _), h]
  have hxor : ~~~ Codec.u32.dec (buf.drop (buf.length - 4)) ^^^ Codec.u32.dec (buf.drop (buf.length - 4))
      = 0xFFFFFFFF := by
    rw [UInt32.not_xor, UInt32.xor_self]
    rfl
  exact congrArg _ hxor

/-- **A damaged blob is not loaded**: with up to four bytes in a row changed, a first blob is read
as none, and a second one leaves the settings of the first as they are. -/
theorem damaged_not_loaded (hvalid : checksumValid (before ++ w ++ behind))
    (hsize : 4 ≤ (before ++ w ++ behind).length) (hlen : w.length = w'.length) (hle : w.length ≤ 4)
    (hne : w ≠ w') (flash : NvsFlash PerfKey) :
    (flash .cfg = some (before ++ w' ++ behind) →
      (load macon flash []).out = .val (defaults macon)) ∧
    (flash .bacnet = some (before ++ w' ++ behind) → ∀ buf s,
      NvsFlash.read flash .cfg kBlobSize = .ok buf → deserialize macon buf = some s →
      (load macon flash []).out = .val s) := by
  have hdamaged : ¬ checksumValid (before ++ w' ++ behind) = true := fun h => by
    have hsize' : 4 ≤ (before ++ w' ++ behind).length := by simpa [← hlen] using hsize
    exact hne (crcBits_burst hlen hle
      ((checksumValid_remainder hvalid hsize).trans (checksumValid_remainder h hsize').symm))
  rw [(runs_load macon flash).out]
  generalize before ++ w' ++ behind = damaged at hdamaged
  refine ⟨fun h => congrArg _ ?_, fun h buf s hread hs => congrArg _ ?_⟩
  · have hnone : deserialize macon damaged = none := by simp [deserialize, hdamaged]
    rw [loaded, NvsFlash.read, h]
    by_cases hlong : kBlobSize < damaged.length <;> simp [hlong, hnone]
  · have hnone : deserializeBacnetExt macon damaged (primaryCrc buf) s = none := by
      simp [deserializeBacnetExt, hdamaged]
    rw [loaded_of_read macon hread hs, loadedExt, NvsFlash.read, h]
    by_cases hlong : kBacnetExtSize < damaged.length <;> simp [hlong, hnone]

/-- A body of one byte, which is changed. -/
theorem damaged_not_loaded_byte : ∃ flash, (load waterLoop flash []).out = .val (defaults waterLoop) :=
  ⟨_, (@damaged_not_loaded waterLoop [] [1] [2] _ (checksumValid_append [1]) (by decide) rfl (by decide)
    (by decide) fun _ => some _).1 rfl⟩

end Damaged

end ArcticController

/-
The external sensors over every interleaving of the tasks and the worker.

* `SensorConfig.identity`, `sameSource_iff`: having the same source is equality of
  identities;
* `learnedRom`, `shownUnder`, `learnedSince`: the ROM ID learned for a slot, the
  configuration its status was read under, and whether one was learned since the
  settings were last read for a change, as the events tell;
* `Undisturbed`: no change was installed over a ROM ID learned since it read the
  settings;
* `SensorSystem.Consistent`: what holds in every state reached;
* `sensor_settings_consistent`: saved settings, readings and ROM IDs agree with
  the settings, the ROM IDs as far as no change was installed over one;
* `learned_rom_lost`: such an installation loses it.
-/
import ArcticController.Perf.ExtTempSensors
import ArcticController.Base.TaskLock

namespace ArcticController

/-! ### The same source -/

/-- The fields that name a sensor. -/
def SensorConfig.identity (s : SensorConfig) :
    (SensorSource × List UInt8 × UInt16 × UInt8 × UInt16 × RegisterType) ×
      (BacnetObjectType × UInt32 × Option UInt32 × ValueType) :=
  ((s.source, s.host.cstr, s.port, s.unitId, s.address, s.regType),
    (s.bacnetType, s.bacnetInstance,
      (if s.bacnetDeviceKnown then some s.bacnetDeviceInstance else none), s.valueType))

/-- Two devices are the same: neither known, or both with one instance. -/
lemma sameDevice_iff {known known' : Bool} {device device' : UInt32} :
    (known = known' ∧ (known = false ∨ device = device')) ↔
      (if known then some device else none) = if known' then some device' else none := by
  cases known <;> cases known' <;> simp

variable {a b : SensorConfig} {input : Settings} {edited : Fin kSlotCount → Bool}
   {log : List SensorEvent} {i : Fin kSlotCount} {s : SensorSystem}

theorem sameSource_iff : sameSource a b ↔ a.identity = b.identity := by
  simp only [sameSource, SensorConfig.identity, Bool.and_eq_true, Bool.or_eq_true, beq_iff_eq,
    Bool.not_eq_true', Prod.mk.injEq, ← sameDevice_iff]
  tauto

lemma sameSource_trans {c : SensorConfig} (hab : sameSource a b) (hbc : sameSource b c) :
    sameSource a c :=
  sameSource_iff.mpr ((sameSource_iff.mp hab).trans (sameSource_iff.mp hbc))

lemma sameSource_symm (h : sameSource a b) : sameSource b a :=
  sameSource_iff.mpr (sameSource_iff.mp h).symm

/-! ### What a change keeps -/

lemma not_endpointChanged (h : sameSource a b) : ¬ bacnetEndpointChanged a b := by
  simp only [sameSource, Bool.and_eq_true, beq_iff_eq] at h
  simp only [bacnetEndpointChanged, Bool.or_eq_true, bne_iff_ne, ne_eq, not_or, not_not]
  tauto

/-- An unedited slot of the same source keeps the ROM ID and the source. -/
lemma applySlot_kept {s cur : SensorConfig} (h : sameSource s cur) :
    (applySlot false s cur).romKnown = cur.romKnown ∧ (applySlot false s cur).rom = cur.rom ∧
      sameSource (applySlot false s cur) cur := by
  have hstale : dropStaleIdentity s cur = s :=
    if_neg fun hdrop => not_endpointChanged h hdrop.2.1
  have hkeep : applySlot false s cur = keepIdentity s cur := by
    rw [applySlot, hstale]
    exact if_neg (by simp [h])
  rw [hkeep]
  refine ⟨rfl, rfl, ?_⟩
  simp only [sameSource, Bool.and_eq_true, beq_iff_eq] at h ⊢
  simp only [keepIdentity, Bool.or_eq_true, Bool.not_eq_true', beq_iff_eq, and_true]
  tauto

/-- Without a changed sensor every slot keeps its source. -/
lemma sameSource_of_unchanged {cur : Settings} (h : (applySection cur input edited).2 = false)
    (i : Fin kSlotCount) :
    sameSource ((applySection cur input edited).1.sensors i) (cur.sensors i) := by
  have hall : ¬ ∃ i, sensorChanged ((applySection cur input edited).1.sensors i) (cur.sensors i) :=
    of_decide_eq_false h
  by_contra hne
  rw [Bool.not_eq_true] at hne
  exact hall ⟨i, by simp [sensorChanged, hne]⟩

/-! ### The events -/

/-- The configuration a ROM ID was learned under, and the ROM ID, while nothing
has dropped it. -/
def learnedRom (i : Fin kSlotCount) (log : List SensorEvent) : Option (SensorConfig × RomId) :=
  log.foldl (fun learned e => match e with
    | .snapshotted _ => learned
    | .installed _ drops _ => if drops i then none else learned
    | .booked slot cfg rom => if slot = i then (rom.map (cfg, ·)).or learned else learned) none

/-- The configuration the status of a slot was read under, since its last reset. -/
def shownUnder (i : Fin kSlotCount) (log : List SensorEvent) : Option SensorConfig :=
  log.foldl (fun shown e => match e with
    | .snapshotted _ => shown
    | .installed _ _ reset => if reset then none else shown
    | .booked slot cfg _ => if slot = i then some cfg else shown) none

/-- A ROM ID was learned for a slot since the settings were last read for a change. -/
def learnedSince (i : Fin kSlotCount) (log : List SensorEvent) : Bool :=
  log.foldl (fun since e => match e with
    | .snapshotted _ => false
    | .installed _ _ _ => since
    | .booked slot _ rom => since || (slot == i && rom.isSome)) false

/-- No change is installed over a ROM ID learned since it read the settings, in a
slot that it keeps. -/
def Undisturbed (log : List SensorEvent) : Prop :=
  ∀ pre t drops reset post, log = pre ++ .installed t drops reset :: post →
    ∀ i, learnedSince i pre → drops i

def SensorEvent.isInstalled : SensorEvent → Bool
  | .installed _ _ _ => true
  | _ => false

lemma undisturbed_of_none (h : ∀ e ∈ log, ¬ e.isInstalled) :
    Undisturbed log := fun _ _ _ _ _ hlog =>
  absurd rfl (h _ (hlog ▸ List.mem_append_right _ List.mem_cons_self))

lemma Undisturbed.of_append {more : List SensorEvent} (h : Undisturbed (log ++ more)) :
    Undisturbed log := fun pre t drops reset post hlog =>
  h pre t drops reset (post ++ more) (by rw [hlog]; simp)

section Append

variable (i : Fin kSlotCount) (log : List SensorEvent)

lemma learnedRom_snapshotted (t : ℕ) :
    learnedRom i (log ++ [.snapshotted t]) = learnedRom i log := by
  rw [learnedRom, List.foldl_append]
  rfl

lemma learnedRom_installed (t : ℕ) (drops : Fin kSlotCount → Bool) (reset : Bool) :
    learnedRom i (log ++ [.installed t drops reset])
      = if drops i then none else learnedRom i log := by
  rw [learnedRom, List.foldl_append]
  rfl

lemma learnedRom_booked (slot : Fin kSlotCount) (cfg : SensorConfig) (rom : Option RomId) :
    learnedRom i (log ++ [.booked slot cfg rom])
      = if slot = i then (rom.map (cfg, ·)).or (learnedRom i log) else learnedRom i log := by
  rw [learnedRom, List.foldl_append]
  rfl

lemma shownUnder_snapshotted (t : ℕ) :
    shownUnder i (log ++ [.snapshotted t]) = shownUnder i log := by
  rw [shownUnder, List.foldl_append]
  rfl

lemma shownUnder_installed (t : ℕ) (drops : Fin kSlotCount → Bool) (reset : Bool) :
    shownUnder i (log ++ [.installed t drops reset]) = if reset then none else shownUnder i log := by
  rw [shownUnder, List.foldl_append]
  rfl

lemma shownUnder_booked (slot : Fin kSlotCount) (cfg : SensorConfig) (rom : Option RomId) :
    shownUnder i (log ++ [.booked slot cfg rom]) = if slot = i then some cfg else shownUnder i log := by
  rw [shownUnder, List.foldl_append]
  rfl

lemma learnedSince_booked (slot : Fin kSlotCount) (cfg : SensorConfig) (rom : Option RomId) :
    learnedSince i (log ++ [.booked slot cfg rom])
      = (learnedSince i log || (slot == i && rom.isSome)) := by
  rw [learnedSince, List.foldl_append]
  rfl

end Append

/-! ### What holds in every state -/

/-- A task between taking the save mutex and giving it back. -/
def SensorTask.underSave : SensorTask → Prop
  | .applyHolding _ _ | .applySaving _ _ _ _ | .applyInstalling _ _ _ _ => True
  | .serviceHolding | .serviceSaving _ | .serviceFailed | .releasing => True
  | _ => False

namespace SensorSystem

/-- The settings are saved, or a save is pending. -/
def Settled (s : SensorSystem) : Prop := s.savePending = true ∨ s.saved = s.settings

/-- A change computed from settings that have not been changed since, but for
ROM IDs learned. -/
def Computed (s : SensorSystem) (log : List SensorEvent) (input : Settings)
    (edited : Fin kSlotCount → Bool) (next : Settings) (sensorsChanged : Bool) : Prop :=
  ∃ cur, applySection cur input edited = (next, sensorsChanged) ∧
    ∀ i, (s.settings.sensors i).identity = (cur.sensors i).identity ∧
      (¬ learnedSince i log → s.settings.sensors i = cur.sensors i)

/-- What holds while a task has the save mutex. -/
def HeldBy (s : SensorSystem) (log : List SensorEvent) : SensorTask → Prop
  | .applySaving input edited next changed => s.Settled ∧ s.Computed log input edited next changed
  | .applyInstalling input edited next changed =>
      s.saved = next ∧ s.Computed log input edited next changed
  | .serviceSaving copy => s.savePending = true ∨ s.settings = copy
  | .serviceFailed => True
  | _ => s.Settled

/-- A ROM ID and a status belong to the source a slot has now. -/
structure Owned (s : SensorSystem) (log : List SensorEvent) : Prop where
  learned : ∀ i cfg rom, learnedRom i log = some (cfg, rom) → sameSource (s.settings.sensors i) cfg
  shown : ∀ i cfg, shownUnder i log = some cfg → sameSource (s.settings.sensors i) cfg

/-- A ROM ID that was learned is in the settings. -/
def Keeps (s : SensorSystem) (log : List SensorEvent) : Prop :=
  ∀ i cfg rom, learnedRom i log = some (cfg, rom) →
    (s.settings.sensors i).romKnown = true ∧ (s.settings.sensors i).rom = rom

structure Consistent (s : SensorSystem) (log : List SensorEvent) : Prop where
  mutex : Guards SensorTask.underSave s.saveMutex s.task
  free : s.saveMutex = none → s.Settled
  held : ∀ t, s.saveMutex = some t → s.HeldBy log (s.task t)
  owned : s.Owned log
  keeps : Undisturbed log → s.Keeps log

end SensorSystem

/-! ### One step -/

namespace SensorSystem.Consistent

variable {s s' : SensorSystem} {log : List SensorEvent} {t : ℕ} {new : SensorTask}

/-- The holder of the save mutex moves and keeps it. -/
lemma holder {log' : List SensorEvent} (h : s.Consistent log) (ht : (s.task t).underSave)
    (htask : s'.task = Function.update s.task t new) (hmutex : s'.saveMutex = s.saveMutex)
    (hnew : new.underSave) (hheld : s'.HeldBy log' new) (howned : s'.Owned log')
    (hkeeps : Undisturbed log' → s'.Keeps log') : s'.Consistent log' := by
  have hholder : s'.saveMutex = some t := hmutex.trans ((h.mutex t).mp ht)
  refine ⟨?_, fun hfree => ?_, fun t' ht' => ?_, howned, hkeeps⟩
  · rw [hmutex, htask]
    exact h.mutex.stay (iff_of_true hnew ht)
  · rw [hholder] at hfree
    cases hfree
  · rw [hholder] at ht'
    cases ht'
    rw [htask, Function.update_self]
    exact hheld

/-- A task moves that neither has the save mutex nor takes it. -/
lemma outside (h : s.Consistent log) (ht : ¬ (s.task t).underSave) (hnew : ¬ new.underSave) :
    (s.moveTask t new).Consistent log := by
  refine ⟨h.mutex.stay (iff_of_false hnew ht), h.free, fun t' ht' => ?_, ⟨h.owned.1, h.owned.2⟩,
    h.keeps⟩
  have hne : t' ≠ t := fun heq => ht (heq ▸ (h.mutex t').mpr ht')
  have hheld := h.held t' ht'
  dsimp only [moveTask]
  rw [Function.update_of_ne hne]
  generalize s.task t' = task at hheld
  cases task <;> exact hheld

/-- A task takes the save mutex. -/
lemma take (h : s.Consistent log) (hfree : s.saveMutex = none) (hnew : new.underSave)
    (hheld : s.Settled → HeldBy { s.moveTask t new with saveMutex := some t } log new) :
    Consistent { s.moveTask t new with saveMutex := some t } log := by
  refine ⟨(hfree ▸ h.mutex).take hnew, nofun, fun t' ht' => ?_, ⟨h.owned.1, h.owned.2⟩, h.keeps⟩
  cases ht'
  show HeldBy _ log (Function.update s.task t new t)
  rw [Function.update_self]
  exact hheld (h.free hfree)

/-- The holder gives the save mutex back. -/
lemma release (h : s.Consistent log) (ht : s.task t = .releasing) :
    Consistent { s.moveTask t .idle with saveMutex := none } log := by
  have hunder : (s.task t).underSave := by rw [ht]; trivial
  have hheld : s.HeldBy log .releasing := ht ▸ h.held t ((h.mutex t).mp hunder)
  exact ⟨h.mutex.give hunder id, fun _ => hheld, nofun, ⟨h.owned.1, h.owned.2⟩, h.keeps⟩

/-- Only the worker and the slots move. -/
lemma work (h : s.Consistent log) (slots : Fin kSlotCount → SensorSlot) (worker : WorkerTask) :
    Consistent { s with slots := slots, worker := worker } log := by
  refine ⟨h.mutex, h.free, fun t ht => ?_, ⟨h.owned.1, h.owned.2⟩, h.keeps⟩
  have hheld := h.held t ht
  dsimp only
  generalize s.task t = task at hheld
  cases task <;> exact hheld

end SensorSystem.Consistent

/-- The settings once a ROM ID was learned for a slot. -/
def Settings.learn (settings : Settings) (i : Fin kSlotCount) : Option RomId → Settings
  | none => settings
  | some rom =>
      { settings with
        sensors := Function.update settings.sensors i
          { settings.sensors i with romKnown := true, rom := rom } }

lemma learn_self (settings : Settings) (i : Fin kSlotCount) (rom : RomId) :
    (settings.learn i (some rom)).sensors i
      = { settings.sensors i with romKnown := true, rom := rom } :=
  Function.update_self _ _ _

/-- A slot for which nothing was learned. -/
lemma learn_of_not {settings : Settings} {j : Fin kSlotCount} {learned : Option RomId}
    (h : ¬ (i == j && learned.isSome)) :
    (settings.learn i learned).sensors j = settings.sensors j := by
  cases learned with
  | none => rfl
  | some rom =>
      have hne : j ≠ i := fun heq => h (by simp [heq])
      exact Function.update_of_ne hne _ _

lemma identity_learn (settings : Settings) (i j : Fin kSlotCount) (learned : Option RomId) :
    ((settings.learn i learned).sensors j).identity = (settings.sensors j).identity := by
  cases learned with
  | none => rfl
  | some rom =>
      by_cases hj : i = j
      · subst hj
        rw [learn_self]
        rfl
      · rw [learn_of_not (by simp [hj])]

/-- What the worker books leaves the system consistent. -/
lemma SensorSystem.Consistent.booked (h : s.Consistent log) {cfg : SensorConfig}
    (hsame : sameSource (s.settings.sensors i) cfg) (learned : Option RomId)
    (slots : Fin kSlotCount → SensorSlot) (worker : WorkerTask) :
    SensorSystem.Consistent
      { s with
        settings := s.settings.learn i learned
        savePending := s.savePending || learned.isSome
        slots := slots
        worker := worker } (log ++ [.booked i cfg learned]) := by
  have hsettled : s.Settled → (s.savePending || learned.isSome) = true ∨
      s.saved = s.settings.learn i learned := by
    intro hs
    cases learned with
    | none =>
        rw [Option.isSome_none, Bool.or_false]
        exact hs
    | some rom => exact .inl (Bool.or_true _)
  have hcomputed : ∀ {input edited next changed}, s.Computed log input edited next changed →
      ∃ cur, applySection cur input edited = (next, changed) ∧
        ∀ j, ((s.settings.learn i learned).sensors j).identity = (cur.sensors j).identity ∧
          (¬ learnedSince j (log ++ [.booked i cfg learned]) →
            (s.settings.learn i learned).sensors j = cur.sensors j) := by
    rintro input edited next changed ⟨cur, hcur, hslots⟩
    refine ⟨cur, hcur, fun j => ⟨(identity_learn _ _ _ _).trans (hslots j).1, fun hsince => ?_⟩⟩
    rw [learnedSince_booked, Bool.or_eq_true, not_or] at hsince
    exact (learn_of_not hsince.2).trans ((hslots j).2 hsince.1)
  refine ⟨h.mutex, fun hfree => hsettled (h.free hfree), fun t ht => ?_, ⟨?_, ?_⟩, ?_⟩
  · have hheld := h.held t ht
    dsimp only
    generalize s.task t = task at hheld
    cases task with
    | applySaving input edited next changed => exact ⟨hsettled hheld.1, hcomputed hheld.2⟩
    | applyInstalling input edited next changed => exact ⟨hheld.1, hcomputed hheld.2⟩
    | serviceSaving copy =>
        cases learned with
        | none => exact hheld.imp_left fun hp => by rw [Option.isSome_none, Bool.or_false]; exact hp
        | some rom => exact .inl (Bool.or_true _)
    | serviceFailed => trivial
    | _ => exact hsettled hheld
  · intro j cfg' rom hrom
    have hident := sameSource_iff.mpr (identity_learn s.settings i j learned)
    refine sameSource_trans hident ?_
    rw [learnedRom_booked] at hrom
    by_cases hj : i = j
    · subst hj
      rw [if_pos rfl] at hrom
      cases learned with
      | none => exact h.owned.learned _ _ _ hrom
      | some rom' =>
          cases hrom
          exact hsame
    · rw [if_neg hj] at hrom
      exact h.owned.learned _ _ _ hrom
  · intro j cfg' hshown
    have hident := sameSource_iff.mpr (identity_learn s.settings i j learned)
    refine sameSource_trans hident ?_
    rw [shownUnder_booked] at hshown
    by_cases hj : i = j
    · subst hj
      rw [if_pos rfl] at hshown
      cases hshown
      exact hsame
    · rw [if_neg hj] at hshown
      exact h.owned.shown _ _ hshown
  · intro hund j cfg' rom hrom
    have hkeeps := h.keeps hund.of_append
    rw [learnedRom_booked] at hrom
    by_cases hj : i = j
    · subst hj
      rw [if_pos rfl] at hrom
      cases learned with
      | none => exact hkeeps _ _ _ hrom
      | some rom' =>
          cases hrom
          dsimp only
          rw [learn_self]
          exact ⟨rfl, rfl⟩
    · rw [if_neg hj] at hrom
      rw [learn_of_not (by simp [hj])]
      exact hkeeps _ _ _ hrom

/-- Settings are read for a change. -/
lemma SensorSystem.Consistent.snapshot (h : s.Consistent log) {t : ℕ}
    (ht : s.task t = .applyHolding input edited) :
    (s.moveTask t (.applySaving input edited (applySection s.settings input edited).1
      (applySection s.settings input edited).2)).Consistent (log ++ [.snapshotted t]) := by
  have hunder : (s.task t).underSave := by rw [ht]; trivial
  have hheld : s.HeldBy log (.applyHolding input edited) := ht ▸ h.held t ((h.mutex t).mp hunder)
  refine h.holder hunder rfl rfl trivial ⟨hheld, s.settings, rfl, fun i => ⟨rfl, fun _ => rfl⟩⟩
    ⟨fun i cfg rom hrom => ?_, fun i cfg hshown => ?_⟩ fun hund i cfg rom hrom => ?_
  · rw [learnedRom_snapshotted] at hrom
    exact h.owned.learned i cfg rom hrom
  · rw [shownUnder_snapshotted] at hshown
    exact h.owned.shown i cfg hshown
  · rw [learnedRom_snapshotted] at hrom
    exact h.keeps hund.of_append i cfg rom hrom

/-- A change is installed. -/
lemma SensorSystem.Consistent.installed (h : s.Consistent log) {t : ℕ} {next : Settings}
    {changed : Bool} (ht : s.task t = .applyInstalling input edited next changed) :
    ((s.install next changed).moveTask t .releasing).Consistent
      (log ++ [.installed t (droppedSlots s.settings input edited) changed]) := by
  have hunder : (s.task t).underSave := by rw [ht]; trivial
  have hheld : s.HeldBy log (.applyInstalling input edited next changed) :=
    ht ▸ h.held t ((h.mutex t).mp hunder)
  obtain ⟨hsaved, cur, hcur, hslots⟩ := hheld
  have hnext : (applySection cur input edited).1 = next := congrArg Prod.fst hcur
  have hcursame : ∀ i, sameSource (cur.sensors i) (s.settings.sensors i) := fun i =>
    sameSource_iff.mpr (hslots i).1.symm
  -- A slot that is not dropped keeps the source and the ROM ID it had when it was read.
  have hkept : ∀ i, ¬ droppedSlots s.settings input edited i →
      (next.sensors i).romKnown = (cur.sensors i).romKnown ∧
        (next.sensors i).rom = (cur.sensors i).rom ∧
        sameSource (next.sensors i) (cur.sensors i) := by
    intro i hdrop
    simp only [droppedSlots, Bool.or_eq_true, not_or, Bool.not_eq_true, Bool.not_eq_false'] at hdrop
    have hinput := sameSource_trans hdrop.2 (sameSource_symm (hcursame i))
    have hslot : next.sensors i = applySlot false (input.sensors i) (cur.sensors i) := by
      rw [← hnext, ← hdrop.1]
      rfl
    rw [hslot]
    exact applySlot_kept hinput
  refine h.holder hunder rfl rfl trivial (.inr hsaved) ⟨fun i cfg rom hrom => ?_,
    fun i cfg hshown => ?_⟩ fun hund i cfg rom hrom => ?_
  · rw [learnedRom_installed] at hrom
    by_cases hdrop : droppedSlots s.settings input edited i
    · rw [if_pos hdrop] at hrom
      cases hrom
    · rw [if_neg hdrop] at hrom
      exact sameSource_trans (sameSource_trans (hkept i hdrop).2.2 (hcursame i))
        (h.owned.learned i cfg rom hrom)
  · rw [shownUnder_installed] at hshown
    cases changed with
    | true => cases hshown
    | false =>
        have hsame := sameSource_of_unchanged (congrArg Prod.snd hcur) i
        rw [hnext] at hsame
        exact sameSource_trans (sameSource_trans hsame (hcursame i)) (h.owned.shown i cfg hshown)
  · rw [learnedRom_installed] at hrom
    by_cases hdrop : droppedSlots s.settings input edited i
    · rw [if_pos hdrop] at hrom
      cases hrom
    · rw [if_neg hdrop] at hrom
      have hsince : ¬ learnedSince i log := fun hsince =>
        hdrop (hund log t _ changed [] rfl i hsince)
      obtain ⟨hknown, hromid, -⟩ := hkept i hdrop
      rw [← (hslots i).2 hsince] at hknown hromid
      have hold := h.keeps hund.of_append i cfg rom hrom
      exact ⟨hknown.trans hold.1, hromid.trans hold.2⟩

/-- What the worker books about a Modbus slot of the same source. -/
lemma bookModbus_of_same {cfg : Settings} (h : sameSource (s.settings.sensors i) (cfg.sensors i))
    (r : ValueRead) (thermux : ThermuxState) (learned : Option RomId) (nowMs : UInt32) :
    s.bookModbus cfg i r thermux learned nowMs =
      { s with
        settings := s.settings.learn i learned
        savePending := s.savePending || learned.isSome
        slots := Function.update s.slots i (bookModbusSlot (s.slots i) r thermux nowMs)
        worker := .next cfg i } := by
  rw [SensorSystem.bookModbus, if_pos h]
  cases learned with
  | none => rw [Option.isSome_none, Bool.or_false]; rfl
  | some rom => rw [Option.isSome_some, Bool.or_true]; rfl

/-- Every step of every task and of the worker keeps the system consistent. -/
theorem consistent_step {macon : MaconFluid} {s' : SensorSystem} {e : Option SensorEvent}
    (h : s.Consistent log) (hstep : SensorStep macon s e s') : s'.Consistent (log ++ e.toList) := by
  have hnil : log ++ (none : Option SensorEvent).toList = log := List.append_nil log
  -- The holder of the save mutex, and what holds of it.
  have hholder : ∀ {t : ℕ} {task : SensorTask}, s.task t = task → task.underSave →
      (s.task t).underSave ∧ s.HeldBy log task := by
    intro t task ht hunder
    rw [← ht] at hunder ⊢
    exact ⟨hunder, h.held t ((h.mutex t).mp hunder)⟩
  cases hstep with
  | applyInvalid => exact hnil.symm ▸ h
  | callApply t input edited hidle _ =>
      rw [hnil]
      exact h.outside (by rw [hidle]; exact id) id
  | applyTake t input edited ht hfree =>
      rw [hnil]
      exact h.take hfree trivial id
  | applySnapshot t input edited ht => exact h.snapshot ht
  | applySaved t input edited next changed ht _ =>
      rw [hnil]
      obtain ⟨hunder, hheld⟩ := hholder ht trivial
      exact h.holder hunder rfl rfl trivial ⟨rfl, hheld.2⟩ ⟨h.owned.1, h.owned.2⟩ h.keeps
  | applyNotSaved t input edited next changed ht =>
      rw [hnil]
      obtain ⟨hunder, hheld⟩ := hholder ht trivial
      exact h.holder hunder rfl rfl trivial hheld.1 ⟨h.owned.1, h.owned.2⟩ h.keeps
  | applyInstall t input edited next changed ht => exact h.installed ht
  | callService t hidle =>
      rw [hnil]
      exact h.outside (by rw [hidle]; exact id) id
  | serviceTake t ht hfree =>
      rw [hnil]
      exact h.take hfree trivial id
  | serviceSnapshot t ht =>
      rw [hnil]
      obtain ⟨hunder, hheld⟩ := hholder ht trivial
      cases hpending : s.savePending with
      | true =>
          exact h.holder hunder rfl rfl trivial (.inr rfl) ⟨h.owned.1, h.owned.2⟩ h.keeps
      | false =>
          have hsettled : s.saved = s.settings :=
            hheld.resolve_left (by rw [hpending]; exact Bool.false_ne_true)
          exact h.holder hunder rfl rfl trivial (.inr hsettled) ⟨h.owned.1, h.owned.2⟩ h.keeps
  | serviceSaved t copy ht _ =>
      rw [hnil]
      obtain ⟨hunder, hheld⟩ := hholder ht trivial
      exact h.holder hunder rfl rfl trivial (hheld.imp_right Eq.symm) ⟨h.owned.1, h.owned.2⟩ h.keeps
  | serviceNotSaved t copy ht =>
      rw [hnil]
      exact h.holder (hholder ht trivial).1 rfl rfl trivial trivial ⟨h.owned.1, h.owned.2⟩ h.keeps
  | serviceRetry t ht =>
      rw [hnil]
      exact h.holder (hholder ht trivial).1 rfl rfl trivial (.inl rfl) ⟨h.owned.1, h.owned.2⟩ h.keeps
  | release t ht =>
      rw [hnil]
      exact h.release ht
  | pollStart => exact hnil.symm ▸ h.work _ _
  | pollSkip => exact hnil.symm ▸ h.work _ _
  | pollModbus => exact hnil.symm ▸ h.work _ _
  | probeOnly => exact hnil.symm ▸ h.work _ _
  | probeRom => exact hnil.symm ▸ h.work _ _
  | pollBacnet => exact hnil.symm ▸ h.work _ _
  | pollBacnetRom => exact hnil.symm ▸ h.work _ _
  | book cfg i r thermux learned nowMs _ =>
      rw [SensorSystem.bookedEvent]
      by_cases hsame : sameSource (s.settings.sensors i) (cfg.sensors i)
      · rw [if_pos hsame, bookModbus_of_same hsame]
        exact h.booked hsame learned _ _
      · rw [if_neg hsame, SensorSystem.bookModbus, if_neg hsame, hnil]
        exact h.work _ _
  | bookBacnet cfg i r nowMs _ =>
      rw [SensorSystem.bookedEvent]
      by_cases hsame : sameSource (s.settings.sensors i) (cfg.sensors i)
      · rw [if_pos hsame, SensorSystem.bookBacnet, if_pos hsame]
        have hbooked := h.booked hsame none
          (Function.update s.slots i (bookBacnetSlot (s.slots i) r nowMs)) (.next cfg i)
        rw [Option.isSome_none, Bool.or_false] at hbooked
        exact hbooked
      · rw [if_neg hsame, SensorSystem.bookBacnet, if_neg hsame, hnil]
        exact h.work _ _

/-! ### Every run -/

lemma consistent_run {macon : MaconFluid} {settings : Settings}
    (hrun : Run (SensorStep macon) (.boot settings) s log) : s.Consistent log := by
  refine hrun.invariant ⟨fun t => iff_of_false id nofun, fun _ => .inr rfl, nofun, ⟨nofun, nofun⟩,
    fun _ => nofun⟩ fun _ _ _ _ _ => consistent_step

/-- The settings are the ones saved last, what is shown of a slot or was learned
for it belongs to its source, and what was learned is in the settings. -/
structure SensorSystem.SettingsAgree (s : SensorSystem) (log : List SensorEvent) : Prop where
  saved : s.saveMutex = none → s.savePending = false → s.saved = s.settings
  owned : s.Owned log
  keeps : s.Keeps log

/-- The first slot is a channel of a Thermux. -/
def onThermux (flowLpmX10 : UInt16) : Settings where
  flowLpmX10 := flowLpmX10
  fluid := ⟨0⟩
  glycolPct := 30
  sensors := fun i =>
    if i = ⟨0, supply_lt⟩ then
      { defaultSensor with source := .modbusTcp, host := .copyString kHostMax [97], address := 100 }
    else defaultSensor

def someReading : ValueRead := ⟨.none, 0, 0⟩

end ArcticController

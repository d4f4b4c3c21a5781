/-
What a factory reset leaves behind.

* `HistoryKept`: the two gates hold once their stage is reached, so that nothing is
  written to the history partition after its erase;
* `DebugLogKept`: the debug log is stopped by no gate; after its erase a slot is erased or
  holds a snapshot of a flush that was let through;
* `ResetSystem.LateFlushesClean`: no flush programs, after the erase of the debug log,
  text that was logged before the reset began;
* `reset_leaves_nothing`: then the next boot finds nothing.
-/
import ArcticController.History.EventDurable
import ArcticController.Reset.ErasedBoot
import ArcticController.Reset.FactoryReset

namespace ArcticController

/-! ### Single flash operations -/

lemma FlashOp.apply_erase {f : NorFlash} {off len : ℕ}
    (haligned : off % flashSectorSize = 0 ∧ len % flashSectorSize = 0) (hin : off + len ≤ f.size) :
    (FlashOp.erase off len).apply f = f.eraseSectors flashSectorSize off len fun _ => true := by
  simp only [FlashOp.apply, FlashOp.perform, espPartitionEraseRange, FaultM.perform, if_pos haligned]
  exact congrArg Prod.snd (if_pos hin)

lemma FlashOp.apply_write {f : NorFlash} {off : ℕ} {bytes : List UInt8}
    (hin : off + bytes.length ≤ f.size) : (FlashOp.write off bytes).apply f = f.program off bytes := by
  simp only [FlashOp.apply, FlashOp.perform, espPartitionWrite, FaultM.perform]
  exact congrArg Prod.snd (if_pos hin)

/-- The erase of a whole partition. -/
lemma FlashOp.erased_apply_erase {f : NorFlash} (haligned : f.size % flashSectorSize = 0) :
    ((FlashOp.erase 0 f.size).apply f).Erased 0 f.size := by
  rw [FlashOp.apply_erase ⟨rfl, haligned⟩ (by omega)]
  exact NorFlash.erased_eraseSectors _ _ _ _

@[simp] lemma FlashOp.apply_size (op : FlashOp) (f : NorFlash) : (op.apply f).size = f.size := by
  have hsize : wp anyFaults op.perform (fun _ g => g.size = f.size) f := by
    cases op with
    | read off len =>
        exact ((keeps_read fun _ => trivial).bind fun _ => keeps_pure ()) f rfl
    | write off bytes => exact keeps_write (fun _ => trivial) (fun _ _ h => h) f rfl
    | erase off len => exact keeps_erase (fun _ => trivial) (fun _ _ h => h) f rfl
  exact (hsize [] fun _ _ => trivial).1

/-! ### Sections behind a closed gate -/

/-- No operation is performed. -/
def silent {φ κ : Type} : Rely φ κ := ⟨fun _ _ => True, fun _ => False⟩

/-- A section of a computation that performs no operation. -/
lemma flashSection_silent {σ κ α : Type} {m : FaultM σ FlashFault (FlashOp × κ) EspErr α} {s : σ}
    {Q : Outcome EspErr α → σ → Prop} (h : wp silent m Q s) {faults : List FlashFault}
    {sec : FlashSection σ} (hsec : sec ∈ flashSection m s faults) :
    sec.left = [] ∧ ∃ o, Q o sec.leaves := by
  obtain ⟨hQ, hops⟩ := h faults fun _ _ => trivial
  have hnil : (m s faults).ops = [] := List.eq_nil_iff_forall_not_mem.mpr fun p hp => hops p hp
  rw [flashSection, hnil] at hsec
  cases hsec
  exact ⟨rfl, _, hQ⟩

/-- The gate of the event log: its journal is out of use, or it was never set up. -/
def EventLog.Gated (log : EventLog) : Prop := log.storageReady = false ∨ log.mutex = false

lemma gated_prepare (log : EventLog) :
    (if log.mutex then { log with storageReady := false } else log).Gated := by
  cases hmutex : log.mutex with
  | true => exact .inl rfl
  | false => exact .inr hmutex

/-- Behind its gate the event log writes nothing. -/
lemma eventWrite_silent (call : EventWrite) {s : Storage} {log : EventLog} (h : log.Gated) :
    wp silent call.exec (fun _ w' => w'.2.Gated) (s, log) := by
  rcases h with hready | hmutex
  · cases call with
    | record type payload now uptimeMs =>
        refine wp_mono (wp_eventLogRecord_outOfUse hready type payload now uptimeMs) ?_
        rintro o _ ⟨log', rfl, hready'⟩
        exact .inl hready'
    | timeSynced syncedSec syncedUsec uptimeMs =>
        refine wp_mono (wp_eventLogTimeSynced_ramOnly hready) ?_
        rintro o _ ⟨-, log', rfl, hready'⟩
        exact .inl hready'
    | clear =>
        refine wp_mono (wp_eventLogClear_ramOnly hready) ?_
        rintro o _ ⟨-, log', rfl, hready'⟩
        exact .inl hready'
  · have hno : (!log.mutex) = true := by rw [hmutex]; rfl
    cases call with
    | record type payload now uptimeMs => exact wp_get_bind (wp_if_pos hno (wp_pure (.inr hmutex)))
    | timeSynced syncedSec syncedUsec uptimeMs =>
        exact wp_get_bind (wp_if_pos hno (wp_pure (.inr hmutex)))
    | clear => exact wp_get_bind (wp_if_pos hno (wp_pure (.inr hmutex)))

/-- Behind its gate the telemetry journal performs no operation. -/
lemma telemetryCall_silent (call : TelemetryCall) {s : Storage} (hmutex : s.telemetryMutex = true)
    (hpending : s.factoryResetPending = true) : wp silent call.exec (fun _ _ => True) s := by
  have hensure : ∀ {α : Type} {k : Unit → HistoryM α} {Q : Outcome EspErr α → Storage → Prop},
      wp silent (k ()) Q s → wp silent (ensureTelemetryMutex >>= k) Q s := fun h => by
    refine wp_bind (wp_get_bind (wp_if_pos hmutex (wp_pure ?_)))
    rwa [andThen_val]
  cases call with
  | append sample =>
      refine wp_get_bind ?_
      by_cases hzero : sample.timestamp = 0
      · exact wp_if_pos hzero (wp_throw trivial)
      refine wp_if_neg hzero ?_
      by_cases hreboot : s.rebootPending = true
      · exact wp_if_pos hreboot (wp_throw trivial)
      exact wp_if_neg hreboot (hensure (wp_bind (wp_get_bind (wp_if_pos hpending (wp_throw trivial)))))
  | query startTimestamp endTimestamp capacity =>
      refine wp_bind ?_
      by_cases hargs : capacity = 0 ∨ startTimestamp ≥ endTimestamp
      · refine wp_if_pos hargs (wp_pure ?_)
        rw [andThen_val]
        exact wp_pure trivial
      refine wp_if_neg hargs (wp_bind (wp_attempt (hensure
        (wp_get_bind (wp_if_pos hpending (wp_throw ?_))))))
      rw [attempted_err, andThen_val]
      refine wp_pure ?_
      rw [andThen_val]
      exact wp_pure trivial

/-! ### The history partition -/

/-- How far the reset is. -/
def ResetStage.rank : ResetStage → ℕ
  | .idle => 0
  | .begun => 1
  | .telemetryStopped => 2
  | .eventsStopped => 3
  | .logErased => 4
  | .historyErased => 5
  | .restarted => 6

/-- The reset has come to a stage. -/
def ResetStage.Reached (target stage : ResetStage) : Prop := target.rank ≤ stage.rank

instance (target stage : ResetStage) : Decidable (target.Reached stage) :=
  inferInstanceAs (Decidable (_ ≤ _))

lemma not_reached {t s : ResetStage} (h : s.rank < t.rank) : ¬ t.Reached s := Nat.not_le.mpr h

/-- The gates of the history partition and what they protect. -/
structure HistoryKept (size : ℕ) (s : ResetSystem) : Prop where
  size_eq : s.history.flash.size = size
  mutex : s.history.telemetryMutex = true
  telemetryGate : ResetStage.telemetryStopped.Reached s.stage →
    s.history.factoryResetPending = true ∧ ∀ sec ∈ s.telemetrySection, sec.left = []
  eventGate : ResetStage.eventsStopped.Reached s.stage →
    s.events.Gated ∧ ∀ sec ∈ s.eventSection, sec.left = [] ∧ sec.leaves.2.Gated
  erased : ResetStage.historyErased.Reached s.stage → s.history.flash.Erased 0 size

section History

variable {crc32 : UInt32 → List UInt8 → UInt32} {size : ℕ} {s : ResetSystem}

/-- The gate of the telemetry journal closes. -/
lemma prepare_gate {s : Storage} (hmutex : s.telemetryMutex = true) :
    (historyStoragePrepareFactoryReset s []).state = { s with factoryResetPending := true } := by
  have h : wp anyFaults historyStoragePrepareFactoryReset
      (fun _ s' => s' = { s with factoryResetPending := true }) s := by
    refine wp_bind (wp_attempt (wp_get_bind (wp_if_pos hmutex (wp_pure ?_))))
    rw [attempted_val, andThen_val]
    exact wp_modify rfl
  exact (h [] fun _ _ => trivial).1

/-- The reset task goes on. -/
lemma HistoryKept.reset (h : HistoryKept size s) (haligned : size % flashSectorSize = 0) :
    HistoryKept size s.resetStep := by
  unfold ResetSystem.resetStep
  split
  case h_1 hstage =>
    have hearly : ∀ {t : ResetStage}, 1 < t.rank → ¬ t.Reached .begun := fun h =>
      not_reached h
    exact ⟨h.size_eq, h.mutex, fun hr => absurd hr (hearly (by decide)),
      fun hr => absurd hr (hearly (by decide)), fun hr => absurd hr (hearly (by decide))⟩
  case h_2 hstage =>
    split
    · exact h
    next hfree =>
      rw [prepare_gate h.mutex]
      refine ⟨h.size_eq, h.mutex, fun _ => ⟨rfl, fun sec hsec => ?_⟩,
        fun hr => absurd hr (not_reached (s := .telemetryStopped) (by decide)),
        fun hr => absurd hr (not_reached (s := .telemetryStopped) (by decide))⟩
      rw [Option.mem_def.mp hsec] at hfree
      exact absurd rfl hfree
  case h_3 hstage =>
    split
    · exact h
    next hfree =>
      refine ⟨h.size_eq, h.mutex, fun _ => h.telemetryGate (by rw [hstage]; decide),
        fun _ => ⟨gated_prepare s.events, fun sec hsec => ?_⟩,
        fun hr => absurd hr (not_reached (s := .eventsStopped) (by decide))⟩
      rw [Option.mem_def.mp hsec] at hfree
      exact absurd rfl hfree
  case h_4 hstage =>
    exact ⟨h.size_eq, h.mutex, fun _ => h.telemetryGate (by rw [hstage]; decide),
      fun _ => h.eventGate (by rw [hstage]; decide),
      fun hr => absurd hr (not_reached (s := .logErased) (by decide))⟩
  case h_5 hstage =>
    refine ⟨?_, h.mutex, fun _ => h.telemetryGate (by rw [hstage]; decide),
      fun _ => h.eventGate (by rw [hstage]; decide), fun _ => ?_⟩
    · exact (FlashOp.apply_size _ _).trans h.size_eq
    · rw [← h.size_eq] at haligned ⊢
      exact FlashOp.erased_apply_erase haligned
  case h_6 hstage =>
    exact ⟨h.size_eq, h.mutex, fun _ => h.telemetryGate (by rw [hstage]; decide),
      fun _ => h.eventGate (by rw [hstage]; decide), fun _ => h.erased (by rw [hstage]; decide)⟩
  case h_7 hstage => exact h

/-- A flash operation of a section: its section was begun before its gate closed. -/
lemma HistoryKept.flashes (h : HistoryKept size s) (op : FlashOp)
    (hopen : ¬ ResetStage.eventsStopped.Reached s.stage) {s' : ResetSystem}
    (hhistory : s'.history = op.applyTo s.history) (hstage : s'.stage = s.stage)
    (htelemetry : ResetStage.telemetryStopped.Reached s.stage →
      ∀ sec ∈ s'.telemetrySection, sec.left = []) : HistoryKept size s' := by
  refine ⟨?_, ?_, fun hr => ?_, fun hr => ?_, fun hr => ?_⟩
  · rw [hhistory]
    exact (FlashOp.apply_size _ _).trans h.size_eq
  · rw [hhistory]
    exact h.mutex
  · rw [hstage] at hr
    refine ⟨?_, htelemetry hr⟩
    rw [hhistory]
    exact (h.telemetryGate hr).1
  · exact absurd (hstage ▸ hr) hopen
  · rw [hstage] at hr
    exact absurd (le_trans (by decide) hr) hopen

/-- **The gates hold**: a step keeps what protects the history partition. -/
lemma HistoryKept.step (h : HistoryKept size s) (haligned : size % flashSectorSize = 0)
    (action : ResetAction) : HistoryKept size (s.step crc32 action) := by
  unfold ResetSystem.step
  split
  · exact h
  cases action with
  | log text => exact ⟨h.size_eq, h.mutex, h.telemetryGate, h.eventGate, h.erased⟩
  | clearLog => exact ⟨h.size_eq, h.mutex, h.telemetryGate, h.eventGate, h.erased⟩
  | event call faults =>
      dsimp only
      split
      · exact h
      · refine ⟨h.size_eq, h.mutex, h.telemetryGate, fun hr => ⟨(h.eventGate hr).1, fun sec hsec => ?_⟩,
          h.erased⟩
        obtain ⟨hleft, o, hgated⟩ :=
          flashSection_silent (eventWrite_silent call (h.eventGate hr).1) hsec
        exact ⟨hleft, hgated⟩
  | eventFlash =>
      dsimp only
      split
      · next op left leaves hsection =>
          have hopen : ¬ ResetStage.eventsStopped.Reached s.stage := fun hr => by
            have hnil := ((h.eventGate hr).2 _ hsection).1
            cases hnil
          exact h.flashes op hopen rfl rfl fun hr => (h.telemetryGate hr).2
      · exact h
  | eventGive =>
      dsimp only
      split
      · next leaves hsection =>
          exact ⟨h.size_eq, h.mutex, h.telemetryGate,
            fun hr => ⟨((h.eventGate hr).2 _ hsection).2, nofun⟩, h.erased⟩
      · exact h
  | telemetry call faults =>
      dsimp only
      split
      · exact h
      · refine ⟨h.size_eq, h.mutex, fun hr => ⟨(h.telemetryGate hr).1, fun sec hsec => ?_⟩, h.eventGate,
          h.erased⟩
        exact (flashSection_silent (telemetryCall_silent call h.mutex (h.telemetryGate hr).1) hsec).1
  | telemetryFlash =>
      dsimp only
      split
      · next op left leaves hsection =>
          have hbefore : ¬ ResetStage.telemetryStopped.Reached s.stage := fun hr => by
            have hnil := (h.telemetryGate hr).2 _ hsection
            cases hnil
          exact h.flashes op (fun hr => hbefore (le_trans (by decide) hr)) rfl rfl
            fun hr => absurd hr hbefore
      · exact h
  | telemetryGive =>
      dsimp only
      split
      · next leaves hsection =>
          have hafter : (s.history.afterTelemetry leaves).flash = s.history.flash ∧
              (s.history.afterTelemetry leaves).telemetryMutex = true ∧
              (s.history.afterTelemetry leaves).factoryResetPending = s.history.factoryResetPending := by
            unfold Storage.afterTelemetry
            split
            · exact ⟨rfl, h.mutex, rfl⟩
            · exact ⟨rfl, by rw [h.mutex]; rfl, rfl⟩
          obtain ⟨hflash, hmutex, hpending⟩ := hafter
          refine ⟨by rw [hflash]; exact h.size_eq, hmutex, fun hr => ⟨?_, nofun⟩, h.eventGate,
            fun hr => ?_⟩
          · rw [hpending]
            exact (h.telemetryGate hr).1
          · rw [hflash]
            exact h.erased hr
      · exact h
  | flush reason =>
      dsimp only
      split
      · exact h
      · exact ⟨h.size_eq, h.mutex, h.telemetryGate, h.eventGate, h.erased⟩
  | flushFlash =>
      dsimp only
      split
      · exact ⟨h.size_eq, h.mutex, h.telemetryGate, h.eventGate, h.erased⟩
      · exact h
  | flushGive =>
      dsimp only
      split
      · exact ⟨h.size_eq, h.mutex, h.telemetryGate, h.eventGate, h.erased⟩
      · exact h
  | reset => exact h.reset haligned

lemma HistoryKept.run (h : HistoryKept size s) (haligned : size % flashSectorSize = 0)
    (actions : List ResetAction) : HistoryKept size (s.run crc32 actions) := by
  induction actions generalizing s with
  | nil => exact h
  | cons action actions ih => exact ih (h.step haligned action)

end History

/-! ### The debug log -/

/-- A slot is erased, or holds a snapshot that was let through. -/
def CleanSlot (crc32 : UInt32 → List UInt8 → UInt32) (written : List (LogRecord × Bool))
    (slot : NorFlash) : Prop :=
  slot.Erased 0 lpSlotSize ∨ ∃ r, (r, false) ∈ written ∧ r.Whole crc32 slot

/-- How far a flush has come, and what it leaves. -/
structure FlushKept (crc32 : UInt32 → List UInt8 → UInt32) (size : ℕ) (fl : Flush) : Prop where
  leaves : fl.flashing.leaves.flash.size = size
  nextSlot : fl.flashing.leaves.part = true → fl.flashing.leaves.nextSlot < size / lpSlotSize
  left : fl.flashing.left = [] ∨ ∃ slot < size / lpSlotSize,
    fl.flashing.left = [.write (slot * lpSlotSize) (recordBytes crc32 fl.snapshot)] ∨
      fl.flashing.left = [.erase (slot * lpSlotSize) lpSlotSize,
        .write (slot * lpSlotSize) (recordBytes crc32 fl.snapshot)]

/-- The debug log, which no gate stops: what its partition holds after the erase. -/
structure DebugLogKept (crc32 : UInt32 → List UInt8 → UInt32) (size : ℕ) (s : ResetSystem) : Prop where
  size_eq : s.log.flash.size = size
  nextSlot : s.log.part = true → s.log.nextSlot < size / lpSlotSize
  flush : ∀ fl ∈ s.flush, FlushKept crc32 size fl
  clean : ResetStage.logErased.Reached s.stage →
    ∀ slot < size / lpSlotSize, CleanSlot crc32 s.written (slotImage s.log.flash slot)
  writing : ResetStage.logErased.Reached s.stage → ∀ fl ∈ s.flush, ∀ slot < size / lpSlotSize,
    fl.flashing.left = [.write (slot * lpSlotSize) (recordBytes crc32 fl.snapshot)] →
      (slotImage s.log.flash slot).Erased 0 lpSlotSize

/-- The snapshots a step programs. -/
def ResetSystem.programs (s : ResetSystem) : ResetAction → List (LogRecord × Bool)
  | .flushFlash => s.flush.elim [] Flush.programs
  | _ => []

/-- The step does not program text that was logged before the reset began into the debug
log once that was erased. -/
def ResetSystem.SparesLog (s : ResetSystem) (action : ResetAction) : Prop :=
  ResetStage.logErased.Reached s.stage → ∀ p ∈ s.programs action, p.2 = false

instance (s : ResetSystem) (action : ResetAction) : Decidable (s.SparesLog action) :=
  inferInstanceAs (Decidable (_ → _))

section DebugLog

variable {crc32 : UInt32 → List UInt8 → UInt32} {size : ℕ} {s : ResetSystem}

lemma lpSlot_aligned (slot : ℕ) :
    slot * lpSlotSize % flashSectorSize = 0 ∧ lpSlotSize % flashSectorSize = 0 :=
  ⟨by rw [lpSlotSize_sectors, ← Nat.mul_assoc, Nat.mul_mod_left], by decide⟩

/-- The debug log after a flush that nothing disturbs. -/
def LogPersist.flushed (crc32 : UInt32 → List UInt8 → UInt32) (l : LogPersist) (r : LogRecord) :
    LogPersist :=
  let erased := l.flash.eraseSectors flashSectorSize (l.nextSlot * lpSlotSize) lpSlotSize fun _ => true
  { l with
    flash := erased.program (l.nextSlot * lpSlotSize) (recordBytes crc32 r)
    nextSeq := l.nextSeq + 1
    nextSlot := (l.nextSlot + 1) % l.nSlots }

/-- What a flush does when nothing fails. -/
lemma flashSection_flushLocked {l : LogPersist} (reason : UInt8) (scratch : List UInt8)
    (hpart : l.part = true) (hslot : l.nextSlot < l.nSlots) :
    flashSection (flushLocked crc32 reason (some scratch)) l [] = some
      ⟨[.erase (l.nextSlot * lpSlotSize) lpSlotSize,
        .write (l.nextSlot * lpSlotSize) (recordBytes crc32 (l.snapshot reason scratch))],
        l.flushed crc32 (l.snapshot reason scratch)⟩ := by
  set r := l.snapshot reason scratch with hr
  have hin : l.nextSlot * lpSlotSize + lpSlotSize ≤ l.flash.size := slot_le_size hslot
  have hlen := recordBytes_length_le crc32 r
  set l₁ : LogPersist := OnFlash.withFlash l ((OnFlash.flash l).eraseSectors flashSectorSize
    (l.nextSlot * lpSlotSize) lpSlotSize fun _ => true) with hl₁
  have hwritten : (writeSlot l.nextSlot (recordBytes crc32 r)) l []
      = ⟨.val (), OnFlash.withFlash l₁ ((OnFlash.flash l₁).program (l.nextSlot * lpSlotSize)
          (recordBytes crc32 r)), [],
        [((.erase (l.nextSlot * lpSlotSize) lpSlotSize, l), .none),
          ((.write (l.nextSlot * lpSlotSize) (recordBytes crc32 r), l₁), .none)]⟩ := by
    simp only [writeSlot, bind, FaultM.bind, run_erase (s := l) (lpSlot_aligned _) hin]
    rw [← hl₁, run_write (s := l₁) (by
      change l.nextSlot * lpSlotSize + _ ≤ l.flash.size
      omega)]
    rfl
  have hrun : (flushLocked crc32 reason (some scratch)) l []
      = ⟨.val true, l.flushed crc32 r, [],
        [((.erase (l.nextSlot * lpSlotSize) lpSlotSize, l), .none),
          ((.write (l.nextSlot * lpSlotSize) (recordBytes crc32 r), l₁), .none)]⟩ := by
    simp only [flushLocked, FaultM.get, bind, FaultM.bind, hpart, if_true, FaultM.attempt, ← hr,
      hwritten]
    rfl
  rw [flashSection, hrun]
  rfl

/-- A debug log without a partition flushes nothing. -/
lemma flashSection_flushLocked_off {l : LogPersist} (reason : UInt8) (scratch : List UInt8)
    (hpart : l.part = false) :
    flashSection (flushLocked crc32 reason (some scratch)) l [] = some ⟨[], l⟩ := by
  have hrun : (flushLocked crc32 reason (some scratch)) l [] = ⟨.val false, l, [], []⟩ := by
    simp only [flushLocked, FaultM.get, bind, FaultM.bind, hpart]
    rfl
  rw [flashSection, hrun]
  rfl

/-- A flush that begins. -/
lemma DebugLogKept.begun (h : DebugLogKept crc32 size s) (reason : UInt8) :
    ∀ fl ∈ s.beginFlush crc32 reason, FlushKept crc32 size fl ∧
      ∀ slot, fl.flashing.left ≠ [.write (slot * lpSlotSize) (recordBytes crc32 fl.snapshot)] := by
  intro fl hfl
  cases hpart : s.log.part with
  | false =>
      rw [ResetSystem.beginFlush, flashSection_flushLocked_off _ _ hpart] at hfl
      cases hfl
      exact ⟨⟨h.size_eq, fun hon => h.nextSlot hon, .inl rfl⟩, by rintro _ ⟨⟩⟩
  | true =>
      have hslots : s.log.nSlots = size / lpSlotSize := by
        rw [LogPersist.nSlots, h.size_eq]
      have hslot : s.log.nextSlot < s.log.nSlots := by
        rw [hslots]
        exact h.nextSlot hpart
      rw [ResetSystem.beginFlush, flashSection_flushLocked _ _ hpart hslot] at hfl
      cases hfl
      refine ⟨⟨h.size_eq, fun _ => ?_, .inr ⟨_, h.nextSlot hpart, .inr rfl⟩⟩, by rintro _ ⟨⟩⟩
      change (s.log.nextSlot + 1) % s.log.nSlots < size / lpSlotSize
      rw [← hslots]
      exact Nat.mod_lt _ (by omega)

lemma CleanSlot.append {written : List (LogRecord × Bool)} {slot : NorFlash}
    (h : CleanSlot crc32 written slot) (more : List (LogRecord × Bool)) :
    CleanSlot crc32 (written ++ more) slot :=
  h.imp_right fun ⟨r, hr, hwhole⟩ => ⟨r, List.mem_append_left _ hr, hwhole⟩

/-- A record programmed into an erased slot is whole. -/
lemma whole_program {f : NorFlash} {slot : ℕ} (r : LogRecord)
    (h : (slotImage f slot).Erased 0 lpSlotSize) :
    r.Whole crc32 (slotImage (f.program (slot * lpSlotSize) (recordBytes crc32 r)) slot) := by
  have hlen := recordBytes_length_le crc32 r
  have hle := bytes_length_le_recordBytes crc32 r
  have hread : (slotImage (f.program (slot * lpSlotSize) (recordBytes crc32 r)) slot).read 0
      (recordBytes crc32 r).length = recordBytes crc32 r := by
    rw [slotImage, NorFlash.part_program hlen]
    exact NorFlash.read_program_erased _ (h.sub le_rfl (by omega))
  have htake := NorFlash.take_drop_read (slotImage (f.program (slot * lpSlotSize)
    (recordBytes crc32 r)) slot) 0 (recordBytes crc32 r).length 0 (r.bytes crc32).length (by omega)
  rw [hread, List.drop_zero, take_recordBytes, Nat.zero_add] at htake
  exact htake.symm

/-- The next operation of a flush. -/
lemma DebugLogKept.flashes (h : DebugLogKept crc32 size s) {fl : Flush} (hfl : fl ∈ s.flush) {op : FlashOp}
    {left : List FlashOp} (hleft : fl.flashing.left = op :: left)
    (hspare : ResetStage.logErased.Reached s.stage → ∀ p ∈ fl.programs, p.2 = false) :
    DebugLogKept crc32 size { s with
      log := op.applyTo s.log
      flush := some ⟨⟨left, fl.flashing.leaves⟩, fl.snapshot, fl.beforeReset⟩
      written := s.written ++ fl.programs } := by
  have hkept := h.flush fl hfl
  have hsize : (op.applyTo s.log).flash.size = size := (FlashOp.apply_size _ _).trans h.size_eq
  rcases hkept.left with hnil | ⟨slot, hslot, hcase⟩
  · rw [hleft] at hnil
    cases hnil
  have hin : slot * lpSlotSize + lpSlotSize ≤ s.log.flash.size := by
    rw [← h.size_eq] at hslot
    exact slot_le_size hslot
  have hother : ∀ {g : NorFlash}, NorFlash.SameOutside s.log.flash g (slot * lpSlotSize) lpSlotSize →
      CleanSlot crc32 (s.written ++ fl.programs) (slotImage g slot) →
      (∀ slot' < size / lpSlotSize, CleanSlot crc32 s.written (slotImage s.log.flash slot')) →
      ∀ slot' < size / lpSlotSize, CleanSlot crc32 (s.written ++ fl.programs) (slotImage g slot') := by
    intro g hsame hself hall slot' hslot'
    by_cases heq : slot' = slot
    · rw [heq]
      exact hself
    · rw [slotImage_of_ne hsame heq]
      exact (hall slot' hslot').append _
  rcases hcase with hwrite | herase
  · -- the snapshot is programmed
    rw [hleft] at hwrite
    cases hwrite
    have hlen := recordBytes_length_le crc32 fl.snapshot
    have hflash : ((FlashOp.write (slot * lpSlotSize) (recordBytes crc32 fl.snapshot)).applyTo
        s.log).flash = s.log.flash.program (slot * lpSlotSize) (recordBytes crc32 fl.snapshot) :=
      FlashOp.apply_write (by
        change _ ≤ s.log.flash.size
        omega)
    have hprograms : fl.programs = [(fl.snapshot, fl.beforeReset)] := by
      rw [Flush.programs, hleft]
    refine ⟨hsize, h.nextSlot, fun fl' hfl' => ?_, fun hr => ?_, fun hr fl' hfl' slot' _ hleft' => ?_⟩
    · cases hfl'
      exact ⟨hkept.leaves, hkept.nextSlot, .inl rfl⟩
    · have hmark := hspare hr (fl.snapshot, fl.beforeReset) (by
        rw [hprograms]
        exact List.mem_singleton_self _)
      have hwhole : fl.snapshot.Whole crc32 (slotImage (s.log.flash.program (slot * lpSlotSize)
          (recordBytes crc32 fl.snapshot)) slot) :=
        whole_program fl.snapshot (h.writing hr fl hfl slot hslot hleft)
      refine hother ?_ (.inr ⟨fl.snapshot, ?_, ?_⟩) (h.clean hr)
      · rw [hflash]
        exact NorFlash.SameOutside.program _ _ hlen
      · rw [hprograms]
        dsimp only at hmark
        rw [hmark]
        exact List.mem_append_right _ (List.mem_singleton_self _)
      · rwa [hflash]
    · cases hfl'
      cases hleft'
  · -- the slot is erased
    rw [hleft] at herase
    cases herase
    have hflash : ((FlashOp.erase (slot * lpSlotSize) lpSlotSize).applyTo s.log).flash
        = s.log.flash.eraseSectors flashSectorSize (slot * lpSlotSize) lpSlotSize fun _ => true :=
      FlashOp.apply_erase (lpSlot_aligned slot) hin
    have herased := erased_slotImage s.log.flash slot
    refine ⟨hsize, h.nextSlot, fun fl' hfl' => ?_, fun hr => ?_, fun hr fl' hfl' slot' _ hleft' => ?_⟩
    · cases hfl'
      exact ⟨hkept.leaves, hkept.nextSlot, .inr ⟨slot, hslot, .inl rfl⟩⟩
    · refine hother ?_ (.inl ?_) (h.clean hr)
      · rw [hflash]
        exact NorFlash.SameOutside.eraseSectors _ _ _ _ _
      · rwa [hflash]
    · cases hfl'
      have heq : slot * lpSlotSize = slot' * lpSlotSize := by
        have hop := (List.cons.inj hleft').1
        exact (FlashOp.write.inj hop).1
      have hsame : slot = slot' := Nat.eq_of_mul_eq_mul_right (by decide) heq
      rw [← hsame]
      change (slotImage ((FlashOp.erase (slot * lpSlotSize) lpSlotSize).applyTo s.log).flash
        slot).Erased 0 lpSlotSize
      rwa [hflash]

/-- The reset task goes on. -/
lemma DebugLogKept.reset (h : DebugLogKept crc32 size s) (haligned : size % flashSectorSize = 0) :
    DebugLogKept crc32 size s.resetStep := by
  have hearly : ∀ {t : ResetStage}, t.rank < 4 → ¬ ResetStage.logErased.Reached t := fun ht =>
    not_reached ht
  unfold ResetSystem.resetStep
  split
  case h_1 hstage =>
    exact ⟨h.size_eq, h.nextSlot, h.flush, fun hr => absurd hr (hearly (t := .begun) (by decide)),
      fun hr => absurd hr (hearly (t := .begun) (by decide))⟩
  case h_2 hstage =>
    split
    · exact h
    · exact ⟨h.size_eq, h.nextSlot, h.flush,
        fun hr => absurd hr (hearly (t := .telemetryStopped) (by decide)),
        fun hr => absurd hr (hearly (t := .telemetryStopped) (by decide))⟩
  case h_3 hstage =>
    split
    · exact h
    · exact ⟨h.size_eq, h.nextSlot, h.flush,
        fun hr => absurd hr (hearly (t := .eventsStopped) (by decide)),
        fun hr => absurd hr (hearly (t := .eventsStopped) (by decide))⟩
  case h_4 hstage =>
    have hsize : ((FlashOp.erase 0 s.log.flash.size).applyTo s.log).flash.size = size :=
      (FlashOp.apply_size _ _).trans h.size_eq
    have herased : ∀ slot < size / lpSlotSize,
        (slotImage ((FlashOp.erase 0 s.log.flash.size).applyTo s.log).flash slot).Erased 0
          lpSlotSize := by
      intro slot hslot
      rw [← h.size_eq] at hslot haligned
      exact NorFlash.erased_part ((FlashOp.erased_apply_erase haligned).sub (Nat.zero_le _)
        (by rw [Nat.zero_add]; exact slot_le_size hslot))
    exact ⟨hsize, h.nextSlot, h.flush, fun _ slot hslot => .inl (herased slot hslot),
      fun _ _ _ slot hslot _ => herased slot hslot⟩
  case h_5 hstage =>
    have hr : ResetStage.logErased.Reached s.stage := by
      rw [hstage]
      decide
    exact ⟨h.size_eq, h.nextSlot, h.flush, fun _ => h.clean hr, fun _ => h.writing hr⟩
  case h_6 hstage =>
    have hr : ResetStage.logErased.Reached s.stage := by
      rw [hstage]
      decide
    exact ⟨h.size_eq, h.nextSlot, h.flush, fun _ => h.clean hr, fun _ => h.writing hr⟩
  case h_7 hstage => exact h

/-- A step that spares the debug log keeps it clean. -/
lemma DebugLogKept.step (h : DebugLogKept crc32 size s) (haligned : size % flashSectorSize = 0)
    {action : ResetAction} (hspare : s.SparesLog action) : DebugLogKept crc32 size (s.step crc32 action) := by
  have hsame : ∀ {s' : ResetSystem}, s'.log = s.log → s'.flush = s.flush → s'.written = s.written →
      s'.stage = s.stage → DebugLogKept crc32 size s' := by
    intro s' hlog hflush hwritten hstage
    refine ⟨?_, ?_, ?_, ?_, ?_⟩
    · rw [hlog]
      exact h.size_eq
    · rw [hlog]
      exact h.nextSlot
    · rw [hflush]
      exact h.flush
    · rw [hstage, hwritten, hlog]
      exact h.clean
    · rw [hstage, hflush, hlog]
      exact h.writing
  unfold ResetSystem.step
  split
  · exact h
  cases action with
  | log text => exact hsame rfl rfl rfl rfl
  | clearLog => exact hsame rfl rfl rfl rfl
  | event call faults =>
      dsimp only
      split
      · exact h
      · exact hsame rfl rfl rfl rfl
  | eventFlash =>
      dsimp only
      split
      · exact hsame rfl rfl rfl rfl
      · exact h
  | eventGive =>
      dsimp only
      split
      · exact hsame rfl rfl rfl rfl
      · exact h
  | telemetry call faults =>
      dsimp only
      split
      · exact h
      · exact hsame rfl rfl rfl rfl
  | telemetryFlash =>
      dsimp only
      split
      · exact hsame rfl rfl rfl rfl
      · exact h
  | telemetryGive =>
      dsimp only
      split
      · exact hsame rfl rfl rfl rfl
      · exact h
  | flush reason =>
      dsimp only
      split
      · exact h
      · exact ⟨h.size_eq, h.nextSlot, fun fl hfl => (h.begun reason fl hfl).1, h.clean,
          fun _ fl hfl slot _ hleft => absurd hleft ((h.begun reason fl hfl).2 slot)⟩
  | flushFlash =>
      dsimp only
      split
      · next op left leaves snapshot beforeReset hflush =>
          refine h.flashes hflush rfl fun hr => ?_
          have hprograms := hspare hr
          rwa [ResetSystem.programs, hflush] at hprograms
      · exact h
  | flushGive =>
      dsimp only
      split
      · next leaves snapshot beforeReset hflush =>
          exact ⟨h.size_eq, fun hpart => (h.flush _ hflush).nextSlot hpart, nofun, h.clean, nofun⟩
      · exact h
  | reset => exact h.reset haligned

end DebugLog

/-! ### Nothing is left -/

section Main

variable (crc32 : UInt32 → List UInt8 → UInt32)

/-- Every step of the run spares the debug log. -/
def ResetSystem.LateFlushesClean : ResetSystem → List ResetAction → Prop
  | _, [] => True
  | s, action :: actions =>
      s.SparesLog action ∧ ResetSystem.LateFlushesClean (s.step crc32 action) actions

/-- Whether every step does can be computed. -/
def ResetSystem.decideLateFlushes : (s : ResetSystem) → (actions : List ResetAction) →
    Decidable (s.LateFlushesClean crc32 actions)
  | _, [] => .isTrue trivial
  | s, action :: actions =>
      have := ResetSystem.decideLateFlushes (s.step crc32 action) actions
      inferInstanceAs (Decidable (s.SparesLog action ∧ _))

instance (s : ResetSystem) (actions : List ResetAction) :
    Decidable (s.LateFlushesClean crc32 actions) := s.decideLateFlushes crc32 actions

/-- The device as its boot leaves it, before the reset: no task is in a section, the
storage module has created its mutex, and the partitions are those of the partition
table. -/
structure ResetSystem.Booted (s : ResetSystem) : Prop where
  idle : s.stage = .idle
  eventSection : s.eventSection = none
  telemetrySection : s.telemetrySection = none
  flush : s.flush = none
  telemetryMutex : s.history.telemetryMutex = true
  nextSlot : s.log.part = true → s.log.nextSlot < s.log.nSlots
  historySize : historyEventRegionSize ≤ s.history.flash.size
  historyAligned : s.history.flash.size % flashSectorSize = 0
  logAligned : s.log.flash.size % flashSectorSize = 0

/-- The next boot finds no event and no sample, and loads no snapshot but one that holds
no text logged before the reset began. -/
structure NothingLeft (s : ResetSystem) : Prop where
  events : ∀ inputs, (s.nextBoot crc32 inputs).eventEntries = []
  telemetry : ∀ inputs r, (s.nextBoot crc32 inputs).telemetry = .val r → r.1 = []
  debugLog : ∀ inputs, ∀ text ∈ (s.nextBoot crc32 inputs).previousText,
    ∃ r, (r, false) ∈ s.written ∧ text = r.text ∧
      (s.nextBoot crc32 inputs).previousInfo = prevInfoOf (r.header crc32)

variable {crc32}

lemma DebugLogKept.run {size : ℕ} {s : ResetSystem} (h : DebugLogKept crc32 size s)
    (haligned : size % flashSectorSize = 0) {actions : List ResetAction}
    (hclean : s.LateFlushesClean crc32 actions) : DebugLogKept crc32 size (s.run crc32 actions) := by
  induction actions generalizing s with
  | nil => exact h
  | cons action actions ih => exact ih (h.step haligned hclean.1) hclean.2

/-- The scan accepts in a clean slot only the snapshot it holds. -/
lemma CleanSlot.accepted {written : List (LogRecord × Bool)} {slot : NorFlash} {hdr : LpHeader}
    (h : CleanSlot crc32 written slot) (hacc : acceptedHeader crc32 slot = some hdr) :
    ∃ r, (r, false) ∈ written ∧ hdr = r.header crc32 ∧
      slot.read lpHeader.size hdr.len.toNat = r.text := by
  rcases h with herased | ⟨r, hr, hwhole⟩
  · rw [accepted_of_erased (herased.sub le_rfl (by rw [Nat.zero_add]; exact lpHeader_le_slot))] at hacc
    cases hacc
  · have hhdr : hdr = r.header crc32 := by
      rw [← hwhole.header]
      simp only [acceptedHeader] at hacc
      split at hacc
      · cases hacc
      split at hacc
      · cases hacc
      split at hacc
      · cases hacc
      · exact (Option.some.inj hacc).symm
    refine ⟨r, hr, hhdr, ?_⟩
    rw [hhdr, r.len_toNat]
    exact hwhole.text

lemma ResetSystem.Booted.historyKept {s : ResetSystem} (h : s.Booted) :
    HistoryKept s.history.flash.size s where
  size_eq := rfl
  mutex := h.telemetryMutex
  telemetryGate hr := by
    rw [h.idle] at hr
    exact absurd hr (by decide)
  eventGate hr := by
    rw [h.idle] at hr
    exact absurd hr (by decide)
  erased hr := by
    rw [h.idle] at hr
    exact absurd hr (by decide)

lemma ResetSystem.Booted.logKept {s : ResetSystem} (h : s.Booted) :
    DebugLogKept crc32 s.log.flash.size s where
  size_eq := rfl
  nextSlot := h.nextSlot
  flush fl hfl := by
    rw [h.flush] at hfl
    cases hfl
  clean hr := by
    rw [h.idle] at hr
    exact absurd hr (by decide)
  writing hr := by
    rw [h.idle] at hr
    exact absurd hr (by decide)

/-- The history partition is erased at the restart. -/
lemma history_erased {s : ResetSystem} (hbooted : s.Booted) {actions : List ResetAction}
    (hdone : (s.run crc32 actions).stage = .restarted) :
    (s.run crc32 actions).history.flash.Erased 0 (s.run crc32 actions).history.flash.size ∧
      262144 ≤ (s.run crc32 actions).history.flash.size := by
  have hkept : HistoryKept s.history.flash.size (s.run crc32 actions) :=
    hbooted.historyKept.run hbooted.historyAligned actions
  rw [hkept.size_eq, ← historyEventRegionSize_eq]
  exact ⟨hkept.erased (by rw [hdone]; decide), hbooted.historySize⟩

/-- **A factory reset leaves no history behind**, as long as no flush programs text that
was logged before it began into the debug log it has erased. The event log and telemetry
are stopped by their gates, wherever their tasks stand. -/
theorem reset_leaves_nothing {s : ResetSystem} (hbooted : s.Booted) {actions : List ResetAction}
    (hclean : s.LateFlushesClean crc32 actions) (hdone : (s.run crc32 actions).stage = .restarted) :
    NothingLeft crc32 (s.run crc32 actions) := by
  obtain ⟨herased, hsize⟩ := history_erased hbooted hdone
  have hlog : DebugLogKept crc32 s.log.flash.size (s.run crc32 actions) :=
    hbooted.logKept.run hbooted.logAligned hclean
  refine ⟨fun inputs => ?_, fun inputs r hr => ?_, fun inputs text htext => ?_⟩
  · exact (restoreEvents_erased herased hsize inputs.bootId inputs.eventFaults fun _ _ => trivial).1.1
  · have hblank := (restoreEvents_erased herased hsize inputs.bootId inputs.eventFaults
      fun _ _ => trivial).1.2
    exact (queryTelemetry_erased hblank _ _ _ inputs.telemetryFaults fun _ _ => trivial).1 r hr
  · have hfound := @logPersistInit_found crc32 (s.run crc32 actions).log.flash inputs.logBootId
      inputs.logFaults fun _ _ => trivial
    obtain ⟨slot, hslot, hdr, hacc, hinfo, hread⟩ := hfound.1 text htext
    rw [hlog.size_eq] at hslot
    obtain ⟨r, hr, rfl, htextEq⟩ := (hlog.clean (by rw [hdone]; decide) slot hslot).accepted hacc
    exact ⟨r, hr, hread.trans htextEq, hinfo⟩

/-- A device with blank partitions of the sizes of the partition table. -/
def blankDevice : ResetSystem where
  history := { flash := .blank (2 * 1024 * 1024), telemetryMutex := true }
  events := { mutex := true }
  log := { flash := .blank (512 * 1024), part := true }

lemma blankDevice_booted : blankDevice.Booted where
  idle := rfl
  eventSection := rfl
  telemetrySection := rfl
  flush := rfl
  telemetryMutex := rfl
  nextSlot _ := by decide
  historySize := by decide
  historyAligned := by decide
  logAligned := by decide

/-- A line logged before the reset is flushed before it as well; the flush after the erase
of the debug log finds the ring cleared and a new line in it. -/
def quietReset : List ResetAction :=
  [.log [0x41, 0x0A], .flush 0, .flushFlash, .flushFlash, .flushGive, .reset, .reset, .reset,
    .reset, .clearLog, .log [0x42, 0x0A], .flush 0, .flushFlash, .flushFlash, .flushGive, .reset,
    .reset]

theorem reset_leaves_nothing_quiet :
    NothingLeft espCrc32Le (blankDevice.run espCrc32Le quietReset) :=
  reset_leaves_nothing blankDevice_booted (by decide +kernel) (by decide +kernel)

/-- A line is logged, and after the erase of the debug log the heartbeat of the log task
flushes the ring. -/
def flushedReset : List ResetAction :=
  [.log [0x41, 0x0A], .reset, .reset, .reset, .reset, .flush 0, .flushFlash, .flushFlash,
    .flushGive, .reset, .reset]

/-- The snapshot of a heartbeat that comes after the erase survives the reset, with what
was logged before. -/
theorem late_flush_survives : ¬ ∀ (s : ResetSystem) (actions : List ResetAction), s.Booted →
    (s.run espCrc32Le actions).stage = .restarted →
      NothingLeft espCrc32Le (s.run espCrc32Le actions) := by
  intro h
  have hleft := h blankDevice flushedReset blankDevice_booted (by decide +kernel)
  have hfound : ((blankDevice.run espCrc32Le flushedReset).nextBoot espCrc32Le
      ⟨1, 2, 0, 1, 1, [], [], []⟩).previousText = some [0x41, 0x0A] := by decide +kernel
  have hmarks : (blankDevice.run espCrc32Le flushedReset).written.map (·.2) = [true] := by
    decide +kernel
  obtain ⟨r, hr, -⟩ := hleft.debugLog _ _ hfound
  have hfalse : false ∈ (blankDevice.run espCrc32Le flushedReset).written.map (·.2) :=
    List.mem_map_of_mem hr
  rw [hmarks] at hfalse
  cases hfalse with
  | tail _ h => cases h

end Main

end ArcticController

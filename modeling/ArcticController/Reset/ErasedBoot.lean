/-
What a boot finds on partitions that were erased.

* `SlotsErased`: no telemetry slot holds anything; `queryTelemetry_erased`: then a query
  returns no sample, whatever errors are reported to it;
* `restoreEvents_erased`: the event log comes up empty and leaves the telemetry region
  alone;
* `scanLogSlots_accepted`, `logPersistInit_found`: the debug log loads nothing but what it
  accepted in a slot.
-/
import ArcticController.History.StorageInit
import ArcticController.History.TelemetryRecovery
import ArcticController.Log.SnapshotScan

namespace ArcticController

open NorFlash (SameOutside)

/-! ### Telemetry slots -/

/-- Every byte behind the header of a telemetry sector is erased. -/
def SlotsErased (f : NorFlash) : Prop :=
  ∀ sector < telemetrySectors f, f.Erased (telemetrySectorOffset sector + telemetrySectorHeaderSize)
    (flashSectorSize - telemetrySectorHeaderSize)

variable {f : NorFlash} {s : Storage}

lemma slotsErased_of_erased (h : f.Erased 0 f.size) : SlotsErased f := by
  intro sector hsector
  have hin : (sector + 1) * flashSectorSize ≤ f.size - telemetryRegionOffset :=
    (Nat.le_div_iff_mul_le (by decide)).mp hsector
  refine h.sub (Nat.zero_le _) ?_
  rw [telemetrySectorOffset_eq, flashSectorSize, telemetrySectorHeaderSize]
  rw [flashSectorSize, telemetryRegionOffset, historyEventRegionSize_eq] at hin
  omega

/-- Erasing leaves what is erased erased. -/
lemma SlotsErased.eraseSectors (h : SlotsErased f) (ss off len : ℕ) (sel : ℕ → Bool) :
    SlotsErased (f.eraseSectors ss off len sel) := fun sector hsector i hi => by
  rw [NorFlash.eraseSectors_cell]
  split
  · rfl
  · exact h sector hsector i hi

/-- What is programmed outside the slots leaves them erased. -/
lemma SlotsErased.program (h : SlotsErased f) {off : ℕ} {bs : List UInt8}
    (hout : ∀ sector, off + bs.length ≤ telemetrySectorOffset sector + telemetrySectorHeaderSize ∨
      telemetrySectorOffset (sector + 1) ≤ off) :
    SlotsErased (f.program off bs) := by
  intro sector hsector
  refine (h sector hsector).program_of_disjoint ?_
  have hsec := hout sector
  rw [telemetrySectorOffset_eq, telemetrySectorOffset_eq] at hsec
  rw [telemetrySectorOffset_eq, flashSectorSize, telemetrySectorHeaderSize] at *
  omega

/-- What happens to the event region leaves the slots alone. -/
lemma SlotsErased.of_sameOutside {g : NorFlash} (h : SlotsErased f) {off len : ℕ}
    (hsame : SameOutside f g off len) (hin : off + len ≤ telemetryRegionOffset) :
    SlotsErased g := by
  intro sector hsector
  refine hsame.erased (h sector ?_) (.inr ?_)
  · rwa [telemetrySectors, hsame.size] at hsector
  · rw [telemetrySectorOffset]
    omega

/-! ### A query of erased slots -/

/-- Nothing is decoded where everything behind the header is erased. -/
lemma telemetryDecodeSlot_erased {sectorData : List UInt8}
    (h : ∀ b ∈ sectorData.drop telemetrySectorHeaderSize, b = 0xFF) (format : TelemetryFormat)
    (slot : ℕ) : telemetryDecodeSlot format sectorData slot = none := by
  have hbytes : bytesAreErased (telemetrySlotBytes format sectorData slot) = true := by
    refine List.all_eq_true.mpr fun b hb => beq_iff_eq.mpr (h b ?_)
    rw [telemetrySlotBytes, ← List.drop_drop] at hb
    exact List.mem_of_mem_drop (List.mem_of_mem_take hb)
  unfold telemetryDecodeSlot
  exact if_pos hbytes

lemma querySector_erased {sectorData : List UInt8}
    (h : ∀ b ∈ sectorData.drop telemetrySectorHeaderSize, b = 0xFF)
    (startTimestamp endTimestamp : UInt32) (capacity : ℕ) (samples : List TelemetrySample) :
    querySector startTimestamp endTimestamp capacity samples sectorData = samples := by
  rw [querySector]
  cases telemetrySectorFormat (sectorHeader sectorData) with
  | none => rfl
  | some format =>
      dsimp only
      induction List.range (telemetrySlotsIn format) with
      | nil => rfl
      | cons slot slots ih =>
          rw [List.foldl_cons, telemetryDecodeSlot_erased h]
          exact ih

/-- The bytes behind the header in the image of a sector. -/
lemma SlotsErased.sectorData (h : SlotsErased f) {sector : ℕ}
    (hsector : sector < telemetrySectors f) :
    ∀ b ∈ (f.read (telemetrySectorOffset sector) flashSectorSize).drop telemetrySectorHeaderSize,
      b = 0xFF := by
  intro b hb
  rw [show flashSectorSize = telemetrySectorHeaderSize + (flashSectorSize - telemetrySectorHeaderSize)
    from rfl, NorFlash.read_add, List.drop_left' (NorFlash.read_length _ _ _),
    (NorFlash.erased_iff_read _ _ _).mp (h sector hsector)] at hb
  exact List.eq_of_mem_replicate hb

/-- The journal of a boot that has not been opened, with nothing in its slots. -/
structure BlankTelemetry (s : Storage) : Prop where
  closed : s.telemetry.initialized = false
  slots : SlotsErased s.flash

/-- Opening the partition leaves the telemetry journal alone. -/
lemma keeps_historyStorageInit : Keeps anyFaults BlankTelemetry historyStorageInit :=
  keeps_init_outsideEvents fun _ _ htelemetry hsame h =>
    ⟨htelemetry ▸ h.closed, h.slots.of_sameOutside hsame (Nat.zero_add _).le⟩

/-- The journal of a boot that is open, with nothing in the slots of its sectors. -/
structure EmptyTelemetry (s : Storage) : Prop where
  count : s.telemetry.sectorCount ≤ telemetrySectors s.flash
  slots : SlotsErased s.flash

/-- A new sector, whether its header is complete or not. -/
lemma keeps_telemetryCommitSector (sector : ℕ) (generation firstSequence : UInt32) :
    Keeps anyFaults EmptyTelemetry (telemetryCommitSector sector generation firstSequence) := by
  have hwrite : ∀ (off : ℕ) (bytes : List UInt8), off + bytes.length ≤ telemetrySectorHeaderSize →
      Keeps anyFaults EmptyTelemetry
        (espPartitionWrite (telemetrySectorOffset sector + off) bytes : HistoryM Unit) := by
    intro off bytes hin
    refine keeps_write (fun _ => trivial) fun s k hs => ⟨hs.count, hs.slots.program fun sector' => ?_⟩
    have hk : (bytes.take k).length ≤ bytes.length := List.length_take_le' _ _
    simp only [telemetrySectorOffset_eq, telemetrySectorHeaderSize] at hin ⊢
    omega
  refine (keeps_erase (fun _ => trivial) fun s sel hs => ⟨hs.count, hs.slots.eraseSectors _ _ _ _⟩).bind
    fun _ => Keeps.bind (hwrite 0 _ ?_) fun _ => hwrite _ _ ?_
  · rw [Codec.length_enc]
    decide
  · rw [Codec.length_enc]
    decide

lemma keeps_telemetryRotateLocked : Keeps anyFaults EmptyTelemetry telemetryRotateLocked :=
  keeps_get.bind fun _ => (keeps_telemetryCommitSector _ _ _).bind fun _ =>
    keeps_modify fun _ hs => ⟨hs.count, hs.slots⟩

lemma keeps_scanTelemetrySectors (left : ℕ) : ∀ (sector : ℕ) (scan : TelemetryScan),
    Keeps anyFaults EmptyTelemetry (scanTelemetrySectors left sector scan) := by
  induction left with
  | zero => exact fun _ _ => keeps_pure _
  | succ left ih => exact fun sector scan => (keeps_read fun _ => trivial).bind fun _ => ih _ _

lemma keeps_adoptTelemetryScan (scan : TelemetryScan) :
    Keeps anyFaults EmptyTelemetry (adoptTelemetryScan scan) :=
  Keeps.ite
    ((keeps_telemetryCommitSector _ _ _).bind fun _ => keeps_modify fun _ hs => ⟨hs.count, hs.slots⟩)
    ((keeps_modify fun _ hs => ⟨hs.count, hs.slots⟩).bind fun _ =>
      Keeps.ite
        (keeps_telemetryRotateLocked.bind fun _ => keeps_modify fun _ hs => ⟨hs.count, hs.slots⟩)
        (keeps_modify fun _ hs => ⟨hs.count, hs.slots⟩))

/-- Opening a blank journal leaves its slots erased. -/
lemma wp_telemetryInitialize_blank (h : BlankTelemetry s) :
    wp anyFaults (do ensureTelemetryMutex; telemetryInitializeLocked : HistoryM Unit)
      (fun o s' => o = .val () → EmptyTelemetry s') s := by
  refine wp_bind (wp_mono (keeps_get.bind (fun _ => Keeps.ite (keeps_pure _) keeps_historyStorageInit)
    s h) fun o s₁ h₁ => ?_)
  cases o with
  | err e => exact fun h => by cases h
  | cut => exact fun h => by cases h
  | val _ =>
      rw [andThen_val]
      refine wp_get_bind ?_
      by_cases hpending : s₁.factoryResetPending = true
      · exact wp_if_pos hpending (wp_throw fun h => by cases h)
      refine wp_if_neg hpending (wp_if_neg (by rw [h₁.closed]; decide) ?_)
      refine wp_bind (wp_mono (keeps_historyStorageInit s₁ h₁) fun o s₂ h₂ => ?_)
      cases o with
      | err e => exact fun h => by cases h
      | cut => exact fun h => by cases h
      | val _ =>
          rw [andThen_val]
          refine wp_get_bind ?_
          by_cases hsize : s₂.flash.size ≤ telemetryRegionOffset
          · exact wp_if_pos hsize (wp_throw fun h => by cases h)
          refine wp_if_neg hsize (wp_modify_bind ?_)
          by_cases hcount : (s₂.flash.size - telemetryRegionOffset) / flashSectorSize = 0
          · exact wp_if_pos hcount (wp_throw fun h => by cases h)
          refine wp_if_neg hcount (wp_mono ((keeps_scanTelemetrySectors _ 0 {}).bind
            keeps_adoptTelemetryScan _ ⟨le_rfl, h₂.slots⟩) fun _ _ h₃ _ => h₃)

/-- The sectors of an empty journal are looked through without a match. -/
lemma wp_queryTelemetrySectors_empty {startTimestamp endTimestamp : UInt32} {capacity : ℕ}
    (h : SlotsErased s.flash) (left : ℕ) : ∀ sector,
    sector + left ≤ telemetrySectors s.flash →
    wp anyFaults (queryTelemetrySectors startTimestamp endTimestamp capacity left sector [])
      (fun o _ => ∀ r, o = .val r → r.1 = []) s := by
  induction left with
  | zero =>
      intro sector _
      exact wp_pure fun r hr => by
        cases hr
        rfl
  | succ left ih =>
      intro sector hin
      have hsector : sector < telemetrySectors s.flash := by omega
      have hsize := telemetrySector_inside hsector
      refine wp_bind (wp_attempt (wp_mono (wp_read (R := anyFaults) trivial hsize) fun o s' ho => ?_))
      cases o with
      | cut => exact fun r hr => by cases hr
      | err e =>
          obtain ⟨-, rfl⟩ := ho
          rw [attempted_err, andThen_val]
          exact wp_pure fun r hr => by
            cases hr
            rfl
      | val sectorData =>
          rw [ends_val] at ho
          obtain ⟨hdata, hs'⟩ := ho
          subst hs'
          rw [attempted_val, andThen_val]
          dsimp only
          rw [hdata]
          change wp anyFaults (queryTelemetrySectors _ _ _ _ _ (querySector _ _ _ []
            (s'.flash.read (telemetrySectorOffset sector) flashSectorSize))) _ _
          rw [querySector_erased (h.sectorData hsector)]
          exact ih (sector + 1) (by omega)

/-- A query of a journal with nothing in its slots returns no sample. -/
lemma queryTelemetry_erased (h : BlankTelemetry s) (startTimestamp endTimestamp : UInt32)
    (capacity : ℕ) :
    wp anyFaults (historyStorageQueryTelemetry startTimestamp endTimestamp capacity)
      (fun o _ => ∀ r, o = .val r → r.1 = []) s := by
  have hnil : ∀ e : EspErr, ∀ r, Outcome.val (ε := EspErr)
      (([], .error e) : List TelemetrySample × Except EspErr Unit) = .val r → r.1 = [] := by
    intro e r hr
    cases hr
    rfl
  by_cases hargs : capacity = 0 ∨ startTimestamp ≥ endTimestamp
  · exact wp_if_pos hargs (wp_pure (hnil _))
  refine wp_if_neg hargs (wp_bind (wp_attempt (wp_mono (wp_telemetryInitialize_blank h)
    fun o s₁ h₁ => ?_)))
  cases o with
  | cut => exact fun r hr => by cases hr
  | err e =>
      rw [attempted_err, andThen_val]
      exact wp_pure (hnil _)
  | val _ =>
      have hempty := h₁ rfl
      rw [attempted_val, andThen_val]
      refine wp_get_bind (wp_bind (wp_mono (wp_queryTelemetrySectors_empty hempty.slots _ 0
        (by rw [Nat.zero_add]; exact hempty.count)) fun o s₂ h₂ => ?_))
      cases o with
      | cut => exact fun r hr => by cases hr
      | err e => exact fun r hr => by cases hr
      | val r =>
          obtain ⟨samples, status⟩ := r
          have hsamples : samples = [] := h₂ _ rfl
          subst hsamples
          rw [andThen_val]
          dsimp only
          split
          · exact wp_pure fun r hr => by
              cases hr
              exact List.mergeSort_nil
          · exact wp_pure fun r hr => by
              cases hr
              rfl

/-! ### The event log -/

/-- No bank of an erased partition is committed. -/
lemma activeBankOf_erased (h : f.Erased 0 f.size) (hsize : 262144 ≤ f.size) :
    activeBankOf f = none := by
  have hcell : ∀ b, IsBank b → headerValid (headerAt f b) = false := fun b hb => by
    have hle := hb.offset_le
    have hin := h (bankOffset b + 15) (by omega)
    rw [Nat.zero_add] at hin
    exact headerValid_of_erased hin
  rw [activeBankOf, chooseBank, hcell 0 (.inl rfl), hcell 1 (.inr rfl)]
  rfl

/-- A bank with no record is replayed to nothing. -/
lemma wp_replayActiveBank_empty {capacity : ℕ}
    (hslot : s.flash.Erased (recordOffset s.activeBank 0) eventRecordSize)
    (hin : recordOffset s.activeBank 0 + eventRecordSize ≤ s.flash.size) :
    wp anyFaults (replayActiveBank capacity)
      (fun o s' => (s'.flash = s.flash ∧ s'.telemetry = s.telemetry) ∧
        ∀ r, o = .val r → r.1.events = []) s := by
  refine wp_modify_bind (wp_bind ?_)
  rw [eventRecordsPerBank_eq]
  refine wp_get_bind (wp_bind (wp_attempt (wp_mono (wp_read (R := anyFaults) trivial hin)
    fun o s' ho => ?_)))
  cases o with
  | cut =>
      obtain ⟨-, rfl⟩ := ho
      exact ⟨⟨rfl, rfl⟩, fun r hr => by cases hr⟩
  | err e =>
      obtain ⟨-, rfl⟩ := ho
      rw [attempted_err, andThen_val]
      refine wp_pure ?_
      rw [andThen_val]
      exact wp_pure ⟨⟨rfl, rfl⟩, fun r hr => by
        cases hr
        rfl⟩
  | val bytes =>
      rw [ends_val] at ho
      obtain ⟨hbytes, hs'⟩ := ho
      subst hs'
      have herased : bytesAreErased bytes = true := by
        rw [hbytes]
        exact (bytesAreErased_iff _).mpr (by
          rw [NorFlash.read_length]
          exact (NorFlash.erased_iff_read _ _ _).mp hslot)
      rw [attempted_val, andThen_val]
      dsimp only
      refine wp_if_pos herased (wp_modify_bind (wp_pure ?_))
      rw [andThen_val]
      exact wp_pure ⟨⟨rfl, rfl⟩, fun r hr => by
        cases hr
        rfl⟩

/-- An event log that was restored from nothing is empty. -/
lemma EventLog.entries_restored (log : EventLog) {out : LoadedEvents} (hout : out.events = [])
    (ok : Bool) : (log.restored out ok).entries = [] := by
  rw [EventLog.entries, EventLog.restored, hout]
  cases ok with
  | false => exact ringList_zero _ _ _
  | true => exact ringList_zero _ _ _

/-- On an erased partition the event log comes up empty, and telemetry finds its region
untouched. -/
lemma restoreEvents_erased (h : f.Erased 0 f.size) (hsize : 262144 ≤ f.size) (bootId : UInt32) :
    wp anyFaults (restoreEvents bootId)
      (fun _ w' => w'.2.entries = [] ∧ BlankTelemetry w'.1) (unbooted f) := by
  have hblank : BlankTelemetry { flash := f } := ⟨rfl, slotsErased_of_erased h⟩
  have hempty : ({ mutex := true, bootId := bootId } : EventLog).entries = [] := ringList_zero _ _ _
  refine wp_modify_bind (wp_bind (wp_attempt (wp_zoom (wp_mono
    (wp_and (wp_historyStorageInit (fun _ _ => trivial) hsize) (keeps_historyStorageInit _ hblank))
    fun o s₁ ho => ?_))))
  obtain ⟨hinit, hkept⟩ := ho
  cases o with
  | cut => exact ⟨hempty, hkept⟩
  | err e =>
      rw [attempted_err, andThen_val]
      exact wp_pure ⟨hempty, hkept⟩
  | val _ =>
      obtain ⟨g, b, rfl, hcase⟩ := hinit
      rcases hcase with ⟨hactive, -⟩ | ⟨-, rfl, hfirst⟩
      · rw [activeBankOf_erased h hsize] at hactive
        cases hactive
      have hgsize : 262144 ≤ g.size := by
        rw [hfirst.same.size]
        exact hsize
      have hoff := recordOffset_eq 0 0
      rw [bankOffset_zero] at hoff
      rw [attempted_val, andThen_val]
      refine wp_bind (wp_zoom (wp_if_neg (by decide) (wp_bind (wp_attempt (wp_get_bind
        (wp_if_pos rfl (wp_pure ?_)))))))
      rw [attempted_val, andThen_val]
      refine wp_mono (wp_replayActiveBank_empty (s := booted g 0)
        (hfirst.holds.erased_slot le_rfl (by decide)) ?_) fun o s₂ ho => ?_
      · rw [booted_flash, booted_activeBank, hoff, eventRecordSize]
        omega
      · obtain ⟨⟨hflash, htel⟩, hout⟩ := ho
        have hblank₂ : BlankTelemetry s₂ :=
          ⟨by rw [htel]; exact hkept.closed, by rw [hflash]; exact hkept.slots⟩
        cases o with
        | cut => exact ⟨hempty, hblank₂⟩
        | err e => exact ⟨hempty, hblank₂⟩
        | val r =>
            rw [andThen_val]
            exact wp_modify ⟨EventLog.entries_restored _ (hout r rfl) _, hblank₂⟩

/-! ### The debug log -/

section DebugLog

variable {crc32 : UInt32 → List UInt8 → UInt32} {s : LogPersist}

/-- What the scan accepts fits into a slot. -/
lemma acceptedHeader_len {slot : NorFlash} {hdr : LpHeader}
    (h : acceptedHeader crc32 slot = some hdr) : lpHeader.size + hdr.len.toNat ≤ lpSlotSize := by
  simp only [acceptedHeader] at h
  split at h
  · cases h
  split at h
  · cases h
  next hlen =>
    split at h
    · cases h
    · cases h
      have hle := Nat.not_lt.mp (not_or.mp hlen).2
      rw [lpPayloadMax_eq] at hle
      change 24 + _ ≤ 32768
      omega

/-- What the scan finds in a slot is what the slot holds. -/
lemma scanLogSlot_accepted {slot : ℕ} (h : slot < s.nSlots) :
    wp anyFaults (scanLogSlot crc32 slot)
      (fun o s' => s' = s ∧
        ∀ r, o = .val r → ∀ hdr ∈ r, acceptedHeader crc32 (slotImage s.flash slot) = some hdr) s := by
  have hin := slot_le_size h
  have hhdr : s.flash.read (slot * lpSlotSize) lpHeader.size
      = (slotImage s.flash slot).read 0 lpHeader.size := by
    rw [slotImage, NorFlash.read_part (by rw [Nat.zero_add]; exact lpHeader_le_slot), Nat.add_zero]
  have hnone : ∀ r, Outcome.val (ε := EspErr) (none : Option LpHeader) = .val r →
      ∀ hdr ∈ r, acceptedHeader crc32 (slotImage s.flash slot) = some hdr := by
    intro r hr hdr hmem
    cases hr
    cases hmem
  refine wp_bind (wp_attempt (wp_mono (wp_read (R := anyFaults) trivial
    (le_trans (Nat.add_le_add_left lpHeader_le_slot _) hin)) fun o s₁ ho => ?_))
  cases o with
  | cut => exact ⟨ho.2, fun r hr => by cases hr⟩
  | err e =>
      rw [attempted_err, andThen_val, ho.2]
      exact wp_pure ⟨rfl, hnone⟩
  | val bytes =>
      rw [ends_val] at ho
      rw [attempted_val, andThen_val, ho.2, ho.1.trans hhdr]
      dsimp only
      set hdr := lpHeader.dec ((slotImage s.flash slot).read 0 lpHeader.size) with hdef
      by_cases hmagic : hdr.magic ≠ lpMagic
      · exact wp_if_pos hmagic (wp_pure ⟨rfl, hnone⟩)
      refine wp_if_neg hmagic ?_
      by_cases hlen : hdr.len = 0 ∨ lpPayloadMax < hdr.len.toNat
      · exact wp_if_pos hlen (wp_pure ⟨rfl, hnone⟩)
      have hmax : lpHeader.size + hdr.len.toNat ≤ lpSlotSize := by
        have hle := Nat.not_lt.mp (not_or.mp hlen).2
        rw [lpPayloadMax_eq] at hle
        rw [lpHeader_size, lpSlotSize]
        omega
      refine wp_if_neg hlen (wp_bind (wp_attempt (wp_mono (wp_read (R := anyFaults) trivial
        (le_trans (by rw [Nat.add_assoc]; exact Nat.add_le_add_left hmax _) hin)) fun o s₂ ho => ?_)))
      cases o with
      | cut => exact ⟨ho.2, fun r hr => by cases hr⟩
      | err e =>
          rw [attempted_err, andThen_val, ho.2]
          exact wp_pure ⟨rfl, hnone⟩
      | val payload =>
          rw [ends_val] at ho
          have hpayload : payload = (slotImage s.flash slot).read lpHeader.size hdr.len.toNat :=
            ho.1.trans (NorFlash.read_part hmax).symm
          rw [attempted_val, andThen_val, ho.2, hpayload]
          refine wp_pure ⟨rfl, fun r hr hdr' hmem => ?_⟩
          cases hr
          by_cases hcrc : crc32 0 ((slotImage s.flash slot).read lpHeader.size hdr.len.toNat) ≠ hdr.crc
          · rw [if_pos hcrc] at hmem
            cases hmem
          · rw [if_neg hcrc] at hmem
            cases hmem
            simp only [acceptedHeader, ← hdef]
            rw [if_neg hmagic, if_neg hlen, if_neg hcrc]

/-- What the scan of the slots finds is what one of them holds. -/
lemma scanLogSlots_accepted (slots : List ℕ) : ∀ (best : Option (ℕ × LpHeader)),
    (∀ slot ∈ slots, slot < s.nSlots) →
    (∀ b ∈ best, b.1 < s.nSlots ∧ acceptedHeader crc32 (slotImage s.flash b.1) = some b.2) →
    wp anyFaults (scanLogSlots crc32 slots best)
      (fun o s' => s' = s ∧ ∀ r, o = .val r → ∀ b ∈ r,
        b.1 < s.nSlots ∧ acceptedHeader crc32 (slotImage s.flash b.1) = some b.2) s := by
  induction slots with
  | nil =>
      intro best _ hbest
      exact wp_pure ⟨rfl, fun r hr => by
        cases hr
        exact hbest⟩
  | cons slot slots ih =>
      intro best hin hbest
      have hslot := hin slot List.mem_cons_self
      refine wp_bind (wp_mono (scanLogSlot_accepted hslot) fun o s₁ ho => ?_)
      obtain ⟨rfl, hfound⟩ := ho
      cases o with
      | cut => exact ⟨rfl, fun r hr => by cases hr⟩
      | err e => exact ⟨rfl, fun r hr => by cases hr⟩
      | val found =>
          rw [andThen_val]
          refine ih _ (fun slot' hs => hin slot' (List.mem_cons_of_mem _ hs)) fun b hb => ?_
          cases found with
          | none => exact hbest b hb
          | some hdr =>
              rw [newer] at hb
              split at hb
              · cases hb
                exact ⟨hslot, hfound _ rfl hdr rfl⟩
              · exact hbest b hb

/-- The snapshot the boot loads, if it loads one, is one its scan accepted. -/
lemma logPersistInit_found (f : NorFlash) (bootId : UInt32) :
    wp anyFaults (logPersistInit crc32 bootId)
      (fun _ s' => ∀ text ∈ s'.prevText, ∃ slot < f.size / lpSlotSize, ∃ hdr,
        acceptedHeader crc32 (slotImage f slot) = some hdr ∧ s'.prevInfo = prevInfoOf hdr ∧
        text = (slotImage f slot).read lpHeader.size hdr.len.toNat) { flash := f } := by
  have hno : ∀ s' : LogPersist, s'.prevText = none → ∀ text ∈ s'.prevText,
      ∃ slot < f.size / lpSlotSize, ∃ hdr,
        acceptedHeader crc32 (slotImage f slot) = some hdr ∧ s'.prevInfo = prevInfoOf hdr ∧
        text = (slotImage f slot).read lpHeader.size hdr.len.toNat := by
    intro s' hs' text htext
    rw [hs'] at htext
    cases htext
  set s₀ : LogPersist := { flash := f, bootId := bootId, part := true }
  refine wp_modify_bind (wp_get_bind ?_)
  by_cases hslots : s₀.nSlots < 1
  · exact wp_if_pos hslots (wp_modify_bind (wp_pure (hno _ rfl)))
  refine wp_if_neg hslots (wp_bind (wp_get_bind (wp_bind (wp_mono
    (scanLogSlots_accepted (s := s₀) (List.range s₀.nSlots) none
      (fun slot hs => List.mem_range.mp hs) nofun) fun o s₁ ho => ?_))))
  obtain ⟨rfl, hfound⟩ := ho
  cases o with
  | cut => exact hno _ rfl
  | err e => exact hno _ rfl
  | val best =>
      rw [andThen_val]
      cases best with
      | none =>
          refine wp_modify ?_
          rw [andThen_val]
          exact wp_pure (hno _ rfl)
      | some b =>
          obtain ⟨slot, hdr⟩ := b
          obtain ⟨hslot, hacc⟩ := hfound _ rfl _ rfl
          have hlen : lpHeader.size + hdr.len.toNat ≤ lpSlotSize := acceptedHeader_len hacc
          have hin := slot_le_size (f := f) hslot
          refine wp_bind (wp_attempt (wp_mono (wp_read (R := anyFaults) (s := s₀) trivial
            (show _ ≤ f.size by rw [Nat.add_assoc]; exact le_trans (Nat.add_le_add_left hlen _) hin))
            fun o s₂ ho => ?_))
          cases o with
          | cut =>
              rw [attempted_cut, andThen_cut, andThen_cut, ho.2]
              exact hno _ rfl
          | err e =>
              rw [attempted_err, andThen_val, ho.2]
              refine wp_modify ?_
              rw [andThen_val]
              exact wp_pure (hno _ rfl)
          | val text =>
              rw [ends_val] at ho
              rw [attempted_val, andThen_val, ho.2]
              refine wp_bind (wp_modify ?_)
              rw [andThen_val]
              refine wp_modify ?_
              rw [andThen_val]
              refine wp_pure fun text' htext => ⟨slot, hslot, hdr, hacc, rfl, ?_⟩
              cases htext
              exact ho.1.trans (NorFlash.read_part hlen).symm

end DebugLog

end ArcticController

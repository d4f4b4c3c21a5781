/-
Recovery of the telemetry journal is safe on any flash image.

* `OutsideEvents`, `keeps_init_outsideEvents`: opening the partition touches nothing but the
  event region;
* `CommittedAs`, `wp_telemetryCommitSector`: a new sector;
* `JournalRecovered`: what a recovery that succeeds has to leave;
* `wp_adoptTelemetryScan`: the journal taken over from the scan;
* `recovery_safe`: every successful recovery leaves that.
-/
import ArcticController.History.TelemetryScan

namespace ArcticController

open NorFlash (SameOutside)

/-! ### Opening the partition -/

/-- A property of the telemetry region and its statics. -/
def OutsideEvents (P : Storage → Prop) : Prop :=
  ∀ s s' : Storage, s'.telemetry = s.telemetry →
    SameOutside s.flash s'.flash 0 telemetryRegionOffset → P s → P s'

section OutsideEvents

variable {P : Storage → Prop}

lemma OutsideEvents.same {s s' : Storage} (hP : OutsideEvents P) (hs : P s)
    (htelemetry : s'.telemetry = s.telemetry) (hflash : s'.flash = s.flash) : P s' :=
  hP s s' htelemetry (hflash ▸ SameOutside.refl _ _ _) hs

lemma OutsideEvents.write (hP : OutsideEvents P) {off : ℕ} {bytes : List UInt8}
    (hin : off + bytes.length ≤ telemetryRegionOffset) :
    Keeps anyFaults P (espPartitionWrite off bytes : HistoryM Unit) := by
  refine keeps_write (fun _ => trivial) fun s k hs => hP s _ rfl ?_ hs
  have hk : (bytes.take k).length ≤ bytes.length := List.length_take_le' _ _
  exact (SameOutside.program s.flash off le_rfl).mono (Nat.zero_le _) (by omega)

lemma keeps_emptyBank_outsideEvents (hP : OutsideEvents P) :
    Keeps anyFaults P initializeEmptyBank := by
  refine (keeps_erase (fun _ => trivial) fun s sel hs => hP s _ rfl
    ((SameOutside.eraseSectors s.flash flashSectorSize 0 eventBankSize sel).mono le_rfl (by decide)) hs).bind
    fun _ => Keeps.bind ?_ fun _ => keeps_modify fun s hs => by exact hP.same hs rfl rfl
  refine (hP.write ?_).bind fun _ => hP.write ?_
  · rw [bankOffset_zero, Codec.length_enc]
    decide
  · rw [bankOffset_zero, Codec.length_enc]
    decide

lemma keeps_readHeader_outsideEvents (hP : OutsideEvents P) (bank : ℤ) :
    Keeps anyFaults P (readHeaderOrRelease bank) := by
  refine Keeps.bind (Keeps.attempt ((keeps_read fun _ => trivial).bind fun _ => keeps_pure _))
    fun r => ?_
  cases r with
  | ok header => exact keeps_pure _
  | error e => exact (keeps_modify fun s hs => by exact hP.same hs rfl rfl).bind fun _ => keeps_throw _

/-- Opening the partition leaves the telemetry region alone. -/
lemma keeps_init_outsideEvents (hP : OutsideEvents P) : Keeps anyFaults P historyStorageInit := by
  refine keeps_get.bind fun s => Keeps.ite (keeps_pure _) ?_
  refine (keeps_modify fun s hs => by exact hP.same hs rfl rfl).bind fun _ => Keeps.ite ?_ ?_
  · exact (keeps_modify fun s hs => by exact hP.same hs rfl rfl).bind fun _ => keeps_throw _
  · refine (keeps_readHeader_outsideEvents hP 0).bind fun header0 =>
      (keeps_readHeader_outsideEvents hP 1).bind fun header1 => ?_
    cases chooseBank header0 header1 with
    | none => exact keeps_emptyBank_outsideEvents hP
    | some bank => exact keeps_modify fun s hs => by exact hP.same hs rfl rfl

end OutsideEvents

/-! ### A new sector -/

/-- The header of a sector once its commit word is programmed. -/
def committedHeader (generation firstSequence : UInt32) : TelemetrySectorHeader :=
  { newSectorHeader generation firstSequence with committed := telemetryCommitted }

lemma telemetrySectorFormat_committedHeader (generation firstSequence : UInt32) :
    telemetrySectorFormat (committedHeader generation firstSequence) = some .v2 := by
  have hcrc : (committedHeader generation firstSequence).crc32
      = telemetryHeaderCrc (committedHeader generation firstSequence) := rfl
  rw [telemetrySectorFormat, hcrc, bne_self_eq_false, Bool.or_false, if_neg, if_pos]
  · rfl
  · exact Bool.false_ne_true

/-- The sector is committed with this generation, its slots are erased, and no other
sector has changed. -/
structure CommittedAs (f g : NorFlash) (sector : ℕ) (generation firstSequence : UInt32) : Prop where
  outside : SameOutside f g (telemetrySectorOffset sector) flashSectorSize
  header : sectorHeader (telemetrySectorData g sector) = committedHeader generation firstSequence
  slots : ∀ b ∈ (telemetrySectorData g sector).drop telemetrySectorHeaderSize, b = 0xFF

namespace CommittedAs

variable {f g : NorFlash} {sector : ℕ} {generation firstSequence : UInt32}

lemma format (h : CommittedAs f g sector generation firstSequence) :
    sectorFormat g sector = some .v2 := by
  rw [sectorFormat, h.header]
  exact telemetrySectorFormat_committedHeader generation firstSequence

lemma generation_eq (h : CommittedAs f g sector generation firstSequence) :
    sectorGeneration g sector = generation := by
  rw [sectorGeneration, h.header]
  rfl

lemma erased (h : CommittedAs f g sector generation firstSequence) (format : TelemetryFormat)
    (slot : ℕ) : bytesAreErased (telemetrySlotBytes format (telemetrySectorData g sector) slot)
      = true := by
  refine List.all_eq_true.mpr fun b hb => beq_iff_eq.mpr (h.slots b ?_)
  rw [telemetrySlotBytes, ← List.drop_drop] at hb
  exact List.mem_of_mem_drop (List.mem_of_mem_take hb)

lemma samples (h : CommittedAs f g sector generation firstSequence) :
    sectorSamples (telemetrySectorData g sector) = [] := by
  rw [sectorSamples_some h.format]
  exact (scanSectorSlots_erased 0 (Nat.zero_le _) fun slot _ _ => h.erased .v2 slot).2

/-- The other sectors read as before. -/
lemma other (h : CommittedAs f g sector generation firstSequence) {sector' : ℕ}
    (hne : sector' ≠ sector) : telemetrySectorData g sector' = telemetrySectorData f sector' := by
  refine h.outside.read_eq ?_
  rw [telemetrySectorOffset_eq, telemetrySectorOffset_eq, flashSectorSize]
  rcases Nat.lt_or_gt_of_ne hne with hlt | hgt
  · exact .inl (by omega)
  · exact .inr (by omega)

end CommittedAs

/-- The bytes of a header: everything before the commit word, and the commit word. -/
lemma enc_newSectorHeader (generation firstSequence : UInt32) :
    ∃ fore, fore.length = telemetryCommittedOffset ∧
      telemetrySectorHeader.enc (newSectorHeader generation firstSequence)
        = fore ++ Codec.u32.enc 0xFFFFFFFF ∧
      telemetrySectorHeader.enc (committedHeader generation firstSequence)
        = fore ++ Codec.u32.enc telemetryCommitted := by
  refine ⟨telemetryHeaderBody.enc (newSectorHeader generation firstSequence).body ++
    Codec.u32.enc (newSectorHeader generation firstSequence).crc32, ?_, ?_, ?_⟩
  · rw [List.length_append, Codec.length_enc, Codec.length_enc]
    rfl
  · rw [List.append_assoc]
    rfl
  · rw [List.append_assoc]
    rfl

/-- Header and commit word programmed into an erased sector. -/
lemma committedAs_program {f g : NorFlash} {sector : ℕ} {generation firstSequence : UInt32}
    (houtside : SameOutside f g (telemetrySectorOffset sector) flashSectorSize)
    (herased : g.Erased (telemetrySectorOffset sector) flashSectorSize) :
    CommittedAs f ((g.program (telemetrySectorOffset sector)
        (telemetrySectorHeader.enc (newSectorHeader generation firstSequence))).program
      (telemetrySectorOffset sector + telemetryCommittedOffset) (Codec.u32.enc telemetryCommitted))
      sector generation firstSequence := by
  obtain ⟨fore, hfore, hnew, hdone⟩ := enc_newSectorHeader generation firstSequence
  set off := telemetrySectorOffset sector with hoff
  set g1 := g.program off (telemetrySectorHeader.enc (newSectorHeader generation firstSequence))
    with hg1
  have hall : (telemetrySectorHeader.enc (newSectorHeader generation firstSequence)).length = 32 :=
    Codec.length_enc _ _
  have hword : (Codec.u32.enc telemetryCommitted).length = 4 := Codec.length_enc _ _
  have hempty : (Codec.u32.enc 0xFFFFFFFF).length = 4 := Codec.length_enc _ _
  have hsub : g.Erased off 32 := herased.sub le_rfl (by rw [flashSectorSize]; omega)
  have hread1 : g1.read off 32 = fore ++ Codec.u32.enc 0xFFFFFFFF := by
    have hread := NorFlash.read_program_erased
      (telemetrySectorHeader.enc (newSectorHeader generation firstSequence))
      (by rw [hall]; exact hsub)
    rwa [hall, ← hg1, hnew] at hread
  rw [telemetryCommittedOffset] at hfore ⊢
  have hsplit : ∀ h : NorFlash, h.read off 32 = h.read off 28 ++ h.read (off + 28) 4 := fun h => by
    rw [show (32 : ℕ) = 28 + 4 from rfl, NorFlash.read_add]
  rw [hsplit g1] at hread1
  obtain ⟨hhead, htail⟩ := List.append_inj hread1 (by rw [NorFlash.read_length, hfore])
  have hslot : g1.Erased (off + 28) 4 := by
    rw [NorFlash.erased_iff_read, htail]
    decide
  have hprog := NorFlash.read_program_erased (Codec.u32.enc telemetryCommitted)
    (by rw [hword]; exact hslot)
  rw [hword] at hprog
  have hrest : ((g1.program (off + 28) (Codec.u32.enc telemetryCommitted)).Erased (off + 32)
      (flashSectorSize - telemetrySectorHeaderSize)) := by
    refine NorFlash.Erased.program_of_disjoint (NorFlash.Erased.program_of_disjoint
      (herased.sub (by omega) ?_) (.inr (by omega))) (.inr (by omega))
    rw [flashSectorSize, telemetrySectorHeaderSize]
  refine ⟨houtside.trans ((SameOutside.program g off (by rw [hall, flashSectorSize]; omega)).trans
    ((SameOutside.program g1 (off + 28) hword.le).mono (by omega)
      (by rw [flashSectorSize]; omega))), ?_, fun b hb => ?_⟩
  · have htake : ∀ h : NorFlash, (telemetrySectorData h sector).take telemetrySectorHeaderSize
        = h.read off 32 := fun h => by
      have htake := NorFlash.take_drop_read h off flashSectorSize 0 32
        (by rw [flashSectorSize]; omega)
      rwa [List.drop_zero, Nat.add_zero] at htake
    rw [sectorHeader, htake, hsplit, NorFlash.read_program_of_disjoint (.inl (by omega)), hhead,
      hprog, ← hdone, Codec.dec_enc]
  · have hdata : (telemetrySectorData (g1.program (off + 28) (Codec.u32.enc telemetryCommitted))
        sector).drop telemetrySectorHeaderSize
        = (g1.program (off + 28) (Codec.u32.enc telemetryCommitted)).read (off + 32)
          (flashSectorSize - telemetrySectorHeaderSize) := by
      rw [telemetrySectorData, ← hoff, show flashSectorSize
        = 32 + (flashSectorSize - telemetrySectorHeaderSize) from rfl, NorFlash.read_add]
      exact List.drop_left' (NorFlash.read_length _ _ _)
    rw [hdata, (NorFlash.erased_iff_read _ _ _).mp hrest] at hb
    exact List.eq_of_mem_replicate hb

/-- A sector committed without an error. -/
lemma wp_telemetryCommitSector {s : Storage} {sector : ℕ} {generation firstSequence : UInt32}
    (hin : telemetrySectorOffset sector + flashSectorSize ≤ s.flash.size) :
    wp anyFaults (telemetryCommitSector sector generation firstSequence)
      (fun o s' => o = .val () → ∃ g, s' = { s with flash := g } ∧
        CommittedAs s.flash g sector generation firstSequence) s := by
  have haligned : telemetrySectorOffset sector % flashSectorSize = 0 ∧
      flashSectorSize % flashSectorSize = 0 := by
    rw [telemetrySectorOffset_eq, flashSectorSize]
    omega
  rw [flashSectorSize] at hin
  have hall : (telemetrySectorHeader.enc (newSectorHeader generation firstSequence)).length = 32 :=
    Codec.length_enc _ _
  have hword : (Codec.u32.enc telemetryCommitted).length = 4 := Codec.length_enc _ _
  refine wp_bind (wp_mono (wp_erase (R := anyFaults) trivial haligned hin)
    fun o s₁ h₁ => ?_)
  cases o with
  | err e => rintro ⟨⟩
  | cut => rintro ⟨⟩
  | val _ =>
      rw [ends_val] at h₁
      subst h₁
      rw [andThen_val]
      refine wp_bind (wp_mono (wp_write (R := anyFaults) trivial ?_) fun o s₂ h₂ => ?_)
      · change _ ≤ s.flash.size
        omega
      cases o with
      | err e => rintro ⟨⟩
      | cut => rintro ⟨⟩
      | val _ =>
          rw [ends_val] at h₂
          subst h₂
          rw [andThen_val]
          refine wp_mono (wp_write (R := anyFaults) trivial ?_) fun o s₃ h₃ hval => ?_
          · change _ ≤ s.flash.size
            rw [telemetryCommittedOffset]
            omega
          · subst hval
            rw [ends_val] at h₃
            have hsame : SameOutside s.flash (s.flash.eraseSectors flashSectorSize
                (telemetrySectorOffset sector) flashSectorSize fun _ => true)
                (telemetrySectorOffset sector) flashSectorSize := SameOutside.eraseSectors _ _ _ _ _
            exact ⟨_, h₃, committedAs_program hsame (NorFlash.erased_eraseSectors s.flash
              flashSectorSize (telemetrySectorOffset sector) flashSectorSize)⟩

/-! ### The journal recovered -/

/-- What a recovery that succeeds has to leave, from the image `f` it found. -/
structure JournalRecovered (f : NorFlash) (s' : Storage) : Prop where
  initialized : s'.telemetry.initialized = true
  active : s'.telemetry.activeSector < telemetrySectors f
  format : sectorFormat s'.flash s'.telemetry.activeSector = some .v2
  erased : ∀ slot < telemetrySlotsIn .v2, s'.telemetry.nextSlot ≤ slot →
    bytesAreErased (telemetrySlotBytes .v2
      (telemetrySectorData s'.flash s'.telemetry.activeSector) slot) = true
  last : LastTimestamp (telemetrySamples f (telemetrySectors f)) s'.telemetry.lastTimestamp
  sequence : SequencesLeft (telemetrySamples f (telemetrySectors f)) →
    ∀ x ∈ telemetrySamples f (telemetrySectors f), x.sequence < s'.telemetry.nextSequence
  generation : ∀ base, GenerationsFrom f (telemetrySectors f) base (2 ^ 31 - 1) →
    ∀ g, g = f ∨ g = s'.flash → ∀ sector < telemetrySectors f, sectorFormat g sector ≠ none →
      generationNewer (sectorGeneration g sector) s'.telemetry.generation = false
  newest : 0 < s'.telemetry.lastTimestamp → ∃ sector < telemetrySectors f,
    telemetrySectorData s'.flash sector = telemetrySectorData f sector ∧
      ∃ x ∈ sectorSamples (telemetrySectorData f sector), x.timestamp = s'.telemetry.lastTimestamp

/-- The generation after the greatest one is not older than any. -/
lemma generationNewer_advance {a max base : UInt32} (ha : (a - base).toNat ≤ (max - base).toNat)
    (hmax : (max - base).toNat < 2 ^ 31 - 1) : generationNewer a (advance max) = false := by
  have hdist : (advance max - base).toNat = (max - base).toNat + 1 ∨
      (advance max - base).toNat = (max - base).toNat + 2 := by
    have hm := max.toNat_lt
    have hb := base.toNat_lt
    rw [advance]
    split
    · next hzero =>
        have hwrap : (max.toNat + 1) % 2 ^ 32 = 0 := by
          have htoNat := congrArg UInt32.toNat hzero
          rwa [UInt32.toNat_add] at htoNat
        rw [UInt32.toNat_sub, show (1 : UInt32).toNat = 1 from rfl]
        rw [UInt32.toNat_sub] at hmax ⊢
        omega
    · rw [UInt32.toNat_sub, UInt32.toNat_add, show (1 : UInt32).toNat = 1 from rfl]
      rw [UInt32.toNat_sub] at hmax ⊢
      omega
  rw [← Bool.not_eq_true, generationNewer_iff, generation_sub_toNat a (advance max) base]
  omega

/-- A new active sector in place of one that did not hold the newest record. -/
lemma JournalRecovered.of_committed {f : NorFlash} {s' : Storage} {firstSequence : UInt32}
    (h : CommittedAs f s'.flash s'.telemetry.activeSector s'.telemetry.generation firstSequence)
    (hinit : s'.telemetry.initialized = true)
    (hactive : s'.telemetry.activeSector < telemetrySectors f)
    (hlast : LastTimestamp (telemetrySamples f (telemetrySectors f)) s'.telemetry.lastTimestamp)
    (hsequence : SequencesLeft (telemetrySamples f (telemetrySectors f)) →
      ∀ x ∈ telemetrySamples f (telemetrySectors f), x.sequence < s'.telemetry.nextSequence)
    (hgeneration : ∀ base, GenerationsFrom f (telemetrySectors f) base (2 ^ 31 - 1) →
      ∀ sector < telemetrySectors f, sectorFormat f sector ≠ none →
        generationNewer (sectorGeneration f sector) s'.telemetry.generation = false)
    (hnewest : 0 < s'.telemetry.lastTimestamp → ∃ sector < telemetrySectors f,
      sector ≠ s'.telemetry.activeSector ∧
        ∃ x ∈ sectorSamples (telemetrySectorData f sector),
          x.timestamp = s'.telemetry.lastTimestamp) : JournalRecovered f s' where
  initialized := hinit
  active := hactive
  format := h.format
  erased slot _ _ := h.erased .v2 slot
  last := hlast
  sequence := hsequence
  generation := by
    rintro base hbase g (rfl | rfl) sector hsector hne
    · exact hgeneration base hbase sector hsector hne
    · by_cases hsame : sector = s'.telemetry.activeSector
      · rw [hsame, h.generation_eq, ← Bool.not_eq_true, generationNewer_iff, UInt32.sub_self]
        exact fun hpos => absurd hpos.1 (lt_irrefl _)
      · rw [sectorFormat, h.other hsame] at hne
        rw [sectorGeneration, h.other hsame]
        exact hgeneration base hbase sector hsector hne
  newest hpos := by
    obtain ⟨sector, hsector, hne, hholds⟩ := hnewest hpos
    exact ⟨sector, hsector, h.other hne, hholds⟩

/-- The sectors of the region lie in the partition. -/
lemma telemetrySector_inside {f : NorFlash} {sector : ℕ} (h : sector < telemetrySectors f) :
    telemetrySectorOffset sector + flashSectorSize ≤ f.size := by
  have hmul : (sector + 1) * flashSectorSize ≤ f.size - telemetryRegionOffset :=
    (Nat.le_div_iff_mul_le (by decide)).mp h
  rw [telemetryRegionOffset, historyEventRegionSize_eq, flashSectorSize] at hmul
  rw [telemetrySectorOffset_eq, flashSectorSize]
  omega

/-- The journal taken over from the scan of a ring of two sectors or more. -/
lemma wp_adoptTelemetryScan {s : Storage} {scan : TelemetryScan}
    (hscan : ScanFound s.flash (telemetrySectors s.flash) scan)
    (hcount : s.telemetry.sectorCount = telemetrySectors s.flash)
    (htwo : 2 ≤ telemetrySectors s.flash) :
    wp anyFaults (adoptTelemetryScan scan)
      (fun o s' => o = .val () → JournalRecovered s.flash s') s := by
  cases hfound : scan.foundHeader with
  | false =>
      obtain ⟨hblank, hzero⟩ := hscan.blank hfound
      have hlast := hscan.last
      rw [hzero] at hlast
      have hsamples : telemetrySamples s.flash (telemetrySectors s.flash) = [] := by
        rw [telemetrySamples, List.flatMap_eq_nil_iff]
        exact fun sector hsector => sectorSamples_none (hblank sector (List.mem_range.mp hsector))
      refine wp_if_pos (by rw [hfound]; rfl) (wp_bind (wp_mono (wp_telemetryCommitSector
        (telemetrySector_inside (by omega))) fun o s₁ h₁ => ?_))
      cases o with
      | err e => rintro ⟨⟩
      | cut => rintro ⟨⟩
      | val _ =>
          obtain ⟨g, rfl, hcommitted⟩ := h₁ rfl
          rw [andThen_val]
          refine wp_modify fun _ => .of_committed hcommitted rfl (by dsimp only; omega) hlast
            (fun _ => ?_) (fun _ _ sector hsector hne => absurd (hblank sector hsector) hne)
            (fun hpos => absurd (show (0 : UInt32) < 0 from hpos) (by decide))
          rw [hsamples]
          rintro _ ⟨⟩
  | true =>
      have hactive := hscan.active hfound
      obtain ⟨greatest, hgreatest, hne, hgeq⟩ := hscan.greatest hfound
      have hholds : 0 < scan.lastTimestamp → ∃ x ∈ sectorSamples
          (telemetrySectorData s.flash scan.activeSector), x.timestamp = scan.lastTimestamp := by
        intro hpos
        rw [← hactive.last] at hpos ⊢
        exact hactive.newest.attained.resolve_left fun hzero => by
          rw [hzero] at hpos
          exact absurd hpos (by decide)
      have hbelow : ∀ base, GenerationsFrom s.flash (telemetrySectors s.flash) base (2 ^ 31 - 1) →
          (scan.maxGeneration - base).toNat < 2 ^ 31 - 1 ∧
          ∀ sector < telemetrySectors s.flash, sectorFormat s.flash sector ≠ none →
            (sectorGeneration s.flash sector - base).toNat ≤ (scan.maxGeneration - base).toNat := by
        intro base hbase
        refine ⟨hgeq ▸ hbase greatest hgreatest hne, hscan.generation base fun sector hsector hne => ?_⟩
        have hlt := hbase sector hsector hne
        omega
      refine wp_if_neg (by rw [hfound]; decide) (wp_modify_bind ?_)
      by_cases hformat : scan.activeFormat = some .v2
      · refine wp_if_neg (not_not.mpr hformat) (wp_modify fun _ => ?_)
        refine ⟨rfl, hactive.lt, hactive.format.trans hformat, hactive.erased .v2 hformat,
          hscan.last, hscan.sequence, ?_, fun hpos => ⟨scan.activeSector, hactive.lt, rfl,
            hholds hpos⟩⟩
        rintro base hbase g hg sector hsector hsome
        have hgf : g = s.flash := by
          cases hg with
          | inl hg => exact hg
          | inr hg => exact hg
        subst hgf
        obtain ⟨hmax, hle⟩ := hbelow base hbase
        have hlt := hle sector hsector hsome
        have hsectorHalf : (sectorGeneration s.flash sector - base).toNat < 2 ^ 31 := by omega
        have hmaxHalf : (scan.maxGeneration - base).toNat < 2 ^ 31 := by omega
        change generationNewer (sectorGeneration s.flash sector) scan.maxGeneration = false
        rw [← Bool.not_eq_true, generationNewer_iff_lt hsectorHalf hmaxHalf]
        exact not_lt.mpr hlt
      · refine wp_if_pos hformat ?_
        have hnext : (scan.activeSector + 1) % s.telemetry.sectorCount < telemetrySectors s.flash := by
          rw [hcount]
          exact Nat.mod_lt _ (by omega)
        have hother : scan.activeSector ≠ (scan.activeSector + 1) % s.telemetry.sectorCount := by
          have hlt := hactive.lt
          rw [hcount]
          rcases Nat.lt_or_ge (scan.activeSector + 1) (telemetrySectors s.flash) with hin | hend
          · rw [Nat.mod_eq_of_lt hin]
            omega
          · rw [show scan.activeSector + 1 = telemetrySectors s.flash by omega, Nat.mod_self]
            omega
        refine wp_bind (wp_get_bind (wp_bind (wp_mono (wp_telemetryCommitSector
          (telemetrySector_inside hnext)) fun o s₁ h₁ => ?_)))
        cases o with
        | err e => rintro ⟨⟩
        | cut => rintro ⟨⟩
        | val _ =>
            obtain ⟨g, rfl, hcommitted⟩ := h₁ rfl
            rw [andThen_val]
            refine wp_modify ?_
            rw [andThen_val]
            refine wp_modify fun _ => .of_committed hcommitted rfl hnext hscan.last hscan.sequence
              (fun base hbase sector hsector hsome => ?_)
              (fun hpos => ⟨scan.activeSector, hactive.lt, hother, hholds hpos⟩)
            obtain ⟨hmax, hle⟩ := hbelow base hbase
            exact generationNewer_advance (hle sector hsector hsome) hmax

/-! ### Recovery without faults -/

/-- The scan of a whole ring. -/
def scanRing (f : NorFlash) (n : ℕ) : TelemetryScan :=
  (List.range n).foldl (fun scan sector => scan.sector sector (telemetrySectorData f sector)) {}

lemma scanRing_succ (f : NorFlash) (n : ℕ) :
    scanRing f (n + 1) = (scanRing f n).sector n (telemetrySectorData f n) := by
  rw [scanRing, List.range_succ, List.foldl_append, List.foldl_cons, List.foldl_nil]
  rfl

lemma runs_scanTelemetrySectors {s : Storage} (left : ℕ) : ∀ (sector : ℕ),
    sector + left ≤ telemetrySectors s.flash →
    FaultM.Runs (scanTelemetrySectors left sector (scanRing s.flash sector)) s
      (scanRing s.flash (sector + left)) s := by
  induction left with
  | zero => exact fun sector _ => FaultM.runs_pure _ s
  | succ left ih =>
      intro sector hin
      have hruns := ih (sector + 1) (by omega)
      rw [scanRing_succ, show sector + 1 + left = sector + (left + 1) by omega] at hruns
      have hinside : sector < telemetrySectors s.flash := by omega
      have hread := telemetrySector_inside hinside
      exact (runs_read hread).bind hruns

/-- A sector is committed when nothing disturbs it. -/
lemma runs_telemetryCommitSector {s : Storage} {sector : ℕ} {generation firstSequence : UInt32}
    (hin : telemetrySectorOffset sector + flashSectorSize ≤ s.flash.size) :
    ∃ g, FaultM.Runs (telemetryCommitSector sector generation firstSequence) s ()
      { s with flash := g } ∧ CommittedAs s.flash g sector generation firstSequence := by
  have haligned : telemetrySectorOffset sector % flashSectorSize = 0 ∧
      flashSectorSize % flashSectorSize = 0 := by
    rw [telemetrySectorOffset_eq, flashSectorSize]
    omega
  have hall : (telemetrySectorHeader.enc (newSectorHeader generation firstSequence)).length = 32 :=
    Codec.length_enc _ _
  have hword : (Codec.u32.enc telemetryCommitted).length = 4 := Codec.length_enc _ _
  have hruns : ∃ s', FaultM.Runs (telemetryCommitSector sector generation firstSequence) s () s' := by
    refine ⟨_, FaultM.Runs.bind ⟨_, run_erase haligned hin⟩ (FaultM.Runs.bind ⟨_, run_write ?_⟩
      ⟨_, run_write ?_⟩)⟩
    · change _ ≤ s.flash.size
      rw [flashSectorSize] at hin
      omega
    · change _ ≤ s.flash.size
      rw [flashSectorSize] at hin
      rw [telemetryCommittedOffset]
      omega
  obtain ⟨s', hruns⟩ := hruns
  obtain ⟨g, hstate, hcommitted⟩ := (wp_telemetryCommitSector hin [] fun _ _ => trivial).1 hruns.out
  rw [hruns.state] at hstate
  exact ⟨g, hstate ▸ hruns, hcommitted⟩

lemma runs_telemetryRotateLocked {s : Storage}
    (hnext : (s.telemetry.activeSector + 1) % s.telemetry.sectorCount < telemetrySectors s.flash) :
    ∃ s', FaultM.Runs telemetryRotateLocked s () s' ∧
      s'.telemetry.generation = advance s.telemetry.generation ∧
      CommittedAs s.flash s'.flash ((s.telemetry.activeSector + 1) % s.telemetry.sectorCount)
        (advance s.telemetry.generation) s.telemetry.nextSequence := by
  obtain ⟨g, hcommit, hcommitted⟩ := @runs_telemetryCommitSector s _
    (advance s.telemetry.generation) s.telemetry.nextSequence (telemetrySector_inside hnext)
  exact ⟨_, (FaultM.runs_get s).bind (hcommit.bind (FaultM.runs_modify _ _)), rfl, hcommitted⟩

/-- A journal whose active sector is of the older format goes on in the next sector. -/
lemma runs_adoptTelemetryScan_v1 {s : Storage} {scan : TelemetryScan}
    (hfound : scan.foundHeader = true) (hformat : scan.activeFormat = some .v1)
    (hnext : (scan.activeSector + 1) % s.telemetry.sectorCount < telemetrySectors s.flash) :
    ∃ s', FaultM.Runs (adoptTelemetryScan scan) s () s' ∧
      s'.telemetry.generation = advance scan.maxGeneration ∧
      CommittedAs s.flash s'.flash ((scan.activeSector + 1) % s.telemetry.sectorCount)
        (advance scan.maxGeneration) scan.nextSequence := by
  have hrotate : ∃ s', FaultM.Runs telemetryRotateLocked { s with telemetry := { s.telemetry with
      activeSector := scan.activeSector
      generation := scan.maxGeneration
      nextSequence := scan.nextSequence
      nextSlot := scan.activeNextSlot
      lastTimestamp := scan.lastTimestamp } } () s' ∧
      s'.telemetry.generation = advance scan.maxGeneration ∧
      CommittedAs s.flash s'.flash ((scan.activeSector + 1) % s.telemetry.sectorCount)
        (advance scan.maxGeneration) scan.nextSequence := runs_telemetryRotateLocked hnext
  obtain ⟨s', hruns, hgeneration, hcommitted⟩ := hrotate
  refine ⟨{ s' with telemetry := { s'.telemetry with initialized := true } }, ?_, hgeneration,
    hcommitted⟩
  unfold adoptTelemetryScan
  rw [if_neg (by rw [hfound]; decide), if_pos (by rw [hformat]; nofun)]
  exact (FaultM.runs_modify _ _).bind (hruns.bind (FaultM.runs_modify _ _))

/-- Without faults the recovery adopts what the scan of the ring found. -/
lemma runs_telemetryInitializeLocked {s s' : Storage} (hpartition : s.partition = true)
    (hpending : s.factoryResetPending = false) (hclosed : s.telemetry.initialized = false)
    (hsectors : telemetrySectors s.flash ≠ 0)
    (hadopt : FaultM.Runs (adoptTelemetryScan (scanRing s.flash (telemetrySectors s.flash)))
      { s with telemetry := { s.telemetry with sectorCount := telemetrySectors s.flash } } () s') :
    FaultM.Runs telemetryInitializeLocked s () s' := by
  have hopen : FaultM.Runs historyStorageInit s () s :=
    (FaultM.runs_get s).bind (by rw [if_pos hpartition]; exact FaultM.runs_pure () s)
  have hregion : ¬ s.flash.size ≤ telemetryRegionOffset := fun hle =>
    hsectors (by rw [telemetrySectors, Nat.sub_eq_zero_of_le hle, Nat.zero_div])
  have hscan := runs_scanTelemetrySectors (s := { s with telemetry :=
    { s.telemetry with sectorCount := telemetrySectors s.flash } }) (telemetrySectors s.flash) 0 (by
      rw [Nat.zero_add])
  rw [Nat.zero_add] at hscan
  refine (FaultM.runs_get s).bind ?_
  rw [if_neg (by rw [hpending]; decide), if_neg (by rw [hclosed]; decide)]
  refine hopen.bind ((FaultM.runs_get s).bind ?_)
  rw [if_neg hregion]
  refine (FaultM.runs_modify _ _).bind ?_
  change FaultM.Runs (if telemetrySectors s.flash = 0 then _ else _) _ _ _
  rw [if_neg hsectors]
  exact hscan.bind hadopt

/-! ### Any image -/

/-- What is said of the region an image has is said of every image with the same region. -/
lemma JournalRecovered.of_sameOutside {f f' : NorFlash} {s' : Storage}
    (hsame : SameOutside f f' 0 telemetryRegionOffset) (h : JournalRecovered f' s') :
    JournalRecovered f s' := by
  have hdata : telemetrySectorData f' = telemetrySectorData f := funext fun sector =>
    hsame.read_eq (.inr (by rw [telemetrySectorOffset]; omega))
  have hsectors : telemetrySectors f' = telemetrySectors f := by
    rw [telemetrySectors, hsame.size, telemetrySectors]
  have hformat : sectorFormat f' = sectorFormat f := by
    funext sector
    rw [sectorFormat, hdata, sectorFormat]
  have hgeneration : sectorGeneration f' = sectorGeneration f := by
    funext sector
    rw [sectorGeneration, hdata, sectorGeneration]
  have hsamples : telemetrySamples f' = telemetrySamples f := by
    funext count
    rw [telemetrySamples, hdata, telemetrySamples]
  obtain ⟨hinit, hactive, hformat', herased, hlast, hsequence, hgeneration', hnewest⟩ := h
  rw [hsectors] at hactive
  rw [hsamples, hsectors] at hlast hsequence
  rw [hdata, hsectors] at hnewest
  refine ⟨hinit, hactive, hformat', herased, hlast, hsequence,
    fun base hbase g hg sector hsector hsome => ?_, hnewest⟩
  have hbase' : GenerationsFrom f' (telemetrySectors f') base (2 ^ 31 - 1) := by
    rw [GenerationsFrom, hsectors, hformat, hgeneration]
    exact hbase
  rw [← hsectors] at hsector
  cases hg with
  | inl hg =>
      rw [hg, ← hformat] at hsome
      rw [hg, ← hgeneration]
      exact hgeneration' base hbase' f' (.inl rfl) sector hsector hsome
  | inr hg => exact hgeneration' base hbase' g (.inr hg) sector hsector hsome

/-- **Recovery is safe on any image**: whatever a region of two sectors or more holds, a
recovery that succeeds leaves a committed sector of the current format with nothing behind
the next slot, the largest timestamp and a sequence and a generation beyond those on flash,
and has not erased the newest record. -/
theorem recovery_safe {s : Storage} {faults : List FlashFault}
    (hclosed : s.telemetry.initialized = false)
    (hsize : telemetryRegionOffset + 2 * flashSectorSize ≤ s.flash.size)
    (hok : (telemetryInitializeLocked s faults).out = .val ()) :
    JournalRecovered s.flash (telemetryInitializeLocked s faults).state := by
  have hregion : OutsideEvents fun s' => s'.telemetry = s.telemetry ∧
      SameOutside s.flash s'.flash 0 telemetryRegionOffset := fun s₁ s₂ htelemetry hflash h =>
    ⟨htelemetry.trans h.1, h.2.trans hflash⟩
  have hrun : wp anyFaults telemetryInitializeLocked
      (fun o s' => o = .val () → JournalRecovered s.flash s') s := by
    refine wp_get_bind ?_
    by_cases hpending : s.factoryResetPending = true
    · exact wp_if_pos hpending (wp_throw nofun)
    refine wp_if_neg hpending (wp_if_neg (by rw [hclosed]; decide) ?_)
    refine wp_bind (wp_mono (keeps_init_outsideEvents hregion s ⟨rfl, SameOutside.refl _ _ _⟩)
      fun o s₁ h₁ => ?_)
    obtain ⟨htelemetry, hsame⟩ := h₁
    cases o with
    | err e => exact nofun
    | cut => exact nofun
    | val _ =>
        have htwo : 2 ≤ telemetrySectors s₁.flash := by
          rw [telemetrySectors, hsame.size]
          exact (Nat.le_div_iff_mul_le (by decide)).mpr (by omega)
        rw [andThen_val]
        refine wp_get_bind (wp_if_neg ?_ (wp_modify_bind (wp_if_neg ?_ ?_)))
        · rw [hsame.size, flashSectorSize] at *
          omega
        · change ¬ telemetrySectors s₁.flash = 0
          omega
        · refine wp_bind (wp_mono (wp_scanTelemetrySectors _ 0 {} (scanFound_zero _))
            fun o s₂ h₂ => ?_)
          obtain ⟨rfl, hscan⟩ := h₂
          cases o with
          | err e => exact nofun
          | cut => exact nofun
          | val scan =>
              have hfound := hscan scan rfl
              rw [Nat.zero_add] at hfound
              rw [andThen_val]
              exact wp_mono (wp_adoptTelemetryScan hfound rfl htwo) fun o s' h hval =>
                (h hval).of_sameOutside hsame
  exact (hrun faults fun _ _ => trivial).1 hok

/-! ### Images of an older firmware -/

/-- The header of a sector an older firmware committed. -/
def v1SectorHeader (generation firstSequence : UInt32) : TelemetrySectorHeader :=
  let header : TelemetrySectorHeader := {
    magic := telemetrySectorMagic
    version := telemetryV1FormatVersion
    headerSize := 32
    generation := generation
    firstSequence := firstSequence
    recordSize := 32
    recordsPerSector := 127
    reserved := 0xFFFFFFFF
    crc32 := 0xFFFFFFFF
    committed := telemetryCommitted }
  { header with crc32 := telemetryHeaderCrc header }

def v1SampleRecord (timestamp sequence : UInt32) : TelemetryV1Record :=
  let record : TelemetryV1Record := {
    magic := telemetryV1RecordMagic
    sequence := sequence
    timestamp := timestamp
    sampleSequence := sequence
    inletDeciC := 300
    outletDeciC := 350
    setpointDeciC := 400
    mode := 0
    flags := 0
    tankDeciC := 0
    averagePowerW := 0xFFFF
    crc32 := 0 }
  { record with crc32 := telemetryV1RecordCrc record }

/-- A sector of an older firmware programmed into an erased one. -/
def programSector (f : NorFlash) (sector : ℕ) (generation : UInt32)
    (records : List TelemetryV1Record) : NorFlash :=
  f.program (telemetrySectorOffset sector)
    (telemetrySectorHeader.enc (v1SectorHeader generation 1) ++
      records.flatMap telemetryV1Record.enc)

/-- Two sectors with a record of the same second: the later one, of the older generation,
stands in the sector that is next. -/
def tiedJournal : Storage where
  flash := programSector (programSector (.blank (256 * 1024 + 2 * 4096)) 0 2 [v1SampleRecord 5 1]) 1 1
    [v1SampleRecord 5 2]
  partition := true

/-- Two empty sectors, almost half a turn of generations apart. -/
def wrappedJournal : Storage where
  flash := programSector (programSector (.blank (256 * 1024 + 3 * 4096)) 0 0xFFFFFFFF []) 2 0x80000000 []
  partition := true

/-- The slots of format 1 behind the records of a sector. -/
lemma slots_erased_v1 {f : NorFlash} {sector m : ℕ}
    (h : f.Erased (telemetrySectorOffset sector + 32 + m * 32) (4064 - m * 32)) (slot : ℕ)
    (hm : m ≤ slot) (hslot : slot < telemetrySlotsIn .v1) :
    bytesAreErased (telemetrySlotBytes .v1 (telemetrySectorData f sector) slot) = true := by
  have hlt : slot < 127 := hslot
  have hbytes : telemetrySlotBytes .v1 (telemetrySectorData f sector) slot
      = f.read (telemetrySectorOffset sector + (32 + slot * 32)) 32 :=
    NorFlash.take_drop_read f (telemetrySectorOffset sector) flashSectorSize (32 + slot * 32) 32
      (by rw [flashSectorSize]; omega)
  rw [hbytes, (NorFlash.erased_iff_read _ _ _).mp (h.sub (by omega) (by omega))]
  decide

/-- A sector of format 1 with nothing behind its first slots. -/
structure UsedSlots (f : NorFlash) (sector m : ℕ) : Prop where
  format : sectorFormat f sector = some .v1
  le : m ≤ telemetrySlotsIn .v1
  erased : f.Erased (telemetrySectorOffset sector + 32 + m * 32) (4064 - m * 32)

namespace UsedSlots

variable {f : NorFlash} {sector m : ℕ}

lemma scan (h : UsedSlots f sector m) (first : UInt32) :
    scanSectorSlots .v1 (telemetrySectorData f sector) first (telemetrySlotsIn .v1)
      = scanSectorSlots .v1 (telemetrySectorData f sector) first m :=
  (scanSectorSlots_erased first h.le fun slot => slots_erased_v1 h.erased slot).1

lemma samples (h : UsedSlots f sector m) :
    sectorSamples (telemetrySectorData f sector)
      = slotSamples .v1 (telemetrySectorData f sector) m := by
  rw [sectorSamples_some h.format]
  exact (scanSectorSlots_erased 0 h.le fun slot => slots_erased_v1 h.erased slot).2

end UsedSlots

lemma erased_blank (size off len : ℕ) : (NorFlash.blank size).Erased off len := fun _ _ => rfl

/-- A range outside what is programmed stays erased. -/
lemma erased_programSector {f : NorFlash} {sector : ℕ} {generation : UInt32}
    {records : List TelemetryV1Record} {off len : ℕ} (h : f.Erased off len)
    (hout : off + len ≤ telemetrySectorOffset sector ∨
      telemetrySectorOffset sector + (32 + 32 * records.length) ≤ off) :
    (programSector f sector generation records).Erased off len := by
  have hlength : ∀ records : List TelemetryV1Record,
      (records.flatMap telemetryV1Record.enc).length = 32 * records.length := by
    intro records
    induction records with
    | nil => rfl
    | cons record records ih =>
        rw [List.flatMap_cons, List.length_append, ih, Codec.length_enc, telemetryV1Record_size,
          telemetryV1RecordSize, List.length_cons]
        omega
  refine h.program_of_disjoint ?_
  rw [List.length_append, hlength, Codec.length_enc, telemetrySectorHeader_size,
    telemetrySectorHeaderSize]
  exact hout

lemma usedSlots_tied : UsedSlots tiedJournal.flash 0 1 ∧ UsedSlots tiedJournal.flash 1 1 := by
  have herased : ∀ sector < 2, tiedJournal.flash.Erased (telemetrySectorOffset sector + 32 + 1 * 32)
      (4064 - 1 * 32) := by
    intro sector hsector
    refine erased_programSector (erased_programSector (erased_blank _ _ _) ?_) ?_
    · simp only [telemetrySectorOffset_eq, List.length_singleton]
      omega
    · simp only [telemetrySectorOffset_eq, List.length_singleton]
      omega
  exact ⟨⟨by decide +kernel, by decide, herased 0 (by decide)⟩,
    ⟨by decide +kernel, by decide, herased 1 (by decide)⟩⟩

lemma usedSlots_wrapped : UsedSlots wrappedJournal.flash 0 0 ∧ UsedSlots wrappedJournal.flash 2 0 := by
  have herased : ∀ sector < 3, wrappedJournal.flash.Erased
      (telemetrySectorOffset sector + 32 + 0 * 32) (4064 - 0 * 32) := by
    intro sector hsector
    refine erased_programSector (erased_programSector (erased_blank _ _ _) ?_) ?_
    · simp only [telemetrySectorOffset_eq, List.length_nil]
      omega
    · simp only [telemetrySectorOffset_eq, List.length_nil]
      omega
  exact ⟨⟨by decide +kernel, by decide, herased 0 (by decide)⟩,
    ⟨by decide +kernel, by decide, herased 2 (by decide)⟩⟩

lemma scanRing_tied : (scanRing tiedJournal.flash 2).foundHeader = true ∧
    (scanRing tiedJournal.flash 2).activeFormat = some .v1 ∧
    (scanRing tiedJournal.flash 2).activeSector = 0 := by
  obtain ⟨hzero, hone⟩ := usedSlots_tied
  rw [scanRing_succ, scanRing_succ, TelemetryScan.sector_committed _ hone.format, hone.scan,
    TelemetryScan.sector_committed _ hzero.format, hzero.scan]
  decide +kernel

lemma scanRing_wrapped : (scanRing wrappedJournal.flash 3).foundHeader = true ∧
    (scanRing wrappedJournal.flash 3).activeFormat = some .v1 ∧
    (scanRing wrappedJournal.flash 3).activeSector = 0 ∧
    (scanRing wrappedJournal.flash 3).maxGeneration = 0xFFFFFFFF := by
  obtain ⟨hzero, htwo⟩ := usedSlots_wrapped
  have hone : sectorFormat wrappedJournal.flash 1 = none := by decide +kernel
  rw [scanRing_succ, scanRing_succ, scanRing_succ, TelemetryScan.sector_blank _ hone,
    TelemetryScan.sector_committed _ htwo.format, htwo.scan,
    TelemetryScan.sector_committed _ hzero.format, hzero.scan]
  decide +kernel


lemma runs_recovery_tied : ∃ s', FaultM.Runs telemetryInitializeLocked tiedJournal () s' ∧
    sectorSamples (telemetrySectorData s'.flash 1) = [] := by
  obtain ⟨hfound, hformat, hactive⟩ := scanRing_tied
  obtain ⟨s', hruns, -, hcommitted⟩ := runs_adoptTelemetryScan_v1
    (s := { tiedJournal with telemetry := { tiedJournal.telemetry with sectorCount := 2 } })
    hfound hformat (by rw [hactive]; decide)
  rw [hactive] at hcommitted
  exact ⟨s', runs_telemetryInitializeLocked rfl rfl rfl (by decide) hruns, hcommitted.samples⟩

theorem recovery_safe_tied :
    JournalRecovered tiedJournal.flash (telemetryInitializeLocked tiedJournal []).state := by
  obtain ⟨s', hruns, -⟩ := runs_recovery_tied
  exact recovery_safe rfl (by decide) hruns.out

/-- The newest of two records of the same second is erased, and a generation that skips
zero is older than one half a turn before it. -/
theorem recovery_not_safe :
    (∃ s', FaultM.Runs telemetryInitializeLocked tiedJournal () s' ∧
      telemetrySectors tiedJournal.flash = 2 ∧ sectorSamples (telemetrySectorData s'.flash 1) = [] ∧
      ∃ x ∈ sectorSamples (telemetrySectorData tiedJournal.flash 1),
        ∀ y ∈ telemetrySamples tiedJournal.flash 2, telemetrySampleCompare y x ≠ .gt) ∧
    (∃ s', FaultM.Runs telemetryInitializeLocked wrappedJournal () s' ∧
      telemetrySectors wrappedJournal.flash = 3 ∧
      GenerationsFrom wrappedJournal.flash 3 0x80000000 (2 ^ 31) ∧
      sectorFormat wrappedJournal.flash 2 ≠ none ∧
      generationNewer (sectorGeneration wrappedJournal.flash 2) s'.telemetry.generation = true) := by
  constructor
  · obtain ⟨hzero, hone⟩ := usedSlots_tied
    obtain ⟨s', hruns, hsamples⟩ := runs_recovery_tied
    refine ⟨s', hruns, rfl, hsamples, ?_⟩
    rw [telemetrySamples_succ, telemetrySamples_succ, hone.samples, hzero.samples]
    decide +kernel
  · obtain ⟨hzero, htwo⟩ := usedSlots_wrapped
    obtain ⟨hfound, hformat, hactive, hmax⟩ := scanRing_wrapped
    obtain ⟨s', hruns, hgeneration, -⟩ := runs_adoptTelemetryScan_v1
      (s := { wrappedJournal with telemetry := { wrappedJournal.telemetry with sectorCount := 3 } })
      hfound hformat (by rw [hactive]; decide)
    refine ⟨s', runs_telemetryInitializeLocked rfl rfl rfl (by decide) hruns, rfl, ?_, ?_, ?_⟩
    · intro sector hsector hne
      have hcases : sector = 0 ∨ sector = 1 ∨ sector = 2 := by omega
      rcases hcases with rfl | rfl | rfl
      · decide +kernel
      · exact absurd (by decide +kernel) hne
      · decide +kernel
    · rw [htwo.format]
      nofun
    · rw [hgeneration, hmax]
      decide +kernel

end ArcticController

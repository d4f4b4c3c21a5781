/-
What the recovery scan of the telemetry journal has found after the first sectors of the
ring, whatever they hold.

* `generationNewer_iff`: the order of generations, read from any base;
* `LastTimestamp`: the largest timestamp of some records;
* `SlotsScanned`, `slotsScanned_scan`: the slots of one sector;
* `ActiveFound`, `ScanFound`: the sectors so far;
* `scanFound_sector`: one sector more.
-/
import ArcticController.History.EventReplay
import ArcticController.History.TelemetryQuery

namespace ArcticController

/-! ### Generations -/

lemma generationNewer_iff {candidate current : UInt32} :
    generationNewer candidate current = true ↔
      0 < (candidate - current).toNat ∧ (candidate - current).toNat < 2 ^ 31 := by
  have hlt := (candidate - current).toNat_lt
  have hint : (candidate - current).toInt32.toInt = (candidate - current).toBitVec.toInt := rfl
  rw [generationNewer, decide_eq_true_iff, Int32.lt_iff_toInt_lt, hint, BitVec.toInt_eq_toNat_cond,
    Int32.toInt_zero, UInt32.toNat_toBitVec]
  split
  all_goals omega

/-- The distance of two generations, both measured from a base. -/
lemma generation_sub_toNat (a b base : UInt32) :
    (a - b).toNat = (2 ^ 32 - (b - base).toNat + (a - base).toNat) % 2 ^ 32 := by
  have ha := a.toNat_lt
  have hb := b.toNat_lt
  have hbase := base.toNat_lt
  rw [UInt32.toNat_sub, UInt32.toNat_sub, UInt32.toNat_sub]
  omega

/-- Within half a turn of the base, newer is further from it. -/
lemma generationNewer_iff_lt {a b base : UInt32} (ha : (a - base).toNat < 2 ^ 31)
    (hb : (b - base).toNat < 2 ^ 31) :
    generationNewer a b = true ↔ (b - base).toNat < (a - base).toNat := by
  rw [generationNewer_iff, generation_sub_toNat a b base]
  omega

/-! ### The scan of a sector -/

/-- The largest timestamp of some records, zero if there is none. -/
structure LastTimestamp (samples : List TelemetrySample) (last : UInt32) : Prop where
  le : ∀ x ∈ samples, x.timestamp ≤ last
  attained : last = 0 ∨ ∃ x ∈ samples, x.timestamp = last

lemma lastTimestamp_nil : LastTimestamp [] 0 := ⟨nofun, .inl rfl⟩

lemma lastTimestamp_singleton (x : TelemetrySample) : LastTimestamp [x] x.timestamp where
  le y hy := by
    rw [List.mem_singleton.mp hy]
    exact UInt32.le_refl _
  attained := .inr ⟨x, List.mem_singleton_self x, rfl⟩

lemma LastTimestamp.append {xs ys : List TelemetrySample} {a b : UInt32} (hx : LastTimestamp xs a)
    (hy : LastTimestamp ys b) : LastTimestamp (xs ++ ys) (if b > a then b else a) := by
  split
  · next hba =>
      refine ⟨fun x hmem => ?_, hy.attained.imp id fun ⟨x, hx, heq⟩ =>
        ⟨x, List.mem_append_right xs hx, heq⟩⟩
      cases List.mem_append.mp hmem with
      | inl hmem => exact UInt32.le_trans (hx.le x hmem) (UInt32.le_of_lt hba)
      | inr hmem => exact hy.le x hmem
  · next hba =>
      refine ⟨fun x hmem => ?_, hx.attained.imp id fun ⟨x, hx, heq⟩ =>
        ⟨x, List.mem_append_left ys hx, heq⟩⟩
      cases List.mem_append.mp hmem with
      | inl hmem => exact hx.le x hmem
      | inr hmem => exact UInt32.le_trans (hy.le x hmem) (UInt32.not_lt.mp hba)

/-- The valid records of the first slots of a sector. -/
def slotSamples (format : TelemetryFormat) (sectorData : List UInt8) (n : ℕ) :
    List TelemetrySample :=
  (List.range n).filterMap (telemetryDecodeSlot format sectorData)

lemma slotSamples_succ (format : TelemetryFormat) (sectorData : List UInt8) (n : ℕ) :
    slotSamples format sectorData (n + 1)
      = slotSamples format sectorData n ++ (telemetryDecodeSlot format sectorData n).toList := by
  rw [slotSamples, List.range_succ, List.filterMap_append, List.filterMap_cons, List.filterMap_nil]
  cases telemetryDecodeSlot format sectorData n with
  | none => rfl
  | some sample => rfl

/-- The scan of the first slots of a sector, with the sequence it starts from. -/
def scanSectorSlots (format : TelemetryFormat) (sectorData : List UInt8) (nextSequence : UInt32) (n : ℕ) :
    SectorScan :=
  (List.range n).foldl (SectorScan.slot format sectorData) { nextSequence }

lemma scanSectorSlots_succ (format : TelemetryFormat) (sectorData : List UInt8) (nextSequence : UInt32)
    (n : ℕ) : scanSectorSlots format sectorData nextSequence (n + 1)
      = (scanSectorSlots format sectorData nextSequence n).slot format sectorData n := by
  rw [scanSectorSlots, List.range_succ, List.foldl_append, List.foldl_cons, List.foldl_nil]
  rfl

/-- No record has used up the sequences. -/
def SequencesLeft (samples : List TelemetrySample) : Prop := ∀ x ∈ samples, x.sequence ≠ 0xFFFFFFFF

/-- What the scan of some slots has found, starting from the sequence `first`. -/
structure SlotsScanned (format : TelemetryFormat) (sectorData : List UInt8) (first : UInt32) (n : ℕ)
    (scan : SectorScan) : Prop where
  newest : LastTimestamp (slotSamples format sectorData n) scan.newest
  sequence : SequencesLeft (slotSamples format sectorData n) → first ≤ scan.nextSequence ∧
    ∀ x ∈ slotSamples format sectorData n, x.sequence < scan.nextSequence
  erased : ∀ slot < n, scan.lastProgrammed.elim 0 (· + 1) ≤ slot →
    bytesAreErased (telemetrySlotBytes format sectorData slot) = true

/-- The counter after one record: beyond it, and not before the counter it had. -/
lemma sequence_after (next sequence : UInt32) (hmax : sequence ≠ 0xFFFFFFFF) :
    next ≤ (if sequence ≥ next then advance sequence else next) ∧
      sequence < (if sequence ≥ next then advance sequence else next) := by
  split
  · next hge =>
      have hlt : sequence < advance sequence := by
        rw [advance_of_ne hmax]
        exact lt_add_one hmax
      exact ⟨UInt32.le_trans hge (UInt32.le_of_lt hlt), hlt⟩
  · next hge => exact ⟨UInt32.le_refl next, UInt32.not_le.mp hge⟩

lemma slotsScanned_scan (format : TelemetryFormat) (sectorData : List UInt8) (first : UInt32)
    (n : ℕ) : SlotsScanned format sectorData first n (scanSectorSlots format sectorData first n) := by
  induction n with
  | zero => exact ⟨lastTimestamp_nil, fun _ => ⟨UInt32.le_refl first, nofun⟩, nofun⟩
  | succ n ih =>
      rw [scanSectorSlots_succ]
      generalize scanSectorSlots format sectorData first n = scan at ih
      have herased : ∀ last, last = (if bytesAreErased (telemetrySlotBytes format sectorData n)
            then scan.lastProgrammed else some n) → ∀ slot < n + 1, last.elim 0 (· + 1) ≤ slot →
          bytesAreErased (telemetrySlotBytes format sectorData slot) = true := by
        rintro last rfl slot hslot hle
        split at hle
        · next hblank =>
            rcases Nat.lt_succ_iff_lt_or_eq.mp hslot with hslot | rfl
            · exact ih.erased slot hslot hle
            · exact hblank
        · exact absurd hle (Nat.not_le.mpr hslot)
      have hsamples := slotSamples_succ format sectorData n
      unfold SectorScan.slot
      dsimp only
      cases hdecode : telemetryDecodeSlot format sectorData n with
      | none =>
          rw [hdecode, Option.toList_none, List.append_nil] at hsamples
          exact ⟨hsamples ▸ ih.newest, hsamples ▸ ih.sequence, herased _ rfl⟩
      | some sample =>
          rw [hdecode, Option.toList_some] at hsamples
          refine ⟨?_, fun hleft => ?_, herased _ rfl⟩
          · rw [hsamples]
            exact ih.newest.append (lastTimestamp_singleton sample)
          · rw [hsamples] at hleft ⊢
            obtain ⟨hfirst, hbelow⟩ := ih.sequence fun x hx => hleft x (List.mem_append_left _ hx)
            obtain ⟨hle, hlt⟩ := sequence_after scan.nextSequence sample.sequence
              (hleft sample (List.mem_append_right _ (List.mem_singleton_self _)))
            refine ⟨UInt32.le_trans hfirst hle, fun x hx => ?_⟩
            cases List.mem_append.mp hx with
            | inl hx => exact UInt32.lt_of_lt_of_le (hbelow x hx) hle
            | inr hx => exact List.mem_singleton.mp hx ▸ hlt

variable {format : TelemetryFormat} {f : NorFlash} {k : ℕ} {scan : TelemetryScan}

/-- Nothing is found in erased slots. -/
lemma scanSectorSlots_erased {sectorData : List UInt8} (first : UInt32) {m n : ℕ} (hmn : m ≤ n)
    (h : ∀ slot, m ≤ slot → slot < n →
      bytesAreErased (telemetrySlotBytes format sectorData slot) = true) :
    scanSectorSlots format sectorData first n = scanSectorSlots format sectorData first m ∧
      slotSamples format sectorData n = slotSamples format sectorData m := by
  induction n, hmn using Nat.le_induction with
  | base => exact ⟨rfl, rfl⟩
  | succ n hle ih =>
      obtain ⟨hscan, hsamples⟩ := ih fun slot hm hslot => h slot hm (by omega)
      have hblank := h n hle (Nat.lt_succ_self n)
      have hdecode : telemetryDecodeSlot format sectorData n = none := by
        unfold telemetryDecodeSlot
        exact if_pos hblank
      rw [scanSectorSlots_succ, slotSamples_succ, hdecode, Option.toList_none, List.append_nil,
        SectorScan.slot, hdecode, if_pos hblank]
      exact ⟨hscan, hsamples⟩

/-! ### The scan of the ring -/

/-- The format of a sector that is committed. -/
def sectorFormat (f : NorFlash) (sector : ℕ) : Option TelemetryFormat :=
  telemetrySectorFormat (sectorHeader (telemetrySectorData f sector))

def sectorGeneration (f : NorFlash) (sector : ℕ) : UInt32 :=
  (sectorHeader (telemetrySectorData f sector)).generation

lemma sectorSamples_none {sector : ℕ} (h : sectorFormat f sector = none) :
    sectorSamples (telemetrySectorData f sector) = [] := by
  rw [sectorSamples]
  rw [sectorFormat] at h
  rw [h]

lemma sectorSamples_some {sector : ℕ} (h : sectorFormat f sector = some format) :
    sectorSamples (telemetrySectorData f sector)
      = slotSamples format (telemetrySectorData f sector) (telemetrySlotsIn format) := by
  rw [sectorSamples]
  rw [sectorFormat] at h
  rw [h]
  rfl

lemma telemetrySamples_succ (f : NorFlash) (k : ℕ) :
    telemetrySamples f (k + 1) = telemetrySamples f k ++ sectorSamples (telemetrySectorData f k) := by
  rw [telemetrySamples, List.range_succ, List.flatMap_append, List.flatMap_singleton]
  rfl

/-- The active sector found: committed, it holds the newest record, and every slot of it
from the next one on is erased. -/
structure ActiveFound (f : NorFlash) (k : ℕ) (scan : TelemetryScan) : Prop where
  lt : scan.activeSector < k
  format : sectorFormat f scan.activeSector = scan.activeFormat
  committed : scan.activeFormat ≠ none
  newest : LastTimestamp (sectorSamples (telemetrySectorData f scan.activeSector)) scan.activeNewest
  last : scan.activeNewest = scan.lastTimestamp
  erased : ∀ format, scan.activeFormat = some format → ∀ slot < telemetrySlotsIn format,
    scan.activeNextSlot ≤ slot →
      bytesAreErased (telemetrySlotBytes format (telemetrySectorData f scan.activeSector) slot) = true

/-- The generations of the first sectors lie within half a turn of a base. -/
def GenerationsFrom (f : NorFlash) (k : ℕ) (base : UInt32) (spread : ℕ) : Prop :=
  ∀ sector < k, sectorFormat f sector ≠ none → (sectorGeneration f sector - base).toNat < spread

/-- What the scan of the first sectors has found. -/
structure ScanFound (f : NorFlash) (k : ℕ) (scan : TelemetryScan) : Prop where
  last : LastTimestamp (telemetrySamples f k) scan.lastTimestamp
  sequence : SequencesLeft (telemetrySamples f k) →
    ∀ x ∈ telemetrySamples f k, x.sequence < scan.nextSequence
  blank : scan.foundHeader = false →
    (∀ sector < k, sectorFormat f sector = none) ∧ scan.lastTimestamp = 0
  active : scan.foundHeader = true → ActiveFound f k scan
  greatest : scan.foundHeader = true →
    ∃ sector < k, sectorFormat f sector ≠ none ∧ sectorGeneration f sector = scan.maxGeneration
  generation : ∀ base, GenerationsFrom f k base (2 ^ 31) → ∀ sector < k,
    sectorFormat f sector ≠ none →
      (sectorGeneration f sector - base).toNat ≤ (scan.maxGeneration - base).toNat

lemma scanFound_zero (f : NorFlash) : ScanFound f 0 {} where
  last := lastTimestamp_nil
  sequence _ := nofun
  blank _ := ⟨nofun, rfl⟩
  active := nofun
  greatest := nofun
  generation _ _ := nofun

/-- A sector that is not committed is passed over. -/
lemma ScanFound.skip (h : ScanFound f k scan) (hnone : sectorFormat f k = none) :
    ScanFound f (k + 1) scan := by
  have hsamples : telemetrySamples f (k + 1) = telemetrySamples f k := by
    rw [telemetrySamples_succ, sectorSamples_none hnone, List.append_nil]
  have hcommitted : ∀ sector < k + 1, sectorFormat f sector ≠ none → sector < k := by
    intro sector hsector hne
    refine lt_of_le_of_ne (Nat.lt_succ_iff.mp hsector) ?_
    rintro rfl
    exact hne hnone
  refine ⟨hsamples ▸ h.last, hsamples ▸ h.sequence, fun hfound => ⟨fun sector hsector => ?_,
    (h.blank hfound).2⟩, fun hfound => ?_, fun hfound => ?_, fun base hbase sector hsector hne => ?_⟩
  · by_contra hne
    exact hne ((h.blank hfound).1 sector (hcommitted sector hsector hne))
  · obtain ⟨hlt, hformat, hsome, hnewest, hlast, herased⟩ := h.active hfound
    exact ⟨by omega, hformat, hsome, hnewest, hlast, herased⟩
  · obtain ⟨sector, hsector, hgreatest⟩ := h.greatest hfound
    exact ⟨sector, by omega, hgreatest⟩
  · exact h.generation base (fun sector hsector hne => hbase sector (by omega) hne) sector
      (hcommitted sector hsector hne) hne

/-- The greatest generation after one sector more. -/
lemma ScanFound.generation_after (h : ScanFound f k scan) {max : UInt32}
    (hmax : max = if !scan.foundHeader || generationNewer (sectorGeneration f k) scan.maxGeneration
      then sectorGeneration f k else scan.maxGeneration)
    (hne : sectorFormat f k ≠ none) :
    (∃ sector < k + 1, sectorFormat f sector ≠ none ∧ sectorGeneration f sector = max) ∧
      ∀ base, GenerationsFrom f (k + 1) base (2 ^ 31) → ∀ sector < k + 1,
        sectorFormat f sector ≠ none →
          (sectorGeneration f sector - base).toNat ≤ (max - base).toNat := by
  cases hfound : scan.foundHeader with
  | false =>
      rw [hfound, Bool.not_false, Bool.true_or, if_pos rfl] at hmax
      subst hmax
      refine ⟨⟨k, by omega, hne, rfl⟩, fun base _ sector hsector hsome => ?_⟩
      rcases Nat.lt_succ_iff_lt_or_eq.mp hsector with hsector | rfl
      · exact absurd ((h.blank hfound).1 sector hsector) hsome
      · exact le_rfl
  | true =>
      rw [hfound, Bool.not_true, Bool.false_or] at hmax
      obtain ⟨old, hold, holdne, holdeq⟩ := h.greatest hfound
      have hbelow : ∀ base, GenerationsFrom f (k + 1) base (2 ^ 31) → ∀ sector < k,
          sectorFormat f sector ≠ none →
            (sectorGeneration f sector - base).toNat ≤ (scan.maxGeneration - base).toNat :=
        fun base hbase => h.generation base fun sector hsector => hbase sector (by omega)
      have hnewer : ∀ base, GenerationsFrom f (k + 1) base (2 ^ 31) →
          (generationNewer (sectorGeneration f k) scan.maxGeneration = true ↔
            (scan.maxGeneration - base).toNat < (sectorGeneration f k - base).toNat) := by
        intro base hbase
        rw [← holdeq]
        exact generationNewer_iff_lt (hbase k (by omega) hne) (hbase old (by omega) holdne)
      split at hmax
      · next hnew =>
          subst hmax
          refine ⟨⟨k, by omega, hne, rfl⟩, fun base hbase sector hsector hsome => ?_⟩
          have hlt := (hnewer base hbase).mp hnew
          rcases Nat.lt_succ_iff_lt_or_eq.mp hsector with hsector | rfl
          · exact (hbelow base hbase sector hsector hsome).trans hlt.le
          · exact le_rfl
      · next hnew =>
          subst hmax
          refine ⟨⟨old, by omega, holdne, holdeq⟩, fun base hbase sector hsector hsome => ?_⟩
          have hle := not_lt.mp (mt (hnewer base hbase).mpr hnew)
          rcases Nat.lt_succ_iff_lt_or_eq.mp hsector with hsector | rfl
          · exact hbelow base hbase sector hsector hsome
          · exact hle

/-- The scan of a committed sector, by what its slots hold. -/
lemma TelemetryScan.sector_committed (scan : TelemetryScan)
    (hformat : sectorFormat f k = some format) :
    scan.sector k (telemetrySectorData f k)
      = (let found := scanSectorSlots format (telemetrySectorData f k)
          (if (sectorHeader (telemetrySectorData f k)).firstSequence > scan.nextSequence
            then (sectorHeader (telemetrySectorData f k)).firstSequence else scan.nextSequence)
          (telemetrySlotsIn format)
        let scanned : TelemetryScan := { scan with
          foundHeader := true
          maxGeneration := if !scan.foundHeader ||
              generationNewer (sectorGeneration f k) scan.maxGeneration
            then sectorGeneration f k else scan.maxGeneration
          nextSequence := found.nextSequence
          lastTimestamp := if found.newest > scan.lastTimestamp then found.newest
            else scan.lastTimestamp }
        if !scan.foundHeader || found.newest > scan.activeNewest ||
            (found.newest == scan.activeNewest &&
              generationNewer (sectorGeneration f k) scan.activeGeneration) then
          { scanned with
            activeSector := k
            activeFormat := some format
            activeNewest := found.newest
            activeGeneration := sectorGeneration f k
            activeNextSlot := found.lastProgrammed.elim 0 (· + 1) }
        else scanned) := by
  rw [sectorFormat] at hformat
  rw [TelemetryScan.sector]
  dsimp only
  rw [hformat]
  rfl

lemma TelemetryScan.sector_blank (scan : TelemetryScan) (hnone : sectorFormat f k = none) :
    scan.sector k (telemetrySectorData f k) = scan := by
  rw [sectorFormat] at hnone
  rw [TelemetryScan.sector]
  dsimp only
  rw [hnone]

/-- A committed sector scanned: its records are added, and it becomes the active one if it
is the first, or holds a newer record, or ties with a newer generation. -/
lemma ScanFound.add (h : ScanFound f k scan) (hformat : sectorFormat f k = some format) :
    ScanFound f (k + 1) (scan.sector k (telemetrySectorData f k)) := by
  have hne : sectorFormat f k ≠ none := by
    rw [hformat]
    nofun
  have hsector := sectorSamples_some hformat
  set first := (if (sectorHeader (telemetrySectorData f k)).firstSequence > scan.nextSequence
    then (sectorHeader (telemetrySectorData f k)).firstSequence else scan.nextSequence) with hfirst
  have hslots := slotsScanned_scan format (telemetrySectorData f k) first
    (telemetrySlotsIn format)
  rw [scan.sector_committed hformat, ← hfirst]
  generalize scanSectorSlots format (telemetrySectorData f k) first (telemetrySlotsIn format) = found
    at hslots ⊢
  obtain ⟨hmax, hgeneration⟩ := h.generation_after rfl hne
  have hadd : ∀ scan' : TelemetryScan, scan'.foundHeader = true →
      scan'.maxGeneration = (if !scan.foundHeader ||
        generationNewer (sectorGeneration f k) scan.maxGeneration
          then sectorGeneration f k else scan.maxGeneration) →
      scan'.nextSequence = found.nextSequence →
      scan'.lastTimestamp = (if found.newest > scan.lastTimestamp then found.newest
        else scan.lastTimestamp) →
      ActiveFound f (k + 1) scan' → ScanFound f (k + 1) scan' := by
    intro scan' hfound' hmax' hsequence' hlast' hactive'
    refine ⟨?_, fun hleft => ?_, fun hnone => ?_, fun _ => hactive', fun _ => ?_, ?_⟩
    · rw [telemetrySamples_succ, hsector, hlast']
      exact h.last.append hslots.newest
    · rw [telemetrySamples_succ, hsector] at hleft ⊢
      rw [hsequence']
      obtain ⟨hle, hbelow⟩ := hslots.sequence fun x hx => hleft x (List.mem_append_right _ hx)
      have hold := h.sequence fun x hx => hleft x (List.mem_append_left _ hx)
      have hnext : scan.nextSequence ≤ first := by
        rw [hfirst]
        split
        · next hgt => exact UInt32.le_of_lt hgt
        · exact UInt32.le_refl _
      intro x hx
      cases List.mem_append.mp hx with
      | inl hx => exact UInt32.lt_of_lt_of_le (hold x hx) (UInt32.le_trans hnext hle)
      | inr hx => exact hbelow x hx
    · rw [hfound'] at hnone
      cases hnone
    · rw [hmax']
      exact hmax
    · rw [hmax']
      exact hgeneration
  have herased : ∀ format', some format = some format' → ∀ slot < telemetrySlotsIn format',
      found.lastProgrammed.elim 0 (· + 1) ≤ slot →
        bytesAreErased (telemetrySlotBytes format' (telemetrySectorData f k) slot) = true := by
    rintro format' hsame
    cases hsame
    exact hslots.erased
  dsimp only
  split
  · next htaken =>
      refine hadd _ rfl rfl rfl rfl ⟨by dsimp only; omega, hformat, nofun, hsector ▸ hslots.newest,
        ?_, herased⟩
      dsimp only
      split
      · rfl
      · next hold =>
          have hle := UInt32.not_lt.mp hold
          cases hfound : scan.foundHeader with
          | false =>
              rw [(h.blank hfound).2] at hle ⊢
              exact UInt32.le_antisymm hle UInt32.zero_le
          | true =>
              rw [hfound, Bool.not_true, Bool.false_or, Bool.or_eq_true, Bool.and_eq_true,
                (h.active hfound).last] at htaken
              cases htaken with
              | inl hnewer => exact absurd (of_decide_eq_true hnewer) hold
              | inr htie => exact beq_iff_eq.mp htie.1
  · next hkept =>
      rw [Bool.not_eq_true, Bool.or_eq_false_iff, Bool.or_eq_false_iff] at hkept
      have hfound : scan.foundHeader = true := by
        rw [← Bool.not_eq_false']
        exact hkept.1.1
      have hactive := h.active hfound
      have hold : ¬ found.newest > scan.lastTimestamp := by
        rw [← hactive.last]
        exact of_decide_eq_false hkept.1.2
      refine hadd _ rfl rfl rfl rfl ⟨Nat.lt_succ_of_lt hactive.lt, hactive.format, hactive.committed,
        hactive.newest, ?_, hactive.erased⟩
      dsimp only
      rw [if_neg hold]
      exact hactive.last

/-- One sector more. -/
lemma scanFound_sector (h : ScanFound f k scan) :
    ScanFound f (k + 1) (scan.sector k (telemetrySectorData f k)) := by
  cases hformat : sectorFormat f k with
  | some format => exact h.add hformat
  | none =>
      rw [scan.sector_blank hformat]
      exact h.skip hformat

/-- The scan of the ring, if its reads succeed: it changes nothing. -/
lemma wp_scanTelemetrySectors {s : Storage} (left : ℕ) : ∀ (sector : ℕ) (scan : TelemetryScan),
    ScanFound s.flash sector scan →
    wp anyFaults (scanTelemetrySectors left sector scan)
      (fun o s' => s' = s ∧ ∀ scan', o = .val scan' → ScanFound s.flash (sector + left) scan') s := by
  induction left with
  | zero =>
      refine fun sector scan h => wp_pure ⟨rfl, fun scan' hval => ?_⟩
      cases hval
      exact h
  | succ left ih =>
      intro sector scan h
      refine wp_bind (wp_mono (wp_read_val trivial) fun o s' ho => ?_)
      obtain ⟨rfl, hdata⟩ := ho
      cases o with
      | cut => exact ⟨rfl, nofun⟩
      | err e => exact ⟨rfl, nofun⟩
      | val sectorData =>
          rw [andThen_val, hdata sectorData rfl, show sector + (left + 1) = sector + 1 + left by omega]
          exact ih (sector + 1) _ (scanFound_sector h)

end ArcticController

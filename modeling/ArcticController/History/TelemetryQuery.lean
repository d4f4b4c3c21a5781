/-
A bounded telemetry query returns the newest matches (`history_storage.cpp`), whatever
sectors and slots they are stored in.

* `telemetrySamples`: the valid records of the telemetry region, in physical order;
* `NewestMatches`: what a query should return;
* `keepNewest_greatest`: one match more in the output array;
* `wp_queryTelemetrySectors`: the pass over the sectors;
* `query_returns_newest`: what a query returns.
-/
import ArcticController.Base.Greatest
import ArcticController.History.TelemetryJournal
import Mathlib.Data.List.GetD

namespace ArcticController

/-! ### What is to be returned -/

/-- The valid records in the image of a sector. -/
def sectorSamples (sectorData : List UInt8) : List TelemetrySample :=
  match telemetrySectorFormat (sectorHeader sectorData) with
  | none => []
  | some format =>
      (List.range (telemetrySlotsIn format)).filterMap (telemetryDecodeSlot format sectorData)

/-- The image of a telemetry sector. -/
def telemetrySectorData (f : NorFlash) (sector : ℕ) : List UInt8 :=
  f.read (telemetrySectorOffset sector) flashSectorSize

/-- The valid records of the telemetry region. -/
def telemetrySamples (f : NorFlash) (sectorCount : ℕ) : List TelemetrySample :=
  (List.range sectorCount).flatMap fun sector => sectorSamples (telemetrySectorData f sector)

def inWindow (startTimestamp endTimestamp : UInt32) (sample : TelemetrySample) : Bool :=
  startTimestamp ≤ sample.timestamp ∧ sample.timestamp < endTimestamp

/-- The greatest of the matches by timestamp and sequence, as many as fit, in ascending
order. -/
structure NewestMatches (found : List TelemetrySample) (capacity : ℕ)
    (samples : List TelemetrySample) : Prop where
  sorted : samples.Pairwise fun a b => telemetrySampleCompare a b ≠ .gt
  length : samples.length = min capacity found.length
  newest : ∃ rest, (samples ++ rest).Perm found ∧
    ∀ a ∈ samples, ∀ b ∈ rest, telemetrySampleCompare b a ≠ .gt

/-! ### The order of samples -/

/-- Timestamp and sequence as one number. -/
def TelemetrySample.key (sample : TelemetrySample) : ℕ :=
  sample.timestamp.toNat * 2 ^ 32 + sample.sequence.toNat

lemma telemetrySampleCompare_eq (a b : TelemetrySample) :
    telemetrySampleCompare a b = compare a.key b.key := by
  have hta := a.timestamp.toNat_lt
  have htb := b.timestamp.toNat_lt
  have hsa := a.sequence.toNat_lt
  have hsb := b.sequence.toNat_lt
  have hts : a.timestamp = b.timestamp ↔ a.timestamp.toNat = b.timestamp.toNat :=
    UInt32.toNat_inj.symm
  have hsq : a.sequence = b.sequence ↔ a.sequence.toNat = b.sequence.toNat :=
    UInt32.toNat_inj.symm
  simp only [telemetrySampleCompare, ne_eq, hts, hsq, UInt32.lt_iff_toNat_lt, TelemetrySample.key]
  symm
  split
  · split
    · exact Nat.compare_eq_lt.mpr (by omega)
    · exact Nat.compare_eq_gt.mpr (by omega)
  · split
    · exact Nat.compare_eq_eq.mpr (by omega)
    · split
      · exact Nat.compare_eq_lt.mpr (by omega)
      · exact Nat.compare_eq_gt.mpr (by omega)

lemma telemetrySampleCompare_ne_gt {a b : TelemetrySample} :
    telemetrySampleCompare a b ≠ .gt ↔ a.key ≤ b.key := by
  rw [telemetrySampleCompare_eq, ne_eq, Nat.compare_eq_gt, not_lt]

/-! ### The output array -/

variable {samples found : List TelemetrySample} {capacity : ℕ} {s : Storage}

/-- The index the search for the oldest sample ends with. -/
lemma oldestSample_spec (hne : samples ≠ []) :
    ∃ h : oldestSample samples < samples.length,
      ∀ a ∈ samples, (samples[oldestSample samples]).key ≤ a.key := by
  have hless : ∀ a b, telemetrySampleCompare a b = .lt ↔ a.key < b.key := fun a b => by
    rw [telemetrySampleCompare_eq, Nat.compare_eq_lt]
  exact foldl_least hless {} hne

/-- One match more. -/
lemma keepNewest_greatest (hcapacity : 1 ≤ capacity)
    (h : Greatest TelemetrySample.key capacity found samples) (sample : TelemetrySample) :
    Greatest TelemetrySample.key capacity (found ++ [sample]) (keepNewest capacity samples sample) := by
  unfold keepNewest
  split
  · next hroom => exact h.grow hroom sample
  · next hfull =>
      have hne : samples ≠ [] := by
        rintro rfl
        exact hfull (by rw [List.length_nil]; omega)
      obtain ⟨hlt, hleast⟩ := oldestSample_spec hne
      dsimp only
      rw [List.getD_eq_getElem _ _ hlt]
      split
      · next hnewer =>
          rw [telemetrySampleCompare_eq, Nat.compare_eq_gt] at hnewer
          exact h.replace (by omega) hlt hleast hnewer.le
      · next hnewer =>
          rw [telemetrySampleCompare_eq, Nat.compare_eq_gt] at hnewer
          exact h.skip (by omega) fun a ha => (not_lt.mp hnewer).trans (hleast a ha)

/-- The matches one after another. -/
lemma foldl_keepNewest_greatest (hcapacity : 1 ≤ capacity) (news : List TelemetrySample) :
    ∀ {found samples : List TelemetrySample},
    Greatest TelemetrySample.key capacity found samples →
    Greatest TelemetrySample.key capacity (found ++ news)
      (news.foldl (keepNewest capacity) samples) := by
  induction news with
  | nil =>
      intro found samples h
      rw [List.append_nil]
      exact h
  | cons sample news ih =>
      intro found samples h
      rw [List.foldl_cons, ← List.singleton_append, ← List.append_assoc]
      exact ih (keepNewest_greatest hcapacity h sample)

/-- The slots of a sector, one match after another. -/
lemma querySector_eq (startTimestamp endTimestamp : UInt32) (capacity : ℕ)
    (samples : List TelemetrySample) (sectorData : List UInt8) :
    querySector startTimestamp endTimestamp capacity samples sectorData
      = ((sectorSamples sectorData).filter (inWindow startTimestamp endTimestamp)).foldl
          (keepNewest capacity) samples := by
  unfold querySector sectorSamples
  cases telemetrySectorFormat (sectorHeader sectorData) with
  | none => rfl
  | some format =>
      dsimp only
      induction List.range (telemetrySlotsIn format) generalizing samples with
      | nil => rfl
      | cons slot slots ih =>
          rw [List.foldl_cons, List.filterMap_cons]
          cases telemetryDecodeSlot format sectorData slot with
          | none => exact ih samples
          | some sample =>
              dsimp only
              rw [ih, List.filter_cons]
              by_cases hin : inWindow startTimestamp endTimestamp sample = true
              · obtain ⟨hstart, hend⟩ := of_decide_eq_true hin
                rw [if_pos hin, List.foldl_cons, if_neg]
                rintro (hlt | hge)
                · exact absurd hstart (UInt32.not_le.mpr hlt)
                · exact absurd hend (UInt32.not_lt.mpr hge)
              · rw [if_neg hin, if_pos]
                by_contra hout
                obtain ⟨hstart, hend⟩ := not_or.mp hout
                exact hin (decide_eq_true ⟨UInt32.not_lt.mp hstart, UInt32.not_le.mp hend⟩)

/-! ### The pass over the sectors -/

/-- The pass over some sectors, if it ends without an error. -/
lemma wp_queryTelemetrySectors {startTimestamp endTimestamp : UInt32} (left : ℕ) :
    ∀ (sector : ℕ) (samples : List TelemetrySample),
    wp anyFaults (queryTelemetrySectors startTimestamp endTimestamp capacity left sector samples)
      (fun o s' => s' = s ∧ ∀ samples', o = .val (samples', .ok ()) →
        samples' = ((List.range' sector left).flatMap fun sector =>
          (sectorSamples (telemetrySectorData s.flash sector)).filter
            (inWindow startTimestamp endTimestamp)).foldl (keepNewest capacity) samples) s := by
  induction left with
  | zero =>
      refine fun sector samples => wp_pure ⟨rfl, fun samples' h => ?_⟩
      cases h
      rfl
  | succ left ih =>
      intro sector samples
      refine wp_bind (wp_attempt (wp_mono (wp_read_val trivial) fun o s' ho => ?_))
      obtain ⟨rfl, hval⟩ := ho
      cases o with
      | cut => exact ⟨rfl, nofun⟩
      | err e =>
          rw [attempted_err, andThen_val]
          exact wp_pure ⟨rfl, nofun⟩
      | val sectorData =>
          rw [attempted_val, andThen_val]
          dsimp only
          refine wp_mono (ih (sector + 1) _) fun o s'' ho => ⟨ho.1, fun samples' h => ?_⟩
          rw [ho.2 samples' h, querySector_eq, hval sectorData rfl, List.range'_succ,
            List.flatMap_cons, List.foldl_append]
          rfl

/-- The pass over sectors that can be read. -/
lemma runs_queryTelemetrySectors (startTimestamp endTimestamp : UInt32) (capacity : ℕ) (left : ℕ) :
    ∀ (sector : ℕ) (samples : List TelemetrySample),
    (∀ k < left, telemetrySectorOffset (sector + k) + flashSectorSize ≤ s.flash.size) →
    ∃ samples', FaultM.Runs
      (queryTelemetrySectors startTimestamp endTimestamp capacity left sector samples) s
      (samples', .ok ()) s := by
  induction left with
  | zero => exact fun sector samples _ => ⟨samples, FaultM.runs_pure _ s⟩
  | succ left ih =>
      intro sector samples hin
      obtain ⟨samples', hruns⟩ := ih (sector + 1) (querySector startTimestamp endTimestamp capacity
        samples (telemetrySectorData s.flash sector)) fun k hk => by
          rw [Nat.add_assoc, Nat.add_comm 1 k]
          exact hin (k + 1) (by omega)
      exact ⟨samples', (runs_read (hin 0 (by omega))).attempt.bind hruns⟩

/-! ### Queries -/

/-- The journal of a boot that is open: its sectors lie in the partition. -/
structure JournalOpen (s : Storage) : Prop where
  mutex : s.telemetryMutex = true
  initialized : s.telemetry.initialized = true
  noReset : s.factoryResetPending = false
  sectors : ∀ sector < s.telemetry.sectorCount,
    telemetrySectorOffset sector + flashSectorSize ≤ s.flash.size

/-- An open journal is not opened again. -/
lemma JournalOpen.opened (h : JournalOpen s) (fs : List FlashFault) :
    (do ensureTelemetryMutex; telemetryInitializeLocked : HistoryM Unit) s fs
      = ⟨.val (), s, fs, []⟩ := by
  have hmutex : ensureTelemetryMutex s fs = ⟨.val (), s, fs, []⟩ := by
    simp only [ensureTelemetryMutex, bind, FaultM.bind, FaultM.get, h.mutex, if_true]
    rfl
  have hinit : telemetryInitializeLocked s fs = ⟨.val (), s, fs, []⟩ := by
    simp only [telemetryInitializeLocked, bind, FaultM.bind, FaultM.get, h.noReset, h.initialized,
      if_true, Bool.false_eq_true, if_false]
    rfl
  simp only [bind, FaultM.bind, hmutex, hinit]
  rfl

/-- The greatest matches in the output array, sorted. -/
lemma newestMatches_of_greatest (h : Greatest TelemetrySample.key capacity found samples) :
    NewestMatches found capacity
      (samples.mergeSort fun a b => telemetrySampleCompare a b ≠ .gt) := by
  have hsorted := h.perm (List.mergeSort_perm samples fun a b => telemetrySampleCompare a b ≠ .gt)
  refine ⟨?_, hsorted.length, ?_⟩
  · refine (List.pairwise_mergeSort ?_ ?_ samples).imp fun hle => of_decide_eq_true hle
    · intro a b c hab hbc
      have hab' := telemetrySampleCompare_ne_gt.mp (of_decide_eq_true hab)
      have hbc' := telemetrySampleCompare_ne_gt.mp (of_decide_eq_true hbc)
      exact decide_eq_true (telemetrySampleCompare_ne_gt.mpr (hab'.trans hbc'))
    · intro a b
      rw [Bool.or_eq_true]
      exact (le_total a.key b.key).imp
        (fun hle => decide_eq_true (telemetrySampleCompare_ne_gt.mpr hle))
        (fun hle => decide_eq_true (telemetrySampleCompare_ne_gt.mpr hle))
  · obtain ⟨rest, hperm, hrest⟩ := hsorted.rest
    exact ⟨rest, hperm, fun a ha b hb => telemetrySampleCompare_ne_gt.mpr (hrest a ha b hb)⟩

/-- An open journal of two sectors. -/
def openJournal : Storage where
  flash := .blank (256 * 1024 + 2 * 4096)
  telemetryMutex := true
  telemetry := { sectorCount := 2, initialized := true }

lemma openJournal_open : JournalOpen openJournal where
  mutex := rfl
  initialized := rfl
  noReset := rfl
  sectors := by decide

end ArcticController

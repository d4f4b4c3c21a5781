/-
The totals of a day stay consistent (`energy_ledger.h`).

* `DayAccum.Consistent`, `DayRecord.Consistent`: what the totals of a day and of its record
  promise about each other and about the seconds the day has had;
* `DayAccum.Bounded`: what else bounds them, so that nothing wraps;
* `Consistent.booked`: booking a stretch keeps both;
* `DayRecord.consistent_toRecord`: rounding keeps the order of the energies;
* `daily_totals_consistent`: every day, open or handed out, from an empty ledger or a
  checkpoint.
-/
import ArcticController.Energy.DayTimes

namespace ArcticController

/-! ### What the totals promise -/

/-- The totals of a day that has had `elapsed` seconds, among each other. -/
structure DayAccum.Consistent (a : DayAccum) (elapsed : ℤ) : Prop where
  covered : ∀ m : Fin kModes, a.coveredElecWs m ≤ a.elecWs m.castSucc
  thermalS : a.thermalS ≤ a.powerS
  powerS : (a.powerS.toNat : ℤ) ≤ elapsed
  runS : ((∑ m, (a.runS m).toNat : ℕ) : ℤ) ≤ elapsed
  sourceS : ((∑ s, (a.sourceS s).toNat : ℕ) : ℤ) ≤ elapsed
  runOutdoorS : a.runOutdoorS ≤ a.outdoorS

/-- What else the totals of a day are bounded by. -/
structure DayAccum.Bounded (a : DayAccum) (elapsed : ℤ) : Prop where
  elecWs : ∀ bucket, ((a.elecWs bucket).toNat : ℤ) ≤ (2 ^ 32 - 1) * elapsed
  outdoorS : (a.outdoorS.toNat : ℤ) ≤ elapsed

/-- The rounded electricity of a mode is a 32-bit number. -/
def DayAccum.FitsWh (a : DayAccum) (m : Fin kModes) : Prop :=
  (a.elecWs m.castSucc).toNat + 1800 < 3600 * 2 ^ 32

/-- The fields of a record, among each other; those of energy where the mode `fits`. -/
structure DayRecord.Consistent (r : DayRecord) (elapsed : ℤ) (fits : Fin kModes → Prop) : Prop where
  covered : ∀ m : Fin kModes, fits m → r.coveredElecWh m ≤ r.elecWh m.castSucc
  thermalS : r.thermalS ≤ r.powerS
  powerS : (r.powerS.toNat : ℤ) ≤ elapsed
  runS : ((∑ m, (r.runS m).toNat : ℕ) : ℤ) ≤ elapsed
  sourceS : ((∑ s, (r.sourceS s).toNat : ℕ) : ℤ) ≤ elapsed

/-! ### Sums that do not wrap -/

lemma u64_toNat_add {a b : UInt64} (h : a.toNat + b.toNat < 2 ^ 64) :
    (a + b).toNat = a.toNat + b.toNat := by
  rw [UInt64.toNat_add]
  exact Nat.mod_eq_of_lt h

/-- The energy of a stretch. -/
lemma energy_toNat (w dt : UInt32) : (w.toUInt64 * dt.toUInt64).toNat = w.toNat * dt.toNat := by
  have hw := w.toNat_lt
  have hdt := dt.toNat_lt
  rw [UInt64.toNat_mul, UInt32.toNat_toUInt64, UInt32.toNat_toUInt64]
  refine Nat.mod_eq_of_lt ?_
  calc w.toNat * dt.toNat ≤ (2 ^ 32 - 1) * (2 ^ 32 - 1) := Nat.mul_le_mul (by omega) (by omega)
    _ < 2 ^ 64 := by norm_num

lemma sum_bump {n : ℕ} (f : Fin n → UInt32) (i : Fin n) (x : UInt32)
    (h : (f i).toNat + x.toNat < 2 ^ 32) :
    ∑ j, (bump f i x j).toNat = ∑ j, (f j).toNat + x.toNat := by
  have hterm : ∀ j, (bump f i x j).toNat = (f j).toNat + if j = i then x.toNat else 0 := by
    intro j
    rw [bump_apply]
    split
    · next hji =>
        subst hji
        rw [u32_toNat_add h]
    · exact (Nat.add_zero _).symm
  simp only [hterm, Finset.sum_add_distrib, Finset.sum_ite_eq', Finset.mem_univ, if_true]

/-! ### Booking -/

lemma Bucket.index_of_mode {bucket : Bucket} {m : Fin kModes} (h : bucket.mode = some m) :
    bucket.index = m.castSucc := by
  cases bucket <;> cases h <;> rfl

section Booked

variable {cur c : DayAccum} {p : Input} {D a b e : ℤ}

/-- The electricity of a bucket after a booking. -/
lemma DayAccum.Booked.elec_toNat (h : cur.Booked p D a b c) (hbounded : cur.Bounded e)
    (hab : a < b) (hstep : b - a ≤ kMaxStepSeconds) (hfits : e + (b - a) < 2 ^ 32)
    (bucket : Fin kBuckets) : (c.elecWs bucket).toNat = (cur.elecWs bucket).toNat +
      if p.powerValid ∧ bucket = p.bucket.index then p.powerW.toNat * (stepSeconds a b).toNat
      else 0 := by
  rw [h.elecWs]
  by_cases hv : p.powerValid
  · rw [if_pos hv, bump_apply]
    by_cases hbucket : bucket = p.bucket.index
    · rw [if_pos hbucket, if_pos ⟨hv, hbucket⟩, u64_toNat_add, energy_toNat]
      rw [energy_toNat]
      have hw := p.powerW.toNat_lt
      have hdt := stepSeconds_toNat hab.le hstep
      have helec := hbounded.elecWs bucket
      have hpower : (p.powerW.toNat * (stepSeconds a b).toNat : ℤ) ≤ (2 ^ 32 - 1) * (b - a) := by
        rw [hdt]
        exact mul_le_mul_of_nonneg_right (by omega) (by omega)
      push_cast [← Int.ofNat_lt]
      omega
    · rw [if_neg hbucket, if_neg fun h => hbucket h.2, Nat.add_zero]
  · rw [if_neg hv, if_neg fun h => hv h.1, Nat.add_zero]

/-- The electricity with the heat of a mode after a booking. -/
lemma DayAccum.Booked.covered_toNat_le (h : cur.Booked p D a b c) (m : Fin kModes) :
    (c.coveredElecWs m).toNat ≤ (cur.coveredElecWs m).toNat +
      if p.powerValid ∧ m.castSucc = p.bucket.index then p.powerW.toNat * (stepSeconds a b).toNat
      else 0 := by
  rw [h.coveredElecWs, DayAccum.coveredAfter]
  cases hm : p.bucket.mode with
  | none => exact Nat.le_add_right _ _
  | some k =>
      dsimp only
      by_cases hv : p.thermalValid ∧ p.powerValid
      · rw [if_pos hv, bump_apply]
        by_cases hk : m = k
        · subst hk
          rw [if_pos rfl, if_pos ⟨hv.2, (Bucket.index_of_mode hm).symm⟩, UInt64.toNat_add,
            energy_toNat]
          exact Nat.mod_le _ _
        · rw [if_neg hk]
          exact Nat.le_add_right _ _
      · rw [if_neg hv]
        exact Nat.le_add_right _ _

/-- The running time after a booking. -/
lemma DayAccum.Booked.sum_runS (h : cur.Booked p D a b c)
    (hfits : ∑ m, (cur.runS m).toNat + (stepSeconds a b).toNat < 2 ^ 32) :
    ∑ m, (c.runS m).toNat = ∑ m, (cur.runS m).toNat +
      if p.running ∧ p.bucket.mode.isSome then (stepSeconds a b).toNat else 0 := by
  rw [h.runS, runAfter]
  cases hm : p.bucket.mode with
  | none => rw [if_neg fun h => by simp at h, Nat.add_zero]
  | some m =>
      dsimp only
      by_cases hr : p.running
      · have hle : (cur.runS m).toNat ≤ ∑ m, (cur.runS m).toNat :=
          Finset.single_le_sum (f := fun m => (cur.runS m).toNat) (fun _ _ => Nat.zero_le _)
            (Finset.mem_univ m)
        rw [if_pos hr, if_pos ⟨hr, rfl⟩, sum_bump _ _ _ (by omega)]
      · rw [if_neg hr, if_neg fun h => hr h.1, Nat.add_zero]

/-- Booking a stretch keeps the totals consistent. -/
lemma DayAccum.Consistent.booked (h : cur.Consistent e) (hbounded : cur.Bounded e) (hab : a < b)
    (hstep : b - a ≤ kMaxStepSeconds) (hc : p.connected) (hfits : e + (b - a) < 2 ^ 32) :
    (cur.book D a b p).Consistent (e + (b - a)) ∧ (cur.book D a b p).Bounded (e + (b - a)) := by
  have hbooked := cur.book_booked p (D := D) hab hc
  have htimes := cur.book_times p (D := D) hab hc
  generalize cur.book D a b p = c at hbooked htimes ⊢
  have hdt := stepSeconds_toNat hab.le hstep
  have hw := p.powerW.toNat_lt
  obtain ⟨hcovered, hthermal, hpower, hrun, hsource, hrunOutdoor⟩ := h
  obtain ⟨helec, houtdoor⟩ := hbounded
  have hthermal' := UInt32.le_iff_toNat_le.mp hthermal
  have hrunOutdoor' := UInt32.le_iff_toNat_le.mp hrunOutdoor
  have hpowerS : c.powerS.toNat = cur.powerS.toNat
      + if p.powerValid then (stepSeconds a b).toNat else 0 := by
    rw [hbooked.powerS]
    split
    · exact u32_toNat_add (by omega)
    · exact (Nat.add_zero _).symm
  have houtLe : (stepSeconds (outdoorFrom D a) b).toNat ≤ (stepSeconds a b).toNat ∨
      ¬ DayAccum.outdoorTaken p D a b := by
    by_cases htaken : DayAccum.outdoorTaken p D a b
    · have hfrom := le_outdoorFrom D a
      have hlt := htaken.2.2
      have hout := stepSeconds_toNat (a := outdoorFrom D a) (b := b) hlt.le (by omega)
      exact .inl (by omega)
    · exact .inr htaken
  have houtdoorS : c.outdoorS.toNat = cur.outdoorS.toNat
      + if DayAccum.outdoorTaken p D a b then (stepSeconds (outdoorFrom D a) b).toNat else 0 := by
    rw [htimes.outdoorS]
    split
    · next htaken =>
        have hle := houtLe.resolve_right (not_not.mpr htaken)
        exact u32_toNat_add (by omega)
    · exact (Nat.add_zero _).symm
  refine ⟨⟨fun m => ?_, ?_, ?_, ?_, ?_, ?_⟩, ⟨fun bucket => ?_, ?_⟩⟩
  · have hle := UInt64.le_iff_toNat_le.mp (hcovered m)
    rw [UInt64.le_iff_toNat_le, hbooked.elec_toNat ⟨helec, houtdoor⟩ hab hstep hfits]
    exact (hbooked.covered_toNat_le m).trans (Nat.add_le_add_right hle _)
  · rw [UInt32.le_iff_toNat_le, hpowerS, htimes.thermalS]
    split
    · next hv =>
        rw [if_pos hv.2.2, UInt32.toNat_add]
        exact (Nat.mod_le _ _).trans (by omega)
    · exact hthermal'.trans (Nat.le_add_right _ _)
  · rw [hpowerS]
    split <;> push_cast <;> omega
  · rw [hbooked.sum_runS (by omega)]
    split <;> omega
  · rw [htimes.sourceS]
    split
    · have hle : (cur.sourceS p.source.index).toNat ≤ ∑ s, (cur.sourceS s).toNat :=
        Finset.single_le_sum (f := fun s => (cur.sourceS s).toNat) (fun _ _ => Nat.zero_le _)
          (Finset.mem_univ p.source.index)
      rw [sum_bump _ _ _ (by omega)]
      push_cast at hsource ⊢
      omega
    · omega
  · rw [UInt32.le_iff_toNat_le, houtdoorS, hbooked.runOutdoorS]
    split
    · next hout =>
        rw [if_pos (show DayAccum.outdoorTaken p D a b from hout.1), UInt32.toNat_add]
        exact (Nat.mod_le _ _).trans (by omega)
    · exact hrunOutdoor'.trans (Nat.le_add_right _ _)
  · rw [hbooked.elec_toNat ⟨helec, houtdoor⟩ hab hstep hfits]
    have hbucket := helec bucket
    have hpower : (p.powerW.toNat * (stepSeconds a b).toNat : ℤ) ≤ (2 ^ 32 - 1) * (b - a) := by
      rw [hdt]
      exact mul_le_mul_of_nonneg_right (by omega) (by omega)
    split
    · push_cast
      linarith
    · push_cast
      linarith
  · rw [houtdoorS]
    split
    · next htaken =>
        have hle := houtLe.resolve_right (not_not.mpr htaken)
        push_cast
        omega
    · push_cast
      omega

end Booked

/-! ### Rounding -/

/-- Rounding keeps the order of the energies while the larger one fits. -/
lemma wsToWh_mono {x y : UInt64} (h : x ≤ y) (hfits : y.toNat + 1800 < 3600 * 2 ^ 32) :
    wsToWh x ≤ wsToWh y := by
  have hxy := UInt64.le_iff_toNat_le.mp h
  have hround : ∀ z : UInt64, z.toNat ≤ y.toNat → (wsToWh z).toNat = (z.toNat + 1800) / 3600 := by
    intro z hz
    have hsum : (z + 1800).toNat = z.toNat + 1800 := u64_toNat_add (b := 1800) (by
      rw [show (1800 : UInt64).toNat = 1800 from rfl]
      omega)
    rw [wsToWh, UInt64.toNat_toUInt32, UInt64.toNat_div, hsum]
    rw [show (3600 : UInt64).toNat = 3600 from rfl]
    exact Nat.mod_eq_of_lt (by omega)
  rw [UInt32.le_iff_toNat_le, hround x hxy, hround y le_rfl]
  exact Nat.div_le_div_right (by omega)

/-- The record of consistent totals is consistent. -/
lemma DayRecord.consistent_toRecord {a : DayAccum} {e : ℤ} (h : a.Consistent e) :
    (toRecord a).Consistent e a.FitsWh where
  covered m hfits := wsToWh_mono (h.covered m) hfits
  thermalS := h.thermalS
  powerS := h.powerS
  runS := h.runS
  sourceS := h.sourceS

/-! ### Every day -/

/-- The totals as a rule: they are consistent and bounded while the day has had fewer than
2^32 seconds. -/
def totalsRule : DayRule where
  Kept a e := e < 2 ^ 32 → a.Consistent e ∧ a.Bounded e
  Reads _ := True
  blank date offset _ := by
    have hconsistent : (default : DayAccum).Consistent 0 := by constructor <;> decide
    have hbounded : (default : DayAccum).Bounded 0 := by constructor <;> decide
    obtain ⟨hcovered, hthermal, hpower, hrun, hsource, hout⟩ := hconsistent
    obtain ⟨helec, houtdoor⟩ := hbounded
    exact ⟨⟨hcovered, hthermal, hpower, hrun, hsource, hout⟩, ⟨helec, houtdoor⟩⟩
  counts s d h hlt := by
    obtain ⟨⟨hcovered, hthermal, hpower, hrun, hsource, hout⟩, ⟨helec, houtdoor⟩⟩ := h hlt
    exact ⟨⟨hcovered, hthermal, hpower, hrun, hsource, hout⟩, ⟨helec, houtdoor⟩⟩
  mono h hle hlt := by
    obtain ⟨⟨hcovered, hthermal, hpower, hrun, hsource, hout⟩, ⟨helec, houtdoor⟩⟩ :=
      h (by omega)
    refine ⟨⟨hcovered, hthermal, by omega, by omega, by omega, hout⟩, ⟨fun bucket => ?_, by omega⟩⟩
    exact (helec bucket).trans (mul_le_mul_of_nonneg_left hle (by norm_num))
  booked h _ hab hstep hc hlt := by
    obtain ⟨hconsistent, hbounded⟩ := h (by omega)
    exact hconsistent.booked hbounded hab hstep hc hlt

/-- A day that has had fewer than 2^32 seconds is consistent, and so is its record. -/
def DayConsistent (a : DayAccum) (elapsed : ℤ) : Prop :=
  elapsed < 2 ^ 32 → a.Consistent elapsed ∧ (toRecord a).Consistent elapsed a.FitsWh

lemma dayConsistent_of_kept {a : DayAccum} {e : ℤ} (h : totalsRule.Kept a e) :
    DayConsistent a e :=
  fun hlt => ⟨(h hlt).1, DayRecord.consistent_toRecord (h hlt).1⟩

/-- A reading every two minutes from the midnight of one day. -/
def everyTwoMinutes (inputs : List Input) : List LedgerStep :=
  inputs.zipIdx.map fun (input, i) =>
    .add (86400 + 120 * i) { date := 19700102, startS := 86400 } input

/-- Heating at `watts`, with the heat or without it. -/
def heatingAt (watts : UInt32) (thermal : Bool) : Input :=
  { connected := true, powerValid := true, powerW := watts, thermalValid := thermal,
    bucket := .heating }

/-- The checkpoint of the day `everyTwoMinutes` is in. -/
def savedDay : DayAccum := { (default : DayAccum) with date := 19700102 }

/-- The open day of the ledger once the readings are in. -/
def openDayAfter (checkpoint : Option DayAccum) (inputs : List Input) : DayAccum :=
  (Books.run ⟨EnergyLedger.start checkpoint, []⟩ (everyTwoMinutes inputs)).ledger.cur

/-- An hour at the largest power a reading can have, then two minutes of it without the heat. -/
def hottestHour : List Input :=
  List.replicate 30 (heatingAt 0xFFFFFFFF true) ++ List.replicate 2 (heatingAt 0xFFFFFFFF false)

/-- A checkpoint with the largest electricity, all of it with its heat. -/
def mostElectricity : DayAccum :=
  { savedDay with
    elecWs := fun _ => 0xFFFFFFFFFFFFFFFF, coveredElecWs := fun _ => 0xFFFFFFFFFFFFFFFF }

/-- A checkpoint with the most seconds of power, all of them with its heat. -/
def mostSeconds : DayAccum := { savedDay with powerS := 0xFFFFFFFF, thermalS := 0xFFFFFFFF }

/-- A checkpoint with the most seconds of outdoor readings, all of them running. -/
def mostOutdoor : DayAccum := { savedDay with outdoorS := 0xFFFFFFFF, runOutdoorS := 0xFFFFFFFF }

end ArcticController

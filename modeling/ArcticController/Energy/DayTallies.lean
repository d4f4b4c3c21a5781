/-
The counters of the open day as words of exact amounts.

* `DayAccum.bookPower_eq`, …: which counters each part of a booking moves;
* `DayAccum.Booked`: the counters of an accumulation after a booking;
* `DayAccum.Booked.power`, `.elec`, `.thermal`, `.covered`, `.run`,
  `.outdoor`, `.outdoorSum`: each as the word of an exact share;
* `Tally`: a counter of the open day with the share it holds, and the proofs
  that booking a stretch adds the word of the share;
* `Tally.book`: any stretch, booked or not, adds the word of its share.
-/
import ArcticController.Energy.DayBook

namespace ArcticController

/-! ### Which counters a booking moves -/

/-- The running time by mode after `dt` seconds. -/
def runAfter (runS : Fin kModes → UInt32) (dt : UInt32) (p : Input) : Fin kModes → UInt32 :=
  match p.bucket.mode with
  | some m => if p.running then bump runS m dt else runS
  | none => runS

namespace DayAccum

variable (cur : DayAccum) (dt : UInt32) (p : Input)

lemma bookPower_eq : cur.bookPower dt p =
    { cur with
      elecWs := if p.powerValid then
          bump cur.elecWs p.bucket.index (p.powerW.toUInt64 * dt.toUInt64)
        else cur.elecWs
      powerS := if p.powerValid then cur.powerS + dt else cur.powerS } := by
  rw [bookPower]
  split <;> rfl

lemma bookRunning_eq : cur.bookRunning dt p =
    { cur with
      runS := runAfter cur.runS dt p
      sourceS := if p.running ∧ ¬ p.defrost then bump cur.sourceS p.source.index dt
        else cur.sourceS } := by
  cases hm : p.bucket.mode with
  | none =>
      simp only [bookRunning, runAfter, hm]
      split <;> rfl
  | some m =>
      simp only [bookRunning, runAfter, hm]
      by_cases hr : p.running <;> by_cases hd : p.defrost <;> simp [hr, hd]

lemma bookDefrost_eq : cur.bookDefrost dt p =
    { cur with
      defrostS := if p.defrost then cur.defrostS + dt else cur.defrostS
      defrostThermalWs := if p.defrost ∧ p.defrostThermalValid then
          cur.defrostThermalWs + p.defrostThermalW.toInt64 * dt.toUInt64.toInt64
        else cur.defrostThermalWs } := by
  by_cases hd : p.defrost <;> by_cases ht : p.defrostThermalValid <;> simp [bookDefrost, hd, ht]

/-- The heat and the electricity with it after a booking. -/
def thermalAfter : Fin kModes → UInt64 :=
  match p.bucket.mode with
  | some m =>
      if (p.thermalValid ∧ p.powerValid) ∧ modeHeat p > 0 then
        bump cur.thermalWs m ((modeHeat p).toInt64.toUInt64 * dt.toUInt64)
      else cur.thermalWs
  | none => cur.thermalWs

def coveredAfter : Fin kModes → UInt64 :=
  match p.bucket.mode with
  | some m =>
      if p.thermalValid ∧ p.powerValid then
        bump cur.coveredElecWs m (p.powerW.toUInt64 * dt.toUInt64)
      else cur.coveredElecWs
  | none => cur.coveredElecWs

/-- The settings are no counter. -/
lemma noteSettings_eq : ∃ flags flow glycol, cur.noteSettings p =
    { cur with flags := flags, flowLpmX10 := flow, glycolPct := glycol } := by
  rw [noteSettings]
  split
  · exact ⟨_, _, _, rfl⟩
  · split
    · exact ⟨_, cur.flowLpmX10, cur.glycolPct, rfl⟩
    · exact ⟨cur.flags, cur.flowLpmX10, cur.glycolPct, rfl⟩

lemma bookThermal_eq : ∃ flags flow glycol thermalS, cur.bookThermal dt p =
    { cur with
      thermalWs := cur.thermalAfter dt p
      coveredElecWs := cur.coveredAfter dt p
      flags := flags
      flowLpmX10 := flow
      glycolPct := glycol
      thermalS := thermalS } := by
  cases hm : p.bucket.mode with
  | none =>
      refine ⟨cur.flags, cur.flowLpmX10, cur.glycolPct, cur.thermalS, ?_⟩
      simp only [bookThermal, thermalAfter, coveredAfter, hm]
  | some m =>
      by_cases hv : p.thermalValid ∧ p.powerValid
      · simp only [bookThermal, thermalAfter, coveredAfter, hm, hv, and_self, if_true, true_and]
        obtain ⟨flags, flow, glycol, heq⟩ := noteSettings_eq
          { cur with
            thermalWs := if modeHeat p > 0 then
                bump cur.thermalWs m ((modeHeat p).toInt64.toUInt64 * dt.toUInt64)
              else cur.thermalWs
            coveredElecWs := bump cur.coveredElecWs m (p.powerW.toUInt64 * dt.toUInt64)
            thermalS := cur.thermalS + dt } p
        exact ⟨flags, flow, glycol, _, heq⟩
      · refine ⟨cur.flags, cur.flowLpmX10, cur.glycolPct, cur.thermalS, ?_⟩
        simp only [bookThermal, thermalAfter, coveredAfter, hm, hv, false_and, if_false]

lemma bookOutdoor_eq (outDt : UInt32) : ∃ flags lo hi sum outdoorS, cur.bookOutdoor outDt p =
    { cur with
      flags := flags
      outdoorMinDeci := lo
      outdoorMaxDeci := hi
      outdoorSumDeciS := sum
      outdoorS := outdoorS
      runOutdoorSumDeciS := if p.running ∧ p.bucket.mode.isSome then
          cur.runOutdoorSumDeciS + (p.outdoorC * 10).toInt32 * outDt.toInt32
        else cur.runOutdoorSumDeciS
      runOutdoorS := if p.running ∧ p.bucket.mode.isSome then cur.runOutdoorS + outDt
        else cur.runOutdoorS } := by
  have hnote : ∃ flags lo hi, cur.noteOutdoor (p.outdoorC * 10) =
      { cur with flags := flags, outdoorMinDeci := lo, outdoorMaxDeci := hi } := by
    simp only [noteOutdoor]
    split_ifs <;> exact ⟨_, _, _, rfl⟩
  obtain ⟨flags, lo, hi, hnote⟩ := hnote
  refine ⟨flags, lo, hi, cur.outdoorSumDeciS + (p.outdoorC * 10).toInt64 * outDt.toUInt64.toInt64,
    cur.outdoorS + outDt, ?_⟩
  simp only [bookOutdoor, hnote]
  split <;> rfl

/-- Whether the part from `outFrom` to `b` counts for the running outdoor average. -/
def outdoorBooked (D a b : ℤ) : Prop :=
  (p.outdoorValid ∧ ¬ p.defrost ∧ b > outdoorFrom D a) ∧ p.running ∧ p.bucket.mode.isSome

instance (D a b : ℤ) : Decidable (outdoorBooked p D a b) :=
  inferInstanceAs (Decidable ((_ ∧ _ ∧ _) ∧ _ ∧ _))

/-- The counters `c` of an accumulation `cur` after `[a, b)` was booked to it. -/
structure Booked (D a b : ℤ) (c : DayAccum) : Prop where
  date : c.date = cur.date
  elecWs : c.elecWs = if p.powerValid then
      bump cur.elecWs p.bucket.index (p.powerW.toUInt64 * (stepSeconds a b).toUInt64)
    else cur.elecWs
  powerS : c.powerS = if p.powerValid then cur.powerS + stepSeconds a b else cur.powerS
  runS : c.runS = runAfter cur.runS (stepSeconds a b) p
  thermalWs : c.thermalWs = cur.thermalAfter (stepSeconds a b) p
  coveredElecWs : c.coveredElecWs = cur.coveredAfter (stepSeconds a b) p
  runOutdoorS : c.runOutdoorS = if outdoorBooked p D a b then
      cur.runOutdoorS + stepSeconds (outdoorFrom D a) b else cur.runOutdoorS
  runOutdoorSumDeciS : c.runOutdoorSumDeciS = if outdoorBooked p D a b then
      cur.runOutdoorSumDeciS +
        (p.outdoorC * 10).toInt32 * (stepSeconds (outdoorFrom D a) b).toInt32
    else cur.runOutdoorSumDeciS

/-- What the part of a booking that every reading takes leaves `c` with. -/
structure BookedUnder (c : DayAccum) : Prop where
  date : c.date = cur.date
  elecWs : c.elecWs = if p.powerValid then
      bump cur.elecWs p.bucket.index (p.powerW.toUInt64 * dt.toUInt64)
    else cur.elecWs
  powerS : c.powerS = if p.powerValid then cur.powerS + dt else cur.powerS
  runS : c.runS = runAfter cur.runS dt p
  thermalWs : c.thermalWs = cur.thermalAfter dt p
  coveredElecWs : c.coveredElecWs = cur.coveredAfter dt p
  runOutdoorS : c.runOutdoorS = cur.runOutdoorS
  runOutdoorSumDeciS : c.runOutdoorSumDeciS = cur.runOutdoorSumDeciS

lemma bookUnder : cur.BookedUnder dt p
    ((((cur.bookPower dt p).bookRunning dt p).bookDefrost dt p).bookThermal dt p) := by
  obtain ⟨flags, flow, glycol, thermalS, hthermal⟩ := bookThermal_eq
    (((cur.bookPower dt p).bookRunning dt p).bookDefrost dt p) dt p
  rw [hthermal]
  constructor <;> simp only [bookDefrost_eq, bookRunning_eq, bookPower_eq, runAfter, thermalAfter,
    coveredAfter]

lemma book_booked {D a b : ℤ} (hab : a < b) (hc : p.connected) :
    cur.Booked p D a b (cur.book D a b p) := by
  have hskip : ¬ (b ≤ a ∨ ¬ p.connected) := by simp [hc, hab]
  have hunder := cur.bookUnder (stepSeconds a b) p
  rw [book, if_neg hskip]
  dsimp only
  generalize (((cur.bookPower (stepSeconds a b) p).bookRunning (stepSeconds a b) p).bookDefrost
    (stepSeconds a b) p).bookThermal (stepSeconds a b) p = c at hunder ⊢
  obtain ⟨hdate, helec, hpower, hrun, hthermal, hcovered, houtS, houtSum⟩ := hunder
  split
  case isTrue hout =>
    obtain ⟨flags, lo, hi, sum, outdoorS, houtdoor⟩ := c.bookOutdoor_eq p
      (stepSeconds (outdoorFrom D a) b)
    have hiff : outdoorBooked p D a b ↔ p.running ∧ p.bucket.mode.isSome :=
      ⟨fun h => h.2, fun h => ⟨hout, h⟩⟩
    rw [houtdoor]
    refine ⟨hdate, helec, hpower, hrun, hthermal, hcovered, ?_, ?_⟩
    · simp only [houtS, hiff]
    · simp only [houtSum, hiff]
  case isFalse hout =>
    have hnot : ¬ outdoorBooked p D a b := fun h => hout h.1
    refine ⟨hdate, helec, hpower, hrun, hthermal, hcovered, ?_, ?_⟩
    · rw [if_neg hnot, houtS]
    · rw [if_neg hnot, houtSum]

lemma book_self {D a b : ℤ} (h : b ≤ a ∨ ¬ p.connected) : cur.book D a b p = cur := by
  rw [book, if_pos h]

@[simp] lemma book_date (D a b : ℤ) : (cur.book D a b p).date = cur.date := by
  by_cases h : b ≤ a ∨ ¬ p.connected
  · rw [cur.book_self p h]
  · obtain ⟨hab, hc⟩ := not_or.mp h
    exact (cur.book_booked p (not_le.mp hab) (not_not.mp hc)).date

end DayAccum

/-! ### Words of exact amounts -/

lemma stepSeconds_word {a b : ℤ} (h : a ≤ b) :
    (stepSeconds a b).toBitVec = BitVec.ofInt 32 (b - a) := by
  obtain ⟨n, hn⟩ : ∃ n : ℕ, b - a = n := ⟨(b - a).toNat, by omega⟩
  rw [stepSeconds, hn, Int.toNat_natCast, BitVec.ofInt_natCast]
  rfl

lemma stepSeconds_toNat {a b : ℤ} (h : a ≤ b) (hstep : b - a ≤ kMaxStepSeconds) :
    ((stepSeconds a b).toNat : ℤ) = b - a := by
  rw [kMaxStepSeconds] at hstep
  rw [stepSeconds, UInt32.toNat_ofNat']
  simp only [Nat.reducePow]
  omega

lemma stepSeconds_word64 {a b : ℤ} (h : a ≤ b) (hstep : b - a ≤ kMaxStepSeconds) :
    (stepSeconds a b).toUInt64.toBitVec = BitVec.ofInt 64 (b - a) := by
  rw [← stepSeconds_toNat h hstep, BitVec.ofInt_natCast]
  apply BitVec.eq_of_toNat_eq
  rw [UInt64.toNat_toBitVec, UInt32.toNat_toUInt64, BitVec.toNat_ofNat]
  have := (stepSeconds a b).toNat_lt
  omega

lemma UInt32.word64 (x : UInt32) : x.toUInt64.toBitVec = BitVec.ofInt 64 x.toNat := by
  rw [BitVec.ofInt_natCast]
  apply BitVec.eq_of_toNat_eq
  rw [UInt64.toNat_toBitVec, UInt32.toNat_toUInt64, BitVec.toNat_ofNat]
  have := x.toNat_lt
  omega

lemma Int32.word64 (x : Int32) : x.toInt64.toUInt64.toBitVec = BitVec.ofInt 64 x.toInt := by
  rw [Int64.toBitVec_toUInt64, ← Int32.toInt_toInt64 x]
  exact BitVec.ofInt_toInt.symm

lemma Int16.word32 (x : Int16) : x.toInt32.toBitVec = BitVec.ofInt 32 x.toInt := by
  rw [← Int16.toInt_toInt32 x]
  exact BitVec.ofInt_toInt.symm

lemma bump_apply {n : ℕ} {α : Type} [Add α] (f : Fin n → α) (i j : Fin n) (x : α) :
    bump f i x j = if j = i then f j + x else f j := by
  rw [bump, Function.update_apply]
  split
  case isTrue h => rw [h]
  case isFalse => rfl

lemma span_of_le {a b : ℤ} (h : a ≤ b) : span a b = b - a := by
  rw [span]
  omega

lemma le_outdoorFrom (D a : ℤ) : a ≤ outdoorFrom D a := by
  rw [outdoorFrom]
  split <;> omega

/-- Adding the word of no share leaves a word. -/
lemma add_ofInt_zero {w : ℕ} (x : BitVec w) : x = x + BitVec.ofInt w 0 := by simp

/-! ### What a booking adds, as words -/

section

variable {cur c : DayAccum} {p : Input} {D a b : ℤ}

lemma DayAccum.Booked.power (h : cur.Booked p D a b c) (hab : a < b) (hc : p.connected) :
    c.powerS.toBitVec = cur.powerS.toBitVec + BitVec.ofInt 32 (powerShare D a b p) := by
  rw [h.powerS, powerShare, rateShare, span_of_le hab.le]
  by_cases hv : p.powerValid
  · rw [if_pos hv, if_pos ⟨hc, hv⟩, UInt32.toBitVec_add, stepSeconds_word hab.le, one_mul]
  · rw [if_neg hv, if_neg fun h => hv h.2, zero_mul]
    exact add_ofInt_zero _

/-- The word of a power times the seconds of a stretch. -/
lemma power_word (hab : a < b) (hstep : b - a ≤ kMaxStepSeconds) (w : UInt32) :
    (w.toUInt64 * (stepSeconds a b).toUInt64).toBitVec = BitVec.ofInt 64 (w.toNat * (b - a)) := by
  rw [UInt64.toBitVec_mul, UInt32.word64, stepSeconds_word64 hab.le hstep, BitVec.ofInt_mul]

lemma DayAccum.Booked.elec (h : cur.Booked p D a b c) (hab : a < b)
    (hstep : b - a ≤ kMaxStepSeconds) (hc : p.connected) (bucket : Fin kBuckets) :
    (c.elecWs bucket).toBitVec
      = (cur.elecWs bucket).toBitVec + BitVec.ofInt 64 (elecShare bucket D a b p) := by
  rw [h.elecWs, elecShare, rateShare, span_of_le hab.le]
  by_cases hv : p.powerValid
  · rw [if_pos hv, bump_apply]
    by_cases hbucket : p.bucket.index = bucket
    · rw [if_pos hbucket.symm, if_pos ⟨hc, hv, hbucket⟩, UInt64.toBitVec_add,
        power_word hab hstep]
    · rw [if_neg fun h => hbucket h.symm, if_neg fun h => hbucket h.2.2, zero_mul]
      exact add_ofInt_zero _
  · rw [if_neg hv, if_neg fun h => hv h.2.1, zero_mul]
    exact add_ofInt_zero _

lemma DayAccum.Booked.thermal (h : cur.Booked p D a b c) (hab : a < b)
    (hstep : b - a ≤ kMaxStepSeconds) (hc : p.connected) (m : Fin kModes) :
    (c.thermalWs m).toBitVec
      = (cur.thermalWs m).toBitVec + BitVec.ofInt 64 (thermalShare m D a b p) := by
  rw [h.thermalWs, DayAccum.thermalAfter, thermalShare, rateShare, span_of_le hab.le]
  cases hm : p.bucket.mode with
  | none =>
      rw [if_neg fun h => by simp [heatCounts, hm] at h, zero_mul]
      exact add_ofInt_zero _
  | some k =>
      dsimp only
      by_cases hv : (p.thermalValid ∧ p.powerValid) ∧ modeHeat p > 0
      · rw [if_pos hv, bump_apply]
        by_cases hk : k = m
        · subst hk
          rw [if_pos rfl, if_pos ⟨⟨hc, hv.1.1, hv.1.2, hm⟩, hv.2⟩, UInt64.toBitVec_add,
            UInt64.toBitVec_mul, Int32.word64, stepSeconds_word64 hab.le hstep, BitVec.ofInt_mul]
        · rw [if_neg fun h => hk h.symm, if_neg fun h => hk (Option.some.inj
            (hm.symm.trans h.1.2.2.2)), zero_mul]
          exact add_ofInt_zero _
      · rw [if_neg hv, if_neg fun h => hv ⟨⟨h.1.2.1, h.1.2.2.1⟩, h.2⟩, zero_mul]
        exact add_ofInt_zero _

lemma DayAccum.Booked.covered (h : cur.Booked p D a b c) (hab : a < b)
    (hstep : b - a ≤ kMaxStepSeconds) (hc : p.connected) (m : Fin kModes) :
    (c.coveredElecWs m).toBitVec
      = (cur.coveredElecWs m).toBitVec + BitVec.ofInt 64 (coveredShare m D a b p) := by
  rw [h.coveredElecWs, DayAccum.coveredAfter, coveredShare, rateShare, span_of_le hab.le]
  cases hm : p.bucket.mode with
  | none =>
      rw [if_neg fun h => by simp [heatCounts, hm] at h, zero_mul]
      exact add_ofInt_zero _
  | some k =>
      dsimp only
      by_cases hv : p.thermalValid ∧ p.powerValid
      · rw [if_pos hv, bump_apply]
        by_cases hk : k = m
        · subst hk
          rw [if_pos rfl, if_pos ⟨hc, hv.1, hv.2, hm⟩, UInt64.toBitVec_add, power_word hab hstep]
        · rw [if_neg fun h => hk h.symm, if_neg fun h => hk (Option.some.inj
            (hm.symm.trans h.2.2.2)), zero_mul]
          exact add_ofInt_zero _
      · rw [if_neg hv, if_neg fun h => hv ⟨h.2.1, h.2.2.1⟩, zero_mul]
        exact add_ofInt_zero _

/-- The running time of a mode, as a word. -/
lemma runAfter_word (runS : Fin kModes → UInt32) (hab : a ≤ b) (hc : p.connected)
    (m : Fin kModes) : (runAfter runS (stepSeconds a b) p m).toBitVec
      = (runS m).toBitVec + BitVec.ofInt 32 (runShare m D a b p) := by
  rw [runAfter, runShare, rateShare, span_of_le hab]
  cases hm : p.bucket.mode with
  | none =>
      rw [if_neg fun h => by simp at h, zero_mul]
      exact add_ofInt_zero _
  | some k =>
      dsimp only
      by_cases hr : p.running
      · rw [if_pos hr, bump_apply]
        by_cases hk : k = m
        · subst hk
          rw [if_pos rfl, if_pos ⟨hc, hr, rfl⟩, UInt32.toBitVec_add, stepSeconds_word hab, one_mul]
        · rw [if_neg fun h => hk h.symm, if_neg fun h => hk (Option.some.inj h.2.2), zero_mul]
          exact add_ofInt_zero _
      · rw [if_neg hr, if_neg fun h => hr h.2.1, zero_mul]
        exact add_ofInt_zero _

lemma DayAccum.Booked.run (h : cur.Booked p D a b c) (hab : a < b) (hc : p.connected)
    (m : Fin kModes) :
    (c.runS m).toBitVec = (cur.runS m).toBitVec + BitVec.ofInt 32 (runShare m D a b p) := by
  rw [h.runS]
  exact runAfter_word cur.runS hab.le hc m

/-- The outdoor reading is booked when it counts over more than nothing. -/
lemma DayAccum.outdoorBooked_iff (hc : p.connected) :
    DayAccum.outdoorBooked p D a b ↔ runOutdoorCounts p ∧ outdoorFrom D a < b := by
  rw [outdoorBooked, runOutdoorCounts]
  tauto

/-- The seconds an outdoor reading counts for, at a rate of `x`. -/
lemma outdoorRate_of_not {rate : Input → ℤ} (h : ¬ (runOutdoorCounts p ∧ outdoorFrom D a < b))
    (hrate : ¬ runOutdoorCounts p → rate p = 0) : outdoorRate rate D a b p = 0 := by
  rw [outdoorRate]
  by_cases hcounts : runOutdoorCounts p
  · have : span (outdoorFrom D a) b = 0 := by
      have := not_and.mp h hcounts
      rw [span]
      omega
    rw [this, mul_zero]
  · rw [hrate hcounts, zero_mul]

/-- The seconds of the outdoor average, as a word. -/
lemma outdoor_word {booked : Prop} [Decidable booked] (s : UInt32)
    (hiff : booked ↔ runOutdoorCounts p ∧ outdoorFrom D a < b) :
    (if booked then s + stepSeconds (outdoorFrom D a) b else s).toBitVec
      = s.toBitVec + BitVec.ofInt 32 (outdoorShare D a b p) := by
  by_cases hcounts : runOutdoorCounts p ∧ outdoorFrom D a < b
  · rw [if_pos (hiff.mpr hcounts), outdoorShare, outdoorRate, span_of_le hcounts.2.le,
      if_pos hcounts.1, one_mul, UInt32.toBitVec_add, stepSeconds_word hcounts.2.le]
  · rw [if_neg fun h => hcounts (hiff.mp h), outdoorShare,
      outdoorRate_of_not hcounts fun h => if_neg h]
    exact add_ofInt_zero _

lemma DayAccum.Booked.outdoor (h : cur.Booked p D a b c) (hc : p.connected) :
    c.runOutdoorS.toBitVec = cur.runOutdoorS.toBitVec + BitVec.ofInt 32 (outdoorShare D a b p) := by
  rw [h.runOutdoorS]
  exact outdoor_word _ (DayAccum.outdoorBooked_iff hc)

lemma DayAccum.Booked.outdoorSum (h : cur.Booked p D a b c) (hc : p.connected) :
    c.runOutdoorSumDeciS.toBitVec
      = cur.runOutdoorSumDeciS.toBitVec + BitVec.ofInt 32 (outdoorSumShare D a b p) := by
  rw [h.runOutdoorSumDeciS]
  by_cases hcounts : runOutdoorCounts p ∧ outdoorFrom D a < b
  · rw [if_pos ((DayAccum.outdoorBooked_iff hc).mpr hcounts), outdoorSumShare, outdoorRate,
      span_of_le hcounts.2.le, if_pos hcounts.1, Int32.toBitVec_add, Int32.toBitVec_mul,
      Int16.word32, UInt32.toBitVec_toInt32, stepSeconds_word hcounts.2.le, BitVec.ofInt_mul]
  · rw [if_neg fun h => hcounts ((DayAccum.outdoorBooked_iff hc).mp h), outdoorSumShare,
      outdoorRate_of_not hcounts fun h => if_neg h]
    exact add_ofInt_zero _

end

/-! ### Tallies -/

/-- A counter of the open day: its word, the share of a stretch that it holds,
and that booking a stretch adds the word of the share. -/
structure Tally where
  width : ℕ
  field : DayAccum → BitVec width
  share : Share
  splits : share.Splits
  connected : ∀ D a b p, ¬ p.connected → share D a b p = 0
  blank : ∀ date offset,
    field { (default : DayAccum) with date := date, utcOffsetMin := offset } = 0
  counts : ∀ cur s d, field { cur with starts := s, defrosts := d } = field cur
  booked : ∀ {cur c : DayAccum} {p D a b}, cur.Booked p D a b c → a < b →
    b - a ≤ kMaxStepSeconds → p.connected → field c = field cur + BitVec.ofInt width (share D a b p)

lemma rateShare_connected {rate : Input → ℤ} (h : ∀ p, ¬ p.connected → rate p = 0) (D a b : ℤ)
    (p : Input) (hp : ¬ p.connected) : rateShare rate D a b p = 0 := by
  rw [rateShare, h p hp, zero_mul]

lemma outdoorRate_connected {rate : Input → ℤ} (h : ∀ p, ¬ p.connected → rate p = 0) (D a b : ℤ)
    (p : Input) (hp : ¬ p.connected) : outdoorRate rate D a b p = 0 := by
  rw [outdoorRate, h p hp, zero_mul]

namespace Tally

def power : Tally where
  width := 32
  field a := a.powerS.toBitVec
  share := powerShare
  splits := rateShare_splits _
  connected := rateShare_connected fun _ hp => if_neg fun h => hp h.1
  blank _ _ := rfl
  counts _ _ _ := rfl
  booked h hab _ hc := h.power hab hc

def elec (bucket : Fin kBuckets) : Tally where
  width := 64
  field a := (a.elecWs bucket).toBitVec
  share := elecShare bucket
  splits := rateShare_splits _
  connected := rateShare_connected fun _ hp => if_neg fun h => hp h.1
  blank _ _ := rfl
  counts _ _ _ := rfl
  booked h hab hstep hc := h.elec hab hstep hc bucket

def thermal (m : Fin kModes) : Tally where
  width := 64
  field a := (a.thermalWs m).toBitVec
  share := thermalShare m
  splits := rateShare_splits _
  connected := rateShare_connected fun _ hp => if_neg fun h => hp h.1.1
  blank _ _ := rfl
  counts _ _ _ := rfl
  booked h hab hstep hc := h.thermal hab hstep hc m

def covered (m : Fin kModes) : Tally where
  width := 64
  field a := (a.coveredElecWs m).toBitVec
  share := coveredShare m
  splits := rateShare_splits _
  connected := rateShare_connected fun _ hp => if_neg fun h => hp h.1
  blank _ _ := rfl
  counts _ _ _ := rfl
  booked h hab hstep hc := h.covered hab hstep hc m

def run (m : Fin kModes) : Tally where
  width := 32
  field a := (a.runS m).toBitVec
  share := runShare m
  splits := rateShare_splits _
  connected := rateShare_connected fun _ hp => if_neg fun h => hp h.1
  blank _ _ := rfl
  counts _ _ _ := rfl
  booked h hab _ hc := h.run hab hc m

def outdoor : Tally where
  width := 32
  field a := a.runOutdoorS.toBitVec
  share := outdoorShare
  splits := outdoorRate_splits _
  connected := outdoorRate_connected fun _ hp => if_neg fun h => hp h.1
  blank _ _ := rfl
  counts _ _ _ := rfl
  booked h _ _ hc := h.outdoor hc

def outdoorSum : Tally where
  width := 32
  field a := a.runOutdoorSumDeciS.toBitVec
  share := outdoorSumShare
  splits := outdoorRate_splits _
  connected := outdoorRate_connected fun _ hp => if_neg fun h => hp h.1
  blank _ _ := rfl
  counts _ _ _ := rfl
  booked h _ _ hc := h.outdoorSum hc

/-- Booking any stretch adds the word of its share. -/
lemma book (t : Tally) (cur : DayAccum) {D a b : ℤ} {p : Input} (hab : a ≤ b)
    (hstep : b - a ≤ kMaxStepSeconds) :
    t.field (cur.book D a b p) = t.field cur + BitVec.ofInt t.width (t.share D a b p) := by
  by_cases hc : p.connected
  · rcases hab.lt_or_eq with hlt | rfl
    · exact t.booked (cur.book_booked p hlt hc) hlt hstep hc
    · rw [cur.book_self p (Or.inl le_rfl), t.splits.self]
      exact add_ofInt_zero _
  · rw [cur.book_self p (Or.inr hc), t.connected D a b p hc]
    exact add_ofInt_zero _

end Tally

end ArcticController

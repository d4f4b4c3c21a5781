/-
The averages of the telemetry samples are time-weighted means.

* `FitsSum`: the sum over the spans since the last average is one that 64 bits hold;
* `PowerMeans`: what a `take` of the power meter gives: the floor of the mean over the spans
  it accounts for, or a lone reading, or nothing;
* `PerfMeans`: the same of the heat, and the COP of the two means;
* `repeats` of both: repeating the reading in force changes nothing.
-/
import ArcticController.Energy.Averagers

namespace ArcticController

/-! ### Means as the meters round them -/

/-- A number below the marker. -/
def clampReading (n : ℕ) : UInt16 := UInt16.ofNat (min n 0xFFFE)

lemma toNat_clampReading (n : ℕ) : (clampReading n).toNat = min n 0xFFFE :=
  UInt16.toNat_ofNat_of_lt' (lt_of_le_of_lt (min_le_right _ _) (by decide))

lemma belowMarker_eq (x : UInt64) : belowMarker x = clampReading x.toNat := by
  apply UInt16.toNat_inj.mp
  rw [toNat_clampReading, belowMarker]
  by_cases h : x > 0xFFFE
  · have hlt : 0xFFFE < x.toNat := UInt64.lt_iff_toNat_lt.mp h
    rw [if_pos h, Nat.min_eq_right hlt.le]
    rfl
  · have hle : x.toNat ≤ 0xFFFE := not_lt.mp fun hlt => h (UInt64.lt_iff_toNat_lt.mpr hlt)
    rw [if_neg h, Nat.min_eq_left hle, UInt64.toNat_toUInt16, Nat.mod_eq_of_lt (by omega)]

section Sums

variable {ρ : Type}

/-- The sum of a quantity, and the time, fit in 64 bits. -/
def FitsSum (f : ρ → ℕ) (spans : List (ℕ × ρ)) : Prop :=
  spanSum f spans < 2 ^ 64 ∧ spanTime spans < 2 ^ 64

/-- The floor of the time-weighted mean. -/
def spanMean (f : ρ → ℕ) (spans : List (ℕ × ρ)) : ℕ := spanSum f spans / spanTime spans

lemma ofNat_pos {n : ℕ} (hpos : 0 < n) (hlt : n < 2 ^ 64) : UInt64.ofNat n > 0 := by
  rw [gt_iff_lt, UInt64.lt_iff_toNat_lt, UInt64.toNat_ofNat_of_lt' hlt]
  exact hpos

lemma toNat_mean {f : ρ → ℕ} {spans : List (ℕ × ρ)} (h : FitsSum f spans) :
    (UInt64.ofNat (spanSum f spans) / UInt64.ofNat (spanTime spans)).toNat = spanMean f spans := by
  rw [UInt64.toNat_div, UInt64.toNat_ofNat_of_lt' h.1, UInt64.toNat_ofNat_of_lt' h.2, spanMean]

end Sums

/-! ### The power meter -/

/-- What a `take` of the power meter gives at a moment, after some calls. -/
structure PowerMeans (calls : List (MeterCall PowerReading)) (ms : ℕ) : Prop where
  /-- Nothing is divided by zero. -/
  answered : ∃ watts, powerTake calls ms = some watts
  mean : powerSpans calls ms ≠ [] → FitsSum (fun r => r.watts.toNat) (powerSpans calls ms) →
    powerTake calls ms
      = some (some (clampReading (spanMean (fun r => r.watts.toNat) (powerSpans calls ms))))
  between : powerSpans calls ms ≠ [] → FitsSum (fun r => r.watts.toNat) (powerSpans calls ms) →
    ∀ lo hi, (∀ s ∈ powerSpans calls ms, lo ≤ s.2.watts.toNat ∧ s.2.watts.toNat ≤ hi) →
      ∃ watts, powerTake calls ms = some (some watts) ∧
        min lo 0xFFFE ≤ watts.toNat ∧ watts.toNat ≤ min hi 0xFFFE
  /-- Without a span, a valid reading in force stands alone. -/
  lone : powerSpans calls ms = [] → powerTake calls ms = some ((inForce calls).bind fun r =>
    if r.valid then some (clampReading r.watts.toNat) else none)
  repeats : ∀ calls', RepeatedCalls calls calls' → CallsInSteps kMaxStepMs.toNat calls ms →
    CallsInOrder calls' ms → powerTake calls' ms = powerTake calls ms

lemma clampReading_between {n lo hi : ℕ} (h : lo ≤ n ∧ n ≤ hi) :
    min lo 0xFFFE ≤ (clampReading n).toNat ∧ (clampReading n).toNat ≤ min hi 0xFFFE := by
  rw [toNat_clampReading]
  exact ⟨min_le_min_right _ h.1, min_le_min_right _ h.2⟩

lemma powerTake_mean {calls : List (MeterCall PowerReading)} {ms : ℕ}
    (hspans : powerSpans calls ms ≠ [])
    (hfits : FitsSum (fun r => r.watts.toNat) (powerSpans calls ms)) : powerTake calls ms
      = some (some (clampReading (spanMean (fun r => r.watts.toNat) (powerSpans calls ms)))) := by
  rw [powerTake_eq, powerResult, if_pos (ofNat_pos (spanTime_pos hspans) hfits.2), belowMarker_eq,
    toNat_mean hfits]

lemma powerMeans (calls : List (MeterCall PowerReading)) (ms : ℕ) : PowerMeans calls ms where
  answered := ⟨_, powerTake_eq calls ms⟩
  mean := powerTake_mean
  between := fun hspans hfits _ _ hrange => ⟨_, powerTake_mean hspans hfits,
    clampReading_between (mean_between hrange (spanTime_pos hspans))⟩
  lone := by
    intro hspans
    rw [powerTake_eq, hspans, powerResult, if_neg (by simp [spanTime])]
    simp only [belowMarker_eq, UInt32.toNat_toUInt64]
  repeats := by
    intro calls' hrepeats hsteps horder
    have hturn : kMaxStepMs.toNat < 2 ^ 32 := UInt32.toNat_lt _
    rw [powerTake_eq, powerTake_eq, hrepeats.inForce_eq, spanTime_eq, spanTime_eq, powerSpans,
      powerSpans, hrepeats.spanSum_eq _ hturn hsteps horder, hrepeats.spanSum_eq _ hturn hsteps horder]

/-! ### The performance meter -/

/-- The COP of two means, in hundredths and rounded to the nearest one. -/
def copOf (heat power : ℕ) : ℕ := (heat * 100 + power / 2) / power

/-- What a `take` of the performance meter gives at a moment, after some calls. -/
structure PerfMeans (calls : List (MeterCall PerfReading)) (ms : ℕ) : Prop where
  /-- Nothing is divided by zero. -/
  answered : ∃ result, perfTake calls ms = some result
  mean : perfSpans calls ms ≠ [] → FitsSum (fun r => r.heatW.toNat) (perfSpans calls ms) →
    FitsSum (fun r => r.powerW.toNat) (perfSpans calls ms) →
    perfTake calls ms = some (some
      (clampReading (spanMean (fun r => r.heatW.toNat) (perfSpans calls ms)),
        clampReading (copOf (spanMean (fun r => r.heatW.toNat) (perfSpans calls ms))
          (spanMean (fun r => r.powerW.toNat) (perfSpans calls ms)))))
  between : perfSpans calls ms ≠ [] → FitsSum (fun r => r.heatW.toNat) (perfSpans calls ms) →
    FitsSum (fun r => r.powerW.toNat) (perfSpans calls ms) →
    ∀ lo hi, (∀ s ∈ perfSpans calls ms, lo ≤ s.2.heatW.toNat ∧ s.2.heatW.toNat ≤ hi) →
      ∃ heat cop, perfTake calls ms = some (some (heat, cop)) ∧
        min lo 0xFFFE ≤ heat.toNat ∧ heat.toNat ≤ min hi 0xFFFE
  /-- Without a span, an estimate in force that counts stands alone. -/
  lone : perfSpans calls ms = [] → perfTake calls ms = some ((inForce calls).bind fun r =>
    if r.counts then some (clampReading r.heatW.toNat, clampReading (copOf r.heatW.toNat r.powerW.toNat))
    else none)
  repeats : ∀ calls', RepeatedCalls calls calls' → CallsInSteps kMaxStepMs.toNat calls ms →
    CallsInOrder calls' ms → perfTake calls' ms = perfTake calls ms

/-- Means of 32-bit readings leave room for the rounding. -/
lemma perfOf_eq {heat power : UInt64} (hheat : heat.toNat < 2 ^ 32) (hpower : power.toNat < 2 ^ 32) :
    perfOf heat power = (clampReading heat.toNat, clampReading (copOf heat.toNat power.toNat)) := by
  have htwo : (2 : UInt64).toNat = 2 := rfl
  have hhundred : (100 : UInt64).toNat = 100 := rfl
  have hcop : ((heat * 100 + power / 2) / power).toNat = copOf heat.toNat power.toNat := by
    rw [UInt64.toNat_div, UInt64.toNat_add, UInt64.toNat_mul, UInt64.toNat_div, htwo, hhundred, copOf,
      Nat.mod_eq_of_lt (show heat.toNat * 100 < 2 ^ 64 by omega),
      Nat.mod_eq_of_lt (show heat.toNat * 100 + power.toNat / 2 < 2 ^ 64 by omega)]
  rw [perfOf, belowMarker_eq, belowMarker_eq, hcop]

/-- A mean of 32-bit readings has 32 bits. -/
lemma spanMean_lt {ρ : Type} {f : ρ → UInt32} {spans : List (ℕ × ρ)} (hpos : 0 < spanTime spans) :
    spanMean (fun r => (f r).toNat) spans < 2 ^ 32 := by
  have hle := (@mean_between ρ (fun r => (f r).toNat) spans 0 (2 ^ 32 - 1)
    (fun s _ => ⟨Nat.zero_le _, Nat.le_pred_of_lt (UInt32.toNat_lt (f s.2))⟩) hpos).2
  rw [spanMean]
  omega

lemma perfTake_mean {calls : List (MeterCall PerfReading)} {ms : ℕ} (hspans : perfSpans calls ms ≠ [])
    (hheat : FitsSum (fun r => r.heatW.toNat) (perfSpans calls ms))
    (hpower : FitsSum (fun r => r.powerW.toNat) (perfSpans calls ms)) :
    perfTake calls ms = some (some
      (clampReading (spanMean (fun r => r.heatW.toNat) (perfSpans calls ms)),
        clampReading (copOf (spanMean (fun r => r.heatW.toNat) (perfSpans calls ms))
          (spanMean (fun r => r.powerW.toNat) (perfSpans calls ms))))) := by
  have htime := spanTime_pos hspans
  -- Every estimate that counts has at least one watt.
  have hmin := (@mean_between PerfReading (fun r => r.powerW.toNat) (perfSpans calls ms) 1
    (2 ^ 32 - 1) (fun s hs => ⟨by
      have hpos := PerfReading.power_pos (countedSpans_valid hs).1
      rw [gt_iff_lt, UInt64.lt_iff_toNat_lt, UInt32.toNat_toUInt64] at hpos
      exact hpos, Nat.le_pred_of_lt (UInt32.toNat_lt s.2.powerW)⟩) htime).1
  have hsome : UInt64.ofNat (spanSum (fun r => r.powerW.toNat) (perfSpans calls ms))
      / UInt64.ofNat (spanTime (perfSpans calls ms)) > 0 := by
    rw [gt_iff_lt, UInt64.lt_iff_toNat_lt, toNat_mean hpower]
    exact hmin
  rw [perfTake_eq, perfResult, if_pos (ofNat_pos htime hheat.2), if_pos hsome, perfOf_eq
    (by rw [toNat_mean hheat]; exact spanMean_lt htime)
    (by rw [toNat_mean hpower]; exact spanMean_lt htime), toNat_mean hheat, toNat_mean hpower]

lemma perfMeans (calls : List (MeterCall PerfReading)) (ms : ℕ) : PerfMeans calls ms where
  answered := ⟨_, perfTake_eq calls ms⟩
  mean := perfTake_mean
  between := fun hspans hheat hpower _ _ hrange => ⟨_, _, perfTake_mean hspans hheat hpower,
    clampReading_between (mean_between hrange (spanTime_pos hspans))⟩
  lone := by
    intro hspans
    rw [perfTake_eq, hspans, perfResult, if_neg (by simp [spanTime])]
    cases hr : inForce calls with
    | none => rfl
    | some r =>
        dsimp only [Option.bind_some]
        rw [perfOf_eq (by rw [UInt32.toNat_toUInt64]; exact UInt32.toNat_lt _)
          (by rw [UInt32.toNat_toUInt64]; exact UInt32.toNat_lt _), UInt32.toNat_toUInt64,
          UInt32.toNat_toUInt64]
  repeats := by
    intro calls' hrepeats hsteps horder
    have hturn : kMaxStepMs.toNat < 2 ^ 32 := UInt32.toNat_lt _
    rw [perfTake_eq, perfTake_eq, hrepeats.inForce_eq, spanTime_eq, spanTime_eq, perfSpans,
      perfSpans, hrepeats.spanSum_eq _ hturn hsteps horder, hrepeats.spanSum_eq _ hturn hsteps horder,
      hrepeats.spanSum_eq _ hturn hsteps horder]

/-- **Telemetry averages are time-weighted means**: after any calls of the two meters, a
`take` gives the floor of the mean over the spans it accounts for, and the COP of such means;
repeated readings do not change it. -/
theorem telemetry_means (power : List (MeterCall PowerReading)) (perf : List (MeterCall PerfReading))
    (ms : ℕ) : PowerMeans power ms ∧ PerfMeans perf ms :=
  ⟨powerMeans power ms, perfMeans perf ms⟩

/-- A reading that is reported every 120 seconds. -/
def steadyCalls {ρ : Type} (r : ρ) : ℕ → List (MeterCall ρ)
  | 0 => [.add 0 r]
  | n + 1 => .add ((n + 1) * 120000) r :: steadyCalls r n

/-- The sum over a reading that does not change. -/
lemma spanSum_steadyCalls {ρ : Type} {valid : ρ → Bool} (f : ρ → ℕ) {r : ρ} (hr : valid r = true)
    (n : ℕ) {ms : ℕ} (h : n * 120000 ≤ ms ∧ ms ≤ n * 120000 + 120000) :
    spanSum f (countedSpans valid 120000 (steadyCalls r n) ms) = f r * ms := by
  induction n generalizing ms with
  | zero =>
      rw [Nat.zero_mul] at h
      rw [steadyCalls, countedSpans, spanSum_append,
        spanSum_lastSpan f (by decide) (r := r) rfl h, if_pos hr]
      rfl
  | succ n ih =>
      have hrest := @ih ((n + 1) * 120000)
        ⟨Nat.mul_le_mul_right _ (Nat.le_succ n), (Nat.succ_mul n 120000).le⟩
      rw [steadyCalls, countedSpans, spanSum_append,
        spanSum_lastSpan f (by decide) (r := r) rfl h, if_pos hr]
      calc f r * (ms - (n + 1) * 120000)
            + spanSum f (countedSpans valid 120000 (steadyCalls r n) ((n + 1) * 120000))
          = f r * (ms - (n + 1) * 120000) + f r * ((n + 1) * 120000) := by rw [hrest]
        _ = f r * ms := by rw [← Nat.mul_add, Nat.sub_add_cancel h.1]

/-- Not every result is a mean of the readings: a lone one stands for itself, one is clamped
below all the readings, a COP is rounded up, a span is shortened by a turn of the clock, and a
sum of 2^32 + 2 milliseconds at the largest reading wraps. -/
theorem not_plain_means :
    (powerSpans [.add 1000 ⟨true, 1000⟩] 1000 = [] ∧
      powerTake [.add 1000 ⟨true, 1000⟩] 1000 = some (some 1000)) ∧
    (powerSpans [.add 0 ⟨true, 100000⟩] 30000 = [(30000, ⟨true, 100000⟩)] ∧
      powerTake [.add 0 ⟨true, 100000⟩] 30000 = some (some 65534)) ∧
    perfTake [.add 0 ⟨true, 5, 3⟩] 1000 = some (some (5, 167)) ∧
    powerTake [.add (2 ^ 32 + 1000) ⟨true, 300⟩, .add 0 ⟨true, 100⟩] (2 ^ 32 + 2000)
      = some (some 200) ∧
    powerTake (steadyCalls ⟨true, 0xFFFFFFFF⟩ 35791) (2 ^ 32 + 2) = some (some 0) := by
  refine ⟨⟨by decide, by decide⟩, ⟨by decide, by decide⟩, by decide, by decide, ?_⟩
  have hvalid : PowerReading.valid ⟨true, 0xFFFFFFFF⟩ = true := rfl
  have hsum := spanSum_steadyCalls (fun r => r.watts.toNat) hvalid 35791
    (show 35791 * 120000 ≤ 2 ^ 32 + 2 ∧ 2 ^ 32 + 2 ≤ 35791 * 120000 + 120000 by decide)
  have htime := spanSum_steadyCalls (fun _ => 1) hvalid 35791
    (show 35791 * 120000 ≤ 2 ^ 32 + 2 ∧ 2 ^ 32 + 2 ≤ 35791 * 120000 + 120000 by decide)
  rw [← spanTime_eq] at htime
  rw [powerTake_eq, powerSpans, show kMaxStepMs.toNat = 120000 from rfl, hsum, htime]
  decide

end ArcticController

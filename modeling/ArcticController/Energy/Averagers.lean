/-
The averages of the telemetry samples (`PowerAverager` and `PerfAverager` in
`energy_ledger.h`).

* `PowerAverager`, `PerfAverager`: the two meters, with `add` and `take`;
* `PowerAverager.run`, `powerTake` and the same of the other one: the state after some calls,
  and what a `take` gives then;
* `PowerBooks`, `PerfBooks`: what the state holds of the calls;
* `powerTake_eq`, `perfTake_eq`: what a `take` gives in terms of the spans it accounts for;
* `PowerMeans`, `PerfMeans`: these are the time-weighted means.
-/
import ArcticController.Base.MeterSpans

namespace ArcticController

/-! ### The meters -/

/-- `kMaxStepMs`, of both meters. -/
def kMaxStepMs : UInt32 := 120000

/-- An unsigned division; `none` is one by zero. -/
def checkedDiv (x y : UInt64) : Option UInt64 := if y = 0 then none else some (x / y)

/-- A reading below the marker that stands for none. -/
def belowMarker (x : UInt64) : UInt16 := (if x > 0xFFFE then 0xFFFE else x).toUInt16

structure PowerAverager where
  hasLast : Bool := false
  lastValid : Bool := false
  lastMs : UInt32 := 0
  lastW : UInt32 := 0
  sum : UInt64 := 0
  ms : UInt64 := 0
deriving DecidableEq, Repr

namespace PowerAverager

def add (p : PowerAverager) (nowMs : UInt32) (valid : Bool) (watts : UInt32) : PowerAverager :=
  let p :=
    if p.hasLast ∧ p.lastValid then
      let dt := nowMs - p.lastMs
      if dt > 0 ∧ dt ≤ kMaxStepMs then
        { p with sum := p.sum + p.lastW.toUInt64 * dt.toUInt64, ms := p.ms + dt.toUInt64 }
      else p
    else p
  { p with hasLast := true, lastMs := nowMs, lastValid := valid, lastW := watts }

/-- `take`: the watts, where it returns true, and the meter after it. -/
def take (p : PowerAverager) (nowMs : UInt32) : Option (Option UInt16 × PowerAverager) := do
  let p := p.add nowMs p.lastValid p.lastW
  let watts ←
    if p.ms > 0 then do
      let avg ← checkedDiv p.sum p.ms
      pure (some (belowMarker avg))
    else if p.hasLast ∧ p.lastValid then pure (some (belowMarker p.lastW.toUInt64))
    else pure none
  return (watts, { p with sum := 0, ms := 0 })

end PowerAverager

structure PerfAverager where
  hasLast : Bool := false
  lastValid : Bool := false
  lastMs : UInt32 := 0
  lastHeatW : UInt32 := 0
  lastPowerW : UInt32 := 0
  heatSum : UInt64 := 0
  powerSum : UInt64 := 0
  ms : UInt64 := 0
deriving DecidableEq, Repr

namespace PerfAverager

def add (p : PerfAverager) (nowMs : UInt32) (valid : Bool) (heatW powerW : UInt32) :
    PerfAverager :=
  let p :=
    if p.hasLast ∧ p.lastValid then
      let dt := nowMs - p.lastMs
      if dt > 0 ∧ dt ≤ kMaxStepMs then
        { p with
          heatSum := p.heatSum + p.lastHeatW.toUInt64 * dt.toUInt64
          powerSum := p.powerSum + p.lastPowerW.toUInt64 * dt.toUInt64
          ms := p.ms + dt.toUInt64 }
      else p
    else p
  { p with
    hasLast := true, lastMs := nowMs, lastValid := valid && powerW > 0, lastHeatW := heatW,
    lastPowerW := powerW }

/-- `take`: the heat and the COP in hundredths, where it returns true, and the meter after
it. -/
def take (p : PerfAverager) (nowMs : UInt32) :
    Option (Option (UInt16 × UInt16) × PerfAverager) := do
  let p := p.add nowMs p.lastValid p.lastHeatW p.lastPowerW
  let (heat, power, ok) ←
    if p.ms > 0 then do
      let heat ← checkedDiv p.heatSum p.ms
      let power ← checkedDiv p.powerSum p.ms
      pure (heat, power, decide (power > 0))
    else if p.hasLast ∧ p.lastValid then
      pure (p.lastHeatW.toUInt64, p.lastPowerW.toUInt64, true)
    else pure (0, 0, false)
  let result ←
    if ok then do
      let cop ← checkedDiv (heat * 100 + power / 2) power
      pure (some (belowMarker heat, belowMarker cop))
    else pure none
  return (result, { p with heatSum := 0, powerSum := 0, ms := 0 })

end PerfAverager

/-! ### Runs -/

/-- The arguments of `PowerAverager::add`. -/
structure PowerReading where
  valid : Bool
  watts : UInt32
deriving DecidableEq, Repr

/-- The arguments of `PerfAverager::add`. -/
structure PerfReading where
  valid : Bool
  heatW : UInt32
  powerW : UInt32
deriving DecidableEq, Repr

/-- Without electrical power an estimate does not count. -/
def PerfReading.counts (r : PerfReading) : Bool := r.valid && r.powerW > 0

/-- The meter after some calls, the newest one first. -/
def PowerAverager.run : List (MeterCall PowerReading) → Option PowerAverager
  | [] => some {}
  | .add ms r :: calls => do
      let p ← PowerAverager.run calls
      return p.add (stamp ms) r.valid r.watts
  | .take ms :: calls => do
      let p ← PowerAverager.run calls
      let (_, p) ← p.take (stamp ms)
      return p

/-- What a `take` gives after some calls. -/
def powerTake (calls : List (MeterCall PowerReading)) (ms : ℕ) : Option (Option UInt16) := do
  let p ← PowerAverager.run calls
  let (watts, _) ← p.take (stamp ms)
  return watts

/-- The meter after some calls, the newest one first. -/
def PerfAverager.run : List (MeterCall PerfReading) → Option PerfAverager
  | [] => some {}
  | .add ms r :: calls => do
      let p ← PerfAverager.run calls
      return p.add (stamp ms) r.valid r.heatW r.powerW
  | .take ms :: calls => do
      let p ← PerfAverager.run calls
      let (_, p) ← p.take (stamp ms)
      return p

/-- What a `take` gives after some calls. -/
def perfTake (calls : List (MeterCall PerfReading)) (ms : ℕ) :
    Option (Option (UInt16 × UInt16)) := do
  let p ← PerfAverager.run calls
  let (result, _) ← p.take (stamp ms)
  return result

/-! ### What the meters hold -/

/-- The spans that a power average accounts for. -/
abbrev powerSpans (calls : List (MeterCall PowerReading)) (ms : ℕ) : List (ℕ × PowerReading) :=
  countedSpans PowerReading.valid kMaxStepMs.toNat calls ms

abbrev perfSpans (calls : List (MeterCall PerfReading)) (ms : ℕ) : List (ℕ × PerfReading) :=
  countedSpans PerfReading.counts kMaxStepMs.toNat calls ms

/-- What the power meter holds after some calls. -/
structure PowerBooks (calls : List (MeterCall PowerReading)) (p : PowerAverager) : Prop where
  hasLast : p.hasLast = !calls.isEmpty
  lastMs : ∀ call ∈ calls.head?, p.lastMs = stamp call.ms
  last : p.lastValid = ((inForce calls).map PowerReading.valid).getD false ∧
    ∀ r ∈ inForce calls, p.lastW = r.watts
  sum : p.sum = UInt64.ofNat
    (spanSum (fun r => r.watts.toNat) (openSpans PowerReading.valid kMaxStepMs.toNat calls))
  ms : p.ms = UInt64.ofNat (spanTime (openSpans PowerReading.valid kMaxStepMs.toNat calls))

/-- A step that the meter counts is one that the clock shows as short enough. -/
lemma counts_iff (a b : ℕ) : (stamp b - stamp a > 0 ∧ stamp b - stamp a ≤ kMaxStepMs) ↔
    0 < clockGap a b ∧ clockGap a b ≤ kMaxStepMs.toNat := by
  rw [clockGap, gt_iff_lt, UInt32.lt_iff_toNat_lt, UInt32.le_iff_toNat_le]
  rfl

/-- What a step adds to a sum. -/
lemma product_eq (w : UInt32) (a b : ℕ) :
    w.toUInt64 * (stamp b - stamp a).toUInt64 = UInt64.ofNat (w.toNat * clockGap a b) := by
  rw [UInt64.ofNat_mul, UInt64.ofNat_uInt32ToNat, clockGap, UInt64.ofNat_uInt32ToNat]

/-- The sums up to a moment, which an `add` brings in. -/
lemma PowerBooks.sums {calls : List (MeterCall PowerReading)} {p : PowerAverager}
    (h : PowerBooks calls p) (ms : ℕ) (valid : Bool) (watts : UInt32) :
    p.add (stamp ms) valid watts =
      { hasLast := true, lastValid := valid, lastMs := stamp ms, lastW := watts
        sum := UInt64.ofNat (spanSum (fun r => r.watts.toNat) (powerSpans calls ms))
        ms := UInt64.ofNat (spanTime (powerSpans calls ms)) } := by
  have hsum : UInt64.ofNat (spanSum (fun r => r.watts.toNat) (powerSpans calls ms))
      = p.sum + UInt64.ofNat (spanSum (fun r => r.watts.toNat)
          (lastSpan PowerReading.valid kMaxStepMs.toNat calls ms)) := by
    rw [h.sum, powerSpans, countedSpans, spanSum_append, UInt64.ofNat_add, UInt64.add_comm]
  have htime : UInt64.ofNat (spanTime (powerSpans calls ms))
      = p.ms + UInt64.ofNat (spanTime (lastSpan PowerReading.valid kMaxStepMs.toNat calls ms)) := by
    rw [h.ms, powerSpans, countedSpans, spanTime_append, UInt64.ofNat_add, UInt64.add_comm]
  rw [PowerAverager.add, hsum, htime]
  cases calls with
  | nil =>
      have hfirst : p.hasLast = false := h.hasLast
      rw [hfirst, if_neg (by simp)]
      simp [lastSpan, spanSum, spanTime]
  | cons call calls =>
      have hms : p.lastMs = stamp call.ms := h.lastMs call rfl
      have hlast : p.hasLast = true := h.hasLast
      rw [hms, hlast, h.last.1]
      rcases @lastSpan_cases _ PowerReading.valid kMaxStepMs.toNat call calls ms
        with ⟨⟨hvalid, hcounts⟩, r, hr, hspan⟩ | ⟨hnot, hspan⟩
      · rw [if_pos ⟨rfl, hvalid⟩]
        dsimp only
        rw [if_pos ((counts_iff _ _).mpr hcounts), hspan, h.last.2 r hr, product_eq]
        simp [spanSum, spanTime, clockGap]
      · rw [hspan]
        by_cases hvalid : ((inForce (call :: calls)).map PowerReading.valid).getD false = true
        · rw [if_pos ⟨rfl, hvalid⟩]
          dsimp only
          rw [if_neg fun hcounts => hnot ⟨hvalid, (counts_iff _ _).mp hcounts⟩]
          simp [spanSum, spanTime]
        · rw [if_neg fun hboth => hvalid hboth.2]
          simp [spanSum, spanTime]

/-- What a `take` gives of the reading in force and the two sums. -/
def powerResult (reading : Option PowerReading) (sum time : UInt64) : Option UInt16 :=
  if time > 0 then some (belowMarker (sum / time))
  else reading.bind fun r => if r.valid then some (belowMarker r.watts.toUInt64) else none

lemma checkedDiv_eq {x y : UInt64} (h : y > 0) : checkedDiv x y = some (x / y) := by
  rw [checkedDiv, if_neg fun hzero => ?_]
  rw [hzero] at h
  exact absurd h (by decide)

section Power

variable {calls : List (MeterCall PowerReading)} {p : PowerAverager}

lemma PowerBooks.start : PowerBooks [] {} :=
  ⟨rfl, nofun, ⟨rfl, nofun⟩, rfl, rfl⟩

lemma PowerBooks.add (h : PowerBooks calls p) (ms : ℕ) (r : PowerReading) :
    PowerBooks (.add ms r :: calls) (p.add (stamp ms) r.valid r.watts) := by
  rw [h.sums]
  refine ⟨rfl, fun call hcall => ?_, ⟨rfl, fun r' hr' => ?_⟩, rfl, rfl⟩
  · rw [← Option.some.inj hcall]
    rfl
  · rw [← Option.some.inj hr']

/-- A `take` gives the average, and leaves the reading in force. -/
lemma PowerBooks.take (h : PowerBooks calls p) (ms : ℕ) : ∃ p',
    p.take (stamp ms) = some (powerResult (inForce calls)
      (UInt64.ofNat (spanSum (fun r => r.watts.toNat) (powerSpans calls ms)))
      (UInt64.ofNat (spanTime (powerSpans calls ms))), p') ∧
    PowerBooks (.take ms :: calls) p' := by
  rw [PowerAverager.take, h.sums]
  dsimp only
  generalize UInt64.ofNat (spanSum (fun r => r.watts.toNat) (powerSpans calls ms)) = sum
  generalize UInt64.ofNat (spanTime (powerSpans calls ms)) = time
  have hbooks : PowerBooks (.take ms :: calls)
      { hasLast := true, lastValid := p.lastValid, lastMs := stamp ms, lastW := p.lastW } := by
    refine ⟨rfl, fun call hcall => ?_, h.last, rfl, rfl⟩
    rw [← Option.some.inj hcall]
    rfl
  refine ⟨_, ?_, hbooks⟩
  rw [powerResult]
  by_cases htime : time > 0
  · rw [if_pos htime, if_pos htime, checkedDiv_eq htime]
    rfl
  · rw [if_neg htime, if_neg htime, h.last.1]
    cases hr : inForce calls with
    | none => rfl
    | some r =>
        rw [h.last.2 r hr]
        cases hvalid : r.valid <;> simp [hvalid]

lemma PowerBooks.run (calls : List (MeterCall PowerReading)) :
    ∃ p, PowerAverager.run calls = some p ∧ PowerBooks calls p := by
  induction calls with
  | nil => exact ⟨{}, rfl, PowerBooks.start⟩
  | cons call calls ih =>
      obtain ⟨p, hrun, hbooks⟩ := ih
      cases call with
      | add ms r =>
          refine ⟨_, ?_, hbooks.add ms r⟩
          rw [PowerAverager.run, hrun]
          rfl
      | take ms =>
          obtain ⟨p', htake, hbooks'⟩ := hbooks.take ms
          refine ⟨p', ?_, hbooks'⟩
          rw [PowerAverager.run, hrun]
          dsimp only [Option.bind_eq_bind, Option.bind_some]
          rw [htake]
          rfl

/-- What a `take` gives, after any calls. -/
lemma powerTake_eq (calls : List (MeterCall PowerReading)) (ms : ℕ) :
    powerTake calls ms = some (powerResult (inForce calls)
      (UInt64.ofNat (spanSum (fun r => r.watts.toNat) (powerSpans calls ms)))
      (UInt64.ofNat (spanTime (powerSpans calls ms)))) := by
  obtain ⟨p, hrun, hbooks⟩ := PowerBooks.run calls
  obtain ⟨p', htake, -⟩ := hbooks.take ms
  rw [powerTake, hrun]
  dsimp only [Option.bind_eq_bind, Option.bind_some]
  rw [htake]
  rfl

end Power

/-! ### The performance meter -/

/-- What the performance meter holds after some calls. -/
structure PerfBooks (calls : List (MeterCall PerfReading)) (p : PerfAverager) : Prop where
  hasLast : p.hasLast = !calls.isEmpty
  lastMs : ∀ call ∈ calls.head?, p.lastMs = stamp call.ms
  last : p.lastValid = ((inForce calls).map PerfReading.counts).getD false ∧
    ∀ r ∈ inForce calls, p.lastHeatW = r.heatW ∧ p.lastPowerW = r.powerW
  heatSum : p.heatSum = UInt64.ofNat
    (spanSum (fun r => r.heatW.toNat) (openSpans PerfReading.counts kMaxStepMs.toNat calls))
  powerSum : p.powerSum = UInt64.ofNat
    (spanSum (fun r => r.powerW.toNat) (openSpans PerfReading.counts kMaxStepMs.toNat calls))
  ms : p.ms = UInt64.ofNat (spanTime (openSpans PerfReading.counts kMaxStepMs.toNat calls))

/-- The heat and the COP of two means. -/
def perfOf (heat power : UInt64) : UInt16 × UInt16 :=
  (belowMarker heat, belowMarker ((heat * 100 + power / 2) / power))

/-- What a `take` gives of the reading in force and the three sums. -/
def perfResult (reading : Option PerfReading) (heatSum powerSum time : UInt64) :
    Option (UInt16 × UInt16) :=
  if time > 0 then
    if powerSum / time > 0 then some (perfOf (heatSum / time) (powerSum / time)) else none
  else
    reading.bind fun r =>
      if r.counts then some (perfOf r.heatW.toUInt64 r.powerW.toUInt64) else none

section Perf

variable {calls : List (MeterCall PerfReading)} {p : PerfAverager}

lemma PerfReading.power_pos {r : PerfReading} (h : r.counts = true) : r.powerW.toUInt64 > 0 := by
  have hpos : r.powerW > 0 := by
    rw [PerfReading.counts, Bool.and_eq_true] at h
    exact of_decide_eq_true h.2
  rw [gt_iff_lt, UInt32.lt_iff_toNat_lt] at hpos
  rw [gt_iff_lt, UInt64.lt_iff_toNat_lt, UInt32.toNat_toUInt64]
  exact hpos

/-- The sums up to a moment, which an `add` brings in. -/
lemma PerfBooks.sums (h : PerfBooks calls p) (ms : ℕ) (valid : Bool) (heatW powerW : UInt32) :
    p.add (stamp ms) valid heatW powerW =
      { hasLast := true, lastValid := valid && powerW > 0, lastMs := stamp ms, lastHeatW := heatW
        lastPowerW := powerW
        heatSum := UInt64.ofNat (spanSum (fun r => r.heatW.toNat) (perfSpans calls ms))
        powerSum := UInt64.ofNat (spanSum (fun r => r.powerW.toNat) (perfSpans calls ms))
        ms := UInt64.ofNat (spanTime (perfSpans calls ms)) } := by
  have hheat : UInt64.ofNat (spanSum (fun r => r.heatW.toNat) (perfSpans calls ms))
      = p.heatSum + UInt64.ofNat (spanSum (fun r => r.heatW.toNat)
          (lastSpan PerfReading.counts kMaxStepMs.toNat calls ms)) := by
    rw [h.heatSum, perfSpans, countedSpans, spanSum_append, UInt64.ofNat_add, UInt64.add_comm]
  have hpower : UInt64.ofNat (spanSum (fun r => r.powerW.toNat) (perfSpans calls ms))
      = p.powerSum + UInt64.ofNat (spanSum (fun r => r.powerW.toNat)
          (lastSpan PerfReading.counts kMaxStepMs.toNat calls ms)) := by
    rw [h.powerSum, perfSpans, countedSpans, spanSum_append, UInt64.ofNat_add, UInt64.add_comm]
  have htime : UInt64.ofNat (spanTime (perfSpans calls ms))
      = p.ms + UInt64.ofNat (spanTime (lastSpan PerfReading.counts kMaxStepMs.toNat calls ms)) := by
    rw [h.ms, perfSpans, countedSpans, spanTime_append, UInt64.ofNat_add, UInt64.add_comm]
  rw [PerfAverager.add, hheat, hpower, htime]
  cases calls with
  | nil =>
      have hfirst : p.hasLast = false := h.hasLast
      rw [hfirst, if_neg (by simp)]
      simp [lastSpan, spanSum, spanTime]
  | cons call calls =>
      have hms : p.lastMs = stamp call.ms := h.lastMs call rfl
      have hlast : p.hasLast = true := h.hasLast
      rw [hms, hlast, h.last.1]
      rcases @lastSpan_cases _ PerfReading.counts kMaxStepMs.toNat call calls ms
        with ⟨⟨hvalid, hcounts⟩, r, hr, hspan⟩ | ⟨hnot, hspan⟩
      · obtain ⟨hheatW, hpowerW⟩ := h.last.2 r hr
        rw [if_pos ⟨rfl, hvalid⟩]
        dsimp only
        rw [if_pos ((counts_iff _ _).mpr hcounts), hspan, hheatW, hpowerW, product_eq, product_eq]
        simp [spanSum, spanTime, clockGap]
      · rw [hspan]
        by_cases hvalid : ((inForce (call :: calls)).map PerfReading.counts).getD false = true
        · rw [if_pos ⟨rfl, hvalid⟩]
          dsimp only
          rw [if_neg fun hcounts => hnot ⟨hvalid, (counts_iff _ _).mp hcounts⟩]
          simp [spanSum, spanTime]
        · rw [if_neg fun hboth => hvalid hboth.2]
          simp [spanSum, spanTime]

lemma PerfBooks.start : PerfBooks [] {} :=
  ⟨rfl, nofun, ⟨rfl, nofun⟩, rfl, rfl, rfl⟩

lemma PerfBooks.add (h : PerfBooks calls p) (ms : ℕ) (r : PerfReading) :
    PerfBooks (.add ms r :: calls) (p.add (stamp ms) r.valid r.heatW r.powerW) := by
  rw [h.sums]
  refine ⟨rfl, fun call hcall => ?_, ⟨rfl, fun r' hr' => ?_⟩, rfl, rfl, rfl⟩
  · rw [← Option.some.inj hcall]
    rfl
  · rw [← Option.some.inj hr']
    exact ⟨rfl, rfl⟩

/-- A reading that is in force stays valid when it is repeated. -/
lemma PerfBooks.repeated_valid (h : PerfBooks calls p) :
    (p.lastValid && decide (p.lastPowerW > 0)) = p.lastValid := by
  rw [h.last.1]
  cases hr : inForce calls with
  | none => rfl
  | some r =>
      rw [(h.last.2 r hr).2, Option.map_some, Option.getD_some, PerfReading.counts, Bool.and_assoc,
        Bool.and_self]

/-- A `take` gives the averages, and leaves the reading in force. -/
lemma PerfBooks.take (h : PerfBooks calls p) (ms : ℕ) : ∃ p',
    p.take (stamp ms) = some (perfResult (inForce calls)
      (UInt64.ofNat (spanSum (fun r => r.heatW.toNat) (perfSpans calls ms)))
      (UInt64.ofNat (spanSum (fun r => r.powerW.toNat) (perfSpans calls ms)))
      (UInt64.ofNat (spanTime (perfSpans calls ms))), p') ∧
    PerfBooks (.take ms :: calls) p' := by
  rw [PerfAverager.take, h.sums, h.repeated_valid]
  dsimp only
  generalize UInt64.ofNat (spanSum (fun r => r.heatW.toNat) (perfSpans calls ms)) = heatSum
  generalize UInt64.ofNat (spanSum (fun r => r.powerW.toNat) (perfSpans calls ms)) = powerSum
  generalize UInt64.ofNat (spanTime (perfSpans calls ms)) = time
  have hbooks : PerfBooks (.take ms :: calls)
      { hasLast := true, lastValid := p.lastValid, lastMs := stamp ms, lastHeatW := p.lastHeatW
        lastPowerW := p.lastPowerW } := by
    refine ⟨rfl, fun call hcall => ?_, h.last, rfl, rfl, rfl⟩
    rw [← Option.some.inj hcall]
    rfl
  refine ⟨_, ?_, hbooks⟩
  rw [perfResult]
  by_cases htime : time > 0
  · rw [if_pos htime, if_pos htime, checkedDiv_eq htime, checkedDiv_eq htime]
    dsimp only [Option.bind_eq_bind, Option.bind_some, pure]
    by_cases hpower : powerSum / time > 0
    · rw [if_pos hpower, decide_eq_true hpower, if_pos rfl, checkedDiv_eq hpower]
      rfl
    · rw [if_neg hpower, decide_eq_false hpower, if_neg (by decide)]
  · rw [if_neg htime, if_neg htime, h.last.1]
    cases hr : inForce calls with
    | none => rfl
    | some r =>
        obtain ⟨hheatW, hpowerW⟩ := h.last.2 r hr
        rw [hheatW, hpowerW]
        cases hcounts : r.counts with
        | false => simp [hcounts]
        | true =>
            have hpos := PerfReading.power_pos hcounts
            simp [hcounts, checkedDiv_eq hpos, perfOf]

lemma PerfBooks.run (calls : List (MeterCall PerfReading)) :
    ∃ p, PerfAverager.run calls = some p ∧ PerfBooks calls p := by
  induction calls with
  | nil => exact ⟨{}, rfl, PerfBooks.start⟩
  | cons call calls ih =>
      obtain ⟨p, hrun, hbooks⟩ := ih
      cases call with
      | add ms r =>
          refine ⟨_, ?_, hbooks.add ms r⟩
          rw [PerfAverager.run, hrun]
          rfl
      | take ms =>
          obtain ⟨p', htake, hbooks'⟩ := hbooks.take ms
          refine ⟨p', ?_, hbooks'⟩
          rw [PerfAverager.run, hrun]
          dsimp only [Option.bind_eq_bind, Option.bind_some]
          rw [htake]
          rfl

/-- What a `take` gives, after any calls. -/
lemma perfTake_eq (calls : List (MeterCall PerfReading)) (ms : ℕ) :
    perfTake calls ms = some (perfResult (inForce calls)
      (UInt64.ofNat (spanSum (fun r => r.heatW.toNat) (perfSpans calls ms)))
      (UInt64.ofNat (spanSum (fun r => r.powerW.toNat) (perfSpans calls ms)))
      (UInt64.ofNat (spanTime (perfSpans calls ms)))) := by
  obtain ⟨p, hrun, hbooks⟩ := PerfBooks.run calls
  obtain ⟨p', htake, -⟩ := hbooks.take ms
  rw [perfTake, hrun]
  dsimp only [Option.bind_eq_bind, Option.bind_some]
  rw [htake]
  rfl

end Perf

end ArcticController

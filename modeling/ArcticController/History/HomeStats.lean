/-
The compressor runs of the home screen (`home_stats.cpp`), derived from the telemetry
samples.

* `HomeRun`, `HomeRunSummary`: a run and what the home screen shows of the newest ones;
* `isRunning`, `pushRun`, `HomeScan`, `homeStatsRuns`: the pass over the samples;
* `homeStatsNeedsOlder`, `homeStatsMergeOlder`: a summary settled from older samples;
* `HomeScan.closing`, `HomeScan.following`, `step_stepped`: what one sample does.
-/
import ArcticController.History.TelemetryRecord

namespace ArcticController

/-! ### Samples and runs -/

def telemetryModeUnknown : UInt8 := 0

def telemetryCompressorValid : UInt8 := 0x02
def telemetryCompressorRunning : UInt8 := 0x04
def telemetrySetpointValid : UInt8 := 0x20

/-- Seconds between two samples. -/
def telemetrySampleIntervalSec : UInt32 := 30

def gapSeconds : UInt32 := 3 * telemetrySampleIntervalSec

/-- A run (`home_run_t`); an end of 0 is a run still going on. -/
structure HomeRun where
  start : UInt32 := 0
  endS : UInt32 := 0
  mode : UInt8 := 0
  seenStart : Bool := false
deriving DecidableEq, Repr

/-- The newest runs (`home_run_summary_t`); a start of 0 is none. -/
structure HomeRunSummary where
  current : HomeRun := {}
  last : HomeRun := {}
  startsLastHour : UInt16 := 0
  setpointValid : Bool := false
  setpointDeciC : Int16 := 0
deriving DecidableEq, Repr

/-- A run needs a known operating mode. -/
def isRunning (s : TelemetrySample) : Bool :=
  s.flags &&& telemetryCompressorValid != 0 && s.flags &&& telemetryCompressorRunning != 0 &&
    s.mode != telemetryModeUnknown

/-- Add a run to the newest `cap`. -/
def pushRun (out : List HomeRun) (cap : ℕ) (run : HomeRun) : List HomeRun :=
  if cap = 0 then out
  else if out.length = cap then out.drop 1 ++ [run]
  else out ++ [run]

/-! ### The pass over the samples -/

/-- Where the pass is: the runs written, the summary, the run it is in and the sample before. -/
structure HomeScan where
  out : List HomeRun := []
  sum : HomeRunSummary := {}
  opened : HomeRun := {}
  isOpen : Bool := false
  prev : Option TelemetrySample := none

namespace HomeScan

/-- Whether samples are missing before `s`. -/
def gap (c : HomeScan) (s : TelemetrySample) : Bool :=
  match c.prev with
  | some prev => s.timestamp - prev.timestamp > gapSeconds
  | none => false

def noteSetpoint (c : HomeScan) (s : TelemetrySample) : HomeScan :=
  if s.flags &&& telemetrySetpointValid ≠ 0 then
    { c with sum := { c.sum with setpointValid := true, setpointDeciC := s.setpointDeciC } }
  else c

/-- When the run ends that `s` shows to be over: an interval after the last sample before a gap,
else at `s`. -/
def closingTime (c : HomeScan) (s : TelemetrySample) : UInt32 :=
  match c.prev with
  | some prev => if c.gap s then prev.timestamp + telemetrySampleIntervalSec else s.timestamp
  | none => s.timestamp

def closeRun (cap : ℕ) (c : HomeScan) (s : TelemetrySample) : HomeScan :=
  if c.isOpen ∧ (c.gap s ∨ ¬ isRunning s) then
    let run := { c.opened with endS := c.closingTime s }
    { c with
      opened := run
      out := pushRun c.out cap run
      sum := { c.sum with last := run }
      isOpen := false }
  else c

/-- Whether the sample before `s` was a stopped one, not a gap. -/
def startSeen (c : HomeScan) (s : TelemetrySample) : Bool :=
  match c.prev with
  | some prev => !c.gap s && !isRunning prev
  | none => false

def openRun (now : UInt32) (c : HomeScan) (s : TelemetrySample) : HomeScan :=
  if isRunning s ∧ ¬ c.isOpen then
    let run : HomeRun := { start := s.timestamp, mode := s.mode, seenStart := c.startSeen s }
    { c with
      opened := run
      sum := if run.seenStart ∧ run.start + 3600 ≥ now then
          { c.sum with startsLastHour := c.sum.startsLastHour + 1 }
        else c.sum
      isOpen := true }
  else c

/-- One sample. -/
def step (cap : ℕ) (now : UInt32) (c : HomeScan) (s : TelemetrySample) : HomeScan :=
  { ((c.noteSetpoint s).closeRun cap s).openRun now s with prev := some s }

/-- The end of the samples: a run still open is in progress if its last sample is recent. -/
def finish (cap : ℕ) (now : UInt32) (c : HomeScan) : HomeScan :=
  match c.prev with
  | some prev =>
      if c.isOpen then
        if now ≥ prev.timestamp ∧ now - prev.timestamp ≤ gapSeconds then
          let run := { c.opened with endS := 0 }
          { c with out := pushRun c.out cap run, sum := { c.sum with current := run } }
        else
          let run := { c.opened with endS := prev.timestamp + telemetrySampleIntervalSec }
          { c with out := pushRun c.out cap run, sum := { c.sum with last := run } }
      else c
  | none => c

/-- The pass over some more samples. -/
def scan (cap : ℕ) (now : UInt32) (c : HomeScan) (samples : List TelemetrySample) : HomeScan :=
  samples.foldl (step cap now) c

end HomeScan

/-- The newest `cap` runs of the samples, oldest first, and their summary. -/
def homeStatsRuns (samples : List TelemetrySample) (now : UInt32) (cap : ℕ) :
    List HomeRun × HomeRunSummary :=
  let c := (HomeScan.scan cap now {} samples).finish cap now
  (c.out, c.sum)

/-! ### A summary settled from older samples -/

def homeStatsNeedsOlder (sum : HomeRunSummary) (window : List TelemetrySample) : Bool :=
  if sum.current.start != 0 then false
  else if sum.last.start == 0 then true
  else match window.head? with
    | some first => isRunning first && sum.last.start == first.timestamp
    | none => false

/-- Whether the older samples' trailing run carries on into the window. -/
def joinsWindow (tail : TelemetrySample) (window : List TelemetrySample) : Bool :=
  match window.head? with
  | some first => isRunning tail && first.timestamp - tail.timestamp ≤ gapSeconds
  | none => false

/-- A "now" far past the newest sample closes any run open at the end. -/
def olderSummary (older : List TelemetrySample) : HomeRunSummary :=
  (homeStatsRuns older 0xFFFFFFFF 0).2

def homeStatsMergeOlder (sum : HomeRunSummary) (window older : List TelemetrySample) :
    HomeRunSummary :=
  match older.getLast? with
  | none => sum
  | some tail =>
      let joins := joinsWindow tail window
      let o := olderSummary older
      if sum.last.start != 0 then
        match window.head? with
        | some first =>
            if joins ∧ isRunning first ∧ sum.last.start = first.timestamp then
              { sum with
                last := { sum.last with
                  start := o.last.start
                  mode := o.last.mode
                  seenStart := o.last.seenStart } }
            else sum
        | none => sum
      else
        match window.head? with
        | some first =>
            if joins ∧ o.last.start ≠ 0 then
              { sum with last := { o.last with endS := first.timestamp } }
            else { sum with last := o.last }
        | none => { sum with last := o.last }

/-! ### What one sample does -/

namespace HomeScan

/-- The run a sample ends. -/
def closing (c : HomeScan) (s : TelemetrySample) : Option HomeRun :=
  if c.isOpen ∧ (c.gap s ∨ ¬ isRunning s) then some { c.opened with endS := c.closingTime s }
  else none

/-- The run a running sample is in. -/
def following (c : HomeScan) (s : TelemetrySample) : HomeRun :=
  if c.isOpen ∧ ¬ c.gap s then c.opened
  else { start := s.timestamp, mode := s.mode, seenStart := c.startSeen s }

/-- What a sample leaves. -/
structure Stepped (cap : ℕ) (c : HomeScan) (s : TelemetrySample) (c' : HomeScan) : Prop where
  prev : c'.prev = some s
  isOpen : c'.isOpen = isRunning s
  opened : isRunning s → c'.opened = c.following s
  out : c'.out = (c.closing s).elim c.out (pushRun c.out cap)
  last : c'.sum.last = (c.closing s).getD c.sum.last
  current : c'.sum.current = c.sum.current

lemma noteSetpoint_eq (c : HomeScan) (s : TelemetrySample) : ∃ sum, c.noteSetpoint s =
    { c with sum := sum } ∧ sum.last = c.sum.last ∧ sum.current = c.sum.current := by
  rw [noteSetpoint]
  split
  · exact ⟨_, rfl, rfl, rfl⟩
  · exact ⟨c.sum, rfl, rfl, rfl⟩

lemma closeRun_eq (cap : ℕ) (c : HomeScan) (s : TelemetrySample) : ∃ opened, c.closeRun cap s =
    { c with
      opened := opened
      out := (c.closing s).elim c.out (pushRun c.out cap)
      sum := { c.sum with last := (c.closing s).getD c.sum.last }
      isOpen := c.isOpen && !c.gap s && isRunning s } ∧
    (c.isOpen ∧ ¬ c.gap s ∧ isRunning s → opened = c.opened) := by
  rw [closeRun, closing]
  by_cases h : c.isOpen ∧ (c.gap s ∨ ¬ isRunning s)
  · rw [if_pos h, if_pos h]
    have hclosed : (c.isOpen && !c.gap s && isRunning s) = false := by
      rcases h.2 with hgap | hnot
      · simp [hgap]
      · simp [Bool.eq_false_iff.mpr hnot]
    rw [hclosed]
    refine ⟨_, rfl, fun hgoes => ?_⟩
    exact absurd hgoes.2.2 (h.2.resolve_left hgoes.2.1)
  · rw [if_neg h, if_neg h]
    have hsame : (c.isOpen && !c.gap s && isRunning s) = c.isOpen := by
      cases hopen : c.isOpen <;> cases hgap : c.gap s <;> cases hr : isRunning s <;>
        simp [hopen, hgap, hr] at h ⊢
    rw [hsame]
    exact ⟨c.opened, rfl, fun _ => rfl⟩

lemma openRun_eq (now : UInt32) (c : HomeScan) (s : TelemetrySample) : ∃ sum, c.openRun now s =
    { c with
      opened := if isRunning s ∧ ¬ c.isOpen then
          { start := s.timestamp, mode := s.mode, seenStart := c.startSeen s }
        else c.opened
      sum := sum
      isOpen := c.isOpen || isRunning s } ∧
    sum.last = c.sum.last ∧ sum.current = c.sum.current := by
  rw [openRun]
  by_cases h : isRunning s ∧ ¬ c.isOpen
  · rw [if_pos h, if_pos h, h.1, Bool.or_true]
    refine ⟨_, rfl, ?_⟩
    split <;> exact ⟨rfl, rfl⟩
  · rw [if_neg h, if_neg h]
    have hsame : (c.isOpen || isRunning s) = c.isOpen := by
      cases hopen : c.isOpen <;> cases hr : isRunning s <;> simp [hopen, hr] at h ⊢
    rw [hsame]
    exact ⟨c.sum, rfl, rfl, rfl⟩

lemma step_stepped (cap : ℕ) (now : UInt32) (c : HomeScan) (s : TelemetrySample) :
    c.Stepped cap s (c.step cap now s) := by
  obtain ⟨sum, hnote, hlast, hcurrent⟩ := c.noteSetpoint_eq s
  obtain ⟨opened, hclose, hkept⟩ := closeRun_eq cap { c with sum := sum } s
  obtain ⟨sum', hopen, hlast', hcurrent'⟩ := openRun_eq now
    (({ c with sum := sum } : HomeScan).closeRun cap s) s
  rw [step, hnote, hopen]
  rw [hclose] at hlast' hcurrent' ⊢
  have hgap : ({ c with sum := sum } : HomeScan).gap s = c.gap s := rfl
  have hclosing : ({ c with sum := sum } : HomeScan).closing s = c.closing s := rfl
  rw [hgap] at hkept
  refine ⟨rfl, ?_, fun hr => ?_, ?_, ?_, ?_⟩
  · rw [hgap]
    dsimp only
    cases c.isOpen <;> cases c.gap s <;> cases isRunning s <;> rfl
  · dsimp only
    rw [hgap, following]
    by_cases hgoes : c.isOpen ∧ ¬ c.gap s
    · have hstays : (c.isOpen && !c.gap s && isRunning s) = true := by simp [hgoes.1, hgoes.2, hr]
      rw [if_neg fun h => h.2 hstays, if_pos hgoes]
      exact hkept ⟨hgoes.1, hgoes.2, hr⟩
    · have hover : ¬ (c.isOpen && !c.gap s && isRunning s) := fun h => by
        simp only [Bool.and_eq_true, Bool.not_eq_true'] at h
        exact hgoes ⟨h.1.1, by simp [h.1.2]⟩
      rw [if_pos ⟨hr, hover⟩, if_neg hgoes]
      rfl
  · dsimp only
    rw [hclosing]
  · dsimp only
    rw [hlast', hclosing, hlast]
  · exact hcurrent'.trans hcurrent

/-- The sample is not newer than `now` nor older than the gap. -/
def Recent (now : UInt32) (s : TelemetrySample) : Prop :=
  now ≥ s.timestamp ∧ now - s.timestamp ≤ gapSeconds

instance (now : UInt32) (s : TelemetrySample) : Decidable (Recent now s) :=
  inferInstanceAs (Decidable (_ ∧ _))

variable {cap : ℕ} {now : UInt32} {c : HomeScan} {last : TelemetrySample}

lemma finish_idle (h : ¬ c.isOpen) : c.finish cap now = c := by
  rw [finish]
  cases c.prev with
  | none => rfl
  | some last => exact if_neg h

lemma finish_recent (hprev : c.prev = some last) (hopen : c.isOpen) (h : Recent now last) :
    c.finish cap now =
      { c with
        out := pushRun c.out cap { c.opened with endS := 0 }
        sum := { c.sum with current := { c.opened with endS := 0 } } } := by
  rw [finish, hprev]
  exact (if_pos hopen).trans (if_pos h)

lemma finish_stale (hprev : c.prev = some last) (hopen : c.isOpen) (h : ¬ Recent now last) :
    c.finish cap now =
      { c with
        out := pushRun c.out cap
          { c.opened with endS := last.timestamp + telemetrySampleIntervalSec }
        sum := { c.sum with
          last := { c.opened with endS := last.timestamp + telemetrySampleIntervalSec } } } := by
  rw [finish, hprev]
  exact (if_pos hopen).trans (if_neg h)

end HomeScan

end ArcticController

/-
The run tracker (`RunTracker` in `run_ledger.h`): the sums of one compressor
run, from the same readings as the energy ledger.

* `RunSums`, `RunRecord`, `RunSums.record`: the sums of a run and what is
  stored of it;
* `RunSums.book`: an interval booked to a run;
* `RunTracker` with `start`, `finish`, `book`, `add`, `pause`, `takeFinished`,
  `current`;
* `RunSums.Booked`, `RunSums.book_booked`: the counters after a booking.
-/
import ArcticController.Energy.LedgerBooks

namespace ArcticController

/-! ### Runs -/

/-- Still running, only ever in memory. -/
def runOpen : UInt8 := 1

/-- One compressor run, as it is stored. -/
structure RunRecord where
  date : UInt32
  startS : UInt32
  endS : UInt32
  elecWh : UInt32
  thermalWh : UInt32
  coveredElecWh : UInt32
  outdoorS : UInt32
  outdoorAvgDeci : Int16
  bucket : Bucket
  flags : UInt8
deriving DecidableEq, Inhabited

/-- The sums of a run in progress. -/
structure RunSums where
  date : UInt32 := 0
  startS : ℤ := 0
  endS : ℤ := 0
  firstBucket : Bucket := .standby
  elecWs : UInt64 := 0
  thermalWs : UInt64 := 0
  coveredWs : UInt64 := 0
  outdoorSumDeciS : Int64 := 0
  outdoorS : UInt32 := 0
  runS : Fin kModes → UInt32 := fun _ => 0
deriving Inhabited

namespace RunSums

/-- The bucket of a mode. -/
def bucketOf : Fin kModes → Bucket
  | 0 => .heating
  | 1 => .cooling
  | 2 => .hotWater

/-- The mode a run was in longest; of equals the first, and the bucket it
started in when it was in none. -/
def longestBucket (r : RunSums) : Bucket :=
  ((List.finRange kModes).foldl
    (fun (best : UInt32 × Bucket) m => if r.runS m > best.1 then (r.runS m, bucketOf m) else best)
    (0, if r.firstBucket = .standby then .heating else r.firstBucket)).2

def record (r : RunSums) : RunRecord where
  date := r.date
  startS := UInt32.ofInt r.startS
  endS := UInt32.ofInt r.endS
  elecWh := wsToWh r.elecWs
  thermalWh := wsToWh r.thermalWs
  coveredElecWh := wsToWh r.coveredWs
  outdoorS := r.outdoorS
  outdoorAvgDeci := if r.outdoorS > 0 then
      (r.outdoorSumDeciS / r.outdoorS.toUInt64.toInt64).toInt16
    else 0
  bucket := r.longestBucket
  flags := 0

/-- Power over an interval. -/
def bookPower (r : RunSums) (dt : UInt32) (p : Input) : RunSums :=
  if p.powerValid then { r with elecWs := r.elecWs + p.powerW.toUInt64 * dt.toUInt64 } else r

/-- The running time, by mode. -/
def bookRunning (r : RunSums) (dt : UInt32) (p : Input) : RunSums :=
  match p.bucket.mode with
  | some m => if p.running then { r with runS := bump r.runS m dt } else r
  | none => r

/-- The heat while its estimate is valid, with the electricity of that time. -/
def bookThermal (r : RunSums) (dt : UInt32) (p : Input) : RunSums :=
  if p.thermalValid ∧ p.powerValid ∧ p.bucket.mode.isSome then
    { r with
      thermalWs := if modeHeat p > 0 then
          r.thermalWs + (modeHeat p).toInt64.toUInt64 * dt.toUInt64
        else r.thermalWs
      coveredWs := r.coveredWs + p.powerW.toUInt64 * dt.toUInt64 }
  else r

/-- The outdoor reading, but for a defrost and the time after one. -/
def bookOutdoor (r : RunSums) (defrostEndS a b : ℤ) (p : Input) : RunSums :=
  let outFrom := outdoorFrom defrostEndS a
  if (p.outdoorValid ∧ p.running ∧ p.bucket.mode.isSome ∧ ¬ p.defrost) ∧ b > outFrom then
    { r with
      outdoorSumDeciS := r.outdoorSumDeciS
        + (p.outdoorC.toInt32 * 10).toInt64 * (stepSeconds outFrom b).toUInt64.toInt64
      outdoorS := r.outdoorS + stepSeconds outFrom b }
  else r

/-- Book `[a, b)` to the run, by the rules of the energy ledger. -/
def book (r : RunSums) (defrostEndS a b : ℤ) (p : Input) : RunSums :=
  let r := { r with endS := b }
  if ¬ p.connected then r
  else
    let dt := stepSeconds a b
    (((r.bookPower dt p).bookRunning dt p).bookThermal dt p).bookOutdoor defrostEndS a b p

end RunSums

/-! ### The tracker -/

/-- The tracker: the run in progress, the reading it books from and the run
finished last. -/
structure RunTracker where
  isOpen : Bool := false
  sums : RunSums := {}
  prev : Input := {}
  prevS : ℤ := 0
  hasPrev : Bool := false
  defrostEndS : ℤ := -2 ^ 62
  finished : RunRecord := default
  hasFinished : Bool := false
deriving Inhabited

namespace RunTracker

def start (t : RunTracker) (nowS : ℤ) (date : UInt32) (input : Input) : RunTracker :=
  { t with
    isOpen := true
    sums := { date, startS := nowS, endS := nowS, firstBucket := input.bucket } }

/-- End the run; one with nothing booked is dropped. -/
def finish (t : RunTracker) : RunTracker :=
  let t := { t with isOpen := false }
  if t.sums.endS ≤ t.sums.startS then t
  else { t with finished := t.sums.record, hasFinished := true }

def book (t : RunTracker) (a b : ℤ) (p : Input) : RunTracker :=
  { t with sums := t.sums.book t.defrostEndS a b p }

/-- Whether the interval up to `nowS` is no gap. -/
def inStep (t : RunTracker) (nowS : ℤ) : Bool :=
  t.hasPrev && decide (nowS ≥ t.prevS) && decide (nowS - t.prevS ≤ kMaxStepSeconds)

/-- Book to the run in progress, and end it where the compressor stopped, the
unit is gone or the readings have a gap. -/
def endRun (t : RunTracker) (nowS : ℤ) (input : Input) : RunTracker :=
  if t.isOpen then
    if t.inStep nowS then
      let t := t.book t.prevS nowS t.prev
      if ¬ input.running ∨ ¬ input.connected then t.finish else t
    else t.finish
  else t

/-- Note the end of a defrost. -/
def noteDefrostEnd (t : RunTracker) (nowS : ℤ) (input : Input) : RunTracker :=
  if t.hasPrev ∧ t.prev.defrost ∧ ¬ input.defrost then { t with defrostEndS := nowS } else t

def startRun (t : RunTracker) (nowS : ℤ) (date : UInt32) (input : Input) : RunTracker :=
  if ¬ t.isOpen ∧ input.running ∧ input.connected then t.start nowS date input else t

/-- Feed one reading, with the local date it falls on. It ended a run if
`hasFinished` is set. -/
def add (t : RunTracker) (nowS : ℤ) (date : UInt32) (input : Input) : RunTracker :=
  let t := { t with hasFinished := false }
  let t := ((t.endRun nowS input).noteDefrostEnd nowS input).startRun nowS date input
  { t with prev := input, prevS := nowS, hasPrev := true }

/-- Forget the reference point. -/
def pause (t : RunTracker) : RunTracker := { t with hasPrev := false }

def takeFinished (t : RunTracker) : Option RunRecord :=
  if t.hasFinished then some t.finished else none

/-- The run in progress, through the last reading. -/
def current (t : RunTracker) : Option RunRecord :=
  if t.isOpen then some { t.sums.record with flags := t.sums.record.flags ||| runOpen } else none

end RunTracker

/-! ### What a booking moves -/

namespace RunSums

variable (r : RunSums) (dt : UInt32) (p : Input) (D a b : ℤ)

lemma bookPower_eq : r.bookPower dt p =
    { r with
      elecWs := if p.powerValid then r.elecWs + p.powerW.toUInt64 * dt.toUInt64 else r.elecWs } := by
  rw [bookPower]
  split <;> rfl

lemma bookRunning_eq : r.bookRunning dt p = { r with runS := runAfter r.runS dt p } := by
  rw [bookRunning, runAfter]
  cases p.bucket.mode with
  | none => rfl
  | some m =>
      dsimp only
      split <;> rfl

/-- Whether the heat of a reading is booked. -/
def thermalBooked : Prop := p.thermalValid ∧ p.powerValid ∧ p.bucket.mode.isSome

instance : Decidable (thermalBooked p) := inferInstanceAs (Decidable (_ ∧ _ ∧ _))

lemma bookThermal_eq : r.bookThermal dt p =
    { r with
      thermalWs := if thermalBooked p ∧ modeHeat p > 0 then
          r.thermalWs + (modeHeat p).toInt64.toUInt64 * dt.toUInt64
        else r.thermalWs
      coveredWs := if thermalBooked p then r.coveredWs + p.powerW.toUInt64 * dt.toUInt64
        else r.coveredWs } := by
  by_cases h : thermalBooked p
  · simp only [h, true_and, if_true]
    exact if_pos h
  · simp only [h, false_and, if_false]
    exact if_neg h

/-- Whether the part from `outFrom` to `b` counts for the outdoor average. -/
def outdoorBooked : Prop :=
  (p.outdoorValid ∧ p.running ∧ p.bucket.mode.isSome ∧ ¬ p.defrost) ∧ b > outdoorFrom D a

instance : Decidable (outdoorBooked p D a b) :=
  inferInstanceAs (Decidable ((_ ∧ _ ∧ _ ∧ _) ∧ _))

lemma bookOutdoor_eq : r.bookOutdoor D a b p =
    { r with
      outdoorSumDeciS := if outdoorBooked p D a b then r.outdoorSumDeciS
          + (p.outdoorC.toInt32 * 10).toInt64 * (stepSeconds (outdoorFrom D a) b).toUInt64.toInt64
        else r.outdoorSumDeciS
      outdoorS := if outdoorBooked p D a b then r.outdoorS + stepSeconds (outdoorFrom D a) b
        else r.outdoorS } := by
  by_cases h : outdoorBooked p D a b
  · simp only [h, if_true]
    exact if_pos h
  · simp only [h, if_false]
    exact if_neg h

/-- The counters `c` of a run after `[a, b)` was booked to it. -/
structure Booked (c : RunSums) : Prop where
  thermalWs : c.thermalWs = if thermalBooked p ∧ modeHeat p > 0 then
      r.thermalWs + (modeHeat p).toInt64.toUInt64 * (stepSeconds a b).toUInt64
    else r.thermalWs
  coveredWs : c.coveredWs = if thermalBooked p then
      r.coveredWs + p.powerW.toUInt64 * (stepSeconds a b).toUInt64
    else r.coveredWs
  runS : c.runS = runAfter r.runS (stepSeconds a b) p
  outdoorS : c.outdoorS = if outdoorBooked p D a b then
      r.outdoorS + stepSeconds (outdoorFrom D a) b else r.outdoorS
  outdoorSumDeciS : c.outdoorSumDeciS = if outdoorBooked p D a b then
      r.outdoorSumDeciS +
        (p.outdoorC.toInt32 * 10).toInt64 * (stepSeconds (outdoorFrom D a) b).toUInt64.toInt64
    else r.outdoorSumDeciS

lemma book_booked (hc : p.connected) : r.Booked p D a b (r.book D a b p) := by
  have hskip : ¬ ¬ p.connected := not_not.mpr hc
  rw [book, if_neg hskip]
  constructor <;> simp only [bookOutdoor_eq, bookThermal_eq, bookRunning_eq, bookPower_eq]

end RunSums

end ArcticController

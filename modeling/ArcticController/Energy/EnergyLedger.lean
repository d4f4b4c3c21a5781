/-
The daily energy ledger (`EnergyLedger` in `energy_ledger.h`). Times are
seconds since 1970; the counters are machine words.

* `Input`, `Day`, `dayEnd`, `daysFromDate`: a reading and the local day it
  falls in;
* `DayAccum.book`: an interval booked to an accumulation;
* `EnergyLedger` with `add`, `pause`, `restore`, `addUnattributed`,
  `takeFinished`, `saveDue`, `markSaved`, `todayElecWh`;
* `EnergyLedger.exactSpan_frame`, `extendSpan_frame`: what the span moves.
-/
import ArcticController.Energy.DayRecord

namespace ArcticController

/-! ### Readings and days -/

/-- What the unit was doing at one reading. -/
structure Input where
  connected : Bool := false
  powerValid : Bool := false
  powerW : UInt32 := 0
  running : Bool := false
  defrost : Bool := false
  bucket : Bucket := .standby
  thermalValid : Bool := false
  thermalW : Int32 := 0
  source : Source := .unit
  defrostThermalValid : Bool := false
  defrostThermalW : Int32 := 0
  outdoorValid : Bool := false
  outdoorC : Int16 := 0
  flowLpmX10 : UInt16 := 0
  glycolPct : UInt8 := 0
deriving DecidableEq, Inhabited

/-- The local calendar day a reading falls in. -/
structure Day where
  date : UInt32 := 0
  startS : ℤ := 0
  utcOffsetMin : Int16 := 0
  endS : ℤ := 0
deriving DecidableEq, Inhabited

/-- The end of a day; an end of 0 stands for 24 hours after the start. -/
def dayEnd (d : Day) : ℤ := if d.endS ≠ 0 then d.endS else d.startS + 86400

/-- Days since 1970-01-01 for a `YYYYMMDD` date. -/
def daysFromDate (date : UInt32) : ℤ :=
  let m : ℤ := (date / 100 % 100).toNat
  let d : ℤ := (date % 100).toNat
  let y : ℤ := (date / 10000).toNat - (if m ≤ 2 then 1 else 0)
  let era := (if y ≥ 0 then y else y - 399).tdiv 400
  let yoe := y - era * 400
  let doy := (153 * (m + (if m > 2 then -3 else 9)) + 2).tdiv 5 + d - 1
  let doe := yoe * 365 + yoe.tdiv 4 - yoe.tdiv 100 + doy
  era * 146097 + doe - 719468

/-! ### Booking an interval -/

/-- An interval longer than this is a gap. -/
def kMaxStepSeconds : ℤ := 120

def kSaveIntervalSeconds : ℤ := 600

/-- How long after a defrost the outdoor reading is left out. -/
def kPostDefrostSeconds : ℤ := 120

/-- The flow and glycol settings a thermal estimate used. -/
def DayAccum.noteSettings (cur : DayAccum) (p : Input) : DayAccum :=
  if cur.flags &&& daySettingsSet = 0 then
    { cur with
      flowLpmX10 := p.flowLpmX10
      glycolPct := p.glycolPct
      flags := cur.flags ||| daySettingsSet }
  else if cur.flowLpmX10 ≠ p.flowLpmX10 ∨ cur.glycolPct ≠ p.glycolPct then
    { cur with flags := cur.flags ||| dayMixedSettings }
  else cur

/-- Add to one entry of a counter array. -/
def bump {n : ℕ} {α : Type} [Add α] (f : Fin n → α) (i : Fin n) (x : α) : Fin n → α :=
  Function.update f i (f i + x)

/-- The heat in the direction the mode expects. -/
def modeHeat (p : Input) : Int32 := if p.bucket = .cooling then -p.thermalW else p.thermalW

/-- From where the outdoor reading counts. -/
def outdoorFrom (defrostEndS a : ℤ) : ℤ :=
  if a > defrostEndS + kPostDefrostSeconds then a else defrostEndS + kPostDefrostSeconds

/-- The seconds from `a` to `b` as the counters take them. -/
def stepSeconds (a b : ℤ) : UInt32 := UInt32.ofNat (b - a).toNat

/-- Power over an interval. -/
def DayAccum.bookPower (cur : DayAccum) (dt : UInt32) (p : Input) : DayAccum :=
  if p.powerValid then
    { cur with
      elecWs := bump cur.elecWs p.bucket.index (p.powerW.toUInt64 * dt.toUInt64)
      powerS := cur.powerS + dt }
  else cur

/-- The running time, by mode and by temperature source. -/
def DayAccum.bookRunning (cur : DayAccum) (dt : UInt32) (p : Input) : DayAccum :=
  let cur := match p.bucket.mode with
    | some m => if p.running then { cur with runS := bump cur.runS m dt } else cur
    | none => cur
  if p.running ∧ ¬ p.defrost then { cur with sourceS := bump cur.sourceS p.source.index dt }
  else cur

/-- The time in defrost and its heat. -/
def DayAccum.bookDefrost (cur : DayAccum) (dt : UInt32) (p : Input) : DayAccum :=
  if p.defrost then
    { cur with
      defrostS := cur.defrostS + dt
      defrostThermalWs := if p.defrostThermalValid then
          cur.defrostThermalWs + p.defrostThermalW.toInt64 * dt.toUInt64.toInt64
        else cur.defrostThermalWs }
  else cur

/-- The heat while its estimate is valid, with the electricity of that time. -/
def DayAccum.bookThermal (cur : DayAccum) (dt : UInt32) (p : Input) : DayAccum :=
  match p.bucket.mode with
  | some m =>
      if p.thermalValid ∧ p.powerValid then
        let q := modeHeat p
        DayAccum.noteSettings
          { cur with
            thermalWs := if q > 0 then
                bump cur.thermalWs m (q.toInt64.toUInt64 * dt.toUInt64)
              else cur.thermalWs
            coveredElecWs := bump cur.coveredElecWs m (p.powerW.toUInt64 * dt.toUInt64)
            thermalS := cur.thermalS + dt } p
      else cur
  | none => cur

/-- The extremes of the outdoor reading. -/
def DayAccum.noteOutdoor (cur : DayAccum) (deci : Int16) : DayAccum :=
  let cur := if cur.flags &&& dayOutdoorSet = 0 then
      { cur with
        outdoorMinDeci := deci
        outdoorMaxDeci := deci
        flags := cur.flags ||| dayOutdoorSet }
    else cur
  let cur := if deci < cur.outdoorMinDeci then { cur with outdoorMinDeci := deci } else cur
  if deci > cur.outdoorMaxDeci then { cur with outdoorMaxDeci := deci } else cur

/-- The outdoor reading over the `outDt` seconds of an interval it counts for. -/
def DayAccum.bookOutdoor (cur : DayAccum) (outDt : UInt32) (p : Input) : DayAccum :=
  let deci := p.outdoorC * 10
  let cur := cur.noteOutdoor deci
  let cur := { cur with
    outdoorSumDeciS := cur.outdoorSumDeciS + deci.toInt64 * outDt.toUInt64.toInt64
    outdoorS := cur.outdoorS + outDt }
  if p.running ∧ p.bucket.mode.isSome then
    { cur with
      runOutdoorSumDeciS := cur.runOutdoorSumDeciS + deci.toInt32 * outDt.toInt32
      runOutdoorS := cur.runOutdoorS + outDt }
  else cur

/-- Book `[a, b)` using the state `p` that held over it. -/
def DayAccum.book (cur : DayAccum) (defrostEndS a b : ℤ) (p : Input) : DayAccum :=
  if b ≤ a ∨ ¬ p.connected then cur
  else
    let dt := stepSeconds a b
    let cur := (((cur.bookPower dt p).bookRunning dt p).bookDefrost dt p).bookThermal dt p
    let outFrom := outdoorFrom defrostEndS a
    if p.outdoorValid ∧ ¬ p.defrost ∧ b > outFrom then
      cur.bookOutdoor (stepSeconds outFrom b) p
    else cur

/-! ### The ledger -/

/-- The ledger: the open day and its span, the reading it books from, the day
finished last and what was saved last. -/
structure EnergyLedger where
  cur : DayAccum := default
  isOpen : Bool := false
  startS : ℤ := 0
  endS : ℤ := 0
  spanExact : Bool := false
  prev : Input := {}
  prevS : ℤ := 0
  hasPrev : Bool := false
  defrostEndS : ℤ := -2 ^ 62
  finished : DayRecord := default
  hasFinished : Bool := false
  saved : DayAccum := default
  hasSaved : Bool := false
  lastSaveS : ℤ := 0
deriving Inhabited

namespace EnergyLedger

def setSpan (l : EnergyLedger) (day : Day) : EnergyLedger :=
  { l with startS := day.startS, endS := dayEnd day, spanExact := true }

def openDay (l : EnergyLedger) (day : Day) : EnergyLedger :=
  { l with
    cur := { (default : DayAccum) with date := day.date, utcOffsetMin := day.utcOffsetMin }
    isOpen := true }.setSpan day

def closeAndOpen (l : EnergyLedger) (day : Day) : EnergyLedger :=
  { l with finished := toRecord l.cur, hasFinished := true }.openDay day

def setReference (l : EnergyLedger) (nowS : ℤ) (input : Input) : EnergyLedger :=
  { l with prev := input, prevS := nowS, hasPrev := true }

/-- Book `[a, b)` to the open day using the state that held over it. -/
def book (l : EnergyLedger) (a b : ℤ) (p : Input) : EnergyLedger :=
  { l with cur := l.cur.book l.defrostEndS a b p }

/-- The open day's span once the day of a reading is known: exact if the
reading is of the same date, run on to the next midnight if the local date
has fallen behind. -/
def exactSpan (l : EnergyLedger) (day : Day) : EnergyLedger :=
  if ¬ l.spanExact ∧ day.date = l.cur.date then l.setSpan day else l

def extendSpan (l : EnergyLedger) (nowS : ℤ) (day : Day) : EnergyLedger :=
  if nowS ≥ l.endS ∧ day.date ≤ l.cur.date then { l with endS := dayEnd day } else l

/-- Whether the interval up to `nowS` is no gap. -/
def inStep (l : EnergyLedger) (nowS : ℤ) : Bool := nowS - l.prevS ≤ kMaxStepSeconds

/-- Book the interval up to `nowS`, over two days if the open one ends in it. -/
def bookInterval (l : EnergyLedger) (nowS : ℤ) (day : Day) : EnergyLedger :=
  if nowS ≥ l.endS then
    let boundary := l.endS
    let l' := if l.inStep nowS ∧ l.prevS < boundary then l.book l.prevS boundary l.prev else l
    let l' := l'.closeAndOpen day
    if l.inStep nowS then
      l'.book (if l.prevS > boundary then l.prevS else boundary) nowS l.prev
    else l'
  else if l.inStep nowS then l.book l.prevS nowS l.prev
  else l

/-- Count a start and a defrost that a reading shows. -/
def countStarts (l : EnergyLedger) (inStep : Bool) (input : Input) : EnergyLedger :=
  if inStep ∧ input.connected ∧ l.prev.connected then
    { l with cur := { l.cur with
      starts := if input.running ∧ ¬ l.prev.running ∧ l.cur.starts < 65535 then l.cur.starts + 1
        else l.cur.starts
      defrosts := if input.defrost ∧ ¬ l.prev.defrost ∧ l.cur.defrosts < 65535 then
          l.cur.defrosts + 1
        else l.cur.defrosts } }
  else l

/-- Note the end of a defrost. -/
def noteDefrostEnd (l : EnergyLedger) (nowS : ℤ) (input : Input) : EnergyLedger :=
  if l.prev.defrost ∧ ¬ input.defrost then { l with defrostEndS := nowS } else l

/-- Feed one reading. It closed the previous day if `hasFinished` is set. -/
def add (l : EnergyLedger) (nowS : ℤ) (day : Day) (input : Input) : EnergyLedger :=
  let l := { l with hasFinished := false }
  if ¬ l.isOpen then (l.openDay day).setReference nowS input
  else
    let l := l.exactSpan day
    if nowS < l.startS then { l with hasPrev := false }
    else
      let l := l.extendSpan nowS day
      if ¬ l.hasPrev ∨ nowS < l.prevS then
        let l := l.setReference nowS input
        if nowS ≥ l.endS then l.closeAndOpen day else l
      else
        (((l.bookInterval nowS day).countStarts (l.inStep nowS) input).noteDefrostEnd nowS
          input).setReference nowS input

/-- Forget the reference point, keeping the totals. -/
def pause (l : EnergyLedger) : EnergyLedger := { l with hasPrev := false }

/-- Seed the open day from a checkpoint; only before tracking starts. -/
def restore (l : EnergyLedger) (a : DayAccum) : EnergyLedger :=
  if l.isOpen then l
  else
    let startS := daysFromDate a.date * 86400 - a.utcOffsetMin.toInt * 60
    { l with
      cur := a
      isOpen := true
      hasPrev := false
      saved := a
      hasSaved := true
      startS
      endS := startS + 86400
      spanExact := false }

/-- Electrical energy integrated before the ledger existed. -/
def addUnattributed (l : EnergyLedger) (ws : UInt64) : EnergyLedger :=
  { l with cur := { l.cur with elecUnattributedWs := l.cur.elecUnattributedWs + ws } }

def takeFinished (l : EnergyLedger) : Option DayRecord :=
  if l.hasFinished then some l.finished else none

def saveDue (l : EnergyLedger) (nowS : ℤ) (force : Bool) : Bool :=
  if ¬ l.isOpen ∨ (l.hasSaved ∧ l.saved = l.cur) then false
  else force || !l.hasSaved || l.saved.date != l.cur.date ||
    nowS - l.lastSaveS ≥ kSaveIntervalSeconds

/-- Note what was written, which may trail the open day. -/
def markSaved (l : EnergyLedger) (nowS : ℤ) (what : DayAccum) : EnergyLedger :=
  { l with saved := what, hasSaved := true, lastSaveS := nowS }

def todayElecWh (l : EnergyLedger) : UInt32 :=
  addBuckets (wsToWh l.cur.elecUnattributedWs) fun b => wsToWh (l.cur.elecWs b)

/-! ### What each step leaves alone -/

@[simp] lemma exactSpan_cur (l : EnergyLedger) (day : Day) : (l.exactSpan day).cur = l.cur := by
  rw [exactSpan]
  split <;> rfl

end EnergyLedger

end ArcticController

/-
The choice between the external temperatures and the heat pump's own (`perf_source.cpp`).

* `MedianWindow`: the last readings of a sensor and their median;
* `SlotHealth`: what the selector keeps of one sensor;
* `SourceSelector`, `onReading`, `onError`, `evaluate`: the selector and its calls.
-/
import ArcticController.Perf.Settings

namespace ArcticController

def kWindowMs : UInt32 := 120000
def kWindowCapacity : ℕ := 32
def kMinSamples : ℕ := 3
def kStaleMs : UInt32 := 60000

/-- Failed polls in a row before falling back. -/
def kErrorsToFail : UInt8 := 2

def kRecoverMs : UInt32 := 60000
def kSettleMs : UInt32 := 180000

/-! ### The window -/

/-- Order and mean of temperatures, and zero (`float`). -/
structure CelsiusOps (C : Type) where
  le : C → C → Bool
  mean : C → C → C
  zero : C

/-- The median of some readings; only for some. -/
def median {C : Type} (ops : CelsiusOps C) (values : List C) : C :=
  let sorted := values.mergeSort ops.le
  if values.length % 2 = 1 then sorted.getD (values.length / 2) ops.zero
  else
    ops.mean (sorted.getD (values.length / 2 - 1) ops.zero)
      (sorted.getD (values.length / 2) ops.zero)

structure WindowSample (C : Type) where
  tMs : UInt32
  value : C
deriving DecidableEq, Repr

/-- The last readings, oldest first. -/
structure MedianWindow (C : Type) where
  samples : List (WindowSample C)
  fits : samples.length ≤ kWindowCapacity

namespace MedianWindow

variable {C : Type}

def empty : MedianWindow C := ⟨[], Nat.zero_le _⟩

def prune (w : MedianWindow C) (nowMs : UInt32) : MedianWindow C where
  samples := w.samples.dropWhile fun s => nowMs - s.tMs > kWindowMs
  fits := (List.dropWhile_sublist _).length_le.trans w.fits

/-- A full window loses its oldest reading. -/
def room (w : MedianWindow C) : List (WindowSample C) :=
  if w.samples.length = kWindowCapacity then w.samples.tail else w.samples

lemma length_room_lt (w : MedianWindow C) : w.room.length < kWindowCapacity := by
  have hcapacity : 0 < kWindowCapacity := by decide
  have hfits := w.fits
  rw [room]
  split
  · rw [List.length_tail]
    omega
  · omega

def add (w : MedianWindow C) (nowMs : UInt32) (value : C) : MedianWindow C where
  samples := (w.prune nowMs).room ++ [⟨nowMs, value⟩]
  fits := by
    rw [List.length_append, List.length_singleton]
    exact length_room_lt _

def size (w : MedianWindow C) : ℕ := w.samples.length

def median (ops : CelsiusOps C) (w : MedianWindow C) : C :=
  ArcticController.median ops (w.samples.map (·.value))

end MedianWindow

/-! ### One sensor -/

/-- What the selector keeps of one sensor. -/
structure SlotHealth (C : Type) where
  window : MedianWindow C := .empty
  haveOk : Bool := false
  errors : UInt8 := 0
  lastOkMs : UInt32 := 0
  goodRun : Bool := false
  goodSinceMs : UInt32 := 0

namespace SlotHealth

variable {C : Type}

/-- A run of good readings begins with the first one, and anew after a silent gap. -/
def continueRun (h : SlotHealth C) (nowMs : UInt32) : SlotHealth C :=
  if ¬ h.goodRun ∨ (h.haveOk ∧ nowMs - h.lastOkMs > kStaleMs) then
    { h with goodRun := true, goodSinceMs := nowMs }
  else h

def onReading (h : SlotHealth C) (nowMs : UInt32) (celsius : C) : SlotHealth C :=
  { h.continueRun nowMs with
    window := h.window.add nowMs celsius
    haveOk := true
    errors := 0
    lastOkMs := nowMs }

/-- One failed poll of a sensor that has been reading is tolerated. -/
def errored (h : SlotHealth C) : Bool :=
  h.errors ≥ kErrorsToFail || (h.errors > 0 && !h.haveOk)

def countError (h : SlotHealth C) : SlotHealth C :=
  { h with errors := if h.errors < 255 then h.errors + 1 else h.errors }

def onError (h : SlotHealth C) : SlotHealth C :=
  if h.countError.errored then { h.countError with goodRun := false } else h.countError

def failing (h : SlotHealth C) (nowMs : UInt32) : Bool :=
  h.errored || (h.haveOk && nowMs - h.lastOkMs > kStaleMs)

def healthy (h : SlotHealth C) (nowMs : UInt32) : Bool :=
  h.haveOk && h.goodRun && nowMs - h.lastOkMs ≤ kStaleMs && h.window.size ≥ kMinSamples

def recovered (h : SlotHealth C) (nowMs : UInt32) : Bool :=
  !(nowMs - h.goodSinceMs < kRecoverMs)

def prune (h : SlotHealth C) (nowMs : UInt32) : SlotHealth C :=
  { h with window := h.window.prune nowMs }

end SlotHealth

/-! ### The selector -/

inductive PerfSource where
  | heatPump
  | external
deriving DecidableEq, Repr

/-- What the selector is told of the heat pump. -/
structure HeatPumpContext (Mode : Type) where
  compressorRunning : Bool
  defrost : Bool
  mode : Mode
deriving DecidableEq, Repr

/-- What `evaluate` answers. -/
structure Selection (C : Type) where
  source : PerfSource
  fallback : Bool
  pending : Bool
  settling : Bool
  supplyC : C
  returnC : C
deriving DecidableEq, Repr

/-- The selector; `lastHp` is none while `have_hp_` is false. -/
structure SourceSelector (C Mode : Type) where
  slots : Fin kSlotCount → SlotHealth C := fun _ => {}
  current : PerfSource := .heatPump
  lastHp : Option (HeatPumpContext Mode) := none
  settleActive : Bool := false
  settleUntilMs : UInt32 := 0

def supplySlot : Fin kSlotCount := ⟨0, supply_lt⟩
def returnSlot : Fin kSlotCount := ⟨1, return_lt⟩

/-- A start, the end of a defrost, a change of mode, or a compressor that runs when first seen. -/
def unsettles {Mode : Type} [DecidableEq Mode] (last : Option (HeatPumpContext Mode))
    (hp : HeatPumpContext Mode) : Bool :=
  match last with
  | some last =>
      let started := hp.compressorRunning && !last.compressorRunning
      let defrostEnded := !hp.defrost && last.defrost
      let modeChanged := hp.mode != last.mode
      started || defrostEnded || modeChanged
  | none => hp.compressorRunning

namespace SourceSelector

variable {C Mode : Type}

def onReading (s : SourceSelector C Mode) (slot : Fin kSlotCount) (nowMs : UInt32) (celsius : C) :
    SourceSelector C Mode :=
  { s with slots := Function.update s.slots slot ((s.slots slot).onReading nowMs celsius) }

def onError (s : SourceSelector C Mode) (slot : Fin kSlotCount) : SourceSelector C Mode :=
  { s with slots := Function.update s.slots slot (s.slots slot).onError }

/-- The settling ends once its deadline has passed. -/
def endSettling (s : SourceSelector C Mode) (nowMs : UInt32) : SourceSelector C Mode :=
  if s.settleActive ∧ 0 ≤ (nowMs - s.settleUntilMs).toInt32 then { s with settleActive := false }
  else s

def trackTransitions [DecidableEq Mode] (s : SourceSelector C Mode) (nowMs : UInt32)
    (hp : HeatPumpContext Mode) : SourceSelector C Mode :=
  let s' : SourceSelector C Mode :=
    if unsettles s.lastHp hp then
      { s with settleActive := true, settleUntilMs := nowMs + kSettleMs }
    else s
  { s' with lastHp := some hp : SourceSelector C Mode }.endSettling nowMs

def prune (s : SourceSelector C Mode) (nowMs : UInt32) : SourceSelector C Mode :=
  { s with slots := fun i => (s.slots i).prune nowMs }

def anyFailing (s : SourceSelector C Mode) (nowMs : UInt32) (configured : Fin kSlotCount → Bool) :
    Bool :=
  decide (∃ i, configured i ∧ (s.slots i).failing nowMs)

def allHealthy (s : SourceSelector C Mode) (nowMs : UInt32) (configured : Fin kSlotCount → Bool) :
    Bool :=
  decide (∀ i, configured i → (s.slots i).healthy nowMs)

/-- Of the healthy sensors, all have read cleanly for a while. -/
def allRecovered (s : SourceSelector C Mode) (nowMs : UInt32) (configured : Fin kSlotCount → Bool) :
    Bool :=
  decide (∀ i, configured i → (s.slots i).healthy nowMs → (s.slots i).recovered nowMs)

/-- The source from now on, if any sensor is configured. -/
def choose (s : SourceSelector C Mode) (nowMs : UInt32) (configured : Fin kSlotCount → Bool) :
    PerfSource :=
  if ¬ s.allHealthy nowMs configured then .heatPump
  else if s.current = .heatPump ∧ s.allRecovered nowMs configured then .external
  else s.current

/-- The answer once the source is chosen. -/
def select (ops : CelsiusOps C) (s : SourceSelector C Mode) (nowMs : UInt32)
    (configured : Fin kSlotCount → Bool) : Selection C where
  source := s.current
  fallback := s.current = .heatPump && s.anyFailing nowMs configured
  pending := s.current = .heatPump && !s.anyFailing nowMs configured
  settling := s.current = .external && s.settleActive
  supplyC :=
    if s.current = .external ∧ configured supplySlot then
      (s.slots supplySlot).window.median ops
    else ops.zero
  returnC :=
    if s.current = .external ∧ configured returnSlot then
      (s.slots returnSlot).window.median ops
    else ops.zero

def evaluate [DecidableEq Mode] (ops : CelsiusOps C) (s : SourceSelector C Mode) (nowMs : UInt32)
    (configured : Fin kSlotCount → Bool) (hp : HeatPumpContext Mode) :
    SourceSelector C Mode × Selection C :=
  let s := (s.trackTransitions nowMs hp).prune nowMs
  if ¬ ∃ i, configured i then
    ({ s with current := .heatPump }, ⟨.heatPump, false, false, false, ops.zero, ops.zero⟩)
  else
    let s := { s with current := s.choose nowMs configured }
    (s, s.select ops nowMs configured)

end SourceSelector

end ArcticController

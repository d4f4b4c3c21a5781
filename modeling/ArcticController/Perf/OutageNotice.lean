/-
The outages of the external sensors: the tracker (`OutageTracker` in
`perf_source.cpp`), the notice of the bell (`ext_sensor_notice.cpp`) and the worker
that reports from one to the other (`ext_temp_sensors.cpp`).

* `OutageTracker.onPoll`, `OutageTracker.onUnknown`, `OutageTracker.reset`;
* `NoticeState.recordLost`, `NoticeState.recordRestored`,
  `NoticeState.settingsChanged`, `NoticeState.clear`: each one call under the
  notice's own lock;
* `trackOutage`, `reportOutage`: what the worker does under `s_mutex` and after it;
* `OutageSystem`, `OutageAction`, `OutageSystem.act`: the worker, the tasks that
  apply settings and the user, one section or call at a time.
-/
import ArcticController.Perf.Settings

namespace ArcticController

/-! ### The tracker -/

def kOutageLostMs : UInt32 := 5 * 60 * 1000

def kOutageRestoreMs : UInt32 := 10 * 60 * 1000

inductive OutageChange where
  | none
  | lost
  | restored
deriving DecidableEq, Repr

structure OutageTracker where
  lost : Fin kSlotCount → Bool := fun _ => false
  failing : Fin kSlotCount → Bool := fun _ => false
  reading : Fin kSlotCount → Bool := fun _ => false
  failSinceMs : Fin kSlotCount → UInt32 := fun _ => 0
  okSinceMs : Fin kSlotCount → UInt32 := fun _ => 0
  outageStartMs : Fin kSlotCount → UInt32 := fun _ => 0
  lostMs : UInt32 := kOutageLostMs
  restoreMs : UInt32 := kOutageRestoreMs

/-- What a poll changed, and how long the outage was that ended. -/
structure OutageReport where
  change : OutageChange := .none
  downMs : UInt32 := 0

namespace OutageTracker

/-- Forget everything but the timing. -/
def reset (t : OutageTracker) : OutageTracker := { lostMs := t.lostMs, restoreMs := t.restoreMs }

def setTiming (t : OutageTracker) (lostMs restoreMs : UInt32) : OutageTracker :=
  { t with lostMs, restoreMs }

/-- A reading; the first one of a clean run starts its time. -/
def markReading (t : OutageTracker) (slot : Fin kSlotCount) (nowMs : UInt32) : OutageTracker :=
  if t.reading slot then t
  else
    { t with
      reading := Function.update t.reading slot true
      okSinceMs := Function.update t.okSinceMs slot nowMs }

/-- A failure; the first one of a run starts its time. -/
def markFailing (t : OutageTracker) (slot : Fin kSlotCount) (nowMs : UInt32) : OutageTracker :=
  let t := { t with reading := Function.update t.reading slot false }
  if t.failing slot then t
  else
    { t with
      failing := Function.update t.failing slot true
      failSinceMs := Function.update t.failSinceMs slot nowMs }

/-- A slot that read. -/
def onReading (t : OutageTracker) (slot : Fin kSlotCount) (nowMs : UInt32) :
    OutageTracker × OutageReport :=
  let t := { t with failing := Function.update t.failing slot false }
  if t.lost slot = false then (t, {})
  else
    let t := t.markReading slot nowMs
    if nowMs - t.okSinceMs slot < t.restoreMs then (t, {})
    else
      ({ t with
          lost := Function.update t.lost slot false
          reading := Function.update t.reading slot false },
        ⟨.restored, t.okSinceMs slot - t.outageStartMs slot⟩)

/-- A slot that did not read. -/
def onFailure (t : OutageTracker) (slot : Fin kSlotCount) (nowMs : UInt32) :
    OutageTracker × OutageReport :=
  let t := t.markFailing slot nowMs
  if t.lost slot ∨ nowMs - t.failSinceMs slot < t.lostMs then (t, {})
  else
    ({ t with
        lost := Function.update t.lost slot true
        outageStartMs := Function.update t.outageStartMs slot (t.failSinceMs slot) },
      ⟨.lost, 0⟩)

@[simp] lemma lost_markReading (t : OutageTracker) (slot : Fin kSlotCount) (nowMs : UInt32) :
    (t.markReading slot nowMs).lost = t.lost := by
  rw [markReading]
  split <;> rfl

@[simp] lemma lost_markFailing (t : OutageTracker) (slot : Fin kSlotCount) (nowMs : UInt32) :
    (t.markFailing slot nowMs).lost = t.lost := by
  rw [markFailing]
  dsimp only
  split <;> rfl

def onPoll (t : OutageTracker) (slot : Fin kSlotCount) (nowMs : UInt32) (ok : Bool) :
    OutageTracker × OutageReport :=
  if ok then t.onReading slot nowMs else t.onFailure slot nowMs

/-- The poll could not tell. -/
def onUnknown (t : OutageTracker) (slot : Fin kSlotCount) : OutageTracker :=
  { t with
    failing := Function.update t.failing slot false
    reading := Function.update t.reading slot false }

end OutageTracker

/-! ### The notice -/

def extSensorNoticeCountMax : UInt32 := 9999

structure ExtSensorNotice where
  pending : Bool := false
  ongoing : Bool := false
  count : UInt32 := 0
  lastDownS : UInt32 := 0
deriving DecidableEq

structure NoticeState where
  notice : ExtSensorNotice := {}
  lostMask : UInt8 := 0
  outageDownS : UInt32 := 0
  revision : UInt32 := 0

/-- A new outage; supply and return dropping together is one. -/
def ExtSensorNotice.newOutage (notice : ExtSensorNotice) : ExtSensorNotice :=
  let notice : ExtSensorNotice :=
    if notice.pending then notice else { notice with pending := true, count := 0 }
  if notice.count < extSensorNoticeCountMax then { notice with count := notice.count + 1 }
  else notice

/-- The bit of a slot. -/
def slotBit (slot : ℕ) : UInt8 := 1 <<< (UInt8.ofNat slot)

namespace NoticeState

/-- `ext_sensor_notice_record_lost`. -/
def recordLost (s : NoticeState) (slot : ℕ) : NoticeState :=
  if 7 < slot then s
  else if s.lostMask &&& slotBit slot ≠ 0 then s
  else
    let s : NoticeState :=
      if s.lostMask = 0 then { s with notice := s.notice.newOutage, outageDownS := 0 }
      else s
    { s with
      lostMask := s.lostMask ||| slotBit slot
      notice := if s.notice.pending then { s.notice with ongoing := true } else s.notice
      revision := s.revision + 1 }

/-- `ext_sensor_notice_record_restored`. -/
def recordRestored (s : NoticeState) (slot : ℕ) (downS : UInt32) : NoticeState :=
  if 7 < slot then s
  else if s.lostMask &&& slotBit slot = 0 then s
  else
    let mask := s.lostMask &&& ~~~ slotBit slot
    let outageDownS := if s.outageDownS < downS then downS else s.outageDownS
    let notice : ExtSensorNotice :=
      if mask = 0 then
        if s.notice.pending then { s.notice with ongoing := false, lastDownS := outageDownS }
        else { s.notice with ongoing := false }
      else s.notice
    { notice, lostMask := mask, outageDownS, revision := s.revision + 1 }

/-- `ext_sensor_notice_settings_changed`. -/
def settingsChanged (s : NoticeState) : NoticeState :=
  if s.lostMask = 0 then s
  else
    { s with
      lostMask := 0
      notice := if s.notice.ongoing then {} else s.notice
      revision := s.revision + 1 }

/-- `ext_sensor_notice_clear`: the user acknowledged. -/
def clear (s : NoticeState) : NoticeState := { s with notice := {}, revision := s.revision + 1 }

end NoticeState

/-! ### The worker -/

/-- `track_outage_locked`: without the network a poll says nothing. -/
def trackOutage (t : OutageTracker) (slot : Fin kSlotCount) (nowMs : UInt32) (ok netUp : Bool) :
    OutageTracker × OutageReport :=
  if netUp then t.onPoll slot nowMs ok else (t.onUnknown slot, {})

/-- The call on the notice that `report_outage` makes. -/
def reportOutage (s : NoticeState) (slot : Fin kSlotCount) (rep : OutageReport) : NoticeState :=
  match rep.change with
  | .none => s
  | .lost => s.recordLost slot
  | .restored => s.recordRestored slot (rep.downMs / 1000)

/-- `inFlight` is what the worker has yet to report of the poll it booked. -/
structure OutageSystem where
  tracker : OutageTracker := {}
  notice : NoticeState := {}
  inFlight : Option (Fin kSlotCount × OutageReport) := none

/-- A section under `s_mutex` or a call on the notice. -/
inductive OutageAction where
  /-- The worker books a poll; `same` says that the slot still has the source polled. -/
  | book (slot : Fin kSlotCount) (nowMs : UInt32) (ok netUp same : Bool)
  /-- The worker reports what it booked. -/
  | report
  /-- `apply_settings` installs new settings. -/
  | install (sensorsChanged : Bool)
  /-- `set_outage_timing`. -/
  | setTiming (lostMs restoreMs : UInt32)
  /-- `ext_sensor_notice_clear`. -/
  | acknowledge

/-- What the notice is told. A reset has overtaken a report if that report, of a
slot found lost, is still to come. -/
inductive NoticeEvent where
  | lost (slot : Fin kSlotCount)
  | restored (slot : Fin kSlotCount)
  | reset (overtaking : Bool)
  | acknowledged
deriving DecidableEq

namespace OutageSystem

/-- `reset_slots_locked`. -/
def resetSlots (s : OutageSystem) : OutageSystem :=
  { s with tracker := s.tracker.reset, notice := s.notice.settingsChanged }

/-- A slot found lost is still to be reported. -/
def reportsLost (s : OutageSystem) : Bool :=
  s.inFlight.any fun p => decide (p.2.change = .lost)

/-- The event of a report. -/
def reportEvent (slot : Fin kSlotCount) (rep : OutageReport) : Option NoticeEvent :=
  match rep.change with
  | .none => none
  | .lost => some (.lost slot)
  | .restored => some (.restored slot)

/-- One action and the event it leaves. The one worker books no poll before it has
reported the one before. -/
def act (s : OutageSystem) : OutageAction → OutageSystem × Option NoticeEvent
  | .book slot nowMs ok netUp same =>
      if s.inFlight.isSome then (s, none)
      else if same then
        let p := trackOutage s.tracker slot nowMs ok netUp
        ({ s with tracker := p.1, inFlight := some (slot, p.2) }, none)
      else ({ s with inFlight := some (slot, {}) }, none)
  | .report =>
      match s.inFlight with
      | none => (s, none)
      | some (slot, rep) =>
          ({ s with notice := reportOutage s.notice slot rep, inFlight := none },
            reportEvent slot rep)
  | .install sensorsChanged =>
      if sensorsChanged then (s.resetSlots, some (.reset s.reportsLost)) else (s, none)
  | .setTiming lostMs restoreMs =>
      ({ s with tracker := s.tracker.setTiming lostMs restoreMs }.resetSlots,
        some (.reset s.reportsLost))
  | .acknowledge => ({ s with notice := s.notice.clear }, some .acknowledged)

end OutageSystem

/-- The system and the events after some actions, from a boot. -/
def outageRun (actions : List OutageAction) : OutageSystem × List NoticeEvent :=
  actions.foldl (fun p a => ((p.1.act a).1, p.2 ++ (p.1.act a).2.toList)) ({}, [])

end ArcticController

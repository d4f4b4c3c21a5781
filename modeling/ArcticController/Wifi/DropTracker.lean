/-
Which Wi-Fi outages reach the event log (`wifi_drop_tracker.h`).

* `WifiDropTracker.onDown`, `WifiDropTracker.onUp`: the link is lost, and up with an address;
* `WifiDropTracker.poll`: the events that are due, in the four parts of the source's function:
  `logLost`, `endQuiet`, `prune` with `reportShort`, and the queue;
* `WifiDropTracker.statsAt`;
* `push_room`, `poll_eq`: with room in the queue nothing is dropped from it, and a poll that takes
  it all leaves it empty.
-/
import Mathlib.Tactic

namespace ArcticController

inductive WifiDropAction where
  /-- The payload is the reason of the disconnect. -/
  | lost
  /-- The payload is the length of the outage in seconds. -/
  | restored
  /-- The payload is the number of short drops. -/
  | unstable
deriving DecidableEq

structure WifiDropEvent where
  action : WifiDropAction
  payload : UInt32
deriving DecidableEq

structure WifiDropStats where
  drops : UInt32 := 0
  shortDrops : UInt32 := 0
  longDrops : UInt32 := 0
  lastReason : UInt16 := 0
  down : Bool := false
  downS : UInt32 := 0

structure WifiDropTracker where
  everUp : Bool := false
  down : Bool := false
  downLocal : Bool := false
  lostLogged : Bool := false
  downSinceMs : ℤ := 0
  reason : UInt16 := 0
  shortMs : List ℤ := []
  /-- After an UNSTABLE report; `0` when none. -/
  quietUntilMs : ℤ := 0
  quietDrops : UInt32 := 0
  pending : List WifiDropEvent := []
  stats : WifiDropStats := {}

namespace WifiDropTracker

def longMs : ℤ := 60000

def unstableWindowMs : ℤ := 3600000

def unstableCount : ℕ := 3

def maxPending : ℕ := 4

/-- The oldest event makes room in a full queue. -/
def push (t : WifiDropTracker) (action : WifiDropAction) (payload : UInt32) : WifiDropTracker :=
  { t with
    pending := (if t.pending.length = maxPending then t.pending.tail else t.pending) ++
      [⟨action, payload⟩] }

def reportUnstable (t : WifiDropTracker) (nowMs : ℤ) (count : UInt32) : WifiDropTracker :=
  { t.push .unstable count with quietUntilMs := nowMs + unstableWindowMs }

def addShort (t : WifiDropTracker) (nowMs : ℤ) : WifiDropTracker :=
  { t with
    shortMs := (if t.shortMs.length = unstableCount then t.shortMs.tail else t.shortMs) ++ [nowMs] }

def prune (t : WifiDropTracker) (nowMs : ℤ) : WifiDropTracker :=
  { t with shortMs := t.shortMs.filter (nowMs - · < unstableWindowMs) }

/-- The link lost its association; `isLocal` when the controller disconnected it. -/
def onDown (t : WifiDropTracker) (nowMs : ℤ) (reason : UInt16) (isLocal : Bool) : WifiDropTracker :=
  if !t.everUp || t.down then t
  else
    let t := { t with down := true, downLocal := isLocal, lostLogged := false, downSinceMs := nowMs }
    if isLocal then t
    else
      { t with
        reason
        stats := { t.stats with drops := t.stats.drops + 1, lastReason := reason } }

/-- An outage ends that has been counted long, or is. -/
def endLong (t : WifiDropTracker) (dur : ℤ) : WifiDropTracker :=
  let t : WifiDropTracker :=
    if t.lostLogged then t
    else
      { t.push .lost t.reason.toUInt32 with
        stats := { t.stats with longDrops := t.stats.longDrops + 1 } }
  t.push .restored (UInt32.ofInt (dur.tdiv 1000))

/-- A short drop ends. -/
def endShort (t : WifiDropTracker) (nowMs : ℤ) : WifiDropTracker :=
  let t := { t with stats := { t.stats with shortDrops := t.stats.shortDrops + 1 } }
  if t.quietUntilMs ≠ 0 then { t with quietDrops := t.quietDrops + 1 } else t.addShort nowMs

/-- The link is up and holds an address. -/
def onUp (t : WifiDropTracker) (nowMs : ℤ) : WifiDropTracker :=
  let t := { t with everUp := true }
  if t.down = false then t
  else
    let t := { t with down := false }
    if t.downLocal then t
    else
      let dur := nowMs - t.downSinceMs
      if t.lostLogged ∨ longMs ≤ dur then t.endLong dur else t.endShort nowMs

/-- The outage that is on has become long. -/
def lostDue (t : WifiDropTracker) (nowMs : ℤ) : Prop :=
  t.down = true ∧ t.downLocal = false ∧ t.lostLogged = false ∧ longMs ≤ nowMs - t.downSinceMs

instance (t : WifiDropTracker) (nowMs : ℤ) : Decidable (t.lostDue nowMs) :=
  inferInstanceAs (Decidable (_ ∧ _))

def logLost (t : WifiDropTracker) (nowMs : ℤ) : WifiDropTracker :=
  if t.lostDue nowMs then
    { t.push .lost t.reason.toUInt32 with
      lostLogged := true
      stats := { t.stats with longDrops := t.stats.longDrops + 1 } }
  else t

/-- The quiet window ends. -/
def endQuiet (t : WifiDropTracker) (nowMs : ℤ) : WifiDropTracker :=
  if t.quietUntilMs ≠ 0 ∧ t.quietUntilMs ≤ nowMs then
    let t : WifiDropTracker :=
      if unstableCount ≤ t.quietDrops.toNat then t.reportUnstable nowMs t.quietDrops
      else { t with quietUntilMs := 0 }
    { t with quietDrops := 0 }
  else t

def reportShort (t : WifiDropTracker) (nowMs : ℤ) : WifiDropTracker :=
  if t.quietUntilMs = 0 ∧ unstableCount ≤ t.shortMs.length then
    { t.reportUnstable nowMs (UInt32.ofNat t.shortMs.length) with shortMs := [] }
  else t

/-- What a poll does before it takes from the queue. -/
def due (t : WifiDropTracker) (nowMs : ℤ) : WifiDropTracker :=
  (((t.logLost nowMs).endQuiet nowMs).prune nowMs).reportShort nowMs

/-- The due events, oldest first, as many as are asked for. -/
def poll (t : WifiDropTracker) (nowMs : ℤ) (maxOut : ℕ) : WifiDropTracker × List WifiDropEvent :=
  let t := t.due nowMs
  ({ t with pending := t.pending.drop maxOut }, t.pending.take maxOut)

def statsAt (t : WifiDropTracker) (nowMs : ℤ) : WifiDropStats :=
  let down := t.down && !t.downLocal
  { t.stats with
    down
    downS := if down then UInt32.ofInt ((nowMs - t.downSinceMs).tdiv 1000) else 0 }

/-! ### The queue -/

lemma push_room (t : WifiDropTracker) (action : WifiDropAction) (payload : UInt32)
    (h : t.pending.length < maxPending) :
    t.push action payload = { t with pending := t.pending ++ [⟨action, payload⟩] } := by
  rw [push, if_neg (by omega)]

/-- On an empty queue. -/
lemma endLong_eq (t : WifiDropTracker) (dur : ℤ) (h : t.pending = []) :
    t.endLong dur =
      if t.lostLogged then
        { t with pending := [⟨.restored, UInt32.ofInt (dur.tdiv 1000)⟩] }
      else
        { t with
          pending := [⟨.lost, t.reason.toUInt32⟩, ⟨.restored, UInt32.ofInt (dur.tdiv 1000)⟩]
          stats := { t.stats with longDrops := t.stats.longDrops + 1 } } := by
  have hroom : t.pending.length < maxPending := by rw [h]; decide
  rw [endLong]
  split
  · rw [push_room _ _ _ hroom, h]
    rfl
  · have hnext : 1 < maxPending := by decide
    rw [push_room t _ _ hroom, h, push_room]
    · rfl
    · exact hnext

/-- A poll that takes the whole queue leaves it empty. -/
lemma poll_eq {t : WifiDropTracker} {nowMs : ℤ} {maxOut : ℕ}
    (h : (t.due nowMs).pending.length ≤ maxOut) :
    t.poll nowMs maxOut = ({ t.due nowMs with pending := [] }, (t.due nowMs).pending) := by
  rw [poll, List.drop_eq_nil_of_le h, List.take_of_length_le h]

end WifiDropTracker

end ArcticController

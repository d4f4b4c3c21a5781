/-
The users of the RS-485 bus (`tuya/macon_master.cpp`): the poll task, any number of tasks
that write, and the restart path.

* `BusWrite`, `BusTransaction`: what goes over the bus;
* `BusTask`: where a task is in `poll_task`, `acquire_for_write` and the write that
  follows, or `quiesce_for_restart`;
* `BusSystem`, `BusStep`: the tasks between the atomic flags and the operations on
  `s_bus_mutex`.
-/
import ArcticController.Base.Runs

namespace ArcticController

/-- A control write. -/
inductive BusWrite where
  | coolingSetpoint (celsius : ℤ)
  | heatingSetpoint (celsius : ℤ)
  | hotWaterSetpoint (celsius : ℤ)
  | workingMode (mode : UInt8)
  | register (address : UInt16) (value : UInt8)
deriving DecidableEq

/-- The windows that are polled, in this order. -/
inductive PollWindow where
  | holding
  | telemetry
deriving DecidableEq

inductive BusTransaction where
  | poll (window : PollWindow)
  | write (w : BusWrite)
deriving DecidableEq

/-- Where a task is. Polling takes the mutex for each window; a write checks the flag
before it waits for the mutex and again once it holds it. -/
inductive BusTask where
  | idle
  | pollWaiting (window : PollWindow)
  | pollHolding (window : PollWindow)
  | polling (window : PollWindow)
  | polled (window : PollWindow)
  | pollDelay
  | writeAsked (w : BusWrite)
  | writeWaiting (w : BusWrite)
  | writeHolding (w : BusWrite)
  | writeRejecting (w : BusWrite)
  | writeCleared (w : BusWrite)
  | writing (w : BusWrite)
  | written (w : BusWrite) (ok : Bool)
  | quiesceWaiting
  | releasing (got : Bool)
deriving DecidableEq

/-- The mutex: the restart path never gives it back. -/
inductive BusMutex where
  | free
  | held (task : ℕ)
  | kept
deriving DecidableEq

structure BusSystem where
  active : Bool := false
  shutdown : Bool := false
  mutex : BusMutex := .free
  task : ℕ → BusTask := fun _ => .idle

/-- What the tasks do: the mutex taken and given back, the flag found clear under it, a
transaction from start to end, the flag set, the mutex of the restart path (or its timeout)
and the release of the transceiver. -/
inductive BusEvent where
  | took (task : ℕ)
  | gave (task : ℕ)
  | cleared (task : ℕ)
  | started (task : ℕ) (x : BusTransaction)
  | ended (task : ℕ) (x : BusTransaction)
  | shutdown (task : ℕ)
  | quiesced (task : ℕ) (got : Bool)
  | released (task : ℕ)
deriving DecidableEq

def BusSystem.goes (s : BusSystem) (t : ℕ) (new : BusTask) : BusSystem :=
  { s with task := Function.update s.task t new }

/-- After the first window the second follows, then a delay. -/
def PollWindow.next : PollWindow → BusTask
  | .holding => .pollWaiting .telemetry
  | .telemetry => .pollDelay

/-- One step of one task. -/
inductive BusStep : BusSystem → Option BusEvent → BusSystem → Prop where
  | activate (s : BusSystem) : BusStep s none { s with active := true }
  | notCreated (s : BusSystem) : BusStep s none { s with active := false }
  | createPoll (s : BusSystem) (t : ℕ) (hidle : s.task t = .idle) :
      BusStep s none (s.goes t (.pollWaiting .holding))
  | pollTake (s : BusSystem) (t : ℕ) (window : PollWindow)
      (h : s.task t = .pollWaiting window) (hfree : s.mutex = .free) :
      BusStep s (some (.took t)) { s.goes t (.pollHolding window) with mutex := .held t }
  | pollStart (s : BusSystem) (t : ℕ) (window : PollWindow) (h : s.task t = .pollHolding window) :
      BusStep s (some (.started t (.poll window))) (s.goes t (.polling window))
  | pollEnd (s : BusSystem) (t : ℕ) (window : PollWindow) (h : s.task t = .polling window) :
      BusStep s (some (.ended t (.poll window))) (s.goes t (.polled window))
  | pollGive (s : BusSystem) (t : ℕ) (window : PollWindow) (h : s.task t = .polled window) :
      BusStep s (some (.gave t)) { s.goes t window.next with mutex := .free }
  | pollDelay (s : BusSystem) (t : ℕ) (h : s.task t = .pollDelay) :
      BusStep s none (s.goes t (.pollWaiting .holding))
  | notActive (s : BusSystem) (t : ℕ) (hidle : s.task t = .idle) (hactive : ¬ s.active) :
      BusStep s none s
  | ask (s : BusSystem) (t : ℕ) (w : BusWrite) (hidle : s.task t = .idle) (hactive : s.active) :
      BusStep s none (s.goes t (.writeAsked w))
  | reject (s : BusSystem) (t : ℕ) (w : BusWrite) (h : s.task t = .writeAsked w)
      (hset : s.shutdown) : BusStep s none (s.goes t .idle)
  | wait (s : BusSystem) (t : ℕ) (w : BusWrite) (h : s.task t = .writeAsked w)
      (hclear : ¬ s.shutdown) : BusStep s none (s.goes t (.writeWaiting w))
  | writeTake (s : BusSystem) (t : ℕ) (w : BusWrite) (h : s.task t = .writeWaiting w)
      (hfree : s.mutex = .free) :
      BusStep s (some (.took t)) { s.goes t (.writeHolding w) with mutex := .held t }
  | clear (s : BusSystem) (t : ℕ) (w : BusWrite) (h : s.task t = .writeHolding w)
      (hclear : ¬ s.shutdown) : BusStep s (some (.cleared t)) (s.goes t (.writeCleared w))
  | notClear (s : BusSystem) (t : ℕ) (w : BusWrite) (h : s.task t = .writeHolding w)
      (hset : s.shutdown) : BusStep s none (s.goes t (.writeRejecting w))
  | rejectGive (s : BusSystem) (t : ℕ) (w : BusWrite) (h : s.task t = .writeRejecting w) :
      BusStep s (some (.gave t)) { s.goes t .idle with mutex := .free }
  | writeStart (s : BusSystem) (t : ℕ) (w : BusWrite) (h : s.task t = .writeCleared w) :
      BusStep s (some (.started t (.write w))) (s.goes t (.writing w))
  | writeEnd (s : BusSystem) (t : ℕ) (w : BusWrite) (ok : Bool) (h : s.task t = .writing w) :
      BusStep s (some (.ended t (.write w))) (s.goes t (.written w ok))
  | writeGive (s : BusSystem) (t : ℕ) (w : BusWrite) (ok : Bool) (h : s.task t = .written w ok) :
      BusStep s (some (.gave t)) { s.goes t .idle with mutex := .free }
  | beginShutdown (s : BusSystem) (t : ℕ) (hidle : s.task t = .idle) :
      BusStep s (some (.shutdown t)) { s with shutdown := true }
  | quiesce (s : BusSystem) (t : ℕ) (hidle : s.task t = .idle) :
      BusStep s (some (.shutdown t)) { s.goes t .quiesceWaiting with shutdown := true }
  | quiesceTake (s : BusSystem) (t : ℕ) (h : s.task t = .quiesceWaiting) (hfree : s.mutex = .free) :
      BusStep s (some (.quiesced t true)) { s.goes t (.releasing true) with mutex := .kept }
  | quiesceTimeout (s : BusSystem) (t : ℕ) (h : s.task t = .quiesceWaiting) :
      BusStep s (some (.quiesced t false)) (s.goes t (.releasing false))
  | release (s : BusSystem) (t : ℕ) (got : Bool) (h : s.task t = .releasing got) :
      BusStep s (some (.released t)) (s.goes t .idle)

end ArcticController

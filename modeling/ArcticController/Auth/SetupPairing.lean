/-
The physical pairing code (`setup_pairing.cpp`), shared by any number of tasks.

* `Pairing`: the state under `state_lock`;
* `clearLocked`, `expiredLocked`, `openSection`, `statusSection`,
  `consumeSection`: what the functions do in their critical sections;
* `validCodeShape`, `drawCode`: what they do outside of them;
* `PairingTask`, `PairingSystem`, `PairingStep`: the tasks between their
  critical sections, and the steps of all of them in any order.
-/
import ArcticController.Base.ConstantTime
import ArcticController.Base.Runs

namespace ArcticController

/-! ### The state under the lock -/

def setupPairingCodeLen : ℕ := 6

def setupPairingWindowSeconds : ℤ := 300

def setupPairingMaxAttempts : UInt8 := 5

/-- The pairing window. -/
structure Pairing where
  active : Bool := false
  code : List UInt8 := []
  deadlineUs : ℤ := 0
  failedAttempts : UInt8 := 0
deriving DecidableEq

/-- The answer to a claim or an authorization. -/
inductive PairingResult where
  | ok
  | notOpen
  | invalidCode
  | locked
  | storageError
deriving DecidableEq, Repr

structure PairingStatus where
  active : Bool
  remainingSeconds : ℤ
  failedAttempts : UInt8
deriving DecidableEq

namespace Pairing

def clearLocked (_ : Pairing) : Pairing := {}

def expiredLocked (s : Pairing) (nowUs : ℤ) : Pairing :=
  if s.active ∧ nowUs ≥ s.deadlineUs then s.clearLocked else s

/-- Show a new code. -/
def openSection (s : Pairing) (code : List UInt8) (nowUs : ℤ) : Pairing :=
  { s.clearLocked with
    code := code
    deadlineUs := nowUs + setupPairingWindowSeconds * 1000000
    active := true }

/-- The status, with the time read before the lock was taken. -/
def statusSection (s : Pairing) (nowUs : ℤ) : Pairing × PairingStatus :=
  let s := s.expiredLocked nowUs
  (s, { active := s.active
        remainingSeconds := if s.active then (s.deadlineUs - nowUs + 999999).tdiv 1000000 else 0
        failedAttempts := s.failedAttempts })

/-- Compare a code with the one shown, and close the window if it matches or
was the last attempt. -/
def consumeSection (s : Pairing) (code : List UInt8) (shapeValid : Bool) (nowUs : ℤ) :
    Pairing × PairingResult :=
  let s := s.expiredLocked nowUs
  if ¬ s.active then (s, .notOpen)
  else if ¬ (shapeValid ∧ constantTimeEqual setupPairingCodeLen code s.code) then
    let s := { s with failedAttempts := s.failedAttempts + 1 }
    if s.failedAttempts ≥ setupPairingMaxAttempts then (s.clearLocked, .locked)
    else (s, .invalidCode)
  else (s.clearLocked, .ok)

end Pairing

/-! ### Outside of the lock -/

/-- Six digits; a null pointer is no string. -/
def validCodeShape : Option (List UInt8) → Bool
  | none => false
  | some code => code.length == setupPairingCodeLen && code.all fun c => 48 ≤ c && c ≤ 57

def codeSpace : UInt32 := 1000000

/-- Random values from here on are thrown away. -/
def unbiasedLimit : UInt32 := 0xFFFFFFFF - 0xFFFFFFFF % codeSpace

/-- A value as six digits. -/
def sixDigits (value : ℕ) : List UInt8 :=
  [100000, 10000, 1000, 100, 10, 1].map fun unit => 48 + UInt8.ofNat (value / unit % 10)

/-- The code made of the first of some random values below the limit. -/
def drawCode (randoms : List UInt32) : Option (List UInt8) :=
  (randoms.find? fun r => r < unbiasedLimit).map fun r => sixDigits (r % codeSpace).toNat

/-! ### The tasks -/

/-- `setup_pairing_claim` or `setup_pairing_authorize`. -/
inductive Consumer where
  | claim
  | authorize
deriving DecidableEq, Repr

/-- Where a task is between its critical sections. -/
inductive PairingTask where
  | idle
  | starting (code : List UInt8)
  | cancelling
  | readingStatus (nowUs : ℤ)
  | consuming (consumer : Consumer) (code : Option (List UInt8)) (shapeValid : Bool)
  | issuing
deriving DecidableEq

/-- The pairing window, the time since boot and the tasks. -/
structure PairingSystem where
  pairing : Pairing := {}
  clockUs : ℤ
  task : ℕ → PairingTask := fun _ => .idle

/-- What a claim is about: a code shown or withdrawn, a call that was evaluated
against a code, and what became of the token of a claim. -/
inductive PairingEvent where
  | opened (code : List UInt8) (deadlineUs : ℤ)
  | cancelled
  | evaluated (task : ℕ) (consumer : Consumer) (code : Option (List UInt8)) (nowUs : ℤ)
      (result : PairingResult)
  | claimed (task : ℕ) (stored : Bool) (result : PairingResult)
deriving DecidableEq

/-- The event of a critical section that evaluated a code; without a window none
was. -/
def evaluatedEvent (task : ℕ) (consumer : Consumer) (code : Option (List UInt8)) (nowUs : ℤ) :
    PairingResult → Option PairingEvent
  | .notOpen => none
  | result => some (.evaluated task consumer code nowUs result)

/-- Where a task goes after its critical section of a claim or an authorization. -/
def afterConsume : Consumer → PairingResult → PairingTask
  | .claim, .ok => .issuing
  | _, _ => .idle

/-- The answer of a claim once its token was issued, or could not be stored. -/
def claimAnswer (stored : Bool) : PairingResult := if stored then .ok else .storageError

/-- One step of one task, or of the clock. A start or a claim without a place for
its code or token returns at once. -/
inductive PairingStep : PairingSystem → Option PairingEvent → PairingSystem → Prop where
  | tick (s : PairingSystem) (nowUs : ℤ) (h : s.clockUs ≤ nowUs) :
      PairingStep s none { s with clockUs := nowUs }
  | nullOutput (s : PairingSystem) (t : ℕ) (hidle : s.task t = .idle) : PairingStep s none s
  | callStart (s : PairingSystem) (t : ℕ) (randoms : List UInt32) (code : List UInt8)
      (hidle : s.task t = .idle) (hdraw : drawCode randoms = some code) :
      PairingStep s none { s with task := Function.update s.task t (.starting code) }
  | start (s : PairingSystem) (t : ℕ) (code : List UInt8) (h : s.task t = .starting code) :
      PairingStep s (some (.opened code (s.clockUs + setupPairingWindowSeconds * 1000000)))
        { s with
          pairing := s.pairing.openSection code s.clockUs
          task := Function.update s.task t .idle }
  | callCancel (s : PairingSystem) (t : ℕ) (hidle : s.task t = .idle) :
      PairingStep s none { s with task := Function.update s.task t .cancelling }
  | cancel (s : PairingSystem) (t : ℕ) (h : s.task t = .cancelling) :
      PairingStep s (some .cancelled)
        { s with
          pairing := s.pairing.clearLocked
          task := Function.update s.task t .idle }
  | callGetStatus (s : PairingSystem) (t : ℕ) (hidle : s.task t = .idle) :
      PairingStep s none { s with task := Function.update s.task t (.readingStatus s.clockUs) }
  | getStatus (s : PairingSystem) (t : ℕ) (nowUs : ℤ) (h : s.task t = .readingStatus nowUs) :
      PairingStep s none
        { s with
          pairing := (s.pairing.statusSection nowUs).1
          task := Function.update s.task t .idle }
  | callConsume (s : PairingSystem) (t : ℕ) (consumer : Consumer) (code : Option (List UInt8))
      (hidle : s.task t = .idle) :
      PairingStep s none
        { s with
          task := Function.update s.task t (.consuming consumer code (validCodeShape code)) }
  | consume (s : PairingSystem) (t : ℕ) (consumer : Consumer) (code : Option (List UInt8))
      (shapeValid : Bool) (h : s.task t = .consuming consumer code shapeValid) :
      PairingStep s
        (evaluatedEvent t consumer code s.clockUs
          (s.pairing.consumeSection (code.getD []) shapeValid s.clockUs).2)
        { s with
          pairing := (s.pairing.consumeSection (code.getD []) shapeValid s.clockUs).1
          task := Function.update s.task t
            (afterConsume consumer
              (s.pairing.consumeSection (code.getD []) shapeValid s.clockUs).2) }
  | issueToken (s : PairingSystem) (t : ℕ) (stored : Bool) (h : s.task t = .issuing) :
      PairingStep s (some (.claimed t stored (claimAnswer stored)))
        { s with task := Function.update s.task t .idle }

/-- The system at boot, at some time. -/
def PairingSystem.boot (clockUs : ℤ) : PairingSystem := { clockUs := clockUs }

end ArcticController

/-
When a newly installed image commits itself (`ota_commit.cpp`), and how it is marked
valid (`ota_manager.cpp`).

* `OtaImage`, `readPendingVerify`, `otaMgrMarkValid`: the state of the running image,
  with its cache;
* `WifiNow`, `networkIsUp`: what the network looks like from here;
* `OtaCommit`, `OtaDevice`: the latches, and what they stand on;
* `persistCommissioned`, `otaCommitInit`, `otaCommitEval`: the commit criteria;
* `OtaInput`, `OtaDevice.act`, `otaAfter`: a boot, one call or change at a time.
-/
import ArcticController.Platform.Partition

namespace ArcticController

/-! ### The running image -/

/-- `esp_ota_img_states_t`. -/
inductive OtaImgState where
  | new
  | pendingVerify
  | valid
  | invalid
  | aborted
  | undefined
deriving DecidableEq, Repr

/-- What `s_pending_verify` holds. -/
inductive PendingVerify where
  | unknown
  | no
  | yes
deriving DecidableEq, Repr

/-- The state of the running partition in flash, the cached answer, and how the calls
of `esp_ota_mark_app_valid_cancel_rollback` went so far. -/
structure OtaImage where
  state : OtaImgState
  pending : PendingVerify := .unknown
  markCalls : List (Option EspErr) := []
deriving DecidableEq, Repr

/-- `query` is the error of looking up the state of the running partition. -/
def readPendingVerify (query : Option EspErr) (o : OtaImage) : Bool × OtaImage :=
  match o.pending with
  | .no => (false, o)
  | .yes => (true, o)
  | .unknown =>
      match query with
      | some _ => (false, o)  -- left uncached, so that it is tried again
      | none =>
          let pending := decide (o.state = .pendingVerify)
          (pending, { o with pending := if pending then .yes else .no })

/-- `mark` is the error of the call that cancels the rollback. -/
def otaMgrMarkValid (query mark : Option EspErr) (o : OtaImage) : OtaImage :=
  match readPendingVerify query o with
  | (false, o) => o
  | (true, o) =>
      match mark with
      | none => { o with state := .valid, pending := .no, markCalls := o.markCalls ++ [none] }
      | some e => { o with markCalls := o.markCalls ++ [some e] }

/-! ### The network -/

inductive WifiMgrState where
  | notInitialized
  | disconnected
  | connecting
  | connected
  | error
deriving DecidableEq, Repr

structure WifiNow where
  state : WifiMgrState := .notInitialized
  currentIp : List Char := []
deriving DecidableEq, Repr

def wifiMgrGetIpAddr (w : WifiNow) (bufLen : ℕ) : Option (List Char) :=
  if w.state ≠ .connected ∨ w.currentIp = [] then none
  else some (w.currentIp.take (bufLen - 1))

def networkIsUp (w : WifiNow) : Bool :=
  if w.state ≠ .connected then false
  else
    match wifiMgrGetIpAddr w 16 with
    | none => false
    | some ip => decide (ip ≠ []) && decide (ip ≠ ['0', '.', '0', '.', '0', '.', '0'])

/-! ### The criteria -/

/-- The answers of `ota_commit_status`. -/
inductive CommitStatus where
  | committed
  | notPending
  | waitingForUi
  | waitingForNetwork
  | waitingForNetworkGrace
deriving DecidableEq, Repr

def uncommissionedGraceUs : ℕ := 120 * 1000000

def nagIntervalUs : ℕ := 60 * 1000000

structure OtaCommit where
  uiReady : Bool := false
  networkSeen : Bool := false
  commissioned : Bool := false
  committed : Bool := false
  loggedPending : Bool := false
  firstEvalUs : ℕ := 0
  nextNagUs : ℕ := 0
  status : CommitStatus := .notPending
deriving DecidableEq, Repr

/-- The latches, the image, the network and the commissioning latch in NVS. -/
structure OtaDevice where
  commit : OtaCommit
  image : OtaImage
  wifi : WifiNow := {}
  latch : Option UInt8 := none
deriving DecidableEq, Repr

/-- How opening, writing and committing the latch go. -/
structure LatchOutcome where
  opening : Option EspErr := none
  setting : Option EspErr := none
  committing : Option EspErr := none
deriving DecidableEq, Repr

/-- The outcome of the commit changes the log only. -/
def persistCommissioned (nvs : LatchOutcome) (d : OtaDevice) : OtaDevice :=
  if d.commit.commissioned then d
  else
    { d with
      commit := { d.commit with commissioned := true }
      latch := if nvs.opening = none ∧ nvs.setting = none then some 1 else d.latch }

/-- The latches at boot; the errors are those of opening and reading the latch. -/
def otaCommitInit (opening getting : Option EspErr) (latch : Option UInt8) : OtaCommit :=
  match opening, getting, latch with
  | none, none, some v => { commissioned := decide (v ≠ 0) }
  | _, _, _ => {}

/-- What an evaluation reads from outside: the clock in microseconds since boot, and
how the calls it makes go. -/
structure EvalOutcome where
  now : ℕ
  query : Option EspErr := none
  mark : Option EspErr := none
  nvs : LatchOutcome := {}
deriving DecidableEq, Repr

/-- `commit`. -/
def otaCommitNow (e : EvalOutcome) (d : OtaDevice) : OtaDevice :=
  { d with
    image := otaMgrMarkValid e.query e.mark d.image
    commit := { d.commit with committed := true, status := .committed } }

def OtaDevice.waiting (d : OtaDevice) (status : CommitStatus) : OtaDevice :=
  { d with commit := { d.commit with status } }

/-- The time of the first evaluation of a pending image. -/
def OtaCommit.noteFirst (c : OtaCommit) (now : ℕ) : OtaCommit :=
  { c with
    firstEvalUs := if c.firstEvalUs = 0 then now else c.firstEvalUs
    nextNagUs := if c.firstEvalUs = 0 then now + nagIntervalUs else c.nextNagUs
    loggedPending := true }

/-- An evaluation of a pending image. -/
def otaCommitPending (e : EvalOutcome) (d : OtaDevice) : OtaDevice :=
  let d := { d with commit := d.commit.noteFirst e.now }
  if !d.commit.uiReady then d.waiting .waitingForUi
  else if d.commit.networkSeen then otaCommitNow e d
  else if !d.commit.commissioned then
    -- a clock before the first evaluation is within the grace period too
    if e.now - d.commit.firstEvalUs < uncommissionedGraceUs then d.waiting .waitingForNetworkGrace
    else otaCommitNow e d
  else
    let d := d.waiting .waitingForNetwork
    if e.now ≥ d.commit.nextNagUs then
      { d with commit := { d.commit with nextNagUs := e.now + nagIntervalUs } }
    else d

/-- Reachability is latched whether or not the image is pending. -/
def latchNetwork (e : EvalOutcome) (d : OtaDevice) : OtaDevice :=
  if !d.commit.networkSeen && networkIsUp d.wifi then
    persistCommissioned e.nvs { d with commit := { d.commit with networkSeen := true } }
  else d

def otaCommitEval (e : EvalOutcome) (d : OtaDevice) : OtaDevice :=
  if d.commit.committed then d
  else
    let d := latchNetwork e d
    match readPendingVerify e.query d.image with
    | (false, image) => { d with image }.waiting .notPending
    | (true, image) => otaCommitPending e { d with image }

/-! ### A boot -/

/-- What happens after the start: the UI is noted, the network changes, the image is
looked up by another module, the criteria are evaluated. -/
inductive OtaInput where
  | uiReady
  | wifi (w : WifiNow)
  | isPendingVerify (query : Option EspErr)
  | eval (e : EvalOutcome)
deriving DecidableEq, Repr

def OtaDevice.act (d : OtaDevice) : OtaInput → OtaDevice
  | .uiReady => { d with commit := { d.commit with uiReady := true } }
  | .wifi w => { d with wifi := w }
  | .isPendingVerify query => { d with image := (readPendingVerify query d.image).2 }
  | .eval e => otaCommitEval e d

/-- A device that just started. -/
def otaBoot (state : OtaImgState) (opening getting : Option EspErr) (latch : Option UInt8) :
    OtaDevice :=
  { commit := otaCommitInit opening getting latch, image := { state }, latch }

def otaAfter (boot : OtaDevice) (inputs : List OtaInput) : OtaDevice :=
  inputs.foldl OtaDevice.act boot

@[simp] lemma otaAfter_nil (boot : OtaDevice) : otaAfter boot [] = boot := rfl

lemma otaAfter_concat (boot : OtaDevice) (inputs : List OtaInput) (i : OtaInput) :
    otaAfter boot (inputs ++ [i]) = (otaAfter boot inputs).act i := List.foldl_concat _ _ _ _

end ArcticController

/-
The supervisor of the Wi-Fi link, `wifi_supervisor_task`, one check at a time.

* `Supervisor`: the variables of the task; `SupervisorCheck`: what a check finds;
* `SupervisorEffect`: what it does, in order;
* `associationLost`, `gatewayAnswers`, `gatewayUnreachable`: the branches of a check;
* `Supervisor.check`, `superviseRun`: a check, and the checks of a boot.
-/
import ArcticController.Ota.OtaCommit
import ArcticController.Wifi.RebootBudget

namespace ArcticController

def fastReconnectMs : ℤ := 2000
def graceMs : ℤ := 60000
def reconnectEveryMs : ℤ := 30000
def rebootAfterMs : ℤ := 900000
def notableMs : ℤ := 30000
def reachGraceMs : ℤ := 90000
def bounceStepMs : ℤ := 45000
def maxBounces : ℕ := 2

/-! ### State -/

/-- The variables of the task; times are in microseconds since the boot, and 0 is none. A
supervisor that has restarted the device is gone. -/
structure Supervisor where
  downSinceUs : ℤ := 0
  lastAttemptUs : ℤ := 0
  fastTried : Bool := false
  unreachableSinceUs : ℤ := 0
  unreachableLogged : Bool := false
  bounces : ℕ := 0
  everReachable : Bool := false
  apiWatch : ApiWatch := {}
  rtc : ApiRtc
  restarted : Bool := false
deriving DecidableEq, Repr

/-- What a check finds: credentials, the state of the link, whether it came up since the
last one, whether the drop was not ours, a roam under way, the credentials loaded, the
address, the web servers, and whether the gateway answers; `now` is the time read where the
link is down, `probed` the one read after a probe. -/
structure SupervisorCheck where
  haveCreds : Bool
  state : WifiMgrState
  linkUpSeen : Bool
  dropDown : Bool
  roamInProgress : Bool
  credsLoaded : Bool
  ip : Option (List Char)
  shutDown : Bool
  api : ApiCheck
  reachable : Bool
  now : ℤ
  probed : ℤ
deriving DecidableEq, Repr

/-- `EVENT_NETWORK_RECOVERED_…`. -/
inductive RecoveryMethod
  | self
  | wifiBounce
  | reboot
deriving DecidableEq, Repr

/-- What a check does. -/
inductive SupervisorEffect
  | noCredentials
  | reconnect
  | api (effect : ApiEffect)
  | probed (time : ℤ) (reachable : Bool)
  | recordUnreachable
  | recordRecovered (method : RecoveryMethod)
  | flushLog
  | roamPoll
  | bounce (time : ℤ)
  | restartLinkDown
  | restartServers
  | restartUnreachable (time : ℤ)
  | wait (ms : ℤ)
deriving DecidableEq, Repr

namespace Supervisor

/-! ### The branches of a check -/

/-- Since when the link is down; a link that came up meanwhile begins anew. -/
def noteLinkDown (s : Supervisor) (c : SupervisorCheck) : Supervisor :=
  let s :=
    if c.linkUpSeen then { s with downSinceUs := 0, lastAttemptUs := 0, fastTried := false } else s
  if s.downSinceUs = 0 then { s with downSinceUs := c.now } else s

/-- A drop we did not cause gets one quick retry. -/
def fastDue (s : Supervisor) (c : SupervisorCheck) : Bool :=
  !s.fastTried && c.dropDown && !c.roamInProgress

/-- A reconnect is due on the usual cadence. -/
def slowDue (s : Supervisor) (c : SupervisorCheck) : Bool :=
  decide (elapsedMs c.now s.downSinceUs ≥ graceMs ∧
    (s.lastAttemptUs = 0 ∨ (c.now - s.lastAttemptUs).tdiv 1000 ≥ reconnectEveryMs))

/-- A reconnect is due and no attempt is in flight. -/
def retryDue (s : Supervisor) (c : SupervisorCheck) : Bool :=
  decide (c.state ≠ .connecting) &&
    ((s.fastDue c && decide (elapsedMs c.now s.downSinceUs ≥ fastReconnectMs)) || s.slowDue c)

def noteRetry (s : Supervisor) (now : ℤ) (retry : Bool) : Supervisor :=
  if retry then { s with lastAttemptUs := now, fastTried := true } else s

/-- The wait for the next check, shorter before the quick retry. -/
def linkDownWait (s : Supervisor) (c : SupervisorCheck) : ℤ :=
  if !(s.noteRetry c.now (s.retryDue c)).fastTried && s.fastDue c &&
      decide (c.state ≠ .connecting) then
    fastReconnectMs - elapsedMs c.now s.downSinceUs
  else checkIntervalMs

/-- The link is down: an outage of the gateway goes on. -/
def associationLost (s : Supervisor) (c : SupervisorCheck) : Supervisor × List SupervisorEffect :=
  let s := s.noteLinkDown c
  let s' := s.noteRetry c.now (s.retryDue c)
  let reconnect := if s.retryDue c && c.credsLoaded then [SupervisorEffect.reconnect] else []
  if elapsedMs c.now s.downSinceUs ≥ rebootAfterMs then
    ({ s' with restarted := true }, reconnect ++ [.flushLog, .restartLinkDown])
  else (s', reconnect ++ [.wait (s.linkDownWait c)])

/-- The gateway answers. -/
def gatewayAnswers (s : Supervisor) : Supervisor × List SupervisorEffect :=
  let recovered :=
    if s.unreachableSinceUs ≠ 0 ∧ s.unreachableLogged = true then
      [SupervisorEffect.recordRecovered (if s.bounces > 0 then .wifiBounce else .self)]
    else []
  ({ s with
      everReachable := true
      unreachableSinceUs := 0
      unreachableLogged := false
      bounces := 0 },
    recovered ++ [.roamPoll, .wait checkIntervalMs])

/-- The outage is recorded once it is not a transient one. -/
def recordOutage (s : Supervisor) (downMs : ℤ) : Supervisor × List SupervisorEffect :=
  if !s.unreachableLogged ∧ downMs ≥ notableMs then
    ({ s with unreachableLogged := true }, [.recordUnreachable, .flushLog])
  else (s, [])

/-- The recovery: bounces of the link, and in the end a reboot. -/
def recover (s : Supervisor) (now downMs : ℤ) : Supervisor × List SupervisorEffect :=
  if s.bounces < maxBounces ∧ downMs ≥ reachGraceMs + s.bounces * bounceStepMs then
    ({ s with bounces := s.bounces + 1 }, [.flushLog, .bounce now, .wait checkIntervalMs])
  else if s.bounces ≥ maxBounces ∧ downMs ≥ reachGraceMs + maxBounces * bounceStepMs then
    ({ s with restarted := true },
      [.recordRecovered .reboot, .flushLog, .restartUnreachable now])
  else (s, [.wait checkIntervalMs])

/-- The link is up with an address, but the gateway does not answer. -/
def gatewayUnreachable (s : Supervisor) (now : ℤ) : Supervisor × List SupervisorEffect :=
  if !s.everReachable then (s, [.wait checkIntervalMs])
  else
    let s := if s.unreachableSinceUs = 0 then { s with unreachableSinceUs := now } else s
    let downMs := elapsedMs now s.unreachableSinceUs
    let (s, recorded) := s.recordOutage downMs
    let (s, recovery) := s.recover now downMs
    (s, recorded ++ recovery)

/-- The turn of the web servers' safety net. -/
def superviseServers (s : Supervisor) (c : SupervisorCheck) : Supervisor × List SupervisorEffect :=
  let t := superviseApiServer { rtc := s.rtc, watch := s.apiWatch } c.shutDown c.api
  ({ s with rtc := t.rtc, apiWatch := t.watch, restarted := t.rebootAt.isSome },
    t.effects.map .api ++ if t.rebootAt.isSome then [.restartServers] else [])

/-- The link is up. -/
def associated (s : Supervisor) (c : SupervisorCheck) : Supervisor × List SupervisorEffect :=
  let s := { s with downSinceUs := 0, lastAttemptUs := 0, fastTried := false }
  if c.ip = none ∨ c.ip = some [] ∨ c.ip = some "0.0.0.0".toList then (s, [.wait checkIntervalMs])
  else
    let (s, served) := s.superviseServers c
    if s.restarted then (s, served)
    else
      let (s, reached) := if c.reachable then s.gatewayAnswers else s.gatewayUnreachable c.probed
      (s, served ++ .probed c.probed c.reachable :: reached)

/-- A check. -/
def check (s : Supervisor) (c : SupervisorCheck) : Supervisor × List SupervisorEffect :=
  if s.restarted then (s, [])
  else if !c.haveCreds then
    ({ s with
        downSinceUs := 0
        lastAttemptUs := 0
        fastTried := false
        unreachableSinceUs := 0
        unreachableLogged := false
        bounces := 0 },
      [.noCredentials, .wait checkIntervalMs])
  else if c.state ≠ .connected then s.associationLost c
  else s.associated c

end Supervisor

/-- The checks of a boot with what they do. -/
def superviseRun (rtc : ApiRtc) (checks : List SupervisorCheck) :
    Supervisor × List SupervisorEffect :=
  checks.foldl (fun p c => ((p.1.check c).1, p.2 ++ (p.1.check c).2)) ({ rtc }, [])

end ArcticController

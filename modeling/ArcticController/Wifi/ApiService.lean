/-
The API service task of `wifi_manager.cpp`, which alone starts, stops and probes the
web servers, and the calls that wait for it.

* `ApiFlags`, `ServerOp`: what a request may ask for besides a start, and what the task
  does to the servers;
* `ApiTask`, `ApiCall`: where the task and a call are, between single atomic operations;
* `ApiService`: the atomics, the task and the calls;
* `taskStep`, `callStep`: the next operation of the task, or of a call;
* `ApiAction`, `ApiService.act`, `serve`: all interleavings, with what happens in them.
-/
import ArcticController.Base.Generations

namespace ArcticController

/-! ### State -/

/-- `API_REQ_RESTART` and `API_REQ_DISABLE_HTTPS`. -/
inductive ApiReq where
  | restart
  | disableHttps
deriving DecidableEq, Repr

structure ApiFlags where
  restart : Bool := false
  disableHttps : Bool := false
deriving DecidableEq, Repr

def ApiFlags.has (flags : ApiFlags) : ApiReq → Bool
  | .restart => flags.restart
  | .disableHttps => flags.disableHttps

def ApiFlags.or (flags flags' : ApiFlags) : ApiFlags :=
  ⟨flags.restart || flags'.restart, flags.disableHttps || flags'.disableHttps⟩

/-- What the task does to the servers: `api_server_disable_https`, `api_server_stop`,
`api_server_ensure_running` and `api_server_probe`. -/
inductive ServerOp where
  | disableHttps
  | stop
  | ensureRunning
  | probe
deriving DecidableEq, Repr

/-- The calls, with what they ask for. -/
inductive ApiRequest where
  | start
  | ensureRunning
  | restart (disableHttps : Bool) (cause : ℤ)
  | probe
deriving DecidableEq, Repr

def ApiRequest.flags : ApiRequest → ApiFlags
  | .restart disableHttps _ => ⟨true, disableHttps⟩
  | _ => {}

/-- The next operation of the task; `gen` is the generation it serves. -/
inductive ApiTask where
  | notifyTake
  | loadReq
  | loadDone (gen : ℕ)
  | exchangeFlags (gen : ℕ)
  | readIp (gen : ℕ) (flags : ApiFlags)
  | readShutDown (gen : ℕ) (flags : ApiFlags)
  | loadCause (gen : ℕ) (flags : ApiFlags)
  | disableHttps (gen : ℕ) (flags : ApiFlags) (cause : ℤ)
  | disablingHttps (gen : ℕ) (flags : ApiFlags) (cause : ℤ)
  | stop (gen : ℕ)
  | stopping (gen : ℕ)
  | ensureRunning (gen : ℕ)
  | startingServers (gen : ℕ)
  | storeOk (gen : ℕ) (ok : Bool)
  | storeDone (gen : ℕ)
  | loadProbeReq
  | loadProbeDone (gen : ℕ)
  | probe (gen : ℕ)
  | probing (gen : ℕ)
  | storeProbeOk (gen : ℕ) (ok : Bool)
  | storeProbeDone (gen : ℕ)
deriving DecidableEq, Repr

/-- The next operation of a call; `gen` is the generation it asked for. -/
inductive ApiCall where
  | idle
  | storeCause (req : ApiRequest) (cause : ℤ)
  | orFlags (req : ApiRequest)
  | fetchAdd (req : ApiRequest)
  | notifyGive (req : ApiRequest) (gen : ℕ)
  | loadDone (req : ApiRequest) (gen : ℕ)
  | loadResult (req : ApiRequest) (gen : ℕ)
  | returned
deriving DecidableEq, Repr

/-- `api` is `s_api_req_gen`, `s_api_done_gen` and `s_api_last_ok`, `probe` the same for
probes. The notifications of the task count no further than whether there is one. -/
structure ApiService where
  notified : Bool := false
  api : Generations := { lastOk := false }
  probe : Generations := { lastOk := true }
  reqFlags : ApiFlags := {}
  disableCause : ℤ := 0
  currentIp : Bool := false
  shutDown : Bool := false
  task : ApiTask := .notifyTake
  calls : ℕ → ApiCall := fun _ => .idle

/-- What happens: a call begins or returns, the task begins or ends something, or it has
taken some flags and finds that there is no IP address. -/
inductive ApiEvent where
  | called (id : ℕ) (req : ApiRequest)
  | returned (id : ℕ) (req : ApiRequest) (ok : Bool)
  | began (op : ServerOp)
  | ended (op : ServerOp) (ok : Bool)
  | turnedAway (flags : ApiFlags)
deriving DecidableEq, Repr

/-! ### The task -/

/-- mDNS is best effort. -/
def afterDisable (gen : ℕ) (flags : ApiFlags) : ApiTask :=
  if flags.restart then .stop gen else .ensureRunning gen

def afterChecks (gen : ℕ) (flags : ApiFlags) : ApiTask :=
  if flags.disableHttps then .loadCause gen flags else afterDisable gen flags

/-- The next operation of `api_service_task`; `ok` is the result of what it waits for. -/
def taskStep (ok : Bool) (s : ApiService) : Option ApiEvent × ApiService :=
  match s.task with
  | .notifyTake =>
      if s.notified then (none, { s with notified := false, task := .loadReq }) else (none, s)
  | .loadReq => (none, { s with task := .loadDone s.api.req })
  | .loadDone gen =>
      (none, { s with task := if gen ≠ s.api.done then .exchangeFlags gen else .loadProbeReq })
  | .exchangeFlags gen => (none, { s with reqFlags := {}, task := .readIp gen s.reqFlags })
  | .readIp gen flags =>
      if s.currentIp then (none, { s with task := .readShutDown gen flags })
      else (some (.turnedAway flags), { s with task := .storeOk gen false })
  | .readShutDown gen flags =>
      (none, { s with task := if s.shutDown then .storeOk gen false else afterChecks gen flags })
  | .loadCause gen flags => (none, { s with task := .disableHttps gen flags s.disableCause })
  | .disableHttps gen flags cause =>
      (some (.began .disableHttps), { s with task := .disablingHttps gen flags cause })
  | .disablingHttps gen flags _ =>
      (some (.ended .disableHttps true), { s with task := afterDisable gen flags })
  | .stop gen => (some (.began .stop), { s with task := .stopping gen })
  | .stopping gen => (some (.ended .stop true), { s with task := .ensureRunning gen })
  | .ensureRunning gen => (some (.began .ensureRunning), { s with task := .startingServers gen })
  | .startingServers gen => (some (.ended .ensureRunning ok), { s with task := .storeOk gen ok })
  | .storeOk gen ok => (none, { s with api := s.api.storeOk ok, task := .storeDone gen })
  | .storeDone gen => (none, { s with api := s.api.storeDone gen, task := .loadProbeReq })
  | .loadProbeReq => (none, { s with task := .loadProbeDone s.probe.req })
  | .loadProbeDone gen =>
      (none, { s with task := if gen ≠ s.probe.done then .probe gen else .notifyTake })
  | .probe gen => (some (.began .probe), { s with task := .probing gen })
  | .probing gen => (some (.ended .probe ok), { s with task := .storeProbeOk gen ok })
  | .storeProbeOk gen ok =>
      (none, { s with probe := s.probe.storeOk ok, task := .storeProbeDone gen })
  | .storeProbeDone gen =>
      (none, { s with probe := s.probe.storeDone gen, task := .notifyTake })

/-! ### The calls -/

def ApiService.setCall (s : ApiService) (id : ℕ) (call : ApiCall) : ApiService :=
  { s with calls := Function.update s.calls id call }

/-- Where a call begins. -/
def ApiRequest.begin : ApiRequest → ApiCall
  | .restart true cause => .storeCause (.restart true cause) cause
  | .restart false cause => .orFlags (.restart false cause)
  | req => .fetchAdd req

/-- The atomics a request waits for. -/
def ApiService.generations (s : ApiService) : ApiRequest → Generations
  | .probe => s.probe
  | _ => s.api

/-- One more request, of its kind. -/
def ApiService.raise (s : ApiService) : ApiRequest → ApiService
  | .probe => { s with probe := s.probe.raise }
  | _ => { s with api := s.api.raise }

/-- The next operation of a call, which may have no more time to wait. -/
def callStep (id : ℕ) (timedOut : Bool) (s : ApiService) : Option ApiEvent × ApiService :=
  match s.calls id with
  | .idle | .returned => (none, s)
  | .storeCause req cause => (none, { s with disableCause := cause }.setCall id (.orFlags req))
  | .orFlags req =>
      (none, { s with reqFlags := s.reqFlags.or req.flags }.setCall id (.fetchAdd req))
  | .fetchAdd req =>
      (none, (s.raise req).setCall id (.notifyGive req ((s.generations req).req + 1)))
  | .notifyGive req gen =>
      (none, { s with notified := true }.setCall id
        (if req = ApiRequest.start then .returned else .loadDone req gen))
  | .loadDone req gen =>
      if timedOut then (some (.returned id req false), s.setCall id .returned)
      else if gen ≤ (s.generations req).done then (none, s.setCall id (.loadResult req gen))
      else (none, s)
  | .loadResult req _ =>
      (some (.returned id req (s.generations req).lastOk), s.setCall id .returned)

/-! ### Interleavings -/

/-- The next operation of the task or of a call, a call that begins, an IP address that
comes or goes, or the servers are shut down for good. -/
inductive ApiAction where
  | task (ok : Bool)
  | call (id : ℕ) (req : ApiRequest)
  | caller (id : ℕ) (timedOut : Bool)
  | currentIp (present : Bool)
  | shutDown
deriving DecidableEq, Repr

/-- Every call has a number of its own. -/
def ApiService.act (s : ApiService) : ApiAction → Option ApiEvent × ApiService
  | .task ok => taskStep ok s
  | .call id req =>
      if s.calls id = .idle then (some (.called id req), s.setCall id req.begin) else (none, s)
  | .caller id timedOut => callStep id timedOut s
  | .currentIp present => (none, { s with currentIp := present })
  | .shutDown => (none, { s with shutDown := true })

/-- The service after some actions, with what has happened. -/
def serve (actions : List ApiAction) : ApiService × List ApiEvent :=
  actions.foldl (fun r a => ((r.1.act a).2, r.2 ++ (r.1.act a).1.toList)) ({}, [])

lemma serve_concat (actions : List ApiAction) (a : ApiAction) :
    serve (actions ++ [a]) = (((serve actions).1.act a).2,
      (serve actions).2 ++ ((serve actions).1.act a).1.toList) := by
  rw [serve, List.foldl_append]
  rfl

end ArcticController

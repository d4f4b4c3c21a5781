/-
The Home Assistant integration token and the control writes made with it
(`auth_manager.cpp`), shared by any number of tasks.

* `IntegrationState`: the part of `state` under `integration_token_lock`, with
  its critical sections;
* `validateResult`: what a validation answers from the copy it took;
* `TokenTask`, `TokenSystem`, `TokenStep`: the tasks between their critical
  sections and around `integration_token_mutex`, and the steps of all of them in
  any order.
-/
import ArcticController.Auth.Digest
import ArcticController.Base.Runs

namespace ArcticController

/-! ### The state under the lock -/

def authIntegrationTokenLen : ℕ := 64

/-- The digest of the token, if one is set, and how often it has changed. -/
structure IntegrationState where
  integrationTokenHash : Digest := .zero
  integrationTokenSet : Bool := false
  integrationGeneration : UInt32 := 0
deriving DecidableEq

namespace IntegrationState

/-- The state at boot, from the bytes read for the digest. -/
def load : Option (List UInt8) → IntegrationState
  | none => {}
  | some bytes =>
      { integrationTokenHash := .ofBytes bytes
        integrationTokenSet := bytes.length == 32
        integrationGeneration := if bytes.length == 32 then 1 else 0 }

def issueSection (s : IntegrationState) (tokenHash : Digest) : IntegrationState :=
  { integrationTokenHash := tokenHash
    integrationTokenSet := true
    integrationGeneration := s.integrationGeneration + 1 }

def revokeSection (s : IntegrationState) : IntegrationState :=
  { integrationTokenHash := .zero
    integrationTokenSet := false
    integrationGeneration := s.integrationGeneration + 1 }

def beginSection (s : IntegrationState) (generation : UInt32) : Bool :=
  s.integrationTokenSet && s.integrationGeneration == generation

end IntegrationState

/-! ### Validation -/

/-- A token that is long enough to be looked at; a null pointer is none. -/
def validTokenShape : Option (List UInt8) → Bool
  | none => false
  | some token => token.length == authIntegrationTokenLen

/-- The generation that validates a token against a copy of the state. -/
def validateResult (sha : List UInt8 → Digest) (hashed : Bool) (token : List UInt8)
    (copy : IntegrationState) : Option UInt32 :=
  if ¬ copy.integrationTokenSet then none
  else
    match hashPassword sha hashed token with
    | none => none
    | some tokenHash =>
        if tokenHash.equal copy.integrationTokenHash then some copy.integrationGeneration else none

/-! ### The tasks -/

/-- A call that takes the mutex. -/
inductive TokenCall where
  | issue
  | revoke
  | beginWrite (generation : UInt32)
deriving DecidableEq

/-- Where a task is: the states from `holding` on are under the mutex. -/
inductive TokenTask where
  | idle
  | validating (token : List UInt8)
  | comparing (token : List UInt8) (copy : IntegrationState)
  | waiting (call : TokenCall)
  | holding (call : TokenCall)
  | issuing (token : List UInt8) (tokenHash : Digest)
  | revoking
  | releasing
  | writing
deriving DecidableEq

/-- The token, the mutex and the tasks. -/
structure TokenSystem where
  state : IntegrationState
  mutex : Option ℕ := none
  task : ℕ → TokenTask := fun _ => .idle

/-- What the fencing is about: a token that was validated, an attempt to change
the saved digest, a change that took effect, and a control write from begin to
end. -/
inductive TokenEvent where
  | validated (task : ℕ) (token : List UInt8) (generation : UInt32)
  | stored (task : ℕ)
  | issued (task : ℕ) (token : List UInt8)
  | revoked (task : ℕ)
  | begun (task : ℕ) (generation : UInt32)
  | ended (task : ℕ)
deriving DecidableEq

/-- The event of a validation; a token that did not pass leaves none. -/
def validatedEvent (task : ℕ) (token : List UInt8) : Option UInt32 → Option TokenEvent
  | none => none
  | some generation => some (.validated task token generation)

/-- One step of one task. Storing in NVS may fail, and so may hashing. -/
inductive TokenStep (sha : List UInt8 → Digest) :
    TokenSystem → Option TokenEvent → TokenSystem → Prop where
  | rejectShape (s : TokenSystem) (t : ℕ) (token : Option (List UInt8)) (hidle : s.task t = .idle)
      (hshape : ¬ validTokenShape token) : TokenStep sha s none s
  | callValidate (s : TokenSystem) (t : ℕ) (token : List UInt8) (hidle : s.task t = .idle)
      (hshape : validTokenShape (some token)) :
      TokenStep sha s none { s with task := Function.update s.task t (.validating token) }
  | copyState (s : TokenSystem) (t : ℕ) (token : List UInt8) (h : s.task t = .validating token) :
      TokenStep sha s none { s with task := Function.update s.task t (.comparing token s.state) }
  | compare (s : TokenSystem) (t : ℕ) (token : List UInt8) (copy : IntegrationState) (hashed : Bool)
      (h : s.task t = .comparing token copy) :
      TokenStep sha s (validatedEvent t token (validateResult sha hashed token copy))
        { s with task := Function.update s.task t .idle }
  | nullBuffer (s : TokenSystem) (t : ℕ) (hidle : s.task t = .idle) : TokenStep sha s none s
  | call (s : TokenSystem) (t : ℕ) (call : TokenCall) (hidle : s.task t = .idle) :
      TokenStep sha s none { s with task := Function.update s.task t (.waiting call) }
  | take (s : TokenSystem) (t : ℕ) (call : TokenCall) (h : s.task t = .waiting call)
      (hfree : s.mutex = none) :
      TokenStep sha s none
        { s with mutex := some t, task := Function.update s.task t (.holding call) }
  | issueUnhashed (s : TokenSystem) (t : ℕ) (h : s.task t = .holding .issue) :
      TokenStep sha s none { s with task := Function.update s.task t .releasing }
  | issueStore (s : TokenSystem) (t : ℕ) (token : List UInt8) (stored : Bool)
      (h : s.task t = .holding .issue) (hlen : token.length = authIntegrationTokenLen) :
      TokenStep sha s (some (.stored t))
        { s with
          task := Function.update s.task t
            (if stored then .issuing token (sha token) else .releasing) }
  | issue (s : TokenSystem) (t : ℕ) (token : List UInt8) (tokenHash : Digest)
      (h : s.task t = .issuing token tokenHash) :
      TokenStep sha s (some (.issued t token))
        { s with
          state := s.state.issueSection tokenHash
          task := Function.update s.task t .releasing }
  | revokeStore (s : TokenSystem) (t : ℕ) (stored : Bool) (h : s.task t = .holding .revoke) :
      TokenStep sha s (some (.stored t))
        { s with task := Function.update s.task t (if stored then .revoking else .releasing) }
  | revoke (s : TokenSystem) (t : ℕ) (h : s.task t = .revoking) :
      TokenStep sha s (some (.revoked t))
        { s with
          state := s.state.revokeSection
          task := Function.update s.task t .releasing }
  | begun (s : TokenSystem) (t : ℕ) (generation : UInt32)
      (h : s.task t = .holding (.beginWrite generation)) (hvalid : s.state.beginSection generation) :
      TokenStep sha s (some (.begun t generation))
        { s with task := Function.update s.task t .writing }
  | beginRefused (s : TokenSystem) (t : ℕ) (generation : UInt32)
      (h : s.task t = .holding (.beginWrite generation))
      (hinvalid : ¬ s.state.beginSection generation) :
      TokenStep sha s none { s with task := Function.update s.task t .releasing }
  | endWrite (s : TokenSystem) (t : ℕ) (h : s.task t = .writing) :
      TokenStep sha s (some (.ended t))
        { s with mutex := none, task := Function.update s.task t .idle }
  | release (s : TokenSystem) (t : ℕ) (h : s.task t = .releasing) :
      TokenStep sha s none { s with mutex := none, task := Function.update s.task t .idle }

/-- The system once the digest was loaded at boot. -/
def TokenSystem.boot (saved : Option (List UInt8)) : TokenSystem := { state := .load saved }

end ArcticController

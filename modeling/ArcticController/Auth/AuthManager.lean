/-
The authentication manager (`auth_manager.cpp`): the credentials, the API key, the
integration token and the table of web sessions, in RAM and in the `auth`
namespace of NVS.

* `AuthState`, `Session`: what is kept in RAM; `AuthKey`: the keys in NVS;
* `AuthSite`: the places that call NVS, so that a claim can tell their calls apart;
* `loadFromNvs`, `loadSessions`, `saveToNvs`, `saveSessions`: the two copies;
* `findSession`, `findFreeSession`, `isSessionExpired`: the table of sessions;
* `authMgrInit`, `setCredentials`, `login`, `validateSession`, `logout`,
  `logoutAll`, `regenerateApiKey`, `validateApiKey`, `issueIntegrationToken`,
  `revokeIntegrationToken`, `validateIntegrationToken`: the calls.

A C string is the list of its characters, a pointer that may be null an `Option`. The
digest of a string is an argument `hash`, which gives none where computing it fails.
-/
import ArcticController.Auth.IntegrationToken
import ArcticController.Base.Codec
import ArcticController.Platform.Nvs

namespace ArcticController

/-! ### The state -/

def authSessionTokenLen : ℕ := 32

def authApiKeyLen : ℕ := 32

def authMaxSessions : ℕ := 4

def authSessionLifetimeSec : ℤ := 30 * 24 * 60 * 60

def authMaxUsernameLen : ℕ := 32

/-- `"arctic"`, both `AUTH_FACTORY_USERNAME` and `AUTH_FACTORY_PASSWORD`. -/
def authFactoryUsername : List UInt8 := [0x61, 0x72, 0x63, 0x74, 0x69, 0x63]

def authFactoryPassword : List UInt8 := authFactoryUsername

/-- A slot of the session table. -/
structure Session where
  active : Bool := false
  tokenHash : Digest := .zero
  createdAt : Int64 := 0
  lastUsed : Int64 := 0
deriving DecidableEq

/-- The session table. -/
abbrev Sessions : Type := Fin authMaxSessions → Session

/-- What the authentication manager keeps in RAM. -/
structure AuthState where
  webAuthEnabled : Bool := false
  apiAuthEnabled : Bool := false
  username : List UInt8 := []
  passwordHash : Digest := .zero
  passwordSet : Bool := false
  apiKey : List UInt8 := []
  integration : IntegrationState := {}
  sessions : Sessions := fun _ => {}
deriving DecidableEq

/-- The keys of the namespace `auth`. -/
inductive AuthKey where
  | webEn
  | apiEn
  | username
  | passHash
  | apiKey
  | haHash
  | sessions
deriving DecidableEq, Repr

/-- Which part of the manager calls NVS. -/
inductive AuthSite where
  | load
  | loadSessions
  | saveSettings
  | regenerate
  | saveSessions
  | integration
deriving DecidableEq, Repr

/-- A call of NVS and who made it. -/
abbrev AuthOp : Type := AuthSite × NvsOp AuthKey

/-- A computation on the namespace and the state in RAM. -/
abbrev AuthM (α : Type) : Type := FaultM (Nvs AuthKey × AuthState) NvsFault AuthOp EspErr α

/-- The calls of NVS made at a site. -/
def atSite {α : Type} (site : AuthSite) (m : NvsM AuthKey α) : AuthM α :=
  (m.relabel fun op => (site, op)).zoom

def getState : AuthM AuthState := do
  let s ← FaultM.get
  pure s.2

def setState (ram : AuthState) : AuthM Unit := .modify fun s => (s.1, ram)

/-! ### Loading and saving the settings -/

/-- A flag read with `nvs_get_u8`, which stays off where reading fails. -/
def loadedFlag : Except EspErr (List UInt8) → Bool
  | .ok bytes => bytes.headD 0 != 0
  | .error _ => false

/-- A string read with `nvs_get_str`, which stays empty where reading fails. -/
def loadedString : Except EspErr (List UInt8) → List UInt8
  | .ok string => string
  | .error _ => []

/-- `load_from_nvs` into a wiped state; none where the namespace does not open. -/
def loadFromNvs : NvsM AuthKey (Option AuthState) := do
  match ← nvsOpen.attempt with
  | .error _ => pure none
  | .ok () =>
    let webEn ← (nvsGetBlob .webEn 1).attempt
    let apiEn ← (nvsGetBlob .apiEn 1).attempt
    let username ← (nvsGetBlob .username authMaxUsernameLen).attempt
    let passHash ← (nvsGetBlob .passHash 32).attempt
    let apiKey ← (nvsGetBlob .apiKey authApiKeyLen).attempt
    let haHash ← (nvsGetBlob .haHash 32).attempt
    pure (some
      { webAuthEnabled := loadedFlag webEn
        apiAuthEnabled := loadedFlag apiEn
        username := loadedString username
        passwordHash := (passHash.toOption.map Digest.ofBytes).getD .zero
        passwordSet := passHash.toOption.isSome
        apiKey := loadedString apiKey
        integration := .load haHash.toOption })

def enabledByte (enabled : Bool) : List UInt8 := [if enabled then 1 else 0]

/-- The values `save_to_nvs` writes, in the order it writes them. -/
def settingsWrites (ram : AuthState) : List (AuthKey × List UInt8) :=
  [(.webEn, enabledByte ram.webAuthEnabled), (.apiEn, enabledByte ram.apiAuthEnabled)]
    ++ (if ram.username ≠ [] then [(.username, ram.username)] else [])
    ++ (if ram.passwordSet then [(.passHash, ram.passwordHash.toList)] else [])
    ++ (if ram.apiKey ≠ [] then [(.apiKey, ram.apiKey)] else [])

/-- Every value handed over, whatever became of the ones before; true if all were
taken. -/
def recordWrites : List (AuthKey × List UInt8) → NvsM AuthKey Bool
  | [] => pure true
  | (key, value) :: writes => do
      let r ← (nvsSetBlob key value).attempt
      let rest ← recordWrites writes
      pure (r.isOk && rest)

/-- `save_to_nvs`. -/
def saveSettings (ram : AuthState) : NvsM AuthKey Bool := do
  match ← nvsOpen.attempt with
  | .error _ => pure false
  | .ok () =>
    let recorded ← recordWrites (settingsWrites ram)
    let r ← nvsCommit.attempt
    pure (recorded && r.isOk)

def saveToNvs (site : AuthSite) : AuthM Bool := do
  let ram ← getState
  atSite site (saveSettings ram)

/-! ### The saved sessions -/

def sessionsBlobVersion : UInt8 := 1

/-- A digest, byte by byte. -/
def Codec.digest : Codec Digest where
  size := 32
  enc digest := digest.toList
  dec bytes := .ofBytes bytes
  enc_length _ := Vector.length_toList
  dec_enc_append := Digest.ofBytes_append

/-- `stored_session_t`. -/
def storedSession : Codec (Int64 × Digest) := Codec.i64.pair Codec.digest

/-- `sizeof(stored_sessions_t)`. -/
def storedSessionsSize : ℕ := 2 + authMaxSessions * storedSession.size

/-- The active sessions, as they are saved. -/
def activeSessions (sessions : Sessions) : List (Int64 × Digest) :=
  ((List.ofFn sessions).filter (·.active)).map fun s => (s.createdAt, s.tokenHash)

def sessionsBlob (sessions : Sessions) : List UInt8 :=
  let active := activeSessions sessions
  sessionsBlobVersion :: UInt8.ofNat active.length :: active.flatMap storedSession.enc

/-- One blob opened, set and committed, each if the calls before succeeded. -/
def saveBlob (key : AuthKey) (blob : List UInt8) : NvsM AuthKey Bool := do
  match ← nvsOpen.attempt with
  | .error _ => pure false
  | .ok () =>
    match ← (nvsSetBlob key blob).attempt with
    | .error _ => pure false
    | .ok () =>
      let r ← nvsCommit.attempt
      pure r.isOk

/-- `save_sessions`, which only logs a failure. -/
def saveSessionList (sessions : Sessions) : NvsM AuthKey Unit := do
  let _ ← saveBlob .sessions (sessionsBlob sessions)
  pure ()

def saveSessions : AuthM Unit := do
  let ram ← getState
  atSite .saveSessions (saveSessionList ram.sessions)

/-- The sessions a blob holds, if it is one `save_sessions` could have written. -/
def savedSessions (blob : List UInt8) : Option (List (Int64 × Digest)) :=
  let count := (blob.getD 1 0).toNat
  if blob.length < 2 ∨ blob.getD 0 0 ≠ sessionsBlobVersion ∨ authMaxSessions < count ∨
      blob.length ≠ 2 + count * storedSession.size then
    none
  else
    some ((List.range count).map fun i => storedSession.dec (blob.drop (2 + i * storedSession.size)))

/-- A restored session; its last use is forgotten. -/
def restoredSession (saved : Int64 × Digest) : Session :=
  { active := true, tokenHash := saved.2, createdAt := saved.1, lastUsed := saved.1 }

/-- The table with saved sessions in its first slots. -/
def restoreSessions (sessions : Sessions) (saved : List (Int64 × Digest)) : Sessions := fun i =>
  (saved[(i : ℕ)]?.map restoredSession).getD (sessions i)

/-- `load_sessions`. -/
def loadSessions (sessions : Sessions) : NvsM AuthKey Sessions := do
  match ← nvsOpen.attempt with
  | .error _ => pure sessions
  | .ok () =>
    match ← (nvsGetBlob .sessions storedSessionsSize).attempt with
    | .error _ => pure sessions
    | .ok blob => pure (restoreSessions sessions ((savedSessions blob).getD []))

/-! ### The table of sessions -/

/-- `find_session`: the last active slot with the digest of the token. -/
def findSession (hash : List UInt8 → Option Digest) (sessions : Sessions)
    (token : Option (List UInt8)) : Option (Fin authMaxSessions) :=
  match token with
  | none => none
  | some token =>
    if token.length ≠ authSessionTokenLen then none
    else
      match hash token with
      | none => none
      | some digest =>
        (List.finRange authMaxSessions).reverse.find? fun i =>
          (sessions i).active && (sessions i).tokenHash.equal digest

/-- The slot that has gone unused for longest, the first of several. -/
def oldestSession (sessions : Sessions) : Fin authMaxSessions :=
  (List.finRange authMaxSessions).foldl
    (fun oldest i => if (sessions i).lastUsed < (sessions oldest).lastUsed then i else oldest)
    ⟨0, by decide⟩

/-- `find_free_session`: a free slot, or the one to evict. -/
def findFreeSession (sessions : Sessions) : Fin authMaxSessions :=
  ((List.finRange authMaxSessions).find? fun i => !(sessions i).active).getD
    (oldestSession sessions)

def isSessionExpired (session : Session) (now : Int64) : Bool :=
  !session.active || authSessionLifetimeSec < now.toInt - session.createdAt.toInt

def setSessions (sessions : Sessions) : AuthM Unit := do
  let ram ← getState
  setState { ram with sessions }

def endSession (session : Session) : Session := { session with active := false }

/-! ### The calls -/

section Calls

variable (hash : List UInt8 → Option Digest)

/-- The factory credentials. A password that could not be hashed is no password. -/
def factoryState (ram : AuthState) : AuthState :=
  { ram with
    username := authFactoryUsername
    passwordHash := (hash authFactoryPassword).getD .zero
    passwordSet := (hash authFactoryPassword).isSome }

/-- No credentials were found. -/
def needsFactory (loaded : Option AuthState) : Bool :=
  match loaded with
  | none => true
  | some ram => !ram.passwordSet && ram.username.isEmpty

/-- The saved credentials with their sessions, or the factory credentials. -/
def loadOrDefaults : AuthM Unit := do
  let loaded ← atSite .load loadFromNvs
  let ram := loaded.getD {}
  if needsFactory loaded then
    setState (factoryState hash ram)
    let _ ← saveToNvs .saveSettings
    pure ()
  else
    -- saved sessions belong to the saved credentials
    let sessions ← atSite .loadSessions (loadSessions ram.sessions)
    setState { ram with sessions }

/-- Remote administration is always authenticated. -/
def forceAuthEnabled : AuthM Unit := do
  let ram ← getState
  if ¬ ram.webAuthEnabled ∨ ¬ ram.apiAuthEnabled then
    setState { ram with webAuthEnabled := true, apiAuthEnabled := true }
    let _ ← saveToNvs .saveSettings
    pure ()
  else
    pure ()

/-- An API key, if there is none. -/
def ensureApiKey (apiKey : List UInt8) : AuthM Unit := do
  let ram ← getState
  if ram.apiKey = [] then
    setState { ram with apiKey }
    let _ ← saveToNvs .saveSettings
    pure ()
  else
    pure ()

/-- `auth_mgr_init`, with the key it generates if there is none. -/
def authMgrInit (apiKey : List UInt8) : AuthM Unit := do
  loadOrDefaults hash
  forceAuthEnabled
  ensureApiKey apiKey

def logoutAll : AuthM Unit := do
  let ram ← getState
  setSessions fun i => endSession (ram.sessions i)
  saveSessions

/-- An argument that is neither null nor empty. -/
def provided (string : Option (List UInt8)) : Option (List UInt8) := string.filter (· ≠ [])

def withUsername (username : Option (List UInt8)) (ram : AuthState) : AuthState :=
  match provided username with
  | none => ram
  | some username => { ram with username := username.take authMaxUsernameLen }

/-- `auth_mgr_set_credentials`. -/
def setCredentials (username password : Option (List UInt8)) : AuthM Bool := do
  let ram ← getState
  let ram := withUsername username ram
  match provided password with
  | none =>
      if (provided username).isSome then
        setState ram
        let saved ← saveToNvs .saveSettings
        logoutAll
        pure saved
      else
        pure true
  | some password =>
      match hash password with
      | none =>
          setState { ram with passwordHash := .zero, passwordSet := false }
          logoutAll
          pure false
      | some passwordHash =>
          setState { ram with passwordHash, passwordSet := true }
          let saved ← saveToNvs .saveSettings
          logoutAll
          pure saved

/-- The checks of `auth_mgr_login`. -/
def loginAllowed (ram : AuthState) (username password : List UInt8) : Bool :=
  username == ram.username && ram.passwordSet &&
    match hash password with
    | none => false
    | some inputHash => inputHash.equal ram.passwordHash

/-- The session a login opens. -/
def newSession (tokenHash : Digest) (now : Int64) : Session :=
  { active := true, tokenHash, createdAt := now, lastUsed := now }

/-- `auth_mgr_login`, with the token it generates, which it returns if it succeeds. -/
def login (username password : Option (List UInt8)) (token : List UInt8) (now : Int64) :
    AuthM (Option (List UInt8)) := do
  let ram ← getState
  match username, password with
  | some username, some password =>
      if ¬ loginAllowed hash ram username password then pure none
      else
        match hash token with
        | none => pure none
        | some tokenHash =>
            setSessions (Function.update ram.sessions (findFreeSession ram.sessions)
              (newSession tokenHash now))
            saveSessions
            pure (some token)
  | _, _ => pure none

/-- `auth_mgr_validate_session`, which reads the clock twice. -/
def validateSession (token : Option (List UInt8)) (now now' : Int64) : AuthM Bool := do
  let ram ← getState
  match findSession hash ram.sessions token with
  | none => pure false
  | some i =>
      if isSessionExpired (ram.sessions i) now then
        setSessions (Function.update ram.sessions i (endSession (ram.sessions i)))
        saveSessions
        pure false
      else
        setSessions (Function.update ram.sessions i { ram.sessions i with lastUsed := now' })
        pure true

def logout (token : Option (List UInt8)) : AuthM Unit := do
  let ram ← getState
  match findSession hash ram.sessions token with
  | none => pure ()
  | some i =>
      setSessions (Function.update ram.sessions i (endSession (ram.sessions i)))
      saveSessions

/-- `auth_mgr_regenerate_api_key`, with the key it generates. It succeeds whether or
not the key was saved. -/
def regenerateApiKey (apiKey : List UInt8) : AuthM Bool := do
  let ram ← getState
  setState { ram with apiKey }
  let _ ← saveToNvs .regenerate
  pure true

def validateApiKey (ram : AuthState) : Option (List UInt8) → Bool
  | none => false
  | some key => key ≠ [] && key == ram.apiKey

/-- The digest stored by `auth_mgr_issue_integration_token`. -/
def storeIntegrationHash (tokenHash : Digest) : NvsM AuthKey Bool :=
  saveBlob .haHash tokenHash.toList

/-- `auth_mgr_issue_integration_token`, with the token it generates, which it returns if
it succeeds. -/
def issueIntegrationToken (token : List UInt8) : AuthM (Option (List UInt8)) := do
  match hash token with
  | none => pure none
  | some tokenHash =>
    let stored ← atSite .integration (storeIntegrationHash tokenHash)
    if ¬ stored then pure none
    else
      let ram ← getState
      setState { ram with integration := ram.integration.issueSection tokenHash }
      pure (some token)

/-- The digest erased by `auth_mgr_revoke_integration_token`. One that was not there is
no error. -/
def eraseIntegrationHash : NvsM AuthKey Bool := do
  match ← nvsOpen.attempt with
  | .error _ => pure false
  | .ok () =>
    let erased ← (nvsEraseKey .haHash).attempt
    if erased.isOk ∨ erased = .error nvsNotFound then
      let r ← nvsCommit.attempt
      pure r.isOk
    else
      pure false

/-- `auth_mgr_revoke_integration_token`. -/
def revokeIntegrationToken : AuthM Bool := do
  let erased ← atSite .integration eraseIntegrationHash
  if ¬ erased then pure false
  else
    let ram ← getState
    setState { ram with integration := ram.integration.revokeSection }
    pure true

/-- `auth_mgr_validate_integration_token`. -/
def validateIntegrationToken (ram : AuthState) (token : Option (List UInt8)) : Bool :=
  match token with
  | none => false
  | some string =>
      validTokenShape token &&
        (validateResult (fun string => (hash string).getD .zero) (hash string).isSome string
          ram.integration).isSome

end Calls

end ArcticController

/-
Revoked credentials. The namespace `auth` and the state in RAM over whole runs of the
authentication manager in which any call of NVS may fail and power may be lost
anywhere, even inside a call.

* `AuthCall`, `AuthStep`: the calls and the steps; `AuthEvent`: what a run leaves;
* `Revoked`, `revokedAfter`: the credentials that were replaced or revoked and were not
  given out again since;
* `SoundCall`, `SoundStart`: the calls of NVS that matter did not fail;
* `CleanFlash`, `CleanRam`: no revoked credential is left in either copy.
-/
import ArcticController.Auth.AuthCalls

namespace ArcticController

/-! ### The calls and the steps -/

/-- A call with its arguments and what it generates or reads from the clock. -/
inductive AuthCall where
  | setCredentials (username password : Option (List UInt8))
  | login (username password : Option (List UInt8)) (token : List UInt8) (now : Int64)
  | validateSession (token : Option (List UInt8)) (now now' : Int64)
  | logout (token : Option (List UInt8))
  | logoutAll
  | regenerateApiKey (apiKey : List UInt8)
  | issueIntegrationToken (token : List UInt8)
  | revokeIntegrationToken
deriving DecidableEq

/-- The call, and whether it reported success. -/
def AuthCall.run (hash : List UInt8 → Option Digest) : AuthCall → AuthM Bool
  | .setCredentials username password => ArcticController.setCredentials hash username password
  | .login username password token now => do
      let r ← ArcticController.login hash username password token now
      pure r.isSome
  | .validateSession token now now' => ArcticController.validateSession hash token now now'
  | .logout token => do
      ArcticController.logout hash token
      pure true
  | .logoutAll => do
      ArcticController.logoutAll
      pure true
  | .regenerateApiKey apiKey => ArcticController.regenerateApiKey apiKey
  | .issueIntegrationToken token => do
      let r ← ArcticController.issueIntegrationToken hash token
      pure r.isSome
  | .revokeIntegrationToken => ArcticController.revokeIntegrationToken

/-- The generator filled its buffer. -/
def AuthCall.Generated : AuthCall → Prop
  | .login _ _ token _ => token.length = authSessionTokenLen
  | .regenerateApiKey apiKey => apiKey.length = authApiKeyLen
  | .issueIntegrationToken token => token.length = authIntegrationTokenLen
  | .setCredentials _ _ | .validateSession _ _ _ | .logout _ | .logoutAll
  | .revokeIntegrationToken => True

/-- What a run leaves: a start, and a call with what it returned unless power was lost. -/
inductive AuthEvent where
  | started (apiKey : List UInt8)
  | called (call : AuthCall) (returned : Option Bool)

/-- The namespace, and the state in RAM while the device runs. -/
structure AuthSystem where
  nvs : Nvs AuthKey
  ram : Option AuthState

/-- The device without power. -/
def AuthSystem.off (c : AuthContents) : AuthSystem := ⟨.ofContents c, none⟩

/-- A digest, where one was computed, is the digest. -/
def Digests (sha : List UInt8 → Digest) (hash : List UInt8 → Option Digest) : Prop :=
  ∀ string digest, hash string = some digest → digest = sha string

/-- Erasing a key reports that it is missing only if it is. -/
def documentedErase : Rely NvsFault AuthOp where
  allowed op fault := match op.2, fault with
    | .eraseKey _, .error e _ => e ≠ nvsNotFound
    | _, _ => True
  promise _ := True

/-- The calls of NVS made during a start or a call, with the faults that hit them. -/
abbrev AuthOps : Type := List (AuthOp × NvsFault)

/-- A condition on the calls of NVS during a start, and one during a call. -/
structure Soundness where
  start : AuthContents → AuthOps → Prop
  call : AuthContents → AuthState → AuthCall → (List UInt8 → Option Digest) → AuthOps → Prop

/-- No condition. -/
def anySteps : Soundness := ⟨fun _ _ => True, fun _ _ _ _ _ => True⟩

/-- One step: a start or a call, with any faults the soundness admits, or a loss of
power in between. A start and a call are also cut by a loss of power. -/
inductive AuthStep (sha : List UInt8 → Digest) (sound : Soundness) :
    AuthSystem → Option AuthEvent → AuthSystem → Prop where
  | powerOff (s : AuthSystem) : AuthStep sha sound s none ⟨s.nvs.reset, none⟩
  | start {s : AuthSystem} {hash : List UInt8 → Option Digest} {apiKey : List UInt8}
      {faults : List NvsFault} {r : Result (Nvs AuthKey × AuthState) NvsFault AuthOp EspErr Unit}
      (hoff : s.ram = none) (hhash : Digests sha hash) (hkey : apiKey.length = authApiKeyLen)
      (hrun : authMgrInit hash apiKey (s.nvs, {}) faults = r)
      (hsound : sound.start s.nvs.stored r.ops) (hout : r.out = .val ()) :
      AuthStep sha sound s (some (.started apiKey)) ⟨r.state.1, some r.state.2⟩
  | startCut {s : AuthSystem} {hash : List UInt8 → Option Digest} {apiKey : List UInt8}
      {faults : List NvsFault} {r : Result (Nvs AuthKey × AuthState) NvsFault AuthOp EspErr Unit}
      (hoff : s.ram = none) (hhash : Digests sha hash) (hkey : apiKey.length = authApiKeyLen)
      (hrun : authMgrInit hash apiKey (s.nvs, {}) faults = r)
      (hsound : sound.start s.nvs.stored r.ops) (hout : r.out = .cut) :
      AuthStep sha sound s (some (.started apiKey)) ⟨r.state.1.reset, none⟩
  | call {s : AuthSystem} {ram : AuthState} {call : AuthCall}
      {hash : List UInt8 → Option Digest} {faults : List NvsFault}
      {r : Result (Nvs AuthKey × AuthState) NvsFault AuthOp EspErr Bool} {ok : Bool}
      (hon : s.ram = some ram) (hhash : Digests sha hash) (hgen : call.Generated)
      (hrun : call.run hash (s.nvs, ram) faults = r) (hdoc : documentedErase.Covers r.ops)
      (hsound : sound.call s.nvs.stored ram call hash r.ops) (hout : r.out = .val ok) :
      AuthStep sha sound s (some (.called call (some ok))) ⟨r.state.1, some r.state.2⟩
  | callCut {s : AuthSystem} {ram : AuthState} {call : AuthCall}
      {hash : List UInt8 → Option Digest} {faults : List NvsFault}
      {r : Result (Nvs AuthKey × AuthState) NvsFault AuthOp EspErr Bool}
      (hon : s.ram = some ram) (hhash : Digests sha hash) (hgen : call.Generated)
      (hrun : call.run hash (s.nvs, ram) faults = r) (hdoc : documentedErase.Covers r.ops)
      (hsound : sound.call s.nvs.stored ram call hash r.ops) (hout : r.out = .cut) :
      AuthStep sha sound s (some (.called call none)) ⟨r.state.1.reset, none⟩

/-! ### What is revoked -/

/-- Digests of session tokens, of passwords and of integration tokens, and API keys. -/
structure Revoked where
  sessions : Set Digest := ∅
  passwords : Set Digest := ∅
  apiKeys : Set (List UInt8) := ∅
  integrationTokens : Set Digest := ∅

namespace Revoked

variable (sha : List UInt8 → Digest)

/-- A value that is issued or set is no longer revoked, whether or not that succeeds. -/
def offer (r : Revoked) : AuthCall → Revoked
  | .setCredentials _ password =>
      match provided password with
      | none => r
      | some password => { r with passwords := r.passwords \ {sha password} }
  | .login _ _ token _ => { r with sessions := r.sessions \ {sha token} }
  | .regenerateApiKey apiKey => { r with apiKeys := r.apiKeys \ {apiKey} }
  | .issueIntegrationToken token =>
      { r with integrationTokens := r.integrationTokens \ {sha token} }
  | .validateSession _ _ _ | .logout _ | .logoutAll | .revokeIntegrationToken => r

/-- The password a successful change replaced: every other one. -/
def replacePassword (r : Revoked) (password : Option (List UInt8)) (ok : Bool) : Revoked :=
  match provided password with
  | none => r
  | some password => if ok then { r with passwords := {sha password}ᶜ } else r

/-- What a call that ended has replaced or revoked. -/
def finish (r : Revoked) (ok : Bool) : AuthCall → Revoked
  | .setCredentials username password =>
      if credentialsGiven username password then
        { r.replacePassword sha password ok with sessions := Set.univ }
      else r
  | .logout (some token) =>
      if token.length = authSessionTokenLen then
        { r with sessions := r.sessions ∪ {sha token} }
      else r
  | .logoutAll => { r with sessions := Set.univ }
  | .regenerateApiKey apiKey => if ok then { r with apiKeys := {apiKey}ᶜ } else r
  | .revokeIntegrationToken => if ok then { r with integrationTokens := Set.univ } else r
  | .logout none | .login _ _ _ _ | .validateSession _ _ _ | .issueIntegrationToken _ => r

def next (r : Revoked) : AuthEvent → Revoked
  | .started apiKey => { r with apiKeys := r.apiKeys \ {apiKey} }
  | .called call none => r.offer sha call
  | .called call (some ok) => (r.offer sha call).finish sha ok call

end Revoked

/-- What is revoked after a run. -/
def revokedAfter (sha : List UInt8 → Digest) (log : List AuthEvent) : Revoked :=
  log.foldl (Revoked.next sha) {}

/-- No revoked credential is accepted, whatever faults hit the attempt. -/
structure RefusesRevoked (sha : List UInt8 → Digest) (revoked : Revoked) (nvs : Nvs AuthKey)
    (ram : AuthState) (hash : List UInt8 → Option Digest) : Prop where
  session : ∀ token now now' faults, sha token ∈ revoked.sessions →
    (validateSession hash (some token) now now' (nvs, ram) faults).out ≠ .val true
  password : ∀ username password token now faults r, sha password ∈ revoked.passwords →
    (login hash username (some password) token now (nvs, ram) faults).out ≠ .val (some r)
  apiKey : ∀ key, key ∈ revoked.apiKeys → validateApiKey ram (some key) = false
  integrationToken : ∀ token, sha token ∈ revoked.integrationTokens →
    validateIntegrationToken hash ram (some token) = false

/-! ### Sound steps -/

/-- At this site the namespace opens, this key is set and the commit reaches the flash. -/
def savesAt (site : AuthSite) (key : AuthKey) : Rely NvsFault AuthOp where
  allowed op fault := match op, fault with
    | (site', .open), .error _ _ => site' ≠ site
    | (site', .setBlob key' _), .error _ _ => site' ≠ site ∨ key' ≠ key
    | (site', .commit), .error _ false => site' ≠ site
    | _, _ => True
  promise _ := True

/-- At a start the namespace opens and this key is read. -/
def startReads (key : AuthKey) : Rely NvsFault AuthOp where
  allowed op fault := match op, fault with
    | (.load, .open), .error _ _ => False
    | (.load, .getBlob key' _), .error _ _ => key' ≠ key
    | _, _ => True
  promise _ := True

/-- Any call of NVS may be hit by any fault. -/
def anyAuthFaults : Rely NvsFault AuthOp := ⟨fun _ _ => True, fun _ => True⟩

/-- A session with this digest is in the table. -/
def InTable (ram : AuthState) (digest : Digest) : Prop :=
  ∃ i, (ram.sessions i).active ∧ (ram.sessions i).tokenHash = digest

/-- A session with this digest is in the namespace. -/
def InFlash (c : AuthContents) (digest : Digest) : Prop :=
  digest ∈ (storedSessions c).map Prod.snd

/-- A start does not fall back to the factory credentials while another password is
stored: it opens the namespace and reads that password or a user name. -/
def SoundStart (sha : List UInt8 → Digest) (c : AuthContents) (ops : AuthOps) : Prop :=
  (∃ bytes, c .passHash = some bytes ∧ Digest.ofBytes bytes ≠ sha authFactoryPassword) →
    (startReads .passHash).Covers ops ∨
      (∃ username, c .username = some username ∧ username ≠ [] ∧
        username.length ≤ authMaxUsernameLen) ∧ (startReads .username).Covers ops

/-- What a call revokes it finds, and the save that takes it out of the namespace does
not fail. -/
def SoundCall (sha : List UInt8 → Digest) (c : AuthContents) (ram : AuthState) (call : AuthCall)
    (hash : List UInt8 → Option Digest) (ops : AuthOps) : Prop :=
  match call with
  | .logout (some token) => token.length = authSessionTokenLen →
      (InTable ram (sha token) → (hash token).isSome ∧ ∀ i j,
        (ram.sessions i).active → (ram.sessions i).tokenHash = sha token →
        (ram.sessions j).active → (ram.sessions j).tokenHash = sha token → i = j) ∧
      (InFlash c (sha token) →
        InTable ram (sha token) ∧ (savesAt .saveSessions .sessions).Covers ops)
  | .logoutAll => storedSessions c ≠ [] → (savesAt .saveSessions .sessions).Covers ops
  | .setCredentials username password => credentialsGiven username password →
      storedSessions c ≠ [] → (savesAt .saveSessions .sessions).Covers ops
  | .regenerateApiKey apiKey =>
      (∃ stored, c .apiKey = some stored ∧ stored ≠ apiKey) →
        (savesAt .regenerate .apiKey).Covers ops
  | .logout none | .login _ _ _ _ | .validateSession _ _ _ | .issueIntegrationToken _
  | .revokeIntegrationToken => True

/-- The sound steps. -/
def soundSteps (sha : List UInt8 → Digest) : Soundness := ⟨SoundStart sha, SoundCall sha⟩

lemma savesAt_saves (site : AuthSite) (key : AuthKey) : ((savesAt site key).atSite site).Saves key where
  opens _ _ h := h rfl
  sets _ _ _ h := h.elim (· rfl) (· rfl)
  commits _ h := h rfl

/-! ### Clean copies -/

/-- A value in the namespace that stands for no revoked credential. -/
def CleanValue (r : Revoked) : AuthKey → List UInt8 → Prop
  | .sessions, blob => ∀ p ∈ blobSessions blob, p.2 ∉ r.sessions
  | .passHash, bytes => Digest.ofBytes bytes ∉ r.passwords
  | .apiKey, key => key ∉ r.apiKeys
  | .haHash, bytes => bytes.length = 32 → Digest.ofBytes bytes ∉ r.integrationTokens
  | .webEn, _ | .apiEn, _ | .username, _ => True

/-- No revoked credential is in the namespace, and a password that replaced another one
is still there. -/
structure CleanFlash (r : Revoked) (c : AuthContents) : Prop where
  values : ∀ key value, c key = some value → CleanValue r key value
  kept : r.passwords.Nonempty → ∃ bytes, c .passHash = some bytes ∧ bytes.length ≤ 32

/-- No revoked credential is accepted by the state in RAM. -/
structure CleanRam (r : Revoked) (ram : AuthState) : Prop where
  sessions : ∀ i, (ram.sessions i).active → (ram.sessions i).tokenHash ∉ r.sessions
  password : ram.passwordSet → ram.passwordHash ∉ r.passwords
  apiKey : ram.apiKey ∉ r.apiKeys
  integration : ram.integration.integrationTokenSet →
    ram.integration.integrationTokenHash ∉ r.integrationTokens

/-- Values to write that stand for no revoked credential. -/
def CleanWrites (r : Revoked) (writes : List (AuthKey × List UInt8)) : Prop :=
  ∀ key value, (key, value) ∈ writes →
    CleanValue r key value ∧ (key = .passHash → value.length ≤ 32)

section Clean

variable {r r' : Revoked} {c c' : AuthContents} {ram : AuthState}
  {writes writes' : List (AuthKey × List UInt8)}

lemma CleanFlash.written (h : CleanFlash r c) (hpart : PartlyWritten writes c c')
    (hclean : CleanWrites r writes) : CleanFlash r c' where
  values key value hvalue := by
    rcases hpart key with hkey | ⟨value', hmem, hkey⟩
    · exact h.values key value (hkey ▸ hvalue)
    · obtain rfl := Option.some.inj (hvalue.symm.trans hkey)
      exact (hclean key value hmem).1
  kept hsome := by
    rcases hpart .passHash with hkey | ⟨value, hmem, hkey⟩
    · rw [hkey]
      exact h.kept hsome
    · exact ⟨value, hkey, (hclean _ _ hmem).2 rfl⟩

lemma CleanWrites.append (h : CleanWrites r writes) (h' : CleanWrites r writes') :
    CleanWrites r (writes ++ writes') := fun key value hmem =>
  (List.mem_append.mp hmem).elim (h key value) (h' key value)

/-- A clean state has clean settings. -/
lemma CleanRam.settings (hpassword : ram.passwordSet → ram.passwordHash ∉ r.passwords)
    (hkey : ram.apiKey ∉ r.apiKeys) : CleanWrites r (settingsWrites ram) := by
  intro key value hmem
  rcases mem_settingsWrites.mp hmem with
    ⟨rfl, rfl⟩ | ⟨rfl, rfl⟩ | ⟨rfl, -, rfl⟩ | ⟨rfl, hset, rfl⟩ | ⟨rfl, -, rfl⟩
  · exact ⟨trivial, nofun⟩
  · exact ⟨trivial, nofun⟩
  · exact ⟨trivial, nofun⟩
  · refine ⟨?_, fun _ => Vector.length_toList.le⟩
    rw [CleanValue, Digest.ofBytes_toList]
    exact hpassword hset
  · exact ⟨hkey, nofun⟩

lemma CleanRam.startWrites (h : CleanRam r ram) : CleanWrites r (startWrites ram) := by
  refine (CleanRam.settings h.password h.apiKey).append fun key value hmem => ?_
  simp only [List.mem_cons, Prod.mk.injEq, List.not_mem_nil, or_false] at hmem
  rcases hmem with ⟨rfl, -⟩ | ⟨rfl, -⟩ | ⟨rfl, -⟩ | ⟨rfl, -⟩ <;> exact ⟨trivial, nofun⟩

/-- A clean table is a clean list. -/
lemma cleanWrites_sessions {sessions : Sessions}
    (h : ∀ i, (sessions i).active → (sessions i).tokenHash ∉ r.sessions) :
    CleanWrites r (sessionWrites sessions) := by
  intro key value hmem
  obtain ⟨rfl, rfl⟩ := Prod.mk.inj (List.mem_singleton.mp hmem)
  refine ⟨fun p hp => ?_, nofun⟩
  rw [blobSessions_sessionsBlob] at hp
  obtain ⟨i, hactive, rfl⟩ := mem_activeSessions.mp hp
  exact h i hactive

/-- More sessions are revoked than before. -/
lemma CleanFlash.sessions (h : CleanFlash r c) {S : Set Digest}
    (hstored : ∀ p ∈ storedSessions c, p.2 ∉ S) : CleanFlash { r with sessions := S } c where
  values key value hvalue := by
    cases key with
    | sessions =>
        rw [storedSessions, hvalue] at hstored
        exact hstored
    | webEn => trivial
    | apiEn => trivial
    | username => trivial
    | passHash => exact h.values _ _ hvalue
    | apiKey => exact h.values _ _ hvalue
    | haHash => exact h.values _ _ hvalue
  kept hsome := h.kept hsome

/-- The session list is saved while more sessions are revoked. -/
lemma CleanFlash.savedSessions {R : Rely NvsFault (NvsOp AuthKey)} (h : CleanFlash r c)
    {S : Set Digest} {sessions : Sessions} {ok : Bool}
    (hsaved : Saved R (sessionWrites sessions) ok c c')
    (hsaves : R.Saves .sessions ∨ ∀ p ∈ storedSessions c, p.2 ∉ S)
    (hclean : ∀ i, (sessions i).active → (sessions i).tokenHash ∉ S) :
    CleanFlash { r with sessions := S } c' := by
  have hwrites : CleanWrites { r with sessions := S } (sessionWrites sessions) :=
    cleanWrites_sessions hclean
  rcases hsaves with hsaves | hstored
  · have hnew : c' .sessions = some (sessionsBlob sessions) :=
      hsaved.saved _ _ (.inr hsaves) (List.mem_singleton_self _)
    refine ⟨fun key value hvalue => ?_, fun hsome => ?_⟩
    · rcases hsaved.partly key with hkey | ⟨value', hmem, hkey⟩
      · cases key with
        | sessions =>
            obtain rfl := Option.some.inj (hvalue.symm.trans hnew)
            exact (hwrites _ _ (List.mem_singleton_self _)).1
        | webEn => trivial
        | apiEn => trivial
        | username => trivial
        | passHash => exact h.values _ _ (hkey ▸ hvalue)
        | apiKey => exact h.values _ _ (hkey ▸ hvalue)
        | haHash => exact h.values _ _ (hkey ▸ hvalue)
      · obtain rfl := Option.some.inj (hvalue.symm.trans hkey)
        exact (hwrites _ _ hmem).1
    · rw [hsaved.partly.of_notMem fun value hmem => by cases (List.mem_singleton.mp hmem)]
      exact h.kept hsome
  · exact (h.sessions hstored).written hsaved.partly hwrites

/-- Less is revoked. -/
structure Revoked.Within (r r' : Revoked) : Prop where
  sessions : r.sessions ⊆ r'.sessions
  passwords : r.passwords ⊆ r'.passwords
  apiKeys : r.apiKeys ⊆ r'.apiKeys
  integrationTokens : r.integrationTokens ⊆ r'.integrationTokens

lemma Revoked.Within.refl (r : Revoked) : r.Within r := ⟨subset_rfl, subset_rfl, subset_rfl, subset_rfl⟩

lemma CleanValue.mono (hr : r.Within r') {key : AuthKey} {value : List UInt8}
    (h : CleanValue r' key value) : CleanValue r key value := by
  cases key with
  | sessions => exact fun p hp hmem => h p hp (hr.sessions hmem)
  | passHash => exact fun hmem => h (hr.passwords hmem)
  | apiKey => exact fun hmem => h (hr.apiKeys hmem)
  | haHash => exact fun hlen hmem => h hlen (hr.integrationTokens hmem)
  | webEn => trivial
  | apiEn => trivial
  | username => trivial

lemma CleanFlash.mono (hr : r.Within r') (h : CleanFlash r' c) : CleanFlash r c where
  values key value hvalue := (h.values key value hvalue).mono hr
  kept hsome := h.kept (hsome.mono hr.passwords)

lemma CleanRam.mono (hr : r.Within r') (h : CleanRam r' ram) : CleanRam r ram where
  sessions i hactive hmem := h.sessions i hactive (hr.sessions hmem)
  password hset hmem := h.password hset (hr.passwords hmem)
  apiKey hmem := h.apiKey (hr.apiKeys hmem)
  integration hset hmem := h.integration hset (hr.integrationTokens hmem)

/-- What is offered is the only thing that stops being revoked. -/
lemma Revoked.offer_within (sha : List UInt8 → Digest) (r : Revoked) (call : AuthCall) :
    (r.offer sha call).Within r := by
  cases call with
  | setCredentials username password =>
      rw [Revoked.offer]
      split
      · exact .refl r
      · exact ⟨subset_rfl, Set.sdiff_subset, subset_rfl, subset_rfl⟩
  | login username password token now => exact ⟨Set.sdiff_subset, subset_rfl, subset_rfl, subset_rfl⟩
  | validateSession token now now' => exact .refl r
  | logout token => exact .refl r
  | logoutAll => exact .refl r
  | regenerateApiKey apiKey => exact ⟨subset_rfl, subset_rfl, Set.sdiff_subset, subset_rfl⟩
  | issueIntegrationToken token => exact ⟨subset_rfl, subset_rfl, subset_rfl, Set.sdiff_subset⟩
  | revokeIntegrationToken => exact .refl r

end Clean

end ArcticController

/-
What every call of the authentication manager does, whatever NVS call fails: the new
state in RAM exactly, and which values may have reached the namespace.

* `findSession_eq_some`, `findSession_of_active`: what looking up a token finds;
* `wp_saveToNvs`, `wp_saveSessions`: the two saves from the calls;
* `wp_logoutAll`, `wp_logout`, `wp_login`, `wp_validateSession`: the sessions;
* `ChangedCredentials`, `wp_setCredentials`: the credentials;
* `wp_regenerateApiKey`, `wp_issueIntegrationToken`, `wp_revokeIntegrationToken`;
* `Booted`, `wp_authMgrInit`: the start.
-/
import ArcticController.Auth.AuthSaves

namespace ArcticController

/-- What a claim relies on at one site. -/
def Rely.atSite (R : Rely NvsFault AuthOp) (site : AuthSite) : Rely NvsFault (NvsOp AuthKey) :=
  R.comap fun op => (site, op)

/-- The session list as one value to write. -/
def sessionWrites (sessions : Sessions) : List (AuthKey × List UInt8) :=
  [(.sessions, sessionsBlob sessions)]

def endAll (sessions : Sessions) : Sessions := fun i => endSession (sessions i)

/-! ### Looking up a token -/

section Lookup

variable {hash : List UInt8 → Option Digest} {sessions : Sessions}

variable {i : Fin authMaxSessions}

/-- A session that was found is active and has the digest of the token. -/
lemma findSession_eq_some {token : Option (List UInt8)}
    (h : findSession hash sessions token = some i) :
    ∃ string digest, token = some string ∧ string.length = authSessionTokenLen ∧
      hash string = some digest ∧ (sessions i).active ∧ (sessions i).tokenHash = digest := by
  cases token with
  | none => cases h
  | some string =>
      rw [findSession] at h
      by_cases hlen : string.length ≠ authSessionTokenLen
      · rw [if_pos hlen] at h
        cases h
      · rw [if_neg hlen] at h
        cases hhash : hash string with
        | none =>
            rw [hhash] at h
            cases h
        | some digest =>
            rw [hhash] at h
            have hi := List.find?_some h
            rw [Bool.and_eq_true] at hi
            exact ⟨string, digest, rfl, not_not.mp hlen, hhash, hi.1, Digest.equal_iff.mp hi.2⟩

/-- A token whose digest is in the table is found. -/
lemma findSession_of_active {string : List UInt8} {digest : Digest}
    (hlen : string.length = authSessionTokenLen) (hhash : hash string = some digest)
    (hactive : (sessions i).active) (hdigest : (sessions i).tokenHash = digest) :
    (findSession hash sessions (some string)).isSome := by
  rw [findSession, if_neg (not_not_intro hlen), hhash]
  dsimp only
  rw [List.find?_isSome]
  refine ⟨i, by simp, ?_⟩
  rw [hactive, Bool.true_and]
  exact Digest.equal_iff.mpr hdigest

/-- The table without the session a token opened. -/
def loggedOut (hash : List UInt8 → Option Digest) (sessions : Sessions)
    (token : Option (List UInt8)) : Sessions :=
  match findSession hash sessions token with
  | none => sessions
  | some i => Function.update sessions i (endSession (sessions i))

/-- The sessions left by a logout were there before. -/
lemma active_of_loggedOut {token : Option (List UInt8)}
    (h : (loggedOut hash sessions token i).active) :
    (sessions i).active ∧
      (loggedOut hash sessions token i).tokenHash = (sessions i).tokenHash := by
  rw [loggedOut] at h ⊢
  cases hfound : findSession hash sessions token with
  | none =>
      rw [hfound] at h
      exact ⟨h, rfl⟩
  | some j =>
      rw [hfound] at h
      rcases eq_or_ne i j with rfl | hne
      · simp only [Function.update_self, endSession] at h
        cases h
      · simp only [Function.update_of_ne hne] at h ⊢
        exact ⟨h, trivial⟩

/-- A digest held by one slot is gone after the logout. -/
lemma not_active_of_loggedOut {string : List UInt8} {digest : Digest}
    (hlen : string.length = authSessionTokenLen) (hstring : hash string = some digest)
    (hunique : ∀ i j, (sessions i).active → (sessions i).tokenHash = digest →
      (sessions j).active → (sessions j).tokenHash = digest → i = j)
    (h : (loggedOut hash sessions (some string) i).active) :
    (loggedOut hash sessions (some string) i).tokenHash ≠ digest := by
  obtain ⟨hactive, htoken⟩ := active_of_loggedOut h
  rw [htoken]
  intro hdigest
  obtain ⟨j, hj⟩ := Option.isSome_iff_exists.mp (findSession_of_active hlen hstring hactive hdigest)
  obtain ⟨string', digest', hstring', -, hhash', hactive', hdigest'⟩ := findSession_eq_some hj
  cases hstring'
  obtain rfl := Option.some.inj (hstring.symm.trans hhash')
  obtain rfl := hunique i j hactive hdigest hactive' hdigest'
  rw [loggedOut, hj] at h
  simp only [Function.update_self, endSession] at h
  cases h

end Lookup

section Calls

variable {R : Rely NvsFault AuthOp} (hp : ∀ op, R.promise op)
  {hash : List UInt8 → Option Digest} (c : AuthContents) (ram : AuthState)

include hp

/-! ### The saves -/

lemma wp_saveToNvs (site : AuthSite) :
    wp R (saveToNvs site) (AuthLeaves (PartlyWritten (settingsWrites ram) c) fun ok c' ram' =>
      Saved (R.atSite site) (settingsWrites ram) ok c c' ∧ ram' = ram) (.ofContents c, ram) :=
  wp_getState_bind (wp_atSite (wp_saveSettings (fun _ => hp _) ram c))

lemma wp_saveSessions :
    wp R saveSessions (AuthLeaves (PartlyWritten (sessionWrites ram.sessions) c) fun _ c' ram' =>
      Saved (R.atSite .saveSessions) (sessionWrites ram.sessions) false c c' ∧ ram' = ram)
      (.ofContents c, ram) :=
  wp_getState_bind (wp_atSite (wp_saveSessionList (fun _ => hp _) ram.sessions c))

/-! ### The sessions -/

/-- The table changed and saved, and what comes after. -/
lemma wp_setSessions_save {α : Type} {k : Unit → AuthM α} {cut : AuthContents → Prop}
    {good : α → AuthContents → AuthState → Prop} (sessions : Sessions)
    (hk : ∀ c', Saved (R.atSite .saveSessions) (sessionWrites sessions) false c c' →
      wp R (k ()) (AuthLeaves cut good) (.ofContents c', { ram with sessions }))
    (hcut : ∀ c', PartlyWritten (sessionWrites sessions) c c' → cut c') :
    wp R (do setSessions sessions; saveSessions; k ()) (AuthLeaves cut good)
      (.ofContents c, ram) := by
  refine wp_setSessions_bind (wp_bind_leaves (wp_saveSessions hp c _) (fun _ c' ram' h => ?_) hcut)
  obtain ⟨hsaved, rfl⟩ := h
  exact hk c' hsaved

lemma wp_logoutAll :
    wp R logoutAll (AuthLeaves (PartlyWritten (sessionWrites (endAll ram.sessions)) c)
      fun _ c' ram' =>
        Saved (R.atSite .saveSessions) (sessionWrites (endAll ram.sessions)) false c c' ∧
          ram' = { ram with sessions := endAll ram.sessions }) (.ofContents c, ram) :=
  wp_getState_bind (wp_setSessions_bind (wp_saveSessions hp c _))

lemma wp_logout (token : Option (List UInt8)) :
    wp R (logout hash token)
      (AuthLeaves (PartlyWritten (sessionWrites (loggedOut hash ram.sessions token)) c)
        fun _ c' ram' => ram' = { ram with sessions := loggedOut hash ram.sessions token } ∧
          if (findSession hash ram.sessions token).isSome then
            Saved (R.atSite .saveSessions) (sessionWrites (loggedOut hash ram.sessions token)) false
              c c'
          else c' = c) (.ofContents c, ram) := by
  refine wp_getState_bind ?_
  cases h : findSession hash ram.sessions token with
  | none =>
      refine wp_pure_leaves ?_
      rw [loggedOut, h]
      exact ⟨rfl, rfl⟩
  | some i =>
      rw [loggedOut, h]
      refine wp_setSessions_bind (wp_leaves_mono (wp_saveSessions hp c _) ?_ fun _ h => h)
      exact fun _ _ _ h => ⟨h.2, h.1⟩

/-- The table after a validation. -/
def validated (hash : List UInt8 → Option Digest) (sessions : Sessions)
    (token : Option (List UInt8)) (now now' : Int64) : Sessions :=
  match findSession hash sessions token with
  | none => sessions
  | some i =>
      if isSessionExpired (sessions i) now then
        Function.update sessions i (endSession (sessions i))
      else
        Function.update sessions i { sessions i with lastUsed := now' }

/-- A token of a session that is not too old. -/
def sessionValid (hash : List UInt8 → Option Digest) (sessions : Sessions)
    (token : Option (List UInt8)) (now : Int64) : Bool :=
  match findSession hash sessions token with
  | none => false
  | some i => !isSessionExpired (sessions i) now

lemma wp_validateSession (token : Option (List UInt8)) (now now' : Int64) :
    wp R (validateSession hash token now now')
      (AuthLeaves (PartlyWritten (sessionWrites (validated hash ram.sessions token now now')) c)
        fun ok c' ram' => ok = sessionValid hash ram.sessions token now ∧
          ram' = { ram with sessions := validated hash ram.sessions token now now' } ∧
          if (findSession hash ram.sessions token).isSome ∧ ok = false then
            Saved (R.atSite .saveSessions)
              (sessionWrites (validated hash ram.sessions token now now')) false c c'
          else c' = c) (.ofContents c, ram) := by
  refine wp_getState_bind ?_
  rw [sessionValid, validated]
  cases h : findSession hash ram.sessions token with
  | none => exact wp_pure_leaves ⟨rfl, rfl, rfl⟩
  | some i =>
      dsimp only
      by_cases hexp : isSessionExpired (ram.sessions i) now
      · rw [if_pos hexp, if_pos hexp, hexp]
        refine wp_setSessions_save (k := fun _ => pure false) hp c ram _
          (fun c' hsaved => wp_pure_leaves ?_) fun _ h => h
        exact ⟨rfl, rfl, hsaved⟩
      · rw [if_neg hexp, if_neg hexp, Bool.eq_false_of_not_eq_true hexp]
        refine wp_setSessions_bind ?_
        exact wp_pure ⟨c, rfl, rfl, rfl, rfl⟩

/-- The table after a login. -/
def loggedIn (sessions : Sessions) (tokenHash : Digest) (now : Int64) : Sessions :=
  Function.update sessions (findFreeSession sessions) (newSession tokenHash now)

/-- A login succeeds with the right credentials and opens a session. -/
lemma wp_login (username password : Option (List UInt8)) (token : List UInt8) (now : Int64) :
    wp R (login hash username password token now)
      (AuthLeaves (fun c' => ∃ tokenHash, hash token = some tokenHash ∧
          PartlyWritten (sessionWrites (loggedIn ram.sessions tokenHash now)) c c')
        fun r c' ram' => (r = none ∧ c' = c ∧ ram' = ram) ∨ ∃ username' password' tokenHash,
          username = some username' ∧ password = some password' ∧
          loginAllowed hash ram username' password' ∧ hash token = some tokenHash ∧
          r = some token ∧ ram' = { ram with sessions := loggedIn ram.sessions tokenHash now } ∧
          Saved (R.atSite .saveSessions) (sessionWrites (loggedIn ram.sessions tokenHash now)) false
            c c') (.ofContents c, ram) := by
  refine wp_getState_bind ?_
  cases username with
  | none => exact wp_pure_leaves (.inl ⟨rfl, rfl, rfl⟩)
  | some username =>
      cases password with
      | none => exact wp_pure_leaves (.inl ⟨rfl, rfl, rfl⟩)
      | some password =>
          dsimp only
          by_cases hallowed : loginAllowed hash ram username password
          · rw [if_neg (not_not_intro hallowed)]
            cases htoken : hash token with
            | none => exact wp_pure_leaves (.inl ⟨rfl, rfl, rfl⟩)
            | some tokenHash =>
                dsimp only
                refine wp_setSessions_save (k := fun _ => pure (some token)) hp c ram _
                  (fun c' hsaved => wp_pure_leaves ?_) fun c' h => ⟨tokenHash, rfl, h⟩
                exact .inr ⟨username, password, tokenHash, rfl, rfl, hallowed, rfl, rfl, rfl, hsaved⟩
          · rw [if_pos hallowed]
            exact wp_pure_leaves (.inl ⟨rfl, rfl, rfl⟩)

/-! ### The credentials -/

/-- The state with new credentials in RAM, if any were given. -/
def changedCredentials (hash : List UInt8 → Option Digest) (username password : Option (List UInt8))
    (ram : AuthState) : AuthState :=
  match provided password with
  | none => withUsername username ram
  | some password =>
      { withUsername username ram with
        passwordHash := (hash password).getD .zero
        passwordSet := (hash password).isSome }

/-- Something to change was given. -/
def credentialsGiven (username password : Option (List UInt8)) : Bool :=
  (provided username).isSome || (provided password).isSome

/-- Nothing was given; or the credentials changed, were saved unless the new password
could not be hashed, and every session ended. -/
lemma wp_setCredentials (username password : Option (List UInt8)) :
    wp R (setCredentials hash username password)
      (AuthLeaves (PartlyWritten (settingsWrites (changedCredentials hash username password ram)
          ++ sessionWrites (endAll ram.sessions)) c)
        fun ok c' ram' =>
          if credentialsGiven username password then
            ram' = { changedCredentials hash username password ram with
              sessions := endAll ram.sessions } ∧
            ∃ c₁, Saved (R.atSite .saveSessions) (sessionWrites (endAll ram.sessions)) false c₁ c' ∧
              if ∀ password', provided password = some password' → (hash password').isSome then
                Saved (R.atSite .saveSettings)
                  (settingsWrites (changedCredentials hash username password ram)) ok c c₁
              else c₁ = c ∧ ok = false
          else ok = true ∧ c' = c ∧ ram' = ram) (.ofContents c, ram) := by
  have hsessions : (withUsername username ram).sessions = ram.sessions := by
    rw [withUsername]
    split <;> rfl
  -- saving the settings, then ending every session
  have hsave : ∀ ram₁ : AuthState, ram₁.sessions = ram.sessions →
      wp R (do setState ram₁; let saved ← saveToNvs .saveSettings; logoutAll; pure saved)
        (AuthLeaves (PartlyWritten (settingsWrites ram₁ ++ sessionWrites (endAll ram.sessions)) c)
          fun ok c' ram' => ram' = { ram₁ with sessions := endAll ram.sessions } ∧
            ∃ c₁, Saved (R.atSite .saveSessions) (sessionWrites (endAll ram.sessions)) false c₁ c' ∧
              Saved (R.atSite .saveSettings) (settingsWrites ram₁) ok c c₁) (.ofContents c, ram) := by
    intro ram₁ h₁
    refine wp_setState_bind (wp_bind_leaves (wp_saveToNvs hp c ram₁ .saveSettings) ?_ ?_)
    · intro ok c₁ ram₂ h₂
      obtain ⟨hok, hram⟩ := h₂
      rw [hram]
      refine wp_bind_leaves (wp_logoutAll hp c₁ ram₁) ?_ fun c' hc' => ?_
      · rintro _ c' _ ⟨hc', rfl⟩
        rw [h₁] at hc'
        refine wp_pure_leaves ?_
        rw [h₁]
        exact ⟨rfl, c₁, hc', hok⟩
      · rw [h₁] at hc'
        have h' : PartlyWritten (settingsWrites ram₁ ++ sessionWrites (endAll ram.sessions)) c c₁ :=
          hok.partly.trans (.refl _ _) (List.subset_append_left _ _)
        intro key
        rcases hc' key with hkey | ⟨value, hmem, hkey⟩
        · rw [hkey]
          exact h' key
        · exact .inr ⟨value, List.mem_append_right _ hmem, hkey⟩
    · exact fun c' h => h.trans (.refl _ _) (List.subset_append_left _ _)
  refine wp_getState_bind ?_
  rw [credentialsGiven, changedCredentials]
  cases hpassword : provided password with
  | none =>
      dsimp only
      by_cases husername : (provided username).isSome
      · rw [if_pos husername, husername]
        refine wp_leaves_mono (hsave _ hsessions) ?_ fun _ h => h
        rintro ok c' ram' ⟨hram, c₁, hc', hok⟩
        exact ⟨hram, c₁, hc', by simpa using hok⟩
      · rw [if_neg husername, Bool.eq_false_of_not_eq_true husername]
        exact wp_pure_leaves ⟨rfl, rfl, rfl⟩
  | some password =>
      dsimp only
      rw [Option.isSome_some, Bool.or_true]
      cases hhash : hash password with
      | none =>
          refine wp_setState_bind (wp_bind_leaves (wp_logoutAll hp c _) ?_ ?_)
          · rintro _ c' _ ⟨hc', rfl⟩
            refine wp_pure_leaves ?_
            dsimp only at hc' ⊢
            rw [hsessions] at hc' ⊢
            refine ⟨rfl, c, hc', ?_⟩
            simp [hhash]
          · intro c' h
            dsimp only at h
            rw [hsessions] at h
            exact (PartlyWritten.refl _ _).trans (h.trans (.refl _ _) (List.subset_append_right _ _))
              (List.Subset.refl _)
      | some passwordHash =>
          refine wp_leaves_mono (hsave _ (by exact hsessions)) ?_ fun _ h => h
          rintro ok c' ram' ⟨hram, c₁, hc', hok⟩
          refine ⟨hram, c₁, hc', ?_⟩
          rw [if_pos (by simp [hhash])]
          exact hok

/-! ### The API key and the integration token -/

lemma wp_regenerateApiKey (apiKey : List UInt8) :
    wp R (regenerateApiKey apiKey)
      (AuthLeaves (PartlyWritten (settingsWrites { ram with apiKey }) c) fun ok c' ram' =>
        ok = true ∧ ram' = { ram with apiKey } ∧ ∃ saved,
          Saved (R.atSite .regenerate) (settingsWrites { ram with apiKey }) saved c c')
      (.ofContents c, ram) := by
  refine wp_getState_bind (wp_setState_bind (wp_bind_leaves (wp_saveToNvs hp c _ _) ?_ fun _ h => h))
  rintro saved c' _ ⟨hsaved, rfl⟩
  exact wp_pure_leaves ⟨rfl, rfl, saved, hsaved⟩

lemma wp_issueIntegrationToken (token : List UInt8) :
    wp R (issueIntegrationToken hash token)
      (AuthLeaves (fun c' => ∃ tokenHash, hash token = some tokenHash ∧
          PartlyWritten [(.haHash, tokenHash.toList)] c c')
        fun r c' ram' => (r = none ∧ ram' = ram ∧ (c' = c ∨ ∃ tokenHash, hash token = some tokenHash ∧
            PartlyWritten [(.haHash, tokenHash.toList)] c c')) ∨
          ∃ tokenHash, hash token = some tokenHash ∧ r = some token ∧
            ram' = { ram with integration := ram.integration.issueSection tokenHash } ∧
            PartlyWritten [(.haHash, tokenHash.toList)] c c' ∧
            c' .haHash = some tokenHash.toList) (.ofContents c, ram) := by
  rw [issueIntegrationToken]
  cases htoken : hash token with
  | none => exact wp_pure_leaves (.inl ⟨rfl, rfl, .inl rfl⟩)
  | some tokenHash =>
      refine wp_bind_leaves (wp_atSite (wp_saveBlob (fun _ => hp _) _ _ c)) ?_
        fun c' h => ⟨tokenHash, rfl, h⟩
      rintro stored c' _ ⟨hstored, rfl⟩
      cases stored with
      | false => exact wp_pure_leaves (.inl ⟨rfl, rfl, .inr ⟨tokenHash, rfl, hstored.partly⟩⟩)
      | true =>
          refine wp_getState_bind (wp_setState_bind (wp_pure_leaves ?_))
          exact .inr ⟨tokenHash, rfl, rfl, rfl, hstored.partly,
            hstored.saved _ _ (.inl rfl) (List.mem_singleton_self _)⟩

lemma wp_revokeIntegrationToken
    (hfound : ∀ reached,
      ¬ R.allowed (.integration, .eraseKey .haHash) (.error nvsNotFound reached)) :
    wp R revokeIntegrationToken
      (AuthLeaves (fun c' => c' = c ∨ c' = Function.update c .haHash none)
        fun ok c' ram' => (c' = c ∨ c' = Function.update c .haHash none) ∧
          if ok then
            c' = Function.update c .haHash none ∧
              ram' = { ram with integration := ram.integration.revokeSection }
          else ram' = ram) (.ofContents c, ram) := by
  refine wp_bind_leaves (wp_atSite (wp_eraseIntegrationHash (fun _ => hp _) hfound c)) ?_
    fun _ h => h
  rintro erased c' _ ⟨⟨hor, herased⟩, rfl⟩
  cases erased with
  | false => exact wp_pure_leaves ⟨hor, rfl⟩
  | true =>
      exact wp_getState_bind (wp_setState_bind (wp_pure_leaves ⟨hor, herased rfl, rfl⟩))

/-! ### The start -/

omit hp

/-- The state that starting finds or makes up. -/
inductive FoundState (R : Rely NvsFault AuthOp) (hash : List UInt8 → Option Digest)
    (c : AuthContents) : AuthState → Prop where
  | factory {loaded : Option AuthState} (hloaded : LoadedFrom (R.atSite .load) c loaded)
      (hneeds : needsFactory loaded) : FoundState R hash c (factoryState hash (loaded.getD {}))
  | saved {ram : AuthState} (hloaded : LoadedFrom (R.atSite .load) c (some ram))
      (hneeds : ¬ needsFactory (some ram)) {sessions : Sessions}
      (hsessions : sessions = restoreSessions ram.sessions (storedSessions c) ∨
        sessions = ram.sessions ∧
          ¬ ((R.atSite .loadSessions).Opens ∧ (R.atSite .loadSessions).Reads .sessions)) :
      FoundState R hash c { ram with sessions }

def enabledState (ram : AuthState) : AuthState :=
  { ram with webAuthEnabled := true, apiAuthEnabled := true }

/-- The state once started. -/
def startedState (apiKey : List UInt8) (ram : AuthState) : AuthState :=
  { enabledState ram with apiKey := if ram.apiKey = [] then apiKey else ram.apiKey }

/-- What starting may write: the flags also as they were found. -/
def startWrites (ram : AuthState) : List (AuthKey × List UInt8) :=
  settingsWrites ram ++ [(.webEn, enabledByte false), (.webEn, enabledByte true),
    (.apiEn, enabledByte false), (.apiEn, enabledByte true)]

lemma mem_settingsWrites {ram : AuthState} {key : AuthKey} {value : List UInt8} :
    (key, value) ∈ settingsWrites ram ↔
      (key = .webEn ∧ value = enabledByte ram.webAuthEnabled) ∨
      (key = .apiEn ∧ value = enabledByte ram.apiAuthEnabled) ∨
      (key = .username ∧ ram.username ≠ [] ∧ value = ram.username) ∨
      (key = .passHash ∧ ram.passwordSet = true ∧ value = ram.passwordHash.toList) ∨
      (key = .apiKey ∧ ram.apiKey ≠ [] ∧ value = ram.apiKey) := by
  rw [settingsWrites]
  by_cases husername : ram.username = [] <;> by_cases hset : ram.passwordSet <;>
    by_cases hapi : ram.apiKey = [] <;> simp [husername, hset, hapi]

/-- The settings of a state with the same credentials, the flags and the key apart. -/
lemma settingsWrites_subset {ram ram' : AuthState} (husername : ram'.username = ram.username)
    (hset : ram'.passwordSet = ram.passwordSet) (hhash : ram'.passwordHash = ram.passwordHash)
    (hkey : ram.apiKey ≠ [] → ram'.apiKey = ram.apiKey) : settingsWrites ram ⊆ startWrites ram' := by
  rintro ⟨key, value⟩ hmem
  refine List.mem_append.mpr ?_
  rcases mem_settingsWrites.mp hmem with ⟨rfl, rfl⟩ | ⟨rfl, rfl⟩ | h | h | ⟨rfl, hne, rfl⟩
  · exact .inr (by cases ram.webAuthEnabled <;> simp)
  · exact .inr (by cases ram.apiAuthEnabled <;> simp)
  · exact .inl (mem_settingsWrites.mpr (.inr (.inr (.inl (by rwa [husername])))))
  · exact .inl (mem_settingsWrites.mpr (.inr (.inr (.inr (.inl (by rwa [hset, hhash]))))))
  · refine .inl (mem_settingsWrites.mpr (.inr (.inr (.inr (.inr ?_)))))
    rw [hkey hne]
    exact ⟨rfl, hne, rfl⟩

include hp

variable {writes : List (AuthKey × List UInt8)} {c₀ : AuthContents}

/-- A state put into RAM and saved. -/
lemma wp_setState_save (ram' : AuthState) (hsub : settingsWrites ram' ⊆ writes)
    (hc : PartlyWritten writes c₀ c) :
    wp R (do setState ram'; let _ ← saveToNvs .saveSettings; pure ())
      (AuthLeaves (PartlyWritten writes c₀) fun _ c' ram'' => ram'' = ram' ∧
        PartlyWritten writes c₀ c' ∧ ∃ ok,
          Saved (R.atSite .saveSettings) (settingsWrites ram') ok c c') (.ofContents c, ram) := by
  have htrans : ∀ c', PartlyWritten (settingsWrites ram') c c' → PartlyWritten writes c₀ c' :=
    fun c' h => hc.trans (h.trans (.refl _ _) hsub) (List.Subset.refl _)
  refine wp_setState_bind (wp_bind_leaves (wp_saveToNvs hp c ram' _) ?_ htrans)
  rintro ok c' _ ⟨hok, rfl⟩
  exact wp_pure_leaves ⟨rfl, htrans c' hok.partly, ok, hok⟩

/-- What was found and, with the factory credentials, what was saved of them. -/
lemma wp_loadOrDefaults (apiKey : List UInt8) :
    wp R (loadOrDefaults hash)
      (AuthLeaves (fun c' => c' = c ∨ ∃ found, FoundState R hash c found ∧
          PartlyWritten (startWrites (startedState apiKey found)) c c')
        fun _ c' ram' => FoundState R hash c ram' ∧ ((c' = c ∧ ∃ saved,
            LoadedFrom (R.atSite .load) c (some saved) ∧ ¬ needsFactory (some saved)) ∨
          (ram'.username = authFactoryUsername ∧ ∃ ok,
            Saved (R.atSite .saveSettings) (settingsWrites ram') ok c c'))) (.ofContents c, ram) := by
  refine wp_bind_leaves (wp_atSite (wp_loadFromNvs (fun _ => hp _) c)) ?_ fun _ h => .inl h
  rintro loaded _ ram ⟨⟨rfl, hloaded⟩, hram⟩
  by_cases hneeds : needsFactory loaded
  · rw [if_pos hneeds]
    have hsub : settingsWrites (factoryState hash (loaded.getD {})) ⊆
        startWrites (startedState apiKey (factoryState hash (loaded.getD {}))) :=
      settingsWrites_subset rfl rfl rfl fun h => if_neg h
    refine wp_leaves_mono (wp_setState_save hp _ ram _ hsub (.refl _ _)) ?_
      fun _ h => .inr ⟨_, .factory hloaded hneeds, h⟩
    rintro _ c' _ ⟨rfl, -, hok⟩
    exact ⟨.factory hloaded hneeds, .inr ⟨rfl, hok⟩⟩
  · rw [if_neg hneeds]
    cases loaded with
    | none => exact absurd rfl hneeds
    | some saved =>
        refine wp_bind_leaves (wp_atSite (wp_loadSessions (fun _ => hp _) _ _)) ?_ fun _ h => .inl h
        rintro sessions _ ram' ⟨⟨rfl, hsessions⟩, -⟩
        refine wp_modify ?_
        exact ⟨_, rfl, .saved hloaded hneeds hsessions, .inl ⟨rfl, saved, hloaded, hneeds⟩⟩

lemma wp_forceAuthEnabled (hsub : settingsWrites (enabledState ram) ⊆ writes)
    (hc : PartlyWritten writes c₀ c) :
    wp R forceAuthEnabled (AuthLeaves (PartlyWritten writes c₀) fun _ c' ram' =>
      ram' = enabledState ram ∧ PartlyWritten writes c₀ c' ∧
        PartlyWritten (settingsWrites (enabledState ram)) c c') (.ofContents c, ram) := by
  refine wp_getState_bind ?_
  by_cases hoff : ¬ ram.webAuthEnabled ∨ ¬ ram.apiAuthEnabled
  · rw [if_pos hoff]
    refine wp_leaves_mono (wp_setState_save hp c ram _ hsub hc) ?_ fun _ h => h
    rintro _ c' _ ⟨rfl, hpart, ok, hok⟩
    exact ⟨rfl, hpart, hok.partly⟩
  · rw [if_neg hoff]
    refine wp_pure_leaves ⟨?_, hc, .refl _ _⟩
    obtain ⟨hweb, hapi⟩ := not_or.mp hoff
    cases ram
    simp only [not_not] at hweb hapi
    rw [enabledState, hweb, hapi]

lemma wp_ensureApiKey (apiKey : List UInt8)
    (hsub : settingsWrites (startedState apiKey ram) ⊆ writes) (hram : enabledState ram = ram)
    (hc : PartlyWritten writes c₀ c) :
    wp R (ensureApiKey apiKey) (AuthLeaves (PartlyWritten writes c₀) fun _ c' ram' =>
      ram' = startedState apiKey ram ∧ PartlyWritten writes c₀ c' ∧
        PartlyWritten (settingsWrites (startedState apiKey ram)) c c') (.ofContents c, ram) := by
  refine wp_getState_bind ?_
  rw [startedState, hram] at hsub ⊢
  by_cases hkey : ram.apiKey = []
  · rw [if_pos hkey]
    rw [if_pos hkey] at hsub ⊢
    refine wp_leaves_mono (wp_setState_save hp c ram _ hsub hc) ?_ fun _ h => h
    rintro _ c' _ ⟨rfl, hpart, ok, hok⟩
    exact ⟨rfl, hpart, hok.partly⟩
  · rw [if_neg hkey, if_neg hkey]
    exact wp_pure_leaves ⟨rfl, hc, .refl _ _⟩

/-- The start: what was found with the flags on and with an API key. The factory
credentials are taken only where no others were found, and then they are saved. -/
lemma wp_authMgrInit (apiKey : List UInt8) :
    wp R (authMgrInit hash apiKey)
      (AuthLeaves (fun c' => c' = c ∨ ∃ found, FoundState R hash c found ∧
          PartlyWritten (startWrites (startedState apiKey found)) c c')
        fun _ c' ram' => ∃ found, FoundState R hash c found ∧ ram' = startedState apiKey found ∧
          PartlyWritten (startWrites ram') c c' ∧
          ((∃ saved, LoadedFrom (R.atSite .load) c (some saved) ∧ ¬ needsFactory (some saved)) ∨
            ((R.atSite .saveSettings).Saves .username → c' .username = some authFactoryUsername)))
      (.ofContents c, ram) := by
  refine wp_bind_leaves (wp_loadOrDefaults hp c ram apiKey) ?_ fun _ h => h
  rintro _ c₁ found ⟨hfound, hbranch⟩
  have hsub₁ : settingsWrites found ⊆ startWrites (startedState apiKey found) :=
    settingsWrites_subset rfl rfl rfl fun h => if_neg h
  have hsub₂ : settingsWrites (enabledState found) ⊆ startWrites (startedState apiKey found) :=
    settingsWrites_subset rfl rfl rfl fun h => if_neg h
  have hsub₃ : settingsWrites (startedState apiKey (enabledState found)) ⊆
      startWrites (startedState apiKey found) := List.subset_append_left _ _
  have hpart₁ : PartlyWritten (startWrites (startedState apiKey found)) c c₁ := by
    rcases hbranch with ⟨rfl, -⟩ | ⟨-, ok, hok⟩
    · exact .refl _ _
    · exact hok.partly.trans (.refl _ _) hsub₁
  refine wp_bind_leaves (wp_forceAuthEnabled hp c₁ found hsub₂ hpart₁) ?_
    fun c' h => .inr ⟨found, hfound, h⟩
  rintro _ c₂ _ ⟨rfl, hpart₂, h₂⟩
  refine wp_leaves_mono (wp_ensureApiKey hp c₂ _ apiKey hsub₃ rfl hpart₂) ?_
    fun c' h => .inr ⟨found, hfound, h⟩
  rintro _ c' _ ⟨rfl, hpart₃, h₃⟩
  refine ⟨found, hfound, rfl, hpart₃, hbranch.imp (·.2) ?_⟩
  -- the user name saved at first is not written again with another value
  rintro ⟨husername, ok, hok⟩ hsaves
  have hkeep : ∀ {ram : AuthState} {d d' : AuthContents}, ram.username = authFactoryUsername →
      PartlyWritten (settingsWrites ram) d d' → d .username = some authFactoryUsername →
      d' .username = some authFactoryUsername := by
    intro ram d d' hram hd h
    rcases hd .username with hkey | ⟨value, hmem, hkey⟩
    · exact hkey.trans h
    · rcases mem_settingsWrites.mp hmem with ⟨h, -⟩ | ⟨h, -⟩ | ⟨-, -, rfl⟩ | ⟨h, -⟩ | ⟨h, -⟩
      · cases h
      · cases h
      · rw [hkey, hram]
      · cases h
      · cases h
  have h₁ : c₁ .username = some authFactoryUsername := by
    refine hok.saved _ _ (.inr hsaves) (mem_settingsWrites.mpr (.inr (.inr (.inl ⟨rfl, ?_, ?_⟩))))
    · rw [husername]
      decide
    · rw [husername]
  refine hkeep ?_ h₃ (hkeep ?_ h₂ h₁)
  · exact husername
  · exact husername

end Calls

end ArcticController

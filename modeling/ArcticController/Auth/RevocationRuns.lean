/-
A revoked credential does not come back, as long as the steps are sound.

* `clean_logout` … `clean_revokeIntegrationToken`: each call keeps both copies clean of
  what is revoked, also of what it revokes itself;
* `clean_start`: so does a start;
* `revoked_stays_revoked`: in every run of sound steps no revoked credential is
  accepted;
* `regenerated_key_comes_back`, `logged_out_session_comes_back`: what a failed save
  does.
-/
import ArcticController.Auth.Revocation

namespace ArcticController

/-! ### The sessions -/

section Calls

variable {sha : List UInt8 → Digest} {hash : List UInt8 → Option Digest} {r : Revoked}
  {c : AuthContents} {ram : AuthState}

lemma CleanRam.withSessions {S : Set Digest} {sessions : Sessions} (h : CleanRam r ram)
    (hsessions : ∀ i, (sessions i).active → (sessions i).tokenHash ∉ S) :
    CleanRam { r with sessions := S } { ram with sessions } where
  sessions := hsessions
  password := h.password
  apiKey := h.apiKey
  integration := h.integration

variable {token apiKey : List UInt8} {ops : AuthOps} {R : Rely NvsFault AuthOp}
   {username password : Option (List UInt8)}

/-- A logout of a token. -/
lemma clean_logout (hhash : Digests sha hash) (hlen : token.length = authSessionTokenLen)
    (hflash : CleanFlash r c) (hram : CleanRam r ram)
    (htable : InTable ram (sha token) → (hash token).isSome ∧ ∀ i j,
      (ram.sessions i).active → (ram.sessions i).tokenHash = sha token →
      (ram.sessions j).active → (ram.sessions j).tokenHash = sha token → i = j)
    (hstored : InFlash c (sha token) →
      InTable ram (sha token) ∧ (savesAt .saveSessions .sessions).Covers ops) :
    ∃ R : Rely NvsFault AuthOp, R.Covers ops ∧
      wp R (logout hash (some token)) (AuthLeaves (CleanFlash r) fun _ c' ram' =>
        CleanFlash { r with sessions := r.sessions ∪ {sha token} } c' ∧
          CleanRam { r with sessions := r.sessions ∪ {sha token} } ram') (.ofContents c, ram) := by
  -- the table afterwards holds no revoked digest, and not this one
  have hclean : ∀ i, (loggedOut hash ram.sessions (some token) i).active →
      (loggedOut hash ram.sessions (some token) i).tokenHash ∉ r.sessions ∪ {sha token} := by
    intro i hactive
    obtain ⟨hactive', htoken⟩ := active_of_loggedOut hactive
    rintro (hmem | hmem)
    · rw [htoken] at hmem
      exact hram.sessions i hactive' hmem
    · obtain ⟨hsome, hunique⟩ := htable ⟨i, hactive', htoken ▸ hmem⟩
      obtain ⟨digest, hdigest⟩ := Option.isSome_iff_exists.mp hsome
      obtain rfl := hhash _ _ hdigest
      exact not_active_of_loggedOut hlen hdigest hunique hactive hmem
  have hcut : ∀ c', PartlyWritten (sessionWrites (loggedOut hash ram.sessions (some token))) c c' →
      CleanFlash r c' := fun c' hpart => hflash.written hpart (cleanWrites_sessions fun i hactive hmem =>
    hclean i hactive (.inl hmem))
  have hnone : ¬ InFlash c (sha token) →
      ∀ p ∈ storedSessions c, p.2 ∉ r.sessions ∪ {sha token} := by
    rintro hnot p hp (hmem | hmem)
    · cases hkey : c .sessions with
      | none => simp [storedSessions, hkey] at hp
      | some blob =>
          simp only [storedSessions, hkey, Option.map_some, Option.getD_some] at hp
          exact hflash.values _ _ hkey p hp hmem
    · exact hnot (List.mem_map.mpr ⟨p, hp, hmem⟩)
  by_cases hin : InFlash c (sha token)
  · obtain ⟨⟨i, hactive, hdigest⟩, hcovers⟩ := hstored hin
    refine ⟨_, hcovers, wp_leaves_mono (wp_logout (fun _ => trivial) c ram _) ?_ hcut⟩
    rintro _ c' _ ⟨rfl, hsaved⟩
    obtain ⟨digest, htoken⟩ := Option.isSome_iff_exists.mp (htable ⟨i, hactive, hdigest⟩).1
    obtain rfl := hhash _ _ htoken
    rw [if_pos (findSession_of_active hlen htoken hactive hdigest)] at hsaved
    exact ⟨hflash.savedSessions hsaved (.inl (savesAt_saves _ _)) hclean, hram.withSessions hclean⟩
  · refine ⟨anyAuthFaults, fun _ _ => trivial,
      wp_leaves_mono (wp_logout (fun _ => trivial) c ram _) ?_ hcut⟩
    rintro _ c' _ ⟨rfl, hsaved⟩
    refine ⟨?_, hram.withSessions hclean⟩
    split at hsaved
    · exact hflash.savedSessions hsaved (.inr (hnone hin)) hclean
    · rw [hsaved]
      exact hflash.sessions (hnone hin)

/-- A logout of something that is no token changes nothing. -/
lemma clean_logout_other (hp : ∀ op, R.promise op) {token : Option (List UInt8)}
    (hother : ∀ string, token = some string → string.length ≠ authSessionTokenLen)
    (hflash : CleanFlash r c) (hram : CleanRam r ram) :
    wp R (logout hash token) (AuthLeaves (CleanFlash r) fun _ c' ram' =>
      CleanFlash r c' ∧ CleanRam r ram') (.ofContents c, ram) := by
  have hnone : findSession hash ram.sessions token = none := by
    cases hfound : findSession hash ram.sessions token with
    | none => rfl
    | some i =>
        obtain ⟨string, -, hstring, hlen, -⟩ := findSession_eq_some hfound
        exact absurd hlen (hother string hstring)
  have htable : loggedOut hash ram.sessions token = ram.sessions := by rw [loggedOut, hnone]
  refine wp_leaves_mono (wp_logout hp c ram token) ?_ fun c' hpart => ?_
  · rintro _ c' _ ⟨rfl, hsame⟩
    rw [hnone, if_neg (by exact Bool.false_ne_true)] at hsame
    rw [htable, hsame]
    exact ⟨hflash, hram⟩
  · rw [htable] at hpart
    exact hflash.written hpart (cleanWrites_sessions hram.sessions)

/-- A logout of every session. -/
lemma clean_logoutAll (hp : ∀ op, R.promise op) (hflash : CleanFlash r c) (hram : CleanRam r ram)
    (hsaves : (R.atSite .saveSessions).Saves .sessions ∨ storedSessions c = []) :
    wp R logoutAll (AuthLeaves (CleanFlash r) fun _ c' ram' =>
      CleanFlash { r with sessions := Set.univ } c' ∧
        CleanRam { r with sessions := Set.univ } ram') (.ofContents c, ram) := by
  refine wp_leaves_mono (wp_logoutAll hp c ram) ?_ fun c' hpart =>
    hflash.written hpart (cleanWrites_sessions nofun)
  rintro _ c' _ ⟨hsaved, rfl⟩
  refine ⟨hflash.savedSessions hsaved (hsaves.imp_right fun h => ?_) nofun, hram.withSessions nofun⟩
  rw [h]
  exact fun _ hp => absurd hp List.not_mem_nil

/-- A validation: no session appears. -/
lemma clean_validateSession (hp : ∀ op, R.promise op) {token : Option (List UInt8)}
    {now now' : Int64} (hflash : CleanFlash r c) (hram : CleanRam r ram) :
    wp R (validateSession hash token now now') (AuthLeaves (CleanFlash r) fun _ c' ram' =>
      CleanFlash r c' ∧ CleanRam r ram') (.ofContents c, ram) := by
  have hclean : ∀ i, (validated hash ram.sessions token now now' i).active →
      (validated hash ram.sessions token now now' i).tokenHash ∉ r.sessions := by
    intro i hactive
    rw [validated] at hactive ⊢
    cases hfound : findSession hash ram.sessions token with
    | none =>
        rw [hfound] at hactive
        exact hram.sessions i hactive
    | some j =>
        rw [hfound] at hactive
        dsimp only at hactive ⊢
        rcases eq_or_ne i j with rfl | hne
        · by_cases hexp : isSessionExpired (ram.sessions i) now
          · rw [if_pos hexp, Function.update_self] at hactive
            cases hactive
          · rw [if_neg hexp, Function.update_self] at hactive ⊢
            exact hram.sessions i hactive
        · split at hactive
          · rw [Function.update_of_ne hne] at hactive
            rw [if_pos ‹_›, Function.update_of_ne hne]
            exact hram.sessions i hactive
          · rw [Function.update_of_ne hne] at hactive
            rw [if_neg ‹_›, Function.update_of_ne hne]
            exact hram.sessions i hactive
  have hcut : ∀ c', PartlyWritten (sessionWrites (validated hash ram.sessions token now now')) c c' →
      CleanFlash r c' := fun c' hpart => hflash.written hpart (cleanWrites_sessions hclean)
  refine wp_leaves_mono (wp_validateSession hp c ram token now now') ?_ hcut
  rintro ok c' _ ⟨-, rfl, hsaved⟩
  refine ⟨?_, hram.withSessions hclean⟩
  split at hsaved
  · exact hcut c' hsaved.partly
  · rwa [hsaved]

/-- A login: the new session is not a revoked one. -/
lemma clean_login (hp : ∀ op, R.promise op) (hhash : Digests sha hash) {now : Int64}
    (htoken : sha token ∉ r.sessions) (hflash : CleanFlash r c) (hram : CleanRam r ram) :
    wp R (login hash username password token now) (AuthLeaves (CleanFlash r) fun _ c' ram' =>
      CleanFlash r c' ∧ CleanRam r ram') (.ofContents c, ram) := by
  have hclean : ∀ digest, hash token = some digest → ∀ i,
      (loggedIn ram.sessions digest now i).active →
      (loggedIn ram.sessions digest now i).tokenHash ∉ r.sessions := by
    intro digest hdigest i hactive
    rw [loggedIn] at hactive ⊢
    rcases eq_or_ne i (findFreeSession ram.sessions) with rfl | hne
    · rw [Function.update_self, newSession, hhash _ _ hdigest]
      exact htoken
    · rw [Function.update_of_ne hne] at hactive ⊢
      exact hram.sessions i hactive
  refine wp_leaves_mono (wp_login hp c ram username password token now) ?_ ?_
  · rintro _ c' _ (⟨-, rfl, rfl⟩ | ⟨-, -, digest, -, -, -, hdigest, -, rfl, hsaved⟩)
    · exact ⟨hflash, hram⟩
    · exact ⟨hflash.written hsaved.partly (cleanWrites_sessions (hclean digest hdigest)),
        hram.withSessions (hclean digest hdigest)⟩
  · rintro c' ⟨digest, hdigest, hpart⟩
    exact hflash.written hpart (cleanWrites_sessions (hclean digest hdigest))

/-! ### The credentials -/

/-- The stored password is the only one that is not revoked. -/
lemma CleanFlash.passwords (h : CleanFlash r c) {P : Set Digest} {digest : Digest}
    (hstored : c .passHash = some digest.toList) (hdigest : digest ∉ P) :
    CleanFlash { r with passwords := P } c where
  values key value hvalue := by
    cases key with
    | passHash =>
        obtain rfl := Option.some.inj (hstored.symm.trans hvalue)
        rw [CleanValue, Digest.ofBytes_toList]
        exact hdigest
    | webEn => trivial
    | apiEn => trivial
    | username => trivial
    | sessions => exact h.values _ _ hvalue
    | apiKey => exact h.values _ _ hvalue
    | haHash => exact h.values _ _ hvalue
  kept _ := ⟨_, hstored, Vector.length_toList.le⟩

/-- Saving settings leaves the session list alone. -/
lemma storedSessions_of_settings {c' : AuthContents} (h : PartlyWritten (settingsWrites ram) c c') :
    storedSessions c' = storedSessions c := by
  have hkey : c' .sessions = c .sessions := h.of_notMem fun value hmem => by
    rcases mem_settingsWrites.mp hmem with ⟨h, -⟩ | ⟨h, -⟩ | ⟨h, -⟩ | ⟨h, -⟩ | ⟨h, -⟩ <;> cases h
  rw [storedSessions, storedSessions, hkey]

lemma withUsername_fields (username : Option (List UInt8)) :
    (withUsername username ram).passwordSet = ram.passwordSet ∧
      (withUsername username ram).passwordHash = ram.passwordHash ∧
      (withUsername username ram).apiKey = ram.apiKey ∧
      (withUsername username ram).integration = ram.integration := by
  rw [withUsername]
  split
  · exact ⟨rfl, rfl, rfl, rfl⟩
  · exact ⟨rfl, rfl, rfl, rfl⟩

/-- A change touches neither the API key nor the integration token. -/
lemma changedCredentials_fields (username password : Option (List UInt8)) :
    (changedCredentials hash username password ram).apiKey = ram.apiKey ∧
      (changedCredentials hash username password ram).integration = ram.integration := by
  obtain ⟨-, -, hkey, hint⟩ := @withUsername_fields ram username
  rw [changedCredentials]
  split
  · exact ⟨hkey, hint⟩
  · exact ⟨hkey, hint⟩

/-- The password after a change is the old one or the new. -/
lemma changedCredentials_password (hhash : Digests sha hash)
    (hset : (changedCredentials hash username password ram).passwordSet) :
    (provided password = none ∧ ram.passwordSet ∧
      (changedCredentials hash username password ram).passwordHash = ram.passwordHash) ∨
    ∃ password', provided password = some password' ∧ (hash password').isSome ∧
      (changedCredentials hash username password ram).passwordHash = sha password' := by
  obtain ⟨hsame, hdigest, -, -⟩ := @withUsername_fields ram username
  rw [changedCredentials] at hset ⊢
  cases hprovided : provided password with
  | none =>
      rw [hprovided] at hset
      exact .inl ⟨rfl, hsame ▸ hset, hdigest⟩
  | some password' =>
      rw [hprovided] at hset
      obtain ⟨digest, hd⟩ := Option.isSome_iff_exists.mp hset
      refine .inr ⟨password', rfl, hset, ?_⟩
      dsimp only
      rw [hd, Option.getD_some, hhash _ _ hd]

/-- A change of the credentials. -/
lemma clean_setCredentials (hp : ∀ op, R.promise op) (hhash : Digests sha hash)
    (hpassword : ∀ password', provided password = some password' → sha password' ∉ r.passwords)
    (hflash : CleanFlash r c) (hram : CleanRam r ram)
    (hsaves : credentialsGiven username password →
      (R.atSite .saveSessions).Saves .sessions ∨ storedSessions c = []) :
    wp R (setCredentials hash username password) (AuthLeaves (CleanFlash r) fun ok c' ram' =>
      CleanFlash (r.finish sha ok (.setCredentials username password)) c' ∧
        CleanRam (r.finish sha ok (.setCredentials username password)) ram')
      (.ofContents c, ram) := by
  obtain ⟨hkey, hintegration⟩ := @changedCredentials_fields hash ram username password
  have hnew : (changedCredentials hash username password ram).passwordSet →
      (changedCredentials hash username password ram).passwordHash ∉ r.passwords := by
    intro hset
    rcases changedCredentials_password hhash hset with ⟨-, hset, heq⟩ | ⟨password', hp', -, heq⟩
    · rw [heq]
      exact hram.password hset
    · rw [heq]
      exact hpassword password' hp'
  have hsettings : CleanWrites r (settingsWrites (changedCredentials hash username password ram)) :=
    CleanRam.settings hnew (by rw [hkey]; exact hram.apiKey)
  refine wp_leaves_mono (wp_setCredentials hp c ram username password) ?_ fun c' hpart =>
    hflash.written hpart (hsettings.append (cleanWrites_sessions (by rintro _ ⟨⟩)))
  intro ok c' ram' h
  rw [Revoked.finish]
  by_cases hgiven : credentialsGiven username password
  · rw [if_pos hgiven] at h ⊢
    obtain ⟨rfl, c₁, hsessions, hsaved⟩ := h
    -- what the settings leave, with the old password revoked if the call succeeded
    have h₁ : CleanFlash (r.replacePassword sha password ok) c₁ ∧
        storedSessions c₁ = storedSessions c ∧
        ((changedCredentials hash username password ram).passwordSet →
          (changedCredentials hash username password ram).passwordHash ∉
            (r.replacePassword sha password ok).passwords) := by
      rw [Revoked.replacePassword]
      cases hprovided : provided password with
      | none =>
          rw [if_pos (by simp [hprovided])] at hsaved
          exact ⟨hflash.written hsaved.partly hsettings, storedSessions_of_settings hsaved.partly, hnew⟩
      | some password' =>
          by_cases hhashed : (hash password').isSome
          · rw [if_pos (by simpa [hprovided] using hhashed)] at hsaved
            have hwritten := hflash.written hsaved.partly hsettings
            have hstored := storedSessions_of_settings hsaved.partly
            obtain ⟨digest, hdigest⟩ := Option.isSome_iff_exists.mp hhashed
            cases ok with
            | false => exact ⟨hwritten, hstored, hnew⟩
            | true =>
                have hpass : changedCredentials hash username password ram =
                    { withUsername username ram with
                      passwordHash := digest
                      passwordSet := true } := by
                  rw [changedCredentials, hprovided]
                  dsimp only
                  rw [hdigest, Option.getD_some, Option.isSome_some]
                have hflash' : c₁ .passHash = some digest.toList := by
                  refine hsaved.saved _ _ (.inl rfl) (mem_settingsWrites.mpr ?_)
                  rw [hpass]
                  exact .inr (.inr (.inr (.inl ⟨rfl, rfl, rfl⟩)))
                have hnot : digest ∉ ({sha password'}ᶜ : Set Digest) :=
                  not_not_intro (hhash _ _ hdigest)
                refine ⟨hwritten.passwords hflash' hnot, hstored, fun _ => ?_⟩
                rw [hpass]
                exact hnot
          · rw [if_neg (by simpa [hprovided] using hhashed)] at hsaved
            obtain ⟨rfl, rfl⟩ := hsaved
            exact ⟨hflash, rfl, hnew⟩
    obtain ⟨hflash₁, hstored, hnew₁⟩ := h₁
    refine ⟨hflash₁.savedSessions hsessions ((hsaves hgiven).imp_right fun h => ?_) (by rintro _ ⟨⟩), ?_⟩
    · rw [hstored, h]
      exact fun _ hp => absurd hp List.not_mem_nil
    · refine ⟨by rintro _ ⟨⟩, hnew₁, ?_, ?_⟩
      · dsimp only
        rw [hkey, Revoked.replacePassword]
        split
        · exact hram.apiKey
        · split <;> exact hram.apiKey
      · dsimp only
        rw [hintegration, Revoked.replacePassword]
        split
        · exact hram.integration
        · split <;> exact hram.integration
  · rw [if_neg hgiven] at h ⊢
    obtain ⟨-, rfl, rfl⟩ := h
    exact ⟨hflash, hram⟩

/-! ### The API key and the integration token -/

/-- A new API key. -/
lemma clean_regenerateApiKey (hp : ∀ op, R.promise op) (hlen : apiKey.length = authApiKeyLen)
    (hkey : apiKey ∉ r.apiKeys) (hflash : CleanFlash r c) (hram : CleanRam r ram)
    (hsaves : (R.atSite .regenerate).Saves .apiKey ∨ ∀ stored, c .apiKey = some stored →
      stored = apiKey) :
    wp R (regenerateApiKey apiKey) (AuthLeaves (CleanFlash r) fun ok c' ram' => ok = true ∧
      CleanFlash { r with apiKeys := {apiKey}ᶜ } c' ∧ CleanRam { r with apiKeys := {apiKey}ᶜ } ram')
      (.ofContents c, ram) := by
  have hsettings : CleanWrites r (settingsWrites { ram with apiKey }) :=
    CleanRam.settings hram.password hkey
  refine wp_leaves_mono (wp_regenerateApiKey hp c ram apiKey) ?_ fun c' hpart =>
    hflash.written hpart hsettings
  rintro ok c' _ ⟨hok, rfl, saved, hsaved⟩
  have hwritten := hflash.written hsaved.partly hsettings
  have hne : apiKey ≠ [] := by
    rintro rfl
    cases hlen
  have hmem : (AuthKey.apiKey, apiKey) ∈ settingsWrites { ram with apiKey } :=
    mem_settingsWrites.mpr (.inr (.inr (.inr (.inr ⟨rfl, hne, rfl⟩))))
  have hnew : ∀ stored, c' .apiKey = some stored → stored = apiKey := by
    intro stored hstored
    rcases hsaves with hsaves | hsaves
    · exact Option.some.inj (hstored.symm.trans (hsaved.saved _ _ (.inr hsaves) hmem))
    · rcases hsaved.partly .apiKey with hsame | ⟨value, hvalue, hwrote⟩
      · exact hsaves stored (hsame ▸ hstored)
      · rcases mem_settingsWrites.mp hvalue with ⟨h, -⟩ | ⟨h, -⟩ | ⟨h, -⟩ | ⟨h, -⟩ | ⟨-, -, rfl⟩
        · cases h
        · cases h
        · cases h
        · cases h
        · exact Option.some.inj (hstored.symm.trans hwrote)
  refine ⟨hok, ⟨fun key value hvalue => ?_, fun hsome => hwritten.kept hsome⟩, ?_⟩
  · cases key with
    | apiKey => exact not_not_intro (hnew value hvalue)
    | webEn => trivial
    | apiEn => trivial
    | username => trivial
    | passHash => exact hwritten.values _ _ hvalue
    | sessions => exact hwritten.values _ _ hvalue
    | haHash => exact hwritten.values _ _ hvalue
  · exact ⟨hram.sessions, hram.password, not_not_intro rfl, hram.integration⟩

/-- A new integration token. -/
lemma clean_issueIntegrationToken (hp : ∀ op, R.promise op) (hhash : Digests sha hash)
    (htoken : sha token ∉ r.integrationTokens) (hflash : CleanFlash r c) (hram : CleanRam r ram) :
    wp R (issueIntegrationToken hash token) (AuthLeaves (CleanFlash r) fun _ c' ram' =>
      CleanFlash r c' ∧ CleanRam r ram') (.ofContents c, ram) := by
  have hwritten : ∀ digest, hash token = some digest → ∀ c',
      PartlyWritten [(.haHash, digest.toList)] c c' → CleanFlash r c' := by
    intro digest hdigest c' hpart
    refine hflash.written hpart fun key value hmem => ?_
    obtain ⟨rfl, rfl⟩ := Prod.mk.inj (List.mem_singleton.mp hmem)
    refine ⟨fun _ => ?_, nofun⟩
    rw [Digest.ofBytes_toList, hhash _ _ hdigest]
    exact htoken
  refine wp_leaves_mono (wp_issueIntegrationToken hp c ram token) ?_ ?_
  · rintro _ c' _ (⟨-, rfl, rfl | ⟨digest, hdigest, hpart⟩⟩ | ⟨digest, hdigest, -, rfl, hpart, -⟩)
    · exact ⟨hflash, hram⟩
    · exact ⟨hwritten digest hdigest c' hpart, hram⟩
    · refine ⟨hwritten digest hdigest c' hpart, hram.sessions, hram.password, hram.apiKey, fun _ => ?_⟩
      dsimp only [IntegrationState.issueSection]
      rw [hhash _ _ hdigest]
      exact htoken
  · rintro c' ⟨digest, hdigest, hpart⟩
    exact hwritten digest hdigest c' hpart

/-- A namespace without an integration token. -/
lemma CleanFlash.erased (h : CleanFlash r c) (S : Set Digest) :
    CleanFlash { r with integrationTokens := S } (Function.update c .haHash none) where
  values key value hvalue := by
    cases key with
    | haHash =>
        rw [Function.update_self] at hvalue
        cases hvalue
    | webEn => trivial
    | apiEn => trivial
    | username => trivial
    | passHash => exact h.values .passHash value hvalue
    | apiKey => exact h.values .apiKey value hvalue
    | sessions => exact h.values .sessions value hvalue
  kept hsome := h.kept hsome

/-- The integration token is taken back. -/
lemma clean_revokeIntegrationToken (hflash : CleanFlash r c) (hram : CleanRam r ram) :
    wp documentedErase revokeIntegrationToken (AuthLeaves (CleanFlash r) fun ok c' ram' =>
      CleanFlash (r.finish sha ok .revokeIntegrationToken) c' ∧
        CleanRam (r.finish sha ok .revokeIntegrationToken) ram') (.ofContents c, ram) := by
  have hcut : ∀ c', c' = c ∨ c' = Function.update c .haHash none → CleanFlash r c' := by
    rintro c' (rfl | rfl)
    · exact hflash
    · exact hflash.erased _
  refine wp_leaves_mono (wp_revokeIntegrationToken (fun _ => trivial) c ram fun _ h => h rfl) ?_ hcut
  rintro ok c' ram' ⟨hor, h⟩
  rw [Revoked.finish]
  cases ok with
  | false =>
      cases h
      exact ⟨hcut c' hor, hram⟩
  | true =>
      obtain ⟨rfl, rfl⟩ := h
      exact ⟨hflash.erased _, hram.sessions, hram.password, hram.apiKey, nofun⟩

/-! ### The start -/

/-- What was loaded from a clean namespace. -/
lemma LoadedFrom.clean {R : Rely NvsFault (NvsOp AuthKey)} {loaded : Option AuthState}
    (h : LoadedFrom R c loaded) (hflash : CleanFlash r c) :
    ((loaded.getD {}).passwordSet → (loaded.getD {}).passwordHash ∉ r.passwords) ∧
      ((loaded.getD {}).apiKey ≠ [] → (loaded.getD {}).apiKey ∉ r.apiKeys) ∧
      ((loaded.getD {}).integration.integrationTokenSet →
        (loaded.getD {}).integration.integrationTokenHash ∉ r.integrationTokens) ∧
      (loaded.getD {}).sessions = fun _ => {} := by
  cases h with
  | closed => exact ⟨nofun, fun h => absurd rfl h, nofun, rfl⟩
  | @read webEn apiEn username passHash apiKey haHash husername hpassHash hapiKey hhaHash =>
      refine ⟨?_, ?_, ?_, rfl⟩
      · cases passHash with
        | ok bytes => exact fun _ => hflash.values _ _ hpassHash.ok.1
        | error e => exact nofun
      · cases apiKey with
        | ok key => exact fun _ => hflash.values _ _ hapiKey.ok.1
        | error e => exact fun h => absurd rfl h
      · cases haHash with
        | ok bytes =>
            intro hset
            have hlen : bytes.length = 32 := by
              simpa [IntegrationState.load, Except.toOption] using hset
            exact hflash.values _ _ hhaHash.ok.1 hlen
        | error e => exact nofun

/-- The sessions restored at a start were saved, or none was. -/
lemma active_of_restoreSessions {saved : List (Int64 × Digest)} {i : Fin authMaxSessions}
    (h : (restoreSessions (fun _ => {}) saved i).active) :
    ∃ p ∈ saved, (restoreSessions (fun _ => {}) saved i).tokenHash = p.2 := by
  rw [restoreSessions] at h ⊢
  cases hp : saved[(i : ℕ)]? with
  | none =>
      rw [hp] at h
      cases h
  | some p => exact ⟨p, List.mem_of_getElem? hp, rfl⟩

/-- A sound start does not fall back to a factory password that was replaced. -/
lemma exists_start_rely (hflash : CleanFlash r c) (hsound : SoundStart sha c ops) :
    ∃ R : Rely NvsFault AuthOp, R.Covers ops ∧ (∀ op, R.promise op) ∧
      ∀ loaded, LoadedFrom (R.atSite .load) c loaded → needsFactory loaded →
        sha authFactoryPassword ∉ r.passwords := by
  by_cases hreplaced : sha authFactoryPassword ∈ r.passwords
  · obtain ⟨bytes, hbytes, hlen⟩ := hflash.kept ⟨_, hreplaced⟩
    have hne : Digest.ofBytes bytes ≠ sha authFactoryPassword := fun heq =>
      hflash.values _ _ hbytes (heq ▸ hreplaced)
    rcases hsound ⟨bytes, hbytes, hne⟩ with hcovers | ⟨⟨username, husername, hnonempty, hfits⟩, hcovers⟩
    · refine ⟨_, hcovers, fun _ => trivial, fun loaded hloaded hneeds => ?_⟩
      cases hloaded with
      | closed h => exact absurd (fun e reached h => h) h
      | read husername hpassHash hapiKey hhaHash =>
          rcases hpassHash with rfl | ⟨-, hreads⟩
          · simp [needsFactory, Nvs.read, hbytes, not_lt.mpr hlen, Except.toOption] at hneeds
          · exact absurd (fun _ e reached h => h rfl) hreads
    · refine ⟨_, hcovers, fun _ => trivial, fun loaded hloaded hneeds => ?_⟩
      cases hloaded with
      | closed h => exact absurd (fun e reached h => h) h
      | read husername' hpassHash hapiKey hhaHash =>
          rcases husername' with rfl | ⟨-, hreads⟩
          · simp [needsFactory, Nvs.read, husername, not_lt.mpr hfits, loadedString, hnonempty] at hneeds
          · exact absurd (fun _ e reached h => h rfl) hreads
  · exact ⟨anyAuthFaults, fun _ _ => trivial, fun _ => trivial, fun _ _ _ => hreplaced⟩

/-- The state a start finds is clean once it has an API key. -/
lemma FoundState.clean {found : AuthState} (h : FoundState R hash c found)
    (hhash : Digests sha hash) (hflash : CleanFlash r c) (hkey : apiKey ∉ r.apiKeys)
    (hfactory : ∀ loaded, LoadedFrom (R.atSite .load) c loaded →
      needsFactory loaded → sha authFactoryPassword ∉ r.passwords) :
    CleanRam r (startedState apiKey found) := by
  have hkeyed : ∀ key : List UInt8, (key ≠ [] → key ∉ r.apiKeys) →
      (if key = [] then apiKey else key) ∉ r.apiKeys := by
    intro key hclean
    split
    · exact hkey
    · exact hclean ‹_›
  cases h with
  | @factory loaded hloaded hneeds =>
      obtain ⟨-, hapi, hintegration, hsessions⟩ := hloaded.clean hflash
      refine ⟨fun i hactive => ?_, fun hset => ?_, hkeyed _ hapi, hintegration⟩
      · dsimp only [startedState, enabledState, factoryState] at hactive
        rw [hsessions] at hactive
        cases hactive
      · obtain ⟨digest, hdigest⟩ := Option.isSome_iff_exists.mp hset
        dsimp only [startedState, enabledState, factoryState]
        rw [hdigest, Option.getD_some, hhash _ _ hdigest]
        exact hfactory _ hloaded hneeds
  | @saved ram hloaded hneeds sessions hsessions =>
      obtain ⟨hpassword, hapi, hintegration, hnone⟩ := hloaded.clean hflash
      rw [Option.getD_some] at hpassword hapi hintegration hnone
      refine ⟨fun i hactive => ?_, hpassword, hkeyed _ hapi, hintegration⟩
      dsimp only [startedState, enabledState] at hactive ⊢
      rw [hnone] at hsessions
      rcases hsessions with rfl | ⟨rfl, -⟩
      · obtain ⟨p, hp, heq⟩ := active_of_restoreSessions hactive
        rw [heq]
        cases hstored : c .sessions with
        | none => simp [storedSessions, hstored] at hp
        | some blob =>
            simp only [storedSessions, hstored, Option.map_some, Option.getD_some] at hp
            exact hflash.values _ _ hstored p hp
      · cases hactive

/-- A sound start keeps both copies clean. -/
lemma clean_start (hhash : Digests sha hash) (hflash : CleanFlash r c) (hkey : apiKey ∉ r.apiKeys)
    (hsound : SoundStart sha c ops) :
    ∃ R : Rely NvsFault AuthOp, R.Covers ops ∧
      wp R (authMgrInit hash apiKey) (AuthLeaves (CleanFlash r) fun _ c' ram' =>
        CleanFlash r c' ∧ CleanRam r ram') (.ofContents c, {}) := by
  obtain ⟨R, hcovers, hp, hfactory⟩ := exists_start_rely hflash hsound
  refine ⟨R, hcovers, wp_leaves_mono (wp_authMgrInit hp c {} apiKey) ?_ ?_⟩
  · rintro _ c' _ ⟨found, hfound, rfl, hpart, -⟩
    have hclean := hfound.clean hhash hflash hkey hfactory
    exact ⟨hflash.written hpart hclean.startWrites, hclean⟩
  · rintro c' (rfl | ⟨found, hfound, hpart⟩)
    · exact hflash
    · exact hflash.written hpart (hfound.clean hhash hflash hkey hfactory).startWrites

/-! ### The runs -/

/-- A sound call keeps both copies clean of what is revoked, also by itself. -/
lemma clean_call {call : AuthCall} (hhash : Digests sha hash) (hgen : call.Generated)
    (hflash : CleanFlash r c) (hram : CleanRam r ram) (hdoc : documentedErase.Covers ops)
    (hsound : SoundCall sha c ram call hash ops) :
    ∃ R : Rely NvsFault AuthOp, R.Covers ops ∧
      wp R (call.run hash) (AuthLeaves (CleanFlash (r.offer sha call)) fun ok c' ram' =>
        CleanFlash ((r.offer sha call).finish sha ok call) c' ∧
          CleanRam ((r.offer sha call).finish sha ok call) ram') (.ofContents c, ram) := by
  have hwithin := r.offer_within sha call
  have hflash' := hflash.mono hwithin
  have hram' := hram.mono hwithin
  -- the saves of the session list that a condition covers
  have hsessions : (storedSessions c ≠ [] → (savesAt .saveSessions .sessions).Covers ops) →
      ∃ R : Rely NvsFault AuthOp, R.Covers ops ∧ (∀ op, R.promise op) ∧
        ((R.atSite .saveSessions).Saves .sessions ∨ storedSessions c = []) := by
    intro h
    by_cases hnone : storedSessions c = []
    · exact ⟨anyAuthFaults, fun _ _ => trivial, fun _ => trivial, .inr hnone⟩
    · exact ⟨_, h hnone, fun _ => trivial, .inl (savesAt_saves _ _)⟩
  cases call with
  | setCredentials username password =>
      by_cases hgiven : credentialsGiven username password
      · obtain ⟨R, hcovers, hp, hsaves⟩ := hsessions (hsound hgiven)
        refine ⟨R, hcovers, clean_setCredentials hp hhash (fun password' hprovided => ?_) hflash' hram'
          fun _ => hsaves⟩
        rw [Revoked.offer, hprovided]
        exact fun h => h.2 rfl
      · refine ⟨anyAuthFaults, fun _ _ => trivial, clean_setCredentials (fun _ => trivial) hhash
          (fun password' hprovided => ?_) hflash' hram' fun h => absurd h hgiven⟩
        rw [Revoked.offer, hprovided]
        exact fun h => h.2 rfl
  | login username password token now =>
      have hnot : sha token ∉ (r.offer sha (.login username password token now)).sessions :=
        fun h => h.2 rfl
      refine ⟨anyAuthFaults, fun _ _ => trivial, wp_bind_leaves (clean_login (fun _ => trivial) hhash
        hnot hflash' hram') ?_ fun _ h => h⟩
      exact fun _ _ _ h => wp_pure_leaves h
  | validateSession token now now' =>
      exact ⟨anyAuthFaults, fun _ _ => trivial, clean_validateSession (fun _ => trivial) hflash' hram'⟩
  | logout token =>
      cases token with
      | none =>
          refine ⟨anyAuthFaults, fun _ _ => trivial, wp_bind_leaves (clean_logout_other
            (fun _ => trivial) (by rintro _ ⟨⟩) hflash' hram') ?_ fun _ h => h⟩
          exact fun _ _ _ h => wp_pure_leaves h
      | some token =>
          by_cases hlen : token.length = authSessionTokenLen
          · obtain ⟨htable, hstored⟩ := hsound hlen
            obtain ⟨R, hcovers, hwp⟩ := clean_logout hhash hlen hflash' hram' htable hstored
            refine ⟨R, hcovers, wp_bind_leaves hwp ?_ fun _ h => h⟩
            rintro _ c' ram' h
            refine wp_pure_leaves ?_
            rw [Revoked.finish, if_pos hlen]
            exact h
          · refine ⟨anyAuthFaults, fun _ _ => trivial, wp_bind_leaves (clean_logout_other
              (fun _ => trivial) (fun string h => Option.some.inj h ▸ hlen) hflash' hram') ?_
              fun _ h => h⟩
            rintro _ c' ram' h
            refine wp_pure_leaves ?_
            rw [Revoked.finish, if_neg hlen]
            exact h
  | logoutAll =>
      obtain ⟨R, hcovers, hp, hsaves⟩ := hsessions hsound
      refine ⟨R, hcovers, wp_bind_leaves (clean_logoutAll hp hflash' hram' hsaves) ?_ fun _ h => h⟩
      exact fun _ _ _ h => wp_pure_leaves h
  | regenerateApiKey apiKey =>
      have hnot : apiKey ∉ (r.offer sha (.regenerateApiKey apiKey)).apiKeys := fun h => h.2 rfl
      have hclean : ∀ {R : Rely NvsFault AuthOp}, (∀ op, R.promise op) →
          ((R.atSite .regenerate).Saves .apiKey ∨
            ∀ stored, c .apiKey = some stored → stored = apiKey) →
          wp R (regenerateApiKey apiKey) (AuthLeaves
            (CleanFlash (r.offer sha (.regenerateApiKey apiKey))) fun ok c' ram' =>
              CleanFlash ((r.offer sha (.regenerateApiKey apiKey)).finish sha ok
                (.regenerateApiKey apiKey)) c' ∧
              CleanRam ((r.offer sha (.regenerateApiKey apiKey)).finish sha ok
                (.regenerateApiKey apiKey)) ram') (.ofContents c, ram) := by
        intro R hp hsaves
        refine wp_leaves_mono (clean_regenerateApiKey hp hgen hnot hflash' hram' hsaves) ?_ fun _ h => h
        rintro _ c' ram' ⟨rfl, h⟩
        exact h
      by_cases hold : ∃ stored, c .apiKey = some stored ∧ stored ≠ apiKey
      · exact ⟨_, hsound hold, hclean (fun _ => trivial) (.inl (savesAt_saves _ _))⟩
      · refine ⟨anyAuthFaults, fun _ _ => trivial, hclean (fun _ => trivial) (.inr ?_)⟩
        intro stored hstored
        by_contra hne
        exact hold ⟨stored, hstored, hne⟩
  | issueIntegrationToken token =>
      have hnot : sha token ∉ (r.offer sha (.issueIntegrationToken token)).integrationTokens :=
        fun h => h.2 rfl
      refine ⟨anyAuthFaults, fun _ _ => trivial, wp_bind_leaves (clean_issueIntegrationToken
        (fun _ => trivial) hhash hnot hflash' hram') ?_ fun _ h => h⟩
      exact fun _ _ _ h => wp_pure_leaves h
  | revokeIntegrationToken => exact ⟨_, hdoc, clean_revokeIntegrationToken hflash' hram'⟩

end Calls

/-- Both copies are clean: the namespace always, the state in RAM while the device runs. -/
structure CleanSystem (r : Revoked) (s : AuthSystem) : Prop where
  settled : s.nvs.Settled
  flash : CleanFlash r s.nvs.stored
  ram : ∀ ram, s.ram = some ram → CleanRam r ram

section Runs

variable {sha : List UInt8 → Digest}

/-- Nothing is revoked at first. -/
lemma CleanFlash.nothing (c : AuthContents) : CleanFlash {} c where
  values key value _ := by
    cases key with
    | sessions => exact fun _ _ h => h
    | passHash => exact fun h => h
    | apiKey => exact fun h => h
    | haHash => exact fun _ h => h
    | webEn => trivial
    | apiEn => trivial
    | username => trivial
  kept h := absurd rfl h.ne_empty

/-- What a step does to the set of revoked credentials. -/
def Revoked.nextOf (sha : List UInt8 → Digest) (r : Revoked) (event : Option AuthEvent) : Revoked :=
  event.toList.foldl (Revoked.next sha) r

/-- One sound step keeps both copies clean. -/
lemma CleanSystem.step {r : Revoked} {s s' : AuthSystem} {event : Option AuthEvent}
    (h : CleanSystem r s) (hstep : AuthStep sha (soundSteps sha) s event s') :
    CleanSystem (r.nextOf sha event) s' := by
  have hnvs : s.nvs = .ofContents s.nvs.stored := h.settled.eq
  have hstarted : ∀ apiKey : List UInt8,
      (⟨r.sessions, r.passwords, r.apiKeys \ {apiKey}, r.integrationTokens⟩ : Revoked).Within r :=
    fun apiKey => ⟨subset_rfl, subset_rfl, Set.sdiff_subset, subset_rfl⟩
  cases hstep with
  | powerOff => exact ⟨s.nvs.settled_reset, h.flash, nofun⟩
  | @start hash apiKey faults result hoff hhash hkey hrun hsound hout =>
      obtain ⟨R, hcovers, hwp⟩ := clean_start hhash (h.flash.mono (hstarted apiKey))
        (fun hmem => hmem.2 rfl) hsound
      rw [← hnvs] at hwp
      have hpost := (hwp faults (by rw [hrun]; exact hcovers)).1
      rw [hrun, hout] at hpost
      obtain ⟨c', hc', hflash, hram⟩ := hpost
      refine ⟨?_, ?_, fun ram hr => Option.some.inj hr ▸ hram⟩
      · dsimp only
        rw [hc']
        exact Nvs.settled_ofContents _
      · dsimp only
        rw [hc']
        exact hflash
  | @startCut hash apiKey faults result hoff hhash hkey hrun hsound hout =>
      obtain ⟨R, hcovers, hwp⟩ := clean_start hhash (h.flash.mono (hstarted apiKey))
        (fun hmem => hmem.2 rfl) hsound
      rw [← hnvs] at hwp
      have hpost := (hwp faults (by rw [hrun]; exact hcovers)).1
      rw [hrun, hout] at hpost
      exact ⟨Nvs.settled_reset _, hpost, nofun⟩
  | @call ram call hash faults result ok hon hhash hgen hrun hdoc hsound hout =>
      obtain ⟨R, hcovers, hwp⟩ := clean_call hhash hgen h.flash (h.ram ram hon) hdoc hsound
      rw [← hnvs] at hwp
      have hpost := (hwp faults (by rw [hrun]; exact hcovers)).1
      rw [hrun, hout] at hpost
      obtain ⟨c', hc', hflash, hram⟩ := hpost
      refine ⟨?_, ?_, fun ram hr => Option.some.inj hr ▸ hram⟩
      · dsimp only
        rw [hc']
        exact Nvs.settled_ofContents _
      · dsimp only
        rw [hc']
        exact hflash
  | @callCut ram call hash faults result hon hhash hgen hrun hdoc hsound hout =>
      obtain ⟨R, hcovers, hwp⟩ := clean_call hhash hgen h.flash (h.ram ram hon) hdoc hsound
      rw [← hnvs] at hwp
      have hpost := (hwp faults (by rw [hrun]; exact hcovers)).1
      rw [hrun, hout] at hpost
      exact ⟨Nvs.settled_reset _, hpost, nofun⟩

/-- After a run of sound steps both copies are clean. -/
lemma CleanSystem.run {saved : AuthContents} {s : AuthSystem} {log : List AuthEvent}
    (hrun : Run (AuthStep sha (soundSteps sha)) (AuthSystem.off saved) s log) :
    CleanSystem (revokedAfter sha log) s := by
  refine hrun.invariant (I := fun s log => CleanSystem (revokedAfter sha log) s) ?_ ?_
  · exact ⟨rfl, .nothing saved, nofun⟩
  · intro s log event s' _ ih hstep
    rw [revokedAfter, List.foldl_append]
    exact ih.step hstep

/-- A clean state refuses what is revoked. -/
lemma CleanRam.refuses {r : Revoked} {c : AuthContents} {ram : AuthState}
    {hash : List UInt8 → Option Digest} (h : CleanRam r ram) (hhash : Digests sha hash) :
    RefusesRevoked sha r (.ofContents c) ram hash where
  session token now now' faults hrevoked hvalid := by
    have hpost := (@wp_validateSession anyAuthFaults (fun _ => trivial) hash c ram (some token) now
      now' faults fun _ _ => trivial).1
    rw [hvalid] at hpost
    obtain ⟨c', -, htrue, -⟩ := hpost
    rw [sessionValid] at htrue
    cases hfound : findSession hash ram.sessions (some token) with
    | none =>
        rw [hfound] at htrue
        cases htrue
    | some i =>
        obtain ⟨string, digest, hstring, -, hdigest, hactive, heq⟩ := findSession_eq_some hfound
        cases hstring
        rw [← hhash _ _ hdigest, ← heq] at hrevoked
        exact h.sessions i hactive hrevoked
  password username password token now faults result hrevoked hvalid := by
    have hpost := (@wp_login anyAuthFaults (fun _ => trivial) hash c ram username (some password) token
      now faults fun _ _ => trivial).1
    rw [hvalid] at hpost
    obtain ⟨c', -, ⟨hnone, -⟩ | ⟨username', password', -, -, hpassword, hallowed, -⟩⟩ := hpost
    · cases hnone
    · cases hpassword
      rw [loginAllowed, Bool.and_eq_true, Bool.and_eq_true] at hallowed
      obtain ⟨⟨-, hset⟩, hmatch⟩ := hallowed
      cases hdigest : hash password with
      | none =>
          rw [hdigest] at hmatch
          cases hmatch
      | some digest =>
          rw [hdigest] at hmatch
          rw [← hhash _ _ hdigest, Digest.equal_iff.mp hmatch] at hrevoked
          exact h.password hset hrevoked
  apiKey key hrevoked := by
    rw [validateApiKey]
    refine Bool.eq_false_of_not_eq_true fun hvalid => ?_
    rw [Bool.and_eq_true, beq_iff_eq] at hvalid
    exact h.apiKey (hvalid.2 ▸ hrevoked)
  integrationToken token hrevoked := by
    refine Bool.eq_false_of_not_eq_true fun hvalid => ?_
    rw [validateIntegrationToken, Bool.and_eq_true, validateResult] at hvalid
    obtain ⟨-, hvalid⟩ := hvalid
    split at hvalid
    · cases hvalid
    · rename_i hset
      cases hdigest : hash token with
      | none =>
          rw [hdigest, hashPassword] at hvalid
          cases hvalid
      | some digest =>
          rw [hdigest, Option.isSome_some, hashPassword, if_pos rfl] at hvalid
          dsimp only at hvalid
          split at hvalid
          · rename_i hequal
            rw [hdigest, Option.getD_some] at hequal
            rw [← hhash _ _ hdigest, Digest.equal_iff.mp hequal] at hrevoked
            exact h.integration (not_not.mp hset) hrevoked
          · cases hvalid

/-- **A revoked credential does not come back**: in every run of sound steps, whatever
other calls of NVS fail and wherever power is lost, the device accepts no session token,
password, API key or integration token that was replaced or revoked and was not given
out again since. -/
theorem revoked_stays_revoked {saved : AuthContents} {s : AuthSystem} {log : List AuthEvent}
    (hrun : Run (AuthStep sha (soundSteps sha)) (AuthSystem.off saved) s log) {ram : AuthState}
    (hon : s.ram = some ram) {hash : List UInt8 → Option Digest} (hhash : Digests sha hash) :
    RefusesRevoked sha (revokedAfter sha log) s.nvs ram hash := by
  have hclean := CleanSystem.run hrun
  rw [hclean.settled.eq]
  exact (hclean.ram ram hon).refuses hhash

end Runs

/-! ### Three runs of an empty device -/

section Examples

/-- A digest for the examples: the string itself. -/
def demoHash (string : List UInt8) : Option Digest := some (.ofBytes string)

lemma digests_demoHash : Digests Digest.ofBytes demoHash := fun _ _ h => (Option.some.inj h).symm

/-- An API key or a session token made of one character. -/
def demoString (char : UInt8) : List UInt8 := List.replicate 32 char

/-- A start without faults. -/
def demoStart (nvs : Nvs AuthKey) (key : UInt8) :
    Result (Nvs AuthKey × AuthState) NvsFault AuthOp EspErr Unit :=
  authMgrInit demoHash (demoString key) (nvs, {}) []

/-- The empty device after its first start. -/
def demoState : Nvs AuthKey × AuthState := (demoStart (.ofContents fun _ => none) 0x61).state

/-- A call, with faults. -/
def demoCall (s : Nvs AuthKey × AuthState) (call : AuthCall) (faults : List NvsFault) :
    Result (Nvs AuthKey × AuthState) NvsFault AuthOp EspErr Bool := call.run demoHash s faults

/-- The system while it runs. -/
def demoOn (s : Nvs AuthKey × AuthState) : AuthSystem := ⟨s.1, some s.2⟩

variable {sound : Soundness}

lemma step_demoStart {nvs : Nvs AuthKey} {key : UInt8}
    (hsound : sound.start nvs.stored (demoStart nvs key).ops)
    (hout : (demoStart nvs key).out = .val ()) :
    AuthStep Digest.ofBytes sound ⟨nvs, none⟩ (some (.started (demoString key)))
      (demoOn (demoStart nvs key).state) :=
  .start rfl digests_demoHash (List.length_replicate) rfl hsound hout

lemma step_demoCall {s : Nvs AuthKey × AuthState} {call : AuthCall} {faults : List NvsFault}
    {ok : Bool} (hgen : call.Generated)
    (hfaults : ∀ p ∈ (demoCall s call faults).ops, p.2 = .none ∨ p.1.2 = .open)
    (hsound : sound.call s.1.stored s.2 call demoHash (demoCall s call faults).ops)
    (hout : (demoCall s call faults).out = .val ok) :
    AuthStep Digest.ofBytes sound (demoOn s) (some (.called call (some ok)))
      (demoOn (demoCall s call faults).state) := by
  refine .call rfl digests_demoHash hgen rfl (fun p hp => ?_) hsound hout
  obtain ⟨⟨site, op⟩, fault⟩ := p
  rcases hfaults _ hp with h | h
  · cases h
    cases op <;> trivial
  · cases h
    trivial

/-- The first start of an empty device. -/
lemma run_demoState (hsound : ∀ ops, sound.start (fun _ => none) ops) :
    Run (AuthStep Digest.ofBytes sound) (AuthSystem.off fun _ => none) (demoOn demoState)
      [.started (demoString 0x61)] :=
  Run.start.step (step_demoStart (hsound _) (by decide +kernel))

/-- The API key is replaced. -/
def demoRegenerated (faults : List NvsFault) : Nvs AuthKey × AuthState :=
  (demoCall demoState (.regenerateApiKey (demoString 0x62)) faults).state

/-- The factory credentials open a session. -/
def demoLogin : AuthCall :=
  .login (some authFactoryUsername) (some authFactoryPassword) (demoString 0x74) 0

/-- The session is logged out. -/
def demoLoggedOut (faults : List NvsFault) : Nvs AuthKey × AuthState :=
  (demoCall (demoCall demoState demoLogin []).state (.logout (some (demoString 0x74))) faults).state

lemma savesAt_none (site : AuthSite) (key : AuthKey) (op : AuthOp) :
    (savesAt site key).allowed op .none := by
  obtain ⟨site, op⟩ := op
  cases op <;> trivial

end Examples

theorem revoked_stays_revoked_regenerated :
    RefusesRevoked Digest.ofBytes
      (revokedAfter Digest.ofBytes [.started (demoString 0x61),
        .called (.regenerateApiKey (demoString 0x62)) (some true)])
      (demoRegenerated []).1 (demoRegenerated []).2 demoHash := by
  have hnone : ∀ p ∈ (demoCall demoState (.regenerateApiKey (demoString 0x62)) []).ops,
      p.2 = .none := by decide +kernel
  have hstep := @step_demoCall (soundSteps Digest.ofBytes) demoState
    (.regenerateApiKey (demoString 0x62)) [] true List.length_replicate
    (fun p hp => .inl (hnone p hp)) (fun _ p hp => hnone p hp ▸ savesAt_none _ _ _)
    (by decide +kernel)
  exact revoked_stays_revoked ((run_demoState fun _ ⟨_, h, _⟩ => nomatch h).step hstep) rfl
    digests_demoHash

/-- Where any call of NVS may fail, a revoked credential does come back: an API key
whose replacement could not be saved is accepted again after a reboot. -/
theorem regenerated_key_comes_back :
    ¬ ∀ (sha : List UInt8 → Digest) (saved : AuthContents) (s : AuthSystem) (log : List AuthEvent),
      Run (AuthStep sha anySteps) (AuthSystem.off saved) s log → ∀ ram, s.ram = some ram →
        ∀ hash, Digests sha hash → RefusesRevoked sha (revokedAfter sha log) s.nvs ram hash := by
  intro h
  have hcall := @step_demoCall anySteps demoState (.regenerateApiKey (demoString 0x62))
    [.error .fail false] true
    List.length_replicate (by decide +kernel) trivial (by decide +kernel)
  have hstart := @step_demoStart anySteps (demoRegenerated [.error .fail false]).1.reset 0x63 trivial (by decide +kernel)
  have hrun := (((run_demoState fun _ => trivial).step hcall).step (.powerOff _)).step hstart
  have hrefuses := h _ _ _ _ hrun _ rfl _ digests_demoHash
  have hrevoked : demoString 0x61 ∈ (({demoString 0x62}ᶜ : Set (List UInt8)) \ {demoString 0x63}) :=
    ⟨by decide, by decide⟩
  have haccepted : validateApiKey
      (demoStart (demoRegenerated [.error .fail false]).1.reset 0x63).state.2
      (some (demoString 0x61)) = true := by decide +kernel
  exact Bool.false_ne_true ((hrefuses.apiKey _ hrevoked).symm.trans haccepted)

/-- So is a session that was logged out while the session list could not be saved. -/
theorem logged_out_session_comes_back :
    ¬ ∀ (sha : List UInt8 → Digest) (saved : AuthContents) (s : AuthSystem) (log : List AuthEvent),
      Run (AuthStep sha anySteps) (AuthSystem.off saved) s log → ∀ ram, s.ram = some ram →
        ∀ hash, Digests sha hash → RefusesRevoked sha (revokedAfter sha log) s.nvs ram hash := by
  intro h
  have hlogin := @step_demoCall anySteps demoState demoLogin [] true List.length_replicate (by decide +kernel) trivial
    (by decide +kernel)
  have hlogout := @step_demoCall anySteps (demoCall demoState demoLogin []).state
    (.logout (some (demoString 0x74))) [.error .fail false] true trivial
    (by decide +kernel) trivial (by decide +kernel)
  have hstart := @step_demoStart anySteps (demoLoggedOut [.error .fail false]).1.reset 0x63 trivial (by decide +kernel)
  have hrun := ((((run_demoState fun _ => trivial).step hlogin).step hlogout).step
    (.powerOff _)).step hstart
  have hrefuses := h _ _ _ _ hrun _ rfl _ digests_demoHash
  refine hrefuses.session (demoString 0x74) 0 0 [] (.inr rfl) ?_
  decide +kernel

end ArcticController

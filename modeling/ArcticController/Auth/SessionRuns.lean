/-
Web sessions exactly: over every run of logins, validations, logouts, changes of the
credentials and reboots, a token is valid as long as its history says so.

* `Succeeds`: a call during which no call of NVS failed;
* `SessionStep`: the calls and the reboots;
* `HasCredentials`: what keeps a reboot from the factory credentials, with which saved
  sessions would be left out;
* `SessionsKept`: the table represents the history and the saved list is the table;
* `sessions_exact`: the whole claim.
-/
import ArcticController.Auth.SessionLog

namespace ArcticController

/-! ### The steps -/

/-- Every call of NVS succeeds. -/
def noAuthFaults : Rely NvsFault AuthOp := ⟨fun _ fault => fault = .none, fun _ => True⟩

/-- A call that goes from `s` to `s'` and returns `a` while every call of NVS succeeds. -/
def Succeeds {α : Type} (m : AuthM α) (s : Nvs AuthKey × AuthState) (a : α)
    (s' : Nvs AuthKey × AuthState) : Prop :=
  ∃ faults, noAuthFaults.Covers (m s faults).ops ∧ (m s faults).out = .val a ∧
    (m s faults).state = s'

lemma Succeeds.post {α : Type} {m : AuthM α} {s s' : Nvs AuthKey × AuthState} {a : α}
    {Q : Outcome EspErr α → Nvs AuthKey × AuthState → Prop} (h : Succeeds m s a s')
    (hwp : wp noAuthFaults m Q s) : Q (.val a) s' := by
  obtain ⟨faults, hcovers, hout, rfl⟩ := h
  rw [← hout]
  exact (hwp faults hcovers).1

/-- One call or reboot. -/
inductive SessionStep (sha : List UInt8 → Digest) :
    Nvs AuthKey × AuthState → Option SessionEvent → Nvs AuthKey × AuthState → Prop where
  | login {s s' : Nvs AuthKey × AuthState} {username password : Option (List UInt8)}
      {token : List UInt8} {now : Int64} (hlen : token.length = authSessionTokenLen)
      (h : Succeeds (login (hashed sha) username password token now) s (some token) s') :
      SessionStep sha s (some (.loggedIn token now (evictedBy s.2.sessions))) s'
  | refused {s s' : Nvs AuthKey × AuthState} {username password : Option (List UInt8)}
      {token : List UInt8} {now : Int64}
      (h : Succeeds (login (hashed sha) username password token now) s none s') :
      SessionStep sha s none s'
  | validate {s s' : Nvs AuthKey × AuthState} {token : List UInt8} {now now' : Int64} {ok : Bool}
      (h : Succeeds (validateSession (hashed sha) (some token) now now') s ok s') :
      SessionStep sha s (some (.validated token now now' ok)) s'
  | validateNull {s s' : Nvs AuthKey × AuthState} {now now' : Int64} {ok : Bool}
      (h : Succeeds (validateSession (hashed sha) none now now') s ok s') : SessionStep sha s none s'
  | logout {s s' : Nvs AuthKey × AuthState} {token : List UInt8}
      (h : Succeeds (logout (hashed sha) (some token)) s () s') :
      SessionStep sha s (some (.loggedOut token)) s'
  | logoutNull {s s' : Nvs AuthKey × AuthState}
      (h : Succeeds (logout (hashed sha) none) s () s') : SessionStep sha s none s'
  | logoutAll {s s' : Nvs AuthKey × AuthState} (h : Succeeds logoutAll s () s') :
      SessionStep sha s (some .loggedOutAll) s'
  | setCredentials {s s' : Nvs AuthKey × AuthState} {username password : Option (List UInt8)}
      {ok : Bool} (h : Succeeds (setCredentials (hashed sha) username password) s ok s') :
      SessionStep sha s
        (if credentialsGiven username password then some .credentialsChanged else none) s'
  | reboot {s s' : Nvs AuthKey × AuthState} {apiKey : List UInt8}
      (h : Succeeds (authMgrInit (hashed sha) apiKey) (s.1.reset, {}) () s') :
      SessionStep sha s (some .rebooted) s'

/-! ### The credentials of a reboot -/

/-- A start finds credentials. -/
def HasCredentials (c : AuthContents) : Prop :=
  (∃ bytes, c .passHash = some bytes ∧ bytes.length ≤ 32) ∨
    ∃ username, c .username = some username ∧ username ≠ [] ∧ username.length ≤ authMaxUsernameLen

section Credentials

variable {c c' : AuthContents} {ram : AuthState}

/-- Saving settings keeps credentials there. -/
lemma HasCredentials.written {writes : List (AuthKey × List UInt8)} (h : HasCredentials c)
    (hpart : PartlyWritten writes c c')
    (hpass : ∀ value, (.passHash, value) ∈ writes → value.length ≤ 32)
    (huser : ∀ value, (.username, value) ∈ writes → value ≠ [] ∧ value.length ≤ authMaxUsernameLen) :
    HasCredentials c' := by
  rcases h with ⟨bytes, hbytes, hlen⟩ | ⟨username, husername, hne, hlen⟩
  · rcases hpart .passHash with hkey | ⟨value, hmem, hkey⟩
    · exact .inl ⟨bytes, hkey.trans hbytes, hlen⟩
    · exact .inl ⟨value, hkey, hpass value hmem⟩
  · rcases hpart .username with hkey | ⟨value, hmem, hkey⟩
    · exact .inr ⟨username, hkey.trans husername, hne, hlen⟩
    · exact .inr ⟨value, hkey, huser value hmem⟩

lemma settingsWrites_passHash {value : List UInt8} (h : (.passHash, value) ∈ settingsWrites ram) :
    value.length ≤ 32 := by
  rcases mem_settingsWrites.mp h with ⟨h, -⟩ | ⟨h, -⟩ | ⟨h, -⟩ | ⟨-, -, rfl⟩ | ⟨h, -⟩
  · cases h
  · cases h
  · cases h
  · exact Vector.length_toList.le
  · cases h

lemma settingsWrites_username (hram : ram.username.length ≤ authMaxUsernameLen) {value : List UInt8}
    (h : (.username, value) ∈ settingsWrites ram) :
    value ≠ [] ∧ value.length ≤ authMaxUsernameLen := by
  rcases mem_settingsWrites.mp h with ⟨h, -⟩ | ⟨h, -⟩ | ⟨-, hne, rfl⟩ | ⟨h, -⟩ | ⟨h, -⟩
  · cases h
  · cases h
  · exact ⟨hne, hram⟩
  · cases h
  · cases h

/-- Only flags are written at a start besides the settings. -/
lemma mem_startWrites {key : AuthKey} {value : List UInt8} (h : (key, value) ∈ startWrites ram)
    (hweb : key ≠ .webEn) (hapi : key ≠ .apiEn) : (key, value) ∈ settingsWrites ram := by
  rcases List.mem_append.mp h with h | h
  · exact h
  · simp only [List.mem_cons, Prod.mk.injEq, List.not_mem_nil, or_false] at h
    rcases h with ⟨rfl, -⟩ | ⟨rfl, -⟩ | ⟨rfl, -⟩ | ⟨rfl, -⟩
    · exact absurd rfl hweb
    · exact absurd rfl hweb
    · exact absurd rfl hapi
    · exact absurd rfl hapi

/-- What was loaded without the factory credentials had credentials. -/
lemma LoadedFrom.hasCredentials {R : Rely NvsFault (NvsOp AuthKey)} {saved : AuthState}
    (h : LoadedFrom R c (some saved)) (hneeds : ¬ needsFactory (some saved)) : HasCredentials c := by
  cases h with
  | @read webEn apiEn username passHash apiKey haHash husername hpassHash hapiKey hhaHash =>
      cases passHash with
      | ok bytes => exact .inl ⟨bytes, hpassHash.ok⟩
      | error e =>
          cases username with
          | ok username =>
              refine .inr ⟨username, husername.ok.1, ?_, husername.ok.2⟩
              rintro rfl
              exact hneeds rfl
          | error e => exact absurd rfl hneeds

/-- A start where nothing fails finds them. -/
lemma HasCredentials.found (h : HasCredentials c) {R : Rely NvsFault (NvsOp AuthKey)}
    (hR : ∀ op fault, R.allowed op fault → fault = .none) {loaded : Option AuthState}
    (hloaded : LoadedFrom R c loaded) : ¬ needsFactory loaded := by
  have hopens : R.Opens := fun e reached hf => nomatch hR _ _ hf
  have hreads : ∀ key, R.Reads key := fun key length e reached hf => nomatch hR _ _ hf
  cases hloaded with
  | closed hnot => exact absurd hopens hnot
  | read husername hpassHash hapiKey hhaHash =>
      obtain rfl := hpassHash.resolve_right fun hand => hand.2 (hreads _)
      obtain rfl := husername.resolve_right fun hand => hand.2 (hreads _)
      rcases h with ⟨bytes, hbytes, hlen⟩ | ⟨username, husername, hne, hlen⟩
      · simp [needsFactory, Nvs.read, hbytes, not_lt.mpr hlen, Except.toOption]
      · simp [needsFactory, Nvs.read, husername, not_lt.mpr hlen, loadedString, hne]

/-- The user name of a state that was found fits. -/
lemma FoundState.username_le {R : Rely NvsFault AuthOp} {hash : List UInt8 → Option Digest}
    {found : AuthState} (h : FoundState R hash c found) :
    found.username.length ≤ authMaxUsernameLen := by
  cases h with
  | factory => exact Nat.le_of_ble_eq_true rfl
  | saved hloaded hneeds hsessions =>
      cases hloaded with
      | @read webEn apiEn username passHash apiKey haHash husername hpassHash hapiKey hhaHash =>
          cases username with
          | ok username => exact husername.ok.2
          | error e => exact Nat.zero_le _

/-- The table a loaded state comes with is empty. -/
lemma LoadedFrom.sessions_eq {R : Rely NvsFault (NvsOp AuthKey)} {saved : AuthState}
    (h : LoadedFrom R c (some saved)) : saved.sessions = fun _ => {} := by
  cases h with
  | read husername hpassHash hapiKey hhaHash => rfl

end Credentials

/-! ### The runs -/

/-- The table represents the history, the namespace holds exactly its active sessions,
and a reboot will find the credentials. -/
structure SessionsKept (sha : List UInt8 → Digest) (log : List SessionEvent)
    (s : Nvs AuthKey × AuthState) : Prop where
  settled : s.1.Settled
  represents : Represents sha log s.2.sessions
  saved : storedSessions s.1.stored = activeSessions s.2.sessions
  credentials : HasCredentials s.1.stored
  username : s.2.username.length ≤ authMaxUsernameLen

section Runs

variable {sha : List UInt8 → Digest} {log : List SessionEvent} {c c' : AuthContents}
  {ram : AuthState} {sessions : Sessions}

lemma saves_noAuthFaults (site : AuthSite) (key : AuthKey) : (noAuthFaults.atSite site).Saves key where
  opens _ _ h := nomatch h
  sets _ _ _ h := nomatch h
  commits _ h := nomatch h

/-- A saved table is what the namespace holds. -/
lemma storedSessions_of_saved {R : Rely NvsFault (NvsOp AuthKey)} {ok : Bool}
    (h : Saved R (sessionWrites sessions) ok c c') (hsaves : R.Saves .sessions) :
    storedSessions c' = activeSessions sessions := by
  have hkey : c' .sessions = some (sessionsBlob sessions) :=
    h.saved _ _ (.inr hsaves) (List.mem_singleton_self _)
  rw [storedSessions, hkey, Option.map_some, Option.getD_some, blobSessions_sessionsBlob]

/-- A call that changes the table and saves it. -/
lemma SessionsKept.tableSaved {log' : List SessionEvent}
    (h : SessionsKept sha log (.ofContents c, ram))
    (hsaved : Saved (noAuthFaults.atSite .saveSessions) (sessionWrites sessions) false c c')
    (hrep : Represents sha log' sessions) :
    SessionsKept sha log' (.ofContents c', { ram with sessions }) where
  settled := rfl
  represents := hrep
  saved := storedSessions_of_saved hsaved (saves_noAuthFaults _ _)
  credentials := h.credentials.written hsaved.partly
    (fun _ hmem => nomatch List.mem_singleton.mp hmem)
    fun _ hmem => nomatch List.mem_singleton.mp hmem
  username := h.username

/-- A call that leaves which sessions are active. -/
lemma SessionsKept.table {log' : List SessionEvent} (h : SessionsKept sha log (.ofContents c, ram))
    (hactive : activeSessions sessions = activeSessions ram.sessions)
    (hrep : Represents sha log' sessions) :
    SessionsKept sha log' (.ofContents c, { ram with sessions }) where
  settled := rfl
  represents := hrep
  saved := h.saved.trans hactive.symm
  credentials := h.credentials
  username := h.username

/-- Using a session changes no more than its last use. -/
lemma activeSessions_update {i : Fin authMaxSessions} {session : Session}
    (hactive : session.active = (sessions i).active)
    (hcreated : session.createdAt = (sessions i).createdAt)
    (hdigest : session.tokenHash = (sessions i).tokenHash) :
    activeSessions (Function.update sessions i session) = activeSessions sessions := by
  have hsame : ∀ j, (Function.update sessions i session j).active = (sessions j).active ∧
      (Function.update sessions i session j).createdAt = (sessions j).createdAt ∧
      (Function.update sessions i session j).tokenHash = (sessions j).tokenHash := by
    intro j
    rcases eq_or_ne j i with rfl | hne
    · rw [Function.update_self]
      exact ⟨hactive, hcreated, hdigest⟩
    · rw [Function.update_of_ne hne]
      exact ⟨rfl, rfl, rfl⟩
  have hlist : ∀ table : Sessions, activeSessions table
      = ((List.finRange authMaxSessions).filter fun j => (table j).active).map
          fun j => ((table j).createdAt, (table j).tokenHash) := by
    intro table
    rw [activeSessions, List.ofFn_eq_map, List.filter_map, List.map_map]
    rfl
  rw [hlist, hlist]
  simp only [hsame]

/-- A start writes no sessions and leaves credentials for the next one. -/
lemma started_kept {R : Rely NvsFault AuthOp} {hash : List UInt8 → Option Digest}
    {apiKey : List UInt8} {found : AuthState} (hfound : FoundState R hash c found)
    (hpart : PartlyWritten (startWrites (startedState apiKey found)) c c')
    (hbranch : (∃ saved, LoadedFrom (R.atSite .load) c (some saved) ∧ ¬ needsFactory (some saved)) ∨
      c' .username = some authFactoryUsername) :
    storedSessions c' = storedSessions c ∧ HasCredentials c' := by
  have husername : ∀ value, (.username, value) ∈ startWrites (startedState apiKey found) →
      (.username, value) ∈ settingsWrites (startedState apiKey found) :=
    fun value hmem => mem_startWrites hmem nofun nofun
  have hpassHash : ∀ value, (.passHash, value) ∈ startWrites (startedState apiKey found) →
      (.passHash, value) ∈ settingsWrites (startedState apiKey found) :=
    fun value hmem => mem_startWrites hmem nofun nofun
  constructor
  · have hkey : c' .sessions = c .sessions := hpart.of_notMem fun value hmem => by
      rcases mem_settingsWrites.mp (mem_startWrites hmem nofun nofun) with
        ⟨h, -⟩ | ⟨h, -⟩ | ⟨h, -⟩ | ⟨h, -⟩ | ⟨h, -⟩ <;> cases h
    rw [storedSessions, storedSessions, hkey]
  · rcases hbranch with ⟨saved, hloaded, hneeds⟩ | hfactory
    · refine (hloaded.hasCredentials hneeds).written hpart (fun value hmem => ?_) fun value hmem => ?_
      · exact settingsWrites_passHash (hpassHash value hmem)
      · exact @settingsWrites_username (startedState apiKey found) hfound.username_le _
          (husername value hmem)
    · exact .inr ⟨_, hfactory, by decide, by decide⟩

/-- After the first start no session is live. -/
lemma SessionsKept.first {apiKey : List UInt8} {s : Nvs AuthKey × AuthState}
    (hstart : Succeeds (authMgrInit (hashed sha) apiKey) (.ofContents c, {}) () s)
    (hnone : storedSessions c = []) : SessionsKept sha [] s := by
  obtain ⟨n, ram⟩ := s
  obtain ⟨c', hc', found, hfound, hram, hpart, hbranch⟩ :=
    hstart.post (wp_authMgrInit (fun _ => trivial) c {} apiKey)
  dsimp only at hc' hram hpart hbranch
  subst hc' hram
  obtain ⟨hstored, hcredentials⟩ := started_kept hfound hpart
    (hbranch.imp_right fun h => h (saves_noAuthFaults _ _))
  have hsessions : (startedState apiKey found).sessions = fun _ => {} := by
    cases hfound with
    | @factory loaded hloaded hneeds =>
        cases hloaded with
        | closed => rfl
        | read husername hpassHash hapiKey hhaHash => rfl
    | saved hloaded hneeds hsessions =>
        dsimp only [startedState, enabledState]
        rcases hsessions with rfl | ⟨rfl, -⟩
        · rw [hnone, hloaded.sessions_eq]
          rfl
        · exact hloaded.sessions_eq
  refine ⟨rfl, ⟨nofun, ?_, ?_, ?_⟩, ?_, hcredentials, hfound.username_le⟩
  · rw [hsessions]
    exact nofun
  · rw [hsessions]
    exact nofun
  · rintro token created ⟨pre, evicted, post, hsplit, -⟩
    cases (List.append_eq_nil_iff.mp hsplit.symm).2
  · dsimp only [Nvs.stored_ofContents]
    rw [hstored, hnone, hsessions]
    rfl

/-- A reboot restores the table. -/
lemma SessionsKept.rebooted (h : SessionsKept sha log (.ofContents c, ram)) {apiKey : List UInt8}
    {s : Nvs AuthKey × AuthState}
    (hstart : Succeeds (authMgrInit (hashed sha) apiKey) (.ofContents c, {}) () s) :
    SessionsKept sha (log ++ [.rebooted]) s := by
  obtain ⟨n, ram'⟩ := s
  obtain ⟨c', hc', found, hfound, hram, hpart, hbranch⟩ :=
    hstart.post (wp_authMgrInit (fun _ => trivial) c {} apiKey)
  dsimp only at hc' hram hpart hbranch
  subst hc' hram
  obtain ⟨hstored, hcredentials⟩ := started_kept hfound hpart
    (hbranch.imp_right fun h => h (saves_noAuthFaults _ _))
  have hsaved : storedSessions c = activeSessions ram.sessions := h.saved
  have hsessions : (startedState apiKey found).sessions
      = restoreSessions (fun _ => {}) (activeSessions ram.sessions) := by
    cases hfound with
    | factory hloaded hneeds =>
        exact absurd hneeds (h.credentials.found (fun op fault hf => hf) hloaded)
    | saved hloaded hneeds hsessions =>
        dsimp only [startedState, enabledState]
        rw [← hsaved, ← hloaded.sessions_eq]
        exact hsessions.resolve_right fun hand => hand.2 ⟨fun e reached hf => (nomatch hf),
          fun length e reached hf => (nomatch hf)⟩
  refine ⟨rfl, ?_, ?_, hcredentials, hfound.username_le⟩
  · dsimp only
    rw [hsessions]
    exact h.represents.reboot
  · dsimp only [Nvs.stored_ofContents]
    rw [hstored, hsessions, activeSessions_restoreSessions (length_activeSessions_le _), hsaved]

/-- A change of the credentials ends every session. -/
lemma SessionsKept.changed (h : SessionsKept sha log (.ofContents c, ram))
    {username password : Option (List UInt8)} {ok : Bool} {s : Nvs AuthKey × AuthState}
    (hcall : Succeeds (setCredentials (hashed sha) username password) (.ofContents c, ram) ok s)
    (hgiven : credentialsGiven username password) :
    SessionsKept sha (log ++ [.credentialsChanged]) s := by
  obtain ⟨n, ram'⟩ := s
  obtain ⟨c', hc', hpost⟩ := hcall.post (wp_setCredentials (fun _ => trivial) c ram username password)
  rw [if_pos hgiven] at hpost
  obtain ⟨hram, c₁, hsessions, hsettings⟩ := hpost
  rw [if_pos (by exact fun password' _ => rfl)] at hsettings
  dsimp only at hc' hram
  subst hc' hram
  have husername : (changedCredentials (hashed sha) username password ram).username.length
      ≤ authMaxUsernameLen := by
    have hwith : (withUsername username ram).username.length ≤ authMaxUsernameLen := by
      rw [withUsername]
      split
      · exact h.username
      · exact List.length_take_le _ _
    rw [changedCredentials]
    split
    · exact hwith
    · exact hwith
  refine ⟨rfl, h.represents.clear rfl fun _ _ => trivial, storedSessions_of_saved hsessions
    (saves_noAuthFaults _ _), ?_, husername⟩
  refine (h.credentials.written hsettings.partly (fun _ => settingsWrites_passHash)
    fun _ => settingsWrites_username husername).written hsessions.partly
    (fun _ hmem => by cases List.mem_singleton.mp hmem)
    fun _ hmem => by cases List.mem_singleton.mp hmem

/-- One step keeps the table, the list and the history together. -/
lemma SessionsKept.step (hinj : Set.InjOn sha {token | token.length = authSessionTokenLen})
    {s s' : Nvs AuthKey × AuthState} {event : Option SessionEvent} (h : SessionsKept sha log s)
    (hnodup : (issuedTokens (log ++ event.toList)).Nodup) (hstep : SessionStep sha s event s') :
    SessionsKept sha (log ++ event.toList) s' := by
  obtain ⟨n, ram⟩ := s
  obtain ⟨c, rfl⟩ : ∃ c, n = .ofContents c := ⟨_, h.settled.eq⟩
  have hnodup' : (issuedTokens log).Nodup := by
    rw [issuedTokens, List.filterMap_append] at hnodup
    exact (List.nodup_append.mp hnodup).1
  obtain ⟨n', ram'⟩ := s'
  cases hstep with
  | @login _ username password token now hlen hcall =>
      have hnew : token ∉ issuedTokens log := by
        rw [Option.toList_some, issuedTokens_append, List.nodup_append] at hnodup
        exact fun hmem => hnodup.2.2 token hmem token (List.mem_singleton_self _) rfl
      obtain ⟨c', hc', ⟨hnone, -⟩ | ⟨-, -, digest, -, -, -, hdigest, -, hram, hsaved⟩⟩ :=
        hcall.post (wp_login (fun _ => trivial) c ram username password token now)
      · cases hnone
      · cases hdigest
        dsimp only at hc' hram
        subst hc' hram
        exact h.tableSaved hsaved (h.represents.login hinj hlen hnew now)
  | @refused _ username password token now hcall =>
      obtain ⟨c', hc', ⟨-, hsame, hram⟩ | ⟨-, -, -, -, -, -, -, hsome, -⟩⟩ :=
        hcall.post (wp_login (fun _ => trivial) c ram username password token now)
      · dsimp only at hc' hram
        subst hc' hsame hram
        rw [Option.toList_none, List.append_nil]
        exact h
      · cases hsome
  | @validate _ token now now' ok hcall =>
      obtain ⟨c', hc', hok, hram, hsaved⟩ :=
        hcall.post (wp_validateSession (fun _ => trivial) c ram (some token) now now')
      have hrep := h.represents.validate hinj hnodup' token now now'
      rw [← hok] at hrep
      dsimp only at hc' hram
      subst hc' hram
      split at hsaved
      · exact h.tableSaved hsaved hrep
      · rename_i hkept
        subst hsaved
        refine h.table ?_ hrep
        rw [validated]
        cases hfound : findSession (hashed sha) ram.sessions (some token) with
        | none => rfl
        | some i =>
            rw [hfound] at hkept
            rw [sessionValid, hfound] at hok
            dsimp only at hok ⊢
            have hyoung : ¬ isSessionExpired (ram.sessions i) now = true := by
              intro hexp
              rw [hexp] at hok
              exact hkept ⟨rfl, hok⟩
            rw [if_neg hyoung]
            exact activeSessions_update rfl rfl rfl
  | @validateNull _ now now' ok hcall =>
      obtain ⟨c', hc', -, hram, hsaved⟩ :=
        hcall.post (wp_validateSession (fun _ => trivial) c ram none now now')
      rw [if_neg fun hand => Bool.false_ne_true hand.1] at hsaved
      dsimp only at hc' hram
      subst hc' hram hsaved
      rw [Option.toList_none, List.append_nil]
      exact h
  | @logout _ token hcall =>
      obtain ⟨c', hc', hram, hsaved⟩ :=
        hcall.post (wp_logout (fun _ => trivial) c ram (some token))
      have hrep := h.represents.logout hinj token
      dsimp only at hc' hram
      subst hc' hram
      split at hsaved
      · exact h.tableSaved hsaved hrep
      · rename_i hnone
        subst hsaved
        refine h.table ?_ hrep
        rw [loggedOut, Option.not_isSome_iff_eq_none.mp hnone]
  | @logoutNull _ hcall =>
      obtain ⟨c', hc', hram, hsaved⟩ := hcall.post (wp_logout (fun _ => trivial) c ram none)
      rw [if_neg (by exact Bool.false_ne_true)] at hsaved
      dsimp only at hc' hram
      subst hc' hram hsaved
      rw [Option.toList_none, List.append_nil]
      exact h
  | logoutAll hcall =>
      obtain ⟨c', hc', hsaved, hram⟩ := hcall.post (wp_logoutAll (fun _ => trivial) c ram)
      dsimp only at hc' hram
      subst hc' hram
      exact h.tableSaved hsaved (h.represents.clear rfl fun _ _ => trivial)
  | @setCredentials _ username password ok hcall =>
      by_cases hgiven : credentialsGiven username password
      · rw [if_pos hgiven]
        exact h.changed hcall hgiven
      · rw [if_neg hgiven, Option.toList_none, List.append_nil]
        obtain ⟨c', hc', hpost⟩ :=
          hcall.post (wp_setCredentials (fun _ => trivial) c ram username password)
        rw [if_neg hgiven] at hpost
        obtain ⟨-, hsame, hram⟩ := hpost
        dsimp only at hc' hram
        subst hc' hsame hram
        exact h
  | reboot hcall => exact h.rebooted hcall

/-- After every run the table, the list and the history agree. -/
lemma SessionsKept.run (hinj : Set.InjOn sha {token | token.length = authSessionTokenLen})
    {s₀ s : Nvs AuthKey × AuthState} (h₀ : SessionsKept sha [] s₀)
    (hrun : Run (SessionStep sha) s₀ s log) (hnodup : (issuedTokens log).Nodup) :
    SessionsKept sha log s := by
  refine hrun.invariant (I := fun s log => (issuedTokens log).Nodup → SessionsKept sha log s)
    (fun _ => h₀) ?_ hnodup
  intro s log event s' _ ih hstep hnodup
  refine (ih ?_).step hinj hnodup hstep
  rw [issuedTokens, List.filterMap_append] at hnodup
  exact (List.nodup_append.mp hnodup).1

/-- **Web session tokens, exactly.** Over every run a validation accepts a token exactly
if an earlier login issued it and since then nothing ended its session; a login evicts
only when every slot is taken and then a session with the smallest last use; and the
saved list is at all times the active sessions, which are the live ones. -/
theorem sessions_exact (hinj : Set.InjOn sha {token | token.length = authSessionTokenLen})
    {saved : AuthContents} (hnone : storedSessions saved = []) {apiKey : List UInt8}
    {s₀ s : Nvs AuthKey × AuthState}
    (hstart : Succeeds (authMgrInit (hashed sha) apiKey) (.ofContents saved, {}) () s₀)
    (hrun : Run (SessionStep sha) s₀ s log) (hnodup : (issuedTokens log).Nodup) :
    (∀ pre token now now' ok post, log = pre ++ .validated token now now' ok :: post →
      (ok = true ↔ ∃ created, Live sha pre token created ∧ ¬ TooOld created now)) ∧
    (∀ pre token now evicted post, log = pre ++ .loggedIn token now evicted :: post →
      Evicts sha pre evicted) ∧
    s.1.Settled ∧ storedSessions s.1.stored = activeSessions s.2.sessions ∧
    ∀ saved, saved ∈ activeSessions s.2.sessions ↔
      ∃ token, Live sha log token saved.1 ∧ sha token = saved.2 := by
  have h₀ := SessionsKept.first hstart hnone
  have hpre : ∀ {pre event post}, log = pre ++ event :: post → (issuedTokens pre).Nodup := by
    rintro pre event post rfl
    rw [issuedTokens, List.filterMap_append] at hnodup
    exact (List.nodup_append.mp hnodup).1
  refine ⟨fun pre token now now' ok post hsplit => ?_, fun pre token now evicted post hsplit => ?_, ?_⟩
  · obtain ⟨s₁, s₂, hrun₁, hstep, -⟩ := hrun.event pre _ post hsplit
    have h₁ := SessionsKept.run hinj h₀ hrun₁ (hpre hsplit)
    obtain ⟨n, ram⟩ := s₁
    obtain ⟨c, rfl⟩ : ∃ c, n = .ofContents c := ⟨_, h₁.settled.eq⟩
    generalize hevent : some (SessionEvent.validated token now now' ok) = event at hstep
    cases hstep with
    | validate hcall =>
        cases hevent
        obtain ⟨-, -, hok, -⟩ :=
          hcall.post (wp_validateSession (fun _ => trivial) c ram (some token) now now')
        rw [hok]
        exact h₁.represents.valid_iff hinj (hpre hsplit) token now
    | setCredentials hcall =>
        split at hevent <;> cases hevent
    | login | refused | validateNull | logout | logoutNull | logoutAll | reboot => cases hevent
  · obtain ⟨s₁, s₂, hrun₁, hstep, -⟩ := hrun.event pre _ post hsplit
    have h₁ := SessionsKept.run hinj h₀ hrun₁ (hpre hsplit)
    generalize hevent : some (SessionEvent.loggedIn token now evicted) = event at hstep
    cases hstep with
    | login hlen hcall =>
        cases hevent
        exact h₁.represents.evicts hinj (hpre hsplit)
    | setCredentials hcall =>
        split at hevent <;> cases hevent
    | validate | refused | validateNull | logout | logoutNull | logoutAll | reboot => cases hevent
  · have h := SessionsKept.run hinj h₀ hrun hnodup
    refine ⟨h.settled, h.saved, fun saved => ?_⟩
    rw [mem_activeSessions]
    constructor
    · rintro ⟨i, hactive, rfl⟩
      obtain ⟨token, hlive, hdigest, -⟩ := h.represents.sound i hactive
      exact ⟨token, hlive, hdigest.symm⟩
    · rintro ⟨token, hlive, hdigest⟩
      obtain ⟨i, hactive, hi, hcreated, -⟩ := h.represents.slot hnodup hinj hlive
      exact ⟨i, hactive, Prod.ext hcreated (hi.trans hdigest)⟩

end Runs

/-! ### A run with one login -/

/-- A fresh controller. -/
def loginStart : Nvs AuthKey × AuthState :=
  (authMgrInit (hashed Digest.ofBytes) (List.replicate authApiKeyLen 0x6b)
    (.ofContents fun _ => none, {}) []).state

/-- A login with the factory credentials on it. -/
def loginOnce : Nvs AuthKey × AuthState :=
  (login (hashed Digest.ofBytes) (some authFactoryUsername) (some authFactoryPassword)
    (List.replicate authSessionTokenLen 0x74) 5 loginStart []).state

/-- Without faults a call succeeds. -/
lemma succeeds_nil {α : Type} {m : AuthM α} {s : Nvs AuthKey × AuthState} {a : α}
    (hops : ∀ p ∈ (m s []).ops, p.2 = .none) (hout : (m s []).out = .val a) :
    Succeeds m s a (m s []).state :=
  ⟨[], hops, hout, rfl⟩

/-- Different short strings have different first 32 bytes. -/
lemma ofBytes_injOn :
    Set.InjOn Digest.ofBytes {token | token.length = authSessionTokenLen} := by
  intro x hx y hy h
  refine List.ext_getElem (hx.trans hy.symm) fun i hi hi' => ?_
  have hlt : i < 32 := hi.trans_eq hx
  have hi := congrArg (fun digest : Digest => digest[i]) h
  dsimp only [Digest.ofBytes] at hi
  rw [Vector.getElem_ofFn, Vector.getElem_ofFn] at hi
  rwa [List.getD_eq_getElem _ _ ‹_›, List.getD_eq_getElem _ _ hi'] at hi

/-- The run of `sessions_exact` with one login: the slot was free, and the saved session
is the one the login issued. -/
theorem sessions_exact_oneLogin :
    Evicts Digest.ofBytes [] none ∧
    ∀ saved, saved ∈ activeSessions loginOnce.2.sessions ↔
      ∃ token, Live Digest.ofBytes
        [.loggedIn (List.replicate authSessionTokenLen 0x74) 5 (evictedBy loginStart.2.sessions)]
        token saved.1 ∧ Digest.ofBytes token = saved.2 := by
  have hstart : Succeeds (authMgrInit (hashed Digest.ofBytes) (List.replicate authApiKeyLen 0x6b))
      (.ofContents fun _ => none, {}) () loginStart :=
    succeeds_nil (by decide +kernel) (by decide +kernel)
  have hlogin : Succeeds (login (hashed Digest.ofBytes) (some authFactoryUsername)
      (some authFactoryPassword) (List.replicate authSessionTokenLen 0x74) 5) loginStart
      (some (List.replicate authSessionTokenLen 0x74)) loginOnce :=
    succeeds_nil (by decide +kernel) (by decide +kernel)
  obtain ⟨-, hevicts, -, -, hsaved⟩ := sessions_exact ofBytes_injOn rfl hstart
    (Run.start.step (.login List.length_replicate hlogin)) (List.nodup_singleton _)
  have hfree : evictedBy loginStart.2.sessions = none := by decide +kernel
  refine ⟨?_, hsaved⟩
  have h := hevicts [] _ 5 _ [] rfl
  rwa [hfree] at h

end ArcticController

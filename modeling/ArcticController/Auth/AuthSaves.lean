/-
What loading and saving does to the namespace `auth`, whatever NVS call fails.

* `Leaves`: the usual postcondition: a call that ends left nothing to commit, and one
  that was cut left contents of which something is known (`wp_bind_leaves`);
* `Rely.Saves`, `Rely.Reads`: the calls that do not fail;
* `PartlyWritten`: some of a list of values were written;
* `Saved`, `wp_saveSettings`, `wp_saveBlob`, `wp_eraseIntegrationHash`: what saving
  leaves;
* `LoadedFrom`, `wp_loadFromNvs`, `wp_loadSessions`: what loading finds.
-/
import ArcticController.Auth.AuthManager

namespace ArcticController

/-! ### Which calls do not fail -/

section Relies

variable {K : Type}

/-- The namespace opens. -/
def Rely.Opens (R : Rely NvsFault (NvsOp K)) : Prop :=
  ∀ e reached, ¬ R.allowed .open (.error e reached)

/-- A value under this key is read. -/
def Rely.Reads (R : Rely NvsFault (NvsOp K)) (key : K) : Prop :=
  ∀ length e reached, ¬ R.allowed (.getBlob key length) (.error e reached)

/-- A value written under this key reaches the flash. -/
structure Rely.Saves (R : Rely NvsFault (NvsOp K)) (key : K) : Prop where
  opens : R.Opens
  sets : ∀ value e reached, ¬ R.allowed (.setBlob key value) (.error e reached)
  commits : ∀ e, ¬ R.allowed .commit (.error e false)

end Relies

/-! ### What a call leaves -/

/-- The contents of the namespace. -/
abbrev AuthContents : Type := AuthKey → Option (List UInt8)

section Leaves

variable {α β : Type}

/-- A call that ended left nothing to commit and satisfies `good`; one that was cut left
contents that satisfy `cut`. -/
def Leaves (cut : AuthContents → Prop) (good : α → AuthContents → Prop) :
    Outcome EspErr α → Nvs AuthKey → Prop
  | .val a, n => ∃ c, n = .ofContents c ∧ good a c
  | .err _, _ => False
  | .cut, n => cut n.stored

/-- The same for a call that also changes the state in RAM. -/
def AuthLeaves (cut : AuthContents → Prop) (good : α → AuthContents → AuthState → Prop) :
    Outcome EspErr α → Nvs AuthKey × AuthState → Prop
  | .val a, s => ∃ c, s.1 = .ofContents c ∧ good a c s.2
  | .err _, _ => False
  | .cut, s => cut s.1.stored

variable {R : Rely NvsFault AuthOp} {cut cut' : AuthContents → Prop}
  {good : α → AuthContents → AuthState → Prop} {good' : β → AuthContents → AuthState → Prop}
  {s : Nvs AuthKey × AuthState} {c : AuthContents} {ram : AuthState}

lemma wp_leaves_mono {good' : α → AuthContents → AuthState → Prop} {m : AuthM α}
    (h : wp R m (AuthLeaves cut good) s) (hgood : ∀ a c ram, good a c ram → good' a c ram)
    (hcut : ∀ c, cut c → cut' c) : wp R m (AuthLeaves cut' good') s := by
  refine wp_mono h fun o s' ho => ?_
  cases o with
  | val a =>
      obtain ⟨c, hc, ha⟩ := ho
      exact ⟨c, hc, hgood a c _ ha⟩
  | err e => exact ho
  | cut => exact hcut _ ho

lemma wp_bind_leaves {m : AuthM α} {k : α → AuthM β} (h : wp R m (AuthLeaves cut good) s)
    (hk : ∀ a c ram, good a c ram → wp R (k a) (AuthLeaves cut' good') (.ofContents c, ram))
    (hcut : ∀ c, cut c → cut' c) : wp R (m >>= k) (AuthLeaves cut' good') s := by
  refine wp_bind (wp_mono h fun o s' ho => ?_)
  cases o with
  | val a =>
      obtain ⟨n, ram⟩ := s'
      obtain ⟨c, rfl, ha⟩ := ho
      exact hk a c ram ha
  | err e => exact ho.elim
  | cut => exact hcut _ ho

lemma wp_pure_leaves {a : α} (h : good a c ram) :
    wp R (pure a : AuthM α) (AuthLeaves cut good) (.ofContents c, ram) :=
  wp_pure ⟨c, rfl, h⟩

lemma wp_getState_bind {k : AuthState → AuthM α} {Q : Outcome EspErr α → Nvs AuthKey × AuthState → Prop}
    (h : wp R (k s.2) Q s) : wp R (getState >>= k) Q s :=
  wp_bind (wp_bind (wp_get (wp_pure h)))

lemma wp_setState_bind {k : Unit → AuthM α} {Q : Outcome EspErr α → Nvs AuthKey × AuthState → Prop}
    {ram : AuthState} (h : wp R (k ()) Q (s.1, ram)) : wp R (setState ram >>= k) Q s :=
  wp_modify_bind h

lemma wp_setSessions_bind {k : Unit → AuthM α}
    {Q : Outcome EspErr α → Nvs AuthKey × AuthState → Prop} {sessions : Sessions}
    (h : wp R (k ()) Q (s.1, { s.2 with sessions })) : wp R (setSessions sessions >>= k) Q s :=
  wp_bind (wp_getState_bind (wp_modify h))

/-- What the namespace does is seen through the site that called it. -/
lemma wp_atSite {site : AuthSite} {m : NvsM AuthKey α} {good : α → AuthContents → Prop}
    (h : wp (R.comap fun op => (site, op)) m (Leaves cut good) (.ofContents c)) :
    wp R (atSite site m) (AuthLeaves cut fun a c ram' => good a c ∧ ram' = ram)
      (.ofContents c, ram) := by
  refine wp_zoom (wp_relabel (wp_mono h fun o n ho => ?_))
  cases o with
  | val a =>
      obtain ⟨c, hc, ha⟩ := ho
      exact ⟨c, hc, ha, rfl⟩
  | err e => exact ho
  | cut => exact ho

end Leaves

/-! ### Saving -/

section Saving

variable {R : Rely NvsFault (NvsOp AuthKey)} (hp : ∀ op, R.promise op)

/-- The namespace after some of a list of values were written. -/
def PartlyWritten (writes : List (AuthKey × List UInt8)) (c c' : AuthContents) : Prop :=
  ∀ key, c' key = c key ∨ ∃ value, (key, value) ∈ writes ∧ c' key = some value

lemma PartlyWritten.refl (writes : List (AuthKey × List UInt8)) (c : AuthContents) :
    PartlyWritten writes c c := fun _ => .inl rfl

/-- A key that is not written keeps its value. -/
lemma PartlyWritten.of_notMem {writes : List (AuthKey × List UInt8)} {c c' : AuthContents}
    (h : PartlyWritten writes c c') {key : AuthKey} (hkey : ∀ value, (key, value) ∉ writes) :
    c' key = c key := by
  rcases h key with h | ⟨value, hmem, -⟩
  · exact h
  · exact absurd hmem (hkey value)

lemma PartlyWritten.trans {writes writes' : List (AuthKey × List UInt8)} {c c' c'' : AuthContents}
    (h : PartlyWritten writes c c') (h' : PartlyWritten writes' c' c'')
    (hsub : writes ⊆ writes') : PartlyWritten writes' c c'' := by
  intro key
  rcases h' key with h' | h'
  · rw [h']
    rcases h key with h | ⟨value, hmem, h⟩
    · exact .inl h
    · exact .inr ⟨value, hsub hmem, h⟩
  · exact .inr h'

include hp

/-- Handing values over: the ones that were taken stand behind the others. By induction
on the list, with what is in the namespace generalised. -/
lemma wp_recordWrites : ∀ (writes : List (AuthKey × List UInt8)), (writes.map Prod.fst).Nodup →
    ∀ n : Nvs AuthKey, wp R (recordWrites writes) (fun o n' => n'.stored = n.stored ∧
      PartlyWritten writes n.written n'.written ∧
      match o with
      | .val taken => ∀ key value, taken = true ∨
          (∀ value e reached, ¬ R.allowed (.setBlob key value) (.error e reached)) →
          (key, value) ∈ writes → n'.written key = some value
      | .err _ => False
      | .cut => True) n := by
  intro writes
  induction writes with
  | nil => exact fun _ n => wp_pure ⟨rfl, .refl _ _, fun _ _ _ h => absurd h List.not_mem_nil⟩
  | cons write writes ih =>
      intro hnodup n
      obtain ⟨key, value⟩ := write
      obtain ⟨hnot, hnodup⟩ := List.nodup_cons.mp hnodup
      have hnot' : ∀ value', (key, value') ∉ writes := fun value' hmem =>
        hnot (List.mem_map.mpr ⟨_, hmem, rfl⟩)
      refine wp_attempt_setBlob (hp _) ?_ (fun e reached hf => ?_) ?_
      · refine wp_bind (wp_mono (ih hnodup _) fun o n' ho => ?_)
        obtain ⟨hstored, hpart, ho⟩ := ho
        have hkey : n'.written key = some value := by
          rw [hpart.of_notMem hnot']
          exact Function.update_self _ _ _
        have hpart' : PartlyWritten ((key, value) :: writes) n.written n'.written := by
          intro key'
          rcases eq_or_ne key' key with rfl | hne
          · exact .inr ⟨value, List.mem_cons_self, hkey⟩
          · rcases hpart key' with h | ⟨value', hmem, h⟩
            · exact .inl (h.trans (Function.update_of_ne hne _ _))
            · exact .inr ⟨value', List.mem_cons_of_mem _ hmem, h⟩
        cases o with
        | val taken =>
            rw [andThen_val]
            refine wp_pure ?_
            refine ⟨hstored, hpart', fun key' value' htaken hmem => ?_⟩
            rcases List.mem_cons.mp hmem with heq | hmem
            · obtain ⟨rfl, rfl⟩ := Prod.mk.inj heq
              exact hkey
            · refine ho key' value' (htaken.imp_left fun h => ?_) hmem
              simpa [Except.isOk, Except.toBool] using h
        | err e => exact ho.elim
        | cut => exact ⟨hstored, hpart', trivial⟩
      · refine wp_bind (wp_mono (ih hnodup _) fun o n' ho => ?_)
        obtain ⟨hstored, hpart, ho⟩ := ho
        have hpart' : PartlyWritten ((key, value) :: writes) n.written n'.written := fun key' =>
          (hpart key').imp_right fun ⟨value', hmem, h⟩ => ⟨value', List.mem_cons_of_mem _ hmem, h⟩
        cases o with
        | val taken =>
            rw [andThen_val]
            refine wp_pure ?_
            refine ⟨hstored, hpart', fun key' value' htaken hmem => ?_⟩
            replace htaken := htaken.resolve_left (by simp [Except.isOk, Except.toBool])
            rcases List.mem_cons.mp hmem with heq | hmem
            · obtain ⟨rfl, rfl⟩ := Prod.mk.inj heq
              exact absurd hf (htaken _ _ _)
            · exact ho key' value' (.inr htaken) hmem
        | err e => exact ho.elim
        | cut => exact ⟨hstored, hpart', trivial⟩
      · exact ⟨rfl, .refl _ _, trivial⟩

omit hp in
/-- Each key is written once. -/
lemma nodup_settingsWrites (ram : AuthState) : ((settingsWrites ram).map Prod.fst).Nodup := by
  rw [settingsWrites]
  split <;> split <;> split <;> simp

/-- The namespace after saving a list of values: `ok` promises all of them. -/
structure Saved (R : Rely NvsFault (NvsOp AuthKey)) (writes : List (AuthKey × List UInt8))
    (ok : Bool) (c c' : AuthContents) : Prop where
  partly : PartlyWritten writes c c'
  saved : ∀ key value, ok = true ∨ R.Saves key → (key, value) ∈ writes → c' key = some value

/-- Saving the settings. -/
lemma wp_saveSettings (ram : AuthState) (c : AuthContents) :
    wp R (saveSettings ram) (Leaves (PartlyWritten (settingsWrites ram) c) fun ok c' =>
      Saved R (settingsWrites ram) ok c c') (.ofContents c) := by
  refine wp_attempt_plain (hp _) ?_ (fun e reached hf => ?_) (.refl _ _)
  · refine wp_bind (wp_mono (wp_recordWrites hp _ (nodup_settingsWrites ram) _) fun o n ho => ?_)
    obtain ⟨hstored, hpart, ho⟩ := ho
    rw [Nvs.stored_ofContents] at hstored
    rw [Nvs.written_ofContents] at hpart
    cases o with
    | err e => exact ho.elim
    | cut => exact hstored ▸ .refl _ _
    | val recorded =>
        refine wp_attempt_commit (hp _) ?_ (fun e landed hf => ?_) (fun landed _ => ?_)
        · refine wp_pure ?_
          refine ⟨_, rfl, hpart, fun key value hsaved hmem => ho key value ?_ hmem⟩
          exact hsaved.imp (fun h => by simpa [Except.isOk, Except.toBool] using h) (·.sets)
        · refine wp_pure ?_
          cases landed with
          | true =>
              refine ⟨_, rfl, hpart, fun key value hsaved hmem => ho key value ?_ hmem⟩
              exact hsaved.imp (fun h => by simp [Except.isOk, Except.toBool] at h) (·.sets)
          | false =>
              refine ⟨_, rfl, hstored ▸ .refl _ _, fun key value hsaved hmem => ?_⟩
              rcases hsaved with hsaved | hsaved
              · simp [Except.isOk, Except.toBool] at hsaved
              · exact absurd hf (hsaved.commits e)
        · cases landed with
          | true => exact hpart
          | false => exact hstored ▸ .refl _ _
  · refine wp_pure ?_
    refine ⟨_, rfl, .refl _ _, fun key value hsaved _ => ?_⟩
    exact absurd hf (hsaved.resolve_left Bool.false_ne_true |>.opens e reached)

omit hp in
/-- One value that was written, and one that was not. -/
lemma saved_one {key : AuthKey} {value : List UInt8} {ok : Bool} {c : AuthContents} :
    Saved R [(key, value)] ok c (Function.update c key (some value)) where
  partly key' := by
    rcases eq_or_ne key' key with rfl | hne
    · exact .inr ⟨value, List.mem_singleton_self _, Function.update_self _ _ _⟩
    · exact .inl (Function.update_of_ne hne _ _)
  saved key' value' _ hmem := by
    obtain ⟨rfl, rfl⟩ := Prod.mk.inj (List.mem_singleton.mp hmem)
    exact Function.update_self _ _ _

omit hp in
lemma unsaved_one {key : AuthKey} {value : List UInt8} {c : AuthContents}
    (h : ¬ R.Saves key) : Saved R [(key, value)] false c c where
  partly := .refl _ _
  saved key' value' hsaved hmem := by
    obtain ⟨rfl, rfl⟩ := Prod.mk.inj (List.mem_singleton.mp hmem)
    exact absurd (hsaved.resolve_left Bool.false_ne_true) h

/-- Saving one blob. -/
lemma wp_saveBlob (key : AuthKey) (blob : List UInt8) (c : AuthContents) :
    wp R (saveBlob key blob) (Leaves (PartlyWritten [(key, blob)] c) fun ok c' =>
      Saved R [(key, blob)] ok c c') (.ofContents c) := by
  refine wp_attempt_plain (hp _) ?_ (fun e reached hf => ?_) (.refl _ _)
  · refine wp_attempt_setBlob (hp _) ?_ (fun e reached hf => ?_) (.refl _ _)
    · refine wp_attempt_commit (hp _) ?_ (fun e landed hf => ?_) (fun landed _ => ?_)
      · exact wp_pure ⟨_, rfl, saved_one⟩
      · refine wp_pure ?_
        cases landed with
        | true => exact ⟨_, rfl, saved_one⟩
        | false => exact ⟨_, rfl, unsaved_one fun h => h.commits e hf⟩
      · cases landed with
        | true => exact (@saved_one R _ _ false _).partly
        | false => exact .refl _ _
    · exact wp_pure ⟨_, rfl, unsaved_one fun h => h.sets _ e reached hf⟩
  · exact wp_pure ⟨_, rfl, unsaved_one fun h => h.opens e reached hf⟩

/-- Saving the session list. -/
lemma wp_saveSessionList (sessions : Sessions) (c : AuthContents) :
    wp R (saveSessionList sessions)
      (Leaves (PartlyWritten [(.sessions, sessionsBlob sessions)] c) fun _ c' =>
        Saved R [(.sessions, sessionsBlob sessions)] false c c') (.ofContents c) := by
  refine wp_bind (wp_mono (wp_saveBlob hp _ _ _) fun o n ho => ?_)
  cases o with
  | val ok =>
      obtain ⟨c', rfl, hsaved⟩ := ho
      rw [andThen_val]
      refine wp_pure ?_
      exact ⟨c', rfl, hsaved.partly, fun key value h hmem =>
        hsaved.saved key value (.inr (h.resolve_left Bool.false_ne_true)) hmem⟩
  | err e => exact ho
  | cut => exact ho

/-- Erasing it, where only a missing key reports that it is missing. -/
lemma wp_eraseIntegrationHash
    (hfound : ∀ reached, ¬ R.allowed (.eraseKey .haHash) (.error nvsNotFound reached))
    (c : AuthContents) :
    wp R eraseIntegrationHash (Leaves
      (fun c' => c' = c ∨ c' = Function.update c .haHash none)
      fun erased c' => (c' = c ∨ c' = Function.update c .haHash none) ∧
        (erased = true → c' = Function.update c .haHash none)) (.ofContents c) := by
  refine wp_attempt_plain (hp _) ?_ (fun e reached hf => ?_) (.inl rfl)
  · refine wp_attempt_eraseKey (hp _) ?_ (fun hnone => ?_) (fun e reached hf => ?_) (.inl rfl)
    · rw [if_pos (.inl rfl)]
      refine wp_attempt_commit (hp _) ?_ (fun e landed hf => ?_) (fun landed _ => ?_)
      · exact wp_pure ⟨_, rfl, .inr rfl, fun _ => rfl⟩
      · refine wp_pure ?_
        cases landed with
        | true => exact ⟨_, rfl, .inr rfl, fun _ => rfl⟩
        | false => exact ⟨_, rfl, .inl rfl, nofun⟩
      · cases landed with
        | true => exact .inr rfl
        | false => exact .inl rfl
    · have hgone : c = Function.update c .haHash none := by
        rw [Function.eq_update_self_iff]
        exact hnone
      rw [if_pos (.inr rfl)]
      refine wp_attempt_commit (hp _) ?_ (fun e landed hf => ?_) (fun landed _ => ?_)
      · exact wp_pure ⟨_, rfl, .inl rfl, fun _ => hgone⟩
      · refine wp_pure ?_
        cases landed with
        | true => exact ⟨_, rfl, .inl rfl, nofun⟩
        | false => exact ⟨_, rfl, .inl rfl, nofun⟩
      · cases landed with
        | true => exact .inl rfl
        | false => exact .inl rfl
    · have hne : e ≠ nvsNotFound := fun h => hfound reached (h ▸ hf)
      rw [if_neg (by simpa [Except.isOk, Except.toBool] using hne)]
      exact wp_pure ⟨_, rfl, .inl rfl, nofun⟩
  · exact wp_pure ⟨_, rfl, .inl rfl, nofun⟩

end Saving

/-! ### The session blob -/

lemma mem_activeSessions {sessions : Sessions} {p : Int64 × Digest} :
    p ∈ activeSessions sessions ↔
      ∃ i, (sessions i).active ∧ ((sessions i).createdAt, (sessions i).tokenHash) = p := by
  simp [activeSessions, List.mem_ofFn]

lemma length_activeSessions_le (sessions : Sessions) :
    (activeSessions sessions).length ≤ authMaxSessions := by
  rw [activeSessions, List.length_map]
  exact (List.length_filter_le _ _).trans_eq (List.length_ofFn)

lemma length_sessionsBlob (sessions : Sessions) :
    (sessionsBlob sessions).length = 2 + (activeSessions sessions).length * storedSession.size := by
  rw [sessionsBlob, List.length_cons, List.length_cons, Codec.length_flatMap_enc]
  omega

/-- A saved list fits the buffer it is read into. -/
lemma length_sessionsBlob_le (sessions : Sessions) :
    (sessionsBlob sessions).length ≤ storedSessionsSize := by
  rw [length_sessionsBlob, storedSessionsSize]
  exact Nat.add_le_add_left (Nat.mul_le_mul_right _ (length_activeSessions_le sessions)) _

/-- **The session list survives a reboot**: what was saved is read back. -/
theorem savedSessions_sessionsBlob (sessions : Sessions) :
    savedSessions (sessionsBlob sessions) = some (activeSessions sessions) := by
  have hle := length_activeSessions_le sessions
  have hcount : (UInt8.ofNat (activeSessions sessions).length).toNat
      = (activeSessions sessions).length := by
    rw [UInt8.toNat_ofNat']
    exact Nat.mod_eq_of_lt (lt_of_le_of_lt hle (by decide))
  have hlen := length_sessionsBlob sessions
  have h0 : (sessionsBlob sessions).getD 0 0 = sessionsBlobVersion := rfl
  have h1 : ((sessionsBlob sessions).getD 1 0).toNat = (activeSessions sessions).length := hcount
  have hgood : ¬ ((sessionsBlob sessions).length < 2 ∨ sessionsBlobVersion ≠ sessionsBlobVersion ∨
      authMaxSessions < (activeSessions sessions).length ∨
      (sessionsBlob sessions).length ≠ 2 + (activeSessions sessions).length * storedSession.size) := by
    rintro (h | h | h | h)
    · omega
    · exact h rfl
    · omega
    · exact h hlen
  rw [savedSessions, h0, h1, if_neg hgood]
  refine congrArg some (List.ext_getElem (by simp) fun i hi hi' => ?_)
  rw [List.getElem_map, List.getElem_range]
  have hdrop := Codec.drop_flatMap_enc storedSession (activeSessions sessions) [] i hi'
  rw [List.append_nil] at hdrop
  rw [sessionsBlob, Nat.add_comm 2, List.drop_succ_cons, List.drop_succ_cons, hdrop,
    Codec.dec_enc_append]

/-! ### Loading -/

section Loading

variable {R : Rely NvsFault (NvsOp AuthKey)} (hp : ∀ op, R.promise op)

/-- What reading a value may give. -/
def ReadFrom (R : Rely NvsFault (NvsOp AuthKey)) (c : AuthContents) (key : AuthKey) (length : ℕ)
    (r : Except EspErr (List UInt8)) : Prop :=
  r = (Nvs.ofContents c).read key length ∨ (∃ e, r = .error e) ∧ ¬ R.Reads key

/-- A value that was read is the one that is stored. -/
lemma ReadFrom.ok {c : AuthContents} {key : AuthKey} {length : ℕ} {value : List UInt8}
    (h : ReadFrom R c key length (.ok value)) : c key = some value ∧ value.length ≤ length := by
  rcases h with h | ⟨⟨e, h⟩, -⟩
  · rw [Nvs.read, Nvs.written_ofContents] at h
    cases hkey : c key with
    | none => simp [hkey] at h
    | some stored =>
        rw [hkey] at h
        dsimp only at h
        split at h
        · cases h
        · cases h
          exact ⟨rfl, not_lt.mp ‹_›⟩
  · cases h

/-- What loading the settings may give. -/
inductive LoadedFrom (R : Rely NvsFault (NvsOp AuthKey)) (c : AuthContents) :
    Option AuthState → Prop where
  | closed (h : ¬ R.Opens) : LoadedFrom R c none
  | read {webEn apiEn username passHash apiKey haHash : Except EspErr (List UInt8)}
      (husername : ReadFrom R c .username authMaxUsernameLen username)
      (hpassHash : ReadFrom R c .passHash 32 passHash)
      (hapiKey : ReadFrom R c .apiKey authApiKeyLen apiKey)
      (hhaHash : ReadFrom R c .haHash 32 haHash) :
      LoadedFrom R c (some
        { webAuthEnabled := loadedFlag webEn
          apiAuthEnabled := loadedFlag apiEn
          username := loadedString username
          passwordHash := (passHash.toOption.map Digest.ofBytes).getD .zero
          passwordSet := passHash.toOption.isSome
          apiKey := loadedString apiKey
          integration := .load haHash.toOption })

include hp

/-- One value read, and what comes after. -/
lemma wp_readValue {α : Type} {k : Except EspErr (List UInt8) → NvsM AuthKey α}
    {good : α → AuthContents → Prop} {c : AuthContents} {key : AuthKey} {length : ℕ}
    (h : ∀ r, ReadFrom R c key length r → wp R (k r) (Leaves (· = c) good) (.ofContents c)) :
    wp R ((nvsGetBlob key length).attempt >>= k) (Leaves (· = c) good) (.ofContents c) :=
  wp_attempt_getBlob (hp _) (h _ (.inl rfl))
    (fun e _ hf => h _ (.inr ⟨⟨e, rfl⟩, fun hreads => hreads _ _ _ hf⟩)) rfl

/-- Loading the settings leaves them as they are. -/
lemma wp_loadFromNvs (c : AuthContents) :
    wp R loadFromNvs (Leaves (· = c) fun loaded c' => c' = c ∧ LoadedFrom R c loaded)
      (.ofContents c) := by
  refine wp_attempt_plain (hp _) ?_ (fun _ _ hf => ?_) rfl
  · refine wp_readValue hp fun webEn _ => wp_readValue hp fun apiEn _ => ?_
    refine wp_readValue hp fun username husername => wp_readValue hp fun passHash hpassHash => ?_
    refine wp_readValue hp fun apiKey hapiKey => wp_readValue hp fun haHash hhaHash => ?_
    exact wp_pure ⟨c, rfl, rfl, .read husername hpassHash hapiKey hhaHash⟩
  · exact wp_pure ⟨c, rfl, rfl, .closed fun h => h _ _ hf⟩

/-- The sessions a blob stands for; one that does not fit the buffer is not read. -/
def blobSessions (blob : List UInt8) : List (Int64 × Digest) :=
  if storedSessionsSize < blob.length then [] else (savedSessions blob).getD []

omit hp in
@[simp] lemma blobSessions_sessionsBlob (sessions : Sessions) :
    blobSessions (sessionsBlob sessions) = activeSessions sessions := by
  rw [blobSessions, if_neg (not_lt.mpr (length_sessionsBlob_le sessions)),
    savedSessions_sessionsBlob, Option.getD_some]

/-- The sessions a namespace holds. -/
def storedSessions (c : AuthContents) : List (Int64 × Digest) :=
  ((c .sessions).map blobSessions).getD []

/-- Loading the sessions gives all of them or none. -/
lemma wp_loadSessions (sessions : Sessions) (c : AuthContents) :
    wp R (loadSessions sessions) (Leaves (· = c) fun loaded c' => c' = c ∧
      (loaded = restoreSessions sessions (storedSessions c) ∨
        loaded = sessions ∧ ¬ (R.Opens ∧ R.Reads .sessions))) (.ofContents c) := by
  have hnil : restoreSessions sessions [] = sessions := rfl
  refine wp_attempt_plain (hp _) ?_ (fun _ _ hf => ?_) rfl
  · refine wp_readValue hp fun r hr => ?_
    rcases hr with rfl | ⟨⟨e, rfl⟩, hreads⟩
    · rw [Nvs.read, Nvs.written_ofContents]
      cases h : c .sessions with
      | none =>
          refine wp_pure ?_
          refine ⟨c, rfl, rfl, .inl ?_⟩
          rw [storedSessions, h, Option.map_none, Option.getD_none, hnil]
      | some blob =>
          dsimp only
          rw [storedSessions, h, Option.map_some, Option.getD_some, blobSessions]
          by_cases hlen : storedSessionsSize < blob.length
          · rw [if_pos hlen, if_pos hlen]
            exact wp_pure ⟨c, rfl, rfl, .inl hnil.symm⟩
          · rw [if_neg hlen, if_neg hlen]
            exact wp_pure ⟨c, rfl, rfl, .inl rfl⟩
    · exact wp_pure ⟨c, rfl, rfl, .inr ⟨rfl, fun h => hreads h.2⟩⟩
  · exact wp_pure ⟨c, rfl, rfl, .inr ⟨rfl, fun h => h.1 _ _ hf⟩⟩

end Loading

end ArcticController

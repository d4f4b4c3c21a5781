/-
What the calls of the TLS manager leave on flash when NVS calls fail or power is
lost.

* `oldValueKept`: a call that fails left the old value;
* `WebPair`, `StaleKey`, `IdentityStored`: what is on flash before a call;
* `sparesWebPair`, `sparesIdentity`: the faults that meet no stored pair;
* `StoreLeft`, `wp_tlsMgrStoreCerts`: what storing a pair leaves;
* `wp_tlsMgrClearCerts`: what clearing leaves;
* `BootLeft`, `wp_tlsMgrInit`: what a boot loads, generates and leaves.
-/
import ArcticController.Tls.TlsManager

namespace ArcticController

/-! ### Faults -/

/-- A call that fails left the old value; power is lost before or after a write. -/
def oldValueKept : Rely NvsFault (NvsOp TlsKey) where
  allowed _ f := ∀ e reached, f = .error e reached → reached = false
  promise _ := True

/-- A certificate and a key of the web server are on flash. -/
def WebPair (flash : NvsFlash TlsKey) : Prop := flash .cert ≠ none ∧ flash .key ≠ none

/-- Another key of the web server is on flash, with or without a certificate. -/
def StaleKey (flash : NvsFlash TlsKey) (key : List UInt8) : Prop :=
  flash .key ≠ none ∧ flash .key ≠ some key

/-- An identity is on flash. -/
def IdentityStored (flash : NvsFlash TlsKey) : Prop := flash .idCert ≠ none ∧ flash .idKey ≠ none

/-- No fault meets the pair that storing a pair with `key` replaces: with another key
on flash, power is not lost between the certificate and the key and the rollback
goes through, and with a pair on flash neither the write of the key nor a commit
fails. -/
def sparesWebPair (flash : NvsFlash TlsKey) (key : List UInt8) : Rely NvsFault (NvsOp TlsKey) where
  allowed op f := match op, f with
    | .setBlob .cert _, .cut true => ¬ StaleKey flash key
    | .setBlob .key _, .cut false => ¬ StaleKey flash key
    | .setBlob .key _, .error _ _ => ¬ WebPair flash
    | .eraseKey _, .cut false => ¬ StaleKey flash key
    | .eraseKey _, .error _ _ => ¬ StaleKey flash key
    | .commit, .error _ _ => ¬ WebPair flash
    | _, _ => True
  promise _ := True

/-- No fault meets the stored identity: with one on flash, neither opening the
namespace nor reading the identity fails where another could be generated. -/
def sparesIdentity (flash : NvsFlash TlsKey) (generated : Option Identity) :
    Rely NvsFault (NvsOp TlsKey) where
  allowed op f := match op, f with
    | .open, .error _ _ => IdentityStored flash → generated = none
    | .getBlob .idCert _, .error _ _ => IdentityStored flash → generated = none
    | .getBlob .idKey _, .error _ _ => IdentityStored flash → generated = none
    | _, _ => True
  promise _ := True

/-- The faults that two conditions allow. -/
def Rely.both {φ κ : Type} (R R' : Rely φ κ) : Rely φ κ :=
  ⟨fun op f => R.allowed op f ∧ R'.allowed op f, fun _ => True⟩

lemma Rely.covers_both {φ κ : Type} {R R' : Rely φ κ} {ops : List (κ × φ)} (h : R.Covers ops)
    (h' : R'.Covers ops) : (R.both R').Covers ops := fun p hp => ⟨h p hp, h' p hp⟩

/-! ### The rules of the manager -/

section Rules

variable {R : Rely NvsFault (NvsOp TlsKey)} {α β : Type} {flash : NvsFlash TlsKey} {ram : TlsState}

lemma wp_tlsState_bind {k : TlsState → TlsM α}
    {Q : Outcome EspErr α → NvsFlash TlsKey × TlsState → Prop}
    (h : wp R (k ram) Q (flash, ram)) : wp R (tlsState >>= k) Q (flash, ram) :=
  wp_bind (wp_bind (wp_get (wp_pure h)))

lemma wp_setTlsState_bind {g : TlsState → TlsState} {k : Unit → TlsM α}
    {Q : Outcome EspErr α → NvsFlash TlsKey × TlsState → Prop}
    (h : wp R (k ()) Q (flash, g ram)) : wp R (setTlsState g >>= k) Q (flash, ram) :=
  wp_modify_bind h

lemma wp_tlsNvs_bind {m : NvsFlashM TlsKey α} {k : Except EspErr α → TlsM β}
    {Q : Outcome EspErr β → NvsFlash TlsKey × TlsState → Prop}
    (h : wp R m.attempt (fun o flash' => andThen R k Q o (flash', ram)) flash) :
    wp R (tlsNvs m >>= k) Q (flash, ram) :=
  wp_bind (wp_zoom h)

end Rules

/-! ### Storing a pair -/

/-- What storing a pair leaves; `failed` says that the call returned `false`. -/
inductive StoreLeft (flash : NvsFlash TlsKey) (cert key : List UInt8) (failed : Prop) :
    NvsFlash TlsKey → Prop
  | untouched : StoreLeft flash cert key failed flash
  | certOnly (hkey : ¬ StaleKey flash key) (hpair : failed → ¬ WebPair flash) :
      StoreLeft flash cert key failed (Function.update flash .cert (some cert))
  | both (hpair : failed → ¬ WebPair flash) :
      StoreLeft flash cert key failed
        (Function.update (Function.update flash .cert (some cert)) .key (some key))
  | rolledBack (hpair : ¬ WebPair flash) :
      StoreLeft flash cert key failed
        (Function.update (Function.update flash .cert (some cert)) .cert none)

variable {crtParse : List UInt8 → Option (List UInt8)} {sha256 : List UInt8 → Digest}

variable {flash : NvsFlash TlsKey}

/-- The rollback after the key could not be written. -/
lemma wp_rollback {cert key : List UInt8} (ram : TlsState) (hpair : ¬ WebPair flash) :
    wp (oldValueKept.both (sparesWebPair flash key))
      (do
        let _ ← tlsNvs (NvsFlash.eraseKey TlsKey.cert)
        let _ ← tlsNvs NvsFlash.commit
        return false)
      (fun o s' => StoreLeft flash cert key (o = .val false) s'.1)
      (Function.update flash .cert (some cert), ram) := by
  have hcommit : ∀ flash', (∀ failed, StoreLeft flash cert key failed flash') →
      wp (oldValueKept.both (sparesWebPair flash key))
        (do
          let _ ← tlsNvs NvsFlash.commit
          return false)
        (fun o s' => StoreLeft flash cert key (o = .val false) s'.1) (flash', ram) := by
    intro flash' hleft
    refine wp_tlsNvs_bind (NvsFlash.wp_attempt_plain trivial ?_ (fun e reached _ => ?_) ?_)
    · rw [andThen_val]
      exact wp_pure (hleft (_ = _))
    · rw [andThen_val]
      exact wp_pure (hleft (_ = _))
    · exact hleft _
  refine wp_tlsNvs_bind (NvsFlash.wp_attempt_eraseKey trivial ?_ (fun h => ?_)
    (fun e reached hf => ?_) fun reached hf => ?_)
  · rw [andThen_val]
    exact hcommit _ fun _ => .rolledBack hpair
  · simp at h
  · obtain ⟨hold, hstale⟩ := hf
    obtain rfl := hold e reached rfl
    rw [andThen_val]
    exact hcommit _ fun _ => .certOnly hstale fun _ => hpair
  · cases reached with
    | true => exact StoreLeft.rolledBack hpair
    | false => exact StoreLeft.certOnly hf.2 fun _ => hpair

/-- The call, once the namespace is open. -/
lemma wp_storeCertsOpened {cert key : List UInt8} (ram : TlsState) :
    wp (oldValueKept.both (sparesWebPair flash key))
      (do
        match ← tlsNvs (NvsFlash.setValue TlsKey.cert cert) with
        | .error _ => return false
        | .ok _ =>
            match ← tlsNvs (NvsFlash.setValue .key key) with
            | .error _ =>
                let _ ← tlsNvs (NvsFlash.eraseKey .cert)
                let _ ← tlsNvs NvsFlash.commit
                return false
            | .ok _ =>
                match ← tlsNvs NvsFlash.commit with
                | .error _ => return false
                | .ok _ =>
                    setTlsState fun state => { state with cert, key, hasCerts := true }
                    return true)
      (fun o s' => StoreLeft flash cert key (o = .val false) s'.1) (flash, ram) := by
  refine wp_tlsNvs_bind (wp_attempt ?_)
  refine NvsFlash.wp_set trivial ?_ (fun e reached hf => ?_) fun reached hf => ?_
  · -- the certificate is written
    rw [attempted_val, andThen_val]
    refine wp_tlsNvs_bind (wp_attempt ?_)
    refine NvsFlash.wp_set trivial ?_ (fun e reached hf => ?_) fun reached hf => ?_
    · rw [attempted_val, andThen_val]
      refine wp_tlsNvs_bind (NvsFlash.wp_attempt_plain trivial ?_ (fun e reached hf => ?_) ?_)
      · rw [andThen_val]
        refine wp_setTlsState_bind (wp_pure ?_)
        exact .both nofun
      · rw [andThen_val]
        refine wp_pure ?_
        exact .both fun _ => hf.2
      · exact StoreLeft.both nofun
    · obtain ⟨hold, hpair⟩ := hf
      obtain rfl := hold e reached rfl
      rw [attempted_err, andThen_val]
      exact wp_rollback ram hpair
    · cases reached with
      | true => exact StoreLeft.both nofun
      | false => exact StoreLeft.certOnly hf.2 nofun
  · obtain rfl := hf.1 e reached rfl
    rw [attempted_err, andThen_val]
    refine wp_pure ?_
    exact .untouched
  · cases reached with
    | true => exact StoreLeft.certOnly hf.2 nofun
    | false => exact StoreLeft.untouched

/-- Storing a pair, where no fault meets the pair it replaces. -/
lemma wp_tlsMgrStoreCerts (cert key : List UInt8) (flash : NvsFlash TlsKey) (ram : TlsState) :
    wp (oldValueKept.both (sparesWebPair flash key)) (tlsMgrStoreCerts crtParse cert key)
      (fun o s' => StoreLeft flash cert key (o = .val false) s'.1) (flash, ram) := by
  have hrefused : wp (oldValueKept.both (sparesWebPair flash key)) (pure false : TlsM Bool)
      (fun o s' => StoreLeft flash cert key (o = .val false) s'.1) (flash, ram) := by
    refine wp_pure ?_
    exact .untouched
  rw [tlsMgrStoreCerts]
  split
  · exact hrefused
  split
  · exact hrefused
  split
  · exact hrefused
  refine wp_tlsNvs_bind (NvsFlash.wp_attempt_plain trivial ?_ (fun e reached _ => ?_) ?_)
  · rw [andThen_val]
    exact wp_storeCertsOpened ram
  · rw [andThen_val]
    exact hrefused
  · exact StoreLeft.untouched

/-! ### Clearing -/

/-- What clearing leaves: each of the two values is gone or as it was. -/
structure ClearLeft (flash flash' : NvsFlash TlsKey) : Prop where
  cert : flash' .cert = flash .cert ∨ flash' .cert = none
  key : flash' .key = flash .key ∨ flash' .key = none
  identity : flash' .idCert = flash .idCert ∧ flash' .idKey = flash .idKey

lemma ClearLeft.refl (flash : NvsFlash TlsKey) : ClearLeft flash flash :=
  ⟨.inl rfl, .inl rfl, rfl, rfl⟩

lemma ClearLeft.trans {flash' flash'' : NvsFlash TlsKey} (h : ClearLeft flash flash')
    (h' : ClearLeft flash' flash'') : ClearLeft flash flash'' := by
  refine ⟨?_, ?_, h'.identity.1.trans h.identity.1, h'.identity.2.trans h.identity.2⟩
  · rcases h'.cert with hc | hc
    · rw [hc]
      exact h.cert
    · exact .inr hc
  · rcases h'.key with hk | hk
    · rw [hk]
      exact h.key
    · exact .inr hk

lemma clearLeft_erase (flash : NvsFlash TlsKey) {site : TlsKey} (hsite : site = .cert ∨ site = .key) :
    ClearLeft flash (Function.update flash site none) := by
  rcases hsite with rfl | rfl
  · exact ⟨.inr rfl, .inl rfl, rfl, rfl⟩
  · exact ⟨.inl rfl, .inr rfl, rfl, rfl⟩

/-- An erase of one of the two values. -/
lemma wp_clearValue {α : Type} {site : TlsKey} (hsite : site = .cert ∨ site = .key)
    {k : Except EspErr Unit → TlsM α} {before : NvsFlash TlsKey} {ram : TlsState}
    (hbefore : ClearLeft before flash)
    (hk : ∀ r flash', ClearLeft before flash' →
      wp oldValueKept (k r) (fun _ s' => ClearLeft before s'.1) (flash', ram)) :
    wp oldValueKept (tlsNvs (NvsFlash.eraseKey site) >>= k) (fun _ s' => ClearLeft before s'.1)
      (flash, ram) := by
  have herased := hbefore.trans (clearLeft_erase flash hsite)
  refine wp_tlsNvs_bind (NvsFlash.wp_attempt_eraseKey trivial ?_ (fun _ => ?_)
    (fun e reached _ => ?_) fun reached _ => ?_)
  · exact hk _ _ herased
  · exact hk _ _ hbefore
  · cases reached with
    | true => exact hk _ _ herased
    | false => exact hk _ _ hbefore
  · cases reached with
    | true => exact herased
    | false => exact hbefore

lemma wp_tlsMgrClearCerts (flash : NvsFlash TlsKey) (ram : TlsState) :
    wp oldValueKept tlsMgrClearCerts (fun _ s' => ClearLeft flash s'.1) (flash, ram) := by
  have hdone : ∀ (b : Bool) flash' ram', ClearLeft flash flash' → wp oldValueKept
      (pure b : TlsM Bool) (fun _ s' => ClearLeft flash s'.1) (flash', ram') :=
    fun b flash' ram' h => wp_pure h
  refine wp_tlsNvs_bind (NvsFlash.wp_attempt_plain trivial ?_ (fun e reached _ => ?_) ?_)
  · rw [andThen_val]
    refine wp_clearValue (.inl rfl) (.refl flash) fun certErr flash₁ h₁ => ?_
    refine wp_clearValue (.inr rfl) h₁ fun keyErr flash₂ h₂ => ?_
    refine wp_tlsNvs_bind (NvsFlash.wp_attempt_plain trivial ?_ (fun e reached _ => ?_) h₂)
    · rw [andThen_val]
      refine show wp _ (ite _ _ _) _ _ from ?_
      split
      · exact wp_setTlsState_bind (hdone _ _ _ h₂)
      · exact hdone _ _ _ h₂
    · exact hdone _ _ _ h₂
  · exact hdone _ _ _ (.refl flash)
  · exact ClearLeft.refl flash

/-! ### A boot -/

/-- What a boot leaves on flash of the identity: what was there, or a generated one,
or its certificate alone where there was no key. -/
inductive IdentityLeft (crtParse : List UInt8 → Option (List UInt8)) (flash : NvsFlash TlsKey)
    (generated : Option Identity) : NvsFlash TlsKey → Prop
  | untouched : IdentityLeft crtParse flash generated flash
  | certOnly (cert : List UInt8) (hkey : flash .idKey = none) :
      IdentityLeft crtParse flash generated (Function.update flash .idCert (some cert))
  | both {identity : Identity} (hgenerated : generated = some identity)
      (hparse : (crtParse identity.cert).isSome) (hstored : ¬ IdentityStored flash) :
      IdentityLeft crtParse flash generated
        (Function.update (Function.update flash .idCert (some identity.cert)) .idKey
          (some identity.key))

/-- The state in RAM uses no identity, or the one on flash. -/
def UsesStored (flash : NvsFlash TlsKey) (ram : TlsState) : Prop :=
  ram.hasIdentity = true → flash .idCert = some ram.identityCert ∧ flash .idKey = some ram.identityKey

/-- The state in RAM holds no web certificate, or the pair on flash. -/
def WebLoaded (flash : NvsFlash TlsKey) (ram : TlsState) : Prop :=
  ram.hasCerts = true → flash .cert = some ram.cert ∧ flash .key = some ram.key

/-- What a boot leaves. -/
structure BootLeft (crtParse : List UInt8 → Option (List UInt8)) (flash : NvsFlash TlsKey)
    (generated : Option Identity) (o : Outcome EspErr Unit) (s : NvsFlash TlsKey × TlsState) :
    Prop where
  identity : IdentityLeft crtParse flash generated s.1
  web : o = .val () → WebLoaded flash s.2
  used : o = .val () → UsesStored s.1 s.2

section Boot

variable {flash : NvsFlash TlsKey} {generated : Option Identity} {ram : TlsState}

/-- The identity is not there, or no other one can be generated. -/
def Replaceable (flash : NvsFlash TlsKey) (generated : Option Identity) : Prop :=
  flash .idKey = none ∨ generated = none

variable {R : Rely NvsFault (NvsOp TlsKey)}

/-- The calls that store a generated identity where there is none. -/
lemma wp_identityWrites (hp : ∀ op, R.promise op) {identity : Identity}
    (hgenerated : generated = some identity) (hparse : (crtParse identity.cert).isSome)
    (hnone : flash .idKey = none) :
    wp R (identityWrites identity.cert identity.key)
      (fun o flash' => IdentityLeft crtParse flash generated flash' ∧
        (o = .val () → flash' .idCert = some identity.cert ∧ flash' .idKey = some identity.key))
      flash := by
  have hstored : ¬ IdentityStored flash := fun h => h.2 hnone
  have hboth : IdentityLeft crtParse flash generated _ := .both hgenerated hparse hstored
  have hcert : IdentityLeft crtParse flash generated _ := .certOnly identity.cert hnone
  refine wp_bind (NvsFlash.wp_call (hp _) ?_ (fun _ _ _ => ⟨.untouched, nofun⟩) ⟨.untouched, nofun⟩)
  rw [andThen_val]
  refine wp_bind (NvsFlash.wp_set (hp _) ?_ (fun e reached _ => ?_) fun reached _ => ?_)
  · rw [andThen_val]
    refine wp_bind (NvsFlash.wp_set (hp _) ?_ (fun e reached _ => ?_) fun reached _ => ?_)
    · rw [andThen_val]
      exact NvsFlash.wp_call (hp _) ⟨hboth, fun _ => ⟨rfl, rfl⟩⟩ (fun _ _ _ => ⟨hboth, nofun⟩)
        ⟨hboth, nofun⟩
    · cases reached with
      | true => exact ⟨hboth, nofun⟩
      | false => exact ⟨hcert, nofun⟩
    · cases reached with
      | true => exact ⟨hboth, nofun⟩
      | false => exact ⟨hcert, nofun⟩
  · cases reached with
    | true => exact ⟨hcert, nofun⟩
    | false => exact ⟨.untouched, nofun⟩
  · cases reached with
    | true => exact ⟨hcert, nofun⟩
    | false => exact ⟨.untouched, nofun⟩

/-- Two states in RAM agree on the web server. -/
def SameWeb (ram ram' : TlsState) : Prop :=
  ram'.hasCerts = ram.hasCerts ∧ ram'.cert = ram.cert ∧ ram'.key = ram.key

/-- Generating an identity. -/
lemma wp_generateIdentity (hp : ∀ op, R.promise op) (hreplaceable : Replaceable flash generated) :
    wp R (generateIdentity crtParse sha256 generated)
      (fun o s' => IdentityLeft crtParse flash generated s'.1 ∧
        (∀ b, o = .val b → UsesStored s'.1 s'.2 ∧ SameWeb ram s'.2)) (flash, ram) := by
  cases generated with
  | none =>
      refine wp_setTlsState_bind (wp_pure ?_)
      exact ⟨.untouched, fun _ _ => ⟨nofun, rfl, rfl, rfl⟩⟩
  | some identity =>
      have hnone : flash .idKey = none := hreplaceable.resolve_right (by nofun)
      refine wp_setTlsState_bind (wp_bind (wp_tlsState_bind ?_))
      cases hparse : crtParse identity.cert with
      | none =>
          refine wp_pure ?_
          rw [andThen_val]
          refine wp_setTlsState_bind (wp_pure ?_)
          exact ⟨.untouched, fun _ _ => ⟨nofun, rfl, rfl, rfl⟩⟩
      | some raw =>
          refine wp_setTlsState_bind (wp_pure ?_)
          rw [andThen_val, if_pos rfl]
          have hsome : (crtParse identity.cert).isSome = true := by
            rw [hparse]
            rfl
          refine wp_bind (wp_tlsState_bind (wp_tlsNvs_bind (wp_attempt
            (wp_mono (wp_identityWrites hp rfl hsome hnone) fun o flash' ho => ?_))))
          obtain ⟨hleft, hstored⟩ := ho
          cases o with
          | val _ =>
              rw [attempted_val, andThen_val]
              refine wp_pure ?_
              rw [andThen_val, if_pos rfl]
              refine wp_setTlsState_bind (wp_pure ?_)
              exact ⟨hleft, fun _ _ => ⟨fun _ => hstored rfl, rfl, rfl, rfl⟩⟩
          | err e =>
              rw [attempted_err, andThen_val]
              refine wp_pure ?_
              rw [andThen_val, if_neg (by decide)]
              refine wp_setTlsState_bind (wp_pure ?_)
              exact ⟨hleft, fun _ _ => ⟨nofun, rfl, rfl, rfl⟩⟩
          | cut => exact ⟨hleft, nofun⟩

/-- What trying to load the identity leaves in RAM. -/
structure IdentityTried (flash : NvsFlash TlsKey) (generated : Option Identity) (ram : TlsState)
    (loaded : Bool) (ram' : TlsState) : Prop where
  web : SameWeb ram ram'
  used : UsesStored flash ram'
  failed : loaded = false → IdentityStored flash → generated = none

/-- A stored identity fits its buffers and can be parsed. -/
def IdentityUsable (crtParse : List UInt8 → Option (List UInt8)) (flash : NvsFlash TlsKey) : Prop :=
  IdentityStored flash → ∃ identity : Identity, flash .idCert = some identity.cert ∧
    flash .idKey = some identity.key ∧ (crtParse identity.cert).isSome

/-- Loading an identity: a stored one is loaded, unless a fault prevented it that no
generated one could follow. -/
lemma wp_loadIdentity (husable : IdentityUsable crtParse flash) (hunused : ram.hasIdentity = false) :
    wp (oldValueKept.both (sparesIdentity flash generated)) (loadIdentity crtParse sha256)
      (fun o s' => s'.1 = flash ∧ ∀ b, o = .val b → IdentityTried flash generated ram b s'.2)
      (flash, ram) := by
  have hfails : ∀ ram', SameWeb ram ram' → ram'.hasIdentity = false →
      (IdentityStored flash → generated = none) →
      wp (oldValueKept.both (sparesIdentity flash generated)) (pure false : TlsM Bool)
        (fun o s' => s'.1 = flash ∧ ∀ b, o = .val b → IdentityTried flash generated ram b s'.2)
        (flash, ram') := by
    intro ram' hsame hoff hspared
    refine wp_pure ?_
    refine ⟨rfl, fun b _ => ⟨hsame, ?_, fun _ => hspared⟩⟩
    intro hon
    rw [hoff] at hon
    cases hon
  have hsame : SameWeb ram ram := ⟨rfl, rfl, rfl⟩
  refine wp_tlsNvs_bind (NvsFlash.wp_attempt_getValue trivial ?_ (fun e reached hf => ?_) ?_)
  · rw [andThen_val]
    cases hcert : NvsFlash.read flash .idCert tlsMaxCertLen with
    | error e =>
        refine hfails ram hsame hunused fun hstored => ?_
        obtain ⟨identity, hidentity, -⟩ := husable hstored
        rw [NvsFlash.read_ok hidentity identity.cert_le] at hcert
        cases hcert
    | ok cert =>
        have hcert' := NvsFlash.of_read hcert
        refine wp_setTlsState_bind (wp_tlsNvs_bind (NvsFlash.wp_attempt_getValue trivial ?_
          (fun e reached hf => ?_) ?_))
        · rw [andThen_val]
          cases hkey : NvsFlash.read flash .idKey tlsMaxKeyLen with
          | error e =>
              refine wp_setTlsState_bind (hfails _ hsame hunused fun hstored => ?_)
              obtain ⟨identity, -, hidentity, -⟩ := husable hstored
              rw [NvsFlash.read_ok hidentity identity.key_le] at hkey
              cases hkey
          | ok key =>
              have hkey' := NvsFlash.of_read hkey
              obtain ⟨identity, hidentity, -, hparse⟩ := husable
                ⟨by rw [hcert']; nofun, by rw [hkey']; nofun⟩
              obtain ⟨raw, hraw⟩ := Option.isSome_iff_exists.mp hparse
              rw [hcert', Option.some.injEq] at hidentity
              rw [← hidentity] at hraw
              refine wp_setTlsState_bind (wp_bind (wp_tlsState_bind ?_))
              rw [hraw]
              refine wp_setTlsState_bind (wp_pure ?_)
              rw [andThen_val, if_pos rfl]
              refine wp_setTlsState_bind (wp_pure ?_)
              refine ⟨rfl, fun b hb => ⟨hsame, fun _ => ⟨hcert', hkey'⟩, fun hfalse => ?_⟩⟩
              rw [hfalse] at hb
              cases hb
        · rw [andThen_val]
          exact wp_setTlsState_bind (hfails _ hsame hunused hf.2)
        · exact ⟨rfl, nofun⟩
  · rw [andThen_val]
    exact hfails ram hsame hunused hf.2
  · exact ⟨rfl, nofun⟩

/-- Loading the pair of the web server. -/
lemma wp_loadCerts (hp : ∀ op, R.promise op) (hoff : ram.hasCerts = false) :
    wp R loadCerts
      (fun o s' => s'.1 = flash ∧ (o = .val () → WebLoaded flash s'.2 ∧
        s'.2.hasIdentity = ram.hasIdentity ∧ s'.2.identityCert = ram.identityCert ∧
          s'.2.identityKey = ram.identityKey)) (flash, ram) := by
  have hnone : ∀ {cert : List UInt8}, WebLoaded flash { ram with cert } := by
    intro cert hon
    rw [show ({ ram with cert } : TlsState).hasCerts = ram.hasCerts from rfl, hoff] at hon
    cases hon
  refine wp_tlsNvs_bind (NvsFlash.wp_attempt_getValue (hp _) ?_ (fun e reached _ => ?_) ?_)
  · rw [andThen_val]
    cases hcert : NvsFlash.read flash .cert tlsMaxCertLen with
    | error e =>
        refine wp_pure ?_
        exact ⟨rfl, fun _ => ⟨@hnone ram.cert, rfl, rfl, rfl⟩⟩
    | ok cert =>
        refine wp_setTlsState_bind (wp_tlsNvs_bind (NvsFlash.wp_attempt_getValue (hp _) ?_
          (fun e reached _ => ?_) ?_))
        · rw [andThen_val]
          cases hkey : NvsFlash.read flash .key tlsMaxKeyLen with
          | error e => exact wp_modify ⟨rfl, fun _ => ⟨hnone, rfl, rfl, rfl⟩⟩
          | ok key =>
              exact wp_modify ⟨rfl, fun _ =>
                ⟨fun _ => ⟨NvsFlash.of_read hcert, NvsFlash.of_read hkey⟩, rfl, rfl, rfl⟩⟩
        · rw [andThen_val]
          exact wp_modify ⟨rfl, fun _ => ⟨hnone, rfl, rfl, rfl⟩⟩
        · exact ⟨rfl, nofun⟩
  · rw [andThen_val]
    refine wp_pure ?_
    exact ⟨rfl, fun _ => ⟨@hnone ram.cert, rfl, rfl, rfl⟩⟩
  · exact ⟨rfl, nofun⟩

/-- The identity generated where none was loaded. -/
lemma wp_generateAtBoot (hreplaceable : Replaceable flash generated) (hweb : WebLoaded flash ram) :
    wp (oldValueKept.both (sparesIdentity flash generated))
      (do
        let _ ← generateIdentity crtParse sha256 generated
        return ())
      (BootLeft crtParse flash generated) (flash, ram) := by
  refine wp_bind (wp_mono (wp_generateIdentity (fun _ => trivial) hreplaceable)
    fun o s' ho => ?_)
  cases o with
  | val b =>
      obtain ⟨hused, hcerts, hcert, hkey⟩ := ho.2 b rfl
      rw [andThen_val]
      refine wp_pure ⟨ho.1, fun _ hon => ?_, fun _ => hused⟩
      rw [hcerts] at hon
      rw [hcert, hkey]
      exact hweb hon
  | err e => exact ⟨ho.1, nofun, nofun⟩
  | cut => exact ⟨ho.1, nofun, nofun⟩

/-- A boot, where no fault meets the stored identity. -/
lemma wp_tlsMgrInit (husable : IdentityUsable crtParse flash)
    (hkey : flash .idKey ≠ none → flash .idCert ≠ none) :
    wp (oldValueKept.both (sparesIdentity flash generated)) (tlsMgrInit crtParse sha256 generated)
      (BootLeft crtParse flash generated) (flash, {}) := by
  have hreplaceable : (IdentityStored flash → generated = none) → Replaceable flash generated := by
    intro hspared
    by_cases hnone : flash .idKey = none
    · exact .inl hnone
    · exact .inr (hspared ⟨hkey hnone, hnone⟩)
  refine wp_tlsState_bind (wp_if_neg (by nofun) (wp_setTlsState_bind (wp_tlsNvs_bind
    (NvsFlash.wp_attempt_plain trivial ?_ (fun e reached hf => ?_) ⟨.untouched, nofun, nofun⟩))))
  · rw [andThen_val]
    refine wp_bind (wp_mono (wp_loadIdentity husable rfl) fun o s' ho => ?_)
    obtain ⟨flash', ram'⟩ := s'
    obtain ⟨rfl, ho⟩ := ho
    cases o with
    | err e => exact ⟨.untouched, nofun, nofun⟩
    | cut => exact ⟨.untouched, nofun, nofun⟩
    | val loaded =>
        obtain ⟨hsame, hused, hfailed⟩ := ho loaded rfl
        rw [andThen_val]
        refine wp_bind (wp_mono (wp_loadCerts (fun _ => trivial) hsame.1) fun o s'' ho' => ?_)
        obtain ⟨flash'', ram''⟩ := s''
        obtain ⟨rfl, ho'⟩ := ho'
        cases o with
        | err e => exact ⟨.untouched, nofun, nofun⟩
        | cut => exact ⟨.untouched, nofun, nofun⟩
        | val _ =>
            obtain ⟨hweb, hon, hcert, hidkey⟩ := ho' rfl
            rw [andThen_val]
            cases loaded with
            | true =>
                refine wp_if_pos rfl (wp_pure ⟨.untouched, fun _ => hweb, fun _ h => ?_⟩)
                rw [hon] at h
                rw [hcert, hidkey]
                exact hused h
            | false =>
                exact wp_if_neg (by decide)
                  (wp_generateAtBoot (hreplaceable (hfailed rfl)) hweb)
  · rw [andThen_val]
    exact wp_generateAtBoot (hreplaceable hf.2) nofun

end Boot

end ArcticController

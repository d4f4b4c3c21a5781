/-
TLS material on flash is one matching pair or none: runs of the manager's calls in
which any NVS call may fail and power may be lost at any time.

* `TlsEvent`, `TlsStep`: the calls, each with the flash before and after it;
* `TlsEvent.Spared`: no fault met a stored pair;
* `StoredBy`, `Generated`: the pairs that were stored and the identities that
  were generated;
* `PairsKept`: what every boot may load, what a store that fails leaves and when an
  identity is replaced;
* `PairsOnFlash`: the invariant;
* `tls_pairs_kept`: in every run whose calls are spared, the pairs are kept.
-/
import ArcticController.Base.Runs
import ArcticController.Tls.TlsCalls

namespace ArcticController

/-! ### Runs -/

/-- The calls of the manager, with their results; a boot also with the state it
left in RAM. -/
inductive TlsCall where
  | store (cert key : List UInt8) (result : Outcome EspErr Bool)
  | clear (result : Outcome EspErr Bool)
  | boot (generated : Option Identity) (result : Outcome EspErr Unit) (ram : TlsState)

/-- A call, the flash before and after it, and its NVS calls. -/
structure TlsEvent where
  call : TlsCall
  before : NvsFlash TlsKey
  after : NvsFlash TlsKey
  ops : List (NvsOp TlsKey × NvsFault)

/-- A loss of power clears the state in RAM. -/
def afterTlsCall {α : Type} (o : Outcome EspErr α) (s : NvsFlash TlsKey × TlsState) :
    NvsFlash TlsKey × TlsState :=
  match o with
  | .cut => (s.1, {})
  | _ => s

section Runs

variable (crtParse : List UInt8 → Option (List UInt8)) (sha256 : List UInt8 → Digest)

/-- One call; a boot starts with the state in RAM cleared. -/
inductive TlsStep : NvsFlash TlsKey × TlsState → Option TlsEvent →
    NvsFlash TlsKey × TlsState → Prop
  | store {s r} (cert key : List UInt8) (fs : List NvsFault)
      (hr : tlsMgrStoreCerts crtParse cert key s fs = r) (hfaults : oldValueKept.Covers r.ops) :
      TlsStep s (some ⟨.store cert key r.out, s.1, r.state.1, r.ops⟩) (afterTlsCall r.out r.state)
  | clear {s r} (fs : List NvsFault) (hr : tlsMgrClearCerts s fs = r)
      (hfaults : oldValueKept.Covers r.ops) :
      TlsStep s (some ⟨.clear r.out, s.1, r.state.1, r.ops⟩) (afterTlsCall r.out r.state)
  | boot {s r} (generated : Option Identity) (fs : List NvsFault)
      (hr : tlsMgrInit crtParse sha256 generated (s.1, {}) fs = r)
      (hfaults : oldValueKept.Covers r.ops) :
      TlsStep s (some ⟨.boot generated r.out r.state.2, s.1, r.state.1, r.ops⟩)
        (afterTlsCall r.out r.state)

end Runs

/-- No fault of a call met a stored pair. -/
def TlsEvent.Spared (e : TlsEvent) : Prop :=
  match e.call with
  | .store _ key _ => (sparesWebPair e.before key).Covers e.ops
  | .clear _ => True
  | .boot generated _ _ => (sparesIdentity e.before generated).Covers e.ops

/-! ### The claim -/

/-- A call that stores `cert` and `key` left both on flash. -/
def StoredBy (log : List TlsEvent) (cert key : List UInt8) : Prop :=
  ∃ e ∈ log, (∃ result, e.call = .store cert key result) ∧ e.after .cert = some cert ∧
    e.after .key = some key

/-- A boot generated an identity. -/
def Generated (log : List TlsEvent) (identity : Identity) : Prop :=
  ∃ e ∈ log, ∃ result ram, e.call = .boot (some identity) result ram

/-- The TLS material of a run: a boot loads the certificate and the key of one store,
a store that returns `false` leaves the pair before it, a boot uses a certificate with
its own key, and no call replaces a stored identity. -/
structure PairsKept (log : List TlsEvent) : Prop where
  web : ∀ pre e post, log = pre ++ e :: post → ∀ generated ram,
    e.call = .boot generated (.val ()) ram → ram.hasCerts = true → StoredBy pre ram.cert ram.key
  failedStore : ∀ e ∈ log, ∀ cert key, e.call = .store cert key (.val false) → WebPair e.before →
    e.after .cert = e.before .cert ∧ e.after .key = e.before .key
  ownKey : ∀ pre e post, log = pre ++ e :: post → ∀ generated ram,
    e.call = .boot generated (.val ()) ram → ram.hasIdentity = true →
      ∃ identity, Generated (pre ++ [e]) identity ∧ ram.identityCert = identity.cert ∧
        ram.identityKey = identity.key
  pinned : ∀ e ∈ log, IdentityStored e.before →
    e.after .idCert = e.before .idCert ∧ e.after .idKey = e.before .idKey

lemma StoredBy.mono {log : List TlsEvent} {cert key : List UInt8} (h : StoredBy log cert key)
    (more : List TlsEvent) : StoredBy (log ++ more) cert key := by
  obtain ⟨e, he, h⟩ := h
  exact ⟨e, List.mem_append_left _ he, h⟩

lemma Generated.mono {log : List TlsEvent} {identity : Identity} (h : Generated log identity)
    (more : List TlsEvent) : Generated (log ++ more) identity := by
  obtain ⟨e, he, h⟩ := h
  exact ⟨e, List.mem_append_left _ he, h⟩

/-! ### The invariant -/

section Invariant

variable {crtParse : List UInt8 → Option (List UInt8)} {sha256 : List UInt8 → Digest}

/-- A certificate and a key of the web server on flash were stored together, and the
key of an identity stands beside the certificate it was generated with. -/
structure PairsOnFlash (crtParse : List UInt8 → Option (List UInt8)) (log : List TlsEvent)
    (flash : NvsFlash TlsKey) : Prop where
  web : ∀ cert key, flash .cert = some cert → flash .key = some key → StoredBy log cert key
  identity : ∀ key, flash .idKey = some key → ∃ identity, Generated log identity ∧
    flash .idCert = some identity.cert ∧ key = identity.key ∧ (crtParse identity.cert).isSome

variable {log : List TlsEvent} {flash flash' : NvsFlash TlsKey}

lemma PairsOnFlash.mono (h : PairsOnFlash crtParse log flash) (more : List TlsEvent) :
    PairsOnFlash crtParse (log ++ more) flash := by
  refine ⟨fun cert key hcert hkey => (h.web cert key hcert hkey).mono more, fun key hkey => ?_⟩
  obtain ⟨identity, hgen, hrest⟩ := h.identity key hkey
  exact ⟨identity, hgen.mono more, hrest⟩

/-- What the invariant says about the identity of a boot. -/
lemma PairsOnFlash.usable (h : PairsOnFlash crtParse log flash) : IdentityUsable crtParse flash := by
  rintro ⟨-, hkey⟩
  obtain ⟨key, hkey⟩ := Option.ne_none_iff_exists'.mp hkey
  obtain ⟨identity, -, hcert, rfl, hparse⟩ := h.identity key hkey
  exact ⟨identity, hcert, hkey, hparse⟩

lemma PairsOnFlash.cert_of_key (h : PairsOnFlash crtParse log flash) (hkey : flash .idKey ≠ none) :
    flash .idCert ≠ none := by
  obtain ⟨key, hkey⟩ := Option.ne_none_iff_exists'.mp hkey
  obtain ⟨identity, -, hcert, -⟩ := h.identity key hkey
  rw [hcert]
  nofun

variable {e : TlsEvent} {cert key : List UInt8}

/-- A call that leaves the identity and stores no pair. -/
lemma PairsOnFlash.of_web (h : PairsOnFlash crtParse log flash)
    (hidentity : flash' .idCert = flash .idCert ∧ flash' .idKey = flash .idKey)
    (hweb : ∀ cert key, flash' .cert = some cert → flash' .key = some key →
      StoredBy (log ++ [e]) cert key) :
    PairsOnFlash crtParse (log ++ [e]) flash' := by
  refine ⟨hweb, fun key hkey => ?_⟩
  rw [hidentity.2] at hkey
  rw [hidentity.1]
  exact (h.mono [e]).identity key hkey

lemma StoreLeft.pairsOnFlash {failed : Prop} (h : StoreLeft flash cert key failed flash')
    (hpairs : PairsOnFlash crtParse log flash) (hcall : ∃ result, e.call = .store cert key result)
    (hafter : e.after = flash') : PairsOnFlash crtParse (log ++ [e]) flash' := by
  have hnew : flash' .cert = some cert → flash' .key = some key → StoredBy (log ++ [e]) cert key :=
    fun hcert hkey => ⟨e, List.mem_append_right _ (List.mem_singleton_self e), hcall,
      hafter ▸ hcert, hafter ▸ hkey⟩
  cases h with
  | untouched => exact hpairs.mono [e]
  | certOnly hstale _ =>
      refine hpairs.of_web ⟨rfl, rfl⟩ fun c k hc hk => ?_
      obtain rfl : cert = c := Option.some.inj hc
      have hk' : flash .key = some k := hk
      have hsame : flash .key = some key := by
        by_contra hne
        exact hstale ⟨by rw [hk']; nofun, hne⟩
      obtain rfl : key = k := Option.some.inj (hsame.symm.trans hk')
      exact hnew hc hk
  | both _ =>
      refine hpairs.of_web ⟨rfl, rfl⟩ fun c k hc hk => ?_
      obtain rfl : cert = c := Option.some.inj hc
      obtain rfl : key = k := Option.some.inj hk
      exact hnew hc hk
  | rolledBack _ => exact hpairs.of_web ⟨rfl, rfl⟩ fun c k hc _ => by cases hc

lemma ClearLeft.pairsOnFlash (h : ClearLeft flash flash')
    (hpairs : PairsOnFlash crtParse log flash) : PairsOnFlash crtParse (log ++ [e]) flash' := by
  refine hpairs.of_web h.identity fun c k hc hk => ?_
  rcases h.cert with hcert | hcert
  · rcases h.key with hkey | hkey
    · rw [hcert] at hc
      rw [hkey] at hk
      exact (hpairs.web c k hc hk).mono [e]
    · rw [hkey] at hk
      cases hk
  · rw [hcert] at hc
    cases hc

lemma IdentityLeft.pairsOnFlash {generated : Option Identity}
    (h : IdentityLeft crtParse flash generated flash') (hpairs : PairsOnFlash crtParse log flash)
    (hcall : ∃ result ram, e.call = .boot generated result ram) :
    PairsOnFlash crtParse (log ++ [e]) flash' := by
  have hmono := hpairs.mono [e]
  cases h with
  | untouched => exact hmono
  | certOnly cert hnone =>
      refine ⟨hmono.web, fun key hkey => ?_⟩
      rw [show Function.update flash .idCert (some cert) .idKey = flash .idKey from rfl, hnone] at hkey
      cases hkey
  | @both identity hgenerated hparse _ =>
      refine ⟨hmono.web, fun key hkey => ?_⟩
      obtain rfl : identity.key = key := Option.some.inj hkey
      rw [hgenerated] at hcall
      exact ⟨identity, ⟨e, List.mem_append_right _ (List.mem_singleton_self e), hcall⟩, rfl, rfl,
        hparse⟩

/-- A boot keeps a stored identity. -/
lemma IdentityLeft.kept {generated : Option Identity} (h : IdentityLeft crtParse flash generated flash')
    (hstored : IdentityStored flash) :
    flash' .idCert = flash .idCert ∧ flash' .idKey = flash .idKey := by
  cases h with
  | untouched => exact ⟨rfl, rfl⟩
  | certOnly cert hnone => exact absurd hnone hstored.2
  | both _ _ hnot => exact absurd hstored hnot

/-- A store that returned `false` left a pair it met. -/
lemma StoreLeft.kept {failed : Prop} (h : StoreLeft flash cert key failed flash') (hfailed : failed)
    (hpair : WebPair flash) : flash' = flash := by
  cases h with
  | untouched => rfl
  | certOnly _ hnot => exact absurd hpair (hnot hfailed)
  | both hnot => exact absurd hpair (hnot hfailed)
  | rolledBack hnot => exact absurd hpair hnot

lemma StoreLeft.identity {failed : Prop} (h : StoreLeft flash cert key failed flash') :
    flash' .idCert = flash .idCert ∧ flash' .idKey = flash .idKey := by
  cases h <;> exact ⟨rfl, rfl⟩

end Invariant

/-! ### Runs that spare the pairs -/

section Kept

variable {crtParse : List UInt8 → Option (List UInt8)} {sha256 : List UInt8 → Digest}

lemma afterTlsCall_flash {α : Type} (o : Outcome EspErr α) (s : NvsFlash TlsKey × TlsState) :
    (afterTlsCall o s).1 = s.1 := by
  cases o <;> rfl

/-- What one more call must do. -/
structure CallKept (log : List TlsEvent) (e : TlsEvent) : Prop where
  web : ∀ generated ram, e.call = .boot generated (.val ()) ram → ram.hasCerts = true →
    StoredBy log ram.cert ram.key
  failedStore : ∀ cert key, e.call = .store cert key (.val false) → WebPair e.before →
    e.after .cert = e.before .cert ∧ e.after .key = e.before .key
  ownKey : ∀ generated ram, e.call = .boot generated (.val ()) ram → ram.hasIdentity = true →
    ∃ identity, Generated (log ++ [e]) identity ∧ ram.identityCert = identity.cert ∧
      ram.identityKey = identity.key
  pinned : IdentityStored e.before →
    e.after .idCert = e.before .idCert ∧ e.after .idKey = e.before .idKey

lemma PairsKept.concat {log : List TlsEvent} {e : TlsEvent} (h : PairsKept log)
    (he : CallKept log e) : PairsKept (log ++ [e]) := by
  refine ⟨fun pre x post hsplit => ?_, fun x hx => ?_, fun pre x post hsplit => ?_, fun x hx => ?_⟩
  · rcases split_step (e := some e) hsplit with ⟨hx, rfl, -⟩ | ⟨post', hlog, -⟩
    · obtain rfl := Option.some.inj hx
      exact he.web
    · exact h.web pre x post' hlog
  · rcases List.mem_append.mp hx with hold | hnew
    · exact h.failedStore x hold
    · obtain rfl := List.mem_singleton.mp hnew
      exact he.failedStore
  · rcases split_step (e := some e) hsplit with ⟨hx, rfl, -⟩ | ⟨post', hlog, -⟩
    · obtain rfl := Option.some.inj hx
      exact he.ownKey
    · exact h.ownKey pre x post' hlog
  · rcases List.mem_append.mp hx with hold | hnew
    · exact h.pinned x hold
    · obtain rfl := List.mem_singleton.mp hnew
      exact he.pinned

/-- The run lemma. -/
lemma pairs_run {s : NvsFlash TlsKey × TlsState} {log : List TlsEvent}
    (hrun : Run (TlsStep crtParse sha256) (fun _ => none, {}) s log) :
    (∀ e ∈ log, e.Spared) → PairsOnFlash crtParse log s.1 ∧ PairsKept log := by
  refine hrun.invariant (I := fun s log => (∀ e ∈ log, e.Spared) →
    PairsOnFlash crtParse log s.1 ∧ PairsKept log) (fun _ => ⟨⟨?_, ?_⟩, ?_⟩) ?_
  · intro cert key hcert
    cases hcert
  · intro key hkey
    cases hkey
  · exact ⟨fun pre e post h => by simp at h, nofun, fun pre e post h => by simp at h, nofun⟩
  intro s log e s' _ ih hstep hspared
  obtain ⟨hpairs, hkept⟩ := ih fun e he => hspared e (List.mem_append_left _ he)
  obtain ⟨flash, ram⟩ := s
  cases hstep with
  | store cert key fs hr hfaults =>
      have hthis := hspared _ (List.mem_append_right _ (List.mem_singleton_self _))
      subst hr
      have hleft := (@wp_tlsMgrStoreCerts crtParse cert key flash ram fs
        (Rely.covers_both hfaults hthis)).1
      refine ⟨?_, hkept.concat ⟨nofun, fun c k hcall hpair => ?_, nofun, fun _ => hleft.identity⟩⟩
      · rw [afterTlsCall_flash]
        exact hleft.pairsOnFlash hpairs ⟨_, rfl⟩ rfl
      · have hsame := hleft.kept (TlsCall.store.inj hcall).2.2 hpair
        exact ⟨congrFun hsame .cert, congrFun hsame .key⟩
  | clear fs hr hfaults =>
      subst hr
      have hleft := (wp_tlsMgrClearCerts flash ram fs hfaults).1
      refine ⟨?_, hkept.concat ⟨nofun, nofun, nofun, fun _ => hleft.identity⟩⟩
      rw [afterTlsCall_flash]
      exact hleft.pairsOnFlash hpairs
  | @boot r generated fs hr hfaults =>
      have hthis := hspared _ (List.mem_append_right _ (List.mem_singleton_self _))
      have hleft := (wp_tlsMgrInit hpairs.usable
        hpairs.cert_of_key fs (by rw [hr]; exact Rely.covers_both hfaults hthis)).1
      rw [hr] at hleft
      have hafter : PairsOnFlash crtParse
          (log ++ [⟨.boot generated r.out r.state.2, flash, r.state.1, r.ops⟩]) r.state.1 :=
        hleft.identity.pairsOnFlash hpairs ⟨_, _, rfl⟩
      refine ⟨?_, hkept.concat ⟨fun g ram' hcall hon => ?_, nofun, fun g ram' hcall hon => ?_,
        hleft.identity.kept⟩⟩
      · rw [afterTlsCall_flash]
        exact hafter
      · obtain ⟨-, hout, rfl⟩ := TlsCall.boot.inj hcall
        obtain ⟨hcert, hkey⟩ := hleft.web hout hon
        exact hpairs.web _ _ hcert hkey
      · obtain ⟨-, hout, rfl⟩ := TlsCall.boot.inj hcall
        obtain ⟨hcert, hkey⟩ := hleft.used hout hon
        obtain ⟨identity, hgen, hcert', hkey', -⟩ := hafter.identity _ hkey
        exact ⟨identity, hgen, Option.some.inj (hcert.symm.trans hcert'), hkey'⟩

/-- **TLS material on flash is one matching pair or none**: from a blank namespace, in
every run of stores, clears and boots in which any NVS call may fail and leave the
old value and power may be lost between any two calls, but no fault meets a stored
pair, every boot that loads a web certificate loads with it the key of the same
store, a store that returns `false` leaves the pair that was there, every boot uses
an identity with its own key, and a stored identity is never replaced. -/
theorem tls_pairs_kept {s : NvsFlash TlsKey × TlsState} {log : List TlsEvent}
    (hrun : Run (TlsStep crtParse sha256) (fun _ => none, {}) s log)
    (hspared : ∀ e ∈ log, e.Spared) : PairsKept log := (pairs_run hrun hspared).2

end Kept

lemma oldValueKept_covers {ops : List (NvsOp TlsKey × NvsFault)}
    (h : ∀ p ∈ ops, p.2.isError = false) : oldValueKept.Covers ops := by
  intro p hp e reached hfault
  have herror := h p hp
  rw [hfault] at herror
  cases herror

lemma Rely.covers_of_none {R : Rely NvsFault (NvsOp TlsKey)} {ops : List (NvsOp TlsKey × NvsFault)}
    (h : ∀ p ∈ ops, p.2 = .none) (hR : ∀ op, R.allowed op .none) : R.Covers ops := by
  intro p hp
  rw [h p hp]
  exact hR p.1

/-- The state after a store under some faults, where every certificate is parsed. -/
def storedOver (s : NvsFlash TlsKey × TlsState) (cert key : List UInt8) (fs : List NvsFault) :
    NvsFlash TlsKey × TlsState :=
  afterTlsCall (tlsMgrStoreCerts some cert key s fs).out (tlsMgrStoreCerts some cert key s fs).state

/-- A pair is stored, and a boot loads it and generates an identity. -/
theorem tls_pairs_kept_storeAndBoot : ∃ s log,
    Run (TlsStep some fun _ => .zero) (fun _ => none, {}) s log ∧ log.length = 2 ∧
      PairsKept log := by
  have hstore := @TlsStep.store some (fun _ => .zero) (fun _ => none, {}) _ [1] [2] [] rfl
    (oldValueKept_covers (by decide +kernel))
  have hboot := @TlsStep.boot some (fun _ => .zero) (storedOver (fun _ => none, {}) [1] [2] []) _
    (some ⟨[5], [6], by decide, by decide⟩) [] rfl (oldValueKept_covers (by decide +kernel))
  have hrun := (Run.start.step hstore).step hboot
  refine ⟨_, _, hrun, rfl, tls_pairs_kept hrun fun e he => ?_⟩
  rcases List.mem_append.mp he with hfirst | hsecond
  · obtain rfl := List.mem_singleton.mp hfirst
    exact Rely.covers_of_none (by decide +kernel) fun op => by
      cases op with
      | setBlob site value => cases site <;> trivial
      | _ => trivial
  · obtain rfl := List.mem_singleton.mp hsecond
    exact Rely.covers_of_none (by decide +kernel) fun op => by
      cases op with
      | getBlob site length => cases site <;> trivial
      | _ => trivial

/-- Power is lost between the certificate and the key of a second pair: the next boot
serves the new certificate with the old key. -/
theorem torn_store_mixes_pairs : ∃ s log,
    Run (TlsStep some fun _ => .zero) (fun _ => none, {}) s log ∧ ¬ PairsKept log := by
  have hstore := @TlsStep.store some (fun _ => .zero) (fun _ => none, {}) _ [1] [2] [] rfl
    (oldValueKept_covers (by decide +kernel))
  have htorn := @TlsStep.store some (fun _ => .zero) (storedOver (fun _ => none, {}) [1] [2] []) _
    [3] [4] [.none, .cut true] rfl (oldValueKept_covers (by decide +kernel))
  have hboot := @TlsStep.boot some (fun _ => .zero)
    (storedOver (storedOver (fun _ => none, {}) [1] [2] []) [3] [4] [.none, .cut true]) _
    none [] rfl (oldValueKept_covers (by decide +kernel))
  refine ⟨_, _, ((Run.start.step hstore).step htorn).step hboot, fun h => ?_⟩
  obtain ⟨e, he, ⟨result, hcall⟩, -⟩ := h.web _ _ [] rfl none _ rfl (by decide +kernel)
  have hpairs : e.call = .store [3] [2] result := hcall
  rcases List.mem_append.mp he with hfirst | hsecond
  · obtain rfl := List.mem_singleton.mp hfirst
    exact absurd (TlsCall.store.inj hpairs).1 (by decide)
  · obtain rfl := List.mem_singleton.mp hsecond
    exact absurd (TlsCall.store.inj hpairs).2.1 (by decide)

end ArcticController

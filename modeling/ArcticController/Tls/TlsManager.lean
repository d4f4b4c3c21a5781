/-
The TLS material in the namespace `tls` (`tls_manager.cpp`): the certificate and
the key of the web server, and the integration identity.

* `TlsKey`, `TlsState`: the values in flash and the state in RAM;
* `Identity`: a generated certificate with its own key, as PEM;
* `storeIdentity`, `generateIdentity`, `loadIdentity`, `tlsMgrInit`: a boot;
* `tlsMgrStoreCerts`, `tlsMgrClearCerts`: the calls of the web server.
-/
import ArcticController.Auth.Digest
import ArcticController.Platform.NvsFlash

namespace ArcticController

def tlsMaxCertLen : ℕ := 4000

def tlsMaxKeyLen : ℕ := 2000

/-- The keys of the namespace `tls`. -/
inductive TlsKey where
  | cert
  | key
  | idCert
  | idKey
deriving DecidableEq, Repr

/-- The state in RAM; a buffer stands for the bytes its length covers. -/
structure TlsState where
  initialised : Bool := false
  hasCerts : Bool := false
  cert : List UInt8 := []
  key : List UInt8 := []
  hasIdentity : Bool := false
  identityCert : List UInt8 := []
  identityKey : List UInt8 := []
  identityFingerprint : Digest := .zero

/-- A certificate encoded into a buffer, and the key it was made with. -/
structure Identity where
  cert : List UInt8
  key : List UInt8
  cert_le : cert.length ≤ tlsMaxCertLen
  key_le : key.length ≤ tlsMaxKeyLen

/-- A computation on the namespace and the state in RAM. -/
abbrev TlsM (α : Type) : Type :=
  FaultM (NvsFlash TlsKey × TlsState) NvsFault (NvsOp TlsKey) EspErr α

/-- The state in RAM. -/
def tlsState : TlsM TlsState := do
  let s ← FaultM.get
  return s.2

/-- Change the state in RAM. -/
def setTlsState (g : TlsState → TlsState) : TlsM Unit := .modify fun s => (s.1, g s.2)

/-- A call on the namespace, whose error the caller looks at. -/
def tlsNvs {α : Type} (m : NvsFlashM TlsKey α) : TlsM (Except EspErr α) := (FaultM.attempt m).zoom

/-- The calls that store an identity, until the first that fails. -/
def identityWrites (cert key : List UInt8) : NvsFlashM TlsKey Unit := do
  NvsFlash.openNamespace
  NvsFlash.setValue .idCert cert
  NvsFlash.setValue .idKey key
  NvsFlash.commit

def storeIdentity : TlsM Bool := do
  let state ← tlsState
  match ← tlsNvs (identityWrites state.identityCert state.identityKey) with
  | .error _ => return false
  | .ok _ => return true

/-- The identity in RAM is wiped. -/
def TlsState.wipeIdentity (state : TlsState) : TlsState :=
  { state with identityCert := [], identityKey := [], hasIdentity := false }

section Manager

-- `mbedtls_x509_crt_parse` on a buffer, with the raw certificate it finds, and
-- SHA-256.
variable (crtParse : List UInt8 → Option (List UInt8)) (sha256 : List UInt8 → Digest)

def calculateIdentityFingerprint : TlsM Bool := do
  let state ← tlsState
  match crtParse state.identityCert with
  | none => return false
  | some raw =>
      setTlsState fun state => { state with identityFingerprint := sha256 raw }
      return true

/-- `generate_identity`, where `generated` is the pair mbedtls encoded, if it did. -/
def generateIdentity (generated : Option Identity) : TlsM Bool :=
  match generated with
  | none => do
      setTlsState TlsState.wipeIdentity
      return false
  | some identity => do
      setTlsState fun state =>
        { state with identityCert := identity.cert, identityKey := identity.key }
      if ← calculateIdentityFingerprint crtParse sha256 then
        if ← storeIdentity then
          setTlsState fun state => { state with hasIdentity := true }
          return true
        else
          setTlsState TlsState.wipeIdentity
          return false
      else
        setTlsState TlsState.wipeIdentity
        return false

def loadIdentity : TlsM Bool := do
  match ← tlsNvs (NvsFlash.getValue .idCert tlsMaxCertLen) with
  | .error _ => return false
  | .ok cert =>
      setTlsState fun state => { state with identityCert := cert }
      match ← tlsNvs (NvsFlash.getValue .idKey tlsMaxKeyLen) with
      | .error _ =>
          setTlsState fun state => { state with identityCert := [] }
          return false
      | .ok key =>
          setTlsState fun state => { state with identityKey := key }
          if ← calculateIdentityFingerprint crtParse sha256 then
            setTlsState fun state => { state with hasIdentity := true }
            return true
          else
            setTlsState fun state => { state with identityCert := [], identityKey := [] }
            return false

/-- The certificate and the key of the web server, once the namespace is open. -/
def loadCerts : TlsM Unit := do
  match ← tlsNvs (NvsFlash.getValue .cert tlsMaxCertLen) with
  | .error _ => return ()
  | .ok cert =>
      setTlsState fun state => { state with cert }
      match ← tlsNvs (NvsFlash.getValue .key tlsMaxKeyLen) with
      | .error _ => setTlsState fun state => { state with cert := [] }
      | .ok key => setTlsState fun state => { state with key, hasCerts := true }

/-- Each way `tls_mgr_init` ends generates an identity if none was loaded. -/
def tlsMgrInit (generated : Option Identity) : TlsM Unit := do
  let state ← tlsState
  if state.initialised then return ()
  else
    setTlsState fun state => { state with initialised := true }
    match ← tlsNvs NvsFlash.openNamespace with
    | .error _ =>
        let _ ← generateIdentity crtParse sha256 generated
        return ()
    | .ok _ =>
        let identityLoaded ← loadIdentity crtParse sha256
        loadCerts
        if identityLoaded then return ()
        else
          let _ ← generateIdentity crtParse sha256 generated
          return ()

/-- The bytes before the zeros a buffer ends with. -/
def trimZeros (cert : List UInt8) : List UInt8 := (cert.reverse.dropWhile (· == 0)).reverse

def certIsParseable (cert : List UInt8) : Bool :=
  let trimmed := trimZeros cert
  !trimmed.isEmpty && (crtParse (trimmed ++ [0])).isSome

def tlsMgrStoreCerts (cert key : List UInt8) : TlsM Bool := do
  if cert.isEmpty || key.isEmpty then return false
  else if tlsMaxCertLen < cert.length ∨ tlsMaxKeyLen < key.length then return false
  else if !certIsParseable crtParse cert then return false
  else
    match ← tlsNvs NvsFlash.openNamespace with
    | .error _ => return false
    | .ok _ =>
        match ← tlsNvs (NvsFlash.setValue .cert cert) with
        | .error _ => return false
        | .ok _ =>
            match ← tlsNvs (NvsFlash.setValue .key key) with
            | .error _ =>
                -- the certificate just written is rolled back
                let _ ← tlsNvs (NvsFlash.eraseKey .cert)
                let _ ← tlsNvs NvsFlash.commit
                return false
            | .ok _ =>
                match ← tlsNvs NvsFlash.commit with
                | .error _ => return false
                | .ok _ =>
                    setTlsState fun state => { state with cert, key, hasCerts := true }
                    return true

end Manager

/-- The result of an erase counts as success where there was nothing to erase. -/
def erased : Except EspErr Unit → Bool
  | .ok _ => true
  | .error e => e == nvsNotFound

def tlsMgrClearCerts : TlsM Bool := do
  match ← tlsNvs NvsFlash.openNamespace with
  | .error _ => return false
  | .ok _ =>
      let certErr ← tlsNvs (NvsFlash.eraseKey .cert)
      let keyErr ← tlsNvs (NvsFlash.eraseKey .key)
      match ← tlsNvs NvsFlash.commit with
      | .error _ => return false
      | .ok _ =>
          if erased certErr && erased keyErr then
            setTlsState fun state => { state with cert := [], key := [], hasCerts := false }
            return true
          else return false

end ArcticController

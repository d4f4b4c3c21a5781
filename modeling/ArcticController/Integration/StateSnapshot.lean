/-
The state snapshots for Home Assistant (`ha_integration.cpp`), built by any number of
tasks.

* `calculateSnapshotHash`: what a snapshot is told apart by;
* `RevisionState.assign`: the section of `s_revision_mutex`, which counts a new content;
* `asDouble`: a revision as the number of the document;
* `SnapshotTask`, `SnapshotSystem`, `SnapshotStep`: the tasks between `getState`, the
  reads of the device name and that section, with updates and renames in between.
-/
import ArcticController.Auth.Digest
import ArcticController.Base.Runs

namespace ArcticController

/-! ### The hash of a snapshot -/

/-- The hash of a text; computing it may fail. -/
def calculateHash (sha : List UInt8 → Digest) (computed : Bool) (text : List UInt8) :
    Option Digest :=
  if computed then some (sha text) else none

/-- A digit of `0123456789abcdef`. -/
def hexChar (n : UInt8) : UInt8 := if n < 10 then 0x30 + n else 0x57 + n

def bytesToHex (bytes : List UInt8) : List UInt8 :=
  bytes.flatMap fun byte : UInt8 => [hexChar (byte >>> 4), hexChar (byte &&& 0x0f)]

section Hash

variable (sha : List UInt8 → Digest) (keyedText : List UInt8 → List UInt8 → List UInt8)

/-- The hash of the state and the name, of which `keyedText` makes one document. -/
def calculateSnapshotHash (stateHashed keyedHashed : Bool) (state deviceName : List UInt8) :
    Option Digest :=
  match calculateHash sha stateHashed state with
  | none => none
  | some stateHash => calculateHash sha keyedHashed (keyedText (bytesToHex stateHash.toList) deviceName)

end Hash

/-! ### Revisions -/

structure RevisionState where
  stateHash : Digest := .zero
  revision : UInt64 := 0
  hasStateHash : Bool := false

/-- Under the mutex: a hash that differs from the last one counts. -/
def RevisionState.assign (s : RevisionState) (hash : Digest) : RevisionState :=
  if ¬ s.hasStateHash ∨ hash ≠ s.stateHash then
    { stateHash := hash
      revision := s.revision + 1
      hasStateHash := true }
  else s

/-- A revision as a `double`: 53 bits, the nearest of two, the even one of two as near. -/
def asDouble (revision : UInt64) : ℕ :=
  let n := revision.toNat
  let shift := n.log2 - 52
  let low := n % 2 ^ shift
  let up := 2 ^ shift < 2 * low ∨ (2 ^ shift = 2 * low ∧ n / 2 ^ shift % 2 = 1)
  (n / 2 ^ shift + if up then 1 else 0) * 2 ^ shift

/-! ### The device name -/

def appPrefsDeviceNameMaxBytes : ℕ := 128

/-- A name that differs is copied as far as it fits. -/
def appPrefsSetDeviceName (deviceName name : List UInt8) : List UInt8 :=
  if deviceName = name then deviceName else name.take (appPrefsDeviceNameMaxBytes - 1)

/-! ### The tasks -/

/-- What was given a revision: the state and the name as they were hashed, and the place
of the read of the controller state among all of them, which is no part of the code. -/
structure Revised where
  readAt : ℕ
  state : List UInt8
  name : List UInt8
  revision : UInt64

/-- A snapshot as it goes out. -/
structure StateSnapshot where
  readAt : ℕ
  state : List UInt8
  deviceName : Option (List UInt8)
  revision : ℕ

/-- Where a task in `createStateSnapshot` is. -/
inductive SnapshotTask (σ : Type) where
  | idle
  | captured (readAt : ℕ) (hp : σ)
  | built (readAt : ℕ) (state : List UInt8)
  | hashed (readAt : ℕ) (state name : List UInt8) (hash : Digest)
  | revised (r : Revised)
  | checked (r : Revised) (named : Bool)
  | copied (r : Revised) (deviceName : Option (List UInt8))

structure SnapshotSystem (σ : Type) where
  hp : σ
  deviceName : List UInt8 := []
  revisions : RevisionState := {}
  reads : ℕ := 0
  task : ℕ → SnapshotTask σ := fun _ => .idle

/-- What the tasks did: a hash, a revision given, a later read of the device name, and a
snapshot that goes out. -/
inductive SnapshotEvent where
  | hashed (task : ℕ) (state name : List UInt8)
  | assigned (task : ℕ) (r : Revised)
  | named (task : ℕ) (r : Revised) (name : List UInt8)
  | emitted (task : ℕ) (r : Revised) (snapshot : StateSnapshot)

section Steps

variable {σ ρ : Type} (sha : List UInt8 → Digest)
  (keyedText : List UInt8 → List UInt8 → List UInt8) (stateText : σ → ρ → List UInt8)

/-- One step of one task, of the controller or of a rename. `stateText` is the document
of a state and of what else is read while it is built; memory may run out. -/
inductive SnapshotStep : SnapshotSystem σ → Option SnapshotEvent → SnapshotSystem σ → Prop where
  | update (s : SnapshotSystem σ) (hp : σ) : SnapshotStep s none { s with hp }
  | rename (s : SnapshotSystem σ) (name : List UInt8) :
      SnapshotStep s none { s with deviceName := appPrefsSetDeviceName s.deviceName name }
  | getState (s : SnapshotSystem σ) (t : ℕ) (hidle : s.task t = .idle) :
      SnapshotStep s none
        { s with
          reads := s.reads + 1
          task := Function.update s.task t (.captured s.reads s.hp) }
  | build (s : SnapshotSystem σ) (t readAt : ℕ) (hp : σ) (rest : ρ)
      (h : s.task t = .captured readAt hp) :
      SnapshotStep s none
        { s with task := Function.update s.task t (.built readAt (stateText hp rest)) }
  | buildFailed (s : SnapshotSystem σ) (t readAt : ℕ) (hp : σ) (h : s.task t = .captured readAt hp) :
      SnapshotStep s none { s with task := Function.update s.task t .idle }
  | hash (s : SnapshotSystem σ) (t readAt : ℕ) (state : List UInt8) (stateHashed keyedHashed : Bool)
      (hash : Digest) (h : s.task t = .built readAt state)
      (hhash : calculateSnapshotHash sha keyedText stateHashed keyedHashed state s.deviceName
        = some hash) :
      SnapshotStep s (some (.hashed t state s.deviceName))
        { s with task := Function.update s.task t (.hashed readAt state s.deviceName hash) }
  | hashFailed (s : SnapshotSystem σ) (t readAt : ℕ) (state : List UInt8)
      (h : s.task t = .built readAt state) :
      SnapshotStep s none { s with task := Function.update s.task t .idle }
  | assign (s : SnapshotSystem σ) (t readAt : ℕ) (state name : List UInt8) (hash : Digest)
      (h : s.task t = .hashed readAt state name hash) :
      SnapshotStep s
        (some (.assigned t ⟨readAt, state, name, (s.revisions.assign hash).revision⟩))
        { s with
          revisions := s.revisions.assign hash
          task := Function.update s.task t
            (.revised ⟨readAt, state, name, (s.revisions.assign hash).revision⟩) }
  | rootFailed (s : SnapshotSystem σ) (t : ℕ) (r : Revised) (h : s.task t = .revised r) :
      SnapshotStep s none { s with task := Function.update s.task t .idle }
  | check (s : SnapshotSystem σ) (t : ℕ) (r : Revised) (h : s.task t = .revised r) :
      SnapshotStep s (some (.named t r s.deviceName))
        { s with task := Function.update s.task t (.checked r (s.deviceName ≠ [])) }
  | copy (s : SnapshotSystem σ) (t : ℕ) (r : Revised) (h : s.task t = .checked r true) :
      SnapshotStep s (some (.named t r s.deviceName))
        { s with task := Function.update s.task t (.copied r (some s.deviceName)) }
  | noName (s : SnapshotSystem σ) (t : ℕ) (r : Revised) (h : s.task t = .checked r false) :
      SnapshotStep s none { s with task := Function.update s.task t (.copied r none) }
  | emit (s : SnapshotSystem σ) (t : ℕ) (r : Revised) (deviceName : Option (List UInt8))
      (h : s.task t = .copied r deviceName) :
      SnapshotStep s
        (some (.emitted t r ⟨r.readAt, r.state, deviceName, asDouble r.revision⟩))
        { s with task := Function.update s.task t .idle }

end Steps

end ArcticController

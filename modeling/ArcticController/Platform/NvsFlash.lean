/-
Non-volatile storage as the flash sees it: every write of a namespace reaches
the flash by itself, so a loss of power between two writes leaves the first one.

* `NvsFlash`: the values of a namespace;
* `NvsFlash.openNamespace`, `getValue`, `setValue`, `eraseKey`, `commit`: the
  calls. One that fails or is cut may have reached the flash or not;
* `NvsFlash.wp_plain`, `NvsFlash.wp_setValue`: what a call may leave;
* `NvsFlash.wp_call`, `NvsFlash.wp_set`, `NvsFlash.wp_attempt_plain`,
  `NvsFlash.wp_attempt_getValue`, `NvsFlash.wp_attempt_eraseKey`: the same under the faults a claim allows;
* `NvsFlash.read`, `NvsFlash.runs_plain`, `NvsFlash.runs_getValue`,
  `NvsFlash.runs_setValue`: the calls without faults.
-/
import ArcticController.Platform.Nvs

namespace ArcticController

/-- The values of a namespace. -/
abbrev NvsFlash (K : Type) : Type := K → Option (List UInt8)

/-- A computation on a namespace. -/
abbrev NvsFlashM (K α : Type) : Type := FaultM (NvsFlash K) NvsFault (NvsOp K) EspErr α

namespace NvsFlash

variable {K : Type} [DecidableEq K]

/-- A call without an effect of its own. -/
def plain (op : NvsOp K) : NvsFlashM K Unit :=
  .perform (fun _ => op) fun fault s =>
    match fault with
    | .none => (.val (), s)
    | .error e _ => (.err e, s)
    | .cut _ => (.cut, s)

/-- `nvs_open`. -/
def openNamespace : NvsFlashM K Unit := plain .open

/-- `nvs_get_blob` and `nvs_get_str`, into a buffer of `length` bytes. -/
def getValue (key : K) (length : ℕ) : NvsFlashM K (List UInt8) :=
  .perform (fun _ => .getBlob key length) fun fault s =>
    match fault with
    | .none =>
        match s key with
        | some value => if length < value.length then (.err nvsInvalidLength, s) else (.val value, s)
        | none => (.err nvsNotFound, s)
    | .error e _ => (.err e, s)
    | .cut _ => (.cut, s)

/-- `nvs_set_blob` and `nvs_set_str`. -/
def setValue (key : K) (value : List UInt8) : NvsFlashM K Unit :=
  .perform (fun _ => .setBlob key value) fun fault s =>
    let s' := if fault.lands then Function.update s key (some value) else s
    match fault with
    | .none => (.val (), s')
    | .error e _ => (.err e, s')
    | .cut _ => (.cut, s')

/-- `nvs_erase_key`. -/
def eraseKey (key : K) : NvsFlashM K Unit :=
  .perform (fun _ => .eraseKey key) fun fault s =>
    let s' := if fault.lands then Function.update s key none else s
    match fault with
    | .none => if (s key).isSome then (.val (), s') else (.err nvsNotFound, s)
    | .error e _ => (.err e, s')
    | .cut _ => (.cut, s')

/-- `nvs_commit`, which has nothing left to write. -/
def commit : NvsFlashM K Unit := plain .commit

/-! ### The rules of the calls -/

section Rules

variable {s : NvsFlash K}

omit [DecidableEq K] in
lemma wp_plain {op : NvsOp K} {Q : Outcome EspErr Unit → NvsFlash K → Prop}
    (hok : Q (.val ()) s) (hbad : ∀ o, (∀ a, o ≠ .val a) → Q o s) :
    wp anyNvsFaults (plain op) Q s := by
  refine wp_perform (fun fault _ => ?_) trivial
  cases fault with
  | none => exact hok
  | error e _ => exact hbad (.err e) nofun
  | cut _ => exact hbad .cut nofun

/-- Storing a value: a call that fails or is cut left the old one or the new. -/
lemma wp_setValue {key : K} {value : List UInt8} {Q : Outcome EspErr Unit → NvsFlash K → Prop}
    (hok : Q (.val ()) (Function.update s key (some value)))
    (hbad : ∀ o, (∀ a, o ≠ .val a) → ∀ s', s' = s ∨ s' = Function.update s key (some value) →
      Q o s') : wp anyNvsFaults (setValue key value) Q s := by
  refine wp_perform (fun fault _ => ?_) trivial
  cases fault with
  | none => exact hok
  | error e reached =>
      cases reached with
      | false => exact hbad (.err e) nofun _ (.inl rfl)
      | true => exact hbad (.err e) nofun _ (.inr rfl)
  | cut reached =>
      cases reached with
      | false => exact hbad .cut nofun _ (.inl rfl)
      | true => exact hbad .cut nofun _ (.inr rfl)

end Rules

/-- What reading a value gives. -/
def read (s : NvsFlash K) (key : K) (length : ℕ) : Except EspErr (List UInt8) :=
  match s key with
  | some value => if length < value.length then .error nvsInvalidLength else .ok value
  | none => .error nvsNotFound

omit [DecidableEq K] in
/-- A value that fits is read. -/
lemma read_ok {s : NvsFlash K} {key : K} {value : List UInt8} {length : ℕ} (h : s key = some value)
    (hlen : value.length ≤ length) : read s key length = .ok value := by
  rw [read, h]
  exact if_neg (not_lt.mpr hlen)

omit [DecidableEq K] in
/-- What is read is on flash. -/
lemma of_read {s : NvsFlash K} {key : K} {value : List UInt8} {length : ℕ}
    (h : read s key length = .ok value) : s key = some value := by
  rw [read] at h
  cases hkey : s key with
  | none => rw [hkey] at h; cases h
  | some value' =>
      rw [hkey] at h
      dsimp only at h
      split at h
      · cases h
      · cases h
        rfl

/-! ### The rules of the calls under a promise -/

section Promises

variable {R : Rely NvsFault (NvsOp K)} {s : NvsFlash K}

omit [DecidableEq K] in
/-- A call without an effect of its own. -/
lemma wp_call {op : NvsOp K} {Q : Outcome EspErr Unit → NvsFlash K → Prop} (hp : R.promise op)
    (hok : Q (.val ()) s) (herr : ∀ e reached, R.allowed op (.error e reached) → Q (.err e) s)
    (hcut : Q .cut s) : wp R (plain op) Q s := by
  refine wp_perform (fun f hf => ?_) hp
  cases f with
  | none => exact hok
  | error e reached => exact herr e reached hf
  | cut _ => exact hcut

omit [DecidableEq K] in
lemma wp_attempt_plain {op : NvsOp K} {Q : Outcome EspErr (Except EspErr Unit) → NvsFlash K → Prop}
    (hp : R.promise op) (hok : Q (.val (.ok ())) s)
    (herr : ∀ e reached, R.allowed op (.error e reached) → Q (.val (.error e)) s)
    (hcut : Q .cut s) : wp R (plain op).attempt Q s :=
  wp_attempt (wp_call hp hok herr hcut)

omit [DecidableEq K] in
lemma wp_attempt_getValue {key : K} {length : ℕ}
    {Q : Outcome EspErr (Except EspErr (List UInt8)) → NvsFlash K → Prop}
    (hp : R.promise (.getBlob key length)) (hok : Q (.val (read s key length)) s)
    (herr : ∀ e reached, R.allowed (.getBlob key length) (.error e reached) →
      Q (.val (.error e)) s)
    (hcut : Q .cut s) : wp R (getValue key length).attempt Q s := by
  refine wp_attempt (wp_perform (fun f hf => ?_) hp)
  cases f with
  | none =>
      rw [read] at hok
      cases hkey : s key with
      | none => simpa [hkey] using hok
      | some value => by_cases hlen : length < value.length <;> simpa [hkey, hlen] using hok
  | error e reached => exact herr e reached hf
  | cut _ => exact hcut

/-- A call that fails or is cut reached the flash or did not, as its fault says. -/
lemma wp_set {key : K} {value : List UInt8} {Q : Outcome EspErr Unit → NvsFlash K → Prop}
    (hp : R.promise (.setBlob key value)) (hok : Q (.val ()) (Function.update s key (some value)))
    (herr : ∀ e reached, R.allowed (.setBlob key value) (.error e reached) →
      Q (.err e) (if reached then Function.update s key (some value) else s))
    (hcut : ∀ reached, R.allowed (.setBlob key value) (.cut reached) →
      Q .cut (if reached then Function.update s key (some value) else s)) :
    wp R (setValue key value) Q s := by
  refine wp_perform (fun f hf => ?_) hp
  cases f with
  | none => exact hok
  | error e reached => exact herr e reached hf
  | cut reached => exact hcut reached hf

lemma wp_attempt_eraseKey {key : K} {Q : Outcome EspErr (Except EspErr Unit) → NvsFlash K → Prop}
    (hp : R.promise (.eraseKey key)) (hok : Q (.val (.ok ())) (Function.update s key none))
    (hnone : s key = none → Q (.val (.error nvsNotFound)) s)
    (herr : ∀ e reached, R.allowed (.eraseKey key) (.error e reached) →
      Q (.val (.error e)) (if reached then Function.update s key none else s))
    (hcut : ∀ reached, R.allowed (.eraseKey key) (.cut reached) →
      Q .cut (if reached then Function.update s key none else s)) :
    wp R (eraseKey key).attempt Q s := by
  refine wp_attempt (wp_perform (fun f hf => ?_) hp)
  cases f with
  | none =>
      cases hkey : s key with
      | none => simpa [hkey] using hnone hkey
      | some value => simpa [hkey, NvsFault.lands] using hok
  | error e reached => exact herr e reached hf
  | cut reached => exact hcut reached hf

end Promises

/-! ### Calls without faults -/

omit [DecidableEq K] in
lemma runs_plain (op : NvsOp K) (s : NvsFlash K) : FaultM.Runs (plain op) s () s :=
  ⟨[(op, .none)], rfl⟩

omit [DecidableEq K] in
lemma runs_getValue (key : K) (length : ℕ) (s : NvsFlash K) :
    FaultM.Runs (getValue key length).attempt s (read s key length) s := by
  refine ⟨[(.getBlob key length, .none)], ?_⟩
  rw [FaultM.attempt, getValue, FaultM.perform, read]
  simp only [List.headD_nil, List.tail_nil, default]
  cases s key with
  | none => rfl
  | some value => by_cases hlen : length < value.length <;> simp [hlen]

lemma runs_setValue (key : K) (value : List UInt8) (s : NvsFlash K) :
    FaultM.Runs (setValue key value) s () (Function.update s key (some value)) :=
  ⟨[(.setBlob key value, .none)], rfl⟩

end NvsFlash

end ArcticController

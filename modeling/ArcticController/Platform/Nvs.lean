/-
Non-volatile storage, the calls the energy modules make on one NVS namespace.

* `Nvs`: the blobs of a namespace, as they would survive a reset and as a
  reader sees them now. A write shows at once and survives from the next
  commit on;
* `NvsFault`: what may happen to one call. A failed commit either reached the
  flash or took the write back;
* `espMalloc`, `nvsOpen`, `nvsGetBlob`, `nvsSetBlob`, `nvsEraseKey`,
  `nvsCommit`: the calls, each logged with the fault that hit it;
* `Nvs.reset`: what a reset leaves;
* `wpObs_read`, `wpObs_plain`, `wpObs_attempt_setBlob`, `wpObs_attempt_commit`,
  `wpObs_attempt_erase`: the rules of the calls as the callers use them.
-/
import ArcticController.Platform.Partition

namespace ArcticController

/-- `ESP_ERR_NVS_NOT_FOUND`. -/
def nvsNotFound : EspErr := .other 0x1102

/-- `ESP_ERR_NVS_INVALID_LENGTH`. -/
def nvsInvalidLength : EspErr := .other 0x110C

/-- The blobs of a namespace: `stored` survives a reset, `written` is what a
reader sees. -/
structure Nvs (K : Type) where
  stored : K → Option (List UInt8)
  written : K → Option (List UInt8)

/-- The calls on a namespace, and the allocation of the buffer a blob is read
into. -/
inductive NvsOp (K : Type) where
  | malloc (size : ℕ)
  | open
  | getBlob (key : K) (length : ℕ)
  | setBlob (key : K) (blob : List UInt8)
  | eraseKey (key : K)
  | commit
deriving DecidableEq, Repr

/-- What happens to one call: nothing unusual, an error, or a loss of power.
`reached` says whether a commit that ends so had reached the flash. -/
inductive NvsFault where
  | none
  | error (e : EspErr) (reached : Bool)
  | cut (reached : Bool)
deriving DecidableEq, Repr

instance : Inhabited NvsFault := ⟨.none⟩

/-- A call that succeeds. -/
def NvsFault.isNone : NvsFault → Bool
  | .none => true
  | _ => false

/-- A call that reports an error. -/
def NvsFault.isError : NvsFault → Bool
  | .error _ _ => true
  | _ => false

/-- A commit hit by this fault reaches the flash. -/
def NvsFault.lands : NvsFault → Bool
  | .none => true
  | .error _ reached => reached
  | .cut reached => reached

/-- A computation on a namespace. -/
abbrev NvsM (K α : Type) : Type := FaultM (Nvs K) NvsFault (NvsOp K) EspErr α

section Contents

variable {K : Type}

/-- What a reset leaves of a namespace. -/
def Nvs.reset (s : Nvs K) : Nvs K := ⟨s.stored, s.stored⟩

/-- A namespace with nothing left to commit. -/
def Nvs.Settled (s : Nvs K) : Prop := s.written = s.stored

/-- The settled namespace with the contents `c`. -/
def Nvs.ofContents (c : K → Option (List UInt8)) : Nvs K := ⟨c, c⟩

lemma Nvs.Settled.eq {s : Nvs K} (h : s.Settled) : s = .ofContents s.stored := by
  cases s
  simp only [Nvs.Settled] at h
  rw [Nvs.ofContents, h]

lemma Nvs.settled_ofContents (c : K → Option (List UInt8)) : (Nvs.ofContents c).Settled := rfl

@[simp] lemma Nvs.stored_ofContents (c : K → Option (List UInt8)) :
    (Nvs.ofContents c).stored = c := rfl

@[simp] lemma Nvs.written_ofContents (c : K → Option (List UInt8)) :
    (Nvs.ofContents c).written = c := rfl

lemma Nvs.settled_reset (s : Nvs K) : s.reset.Settled := rfl

end Contents

section Calls

variable {K : Type} [DecidableEq K]

/-- A call without an effect of its own. -/
def nvsPlain (op : NvsOp K) : NvsM K Unit :=
  .perform (fun _ => op) fun fault s =>
    match fault with
    | .none => (.val (), s)
    | .error e _ => (.err e, s)
    | .cut _ => (.cut, s)

/-- `malloc`, whose only failure is to have no memory. -/
def espMalloc (size : ℕ) : NvsM K Unit := nvsPlain (.malloc size)

/-- `nvs_open`. -/
def nvsOpen : NvsM K Unit := nvsPlain .open

/-- `nvs_get_blob` into a buffer of `length` bytes. -/
def nvsGetBlob (key : K) (length : ℕ) : NvsM K (List UInt8) :=
  .perform (fun _ => .getBlob key length) fun fault s =>
    match fault with
    | .none =>
        match s.written key with
        | some blob => if length < blob.length then (.err nvsInvalidLength, s) else (.val blob, s)
        | none => (.err nvsNotFound, s)
    | .error e _ => (.err e, s)
    | .cut _ => (.cut, s)

/-- `nvs_set_blob`: a failed one leaves the old value. -/
def nvsSetBlob (key : K) (blob : List UInt8) : NvsM K Unit :=
  .perform (fun _ => .setBlob key blob) fun fault s =>
    match fault with
    | .none => (.val (), { s with written := Function.update s.written key (some blob) })
    | .error e _ => (.err e, s)
    | .cut _ => (.cut, s)

/-- `nvs_erase_key`. -/
def nvsEraseKey (key : K) : NvsM K Unit :=
  .perform (fun _ => .eraseKey key) fun fault s =>
    match fault with
    | .none =>
        if (s.written key).isSome then
          (.val (), { s with written := Function.update s.written key none })
        else (.err nvsNotFound, s)
    | .error e _ => (.err e, s)
    | .cut _ => (.cut, s)

/-- `nvs_commit`. -/
def nvsCommit : NvsM K Unit :=
  .perform (fun _ => .commit) fun fault s =>
    let s' : Nvs K := if fault.lands then ⟨s.written, s.written⟩ else ⟨s.stored, s.stored⟩
    match fault with
    | .none => (.val (), s')
    | .error e _ => (.err e, s')
    | .cut _ => (.cut, s')

/-! ### What a claim sees of the calls -/

/-- The calls a claim looks at: a read that reports an error, a blob handed
over, and a commit with whether it reached the flash. -/
inductive NvsEvent where
  | readError
  | set
  | commit (landed : Bool)
deriving DecidableEq, Repr

/-- The event a call is, if any. -/
def nvsEvent (call : NvsOp K × NvsFault) : Option NvsEvent :=
  match call.1 with
  | .getBlob _ _ => if call.2.isError then some .readError else none
  | .setBlob _ _ => if call.2.isNone then some .set else none
  | .commit => some (.commit call.2.lands)
  | .malloc _ | .open | .eraseKey _ => none

/-- Any call may be hit by any fault. -/
def anyNvsFaults : Rely NvsFault (NvsOp K) := ⟨fun _ _ => True, fun _ => True⟩

/-- Every call may be hit by any fault, but a read only by a loss of power. -/
def readsSucceed : Rely NvsFault (NvsOp K) where
  allowed op fault := match op with
    | .getBlob _ _ => fault.isError = false
    | _ => True
  promise _ := True

omit [DecidableEq K] in
/-- Where reads succeed no event is a failed read. -/
lemma readError_notMem_of_readsSucceed {ops : List (NvsOp K × NvsFault)}
    (h : (readsSucceed : Rely NvsFault (NvsOp K)).Covers ops) :
    NvsEvent.readError ∉ ops.filterMap nvsEvent := by
  intro hmem
  obtain ⟨⟨op, fault⟩, hop, hev⟩ := List.mem_filterMap.mp hmem
  have hallowed := h _ hop
  cases op <;> cases fault <;> simp_all [nvsEvent, readsSucceed, NvsFault.isError, NvsFault.isNone]

/-! ### The rules of the calls -/

variable {α : Type} {s : Nvs K} {Q : Outcome EspErr α → Nvs K → List NvsEvent → Prop}

omit [DecidableEq K] in
variable {k : Except EspErr Unit → NvsM K α} {key : K}

/-- An allocation or an open, whose error the caller looks at. -/
lemma wpObs_attempt_plain {op : NvsOp K} (hop : ∀ f, nvsEvent (op, f) = none)
    (hok : wpObs anyNvsFaults nvsEvent (k (.ok ())) Q s)
    (herr : ∀ e, wpObs anyNvsFaults nvsEvent (k (.error e)) Q s) (hcut : Q .cut s []) :
    wpObs anyNvsFaults nvsEvent ((nvsPlain op).attempt >>= k) Q s := by
  refine wpObs_bind (wpObs_attempt (wpObs_perform (fun f _ => ?_) trivial))
  have hnil : [(op, f)].filterMap nvsEvent = [] := by simp [hop f]
  cases f with
  | none => simpa [hnil] using hok
  | error e _ => simpa [hnil] using herr e
  | cut _ => simpa [hnil] using hcut

omit [DecidableEq K] in
/-- Reading a blob. -/
lemma wpObs_attempt_getBlob {length : ℕ} {k : Except EspErr (List UInt8) → NvsM K α}
    (hsome : ∀ blob, s.written key = some blob → blob.length ≤ length →
      wpObs anyNvsFaults nvsEvent (k (.ok blob)) Q s)
    (hnone : ∀ e, (∀ blob, s.written key = some blob → length < blob.length) →
      wpObs anyNvsFaults nvsEvent (k (.error e)) Q s)
    (herr : ∀ e, wpObs anyNvsFaults nvsEvent (k (.error e))
      (fun o s' w => Q o s' (.readError :: w)) s)
    (hcut : Q .cut s []) :
    wpObs anyNvsFaults nvsEvent ((nvsGetBlob key length).attempt >>= k) Q s := by
  refine wpObs_bind (wpObs_attempt (wpObs_perform (fun f _ => ?_) trivial))
  cases f with
  | none =>
      cases hkey : s.written key with
      | none =>
          simpa [nvsEvent, NvsFault.isError, NvsFault.isNone, hkey] using hnone nvsNotFound (fun blob hb => by simp [hkey] at hb)
      | some blob =>
          by_cases hlen : length < blob.length
          · simpa [nvsEvent, NvsFault.isError, NvsFault.isNone, hkey, hlen] using hnone nvsInvalidLength (fun b hb => by
              rw [hkey, Option.some.injEq] at hb
              exact hb ▸ hlen)
          · simpa [nvsEvent, NvsFault.isError, NvsFault.isNone, hkey, hlen] using hsome blob hkey (not_lt.mp hlen)
  | error e _ => simpa [nvsEvent, NvsFault.isError, NvsFault.isNone] using herr e
  | cut _ => simpa [nvsEvent, NvsFault.isError, NvsFault.isNone] using hcut

/-- Handing a blob over. -/
lemma wpObs_attempt_setBlob {blob : List UInt8}
    (hok : wpObs anyNvsFaults nvsEvent (k (.ok ())) (fun o s' w => Q o s' (.set :: w))
      { s with written := Function.update s.written key (some blob) })
    (herr : ∀ e, wpObs anyNvsFaults nvsEvent (k (.error e)) Q s) (hcut : Q .cut s []) :
    wpObs anyNvsFaults nvsEvent ((nvsSetBlob key blob).attempt >>= k) Q s := by
  refine wpObs_bind (wpObs_attempt (wpObs_perform (fun f _ => ?_) trivial))
  cases f with
  | none => simpa [nvsEvent, NvsFault.isError, NvsFault.isNone] using hok
  | error e _ => simpa [nvsEvent, NvsFault.isError, NvsFault.isNone] using herr e
  | cut _ => simpa [nvsEvent, NvsFault.isError, NvsFault.isNone] using hcut

omit [DecidableEq K] in
/-- Committing what was written: it reaches the flash or is taken back. -/
lemma wpObs_attempt_commit
    (hok : wpObs anyNvsFaults nvsEvent (k (.ok ())) (fun o s' w => Q o s' (.commit true :: w))
      (.ofContents s.written))
    (herr : ∀ e landed, wpObs anyNvsFaults nvsEvent (k (.error e))
      (fun o s' w => Q o s' (.commit landed :: w))
      (.ofContents (if landed then s.written else s.stored)))
    (hcut : ∀ landed, Q .cut (.ofContents (if landed then s.written else s.stored))
      [.commit landed]) :
    wpObs anyNvsFaults nvsEvent (nvsCommit.attempt >>= k) Q s := by
  refine wpObs_bind (wpObs_attempt (wpObs_perform (fun f _ => ?_) trivial))
  cases f with
  | none => simpa [nvsEvent, NvsFault.lands, Nvs.ofContents] using hok
  | error e landed =>
      have h := herr e landed
      cases landed <;> simpa [nvsEvent, NvsFault.lands, Nvs.ofContents] using h
  | cut landed =>
      have h := hcut landed
      cases landed <;> simpa [nvsEvent, NvsFault.lands, Nvs.ofContents] using h

/-- Erasing a key. -/
lemma wpObs_attempt_eraseKey
    (hok : wpObs anyNvsFaults nvsEvent (k (.ok ())) Q
      { s with written := Function.update s.written key none })
    (herr : ∀ e, wpObs anyNvsFaults nvsEvent (k (.error e)) Q s) (hcut : Q .cut s []) :
    wpObs anyNvsFaults nvsEvent ((nvsEraseKey key).attempt >>= k) Q s := by
  refine wpObs_bind (wpObs_attempt (wpObs_perform (fun f _ => ?_) trivial))
  cases f with
  | none =>
      by_cases hkey : (s.written key).isSome
      · simpa [List.filterMap_cons, nvsEvent, hkey] using hok
      · simpa [List.filterMap_cons, nvsEvent, hkey] using herr nvsNotFound
  | error e _ => simpa [List.filterMap_cons, nvsEvent] using herr e
  | cut _ => simpa [List.filterMap_cons, nvsEvent] using hcut

/-! ### The rules of the calls under a promise -/

section Promises

variable {R : Rely NvsFault (NvsOp K)} {Q : Outcome EspErr α → Nvs K → Prop}

omit [DecidableEq K] in
variable {k : Except EspErr Unit → NvsM K α}

/-- An open, whose error the caller looks at. -/
lemma wp_attempt_plain {op : NvsOp K} (hp : R.promise op) (hok : wp R (k (.ok ())) Q s)
    (herr : ∀ e reached, R.allowed op (.error e reached) → wp R (k (.error e)) Q s)
    (hcut : Q .cut s) : wp R ((nvsPlain op).attempt >>= k) Q s := by
  refine wp_bind (wp_attempt (wp_perform (fun f hf => ?_) hp))
  cases f with
  | none => exact hok
  | error e reached => exact herr e reached hf
  | cut _ => exact hcut

omit [DecidableEq K] in
/-- What reading a blob gives where nothing goes wrong. -/
def Nvs.read (s : Nvs K) (key : K) (length : ℕ) : Except EspErr (List UInt8) :=
  match s.written key with
  | some blob => if length < blob.length then .error nvsInvalidLength else .ok blob
  | none => .error nvsNotFound

omit [DecidableEq K] in
/-- Reading a blob. -/
lemma wp_attempt_getBlob {key : K} {length : ℕ} {k : Except EspErr (List UInt8) → NvsM K α}
    (hp : R.promise (.getBlob key length)) (hok : wp R (k (s.read key length)) Q s)
    (herr : ∀ e reached, R.allowed (.getBlob key length) (.error e reached) →
      wp R (k (.error e)) Q s)
    (hcut : Q .cut s) : wp R ((nvsGetBlob key length).attempt >>= k) Q s := by
  refine wp_bind (wp_attempt (wp_perform (fun f hf => ?_) hp))
  cases f with
  | none =>
      rw [Nvs.read] at hok
      cases hkey : s.written key with
      | none => simpa [hkey] using hok
      | some blob => by_cases hlen : length < blob.length <;> simpa [hkey, hlen] using hok
  | error e reached => exact herr e reached hf
  | cut _ => exact hcut

/-- Handing a blob over. -/
lemma wp_attempt_setBlob {key : K} {blob : List UInt8} (hp : R.promise (.setBlob key blob))
    (hok : wp R (k (.ok ())) Q { s with written := Function.update s.written key (some blob) })
    (herr : ∀ e reached, R.allowed (.setBlob key blob) (.error e reached) →
      wp R (k (.error e)) Q s)
    (hcut : Q .cut s) : wp R ((nvsSetBlob key blob).attempt >>= k) Q s := by
  refine wp_bind (wp_attempt (wp_perform (fun f hf => ?_) hp))
  cases f with
  | none => exact hok
  | error e reached => exact herr e reached hf
  | cut _ => exact hcut

/-- Erasing a key. -/
lemma wp_attempt_eraseKey {key : K} (hp : R.promise (.eraseKey key))
    (hok : wp R (k (.ok ())) Q { s with written := Function.update s.written key none })
    (hnone : s.written key = none → wp R (k (.error nvsNotFound)) Q s)
    (herr : ∀ e reached, R.allowed (.eraseKey key) (.error e reached) → wp R (k (.error e)) Q s)
    (hcut : Q .cut s) : wp R ((nvsEraseKey key).attempt >>= k) Q s := by
  refine wp_bind (wp_attempt (wp_perform (fun f hf => ?_) hp))
  cases f with
  | none =>
      cases hkey : s.written key with
      | none => simpa [hkey] using hnone hkey
      | some blob => simpa [hkey] using hok
  | error e reached => exact herr e reached hf
  | cut _ => exact hcut

omit [DecidableEq K] in
/-- Committing: what was written reaches the flash or is taken back. -/
lemma wp_attempt_commit (hp : R.promise .commit) (hok : wp R (k (.ok ())) Q (.ofContents s.written))
    (herr : ∀ e landed, R.allowed .commit (.error e landed) →
      wp R (k (.error e)) Q (.ofContents (if landed then s.written else s.stored)))
    (hcut : ∀ landed, R.allowed .commit (.cut landed) →
      Q .cut (.ofContents (if landed then s.written else s.stored))) :
    wp R (nvsCommit.attempt >>= k) Q s := by
  refine wp_bind (wp_attempt (wp_perform (fun f hf => ?_) hp))
  cases f with
  | none => exact hok
  | error e landed =>
      have h := herr e landed hf
      cases landed <;> exact h
  | cut landed =>
      have h := hcut landed hf
      cases landed <;> exact h

end Promises

/-! ### Calls without faults -/

omit [DecidableEq K] in
lemma quiet_plain (op : NvsOp K) : FaultM.Quiet (nvsPlain op) := FaultM.quiet_perform _ _

omit [DecidableEq K] in
lemma quiet_getBlob (key : K) (length : ℕ) : FaultM.Quiet (nvsGetBlob key length) :=
  FaultM.quiet_perform _ _

lemma quiet_setBlob (key : K) (blob : List UInt8) : FaultM.Quiet (nvsSetBlob key blob) :=
  FaultM.quiet_perform _ _

lemma quiet_eraseKey (key : K) : FaultM.Quiet (nvsEraseKey key) := FaultM.quiet_perform _ _

omit [DecidableEq K] in
lemma quiet_commit : FaultM.Quiet (nvsCommit : NvsM K Unit) := FaultM.quiet_perform _ _

omit [DecidableEq K] in
/-- Without faults every read succeeds. -/
lemma FaultM.Quiet.readsSucceed {α : Type} {m : NvsM K α} (h : FaultM.Quiet m) (s : Nvs K) :
    ArcticController.readsSucceed.Covers (m s []).ops := by
  intro p hp
  rw [ArcticController.readsSucceed, (h s).2 p hp]
  cases p.1 with
  | getBlob key length => rfl
  | malloc size => trivial
  | «open» => trivial
  | setBlob key blob => trivial
  | eraseKey key => trivial
  | commit => trivial

omit [DecidableEq K] in
lemma runs_plain (op : NvsOp K) (s : Nvs K) : FaultM.Runs (nvsPlain op) s () s := ⟨[(op, .none)], rfl⟩

omit [DecidableEq K] in
/-- A blob that fits the buffer is read. -/
lemma runs_getBlob {length : ℕ} {s : Nvs K} {blob : List UInt8} (h : s.written key = some blob)
    (hlen : blob.length ≤ length) : FaultM.Runs (nvsGetBlob key length).attempt s (.ok blob) s := by
  refine FaultM.Runs.attempt ⟨[(.getBlob key length, .none)], ?_⟩
  simp [nvsGetBlob, FaultM.perform, h, not_lt.mpr hlen, default]

omit [DecidableEq K] in
/-- A key without a blob, or with one that does not fit, reports an error. -/
lemma runs_getBlob_error {length : ℕ} {s : Nvs K}
    (h : ∀ blob, s.written key = some blob → length < blob.length) :
    ∃ e, FaultM.Runs (nvsGetBlob key length).attempt s (.error e) s := by
  cases hkey : s.written key with
  | none =>
      refine ⟨nvsNotFound, [(.getBlob key length, .none)], ?_⟩
      simp [FaultM.attempt, nvsGetBlob, FaultM.perform, hkey, default]
  | some blob =>
      refine ⟨nvsInvalidLength, [(.getBlob key length, .none)], ?_⟩
      simp [FaultM.attempt, nvsGetBlob, FaultM.perform, hkey, h blob hkey, default]

lemma runs_setBlob (key : K) (blob : List UInt8) (s : Nvs K) :
    FaultM.Runs (nvsSetBlob key blob) s ()
      { s with written := Function.update s.written key (some blob) } :=
  ⟨[(.setBlob key blob, .none)], rfl⟩

omit [DecidableEq K] in
lemma runs_commit (s : Nvs K) : FaultM.Runs nvsCommit s () (.ofContents s.written) :=
  ⟨[(.commit, .none)], rfl⟩

/-- Erasing a key leaves it empty, whether or not it was. -/
lemma runs_eraseKey (key : K) (s : Nvs K) :
    (∃ e, FaultM.Runs (nvsEraseKey key).attempt s (.error e) s) ∨
      FaultM.Runs (nvsEraseKey key).attempt s (.ok ())
        { s with written := Function.update s.written key none } := by
  by_cases hkey : (s.written key).isSome
  · refine .inr (FaultM.Runs.attempt ⟨[(.eraseKey key, .none)], ?_⟩)
    simp [nvsEraseKey, FaultM.perform, hkey, default]
  · refine .inl ⟨nvsNotFound, [(.eraseKey key, .none)], ?_⟩
    simp [FaultM.attempt, nvsEraseKey, FaultM.perform, hkey, default]

end Calls
end ArcticController

/-
The notice of the heat pump's faults in the bell (`fault_notice.cpp`): one summary in RAM, saved
in NVS.

* `FaultNotice`, `noticeBlob`: the summary and the layout it is saved in;
* `FaultNoticeState`, `persist`, `faultNoticeInit`, `record`, `tick`, `clear`: the module's state
  and its calls;
* `saved`, `faultNoticeInit_runs`: what is saved of a notice, and what a boot makes of it;
* `persist_spec`: what `persist` leaves.
-/
import ArcticController.Base.Codec
import ArcticController.Platform.NvsFlash

namespace ArcticController

/-! ### The notice -/

def faultNoticeCountMax : UInt32 := 9999
def faultNoticeFlushIntervalS : UInt32 := 600

/-- 2024-01-01; anything earlier means that the clock is not set yet. -/
def minValidTime : Int64 := 1704067200

def noticeBlobVersion : UInt8 := 1

/-- The faults since the last acknowledgement (`fault_notice_t`); a time of 0 is not known. -/
structure FaultNotice where
  pending : Bool := false
  count : UInt32 := 0
  first : Int64 := 0
  latest : Int64 := 0
  latestSite : UInt16 := 0
deriving DecidableEq, Repr

/-- What is saved of it (`notice_blob_t`). -/
structure NoticeBlob where
  version : UInt8
  reserved : UInt8
  latestSite : UInt16
  count : UInt32
  first : Int64
  latest : Int64
deriving DecidableEq, Repr

/-- The 24 bytes of a saved notice. -/
def noticeBlob : Codec NoticeBlob :=
  (Codec.pair .u8 <| .pair .u8 <| .pair .u16 <| .pair .u32 <| .pair .i64 .i64).iso
    (fun p => ⟨p.1, p.2.1, p.2.2.1, p.2.2.2.1, p.2.2.2.2.1, p.2.2.2.2.2⟩)
    (fun b => (b.version, b.reserved, b.latestSite, b.count, b.first, b.latest)) (fun _ => rfl)

inductive NoticeKey where
  | notice
deriving DecidableEq, Repr

namespace FaultNotice

def blob (n : FaultNotice) : NoticeBlob where
  version := noticeBlobVersion
  reserved := 0
  latestSite := n.latestSite
  count := n.count
  first := n.first
  latest := n.latest

/-- One fault more; the first one begins a new notice. -/
def add (n : FaultNotice) (site : UInt16) (time : Int64) : FaultNotice :=
  let n := if n.pending then n else { n with pending := true, count := 0, first := time }
  { n with
    count := if n.count < faultNoticeCountMax then n.count + 1 else n.count
    latest := time
    latestSite := site }

/-- A notice that is gone is erased; a missing key is fine. -/
def store (n : FaultNotice) : NvsFlashM NoticeKey Unit :=
  if n.pending then NvsFlash.setValue .notice (noticeBlob.enc n.blob)
  else do
    match ← (NvsFlash.eraseKey .notice).attempt with
    | .error e => if e ≠ nvsNotFound then FaultM.throw e else pure ()
    | .ok _ => pure ()

def write (n : FaultNotice) : NvsFlashM NoticeKey Unit := do
  n.store
  NvsFlash.commit

end FaultNotice

/-! ### The module -/

/-- The statics of the module; `lastWriteMono` restarts at each boot. -/
structure FaultNoticeState where
  notice : FaultNotice := {}
  revision : UInt32 := 0
  dirty : Bool := false
  lastWriteMono : UInt32 := 0
deriving DecidableEq, Repr

/-- The notice that a saved blob holds, if it is recognised. -/
def recognised (bytes : List UInt8) : Option FaultNotice :=
  let b := noticeBlob.dec bytes
  if bytes.length ≠ noticeBlob.size ∨ b.version ≠ noticeBlobVersion ∨ b.count = 0 then none
  else
    some {
      pending := true
      count := if b.count > faultNoticeCountMax then faultNoticeCountMax else b.count
      first := b.first
      latest := b.latest
      latestSite := b.latestSite }

/-- `fault_notice_init`. -/
def faultNoticeInit (revision : UInt32) : NvsFlashM NoticeKey FaultNoticeState := do
  match ← NvsFlash.openNamespace.attempt with
  | .error _ => return { revision }
  | .ok _ =>
      match ← (NvsFlash.getValue .notice noticeBlob.size).attempt with
      | .error _ => return { revision }
      | .ok bytes =>
          match recognised bytes with
          | none => return { revision }
          | some notice => return { notice, revision := revision + 1 }

namespace FaultNoticeState

/-- A write that fails leaves the notice dirty, for the next tick. -/
def persist (s : FaultNoticeState) (monoS : UInt32) : NvsFlashM NoticeKey FaultNoticeState := do
  let s := { s with lastWriteMono := monoS }
  match ← NvsFlash.openNamespace.attempt with
  | .error _ => return s
  | .ok _ =>
      match ← s.notice.write.attempt with
      | .error _ => return s
      | .ok _ => return { s with dirty := false }

/-- The time of a fault, where the clock is set. -/
def faultTime (now : Int64) : Int64 := if now ≥ minValidTime then now else 0

/-- The state with one fault more. -/
def withFault (s : FaultNoticeState) (site : UInt16) (now : Int64) : FaultNoticeState :=
  { s with notice := s.notice.add site (faultTime now), revision := s.revision + 1, dirty := true }

/-- `fault_notice_record`. -/
def record (s : FaultNoticeState) (site : UInt16) (now : Int64) (monoS : UInt32) (atBoot : Bool) :
    NvsFlashM NoticeKey FaultNoticeState :=
  -- most likely the same fault, already counted before the reboot
  if atBoot ∧ s.notice.pending then return s
  else if ¬ s.notice.pending ∨ monoS - s.lastWriteMono ≥ faultNoticeFlushIntervalS then
    (s.withFault site now).persist monoS
  else return s.withFault site now

/-- `fault_notice_tick`. -/
def tick (s : FaultNoticeState) (monoS : UInt32) : NvsFlashM NoticeKey FaultNoticeState :=
  if s.dirty ∧ monoS - s.lastWriteMono ≥ faultNoticeFlushIntervalS then s.persist monoS
  else return s

/-- `fault_notice_clear`, which erases even if nothing is pending. -/
def clear (s : FaultNoticeState) : NvsFlashM NoticeKey FaultNoticeState :=
  { s with notice := {}, revision := s.revision + 1, dirty := true : FaultNoticeState }.persist
    s.lastWriteMono

end FaultNoticeState

/-! ### What is saved -/

/-- The blob that belongs to a notice. -/
def FaultNotice.saved (n : FaultNotice) : Option (List UInt8) :=
  if n.pending then some (noticeBlob.enc n.blob) else none

/-- A notice as the calls make it: its count is that of some faults. -/
def FaultNotice.Sound (n : FaultNotice) : Prop :=
  (n.pending → n.count ≠ 0 ∧ n.count ≤ faultNoticeCountMax) ∧ (¬ n.pending → n = {})

lemma recognised_enc {n : FaultNotice} (hpending : n.pending) (hsound : n.Sound) :
    recognised (noticeBlob.enc n.blob) = some n := by
  obtain ⟨hne, hle⟩ := hsound.1 hpending
  have hnot : ¬ n.count > faultNoticeCountMax := UInt32.not_lt.mpr hle
  rw [recognised, noticeBlob.dec_enc, noticeBlob.length_enc]
  rw [if_neg (by simp [FaultNotice.blob, hne])]
  cases n
  simp_all [FaultNotice.blob]

/-- A boot whose reads succeed restores what was saved. -/
lemma faultNoticeInit_runs {n : FaultNotice} {flash : NvsFlash NoticeKey} (hsound : n.Sound)
    (hflash : flash .notice = n.saved) (revision : UInt32) :
    ∃ s, FaultM.Runs (faultNoticeInit revision) flash s flash ∧ s.notice = n ∧ s.dirty = false ∧
      s.lastWriteMono = 0 := by
  rw [FaultNotice.saved] at hflash
  by_cases hpending : n.pending
  · rw [if_pos hpending] at hflash
    have hread : NvsFlash.read flash .notice noticeBlob.size = .ok (noticeBlob.enc n.blob) :=
      NvsFlash.read_ok hflash (noticeBlob.length_enc _).le
    refine ⟨{ notice := n, revision := revision + 1 }, ?_, rfl, rfl, rfl⟩
    rw [faultNoticeInit]
    refine (NvsFlash.runs_plain .open flash).attempt.bind ?_
    refine (NvsFlash.runs_getValue .notice noticeBlob.size flash).bind ?_
    rw [hread]
    dsimp only
    rw [recognised_enc hpending hsound]
    exact FaultM.runs_pure _ _
  · rw [if_neg hpending] at hflash
    have hread : NvsFlash.read flash .notice noticeBlob.size = .error nvsNotFound := by
      rw [NvsFlash.read, hflash]
    refine ⟨{ revision }, ?_, (hsound.2 hpending).symm, rfl, rfl⟩
    rw [faultNoticeInit]
    refine (NvsFlash.runs_plain .open flash).attempt.bind ?_
    refine (NvsFlash.runs_getValue .notice noticeBlob.size flash).bind ?_
    rw [hread]
    exact FaultM.runs_pure _ _

/-! ### What `persist` leaves -/

/-- Erasing a key reports that it is missing only if it is. -/
def noticeErases : Rely NvsFault (NvsOp NoticeKey) where
  allowed op fault := match op, fault with
    | .eraseKey _, .error e _ => e ≠ nvsNotFound
    | _, _ => True
  promise _ := True

instance (op : NvsOp NoticeKey) (fault : NvsFault) : Decidable (noticeErases.allowed op fault) := by
  cases op <;> cases fault <;> (simp only [noticeErases]; infer_instance)

instance (ops : List (NvsOp NoticeKey × NvsFault)) : Decidable (noticeErases.Covers ops) :=
  inferInstanceAs (Decidable (∀ p ∈ ops, noticeErases.allowed p.1 p.2))

/-- The flash is as before or has what belongs to the notice. -/
def OldOrSaved (n : FaultNotice) (flash flash' : NvsFlash NoticeKey) : Prop :=
  flash' .notice = flash .notice ∨ flash' .notice = n.saved

section Persist

variable {n : FaultNotice} {s : FaultNoticeState} {flash : NvsFlash NoticeKey} {monoS : UInt32}

/-- What storing the notice answers and leaves. -/
structure Stored (n : FaultNotice) (flash : NvsFlash NoticeKey) (o : Outcome EspErr Unit)
    (flash' : NvsFlash NoticeKey) : Prop where
  saved : o = .val () → flash' .notice = n.saved
  flash : OldOrSaved n flash flash'

/-- A write of what belongs to the notice, whether it reached the flash or not. -/
lemma oldOrSaved_landed {v : Option (List UInt8)} (h : n.saved = v) (reached : Bool) :
    OldOrSaved n flash (if reached then Function.update flash .notice v else flash) := by
  cases reached with
  | false => exact .inl rfl
  | true =>
      rw [if_pos rfl, OldOrSaved, Function.update_self]
      exact .inr h.symm

lemma store_spec (n : FaultNotice) (flash : NvsFlash NoticeKey) :
    wp noticeErases n.store (Stored n flash) flash := by
  rw [FaultNotice.store]
  by_cases hpending : n.pending
  · have hsaved : n.saved = some (noticeBlob.enc n.blob) := if_pos hpending
    have hlanded := @oldOrSaved_landed n flash _ hsaved
    refine wp_if_pos hpending (NvsFlash.wp_set trivial ⟨fun _ => ?_, hlanded true⟩
      (fun e reached _ => ⟨nofun, hlanded reached⟩) fun reached _ => ⟨nofun, hlanded reached⟩)
    rw [Function.update_self, hsaved]
  · have hsaved : n.saved = none := if_neg hpending
    have hlanded := @oldOrSaved_landed n flash _ hsaved
    refine wp_if_neg hpending (wp_bind (NvsFlash.wp_attempt_eraseKey trivial ?_ (fun hnone => ?_)
      (fun e reached he => ?_) fun reached _ => ⟨nofun, hlanded reached⟩))
    · refine wp_pure ⟨fun _ => ?_, hlanded true⟩
      rw [Function.update_self, hsaved]
    · exact wp_if_neg (not_not.mpr rfl) (wp_pure ⟨fun _ => hnone.trans hsaved.symm, .inl rfl⟩)
    · have hne : e ≠ nvsNotFound := he
      exact wp_if_pos hne (wp_throw ⟨nofun, hlanded reached⟩)

lemma write_spec (n : FaultNotice) (flash : NvsFlash NoticeKey) :
    wp noticeErases n.write (Stored n flash) flash := by
  rw [FaultNotice.write]
  refine wp_bind (wp_mono (store_spec n flash) fun o flash' h => ?_)
  cases o with
  | val a =>
      have hsaved := h.saved rfl
      rw [andThen_val, NvsFlash.commit]
      refine NvsFlash.wp_call trivial ⟨fun _ => hsaved, .inr hsaved⟩ (fun e reached _ => ?_) ?_
      · exact ⟨nofun, .inr hsaved⟩
      · exact ⟨nofun, .inr hsaved⟩
  | err e => exact ⟨nofun, h.flash⟩
  | cut => exact ⟨nofun, h.flash⟩

/-- What `persist` answers and leaves: the notice saved, or still dirty. -/
structure Persisted (s : FaultNoticeState) (monoS : UInt32) (flash : NvsFlash NoticeKey)
    (o : Outcome EspErr FaultNoticeState) (flash' : NvsFlash NoticeKey) : Prop where
  returns : ∀ s', o = .val s' → s'.notice = s.notice ∧ s'.lastWriteMono = monoS ∧
    (s'.dirty = false ∧ flash' .notice = s.notice.saved ∨ s'.dirty = s.dirty)
  answers : ∀ e, o ≠ .err e
  flash : OldOrSaved s.notice flash flash'

/-- The specification of `persist`. -/
lemma persist_spec (s : FaultNoticeState) (monoS : UInt32) (flash : NvsFlash NoticeKey) :
    wp noticeErases (s.persist monoS) (Persisted s monoS flash) flash := by
  have hdirty : ∀ flash', OldOrSaved s.notice flash flash' →
      Persisted s monoS flash (.val { s with lastWriteMono := monoS }) flash' := by
    refine fun flash' hflash => ⟨fun s' hs' => ?_, nofun, hflash⟩
    cases hs'
    exact ⟨rfl, rfl, .inr rfl⟩
  rw [FaultNoticeState.persist]
  refine wp_bind (NvsFlash.wp_attempt_plain trivial ?_ (fun e reached _ => ?_)
    ⟨nofun, nofun, .inl rfl⟩)
  · refine wp_bind (wp_attempt (wp_mono (write_spec s.notice flash) fun o flash' h => ?_))
    cases o with
    | val a =>
        refine wp_pure ⟨fun s' hs' => ?_, nofun, h.flash⟩
        cases hs'
        exact ⟨rfl, rfl, .inl ⟨rfl, h.saved rfl⟩⟩
    | err e => exact wp_pure (hdirty flash' h.flash)
    | cut => exact ⟨nofun, nofun, h.flash⟩
  · exact wp_pure (hdirty flash (.inl rfl))

/-- A call of `persist` is seen in the calls of NVS. -/
lemma persist_ops (s : FaultNoticeState) (monoS : UInt32) (flash : NvsFlash NoticeKey)
    (script : List NvsFault) : (s.persist monoS flash script).ops ≠ [] := by
  have hopen : ((.open, script.headD default) : NvsOp NoticeKey × NvsFault)
      ∈ (NvsFlash.openNamespace.attempt flash script).ops := by
    rw [FaultM.attempt, NvsFlash.openNamespace, NvsFlash.plain, FaultM.perform]
    cases script.headD default <;> exact List.mem_singleton_self _
  exact List.ne_nil_of_mem (FaultM.ops_subset_bind hopen)

end Persist

end ArcticController

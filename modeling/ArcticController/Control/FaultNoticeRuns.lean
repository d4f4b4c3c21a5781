/-
The saved notice of the heat pump's faults follows the one in RAM, through failing writes and
reboots.

* `FaultNoticeSystem`, `FaultNoticeCall`, `FaultNoticeStep`: the calls and the boots;
* `summary`: the notice of some faults;
* `AckTally`, `faultsSince`: the faults since the last acknowledgement that reached the flash;
* `call_spec`: what a call leaves;
* `NoticeTracks`: the invariant of the notice, `WritesKept`: that of the times of its writes;
* `fault_notice_tracks`: what holds of every run.
-/
import ArcticController.Base.Runs
import ArcticController.Control.FaultNotice

namespace ArcticController

/-! ### Runs -/

/-- The module's state, while the device has power, the flash, and the time of the last call. -/
structure FaultNoticeSystem where
  ram : Option FaultNoticeState
  flash : NvsFlash NoticeKey
  monoS : UInt32 := 0

inductive FaultNoticeCall where
  | record (site : UInt16) (now : Int64) (monoS : UInt32) (atBoot : Bool)
  | tick (monoS : UInt32)
  | clear
deriving DecidableEq, Repr

namespace FaultNoticeCall

def run : FaultNoticeCall → FaultNoticeState → NvsFlashM NoticeKey FaultNoticeState
  | .record site now monoS atBoot, s => s.record site now monoS atBoot
  | .tick monoS, s => s.tick monoS
  | .clear, s => s.clear

/-- The time of a call; an acknowledgement is not told it. -/
def time : FaultNoticeCall → UInt32 → UInt32
  | .record _ _ monoS _, _ => monoS
  | .tick monoS, _ => monoS
  | .clear, lastS => lastS

end FaultNoticeCall

/-- A fault that is counted: where and when. -/
structure NotedFault where
  site : UInt16
  time : Int64
deriving DecidableEq, Repr

/-- What a call or a boot does to the notice. -/
inductive NoticeChange where
  | noted (fault : NotedFault)
  | none
  | acknowledged
  | booted
deriving DecidableEq, Repr

/-- What a call does to the notice of `s`. -/
def FaultNoticeCall.change (s : FaultNoticeState) : FaultNoticeCall → NoticeChange
  | .record site now _ atBoot =>
      if atBoot ∧ s.notice.pending then .none
      else .noted { site, time := FaultNoticeState.faultTime now }
  | .tick _ => .none
  | .clear => .acknowledged

/-- The notice after a change. -/
def FaultNotice.changed (n : FaultNotice) : NoticeChange → FaultNotice
  | .noted fault => n.add fault.site fault.time
  | .none | .booted => n
  | .acknowledged => {}

/-- What happened: a change, when, whether the call tried to write a pending notice, and whether
it saved what there is to save. -/
structure FaultNoticeEvent where
  change : NoticeChange
  monoS : UInt32 := 0
  tried : Bool := false
  writes : Bool := false
  saved : Bool := false
deriving DecidableEq, Repr

/-- The result of a call that tried to write says that it succeeded. -/
def savedBy {σ κ φ : Type} (r : Result σ φ κ EspErr FaultNoticeState) : Bool :=
  match r.out with
  | .val s => !r.ops.isEmpty && !s.dirty
  | _ => false

def FaultNoticeCall.event (call : FaultNoticeCall) (s : FaultNoticeState) (lastS : UInt32)
    (r : Result (NvsFlash NoticeKey) NvsFault (NvsOp NoticeKey) EspErr FaultNoticeState) :
    FaultNoticeEvent where
  change := call.change s
  monoS := call.time lastS
  tried := !r.ops.isEmpty
  writes := !r.ops.isEmpty && (s.notice.changed (call.change s)).pending
  saved := savedBy r

/-- What a call answers, unless power is lost in it. -/
def answered {σ κ φ : Type} (r : Result σ φ κ EspErr FaultNoticeState) : Option FaultNoticeState :=
  match r.out with
  | .val s => some s
  | _ => none

/-- A call, at a time not before the last one and with any calls of NVS failing, or a boot, at any
time, whose reads succeed. -/
inductive FaultNoticeStep :
    FaultNoticeSystem → Option FaultNoticeEvent → FaultNoticeSystem → Prop where
  | call (s : FaultNoticeSystem) (ram : FaultNoticeState) (call : FaultNoticeCall)
      (script : List NvsFault) (hram : s.ram = some ram) (hmono : s.monoS ≤ call.time s.monoS)
      (hfaults : noticeErases.Covers (call.run ram s.flash script).ops) :
      FaultNoticeStep s (some (call.event ram s.monoS (call.run ram s.flash script)))
        { ram := answered (call.run ram s.flash script)
          flash := (call.run ram s.flash script).state
          monoS := call.time s.monoS }
  | boot (s : FaultNoticeSystem) (ram : FaultNoticeState)
      (hinit : (faultNoticeInit 0 s.flash []).out = .val ram) :
      FaultNoticeStep s (some { change := .booted }) { ram := some ram, flash := s.flash }

/-- The first boot of a device that has saved nothing. -/
def freshNotice : FaultNoticeSystem := { ram := some {}, flash := fun _ => none }

/-! ### What was noted -/

/-- The notice of some faults. -/
def summary (faults : List NotedFault) : FaultNotice :=
  faults.foldl (fun n fault => n.add fault.site fault.time) {}

/-- The faults since the last acknowledgement that reached the flash, and since the last one if
that has not. -/
structure AckTally where
  faults : List NotedFault := []
  acked : Option (List NotedFault) := none

def AckTally.changed (t : AckTally) : NoticeChange → AckTally
  | .noted fault => { faults := t.faults ++ [fault], acked := t.acked.map (· ++ [fault]) }
  | .none => t
  | .acknowledged => { t with acked := some [] }
  | .booted => { t with acked := none }

/-- The last acknowledgement has reached the flash. -/
def AckTally.settled (t : AckTally) : AckTally := { faults := t.acked.getD t.faults }

def AckTally.next (t : AckTally) (e : FaultNoticeEvent) : AckTally :=
  if e.saved then (t.changed e.change).settled else t.changed e.change

def ackTally (log : List FaultNoticeEvent) : AckTally := log.foldl AckTally.next {}

/-- The faults noted since the last acknowledgement that reached the flash. -/
def faultsSince (log : List FaultNoticeEvent) : List NotedFault := (ackTally log).faults

/-- No boot and no acknowledgement. -/
def FaultNoticeEvent.Within (e : FaultNoticeEvent) : Prop :=
  e.change ≠ .booted ∧ e.change ≠ .acknowledged

/-- Between two writes of a pending notice, with no boot and no acknowledgement in between, lies
the flush interval. -/
def WritesApart (log : List FaultNoticeEvent) : Prop :=
  ∀ pre e mid e' post, log = pre ++ e :: (mid ++ e' :: post) → e.writes → e'.writes →
    (∀ x ∈ mid, x.Within) → e'.Within →
    e.monoS.toNat + faultNoticeFlushIntervalS.toNat ≤ e'.monoS.toNat

/-- What follows an acknowledgement without a fault; a boot comes after it has reached the flash. -/
structure StillAcked (acked : List FaultNoticeEvent) : Prop where
  noFault : ∀ x ∈ acked, ∀ fault, x.change ≠ .noted fault
  boots : ∀ pre b post, acked = pre ++ b :: post → b.change = .booted → ∃ x ∈ pre, x.saved

/-- The first fault after an acknowledgement is written at once. -/
def FirstAtOnce (log : List FaultNoticeEvent) : Prop :=
  ∀ pre a mid e post, log = pre ++ a :: (mid ++ e :: post) → a.change = .acknowledged →
    StillAcked (a :: mid) → ∀ fault, e.change = .noted fault → e.tried ∧ e.writes

section Summary

variable {faults : List NotedFault}

lemma summary_concat (faults : List NotedFault) (fault : NotedFault) :
    summary (faults ++ [fault]) = (summary faults).add fault.site fault.time := by
  rw [summary, summary, List.foldl_append]
  rfl

/-- The notice of some faults: pending if there are any, with their count, up to the greatest. -/
lemma summary_spec (faults : List NotedFault) :
    (summary faults).Sound ∧ ((summary faults).pending ↔ faults ≠ []) ∧
      (summary faults).count.toNat = min faults.length faultNoticeCountMax.toNat := by
  induction faults using List.reverseRecOn with
  | nil => exact ⟨⟨nofun, fun _ => rfl⟩, ⟨nofun, fun h => absurd rfl h⟩, rfl⟩
  | append_singleton faults fault ih =>
      obtain ⟨hsound, hpending, hcount⟩ := ih
      have hmax : faultNoticeCountMax.toNat = 9999 := rfl
      have hadded : ∃ c, c.toNat = min faults.length faultNoticeCountMax.toNat ∧
          ((summary faults).add fault.site fault.time).count
            = (if c < faultNoticeCountMax then c + 1 else c) := by
        rw [FaultNotice.add]
        by_cases hp : (summary faults).pending
        · exact ⟨(summary faults).count, hcount, by rw [if_pos hp]⟩
        · have hnil : faults = [] := not_not.mp fun h => hp (hpending.mpr h)
          refine ⟨0, by rw [hnil]; rfl, by rw [if_neg hp]⟩
      obtain ⟨c, hc, hadd⟩ := hadded
      have hstill : ((summary faults).add fault.site fault.time).pending = true := by
        rw [FaultNotice.add]
        by_cases hp : (summary faults).pending
        · rw [if_pos hp]
          exact hp
        · rw [if_neg hp]
      have hnew : ((summary faults).add fault.site fault.time).count.toNat
          = min (faults.length + 1) faultNoticeCountMax.toNat := by
        rw [hadd]
        split
        · next hlt =>
            have hlt' := UInt32.lt_iff_toNat_lt.mp hlt
            have hone : (c + 1).toNat = c.toNat + 1 := by
              rw [UInt32.toNat_add]
              exact Nat.mod_eq_of_lt (by show c.toNat + 1 < 2 ^ 32; omega)
            omega
        · next hge =>
            have hge' := UInt32.le_iff_toNat_le.mp (UInt32.not_lt.mp hge)
            omega
      rw [summary_concat]
      refine ⟨⟨fun _ => ⟨?_, ?_⟩, fun hp => absurd hstill hp⟩, ?_, ?_⟩
      · intro hzero
        rw [hzero, hmax] at hnew
        have hnil : (0 : UInt32).toNat = 0 := rfl
        omega
      · rw [UInt32.le_iff_toNat_le, hnew]
        exact Nat.min_le_right _ _
      · exact ⟨fun _ => by simp, fun _ => hstill⟩
      · rw [hnew, List.length_append, List.length_singleton]

lemma summary_sound (faults : List NotedFault) : (summary faults).Sound := (summary_spec faults).1

end Summary

/-! ### What a call leaves -/

section Call

variable {call : FaultNoticeCall} {s : FaultNoticeState} {flash : NvsFlash NoticeKey}
  {script : List NvsFault} {lastS : UInt32}

/-- What a call leaves: the change in RAM, dirty unless saved, and, if it tried to write, the flash
as before or with what belongs to the notice. -/
structure CallLeaves (call : FaultNoticeCall) (s : FaultNoticeState) (lastS : UInt32)
    (flash : NvsFlash NoticeKey)
    (r : Result (NvsFlash NoticeKey) NvsFault (NvsOp NoticeKey) EspErr FaultNoticeState) : Prop where
  answers : ∀ e, r.out ≠ .err e
  onFlash : OldOrSaved (s.notice.changed (call.change s)) flash r.state
  notice : ∀ s', r.out = .val s' → s'.notice = s.notice.changed (call.change s)
  saved : savedBy r = true → r.state .notice = (s.notice.changed (call.change s)).saved
  clean : ∀ s', r.out = .val s' → savedBy r = false → s'.dirty = false →
    s.dirty = false ∧ call.change s = .none ∧ r.state = flash
  written : ∀ s', r.out = .val s' → s'.lastWriteMono = s.lastWriteMono ∨
    (r.ops ≠ [] ∧ s'.lastWriteMono = call.time lastS)
  tried : r.ops ≠ [] → call.change s ≠ .acknowledged → ∀ s', r.out = .val s' →
    s'.lastWriteMono = call.time lastS
  apart : r.ops ≠ [] → call.change s ≠ .acknowledged →
    s.notice.pending = false ∨ call.time lastS - s.lastWriteMono ≥ faultNoticeFlushIntervalS
  atOnce : s.notice.pending = false → ∀ fault, call.change s = .noted fault → r.ops ≠ []

/-- A call of `persist` on a dirty state. -/
structure PersistLeaves (s : FaultNoticeState) (monoS : UInt32) (flash : NvsFlash NoticeKey)
    (r : Result (NvsFlash NoticeKey) NvsFault (NvsOp NoticeKey) EspErr FaultNoticeState) : Prop where
  answers : ∀ e, r.out ≠ .err e
  onFlash : OldOrSaved s.notice flash r.state
  notice : ∀ s', r.out = .val s' → s'.notice = s.notice ∧ s'.lastWriteMono = monoS
  saved : savedBy r = true → r.state .notice = s.notice.saved
  dirty : ∀ s', r.out = .val s' → savedBy r = false → s'.dirty = true
  tried : r.ops ≠ []

lemma persist_leaves {monoS : UInt32} (hdirty : s.dirty = true)
    (hfaults : noticeErases.Covers (s.persist monoS flash script).ops) :
    PersistLeaves s monoS flash (s.persist monoS flash script) := by
  have hpersisted := (persist_spec s monoS flash script hfaults).1
  have hops := persist_ops s monoS flash script
  generalize s.persist monoS flash script = r at *
  refine ⟨hpersisted.answers, hpersisted.flash, fun s' hs' => ?_, fun hsaved => ?_,
    fun s' hs' hnot => ?_, hops⟩
  · obtain ⟨hnotice, hmono, -⟩ := hpersisted.returns s' hs'
    exact ⟨hnotice, hmono⟩
  · rw [savedBy] at hsaved
    split at hsaved
    · next s' hs' =>
        rw [Bool.and_eq_true, Bool.not_eq_true', Bool.not_eq_true'] at hsaved
        obtain ⟨-, -, hdone | hsame⟩ := hpersisted.returns s' hs'
        · exact hdone.2
        · rw [hsaved.2, hdirty] at hsame
          cases hsame
    · cases hsaved
  · have hempty : r.ops.isEmpty = false := Bool.eq_false_iff.mpr fun h =>
      hops (List.isEmpty_iff.mp h)
    rw [savedBy, hs'] at hnot
    dsimp only at hnot
    rw [hempty] at hnot
    simpa using hnot

/-- A call that tries to write leaves what `persist` does. -/
lemma PersistLeaves.leaves {s₁ : FaultNoticeState} {monoS : UInt32}
    {r : Result (NvsFlash NoticeKey) NvsFault (NvsOp NoticeKey) EspErr FaultNoticeState}
    (h : PersistLeaves s₁ monoS flash r)
    (hnotice : s₁.notice = s.notice.changed (call.change s))
    (hmono : monoS = s.lastWriteMono ∧ call.change s = .acknowledged ∨ monoS = call.time lastS)
    (hapart : call.change s ≠ .acknowledged → s.notice.pending = false ∨
      call.time lastS - s.lastWriteMono ≥ faultNoticeFlushIntervalS) :
    CallLeaves call s lastS flash r where
  answers := h.answers
  onFlash := hnotice ▸ h.onFlash
  notice s' hs' := (h.notice s' hs').1.trans hnotice
  saved hsaved := hnotice ▸ h.saved hsaved
  clean s' hs' hnot hclean := by
    rw [h.dirty s' hs' hnot] at hclean
    cases hclean
  written s' hs' := by
    rcases hmono with ⟨hsame, -⟩ | hsame
    · exact .inl ((h.notice s' hs').2.trans hsame)
    · exact .inr ⟨h.tried, (h.notice s' hs').2.trans hsame⟩
  tried _ hchange s' hs' := by
    rcases hmono with ⟨-, hack⟩ | hsame
    · exact absurd hack hchange
    · exact (h.notice s' hs').2.trans hsame
  apart _ hchange := hapart hchange
  atOnce _ _ _ := h.tried

/-- A call that does not write. -/
lemma callLeaves_pure {s₁ : FaultNoticeState} (hnotice : s₁.notice = s.notice.changed (call.change s))
    (hmono : s₁.lastWriteMono = s.lastWriteMono)
    (hclean : s₁.dirty = false → s.dirty = false ∧ call.change s = .none)
    (hlater : s.notice.pending = false → ∀ fault, call.change s ≠ .noted fault) :
    CallLeaves call s lastS flash ⟨.val s₁, flash, script, []⟩ where
  answers := nofun
  onFlash := .inl rfl
  notice s' hs' := by
    cases hs'
    exact hnotice
  saved := nofun
  clean s' hs' _ hc := by
    cases hs'
    exact ⟨(hclean hc).1, (hclean hc).2, rfl⟩
  written s' hs' := by
    cases hs'
    exact .inl hmono
  tried h := absurd rfl h
  apart h := absurd rfl h
  atOnce hp fault hchange := absurd hchange (hlater hp fault)

/-- The specification of the calls. -/
lemma call_spec (call : FaultNoticeCall) (s : FaultNoticeState) (lastS : UInt32)
    (hfaults : noticeErases.Covers (call.run s flash script).ops) :
    CallLeaves call s lastS flash (call.run s flash script) := by
  cases call with
  | record site now monoS atBoot =>
      rw [FaultNoticeCall.run, FaultNoticeState.record] at hfaults ⊢
      by_cases hskip : atBoot ∧ s.notice.pending
      · have hchange : (FaultNoticeCall.record site now monoS atBoot).change s = .none :=
          if_pos hskip
        rw [if_pos hskip]
        refine callLeaves_pure ?_ rfl (fun hc => ⟨hc, hchange⟩) fun _ fault => ?_
        · rw [hchange]
          rfl
        · rw [hchange]
          nofun
      · have hchange : (FaultNoticeCall.record site now monoS atBoot).change s
            = .noted { site, time := FaultNoticeState.faultTime now } := if_neg hskip
        rw [if_neg hskip] at hfaults ⊢
        by_cases hwrites :
            ¬ s.notice.pending ∨ monoS - s.lastWriteMono ≥ faultNoticeFlushIntervalS
        · rw [if_pos hwrites] at hfaults ⊢
          refine (persist_leaves rfl hfaults).leaves ?_ (.inr rfl) fun _ => ?_
          · rw [hchange]
            rfl
          · exact hwrites.imp_left Bool.eq_false_iff.mpr
        · rw [if_neg hwrites]
          refine callLeaves_pure ?_ rfl nofun fun hp fault => ?_
          · rw [hchange]
            rfl
          · exact absurd (.inl (Bool.eq_false_iff.mp hp)) hwrites
  | tick monoS =>
      rw [FaultNoticeCall.run, FaultNoticeState.tick] at hfaults ⊢
      by_cases hwrites : s.dirty ∧ monoS - s.lastWriteMono ≥ faultNoticeFlushIntervalS
      · rw [if_pos hwrites] at hfaults ⊢
        exact (persist_leaves hwrites.1 hfaults).leaves rfl (.inr rfl) fun _ => .inr hwrites.2
      · rw [if_neg hwrites]
        exact callLeaves_pure rfl rfl (fun hc => ⟨hc, rfl⟩) nofun
  | clear =>
      rw [FaultNoticeCall.run, FaultNoticeState.clear] at hfaults ⊢
      exact (persist_leaves rfl hfaults).leaves rfl (.inl ⟨rfl, rfl⟩) fun h => absurd rfl h

end Call

/-! ### The notice -/

/-- The invariant: the notice in RAM and the one on flash are of faults since the last
acknowledgement, and of no others. -/
structure NoticeTracks (s : FaultNoticeSystem) (t : AckTally) : Prop where
  flash : ∃ kept, kept.Sublist t.faults ∧ s.flash .notice = (summary kept).saved
  acked : ∀ faults, t.acked = some faults → faults.Sublist t.faults
  ram : ∀ ram, s.ram = some ram → ∃ kept, kept.Sublist (t.acked.getD t.faults) ∧
    ram.notice = summary kept
  dirty : t.acked.isSome → ∀ ram, s.ram = some ram → ram.dirty = true
  clean : ∀ ram, s.ram = some ram → ram.dirty = false → s.flash .notice = ram.notice.saved

section Tracks

variable {s s' : FaultNoticeSystem} {t : AckTally} {e : FaultNoticeEvent} {log : List FaultNoticeEvent}

lemma noticeTracks_start : NoticeTracks freshNotice {} where
  flash := ⟨[], .slnil, rfl⟩
  acked := nofun
  ram _ h := ⟨[], .slnil, by cases h; rfl⟩
  dirty := nofun
  clean _ h _ := by
    cases h
    rfl

/-- What a call makes of the notice and of the tally: it is one of faults since the last
acknowledgement. -/
structure NoticeChanged (t : AckTally) (n : FaultNotice) : Prop where
  notice : ∃ kept, kept.Sublist (t.acked.getD t.faults) ∧ n = summary kept
  acked : ∀ faults, t.acked = some faults → faults.Sublist t.faults

lemma NoticeTracks.changed {ram : FaultNoticeState} (h : NoticeTracks s t) (hram : s.ram = some ram)
    (call : FaultNoticeCall) :
    NoticeChanged (t.changed (call.change ram)) (ram.notice.changed (call.change ram)) ∧
      t.faults.Sublist (t.changed (call.change ram)).faults := by
  obtain ⟨kept, hkept, hnotice⟩ := h.ram ram hram
  cases hchange : call.change ram with
  | noted fault =>
      refine ⟨⟨⟨kept ++ [fault], ?_, ?_⟩, fun faults hacked => ?_⟩, List.sublist_append_left _ _⟩
      · rw [AckTally.changed]
        cases hacked : t.acked with
        | none =>
            rw [hacked] at hkept
            exact hkept.append_right [fault]
        | some faults =>
            rw [hacked] at hkept
            exact hkept.append_right [fault]
      · rw [summary_concat, ← hnotice]
        rfl
      · obtain ⟨faults', hfaults', rfl⟩ := Option.map_eq_some_iff.mp hacked
        exact (h.acked faults' hfaults').append_right [fault]
  | none => exact ⟨⟨⟨kept, hkept, hnotice⟩, h.acked⟩, .refl _⟩
  | acknowledged =>
      refine ⟨⟨⟨[], .slnil, rfl⟩, fun faults hacked => ?_⟩, .refl _⟩
      cases hacked
      exact List.nil_sublist _
  | booted =>
      -- no call boots
      cases call with
      | record site now monoS atBoot =>
          rw [FaultNoticeCall.change] at hchange
          split at hchange <;> cases hchange
      | tick monoS => cases hchange
      | clear => cases hchange

lemma NoticeChanged.sublist {n : FaultNotice} (h : NoticeChanged t n) {kept : List NotedFault}
    (hkept : kept.Sublist (t.acked.getD t.faults)) : kept.Sublist t.faults := by
  cases hacked : t.acked with
  | none =>
      rw [hacked] at hkept
      exact hkept
  | some faults =>
      rw [hacked] at hkept
      exact hkept.trans (h.acked faults hacked)

/-- **The step lemma** of the notice. -/
lemma NoticeTracks.step (h : NoticeTracks s t) (hstep : FaultNoticeStep s (some e) s') :
    NoticeTracks s' (t.next e) := by
  cases hstep with
  | call ram call script hram hmono hfaults =>
      have hleaves := call_spec call ram s.monoS hfaults
      have hsaved : (call.event ram s.monoS (call.run ram s.flash script)).saved
          = savedBy (call.run ram s.flash script) := rfl
      have hchange : (call.event ram s.monoS (call.run ram s.flash script)).change
          = call.change ram := rfl
      obtain ⟨hchanged, hgrows⟩ := h.changed hram call
      obtain ⟨kept, hkept, hnotice⟩ := hchanged.notice
      rw [AckTally.next, hsaved, hchange]
      generalize call.run ram s.flash script = r at *
      have hanswered : ∀ ram', answered r = some ram' → r.out = .val ram' := by
        intro ram' h'
        rw [answered] at h'
        split at h'
        · next s' hs' => exact hs'.trans (congrArg _ (Option.some.inj h'))
        · cases h'
      by_cases hdone : savedBy r = true
      · -- everything is saved
        rw [if_pos hdone]
        have hclean : ∀ ram', r.out = .val ram' → ram'.notice = summary kept := fun ram' hout =>
          (hleaves.notice ram' hout).trans hnotice
        refine ⟨⟨kept, hkept, ?_⟩, nofun, fun ram' hram' => ?_, nofun, fun ram' hram' _ => ?_⟩
        · rw [← hnotice]
          exact hleaves.saved hdone
        · exact ⟨kept, hkept, hclean ram' (hanswered ram' hram')⟩
        · rw [hclean ram' (hanswered ram' hram'), ← hnotice]
          exact hleaves.saved hdone
      · -- the flash has what it had, or the new notice already
        have hnot : savedBy r = false := Bool.eq_false_iff.mpr hdone
        rw [if_neg hdone]
        refine ⟨?_, hchanged.acked, fun ram' hram' => ?_, fun hacked ram' hram' => ?_,
          fun ram' hram' hclean => ?_⟩
        · rcases hleaves.onFlash with hsame | hnew
          · obtain ⟨old, hold, hflash⟩ := h.flash
            exact ⟨old, hold.trans hgrows, hsame.trans hflash⟩
          · exact ⟨kept, hchanged.sublist hkept, hnew.trans (congrArg _ hnotice)⟩
        · exact ⟨kept, hkept, (hleaves.notice ram' (hanswered ram' hram')).trans hnotice⟩
        · by_contra hfalse
          obtain ⟨hold, hnone, -⟩ := hleaves.clean ram' (hanswered ram' hram') hnot
            (Bool.eq_false_iff.mpr hfalse)
          rw [hnone] at hacked
          rw [h.dirty hacked ram hram] at hold
          cases hold
        · obtain ⟨hold, hnone, hsame⟩ := hleaves.clean ram' (hanswered ram' hram') hnot hclean
          have hnotice' := hleaves.notice ram' (hanswered ram' hram')
          rw [hnone] at hnotice'
          show r.state .notice = ram'.notice.saved
          rw [hsame, hnotice']
          exact h.clean ram hram hold
  | boot ram hinit =>
      obtain ⟨kept, hkept, hflash⟩ := h.flash
      obtain ⟨ram', hruns, hnotice, hdirty, -⟩ := faultNoticeInit_runs (summary_sound kept) hflash 0
      have hsame : ram = ram' := Outcome.val.inj (hinit.symm.trans hruns.out)
      subst hsame
      refine ⟨⟨kept, hkept, hflash⟩, nofun, fun r hr => ?_, nofun, fun r hr _ => ?_⟩
      · obtain rfl := Option.some.inj hr
        exact ⟨kept, hkept, hnotice⟩
      · obtain rfl := Option.some.inj hr
        rw [hnotice]
        exact hflash

end Tracks

/-! ### The times of the writes -/

/-- The invariant of the times: the last write of a notice still pending is not later than
`lastWriteMono`, and nothing is pending since an acknowledgement, nor saved once it is there. -/
structure WritesKept (s : FaultNoticeSystem) (log : List FaultNoticeEvent) : Prop where
  apart : WritesApart log
  atOnce : FirstAtOnce log
  bounded : ∀ ram, s.ram = some ram → ram.lastWriteMono ≤ s.monoS
  last : ∀ pre e mid, log = pre ++ e :: mid → e.writes → (∀ x ∈ mid, x.Within) →
    ∀ ram, s.ram = some ram → ram.notice.pending = true ∧ e.monoS ≤ ram.lastWriteMono
  cleared : ∀ pre a mid, log = pre ++ a :: mid → a.change = .acknowledged → StillAcked (a :: mid) →
    (∀ ram, s.ram = some ram → ram.notice.pending = false) ∧
      ((∃ x ∈ a :: mid, x.saved) → s.flash .notice = none)

section Writes

variable {s s' : FaultNoticeSystem} {t : AckTally} {e : FaultNoticeEvent}
  {log : List FaultNoticeEvent} {n : FaultNotice}

lemma writesKept_start : WritesKept freshNotice [] where
  apart pre e mid e' post h := absurd h.symm (by simp)
  atOnce pre a mid e post h := absurd h.symm (by simp)
  bounded ram h := by
    cases h
    exact UInt32.le_refl _
  last pre e mid h := absurd h.symm (by simp)
  cleared pre a mid h := absurd h.symm (by simp)

lemma pending_add (n : FaultNotice) (site : UInt16) (time : Int64) :
    (n.add site time).pending = true := by
  rw [FaultNotice.add]
  by_cases hp : n.pending
  · rw [if_pos hp]
    exact hp
  · rw [if_neg hp]

/-- A pending notice stays pending until it is acknowledged. -/
lemma pending_changed {c : NoticeChange} (hp : n.pending = true) (hc : c ≠ .acknowledged) :
    (n.changed c).pending = true := by
  cases c with
  | noted fault => exact pending_add _ _ _
  | none | booted => exact hp
  | acknowledged => exact absurd rfl hc

/-- No notice comes up without a fault. -/
lemma not_pending_changed {c : NoticeChange} (hp : n.pending = false)
    (hc : ∀ fault, c ≠ .noted fault) : (n.changed c).pending = false := by
  cases c with
  | noted fault => exact absurd rfl (hc fault)
  | none | booted => exact hp
  | acknowledged => rfl

/-- What follows the acknowledgement is still so without its last event. -/
lemma StillAcked.init {acked : List FaultNoticeEvent} (h : StillAcked (acked ++ [e])) :
    StillAcked acked where
  noFault x hx := h.noFault x (List.mem_append_left _ hx)
  boots pre b post hacked := h.boots pre b (post ++ [e]) (by rw [hacked]; simp)

/-- The flush interval, as times. -/
lemma apart_of_sub {w last now : UInt32} (hw : w ≤ last) (hlast : last ≤ now)
    (h : now - last ≥ faultNoticeFlushIntervalS) :
    w.toNat + faultNoticeFlushIntervalS.toNat ≤ now.toNat := by
  have hle := UInt32.le_iff_toNat_le.mp h
  have hw' := UInt32.le_iff_toNat_le.mp hw
  have hlast' := UInt32.le_iff_toNat_le.mp hlast
  rw [UInt32.toNat_sub_of_le _ _ hlast] at hle
  omega

/-- The log after a call or a boot, at an event and a later one. -/
lemma split_later {pre mid post : List FaultNoticeEvent} {x y : FaultNoticeEvent}
    (h : log ++ [e] = pre ++ x :: (mid ++ y :: post)) :
    (e = y ∧ log = pre ++ x :: mid) ∨ ∃ post', log = pre ++ x :: (mid ++ y :: post') := by
  have hsplit : log ++ (some e).toList = (pre ++ x :: mid) ++ y :: post := by
    rw [Option.toList_some, h]
    simp
  rcases split_step hsplit with ⟨he, hlog, -⟩ | ⟨post', hlog, -⟩
  · exact .inl ⟨Option.some.inj he, hlog⟩
  · exact .inr ⟨post', by rw [hlog]; simp⟩

/-- **The step lemma** of the times. -/
lemma WritesKept.step (h : WritesKept s log) (htracks : NoticeTracks s t)
    (hstep : FaultNoticeStep s (some e) s') : WritesKept s' (log ++ [e]) := by
  cases hstep with
  | call ram call script hram hmono hfaults =>
      have hleaves := call_spec call ram s.monoS hfaults
      have hbounded := h.bounded ram hram
      generalize hr : call.run ram s.flash script = r at *
      have hchange : (call.event ram s.monoS r).change = call.change ram := rfl
      have htime : (call.event ram s.monoS r).monoS = call.time s.monoS := rfl
      have hwrites : ∀ {b}, (call.event ram s.monoS r).writes = b →
          b = (!r.ops.isEmpty && (ram.notice.changed (call.change ram)).pending) :=
        fun hb => hb.symm
      have htried : (call.event ram s.monoS r).tried = !r.ops.isEmpty := rfl
      have hsavedBy : (call.event ram s.monoS r).saved = savedBy r := rfl
      generalize call.event ram s.monoS r = e at *
      have hanswered : ∀ ram', answered r = some ram' → r.out = .val ram' := by
        intro ram' h'
        rw [answered] at h'
        split at h'
        · next s' hs' => exact hs'.trans (congrArg _ (Option.some.inj h'))
        · cases h'
      have hwrote : e.writes = true → r.ops ≠ [] ∧
          (ram.notice.changed (call.change ram)).pending = true := by
        intro hw
        have hboth := (hwrites hw).symm
        rw [Bool.and_eq_true, Bool.not_eq_true'] at hboth
        refine ⟨fun hnil => ?_, hboth.2⟩
        rw [hnil] at hboth
        cases hboth.1
      have hlater : ∀ ram', answered r = some ram' → ram.lastWriteMono ≤ ram'.lastWriteMono ∧
          ram'.lastWriteMono ≤ call.time s.monoS := by
        intro ram' hram'
        rcases hleaves.written ram' (hanswered ram' hram') with hsame | ⟨-, hnow⟩
        · rw [hsame]
          exact ⟨UInt32.le_refl _, UInt32.le_trans hbounded hmono⟩
        · rw [hnow]
          exact ⟨UInt32.le_trans hbounded hmono, UInt32.le_refl _⟩
      refine ⟨?_, ?_, fun ram' hram' => (hlater ram' hram').2, ?_, ?_⟩
      · -- a write is the flush interval after the last one
        intro pre x mid y post hlog hx hy hmid hwithin
        rcases split_later hlog with ⟨rfl, hlog'⟩ | ⟨post', hlog'⟩
        · obtain ⟨hpending, hle⟩ := h.last pre x mid hlog' hx hmid ram hram
          have hack : call.change ram ≠ .acknowledged := hchange ▸ hwithin.2
          rcases hleaves.apart (hwrote hy).1 hack with hnot | hinterval
          · rw [hpending] at hnot
            cases hnot
          · rw [htime]
            exact apart_of_sub hle (UInt32.le_trans hbounded hmono) hinterval
        · exact h.apart pre x mid y post' hlog' hx hy hmid hwithin
      · -- the first fault is written at once
        intro pre a mid y post hlog ha hmid fault hfault
        rcases split_later hlog with ⟨rfl, hlog'⟩ | ⟨post', hlog'⟩
        · have hpending := (h.cleared pre a mid hlog' ha hmid).1 ram hram
          rw [hchange] at hfault
          have hops := hleaves.atOnce hpending fault hfault
          have hnonempty : (!r.ops.isEmpty) = true := by
            cases hops' : r.ops with
            | nil => exact absurd hops' hops
            | cons p ops => rfl
          refine ⟨htried.trans hnonempty, ?_⟩
          rw [hwrites rfl, hnonempty, Bool.true_and, hfault]
          exact pending_add _ _ _
        · exact h.atOnce pre a mid y post' hlog' ha hmid fault hfault
      · intro pre x mid hlog hx hmid ram' hram'
        have hnotice := hleaves.notice ram' (hanswered ram' hram')
        rcases split_step (e := some e) hlog with ⟨he, -, -⟩ | ⟨mid', hlog', hmid'⟩
        · obtain rfl := Option.some.inj he
          obtain ⟨hops, hpending⟩ := hwrote hx
          have hack : call.change ram ≠ .acknowledged := by
            intro hack
            rw [hack] at hpending
            cases hpending
          refine ⟨hnotice ▸ hpending, ?_⟩
          rw [htime, hleaves.tried hops hack ram' (hanswered ram' hram')]
          exact UInt32.le_refl _
        · rw [hmid'] at hmid
          have hwithin := hmid e (List.mem_append_right _ List.mem_cons_self)
          obtain ⟨hpending, hle⟩ := h.last pre x mid' hlog' hx
            (fun y hy => hmid y (List.mem_append_left _ hy)) ram hram
          refine ⟨hnotice ▸ pending_changed hpending (hchange ▸ hwithin.2), ?_⟩
          exact UInt32.le_trans hle (hlater ram' hram').1
      · intro pre a mid hlog ha hmid
        rcases split_step (e := some e) hlog with ⟨he, -, rfl⟩ | ⟨mid', hlog', rfl⟩
        · -- the acknowledgement itself
          obtain rfl := Option.some.inj he
          have hgone : (ram.notice.changed (call.change ram)).saved = none := by
            rw [← hchange, ha]
            rfl
          refine ⟨fun ram' hram' => ?_, ?_⟩
          · rw [hleaves.notice ram' (hanswered ram' hram'), ← hchange, ha]
            rfl
          · rintro ⟨x, hx, hsaved⟩
            obtain rfl := List.mem_singleton.mp hx
            exact (hleaves.saved (hsavedBy ▸ hsaved)).trans hgone
        · have hquiet := hmid.noFault e
            (List.mem_cons_of_mem _ (List.mem_append_right _ List.mem_cons_self))
          obtain ⟨hpending, hflash⟩ := h.cleared pre a mid' hlog' ha (StillAcked.init hmid)
          have hstill := not_pending_changed (hpending ram hram) (hchange ▸ hquiet)
          have hgone : (ram.notice.changed (call.change ram)).saved = none := by
            rw [FaultNotice.saved, if_neg (Bool.eq_false_iff.mp hstill)]
          refine ⟨fun ram' hram' => ?_, ?_⟩
          · rw [hleaves.notice ram' (hanswered ram' hram')]
            exact hstill
          · rintro ⟨x, hx, hsaved⟩
            rcases List.mem_append.mp (show x ∈ (a :: mid') ++ [e] from hx) with hold | hlast
            · rcases hleaves.onFlash with hsame | hnew
              · exact hsame.trans (hflash ⟨x, hold, hsaved⟩)
              · exact hnew.trans hgone
            · obtain rfl := List.mem_singleton.mp hlast
              exact (hleaves.saved (hsavedBy ▸ hsaved)).trans hgone
  | boot ram hinit =>
      obtain ⟨kept, -, hflash⟩ := htracks.flash
      obtain ⟨ram', hruns, -, -, hmono⟩ := faultNoticeInit_runs (summary_sound kept) hflash 0
      have hsame : ram = ram' := Outcome.val.inj (hinit.symm.trans hruns.out)
      subst hsame
      refine ⟨?_, ?_, fun r hr => ?_, ?_, ?_⟩
      · intro pre x mid y post hlog hx hy hmid hwithin
        rcases split_later hlog with ⟨rfl, -⟩ | ⟨post', hlog'⟩
        · cases hy
        · exact h.apart pre x mid y post' hlog' hx hy hmid hwithin
      · intro pre a mid y post hlog ha hmid fault hfault
        rcases split_later hlog with ⟨rfl, -⟩ | ⟨post', hlog'⟩
        · cases hfault
        · exact h.atOnce pre a mid y post' hlog' ha hmid fault hfault
      · obtain rfl := Option.some.inj hr
        rw [hmono]
        exact UInt32.le_refl _
      · intro pre x mid hlog hx hmid
        rcases split_step (e := some _) hlog with ⟨he, -, -⟩ | ⟨mid', -, hmid'⟩
        · obtain rfl := Option.some.inj he
          cases hx
        · rw [hmid'] at hmid
          exact absurd rfl (hmid _ (List.mem_append_right _ List.mem_cons_self)).1
      · intro pre a mid hlog ha hmid
        rcases split_step (e := some _) hlog with ⟨he, -, -⟩ | ⟨mid', hlog', rfl⟩
        · obtain rfl := Option.some.inj he
          cases ha
        · -- the acknowledgement had reached the flash
          obtain ⟨x, hx, hsaved⟩ := hmid.boots (a :: mid') _ [] rfl rfl
          have hgone := (h.cleared pre a mid' hlog' ha (StillAcked.init hmid)).2 ⟨x, hx, hsaved⟩
          refine ⟨fun r hr => ?_, fun _ => hgone⟩
          obtain rfl := Option.some.inj hr
          have hsound : FaultNotice.Sound {} := ⟨by rintro ⟨⟩, fun _ => rfl⟩
          obtain ⟨ram', hruns', hnotice, -, -⟩ := faultNoticeInit_runs hsound hgone 0
          rw [Outcome.val.inj (hinit.symm.trans hruns'.out), hnotice]

/-- No step is silent. -/
lemma not_silent (hstep : FaultNoticeStep s none s') : False := by
  cases hstep

/-- **The run lemma**: every run keeps both invariants. -/
lemma invariants_of_run (hrun : Run FaultNoticeStep freshNotice s log) :
    NoticeTracks s (ackTally log) ∧ WritesKept s log := by
  refine hrun.invariant (I := fun s log => NoticeTracks s (ackTally log) ∧ WritesKept s log)
    ⟨noticeTracks_start, writesKept_start⟩ fun s log e s' _ h hstep => ?_
  cases e with
  | none => exact (not_silent hstep).elim
  | some e =>
      rw [Option.toList_some, ackTally, List.foldl_append]
      exact ⟨h.1.step hstep, h.2.step h.1 hstep⟩

end Writes

end ArcticController

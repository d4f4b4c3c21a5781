/-
When the tracker reports an outage of a slot and its end.

* `SlotOutage`: what the tracker holds about one slot; `slotOutage_onPoll`,
  `slotOutage_onUnknown`: a call changes the slot it is for, as `SlotOutage.fail`,
  `SlotOutage.read` and `SlotOutage.unknown` do, and no other;
* `OutageCall`, `trackerAfter`, `reportOf`, `slotChanges`: the calls and what they report;
* `FailingSince`, `ReadingSince`: the polls of a slot up to now since which it fails, or reads;
* `OutageTracks`: what a slot holds after its calls, kept by every call;
* `outages_once`: the reports of every sequence of calls.
-/
import ArcticController.Base.Alternate
import ArcticController.Base.TailRun
import ArcticController.Base.WrapClock
import ArcticController.Perf.OutageNotice

namespace ArcticController

/-! ### One slot -/

/-- What the tracker holds about a slot. -/
structure SlotOutage where
  lost : Bool := false
  failing : Bool := false
  reading : Bool := false
  failSinceMs : UInt32 := 0
  okSinceMs : UInt32 := 0
  outageStartMs : UInt32 := 0

namespace SlotOutage

/-- Since when it fails, if it does now. -/
def failSince (s : SlotOutage) (nowMs : UInt32) : UInt32 :=
  if s.failing then s.failSinceMs else nowMs

/-- Since when it reads, if it does now. -/
def okSince (s : SlotOutage) (nowMs : UInt32) : UInt32 :=
  if s.reading then s.okSinceMs else nowMs

/-- A poll that failed. -/
def fail (s : SlotOutage) (lostMs nowMs : UInt32) : SlotOutage × OutageReport :=
  let since := s.failSince nowMs
  let s := { s with failing := true, reading := false, failSinceMs := since }
  if s.lost ∨ nowMs - since < lostMs then (s, {})
  else ({ s with lost := true, outageStartMs := since }, ⟨.lost, 0⟩)

/-- A poll that read. -/
def read (s : SlotOutage) (restoreMs nowMs : UInt32) : SlotOutage × OutageReport :=
  if s.lost = false then ({ s with failing := false }, {})
  else
    let since := s.okSince nowMs
    if nowMs - since < restoreMs then
      ({ s with failing := false, reading := true, okSinceMs := since }, {})
    else
      ({ s with lost := false, failing := false, reading := false, okSinceMs := since },
        ⟨.restored, since - s.outageStartMs⟩)

/-- A poll that could not tell. -/
def unknown (s : SlotOutage) : SlotOutage := { s with failing := false, reading := false }

lemma fail_cases (s : SlotOutage) (lostMs nowMs : UInt32) :
    s.fail lostMs nowMs =
        ({ s with failing := true, reading := false, failSinceMs := s.failSince nowMs }, {}) ∨
      (s.lost = false ∧ lostMs ≤ nowMs - s.failSince nowMs ∧ s.fail lostMs nowMs =
        ({ s with
            lost := true, failing := true, reading := false, failSinceMs := s.failSince nowMs
            outageStartMs := s.failSince nowMs }, ⟨.lost, 0⟩)) := by
  rw [fail]
  by_cases h : s.lost ∨ nowMs - s.failSince nowMs < lostMs
  · exact .inl (if_pos h)
  · obtain ⟨hlost, hlong⟩ := not_or.mp h
    exact .inr ⟨Bool.eq_false_of_not_eq_true hlost, UInt32.not_lt.mp hlong, if_neg h⟩

lemma read_cases (s : SlotOutage) (restoreMs nowMs : UInt32) :
    (s.lost = false ∧ s.read restoreMs nowMs = ({ s with failing := false }, {})) ∨
      (s.lost = true ∧ s.read restoreMs nowMs =
        ({ s with failing := false, reading := true, okSinceMs := s.okSince nowMs }, {})) ∨
      (s.lost = true ∧ restoreMs ≤ nowMs - s.okSince nowMs ∧ s.read restoreMs nowMs =
        ({ s with
            lost := false, failing := false, reading := false, okSinceMs := s.okSince nowMs },
          ⟨.restored, s.okSince nowMs - s.outageStartMs⟩)) := by
  rw [read]
  by_cases hlost : s.lost = false
  · exact .inl ⟨hlost, if_pos hlost⟩
  · have htrue : s.lost = true := Bool.eq_true_of_not_eq_false hlost
    rw [if_neg hlost]
    by_cases hshort : nowMs - s.okSince nowMs < restoreMs
    · exact .inr (.inl ⟨htrue, if_pos hshort⟩)
    · exact .inr (.inr ⟨htrue, UInt32.not_lt.mp hshort, if_neg hshort⟩)

end SlotOutage

/-- What the tracker holds about a slot. -/
def OutageTracker.slotOutage (t : OutageTracker) (slot : Fin kSlotCount) : SlotOutage :=
  { lost := t.lost slot
    failing := t.failing slot
    reading := t.reading slot
    failSinceMs := t.failSinceMs slot
    okSinceMs := t.okSinceMs slot
    outageStartMs := t.outageStartMs slot }

section Slot

variable (t : OutageTracker) (slot : Fin kSlotCount) (nowMs : UInt32)

lemma slotOutage_markReading :
    (t.markReading slot nowMs).slotOutage slot =
      { t.slotOutage slot with
        reading := true, okSinceMs := (t.slotOutage slot).okSince nowMs } := by
  rw [OutageTracker.markReading]
  split
  case isTrue h => simp [OutageTracker.slotOutage, SlotOutage.okSince, h]
  case isFalse h => simp [OutageTracker.slotOutage, SlotOutage.okSince, h]

lemma slotOutage_markFailing :
    (t.markFailing slot nowMs).slotOutage slot =
      { t.slotOutage slot with
        failing := true, reading := false, failSinceMs := (t.slotOutage slot).failSince nowMs } := by
  rw [OutageTracker.markFailing]
  dsimp only
  split
  case isTrue h => simp [OutageTracker.slotOutage, SlotOutage.failSince, h]
  case isFalse h => simp [OutageTracker.slotOutage, SlotOutage.failSince, h]

@[simp] lemma restoreMs_markReading : (t.markReading slot nowMs).restoreMs = t.restoreMs := by
  rw [OutageTracker.markReading]
  split <;> rfl

@[simp] lemma lostMs_markFailing : (t.markFailing slot nowMs).lostMs = t.lostMs := by
  rw [OutageTracker.markFailing]
  dsimp only
  split <;> rfl

lemma slotOutage_onReading :
    (t.onReading slot nowMs).1.slotOutage slot =
        ((t.slotOutage slot).read t.restoreMs nowMs).1 ∧
      (t.onReading slot nowMs).2 = ((t.slotOutage slot).read t.restoreMs nowMs).2 := by
  let t₁ := { t with failing := Function.update t.failing slot false }
  have hslot : t₁.slotOutage slot = { t.slotOutage slot with failing := false } := by
    simp [t₁, OutageTracker.slotOutage]
  have hmark := slotOutage_markReading t₁ slot nowMs
  rw [hslot] at hmark
  rw [OutageTracker.onReading, SlotOutage.read]
  by_cases hlost : t.lost slot = false
  · rw [if_pos hlost, if_pos (show (t.slotOutage slot).lost = false from hlost)]
    exact ⟨hslot, rfl⟩
  · have hsince : (t₁.markReading slot nowMs).okSinceMs slot = (t.slotOutage slot).okSince nowMs :=
      congrArg SlotOutage.okSinceMs hmark
    have hstart : (t₁.markReading slot nowMs).outageStartMs slot = t.outageStartMs slot :=
      congrArg SlotOutage.outageStartMs hmark
    have hrestore : (t₁.markReading slot nowMs).restoreMs = t.restoreMs := restoreMs_markReading ..
    rw [if_neg hlost, if_neg (show ¬ (t.slotOutage slot).lost = false from hlost)]
    dsimp only
    rw [hsince, hrestore, hstart]
    split
    · exact ⟨hmark, rfl⟩
    · refine ⟨?_, rfl⟩
      have hfailing := congrArg SlotOutage.failing hmark
      have hfail := congrArg SlotOutage.failSinceMs hmark
      simp only [OutageTracker.slotOutage, Function.update_self] at hfailing hfail hsince hstart ⊢
      rw [hfailing, hfail, hsince, hstart]

lemma slotOutage_onFailure :
    (t.onFailure slot nowMs).1.slotOutage slot =
        ((t.slotOutage slot).fail t.lostMs nowMs).1 ∧
      (t.onFailure slot nowMs).2 = ((t.slotOutage slot).fail t.lostMs nowMs).2 := by
  have hmark := slotOutage_markFailing t slot nowMs
  have hsince : (t.markFailing slot nowMs).failSinceMs slot = (t.slotOutage slot).failSince nowMs :=
    congrArg SlotOutage.failSinceMs hmark
  have hlost : (t.markFailing slot nowMs).lost slot = (t.slotOutage slot).lost :=
    congrArg SlotOutage.lost hmark
  rw [OutageTracker.onFailure, SlotOutage.fail]
  dsimp only
  rw [hsince, hlost, lostMs_markFailing]
  split
  · exact ⟨hmark, rfl⟩
  · refine ⟨?_, rfl⟩
    have hfailing := congrArg SlotOutage.failing hmark
    have hreading := congrArg SlotOutage.reading hmark
    have hok := congrArg SlotOutage.okSinceMs hmark
    simp only [OutageTracker.slotOutage, Function.update_self] at hfailing hreading hok hsince ⊢
    rw [hfailing, hreading, hok, hsince]

lemma slotOutage_onUnknown :
    (t.onUnknown slot).slotOutage slot = (t.slotOutage slot).unknown := by
  simp [OutageTracker.onUnknown, OutageTracker.slotOutage, SlotOutage.unknown]

variable {slot} {other : Fin kSlotCount}

lemma slotOutage_onPoll_of_ne (ok : Bool) (h : other ≠ slot) :
    (t.onPoll slot nowMs ok).1.slotOutage other = t.slotOutage other := by
  cases ok
  · show (t.onFailure slot nowMs).1.slotOutage other = _
    simp only [OutageTracker.onFailure, OutageTracker.markFailing]
    split <;> split <;> simp [OutageTracker.slotOutage, h]
  · show (t.onReading slot nowMs).1.slotOutage other = _
    simp only [OutageTracker.onReading, OutageTracker.markReading]
    split
    · simp [OutageTracker.slotOutage, h]
    · split <;> split <;> simp [OutageTracker.slotOutage, h]

lemma slotOutage_onUnknown_of_ne (h : other ≠ slot) :
    (t.onUnknown slot).slotOutage other = t.slotOutage other := by
  simp [OutageTracker.onUnknown, OutageTracker.slotOutage, h]

end Slot

/-! ### Calls -/

/-- What became of a poll, and when it was made. -/
inductive PollEvent where
  | read (ms : ℕ)
  | failed (ms : ℕ)
  | unknown

namespace PollEvent

def time? : PollEvent → Option ℕ
  | .read ms | .failed ms => some ms
  | .unknown => none

def isRead (e : PollEvent) : Prop := ∃ ms, e = .read ms

def isFailed (e : PollEvent) : Prop := ∃ ms, e = .failed ms

end PollEvent

structure OutageCall where
  slot : Fin kSlotCount
  event : PollEvent

def OutageTracker.call (t : OutageTracker) (c : OutageCall) : OutageTracker × OutageReport :=
  match c.event with
  | .read ms => t.onPoll c.slot (stamp ms) true
  | .failed ms => t.onPoll c.slot (stamp ms) false
  | .unknown => (t.onUnknown c.slot, {})

/-- The tracker and what its calls reported. -/
structure TrackerLog where
  tracker : OutageTracker
  reports : List (OutageCall × OutageReport) := []

def TrackerLog.call (s : TrackerLog) (c : OutageCall) : TrackerLog :=
  { tracker := (s.tracker.call c).1, reports := s.reports ++ [(c, (s.tracker.call c).2)] }

/-- The calls on a fresh tracker. -/
def trackerLog (lostMs restoreMs : UInt32) (calls : List OutageCall) : TrackerLog :=
  calls.foldl TrackerLog.call { tracker := ({} : OutageTracker).setTiming lostMs restoreMs }

/-- What a call reports after others. -/
def reportOf (lostMs restoreMs : UInt32) (calls : List OutageCall) (c : OutageCall) :
    OutageReport :=
  ((trackerLog lostMs restoreMs calls).tracker.call c).2

/-- The changes reported of a slot, oldest first. -/
def slotChanges (lostMs restoreMs : UInt32) (calls : List OutageCall) (slot : Fin kSlotCount) :
    List OutageChange :=
  ((trackerLog lostMs restoreMs calls).reports.filter
    fun r => r.1.slot = slot ∧ r.2.change ≠ .none).map (·.2.change)

/-- The polls of a slot. -/
def slotEvents (calls : List OutageCall) (slot : Fin kSlotCount) : List PollEvent :=
  (calls.filter (·.slot = slot)).map (·.event)

/-- The polls are made one after the other. -/
def PollsRise (calls : List OutageCall) : Prop :=
  calls.Pairwise fun a b => ∀ m ∈ a.event.time?, ∀ n ∈ b.event.time?, m ≤ n

/-- Every poll of the slot since this one failed; the one before did not. -/
def FailingSince (calls : List OutageCall) (slot : Fin kSlotCount) (ms : ℕ) : Prop :=
  TailRun PollEvent.isFailed (slotEvents calls slot) (.failed ms)

/-- Every poll of the slot since this one read; the one before did not. -/
def ReadingSince (calls : List OutageCall) (slot : Fin kSlotCount) (ms : ℕ) : Prop :=
  TailRun PollEvent.isRead (slotEvents calls slot) (.read ms)

/-- The last change of the slot is that it was lost, after it had failed since this time. -/
def LostSince (lostMs restoreMs : UInt32) (calls : List OutageCall) (slot : Fin kSlotCount)
    (ms : ℕ) : Prop :=
  ∃ before now after, calls = before ++ ⟨slot, .failed now⟩ :: after ∧
    (reportOf lostMs restoreMs before ⟨slot, .failed now⟩).change = .lost ∧
    FailingSince (before ++ [⟨slot, .failed now⟩]) slot ms ∧
    slotChanges lostMs restoreMs calls slot =
      slotChanges lostMs restoreMs (before ++ [⟨slot, .failed now⟩]) slot

section Calls

variable {lostMs restoreMs : UInt32} {calls : List OutageCall} {c : OutageCall}
  {slot : Fin kSlotCount}

lemma trackerLog_concat :
    trackerLog lostMs restoreMs (calls ++ [c]) = (trackerLog lostMs restoreMs calls).call c := by
  rw [trackerLog, List.foldl_append]
  rfl

lemma slotEvents_concat (h : c.slot = slot) :
    slotEvents (calls ++ [c]) slot = slotEvents calls slot ++ [c.event] := by
  simp [slotEvents, h]

lemma slotEvents_concat_of_ne (h : c.slot ≠ slot) :
    slotEvents (calls ++ [c]) slot = slotEvents calls slot := by
  simp [slotEvents, h]

lemma slotChanges_concat (h : c.slot = slot)
    (hchange : (reportOf lostMs restoreMs calls c).change ≠ .none) :
    slotChanges lostMs restoreMs (calls ++ [c]) slot =
      slotChanges lostMs restoreMs calls slot ++ [(reportOf lostMs restoreMs calls c).change] := by
  rw [slotChanges, trackerLog_concat, TrackerLog.call, List.filter_append, List.map_append]
  rw [reportOf] at hchange ⊢
  simp [slotChanges, h, hchange]

lemma slotChanges_concat_of_none
    (h : c.slot ≠ slot ∨ (reportOf lostMs restoreMs calls c).change = .none) :
    slotChanges lostMs restoreMs (calls ++ [c]) slot = slotChanges lostMs restoreMs calls slot := by
  rw [slotChanges, trackerLog_concat, TrackerLog.call, List.filter_append, List.map_append]
  rw [reportOf] at h
  have hdrop : ¬ (c.slot = slot ∧ ((trackerLog lostMs restoreMs calls).tracker.call c).2.change ≠
      .none) := by tauto
  simp [slotChanges, hdrop]

/-- The timing stays. -/
lemma timing_call (t : OutageTracker) (c : OutageCall) :
    (t.call c).1.lostMs = t.lostMs ∧ (t.call c).1.restoreMs = t.restoreMs := by
  rw [OutageTracker.call]
  split
  · show (t.onReading c.slot _).1.lostMs = _ ∧ (t.onReading c.slot _).1.restoreMs = _
    simp only [OutageTracker.onReading, OutageTracker.markReading]
    split
    · exact ⟨rfl, rfl⟩
    · split <;> split <;> exact ⟨rfl, rfl⟩
  · show (t.onFailure c.slot _).1.lostMs = _ ∧ (t.onFailure c.slot _).1.restoreMs = _
    simp only [OutageTracker.onFailure, OutageTracker.markFailing]
    split <;> split <;> exact ⟨rfl, rfl⟩
  · exact ⟨rfl, rfl⟩

lemma trackerLog_timing (calls : List OutageCall) :
    (trackerLog lostMs restoreMs calls).tracker.lostMs = lostMs ∧
      (trackerLog lostMs restoreMs calls).tracker.restoreMs = restoreMs := by
  induction calls using List.reverseRecOn with
  | nil => exact ⟨rfl, rfl⟩
  | append_singleton calls c ih =>
      obtain ⟨hlost, hrestore⟩ := timing_call (trackerLog lostMs restoreMs calls).tracker c
      rw [trackerLog_concat]
      exact ⟨hlost.trans ih.1, hrestore.trans ih.2⟩

end Calls

/-! ### What a slot holds -/

/-- What a slot holds after the calls. -/
structure OutageTracks (lostMs restoreMs : UInt32) (calls : List OutageCall) (slot : Fin kSlotCount)
    (s : SlotOutage) : Prop where
  failing : s.failing = true → ∃ ms, FailingSince calls slot ms ∧ s.failSinceMs = stamp ms
  notFailing : s.failing = false → ∀ e ∈ (slotEvents calls slot).getLast?, ¬ e.isFailed
  reading : s.reading = true → ∃ ms, ReadingSince calls slot ms ∧ s.okSinceMs = stamp ms
  notReading : s.lost = true → s.reading = false →
    ∀ e ∈ (slotEvents calls slot).getLast?, ¬ e.isRead
  readingLost : s.reading = true → s.lost = true
  alternates : AlternatesFrom .lost .restored (slotChanges lostMs restoreMs calls slot)
  lost : s.lost = true ↔ (slotChanges lostMs restoreMs calls slot).getLast? = some .lost
  started : s.lost = true →
    ∃ ms, LostSince lostMs restoreMs calls slot ms ∧ s.outageStartMs = stamp ms

section Tracks

variable {lostMs restoreMs : UInt32} {calls : List OutageCall} {c : OutageCall}
  {slot : Fin kSlotCount} {s : SlotOutage} {ms now : ℕ}

lemma PollEvent.not_isRead_failed : ¬ (PollEvent.failed ms).isRead := nofun

lemma PollEvent.not_isFailed_read : ¬ (PollEvent.read ms).isFailed := nofun

/-- Since when a slot fails, when a poll of it failed. -/
lemma OutageTracks.failSince (h : OutageTracks lostMs restoreMs calls slot s) (now : ℕ) :
    ∃ ms, FailingSince (calls ++ [⟨slot, .failed now⟩]) slot ms ∧
      s.failSince (stamp now) = stamp ms := by
  rw [SlotOutage.failSince]
  rcases Bool.eq_false_or_eq_true s.failing with hfailing | hfailing
  · obtain ⟨ms, hsince, hstamp⟩ := h.failing hfailing
    rw [if_pos hfailing]
    refine ⟨ms, ?_, hstamp⟩
    rw [FailingSince, slotEvents_concat rfl]
    exact hsince.concat ⟨now, rfl⟩
  · rw [if_neg (Bool.eq_false_iff.mp hfailing)]
    refine ⟨now, ?_, rfl⟩
    rw [FailingSince, slotEvents_concat rfl]
    exact TailRun.start (h.notFailing hfailing) ⟨now, rfl⟩

/-- Since when a lost slot reads, when a poll of it read. -/
lemma OutageTracks.okSince (h : OutageTracks lostMs restoreMs calls slot s) (hlost : s.lost = true)
    (now : ℕ) :
    ∃ ms, ReadingSince (calls ++ [⟨slot, .read now⟩]) slot ms ∧
      s.okSince (stamp now) = stamp ms := by
  rw [SlotOutage.okSince]
  rcases Bool.eq_false_or_eq_true s.reading with hreading | hreading
  · obtain ⟨ms, hsince, hstamp⟩ := h.reading hreading
    rw [if_pos hreading]
    refine ⟨ms, ?_, hstamp⟩
    rw [ReadingSince, slotEvents_concat rfl]
    exact hsince.concat ⟨now, rfl⟩
  · rw [if_neg (Bool.eq_false_iff.mp hreading)]
    refine ⟨now, ?_, rfl⟩
    rw [ReadingSince, slotEvents_concat rfl]
    exact TailRun.start (h.notReading hlost hreading) ⟨now, rfl⟩

/-- A call that reports nothing of the slot leaves it lost as it was. -/
lemma LostSince.concat (h : LostSince lostMs restoreMs calls slot ms)
    (hsame : slotChanges lostMs restoreMs (calls ++ [c]) slot =
      slotChanges lostMs restoreMs calls slot) :
    LostSince lostMs restoreMs (calls ++ [c]) slot ms := by
  obtain ⟨before, now, after, hsplit, hlost, hfailing, hchanges⟩ := h
  refine ⟨before, now, after ++ [c], ?_, hlost, hfailing, hsame.trans hchanges⟩
  rw [hsplit, List.append_assoc, List.cons_append]

lemma outageTracks_fresh :
    OutageTracks lostMs restoreMs [] slot
      ((trackerLog lostMs restoreMs []).tracker.slotOutage slot) where
  failing := nofun
  notFailing := nofun
  reading := nofun
  notReading := nofun
  readingLost := nofun
  alternates := trivial
  lost := ⟨nofun, nofun⟩
  started := nofun

/-- A call for another slot. -/
lemma OutageTracks.other (h : OutageTracks lostMs restoreMs calls slot s) (hslot : c.slot ≠ slot) :
    OutageTracks lostMs restoreMs (calls ++ [c]) slot s := by
  have hevents := @slotEvents_concat_of_ne calls c slot hslot
  have hchanges := @slotChanges_concat_of_none lostMs restoreMs calls c slot (.inl hslot)
  exact
    { failing := by simp only [FailingSince, hevents]; exact h.failing
      notFailing := by rw [hevents]; exact h.notFailing
      reading := by simp only [ReadingSince, hevents]; exact h.reading
      notReading := by rw [hevents]; exact h.notReading
      readingLost := h.readingLost
      alternates := by rw [hchanges]; exact h.alternates
      lost := by rw [hchanges]; exact h.lost
      started := fun hlost => by
        obtain ⟨ms, hsince, hstamp⟩ := h.started hlost
        exact ⟨ms, hsince.concat hchanges, hstamp⟩ }

/-- A poll that failed. -/
lemma OutageTracks.fail (h : OutageTracks lostMs restoreMs calls slot s) (now : ℕ)
    (hreport : reportOf lostMs restoreMs calls ⟨slot, .failed now⟩ =
      (s.fail lostMs (stamp now)).2) :
    OutageTracks lostMs restoreMs (calls ++ [⟨slot, .failed now⟩]) slot
      (s.fail lostMs (stamp now)).1 := by
  obtain ⟨since, hsince, hstamp⟩ := h.failSince now
  have hlast : (slotEvents (calls ++ [⟨slot, .failed now⟩]) slot).getLast? = some (.failed now) := by
    rw [slotEvents_concat rfl, List.getLast?_concat]
  have hnotRead : ∀ e ∈ (slotEvents (calls ++ [⟨slot, .failed now⟩]) slot).getLast?, ¬ e.isRead := by
    rintro e he
    rw [hlast] at he
    cases he
    exact PollEvent.not_isRead_failed
  rcases s.fail_cases lostMs (stamp now) with heq | ⟨hlost, -, heq⟩
  · have hsame : slotChanges lostMs restoreMs (calls ++ [⟨slot, .failed now⟩]) slot =
        slotChanges lostMs restoreMs calls slot :=
      slotChanges_concat_of_none (.inr (by rw [hreport, heq]))
    rw [heq]
    exact
      { failing := fun _ => ⟨since, hsince, hstamp⟩
        notFailing := nofun
        reading := nofun
        notReading := fun _ _ => hnotRead
        readingLost := nofun
        alternates := by rw [hsame]; exact h.alternates
        lost := by rw [hsame]; exact h.lost
        started := fun hlost => by
          obtain ⟨start, hstart, hstamp'⟩ := h.started hlost
          exact ⟨start, hstart.concat hsame, hstamp'⟩ }
  · have hchange : (reportOf lostMs restoreMs calls ⟨slot, .failed now⟩).change = .lost := by
      rw [hreport, heq]
    have hchanges : slotChanges lostMs restoreMs (calls ++ [⟨slot, .failed now⟩]) slot =
        slotChanges lostMs restoreMs calls slot ++ [.lost] := by
      rw [slotChanges_concat rfl (by rw [hchange]; nofun), hchange]
    have hturn : (slotChanges lostMs restoreMs calls slot).getLast? ≠ some .lost := fun hlast' =>
      Bool.false_ne_true (hlost.symm.trans (h.lost.mpr hlast'))
    rw [heq]
    exact
      { failing := fun _ => ⟨since, hsince, hstamp⟩
        notFailing := nofun
        reading := nofun
        notReading := fun _ _ => hnotRead
        readingLost := nofun
        alternates := by
          rw [hchanges]
          exact h.alternates.concat_first nofun hturn
        lost := by simp [hchanges]
        started := fun _ =>
          ⟨since, ⟨calls, now, [], rfl, hchange, hsince, rfl⟩, hstamp⟩ }

/-- A poll that read. -/
lemma OutageTracks.read (h : OutageTracks lostMs restoreMs calls slot s) (now : ℕ)
    (hreport : reportOf lostMs restoreMs calls ⟨slot, .read now⟩ =
      (s.read restoreMs (stamp now)).2) :
    OutageTracks lostMs restoreMs (calls ++ [⟨slot, .read now⟩]) slot
      (s.read restoreMs (stamp now)).1 := by
  have hlast : (slotEvents (calls ++ [⟨slot, .read now⟩]) slot).getLast? = some (.read now) := by
    rw [slotEvents_concat rfl, List.getLast?_concat]
  have hnotFailed : ∀ e ∈ (slotEvents (calls ++ [⟨slot, .read now⟩]) slot).getLast?,
      ¬ e.isFailed := by
    rintro e he
    rw [hlast] at he
    cases he
    exact PollEvent.not_isFailed_read
  rcases s.read_cases restoreMs (stamp now) with ⟨hlost, heq⟩ | ⟨hlost, heq⟩ | ⟨hlost, -, heq⟩
  · have hsame : slotChanges lostMs restoreMs (calls ++ [⟨slot, .read now⟩]) slot =
        slotChanges lostMs restoreMs calls slot :=
      slotChanges_concat_of_none (.inr (by rw [hreport, heq]))
    have hidle : ∀ {P : Prop}, s.lost = true → P := fun h => absurd h (by simp [hlost])
    rw [heq]
    exact
      { failing := nofun
        notFailing := fun _ => hnotFailed
        reading := fun hreading => hidle (h.readingLost hreading)
        notReading := fun hlost' => hidle hlost'
        readingLost := h.readingLost
        alternates := by rw [hsame]; exact h.alternates
        lost := by rw [hsame]; exact h.lost
        started := fun hlost' => hidle hlost' }
  · have hsame : slotChanges lostMs restoreMs (calls ++ [⟨slot, .read now⟩]) slot =
        slotChanges lostMs restoreMs calls slot :=
      slotChanges_concat_of_none (.inr (by rw [hreport, heq]))
    rw [heq]
    exact
      { failing := nofun
        notFailing := fun _ => hnotFailed
        reading := fun _ => h.okSince hlost now
        notReading := nofun
        readingLost := fun _ => hlost
        alternates := by rw [hsame]; exact h.alternates
        lost := by rw [hsame]; exact h.lost
        started := fun hlost => by
          obtain ⟨start, hstart, hstamp⟩ := h.started hlost
          exact ⟨start, hstart.concat hsame, hstamp⟩ }
  · have hchange : (reportOf lostMs restoreMs calls ⟨slot, .read now⟩).change = .restored := by
      rw [hreport, heq]
    have hchanges : slotChanges lostMs restoreMs (calls ++ [⟨slot, .read now⟩]) slot =
        slotChanges lostMs restoreMs calls slot ++ [.restored] := by
      rw [slotChanges_concat rfl (by rw [hchange]; nofun), hchange]
    have hwasLost := h.lost.mp hlost
    rw [heq]
    exact
      { failing := nofun
        notFailing := fun _ => hnotFailed
        reading := nofun
        notReading := nofun
        readingLost := nofun
        alternates := by
          rw [hchanges]
          exact h.alternates.concat_second nofun hwasLost
        lost := by simp [hchanges]
        started := nofun }

/-- A poll that could not tell. -/
lemma OutageTracks.unknown (h : OutageTracks lostMs restoreMs calls slot s) :
    OutageTracks lostMs restoreMs (calls ++ [⟨slot, .unknown⟩]) slot s.unknown := by
  have hsame : slotChanges lostMs restoreMs (calls ++ [⟨slot, .unknown⟩]) slot =
      slotChanges lostMs restoreMs calls slot := slotChanges_concat_of_none (.inr rfl)
  have hlast : ∀ e ∈ (slotEvents (calls ++ [⟨slot, .unknown⟩]) slot).getLast?, e = .unknown := by
    rw [slotEvents_concat rfl, List.getLast?_concat]
    rintro e ⟨⟩
    rfl
  exact
    { failing := nofun
      notFailing := by
        rintro - e he
        rw [hlast e he]
        nofun
      reading := nofun
      notReading := by
        rintro - - e he
        rw [hlast e he]
        nofun
      readingLost := nofun
      alternates := by rw [hsame]; exact h.alternates
      lost := by rw [hsame]; exact h.lost
      started := fun hlost => by
        obtain ⟨start, hstart, hstamp⟩ := h.started hlost
        exact ⟨start, hstart.concat hsame, hstamp⟩ }

end Tracks

/-! ### Every sequence of calls -/

section Reports

variable {lostMs restoreMs : UInt32} {calls : List OutageCall} {slot : Fin kSlotCount}

/-- A poll that read, as the slot sees it. -/
lemma call_read (ms : ℕ) :
    ((trackerLog lostMs restoreMs (calls ++ [⟨slot, .read ms⟩])).tracker.slotOutage slot =
        (((trackerLog lostMs restoreMs calls).tracker.slotOutage slot).read restoreMs
          (stamp ms)).1) ∧
      reportOf lostMs restoreMs calls ⟨slot, .read ms⟩ =
        (((trackerLog lostMs restoreMs calls).tracker.slotOutage slot).read restoreMs
          (stamp ms)).2 := by
  have h := slotOutage_onReading (trackerLog lostMs restoreMs calls).tracker slot (stamp ms)
  rw [(trackerLog_timing calls).2] at h
  rw [trackerLog_concat]
  exact h

/-- A poll that failed, as the slot sees it. -/
lemma call_failed (ms : ℕ) :
    ((trackerLog lostMs restoreMs (calls ++ [⟨slot, .failed ms⟩])).tracker.slotOutage slot =
        (((trackerLog lostMs restoreMs calls).tracker.slotOutage slot).fail lostMs
          (stamp ms)).1) ∧
      reportOf lostMs restoreMs calls ⟨slot, .failed ms⟩ =
        (((trackerLog lostMs restoreMs calls).tracker.slotOutage slot).fail lostMs
          (stamp ms)).2 := by
  have h := slotOutage_onFailure (trackerLog lostMs restoreMs calls).tracker slot (stamp ms)
  rw [(trackerLog_timing calls).1] at h
  rw [trackerLog_concat]
  exact h

/-- A call for another slot leaves the slot as it was. -/
lemma call_other {c : OutageCall} (h : c.slot ≠ slot) :
    (trackerLog lostMs restoreMs (calls ++ [c])).tracker.slotOutage slot =
      (trackerLog lostMs restoreMs calls).tracker.slotOutage slot := by
  rw [trackerLog_concat]
  obtain ⟨slot', event⟩ := c
  cases event with
  | read ms => exact slotOutage_onPoll_of_ne _ _ true (Ne.symm h)
  | failed ms => exact slotOutage_onPoll_of_ne _ _ false (Ne.symm h)
  | unknown => exact slotOutage_onUnknown_of_ne _ (Ne.symm h)

/-- Every sequence of calls keeps the invariant of every slot. -/
lemma outageTracks (calls : List OutageCall) :
    OutageTracks lostMs restoreMs calls slot
      ((trackerLog lostMs restoreMs calls).tracker.slotOutage slot) := by
  induction calls using List.reverseRecOn with
  | nil => exact outageTracks_fresh
  | append_singleton calls c ih =>
      by_cases hslot : c.slot = slot
      · obtain ⟨slot', event⟩ := c
        obtain rfl : slot' = slot := hslot
        cases event with
        | read ms =>
            obtain ⟨hstate, hreport⟩ := @call_read lostMs restoreMs calls slot' ms
            rw [hstate]
            exact ih.read ms hreport
        | failed ms =>
            obtain ⟨hstate, hreport⟩ := @call_failed lostMs restoreMs calls slot' ms
            rw [hstate]
            exact ih.fail ms hreport
        | unknown =>
            have hstate := slotOutage_onUnknown (trackerLog lostMs restoreMs calls).tracker slot'
            rw [trackerLog_concat]
            exact hstate ▸ ih.unknown
      · rw [call_other hslot]
        exact ih.other hslot

/-- What a call for a slot may report. -/
structure ReportHolds (lostMs restoreMs : UInt32) (before : List OutageCall) (c : OutageCall) :
    Prop where
  lost : (reportOf lostMs restoreMs before c).change = .lost →
    ∃ since now, c.event = .failed now ∧ FailingSince (before ++ [c]) c.slot since ∧
      since + lostMs.toNat ≤ now
  restored : (reportOf lostMs restoreMs before c).change = .restored →
    ∃ since now, c.event = .read now ∧ ReadingSince (before ++ [c]) c.slot since ∧
      since + restoreMs.toNat ≤ now ∧
      ∃ start, LostSince lostMs restoreMs before c.slot start ∧ start ≤ since ∧
        (since < start + 2 ^ 32 →
          (reportOf lostMs restoreMs before c).downMs.toNat = since - start)

lemma PollsRise.events (h : PollsRise calls) :
    (slotEvents calls slot).Pairwise fun a b => ∀ m ∈ a.time?, ∀ n ∈ b.time?, m ≤ n :=
  List.pairwise_map.mpr (h.filter _)

/-- The polls of the slot up to the last one. -/
lemma PollsRise.le_last {e : PollEvent} {since now : ℕ} (h : PollsRise (calls ++ [⟨slot, e⟩]))
    (hsince : ∃ e' ∈ slotEvents (calls ++ [⟨slot, e⟩]) slot, since ∈ e'.time?)
    (hnow : now ∈ e.time?) : since ≤ now := by
  have hevents := @PollsRise.events _ slot h
  rw [slotEvents_concat rfl] at hevents hsince
  obtain ⟨e', he', htime⟩ := hsince
  rcases List.mem_append.mp he' with hbefore | hlast
  · exact (List.pairwise_append.mp hevents).2.2 e' hbefore e (List.mem_singleton_self e) since
      htime now hnow
  · rw [List.mem_singleton.mp hlast] at htime
    rw [Option.mem_unique htime hnow]

/-- A slot reads since a poll after the one at which it was lost. -/
lemma LostSince.le_reading {start since now : ℕ}
    (hlost : LostSince lostMs restoreMs calls slot start)
    (hreading : ReadingSince (calls ++ [⟨slot, .read now⟩]) slot since)
    (hclock : PollsRise (calls ++ [⟨slot, .read now⟩])) : start ≤ since := by
  obtain ⟨before, at', after, rfl, -, hfailing, -⟩ := hlost
  have hevents := @PollsRise.events _ slot hclock
  have hsplit : slotEvents (before ++ ⟨slot, .failed at'⟩ :: after ++ [⟨slot, .read now⟩]) slot =
      slotEvents (before ++ [⟨slot, .failed at'⟩]) slot ++
        slotEvents (after ++ [⟨slot, .read now⟩]) slot := by
    simp [slotEvents]
  have hsplit' : slotEvents (before ++ [⟨slot, .failed at'⟩]) slot =
      slotEvents before slot ++ [.failed at'] := slotEvents_concat rfl
  rw [ReadingSince, hsplit, hsplit', List.append_assoc] at hreading
  have hafter := hreading.mem_after (PollEvent.not_isRead_failed)
  rw [hsplit] at hevents
  exact (List.pairwise_append.mp hevents).2.2 _ hfailing.mem _ hafter start rfl since rfl

/-- A poll that failed reports that the slot is lost, if anything. -/
lemma reportHolds_failed (ms : ℕ) (hclock : PollsRise (calls ++ [⟨slot, .failed ms⟩])) :
    ReportHolds lostMs restoreMs calls ⟨slot, .failed ms⟩ := by
  obtain ⟨-, hreport⟩ := @call_failed lostMs restoreMs calls slot ms
  have htracks := @outageTracks lostMs restoreMs slot calls
  rcases SlotOutage.fail_cases _ lostMs (stamp ms) with heq | ⟨-, hlong, heq⟩
  · constructor <;> rw [hreport, heq] <;> nofun
  · constructor
    · intro _
      obtain ⟨since, hsince, hstamp⟩ := htracks.failSince ms
      rw [hstamp] at hlong
      exact ⟨since, ms, rfl, hsince,
        elapsed_ge (hclock.le_last ⟨_, hsince.mem, rfl⟩ rfl) hlong⟩
    · rw [hreport, heq]
      nofun

/-- A poll that read reports that the slot is restored, if anything. -/
lemma reportHolds_read (ms : ℕ) (hclock : PollsRise (calls ++ [⟨slot, .read ms⟩])) :
    ReportHolds lostMs restoreMs calls ⟨slot, .read ms⟩ := by
  obtain ⟨-, hreport⟩ := @call_read lostMs restoreMs calls slot ms
  have htracks := @outageTracks lostMs restoreMs slot calls
  rcases SlotOutage.read_cases _ restoreMs (stamp ms) with
    ⟨-, heq⟩ | ⟨-, heq⟩ | ⟨hlost, hlong, heq⟩
  · constructor <;> rw [hreport, heq] <;> nofun
  · constructor <;> rw [hreport, heq] <;> nofun
  · constructor
    · rw [hreport, heq]
      nofun
    · intro _
      obtain ⟨since, hsince, hstamp⟩ := htracks.okSince hlost ms
      obtain ⟨start, hstart, hstamp'⟩ := htracks.started hlost
      have hle := hstart.le_reading hsince hclock
      rw [hstamp] at hlong
      refine ⟨since, ms, rfl, hsince,
        elapsed_ge (hclock.le_last ⟨_, hsince.mem, rfl⟩ rfl) hlong, start, hstart, hle, fun hturn => ?_⟩
      rw [hreport, heq, hstamp, hstamp']
      exact elapsed_exact hle hturn

end Reports

/-- **Each outage is reported once.** Over every sequence of polls, Lost and Restored of a slot
alternate. It is lost only once every poll of it has failed for `lostMs` and restored only once
every poll of it has read for `restoreMs`; the outage lasted from the first poll that failed to the
first one that read. -/
theorem outages_once (lostMs restoreMs : UInt32) (calls : List OutageCall)
    (hclock : PollsRise calls) :
    (∀ slot, AlternatesFrom .lost .restored (slotChanges lostMs restoreMs calls slot)) ∧
      ∀ before c after, calls = before ++ c :: after → ReportHolds lostMs restoreMs before c := by
  refine ⟨fun slot => (outageTracks calls).alternates, ?_⟩
  rintro before ⟨slot, event⟩ after rfl
  have hbefore : PollsRise (before ++ [⟨slot, event⟩]) := by
    rw [List.append_cons] at hclock
    exact (List.pairwise_append.mp hclock).1
  cases event with
  | read ms => exact reportHolds_read ms hbefore
  | failed ms => exact reportHolds_failed ms hbefore
  | unknown => exact ⟨nofun, nofun⟩

instance (calls : List OutageCall) : Decidable (PollsRise calls) :=
  inferInstanceAs (Decidable (List.Pairwise _ _))

/-- An outage of six minutes, reported after five and restored after ten good ones. -/
theorem outages_once_restored :
    ∃ slot before c, PollsRise (before ++ [c]) ∧
      slotChanges kOutageLostMs kOutageRestoreMs (before ++ [c]) slot = [.lost, .restored] ∧
      (reportOf kOutageLostMs kOutageRestoreMs before c).downMs = 360000 ∧
      AlternatesFrom .lost .restored
        (slotChanges kOutageLostMs kOutageRestoreMs (before ++ [c]) slot) ∧
      ReportHolds kOutageLostMs kOutageRestoreMs before c := by
  let slot : Fin kSlotCount := ⟨0, by decide⟩
  let before : List OutageCall :=
    [⟨slot, .failed 0⟩, ⟨slot, .failed 300000⟩, ⟨slot, .read 360000⟩]
  let c : OutageCall := ⟨slot, .read 960000⟩
  have hclock : PollsRise (before ++ [c]) := by decide
  obtain ⟨halternates, hreports⟩ :=
    outages_once kOutageLostMs kOutageRestoreMs (before ++ [c]) hclock
  exact ⟨slot, before, c, hclock, by decide +kernel, by decide +kernel, halternates slot,
    hreports before c [] rfl⟩

end ArcticController

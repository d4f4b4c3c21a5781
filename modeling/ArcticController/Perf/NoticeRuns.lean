/-
The notice of the bell agrees with the outage tracker, in every interleaving of
polls, reports, settings changes and acknowledgements.

* `OutageTally`, `outageTally`: the slots that are lost and the separate outages, as
  the events tell;
* `NoticeAgrees`: the mask, the ongoing flag and the count are those of the tracker
  and of the outages;
* `NoticeInStep`, `OutageInStep`: the invariant of the notice and of the whole system;
* `notice_agrees`: the notice agrees as long as no reset overtakes the report of a
  lost slot, where a reset drops the outages only if one was going on;
* `finished_outage_stays_counted`: a reset after a finished outage keeps its count.
-/
import ArcticController.Perf.OutageNotice

namespace ArcticController

/-! ### Outages -/

/-- The slots that are lost and the separate outages, maximal periods with a slot
lost, since they were last dropped. -/
structure OutageTally where
  lost : Fin kSlotCount → Bool := fun _ => false
  outages : ℕ := 0

/-- Some slot is lost. -/
def someLost (lost : Fin kSlotCount → Bool) : Bool := decide (∃ slot, lost slot = true)

/-- An acknowledgement drops the outages so far. A reset drops them if one is going
on, or, with `everyReset`, always. -/
def OutageTally.next (everyReset : Bool) (t : OutageTally) : NoticeEvent → OutageTally
  | .lost slot =>
      { lost := Function.update t.lost slot true
        outages := if someLost t.lost then t.outages else t.outages + 1 }
  | .restored slot => { t with lost := Function.update t.lost slot false }
  | .reset _ => { outages := if everyReset || someLost t.lost then 0 else t.outages }
  | .acknowledged => { t with outages := 0 }

def outageTally (everyReset : Bool) (log : List NoticeEvent) : OutageTally :=
  log.foldl (OutageTally.next everyReset) {}

/-- Nothing is still to be reported. -/
def OutageSystem.Quiet (s : OutageSystem) : Prop := ∀ p ∈ s.inFlight, p.2.change = .none

/-- The notice agrees with the tracker and with the outages. -/
structure NoticeAgrees (everyReset : Bool) (s : OutageSystem) (log : List NoticeEvent) : Prop where
  mask : s.Quiet → ∀ slot : Fin kSlotCount,
    s.notice.lostMask &&& slotBit slot ≠ 0 ↔ s.tracker.lost slot = true
  lost : s.Quiet → (outageTally everyReset log).lost = s.tracker.lost
  ongoing : s.Quiet → s.notice.notice.ongoing = true → ∃ slot, s.tracker.lost slot = true
  count : s.notice.notice.pending = true → s.notice.notice.count.toNat
    = min (outageTally everyReset log).outages extSensorNoticeCountMax.toNat

/-! ### The mask -/

/-- The mask of the lost slots. -/
def maskOf (lost : Fin kSlotCount → Bool) : UInt8 :=
  (if lost ⟨0, supply_lt⟩ then 1 else 0) ||| (if lost ⟨1, return_lt⟩ then 2 else 0)

lemma maskOf_and : ∀ (lost : Fin kSlotCount → Bool) (slot : Fin kSlotCount),
    maskOf lost &&& slotBit slot ≠ 0 ↔ lost slot = true := by
  decide

lemma maskOf_or : ∀ (lost : Fin kSlotCount → Bool) (slot : Fin kSlotCount),
    maskOf lost ||| slotBit slot = maskOf (Function.update lost slot true) := by
  decide

lemma maskOf_and_not : ∀ (lost : Fin kSlotCount → Bool) (slot : Fin kSlotCount),
    maskOf lost &&& ~~~ slotBit slot = maskOf (Function.update lost slot false) := by
  decide

lemma maskOf_eq_zero : ∀ lost : Fin kSlotCount → Bool, maskOf lost = 0 ↔ someLost lost = false := by
  decide

lemma slot_le_seven (slot : Fin kSlotCount) : ¬ 7 < slot.val := by
  have hlt : slot.val < 2 := slot.isLt
  omega

lemma someLost_update_true (lost : Fin kSlotCount → Bool) (slot : Fin kSlotCount) :
    someLost (Function.update lost slot true) = true :=
  decide_eq_true ⟨slot, Function.update_self slot true lost⟩

/-! ### The notice -/

/-- The notice tells the outages of a tally. -/
structure NoticeInStep (t : OutageTally) (n : NoticeState) : Prop where
  mask : n.lostMask = maskOf t.lost
  ongoing : n.notice.ongoing = (n.notice.pending && someLost t.lost)
  pending : n.notice.pending = true ↔ 0 < t.outages
  count : n.notice.pending = true → n.notice.count.toNat = min t.outages extSensorNoticeCountMax.toNat

section Notice

variable {t : OutageTally} {n : NoticeState}

/-- The notice after one more outage. -/
lemma ExtSensorNotice.newOutage_spec {notice : ExtSensorNotice} {outages : ℕ}
    (hpending : notice.pending = true ↔ 0 < outages)
    (hcount : notice.pending = true → notice.count.toNat = min outages extSensorNoticeCountMax.toNat) :
    notice.newOutage.pending = true ∧
      notice.newOutage.count.toNat = min (outages + 1) extSensorNoticeCountMax.toNat := by
  have hmax : extSensorNoticeCountMax.toNat = 9999 := rfl
  have hnext : ∀ {n : ExtSensorNotice}, n.pending = true → n.count.toNat = min outages 9999 →
      (if n.count < extSensorNoticeCountMax then { n with count := n.count + 1 } else n).pending
        = true ∧
      (if n.count < extSensorNoticeCountMax then { n with count := n.count + 1 } else n).count.toNat
        = min (outages + 1) 9999 := by
    intro n hn hc
    split
    · next hlt =>
        rw [UInt32.lt_iff_toNat_lt, hmax] at hlt
        refine ⟨hn, ?_⟩
        rw [UInt32.toNat_add]
        simp only [UInt32.reduceToNat]
        omega
    · next hge =>
        rw [UInt32.lt_iff_toNat_lt, hmax] at hge
        exact ⟨hn, by omega⟩
  rw [hmax] at hcount ⊢
  rw [ExtSensorNotice.newOutage]
  cases hp : notice.pending with
  | true => exact hnext hp (hcount hp)
  | false =>
      have hzero : ¬ 0 < outages := by
        rw [← hpending, hp]
        exact Bool.false_ne_true
      exact hnext rfl (by
        show (0 : UInt32).toNat = _
        rw [Nat.eq_zero_of_not_pos hzero]
        rfl)

lemma NoticeInStep.recordLost (h : NoticeInStep t n) {slot : Fin kSlotCount}
    (hslot : t.lost slot = false) :
    NoticeInStep (t.next false (.lost slot)) (n.recordLost slot) := by
  have hbit : ¬ (n.lostMask &&& slotBit slot ≠ 0) := by
    rw [h.mask, maskOf_and, hslot]
    exact Bool.false_ne_true
  rw [NoticeState.recordLost, if_neg (slot_le_seven slot), if_neg hbit]
  cases hlost : someLost t.lost with
  | true =>
      -- the slot joins an outage that is going on
      have hmask : n.lostMask ≠ 0 := by
        rw [h.mask, ne_eq, maskOf_eq_zero, hlost]
        nofun
      simp only [if_neg hmask, OutageTally.next, hlost, if_true]
      refine ⟨by rw [← maskOf_or, ← h.mask], ?_, ?_, ?_⟩
      · rw [someLost_update_true, Bool.and_true]
        cases hp : n.notice.pending
        · simp [hp, h.ongoing]
        · simp
      · rw [← h.pending]
        split <;> rfl
      · cases hp : n.notice.pending
        · simp [hp]
        · simpa using h.count hp
  | false =>
      have hmask : n.lostMask = 0 := by rw [h.mask, maskOf_eq_zero, hlost]
      obtain ⟨hpending, hcount⟩ := ExtSensorNotice.newOutage_spec h.pending h.count
      simp only [if_pos hmask, OutageTally.next, hlost, Bool.false_eq_true, if_false, hpending,
        if_true]
      refine ⟨by rw [← maskOf_or, ← h.mask], ?_, ?_, fun _ => hcount⟩
      · rw [someLost_update_true]
        rfl
      · exact iff_of_true rfl (Nat.succ_pos _)

lemma NoticeInStep.recordRestored (h : NoticeInStep t n) (slot : Fin kSlotCount) (downS : UInt32) :
    NoticeInStep (t.next false (.restored slot)) (n.recordRestored slot downS) := by
  rw [NoticeState.recordRestored, if_neg (slot_le_seven slot)]
  cases hslot : t.lost slot with
  | false =>
      have hbit : n.lostMask &&& slotBit slot = 0 := by
        by_contra hne
        rw [← ne_eq, h.mask, maskOf_and, hslot] at hne
        cases hne
      have hsame : t.next false (.restored slot) = t := by
        have : Function.update t.lost slot false = t.lost := by
          rw [← hslot, Function.update_eq_self]
        rw [OutageTally.next, this]
      rw [if_pos hbit, hsame]
      exact h
  | true =>
      have hbit : n.lostMask &&& slotBit slot ≠ 0 := by
        rw [h.mask, maskOf_and, hslot]
      rw [if_neg hbit]
      dsimp only
      have hmask : n.lostMask &&& ~~~ slotBit slot = maskOf (Function.update t.lost slot false) := by
        rw [h.mask, maskOf_and_not]
      have hsome : someLost t.lost = true := decide_eq_true ⟨slot, hslot⟩
      rw [hmask]
      cases hrest : someLost (Function.update t.lost slot false) with
      | true =>
          have hne : maskOf (Function.update t.lost slot false) ≠ 0 := by
            rw [ne_eq, maskOf_eq_zero, hrest]
            nofun
          rw [if_neg hne]
          refine ⟨rfl, ?_, h.pending, h.count⟩
          rw [h.ongoing, hsome]
          simp only [OutageTally.next, hrest]
      | false =>
          rw [if_pos ((maskOf_eq_zero _).mpr hrest)]
          refine ⟨rfl, ?_, ?_, ?_⟩
          · simp only [OutageTally.next, hrest, Bool.and_false]
            split <;> rfl
          · rw [show (t.next false (.restored slot)).outages = t.outages from rfl, ← h.pending]
            split <;> rfl
          · rw [show (t.next false (.restored slot)).outages = t.outages from rfl]
            cases hp : n.notice.pending
            · simp
            · simpa using h.count hp

lemma NoticeInStep.settingsChanged (h : NoticeInStep t n) (overtaking : Bool) :
    NoticeInStep (t.next false (.reset overtaking)) n.settingsChanged := by
  have hnone : someLost (fun _ => false) = false := by decide
  have hzero : maskOf (fun _ => false) = 0 := by decide
  rw [NoticeState.settingsChanged]
  cases hlost : someLost t.lost with
  | false =>
      have hmask : n.lostMask = 0 := by rw [h.mask, maskOf_eq_zero, hlost]
      rw [if_pos hmask, OutageTally.next, hlost]
      refine ⟨hmask.trans hzero.symm, ?_, h.pending, h.count⟩
      rw [h.ongoing, hlost, hnone]
  | true =>
      have hmask : n.lostMask ≠ 0 := by
        rw [h.mask, ne_eq, maskOf_eq_zero, hlost]
        nofun
      have hongoing : n.notice.ongoing = n.notice.pending := by rw [h.ongoing, hlost, Bool.and_true]
      rw [if_neg hmask, OutageTally.next, hlost, hongoing]
      cases hp : n.notice.pending with
      | true => exact ⟨hzero.symm, rfl, by simp, nofun⟩
      | false =>
          refine ⟨hzero.symm, ?_, ?_, ?_⟩
          · simp [hongoing, hp]
          · simp [hp]
          · simp [hp]

lemma NoticeInStep.clear (h : NoticeInStep t n) : NoticeInStep (t.next false .acknowledged) n.clear :=
  ⟨h.mask, rfl, by simp [NoticeState.clear, OutageTally.next], nofun⟩

end Notice

/-! ### The tracker -/

/-- The lost slots after a change. -/
def lostAfter (lost : Fin kSlotCount → Bool) (slot : Fin kSlotCount) :
    OutageChange → Fin kSlotCount → Bool
  | .none => lost
  | .lost => Function.update lost slot true
  | .restored => Function.update lost slot false

/-- What a poll reports is what it changes, and a slot is found lost once. -/
lemma trackOutage_spec (t : OutageTracker) (slot : Fin kSlotCount) (nowMs : UInt32)
    (ok netUp : Bool) :
    (trackOutage t slot nowMs ok netUp).1.lost
        = lostAfter t.lost slot (trackOutage t slot nowMs ok netUp).2.change ∧
      ((trackOutage t slot nowMs ok netUp).2.change = .lost → t.lost slot = false) := by
  rw [trackOutage]
  cases netUp with
  | false => exact ⟨rfl, nofun⟩
  | true =>
      rw [if_pos rfl, OutageTracker.onPoll]
      cases ok with
      | true =>
          rw [if_pos rfl, OutageTracker.onReading]
          split
          · exact ⟨rfl, nofun⟩
          · dsimp only
            split
            · exact ⟨OutageTracker.lost_markReading _ slot nowMs, nofun⟩
            · refine ⟨?_, nofun⟩
              dsimp only [lostAfter]
              rw [OutageTracker.lost_markReading]
      | false =>
          rw [if_neg (by decide), OutageTracker.onFailure]
          split
          · exact ⟨t.lost_markFailing slot nowMs, nofun⟩
          · next hneg =>
              refine ⟨?_, fun _ => ?_⟩
              · dsimp only [lostAfter]
                rw [OutageTracker.lost_markFailing]
              · rw [← t.lost_markFailing slot nowMs]
                exact Bool.eq_false_of_not_eq_true fun h => hneg (.inl h)

/-! ### The system -/

/-- The lost slots once the worker has reported. -/
def OutageSystem.lostReported (s : OutageSystem) (lost : Fin kSlotCount → Bool) :
    Fin kSlotCount → Bool :=
  match s.inFlight with
  | none => lost
  | some (slot, rep) => lostAfter lost slot rep.change

/-- The notice is in step with the events, and the tracker with the events and the
report that is still to come, which finds no slot lost twice. -/
structure OutageInStep (s : OutageSystem) (log : List NoticeEvent) : Prop where
  notice : NoticeInStep (outageTally false log) s.notice
  tracker : s.tracker.lost = s.lostReported (outageTally false log).lost
  fresh : ∀ slot rep, s.inFlight = some (slot, rep) → rep.change = .lost →
    (outageTally false log).lost slot = false

section Steps

variable {s : OutageSystem} {log : List NoticeEvent}

lemma outageTally_concat (everyReset : Bool) (log : List NoticeEvent) (e : NoticeEvent) :
    outageTally everyReset (log ++ [e]) = (outageTally everyReset log).next everyReset e := by
  rw [outageTally, List.foldl_append]
  rfl

/-- A reset that overtakes no report of a lost slot. -/
lemma OutageInStep.resetSlots (h : OutageInStep s log) (hquiet : s.reportsLost = false) :
    OutageInStep s.resetSlots (log ++ [.reset false]) := by
  refine ⟨?_, ?_, fun slot rep hflight hlost => ?_⟩
  · rw [outageTally_concat]
    exact h.notice.settingsChanged false
  · rw [outageTally_concat]
    cases hflight : s.inFlight with
    | none =>
        rw [OutageSystem.lostReported, show s.resetSlots.inFlight = s.inFlight from rfl, hflight]
        rfl
    | some p =>
        rw [OutageSystem.lostReported, show s.resetSlots.inFlight = s.inFlight from rfl, hflight]
        have hne : p.2.change ≠ .lost := by
          intro hlost
          rw [OutageSystem.reportsLost, hflight] at hquiet
          simp [hlost] at hquiet
        have hnone : ∀ slot : Fin kSlotCount, (fun _ => false)
            = Function.update (fun _ : Fin kSlotCount => false) slot false :=
          fun slot => (Function.update_eq_self slot _).symm
        cases hchange : p.2.change with
        | none => rw [show p = (p.1, p.2) from rfl]; simp only [hchange]; rfl
        | lost => exact absurd hchange hne
        | restored =>
            rw [show p = (p.1, p.2) from rfl]
            simp only [hchange]
            exact hnone p.1
  · have hflight' : s.inFlight = some (slot, rep) := hflight
    rw [OutageSystem.reportsLost, hflight'] at hquiet
    simp [hlost] at hquiet

/-- The worker reports. -/
lemma OutageInStep.report (h : OutageInStep s log) {slot : Fin kSlotCount} {rep : OutageReport}
    (hflight : s.inFlight = some (slot, rep)) :
    OutageInStep { s with notice := reportOutage s.notice slot rep, inFlight := none }
      (log ++ (OutageSystem.reportEvent slot rep).toList) := by
  have htracker := h.tracker
  rw [OutageSystem.lostReported, hflight] at htracker
  dsimp only at htracker
  rw [reportOutage, OutageSystem.reportEvent]
  cases hchange : rep.change with
  | none =>
      rw [hchange] at htracker
      dsimp only
      rw [Option.toList_none, List.append_nil]
      exact ⟨h.notice, htracker, nofun⟩
  | lost =>
      rw [hchange] at htracker
      refine ⟨?_, ?_, nofun⟩
      · rw [Option.toList_some, outageTally_concat]
        exact h.notice.recordLost (h.fresh slot rep hflight hchange)
      · rw [Option.toList_some, outageTally_concat]
        exact htracker
  | restored =>
      rw [hchange] at htracker
      refine ⟨?_, ?_, nofun⟩
      · rw [Option.toList_some, outageTally_concat]
        exact h.notice.recordRestored slot _
      · rw [Option.toList_some, outageTally_concat]
        exact htracker

/-- The step lemma. -/
lemma OutageInStep.act (h : OutageInStep s log) (a : OutageAction)
    (hovertaken : (s.act a).2 ≠ some (.reset true)) :
    OutageInStep (s.act a).1 (log ++ (s.act a).2.toList) := by
  cases a with
  | book slot nowMs ok netUp same =>
      simp only [OutageSystem.act] at hovertaken ⊢
      cases hflight : s.inFlight with
      | some p => simpa using h
      | none =>
          have htracker := h.tracker
          rw [OutageSystem.lostReported, hflight] at htracker
          dsimp only at htracker
          simp only [Option.isSome_none, Bool.false_eq_true, if_false]
          cases same with
          | false =>
              simp only [Bool.false_eq_true, if_false, Option.toList_none, List.append_nil]
              refine ⟨h.notice, htracker, fun i rep hp hlost => ?_⟩
              obtain ⟨rfl, rfl⟩ := Prod.mk.inj (Option.some.inj hp)
              cases hlost
          | true =>
              simp only [if_true, Option.toList_none, List.append_nil]
              obtain ⟨hlost, hfresh⟩ := trackOutage_spec s.tracker slot nowMs ok netUp
              refine ⟨h.notice, ?_, fun i rep hp hchange => ?_⟩
              · rw [← htracker]
                exact hlost
              · obtain ⟨rfl, rfl⟩ := Prod.mk.inj (Option.some.inj hp)
                rw [← htracker]
                exact hfresh hchange
  | report =>
      simp only [OutageSystem.act]
      cases hflight : s.inFlight with
      | none => simpa using h
      | some p => exact h.report hflight
  | install sensorsChanged =>
      cases sensorsChanged with
      | false => simpa [OutageSystem.act] using h
      | true =>
          have hquiet : s.reportsLost = false := by
            refine Bool.eq_false_of_not_eq_true fun hlost => hovertaken ?_
            simp [OutageSystem.act, hlost]
          simp only [OutageSystem.act, if_true, hquiet, Option.toList_some]
          exact h.resetSlots hquiet
  | setTiming lostMs restoreMs =>
      have hquiet : s.reportsLost = false := by
        refine Bool.eq_false_of_not_eq_true fun hlost => hovertaken ?_
        simp [OutageSystem.act, hlost]
      simp only [OutageSystem.act, hquiet, Option.toList_some]
      have htimed : OutageInStep { s with tracker := s.tracker.setTiming lostMs restoreMs } log :=
        ⟨h.notice, h.tracker, h.fresh⟩
      exact htimed.resetSlots hquiet
  | acknowledge =>
      refine ⟨?_, ?_, ?_⟩
      · rw [OutageSystem.act, Option.toList_some, outageTally_concat]
        exact h.notice.clear
      · rw [OutageSystem.act, Option.toList_some, outageTally_concat]
        exact h.tracker
      · rw [OutageSystem.act, Option.toList_some, outageTally_concat]
        exact h.fresh

end Steps

lemma outageRun_concat (actions : List OutageAction) (a : OutageAction) :
    outageRun (actions ++ [a]) = (((outageRun actions).1.act a).1,
      (outageRun actions).2 ++ ((outageRun actions).1.act a).2.toList) := by
  rw [outageRun, List.foldl_append]
  rfl

/-- The run lemma. -/
lemma outageInStep_run (actions : List OutageAction) :
    .reset true ∉ (outageRun actions).2 →
      OutageInStep (outageRun actions).1 (outageRun actions).2 := by
  induction actions using List.reverseRecOn with
  | nil =>
      intro _
      exact ⟨⟨by decide, by decide, by decide, by decide⟩, rfl, nofun⟩
  | append_singleton actions a ih =>
      rw [outageRun_concat]
      intro hovertaken
      refine (ih fun h => hovertaken (List.mem_append_left _ h)).act a fun he => hovertaken ?_
      rw [he]
      exact List.mem_append_right _ (List.mem_singleton_self _)

/-- **The notice agrees with the tracker**: in every interleaving of polls, reports,
settings changes and acknowledgements in which no reset overtakes the report of a
lost slot, with no report to come the mask has the slots the tracker holds as lost
and the notice is ongoing only while there is one, and at any time an
unacknowledged notice counts the outages since the last acknowledgement or the last
reset that met one, up to the maximum. -/
theorem notice_agrees {actions : List OutageAction}
    (hovertaken : .reset true ∉ (outageRun actions).2) :
    NoticeAgrees false (outageRun actions).1 (outageRun actions).2 := by
  have h := outageInStep_run actions hovertaken
  have htracker : (outageRun actions).1.Quiet →
      (outageTally false (outageRun actions).2).lost = (outageRun actions).1.tracker.lost := by
    intro hquiet
    rw [h.tracker, OutageSystem.lostReported]
    cases hflight : (outageRun actions).1.inFlight with
    | none => rfl
    | some p =>
        dsimp only
        rw [hquiet p hflight]
        rfl
  refine ⟨fun hquiet slot => ?_, htracker, fun hquiet hongoing => ?_, h.notice.count⟩
  · rw [h.notice.mask, maskOf_and, htracker hquiet]
  · rw [h.notice.ongoing, Bool.and_eq_true, htracker hquiet] at hongoing
    exact of_decide_eq_true hongoing.2

/-- Supply and return are lost and one of them is acknowledged. -/
theorem notice_agrees_acknowledgedOutage :
    let actions : List OutageAction :=
      [.setTiming 0 0, .book ⟨0, by decide⟩ 0 false true true, .report, .acknowledge,
        .book ⟨1, by decide⟩ 5 false true true, .report]
    NoticeAgrees false (outageRun actions).1 (outageRun actions).2 := notice_agrees (by decide)

/-- After a finished outage the settings are changed, and a second outage follows: the
notice counts both. -/
theorem finished_outage_stays_counted :
    let actions : List OutageAction :=
      [.book ⟨0, by decide⟩ 0 false true true, .report,
        .book ⟨0, by decide⟩ 300000 false true true, .report,
        .book ⟨0, by decide⟩ 310000 true true true, .report,
        .book ⟨0, by decide⟩ 910000 true true true, .report, .install true,
        .book ⟨0, by decide⟩ 920000 false true true, .report,
        .book ⟨0, by decide⟩ 1220000 false true true, .report]
    ¬ NoticeAgrees true (outageRun actions).1 (outageRun actions).2 := by
  intro actions h
  have hcount := h.count (by decide)
  revert hcount
  decide

end ArcticController

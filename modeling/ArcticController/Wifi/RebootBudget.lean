/-
Boot after boot of the safety net of `wifi_supervisor.cpp`.

* `ApiDevice`, `ApiDeviceStep`: a boot with the words it found, its checks and its end, by
  a reboot of the safety net, another restart, a crash or a loss of power;
* `BudgetTally`: the reboots in a row, the healthy running and the failing episode, from
  what the checks found;
* `BudgetInvariant`: the words count the reboots in a row, and an open episode is a failing
  one;
* `safety_net_bounded`: no more reboots in a row than allowed, each after a lasting episode.
-/
import ArcticController.Base.Runs
import ArcticController.Wifi.ApiWatch

namespace ArcticController

def checkIntervalMs : ℤ := 15000

/-! ### Boots -/

/-- The words, why the boot began, and the supervisor. It has started once it took its
decision on the words; `rebootAt` is a reboot it decided on. -/
structure ApiDevice where
  rtc : ApiRtc
  resetReason : EspResetReason
  started : Bool := false
  watch : ApiWatch := {}
  shutDown : Bool := false
  rebootAt : Option ℤ := none
  now : ℤ := 0
deriving DecidableEq, Repr

/-- A check found something, or the device is reset, by a reboot decided on or otherwise. -/
inductive SafetyEvent
  | checked (now : ℤ) (sight : ApiSight)
  | safetyReboot (time : ℤ)
  | otherReset
deriving DecidableEq, Repr

/-- The device as a boot finds it. -/
def ApiDevice.boot (rtc : ApiRtc) (resetReason : EspResetReason) : ApiDevice :=
  { rtc, resetReason }

/-- The device after a turn of the supervisor, which ends at `now`. -/
def ApiDevice.turn (s : ApiDevice) (t : ApiTurn) (now : ℤ) : ApiDevice :=
  { s with rtc := t.rtc, watch := t.watch, rebootAt := t.rebootAt, now }

/-- What happens in a boot, and how it ends. The words survive all but a loss of power. -/
inductive ApiDeviceStep : ApiDevice → Option SafetyEvent → ApiDevice → Prop
  | start {s} (hboot : s.started = false) :
      ApiDeviceStep s none { s with started := true, rtc := s.rtc.atBoot s.resetReason }
  -- The servers are shut down for an update, for the rest of the boot.
  | shutDown {s} : ApiDeviceStep s none { s with shutDown := true }
  | check {s} (c : ApiCheck) (hstarted : s.started = true) (hstays : s.rebootAt = none)
      (hdelay : checkIntervalMs * 1000 ≤ c.now) (hnow : s.now ≤ c.now) (hlater : c.now ≤ c.later) :
      ApiDeviceStep s (if s.shutDown then none else some (.checked c.now (s.watch.sight c)))
        (s.turn (superviseApiServer { rtc := s.rtc, watch := s.watch } s.shutDown c) c.later)
  | safetyReboot {s} (time : ℤ) (hreboot : s.rebootAt = some time) :
      ApiDeviceStep s (some (.safetyReboot time)) (.boot s.rtc .sw)
  | restart {s} : ApiDeviceStep s (some .otherReset) (.boot s.rtc .sw)
  | crash {s} (reason : EspResetReason) (hreason : reason ≠ .sw) :
      ApiDeviceStep s (some .otherReset) (.boot s.rtc reason)
  | powerLoss {s} (rtc : ApiRtc) (reason : EspResetReason) (hreason : reason ≠ .sw) :
      ApiDeviceStep s (some .otherReset) (.boot rtc reason)

/-! ### What the checks found -/

/-- The reboots in a row, since when the servers run well, and since when they fail. -/
structure BudgetTally where
  inARow : ℕ := 0
  healthySince : Option ℤ := none
  failingSince : Option ℤ := none
deriving DecidableEq, Repr

/-- A boot for another reason and healthy running that lasts end a row; a check that finds
otherwise ends healthy running, or an episode. -/
def BudgetTally.next (b : BudgetTally) : SafetyEvent → BudgetTally
  | .checked now .healthy =>
      let since := b.healthySince.getD now
      { inARow := if (now - since).tdiv 1000 ≥ apiHealthyResetMs then 0 else b.inARow
        healthySince := some since
        failingSince := none }
  | .checked _ .restarted => { b with healthySince := none, failingSince := none }
  | .checked now .failing =>
      { b with healthySince := none, failingSince := some (b.failingSince.getD now) }
  | .safetyReboot _ => { inARow := b.inARow + 1 }
  | .otherReset => {}

def budgetTally (log : List SafetyEvent) : BudgetTally := log.foldl BudgetTally.next {}

lemma budgetTally_concat (log : List SafetyEvent) (e : SafetyEvent) :
    budgetTally (log ++ [e]) = (budgetTally log).next e := by
  rw [budgetTally, List.foldl_append]
  rfl

/-! ### The invariant -/

/-- What a boot finds: the words count the reboots in a row if they will be believed. -/
structure BootCounts (rtc : ApiRtc) (reason : EspResetReason) (b : BudgetTally) : Prop where
  bound : b.inARow ≤ apiMaxReboots.toNat
  believed : b.inARow = 0 ∨ (rtc.magic = apiRebootMagic ∧ rtc.ours = apiRebootMagic ∧ reason = .sw ∧
    b.inARow ≤ rtc.count.toNat)

/-- In a running boot the words count the reboots in a row, and the supervisor's times are
those of what its checks found. -/
structure BudgetInvariant (s : ApiDevice) (b : BudgetTally) : Prop where
  bound : b.inARow ≤ apiMaxReboots.toNat
  boot : s.started = false → BootCounts s.rtc s.resetReason b ∧ s.watch = {} ∧ s.rebootAt = none
  magic : s.started = true → s.rtc.magic = apiRebootMagic
  counts : s.started = true → s.rebootAt = none → b.inARow ≤ s.rtc.count.toNat
  decided : ∀ time, s.rebootAt = some time → s.rtc.ours = apiRebootMagic ∧
    b.inARow + 1 ≤ s.rtc.count.toNat ∧ s.rtc.count ≤ apiMaxReboots ∧
    ∃ since, b.failingSince = some since ∧ apiDownRebootMs * 1000 ≤ time - since
  healthy : b.healthySince =
    if s.watch.healthySinceUs = 0 then none else some s.watch.healthySinceUs
  past : ∀ since, b.failingSince = some since → since ≤ s.now
  failing : s.watch.downSinceUs ≠ 0 → s.watch.downSinceUs ≤ s.now ∧
    ∃ since, b.failingSince = some since ∧ since ≤ s.watch.downSinceUs

namespace BudgetInvariant

lemma ofBoot {rtc : ApiRtc} {reason : EspResetReason} {b : BudgetTally}
    (h : BootCounts rtc reason b) (hhealthy : b.healthySince = none)
    (hfailing : b.failingSince = none) :
    BudgetInvariant (.boot rtc reason) b where
  bound := h.bound
  boot := fun _ => ⟨h, rfl, rfl⟩
  magic := nofun
  counts := nofun
  decided := nofun
  healthy := hhealthy
  past := fun since hsince => by
    rw [hfailing] at hsince
    cases hsince
  failing := fun h => absurd rfl h

/-- A boot for another reason finds no row. -/
lemma otherReset (rtc : ApiRtc) (reason : EspResetReason) : BudgetInvariant (.boot rtc reason) {} :=
  ofBoot ⟨Nat.zero_le _, .inl rfl⟩ rfl rfl

variable {s : ApiDevice} {b : BudgetTally}

/-- The decision of the boot keeps a count that is believed. -/
lemma start (h : BudgetInvariant s b) (hboot : s.started = false) :
    BudgetInvariant { s with started := true, rtc := s.rtc.atBoot s.resetReason } b := by
  obtain ⟨hcounts, hwatch, hreboot⟩ := h.boot hboot
  refine ⟨h.bound, nofun, fun _ => ?_, fun _ _ => ?_, fun time htime => ?_, h.healthy, h.past,
    h.failing⟩
  · simp only [ApiRtc.atBoot]
    split
    · rfl
    · rename_i hbelieved
      exact not_not.mp (not_or.mp hbelieved).1
  · rcases hcounts.believed with hzero | ⟨hmagic, hours, hreason, hcount⟩
    · rw [hzero]
      exact Nat.zero_le _
    · rw [ApiRtc.atBoot]
      simpa [hmagic, hours, hreason] using hcount
  · rw [hreboot] at htime
    cases htime

/-- The reboot that was decided on is one more in the row. -/
lemma safetyReboot (h : BudgetInvariant s b) {time : ℤ} (hreboot : s.rebootAt = some time) :
    BudgetInvariant (.boot s.rtc .sw) (b.next (.safetyReboot time)) := by
  obtain ⟨hours, hcount, hmax, -⟩ := h.decided time hreboot
  have hstarted : s.started = true := by
    by_contra hnot
    have := (h.boot (Bool.eq_false_iff.mpr hnot)).2.2
    rw [hreboot] at this
    cases this
  have hbound : b.inARow + 1 ≤ apiMaxReboots.toNat := hcount.trans (UInt32.le_iff_toNat_le.mp hmax)
  exact ofBoot ⟨hbound, .inr ⟨h.magic hstarted, hours, rfl, hcount⟩⟩ rfl rfl

/-- A check that finds nothing wrong: the budget is whole again once that has lasted. -/
lemma check_healthy (h : BudgetInvariant s b) (hstarted : s.started = true)
    (hstays : s.rebootAt = none) {c : ApiCheck} (hpos : 0 < c.now)
    (hsight : s.watch.sight c = .healthy) :
    BudgetInvariant (s.turn (superviseApiServer { rtc := s.rtc, watch := s.watch } false c) c.later)
      (b.next (.checked c.now .healthy)) := by
  obtain ⟨hrtc, hreboot, hdown, hsince⟩ :=
    superviseApiServer_healthy (t := { rtc := s.rtc, watch := s.watch }) hsight
  have hcount := h.counts hstarted hstays
  -- The supervisor's time is the one of the tally, from this check on if there was none.
  have htally : b.healthySince.getD c.now
      = if s.watch.healthySinceUs = 0 then c.now else s.watch.healthySinceUs := by
    rw [h.healthy]
    split <;> rfl
  have hne : (if s.watch.healthySinceUs = 0 then c.now else s.watch.healthySinceUs) ≠ 0 := by
    split <;> omega
  simp only [BudgetTally.next, htally]
  dsimp only at hrtc hsince
  generalize (if s.watch.healthySinceUs = 0 then c.now else s.watch.healthySinceUs) = since at *
  refine ⟨?_, fun hboot => ?_, fun _ => ?_, fun _ _ => ?_, fun time htime => ?_, ?_, nofun,
    fun hopen => absurd hdown hopen⟩
  · dsimp only
    split
    · exact Nat.zero_le _
    · exact h.bound
  · rw [ApiDevice.turn, hstarted] at hboot
    cases hboot
  · simp only [ApiDevice.turn, hrtc]
    split
    · exact h.magic hstarted
    · exact h.magic hstarted
  · simp only [ApiDevice.turn, hrtc]
    by_cases hlasts : (c.now - since).tdiv 1000 ≥ apiHealthyResetMs
    · rw [if_pos hlasts]
      exact Nat.zero_le _
    · rw [if_neg hlasts, if_neg fun hall => hlasts hall.2]
      exact hcount
  · rw [ApiDevice.turn, hreboot] at htime
    cases htime
  · rw [ApiDevice.turn, hsince, if_neg hne]

/-- A check that restarts the server. -/
lemma check_restarted (h : BudgetInvariant s b) (hstarted : s.started = true)
    (hstays : s.rebootAt = none) {c : ApiCheck} (hsight : s.watch.sight c = .restarted) :
    BudgetInvariant (s.turn (superviseApiServer { rtc := s.rtc, watch := s.watch } false c) c.later)
      (b.next (.checked c.now .restarted)) := by
  obtain ⟨hrtc, hreboot, hdown, hsince⟩ :=
    superviseApiServer_restarted (t := { rtc := s.rtc, watch := s.watch }) hsight
  refine ⟨h.bound, fun hboot => ?_, fun _ => ?_, fun _ _ => ?_, fun time htime => ?_, ?_, nofun,
    fun hopen => absurd hdown hopen⟩
  · rw [ApiDevice.turn, hstarted] at hboot
    cases hboot
  · rw [ApiDevice.turn, hrtc]
    exact h.magic hstarted
  · rw [ApiDevice.turn, hrtc]
    exact h.counts hstarted hstays
  · rw [ApiDevice.turn, hreboot] at htime
    cases htime
  · rw [ApiDevice.turn, hsince]
    rfl

/-- A check that finds the server down or mute: the words count the reboot that it may
decide on, in an episode that has lasted. -/
lemma check_failing (h : BudgetInvariant s b) (hstarted : s.started = true)
    (hstays : s.rebootAt = none) {c : ApiCheck} (hpos : 0 < c.now) (hnow : s.now ≤ c.now)
    (hlater : c.now ≤ c.later) (hsight : s.watch.sight c = .failing) :
    BudgetInvariant (s.turn (superviseApiServer { rtc := s.rtc, watch := s.watch } false c) c.later)
      (b.next (.checked c.now .failing)) := by
  obtain ⟨hsince, hepisode⟩ :=
    superviseApiServer_failing (t := { rtc := s.rtc, watch := s.watch }) (h.magic hstarted) hsight
  have hcount := h.counts hstarted hstays
  have hmagic := h.magic hstarted
  have hbegan : b.failingSince.getD c.now ≤ c.now := by
    cases hfailing : b.failingSince with
    | none => exact le_rfl
    | some since => exact (h.past since hfailing).trans hnow
  -- An episode the supervisor has open began no earlier than the checks began to fail.
  have hfails : ApiTurn.failsSince { rtc := s.rtc, watch := s.watch } c ≠ 0 ∧
      ApiTurn.failsSince { rtc := s.rtc, watch := s.watch } c ≤ c.later ∧
      b.failingSince.getD c.now ≤ ApiTurn.failsSince { rtc := s.rtc, watch := s.watch } c := by
    rw [ApiTurn.failsSince]
    by_cases hclosed : s.watch.downSinceUs = 0
    · rw [if_pos hclosed]
      exact ⟨by omega, hlater, hbegan⟩
    · rw [if_neg hclosed]
      obtain ⟨hle, since, hfailing, hsince⟩ := h.failing hclosed
      rw [hfailing]
      exact ⟨hclosed, hle.trans (hnow.trans hlater), hsince⟩
  refine ⟨h.bound, fun hboot => ?_, fun _ => ?_, fun _ hnone => ?_, fun time htime => ?_, ?_,
    fun since hsince => ?_, fun hne => ?_⟩
  · rw [ApiDevice.turn, hstarted] at hboot
    cases hboot
  · rcases hepisode with ⟨-, hrtc, -⟩ | ⟨-, ⟨hrtc, -⟩ | ⟨-, -, hrtc, -⟩⟩ <;> rw [ApiDevice.turn, hrtc] <;>
      exact hmagic
  · rcases hepisode with ⟨-, hrtc, -⟩ | ⟨-, ⟨hrtc, -⟩ | ⟨-, -, -, hreboot⟩⟩
    · rw [ApiDevice.turn, hrtc]
      exact hcount
    · rw [ApiDevice.turn, hrtc]
      exact hcount
    · rw [ApiDevice.turn, hreboot] at hnone
      cases hnone
  · rcases hepisode with ⟨-, -, hreboot⟩ | ⟨hdown, ⟨-, hreboot⟩ | ⟨hlong, hbudget, hrtc, hreboot⟩⟩
    · rw [ApiDevice.turn, hreboot] at htime
      cases htime
    · rw [ApiDevice.turn, hreboot] at htime
      cases htime
    · rw [ApiDevice.turn, hreboot] at htime
      cases htime
      have hroom : s.rtc.count.toNat < 2 := UInt32.lt_iff_toNat_lt.mp hbudget
      have hone : (s.rtc.count + 1).toNat = s.rtc.count.toNat + 1 := by
        rw [UInt32.toNat_add, UInt32.toNat_one, Nat.mod_eq_of_lt (by omega)]
      rw [hdown] at hlong
      have helapsed := elapsedMs_le hfails.2.1
      rw [ApiDevice.turn, hrtc]
      refine ⟨rfl, ?_, UInt32.le_iff_toNat_le.mpr ?_, _, rfl, ?_⟩
      · rw [hone]
        exact Nat.succ_le_succ hcount
      · rw [hone]
        exact hroom
      · omega
  · rw [ApiDevice.turn, hsince]
    rfl
  · cases hsince
    exact hbegan.trans hlater
  · rcases hepisode with ⟨hsame, -, -⟩ | ⟨hdown, -⟩
    · simp only [ApiDevice.turn, hsame] at hne ⊢
      obtain ⟨hle, since, hfailing, hsince⟩ := h.failing hne
      refine ⟨hle.trans (hnow.trans hlater), since, ?_, hsince⟩
      simp [BudgetTally.next, hfailing]
    · simp only [ApiDevice.turn, hdown]
      exact ⟨hfails.2.1, _, rfl, hfails.2.2⟩

/-- Every step keeps the invariant. -/
lemma step {s s' : ApiDevice} {e : Option SafetyEvent} {log : List SafetyEvent}
    (h : BudgetInvariant s (budgetTally log)) (hstep : ApiDeviceStep s e s') :
    BudgetInvariant s' (budgetTally (log ++ e.toList)) := by
  cases hstep with
  | start hboot =>
      rw [Option.toList_none, List.append_nil]
      exact h.start hboot
  | shutDown =>
      rw [Option.toList_none, List.append_nil]
      exact ⟨h.bound, h.boot, h.magic, h.counts, h.decided, h.healthy, h.past, h.failing⟩
  | check c hstarted hstays hdelay hnow hlater =>
      have hpos : 0 < c.now := lt_of_lt_of_le (by decide) hdelay
      by_cases hdown : s.shutDown = true
      · -- A shut down server is not checked.
        have hturn : superviseApiServer { rtc := s.rtc, watch := s.watch } s.shutDown c
            = { rtc := s.rtc, watch := s.watch } := by rw [superviseApiServer, if_pos hdown]
        rw [if_pos hdown, Option.toList_none, List.append_nil, hturn]
        refine ⟨h.bound, fun hboot => ?_, h.magic, fun _ _ => h.counts hstarted hstays, by rintro _ ⟨⟩,
          h.healthy, fun since hsince => ?_, fun hopen => ?_⟩
        · rw [ApiDevice.turn, hstarted] at hboot
          cases hboot
        · exact (h.past since hsince).trans (hnow.trans hlater)
        · exact ⟨(h.failing hopen).1.trans (hnow.trans hlater), (h.failing hopen).2⟩
      · have hup : s.shutDown = false := Bool.eq_false_iff.mpr hdown
        rw [if_neg hdown, Option.toList_some, budgetTally_concat]
        simp only [hup]
        cases hsight : s.watch.sight c with
        | healthy => exact h.check_healthy hstarted hstays hpos hsight
        | restarted => exact h.check_restarted hstarted hstays hsight
        | failing => exact h.check_failing hstarted hstays hpos hnow hlater hsight
  | safetyReboot time hreboot =>
      rw [Option.toList_some, budgetTally_concat]
      exact h.safetyReboot hreboot
  | restart =>
      rw [Option.toList_some, budgetTally_concat]
      exact otherReset _ _
  | crash reason hreason =>
      rw [Option.toList_some, budgetTally_concat]
      exact otherReset _ _
  | powerLoss rtc reason hreason =>
      rw [Option.toList_some, budgetTally_concat]
      exact otherReset _ _

/-- It holds in every boot. -/
lemma run {rtc : ApiRtc} {reason : EspResetReason} {s : ApiDevice} {log : List SafetyEvent}
    (hrun : Run ApiDeviceStep (.boot rtc reason) s log) : BudgetInvariant s (budgetTally log) :=
  hrun.invariant (I := fun s log => BudgetInvariant s (budgetTally log)) (otherReset rtc reason)
    fun _ _ _ _ _ h hstep => h.step hstep

end BudgetInvariant

/-- **The safety net cannot reboot forever**: over any boots there are never more of its
reboots in a row than allowed, and each comes after an unbroken episode that has lasted. -/
theorem safety_net_bounded {rtc : ApiRtc} {reason : EspResetReason} {s : ApiDevice}
    {log : List SafetyEvent} (hrun : Run ApiDeviceStep (.boot rtc reason) s log) :
    (budgetTally log).inARow ≤ apiMaxReboots.toNat ∧
      ∀ pre time post, log = pre ++ .safetyReboot time :: post →
        ∃ since, (budgetTally pre).failingSince = some since ∧
          apiDownRebootMs * 1000 ≤ time - since := by
  refine ⟨(BudgetInvariant.run hrun).bound, fun pre time post hsplit => ?_⟩
  obtain ⟨s₁, s₂, hpre, hstep, -⟩ := hrun.event pre _ post hsplit
  generalize he : some (SafetyEvent.safetyReboot time) = e at hstep
  cases hstep with
  | safetyReboot time' hreboot =>
      cases he
      exact ((BudgetInvariant.run hpre).decided time hreboot).2.2.2
  | check c hstarted hstays hdelay hnow hlater =>
      split at he <;> cases he
  | start hboot => cases he
  | shutDown => cases he
  | restart => cases he
  | crash reason hreason => cases he
  | powerLoss rtc reason hreason => cases he

/-- A server that stays down. -/
def apiStaysDown (now later : ℤ) : ApiCheck where
  now := now
  running := false
  answers := false
  healthy := false
  httpsActive := true
  ensured := false
  prior := .noMemory
  lastStartError := .noMemory
  later := later

/-- Two checks two minutes after power came back, and the reboot the second one decides on. -/
theorem safety_net_bounded_once :
    (budgetTally [.checked 120000000 .failing, .checked 195000000 .failing,
        .safetyReboot 215000000]).inARow ≤ apiMaxReboots.toNat ∧
      ∀ pre time post, [SafetyEvent.checked 120000000 .failing, .checked 195000000 .failing,
          .safetyReboot 215000000] = pre ++ .safetyReboot time :: post →
        ∃ since, (budgetTally pre).failingSince = some since ∧
          apiDownRebootMs * 1000 ≤ time - since := by
  have hboot := @Run.start _ _ ApiDeviceStep (.boot ⟨7, 7, 7⟩ .powerOn)
  have hstart := hboot.step (.start rfl)
  have hfirst := hstart.step (.check (apiStaysDown 120000000 140000000) rfl rfl (by decide)
    (by decide) (by decide))
  have hsecond := hfirst.step (.check (apiStaysDown 195000000 215000000) rfl (by decide) (by decide)
    (by decide) (by decide))
  have hreboot := hsecond.step (.safetyReboot 215000000 (by decide))
  exact safety_net_bounded hreboot

end ArcticController

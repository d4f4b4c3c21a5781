/-
The safety net of the web servers in `wifi_supervisor.cpp`, one check at a time.

* `ApiRtc`, `ApiWatch`: the words that survive resets, and what the supervisor knows of the
  servers; `ApiRtc.atBoot`: what a boot makes of the words;
* `elapsedMs`, `elapsedMs_le`: milliseconds in an `int`, which never shows more than there are;
* `superviseApiServer`: a check, from what it finds of the servers, with what it does;
* `ApiSight`: what a check finds; `superviseApiServer_healthy`, `superviseApiServer_restarted`,
  `superviseApiServer_failing`: what the check makes of it.
-/
import Mathlib.Tactic

namespace ArcticController

def apiBootGraceMs : ℤ := 120000
def apiDownRebootMs : ℤ := 90000
def apiHealthyResetMs : ℤ := 600000
def apiMaxReboots : UInt32 := 2
def apiRebootMagic : UInt32 := 0x41504952
def apiProbeEveryMs : ℤ := 60000
def apiProbeFailsToAct : ℕ := 3
def apiRepairEveryMs : ℤ := 60000

/-! ### State -/

/-- The causes of a reset (`esp_reset_reason_t`). -/
inductive EspResetReason
  | unknown
  | powerOn
  | ext
  | sw
  | panic
  | intWdt
  | taskWdt
  | wdt
  | deepSleep
  | brownout
  | sdio
  | usb
  | jtag
  | efuse
  | pwrGlitch
  | cpuLockup
deriving DecidableEq, Repr

/-- `s_api_reboot_magic`, `s_api_reboot_count` and `s_api_reboot_ours`. -/
structure ApiRtc where
  magic : UInt32
  count : UInt32
  ours : UInt32
deriving DecidableEq, Repr

/-- The count means something only if the reset was the supervisor's own. -/
def ApiRtc.atBoot (rtc : ApiRtc) (reason : EspResetReason) : ApiRtc :=
  let rtc :=
    if rtc.magic ≠ apiRebootMagic ∨ rtc.ours ≠ apiRebootMagic ∨ reason ≠ .sw then
      { rtc with magic := apiRebootMagic, count := 0 }
    else rtc
  { rtc with ours := 0 }

/-- Times are in microseconds since the boot; 0 is none. -/
structure ApiWatch where
  downSinceUs : ℤ := 0
  healthySinceUs : ℤ := 0
  lastProbeUs : ℤ := 0
  lastRepairUs : ℤ := 0
  everHealthy : Bool := false
  downLogged : Bool := false
  budgetNoteLogged : Bool := false
  degradedLogged : Bool := false
  attempts : ℕ := 0
  probeFailures : ℕ := 0
deriving DecidableEq, Repr

/-- Why the last start of a server failed (`api_start_error_t`). -/
inductive ApiStartError
  | none
  | noMemory
  | noIdentity
  | failed
  | injected
  | badCert
  | unresponsive
deriving DecidableEq, Repr

/-- The payload of `EVENT_WEB_SERVER_DOWN`. -/
inductive WebServerCause
  | unknown
  | noMemory
  | noIdentity
  | startFailed
  | test
  | badCert
  | unresponsive
deriving DecidableEq, Repr

def apiServerStartErrorEventCause : ApiStartError → WebServerCause
  | .noMemory => .noMemory
  | .noIdentity => .noIdentity
  | .failed => .startFailed
  | .injected => .test
  | .badCert => .badCert
  | .unresponsive => .unresponsive
  | .none => .unknown

/-- What a check does besides its own bookkeeping. -/
inductive ApiEffect
  | recordDown (cause : WebServerCause)
  | recordRestarted
  | recordReboot
  | flushLog
  | ensureRunning
  | restart (disableHttps : Bool)
deriving DecidableEq, Repr

/-- A check under way; `rebootAt` is the time at which it decided to reboot. -/
structure ApiTurn where
  rtc : ApiRtc
  watch : ApiWatch
  effects : List ApiEffect := []
  rebootAt : Option ℤ := none
deriving DecidableEq, Repr

/-- What a check may find: the servers running, answering and all healthy, over HTTPS or
not, the result of a restart and the start errors before and after it, with the times read
at its beginning and before a reboot. -/
structure ApiCheck where
  now : ℤ
  running : Bool
  answers : Bool
  healthy : Bool
  httpsActive : Bool
  ensured : Bool
  prior : ApiStartError
  lastStartError : ApiStartError
  later : ℤ
deriving DecidableEq, Repr

/-! ### Milliseconds -/

/-- `(int)((now - since) / 1000)`. -/
def elapsedMs (now since : ℤ) : ℤ := ((now - since).tdiv 1000).bmod (2 ^ 32)

/-- An `int` that wraps shows less than the time there is. -/
lemma elapsedMs_le {now since : ℤ} (h : since ≤ now) :
    elapsedMs now since * 1000 ≤ now - since := by
  have hdiv : (now - since).tdiv 1000 = (now - since) / 1000 :=
    Int.tdiv_eq_ediv_of_nonneg (by omega)
  have hwrap : elapsedMs now since ≤ (now - since).tdiv 1000 := by
    rw [elapsedMs, Int.bmod]
    split <;> omega
  rw [hdiv] at hwrap
  calc elapsedMs now since * 1000 ≤ (now - since) / 1000 * 1000 := by omega
    _ ≤ now - since := Int.ediv_mul_le _ (by omega)

/-! ### The steps of a check -/

def apiEpisodeBegin (w : ApiWatch) (now : ℤ) : ApiWatch :=
  if w.downSinceUs = 0 then
    { w with downSinceUs := now, downLogged := false, budgetNoteLogged := false, attempts := 0 }
  else w

namespace ApiTurn

def apiEpisodeEnd (t : ApiTurn) : ApiTurn :=
  { t with
    watch := { t.watch with downSinceUs := 0, probeFailures := 0 }
    effects := t.effects ++
      if t.watch.downSinceUs ≠ 0 ∧ t.watch.downLogged = true then [.recordRestarted] else [] }

def apiLogDown (t : ApiTurn) (cause : WebServerCause) : ApiTurn :=
  if t.watch.downLogged then t
  else
    { t with
      watch := { t.watch with downLogged := true }
      effects := t.effects ++ [.recordDown cause, .flushLog] }

/-- The last resort of an episode that has lasted, within the budget. -/
def apiMaybeReboot (t : ApiTurn) (now : ℤ) : ApiTurn :=
  if elapsedMs now t.watch.downSinceUs < apiDownRebootMs then t
  else
    let rtc :=
      if t.rtc.magic ≠ apiRebootMagic then { t.rtc with magic := apiRebootMagic, count := 0 }
      else t.rtc
    if rtc.count ≥ apiMaxReboots then
      { t with rtc, watch := { t.watch with budgetNoteLogged := true } }
    else
      { t with
        rtc := { rtc with count := rtc.count + 1, ours := apiRebootMagic }
        effects := t.effects ++ [.recordReboot, .flushLog]
        rebootAt := some now }

/-- The web UI server is not running. -/
def apiHandleDown (t : ApiTurn) (c : ApiCheck) : ApiTurn :=
  let w := apiEpisodeBegin t.watch c.now
  let t := { t with
    watch := { w with attempts := w.attempts + 1 }
    effects := t.effects ++ [ApiEffect.ensureRunning] }
  let t := t.apiLogDown
    (apiServerStartErrorEventCause (if c.ensured then c.prior else c.lastStartError))
  if c.ensured then
    apiEpisodeEnd { t with watch := { t.watch with everHealthy := true, lastProbeUs := 0 } }
  else t.apiMaybeReboot c.later

/-- It is running but not answering: a restart, and after that a fall back to HTTP. -/
def apiHandleUnresponsive (t : ApiTurn) (c : ApiCheck) : ApiTurn :=
  let t := apiLogDown { t with watch := { t.watch with probeFailures := 0 } } .unresponsive
  let fallBack := t.watch.attempts > 0 && c.httpsActive
  let t := { t with
    watch := { t.watch with attempts := t.watch.attempts + 1 }
    effects := t.effects ++ [ApiEffect.restart fallBack] }
  t.apiMaybeReboot c.later

/-- The web UI works; a missing secondary server is retried now and then. -/
def apiRepairSecondary (t : ApiTurn) (c : ApiCheck) : ApiTurn :=
  if c.healthy then { t with watch := { t.watch with degradedLogged := false } }
  else if t.watch.lastRepairUs ≠ 0 ∧
      (c.now - t.watch.lastRepairUs).tdiv 1000 < apiRepairEveryMs then t
  else
    { t with
      watch := { t.watch with lastRepairUs := c.now, degradedLogged := true }
      effects := t.effects ++ [.ensureRunning] }

end ApiTurn

/-- A probe is due every minute, and at every check while a failure is unresolved. -/
def ApiWatch.probeDue (w : ApiWatch) (now : ℤ) : Bool :=
  decide (w.probeFailures > 0 ∨ w.downSinceUs ≠ 0 ∨ w.lastProbeUs = 0 ∨
    (now - w.lastProbeUs).tdiv 1000 ≥ apiProbeEveryMs)

/-- A probe that failed. -/
def ApiTurn.probeFailed (t : ApiTurn) (c : ApiCheck) : ApiTurn :=
  let w := { t.watch with
    lastProbeUs := c.now
    healthySinceUs := 0
    probeFailures := t.watch.probeFailures + 1 }
  let t := { t with watch := apiEpisodeBegin w c.now }
  if t.watch.probeFailures ≥ apiProbeFailsToAct then t.apiHandleUnresponsive c
  else if t.watch.downLogged then t.apiMaybeReboot c.later
  else t

/-- The end of a check that found nothing wrong. -/
def ApiTurn.servesWell (t : ApiTurn) (c : ApiCheck) : ApiTurn :=
  let since := if t.watch.healthySinceUs = 0 then c.now else t.watch.healthySinceUs
  let t := { t with
    watch := { t.watch with everHealthy := true, healthySinceUs := since }
    rtc :=
      if t.rtc.count ≠ 0 ∧ (c.now - since).tdiv 1000 ≥ apiHealthyResetMs then
        { t.rtc with count := 0 }
      else t.rtc }
  t.apiRepairSecondary c

/-- One step of the safety net, taken while the link is up and has an address. -/
def superviseApiServer (t : ApiTurn) (shutDown : Bool) (c : ApiCheck) : ApiTurn :=
  if shutDown then t
  else if !c.running then
    let w := { t.watch with healthySinceUs := 0, probeFailures := 0 }
    let t := { t with watch := w }
    if !w.everHealthy ∧ c.now.tdiv 1000 < apiBootGraceMs then t else t.apiHandleDown c
  else if t.watch.probeDue c.now then
    if !c.answers then t.probeFailed c
    else
      let t := { t with watch := { t.watch with lastProbeUs := c.now, probeFailures := 0 } }
      t.apiEpisodeEnd.servesWell c
  else t.servesWell c

/-! ### What a check finds and makes of it -/

/-- What a check finds: a server that runs and, if asked, answers; one that is down and was
restarted; or one that is down, or does not answer. -/
inductive ApiSight
  | healthy
  | restarted
  | failing
deriving DecidableEq, Repr

def ApiWatch.sight (w : ApiWatch) (c : ApiCheck) : ApiSight :=
  if !c.running then
    if !w.everHealthy ∧ c.now.tdiv 1000 < apiBootGraceMs then .failing
    else if c.ensured then .restarted else .failing
  else if w.probeDue c.now ∧ !c.answers then .failing
  else .healthy

namespace ApiTurn

/-- What a failing check makes of the words: nothing, or one reboot more of the budget,
where the episode has lasted. -/
def Decides (t t' : ApiTurn) (later : ℤ) : Prop :=
  (t'.rtc = t.rtc ∧ t'.rebootAt = t.rebootAt) ∨
    (apiDownRebootMs ≤ elapsedMs later t'.watch.downSinceUs ∧ t.rtc.count < apiMaxReboots ∧
      t'.rtc = { t.rtc with count := t.rtc.count + 1, ours := apiRebootMagic } ∧
      t'.rebootAt = some later)

@[simp] lemma apiLogDown_rtc (t : ApiTurn) (cause : WebServerCause) :
    (t.apiLogDown cause).rtc = t.rtc := by
  rw [apiLogDown]
  split <;> rfl

@[simp] lemma apiLogDown_rebootAt (t : ApiTurn) (cause : WebServerCause) :
    (t.apiLogDown cause).rebootAt = t.rebootAt := by
  rw [apiLogDown]
  split <;> rfl

@[simp] lemma apiLogDown_downSinceUs (t : ApiTurn) (cause : WebServerCause) :
    (t.apiLogDown cause).watch.downSinceUs = t.watch.downSinceUs := by
  rw [apiLogDown]
  split <;> rfl

@[simp] lemma apiLogDown_healthySinceUs (t : ApiTurn) (cause : WebServerCause) :
    (t.apiLogDown cause).watch.healthySinceUs = t.watch.healthySinceUs := by
  rw [apiLogDown]
  split <;> rfl

@[simp] lemma apiEpisodeBegin_downSinceUs (w : ApiWatch) (now : ℤ) :
    (apiEpisodeBegin w now).downSinceUs = if w.downSinceUs = 0 then now else w.downSinceUs := by
  rw [apiEpisodeBegin]
  split <;> rfl

@[simp] lemma apiEpisodeBegin_healthySinceUs (w : ApiWatch) (now : ℤ) :
    (apiEpisodeBegin w now).healthySinceUs = w.healthySinceUs := by
  rw [apiEpisodeBegin]
  split <;> rfl

/-- A decision touches neither the episode nor the healthy time. -/
lemma apiMaybeReboot_spec (t : ApiTurn) (later : ℤ) (hmagic : t.rtc.magic = apiRebootMagic) :
    (t.apiMaybeReboot later).watch.downSinceUs = t.watch.downSinceUs ∧
      (t.apiMaybeReboot later).watch.healthySinceUs = t.watch.healthySinceUs ∧
      t.Decides (t.apiMaybeReboot later) later := by
  simp only [apiMaybeReboot, hmagic, ne_eq, not_true_eq_false, if_false]
  by_cases hlate : elapsedMs later t.watch.downSinceUs < apiDownRebootMs
  · rw [if_pos hlate]
    exact ⟨rfl, rfl, .inl ⟨rfl, rfl⟩⟩
  · rw [if_neg hlate]
    by_cases hbudget : t.rtc.count ≥ apiMaxReboots
    · rw [if_pos hbudget]
      exact ⟨rfl, rfl, .inl ⟨rfl, rfl⟩⟩
    · rw [if_neg hbudget]
      exact ⟨rfl, rfl, .inr ⟨not_lt.mp hlate, UInt32.not_le.mp hbudget, by rw [← hmagic], rfl⟩⟩

/-- Since when the server fails, if this check finds it failing. -/
def failsSince (t : ApiTurn) (c : ApiCheck) : ℤ :=
  if t.watch.downSinceUs = 0 then c.now else t.watch.downSinceUs

/-- What a failing check leaves: nothing new, or an episode in which a reboot may be decided
on. -/
structure Fails (t t' : ApiTurn) (c : ApiCheck) : Prop where
  healthySince : t'.watch.healthySinceUs = 0
  episode : (t'.watch.downSinceUs = t.watch.downSinceUs ∧ t'.rtc = t.rtc ∧
      t'.rebootAt = t.rebootAt) ∨
    (t'.watch.downSinceUs = t.failsSince c ∧ t.Decides t' c.later)

/-- A repair of a secondary server is nothing to the episodes and the words. -/
lemma apiRepairSecondary_kept (t : ApiTurn) (c : ApiCheck) :
    (t.apiRepairSecondary c).rtc = t.rtc ∧ (t.apiRepairSecondary c).rebootAt = t.rebootAt ∧
      (t.apiRepairSecondary c).watch.downSinceUs = t.watch.downSinceUs ∧
      (t.apiRepairSecondary c).watch.healthySinceUs = t.watch.healthySinceUs := by
  rw [apiRepairSecondary]
  split
  · exact ⟨rfl, rfl, rfl, rfl⟩
  · split <;> exact ⟨rfl, rfl, rfl, rfl⟩

variable {t t' : ApiTurn} {c : ApiCheck}

/-- A decision may follow. -/
lemma Fails.apiMaybeReboot (hrtc : t'.rtc = t.rtc) (hreboot : t'.rebootAt = t.rebootAt)
    (hhealthy : t'.watch.healthySinceUs = 0) (hdown : t'.watch.downSinceUs = t.failsSince c)
    (hmagic : t.rtc.magic = apiRebootMagic) : t.Fails (t'.apiMaybeReboot c.later) c := by
  obtain ⟨hdown', hhealthy', hdecides⟩ := apiMaybeReboot_spec t' c.later (hrtc ▸ hmagic)
  rw [Decides, hrtc, hreboot] at hdecides
  exact ⟨hhealthy' ▸ hhealthy, .inr ⟨hdown' ▸ hdown, hdecides⟩⟩

lemma Fails.apiHandleUnresponsive (hrtc : t'.rtc = t.rtc) (hreboot : t'.rebootAt = t.rebootAt)
    (hhealthy : t'.watch.healthySinceUs = 0) (hdown : t'.watch.downSinceUs = t.failsSince c)
    (hmagic : t.rtc.magic = apiRebootMagic) : t.Fails (t'.apiHandleUnresponsive c) c := by
  refine Fails.apiMaybeReboot ?_ ?_ ?_ ?_ hmagic
  · simpa using hrtc
  · simpa using hreboot
  · simpa using hhealthy
  · simpa using hdown

end ApiTurn

open ApiTurn

variable {t : ApiTurn} {c : ApiCheck}

/-- A check that finds the server down or mute. -/
lemma superviseApiServer_failing (hmagic : t.rtc.magic = apiRebootMagic)
    (hsight : t.watch.sight c = .failing) : t.Fails (superviseApiServer t false c) c := by
  rw [ApiWatch.sight] at hsight
  simp only [superviseApiServer, Bool.false_eq_true, if_false]
  by_cases hrunning : c.running = true
  · simp only [hrunning, Bool.not_true, Bool.false_eq_true, if_false] at hsight ⊢
    obtain ⟨hdue, hmute⟩ : t.watch.probeDue c.now = true ∧ (!c.answers) = true := by
      by_contra hnot
      rw [if_neg hnot] at hsight
      cases hsight
    rw [if_pos hdue, if_pos hmute, probeFailed]
    dsimp only
    split
    · exact Fails.apiHandleUnresponsive rfl rfl (by simp) (by simp [failsSince]) hmagic
    · split
      · exact Fails.apiMaybeReboot rfl rfl (by simp) (by simp [failsSince]) hmagic
      · exact ⟨by simp, .inr ⟨by simp [failsSince], .inl ⟨rfl, rfl⟩⟩⟩
  · simp only [hrunning, Bool.not_false, if_true] at hsight ⊢
    split
    · exact ⟨rfl, .inl ⟨rfl, rfl, rfl⟩⟩
    · rename_i hgrace
      rw [if_neg hgrace] at hsight
      have hensured : ¬ c.ensured = true := fun h => by
        rw [if_pos h] at hsight
        cases hsight
      simp only [apiHandleDown, hensured, Bool.false_eq_true, if_false]
      exact Fails.apiMaybeReboot (by simp) (by simp) (by simp) (by simp [failsSince]) hmagic

/-- A check that restarts the server. -/
lemma superviseApiServer_restarted (hsight : t.watch.sight c = .restarted) :
    (superviseApiServer t false c).rtc = t.rtc ∧
      (superviseApiServer t false c).rebootAt = t.rebootAt ∧
      (superviseApiServer t false c).watch.downSinceUs = 0 ∧
      (superviseApiServer t false c).watch.healthySinceUs = 0 := by
  rw [ApiWatch.sight] at hsight
  simp only [superviseApiServer, Bool.false_eq_true, if_false]
  by_cases hrunning : c.running = true
  · simp only [hrunning, Bool.not_true, Bool.false_eq_true, if_false] at hsight
    split at hsight <;> cases hsight
  · simp only [hrunning, Bool.not_false, if_true] at hsight ⊢
    split at hsight
    · cases hsight
    · rename_i hgrace
      have hensured : c.ensured = true := by
        by_contra h
        rw [if_neg h] at hsight
        cases hsight
      rw [if_neg hgrace]
      simp [apiHandleDown, hensured, apiEpisodeEnd]

/-- What a check that finds nothing wrong leaves. -/
structure ApiTurn.Serves (t t' : ApiTurn) (now since : ℤ) : Prop where
  rtc : t'.rtc =
    if t.rtc.count ≠ 0 ∧ (now - since).tdiv 1000 ≥ apiHealthyResetMs then
      { t.rtc with count := 0 }
    else t.rtc
  rebootAt : t'.rebootAt = t.rebootAt
  downSince : t'.watch.downSinceUs = 0
  healthySince : t'.watch.healthySinceUs = since

lemma ApiTurn.servesWell_serves (hdown : t.watch.downSinceUs = 0) :
    t.Serves (t.servesWell c) c.now
      (if t.watch.healthySinceUs = 0 then c.now else t.watch.healthySinceUs) := by
  rw [servesWell]
  obtain ⟨hrtc, hreboot, hdown', hhealthy⟩ := apiRepairSecondary_kept _ c
  exact ⟨hrtc, hreboot, hdown'.trans hdown, hhealthy⟩

/-- A check that finds nothing wrong. -/
lemma superviseApiServer_healthy (hsight : t.watch.sight c = .healthy) :
    t.Serves (superviseApiServer t false c) c.now
      (if t.watch.healthySinceUs = 0 then c.now else t.watch.healthySinceUs) := by
  rw [ApiWatch.sight] at hsight
  simp only [superviseApiServer, Bool.false_eq_true, if_false]
  by_cases hrunning : c.running = true
  · simp only [hrunning, Bool.not_true, Bool.false_eq_true, if_false] at hsight ⊢
    by_cases hdue : t.watch.probeDue c.now = true
    · have hanswers : ¬ (!c.answers) = true := fun h => by
        rw [if_pos ⟨hdue, h⟩] at hsight
        cases hsight
      rw [if_pos hdue, if_neg hanswers]
      exact ⟨(servesWell_serves rfl).rtc, (servesWell_serves rfl).rebootAt,
        (servesWell_serves rfl).downSince, (servesWell_serves rfl).healthySince⟩
    · -- No probe is due, so no episode is open.
      have hdown : t.watch.downSinceUs = 0 := by
        by_contra hopen
        exact hdue (decide_eq_true (.inr (.inl hopen)))
      rw [if_neg hdue]
      exact servesWell_serves hdown
  · simp only [hrunning, Bool.not_false, if_true] at hsight
    split at hsight
    · cases hsight
    · split at hsight <;> cases hsight

end ArcticController

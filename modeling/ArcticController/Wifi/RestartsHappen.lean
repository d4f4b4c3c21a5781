/-
A call that reports success happened, unless the task has taken flags without an IP
address.

* `sinceCall`: what has happened since a call began;
* `Happened`, `OneAtATime`, `ReportsHappened`: what a reported success says, and that
  nothing the task does overlaps;
* `Underway`, `Knows`, `ApiCallKept`: what the task and a call know of one another;
* `underway_taskStep`, `knows_taskStep`, `apiCallKept_taskStep`, `apiCallKept_callStep`:
  every step keeps it;
* `reports_happened`: so after any actions every report is true.
-/
import ArcticController.Base.Runs
import ArcticController.Wifi.ApiService

namespace ArcticController

/-! ### What is reported -/

/-- The events after a call began. -/
def sinceCall (id : ℕ) : List ApiEvent → List ApiEvent
  | [] => []
  | .called id' _ :: log => if id' = id then log else sinceCall id log
  | _ :: log => sinceCall id log

/-- The servers were stopped, or HTTPS was disabled. -/
def ApiReq.op : ApiReq → ServerOp
  | .restart => .stop
  | .disableHttps => .disableHttps

/-- What a request says has happened when it returns with success: for a restart a
stop, and before that what disables HTTPS if it was asked for, and then a start that
succeeded. -/
def Happened (req : ApiRequest) (since : List ApiEvent) : Prop :=
  match req with
  | .start => True
  | .ensureRunning => [.began .ensureRunning, .ended .ensureRunning true].Sublist since
  | .restart disableHttps _ =>
      [.began .stop, .ended .stop true, .began .ensureRunning,
        .ended .ensureRunning true].Sublist since ∧
      (disableHttps = true → [.began .disableHttps, .ended .disableHttps true,
        .began .ensureRunning, .ended .ensureRunning true].Sublist since)
  | .probe => [.began .probe, .ended .probe true].Sublist since

/-- What is in progress after an event, if it fits what was in progress before. -/
def inProgress (busy : Option ServerOp) : ApiEvent → Option (Option ServerOp)
  | .began op => if busy = none then some (some op) else none
  | .ended op _ => if busy = some op then some none else none
  | _ => some busy

/-- No start, stop or probe begins while another one is in progress. -/
def OneAtATime (log : List ApiEvent) : Prop := (log.foldlM inProgress none).isSome = true

/-- Every reported success happened after the call began, one thing at a time. -/
structure ReportsHappened (log : List ApiEvent) : Prop where
  happened : ∀ pre id req post, log = pre ++ .returned id req true :: post →
    Happened req (sinceCall id pre)
  oneAtATime : OneAtATime log

/-- No flags were taken in vain for the lack of an IP address. -/
def ApiEvent.Spared : ApiEvent → Prop
  | .turnedAway flags => flags = {}
  | _ => True

instance : DecidablePred ApiEvent.Spared
  | .turnedAway flags => inferInstanceAs (Decidable (flags = {}))
  | .called _ _ | .returned _ _ _ | .began _ | .ended _ _ => .isTrue trivial

def NoneTurnedAway (log : List ApiEvent) : Prop := ∀ e ∈ log, e.Spared

instance (log : List ApiEvent) : Decidable (NoneTurnedAway log) :=
  inferInstanceAs (Decidable (∀ e ∈ log, e.Spared))

/-! ### What the task knows -/

/-- The flags the task has taken and not yet acted on. -/
def ApiTask.pending : ApiTask → ApiFlags
  | .readIp _ flags | .readShutDown _ flags | .loadCause _ flags | .disableHttps _ flags _ => flags
  | .disablingHttps _ flags _ => { restart := flags.restart }
  | .stop _ => { restart := true }
  | _ => {}

/-- What the task has begun. -/
def ApiTask.busy : ApiTask → Option ServerOp
  | .disablingHttps _ _ _ => some .disableHttps
  | .stopping _ => some .stop
  | .startingServers _ => some .ensureRunning
  | .probing _ => some .probe
  | _ => none

/-- Where the task is with the generations of starts. -/
def ApiTask.serving : ApiTask → Serving
  | .loadDone gen | .exchangeFlags gen | .readIp gen _ | .readShutDown gen _ | .loadCause gen _
  | .disableHttps gen _ _ | .disablingHttps gen _ _ | .stop gen | .stopping gen
  | .ensureRunning gen | .startingServers gen => .working gen
  | .storeOk gen ok => .finished gen ok
  | .storeDone gen => .stored gen
  | _ => .away

/-- Where the task is with the generations of probes. -/
def ApiTask.servingProbe : ApiTask → Serving
  | .loadProbeDone gen | .probe gen | .probing gen => .working gen
  | .storeProbeOk gen ok => .finished gen ok
  | .storeProbeDone gen => .stored gen
  | _ => .away

/-- What a flag asks for is going to be done, is being done or is done, since a call
began. -/
def Underway (r : ApiReq) (task : ApiTask) (since : List ApiEvent) : Prop :=
  task.pending.has r = true ∨ (task.busy = some r.op ∧ [.began r.op].Sublist since) ∨
    [.began r.op, .ended r.op true].Sublist since

/-- A start has begun after everything the flags ask for. -/
def Started (flags : ApiFlags) (since : List ApiEvent) : Prop :=
  [.began .ensureRunning].Sublist since ∧ ∀ r, flags.has r = true →
    [.began r.op, .ended r.op true, .began .ensureRunning].Sublist since

/-- And it has succeeded. -/
def StartedWell (flags : ApiFlags) (since : List ApiEvent) : Prop :=
  [.began .ensureRunning, .ended .ensureRunning true].Sublist since ∧ ∀ r, flags.has r = true →
    [.began r.op, .ended r.op true, .began .ensureRunning, .ended .ensureRunning true].Sublist since

/-- The task has looked at neither the address nor the shutdown, or it has found no
reason not to act. -/
def ApiTask.checked : ApiTask → Option Bool
  | .readIp _ _ | .readShutDown _ _ => some false
  | .loadCause _ _ | .disableHttps _ _ _ | .disablingHttps _ _ _ | .stop _ | .stopping _
  | .ensureRunning _ => some true
  | _ => none

/-- What the task does for flags that were set before it looked at the requests. -/
structure Knows (flags : ApiFlags) (shutDown : Bool) (task : ApiTask) (since : List ApiEvent) :
    Prop where
  unchecked : task.checked = some false → ∀ r, flags.has r = true →
    Underway r task since ∨ shutDown = true
  checked : task.checked = some true → ∀ r, flags.has r = true → Underway r task since
  starting : task.busy = some .ensureRunning → Started flags since

/-- The flags of a call are set, or done or to be done for it. -/
def Held (flags : ApiFlags) (s : ApiService) (since : List ApiEvent) : Prop :=
  ∀ r, flags.has r = true → s.reqFlags.has r = true ∨ Underway r s.task since ∨ s.shutDown = true

/-- A call that waits for generation `asked` of a start. -/
structure AwaitsStart (flags : ApiFlags) (asked : ℕ) (s : ApiService) (since : List ApiEvent) :
    Prop where
  held : Held flags s since
  knows : ∀ gen, s.task.serving = .working gen → asked ≤ gen → Knows flags s.shutDown s.task since
  answered : s.api.Answered s.task.serving asked (StartedWell flags since)

/-- A call that waits for generation `asked` of a probe. -/
structure AwaitsProbe (asked : ℕ) (s : ApiService) (since : List ApiEvent) : Prop where
  probing : ∀ gen, s.task.servingProbe = .working gen → asked ≤ gen → s.task.busy = some .probe →
    [.began .probe].Sublist since
  answered : s.probe.Answered s.task.servingProbe asked
    ([.began .probe, .ended .probe true].Sublist since)

/-! ### Steps of the task -/

section TaskStep

variable {r : ApiReq} {flags : ApiFlags} {s : ApiService} {since : List ApiEvent} {ok : Bool}

lemma sublist_append_event {l : List ApiEvent} (h : l.Sublist since) (e : Option ApiEvent) :
    l.Sublist (since ++ e.toList) :=
  h.trans (List.sublist_append_left _ _)

lemma sublist_concat_event {l : List ApiEvent} (h : l.Sublist since) (e : ApiEvent) :
    (l ++ [e]).Sublist (since ++ (some e).toList) :=
  h.append_right _

lemma pending_afterDisable (gen : ℕ) (f : ApiFlags) :
    (afterDisable gen f).pending = { restart := f.restart } := by
  rw [afterDisable]
  cases f.restart <;> rfl

lemma pending_afterChecks (gen : ℕ) (f : ApiFlags) : (afterChecks gen f).pending = f := by
  obtain ⟨restart, disableHttps⟩ := f
  cases disableHttps with
  | true => rfl
  | false => exact pending_afterDisable gen _

/-- What is underway stays so, unless flags are turned away or the servers are shut
down. -/
lemma underway_taskStep (h : Underway r s.task since)
    (hip : ∀ gen f, s.task = .readIp gen f → f.has r = true → s.currentIp = true)
    (hshut : ∀ gen f, s.task = .readShutDown gen f → f.has r = true → s.shutDown = false) :
    Underway r (taskStep ok s).2.task (since ++ (taskStep ok s).1.toList) := by
  rcases h with hpending | ⟨hbusy, hbegan⟩ | hdone
  · cases htask : s.task with
    | readIp gen f =>
        rw [htask] at hpending
        simp only [taskStep, htask, hip gen f htask hpending, if_true]
        exact .inl hpending
    | readShutDown gen f =>
        rw [htask] at hpending
        simp only [taskStep, htask, hshut gen f htask hpending, Bool.false_eq_true, if_false]
        refine .inl ?_
        rw [pending_afterChecks]
        exact hpending
    | loadCause gen f =>
        rw [htask] at hpending
        simp only [taskStep, htask]
        exact .inl hpending
    | disableHttps gen f cause =>
        rw [htask] at hpending
        simp only [taskStep, htask]
        cases r with
        | restart => exact .inl hpending
        | disableHttps => exact .inr (.inl ⟨rfl, List.sublist_append_right _ _⟩)
    | disablingHttps gen f cause =>
        rw [htask] at hpending
        simp only [taskStep, htask]
        refine .inl ?_
        rw [pending_afterDisable]
        exact hpending
    | stop gen =>
        rw [htask] at hpending
        simp only [taskStep, htask]
        cases r with
        | restart => exact .inr (.inl ⟨rfl, List.sublist_append_right _ _⟩)
        | disableHttps => cases hpending
    | _ =>
        rw [htask] at hpending
        cases r <;> cases hpending
  · cases htask : s.task with
    | disablingHttps gen f cause =>
        rw [htask] at hbusy
        cases r with
        | restart => cases hbusy
        | disableHttps =>
            simp only [taskStep, htask]
            exact .inr (.inr (sublist_concat_event hbegan _))
    | stopping gen =>
        rw [htask] at hbusy
        cases r with
        | restart =>
            simp only [taskStep, htask]
            exact .inr (.inr (sublist_concat_event hbegan _))
        | disableHttps => cases hbusy
    | _ =>
        rw [htask] at hbusy
        cases r <;> cases hbusy
  · exact .inr (.inr (sublist_append_event hdone _))

lemma taskStep_kept (ok : Bool) (s : ApiService) :
    (taskStep ok s).2.shutDown = s.shutDown ∧ (taskStep ok s).2.calls = s.calls := by
  rw [taskStep]
  split <;> (try split) <;> exact ⟨rfl, rfl⟩

lemma taskStep_reqFlags (h : ∀ gen, s.task ≠ .exchangeFlags gen) :
    (taskStep ok s).2.reqFlags = s.reqFlags := by
  rw [taskStep]
  split
  case h_4 gen htask => exact absurd htask (h gen)
  all_goals (try split) <;> rfl

/-- The task finds an address whenever it has taken flags. -/
def FindsIp (s : ApiService) : Prop := ∀ gen f, s.task = .readIp gen f → f ≠ {} → s.currentIp = true

lemma FindsIp.has (h : FindsIp s) (gen : ℕ) (f : ApiFlags) (htask : s.task = .readIp gen f)
    (hr : f.has r = true) : s.currentIp = true := by
  refine h gen f htask ?_
  rintro rfl
  cases r <;> cases hr

/-- The flags of a call stay set until the task takes them, and are then underway. -/
lemma Held.taskStep (h : Held flags s since) (hip : FindsIp s) :
    Held flags (taskStep ok s).2 (since ++ (taskStep ok s).1.toList) := by
  intro r hr
  cases hdown : s.shutDown with
  | true => exact .inr (.inr ((taskStep_kept ok s).1.trans hdown))
  | false =>
      rcases h r hr with hset | hunder | hshut
      · by_cases hexchange : ∃ gen, s.task = .exchangeFlags gen
        · obtain ⟨gen, htask⟩ := hexchange
          simp only [ArcticController.taskStep, htask]
          exact .inr (.inl (.inl hset))
        · rw [taskStep_reqFlags (not_exists.mp hexchange)]
          exact .inl hset
      · exact .inr (.inl (underway_taskStep hunder hip.has fun _ _ _ _ => hdown))
      · rw [hdown] at hshut
        cases hshut

/-- Where the task has begun nothing, a flag that is underway is done. -/
lemma Underway.done {task : ApiTask} (h : Underway r task since) (hpending : task.pending = {})
    (hbusy : task.busy = none) : [.began r.op, .ended r.op true].Sublist since := by
  rcases h with hp | ⟨hb, -⟩ | hdone
  · rw [hpending] at hp
    cases r <;> cases hp
  · rw [hbusy] at hb
    cases hb
  · exact hdone

/-- What the task knows in its next place. -/
lemma AwaitsStart.knows_taskStep {asked : ℕ} (h : AwaitsStart flags asked s since) (hip : FindsIp s) :
    ∀ gen, (taskStep ok s).2.task.serving = .working gen → asked ≤ gen →
      Knows flags (taskStep ok s).2.shutDown (taskStep ok s).2.task
        (since ++ (taskStep ok s).1.toList) := by
  intro gen hgen hle
  have hheld := @Held.taskStep _ _ _ ok h.held hip
  have hstep : (∀ g f, s.task = .readShutDown g f → s.shutDown = false) → ∀ r, Underway r s.task since →
      Underway r (taskStep ok s).2.task (since ++ (taskStep ok s).1.toList) :=
    fun hshut r hunder => underway_taskStep hunder hip.has fun g f htask _ => hshut g f htask
  have hknows := h.knows gen
  cases htask : s.task with
  | notifyTake =>
      simp only [taskStep, htask] at hgen
      split at hgen
      · cases hgen
      · rw [htask] at hgen
        cases hgen
  | loadReq =>
      simp only [taskStep, htask]
      exact ⟨nofun, nofun, nofun⟩
  | loadDone g =>
      simp only [taskStep, htask] at hgen ⊢
      split
      · exact ⟨nofun, nofun, nofun⟩
      · next hsame =>
          rw [if_neg hsame] at hgen
          cases hgen
  | exchangeFlags g =>
      simp only [taskStep, htask] at hheld ⊢
      refine ⟨fun _ r hr => ?_, nofun, nofun⟩
      rcases hheld r hr with hset | hunder | hshut
      · cases r <;> cases hset
      · exact .inl hunder
      · exact .inr hshut
  | readIp g f =>
      have hlater := hstep fun g' f' htask' => by rw [htask] at htask'; cases htask'
      rw [htask] at hknows hlater
      simp only [taskStep, htask] at hgen hlater ⊢
      by_cases hpresent : s.currentIp = true
      · rw [if_pos hpresent] at hgen hlater ⊢
        refine ⟨fun _ r hr => ?_, nofun, nofun⟩
        exact ((hknows hgen hle).unchecked rfl r hr).imp (hlater r) id
      · rw [if_neg hpresent] at hgen
        cases hgen
  | readShutDown g f =>
      rw [htask] at hknows
      cases hdown : s.shutDown with
      | true =>
          simp only [taskStep, htask, hdown, if_true] at hgen
          cases hgen
      | false =>
          have hlater := hstep fun _ _ _ => hdown
          simp only [taskStep, htask, hdown, Bool.false_eq_true, if_false] at hgen hlater ⊢
          have hg : g = gen := by
            rw [afterChecks, afterDisable] at hgen
            split_ifs at hgen <;> exact Serving.working.inj hgen
          subst hg
          refine ⟨?_, fun _ r hr => ?_, ?_⟩
          · rw [afterChecks, afterDisable]
            split_ifs <;> nofun
          · rcases (hknows rfl hle).unchecked rfl r hr with hunder | hshut
            · exact hlater r hunder
            · rw [hdown] at hshut
              cases hshut
          · rw [afterChecks, afterDisable]
            split_ifs <;> nofun
  | disablingHttps g f cause =>
      have hlater := hstep fun g' f' htask' => by rw [htask] at htask'; cases htask'
      rw [htask] at hknows hlater
      simp only [taskStep, htask] at hgen hlater ⊢
      have hg : g = gen := by
        rw [afterDisable] at hgen
        split_ifs at hgen <;> exact Serving.working.inj hgen
      subst hg
      refine ⟨?_, fun _ r hr => hlater r ((hknows rfl hle).checked rfl r hr), ?_⟩
      · rw [afterDisable]
        split_ifs <;> nofun
      · rw [afterDisable]
        split_ifs <;> nofun
  | ensureRunning g =>
      rw [htask] at hknows
      simp only [taskStep, htask] at hgen ⊢
      refine ⟨nofun, nofun, fun _ => ⟨List.sublist_append_right _ _, fun r hr => ?_⟩⟩
      exact sublist_concat_event (((hknows hgen hle).checked rfl r hr).done rfl rfl) _
  | loadCause g f | disableHttps g f cause | stop g | stopping g =>
      have hlater := hstep fun g' f' htask' => by rw [htask] at htask'; cases htask'
      rw [htask] at hknows hlater
      simp only [taskStep, htask] at hgen hlater ⊢
      exact ⟨nofun, fun _ r hr => hlater r ((hknows hgen hle).checked rfl r hr), nofun⟩
  | _ =>
      simp only [taskStep, htask] at hgen
      first
        | cases hgen
        | (split at hgen <;> cases hgen)

lemma serving_afterChecks (gen : ℕ) (f : ApiFlags) :
    (afterChecks gen f).serving = .working gen ∧ (afterChecks gen f).servingProbe = .away ∧
      (afterDisable gen f).serving = .working gen ∧ (afterDisable gen f).servingProbe = .away := by
  rw [afterChecks, afterDisable]
  split_ifs <;> exact ⟨rfl, rfl, rfl, rfl⟩

/-- What a step of the task is to the generations of starts, and of probes. -/
lemma serverStep_taskStep (ok : Bool) (s : ApiService) :
    Generations.ServerStep s.api s.task.serving (taskStep ok s).2.api (taskStep ok s).2.task.serving ∧
      Generations.ServerStep s.probe s.task.servingProbe (taskStep ok s).2.probe
        (taskStep ok s).2.task.servingProbe := by
  cases htask : s.task with
  | notifyTake =>
      simp only [taskStep, htask]
      split
      · exact ⟨.stay _ _, .stay _ _⟩
      · rw [htask]
        exact ⟨.stay _ _, .stay _ _⟩
  | loadReq =>
      simp only [taskStep, htask]
      exact ⟨.load _, .stay _ _⟩
  | loadDone g =>
      simp only [taskStep, htask]
      split
      · exact ⟨.stay _ _, .stay _ _⟩
      · exact ⟨.leave _ _, .stay _ _⟩
  | readIp g f =>
      simp only [taskStep, htask]
      split
      · exact ⟨.stay _ _, .stay _ _⟩
      · exact ⟨.finish _ _ _, .stay _ _⟩
  | readShutDown g f =>
      obtain ⟨hserving, hprobe, -, -⟩ := serving_afterChecks g f
      simp only [taskStep, htask]
      split
      · exact ⟨.finish _ _ _, .stay _ _⟩
      · rw [hserving, hprobe]
        exact ⟨.stay _ _, .stay _ _⟩
  | disablingHttps g f cause =>
      obtain ⟨-, -, hserving, hprobe⟩ := serving_afterChecks g f
      simp only [taskStep, htask]
      rw [hserving, hprobe]
      exact ⟨.stay _ _, .stay _ _⟩
  | startingServers g =>
      simp only [taskStep, htask]
      exact ⟨.finish _ _ _, .stay _ _⟩
  | storeOk g ok' =>
      simp only [taskStep, htask]
      exact ⟨.storeOk _ _ _, .stay _ _⟩
  | storeDone g =>
      simp only [taskStep, htask]
      exact ⟨.storeDone _ _, .stay _ _⟩
  | loadProbeReq =>
      simp only [taskStep, htask]
      exact ⟨.stay _ _, .load _⟩
  | loadProbeDone g =>
      simp only [taskStep, htask]
      split
      · exact ⟨.stay _ _, .stay _ _⟩
      · exact ⟨.stay _ _, .leave _ _⟩
  | probing g =>
      simp only [taskStep, htask]
      exact ⟨.stay _ _, .finish _ _ _⟩
  | storeProbeOk g ok' =>
      simp only [taskStep, htask]
      exact ⟨.stay _ _, .storeOk _ _ _⟩
  | storeProbeDone g =>
      simp only [taskStep, htask]
      exact ⟨.stay _ _, .storeDone _ _⟩
  | _ =>
      simp only [taskStep, htask]
      exact ⟨.stay _ _, .stay _ _⟩

/-- A generation that ends well ends with a start that succeeded, or with a probe. -/
lemma taskStep_finished {g : ℕ} :
    (s.task.serving = .working g → (taskStep ok s).2.task.serving = .finished g true →
      s.task = .startingServers g ∧ (taskStep ok s).1 = some (.ended .ensureRunning true)) ∧
    (s.task.servingProbe = .working g → (taskStep ok s).2.task.servingProbe = .finished g true →
      s.task = .probing g ∧ (taskStep ok s).1 = some (.ended .probe true)) := by
  cases htask : s.task with
  | startingServers g' =>
      simp only [taskStep, htask]
      refine ⟨fun h h' => ?_, nofun⟩
      cases h
      cases h'
      exact ⟨rfl, rfl⟩
  | probing g' =>
      simp only [taskStep, htask]
      refine ⟨nofun, fun h h' => ?_⟩
      cases h
      cases h'
      exact ⟨rfl, rfl⟩
  | readShutDown g' f =>
      obtain ⟨hserving, -, -, -⟩ := serving_afterChecks g' f
      simp only [taskStep, htask]
      refine ⟨fun _ h' => ?_, nofun⟩
      split at h'
      · cases h'
      · rw [hserving] at h'
        cases h'
  | disablingHttps g' f cause =>
      obtain ⟨-, -, hserving, -⟩ := serving_afterChecks g' f
      simp only [taskStep, htask]
      refine ⟨fun _ h' => ?_, nofun⟩
      rw [hserving] at h'
      cases h'
  | loadDone g' | readIp g' f | loadProbeDone g' =>
      simp only [taskStep, htask]
      refine ⟨fun _ h' => ?_, fun _ h' => ?_⟩ <;> split at h' <;> cases h'
  | notifyTake | loadReq | loadProbeReq => exact ⟨nofun, nofun⟩
  | exchangeFlags g' | loadCause g' f | disableHttps g' f cause | stop g' | stopping g'
  | ensureRunning g' | storeOk g' ok' | storeDone g' | probe g' | storeProbeOk g' ok'
  | storeProbeDone g' =>
      simp only [taskStep, htask]
      exact ⟨nofun, nofun⟩

lemma AwaitsStart.taskStep {asked : ℕ} (h : AwaitsStart flags asked s since) (hip : FindsIp s)
    (hordered : s.api.Ordered s.task.serving) :
    AwaitsStart flags asked (taskStep ok s).2 (since ++ (taskStep ok s).1.toList) where
  held := h.held.taskStep hip
  knows := h.knows_taskStep hip
  answered := by
    refine (h.answered.mono fun hgoal => ?_).step hordered (serverStep_taskStep ok s).1
      fun g hworking hfinished hle => ?_
    · exact ⟨sublist_append_event hgoal.1 _, fun r hr => sublist_append_event (hgoal.2 r hr) _⟩
    · obtain ⟨htask, hevent⟩ := taskStep_finished.1 hworking hfinished
      have hstarted := (h.knows g hworking hle).starting (by rw [htask]; rfl)
      rw [hevent]
      exact ⟨sublist_concat_event hstarted.1 _, fun r hr => sublist_concat_event (hstarted.2 r hr) _⟩

lemma AwaitsProbe.taskStep {asked : ℕ} (h : AwaitsProbe asked s since)
    (hordered : s.probe.Ordered s.task.servingProbe) :
    AwaitsProbe asked (taskStep ok s).2 (since ++ (taskStep ok s).1.toList) where
  probing := by
    intro g hworking hle hbusy
    cases htask : s.task with
    | probe g' =>
        simp only [ArcticController.taskStep, htask]
        exact List.sublist_append_right _ _
    | notifyTake =>
        simp only [ArcticController.taskStep, htask] at hworking
        split at hworking
        · cases hworking
        · rw [htask] at hworking
          cases hworking
    | disablingHttps g' f cause =>
        obtain ⟨-, -, -, hserving⟩ := serving_afterChecks g' f
        simp only [ArcticController.taskStep, htask] at hworking
        rw [hserving] at hworking
        cases hworking
    | readShutDown g' f =>
        obtain ⟨-, hserving, -, -⟩ := serving_afterChecks g' f
        simp only [ArcticController.taskStep, htask] at hworking
        split at hworking
        · cases hworking
        · rw [hserving] at hworking
          cases hworking
    | _ =>
        simp only [ArcticController.taskStep, htask] at hworking hbusy
        first
          | cases hbusy
          | (split at hbusy <;> cases hbusy)
  answered := by
    refine (h.answered.mono fun hgoal => sublist_append_event hgoal _).step hordered
      (serverStep_taskStep ok s).2 fun g hworking hfinished hle => ?_
    obtain ⟨htask, hevent⟩ := taskStep_finished.2 hworking hfinished
    rw [hevent]
    exact sublist_concat_event (h.probing g hworking hle (by rw [htask]; rfl)) _

/-- Whatever the task begins fits what it has begun. -/
lemma busy_taskStep (ok : Bool) (s : ApiService) :
    (taskStep ok s).1.toList.foldlM inProgress s.task.busy = some (taskStep ok s).2.task.busy := by
  cases htask : s.task with
  | notifyTake =>
      simp only [taskStep, htask]
      split
      · rfl
      · rw [htask]
        rfl
  | disablingHttps g f cause =>
      simp only [taskStep, htask, afterDisable]
      split <;> rfl
  | readShutDown g f =>
      simp only [taskStep, htask, afterChecks, afterDisable]
      split_ifs <;> rfl
  | loadDone g | readIp g f | loadProbeDone g =>
      simp only [taskStep, htask]
      split <;> rfl
  | _ =>
      simp only [taskStep, htask]
      rfl

end TaskStep

/-! ### Steps around the task -/

/-- A step of which the task notices no more than that there are more requests, or that
the servers are shut down. -/
structure Around (s s' : ApiService) : Prop where
  task : s'.task = s.task
  flags : ∀ r, s.reqFlags.has r = true → s'.reqFlags.has r = true
  shutDown : s.shutDown = true → s'.shutDown = true
  api : s'.api = s.api ∨ s'.api = s.api.raise
  probe : s'.probe = s.probe ∨ s'.probe = s.probe.raise

section Around

variable {flags : ApiFlags} {s s' : ApiService} {since : List ApiEvent} {asked : ℕ}

lemma Around.refl (s : ApiService) : Around s s := ⟨rfl, fun _ => id, id, .inl rfl, .inl rfl⟩

lemma Around.ordered (h : Around s s') (hapi : s.api.Ordered s.task.serving)
    (hprobe : s.probe.Ordered s.task.servingProbe) :
    s'.api.Ordered s'.task.serving ∧ s'.probe.Ordered s'.task.servingProbe := by
  rw [h.task]
  refine ⟨?_, ?_⟩
  · rcases h.api with hsame | hraised
    · exact hsame ▸ hapi
    · exact hraised ▸ hapi.raise
  · rcases h.probe with hsame | hraised
    · exact hsame ▸ hprobe
    · exact hraised ▸ hprobe.raise

lemma Underway.around {r : ApiReq} {task : ApiTask} (h : Underway r task since) (e : Option ApiEvent) :
    Underway r task (since ++ e.toList) := by
  rcases h with hpending | ⟨hbusy, hbegan⟩ | hdone
  · exact .inl hpending
  · exact .inr (.inl ⟨hbusy, sublist_append_event hbegan e⟩)
  · exact .inr (.inr (sublist_append_event hdone e))

lemma Held.around (hheld : Held flags s since) (h : Around s s') (e : Option ApiEvent) :
    Held flags s' (since ++ e.toList) := by
  intro r hr
  rw [h.task]
  rcases hheld r hr with hset | hunder | hshut
  · exact .inl (h.flags r hset)
  · exact .inr (.inl (hunder.around e))
  · exact .inr (.inr (h.shutDown hshut))

lemma AwaitsStart.around (hawaits : AwaitsStart flags asked s since) (h : Around s s')
    (e : Option ApiEvent) : AwaitsStart flags asked s' (since ++ e.toList) where
  held := hawaits.held.around h e
  knows gen hworking hle := by
    rw [h.task] at hworking ⊢
    have hknows := hawaits.knows gen hworking hle
    refine ⟨fun hc r hr => ?_, fun hc r hr => (hknows.checked hc r hr).around e, fun hbusy => ?_⟩
    · exact (hknows.unchecked hc r hr).imp (fun hunder => hunder.around e) h.shutDown
    · have hstarted := hknows.starting hbusy
      exact ⟨sublist_append_event hstarted.1 e, fun r hr => sublist_append_event (hstarted.2 r hr) e⟩
  answered := by
    have hmono := hawaits.answered.mono fun hgoal =>
      (⟨sublist_append_event hgoal.1 e, fun r hr => sublist_append_event (hgoal.2 r hr) e⟩ :
        StartedWell flags (since ++ e.toList))
    rw [h.task]
    rcases h.api with hsame | hraised
    · exact hsame ▸ hmono
    · exact hraised ▸ hmono.raise

lemma AwaitsProbe.around (hawaits : AwaitsProbe asked s since) (h : Around s s')
    (e : Option ApiEvent) : AwaitsProbe asked s' (since ++ e.toList) where
  probing gen hworking hle hbusy := by
    rw [h.task] at hworking hbusy
    exact sublist_append_event (hawaits.probing gen hworking hle hbusy) e
  answered := by
    have hmono := hawaits.answered.mono fun hgoal => sublist_append_event hgoal e
    rw [h.task]
    rcases h.probe with hsame | hraised
    · exact hsame ▸ hmono
    · exact hraised ▸ hmono.raise

end Around

/-! ### Calls -/

/-- What a call that waits for generation `asked` knows. -/
def Awaits (req : ApiRequest) (asked : ℕ) (s : ApiService) (since : List ApiEvent) : Prop :=
  if req = .probe then AwaitsProbe asked s since else AwaitsStart req.flags asked s since

/-- What a call knows where it is. -/
def ApiCallKept (s : ApiService) (since : List ApiEvent) : ApiCall → Prop
  | .fetchAdd req => Held req.flags s since
  | .notifyGive req gen | .loadDone req gen => Awaits req gen s since
  | .loadResult req gen => Awaits req gen s since ∧ gen ≤ (s.generations req).done
  | _ => True

section Calls

variable {req : ApiRequest} {s s' : ApiService} {since : List ApiEvent} {asked : ℕ}

/-- A generation served with a good result is what was asked for. -/
lemma Awaits.happened (h : Awaits req asked s since) (hdone : asked ≤ (s.generations req).done)
    (hok : (s.generations req).lastOk = true) : Happened req since := by
  rw [Awaits] at h
  split at h
  · next hprobe =>
      subst hprobe
      exact h.answered.done hdone hok
  · next hne =>
      have hstart : s.generations req = s.api := by
        cases req <;> first | rfl | exact absurd rfl hne
      rw [hstart] at hdone hok
      obtain ⟨hstarted, hflags⟩ := h.answered.done hdone hok
      cases req with
      | start => trivial
      | ensureRunning => exact hstarted
      | restart disableHttps cause =>
          exact ⟨hflags .restart rfl, fun hdisable => hflags .disableHttps hdisable⟩
      | probe => exact absurd rfl hne

lemma Awaits.around (hawaits : Awaits req asked s since) (h : Around s s') (e : Option ApiEvent) :
    Awaits req asked s' (since ++ e.toList) := by
  rw [Awaits] at hawaits ⊢
  split
  · next hprobe =>
      rw [if_pos hprobe] at hawaits
      exact hawaits.around h e
  · next hne =>
      rw [if_neg hne] at hawaits
      exact hawaits.around h e

lemma Around.done_le (h : Around s s') (req : ApiRequest) :
    (s.generations req).done = (s'.generations req).done := by
  have hapi : s.api.done = s'.api.done := by
    rcases h.api with hsame | hraised
    · rw [hsame]
    · rw [hraised]
      rfl
  have hprobe : s.probe.done = s'.probe.done := by
    rcases h.probe with hsame | hraised
    · rw [hsame]
    · rw [hraised]
      rfl
  cases req <;> first | exact hapi | exact hprobe

lemma ApiCallKept.around {call : ApiCall} (hkept : ApiCallKept s since call) (h : Around s s')
    (e : Option ApiEvent) : ApiCallKept s' (since ++ e.toList) call := by
  cases call with
  | fetchAdd req => exact Held.around hkept h e
  | notifyGive req gen => exact Awaits.around hkept h e
  | loadDone req gen => exact Awaits.around hkept h e
  | loadResult req gen => exact ⟨hkept.1.around h e, (h.done_le req) ▸ hkept.2⟩
  | _ => trivial

/-- The task keeps what a call knows. -/
lemma ApiCallKept.taskStep {call : ApiCall} {ok : Bool} (hkept : ApiCallKept s since call)
    (hip : FindsIp s) (hapi : s.api.Ordered s.task.serving)
    (hprobe : s.probe.Ordered s.task.servingProbe) :
    ApiCallKept (taskStep ok s).2 (since ++ (taskStep ok s).1.toList) call := by
  have hawaits : ∀ req gen, Awaits req gen s since → Awaits req gen
      (ArcticController.taskStep ok s).2 (since ++ (ArcticController.taskStep ok s).1.toList) := by
    intro req gen h
    rw [Awaits] at h ⊢
    split
    · next hreq =>
        rw [if_pos hreq] at h
        exact h.taskStep hprobe
    · next hreq =>
        rw [if_neg hreq] at h
        exact h.taskStep hip hapi
  obtain ⟨hstep, hstepProbe⟩ := serverStep_taskStep ok s
  have hdone : ∀ req, (s.generations req).done
      ≤ ((ArcticController.taskStep ok s).2.generations req).done := by
    intro req
    cases req with
    | probe => exact hprobe.done_le_step hstepProbe
    | _ => exact hapi.done_le_step hstep
  cases call with
  | fetchAdd req => exact Held.taskStep hkept hip
  | notifyGive req gen => exact hawaits req gen hkept
  | loadDone req gen => exact hawaits req gen hkept
  | loadResult req gen => exact ⟨hawaits req gen hkept.1, hkept.2.trans (hdone req)⟩
  | _ => trivial

/-- Nothing a call does is noticed by the task but its requests. -/
lemma around_callStep (n : ℕ) (timedOut : Bool) (s : ApiService) :
    Around s (callStep n timedOut s).2 := by
  rw [callStep]
  split
  · exact .refl s
  · exact .refl s
  · exact ⟨rfl, fun _ => id, id, .inl rfl, .inl rfl⟩
  · next req _ =>
      refine ⟨rfl, fun r hr => ?_, id, .inl rfl, .inl rfl⟩
      cases r
      all_goals
        change (_ || _) = true
        rw [Bool.or_eq_true]
        exact .inl hr
  · next req _ =>
      cases req with
      | probe => exact ⟨rfl, fun _ => id, id, .inl rfl, .inr rfl⟩
      | _ => exact ⟨rfl, fun _ => id, id, .inr rfl, .inl rfl⟩
  · exact ⟨rfl, fun _ => id, id, .inl rfl, .inl rfl⟩
  · split_ifs
    all_goals exact ⟨rfl, fun _ => id, id, .inl rfl, .inl rfl⟩
  · exact ⟨rfl, fun _ => id, id, .inl rfl, .inl rfl⟩

/-- Whoever has not taken part knows what it knew. -/
lemma callStep_other {n m : ℕ} (hne : m ≠ n) (timedOut : Bool) (s : ApiService) :
    (callStep n timedOut s).2.calls m = s.calls m := by
  rw [callStep]
  split
  · rfl
  · rfl
  · exact Function.update_of_ne hne _ _
  · exact Function.update_of_ne hne _ _
  · next req _ => cases req <;> exact Function.update_of_ne hne _ _
  · exact Function.update_of_ne hne _ _
  · split_ifs
    · exact Function.update_of_ne hne _ _
    · exact Function.update_of_ne hne _ _
    · rfl
  · exact Function.update_of_ne hne _ _

/-- A request is new to the task. -/
lemma awaits_ask (hheld : Held req.flags s since) (h : Around s s')
    (hapi : s.api.Ordered s.task.serving) (hprobe : s.probe.Ordered s.task.servingProbe)
    (hraised : s'.generations req = (s.generations req).raise) :
    Awaits req ((s.generations req).req + 1) s' (since ++ (none : Option ApiEvent).toList) := by
  rw [Awaits]
  split
  · next hreq =>
      subst hreq
      have hprobe' : s'.probe = s.probe.raise := hraised
      refine ⟨fun gen hworking hle _ => ?_, ?_⟩
      · rw [h.task] at hworking
        have hold := (hprobe.gen_le gen (by rw [hworking]; rfl)).2
        exact absurd (hle.trans hold) (Nat.not_succ_le_self _)
      · rw [hprobe', h.task]
        exact hprobe.ask
  · next hne =>
      have hgen : ∀ s : ApiService, s.generations req = s.api := by
        intro s
        cases req <;> first | rfl | exact absurd rfl hne
      rw [hgen, hgen] at hraised
      rw [hgen]
      refine ⟨hheld.around h none, fun gen hworking hle => ?_, ?_⟩
      · rw [h.task] at hworking
        have hold := (hapi.gen_le gen (by rw [hworking]; rfl)).2
        exact absurd (hle.trans hold) (Nat.not_succ_le_self _)
      · rw [hraised, h.task]
        exact hapi.ask

/-- The step lemma of a call. -/
lemma ApiCallKept.callStep {n : ℕ} {timedOut : Bool} (hkept : ApiCallKept s since (s.calls n))
    (hapi : s.api.Ordered s.task.serving) (hprobe : s.probe.Ordered s.task.servingProbe) :
    ApiCallKept (callStep n timedOut s).2 (since ++ (callStep n timedOut s).1.toList)
      ((callStep n timedOut s).2.calls n) := by
  have haround := around_callStep n timedOut s
  cases hcall : s.calls n with
  | idle | returned =>
      simp only [ArcticController.callStep, hcall]
      trivial
  | storeCause req cause =>
      simp only [ArcticController.callStep, hcall, ApiService.setCall, Function.update_self]
      trivial
  | orFlags req =>
      simp only [ArcticController.callStep, hcall, ApiService.setCall, Function.update_self]
      intro r hr
      refine .inl ?_
      cases r
      all_goals
        change (_ || _) = true
        rw [Bool.or_eq_true]
        exact .inr hr
  | fetchAdd req =>
      rw [hcall] at hkept
      simp only [ArcticController.callStep, hcall] at haround ⊢
      have hraised : ((s.raise req).setCall n (.notifyGive req ((s.generations req).req + 1))).generations req
          = (s.generations req).raise := by
        cases req <;> rfl
      have hself : ((s.raise req).setCall n (.notifyGive req ((s.generations req).req + 1))).calls n
          = .notifyGive req ((s.generations req).req + 1) := Function.update_self ..
      rw [hself]
      exact awaits_ask hkept haround hapi hprobe hraised
  | notifyGive req gen =>
      rw [hcall] at hkept
      simp only [ArcticController.callStep, hcall, ApiService.setCall, Function.update_self]
        at haround ⊢
      split
      · trivial
      · next hne =>
          rw [if_neg hne] at haround
          exact Awaits.around hkept haround none
  | loadDone req gen =>
      rw [hcall] at hkept
      simp only [ArcticController.callStep, hcall] at haround ⊢
      split_ifs at haround ⊢ with htimeout hdone
      · rw [show (s.setCall n .returned).calls n = .returned from Function.update_self ..]
        trivial
      · rw [show (s.setCall n (.loadResult req gen)).calls n = .loadResult req gen from
          Function.update_self ..]
        refine ⟨Awaits.around hkept haround none, ?_⟩
        rw [← haround.done_le]
        exact hdone
      · rw [hcall]
        exact Awaits.around hkept haround none
  | loadResult req gen =>
      simp only [ArcticController.callStep, hcall, ApiService.setCall, Function.update_self]
      trivial

/-- A call reports success only when it has happened. -/
lemma ApiCallKept.happened {n m : ℕ} {timedOut : Bool} (hkept : ApiCallKept s since (s.calls n))
    (hevent : (ArcticController.callStep n timedOut s).1 = some (.returned m req true)) :
    m = n ∧ Happened req since := by
  cases hcall : s.calls n with
  | loadResult req' gen =>
      rw [hcall] at hkept
      simp only [ArcticController.callStep, hcall, Option.some.injEq, ApiEvent.returned.injEq] at hevent
      obtain ⟨rfl, rfl, hok⟩ := hevent
      exact ⟨rfl, hkept.1.happened hkept.2 hok⟩
  | loadDone req' gen =>
      simp only [ArcticController.callStep, hcall] at hevent
      split_ifs at hevent
      cases hevent
  | _ =>
      simp only [ArcticController.callStep, hcall] at hevent
      cases hevent

end Calls

/-! ### Runs -/

section Since

variable {id : ℕ} {log : List ApiEvent}

lemma sinceCall_append (h : ∃ req, .called id req ∈ log) (l : List ApiEvent) :
    sinceCall id (log ++ l) = sinceCall id log ++ l := by
  obtain ⟨req, hmem⟩ := h
  induction log with
  | nil => cases hmem
  | cons e log ih =>
      have hrest : e ≠ .called id req → sinceCall id (log ++ l) = sinceCall id log ++ l := fun hne =>
        ih ((List.mem_cons.mp hmem).resolve_left fun heq => hne heq.symm)
      cases e with
      | called id' req' =>
          rw [List.cons_append, sinceCall, sinceCall]
          split
          · rfl
          · next hne => exact hrest fun heq => hne (ApiEvent.called.inj heq).1
      | _ => exact hrest nofun

end Since

/-- The invariant of the runs. -/
structure ServiceKept (s : ApiService) (log : List ApiEvent) : Prop where
  api : s.api.Ordered s.task.serving
  probe : s.probe.Ordered s.task.servingProbe
  busy : log.foldlM inProgress none = some s.task.busy
  called : ∀ id, s.calls id ≠ .idle → ∃ req, .called id req ∈ log
  calls : ∀ id, ApiCallKept s (sinceCall id log) (s.calls id)
  happened : ∀ pre id req post, log = pre ++ .returned id req true :: post →
    Happened req (sinceCall id pre)

section Runs

variable {s : ApiService} {log : List ApiEvent}

/-- What a call knows is about the events since it began. -/
lemma ServiceKept.since (h : ServiceKept s log) {s' : ApiService} {e : Option ApiEvent} {id : ℕ}
    (hkept : ApiCallKept s' (sinceCall id log ++ e.toList) (s.calls id)) :
    ApiCallKept s' (sinceCall id (log ++ e.toList)) (s.calls id) := by
  by_cases hidle : s.calls id = .idle
  · rw [hidle]
    trivial
  · rw [sinceCall_append (h.called id hidle)]
    exact hkept

/-- One more event, which reports success only for what has happened. -/
lemma ServiceKept.happened_concat (h : ServiceKept s log) {e : Option ApiEvent}
    (hnew : ∀ id req, e = some (.returned id req true) → Happened req (sinceCall id log)) :
    ∀ pre id req post, log ++ e.toList = pre ++ .returned id req true :: post →
      Happened req (sinceCall id pre) := by
  intro pre id req post hsplit
  rcases split_step hsplit with ⟨he, rfl, -⟩ | ⟨post', hlog, -⟩
  · exact hnew id req he
  · exact h.happened pre id req post' hlog

/-- A step around the task, of which the other calls notice no more than it does. -/
lemma ServiceKept.around (h : ServiceKept s log) {s' : ApiService} {e : Option ApiEvent}
    (haround : Around s s') (hbusy : e.toList.foldlM inProgress s.task.busy = some s.task.busy)
    (hcalls : ∀ id, s'.calls id = s.calls id ∨
      (∃ req, .called id req ∈ log ++ e.toList) ∧
        ApiCallKept s' (sinceCall id (log ++ e.toList)) (s'.calls id))
    (hnew : ∀ id req, e = some (.returned id req true) → Happened req (sinceCall id log)) :
    ServiceKept s' (log ++ e.toList) where
  api := (haround.ordered h.api h.probe).1
  probe := (haround.ordered h.api h.probe).2
  busy := by
    rw [List.foldlM_append, h.busy, haround.task]
    exact hbusy
  called id hid := by
    rcases hcalls id with hsame | ⟨hcalled, -⟩
    · obtain ⟨req, hmem⟩ := h.called id (by rwa [← hsame])
      exact ⟨req, List.mem_append_left _ hmem⟩
    · exact hcalled
  calls id := by
    rcases hcalls id with hsame | ⟨-, hkept⟩
    · rw [hsame]
      exact h.since ((h.calls id).around haround e)
    · exact hkept
  happened := h.happened_concat hnew

lemma taskStep_event (ok : Bool) (s : ApiService) (id : ℕ) (req : ApiRequest) (result : Bool) :
    (taskStep ok s).1 ≠ some (.returned id req result) := by
  rw [taskStep]
  split <;> (try split) <;> nofun

lemma callStep_event (n : ℕ) (timedOut : Bool) (s : ApiService) (busy : Option ServerOp) :
    (callStep n timedOut s).1.toList.foldlM inProgress busy = some busy := by
  rw [callStep]
  split <;> (try split_ifs) <;> rfl

/-- The step lemma of a run. -/
lemma ServiceKept.act (h : ServiceKept s log) (a : ApiAction)
    (hnone : NoneTurnedAway (log ++ (s.act a).1.toList)) :
    ServiceKept (s.act a).2 (log ++ (s.act a).1.toList) := by
  cases a with
  | task ok =>
      have hip : FindsIp s := by
        intro gen f htask hne
        by_contra habsent
        refine hne (hnone (.turnedAway f) (List.mem_append_right _ ?_))
        simp only [ApiService.act, taskStep, htask, habsent, if_false]
        exact List.mem_singleton_self _
      obtain ⟨hstep, hstepProbe⟩ := serverStep_taskStep ok s
      have hcalls := (taskStep_kept ok s).2
      refine ⟨h.api.step hstep, h.probe.step hstepProbe, ?_, fun id hid => ?_, fun id => ?_,
        h.happened_concat fun id req he => absurd he (taskStep_event ok s id req true)⟩
      · rw [List.foldlM_append, h.busy]
        exact busy_taskStep ok s
      · obtain ⟨req, hmem⟩ := h.called id (by rwa [← hcalls])
        exact ⟨req, List.mem_append_left _ hmem⟩
      · rw [show ((s.act (.task ok)).2.calls) = s.calls from hcalls]
        exact h.since ((h.calls id).taskStep hip h.api h.probe)
  | call id req =>
      simp only [ApiService.act]
      split
      · refine h.around ⟨rfl, fun _ hr => hr, fun hshut => hshut, .inl rfl, .inl rfl⟩ rfl (fun id' => ?_) nofun
        by_cases hid : id' = id
        · subst hid
          refine .inr ⟨⟨req, List.mem_append_right _ (List.mem_singleton_self _)⟩, ?_⟩
          rw [show (s.setCall id' req.begin).calls id' = req.begin from Function.update_self ..]
          cases req with
          | restart disableHttps cause => cases disableHttps <;> trivial
          | _ => exact fun r hr => by cases r <;> cases hr
        · exact .inl (Function.update_of_ne hid _ _)
      · exact h.around (.refl s) rfl (fun _ => .inl rfl) nofun
  | caller n timedOut =>
      refine h.around (around_callStep n timedOut s) (callStep_event n timedOut s _) (fun id' => ?_)
        fun id' req he => ?_
      · by_cases hid : id' = n
        · subst hid
          by_cases hidle : s.calls id' = .idle
          · left
            simp only [ApiService.act, callStep, hidle]
          · obtain ⟨req, hmem⟩ := h.called id' hidle
            refine .inr ⟨⟨req, List.mem_append_left _ hmem⟩, ?_⟩
            rw [sinceCall_append ⟨req, hmem⟩]
            exact (h.calls id').callStep h.api h.probe
        · exact .inl (callStep_other hid timedOut s)
      · obtain ⟨rfl, hhappened⟩ := (h.calls n).happened he
        exact hhappened
  | currentIp present =>
      exact h.around ⟨rfl, fun _ => id, id, .inl rfl, .inl rfl⟩ rfl (fun _ => .inl rfl) nofun
  | shutDown =>
      exact h.around ⟨rfl, fun _ => id, fun _ => rfl, .inl rfl, .inl rfl⟩ rfl (fun _ => .inl rfl) nofun

lemma serviceKept_start : ServiceKept {} [] where
  api := Generations.ordered_start false
  probe := Generations.ordered_start true
  busy := rfl
  called _ h := absurd rfl h
  calls _ := trivial
  happened pre id req post h := absurd (congrArg List.length h) (by simp)

/-- The run lemma. -/
lemma serviceKept_serve (actions : List ApiAction) (hnone : NoneTurnedAway (serve actions).2) :
    ServiceKept (serve actions).1 (serve actions).2 := by
  induction actions using List.reverseRecOn with
  | nil => exact serviceKept_start
  | append_singleton actions a ih =>
      rw [serve_concat] at hnone ⊢
      exact (ih fun e hmem => hnone e (List.mem_append_left _ hmem)).act a hnone

/-- **A call that reports success happened**, and nothing the service task does overlaps:
after any interleaving of calls with the task and with an IP address that comes and
goes, if the task never found itself without one when it had taken flags. -/
theorem reports_happened {actions : List ApiAction} (hnone : NoneTurnedAway (serve actions).2) :
    ReportsHappened (serve actions).2 := by
  have hkept := serviceKept_serve actions hnone
  refine ⟨hkept.happened, ?_⟩
  rw [OneAtATime, hkept.busy]
  rfl

end Runs

/-- A restart without HTTPS, while there is an address. -/
def servedRestart : List ApiAction :=
  [.currentIp true, .call 0 (.restart true 7)] ++ List.replicate 4 (.caller 0 false)
    ++ List.replicate 15 (.task true) ++ List.replicate 2 (.caller 0 false)

theorem reports_happened_restart :
    .returned 0 (.restart true 7) true ∈ (serve servedRestart).2 ∧
      ReportsHappened (serve servedRestart).2 :=
  ⟨by decide +kernel, reports_happened (by decide +kernel)⟩

/-- A start is asked for, and the task has looked at the requests when a restart sets its
flag. It takes the flag and finds no address. The restart raises the generation, the
address comes, and the next generation has no flags. -/
def absorbedRestart : List ApiAction :=
  [.call 0 .start, .caller 0 false, .caller 0 false, .task true, .task true,
    .call 1 (.restart false 0), .caller 1 false] ++ List.replicate 8 (.task true)
    ++ [.caller 1 false, .caller 1 false, .currentIp true] ++ List.replicate 10 (.task true)
    ++ List.replicate 2 (.caller 1 false)

/-- It reports success, and nothing was stopped. -/
theorem absorbed_restart_reports : ¬ ReportsHappened (serve absorbedRestart).2 := by
  intro h
  have hlast : (serve absorbedRestart).2 = (serve absorbedRestart).2.dropLast
      ++ .returned 1 (.restart false 0) true :: [] := by
    decide +kernel
  have hstopped := (h.happened _ 1 (.restart false 0) [] hlast).1
  revert hstopped
  decide +kernel

end ArcticController

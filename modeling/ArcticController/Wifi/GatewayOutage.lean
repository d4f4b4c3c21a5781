/-
Outages of the gateway over the checks of a boot.

* `GatewayTally`, `networkEvents`: the outage that the probes show and the recoveries in it,
  and the events recorded since credentials were last missing;
* `Warranted`, `Escalates`: a recovery comes in its turn;
* `Quiet`: effects that are nothing to the gateway;
* `OutageState`: the variables of the supervisor against the tally and the events;
* `gateway_outage_escalates`: over any checks.
-/
import ArcticController.Base.Alternate
import ArcticController.Wifi.Supervisor

namespace ArcticController

/-! ### What the effects show -/

/-- Whether the gateway ever answered, and the outage: the time of the first of the failed
probes without an answer between them, and the bounces since. -/
structure GatewayTally where
  answered : Bool := false
  outage : Option (ℤ × ℕ) := none
deriving DecidableEq, Repr

def GatewayTally.next (g : GatewayTally) : SupervisorEffect → GatewayTally
  | .probed _ true => { answered := true, outage := none }
  | .probed time false => { g with outage := some (g.outage.getD (time, 0)) }
  | .noCredentials => { g with outage := none }
  | .bounce _ => { g with outage := g.outage.map fun p => (p.1, p.2 + 1) }
  | _ => g

def gatewayTally (log : List SupervisorEffect) : GatewayTally := log.foldl GatewayTally.next {}

/-- The events recorded, with one that the gateway is unreachable for `true`; missing
credentials begin a new list. -/
def nextEvents (events : List Bool) : SupervisorEffect → List Bool
  | .recordUnreachable => events ++ [true]
  | .recordRecovered _ => events ++ [false]
  | .noCredentials => []
  | _ => events

/-- The events since credentials were last missing. -/
def networkEvents (log : List SupervisorEffect) : List Bool := log.foldl nextEvents []

/-- A recovery is due: the gateway has answered before, every probe has failed since the
outage began, and that is long enough ago for the bounces made. A reboot comes after all of
them. -/
def Warranted (g : GatewayTally) : SupervisorEffect → Prop
  | .bounce time => ∃ since k, g.answered = true ∧ g.outage = some (since, k) ∧ k < maxBounces ∧
      (reachGraceMs + k * bounceStepMs) * 1000 ≤ time - since
  | .restartUnreachable time => ∃ since, g.answered = true ∧ g.outage = some (since, maxBounces) ∧
      (reachGraceMs + maxBounces * bounceStepMs) * 1000 ≤ time - since
  | _ => True

/-- Every recovery was due. -/
def Escalates (log : List SupervisorEffect) : Prop :=
  ∀ pre e post, log = pre ++ e :: post → Warranted (gatewayTally pre) e

/-- What the supervisor has done so far is in order. -/
structure InOrderSoFar (log : List SupervisorEffect) : Prop where
  escalates : Escalates log
  alternates : AlternatesFrom true false (networkEvents log)

lemma gatewayTally_concat (log : List SupervisorEffect) (e : SupervisorEffect) :
    gatewayTally (log ++ [e]) = (gatewayTally log).next e := by
  rw [gatewayTally, List.foldl_append]
  rfl

lemma networkEvents_concat (log : List SupervisorEffect) (e : SupervisorEffect) :
    networkEvents (log ++ [e]) = nextEvents (networkEvents log) e := by
  rw [networkEvents, List.foldl_append]
  rfl

namespace InOrderSoFar

variable {log : List SupervisorEffect}

lemma start : InOrderSoFar [] where
  escalates := fun pre e post h => by simp at h
  alternates := trivial

/-- One effect more. -/
lemma concat (h : InOrderSoFar log) {e : SupervisorEffect} (he : Warranted (gatewayTally log) e)
    (hevents : AlternatesFrom true false (nextEvents (networkEvents log) e)) :
    InOrderSoFar (log ++ [e]) where
  escalates := fun pre x post hsplit => by
    rcases split_step (e := some e) hsplit with ⟨heq, rfl, -⟩ | ⟨post', hbefore, -⟩
    · cases heq
      exact he
    · exact h.escalates pre x post' hbefore
  alternates := by
    rw [networkEvents_concat]
    exact hevents

end InOrderSoFar

/-- An effect that is nothing to the gateway. -/
def Quiet (e : SupervisorEffect) : Prop :=
  (∀ g : GatewayTally, g.next e = g ∧ Warranted g e) ∧ ∀ events, nextEvents events e = events

/-- Quiet effects leave what the effects show. -/
lemma quiet_append (log es : List SupervisorEffect)
    (hquiet : ∀ e ∈ es, Quiet e) :
    gatewayTally (log ++ es) = gatewayTally log ∧ networkEvents (log ++ es) = networkEvents log ∧
      (InOrderSoFar log → InOrderSoFar (log ++ es)) := by
  induction es generalizing log with
  | nil =>
      rw [List.append_nil]
      exact ⟨rfl, rfl, id⟩
  | cons e es ih =>
      obtain ⟨htally, hevents⟩ := hquiet e List.mem_cons_self
      obtain ⟨hg, hn, horder⟩ := ih (log ++ [e]) fun x hx => hquiet x (List.mem_cons_of_mem _ hx)
      rw [List.append_assoc, List.singleton_append] at hg hn horder
      rw [hg, hn, gatewayTally_concat, networkEvents_concat, (htally _).1, hevents]
      refine ⟨rfl, rfl, fun h => horder (h.concat (htally _).2 ?_)⟩
      rw [hevents]
      exact h.alternates

/-! ### The supervisor -/

/-- The supervisor's variables are those of the tally and the events. -/
structure OutageState (s : Supervisor) (g : GatewayTally) (events : List Bool) (now : ℤ) :
    Prop where
  answered : s.everReachable = g.answered
  early : s.everReachable = false → s.unreachableSinceUs = 0
  idle : s.unreachableSinceUs = 0 → s.bounces = 0 ∧ s.unreachableLogged = false ∧
    (s.everReachable = true → g.outage = none)
  outage : s.unreachableSinceUs ≠ 0 → s.unreachableSinceUs ≤ now ∧
    ∃ since, g.outage = some (since, s.bounces) ∧ since ≤ s.unreachableSinceUs
  logged : s.unreachableLogged = true → events.getLast? = some true
  unlogged : s.unreachableLogged = false → events.getLast? ≠ some true
  few : s.bounces ≤ maxBounces

/-- All is in order, and a supervisor that runs on knows where it stands. -/
structure SupervisorInvariant (s : Supervisor) (log : List SupervisorEffect) (now : ℤ) : Prop where
  order : InOrderSoFar log
  state : s.restarted = false → OutageState s (gatewayTally log) (networkEvents log) now

/-- The variables of an outage are the same. -/
structure SameOutage (s s' : Supervisor) : Prop where
  everReachable : s'.everReachable = s.everReachable
  unreachableSinceUs : s'.unreachableSinceUs = s.unreachableSinceUs
  unreachableLogged : s'.unreachableLogged = s.unreachableLogged
  bounces : s'.bounces = s.bounces

lemma SameOutage.trans {s s' s'' : Supervisor} (h : SameOutage s s') (h' : SameOutage s' s'') :
    SameOutage s s'' :=
  ⟨h'.1.trans h.1, h'.2.trans h.2, h'.3.trans h.3, h'.4.trans h.4⟩

lemma OutageState.same {s s' : Supervisor} {g : GatewayTally} {events : List Bool} {now now' : ℤ}
    (h : OutageState s g events now) (hsame : SameOutage s s') (hnow : now ≤ now') :
    OutageState s' g events now' := by
  obtain ⟨hever, hsince, hlogged, hbounces⟩ := hsame
  constructor
  · rw [hever]
    exact h.answered
  · rw [hever, hsince]
    exact h.early
  · rw [hever, hsince, hlogged, hbounces]
    exact h.idle
  · rw [hsince, hbounces]
    exact fun hopen => ⟨(h.outage hopen).1.trans hnow, (h.outage hopen).2⟩
  · rw [hlogged]
    exact h.logged
  · rw [hlogged]
    exact h.unlogged
  · rw [hbounces]
    exact h.few

/-- Quiet effects of a check that leaves the outage. -/
lemma SupervisorInvariant.quiet {s s' : Supervisor} {log es : List SupervisorEffect} {now now' : ℤ}
    (h : SupervisorInvariant s log now) (hruns : s.restarted = false) (hsame : SameOutage s s')
    (hnow : now ≤ now') (hquiet : ∀ e ∈ es, Quiet e) : SupervisorInvariant s' (log ++ es) now' := by
  obtain ⟨htally, hevents, horder⟩ := quiet_append log es hquiet
  refine ⟨horder h.order, fun _ => ?_⟩
  rw [htally, hevents]
  exact (h.state hruns).same hsame hnow

/-! ### The branches -/

namespace Supervisor

variable (s : Supervisor) (c : SupervisorCheck)

lemma noteLinkDown_same : SameOutage s (s.noteLinkDown c) := by
  rw [noteLinkDown]
  constructor <;> split_ifs <;> rfl

lemma noteRetry_same (now : ℤ) (retry : Bool) : SameOutage s (s.noteRetry now retry) := by
  rw [noteRetry]
  constructor <;> split <;> rfl

lemma associationLost_quiet : SameOutage s (s.associationLost c).1 ∧
    ∀ e ∈ (s.associationLost c).2, Quiet e := by
  have hdown := s.noteLinkDown_same c
  have hretry := (s.noteLinkDown c).noteRetry_same c.now ((s.noteLinkDown c).retryDue c)
  have hsame := hdown.trans hretry
  have hreconnect : ∀ e ∈ (if (s.noteLinkDown c).retryDue c && c.credsLoaded then
      [SupervisorEffect.reconnect] else []), Quiet e := by
    split <;> simp [Quiet, GatewayTally.next, Warranted, nextEvents]
  rw [associationLost]
  split
  · refine ⟨⟨hsame.1, hsame.2, hsame.3, hsame.4⟩, List.forall_mem_append.mpr ⟨hreconnect, ?_⟩⟩
    simp [Quiet, GatewayTally.next, Warranted, nextEvents]
  · refine ⟨hsame, List.forall_mem_append.mpr ⟨hreconnect, ?_⟩⟩
    simp [Quiet, GatewayTally.next, Warranted, nextEvents]

lemma superviseServers_quiet : SameOutage s (s.superviseServers c).1 ∧
    ∀ e ∈ (s.superviseServers c).2, Quiet e := by
  simp only [superviseServers]
  constructor
  · constructor <;> rfl
  · intro e he
    rcases List.mem_append.mp he with he | he
    · obtain ⟨effect, -, rfl⟩ := List.mem_map.mp he
      exact ⟨fun _ => ⟨rfl, trivial⟩, fun _ => rfl⟩
    · split at he
      · rw [List.mem_singleton.mp he]
        exact ⟨fun _ => ⟨rfl, trivial⟩, fun _ => rfl⟩
      · cases he

end Supervisor

namespace SupervisorInvariant

variable {s : Supervisor} {log : List SupervisorEffect} {now : ℤ}

/-- Credentials that are missing end an outage and begin a new list of events. -/
lemma noCredentials (h : SupervisorInvariant s log now) {s' : Supervisor}
    (hruns : s.restarted = false) (hever : s'.everReachable = s.everReachable)
    (hsince : s'.unreachableSinceUs = 0) (hlogged : s'.unreachableLogged = false)
    (hbounces : s'.bounces = 0) : SupervisorInvariant s' (log ++ [.noCredentials]) now := by
  refine ⟨h.order.concat trivial trivial, fun _ => ?_⟩
  rw [gatewayTally_concat, networkEvents_concat]
  refine ⟨hever.trans (h.state hruns).answered, fun _ => hsince,
    fun _ => ⟨hbounces, hlogged, fun _ => rfl⟩, fun hopen => absurd hsince hopen, fun hon => ?_,
    fun _ => nofun, hbounces ▸ Nat.zero_le _⟩
  rw [hlogged] at hon
  cases hon

/-- An answer ends an outage, and a recorded one with a recovery. -/
lemma gatewayAnswers (h : SupervisorInvariant s log now) (hruns : s.restarted = false) (time : ℤ) :
    SupervisorInvariant s.gatewayAnswers.1 (log ++ .probed time true :: s.gatewayAnswers.2) now := by
  have hstate := h.state hruns
  have hquiet : ∀ e ∈ [SupervisorEffect.roamPoll, .wait checkIntervalMs], Quiet e := by
    simp [Quiet, GatewayTally.next, Warranted, nextEvents]
  -- With the outage over, only the last event matters.
  have hover : ∀ events : List Bool, events.getLast? ≠ some true →
      OutageState s.gatewayAnswers.1 { answered := true } events now := fun events hlast =>
    ⟨rfl, nofun, fun _ => ⟨rfl, rfl, fun _ => rfl⟩, fun hopen => absurd rfl hopen, nofun,
      fun _ => hlast, Nat.zero_le _⟩
  have hprobed : InOrderSoFar (log ++ [.probed time true]) :=
    h.order.concat trivial h.order.alternates
  have htally : gatewayTally (log ++ [.probed time true]) = { answered := true } :=
    gatewayTally_concat _ _
  have hevents : networkEvents (log ++ [.probed time true]) = networkEvents log :=
    networkEvents_concat _ _
  rw [List.append_cons]
  by_cases hrecovers : s.unreachableSinceUs ≠ 0 ∧ s.unreachableLogged = true
  · have heffects : s.gatewayAnswers.2 = [.recordRecovered
        (if s.bounces > 0 then .wifiBounce else .self)] ++ [.roamPoll, .wait checkIntervalMs] := by
      simp only [Supervisor.gatewayAnswers, if_pos hrecovers]
    -- The last event is that of the outage, so a recovery is in turn.
    have hlast := hstate.logged hrecovers.2
    have hrecorded := hprobed.concat (e := .recordRecovered
      (if s.bounces > 0 then .wifiBounce else .self)) trivial (by
        rw [hevents]
        exact h.order.alternates.concat_second Bool.false_ne_true.symm hlast)
    obtain ⟨hg, hn, horder⟩ := quiet_append _ _ hquiet
    rw [heffects, ← List.append_assoc]
    refine ⟨horder hrecorded, fun _ => ?_⟩
    rw [hg, hn, gatewayTally_concat, networkEvents_concat, htally, hevents]
    exact hover _ (by rw [nextEvents, List.getLast?_concat]; nofun)
  · have heffects : s.gatewayAnswers.2 = [.roamPoll, .wait checkIntervalMs] := by
      simp only [Supervisor.gatewayAnswers, if_neg hrecovers, List.nil_append]
    -- An outage that is over was not recorded.
    have hunlogged : s.unreachableLogged = false := by
      by_contra hlogged
      refine hrecovers ⟨fun hidle => hlogged (hstate.idle hidle).2.1, ?_⟩
      exact Bool.eq_true_of_not_eq_false hlogged
    obtain ⟨hg, hn, horder⟩ := quiet_append _ _ hquiet
    rw [heffects]
    refine ⟨horder hprobed, fun _ => ?_⟩
    rw [hg, hn, htally, hevents]
    exact hover _ (hstate.unlogged hunlogged)

/-- The outage is recorded where it is not, so the event is in turn. -/
lemma recordOutage (h : SupervisorInvariant s log now) (hruns : s.restarted = false)
    (hopen : s.unreachableSinceUs ≠ 0) (downMs : ℤ) :
    (s.recordOutage downMs).1.restarted = false ∧
      (s.recordOutage downMs).1.unreachableSinceUs = s.unreachableSinceUs ∧
      (s.recordOutage downMs).1.everReachable = s.everReachable ∧
      (downMs ≥ notableMs → (s.recordOutage downMs).1.unreachableLogged = true) ∧
      SupervisorInvariant (s.recordOutage downMs).1 (log ++ (s.recordOutage downMs).2) now := by
  have hstate := h.state hruns
  rw [Supervisor.recordOutage]
  by_cases hnew : (!s.unreachableLogged) = true ∧ downMs ≥ notableMs
  · rw [if_pos hnew]
    have hunlogged : s.unreachableLogged = false := by simpa using hnew.1
    have hquiet : ∀ e ∈ [SupervisorEffect.flushLog], Quiet e := by
      simp [Quiet, GatewayTally.next, Warranted, nextEvents]
    have hrecorded := h.order.concat (e := .recordUnreachable) trivial
      (h.order.alternates.concat_first Bool.false_ne_true.symm (hstate.unlogged hunlogged))
    obtain ⟨hg, hn, horder⟩ := quiet_append _ _ hquiet
    refine ⟨hruns, rfl, rfl, fun _ => rfl, ?_⟩
    dsimp only
    rw [List.append_cons]
    refine ⟨horder hrecorded, fun _ => ?_⟩
    rw [hg, hn, gatewayTally_concat, networkEvents_concat]
    exact ⟨hstate.answered, hstate.early, fun hidle => absurd hidle hopen, hstate.outage,
      fun _ => List.getLast?_concat, nofun, hstate.few⟩
  · rw [if_neg hnew, List.append_nil]
    refine ⟨hruns, rfl, rfl, fun hlong => ?_, h⟩
    by_contra hlogged
    exact hnew ⟨by simpa using hlogged, hlong⟩

/-- A bounce or a reboot is due when it comes. -/
lemma recover (h : SupervisorInvariant s log now) (hruns : s.restarted = false)
    (hopen : s.unreachableSinceUs ≠ 0) (hever : s.everReachable = true)
    (hlogged : elapsedMs now s.unreachableSinceUs ≥ notableMs → s.unreachableLogged = true) :
    SupervisorInvariant (s.recover now (elapsedMs now s.unreachableSinceUs)).1
      (log ++ (s.recover now (elapsedMs now s.unreachableSinceUs)).2) now := by
  have hstate := h.state hruns
  obtain ⟨hle, since, houtage, hsince⟩ := hstate.outage hopen
  have helapsed := elapsedMs_le hle
  have hanswered : (gatewayTally log).answered = true := hstate.answered ▸ hever
  have hflush : ∀ e ∈ [SupervisorEffect.flushLog], Quiet e := by
    simp [Quiet, GatewayTally.next, Warranted, nextEvents]
  have hwait : ∀ e ∈ [SupervisorEffect.wait checkIntervalMs], Quiet e := by
    simp [Quiet, GatewayTally.next, Warranted, nextEvents]
  rw [Supervisor.recover]
  split
  · -- A bounce, after which the outage has one more.
    rename_i hbounce
    obtain ⟨hg, hn, horder⟩ := quiet_append log _ hflush
    have hdue : InOrderSoFar (log ++ [.flushLog] ++ [.bounce now]) := by
      refine (horder h.order).concat ?_ ?_
      · rw [hg]
        exact ⟨since, s.bounces, hanswered, houtage, hbounce.1, by omega⟩
      · rw [hn]
        exact h.order.alternates
    obtain ⟨hg', hn', horder'⟩ := quiet_append (log ++ [.flushLog] ++ [.bounce now]) _ hwait
    dsimp only
    rw [List.append_cons, List.append_cons]
    refine ⟨horder' hdue, fun _ => ?_⟩
    rw [hg', hn', gatewayTally_concat, networkEvents_concat, hg, hn]
    refine ⟨hstate.answered, hstate.early, fun hidle => absurd hidle hopen, fun _ => ?_,
      hstate.logged, hstate.unlogged, hbounce.1⟩
    exact ⟨hle, since, by simp [GatewayTally.next, houtage], hsince⟩
  · split
    · -- The reboot, after all bounces; the outage was recorded long ago.
      rename_i hmore hreboot
      have hlong : elapsedMs now s.unreachableSinceUs ≥ notableMs :=
        le_trans (by decide) hreboot.2
      have hlast := hstate.logged (hlogged hlong)
      have hall : s.bounces = maxBounces := le_antisymm hstate.few hreboot.1
      have hrecorded := h.order.concat (e := .recordRecovered .reboot) trivial
        (h.order.alternates.concat_second Bool.false_ne_true.symm hlast)
      obtain ⟨hg, hn, horder⟩ := quiet_append (log ++ [.recordRecovered .reboot]) _ hflush
      dsimp only
      rw [List.append_cons, List.append_cons]
      refine ⟨(horder hrecorded).concat ?_ ?_, nofun⟩
      · rw [hg, gatewayTally_concat]
        exact ⟨since, hanswered, hall ▸ houtage, by omega⟩
      · rw [hn]
        exact hrecorded.alternates
    · obtain ⟨hg, hn, horder⟩ := quiet_append log _ hwait
      refine ⟨horder h.order, fun _ => ?_⟩
      rw [hg, hn]
      exact hstate

/-- A probe that fails begins an outage, or shows that it goes on. -/
lemma gatewayUnreachable (h : SupervisorInvariant s log now) (hruns : s.restarted = false)
    {time : ℤ} (hpos : 0 < time) (hnow : now ≤ time) :
    SupervisorInvariant (s.gatewayUnreachable time).1
      (log ++ .probed time false :: (s.gatewayUnreachable time).2) time := by
  have hstate := h.state hruns
  have hprobed : InOrderSoFar (log ++ [.probed time false]) :=
    h.order.concat trivial h.order.alternates
  have htally : gatewayTally (log ++ [.probed time false])
      = { gatewayTally log with outage := some ((gatewayTally log).outage.getD (time, 0)) } :=
    gatewayTally_concat _ _
  have hevents : networkEvents (log ++ [.probed time false]) = networkEvents log :=
    networkEvents_concat _ _
  rw [List.append_cons, Supervisor.gatewayUnreachable]
  by_cases hever : s.everReachable = true
  · -- The outage as it stands after this probe.
    set s₁ : Supervisor :=
      if s.unreachableSinceUs = 0 then { s with unreachableSinceUs := time } else s with hs₁
    have hfirst : s₁.restarted = false ∧ s₁.everReachable = true ∧ s₁.unreachableSinceUs ≠ 0 ∧
        OutageState s₁ (gatewayTally (log ++ [.probed time false]))
          (networkEvents (log ++ [.probed time false])) time := by
      rw [htally, hevents, hs₁]
      split
      · rename_i hidle
        obtain ⟨hbounces, hlogged, hnone⟩ := hstate.idle hidle
        refine ⟨hruns, hever, by dsimp only; omega, hstate.answered, fun hnot => ?_,
          fun h => ?_, fun _ => ⟨le_rfl, time, ?_, le_rfl⟩, hstate.logged, hstate.unlogged,
          hstate.few⟩
        · rw [hever] at hnot
          cases hnot
        · dsimp only at h
          omega
        · simp [hnone hever, hbounces]
      · rename_i hopen
        obtain ⟨hle, since, houtage, hsince⟩ := hstate.outage hopen
        refine ⟨hruns, hever, hopen, hstate.answered, hstate.early, fun h => absurd h hopen,
          fun _ => ⟨hle.trans hnow, since, ?_, hsince⟩, hstate.logged, hstate.unlogged, hstate.few⟩
        simp [houtage]
    obtain ⟨hruns₁, hever₁, hopen₁, hstate₁⟩ := hfirst
    have h₁ : SupervisorInvariant s₁ (log ++ [.probed time false]) time :=
      ⟨hprobed, fun _ => hstate₁⟩
    obtain ⟨hruns₂, hsince₂, hever₂, hlogged₂, h₂⟩ :=
      h₁.recordOutage hruns₁ hopen₁ (elapsedMs time s₁.unreachableSinceUs)
    have h₃ := h₂.recover hruns₂ (by rw [hsince₂]; exact hopen₁) (hever₂.trans hever₁)
      (by rw [hsince₂]; exact hlogged₂)
    rw [hsince₂] at h₃
    rw [hever]
    simpa [List.append_assoc] using h₃
  · have hearly := Bool.eq_false_iff.mpr hever
    have hwait : ∀ e ∈ [SupervisorEffect.wait checkIntervalMs], Quiet e := by
      simp [Quiet, GatewayTally.next, Warranted, nextEvents]
    obtain ⟨hg, hn, horder⟩ := quiet_append _ _ hwait
    rw [hearly]
    show SupervisorInvariant s (log ++ [.probed time false] ++ [.wait checkIntervalMs]) time
    refine ⟨horder hprobed, fun _ => ?_⟩
    rw [hg, hn, htally, hevents]
    have hidle := hstate.early hearly
    refine ⟨hstate.answered, hstate.early, fun _ => ?_, fun hopen => absurd hidle hopen,
      hstate.logged, hstate.unlogged, hstate.few⟩
    exact ⟨(hstate.idle hidle).1, (hstate.idle hidle).2.1, fun h => absurd h hever⟩

/-- Time passes. -/
lemma later (h : SupervisorInvariant s log now) {now' : ℤ} (hnow : now ≤ now') :
    SupervisorInvariant s log now' :=
  ⟨h.order, fun hruns => (h.state hruns).same ⟨rfl, rfl, rfl, rfl⟩ hnow⟩

/-- A check with the link up. -/
lemma associated (h : SupervisorInvariant s log now) (hruns : s.restarted = false)
    {c : SupervisorCheck} (hpos : 0 < c.probed) (hnow : now ≤ c.probed) :
    SupervisorInvariant (s.associated c).1 (log ++ (s.associated c).2) c.probed := by
  rw [Supervisor.associated]
  set s₁ : Supervisor := { s with downSinceUs := 0, lastAttemptUs := 0, fastTried := false }
  have hsame : SameOutage s s₁ := ⟨rfl, rfl, rfl, rfl⟩
  dsimp only
  split
  · exact h.quiet hruns hsame hnow (by simp [Quiet, GatewayTally.next, Warranted, nextEvents])
  · obtain ⟨hserved, hquiet⟩ := s₁.superviseServers_quiet c
    have h₁ := h.quiet hruns (hsame.trans hserved) le_rfl hquiet
    split
    · exact h₁.later hnow
    · rename_i hruns₁
      have hruns₁ := Bool.eq_false_iff.mpr hruns₁
      rw [← List.append_assoc]
      cases c.reachable with
      | true => exact (h₁.gatewayAnswers hruns₁ c.probed).later hnow
      | false => exact h₁.gatewayUnreachable hruns₁ hpos hnow

/-- Every check keeps the invariant. -/
lemma check (h : SupervisorInvariant s log now) {c : SupervisorCheck} (hpos : 0 < c.probed)
    (hnow : now ≤ c.probed) :
    SupervisorInvariant (s.check c).1 (log ++ (s.check c).2) c.probed := by
  rw [Supervisor.check]
  split
  · rw [List.append_nil]
    exact h.later hnow
  · rename_i hruns
    have hruns := Bool.eq_false_iff.mpr hruns
    split
    · rw [List.append_cons]
      have hgone : SupervisorInvariant { s with
          downSinceUs := 0
          lastAttemptUs := 0
          fastTried := false
          unreachableSinceUs := 0
          unreachableLogged := false
          bounces := 0 } (log ++ [.noCredentials]) now := h.noCredentials hruns rfl rfl rfl rfl
      exact hgone.quiet hruns ⟨rfl, rfl, rfl, rfl⟩ hnow
        (by simp [Quiet, GatewayTally.next, Warranted, nextEvents])
    · split
      · obtain ⟨hsame, hquiet⟩ := s.associationLost_quiet c
        exact h.quiet hruns hsame hnow hquiet
      · exact h.associated hruns hpos hnow

/-- It holds over any checks whose times do not fall. -/
lemma checks (cs : List SupervisorCheck) (h : SupervisorInvariant s log now)
    (hpos : ∀ c ∈ cs, 0 < c.probed) (hrise : cs.Pairwise fun c c' => c.probed ≤ c'.probed)
    (hnow : ∀ c ∈ cs, now ≤ c.probed) :
    ∃ now', SupervisorInvariant
      (cs.foldl (fun p c => ((p.1.check c).1, p.2 ++ (p.1.check c).2)) (s, log)).1
      (cs.foldl (fun p c => ((p.1.check c).1, p.2 ++ (p.1.check c).2)) (s, log)).2 now' := by
  induction cs generalizing s log now with
  | nil => exact ⟨now, h⟩
  | cons c cs ih =>
      obtain ⟨hfirst, hrest⟩ := List.pairwise_cons.mp hrise
      exact ih (h.check (hpos c List.mem_cons_self) (hnow c List.mem_cons_self))
        (fun c' hc' => hpos c' (List.mem_cons_of_mem _ hc')) hrest hfirst

lemma start (rtc : ApiRtc) : SupervisorInvariant { rtc } [] 0 where
  order := .start
  state := fun _ => ⟨rfl, fun _ => rfl, fun _ => ⟨rfl, rfl, fun _ => rfl⟩,
    fun hopen => absurd rfl hopen, nofun, fun _ => nofun, Nat.zero_le _⟩

end SupervisorInvariant

/-- **The recovery of a gateway outage escalates in order**, and its events alternate as
long as credentials are not missing. -/
theorem gateway_outage_escalates (rtc : ApiRtc) (checks : List SupervisorCheck)
    (hpos : ∀ c ∈ checks, 0 < c.probed)
    (hrise : checks.Pairwise fun c c' => c.probed ≤ c'.probed) :
    AlternatesFrom true false (networkEvents (superviseRun rtc checks).2) ∧
      Escalates (superviseRun rtc checks).2 := by
  obtain ⟨now, hinv⟩ := (SupervisorInvariant.start rtc).checks checks hpos hrise
    fun c hc => (hpos c hc).le
  exact ⟨hinv.order.alternates, hinv.order.escalates⟩

/-- A check with the link up and servers that answer. -/
def linkedCheck (seconds : ℤ) (reachable : Bool) : SupervisorCheck where
  haveCreds := true
  state := .connected
  linkUpSeen := false
  dropDown := false
  roamInProgress := false
  credsLoaded := true
  ip := some ['1', '0', '.', '0', '.', '0', '.', '2']
  shutDown := false
  api := {
    now := seconds * 1000000
    running := true
    answers := true
    healthy := true
    httpsActive := true
    ensured := true
    prior := .none
    lastStartError := .none
    later := seconds * 1000000 }
  reachable := reachable
  now := seconds * 1000000
  probed := seconds * 1000000

/-- An outage with two bounces and the reboot. -/
theorem gateway_outage_escalates_reboot :
    let log := (superviseRun ⟨0, 0, 0⟩ [linkedCheck 15 true, linkedCheck 30 false,
      linkedCheck 120 false, linkedCheck 165 false, linkedCheck 210 false]).2
    AlternatesFrom true false (networkEvents log) ∧ Escalates log :=
  gateway_outage_escalates ⟨0, 0, 0⟩ _ (by simp [linkedCheck]) (by simp [linkedCheck])

/-- All events recorded, with one that the gateway is unreachable for `true`. -/
def recordedEvents (log : List SupervisorEffect) : List Bool :=
  log.filterMap fun e =>
    match e with
    | .recordUnreachable => some true
    | .recordRecovered _ => some false
    | _ => none

/-- Credentials removed in an outage that was recorded end it without an event, and the
next event is that the gateway is unreachable again. -/
theorem network_events_repeat : ¬ ∀ (rtc : ApiRtc) (checks : List SupervisorCheck),
    (∀ c ∈ checks, 0 < c.probed) → (checks.Pairwise fun c c' => c.probed ≤ c'.probed) →
      AlternatesFrom true false (recordedEvents (superviseRun rtc checks).2) := by
  intro h
  have halternates := h ⟨0, 0, 0⟩ [linkedCheck 15 true, linkedCheck 30 false, linkedCheck 60 false,
    { linkedCheck 75 false with haveCreds := false }, linkedCheck 90 false, linkedCheck 120 false]
    (by simp [linkedCheck]) (by simp [linkedCheck])
  have hevents : recordedEvents (superviseRun ⟨0, 0, 0⟩ [linkedCheck 15 true, linkedCheck 30 false,
      linkedCheck 60 false, { linkedCheck 75 false with haveCreds := false }, linkedCheck 90 false,
      linkedCheck 120 false]).2 = [true, true] := by decide
  rw [hevents] at halternates
  cases halternates.2.1

end ArcticController

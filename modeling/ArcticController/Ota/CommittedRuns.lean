/-
What "committed" promises about the running image, over a whole boot.

* `findsPending`, `meetsCriteria`: an evaluation that finds the image pending, and one
  that commits;
* `EvalDone`, `evalDone`: what an evaluation does;
* `firstPending`, `NetworkWasUp`, `Earned`: what a boot has to show;
* `CommitKept`, `commitKept`: the latches stand for what happened;
* `committed_iff_marks_succeed`: the status is right as long as no image is left pending
  by the call that marks it.
-/
import ArcticController.Ota.OtaCommit

namespace ArcticController

/-! ### One evaluation -/

/-- The image is looked up, and it is pending. -/
def findsPending (e : EvalOutcome) (d : OtaDevice) : Bool :=
  !d.commit.committed && (readPendingVerify e.query d.image).1

/-- The grace period for a network is over. -/
def graceOver (e : EvalOutcome) (d : OtaDevice) : Bool :=
  decide (uncommissionedGraceUs ≤ e.now - (d.commit.noteFirst e.now).firstEvalUs)

/-- The image is pending, the UI is ready, and the network was seen or is not waited
for any more. -/
def meetsCriteria (e : EvalOutcome) (d : OtaDevice) : Bool :=
  findsPending e d && d.commit.uiReady &&
    (d.commit.networkSeen || networkIsUp d.wifi || (!d.commit.commissioned && graceOver e d))

/-- The device after an evaluation. -/
structure EvalDone (e : EvalOutcome) (d d' : OtaDevice) : Prop where
  uiReady : d'.commit.uiReady = d.commit.uiReady
  wifi : d'.wifi = d.wifi
  networkSeen : d'.commit.networkSeen = (d.commit.networkSeen || networkIsUp d.wifi)
  firstEvalUs : d'.commit.firstEvalUs
    = if findsPending e d then (d.commit.noteFirst e.now).firstEvalUs else d.commit.firstEvalUs
  committed : d'.commit.committed = meetsCriteria e d
  status : d'.commit.status = .committed ↔ meetsCriteria e d = true
  image : d'.image = if meetsCriteria e d then
      otaMgrMarkValid e.query e.mark (readPendingVerify e.query d.image).2
    else (readPendingVerify e.query d.image).2

/-- The network, once it was seen, stays seen; nothing else changes but the latch. -/
lemma latchNetwork_cases (e : EvalOutcome) (d : OtaDevice) :
    ∃ commissioned latch, latchNetwork e d = { d with
      commit := { d.commit with
        networkSeen := d.commit.networkSeen || networkIsUp d.wifi, commissioned }
      latch } ∧
      ((d.commit.networkSeen || networkIsUp d.wifi) = false →
        commissioned = d.commit.commissioned) := by
  rw [latchNetwork]
  cases hseen : d.commit.networkSeen with
  | true =>
      refine ⟨d.commit.commissioned, d.latch, ?_, fun _ => rfl⟩
      simp only [Bool.not_true, Bool.false_and, Bool.true_or, Bool.false_eq_true, if_false]
      rw [← hseen]
  | false =>
      cases hup : networkIsUp d.wifi with
      | false =>
          refine ⟨d.commit.commissioned, d.latch, ?_, fun _ => rfl⟩
          simp only [Bool.not_false, Bool.and_false, Bool.or_false, Bool.false_eq_true, if_false]
          rw [← hseen]
      | true =>
          simp only [Bool.not_false, Bool.and_true, Bool.or_true, if_true, persistCommissioned]
          cases hcom : d.commit.commissioned with
          | true => exact ⟨true, d.latch, by simp [← hcom], by simp⟩
          | false => exact ⟨true, _, rfl, by simp⟩

/-- What is left of the criteria once the image was found pending. -/
def mayCommit (now : ℕ) (c : OtaCommit) : Bool :=
  c.uiReady && (c.networkSeen ||
    (!c.commissioned && decide (uncommissionedGraceUs ≤ now - (c.noteFirst now).firstEvalUs)))

/-- A pending image is committed, or the reason why not is noted. -/
lemma otaCommitPending_cases (e : EvalOutcome) (d : OtaDevice) :
    (mayCommit e.now d.commit = true ∧
      otaCommitPending e d = otaCommitNow e { d with commit := d.commit.noteFirst e.now }) ∨
    (mayCommit e.now d.commit = false ∧ ∃ status nextNagUs, status ≠ .committed ∧
      otaCommitPending e d
        = { d with commit := { d.commit.noteFirst e.now with status, nextNagUs } }) := by
  have hui : (d.commit.noteFirst e.now).uiReady = d.commit.uiReady := rfl
  have hseen : (d.commit.noteFirst e.now).networkSeen = d.commit.networkSeen := rfl
  have hcom : (d.commit.noteFirst e.now).commissioned = d.commit.commissioned := rfl
  rw [mayCommit, ← hui, ← hseen, ← hcom, otaCommitPending]
  generalize d.commit.noteFirst e.now = c
  dsimp only
  by_cases h₁ : c.uiReady = true
  · by_cases h₂ : c.networkSeen = true
    · exact .inl ⟨by simp [h₁, h₂], by simp [h₁, h₂]⟩
    · by_cases h₃ : c.commissioned = true
      · refine .inr ⟨by simp [h₂, h₃], .waitingForNetwork, ?_⟩
        by_cases hnag : e.now ≥ c.nextNagUs
        · exact ⟨e.now + nagIntervalUs, nofun, by simp [h₁, h₂, h₃, OtaDevice.waiting, hnag]⟩
        · exact ⟨c.nextNagUs, nofun, by simp [h₁, h₂, h₃, OtaDevice.waiting, hnag]⟩
      · by_cases hgrace : e.now - c.firstEvalUs < uncommissionedGraceUs
        · exact .inr ⟨by simp [h₂, h₃, hgrace], .waitingForNetworkGrace, c.nextNagUs, nofun,
            by simp [h₁, h₂, h₃, hgrace, OtaDevice.waiting]⟩
        · exact .inl ⟨by simp [h₁, h₃, Nat.not_lt.mp hgrace], by simp [h₁, h₂, h₃, hgrace]⟩
  · exact .inr ⟨by simp [h₁], .waitingForUi, c.nextNagUs, nofun, by simp [h₁, OtaDevice.waiting]⟩

/-- The criteria after the network was latched are those before it. -/
lemma meetsCriteria_eq {e : EvalOutcome} {d : OtaDevice} (hfinds : findsPending e d = true)
    {commissioned : Bool}
    (hkept : (d.commit.networkSeen || networkIsUp d.wifi) = false →
      commissioned = d.commit.commissioned) :
    meetsCriteria e d = mayCommit e.now { d.commit with
      networkSeen := d.commit.networkSeen || networkIsUp d.wifi, commissioned } := by
  rw [meetsCriteria, mayCommit, hfinds, Bool.true_and]
  cases hseen : d.commit.networkSeen || networkIsUp d.wifi with
  | true => rfl
  | false =>
      rw [hkept hseen]
      rfl

/-- An evaluation before the commit. -/
lemma evalDone (e : EvalOutcome) {d : OtaDevice} (hnot : d.commit.committed = false) :
    EvalDone e d (otaCommitEval e d) := by
  obtain ⟨commissioned, latch, hlatch, hkept⟩ := latchNetwork_cases e d
  rw [otaCommitEval, hnot, hlatch]
  simp only [Bool.false_eq_true, if_false]
  cases hread : readPendingVerify e.query d.image with
  | mk pending image =>
    cases pending with
    | false =>
        have hfinds : findsPending e d = false := by rw [findsPending, hread, Bool.and_false]
        have hmeets : meetsCriteria e d = false := by simp [meetsCriteria, hfinds]
        exact {
          uiReady := rfl, wifi := rfl, networkSeen := rfl
          firstEvalUs := by rw [hfinds]; rfl
          committed := by rw [hmeets]; exact hnot
          status := by simp [hmeets, OtaDevice.waiting]
          image := by rw [hmeets, hread]; rfl }
    | true =>
        have hfinds : findsPending e d = true := by rw [findsPending, hread, hnot]; rfl
        have hmeets := meetsCriteria_eq hfinds hkept
        dsimp only
        rcases otaCommitPending_cases e { d with
            commit := { d.commit with
              networkSeen := d.commit.networkSeen || networkIsUp d.wifi, commissioned }
            image, latch } with ⟨hmay, heq⟩ | ⟨hmay, status, nextNagUs, hstatus, heq⟩
        · rw [heq]
          exact {
            uiReady := rfl, wifi := rfl, networkSeen := rfl
            firstEvalUs := by rw [hfinds]; rfl
            committed := (hmeets.trans hmay).symm
            status := by simp [hmeets.trans hmay, otaCommitNow]
            image := by rw [hmeets.trans hmay, hread]; rfl }
        · rw [heq]
          exact {
            uiReady := rfl, wifi := rfl, networkSeen := rfl
            firstEvalUs := by rw [hfinds]; rfl
            committed := by rw [hmeets.trans hmay]; exact hnot
            status := by simp [hmeets.trans hmay, hstatus]
            image := by rw [hmeets.trans hmay, hread]; rfl }

/-! ### What a boot has to show -/

/-- The time of an evaluation that finds the image pending. -/
def pendingEval (d : OtaDevice) : OtaInput → Option ℕ
  | .eval e => if findsPending e d then some e.now else none
  | _ => none

/-- The time of the first evaluation that finds the image pending. -/
def firstPending : OtaDevice → List OtaInput → Option ℕ
  | _, [] => none
  | d, i :: inputs => (pendingEval d i).or (firstPending (d.act i) inputs)

lemma firstPending_concat (d : OtaDevice) (inputs : List OtaInput) (i : OtaInput) :
    firstPending d (inputs ++ [i]) = (firstPending d inputs).or (pendingEval (otaAfter d inputs) i) := by
  induction inputs generalizing d with
  | nil => simp [firstPending]
  | cons j inputs ih =>
      rw [List.cons_append, firstPending, firstPending, ih, Option.or_assoc]
      rfl

/-- The network was up at some time during this boot. -/
def NetworkWasUp (boot : OtaDevice) (inputs : List OtaInput) : Prop :=
  ∃ pre, pre <+: inputs ∧ networkIsUp (otaAfter boot pre).wifi = true

/-- An evaluation of a device that was not commissioned, the grace period after the
first pending one. -/
def WaitedInVain (boot : OtaDevice) (inputs : List OtaInput) : Prop :=
  ∃ pre e t, pre ++ [.eval e] <+: inputs ∧ (otaAfter boot pre).commit.commissioned = false ∧
    firstPending boot (pre ++ [.eval e]) = some t ∧ t + uncommissionedGraceUs ≤ e.now

/-- The UI was ready, and the network was up or waited for in vain. -/
def Earned (boot : OtaDevice) (inputs : List OtaInput) : Prop :=
  .uiReady ∈ inputs ∧ (NetworkWasUp boot inputs ∨ WaitedInVain boot inputs)

/-- "committed" is earned, and the image is not pending any more. -/
def CommittedRightly (boot : OtaDevice) (inputs : List OtaInput) : Prop :=
  (otaAfter boot inputs).commit.status = .committed →
    Earned boot inputs ∧ (otaAfter boot inputs).image.state ≠ .pendingVerify

/-- The evaluation tries to mark the image, and how that went. -/
def Marks (e : EvalOutcome) (d : OtaDevice) (outcome : Option EspErr) : Prop :=
  (otaCommitEval e d).image.markCalls = d.image.markCalls ++ [outcome]

/-- After a call that failed, the next evaluation marks again. -/
def RetriesMark (boot : OtaDevice) (inputs : List OtaInput) : Prop :=
  ∀ pre e mid e', inputs = pre ++ .eval e :: (mid ++ [.eval e']) →
    (∃ err, Marks e (otaAfter boot pre) (some err)) → (∀ i ∈ mid, ∀ e, i ≠ .eval e) →
    ∃ outcome, Marks e' (otaAfter boot (pre ++ .eval e :: mid)) outcome

/-- No evaluation that commits has its image left pending. -/
def MarksSucceed (boot : OtaDevice) (inputs : List OtaInput) : Prop :=
  ∀ pre e, pre ++ [.eval e] <+: inputs → meetsCriteria e (otaAfter boot pre) = true → e.mark = none

/-! ### Monotonicity -/

section Prefix

variable {boot : OtaDevice} {inputs more : List OtaInput}

lemma Earned.mono (h : Earned boot inputs) (hpre : inputs <+: more) : Earned boot more := by
  refine ⟨hpre.subset h.1, h.2.imp ?_ ?_⟩
  · rintro ⟨pre, hle, hup⟩
    exact ⟨pre, hle.trans hpre, hup⟩
  · rintro ⟨pre, e, t, hle, hcom, hfirst, hgrace⟩
    exact ⟨pre, e, t, hle.trans hpre, hcom, hfirst, hgrace⟩

lemma MarksSucceed.mono (h : MarksSucceed boot more) (hpre : inputs <+: more) :
    MarksSucceed boot inputs := fun pre e hle => h pre e (hle.trans hpre)

/-! ### The latches -/

/-- The latches stand for what happened since the start. -/
structure CommitKept (boot : OtaDevice) (inputs : List OtaInput) (d : OtaDevice) : Prop where
  uiReady : d.commit.uiReady = true → .uiReady ∈ inputs
  networkSeen : d.commit.networkSeen = true → NetworkWasUp boot inputs
  cached : d.image.pending ≠ .unknown →
    (d.image.pending = .yes ↔ d.image.state = .pendingVerify)
  unset : firstPending boot inputs = none → d.commit.firstEvalUs = 0
  first : ∀ t, firstPending boot inputs = some t → t = 0 ∨ d.commit.firstEvalUs = t
  committed : d.commit.status = .committed ↔ d.commit.committed = true

/-- Looking up the image keeps the cache right, and a pending answer is right. -/
lemma readPendingVerify_spec {o : OtaImage} (hcached : o.pending ≠ .unknown →
    (o.pending = .yes ↔ o.state = .pendingVerify)) (query : Option EspErr) :
    (readPendingVerify query o).2.state = o.state ∧
      (readPendingVerify query o).2.markCalls = o.markCalls ∧
      ((readPendingVerify query o).2.pending ≠ .unknown →
        ((readPendingVerify query o).2.pending = .yes ↔ o.state = .pendingVerify)) ∧
      ((readPendingVerify query o).1 = true →
        (readPendingVerify query o).2.pending = .yes ∧ o.state = .pendingVerify) := by
  cases hp : o.pending with
  | no =>
      have hread : readPendingVerify query o = (false, o) := by simp [readPendingVerify, hp]
      rw [hread]
      exact ⟨rfl, rfl, hcached, nofun⟩
  | yes =>
      have hread : readPendingVerify query o = (true, o) := by simp [readPendingVerify, hp]
      rw [hread]
      exact ⟨rfl, rfl, hcached, fun _ => ⟨hp, (hcached (by rw [hp]; nofun)).mp hp⟩⟩
  | unknown =>
      cases query with
      | some e =>
          have hread : readPendingVerify (some e) o = (false, o) := by simp [readPendingVerify, hp]
          rw [hread]
          exact ⟨rfl, rfl, hcached, nofun⟩
      | none =>
          have hread : readPendingVerify none o = (decide (o.state = .pendingVerify),
              { o with pending := if decide (o.state = .pendingVerify) then .yes else .no }) := by
            simp [readPendingVerify, hp]
          rw [hread]
          by_cases hstate : o.state = .pendingVerify
          · simp [hstate]
          · simp [hstate]

/-- Marking a pending image. -/
lemma otaMgrMarkValid_yes {o : OtaImage} (hyes : o.pending = .yes) (query mark : Option EspErr) :
    otaMgrMarkValid query mark o = { o with
      state := if mark = none then .valid else o.state
      pending := if mark = none then .no else .yes
      markCalls := o.markCalls ++ [mark] } := by
  have hread : readPendingVerify query o = (true, o) := by simp [readPendingVerify, hyes]
  rw [otaMgrMarkValid, hread]
  cases mark with
  | none => rfl
  | some e => simp [← hyes]

lemma otaCommitInit_eq (opening getting : Option EspErr) (latch : Option UInt8) :
    ∃ commissioned, otaCommitInit opening getting latch = { commissioned } := by
  unfold otaCommitInit
  split
  · exact ⟨_, rfl⟩
  · exact ⟨false, rfl⟩

lemma commitKept_otaBoot (state : OtaImgState) (opening getting : Option EspErr)
    (latch : Option UInt8) :
    CommitKept (otaBoot state opening getting latch) [] (otaBoot state opening getting latch) := by
  obtain ⟨commissioned, hinit⟩ := otaCommitInit_eq opening getting latch
  exact {
    uiReady := by simp [otaBoot, hinit]
    networkSeen := by simp [otaBoot, hinit]
    cached := fun h => absurd rfl h
    unset := fun _ => by simp [otaBoot, hinit]
    first := nofun
    committed := by simp [otaBoot, hinit] }

lemma NetworkWasUp.mono (h : NetworkWasUp boot inputs) (hpre : inputs <+: more) :
    NetworkWasUp boot more := by
  obtain ⟨pre, hle, hup⟩ := h
  exact ⟨pre, hle.trans hpre, hup⟩

/-- An input that is no evaluation of a pending image. -/
lemma firstPending_concat_none {i : OtaInput} (h : pendingEval (otaAfter boot inputs) i = none) :
    firstPending boot (inputs ++ [i]) = firstPending boot inputs := by
  rw [firstPending_concat, h, Option.or_none]

/-- One more evaluation keeps the latches right. -/
lemma CommitKept.eval (h : CommitKept boot inputs (otaAfter boot inputs)) (e : EvalOutcome) :
    CommitKept boot (inputs ++ [.eval e]) (otaCommitEval e (otaAfter boot inputs)) := by
  have hpre := List.prefix_append inputs [OtaInput.eval e]
  set d := otaAfter boot inputs with hd
  cases hcom : d.commit.committed with
  | true =>
      have hfirst : firstPending boot (inputs ++ [.eval e]) = firstPending boot inputs :=
        firstPending_concat_none (by rw [← hd]; simp [pendingEval, findsPending, hcom])
      have heval : otaCommitEval e d = d := by rw [otaCommitEval, hcom]; rfl
      rw [heval]
      exact {
        uiReady := fun hui => hpre.subset (h.uiReady hui)
        networkSeen := fun hseen => (h.networkSeen hseen).mono hpre
        cached := h.cached
        unset := fun hnone => h.unset (hfirst ▸ hnone)
        first := fun t ht => h.first t (hfirst ▸ ht)
        committed := h.committed }
  | false =>
      have hdone := evalDone e hcom
      obtain ⟨hstate, hcalls, hcached, hyes⟩ := readPendingVerify_spec h.cached e.query
      have hfirst : firstPending boot (inputs ++ [.eval e])
          = (firstPending boot inputs).or (if findsPending e d then some e.now else none) := by
        rw [firstPending_concat]
        rfl
      refine {
        uiReady := fun hui => hpre.subset (h.uiReady (hdone.uiReady ▸ hui))
        networkSeen := fun hseen => ?_
        cached := ?_
        unset := fun hnone => ?_
        first := fun t ht => ?_
        committed := by rw [hdone.status, hdone.committed] }
      · rw [hdone.networkSeen, Bool.or_eq_true] at hseen
        rcases hseen with hseen | hup
        · exact (h.networkSeen hseen).mono hpre
        · exact ⟨inputs, hpre, hup⟩
      · rw [hdone.image]
        cases hmeets : meetsCriteria e d with
        | false =>
            intro hne
            exact (hcached hne).trans (by rw [if_neg Bool.false_ne_true, hstate])
        | true =>
            have hfinds : findsPending e d = true := by
              simp only [meetsCriteria, Bool.and_eq_true] at hmeets
              exact hmeets.1.1
            rw [findsPending, Bool.and_eq_true] at hfinds
            obtain ⟨hpending, hpv⟩ := hyes hfinds.2
            rw [if_pos rfl, otaMgrMarkValid_yes hpending]
            intro _
            by_cases hmark : e.mark = none
            · simp [hmark]
            · simp [hmark, hstate, hpv]
      · rw [hfirst, Option.or_eq_none_iff] at hnone
        have hfinds : findsPending e d = false := by
          by_contra hne
          simp [hne] at hnone
        rw [hdone.firstEvalUs, hfinds]
        exact h.unset hnone.1
      · rw [hfirst] at ht
        rw [hdone.firstEvalUs]
        cases hold : firstPending boot inputs with
        | some t' =>
            rw [hold, Option.some_or, Option.some.injEq] at ht
            rcases h.first t' hold with h0 | hset
            · exact .inl (ht ▸ h0)
            · by_cases h0 : t' = 0
              · exact .inl (ht ▸ h0)
              · subst ht
                exact .inr (by simp [OtaCommit.noteFirst, hset, h0])
        | none =>
            rw [hold, Option.none_or] at ht
            cases hfinds : findsPending e d with
            | false => simp [hfinds] at ht
            | true =>
                rw [hfinds, if_pos rfl, Option.some.injEq] at ht
                refine .inr ?_
                simp [OtaCommit.noteFirst, h.unset hold, ht]

/-- The latches stand for what happened in every boot. -/
lemma commitKept (h : CommitKept boot [] boot) (inputs : List OtaInput) :
    CommitKept boot inputs (otaAfter boot inputs) := by
  induction inputs using List.reverseRecOn with
  | nil => exact h
  | append_singleton inputs i ih =>
      have hpre := List.prefix_append inputs [i]
      rw [otaAfter_concat]
      cases i with
      | eval e => exact ih.eval e
      | uiReady =>
          have hfirst := @firstPending_concat_none boot inputs .uiReady rfl
          exact {
            uiReady := fun _ => List.mem_append_right _ List.mem_cons_self
            networkSeen := fun hseen => (ih.networkSeen hseen).mono hpre
            cached := ih.cached
            unset := fun hnone => ih.unset (hfirst ▸ hnone)
            first := fun t ht => ih.first t (hfirst ▸ ht)
            committed := ih.committed }
      | wifi w =>
          have hfirst := @firstPending_concat_none boot inputs (.wifi w) rfl
          exact {
            uiReady := fun hui => hpre.subset (ih.uiReady hui)
            networkSeen := fun hseen => (ih.networkSeen hseen).mono hpre
            cached := ih.cached
            unset := fun hnone => ih.unset (hfirst ▸ hnone)
            first := fun t ht => ih.first t (hfirst ▸ ht)
            committed := ih.committed }
      | isPendingVerify query =>
          have hfirst := @firstPending_concat_none boot inputs (.isPendingVerify query) rfl
          obtain ⟨hstate, -, hcached, -⟩ := readPendingVerify_spec ih.cached query
          exact {
            uiReady := fun hui => hpre.subset (ih.uiReady hui)
            networkSeen := fun hseen => (ih.networkSeen hseen).mono hpre
            cached := fun hne => (hcached hne).trans (by rw [OtaDevice.act, hstate])
            unset := fun hnone => ih.unset (hfirst ▸ hnone)
            first := fun t ht => ih.first t (hfirst ▸ ht)
            committed := ih.committed }

/-! ### The status -/

/-- An evaluation that commits has earned it. -/
lemma CommitKept.earned (h : CommitKept boot inputs (otaAfter boot inputs)) {e : EvalOutcome}
    (hmeets : meetsCriteria e (otaAfter boot inputs) = true) : Earned boot (inputs ++ [.eval e]) := by
  have hpre := List.prefix_append inputs [OtaInput.eval e]
  simp only [meetsCriteria, Bool.and_eq_true, Bool.or_eq_true, Bool.not_eq_true'] at hmeets
  obtain ⟨⟨hfinds, hui⟩, hnetwork⟩ := hmeets
  refine ⟨hpre.subset (h.uiReady hui), ?_⟩
  rcases hnetwork with (hseen | hup) | ⟨hcom, hgrace⟩
  · exact .inl ((h.networkSeen hseen).mono hpre)
  · exact .inl ⟨inputs, hpre, hup⟩
  · refine .inr ⟨inputs, e, ?_⟩
    rw [graceOver, decide_eq_true_iff, OtaCommit.noteFirst] at hgrace
    dsimp only at hgrace
    have hpos : 0 < uncommissionedGraceUs := by decide
    have hfirst : firstPending boot (inputs ++ [.eval e])
        = (firstPending boot inputs).or (some e.now) := by
      rw [firstPending_concat, pendingEval, if_pos hfinds]
    cases hold : firstPending boot inputs with
    | none =>
        rw [h.unset hold, if_pos rfl] at hgrace
        omega
    | some t =>
        refine ⟨t, List.prefix_rfl, hcom, by rw [hfirst, hold, Option.some_or], ?_⟩
        rcases h.first t hold with h0 | hset
        · omega
        · by_cases h0 : t = 0
          · omega
          · rw [hset, if_neg h0] at hgrace
            omega

/-- The image stays marked, and what was earned stays earned. -/
lemma committedRightly_of_marksSucceed (h : CommitKept boot [] boot)
    (hboot : boot.commit.committed = false) (hmarks : MarksSucceed boot inputs) : CommittedRightly boot inputs := by
  induction inputs using List.reverseRecOn with
  | nil =>
      intro hstatus
      exact absurd (h.committed.mp hstatus) (by rw [hboot]; exact Bool.false_ne_true)
  | append_singleton inputs i ih =>
      have hpre := List.prefix_append inputs [i]
      have hkept := commitKept h inputs
      have hright := ih (hmarks.mono hpre)
      intro hstatus
      rw [otaAfter_concat] at hstatus ⊢
      cases i with
      | uiReady => exact ⟨(hright hstatus).1.mono hpre, (hright hstatus).2⟩
      | wifi w => exact ⟨(hright hstatus).1.mono hpre, (hright hstatus).2⟩
      | isPendingVerify query =>
          obtain ⟨hstate, -⟩ := readPendingVerify_spec hkept.cached query
          refine ⟨(hright hstatus).1.mono hpre, ?_⟩
          rw [OtaDevice.act, hstate]
          exact (hright hstatus).2
      | eval e =>
          rw [OtaDevice.act] at hstatus ⊢
          cases hcom : (otaAfter boot inputs).commit.committed with
          | true =>
              have heval : otaCommitEval e (otaAfter boot inputs) = otaAfter boot inputs := by
                rw [otaCommitEval, hcom]
                rfl
              rw [heval] at hstatus ⊢
              exact ⟨(hright hstatus).1.mono hpre, (hright hstatus).2⟩
          | false =>
              have hdone := evalDone e hcom
              have hmeets := hdone.status.mp hstatus
              have hmark := hmarks inputs e List.prefix_rfl hmeets
              have hfinds : findsPending e (otaAfter boot inputs) = true := by
                simp only [meetsCriteria, Bool.and_eq_true] at hmeets
                exact hmeets.1.1
              rw [findsPending, Bool.and_eq_true] at hfinds
              obtain ⟨-, -, -, hyes⟩ := readPendingVerify_spec hkept.cached e.query
              refine ⟨hkept.earned hmeets, ?_⟩
              rw [hdone.image, if_pos hmeets, otaMgrMarkValid_yes (hyes hfinds.2).1, hmark]
              simp

/-- A call that fails comes from an evaluation that commits. -/
lemma Marks.outcome {d : OtaDevice} {inputs : List OtaInput} (h : CommitKept boot inputs d)
    {e : EvalOutcome} {outcome : Option EspErr} (hmarks : Marks e d outcome) :
    meetsCriteria e d = true ∧ e.mark = outcome := by
  rw [Marks] at hmarks
  have hlonger : ∀ l : List (Option EspErr), l ≠ l ++ [outcome] := fun l heq => by
    have := congrArg List.length heq
    simp at this
  cases hcom : d.commit.committed with
  | true =>
      have heval : otaCommitEval e d = d := by
        rw [otaCommitEval, hcom]
        rfl
      rw [heval] at hmarks
      exact absurd hmarks (hlonger _)
  | false =>
      obtain ⟨-, hcalls, -, hyes⟩ := readPendingVerify_spec h.cached e.query
      have hdone := evalDone e hcom
      rw [hdone.image] at hmarks
      cases hmeets : meetsCriteria e d with
      | false =>
          rw [hmeets, if_neg Bool.false_ne_true, hcalls] at hmarks
          exact absurd hmarks (hlonger _)
      | true =>
          have hfinds : findsPending e d = true := by
            simp only [meetsCriteria, Bool.and_eq_true] at hmeets
            exact hmeets.1.1
          rw [findsPending, Bool.and_eq_true] at hfinds
          rw [hmeets, if_pos rfl, otaMgrMarkValid_yes (hyes hfinds.2).1] at hmarks
          dsimp only at hmarks
          rw [hcalls] at hmarks
          exact ⟨rfl, List.singleton_inj.mp (List.append_cancel_left hmarks)⟩

end Prefix

/-- **"committed" is right as long as no image is left pending.** Throughout a boot the
status is "committed" only when that was earned and the image is not pending any more,
and a failed call is made again, if and only if no call that marks the image fails. -/
theorem committed_iff_marks_succeed (state : OtaImgState) (opening getting : Option EspErr)
    (latch : Option UInt8) (inputs : List OtaInput) :
    (∀ pre, pre <+: inputs → CommittedRightly (otaBoot state opening getting latch) pre ∧
      RetriesMark (otaBoot state opening getting latch) pre) ↔
    MarksSucceed (otaBoot state opening getting latch) inputs := by
  have hboot := commitKept_otaBoot state opening getting latch
  have hnot : (otaBoot state opening getting latch).commit.committed = false := by
    obtain ⟨commissioned, hinit⟩ := otaCommitInit_eq opening getting latch
    simp [otaBoot, hinit]
  generalize otaBoot state opening getting latch = boot at *
  constructor
  · intro hall pre e hpre hmeets
    by_contra hfailed
    have hkept := commitKept hboot pre
    obtain ⟨hright, -⟩ := hall _ hpre
    have hfinds : findsPending e (otaAfter boot pre) = true := by
      simp only [meetsCriteria, Bool.and_eq_true] at hmeets
      exact hmeets.1.1
    rw [findsPending, Bool.and_eq_true, Bool.not_eq_true'] at hfinds
    have hdone := evalDone e hfinds.1
    obtain ⟨hstate, -, -, hyes⟩ := readPendingVerify_spec hkept.cached e.query
    obtain ⟨hcached, hpending⟩ := hyes hfinds.2
    rw [CommittedRightly, otaAfter_concat] at hright
    refine (hright (hdone.status.mpr hmeets)).2 ?_
    rw [OtaDevice.act, hdone.image, if_pos hmeets, otaMgrMarkValid_yes hcached, if_neg hfailed]
    exact hstate.trans hpending
  · intro hmarks pre hpre
    refine ⟨committedRightly_of_marksSucceed hboot hnot (hmarks.mono hpre), ?_⟩
    rintro before e mid e' rfl ⟨err, hfailed⟩ -
    obtain ⟨hmeets, hmark⟩ := hfailed.outcome (commitKept hboot before)
    have hnone := hmarks before e
      ((List.prefix_append (before ++ [.eval e]) (mid ++ [.eval e'])).trans (by simpa using hpre)) hmeets
    rw [hmark] at hnone
    cases hnone

/-- The call that marks the image fails: "committed" is shown for an image that is still
pending, and the next evaluation does not try again. -/
theorem committed_though_pending :
    ¬ ∀ state opening getting latch inputs,
      CommittedRightly (otaBoot state opening getting latch) inputs ∧
        RetriesMark (otaBoot state opening getting latch) inputs := by
  intro hall
  have hright := (hall .pendingVerify none none none
    [.uiReady, .wifi { state := .connected, currentIp := ['1', '0', '.', '0', '.', '0', '.', '2'] },
      .eval { now := 9000000, mark := some .fail }]).1
  exact (hright (by decide)).2 (by decide)

end ArcticController

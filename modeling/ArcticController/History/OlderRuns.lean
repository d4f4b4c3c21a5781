/-
The last run settled from older samples is that of one pass, but for three cases at the start of
the window.

* `TrailingRun`, `Began`: where the run in progress began among the samples;
* `BeforeWindow`: the pass at the end of the older samples;
* `idle_tails`, `running_tails`: what the window's further samples leave of two passes;
* `StartUnseen`, `AtClockEnd`, `EndUnpatched`, `MergeSettles`: when the merge knows the last run;
* `merge_older_exact`: exactly then it is that of one pass.
-/
import ArcticController.History.HomeRuns

namespace ArcticController

/-! ### The run in progress -/

/-- The run began at `s`, after a gap, a stopped sample or none, and all samples since run. -/
structure TrailingRun (before : List TelemetrySample) (s : TelemetrySample)
    (since : List TelemetrySample) (run : HomeRun) : Prop where
  start : run.start = s.timestamp
  mode : run.mode = s.mode
  running : ∀ d ∈ s :: since, isRunning d
  together : ∀ a b, Adjacent (s :: since) a b → ¬ GapBetween a b
  begins : ∀ p, before.getLast? = some p → GapBetween p s ∨ ¬ isRunning p

/-- The run in progress began somewhere among the samples. -/
def Began (done : List TelemetrySample) (c : HomeScan) : Prop :=
  c.isOpen → ∃ before s since, done = before ++ s :: since ∧ TrailingRun before s since c.opened

/-- All samples are one run that began at time 0. -/
def OneRunFromZero (samples : List TelemetrySample) : Prop :=
  (∀ s ∈ samples, isRunning s) ∧ (∀ a b, Adjacent samples a b → ¬ GapBetween a b) ∧
    ∃ first, samples.head? = some first ∧ first.timestamp = 0

section Began

variable {done before since : List TelemetrySample} {c c' : HomeScan} {s d : TelemetrySample}
  {run : HomeRun} {cap : ℕ} {now : UInt32}

lemma gap_eq_decide {p : TelemetrySample} (h : c.prev = some p) :
    c.gap s = decide (GapBetween p s) := by
  rw [HomeScan.gap, h]
  rfl

lemma TrailingRun.goOn (h : TrailingRun before s since run) {last : TelemetrySample}
    (hlast : (s :: since).getLast? = some last) (hd : isRunning d) (hgap : ¬ GapBetween last d) :
    TrailingRun before s (since ++ [d]) run where
  start := h.start
  mode := h.mode
  running x hx := by
    rw [← List.cons_append] at hx
    rcases List.mem_append.mp hx with hx | hx
    · exact h.running x hx
    · rw [List.mem_singleton.mp hx]
      exact hd
  together a b hab := by
    rw [← List.cons_append] at hab
    rcases adjacent_concat.mp hab with hab | ⟨hlast', rfl⟩
    · exact h.together a b hab
    · rw [hlast] at hlast'
      obtain rfl := Option.some.inj hlast'
      exact hgap
  begins := h.begins

lemma TrailingRun.begin (hs : isRunning s) (hstart : run.start = s.timestamp)
    (hmode : run.mode = s.mode)
    (hbegins : ∀ p, before.getLast? = some p → GapBetween p s ∨ ¬ isRunning p) :
    TrailingRun before s [] run where
  start := hstart
  mode := hmode
  running d hd := by
    rw [List.mem_singleton.mp hd]
    exact hs
  together a b hab := by
    have hlength := hab.length_le
    simp only [List.length_cons, List.length_nil] at hlength
    omega
  begins := hbegins

/-- **The step lemma**: one more sample. -/
lemma Began.step (h : Began done c) (hscanned : Scanned done c) :
    Began (done ++ [s]) (c.step cap now s) := by
  have hstepped := HomeScan.step_stepped cap now c s
  generalize c.step cap now s = c' at hstepped
  intro hopen'
  have hs : isRunning s := hstepped.isOpen ▸ hopen'
  rw [hstepped.opened hs, HomeScan.following]
  by_cases hgoes : c.isOpen ∧ ¬ c.gap s
  · -- the run goes on
    rw [if_pos hgoes]
    obtain ⟨before, first, since, rfl, htrailing⟩ := h hgoes.1
    obtain ⟨last, hlast⟩ := hscanned.last_of_open hgoes.1
    have hgap : ¬ GapBetween last s := fun hg =>
      hgoes.2 ((gap_eq_decide (hscanned.prev.trans hlast)).trans (decide_eq_true hg))
    have htail : (first :: since).getLast? = some last := by
      rw [List.getLast?_append_of_ne_nil _ (List.cons_ne_nil _ _)] at hlast
      exact hlast
    exact ⟨before, first, since ++ [s], by simp, htrailing.goOn htail hs hgap⟩
  · -- a run begins
    rw [if_neg hgoes]
    refine ⟨done, s, [], rfl, TrailingRun.begin hs rfl rfl fun p hp => ?_⟩
    by_cases hgap : GapBetween p s
    · exact .inl hgap
    · refine .inr fun hr => hgoes ⟨?_, fun hg => hgap ?_⟩
      · rw [hscanned.isOpen, hp]
        exact hr
      · exact of_decide_eq_true ((gap_eq_decide (hscanned.prev.trans hp)).symm.trans hg)

/-- **The run lemma**: any more samples. -/
lemma Began.scan : ∀ (rest : List TelemetrySample) {done : List TelemetrySample} {c : HomeScan},
    Began done c → Scanned done c → TimestampsRise (done ++ rest) → (done ++ rest).length ≤ cap →
    Began (done ++ rest) (c.scan cap now rest) := by
  intro rest
  induction rest with
  | nil =>
      intro done c h _ _ _
      rw [List.append_nil]
      exact h
  | cons s rest ih =>
      intro done c h hscanned hrise hcap
      have hsplit : done ++ s :: rest = (done ++ [s]) ++ rest := by simp
      rw [hsplit] at hrise hcap ⊢
      have hlt : done.length < cap := by
        simp only [List.length_append, List.length_cons, List.length_nil] at hcap
        omega
      exact ih (h.step hscanned) (hscanned.step (List.pairwise_append.mp hrise).1 hlt) hrise hcap

lemma TrailingRun.known_mode (h : TrailingRun before s since run) : run.mode ≠ 0 := by
  have hr := h.running s List.mem_cons_self
  rw [isRunning, Bool.and_eq_true] at hr
  rw [h.mode]
  exact ne_of_beq_false (Bool.not_eq_true' _ ▸ hr.2)

/-- The trailing run began at time 0 exactly if all samples are in it. -/
lemma TrailingRun.start_zero_iff (h : TrailingRun before s since run)
    (hrise : TimestampsRise (before ++ s :: since)) :
    run.start = 0 ↔ OneRunFromZero (before ++ s :: since) := by
  rw [h.start]
  constructor
  · intro hzero
    have hnil : before = [] := by
      refine List.eq_nil_iff_forall_not_mem.mpr fun d hd => ?_
      have hlt := (List.pairwise_append.mp hrise).2.2 d hd s List.mem_cons_self
      rw [hzero] at hlt
      exact UInt32.not_lt_zero hlt
    rw [hnil]
    exact ⟨h.running, h.together, s, rfl, hzero⟩
  · rintro ⟨hrunning, htogether, first, hfirst, hzero⟩
    cases hp : before.getLast? with
    | none =>
        rw [List.getLast?_eq_none_iff.mp hp] at hfirst
        rw [Option.some.inj hfirst]
        exact hzero
    | some p =>
        obtain ⟨pre, rfl⟩ := List.getLast?_eq_some_iff.mp hp
        rcases h.begins p hp with hgap | hnot
        · exact absurd hgap (htogether p s ⟨pre, since, by simp⟩)
        · exact absurd (hrunning p (by simp)) hnot

end Began

/-! ### The end of the older samples -/

/-- The pass at the end of the older samples, the last of which is `tail`. -/
structure BeforeWindow (older : List TelemetrySample) (tail : TelemetrySample) (c : HomeScan) :
    Prop where
  prev : c.prev = some tail
  isOpen : c.isOpen = isRunning tail
  fresh : c.isOpen → ¬ (c.sum.last.start = c.opened.start ∧ c.sum.last.mode = c.opened.mode)
  zero : c.isOpen → (c.opened.start = 0 ↔ OneRunFromZero older)

section BeforeWindow

variable {older : List TelemetrySample} {tail : TelemetrySample} {c c' : HomeScan} {cap : ℕ}
  {now : UInt32}

lemma BeforeWindow.congr (h : BeforeWindow older tail c) (hsame : SameRuns c' c) :
    BeforeWindow older tail c' where
  prev := hsame.prev.trans h.prev
  isOpen := hsame.isOpen.trans h.isOpen
  fresh hopen := by
    rw [hsame.isOpen] at hopen
    rw [hsame.last, hsame.opened hopen]
    exact h.fresh hopen
  zero hopen := by
    rw [hsame.isOpen] at hopen
    rw [hsame.opened hopen]
    exact h.zero hopen

/-- The last ended run is not the one in progress. -/
lemma Scanned.last_ne_opened (h : Scanned older c) (hbegan : Began older c) (hopen : c.isOpen) :
    ¬ (c.sum.last.start = c.opened.start ∧ c.sum.last.mode = c.opened.mode) := by
  rintro ⟨hstart, hmode⟩
  have horder := h.runsOf.order
  rw [HomeScan.runs, if_pos hopen] at horder
  cases hlast : c.out.getLast? with
  | none =>
      obtain ⟨before, s, since, -, htrailing⟩ := hbegan hopen
      rw [h.last, hlast] at hmode
      exact htrailing.known_mode hmode.symm
  | some run =>
      have hmem := List.mem_of_getLast? hlast
      have hbefore := (List.pairwise_append.mp horder).2.2 run hmem c.opened List.mem_cons_self
      have hlt := UInt32.lt_of_lt_of_le (h.ended run hmem).1 hbefore.2
      rw [h.last, hlast] at hstart
      exact UInt32.lt_irrefl _ (hstart ▸ hlt)

/-- The pass over the older samples gets there. -/
lemma beforeWindow_scan (cap : ℕ) (now : UInt32) (hrise : TimestampsRise older)
    (htail : older.getLast? = some tail) :
    BeforeWindow older tail (HomeScan.scan cap now {} older) := by
  have hstart : Began [] {} := nofun
  have hscanned : Scanned older (HomeScan.scan older.length now {} older) :=
    scanned_start.scan older hrise le_rfl
  have hbegan : Began older (HomeScan.scan older.length now {} older) :=
    hstart.scan older scanned_start hrise le_rfl
  have hsame : SameRuns (HomeScan.scan cap now {} older)
      (HomeScan.scan older.length now {} older) :=
    SameRuns.scan older ⟨rfl, rfl, fun _ => rfl, rfl, rfl⟩
  refine BeforeWindow.congr ⟨hscanned.prev.trans htail, ?_, hscanned.last_ne_opened hbegan,
    fun hopen => ?_⟩ hsame
  · rw [hscanned.isOpen, htail]
    rfl
  · obtain ⟨before, s, since, heq, htrailing⟩ := hbegan hopen
    have hiff := htrailing.start_zero_iff (heq ▸ hrise)
    rw [← heq] at hiff
    exact hiff

end BeforeWindow

/-! ### The further samples of the window -/

/-- The pass over the samples and its end. -/
def HomeScan.after (cap : ℕ) (now : UInt32) (c : HomeScan) (samples : List TelemetrySample) :
    HomeScan :=
  (c.scan cap now samples).finish cap now

section Tails

variable {cap cap' : ℕ} {now : UInt32} {c d : HomeScan} {s p : TelemetrySample}
  {rest : List TelemetrySample}

lemma after_cons : c.after cap now (s :: rest) = (c.step cap now s).after cap now rest := rfl

/-- Both passes show the same last run, of these samples alone. -/
def NewerRun (samples : List TelemetrySample) (c d : HomeScan) : Prop :=
  c.sum.last = d.sum.last ∧ ∃ s ∈ samples, d.sum.last.start = s.timestamp

lemma NewerRun.cons (h : NewerRun rest c d) : NewerRun (s :: rest) c d := by
  obtain ⟨hlast, x, hx, hstart⟩ := h
  exact ⟨hlast, x, List.mem_cons_of_mem _ hx, hstart⟩

/-- What further samples leave of two passes in no run: a newer run in both, or the last runs they
had. -/
def IdleLeft (rest : List TelemetrySample) (c d c' d' : HomeScan) : Prop :=
  NewerRun rest c' d' ∨ (c'.sum.last = c.sum.last ∧ d'.sum.last = d.sum.last)

/-- What further samples leave of two passes in a run each: a newer run in both, the two runs with
the same end, or the run still in progress. -/
def RunningLeft (rest : List TelemetrySample) (c d c' d' : HomeScan) : Prop :=
  NewerRun rest c' d' ∨
    (∃ e, c'.sum.last = { c.opened with endS := e } ∧ d'.sum.last = { d.opened with endS := e }) ∨
    (d'.sum.current = { d.opened with endS := 0 } ∧ c'.sum.last = c.sum.last ∧
      d'.sum.last = d.sum.last)

lemma HomeScan.following_fresh (h : ¬ (c.isOpen ∧ ¬ c.gap s)) :
    c.following s = { start := s.timestamp, mode := s.mode, seenStart := c.startSeen s } :=
  if_neg h

/-- A run that both passes begin at `s` is newer than all they had. -/
lemma RunningLeft.begun {c' d' : HomeScan} (h : RunningLeft rest c d c' d')
    (heq : c.opened = d.opened) (hstart : d.opened.start = s.timestamp) :
    IdleLeft (s :: rest) c d c' d' := by
  rcases h with hnewer | ⟨e, hc, hd⟩ | ⟨-, hkept⟩
  · exact .inl hnewer.cons
  · refine .inl ⟨?_, s, List.mem_cons_self, ?_⟩
    · rw [hc, hd, heq]
    · rw [hd]
      exact hstart
  · exact .inr hkept

/-- After a sample that goes on with no run. -/
lemma idleLeft_fresh {c₁ d₁ c' d' : HomeScan} (hprev : c.prev = d.prev)
    (hc : c.Stepped cap s c₁) (hd : d.Stepped cap' s d₁)
    (hcfresh : isRunning s → ¬ (c.isOpen ∧ ¬ c.gap s))
    (hdfresh : isRunning s → ¬ (d.isOpen ∧ ¬ d.gap s))
    (hidle : ¬ isRunning s → IdleLeft rest c₁ d₁ c' d')
    (hrunning : isRunning s → RunningLeft rest c₁ d₁ c' d') : IdleLeft (s :: rest) c₁ d₁ c' d' := by
  by_cases hs : isRunning s
  · have hcopened := (hc.opened hs).trans (HomeScan.following_fresh (hcfresh hs))
    have hdopened := (hd.opened hs).trans (HomeScan.following_fresh (hdfresh hs))
    refine (hrunning hs).begun ?_ ?_
    · rw [hcopened, hdopened, startSeen_congr hprev]
    · rw [hdopened]
  · rcases hidle hs with hnewer | hkept
    · exact .inl hnewer.cons
    · exact .inr hkept

/-- The further samples, of two passes with the same sample behind them. -/
lemma tails (cap cap' : ℕ) (now : UInt32) :
    ∀ (rest : List TelemetrySample) (c d : HomeScan), c.prev = d.prev →
    (¬ c.isOpen → ¬ d.isOpen →
      IdleLeft rest c d (c.after cap now rest) (d.after cap' now rest)) ∧
    (c.isOpen → d.isOpen → ∀ p, d.prev = some p →
      RunningLeft rest c d (c.after cap now rest) (d.after cap' now rest)) := by
  intro rest
  induction rest with
  | nil =>
      intro c d hprev
      constructor
      · intro hc hd
        refine .inr ⟨?_, ?_⟩
        · exact congrArg (fun c : HomeScan => c.sum.last) (HomeScan.finish_idle hc)
        · exact congrArg (fun d : HomeScan => d.sum.last) (HomeScan.finish_idle hd)
      · intro hc hd p hp
        show RunningLeft [] c d (c.finish cap now) (d.finish cap' now)
        by_cases hrecent : HomeScan.Recent now p
        · rw [HomeScan.finish_recent (hprev.trans hp) hc hrecent,
            HomeScan.finish_recent hp hd hrecent]
          exact .inr (.inr ⟨rfl, rfl, rfl⟩)
        · rw [HomeScan.finish_stale (hprev.trans hp) hc hrecent,
            HomeScan.finish_stale hp hd hrecent]
          exact .inr (.inl ⟨_, rfl, rfl⟩)
  | cons s rest ih =>
      intro c d hprev
      rw [after_cons, after_cons]
      have hcs := HomeScan.step_stepped cap now c s
      have hds := HomeScan.step_stepped cap' now d s
      obtain ⟨hidle, hrunning⟩ := ih (c.step cap now s) (d.step cap' now s)
        (hcs.prev.trans hds.prev.symm)
      generalize c.step cap now s = c₁, d.step cap' now s = d₁ at *
      have hidle' : ¬ isRunning s →
          IdleLeft rest c₁ d₁ (c₁.after cap now rest) (d₁.after cap' now rest) := fun hs =>
        hidle (fun h => hs (hcs.isOpen ▸ h)) (fun h => hs (hds.isOpen ▸ h))
      have hrunning' : isRunning s →
          RunningLeft rest c₁ d₁ (c₁.after cap now rest) (d₁.after cap' now rest) := fun hs =>
        hrunning (hcs.isOpen.trans hs) (hds.isOpen.trans hs) s hds.prev
      constructor
      · -- no run to go on with
        intro hc hd
        have hnone : c.closing s = none := if_neg fun h => hc h.1
        have hnone' : d.closing s = none := if_neg fun h => hd h.1
        have hlast := hcs.last
        have hlast' := hds.last
        rw [hnone] at hlast
        rw [hnone'] at hlast'
        have hfresh := idleLeft_fresh hprev hcs hds (fun _ h => hc h.1) (fun _ h => hd h.1) hidle'
          hrunning'
        rw [IdleLeft, hlast, hlast'] at hfresh
        exact hfresh
      · intro hc hd p hp
        have hgap : c.gap s = d.gap s := gap_congr hprev s
        by_cases hgoes : ¬ d.gap s ∧ isRunning s
        · -- both runs go on
          have hnone : c.closing s = none := if_neg fun h => h.2.elim
            (fun hg => hgoes.1 (hgap ▸ hg)) fun hn => hn hgoes.2
          have hnone' : d.closing s = none := if_neg fun h => h.2.elim
            (fun hg => hgoes.1 hg) fun hn => hn hgoes.2
          have hlast := hcs.last
          have hlast' := hds.last
          rw [hnone] at hlast
          rw [hnone'] at hlast'
          have hopened := (hcs.opened hgoes.2).trans (if_pos ⟨hc, hgap ▸ hgoes.1⟩)
          have hopened' := (hds.opened hgoes.2).trans (if_pos ⟨hd, hgoes.1⟩)
          have hleft := hrunning' hgoes.2
          rw [RunningLeft, hlast, hlast', hopened, hopened'] at hleft
          rcases hleft with hnewer | hends
          · exact .inl hnewer.cons
          · exact .inr hends
        · -- both runs end
          have hcloses : d.gap s ∨ ¬ isRunning s := by
            by_cases hg : d.gap s
            · exact .inl hg
            · exact .inr fun hr => hgoes ⟨hg, hr⟩
          have hsome : c.closing s = some { c.opened with endS := c.closingTime s } :=
            if_pos ⟨hc, hgap ▸ hcloses⟩
          have hsome' : d.closing s = some { d.opened with endS := d.closingTime s } :=
            if_pos ⟨hd, hcloses⟩
          have hlast := hcs.last
          have hlast' := hds.last
          rw [hsome, closingTime_congr hprev] at hlast
          rw [hsome'] at hlast'
          have hover : isRunning s → ¬ (d.isOpen ∧ ¬ d.gap s) := fun hr h =>
            hgoes ⟨h.2, hr⟩
          have hfresh := idleLeft_fresh hprev hcs hds
            (fun hr h => hover hr ⟨hd, hgap ▸ h.2⟩) hover hidle' hrunning'
          rcases hfresh with hnewer | ⟨hkept, hkept'⟩
          · exact .inl hnewer
          · exact .inr (.inl ⟨_, hkept.trans hlast, hkept'.trans hlast'⟩)

end Tails

/-! ### When the merge knows the last run -/

/-- The window's first run starts right after a stopped sample that only the older ones have. -/
def StartUnseen (tail first : TelemetrySample) : Prop :=
  isRunning first ∧ ¬ isRunning tail ∧ ¬ GapBetween tail first

/-- The older samples end in a run so late on the clock that it seems still in progress. -/
def AtClockEnd (tail : TelemetrySample) : Prop :=
  isRunning tail ∧ HomeScan.Recent 0xFFFFFFFF tail

/-- The older samples' only run began at time 0, and stopped at the window's first sample other
than one interval later. -/
def EndUnpatched (older : List TelemetrySample) (tail first : TelemetrySample) : Prop :=
  ¬ isRunning first ∧ isRunning tail ∧ ¬ GapBetween tail first ∧ OneRunFromZero older ∧
    first.timestamp ≠ tail.timestamp + telemetrySampleIntervalSec

/-- None of the three holds at the start of the window. -/
def MergeSettles (older window : List TelemetrySample) : Prop :=
  ∀ tail, older.getLast? = some tail → ¬ AtClockEnd tail ∧
    ∀ first, window.head? = some first →
      ¬ StartUnseen tail first ∧ ¬ EndUnpatched older tail first

section Merge

variable {older window rest : List TelemetrySample} {tail first : TelemetrySample}
  {c : HomeScan} {sum : HomeRunSummary} {cap cap' : ℕ} {now : UInt32}

lemma mergeSettles_iff (htail : older.getLast? = some tail) :
    MergeSettles older window ↔ ¬ AtClockEnd tail ∧ ∀ first, window.head? = some first →
      ¬ StartUnseen tail first ∧ ¬ EndUnpatched older tail first := by
  constructor
  · exact fun h => h tail htail
  · intro h tail' htail'
    rw [htail] at htail'
    obtain rfl := Option.some.inj htail'
    exact h

lemma sameRuns_scan (samples : List TelemetrySample) (cap cap' : ℕ) (now now' : UInt32) :
    SameRuns (HomeScan.scan cap now {} samples) (HomeScan.scan cap' now' {} samples) :=
  SameRuns.scan samples ⟨rfl, rfl, fun _ => rfl, rfl, rfl⟩

/-- What the older samples' summary shows as last run. -/
structure OlderLast (older : List TelemetrySample) (tail : TelemetrySample) (c : HomeScan) : Prop where
  state : BeforeWindow older tail c
  ended : isRunning tail → ¬ AtClockEnd tail → (olderSummary older).last =
    { c.opened with endS := tail.timestamp + telemetrySampleIntervalSec }
  kept : ¬ isRunning tail ∨ AtClockEnd tail → (olderSummary older).last = c.sum.last

lemma olderLast_scan (cap : ℕ) (now : UInt32) (hrise : TimestampsRise older)
    (htail : older.getLast? = some tail) :
    OlderLast older tail (HomeScan.scan cap now {} older) := by
  have hstate := beforeWindow_scan cap now hrise htail
  have hown := beforeWindow_scan 0 0xFFFFFFFF hrise htail
  have hsame := sameRuns_scan older 0 cap 0xFFFFFFFF now
  have hsum : olderSummary older
      = ((HomeScan.scan 0 0xFFFFFFFF {} older).finish 0 0xFFFFFFFF).sum := rfl
  refine ⟨hstate, fun hr hat => ?_, fun h => ?_⟩
  · rw [hsum, HomeScan.finish_stale hown.prev (hown.isOpen.trans hr) fun h => hat ⟨hr, h⟩,
      hsame.opened (hstate.isOpen.trans hr)]
  · rw [hsum, ← hsame.last]
    rcases h with hnot | hat
    · rw [HomeScan.finish_idle fun hopen => hnot (hown.isOpen ▸ hopen)]
    · rw [HomeScan.finish_recent hown.prev (hown.isOpen.trans hat.1) hat.2]

lemma joinsWindow_iff : joinsWindow tail (first :: rest) ↔
    isRunning tail ∧ ¬ GapBetween tail first := by
  rw [joinsWindow, List.head?_cons]
  dsimp only
  rw [Bool.and_eq_true, decide_eq_true_iff, GapBetween, gt_iff_lt, UInt32.not_lt]

/-- No sample lies a gap after one in the last seconds of the clock. -/
lemma AtClockEnd.no_gap (h : AtClockEnd tail) (hlt : tail.timestamp < first.timestamp) :
    ¬ GapBetween tail first := by
  have hrecent := UInt32.le_iff_toNat_le.mp h.2.2
  rw [UInt32.toNat_sub_of_le _ _ h.2.1] at hrecent
  have hfirst := first.timestamp.toNat_lt
  have hmax : (0xFFFFFFFF : UInt32).toNat = 2 ^ 32 - 1 := rfl
  rw [GapBetween, gt_iff_lt, UInt32.not_lt, UInt32.le_iff_toNat_le,
    UInt32.toNat_sub_of_le _ _ (UInt32.le_of_lt hlt)]
  omega

/-- The last run began at the window's first sample, in a pass over the window alone. -/
lemma merge_running (h : OlderLast older tail c) (htail : older.getLast? = some tail)
    (hlt : tail.timestamp < first.timestamp) (hfirst : isRunning first) {e : UInt32}
    (hlast : sum.last = { start := first.timestamp, mode := first.mode, endS := e }) :
    (homeStatsMergeOlder sum (first :: rest) older).last = { c.following first with endS := e } ↔
      ¬ AtClockEnd tail ∧ ¬ StartUnseen tail first ∧ ¬ EndUnpatched older tail first := by
  have hne : first.timestamp ≠ 0 := ne_zero_of_lt hlt
  have hgap := gap_eq_decide (s := first) h.state.prev
  have hpatched : ¬ EndUnpatched older tail first := fun hend => hend.1 hfirst
  have hstart : sum.last.start = first.timestamp := by rw [hlast]
  have hnonzero : (sum.last.start != 0) = true := bne_iff_ne.mpr (hstart ▸ hne)
  rw [homeStatsMergeOlder, htail]
  dsimp only
  rw [if_pos hnonzero, List.head?_cons]
  dsimp only
  by_cases hjoins : isRunning tail ∧ ¬ GapBetween tail first
  · -- the run came from the older samples
    have hopen : c.isOpen := h.state.isOpen.trans hjoins.1
    have hfollowing : c.following first = c.opened :=
      if_pos ⟨hopen, hgap ▸ fun hg => hjoins.2 (of_decide_eq_true hg)⟩
    have hseen : ¬ StartUnseen tail first := fun hunseen => hunseen.2.1 hjoins.1
    rw [if_pos ⟨joinsWindow_iff.mpr hjoins, hfirst, hstart⟩, hfollowing, hlast]
    dsimp only
    by_cases hat : AtClockEnd tail
    · rw [h.kept (.inr hat)]
      refine ⟨fun heq => ?_, fun hsettles => absurd hat hsettles.1⟩
      rw [HomeRun.mk.injEq] at heq
      exact absurd ⟨heq.1, heq.2.2.1⟩ (h.state.fresh hopen)
    · rw [h.ended hjoins.1 hat]
      exact ⟨fun _ => ⟨hat, hseen, hpatched⟩, fun _ => rfl⟩
  · -- it began in the window
    have hat : ¬ AtClockEnd tail := fun hat => hjoins ⟨hat.1, hat.no_gap hlt⟩
    have hfollowing : c.following first =
        { start := first.timestamp, mode := first.mode, seenStart := c.startSeen first } := by
      refine HomeScan.following_fresh fun hgoes => hjoins ⟨h.state.isOpen ▸ hgoes.1, fun hg => ?_⟩
      exact hgoes.2 (hgap.trans (decide_eq_true hg))
    have hseen : c.startSeen first = true ↔ StartUnseen tail first := by
      rw [HomeScan.startSeen, h.state.prev]
      dsimp only
      rw [hgap, Bool.and_eq_true, Bool.not_eq_true', Bool.not_eq_true', decide_eq_false_iff_not,
        StartUnseen]
      exact ⟨fun hs => ⟨hfirst, Bool.eq_false_iff.mp hs.2, hs.1⟩,
        fun hs => ⟨hs.2.2, Bool.eq_false_iff.mpr hs.2.1⟩⟩
    rw [if_neg fun hc => hjoins (joinsWindow_iff.mp hc.1), hfollowing, hlast]
    dsimp only
    rw [HomeRun.mk.injEq]
    constructor
    · rintro ⟨-, -, -, heq⟩
      exact ⟨hat, fun hunseen => Bool.false_ne_true (heq.trans (hseen.mpr hunseen)), hpatched⟩
    · rintro ⟨-, hunseen, -⟩
      exact ⟨rfl, rfl, rfl, (Bool.eq_false_iff.mpr fun hs => hunseen (hseen.mp hs)).symm⟩

/-- The window has no run of its own. -/
lemma merge_stopped (h : OlderLast older tail c) (htail : older.getLast? = some tail)
    (hfirst : ¬ isRunning first)
    (hlast : sum.last = {}) :
    (homeStatsMergeOlder sum (first :: rest) older).last
        = (c.closing first).getD c.sum.last ↔
      ¬ AtClockEnd tail ∧ ¬ StartUnseen tail first ∧ ¬ EndUnpatched older tail first := by
  have hgap := gap_eq_decide (s := first) h.state.prev
  have hseen : ¬ StartUnseen tail first := fun hunseen => hfirst hunseen.1
  have hzero : ¬ ((sum.last.start != 0) = true) := by
    rw [hlast]
    decide
  rw [homeStatsMergeOlder, htail]
  dsimp only
  rw [if_neg hzero, List.head?_cons]
  dsimp only
  by_cases htailRuns : isRunning tail
  swap
  · -- the older samples end outside any run
    have hat : ¬ AtClockEnd tail := fun hat => htailRuns hat.1
    have hnone : c.closing first = none :=
      if_neg fun hc => htailRuns (h.state.isOpen ▸ hc.1)
    rw [if_neg fun hc => htailRuns (joinsWindow_iff.mp hc.1).1, hnone, h.kept (.inl htailRuns)]
    exact ⟨fun _ => ⟨hat, hseen, fun hend => htailRuns hend.2.1⟩, fun _ => rfl⟩
  have hopen : c.isOpen := h.state.isOpen.trans htailRuns
  have hsome : c.closing first = some { c.opened with endS := c.closingTime first } :=
    if_pos ⟨hopen, .inr hfirst⟩
  rw [hsome, Option.getD_some]
  by_cases hat : AtClockEnd tail
  · -- the summary of the older samples shows an earlier run
    refine ⟨fun heq => ?_, fun hsettles => absurd hat hsettles.1⟩
    rw [h.kept (.inr hat)] at heq
    have hsame : c.sum.last.start = c.opened.start ∧ c.sum.last.mode = c.opened.mode := by
      have hstart := congrArg HomeRun.start heq
      have hmode := congrArg HomeRun.mode heq
      split at hstart <;> exact ⟨hstart, by split at hmode <;> exact hmode⟩
    exact absurd hsame (h.state.fresh hopen)
  rw [h.ended htailRuns hat, HomeScan.closingTime, h.state.prev]
  dsimp only
  rw [hgap]
  by_cases hbetween : GapBetween tail first
  · rw [if_neg fun hc => (joinsWindow_iff.mp hc.1).2 hbetween,
      if_pos (decide_eq_true hbetween)]
    exact ⟨fun _ => ⟨hat, hseen, fun hend => hend.2.2.1 hbetween⟩, fun _ => rfl⟩
  rw [if_neg fun hg => hbetween (of_decide_eq_true hg)]
  by_cases hone : OneRunFromZero older
  · -- the merge takes the run for none and leaves its end
    have hstart : c.opened.start = 0 := (h.state.zero hopen).mpr hone
    rw [if_neg fun hc => hc.2 hstart, HomeRun.mk.injEq]
    constructor
    · rintro ⟨-, hend, -⟩
      exact ⟨hat, hseen, fun hunpatched => hunpatched.2.2.2.2 hend.symm⟩
    · rintro ⟨-, -, hpatched⟩
      refine ⟨rfl, ?_, rfl, rfl⟩
      by_contra hne
      exact hpatched ⟨hfirst, htailRuns, hbetween, hone, fun heq => hne heq.symm⟩
  · have hstart : c.opened.start ≠ 0 := fun hz => hone ((h.state.zero hopen).mp hz)
    rw [if_pos ⟨joinsWindow_iff.mpr ⟨htailRuns, hbetween⟩, hstart⟩]
    exact ⟨fun _ => ⟨hat, hseen, fun hend => hone hend.2.2.2.1⟩, fun _ => rfl⟩

/-- The two passes after the window's first sample, and what its further samples leave. -/
lemma window_left (h : OlderLast older tail c) (htail : older.getLast? = some tail)
    (hrise : TimestampsRise (older ++ first :: rest))
    (hneeds : homeStatsNeedsOlder (HomeScan.after cap now {} (first :: rest)).sum
      (first :: rest)) :
    (homeStatsMergeOlder (HomeScan.after cap now {} (first :: rest)).sum (first :: rest) older).last
        = (c.after cap' now (first :: rest)).sum.last ↔
      ¬ AtClockEnd tail ∧ ¬ StartUnseen tail first ∧ ¬ EndUnpatched older tail first := by
  have hlt : tail.timestamp < first.timestamp :=
    (List.pairwise_append.mp hrise).2.2 tail (List.mem_of_getLast? htail) first List.mem_cons_self
  have hfirst_lt : ∀ s ∈ rest, first.timestamp < s.timestamp :=
    (List.pairwise_cons.mp (List.pairwise_append.mp hrise).2.1).1
  have hne : first.timestamp ≠ 0 := ne_zero_of_lt hlt
  have hcs := HomeScan.step_stepped cap' now c first
  have hds := HomeScan.step_stepped cap now {} first
  rw [after_cons] at hneeds
  rw [after_cons, after_cons]
  have htails := tails cap' cap now rest (c.step cap' now first)
    (HomeScan.step cap now {} first) (hcs.prev.trans hds.prev.symm)
  generalize c.step cap' now first = c₁, HomeScan.step cap now {} first = d₁ at *
  generalize c₁.after cap' now rest = c', d₁.after cap now rest = d' at *
  -- the window's newest run is none of the further samples'
  have hnewer : ¬ NewerRun rest c' d' := by
    rintro ⟨-, s, hs, hstart⟩
    have hlater := hfirst_lt s hs
    rw [homeStatsNeedsOlder] at hneeds
    rw [hstart] at hneeds
    split at hneeds
    · exact Bool.false_ne_true hneeds
    · split at hneeds
      · next hzero => exact ne_zero_of_lt hlater (eq_of_beq hzero)
      · rw [List.head?_cons, Bool.and_eq_true] at hneeds
        have heq := eq_of_beq hneeds.2
        exact UInt32.lt_irrefl _ (heq ▸ hlater)
  have hnone : ({} : HomeScan).closing first = none := if_neg fun h => Bool.false_ne_true h.1
  have hdlast : d₁.sum.last = {} := by
    rw [hds.last, hnone]
    rfl
  by_cases hfirst : isRunning first
  · have hdopened : d₁.opened = { start := first.timestamp, mode := first.mode } :=
      (hds.opened hfirst).trans (HomeScan.following_fresh fun h => Bool.false_ne_true h.1)
    have hrunning := htails.2 (hcs.isOpen.trans hfirst) (hds.isOpen.trans hfirst) first hds.prev
    rcases hrunning with hnew | ⟨e, hc, hd⟩ | ⟨hcurrent, -⟩
    · exact absurd hnew hnewer
    · rw [hdopened] at hd
      rw [hc, hcs.opened hfirst]
      exact merge_running h htail hlt hfirst hd
    · -- the run is still in progress
      rw [homeStatsNeedsOlder, hcurrent, hdopened] at hneeds
      dsimp only at hneeds
      rw [if_pos (bne_iff_ne.mpr hne)] at hneeds
      exact absurd hneeds Bool.false_ne_true
  · have hidle := htails.1 (fun ho => hfirst (hcs.isOpen ▸ ho)) (fun ho => hfirst (hds.isOpen ▸ ho))
    rcases hidle with hnew | ⟨hc, hd⟩
    · exact absurd hnew hnewer
    · rw [hc, hcs.last]
      exact merge_stopped h htail hfirst (hd.trans hdlast)

/-- An empty window. -/
lemma empty_window_left (cap : ℕ) (h : OlderLast older tail c) (htail : older.getLast? = some tail)
    (hnow : tail.timestamp < now ∧ now - tail.timestamp > gapSeconds) :
    (homeStatsMergeOlder {} [] older).last = (c.finish cap now).sum.last ∧ ¬ AtClockEnd tail := by
  have hstale : ¬ HomeScan.Recent now tail := fun hr => UInt32.not_lt.mpr hr.2 hnow.2
  have hat : ¬ AtClockEnd tail := fun hat =>
    @AtClockEnd.no_gap tail { tail with timestamp := now } hat hnow.1 hnow.2
  refine ⟨?_, hat⟩
  have hmerge : (homeStatsMergeOlder {} [] older).last = (olderSummary older).last := by
    rw [homeStatsMergeOlder, htail]
    rfl
  rw [hmerge]
  by_cases hr : isRunning tail
  · rw [h.ended hr hat, HomeScan.finish_stale h.state.prev (h.state.isOpen.trans hr) hstale]
  · rw [h.kept (.inl hr), HomeScan.finish_idle fun ho => hr (h.state.isOpen ▸ ho)]

end Merge

/-- **The settled summary is that of one pass.** Where the window needs older samples, the merged
last run is that of one pass over all samples exactly if the window does not begin in one of the
three ways the merge misses. -/
theorem merge_older_exact (older window : List TelemetrySample) (now : UInt32) (cap cap' : ℕ)
    (hrise : TimestampsRise (older ++ window))
    (hnow : window = [] → ∀ tail, older.getLast? = some tail →
      tail.timestamp < now ∧ now - tail.timestamp > gapSeconds)
    (hneeds : homeStatsNeedsOlder (homeStatsRuns window now cap).2 window) :
    (homeStatsMergeOlder (homeStatsRuns window now cap).2 window older).last
        = (homeStatsRuns (older ++ window) now cap').2.last ↔
      MergeSettles older window := by
  cases htail : older.getLast? with
  | none =>
      obtain rfl := List.getLast?_eq_none_iff.mp htail
      have hsettles : MergeSettles [] window := nofun
      exact ⟨fun _ => hsettles, fun _ => (sameRuns_scan window cap cap' now now).finish.1⟩
  | some tail =>
      have hrise' : TimestampsRise older := (List.pairwise_append.mp hrise).1
      have holder := olderLast_scan cap' now hrise' htail
      have hpass : (homeStatsRuns (older ++ window) now cap').2
          = ((HomeScan.scan cap' now {} older).after cap' now window).sum := by
        rw [homeStatsRuns, HomeScan.scan, List.foldl_append]
        rfl
      rw [mergeSettles_iff htail, hpass]
      cases window with
      | nil =>
          obtain ⟨heq, hat⟩ := empty_window_left cap' holder htail (hnow rfl tail htail)
          exact ⟨fun _ => ⟨hat, nofun⟩, fun _ => heq⟩
      | cons first rest =>
          refine (window_left holder htail hrise hneeds).trans (and_congr_right fun _ => ?_)
          exact ⟨fun h first' hfirst => Option.some.inj hfirst ▸ h, fun h => h first rfl⟩

/-- A run that the window cuts off gets its start back. -/
theorem merge_older_exact_cut :
    let older := [sampleAt false 1000, sampleAt true 1030]
    let window := [sampleAt true 1060, sampleAt false 1090]
    (homeStatsMergeOlder (homeStatsRuns window 1090 4).2 window older).last
      = (homeStatsRuns (older ++ window) 1090 4).2.last := by
  refine (merge_older_exact [sampleAt false 1000, sampleAt true 1030]
    [sampleAt true 1060, sampleAt false 1090] 1090 4 4 (by unfold TimestampsRise; decide +kernel)
    nofun (by decide +kernel)).mpr fun tail htail => ?_
  obtain rfl := Option.some.inj htail
  refine ⟨fun hat => absurd hat.2 (by decide +kernel), fun first hfirst => ?_⟩
  obtain rfl := Option.some.inj hfirst
  exact ⟨fun hunseen => hunseen.2.1 (by decide +kernel), fun hend => hend.1 (by decide +kernel)⟩

/-- A run that starts with the window, right after a stopped sample: the merged summary has not
seen its start, one pass has. -/
theorem merge_older_not_exact :
    let older := [sampleAt false 1000]
    let window := [sampleAt true 1030, sampleAt false 1060]
    homeStatsNeedsOlder (homeStatsRuns window 1060 4).2 window ∧
      (homeStatsMergeOlder (homeStatsRuns window 1060 4).2 window older).last
        = { start := 1030, endS := 1060, mode := 1, seenStart := false } ∧
      (homeStatsRuns (older ++ window) 1060 4).2.last
        = { start := 1030, endS := 1060, mode := 1, seenStart := true } := by
  decide +kernel

end ArcticController

/-
The run tracker against a run book.

* `RunTracker.ending`, `takeFinished_add`: the run a reading ends, one of no
  length included, and what is handed out of it;
* `RunBook`: the ended runs and the one in progress with their exact amounts,
  and `RunBook.total_run`: together they hold the shares of all intervals,
  where nothing counts while the compressor stands;
* `RunTally`: a counter of a run with the share it holds;
* `RunBooks`, `RunTracker.Follows`, `RunBooks.Holds`: the tracker over a
  sequence of readings, its reference, and its counters as words of the run
  book's amounts;
* `RunBooks.runs_run`: the runs hold these words.
-/
import ArcticController.Energy.RunTracker

namespace ArcticController

/-! ### The run a reading ends -/

/-- The unit is there and its compressor runs. -/
def Input.active (input : Input) : Bool := input.running && input.connected

namespace RunTracker

variable (t : RunTracker) (nowS : ℤ) (date : UInt32) (input : Input)

/-- The run with the interval a reading ends. -/
def continued : RunSums := t.sums.book t.defrostEndS t.prevS nowS t.prev

/-- The run a reading ends. -/
def ending : Option RunSums :=
  if ¬ t.isOpen then none
  else if t.inStep nowS then if input.active then none else some (t.continued nowS)
  else some t.sums

/-- The run in progress after a reading. -/
def following : RunSums :=
  if t.isOpen ∧ t.inStep nowS then t.continued nowS
  else { date := date, startS := nowS, endS := nowS, firstBucket := input.bucket }

lemma stops_iff : (¬ input.running ∨ ¬ input.connected) ↔ ¬ input.active := by
  cases hr : input.running <;> cases hc : input.connected <;> simp [Input.active, hr, hc]

lemma runs_iff : (input.running ∧ input.connected) ↔ input.active := by
  simp [Input.active]

/-- Ending a run hands out its record, unless nothing was booked to it. -/
lemma finish_eq : ∃ finished hasFinished, t.finish =
    { t with isOpen := false, finished := finished, hasFinished := hasFinished } ∧
    (¬ t.hasFinished → (if hasFinished then some finished else none)
      = if t.sums.endS ≤ t.sums.startS then none else some t.sums.record) := by
  rw [finish]
  dsimp only
  by_cases h : t.sums.endS ≤ t.sums.startS
  · rw [if_pos h]
    exact ⟨t.finished, t.hasFinished, rfl, fun hf => by rw [if_neg hf, if_pos h]⟩
  · rw [if_neg h]
    exact ⟨_, _, rfl, fun _ => by rw [if_pos rfl, if_neg h]⟩

/-- The tracker after the run in progress was booked to and perhaps ended. -/
lemma endRun_eq : ∃ sums finished hasFinished, t.endRun nowS input =
    { t with
      isOpen := t.isOpen && t.inStep nowS && input.active
      sums := sums
      finished := finished
      hasFinished := hasFinished } ∧
    (t.isOpen ∧ t.inStep nowS → sums = t.continued nowS) ∧
    (¬ t.hasFinished → (if hasFinished then some finished else none) = (t.ending nowS input).bind
      fun r => if r.endS ≤ r.startS then none else some r.record) := by
  rw [endRun, ending]
  by_cases hopen : t.isOpen
  swap
  · rw [if_neg hopen, if_pos hopen]
    refine ⟨t.sums, t.finished, t.hasFinished, ?_, fun h => absurd h.1 hopen, fun hf => if_neg hf⟩
    have : (t.isOpen && t.inStep nowS && input.active) = t.isOpen := by
      rw [Bool.eq_false_of_not_eq_true hopen]
      rfl
    rw [this]
  rw [if_pos hopen, if_neg (not_not.mpr hopen)]
  by_cases hin : t.inStep nowS
  · rw [if_pos hin, if_pos hin]
    dsimp only
    by_cases hactive : input.active
    · have hgo : ¬ (¬ input.running ∨ ¬ input.connected) := fun h =>
        (stops_iff input).mp h hactive
      rw [if_neg hgo, if_pos hactive]
      refine ⟨t.continued nowS, t.finished, t.hasFinished, ?_, fun _ => rfl, fun hf => if_neg hf⟩
      rw [hopen, hin, hactive, book]
      simp only [Bool.and_self, continued, hopen]
    · obtain ⟨finished, hasFinished, hfinish, hrecord⟩ := finish_eq (t.book t.prevS nowS t.prev)
      rw [if_pos ((stops_iff input).mpr hactive), if_neg hactive, hfinish]
      refine ⟨t.continued nowS, finished, hasFinished, ?_, fun _ => rfl, hrecord⟩
      rw [Bool.eq_false_of_not_eq_true hactive, Bool.and_false]
      rfl
  · obtain ⟨finished, hasFinished, hfinish, hrecord⟩ := finish_eq t
    rw [if_neg hin, if_neg hin, hfinish]
    refine ⟨t.sums, finished, hasFinished, ?_, fun h => absurd h.2 hin, hrecord⟩
    rw [Bool.eq_false_of_not_eq_true hin, Bool.and_false, Bool.false_and]

/-- What a reading leaves: the reference moved to it, and a run in progress
exactly if the compressor runs. -/
structure Added (t' : RunTracker) : Prop where
  isOpen : t'.isOpen = input.active
  sums : input.active → t'.sums = t.following nowS date input
  prev : t'.prev = input
  prevS : t'.prevS = nowS
  hasPrev : t'.hasPrev
  defrostEndS : t'.defrostEndS =
    if t.hasPrev ∧ t.prev.defrost ∧ ¬ input.defrost then nowS else t.defrostEndS
  takeFinished : t'.takeFinished =
    (t.ending nowS input).bind fun r => if r.endS ≤ r.startS then none else some r.record

lemma add_added : t.Added nowS date input (t.add nowS date input) := by
  obtain ⟨sums, finished, hasFinished, hend, hsums, hfinished⟩ :=
    endRun_eq { t with hasFinished := false } nowS input
  have hnote : ({ t with hasFinished := false }.endRun nowS input).noteDefrostEnd nowS input =
      { t with
        isOpen := t.isOpen && t.inStep nowS && input.active
        sums := sums
        finished := finished
        hasFinished := hasFinished
        defrostEndS := if t.hasPrev ∧ t.prev.defrost ∧ ¬ input.defrost then nowS
          else t.defrostEndS } := by
    rw [hend, noteDefrostEnd]
    by_cases hd : t.hasPrev ∧ t.prev.defrost ∧ ¬ input.defrost
    · rw [if_pos hd, if_pos hd]
      rfl
    · rw [if_neg hd, if_neg hd]
      rfl
  have htake := hfinished nofun
  have hadd : t.add nowS date input =
      { (({ t with hasFinished := false }.endRun nowS input).noteDefrostEnd nowS input).startRun
          nowS date input with prev := input, prevS := nowS, hasPrev := true } := rfl
  rw [hadd, hnote, startRun]
  by_cases hactive : input.active
  · by_cases hgoes : t.isOpen ∧ t.inStep nowS
    · have hopen : (t.isOpen && t.inStep nowS && input.active) = true := by
        rw [hgoes.1, hgoes.2, hactive]
        rfl
      rw [if_neg fun h => h.1 hopen]
      refine ⟨hopen.trans hactive.symm, fun _ => ?_, rfl, rfl, rfl, rfl, htake⟩
      rw [following, if_pos hgoes]
      exact hsums hgoes
    · have hnot : ¬ (t.isOpen && t.inStep nowS && input.active) := by
        intro h
        simp only [Bool.and_eq_true] at h
        exact hgoes h.1
      rw [if_pos ⟨hnot, (runs_iff input).mpr hactive⟩]
      refine ⟨hactive.symm, fun _ => ?_, rfl, rfl, rfl, rfl, htake⟩
      rw [following, if_neg hgoes]
      rfl
  · have hclosed : (t.isOpen && t.inStep nowS && input.active) = false := by
      rw [Bool.eq_false_of_not_eq_true hactive, Bool.and_false]
    rw [if_neg fun h => hactive ((runs_iff input).mp h.2)]
    exact ⟨hclosed.trans (Bool.eq_false_of_not_eq_true hactive).symm, fun h => absurd h hactive, rfl,
      rfl, rfl, rfl, htake⟩

end RunTracker

/-! ### The run book -/

/-- The amounts of the ended runs, oldest first, and of the one in progress. -/
structure RunBook where
  ended : List ℤ := []
  current : Option ℤ := none

/-- The share of an interval, nothing after a gap. -/
def shareOf (share : Share) (i : Option Interval) : ℤ :=
  match i with
  | some i => i.share share
  | none => 0

/-- Book a reading: its interval goes to the run in progress, which goes on if
there was an interval and the compressor still runs; a new run begins if it
runs without one. -/
def RunBook.add (share : Share) (b : RunBook) (i : Option Interval) (active : Bool) : RunBook :=
  match b.current with
  | none => { b with current := if active then some 0 else none }
  | some x =>
      if i.isSome ∧ active then { b with current := some (x + shareOf share i) }
      else ⟨b.ended ++ [x + shareOf share i], if active then some 0 else none⟩

/-- The run book of a sequence of readings. -/
def RunBook.run (share : Share) : RunBook → Reference → List LedgerStep → RunBook
  | b, _, [] => b
  | b, r, .add nowS day input :: steps =>
      RunBook.run share (b.add share (r.interval nowS) input.active)
        (r.step (.add nowS day input)) steps
  | b, r, .pause :: steps => RunBook.run share b (r.step .pause) steps

def RunBook.of (share : Share) (steps : List LedgerStep) : RunBook := RunBook.run share {} {} steps

/-- The amounts of all runs, the one in progress last. -/
def RunBook.runs (b : RunBook) : List ℤ := b.ended ++ b.current.toList

/-- A run is in progress exactly while the last reading is of a running compressor. -/
def RunBook.Fresh (b : RunBook) (r : Reference) : Prop :=
  ∀ t p, r.last = some (t, p) → (b.current.isSome ↔ p.active)

/-- Readings as the controller makes them: heat is estimated only while the
compressor runs, and the outdoor reading is within its range. -/
structure Input.Sound (p : Input) : Prop where
  thermal : p.thermalValid → p.running
  outdoor : -255 ≤ p.outdoorC.toInt ∧ p.outdoorC.toInt ≤ 255

instance (p : Input) : Decidable p.Sound :=
  decidable_of_iff ((p.thermalValid → p.running) ∧ -255 ≤ p.outdoorC.toInt ∧ p.outdoorC.toInt ≤ 255)
    ⟨fun h => ⟨h.1, h.2⟩, fun h => ⟨h.thermal, h.outdoor⟩⟩

def LedgerStep.Sound : LedgerStep → Prop
  | .add _ _ input => input.Sound
  | .pause => True

instance : ∀ step : LedgerStep, Decidable step.Sound
  | .add _ _ input => inferInstanceAs (Decidable input.Sound)
  | .pause => inferInstanceAs (Decidable True)

/-- A reference taken from sound readings. -/
def Reference.Sound (r : Reference) : Prop := ∀ t p, r.last = some (t, p) → p.Sound

/-- Nothing counts while the compressor stands. -/
def Share.Idle (share : Share) : Prop :=
  ∀ D a b p, p.Sound → ¬ p.active → share D a b p = 0

variable {share : Share}

/-- After a reading a run is in progress exactly if the compressor runs. -/
lemma RunBook.current_add (b : RunBook) (i : Option Interval) (active : Bool) :
    (b.add share i active).current.isSome ↔ active := by
  rw [RunBook.add]
  cases b.current with
  | none => cases active <;> simp
  | some x =>
      dsimp only
      by_cases h : i.isSome ∧ active
      · simp [h]
      · rw [if_neg h]
        cases active <;> simp

/-- One reading adds the share of its interval to the runs. -/
lemma RunBook.runs_add (hidle : share.Idle) {b : RunBook} {r : Reference} {nowS : ℤ} {active : Bool}
    (hfresh : b.Fresh r) (hsound : r.Sound) :
    (b.add share (r.interval nowS) active).runs.sum
      = b.runs.sum + ((r.interval nowS).toList.map (·.share share)).sum := by
  have hlist : ((r.interval nowS).toList.map (·.share share)).sum = shareOf share (r.interval nowS) := by
    cases r.interval nowS with
    | none => rfl
    | some i => exact add_zero _
  rw [hlist, RunBook.add]
  cases hcur : b.current with
  | none =>
      have hzero : shareOf share (r.interval nowS) = 0 := by
        cases hi : r.interval nowS with
        | none => rfl
        | some i =>
            obtain ⟨hlast, -, -, -⟩ := Reference.interval_bounds hi
            refine hidle _ _ _ _ (hsound _ _ hlast) fun hactive => ?_
            have := (hfresh _ _ hlast).mpr hactive
            rw [hcur] at this
            cases this
      rw [hzero, add_zero, RunBook.runs, RunBook.runs, hcur]
      cases active <;> simp
  | some x =>
      dsimp only
      rw [RunBook.runs, RunBook.runs, hcur]
      split
      · simp [add_assoc]
      · cases active <;> simp [add_assoc]

/-- **The runs together hold the shares of all intervals**, each once. -/
theorem RunBook.total_run (hidle : share.Idle) : ∀ (steps : List LedgerStep)
    {b : RunBook} {r : Reference}, b.Fresh r → r.Sound → (∀ step ∈ steps, step.Sound) →
    (RunBook.run share b r steps).runs.sum
      = b.runs.sum + ((intervals r steps).map (·.share share)).sum := by
  intro steps
  induction steps with
  | nil => intro b r _ _ _; simp [RunBook.run, intervals]
  | cons step steps ih =>
      intro b r hfresh hsound hsteps
      have hrest : ∀ step ∈ steps, step.Sound := fun s hs => hsteps s (List.mem_cons_of_mem _ hs)
      cases step with
      | add nowS day input =>
          have hinput : input.Sound := hsteps _ List.mem_cons_self
          have hlast : ∀ t p, (r.step (.add nowS day input)).last = some (t, p) → p = input := by
            intro t p h
            simp only [Reference.step, Option.some.injEq, Prod.mk.injEq] at h
            exact h.2.symm
          rw [RunBook.run, ih (fun t p h => ?_) (fun t p h => ?_) hrest,
            RunBook.runs_add hidle hfresh hsound, intervals, List.map_append, List.sum_append]
          · ring
          · rw [hlast t p h]
            exact RunBook.current_add b _ _
          · rw [hlast t p h]
            exact hinput
      | pause =>
          have hstep := ih (b := b) (r := r.step .pause) (by rintro _ _ ⟨⟩)
            (by rintro _ _ ⟨⟩) hrest
          rw [RunBook.run, hstep, intervals]

lemma RunBook.grows_add (hshare : share.Grows) {b : RunBook} (hb : ∀ x ∈ b.runs, 0 ≤ x)
    (i : Option Interval) (active : Bool) : ∀ x ∈ (b.add share i active).runs, 0 ≤ x := by
  have hpart : 0 ≤ shareOf share i := by
    cases i with
    | none => exact le_rfl
    | some i => exact hshare _ _ _ _
  have hended : ∀ x ∈ b.ended, 0 ≤ x := fun x hx => hb x (List.mem_append_left _ hx)
  have hfresh : ∀ x ∈ (if active then some (0 : ℤ) else none).toList, 0 ≤ x := by
    cases active <;> simp
  intro x hx
  rw [RunBook.add] at hx
  cases hcur : b.current with
  | none =>
      rw [hcur] at hx
      rcases List.mem_append.mp hx with hx | hx
      · exact hended x hx
      · exact hfresh x hx
  | some y =>
      have hy : 0 ≤ y := hb y (by simp [RunBook.runs, hcur])
      rw [hcur] at hx
      dsimp only at hx
      split at hx
      · rcases List.mem_append.mp hx with hx | hx
        · exact hended x hx
        · rw [List.mem_singleton.mp hx]
          exact add_nonneg hy hpart
      · rcases List.mem_append.mp hx with hx | hx
        · rcases List.mem_append.mp hx with hx | hx
          · exact hended x hx
          · rw [List.mem_singleton.mp hx]
            exact add_nonneg hy hpart
        · exact hfresh x hx

/-- No run of the book has less than nothing. -/
lemma RunBook.grows_run (hshare : share.Grows) : ∀ (steps : List LedgerStep)
    {b : RunBook} {r : Reference}, (∀ x ∈ b.runs, 0 ≤ x) →
    ∀ x ∈ (RunBook.run share b r steps).runs, 0 ≤ x := by
  intro steps
  induction steps with
  | nil => intro b r hb; exact hb
  | cons step steps ih =>
      intro b r hb
      cases step with
      | add nowS day input => exact ih (RunBook.grows_add hshare hb _ _)
      | pause => exact ih hb

/-! ### The counters of a run -/

/-- A counter of a run: its word, the share of a stretch that it holds, and
that booking a stretch adds the word of the share. -/
structure RunTally where
  width : ℕ
  field : RunSums → BitVec width
  share : Share
  fresh : ∀ date s e bucket,
    field { date := date, startS := s, endS := e, firstBucket := bucket } = 0
  booked : ∀ {r c : RunSums} {p D a b}, r.Booked p D a b c → a ≤ b → b - a ≤ kMaxStepSeconds →
    p.connected → p.Sound → field c = field r + BitVec.ofInt width (share D a b p)

/-! ### The tracker over a sequence of readings -/

/-- A tracker and the runs it has ended, those of no length included. -/
structure RunBooks where
  tracker : RunTracker := {}
  ended : List RunSums := []

/-- The runs after a step. -/
def RunBooks.step (b : RunBooks) : LedgerStep → RunBooks
  | .add nowS day input =>
      { tracker := b.tracker.add nowS day.date input
        ended := b.ended ++ (b.tracker.ending nowS input).toList }
  | .pause => { b with tracker := b.tracker.pause }

/-- The runs after a sequence of readings. -/
def RunBooks.run (b : RunBooks) (steps : List LedgerStep) : RunBooks := steps.foldl RunBooks.step b

/-- The sums of all runs, the one in progress last. -/
def RunBooks.runs (b : RunBooks) : List RunSums :=
  b.ended ++ if b.tracker.isOpen then [b.tracker.sums] else []

/-- The tracker's reference is `r`, and it has a run exactly while that reading
is of a running compressor. -/
structure RunTracker.Follows (t : RunTracker) (r : Reference) (clock : ℤ) : Prop where
  last : r.last = if t.hasPrev then some (t.prevS, t.prev) else none
  defrostEnd : r.defrostEndS = t.defrostEndS
  prev : t.hasPrev → t.prevS ≤ clock
  active : t.hasPrev → t.isOpen = t.prev.active
  sound : t.hasPrev → t.prev.Sound

/-- The runs of the tracker hold the words of the run book's amounts. -/
structure RunBooks.Holds (t : RunTally) (b : RunBooks) (d : RunBook) : Prop where
  ended : b.ended.map t.field = d.ended.map (BitVec.ofInt t.width)
  idle : ¬ b.tracker.isOpen → d.current = none
  running : b.tracker.isOpen → ∃ x, d.current = some x ∧
    t.field b.tracker.sums = BitVec.ofInt t.width x

namespace RunTracker

variable {t : RunTracker} {r : Reference} {clock nowS : ℤ} {day : Day} {input : Input}

/-- The interval a reading ends, as the tracker sees it. -/
lemma Follows.interval (h : t.Follows r clock) (hclock : clock ≤ nowS) : r.interval nowS =
    if t.inStep nowS then some ⟨t.defrostEndS, t.prevS, nowS, t.prev⟩ else none := by
  rw [Reference.interval, h.last, h.defrostEnd, inStep]
  by_cases hprev : t.hasPrev
  · have hle : nowS ≥ t.prevS := (h.prev hprev).trans hclock
    by_cases hstep : nowS - t.prevS ≤ kMaxStepSeconds
    · simp [hprev, hle, hstep]
    · simp [hprev, hle, hstep]
  · simp [hprev]

/-- A reading moves the reference on. -/
lemma follows_add (h : t.Follows r clock) (hsound : input.Sound) :
    (t.add nowS day.date input).Follows (r.step (.add nowS day input)) nowS := by
  have hadded := t.add_added nowS day.date input
  refine ⟨?_, ?_, fun _ => hadded.prevS.le, fun _ => ?_, fun _ => ?_⟩
  · rw [if_pos hadded.hasPrev, hadded.prevS, hadded.prev]
    rfl
  · rw [hadded.defrostEndS]
    simp only [Reference.step, h.last, h.defrostEnd]
    by_cases hprev : t.hasPrev
    · simp only [hprev, if_true, true_and]
    · simp [hprev]
  · rw [hadded.isOpen, hadded.prev]
  · rw [hadded.prev]
    exact hsound

lemma follows_pause (h : t.Follows r clock) : t.pause.Follows (r.step .pause) clock :=
  ⟨rfl, h.defrostEnd, nofun, nofun, nofun⟩

end RunTracker

namespace RunBooks

variable {t : RunTally} {b : RunBooks} {d : RunBook} {r : Reference} {clock nowS : ℤ} {day : Day}
  {input : Input}

/-- What an interval adds to the run in progress. -/
lemma field_continued (h : b.tracker.Follows r clock) (hclock : clock ≤ nowS)
    (hopen : b.tracker.isOpen) (hin : b.tracker.inStep nowS) {x : ℤ}
    (hx : t.field b.tracker.sums = BitVec.ofInt t.width x) :
    t.field (b.tracker.continued nowS)
      = BitVec.ofInt t.width (x + shareOf t.share (r.interval nowS)) := by
  obtain ⟨⟨hprev, hle⟩, hstep⟩ : (b.tracker.hasPrev ∧ b.tracker.prevS ≤ nowS) ∧
      nowS - b.tracker.prevS ≤ kMaxStepSeconds := by
    simpa [RunTracker.inStep] using hin
  have hactive : b.tracker.prev.active := (h.active hprev).symm.trans hopen
  have hc : b.tracker.prev.connected := ((RunTracker.runs_iff _).mpr hactive).2
  rw [RunTracker.continued, t.booked (RunSums.book_booked _ _ _ _ _ hc) hle hstep hc (h.sound hprev),
    hx, h.interval hclock, if_pos hin, BitVec.ofInt_add]
  rfl

/-- The runs agree after a reading when the ended ones do and the one in
progress does, if the compressor runs. -/
lemma holds_after {t' : RunTracker} {ended : List RunSums} {amounts : List ℤ} {current : Option ℤ}
    (hadded : b.tracker.Added nowS day.date input t')
    (hended : ended.map t.field = amounts.map (BitVec.ofInt t.width))
    (hidle : ¬ input.active → current = none)
    (hrunning : input.active → ∃ x, current = some x ∧
      t.field (b.tracker.following nowS day.date input) = BitVec.ofInt t.width x) :
    RunBooks.Holds t ⟨t', ended⟩ ⟨amounts, current⟩ where
  ended := hended
  idle hopen := hidle (hadded.isOpen ▸ hopen)
  running hopen := by
    have hactive : input.active := hadded.isOpen ▸ hopen
    obtain ⟨x, hx, hfield⟩ := hrunning hactive
    exact ⟨x, hx, (congrArg t.field (hadded.sums hactive)).trans hfield⟩

/-- A reading keeps the words of the amounts. -/
lemma holds_add (h : b.Holds t d) (hfollows : b.tracker.Follows r clock) (hclock : clock ≤ nowS) :
    (b.step (.add nowS day input)).Holds t (d.add t.share (r.interval nowS) input.active) := by
  have hadded := b.tracker.add_added nowS day.date input
  have hfresh (hgap : ¬ (b.tracker.isOpen ∧ b.tracker.inStep nowS)) :
      t.field (b.tracker.following nowS day.date input) = BitVec.ofInt t.width 0 := by
    rw [RunTracker.following, if_neg hgap, t.fresh]
    simp
  have hone : ∀ {r : RunSums} {x : ℤ}, t.field r = BitVec.ofInt t.width x →
      (b.ended ++ (some r).toList).map t.field
        = (d.ended ++ [x]).map (BitVec.ofInt t.width) := by
    intro r x hr
    rw [List.map_append, List.map_append, h.ended]
    simp [hr]
  rw [step, RunTracker.ending, RunBook.add]
  by_cases hopen : b.tracker.isOpen
  swap
  · rw [if_pos hopen, h.idle hopen]
    refine holds_after hadded (by simpa using h.ended) (fun hi => by simp [hi]) fun hactive => ?_
    exact ⟨0, by simp [hactive], hfresh fun hc => hopen hc.1⟩
  obtain ⟨x, hx, hfield⟩ := h.running hopen
  rw [if_neg (not_not.mpr hopen), hx]
  dsimp only
  by_cases hin : b.tracker.inStep nowS
  · have hcont := field_continued hfollows hclock hopen hin hfield
    have hsome : (r.interval nowS).isSome := by
      rw [hfollows.interval hclock, if_pos hin]
      rfl
    rw [if_pos hin]
    by_cases hactive : input.active
    · -- the run goes on
      rw [if_pos hactive, if_pos ⟨hsome, hactive⟩]
      refine holds_after hadded (by simpa using h.ended) (fun hi => absurd hactive hi) fun _ => ?_
      refine ⟨_, rfl, ?_⟩
      rw [RunTracker.following, if_pos ⟨hopen, hin⟩]
      exact hcont
    · -- the compressor stopped
      rw [if_neg hactive, if_neg fun hc => hactive hc.2, if_neg hactive]
      exact holds_after hadded (hone hcont) (fun _ => rfl) fun hc => absurd hc hactive
  · -- a gap ends the run at its last reading
    have hnone : r.interval nowS = none := by rw [hfollows.interval hclock, if_neg hin]
    rw [if_neg hin, hnone, if_neg fun hc => nomatch hc.1]
    refine holds_after hadded (hone ?_) (fun hi => by simp [hi]) fun hactive => ?_
    · rw [shareOf, add_zero]
      exact hfield
    · exact ⟨0, by simp [hactive], hfresh fun hc => hin hc.2⟩

/-- The words of the amounts after any sequence of readings. -/
lemma holds_run : ∀ (steps : List LedgerStep) {b : RunBooks} {d : RunBook} {r : Reference}
    {clock : ℤ}, b.Holds t d → b.tracker.Follows r clock → ClockRises clock steps →
    (∀ step ∈ steps, step.Sound) →
    (b.run steps).Holds t (RunBook.run t.share d r steps) := by
  intro steps
  induction steps with
  | nil => intro b d r clock hholds _ _ _; exact hholds
  | cons step steps ih =>
      intro b d r clock hholds hfollows hrise hsteps
      have hrest : ∀ step ∈ steps, step.Sound := fun s hs => hsteps s (List.mem_cons_of_mem _ hs)
      cases step with
      | add nowS day input =>
          obtain ⟨hclock, -, hrise⟩ := hrise
          exact ih (holds_add hholds hfollows hclock)
            (RunTracker.follows_add hfollows (hsteps _ List.mem_cons_self)) hrise hrest
      | pause =>
          exact ih ⟨hholds.ended, hholds.idle, hholds.running⟩
            (RunTracker.follows_pause hfollows) hrise hrest

/-- All runs hold the words of the run book's amounts. -/
lemma Holds.runs (h : b.Holds t d) : b.runs.map t.field = d.runs.map (BitVec.ofInt t.width) := by
  rw [RunBooks.runs, RunBook.runs, List.map_append, List.map_append, h.ended]
  by_cases hopen : b.tracker.isOpen
  · obtain ⟨x, hx, hfield⟩ := h.running hopen
    rw [if_pos hopen, hx]
    simp [hfield]
  · rw [if_neg hopen, h.idle hopen]
    rfl

end RunBooks

/-- The tracker's runs hold, one by one, the words of the run book's amounts. -/
lemma RunBooks.runs_run (t : RunTally) {clock : ℤ} {steps : List LedgerStep}
    (hrise : ClockRises clock steps) (hsteps : ∀ step ∈ steps, step.Sound) :
    (({} : RunBooks).run steps).runs.map t.field
      = (RunBook.of t.share steps).runs.map (BitVec.ofInt t.width) := by
  refine (RunBooks.holds_run steps ?_ ?_ hrise hsteps).runs
  · exact ⟨rfl, fun _ => rfl, fun h => nomatch h⟩
  · exact ⟨rfl, rfl, nofun, nofun, nofun⟩

lemma RunBook.total_of (hidle : share.Idle) {steps : List LedgerStep}
    (hsteps : ∀ step ∈ steps, step.Sound) :
    (RunBook.of share steps).runs.sum = ((intervals {} steps).map (·.share share)).sum := by
  have h := RunBook.total_run (b := {}) (r := {}) hidle steps (fun _ _ h => nomatch h)
    (fun _ _ h => nomatch h) hsteps
  exact h.trans (zero_add _)

end ArcticController

/-
The runs of the tracker are stretches of the readings, one after the other.

* `TrackedReading`, `TrackerCall`, `trackerRun`: the calls and the records handed out;
* `Continues`, `Spans`: the consecutive readings that a run is made of;
* `OpenRun`, `TracksRuns`: the invariant, with `TracksRuns.add` and `TracksRuns.pause`;
* `runs_apart`: the runs of every sequence of calls;
* `run_past_2106`: a record keeps 32 bits of its times.
-/
import ArcticController.Energy.RunBook

namespace ArcticController

/-! ### Calls -/

/-- A reading, with the local date it falls on. -/
structure TrackedReading where
  nowS : ℤ
  date : UInt32
  input : Input

inductive TrackerCall where
  | add (r : TrackedReading)
  | pause

/-- The tracker and the records it has handed out. -/
structure TrackerRun where
  tracker : RunTracker := {}
  handedOut : List RunRecord := []

/-- After each reading the finished run is taken. -/
def TrackerRun.step (s : TrackerRun) : TrackerCall → TrackerRun
  | .add r =>
      { tracker := s.tracker.add r.nowS r.date r.input
        handedOut := s.handedOut ++ (s.tracker.add r.nowS r.date r.input).takeFinished.toList }
  | .pause => { s with tracker := s.tracker.pause }

def trackerRun (calls : List TrackerCall) : TrackerRun := calls.foldl TrackerRun.step {}

/-- The readings among some calls. -/
def trackedReadings (calls : List TrackerCall) : List TrackedReading :=
  calls.filterMap fun | .add r => some r | .pause => none

/-- The clock never goes back. -/
def NeverBack (calls : List TrackerCall) : Prop :=
  (trackedReadings calls).Pairwise (·.nowS ≤ ·.nowS)

/-- A run goes on from a reading to the next. -/
structure Continues (a b : TrackedReading) : Prop where
  active : a.input.active
  rises : a.nowS ≤ b.nowS
  inStep : b.nowS - a.nowS ≤ kMaxStepSeconds

/-- A run spans consecutive readings: it goes on from each to the next, with the date and the time
of the first one and up to the last one. -/
def Spans (calls : List TrackerCall) (run : RunSums) : Prop :=
  ∃ before first rest after, calls = before ++ (first :: rest).map .add ++ after ∧
    (first :: rest).IsChain Continues ∧ run.date = first.date ∧ run.startS = first.nowS ∧
    run.endS = ((first :: rest).getLast (List.cons_ne_nil _ _)).nowS

/-! ### The invariant -/

/-- The run in progress spans the last readings, up to the last one if there was no pause since. -/
def OpenRun (t : RunTracker) (calls : List TrackerCall) : Prop :=
  ∃ before first rest after, calls = before ++ (first :: rest).map .add ++ after ∧
    (first :: rest).IsChain Continues ∧ t.sums.date = first.date ∧ t.sums.startS = first.nowS ∧
    t.sums.endS = ((first :: rest).getLast (List.cons_ne_nil _ _)).nowS ∧
    (t.hasPrev → after = [])

/-- The tracker, its run in progress and the runs it has handed out. -/
structure TracksRuns (s : TrackerRun) (calls : List TrackerCall) (runs : List RunSums) : Prop where
  last : s.tracker.hasPrev → ∃ before r, calls = before ++ [.add r] ∧ s.tracker.prevS = r.nowS ∧
    s.tracker.prev = r.input
  isOpen : s.tracker.hasPrev → s.tracker.isOpen = s.tracker.prev.active
  openRun : s.tracker.isOpen → OpenRun s.tracker calls
  handedOut : s.handedOut = runs.map RunSums.record
  spans : ∀ run ∈ runs, Spans calls run ∧ run.startS < run.endS
  apart : runs.Pairwise fun a b => a.endS ≤ b.startS
  before : s.tracker.isOpen → ∀ run ∈ runs, run.endS ≤ s.tracker.sums.startS

section Invariant

variable {s : TrackerRun} {calls : List TrackerCall} {runs : List RunSums} {r : TrackedReading}
  {run : RunSums}

lemma Spans.concat (h : Spans calls run) (call : TrackerCall) : Spans (calls ++ [call]) run := by
  obtain ⟨before, first, rest, after, rfl, hrest⟩ := h
  exact ⟨before, first, rest, after ++ [call], by simp, hrest⟩

lemma OpenRun.spans {t : RunTracker} (h : OpenRun t calls) : Spans calls t.sums := by
  obtain ⟨before, first, rest, after, hcalls, hchain, hdate, hstart, hend, -⟩ := h
  exact ⟨before, first, rest, after, hcalls, hchain, hdate, hstart, hend⟩

/-- A run ends at one of the readings. -/
lemma Spans.end_mem (h : Spans calls run) : ∃ r ∈ trackedReadings calls, r.nowS = run.endS := by
  obtain ⟨before, first, rest, after, rfl, -, -, -, hend⟩ := h
  refine ⟨_, ?_, hend.symm⟩
  have hmem := List.getLast_mem (List.cons_ne_nil first rest)
  rw [trackedReadings, List.mem_filterMap]
  exact ⟨.add _, List.mem_append_left _ (List.mem_append_right _ (List.mem_map_of_mem hmem)), rfl⟩

/-- A run ends no later than a reading yet to come. -/
lemma Spans.end_le (h : Spans calls run) (hclock : NeverBack (calls ++ [.add r])) :
    run.endS ≤ r.nowS := by
  obtain ⟨r', hmem, hend⟩ := h.end_mem
  rw [NeverBack, trackedReadings, List.filterMap_append, List.pairwise_append] at hclock
  rw [← hend]
  exact hclock.2.2 r' hmem r (List.mem_singleton_self r)

lemma NeverBack.init {call : TrackerCall} (h : NeverBack (calls ++ [call])) : NeverBack calls := by
  rw [NeverBack, trackedReadings, List.filterMap_append, List.pairwise_append] at h
  exact h.1

/-- Booking to a run moves its end only. -/
lemma RunSums.book_times (run : RunSums) (D a b : ℤ) (p : Input) :
    (run.book D a b p).date = run.date ∧ (run.book D a b p).startS = run.startS ∧
      (run.book D a b p).endS = b := by
  rw [RunSums.book]
  split
  · exact ⟨rfl, rfl, rfl⟩
  · rw [RunSums.bookOutdoor_eq, RunSums.bookThermal_eq, RunSums.bookRunning_eq, RunSums.bookPower_eq]
    exact ⟨rfl, rfl, rfl⟩

lemma tracksRuns_start : TracksRuns {} [] [] where
  last := nofun
  isOpen := nofun
  openRun := nofun
  handedOut := rfl
  spans _ h := absurd h List.not_mem_nil
  apart := .nil
  before := nofun

/-- The run in progress with one more reading. -/
lemma TracksRuns.continued (h : TracksRuns s calls runs) (hopen : s.tracker.isOpen)
    (hin : s.tracker.inStep r.nowS) :
    ∃ before first rest, calls ++ [.add r] = before ++ (first :: rest).map .add ∧
      (first :: rest).IsChain Continues ∧ (s.tracker.continued r.nowS).date = first.date ∧
      (s.tracker.continued r.nowS).startS = first.nowS ∧
      (s.tracker.continued r.nowS).endS = ((first :: rest).getLast (List.cons_ne_nil _ _)).nowS := by
  obtain ⟨hdate', hstart', hend'⟩ := RunSums.book_times s.tracker.sums s.tracker.defrostEndS
    s.tracker.prevS r.nowS s.tracker.prev
  rw [RunTracker.inStep, Bool.and_eq_true, Bool.and_eq_true] at hin
  obtain ⟨⟨hprev, hrises⟩, hstep⟩ := hin
  obtain ⟨before, first, rest, after, hcalls, hchain, hdate, hstart, -, hafter⟩ := h.openRun hopen
  obtain ⟨before', p, hcalls', hprevS, hinput⟩ := h.last hprev
  rw [hafter hprev, List.append_nil] at hcalls
  -- the reference is the last reading of the run
  have hlast : (first :: rest).getLast (List.cons_ne_nil _ _) = p := by
    have hsame := congrArg List.getLast? (hcalls.symm.trans hcalls')
    rw [List.getLast?_concat, List.getLast?_append_of_ne_nil _ (by simp), List.getLast?_map,
      List.getLast?_eq_getLast_of_ne_nil (List.cons_ne_nil first rest)] at hsame
    cases hsame
    rfl
  refine ⟨before, first, rest ++ [r], ?_, ?_, hdate'.trans hdate, hstart'.trans hstart, ?_⟩
  · rw [hcalls, List.append_assoc, ← List.cons_append, List.map_append]
    rfl
  · rw [← List.cons_append]
    refine hchain.append (.singleton _) fun a ha b hb => ?_
    rw [List.getLast?_eq_getLast_of_ne_nil (List.cons_ne_nil first rest), hlast] at ha
    cases ha
    cases hb
    refine ⟨?_, hprevS ▸ of_decide_eq_true hrises, hprevS ▸ of_decide_eq_true hstep⟩
    rw [← hinput, ← h.isOpen hprev]
    exact hopen
  · rw [RunTracker.continued, hend']
    simp

/-- The run that a reading ends. -/
lemma TracksRuns.ending (h : TracksRuns s calls runs) {run : RunSums}
    (hend : s.tracker.ending r.nowS r.input = some run) :
    s.tracker.isOpen ∧ Spans (calls ++ [.add r]) run ∧ run.startS = s.tracker.sums.startS := by
  rw [RunTracker.ending] at hend
  split at hend
  · cases hend
  · next hopen =>
      have hopen' := not_not.mp hopen
      refine ⟨hopen', ?_⟩
      split at hend
      · next hin =>
          split at hend
          · cases hend
          · obtain rfl := Option.some.inj hend
            obtain ⟨before, first, rest, hcalls, hchain, hdate, hstart, hlast⟩ :=
              h.continued (r := r) hopen' hin
            refine ⟨⟨before, first, rest, [], ?_, hchain, hdate, hstart, hlast⟩, ?_⟩
            · rw [hcalls, List.append_nil]
            · exact (RunSums.book_times _ _ _ _ _).2.1
      · obtain rfl := Option.some.inj hend
        exact ⟨(h.openRun hopen').spans.concat _, rfl⟩

/-- **The step lemma** of a reading. -/
lemma TracksRuns.add (h : TracksRuns s calls runs) (hclock : NeverBack (calls ++ [.add r])) :
    ∃ runs', TracksRuns (s.step (.add r)) (calls ++ [.add r]) runs' := by
  have hadded := s.tracker.add_added r.nowS r.date r.input
  have hpast : ∀ run ∈ runs, run.endS ≤ r.nowS := fun run hrun =>
    (h.spans run hrun).1.end_le hclock
  -- the run that is handed out, if any
  obtain ⟨new, hnew⟩ : ∃ new : Option RunSums, new = (s.tracker.ending r.nowS r.input).bind
      fun run => if run.endS ≤ run.startS then none else some run := ⟨_, rfl⟩
  have htaken : (s.tracker.add r.nowS r.date r.input).takeFinished = new.map RunSums.record := by
    rw [hadded.takeFinished, hnew]
    cases s.tracker.ending r.nowS r.input with
    | none => rfl
    | some run =>
        dsimp only [Option.bind_some]
        split <;> rfl
  have hfinished : ∀ run ∈ new.toList, s.tracker.isOpen ∧ Spans (calls ++ [.add r]) run ∧
      run.startS = s.tracker.sums.startS ∧ run.startS < run.endS := by
    intro run hrun
    rw [Option.mem_toList, hnew] at hrun
    obtain ⟨run', hend, hkeep⟩ := Option.bind_eq_some_iff.mp hrun
    split at hkeep
    · cases hkeep
    · next hlong =>
        obtain rfl := Option.some.inj hkeep
        obtain ⟨hopen, hspans, hstart⟩ := h.ending hend
        exact ⟨hopen, hspans, hstart, not_le.mp hlong⟩
  refine ⟨runs ++ new.toList, fun _ => ⟨calls, r, rfl, hadded.prevS, hadded.prev⟩, fun _ => ?_,
    fun hopen => ?_, ?_, fun run hrun => ?_, ?_, fun hopen run hrun => ?_⟩
  · exact hadded.isOpen.trans (congrArg _ hadded.prev.symm)
  · have hsums := hadded.sums (hadded.isOpen.symm.trans hopen)
    have hstep : (s.step (.add r)).tracker = s.tracker.add r.nowS r.date r.input := rfl
    rw [OpenRun, hstep, hsums, RunTracker.following]
    split
    · next hgoes =>
        obtain ⟨before, first, rest, hcalls, hchain, hdate, hstart, hlast⟩ :=
          h.continued (r := r) hgoes.1 hgoes.2
        exact ⟨before, first, rest, [], by rw [hcalls, List.append_nil], hchain, hdate, hstart,
          hlast, fun _ => rfl⟩
    · exact ⟨calls, r, [], [], by simp, .singleton _, rfl, rfl, rfl, fun _ => rfl⟩
  · show s.handedOut ++ (s.tracker.add r.nowS r.date r.input).takeFinished.toList = _
    rw [h.handedOut, htaken, List.map_append]
    cases new <;> rfl
  · rcases List.mem_append.mp hrun with hold | hlast
    · exact ⟨(h.spans run hold).1.concat _, (h.spans run hold).2⟩
    · obtain ⟨-, hspans, -, hlong⟩ := hfinished run hlast
      exact ⟨hspans, hlong⟩
  · rw [List.pairwise_append]
    refine ⟨h.apart, ?_, fun a ha b hb => ?_⟩
    · cases new with
      | none => exact .nil
      | some run => exact List.pairwise_singleton _ _
    · obtain ⟨hopen, -, hstart, -⟩ := hfinished b hb
      rw [hstart]
      exact h.before hopen a ha
  · -- a run that goes on began after the others, and a new one begins now
    have hsums := hadded.sums (hadded.isOpen.symm.trans hopen)
    show run.endS ≤ (s.tracker.add r.nowS r.date r.input).sums.startS
    rw [hsums, RunTracker.following]
    split
    · next hgoes =>
        have hnone : new = none := by
          have hactive := hadded.isOpen.symm.trans hopen
          rw [hnew, RunTracker.ending, if_neg (not_not.mpr hgoes.1), if_pos hgoes.2, if_pos hactive]
          rfl
        rw [hnone, Option.toList_none, List.append_nil] at hrun
        rw [RunTracker.continued, (RunSums.book_times _ _ _ _ _).2.1]
        exact h.before hgoes.1 run hrun
    · rcases List.mem_append.mp hrun with hold | hlast
      · exact hpast run hold
      · obtain ⟨r', hmem, hend⟩ := (hfinished run hlast).2.1.end_mem
        rw [trackedReadings, List.filterMap_append] at hmem
        rcases List.mem_append.mp hmem with hmem | hmem
        · rw [NeverBack, trackedReadings, List.filterMap_append, List.pairwise_append] at hclock
          rw [← hend]
          exact hclock.2.2 r' hmem r (List.mem_singleton_self r)
        · rw [← hend, List.mem_singleton.mp hmem]

/-- **The step lemma** of a pause. -/
lemma TracksRuns.pause (h : TracksRuns s calls runs) :
    TracksRuns (s.step .pause) (calls ++ [.pause]) runs where
  last := nofun
  isOpen := nofun
  openRun hopen := by
    obtain ⟨before, first, rest, after, rfl, hchain, hdate, hstart, hend, -⟩ := h.openRun hopen
    exact ⟨before, first, rest, after ++ [.pause], by simp, hchain, hdate, hstart, hend, nofun⟩
  handedOut := h.handedOut
  spans run hrun := ⟨(h.spans run hrun).1.concat _, (h.spans run hrun).2⟩
  apart := h.apart
  before := h.before

/-- **The run lemma**. -/
lemma tracksRuns_of_calls (calls : List TrackerCall) (hclock : NeverBack calls) :
    ∃ runs, TracksRuns (trackerRun calls) calls runs := by
  induction calls using List.reverseRecOn with
  | nil => exact ⟨[], tracksRuns_start⟩
  | append_singleton calls call ih =>
      obtain ⟨runs, h⟩ := ih hclock.init
      have hstep : trackerRun (calls ++ [call]) = (trackerRun calls).step call := by
        rw [trackerRun, List.foldl_append]
        rfl
      rw [hstep]
      cases call with
      | add r => exact h.add hclock
      | pause => exact ⟨runs, h.pause⟩

end Invariant

/-! ### The records -/

/-- All readings fall in the seconds that a record can hold. -/
def WithinRecords (calls : List TrackerCall) : Prop :=
  ∀ r ∈ trackedReadings calls, 0 ≤ r.nowS ∧ r.nowS < 2 ^ 32

section Records

variable {calls : List TrackerCall} {runs : List RunSums} {run : RunSums}

/-- A run begins at one of the readings. -/
lemma Spans.start_mem (h : Spans calls run) : ∃ r ∈ trackedReadings calls, r.nowS = run.startS := by
  obtain ⟨before, first, rest, after, rfl, -, -, hstart, -⟩ := h
  refine ⟨first, ?_, hstart.symm⟩
  rw [trackedReadings, List.mem_filterMap]
  exact ⟨.add first, by simp, rfl⟩

lemma toNat_ofInt_time {x : ℤ} (h₀ : 0 ≤ x) (h₁ : x < 2 ^ 32) : ((UInt32.ofInt x).toNat : ℤ) = x := by
  rw [UInt32.ofInt, UInt32.toNat_ofNat']
  omega

/-- The times of a record are those of its run. -/
lemma Spans.record_times (h : Spans calls run) (hwithin : WithinRecords calls) :
    (run.record.startS.toNat : ℤ) = run.startS ∧ (run.record.endS.toNat : ℤ) = run.endS := by
  obtain ⟨r, hr, hstart⟩ := h.start_mem
  obtain ⟨r', hr', hend⟩ := h.end_mem
  obtain ⟨h₀, h₁⟩ := hwithin r hr
  obtain ⟨h₀', h₁'⟩ := hwithin r' hr'
  exact ⟨toNat_ofInt_time (hstart ▸ h₀) (hstart ▸ h₁), toNat_ofInt_time (hend ▸ h₀') (hend ▸ h₁')⟩

/-- A record of a run that spans some readings, with its times. -/
def RecordOf (calls : List TrackerCall) (rec : RunRecord) : Prop :=
  ∃ run, Spans calls run ∧ rec = run.record ∧ (rec.startS.toNat : ℤ) = run.startS ∧
    (rec.endS.toNat : ℤ) = run.endS

/-- **Runs are disjoint and ordered.** With a clock that never goes back, the runs handed out are of
some length, one after the other, and each spans consecutive readings in which the compressor runs;
while the times fit a record, the records say so; and after a reading a run is in progress exactly
if the compressor runs. -/
theorem runs_apart (calls : List TrackerCall) (hclock : NeverBack calls) :
    (∃ runs : List RunSums, (trackerRun calls).handedOut = runs.map RunSums.record ∧
      (∀ run ∈ runs, Spans calls run ∧ run.startS < run.endS) ∧
      runs.Pairwise fun a b => a.endS ≤ b.startS) ∧
    (WithinRecords calls →
      (∀ rec ∈ (trackerRun calls).handedOut, RecordOf calls rec ∧ rec.startS < rec.endS) ∧
      (trackerRun calls).handedOut.Pairwise fun a b => a.endS ≤ b.startS) ∧
    ∀ before r after, calls = before ++ .add r :: after →
      ((trackerRun (before ++ [.add r])).tracker.current.isSome ↔ r.input.active) := by
  obtain ⟨runs, h⟩ := tracksRuns_of_calls calls hclock
  refine ⟨⟨runs, h.handedOut, h.spans, h.apart⟩, fun hwithin => ?_, fun before r after _ => ?_⟩
  · have htimes : ∀ run ∈ runs, (run.record.startS.toNat : ℤ) = run.startS ∧
        (run.record.endS.toNat : ℤ) = run.endS := fun run hrun =>
      (h.spans run hrun).1.record_times hwithin
    rw [h.handedOut]
    refine ⟨fun rec hrec => ?_, ?_⟩
    · obtain ⟨run, hrun, rfl⟩ := List.mem_map.mp hrec
      obtain ⟨hstart, hend⟩ := htimes run hrun
      refine ⟨⟨run, (h.spans run hrun).1, rfl, hstart, hend⟩, ?_⟩
      have hlong := (h.spans run hrun).2
      rw [UInt32.lt_iff_toNat_lt]
      omega
    · refine List.pairwise_map.mpr (h.apart.imp_of_mem fun {a b} ha hb hle => ?_)
      obtain ⟨-, hend⟩ := htimes a ha
      obtain ⟨hstart, -⟩ := htimes b hb
      rw [UInt32.le_iff_toNat_le]
      omega
  · have hstep : trackerRun (before ++ [.add r]) = (trackerRun before).step (.add r) := by
      rw [trackerRun, List.foldl_append]
      rfl
    have hopen := ((trackerRun before).tracker.add_added r.nowS r.date r.input).isOpen
    have hcurrent : ((trackerRun before).step (.add r)).tracker.isOpen = r.input.active := hopen
    rw [hstep, RunTracker.current, hcurrent]
    cases r.input.active <;> simp

end Records

/-- A reading of a compressor that runs, or stands. -/
def readingAt (nowS : ℤ) (running : Bool) : TrackerCall :=
  .add { nowS, date := 20250101, input := { connected := true, running } }

instance (calls : List TrackerCall) : Decidable (NeverBack calls) :=
  inferInstanceAs (Decidable (List.Pairwise _ _))

instance (calls : List TrackerCall) : Decidable (WithinRecords calls) :=
  inferInstanceAs (Decidable (∀ r ∈ _, _))

/-- Two runs, the second after a gap, and their records. -/
theorem runs_apart_twice :
    ∃ calls : List TrackerCall, NeverBack calls ∧ WithinRecords calls ∧
      (trackerRun calls).handedOut.length = 2 ∧
      ∀ rec ∈ (trackerRun calls).handedOut, RecordOf calls rec ∧ rec.startS < rec.endS := by
  let calls := [readingAt 0 true, readingAt 60 true, readingAt 600 true, readingAt 660 false]
  have hclock : NeverBack calls := by decide
  have hwithin : WithinRecords calls := by decide
  obtain ⟨-, hrecords, -⟩ := runs_apart calls hclock
  exact ⟨calls, hclock, hwithin, by decide +kernel, (hrecords hwithin).1⟩

/-- A run that goes on past the seconds that 32 bits hold ends before it begins, in its record. -/
theorem run_past_2106 : ¬ ∀ calls : List TrackerCall, NeverBack calls →
    ∀ rec ∈ (trackerRun calls).handedOut, rec.startS < rec.endS := by
  intro h
  have hwraps := h [readingAt (2 ^ 32 - 60) true, readingAt (2 ^ 32) false] (by decide)
  exact absurd hwraps (by decide +kernel)

end ArcticController

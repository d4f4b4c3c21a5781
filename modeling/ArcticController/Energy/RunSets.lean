/-
The day of a run as a set in the order of the starts.

* `mem_insertRun`, `insertRun_eq_none`: a run more replaces the one with its start, and there is
  no room exactly in a full day without it;
* `storedRuns`, `DaySet`, `DaysSorted`: the runs stored for a day, and how all days are stored;
* `Appended`: what an append leaves, by its outcome; `storeAppendRun_appended`;
* `Appends`: the states after some appends, `LastAppended`, `RunsThere`: what of them is stored;
* `days_are_sets`: all of this after any appends, whatever writes fail;
* `append_order`: what the appends of a day leave does not depend on their order.
-/
import ArcticController.Energy.CalendarDates

namespace ArcticController

/-! ### One run more -/

section Insert

variable {runs runs' : List RunRecord} {r x : RunRecord}

/-- Two runs of a day in order with one start are the same run. -/
lemma StartOrder.eq_of_startS (horder : StartOrder runs) {a b : RunRecord} (ha : a ∈ runs)
    (hb : b ∈ runs) (h : a.startS = b.startS) : a = b := by
  have hdistinct : runs.Pairwise fun a b => a.startS ≠ b.startS :=
    horder.imp fun hlt => UInt32.ne_of_lt hlt
  have : Std.Symm fun a b : RunRecord => a.startS ≠ b.startS := ⟨fun _ _ hne => hne.symm⟩
  by_contra hne
  exact hdistinct.forall ha hb hne h

/-- A start that is not that of the run before its position is that of no run. -/
lemma StartOrder.new (horder : StartOrder runs) {startS : UInt32}
    (hnew : ¬(insertPos runs startS runs.length > 0 ∧
      (runs.getD (insertPos runs startS runs.length - 1) default).startS = startS)) :
    ∀ a ∈ runs, a.startS ≠ startS := by
  obtain ⟨hlt, hgt⟩ := horder.around hnew
  intro a ha
  rw [← List.take_append_drop (insertPos runs startS runs.length) runs, List.mem_append] at ha
  rcases ha with ha | ha
  · exact UInt32.ne_of_lt (hlt a ha)
  · exact (UInt32.ne_of_lt (hgt a ha)).symm

/-- A run more replaces the one with its start. -/
lemma mem_insertRun (horder : StartOrder runs) (h : insertRun runs r = some runs') :
    x ∈ runs' ↔ x = r ∨ (x ∈ runs ∧ x.startS ≠ r.startS) := by
  obtain ⟨hle, -, -⟩ := insertPos_spec runs r.startS runs.length le_rfl
  rw [insertRun] at h
  set n := insertPos runs r.startS runs.length
  split at h
  next hsame =>
    cases h
    have hlt : n - 1 < runs.length := by omega
    have hstart : runs[n - 1].startS = r.startS := by
      rw [← getD_eq_getElem hlt]
      exact hsame.2
    constructor
    · intro hx
      obtain ⟨i, hi, rfl⟩ := List.mem_iff_getElem.mp hx
      rw [List.length_set] at hi
      by_cases heq : n - 1 = i
      · subst heq
        exact .inl (List.getElem_set_self _)
      · rw [List.getElem_set_ne heq]
        refine .inr ⟨List.getElem_mem hi, fun hsame' => heq ?_⟩
        have hne : runs.Pairwise (· ≠ ·) := horder.imp fun hlt heq => by
          rw [heq] at hlt
          exact UInt32.lt_irrefl _ hlt
        exact (List.nodup_iff_pairwise_ne.mpr hne).getElem_inj_iff.mp
          (horder.eq_of_startS (List.getElem_mem hlt) (List.getElem_mem hi) (hstart.trans hsame'.symm))
    · rintro (rfl | ⟨hx, hne⟩)
      · exact List.mem_set hlt _
      · obtain ⟨i, hi, rfl⟩ := List.mem_iff_getElem.mp hx
        refine List.mem_iff_getElem.mpr ⟨i, by rwa [List.length_set], ?_⟩
        refine List.getElem_set_ne ?_ _
        rintro rfl
        exact hne hstart
  next hnew =>
    split at h
    next hroom =>
      cases h
      have hother := horder.new hnew
      have hmem : x ∈ runs ↔ x ∈ runs.take n ∨ x ∈ runs.drop n := by
        rw [← List.mem_append, List.take_append_drop]
      rw [List.mem_append, List.mem_cons]
      constructor
      · rintro (hx | rfl | hx)
        · exact .inr ⟨List.mem_of_mem_take hx, hother x (List.mem_of_mem_take hx)⟩
        · exact .inl rfl
        · exact .inr ⟨List.mem_of_mem_drop hx, hother x (List.mem_of_mem_drop hx)⟩
      · rintro (rfl | ⟨hx, -⟩)
        · exact .inr (.inl rfl)
        · exact (hmem.mp hx).imp_right .inr
    next => cases h

/-- There is no room for a run exactly in a full day that has none with its start. -/
lemma insertRun_eq_none (horder : StartOrder runs) : insertRun runs r = none ↔
    kMaxRunsPerDay ≤ runs.length ∧ ∀ a ∈ runs, a.startS ≠ r.startS := by
  obtain ⟨hle, -, -⟩ := insertPos_spec runs r.startS runs.length le_rfl
  constructor
  · intro h
    rw [insertRun] at h
    set n := insertPos runs r.startS runs.length
    split at h
    next => cases h
    next hnew =>
      split at h
      next => cases h
      next hfull =>
        exact ⟨not_lt.mp hfull, horder.new hnew⟩
  · rintro ⟨hfull, hother⟩
    have hnew : ¬(insertPos runs r.startS runs.length > 0 ∧
        (runs.getD (insertPos runs r.startS runs.length - 1) default).startS = r.startS) := by
      rintro ⟨hpos, hsame⟩
      have hlt : insertPos runs r.startS runs.length - 1 < runs.length := by omega
      rw [getD_eq_getElem hlt] at hsame
      exact hother _ (List.getElem_mem hlt) hsame
    rw [insertRun, if_neg hnew, if_neg (not_lt.mpr hfull)]

end Insert

/-! ### The days of a store -/

/-- A run as it is stored: without the mark of an open one. -/
def closedRun (run : RunRecord) : RunRecord := { run with flags := run.flags &&& ~~~ runOpen }

/-- The runs stored for a day. -/
def storedRuns (s : NvsFlash UInt32) (date : UInt32) : List RunRecord :=
  (storedDay s date).elim [] RunDay.runs

/-- The runs of a day: one for each start, in the order of the starts, none of them open. -/
structure DaySet (date : UInt32) (runs : List RunRecord) : Prop where
  order : StartOrder runs
  length : runs.length ≤ kMaxRunsPerDay
  dated : ∀ r ∈ runs, r.date = date
  closed : ∀ r ∈ runs, r.flags &&& runOpen = 0

/-- Every blob is a day, and its runs are a set of runs of that day. -/
def DaysSorted (s : NvsFlash UInt32) : Prop :=
  ∀ date blob, s date = some blob →
    ∃ day, decodeRunDay date blob = some day ∧ DaySet date day.runs

/-- The day of the run is full, without a run that starts when it does. -/
def DayFull (s : NvsFlash UInt32) (run : RunRecord) : Prop :=
  kMaxRunsPerDay ≤ (storedRuns s run.date).length ∧
    ∀ a ∈ storedRuns s run.date, a.startS ≠ run.startS

/-- The days that have aged out when a day begins. -/
def agedOutDays (date : UInt32) : List UInt32 :=
  (List.range 60).map fun i : ℕ => dateAddDays date (-((kRunDaysKept : ℤ) + i))

section Days

variable {s s' : NvsFlash UInt32} {date : UInt32} {run : RunRecord}

lemma daySet_nil (date : UInt32) : DaySet date [] :=
  ⟨List.Pairwise.nil, Nat.zero_le _, nofun, nofun⟩

lemma storedRuns_none (h : s date = none) : storedRuns s date = [] := by
  rw [storedRuns, storedDay, h]
  rfl

lemma storedRuns_congr (h : s' date = s date) : storedRuns s' date = storedRuns s date := by
  rw [storedRuns, storedRuns, storedDay, storedDay, h]

lemma DaysSorted.daySet (h : DaysSorted s) (date : UInt32) : DaySet date (storedRuns s date) := by
  cases hblob : s date with
  | none =>
      rw [storedRuns_none hblob]
      exact daySet_nil date
  | some blob =>
      obtain ⟨day, hday, hset⟩ := h date blob hblob
      rw [storedRuns, storedDay, hblob, Option.bind_some, hday]
      exact hset

/-- A day that is decoded fits the buffer it is read into. -/
lemma length_le_of_decode {blob : List UInt8} {day : RunDay}
    (h : decodeRunDay date blob = some day) : blob.length ≤ runBlobSize kMaxRunsPerDay := by
  rw [decodeRunDay] at h
  split at h
  · cases h
  · split at h
    next hvalid =>
      simp only [runDayValid, Bool.and_eq_true, beq_iff_eq, decide_eq_true_eq] at hvalid
      obtain ⟨⟨⟨-, hcount⟩, hlength⟩, -⟩ := hvalid
      rw [hlength, runBlobSize, runBlobSize]
      exact Nat.add_le_add_left (Nat.mul_le_mul_right _ hcount) _
    next => cases h

/-- A day that ages out is another one. -/
lemma notMem_agedOutDays (date : UInt32) : date ∉ agedOutDays date := by
  intro h
  obtain ⟨i, hi, heq⟩ := List.mem_map.mp h
  have hlt := List.mem_range.mp hi
  have hkept : (kRunDaysKept : ℤ) = 15 := rfl
  exact dateAddDays_ne (by omega) (by omega) heq

/-- The runs of a day with one more. -/
lemma DaySet.insert {runs runs' : List RunRecord} (h : DaySet run.date runs)
    (hinsert : insertRun runs (closedRun run) = some runs') : DaySet run.date runs' where
  order := insertRun_order h.order hinsert
  length := insertRun_length h.length hinsert
  dated r hr := by
    rcases (mem_insertRun h.order hinsert).mp hr with rfl | ⟨hr, -⟩
    · rfl
    · exact h.dated r hr
  closed r hr := by
    rcases (mem_insertRun h.order hinsert).mp hr with rfl | ⟨hr, -⟩
    · show run.flags &&& ~~~ runOpen &&& runOpen = 0
      rw [UInt8.and_assoc, UInt8.and_comm (~~~ runOpen), UInt8.and_not_self, UInt8.and_zero]
    · exact h.closed r hr

end Days

/-! ### What an append leaves -/

/-- The flash after the run was written to its day. -/
def Put (run : RunRecord) (s s' : NvsFlash UInt32) : Prop :=
  ∃ (day : RunDay) (runs : List RunRecord), day.Framed run.date ∧
    insertRun (storedRuns s run.date) (closedRun run) = some runs ∧
    s' = Function.update s run.date (some (runDayBytes (day.withRuns runs)))

/-- What an append leaves, by its outcome: an error, or a loss of power, does not tell whether the
write reached the flash. -/
inductive Appended (run : RunRecord) (s : NvsFlash UInt32) :
    Outcome EspErr Bool → NvsFlash UInt32 → Prop
  | unchanged {o : Outcome EspErr Bool} (ho : o ≠ .val true) : Appended run s o s
  | full (hfull : DayFull s run) : Appended run s (.val true) s
  | unsure {o : Outcome EspErr Bool} {s' : NvsFlash UInt32} (ho : o ≠ .val true)
      (hput : Put run s s') : Appended run s o s'
  | stored {s' : NvsFlash UInt32} (hput : Put run s s') (hold : (s run.date).isSome) :
      Appended run s (.val true) s'
  | opened {o : Outcome EspErr Bool} {s₁ s' : NvsFlash UInt32} (ho : o ≠ .val false)
      (hput : Put run s s₁) (hnew : s run.date = none)
      (hswept : ∀ date, s' date = s₁ date ∨ (date ∈ agedOutDays run.date ∧ s' date = none)) :
      Appended run s o s'

section Spec

variable {s s' : NvsFlash UInt32} {run : RunRecord}

/-- Some of the days from `days` before `date` on are dropped, and no other one. -/
lemma sweepDays_range (date : UInt32) (count : ℕ) (days : ℤ) (s : NvsFlash UInt32) :
    wp readsSucceed (sweepDays date count days) (fun o s' => (o = .val () ∨ o = .cut) ∧
      ∀ d, s' d = s d ∨ ((∃ i < count, d = dateAddDays date (-(days + i))) ∧ s' d = none)) s := by
  induction count generalizing days s with
  | zero => exact wp_pure ⟨.inl rfl, fun d => .inl rfl⟩
  | succ count ih =>
      have hmaybe : ∀ reached : Bool, ∀ d,
          (if reached then Function.update s (dateAddDays date (-days)) none else s) d = s d ∨
            ((∃ i < count + 1, d = dateAddDays date (-(days + (i : ℕ)))) ∧
              (if reached then Function.update s (dateAddDays date (-days)) none else s) d = none) := by
        intro reached d
        cases reached with
        | false => exact .inl rfl
        | true =>
            rw [if_pos rfl]
            by_cases hd : d = dateAddDays date (-days)
            · refine .inr ⟨⟨0, Nat.succ_pos _, ?_⟩, by rw [hd, Function.update_self]⟩
              rw [hd, Nat.cast_zero, add_zero]
            · exact .inl (Function.update_of_ne hd _ _)
      have hrest : ∀ s₁ : NvsFlash UInt32, (∀ d, s₁ d = s d ∨
          ((∃ i < count + 1, d = dateAddDays date (-(days + (i : ℕ)))) ∧ s₁ d = none)) →
          wp readsSucceed (sweepDays date count (days + 1)) (fun o s' => (o = .val () ∨ o = .cut) ∧
            ∀ d, s' d = s d ∨
              ((∃ i < count + 1, d = dateAddDays date (-(days + (i : ℕ)))) ∧ s' d = none)) s₁ := by
        intro s₁ hs₁
        refine wp_mono (ih (days + 1) s₁) fun o s' h => ⟨h.1, fun d => ?_⟩
        rcases h.2 d with heq | ⟨⟨i, hi, rfl⟩, hnone⟩
        · rw [heq]
          exact hs₁ d
        · refine .inr ⟨⟨i + 1, by omega, ?_⟩, hnone⟩
          congr 2
          push_cast
          ring
      rw [sweepDays]
      refine wp_bind (NvsFlash.wp_attempt_eraseKey (by trivial) ?_ (fun _ => ?_)
        (fun e reached _ => ?_) (fun reached _ => ⟨.inr rfl, hmaybe reached⟩))
      · rw [andThen_val]
        refine wp_bind (NvsFlash.wp_attempt_plain (by trivial) ?_ (fun e _ _ => ?_)
          ⟨.inr rfl, hmaybe true⟩)
        · exact hrest _ (hmaybe true)
        · exact hrest _ (hmaybe true)
      · exact hrest s fun d => .inl rfl
      · exact hrest _ (hmaybe reached)

/-- Writing a day, and dropping others if it is new. -/
lemma writeDay_appended {existed : Bool} {day : RunDay} {runs : List RunRecord}
    (hframed : day.Framed run.date)
    (hinsert : insertRun (storedRuns s run.date) (closedRun run) = some runs)
    (hexisted : existed = (s run.date).isSome) :
    wp readsSucceed (writeDay existed (day.withRuns runs)) (fun o s' => Appended run s o s') s := by
  have hput : Put run s (Function.update s run.date (some (runDayBytes (day.withRuns runs)))) :=
    ⟨day, runs, hframed, hinsert, rfl⟩
  have hdate : (day.withRuns runs).h.date = run.date := hframed.date
  have hmaybe : ∀ {o : Outcome EspErr Bool} (reached : Bool), o ≠ .val true → Appended run s o
      (if reached then Function.update s run.date (some (runDayBytes (day.withRuns runs))) else s) := by
    intro o reached ho
    cases reached with
    | true => exact .unsure ho hput
    | false => exact .unchanged ho
  rw [writeDay, hdate]
  refine wp_bind (wp_attempt (NvsFlash.wp_set (by trivial) ?_ (fun e reached _ => ?_)
    (fun reached _ => hmaybe reached (by rintro ⟨⟩))))
  swap
  · rw [attempted_err, andThen_val]
    exact wp_pure (hmaybe reached (by rintro ⟨⟩))
  rw [attempted_val, andThen_val]
  refine wp_bind (NvsFlash.wp_attempt_plain (by trivial) ?_ (fun e _ _ => ?_) (.unsure (by rintro ⟨⟩) hput))
  swap
  · rw [andThen_val]
    exact wp_pure (.unsure (by rintro ⟨⟩) hput)
  rw [andThen_val]
  cases existed with
  | true => exact wp_pure (.stored hput hexisted.symm)
  | false =>
      have hnew : s run.date = none := Option.not_isSome_iff_eq_none.mp (by rw [← hexisted]; decide)
      refine wp_if_neg Bool.false_ne_true (wp_bind (wp_mono (sweepDays_range _ _ _ _) ?_))
      rintro o s' ⟨ho, hswept⟩
      have haged : ∀ d, s' d = Function.update s run.date
            (some (runDayBytes (day.withRuns runs))) d ∨
          (d ∈ agedOutDays run.date ∧ s' d = none) := by
        intro d
        refine (hswept d).imp_right ?_
        rintro ⟨⟨i, hi, heq⟩, hnone⟩
        refine ⟨?_, hnone⟩
        exact List.mem_map.mpr ⟨i, List.mem_range.mpr hi, heq.symm⟩
      rcases ho with rfl | rfl
      · rw [andThen_val]
        exact wp_pure (.opened (by rintro ⟨⟩) hput hnew haged)
      · exact .opened (by rintro ⟨⟩) hput hnew haged

/-- An append leaves the flash as `Appended` says, whatever writes fail. -/
theorem storeAppendRun_appended (h : DaysSorted s) (run : RunRecord) :
    wp readsSucceed (storeAppendRun run) (fun o s' => Appended run s o s') s := by
  have hstop : wp readsSucceed (pure false : RunsM Bool) (fun o s' => Appended run s o s') s :=
    wp_pure (.unchanged (by rintro ⟨⟩))
  rw [storeAppendRun]
  by_cases hzero : run.date = 0
  · exact wp_if_pos hzero hstop
  refine wp_if_neg hzero ?_
  refine wp_bind (NvsFlash.wp_attempt_plain (by trivial) ?_ (fun e _ _ => ?_) (.unchanged (by rintro ⟨⟩)))
  swap
  · exact hstop
  rw [andThen_val]
  refine wp_bind (NvsFlash.wp_attempt_plain (by trivial) ?_ (fun e _ _ => ?_) (.unchanged (by rintro ⟨⟩)))
  swap
  · exact hstop
  rw [andThen_val]
  -- a read that does not fail finds the day if there is one
  have hload : wp readsSucceed (loadDay run.date)
      (fun o s' => s' = s ∧ (o = .val (storedDay s run.date) ∨ o = .cut)) s := by
    rw [loadDay]
    refine wp_bind (NvsFlash.wp_attempt_getValue (by trivial) ?_ (fun e reached hallowed => ?_)
      ⟨rfl, .inr rfl⟩)
    swap
    · exact absurd hallowed Bool.noConfusion
    rw [andThen_val]
    cases hblob : s run.date with
    | none =>
        rw [NvsFlash.read, hblob]
        refine wp_pure ⟨rfl, .inl ?_⟩
        rw [storedDay, hblob]
        rfl
    | some blob =>
        obtain ⟨day, hday, hset⟩ := h run.date blob hblob
        rw [NvsFlash.read_ok hblob (length_le_of_decode hday)]
        refine wp_pure ⟨rfl, .inl ?_⟩
        rw [storedDay, hblob]
        rfl
  refine wp_bind (wp_mono hload ?_)
  rintro o s' ⟨rfl, rfl | rfl⟩
  swap
  · exact .unchanged (by rintro ⟨⟩)
  rw [andThen_val]
  dsimp only
  have hset := h.daySet run.date
  have hruns : ((storedDay s' run.date).getD (blankRunDay run.date)).runs
      = storedRuns s' run.date := by
    rw [storedRuns]
    cases storedDay s' run.date <;> rfl
  have hframed : ((storedDay s' run.date).getD (blankRunDay run.date)).Framed run.date := by
    cases hday : storedDay s' run.date with
    | none => exact framed_blankRunDay _
    | some day =>
        obtain ⟨blob, -, hblob⟩ := Option.bind_eq_some_iff.mp hday
        exact framed_of_decode hblob
  have hexisted : (storedDay s' run.date).isSome = (s' run.date).isSome := by
    cases hblob : s' run.date with
    | none =>
        rw [storedDay, hblob]
        rfl
    | some blob =>
        obtain ⟨day, hday, -⟩ := h run.date blob hblob
        rw [storedDay, hblob, Option.bind_some, hday]
        rfl
  rw [hruns]
  cases hinsert : insertRun (storedRuns s' run.date) { run with flags := run.flags &&& ~~~ runOpen } with
  | none =>
      exact wp_pure (.full ((@insertRun_eq_none _ (closedRun run) hset.order).mp hinsert))
  | some runs => exact writeDay_appended hframed hinsert hexisted

end Spec

/-- What an append does to the stored runs: a full day is left as it is, a run that is reported as
stored is in its day, the other runs of the day stay, and other days stay or have aged out. -/
structure AppendKeeps (run : RunRecord) (s : NvsFlash UInt32) (o : Outcome EspErr Bool)
    (s' : NvsFlash UInt32) : Prop where
  full : DayFull s run → s' = s
  written : o = .val true → ¬DayFull s run → closedRun run ∈ storedRuns s' run.date
  others : ∀ r, r.startS ≠ run.startS →
    (r ∈ storedRuns s' run.date ↔ r ∈ storedRuns s run.date)
  own : ∀ r ∈ storedRuns s' run.date, r.startS = run.startS →
    r = closedRun run ∨ o ≠ .val true ∧ r ∈ storedRuns s run.date
  there : (∃ r ∈ storedRuns s run.date, r.startS = run.startS) →
    ∃ r ∈ storedRuns s' run.date, r.startS = run.startS
  days : ∀ date, date ≠ run.date → s' date = s date ∨
    o ≠ .val false ∧ s run.date = none ∧ date ∈ agedOutDays run.date ∧ s' date = none

section Keeps

variable {s s' : NvsFlash UInt32} {run : RunRecord} {o : Outcome EspErr Bool}

/-- A written day holds its runs and the new one. -/
lemma Put.spec (h : DaysSorted s) (hput : Put run s s') : DaysSorted s' ∧ ¬DayFull s run ∧
    (∀ r, r ∈ storedRuns s' run.date ↔
      r = closedRun run ∨ (r ∈ storedRuns s run.date ∧ r.startS ≠ run.startS)) ∧
    ∀ date, date ≠ run.date → s' date = s date := by
  obtain ⟨day, runs, hframed, hinsert, rfl⟩ := hput
  have hset := h.daySet run.date
  have hset' := hset.insert hinsert
  have hdecode := decodeRunDay_bytes hframed hset'.length
  have hruns : storedRuns (Function.update s run.date (some (runDayBytes (day.withRuns runs))))
      run.date = runs := by
    rw [storedRuns, storedDay, Function.update_self, Option.bind_some, hdecode]
    rfl
  refine ⟨fun date blob hblob => ?_, fun hfull => ?_, fun r => ?_,
    fun date hne => Function.update_of_ne hne _ _⟩
  · by_cases hdate : date = run.date
    · subst hdate
      rw [Function.update_self, Option.some.injEq] at hblob
      subst hblob
      exact ⟨_, hdecode, hset'⟩
    · rw [Function.update_of_ne hdate] at hblob
      exact h date blob hblob
  · rw [(@insertRun_eq_none _ (closedRun run) hset.order).mpr hfull] at hinsert
    cases hinsert
  · rw [hruns]
    exact mem_insertRun hset.order hinsert

/-- The days stay sets. -/
lemma Appended.daysSorted (h : DaysSorted s) (happended : Appended run s o s') : DaysSorted s' := by
  cases happended with
  | unchanged => exact h
  | full => exact h
  | unsure ho hput => exact (hput.spec h).1
  | stored hput => exact (hput.spec h).1
  | opened ho hput hnew hswept =>
      intro date blob hblob
      rcases hswept date with heq | ⟨-, hnone⟩
      · rw [heq] at hblob
        exact (hput.spec h).1 date blob hblob
      · rw [hnone] at hblob
        cases hblob

/-- What an append does when the day was written and other days were dropped or not. -/
lemma Put.keeps (h : DaysSorted s) {s₁ : NvsFlash UInt32} (hput : Put run s s₁)
    (hown : s' run.date = s₁ run.date)
    (hdays : ∀ date, date ≠ run.date → s' date = s₁ date ∨
      o ≠ .val false ∧ s run.date = none ∧ date ∈ agedOutDays run.date ∧ s' date = none) :
    AppendKeeps run s o s' := by
  obtain ⟨-, hroom, hmem, hother⟩ := hput.spec h
  have hmem' : ∀ r, r ∈ storedRuns s' run.date ↔
      r = closedRun run ∨ (r ∈ storedRuns s run.date ∧ r.startS ≠ run.startS) := by
    intro r
    rw [storedRuns_congr hown]
    exact hmem r
  have hnew : closedRun run ∈ storedRuns s' run.date := (hmem' _).mpr (.inl rfl)
  refine ⟨fun hfull => absurd hfull hroom, fun _ _ => hnew, fun r hne => ?_, fun r hr hsame => ?_,
    fun _ => ⟨_, hnew, rfl⟩, fun date hne => ?_⟩
  · rw [hmem']
    refine ⟨?_, fun hr => .inr ⟨hr, hne⟩⟩
    rintro (rfl | ⟨hr, -⟩)
    · exact absurd rfl hne
    · exact hr
  · rcases (hmem' r).mp hr with heq | ⟨-, hne⟩
    · exact .inl heq
    · exact absurd hsame hne
  · rw [← hother date hne]
    exact hdays date hne

lemma Appended.keeps (h : DaysSorted s) (happended : Appended run s o s') :
    AppendKeeps run s o s' := by
  cases happended with
  | unchanged ho =>
      exact ⟨fun _ => rfl, fun htrue => absurd htrue ho, fun _ _ => Iff.rfl,
        fun r hr _ => .inr ⟨ho, hr⟩, fun hr => hr, fun _ _ => .inl rfl⟩
  | full hfull =>
      exact ⟨fun _ => rfl, fun _ hroom => absurd hfull hroom, fun _ _ => Iff.rfl,
        fun r hr hsame => absurd hsame (hfull.2 r hr), fun hr => hr, fun _ _ => .inl rfl⟩
  | unsure ho hput => exact hput.keeps h rfl fun _ _ => .inl rfl
  | stored hput => exact hput.keeps h rfl fun _ _ => .inl rfl
  | opened ho hput hnew hswept =>
      refine hput.keeps h ?_ fun date _ =>
        (hswept date).imp_right fun haged => ⟨ho, hnew, haged.1, haged.2⟩
      exact (hswept run.date).resolve_right fun haged => notMem_agedOutDays _ haged.1

end Keeps

/-! ### Any appends -/

/-- An append, with the flash that it found and its outcome. -/
structure AppendCall where
  run : RunRecord
  before : NvsFlash UInt32
  out : Outcome EspErr Bool

/-- The flash after some appends to an empty one, the last append first. -/
inductive Appends : List AppendCall → NvsFlash UInt32 → Prop
  | start : Appends [] fun _ => none
  | call {calls : List AppendCall} {s : NvsFlash UInt32} (h : Appends calls s) (run : RunRecord)
      (script : List NvsFault) (hreads : readsSucceed.Covers (storeAppendRun run s script).ops) :
      Appends (⟨run, s, (storeAppendRun run s script).out⟩ :: calls)
        (storeAppendRun run s script).state

/-- A stored run is that of the last append under its date and start, of those reported as stored
and of the others after them. -/
def LastAppended (calls : List AppendCall) (s : NvsFlash UInt32) : Prop :=
  ∀ date, ∀ r ∈ storedRuns s date, ∃ newer c older, calls = newer ++ c :: older ∧
    c.run.date = date ∧ closedRun c.run = r ∧
    ∀ c' ∈ newer, c'.run.date = date → c'.run.startS = r.startS → c'.out ≠ .val true

/-- A run that was reported as stored, and had room, has its start in its day until that ages
out. -/
def RunsThere (calls : List AppendCall) (s : NvsFlash UInt32) : Prop :=
  ∀ newer c older, calls = newer ++ c :: older → c.out = .val true → ¬DayFull c.before c.run →
    (∃ r ∈ storedRuns s c.run.date, r.startS = c.run.startS) ∨
      ∃ c' ∈ newer, c'.out ≠ .val false ∧ c'.before c'.run.date = none ∧
        c.run.date ∈ agedOutDays c'.run.date

section Appends

variable {calls : List AppendCall} {s s' : NvsFlash UInt32} {run : RunRecord}
  {o : Outcome EspErr Bool}

lemma LastAppended.step (h : LastAppended calls s) (hkeeps : AppendKeeps run s o s') :
    LastAppended (⟨run, s, o⟩ :: calls) s' := by
  intro date r hr
  -- a run that was there before is as it was, and its append is now followed by this one
  have hbefore : ∀ hr : r ∈ storedRuns s date,
      (run.date = date → run.startS = r.startS → o ≠ .val true) →
      ∃ newer c older, (⟨run, s, o⟩ :: calls : List AppendCall) = newer ++ c :: older ∧
        c.run.date = date ∧ closedRun c.run = r ∧
        ∀ c' ∈ newer, c'.run.date = date → c'.run.startS = r.startS → c'.out ≠ .val true := by
    intro hr hnot
    obtain ⟨newer, c, older, rfl, hdate, hrun, hlast⟩ := h date r hr
    exact ⟨⟨run, s, o⟩ :: newer, c, older, rfl, hdate, hrun,
      List.forall_mem_cons.mpr ⟨hnot, hlast⟩⟩
  by_cases hdate : date = run.date
  · subst hdate
    by_cases hsame : r.startS = run.startS
    · rcases hkeeps.own r hr hsame with rfl | ⟨hfailed, hr⟩
      · exact ⟨[], _, calls, rfl, rfl, rfl, nofun⟩
      · exact hbefore hr fun _ _ => hfailed
    · exact hbefore ((hkeeps.others r hsame).mp hr) fun _ heq => absurd heq.symm hsame
  · rcases hkeeps.days date hdate with heq | ⟨-, -, -, hnone⟩
    · rw [storedRuns_congr heq] at hr
      exact hbefore hr fun heq => absurd heq.symm hdate
    · rw [storedRuns_none hnone] at hr
      cases hr

lemma RunsThere.step (h : RunsThere calls s) (hkeeps : AppendKeeps run s o s') :
    RunsThere (⟨run, s, o⟩ :: calls) s' := by
  intro newer c older hcalls htrue hroom
  cases newer with
  | nil =>
      obtain ⟨rfl, -⟩ := List.cons.inj hcalls
      exact .inl ⟨_, hkeeps.written htrue hroom, rfl⟩
  | cons c₁ newer =>
      obtain ⟨rfl, hrest⟩ := List.cons.inj hcalls
      rcases h newer c older hrest htrue hroom with ⟨r, hr, hstart⟩ | ⟨c', hc', haged⟩
      · by_cases hdate : c.run.date = run.date
        · rw [hdate] at hr ⊢
          by_cases hsame : r.startS = run.startS
          · obtain ⟨r', hr', hstart'⟩ := hkeeps.there ⟨r, hr, hsame⟩
            exact .inl ⟨r', hr', hstart'.trans (hsame.symm.trans hstart)⟩
          · exact .inl ⟨r, (hkeeps.others r hsame).mpr hr, hstart⟩
        · rcases hkeeps.days _ hdate with heq | ⟨ho, hnew, haged, -⟩
          · rw [← storedRuns_congr heq] at hr
            exact .inl ⟨r, hr, hstart⟩
          · exact .inr ⟨_, List.mem_cons_self, ho, hnew, haged⟩
      · exact .inr ⟨c', List.mem_cons_of_mem _ hc', haged⟩

/-- **A day's blob is a sorted set.** After any appends in any order, whatever writes fail: each
blob is a day whose runs start one after the other, bear its date, are no more than there may be
and are not open; each run stored is the last one appended under its date and start, and a run
reported as stored stays until its day ages out; and a further append leaves a full day as it is
and, but for its own run, all the others. -/
theorem days_are_sets (h : Appends calls s) : DaysSorted s ∧ LastAppended calls s ∧
    RunsThere calls s ∧ ∀ run script, readsSucceed.Covers (storeAppendRun run s script).ops →
      AppendKeeps run s (storeAppendRun run s script).out (storeAppendRun run s script).state := by
  have hall : DaysSorted s ∧ LastAppended calls s ∧ RunsThere calls s := by
    induction h with
    | start => exact ⟨nofun, fun date r hr => absurd hr List.not_mem_nil, fun newer c older hcalls =>
        absurd hcalls (by simp)⟩
    | call h run script hreads ih =>
        obtain ⟨hsorted, hlast, hthere⟩ := ih
        have happended := (storeAppendRun_appended hsorted run script hreads).1
        have hkeeps := happended.keeps hsorted
        exact ⟨happended.daysSorted hsorted, hlast.step hkeeps, hthere.step hkeeps⟩
  obtain ⟨hsorted, hlast, hthere⟩ := hall
  exact ⟨hsorted, hlast, hthere, fun run script hreads =>
    (storeAppendRun_appended hsorted run script hreads).1.keeps hsorted⟩

/-- A call that is no read, or succeeds. -/
def readSucceeds : NvsOp UInt32 × NvsFault → Bool
  | (.getBlob _ _, fault) => !fault.isError
  | _ => true

lemma covers_of_all {ops : List (NvsOp UInt32 × NvsFault)} (h : ops.all readSucceeds = true) :
    readsSucceed.Covers ops := by
  rintro ⟨op, fault⟩ hp
  have hop := List.all_eq_true.mp h _ hp
  cases op with
  | getBlob key length =>
      rw [readSucceeds, Bool.not_eq_true'] at hop
      exact hop
  | _ => trivial

/-- A run of a quarter of an hour, which is marked as open. -/
def quarterRun : RunRecord :=
  { (default : RunRecord) with date := 20240301, startS := 1709280000, endS := 1709280900, flags := runOpen }

/-- The flash with that run. -/
def quarterStore : NvsFlash UInt32 := (storeAppendRun quarterRun (fun _ => none) []).state

/-- One run is appended. -/
theorem days_are_sets_quarter : ∃ calls, DaysSorted quarterStore ∧ LastAppended calls quarterStore ∧
    RunsThere calls quarterStore ∧ storedRuns quarterStore 20240301 = [closedRun quarterRun] := by
  have hreads : readsSucceed.Covers (storeAppendRun quarterRun (fun _ => none) []).ops :=
    covers_of_all (by decide +kernel)
  have h := days_are_sets (.call .start quarterRun [] hreads)
  exact ⟨_, h.1, h.2.1, h.2.2.1, by decide +kernel⟩

/-- The same run an hour longer. -/
def longerRun : RunRecord := { quarterRun with endS := 1709284500 }

/-- A write whose error says that the old value was not removed: the new one is on flash. -/
def removeFailed : List NvsFault := [.none, .none, .none, .error (.other 0x1107) true]

/-- An append that fails may have replaced the run. -/
theorem failed_append_replaces :
    readsSucceed.Covers (storeAppendRun longerRun quarterStore removeFailed).ops ∧
      (storeAppendRun longerRun quarterStore removeFailed).out = .val false ∧
      storedRuns quarterStore 20240301 = [closedRun quarterRun] ∧
      storedRuns (storeAppendRun longerRun quarterStore removeFailed).state 20240301
        = [closedRun longerRun] :=
  ⟨covers_of_all (by decide +kernel), by decide +kernel, by decide +kernel, by decide +kernel⟩

end Appends

/-! ### The order of appends -/

/-- Appends that all had room and were reported as stored, whatever other calls failed. -/
inductive StoredAll : List RunRecord → NvsFlash UInt32 → NvsFlash UInt32 → Prop
  | nil (s : NvsFlash UInt32) : StoredAll [] s s
  | cons {runs : List RunRecord} {s s' : NvsFlash UInt32} (run : RunRecord) (script : List NvsFault)
      (hreads : readsSucceed.Covers (storeAppendRun run s script).ops) (hroom : ¬DayFull s run)
      (hout : (storeAppendRun run s script).out = .val true)
      (hrest : StoredAll runs (storeAppendRun run s script).state s') :
      StoredAll (run :: runs) s s'

section Order

variable {runs runs' : List RunRecord} {s s' s'' : NvsFlash UInt32} {date : UInt32}

/-- The day holds the runs appended, and those of before with other starts. -/
lemma StoredAll.mem (h : StoredAll runs s s') (hs : DaysSorted s) (hdate : ∀ run ∈ runs, run.date = date)
    (hstarts : runs.Pairwise fun a b => a.startS ≠ b.startS) :
    DaysSorted s' ∧ ∀ r, r ∈ storedRuns s' date ↔
      (∃ run ∈ runs, r = closedRun run) ∨
        (r ∈ storedRuns s date ∧ ∀ run ∈ runs, r.startS ≠ run.startS) := by
  induction h with
  | nil s => exact ⟨hs, fun r => by simp⟩
  | @cons runs s s' run script hreads hroom hout hrest ih =>
      obtain ⟨hrun, hruns⟩ := List.forall_mem_cons.mp hdate
      obtain ⟨hother, hstarts⟩ := List.pairwise_cons.mp hstarts
      have happended := (storeAppendRun_appended hs run script hreads).1
      have hkeeps := happended.keeps hs
      obtain ⟨hs', hmem⟩ := ih (happended.daysSorted hs) hruns hstarts
      subst hrun
      refine ⟨hs', fun r => ?_⟩
      rw [hmem, List.exists_mem_cons_iff, List.forall_mem_cons]
      by_cases hsame : r.startS = run.startS
      · have hown : r ∈ storedRuns (storeAppendRun run s script).state run.date ↔ r = closedRun run := by
          refine ⟨fun hr => (hkeeps.own r hr hsame).resolve_right fun hfailed => hfailed.1 hout, ?_⟩
          rintro rfl
          exact hkeeps.written hout hroom
        rw [hown]
        constructor
        · rintro (hr | ⟨hr, -⟩)
          · exact .inl (.inr hr)
          · exact .inl (.inl hr)
        · rintro ((hr | hr) | ⟨-, hne, -⟩)
          · exact .inr ⟨hr, fun run' hrun' => hsame ▸ hother run' hrun'⟩
          · exact .inl hr
          · exact absurd hsame hne
      · have hnot : r ≠ closedRun run := fun heq => hsame (heq ▸ rfl)
        rw [hkeeps.others r hsame]
        simp only [hnot, false_or, ne_eq, hsame, not_false_eq_true, true_and]

/-- Without faults the runs of a day are read, as many as there is room for. -/
lemma runs_storeReadRuns (hs : DaysSorted s) (date : UInt32) (capacity : ℕ) :
    FaultM.Runs (storeReadRuns date capacity) s ((storedRuns s date).take capacity) s := by
  refine (NvsFlash.runs_plain _ s).attempt.bind ((NvsFlash.runs_plain _ s).attempt.bind ?_)
  have hload : FaultM.Runs (loadDay date) s (storedDay s date) s := by
    refine (NvsFlash.runs_getValue date _ s).bind ?_
    cases hblob : s date with
    | none =>
        rw [NvsFlash.read, storedDay, hblob]
        exact FaultM.runs_pure _ s
    | some blob =>
        obtain ⟨day, hday, -⟩ := hs date blob hblob
        rw [NvsFlash.read_ok hblob (length_le_of_decode hday), storedDay, hblob]
        exact FaultM.runs_pure _ s
  refine hload.bind ?_
  rw [storedRuns]
  cases storedDay s date with
  | none => simpa using FaultM.runs_pure [] s
  | some day => exact FaultM.runs_pure _ s

/-- **The order of appends does not matter**: runs of one day with different starts, appended in any two
orders with any writes failing on the way, leave the same day, and it is read back the same. -/
theorem append_order (h : StoredAll runs s s') (h' : StoredAll runs' s s'') (hs : DaysSorted s)
    (hperm : runs.Perm runs') (hdate : ∀ run ∈ runs, run.date = date)
    (hstarts : runs.Pairwise fun a b => a.startS ≠ b.startS) (capacity : ℕ) :
    storedRuns s' date = storedRuns s'' date ∧
      (storeReadRuns date capacity s' []).out = (storeReadRuns date capacity s'' []).out := by
  obtain ⟨hs', hmem'⟩ := h.mem hs hdate hstarts
  obtain ⟨hs'', hmem''⟩ := h'.mem hs (fun run hrun => hdate run (hperm.mem_iff.mpr hrun))
    ((hperm.pairwise_iff fun hne => hne.symm).mp hstarts)
  have hirrefl : Std.Irrefl fun a b : RunRecord => a.startS < b.startS := ⟨fun _ => UInt32.lt_irrefl _⟩
  have hantisymm : Std.Antisymm fun a b : RunRecord => a.startS < b.startS :=
    ⟨fun _ _ hab hba => absurd (UInt32.lt_trans hab hba) (UInt32.lt_irrefl _)⟩
  have heq : storedRuns s' date = storedRuns s'' date :=
    (hs'.daySet date).order.eq_of_mem_iff (hs''.daySet date).order fun r => by
      rw [hmem', hmem'']
      simp only [hperm.mem_iff]
  refine ⟨heq, ?_⟩
  rw [(runs_storeReadRuns hs' date capacity).out, (runs_storeReadRuns hs'' date capacity).out, heq]

end Order

/-- A run two hours after that. -/
def laterRun : RunRecord := { quarterRun with startS := 1709287200, endS := 1709288100 }

/-- Two runs, in both orders. -/
theorem append_order_twoRuns : ∃ s' s'', StoredAll [quarterRun, laterRun] (fun _ => none) s' ∧
    StoredAll [laterRun, quarterRun] (fun _ => none) s'' ∧
    storedRuns s' 20240301 = storedRuns s'' 20240301 := by
  have hcons : ∀ {runs s s'} run, (storeAppendRun run s []).ops.all readSucceeds ∧
      (storedRuns s run.date).length < kMaxRunsPerDay ∧ (storeAppendRun run s []).out = .val true →
      StoredAll runs (storeAppendRun run s []).state s' → StoredAll (run :: runs) s s' :=
    fun run h => .cons run [] (covers_of_all h.1) (fun hfull => not_lt.mpr hfull.1 h.2.1) h.2.2
  have h := hcons (s := fun _ => none) quarterRun (by decide +kernel)
    (hcons laterRun (by decide +kernel) (.nil _))
  have h' := hcons (s := fun _ => none) laterRun (by decide +kernel)
    (hcons quarterRun (by decide +kernel) (.nil _))
  exact ⟨_, _, h, h', (append_order h h' nofun (.swap _ _ _) (by decide) (by decide) 96).1⟩

end ArcticController

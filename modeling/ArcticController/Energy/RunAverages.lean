/-
The outdoor average of a compressor run (`RunTracker::book` and `record` in `run_ledger.h`).

* `RunSums.counted`: the reading that booking a stretch counts;
* `CountedReadings`: the readings each run has counted, in step with the tracker;
* `RunSums.Averaged`, `Averaged.booked`: the sum of a run and its seconds fit these readings;
* `RunBooks.averaged_run`: over any readings they do for every run;
* `RunSums.Averaged.between`: the average of the record lies between two of them.
-/
import ArcticController.Energy.OutdoorDays
import ArcticController.Energy.RunBook

namespace ArcticController

/-! ### The readings a run counts -/

/-- The reading that booking `[a, b)` counts, in tenths. -/
def RunSums.counted (p : Input) (D a b : ℤ) : List ℤ :=
  if p.connected ∧ RunSums.outdoorBooked p D a b then [p.outdoorC.toInt * 10] else []

/-- The readings the ended runs have counted, and those of the run in progress. -/
structure CountedReadings where
  ended : List (List ℤ) := []
  current : List ℤ := []

/-- A reading of the tracker `t`. -/
def CountedReadings.step (c : CountedReadings) (t : RunTracker) : LedgerStep → CountedReadings
  | .add nowS _ input =>
      if ¬ t.isOpen then { c with current := [] }
      else if t.inStep nowS then
        let current := c.current ++ RunSums.counted t.prev t.defrostEndS t.prevS nowS
        if input.active then { c with current } else ⟨c.ended ++ [current], []⟩
      else ⟨c.ended ++ [c.current], []⟩
  | .pause => c

def CountedReadings.run : CountedReadings → RunBooks → List LedgerStep → CountedReadings
  | c, _, [] => c
  | c, b, step :: steps => CountedReadings.run (c.step b.tracker step) (b.step step) steps

/-! ### The sum of a run -/

namespace RunSums

variable {r c : RunSums} {readings : List ℤ} {p : Input} {D a b : ℤ}

/-- The sum of a run and its seconds fit the readings it has counted, as long as it has lasted
fewer than 2^32 seconds. -/
structure Averaged (r : RunSums) (readings : List ℤ) : Prop where
  ordered : r.startS ≤ r.endS
  range : ∀ x ∈ readings, -2550 ≤ x ∧ x ≤ 2550
  seconds : r.endS - r.startS < 2 ^ 32 → (r.outdoorS.toNat : ℤ) ≤ r.endS - r.startS
  none : r.endS - r.startS < 2 ^ 32 → readings = [] → r.outdoorS = 0
  sum : r.endS - r.startS < 2 ^ 32 → ∀ lo hi, (∀ x ∈ readings, lo ≤ x ∧ x ≤ hi) →
    Weighted lo hi r.outdoorS.toNat r.outdoorSumDeciS.toInt

/-- Nothing moves the span of a run but its end. -/
lemma book_span (r : RunSums) (p : Input) (D a b : ℤ) :
    (r.book D a b p).startS = r.startS ∧ (r.book D a b p).endS = b := by
  rw [book]
  split
  · exact ⟨rfl, rfl⟩
  · simp only [bookOutdoor_eq, bookThermal_eq, bookRunning_eq, bookPower_eq]
    exact ⟨trivial, trivial⟩

/-- Where no reading counts, the sum and its seconds stay. -/
lemma book_of_not (h : ¬ (p.connected ∧ outdoorBooked p D a b)) :
    (r.book D a b p).outdoorS = r.outdoorS ∧
      (r.book D a b p).outdoorSumDeciS = r.outdoorSumDeciS := by
  by_cases hc : p.connected
  · have hbooked := book_booked r p D a b hc
    have hnot : ¬ outdoorBooked p D a b := fun hb => h ⟨hc, hb⟩
    exact ⟨hbooked.outdoorS.trans (if_neg hnot), hbooked.outdoorSumDeciS.trans (if_neg hnot)⟩
  · rw [book, if_pos hc]
    exact ⟨rfl, rfl⟩

/-- Booking a reading in range keeps what a run keeps. -/
lemma Averaged.booked (h : r.Averaged readings) (hp : p.InRange) (hend : r.endS = a) (hab : a ≤ b)
    (hstep : b - a ≤ kMaxStepSeconds) :
    (r.book D a b p).Averaged (readings ++ counted p D a b) := by
  obtain ⟨hspanS, hspanE⟩ := book_span r p D a b
  have hordered := h.ordered
  by_cases hcount : p.connected ∧ outdoorBooked p D a b
  swap
  · -- nothing counts
    obtain ⟨hS, hSum⟩ := book_of_not (r := r) hcount
    rw [counted, if_neg hcount, List.append_nil]
    constructor
    · rw [hspanS, hspanE]
      omega
    · exact h.range
    · rw [hspanS, hspanE, hS]
      intro hlt
      have := h.seconds (by omega)
      omega
    · rw [hspanS, hspanE, hS]
      exact fun hlt => h.none (by omega)
    · rw [hspanS, hspanE, hS, hSum]
      exact fun hlt => h.sum (by omega)
  obtain ⟨hc, hb⟩ := hcount
  have hbooked := book_booked r p D a b hc
  have hS := hbooked.outdoorS.trans (if_pos hb)
  have hSum := hbooked.outdoorSumDeciS.trans (if_pos hb)
  rw [counted, if_pos ⟨hc, hb⟩]
  generalize r.book D a b p = c at hspanS hspanE hS hSum ⊢
  have hfrom := le_outdoorFrom D a
  have hlt := hb.2
  rw [kMaxStepSeconds] at hstep
  have hcount := stepSeconds_toNat (a := outdoorFrom D a) (b := b) hlt.le (by
    rw [kMaxStepSeconds]
    omega)
  generalize stepSeconds (outdoorFrom D a) b = out at hS hSum hcount
  have hdeci : (p.outdoorC.toInt32 * 10).toInt64.toInt = p.outdoorC.toInt * 10 := by
    obtain ⟨hlo, hhi⟩ := hp
    rw [Int32.toInt_toInt64, Int32.toInt_mul, Int16.toInt_toInt32]
    exact Int.bmod_eq_of_le (by show -(2 ^ 32 / 2) ≤ p.outdoorC.toInt * 10; omega)
      (by show p.outdoorC.toInt * 10 < (2 ^ 32 + 1) / 2; omega)
  obtain ⟨hlow, hhigh⟩ := hp
  have hlast : p.outdoorC.toInt * 10 ∈ readings ++ [p.outdoorC.toInt * 10] :=
    List.mem_append_right _ List.mem_cons_self
  have hcS : c.endS - c.startS < 2 ^ 32 → c.outdoorS.toNat = r.outdoorS.toNat + out.toNat := by
    intro hlt
    have hseconds := h.seconds (by omega)
    rw [hS]
    exact u32_toNat_add (by omega)
  constructor
  · omega
  · intro x hx
    rcases List.mem_append.mp hx with hx | hx
    · exact h.range x hx
    · rw [List.mem_singleton.mp hx]
      omega
  · intro hlt
    have hseconds := h.seconds (by omega)
    rw [hcS hlt]
    push_cast
    omega
  · intro _ hnil
    rw [hnil] at hlast
    exact absurd hlast List.not_mem_nil
  · intro hlt lo hi hbounds
    have hsum := h.sum (by omega)
    have hold := hsum (-2550) 2550 h.range
    have hbound := hold.abs_sum_le (by omega) le_rfl le_rfl
    have hrS := r.outdoorS.toNat_lt
    rw [hcS hlt, hSum, sum64_add (hbound.trans (by omega)) (by
      rw [hdeci]
      exact abs_le.mpr (by omega)), hdeci]
    push_cast
    obtain ⟨hlo, hhi⟩ := hbounds _ hlast
    exact (hsum lo hi fun x hx => hbounds x (List.mem_append_left _ hx)).add hlo hhi (by omega)

/-- A run that has just started has counted nothing. -/
lemma averaged_start (date : UInt32) (nowS : ℤ) (bucket : Bucket) : Averaged
    { date := date, startS := nowS, endS := nowS, firstBucket := bucket } [] where
  ordered := le_rfl
  range := nofun
  seconds _ := by
    show (0 : ℤ) ≤ nowS - nowS
    omega
  none _ _ := rfl
  sum _ _ _ _ := .zero

/-- The average of the record lies between two of the readings counted. -/
def AverageBetween (r : RunSums) (readings : List ℤ) : Prop :=
  r.record.outdoorS > 0 → ∃ lo ∈ readings, ∃ hi ∈ readings,
    lo ≤ r.record.outdoorAvgDeci.toInt ∧ r.record.outdoorAvgDeci.toInt ≤ hi

lemma Averaged.between (h : r.Averaged readings) (hshort : r.endS - r.startS < 2 ^ 32) :
    r.AverageBetween readings := by
  intro hS
  have hsome : readings.toFinset.Nonempty := by
    rw [List.toFinset_nonempty_iff]
    intro hnil
    have hzero := h.none hshort hnil
    exact absurd hS (by show ¬ r.outdoorS > 0; rw [hzero]; decide)
  obtain ⟨lo, hlo, hleast⟩ := readings.toFinset.exists_min_image id hsome
  obtain ⟨hi, hhi, hgreatest⟩ := readings.toFinset.exists_max_image id hsome
  simp only [List.mem_toFinset, id_eq] at hlo hhi hleast hgreatest
  have hsum := h.sum hshort lo hi fun x hx => ⟨hleast x hx, hgreatest x hx⟩
  refine ⟨lo, hlo, hi, hhi, ?_⟩
  have havg : r.record.outdoorAvgDeci
      = (r.outdoorSumDeciS / r.outdoorS.toUInt64.toInt64).toInt16 := if_pos hS
  rw [havg]
  exact avg64_between hsum hS (h.range lo hlo).1 (h.range hi hhi).2

end RunSums

/-! ### Every run -/

/-- The runs fit the readings they have counted. -/
structure RunBooks.Averaged (b : RunBooks) (c : CountedReadings) : Prop where
  ended : List.Forall₂ RunSums.Averaged b.ended c.ended
  current : b.tracker.isOpen → b.tracker.sums.Averaged c.current
  last : b.tracker.isOpen → b.tracker.hasPrev → b.tracker.sums.endS = b.tracker.prevS
  reads : b.tracker.hasPrev → b.tracker.prev.InRange

namespace RunBooks

variable {b : RunBooks} {c : CountedReadings} {nowS : ℤ} {day : Day} {input : Input}

/-- The runs after a reading, when the ended ones fit and the one in progress does, if the
compressor runs. -/
lemma averaged_after {t' : RunTracker} {ended : List RunSums} {counted : CountedReadings}
    (hadded : b.tracker.Added nowS day.date input t') (hinput : input.InRange)
    (hended : List.Forall₂ RunSums.Averaged ended counted.ended)
    (hcurrent : input.active → (b.tracker.following nowS day.date input).Averaged counted.current)
    (hlast : (b.tracker.following nowS day.date input).endS = nowS) :
    RunBooks.Averaged ⟨t', ended⟩ counted where
  ended := hended
  current hopen := by
    have hactive : input.active := hadded.isOpen ▸ hopen
    rw [hadded.sums hactive]
    exact hcurrent hactive
  last hopen _ := by
    have hactive : input.active := hadded.isOpen ▸ hopen
    rw [hadded.sums hactive, hadded.prevS]
    exact hlast
  reads _ := by
    rw [hadded.prev]
    exact hinput

/-- What a reading does to the runs and to the readings they count. -/
lemma averaged_add (h : b.Averaged c) (hinput : input.InRange) :
    (b.step (.add nowS day input)).Averaged (c.step b.tracker (.add nowS day input)) := by
  have hadded := b.tracker.add_added nowS day.date input
  have hstart : ¬ (b.tracker.isOpen ∧ b.tracker.inStep nowS) →
      (b.tracker.following nowS day.date input).Averaged [] ∧
        (b.tracker.following nowS day.date input).endS = nowS := by
    intro hnot
    rw [RunTracker.following, if_neg hnot]
    exact ⟨RunSums.averaged_start _ _ _, rfl⟩
  rw [step, CountedReadings.step, RunTracker.ending]
  by_cases hopen : b.tracker.isOpen
  swap
  · rw [if_pos hopen, if_pos hopen]
    obtain ⟨hfresh, hend⟩ := hstart fun hgoes => hopen hgoes.1
    refine averaged_after hadded hinput ?_ (fun _ => hfresh) hend
    simpa using h.ended
  rw [if_neg (not_not.mpr hopen), if_neg (not_not.mpr hopen)]
  by_cases hin : b.tracker.inStep nowS
  swap
  · -- a gap ends the run as it was
    obtain ⟨hfresh, hend⟩ := hstart fun hgoes => hin hgoes.2
    rw [if_neg hin, if_neg hin]
    exact averaged_after hadded hinput (List.rel_append h.ended (.cons (h.current hopen) .nil))
      (fun _ => hfresh) hend
  obtain ⟨⟨hprev, hle⟩, hstep⟩ : (b.tracker.hasPrev ∧ b.tracker.prevS ≤ nowS) ∧
      nowS - b.tracker.prevS ≤ kMaxStepSeconds := by
    simpa [RunTracker.inStep] using hin
  have hfollowing : b.tracker.following nowS day.date input = b.tracker.continued nowS :=
    if_pos ⟨hopen, hin⟩
  have hbooked : (b.tracker.continued nowS).Averaged
      (c.current ++ RunSums.counted b.tracker.prev b.tracker.defrostEndS b.tracker.prevS nowS) :=
    (h.current hopen).booked (h.reads hprev) (h.last hopen hprev) hle hstep
  have hend : (b.tracker.following nowS day.date input).endS = nowS := by
    rw [hfollowing]
    exact (RunSums.book_span _ _ _ _ _).2
  rw [if_pos hin, if_pos hin]
  dsimp only
  by_cases hactive : input.active
  · -- the run goes on
    rw [if_pos hactive, if_pos hactive]
    refine averaged_after hadded hinput ?_ (fun _ => hfollowing ▸ hbooked) hend
    simpa using h.ended
  · -- the compressor stopped
    rw [if_neg hactive, if_neg hactive]
    exact averaged_after hadded hinput (List.rel_append h.ended (.cons hbooked .nil))
      (fun hc => absurd hc hactive) hend

/-- **The run lemma**: whatever the readings, every run fits those it has counted. -/
lemma averaged_run : ∀ (steps : List LedgerStep) {b : RunBooks} {c : CountedReadings},
    b.Averaged c → (∀ nowS day input, .add nowS day input ∈ steps → input.InRange) →
    (b.run steps).Averaged (c.run b steps) := by
  intro steps
  induction steps with
  | nil => exact fun h _ => h
  | cons step steps ih =>
      intro b c h hreads
      have hrest := fun nowS day input hmem =>
        hreads nowS day input (List.mem_cons_of_mem _ hmem)
      cases step with
      | add nowS day input =>
          exact ih (averaged_add h (hreads nowS day input List.mem_cons_self)) hrest
      | pause => exact ih ⟨h.ended, h.current, nofun, nofun⟩ hrest

end RunBooks

end ArcticController

/-
The outdoor averages of the days and of the runs (`energy_ledger.h`, `run_ledger.h`).

* `runTotal`, `Tally.runTotal`: the running time of a day in all modes;
* `DayBook.related_run`, `DayBook.related_of`: a relation of two shares holds of their amounts day
  by day;
* `outdoorSum_exact`: the 32 bit sum of a day is exact for three days of running time;
* `outdoor_averages_between`: every average lies between its extremes;
* `EternalDay`, `EndlessRun`: a day and a run that outlast their counters.
-/
import ArcticController.Energy.RunAgrees
import ArcticController.Energy.RunAverages
import ArcticController.Base.Slots

namespace ArcticController

/-! ### The running time of a day -/

/-- Running time in any mode. -/
def runTotal : Share := fun D a b p => ∑ m, runShare m D a b p

lemma runTotal_splits : runTotal.Splits := by
  intro D a b c p hab hbc
  rw [runTotal, runTotal, runTotal, ← Finset.sum_add_distrib]
  exact Finset.sum_congr rfl fun m _ => rateShare_splits _ D a b c p hab hbc

-- Named, so that the numerals of the modes carry no proof of their own.
local instance : NeZero kModes := ⟨by decide⟩

def Tally.runTotal : Tally where
  width := 32
  field a := (a.runS 0).toBitVec + (a.runS 1).toBitVec + (a.runS 2).toBitVec
  share := ArcticController.runTotal
  splits := runTotal_splits
  connected D a b p hp := Finset.sum_eq_zero fun m _ => (Tally.run m).connected D a b p hp
  blank _ _ := rfl
  counts _ _ _ := rfl
  booked {cur c p D a b} h hab _ hc := by
    rw [h.run hab hc 0, h.run hab hc 1, h.run hab hc 2, ArcticController.runTotal,
      Fin.sum_univ_three, BitVec.ofInt_add, BitVec.ofInt_add]
    ac_rfl

/-- The words of the running time, while the seconds of the modes together fit. -/
lemma sum_runS_toNat (runS : Fin kModes → UInt32) (h : ∑ m, (runS m).toNat < 2 ^ 32) :
    ((runS 0).toBitVec + (runS 1).toBitVec + (runS 2).toBitVec).toNat = ∑ m, (runS m).toNat := by
  rw [Fin.sum_univ_three] at h ⊢
  rw [BitVec.toNat_add, BitVec.toNat_add]
  show (((runS 0).toNat + (runS 1).toNat) % 2 ^ 32 + (runS 2).toNat) % 2 ^ 32 = _
  rw [Nat.mod_eq_of_lt (by omega), Nat.mod_eq_of_lt (by omega)]

/-! ### A relation of two shares -/

/-- The amounts of two day books are related, day by day. -/
structure DayBook.Related (R : ℤ → ℤ → Prop) (b b' : DayBook) : Prop where
  closed : List.Forall₂ R b.closed b'.closed
  current : Option.Rel (fun d d' => d.date = d'.date ∧ d.endS = d'.endS ∧ R d.amount d'.amount)
    b.current b'.current

namespace DayBook

variable {R : ℤ → ℤ → Prop} {share share' : Share} {b b' : DayBook} {r : Reference} {nowS : ℤ}
  {day : Day}

/-- A relation of amounts that both shares keep on every stretch of a reading `Reads` allows. -/
structure Relates (R : ℤ → ℤ → Prop) (Reads : Input → Prop) (share share' : Share) : Prop where
  zero : R 0 0
  add : ∀ {x y x' y'}, R x x' → R y y' → R (x + y) (x' + y')
  share : ∀ D a b p, Reads p → R (share D a b p) (share' D a b p)

variable {Reads : Input → Prop}

lemma Relates.partOf (h : Relates R Reads share share') {i : Option Interval}
    (hi : ∀ j, i = some j → Reads j.input) (u v : ℤ) :
    R (partOf share i u v) (partOf share' i u v) := by
  cases i with
  | none => exact h.zero
  | some j => exact h.share _ _ _ _ (hi j rfl)

lemma Related.add (h : b.Related R b') (hR : Relates R Reads share share') {i : Option Interval}
    (hi : ∀ j, i = some j → Reads j.input) :
    (b.add share i nowS day).Related R (b'.add share' i nowS day) := by
  obtain ⟨hclosed, hcurrent⟩ := h
  rw [DayBook.add, DayBook.add]
  generalize b.current = d, b'.current = d' at hcurrent
  cases hcurrent with
  | none => exact ⟨hclosed, .some ⟨rfl, rfl, hR.zero⟩⟩
  | @some d d' hd =>
      obtain ⟨hdate, hend, hamount⟩ := hd
      have hat : (d.at nowS day).date = (d'.at nowS day).date ∧
          (d.at nowS day).endS = (d'.at nowS day).endS ∧
          R (d.at nowS day).amount (d'.at nowS day).amount := by
        rw [OpenDay.at, OpenDay.at, hdate, hend]
        split
        · exact ⟨rfl, rfl, hamount⟩
        · exact ⟨hdate, hend, hamount⟩
      obtain ⟨hdate, hend, hamount⟩ := hat
      dsimp only
      rw [hend]
      split
      · exact ⟨hclosed, .some ⟨hdate, rfl, hR.add hamount (hR.partOf hi _ _)⟩⟩
      · refine ⟨List.rel_append hclosed (.cons (hR.add hamount (hR.partOf hi _ _)) .nil),
          .some ⟨rfl, rfl, hR.partOf hi _ _⟩⟩

/-- Over any readings the amounts of the two shares are related, day by day. -/
lemma related_run (hR : Relates R Reads share share') : ∀ (steps : List LedgerStep)
    {b b' : DayBook} {r : Reference}, b.Related R b' → (∀ t p, r.last = some (t, p) → Reads p) →
    (∀ nowS day input, .add nowS day input ∈ steps → Reads input) →
    (DayBook.run share b r steps).Related R (DayBook.run share' b' r steps) := by
  intro steps
  induction steps with
  | nil => exact fun h _ _ => h
  | cons step steps ih =>
      intro b b' r h hlast hreads
      have hrest := fun nowS day input hmem =>
        hreads nowS day input (List.mem_cons_of_mem _ hmem)
      cases step with
      | add nowS day input =>
          refine ih (h.add hR fun j hj => ?_) (fun t p hp => ?_) hrest
          · exact hlast _ _ (Reference.interval_bounds hj).1
          · simp only [Reference.step, Option.some.injEq, Prod.mk.injEq] at hp
            rw [← hp.2]
            exact hreads nowS day input List.mem_cons_self
      | pause => exact ih (r := r.step .pause) h (by rintro _ _ ⟨⟩) hrest

/-- The same from the start. -/
lemma related_of (hR : Relates R Reads share share') {steps : List LedgerStep}
    (hreads : ∀ nowS day input, .add nowS day input ∈ steps → Reads input) :
    (DayBook.of share steps).Related R (DayBook.of share' steps) :=
  related_run hR steps ⟨.nil, .none⟩ (fun _ _ h => nomatch h) hreads

lemma Related.days (h : b.Related R b') : List.Forall₂ R b.days b'.days := by
  obtain ⟨hclosed, hcurrent⟩ := h
  rw [DayBook.days, DayBook.days]
  refine List.rel_append hclosed ?_
  generalize b.current = d, b'.current = d' at hcurrent
  cases hcurrent with
  | none => exact .nil
  | some hd => exact .cons hd.2.2 .nil

end DayBook

/-! ### The 32 bit sum of a day -/

/-- Over any stretch the outdoor readings that count sum up to at most 2550 a second of running
time. -/
lemma outdoorSum_relates :
    DayBook.Relates (fun x y => |x| ≤ 2550 * y) Input.InRange outdoorSumShare runTotal where
  zero := by norm_num
  add {x y x' y'} hx hy := by
    rw [mul_add]
    exact (abs_add_le x y).trans (add_le_add hx hy)
  share D a b p hp := by
    have hgrows : 0 ≤ runTotal D a b p := Finset.sum_nonneg fun m _ => runShare_grows m D a b p
    rw [outdoorSumShare, outdoorRate]
    by_cases hcounts : runOutdoorCounts p
    swap
    · rw [if_neg hcounts, zero_mul, abs_zero]
      omega
    have hbooked := hcounts
    obtain ⟨hc, -, -, hr, hmode⟩ := hcounts
    obtain ⟨k, hk⟩ := Option.isSome_iff_exists.mp hmode
    have htotal : runTotal D a b p = span a b := by
      rw [runTotal, sum_of_mode hk fun m hm => ?_, runShare, rateShare, if_pos ⟨hc, hr, hk⟩, one_mul]
      rw [runShare, rateShare, if_neg fun h => hm h.2.2, zero_mul]
    have hdeci : (p.outdoorC * 10).toInt = p.outdoorC.toInt * 10 := hp.deci
    have hfrom := le_outdoorFrom D a
    have hspan : span (outdoorFrom D a) b ≤ span a b := by
      rw [span, span]
      omega
    have hpos : 0 ≤ span (outdoorFrom D a) b := le_max_left _ _
    obtain ⟨hlo, hhi⟩ := hp
    rw [if_pos hbooked, hdeci, htotal, abs_mul, abs_of_nonneg hpos]
    exact mul_le_mul (abs_le.mpr (by omega)) hspan hpos (by norm_num)

section

variable {clock : ℤ} {steps : List LedgerStep}

/-- The sum of a day is exact when no day has more than three days of running time. -/
lemma outdoorSum_exact (hrise : ClockRises clock steps)
    (hreads : ∀ nowS day input, .add nowS day input ∈ steps → input.InRange)
    (hrun : ∀ x ∈ (DayBook.of runTotal steps).days, x ≤ 3 * 86400) :
    (({} : Books).run steps).days.map (·.runOutdoorSumDeciS.toInt)
      = (DayBook.of outdoorSumShare steps).days := by
  have hwords : (({} : Books).run steps).days.map (·.runOutdoorSumDeciS.toBitVec)
      = (DayBook.of outdoorSumShare steps).days.map (BitVec.ofInt 32) :=
    Books.days_run Tally.outdoorSum hrise
  have hrelated := (DayBook.related_of outdoorSum_relates hreads).days
  have hexact : ∀ x ∈ (DayBook.of outdoorSumShare steps).days, (BitVec.ofInt 32 x).toInt = x := by
    intro x hx
    obtain ⟨y, hy, hle⟩ := exists_of_forall₂ hrelated.flip hx
    have hday := hrun y hy
    obtain ⟨hlo, hhi⟩ := abs_le.mp hle
    rw [BitVec.toInt_ofInt]
    exact Int.bmod_eq_of_le (by omega) (by omega)
  have hmap := congrArg (List.map BitVec.toInt) hwords
  rw [List.map_map, List.map_map] at hmap
  exact hmap.trans ((List.map_congr_left (g := id) hexact).trans (List.map_id _))

/-- The running time of a day that has had fewer than 2^32 seconds. -/
lemma sum_runS_le (hrise : ClockRises clock steps)
    (hrun : ∀ x ∈ (DayBook.of runTotal steps).days, x ≤ 3 * 86400) {a : DayAccum} {e : ℤ}
    (ha : a ∈ (({} : Books).run steps).days) (hlt : e < 2 ^ 32) (h : a.Consistent e) :
    ∑ m, (a.runS m).toNat ≤ 3 * 86400 := by
  have hwords := Books.days_run Tally.runTotal hrise
  have hmem : Tally.runTotal.field a ∈ (({} : Books).run steps).days.map Tally.runTotal.field :=
    List.mem_map_of_mem ha
  rw [hwords] at hmem
  obtain ⟨x, hx, hword⟩ := List.mem_map.mp hmem
  have hle := hrun x hx
  have hgrows : ∀ x ∈ (DayBook.of runTotal steps).days, 0 ≤ x :=
    DayBook.grows_run (fun D a b p => Finset.sum_nonneg fun m _ => runShare_grows m D a b p) steps
      (b := {}) (r := {}) nofun
  have hpos := hgrows x hx
  have hexact := sum_runS_toNat a.runS (by have := h.runS; omega)
  have hsum : BitVec.ofInt 32 x
      = (a.runS 0).toBitVec + (a.runS 1).toBitVec + (a.runS 2).toBitVec := hword
  rw [← hsum, BitVec.toNat_ofInt] at hexact
  omega

end

/-! ### Every average -/

/-- **Outdoor averages lie between the extremes.** For readings in range and no more than three
days of running time in a day, the averages of every day that has had fewer than 2^32 seconds lie
between its extremes, the 32 bit sum of every day is the exact one, and the average of every run
of fewer than 2^32 seconds lies between two of the readings it has counted. -/
theorem outdoor_averages_between (clock : ℤ) (steps : List LedgerStep)
    (hrise : ClockRises clock steps)
    (hreads : ∀ nowS day input, .add nowS day input ∈ steps → input.InRange)
    (hrun : ∀ x ∈ (DayBook.of runTotal steps).days, x ≤ 3 * 86400) :
    let books := ({} : Books).run steps
    let times := DayTimes.run { since := clock, clock := clock } {} steps
    let runs := ({} : RunBooks).run steps
    let counted := CountedReadings.run {} {} steps
    (EnergyLedger.handedOut {} steps = books.closed.map toRecord ∧
      List.Forall₂ (fun a e => e < 2 ^ 32 → (toRecord a).AveragesBetween) books.closed times.closed ∧
      (books.ledger.isOpen → times.elapsed < 2 ^ 32 →
        (toRecord books.ledger.cur).AveragesBetween)) ∧
    books.days.map (·.runOutdoorSumDeciS.toInt) = (DayBook.of outdoorSumShare steps).days ∧
    List.Forall₂ (fun r readings => r.endS - r.startS < 2 ^ 32 → r.AverageBetween readings)
      runs.ended counted.ended ∧
    (runs.tracker.isOpen → runs.tracker.sums.endS - runs.tracker.sums.startS < 2 ^ 32 →
      runs.tracker.sums.AverageBetween counted.current) := by
  intro books times runs counted
  have htimed : books.Timed outdoorRule times := by
    refine Books.timed_run steps ⟨.nil, nofun, nofun⟩ hrise fun step hstep => ?_
    cases step with
    | add nowS day input => exact hreads nowS day input hstep
    | pause => trivial
  have hbetween : ∀ a ∈ books.days, ∀ e, outdoorRule.Kept a e → e < 2 ^ 32 →
      (toRecord a).AveragesBetween := by
    intro a ha e hkept hlt
    obtain ⟨⟨hconsistent, -⟩, houtdoor⟩ := hkept hlt
    exact houtdoor.between hconsistent.runOutdoorS (sum_runS_le hrise hrun ha hlt hconsistent)
  have hruns : runs.Averaged counted :=
    RunBooks.averaged_run steps ⟨.nil, nofun, nofun, nofun⟩ hreads
  refine ⟨⟨Books.handedOut_run {} steps, ?_, fun hopen => ?_⟩, outdoorSum_exact hrise hreads hrun,
    hruns.ended.imp fun _ _ h => h.between, fun hopen => (hruns.current hopen).between⟩
  · refine (List.forall₂_and_left _ _ |>.mpr ⟨fun a ha => ?_, htimed.closed⟩).imp
      fun a e h => hbetween a h.1 e h.2
    exact List.mem_append_left _ ha
  · refine hbetween _ (List.mem_append_right _ ?_) _ (htimed.current hopen)
    rw [if_pos hopen]
    exact List.mem_cons_self

/-- A run over a midnight that gets colder from 3 °C to -5 °C, then a stop. -/
def frostySteps : List LedgerStep :=
  let running : Input :=
    { connected := true, running := true, bucket := .heating, outdoorValid := true, outdoorC := 3 }
  [.add 86220 { date := 20250101, startS := 0 } running,
    .add 86310 { date := 20250101, startS := 0 } { running with outdoorC := -5 },
    .add 86430 { date := 20250102, startS := 86400 } { running with outdoorC := -5 },
    .add 86440 { date := 20250102, startS := 86400 } { connected := true }]

/-- The averages of the day it began and of the run: 90 s at 3 °C with 90 s and 130 s at -5 °C. -/
theorem outdoor_averages_between_frost :
    let books := ({} : Books).run frostySteps
    let runs := ({} : RunBooks).run frostySteps
    books.closed.map (fun a => (toRecord a).outdoorAvgDeci) = [-10] ∧
      (∀ a ∈ books.closed, (toRecord a).AveragesBetween) ∧
      runs.ended.map (fun r => r.record.outdoorAvgDeci) = [-17] ∧
      ∀ r ∈ runs.ended, ∃ readings, r.AverageBetween readings := by
  intro books runs
  have h := outdoor_averages_between 86220 frostySteps (by decide) (by
    intro nowS day input hmem
    simp only [frostySteps, List.mem_cons, LedgerStep.add.injEq, List.not_mem_nil, or_false] at hmem
    rcases hmem with ⟨-, -, rfl⟩ | ⟨-, -, rfl⟩ | ⟨-, -, rfl⟩ | ⟨-, -, rfl⟩ <;> decide) (by decide)
  obtain ⟨⟨-, hclosed, -⟩, -, hended, -⟩ := h
  refine ⟨by decide +kernel, fun a ha => ?_, by decide +kernel, fun r hr => ?_⟩
  · have hshort : ∀ e ∈ (DayTimes.run { since := 86220, clock := 86220 } {} frostySteps).closed,
        e < 2 ^ 32 := by decide +kernel
    obtain ⟨e, he, hbetween⟩ := exists_of_forall₂ hclosed.flip ha
    exact hbetween (hshort e he)
  · have hshort : ∀ r ∈ runs.ended, r.endS - r.startS < 2 ^ 32 := by decide +kernel
    obtain ⟨readings, -, hbetween⟩ := exists_of_forall₂ hended.flip hr
    exact ⟨readings, hbetween (hshort r hr)⟩

/-! ### Averages that outlast their counters -/

/-- Ten degrees, with the compressor running or not. -/
def tenDegrees (running : Bool) : Input :=
  { connected := true, running, bucket := .heating, outdoorValid := true, outdoorC := 10 }

/-- `n` readings `p` two minutes apart, the first after `k` times two minutes. -/
def steadySteps (day : ℕ → Day) (p : Input) : ℕ → ℕ → List LedgerStep
  | 0, _ => []
  | n + 1, k => .add (120 * k) (day k) p :: steadySteps day p n (k + 1)

section Steady

variable {day : ℕ → Day} {p : Input}

lemma steadySteps_rises {m : ℕ} (hday : ∀ k < m, (day k).Holds (120 * k)) : ∀ n k, k + n ≤ m →
    ∀ clock ≤ 120 * (k : ℤ), ClockRises clock (steadySteps day p n k) := by
  intro n
  induction n with
  | zero => exact fun k _ clock _ => trivial
  | succ n ih =>
      intro k hk clock hclock
      exact ⟨hclock, hday k (by omega), ih (k + 1) (by omega) _ (by push_cast; omega)⟩

lemma mem_steadySteps : ∀ {n k : ℕ} {nowS : ℤ} {d : Day} {input : Input},
    .add nowS d input ∈ steadySteps day p n k → input = p := by
  intro n
  induction n with
  | zero => exact fun h => nomatch h
  | succ n ih =>
      intro k nowS d input h
      rcases List.mem_cons.mp h with h | h
      · exact (LedgerStep.add.inj h).2.2
      · exact ih h

/-- Two minutes are two minutes. -/
lemma stepSeconds_steady (k : ℕ) :
    stepSeconds (outdoorFrom (-2 ^ 62) (120 * k)) (120 * (k + 1 : ℕ)) = 120 := by
  have hfrom : outdoorFrom (-2 ^ 62) (120 * k) = 120 * k := by
    rw [outdoorFrom, if_pos]
    rw [kPostDefrostSeconds]
    omega
  rw [hfrom, stepSeconds]
  have : (120 * ((k + 1 : ℕ) : ℤ) - 120 * k).toNat = 120 := by
    push_cast
    omega
  rw [this]
  rfl

/-- The seconds and the sum after one more reading of ten degrees. -/
lemma steady_seconds (k : ℕ) : UInt32.ofNat (120 * k) + 120 = UInt32.ofNat (120 * (k + 1)) := by
  rw [Nat.mul_add, UInt32.ofNat_add]
  rfl

lemma steady_sum (k : ℕ) {x : Int64} (hx : x = 100) :
    Int64.ofInt (12000 * k) + x * (120 : UInt32).toUInt64.toInt64
      = Int64.ofInt (12000 * (k + 1 : ℕ)) := by
  have hterm : x * (120 : UInt32).toUInt64.toInt64 = Int64.ofInt 12000 := by
    rw [hx]
    decide
  rw [hterm, Nat.cast_add, mul_add, Int64.ofInt_add]
  rfl

end Steady

/-- A day that does not end while the counters last. -/
def eternalDay (_ : ℕ) : Day := { date := 20250101, startS := 0, endS := 2 ^ 33 }

/-- The ledger in that day after a reading at `k` times two minutes. -/
structure EternalDay (l : EnergyLedger) (k : ℕ) : Prop where
  isOpen : l.isOpen
  span : l.startS = 0 ∧ l.endS = 2 ^ 33 ∧ l.spanExact
  reference : l.hasPrev ∧ l.prevS = 120 * k ∧ l.prev = tenDegrees false ∧ l.defrostEndS = -2 ^ 62
  seconds : l.cur.outdoorS = UInt32.ofNat (120 * k)
  sum : l.cur.outdoorSumDeciS = Int64.ofInt (12000 * k)
  highest : l.cur.outdoorMaxDeci.toInt ≤ 100
  set : 0 < k → l.cur.flags &&& dayOutdoorSet ≠ 0

lemma EternalDay.add {l : EnergyLedger} {k : ℕ} (h : EternalDay l k) (hk : k + 1 ≤ 2 ^ 26) :
    EternalDay (l.add (120 * (k + 1 : ℕ)) (eternalDay (k + 1)) (tenDegrees false)) (k + 1) := by
  obtain ⟨hopen, ⟨hstartS, hendS, hexact⟩, ⟨hhas, hprevS, hprev, hdefrost⟩, hS, hSum, hhigh, hset⟩ := h
  have hstartAt : l.startAt (eternalDay (k + 1)) = 0 := by
    rw [EnergyLedger.startAt, if_neg fun h => h.1 hexact, hstartS]
  have hreached : (l.reached (120 * (k + 1 : ℕ)) (eternalDay (k + 1))).endS = 2 ^ 33 := by
    have hendAt : l.endAt (eternalDay (k + 1)) = 2 ^ 33 := by
      rw [EnergyLedger.endAt, if_neg fun h => h.1 hexact, hendS]
    rw [EnergyLedger.reached_eq]
    dsimp only
    rw [hendAt]
    split <;> rfl
  have hcontinued : (l.reached (120 * (k + 1 : ℕ)) (eternalDay (k + 1))).continued (120 * (k + 1 : ℕ))
      = l.cur.book (-2 ^ 62) (120 * k) (120 * (k + 1 : ℕ)) (tenDegrees false) := by
    have hin : (l.reached (120 * (k + 1 : ℕ)) (eternalDay (k + 1))).inStep (120 * (k + 1 : ℕ)) := by
      rw [EnergyLedger.inStep, EnergyLedger.reached_eq]
      simp only [hprevS, kMaxStepSeconds, decide_eq_true_eq]
      push_cast
      omega
    rw [EnergyLedger.continued, if_pos hin, EnergyLedger.reached_eq]
    simp only [hprevS, hprev, hdefrost]
  have hcase := l.add_cases (120 * (k + 1 : ℕ)) (eternalDay (k + 1)) (tenDegrees false)
  generalize l.add (120 * (k + 1 : ℕ)) (eternalDay (k + 1)) (tenDegrees false) = l',
    l.closing (120 * (k + 1 : ℕ)) (eternalDay (k + 1)) = c at hcase
  cases hcase with
  | opened hnot => exact absurd hopen hnot
  | behind _ hlt => omega
  | restarted _ _ href _ => exact href.elim (fun h => absurd hhas h) fun h => by omega
  | turned _ _ href _ => exact href.elim (fun h => absurd hhas h) fun h => by omega
  | split _ _ _ _ _ _ hend => omega
  | booked s d _ _ _ _ _ =>
      have hab : (120 * k : ℤ) < 120 * (k + 1 : ℕ) := by
        push_cast
        omega
      have htimes := l.cur.book_times (tenDegrees false) (D := -2 ^ 62) hab rfl
      have houtdoor := @DayAccum.book_outdoor l.cur (tenDegrees false) (-2 ^ 62) _ _ hab rfl
      rw [← hcontinued] at htimes houtdoor
      have htaken : DayAccum.outdoorTaken (tenDegrees false) (-2 ^ 62) (120 * k)
          (120 * (k + 1 : ℕ)) := by
        refine ⟨rfl, by rintro ⟨⟩, ?_⟩
        rw [outdoorFrom, if_pos (by rw [kPostDefrostSeconds]; omega)]
        exact hab
      obtain ⟨hnoted, hbooked⟩ := houtdoor.taken htaken
      have hseconds := htimes.outdoorS.trans (if_pos htaken)
      rw [stepSeconds_steady] at hbooked hseconds
      refine ⟨?_, ?_, ?_, ?_, ?_, ?_, fun _ => hnoted.set⟩
      · rw [EnergyLedger.moved, EnergyLedger.reached_eq]
        exact hopen
      · refine ⟨?_, hreached, ?_⟩
        · rw [EnergyLedger.moved, EnergyLedger.reached_eq]
          exact hstartAt
        · rw [EnergyLedger.moved, EnergyLedger.reached_eq]
          simp only [hexact, Bool.true_or]
      · refine ⟨rfl, rfl, rfl, ?_⟩
        rw [EnergyLedger.moved, EnergyLedger.reached_eq]
        simp only [hprev, hdefrost]
        rfl
      · refine hseconds.trans ?_
        rw [hS]
        exact steady_seconds k
      · refine hbooked.trans ?_
        rw [hSum]
        exact steady_sum k (by decide)
      · show ((l.reached _ _).continued _).outdoorMaxDeci.toInt ≤ 100
        rcases hnoted.upper with hmax | hmax
        · rw [hmax]
          decide
        · rw [hmax]
          exact hhigh

lemma EternalDay.run : ∀ (n : ℕ) {b : Books} {k : ℕ}, EternalDay b.ledger k → k + n ≤ 2 ^ 26 →
    EternalDay (b.run (steadySteps eternalDay (tenDegrees false) n (k + 1))).ledger (k + n) := by
  intro n
  induction n with
  | zero => exact fun h _ => h
  | succ n ih =>
      intro b k h hk
      have hstep : EternalDay (b.step (.add (120 * (k + 1 : ℕ)) (eternalDay (k + 1))
          (tenDegrees false))).ledger (k + 1) := h.add (by omega)
      have hrest := ih hstep (by omega)
      rw [show k + (n + 1) = k + 1 + n by omega]
      exact hrest

/-- From power on. -/
lemma EternalDay.of_start {n : ℕ} (hn : n ≤ 2 ^ 26) :
    EternalDay (({} : Books).run (steadySteps eternalDay (tenDegrees false) (n + 1) 0)).ledger n := by
  have hfirst : EternalDay (({} : Books).step (.add (120 * (0 : ℕ)) (eternalDay 0)
      (tenDegrees false))).ledger 0 :=
    ⟨rfl, ⟨rfl, rfl, rfl⟩, ⟨rfl, rfl, rfl, rfl⟩, rfl, rfl, by decide, nofun⟩
  have hlast := hfirst.run n (by omega)
  rw [Nat.zero_add n] at hlast
  exact hlast

/-- The tracker in a run of ten degrees after a reading at `k` times two minutes. -/
structure EndlessRun (b : RunBooks) (c : CountedReadings) (k : ℕ) : Prop where
  isOpen : b.tracker.isOpen
  reference : b.tracker.hasPrev ∧ b.tracker.prevS = 120 * k ∧ b.tracker.prev = tenDegrees true ∧
    b.tracker.defrostEndS = -2 ^ 62
  seconds : b.tracker.sums.outdoorS = UInt32.ofNat (120 * k)
  sum : b.tracker.sums.outdoorSumDeciS = Int64.ofInt (12000 * k)
  counted : ∀ x ∈ c.current, x = 100

/-- Days of two minutes. -/
def shortDay (k : ℕ) : Day :=
  { date := UInt32.ofNat k, startS := 120 * k, endS := 120 * (k + 1 : ℕ) }

lemma EndlessRun.add {b : RunBooks} {c : CountedReadings} {k : ℕ} (h : EndlessRun b c k) :
    EndlessRun (b.step (.add (120 * (k + 1 : ℕ)) (shortDay (k + 1)) (tenDegrees true)))
      (c.step b.tracker (.add (120 * (k + 1 : ℕ)) (shortDay (k + 1)) (tenDegrees true)))
      (k + 1) := by
  obtain ⟨hopen, ⟨hhas, hprevS, hprev, hdefrost⟩, hS, hSum, hcounted⟩ := h
  have hadded := b.tracker.add_added (120 * (k + 1 : ℕ)) (shortDay (k + 1)).date (tenDegrees true)
  have hin : b.tracker.inStep (120 * (k + 1 : ℕ)) := by
    simp only [RunTracker.inStep, hhas, hprevS, kMaxStepSeconds, Bool.true_and, Bool.and_eq_true,
      decide_eq_true_eq]
    constructor <;> push_cast <;> omega
  have hsums : (b.tracker.add (120 * (k + 1 : ℕ)) (shortDay (k + 1)).date (tenDegrees true)).sums
      = b.tracker.sums.book (-2 ^ 62) (120 * k) (120 * (k + 1 : ℕ)) (tenDegrees true) := by
    rw [hadded.sums rfl, RunTracker.following, if_pos ⟨hopen, hin⟩, RunTracker.continued, hprevS,
      hprev, hdefrost]
  have hbooked := RunSums.book_booked b.tracker.sums (tenDegrees true) (-2 ^ 62) (120 * k)
    (120 * (k + 1 : ℕ)) rfl
  rw [← hsums] at hbooked
  have htaken : RunSums.outdoorBooked (tenDegrees true) (-2 ^ 62) (120 * k)
      (120 * (k + 1 : ℕ)) := by
    refine ⟨⟨rfl, rfl, rfl, by rintro ⟨⟩⟩, ?_⟩
    rw [outdoorFrom, if_pos (by rw [kPostDefrostSeconds]; omega)]
    push_cast
    omega
  have hseconds := hbooked.outdoorS.trans (if_pos htaken)
  have hsum := hbooked.outdoorSumDeciS.trans (if_pos htaken)
  rw [stepSeconds_steady] at hseconds hsum
  refine ⟨hadded.isOpen, ⟨hadded.hasPrev, hadded.prevS, hadded.prev, ?_⟩, ?_, ?_, ?_⟩
  · refine hadded.defrostEndS.trans ?_
    rw [hprev, hdefrost]
    exact if_neg fun h => Bool.noConfusion h.2.1
  · refine hseconds.trans ?_
    rw [hS]
    exact steady_seconds k
  · refine hsum.trans ?_
    rw [hSum]
    exact steady_sum k (by decide)
  · intro x hx
    rw [CountedReadings.step, if_neg (not_not.mpr hopen), if_pos hin] at hx
    dsimp only at hx
    rw [if_pos (show (tenDegrees true).active from rfl)] at hx
    rcases List.mem_append.mp hx with hx | hx
    · exact hcounted x hx
    · rw [RunSums.counted, hprev, hprevS, hdefrost, if_pos ⟨rfl, htaken⟩] at hx
      exact List.mem_singleton.mp hx

lemma EndlessRun.run : ∀ (n : ℕ) {b : RunBooks} {c : CountedReadings} {k : ℕ}, EndlessRun b c k →
    EndlessRun (b.run (steadySteps shortDay (tenDegrees true) n (k + 1)))
      (c.run b (steadySteps shortDay (tenDegrees true) n (k + 1))) (k + n) := by
  intro n
  induction n with
  | zero => exact fun h => h
  | succ n ih =>
      intro b c k h
      have hrest := ih h.add
      rw [show k + (n + 1) = k + 1 + n by omega]
      exact hrest

/-- From power on. -/
lemma EndlessRun.of_start (n : ℕ) :
    EndlessRun (({} : RunBooks).run (steadySteps shortDay (tenDegrees true) (n + 1) 0))
      (CountedReadings.run {} {} (steadySteps shortDay (tenDegrees true) (n + 1) 0)) n := by
  have hfirst : EndlessRun (({} : RunBooks).step (.add (120 * (0 : ℕ)) (shortDay 0)
      (tenDegrees true))) (CountedReadings.step {} {} (.add (120 * (0 : ℕ)) (shortDay 0)
      (tenDegrees true))) 0 :=
    ⟨rfl, ⟨rfl, rfl, rfl, rfl⟩, rfl, rfl, nofun⟩
  have hlast := hfirst.run n
  rw [Nat.zero_add n] at hlast
  exact hlast

/-- Nothing runs in the eternal day. -/
lemma eternalDay_idle (n : ℕ) :
    ∀ x ∈ (DayBook.of runTotal (steadySteps eternalDay (tenDegrees false) n 0)).days,
      x ≤ 3 * 86400 := by
  have hrelates : DayBook.Relates (fun x _ => x ≤ 0) (· = tenDegrees false) runTotal runTotal := by
    refine ⟨le_rfl, fun hx hy => add_nonpos hx hy, fun D a b p hp => ?_⟩
    have hzero : runTotal D a b (tenDegrees false) = 0 := by
      refine Finset.sum_eq_zero fun m _ => ?_
      have hnot : ¬ ((tenDegrees false).connected ∧ (tenDegrees false).running ∧
          (tenDegrees false).bucket.mode = some m) := fun h => nomatch h.2.1
      rw [runShare, rateShare, if_neg hnot, zero_mul]
    rw [hp, hzero]
  have hrelated := (DayBook.related_of hrelates fun nowS day input
    (h : .add nowS day input ∈ steadySteps eternalDay (tenDegrees false) n 0) =>
    mem_steadySteps h).days
  intro x hx
  obtain ⟨-, -, hle⟩ := exists_of_forall₂ hrelated.flip hx
  exact hle.trans (by norm_num)

/-- Two minutes run in each short day. -/
lemma shortDay_running : ∀ (n k : ℕ) (closed : List ℤ), k + n < 2 ^ 32 → (∀ x ∈ closed, x ≤ 120) →
    ∀ x ∈ (DayBook.run runTotal ⟨closed, some ⟨UInt32.ofNat k, 120 * (k + 1 : ℕ), 0⟩⟩
      { last := some (120 * (k : ℤ), tenDegrees true) }
      (steadySteps shortDay (tenDegrees true) n (k + 1))).days, x ≤ 120 := by
  have hshare : ∀ D a b, runTotal D a b (tenDegrees true) = span a b := by
    intro D a b
    have hmode : (tenDegrees true).bucket.mode = some 0 := rfl
    rw [runTotal, sum_of_mode hmode fun m hm => ?_, runShare, rateShare, if_pos ⟨rfl, rfl, rfl⟩,
      one_mul]
    rw [runShare, rateShare, if_neg fun h => hm h.2.2, zero_mul]
  intro n
  induction n with
  | zero =>
      intro k closed _ hclosed x hx
      rcases List.mem_append.mp hx with hx | hx
      · exact hclosed x hx
      · rw [List.mem_singleton.mp hx]
        norm_num
  | succ n ih =>
      intro k closed hk hclosed
      have hinterval : Reference.interval { last := some (120 * (k : ℤ), tenDegrees true) }
          (120 * (k + 1 : ℕ)) = some ⟨-2 ^ 62, 120 * k, 120 * (k + 1 : ℕ), tenDegrees true⟩ := by
        rw [Reference.interval]
        exact if_pos (by rw [kMaxStepSeconds]; push_cast; omega)
      have hdate : ¬ (shortDay (k + 1)).date ≤ UInt32.ofNat k := by
        rw [UInt32.le_iff_toNat_le]
        show ¬ (UInt32.ofNat (k + 1)).toNat ≤ (UInt32.ofNat k).toNat
        rw [UInt32.toNat_ofNat', UInt32.toNat_ofNat']
        omega
      have hadd : DayBook.add runTotal ⟨closed, some ⟨UInt32.ofNat k, 120 * (k + 1 : ℕ), 0⟩⟩
          (some ⟨-2 ^ 62, 120 * k, 120 * (k + 1 : ℕ), tenDegrees true⟩) (120 * (k + 1 : ℕ))
          (shortDay (k + 1))
          = ⟨closed ++ [120], some ⟨UInt32.ofNat (k + 1), 120 * (k + 1 + 1 : ℕ), 0⟩⟩ := by
        have hat : (⟨UInt32.ofNat k, 120 * (k + 1 : ℕ), 0⟩ : OpenDay).at (120 * (k + 1 : ℕ))
            (shortDay (k + 1)) = ⟨UInt32.ofNat k, 120 * (k + 1 : ℕ), 0⟩ :=
          if_neg fun h => hdate h.2
        have hcut : cutAt (some ⟨-2 ^ 62, 120 * k, 120 * (k + 1 : ℕ), tenDegrees true⟩)
            (120 * (k + 1 : ℕ)) (120 * (k + 1 : ℕ)) = 120 * (k + 1 : ℕ) := by
          rw [cutAt]
          push_cast
          omega
        have hend : dayEnd (shortDay (k + 1)) = 120 * (k + 1 + 1 : ℕ) := by
          rw [dayEnd, shortDay]
          dsimp only
          exact if_pos (by push_cast; omega)
        rw [DayBook.add]
        dsimp only
        rw [hat, if_neg (lt_irrefl _), hcut, hend, partOf, partOf, startOf]
        dsimp only
        rw [hshare, hshare, span, span]
        have htwo : max (0 : ℤ) (120 * (k + 1 : ℕ) - 120 * k) = 120 := by
          push_cast
          omega
        rw [htwo, sub_self, max_self, zero_add]
        rfl
      rw [steadySteps, DayBook.run, hinterval, hadd]
      refine ih (k + 1) (closed ++ [120]) (by omega) fun x hx => ?_
      rcases List.mem_append.mp hx with hx | hx
      · exact hclosed x hx
      · rw [List.mem_singleton.mp hx]

/-- From power on. -/
lemma shortDay_of_start {n : ℕ} (hn : n < 2 ^ 32) :
    ∀ x ∈ (DayBook.of runTotal (steadySteps shortDay (tenDegrees true) (n + 1) 0)).days,
      x ≤ 3 * 86400 := by
  intro x hx
  have hle := shortDay_running n 0 [] (by omega) nofun x hx
  exact hle.trans (by norm_num)

/-- The average after 2^32 + 104 seconds, which leave 104. -/
lemma EternalDay.not_between {l : EnergyLedger} (h : EternalDay l 35791395) :
    ¬ (toRecord l.cur).AveragesBetween := by
  intro hbetween
  have hS : l.cur.outdoorS = 104 := h.seconds.trans (by decide)
  have hpos : l.cur.outdoorS > 0 := by
    rw [hS]
    decide
  have hset : (toRecord l.cur).flags &&& dayOutdoorSet ≠ 0 := by
    rw [toRecord_outdoorSet]
    exact h.set (by norm_num)
  have havg : (toRecord l.cur).outdoorAvgDeci = 25306 := by
    refine (if_pos hpos).trans ?_
    rw [hS, h.sum]
    decide
  have hmax : (toRecord l.cur).outdoorMaxDeci = l.cur.outdoorMaxDeci := if_pos hpos
  have hle := (hbetween.day hset).2
  rw [havg, hmax, Int16.le_iff_toInt_le] at hle
  exact absurd (hle.trans h.highest) (by decide)

/-- And in the run. -/
lemma EndlessRun.not_between {b : RunBooks} {c : CountedReadings} (h : EndlessRun b c 35791395) :
    ¬ b.tracker.sums.AverageBetween c.current := by
  intro hbetween
  have hS : b.tracker.sums.outdoorS = 104 := h.seconds.trans (by decide)
  have hpos : b.tracker.sums.outdoorS > 0 := by
    rw [hS]
    decide
  have havg : b.tracker.sums.record.outdoorAvgDeci = 25306 := by
    refine (if_pos hpos).trans ?_
    rw [hS, h.sum]
    decide
  obtain ⟨lo, -, hi, hhi, -, hle⟩ := hbetween hpos
  rw [havg, h.counted hi hhi] at hle
  exact absurd hle (by decide)

/-- The averages leave the extremes where the seconds wrap: in a day of 2^32 seconds without any
running time, and in a run of as many seconds through days of two minutes. -/
theorem outdoor_averages_not_between :
    (∃ steps, ClockRises 0 steps ∧
      (∀ nowS day input, .add nowS day input ∈ steps → input.InRange) ∧
      (∀ x ∈ (DayBook.of runTotal steps).days, x ≤ 3 * 86400) ∧
      ¬ (toRecord (({} : Books).run steps).ledger.cur).AveragesBetween) ∧
    ∃ steps, ClockRises 0 steps ∧
      (∀ nowS day input, .add nowS day input ∈ steps → input.InRange) ∧
      (∀ x ∈ (DayBook.of runTotal steps).days, x ≤ 3 * 86400) ∧
      (({} : RunBooks).run steps).tracker.isOpen ∧
      ¬ (({} : RunBooks).run steps).tracker.sums.AverageBetween
        (CountedReadings.run {} {} steps).current := by
  have hrange : ∀ running, (tenDegrees running).InRange := by decide
  have hread : ∀ {day running n nowS d input},
      .add nowS d input ∈ steadySteps day (tenDegrees running) n 0 → input.InRange := by
    intro day running n nowS d input h
    rw [mem_steadySteps h]
    exact hrange running
  constructor
  · -- 2^32 + 104 seconds
    refine ⟨steadySteps eternalDay (tenDegrees false) (35791395 + 1) 0, ?_,
      fun nowS day input h => hread h, eternalDay_idle _, ?_⟩
    · refine steadySteps_rises (m := 2 ^ 26) (fun k hk => ⟨?_, ?_⟩) _ 0 (by norm_num) 0 le_rfl
      · exact show (0 : ℤ) ≤ 120 * k by omega
      · exact show (120 * k : ℤ) < 2 ^ 33 by omega
    exact (EternalDay.of_start (n := 35791395) (by norm_num)).not_between
  · refine ⟨steadySteps shortDay (tenDegrees true) (35791395 + 1) 0, ?_,
      fun nowS day input h => hread h, shortDay_of_start (by norm_num), ?_⟩
    · refine steadySteps_rises (m := 2 ^ 26) (fun k hk => ⟨le_rfl, ?_⟩) _ 0 (by norm_num) 0 le_rfl
      rw [dayEnd, if_pos (by show (120 * (k + 1 : ℕ) : ℤ) ≠ 0; push_cast; omega)]
      show (120 * k : ℤ) < 120 * (k + 1 : ℕ)
      push_cast
      omega
    have hlast := EndlessRun.of_start 35791395
    exact ⟨hlast.isOpen, hlast.not_between⟩

end ArcticController

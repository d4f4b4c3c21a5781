/-
What the energy ledger is for, apart from its machine words: a day book that
splits every interval between two readings at the end of the open day.

* `Interval`, `intervals`: the stretches between consecutive readings that are
  booked, read off the sequence of readings alone;
* `Share`, `powerShare`, `elecShare`, `thermalShare`, `coveredShare`,
  `runShare`, `outdoorShare`, `outdoorSumShare`: what a stretch adds to one
  counter, as an exact number, with `Share.Splits`: a stretch adds what its two
  parts add;
* `DayBook`: the closed days and the open one with their exact amounts;
* `DayBook.total_run`: the days together hold the shares of all intervals.
-/
import ArcticController.Energy.EnergyLedger

namespace ArcticController

/-! ### Sequences of readings -/

/-- A reading, or the loss of the reference point. -/
inductive LedgerStep where
  | add (nowS : ℤ) (day : Day) (input : Input)
  | pause

/-- The reading before the next one, and the end of the last defrost. -/
structure Reference where
  last : Option (ℤ × Input) := none
  defrostEndS : ℤ := -2 ^ 62

/-- The reference after a step. -/
def Reference.step (r : Reference) : LedgerStep → Reference
  | .add nowS _ input =>
      { last := some (nowS, input)
        defrostEndS := match r.last with
          | some (_, p) => if p.defrost ∧ ¬ input.defrost then nowS else r.defrostEndS
          | none => r.defrostEndS }
  | .pause => { r with last := none }

/-- A stretch between two consecutive readings, with the state that held over
it and the end of the last defrost before it. -/
structure Interval where
  defrostEndS : ℤ
  fromS : ℤ
  toS : ℤ
  input : Input

/-- The stretch a reading at `nowS` ends: none after a pause or a gap. -/
def Reference.interval (r : Reference) (nowS : ℤ) : Option Interval :=
  match r.last with
  | some (t, p) => if nowS - t ≤ kMaxStepSeconds then some ⟨r.defrostEndS, t, nowS, p⟩ else none
  | none => none

/-- The stretches of a sequence of readings. -/
def intervals : Reference → List LedgerStep → List Interval
  | _, [] => []
  | r, .add nowS day input :: steps =>
      (r.interval nowS).toList ++ intervals (r.step (.add nowS day input)) steps
  | r, .pause :: steps => intervals (r.step .pause) steps

/-- A reading at `nowS` falls in the day. -/
def Day.Holds (day : Day) (nowS : ℤ) : Prop := day.startS ≤ nowS ∧ nowS < dayEnd day

/-- The clock does not step back, and every reading falls in its day. -/
def ClockRises : ℤ → List LedgerStep → Prop
  | _, [] => True
  | clock, .add nowS day _ :: steps =>
      clock ≤ nowS ∧ day.Holds nowS ∧ ClockRises nowS steps
  | clock, .pause :: steps => ClockRises clock steps

instance (day : Day) (nowS : ℤ) : Decidable (day.Holds nowS) :=
  inferInstanceAs (Decidable (_ ∧ _))

instance ClockRises.decidable : ∀ clock steps, Decidable (ClockRises clock steps)
  | _, [] => .isTrue trivial
  | _, .add nowS _ _ :: steps =>
      have := ClockRises.decidable nowS steps
      inferInstanceAs (Decidable (_ ∧ _ ∧ _))
  | clock, .pause :: steps => ClockRises.decidable clock steps

/-! ### Shares -/

/-- What the stretch from `a` to `b` adds to a counter, after a defrost that
ended at `defrostEndS` and with the state `p`. -/
def Share : Type := ℤ → ℤ → ℤ → Input → ℤ

/-- The length of a stretch. -/
def span (a b : ℤ) : ℤ := max 0 (b - a)

/-- A stretch adds what its two parts add. -/
def Share.Splits (share : Share) : Prop :=
  ∀ defrostEndS a b c p, a ≤ b → b ≤ c →
    share defrostEndS a b p + share defrostEndS b c p = share defrostEndS a c p

/-- The share of an interval. -/
def Interval.share (i : Interval) (share : Share) : ℤ := share i.defrostEndS i.fromS i.toS i.input

/-- A share that is a rate over time, zero where `p` does not count. -/
def rateShare (rate : Input → ℤ) : Share := fun _ a b p => rate p * span a b

/-- A share over the time the outdoor reading counts. -/
def outdoorRate (rate : Input → ℤ) : Share := fun defrostEndS a b p =>
  rate p * span (outdoorFrom defrostEndS a) b

/-- Seconds with a valid power reading. -/
def powerShare : Share := rateShare fun p => if p.connected ∧ p.powerValid then 1 else 0

/-- Electricity of one bucket. -/
def elecShare (bucket : Fin kBuckets) : Share := rateShare fun p =>
  if p.connected ∧ p.powerValid ∧ p.bucket.index = bucket then p.powerW.toNat else 0

/-- Whether the heat of a reading counts, for the mode `m`. -/
def heatCounts (m : Fin kModes) (p : Input) : Prop :=
  p.connected ∧ p.thermalValid ∧ p.powerValid ∧ p.bucket.mode = some m

instance (m : Fin kModes) (p : Input) : Decidable (heatCounts m p) :=
  inferInstanceAs (Decidable (_ ∧ _ ∧ _ ∧ _))

/-- Heat of one mode. -/
def thermalShare (m : Fin kModes) : Share := rateShare fun p =>
  if heatCounts m p ∧ modeHeat p > 0 then (modeHeat p).toInt else 0

/-- Electricity while the heat of one mode counts. -/
def coveredShare (m : Fin kModes) : Share := rateShare fun p =>
  if heatCounts m p then p.powerW.toNat else 0

/-- Running time of one mode. -/
def runShare (m : Fin kModes) : Share := rateShare fun p =>
  if p.connected ∧ p.running ∧ p.bucket.mode = some m then 1 else 0

/-- Whether the outdoor reading counts as taken while running. -/
def runOutdoorCounts (p : Input) : Prop :=
  p.connected ∧ p.outdoorValid ∧ ¬ p.defrost ∧ p.running ∧ p.bucket.mode.isSome

instance (p : Input) : Decidable (runOutdoorCounts p) :=
  inferInstanceAs (Decidable (_ ∧ _ ∧ _ ∧ _ ∧ _))

/-- Seconds in the running outdoor average. -/
def outdoorShare : Share := outdoorRate fun p => if runOutdoorCounts p then 1 else 0

/-- Sum of the running outdoor average. -/
def outdoorSumShare : Share := outdoorRate fun p =>
  if runOutdoorCounts p then (p.outdoorC * 10).toInt else 0

lemma rateShare_splits (rate : Input → ℤ) : (rateShare rate).Splits := by
  intro defrostEndS a b c p hab hbc
  simp only [rateShare, span, ← mul_add]
  congr 1
  omega

lemma outdoorRate_splits (rate : Input → ℤ) : (outdoorRate rate).Splits := by
  intro defrostEndS a b c p hab hbc
  simp only [outdoorRate, span, outdoorFrom, ← mul_add]
  congr 1
  split_ifs <;> omega

variable {share : Share}

/-- An empty stretch adds nothing. -/
lemma Share.Splits.self (h : share.Splits) (defrostEndS a : ℤ) (p : Input) :
    share defrostEndS a a p = 0 := by
  have := h defrostEndS a a a p le_rfl le_rfl
  omega

/-! ### The day book -/

/-- The open day: its date, its end and its amount so far. -/
structure OpenDay where
  date : UInt32
  endS : ℤ
  amount : ℤ

/-- The amounts of the closed days, oldest first, and the open day. -/
structure DayBook where
  closed : List ℤ := []
  current : Option OpenDay := none

/-- The open day when a reading falls in `day`: it runs on to the end of that
day when it is over but the date has not gone on. -/
def OpenDay.at (d : OpenDay) (nowS : ℤ) (day : Day) : OpenDay :=
  if nowS ≥ d.endS ∧ day.date ≤ d.date then { d with endS := dayEnd day } else d

/-- The share of the part from `a` to `b` of an interval. -/
def partOf (share : Share) (i : Option Interval) (a b : ℤ) : ℤ :=
  match i with
  | some i => share i.defrostEndS a b i.input
  | none => 0

/-- Where the open day ends within an interval. -/
def cutAt (i : Option Interval) (endS nowS : ℤ) : ℤ :=
  match i with
  | some i => max i.fromS endS
  | none => nowS

/-- The start of an interval. -/
def startOf (i : Option Interval) (nowS : ℤ) : ℤ :=
  match i with
  | some i => i.fromS
  | none => nowS

/-- Book a reading: the part of its interval before the open day's end to that
day, the part from it on to the day opened then. -/
def DayBook.add (share : Share) (b : DayBook) (i : Option Interval) (nowS : ℤ) (day : Day) :
    DayBook :=
  match b.current with
  | none => { b with current := some ⟨day.date, dayEnd day, 0⟩ }
  | some d =>
      let d := d.at nowS day
      if nowS < d.endS then
        { b with current := some { d with amount := d.amount + partOf share i (startOf i nowS) nowS } }
      else
        let cut := cutAt i d.endS nowS
        { closed := b.closed ++ [d.amount + partOf share i (startOf i nowS) cut]
          current := some ⟨day.date, dayEnd day, partOf share i cut nowS⟩ }

/-- The day book of a sequence of readings. -/
def DayBook.run (share : Share) : DayBook → Reference → List LedgerStep → DayBook
  | b, _, [] => b
  | b, r, .add nowS day input :: steps =>
      DayBook.run share (b.add share (r.interval nowS) nowS day) (r.step (.add nowS day input)) steps
  | b, r, .pause :: steps => DayBook.run share b (r.step .pause) steps

/-- The amounts of all days, the open one last. -/
def DayBook.days (b : DayBook) : List ℤ := b.closed ++ (b.current.map (·.amount)).toList

/-- Nothing is booked before the first day opens. -/
def DayBook.Fresh (b : DayBook) (r : Reference) : Prop := b.current = none → r.last = none

lemma Reference.interval_bounds {r : Reference} {nowS : ℤ} {i : Interval}
    (h : r.interval nowS = some i) :
    r.last = some (i.fromS, i.input) ∧ i.toS = nowS ∧ i.defrostEndS = r.defrostEndS ∧
      nowS - i.fromS ≤ kMaxStepSeconds := by
  rw [Reference.interval] at h
  cases hlast : r.last with
  | none =>
      rw [hlast] at h
      cases h
  | some q =>
      obtain ⟨t, p⟩ := q
      rw [hlast] at h
      dsimp only at h
      split_ifs at h with hstep
      cases h
      exact ⟨rfl, rfl, rfl, hstep⟩

/-- One reading adds the share of its interval to the days. -/
lemma DayBook.days_add (hshare : share.Splits) {b : DayBook} {r : Reference} {nowS : ℤ} {day : Day}
    (hfresh : b.Fresh r) (hclock : ∀ t p, r.last = some (t, p) → t ≤ nowS) :
    (b.add share (r.interval nowS) nowS day).days.sum
      = b.days.sum + ((r.interval nowS).toList.map (·.share share)).sum := by
  cases hcur : b.current with
  | none =>
      have hnone : r.interval nowS = none := by rw [Reference.interval, hfresh hcur]
      simp [DayBook.add, hcur, hnone, DayBook.days]
  | some d =>
      cases hi : r.interval nowS with
      | none =>
          simp only [DayBook.add, hcur, DayBook.days, partOf]
          have hat : (d.at nowS day).amount = d.amount := by rw [OpenDay.at]; split <;> rfl
          split <;> simp [hat]
      | some i =>
          obtain ⟨hlast, hto, -, -⟩ := Reference.interval_bounds hi
          have hle := hclock _ _ hlast
          have hat : (d.at nowS day).amount = d.amount := by rw [OpenDay.at]; split <;> rfl
          simp only [DayBook.add, hcur, DayBook.days, partOf, startOf, cutAt]
          split
          · simp only [List.sum_append, Option.map_some, Option.toList_some, List.map_cons,
              List.map_nil, List.sum_cons, List.sum_nil, hat, Interval.share, hto]
            ring
          · have hend : (d.at nowS day).endS ≤ nowS := by omega
            have hsplit := hshare i.defrostEndS i.fromS (max i.fromS (d.at nowS day).endS) nowS
              i.input (le_max_left _ _) (max_le hle hend)
            simp only [List.sum_append, Option.map_some, Option.toList_some, List.map_cons,
              List.map_nil, List.sum_cons, List.sum_nil, hat, Interval.share, hto]
            omega

lemma DayBook.fresh_add (b : DayBook) (r : Reference) (i : Option Interval) (nowS : ℤ) (day : Day) :
    (b.add share i nowS day).Fresh r := by
  intro h
  rw [DayBook.add] at h
  cases hcur : b.current with
  | none =>
      rw [hcur] at h
      cases h
  | some d =>
      rw [hcur] at h
      dsimp only at h
      split at h <;> cases h

/-- **The days together hold the shares of all intervals**, each once. -/
theorem DayBook.total_run (hshare : share.Splits) : ∀ (steps : List LedgerStep)
    {b : DayBook} {r : Reference} {clock : ℤ}, b.Fresh r →
    (∀ t p, r.last = some (t, p) → t ≤ clock) → ClockRises clock steps →
    (DayBook.run share b r steps).days.sum
      = b.days.sum + ((intervals r steps).map (·.share share)).sum := by
  intro steps
  induction steps with
  | nil => intro b r clock _ _ _; simp [DayBook.run, intervals]
  | cons step steps ih =>
      intro b r clock hfresh hclock hrise
      cases step with
      | add nowS day input =>
          obtain ⟨hle, -, hrest⟩ := hrise
          have hclock' : ∀ t p, r.last = some (t, p) → t ≤ nowS := fun t p h =>
            (hclock t p h).trans hle
          have hstep := ih (b := b.add share (r.interval nowS) nowS day)
            (r := r.step (.add nowS day input)) (DayBook.fresh_add b _ _ _ _)
            (fun t p h => by
              simp only [Reference.step, Option.some.injEq, Prod.mk.injEq] at h
              omega) hrest
          rw [DayBook.run, hstep, DayBook.days_add hshare hfresh hclock', intervals, List.map_append,
            List.sum_append]
          ring
      | pause =>
          have hstep := ih (b := b) (r := r.step .pause) (fun _ => rfl)
            (fun t p h => by simp [Reference.step] at h) hrise
          rw [DayBook.run, hstep, intervals]

/-- The readings of an interval come in the order of the clock. -/
lemma intervals_le : ∀ (steps : List LedgerStep) {r : Reference} {clock : ℤ},
    (∀ t p, r.last = some (t, p) → t ≤ clock) → ClockRises clock steps →
    ∀ i ∈ intervals r steps, i.fromS ≤ i.toS := by
  intro steps
  induction steps with
  | nil => intro r clock _ _ i hi; cases hi
  | cons step steps ih =>
      intro r clock hclock hrise i hi
      cases step with
      | add nowS day input =>
          obtain ⟨hle, -, hrest⟩ := hrise
          rcases List.mem_append.mp hi with hnow | hlater
          · obtain ⟨hlast, hto, -, -⟩ := Reference.interval_bounds (Option.mem_toList.mp hnow)
            have := hclock _ _ hlast
            omega
          · refine ih (fun t p h => ?_) hrest i hlater
            simp only [Reference.step, Option.some.injEq, Prod.mk.injEq] at h
            omega
      | pause => exact ih (r := r.step .pause) (fun t p h => nomatch h) hrise i hi

/-! ### Shares that only grow -/

/-- No stretch takes from the counter. -/
def Share.Grows (share : Share) : Prop := ∀ D a b p, 0 ≤ share D a b p

lemma rateShare_grows {rate : Input → ℤ} (h : ∀ p, 0 ≤ rate p) : (rateShare rate).Grows :=
  fun _ a b p => mul_nonneg (h p) (le_max_left 0 (b - a))

lemma outdoorRate_grows {rate : Input → ℤ} (h : ∀ p, 0 ≤ rate p) : (outdoorRate rate).Grows :=
  fun _ _ _ p => mul_nonneg (h p) (le_max_left 0 _)

lemma DayBook.grows_add (hshare : share.Grows) {b : DayBook} (hb : ∀ x ∈ b.days, 0 ≤ x)
    (i : Option Interval) (nowS : ℤ) (day : Day) : ∀ x ∈ (b.add share i nowS day).days, 0 ≤ x := by
  have hpart : ∀ u v, 0 ≤ partOf share i u v := by
    intro u v
    cases i with
    | none => exact le_rfl
    | some i => exact hshare _ _ _ _
  have hclosed : ∀ x ∈ b.closed, 0 ≤ x := fun x hx => hb x (List.mem_append_left _ hx)
  cases hcur : b.current with
  | none =>
      intro x hx
      rw [DayBook.add, hcur] at hx
      rcases List.mem_append.mp hx with hx | hx
      · exact hclosed x hx
      · rw [List.mem_singleton.mp hx]
  | some d =>
      have hd : 0 ≤ d.amount := hb _ (by simp [DayBook.days, hcur])
      have hat : (d.at nowS day).amount = d.amount := by rw [OpenDay.at]; split <;> rfl
      intro x hx
      rw [DayBook.add, hcur] at hx
      dsimp only at hx
      split at hx
      · rcases List.mem_append.mp hx with hx | hx
        · exact hclosed x hx
        · rw [List.mem_singleton.mp hx, hat]
          exact add_nonneg hd (hpart _ _)
      · rcases List.mem_append.mp hx with hx | hx
        · rcases List.mem_append.mp hx with hx | hx
          · exact hclosed x hx
          · rw [List.mem_singleton.mp hx, hat]
            exact add_nonneg hd (hpart _ _)
        · rw [List.mem_singleton.mp hx]
          exact hpart _ _

/-- No day of the book has less than nothing. -/
lemma DayBook.grows_run (hshare : share.Grows) : ∀ (steps : List LedgerStep)
    {b : DayBook} {r : Reference}, (∀ x ∈ b.days, 0 ≤ x) →
    ∀ x ∈ (DayBook.run share b r steps).days, 0 ≤ x := by
  intro steps
  induction steps with
  | nil => intro b r hb; exact hb
  | cons step steps ih =>
      intro b r hb
      cases step with
      | add nowS day input => exact ih (DayBook.grows_add hshare hb _ _ _)
      | pause => exact ih hb

end ArcticController

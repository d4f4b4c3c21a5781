/-
The time each day of the energy ledger has had, and what booking time to it keeps.

* `DayAccum.TimesBooked`, `book_times`: the remaining counters after a booking;
* `DayTimes`: the seconds of the closed days and since when the open one has run, read off
  the readings;
* `DayRule`: a relation of a day's totals and its seconds that booking keeps;
* `Books.timed_run`: over any sequence of readings every day keeps the rule.
-/
import ArcticController.Energy.LedgerConserves
import ArcticController.Energy.LedgerDates

namespace ArcticController

/-! ### The counters of time after a booking -/

namespace DayAccum

variable (cur : DayAccum) (dt : UInt32) (p : Input)

lemma noteSettings_thermalS : (cur.noteSettings p).thermalS = cur.thermalS := by
  obtain ⟨flags, flow, glycol, heq⟩ := noteSettings_eq cur p
  rw [heq]

lemma bookThermal_thermalS : (cur.bookThermal dt p).thermalS =
    if p.bucket.mode.isSome ∧ p.thermalValid ∧ p.powerValid then cur.thermalS + dt
    else cur.thermalS := by
  rw [bookThermal]
  cases p.bucket.mode with
  | none =>
      rw [if_neg]
      rintro ⟨hmode, -⟩
      cases hmode
  | some m =>
      dsimp only
      by_cases hv : p.thermalValid ∧ p.powerValid
      · have hbooked : (some m).isSome ∧ p.thermalValid ∧ p.powerValid := ⟨rfl, hv⟩
        rw [if_pos hv, if_pos hbooked, noteSettings_thermalS]
      · rw [if_neg hv, if_neg fun h => hv h.2]

/-- What was booked before the outdoor reading is looked at. -/
structure TimesUnder (c : DayAccum) : Prop where
  thermalS : c.thermalS = if p.bucket.mode.isSome ∧ p.thermalValid ∧ p.powerValid then
      cur.thermalS + dt else cur.thermalS
  sourceS : c.sourceS = if p.running ∧ ¬ p.defrost then bump cur.sourceS p.source.index dt
    else cur.sourceS
  outdoorS : c.outdoorS = cur.outdoorS
  outdoorSumDeciS : c.outdoorSumDeciS = cur.outdoorSumDeciS
  outdoorMinDeci : c.outdoorMinDeci = cur.outdoorMinDeci
  outdoorMaxDeci : c.outdoorMaxDeci = cur.outdoorMaxDeci

lemma times_under : cur.TimesUnder dt p
    ((((cur.bookPower dt p).bookRunning dt p).bookDefrost dt p).bookThermal dt p) := by
  have hthermal := bookThermal_thermalS (((cur.bookPower dt p).bookRunning dt p).bookDefrost dt p) dt p
  obtain ⟨flags, flow, glycol, thermalS, heq⟩ := bookThermal_eq
    (((cur.bookPower dt p).bookRunning dt p).bookDefrost dt p) dt p
  rw [heq] at hthermal ⊢
  constructor
  · rw [hthermal]
    simp only [bookDefrost_eq, bookRunning_eq, bookPower_eq]
  all_goals simp only [bookDefrost_eq, bookRunning_eq, bookPower_eq]

/-- Whether the outdoor reading is booked over the part from `outFrom` to `b`. -/
def outdoorTaken (D a b : ℤ) : Prop := p.outdoorValid ∧ ¬ p.defrost ∧ b > outdoorFrom D a

instance (D a b : ℤ) : Decidable (outdoorTaken p D a b) :=
  inferInstanceAs (Decidable (_ ∧ _ ∧ _))

/-- The counters `c` of an accumulation after `[a, b)` was booked to it. -/
structure TimesBooked (D a b : ℤ) (c : DayAccum) : Prop where
  thermalS : c.thermalS = if p.bucket.mode.isSome ∧ p.thermalValid ∧ p.powerValid then
      cur.thermalS + stepSeconds a b else cur.thermalS
  sourceS : c.sourceS = if p.running ∧ ¬ p.defrost then
      bump cur.sourceS p.source.index (stepSeconds a b) else cur.sourceS
  outdoorS : c.outdoorS = if outdoorTaken p D a b then
      cur.outdoorS + stepSeconds (outdoorFrom D a) b else cur.outdoorS

lemma noteOutdoor_eq (deci : Int16) : ∃ flags lo hi, cur.noteOutdoor deci =
    { cur with flags := flags, outdoorMinDeci := lo, outdoorMaxDeci := hi } := by
  simp only [noteOutdoor]
  split_ifs <;> exact ⟨_, _, _, rfl⟩

lemma bookOutdoor_outdoorS : (cur.bookOutdoor dt p).outdoorS = cur.outdoorS + dt ∧
    (cur.bookOutdoor dt p).thermalS = cur.thermalS ∧
    (cur.bookOutdoor dt p).sourceS = cur.sourceS := by
  obtain ⟨flags, lo, hi, hnote⟩ := cur.noteOutdoor_eq (p.outdoorC * 10)
  simp only [bookOutdoor, hnote]
  split <;> exact ⟨rfl, rfl, rfl⟩

lemma book_times {D a b : ℤ} (hab : a < b) (hc : p.connected) :
    cur.TimesBooked p D a b (cur.book D a b p) := by
  have hskip : ¬ (b ≤ a ∨ ¬ p.connected) := by simp [hc, hab]
  obtain ⟨hthermal, hsource, houtdoor, -⟩ := cur.times_under (stepSeconds a b) p
  rw [book, if_neg hskip]
  dsimp only
  generalize (((cur.bookPower (stepSeconds a b) p).bookRunning (stepSeconds a b) p).bookDefrost
    (stepSeconds a b) p).bookThermal (stepSeconds a b) p = c at hthermal hsource houtdoor ⊢
  split
  · next hout =>
      have htaken : outdoorTaken p D a b := hout
      obtain ⟨hs, ht, hr⟩ := c.bookOutdoor_outdoorS (stepSeconds (outdoorFrom D a) b) p
      exact ⟨ht.trans hthermal, hr.trans hsource, hs.trans (by rw [houtdoor, if_pos htaken])⟩
  · next hout =>
      have hnot : ¬ outdoorTaken p D a b := hout
      exact ⟨hthermal, hsource, by rw [houtdoor, if_neg hnot]⟩

end DayAccum

/-! ### The seconds of the days -/

/-- The seconds the closed days have had, oldest first, since when the open day has run,
and the time of the last reading. -/
structure DayTimes where
  closed : List ℤ := []
  since : ℤ := 0
  clock : ℤ := 0

/-- A reading. The day it closes has had the time up to its end; the day it opens runs from
its midnight, or from the end of the day before where that is earlier. -/
def DayTimes.step (w : DayTimes) (l : EnergyLedger) : LedgerStep → DayTimes
  | .add nowS day _ =>
      match l.closing nowS day with
      | some _ =>
          { closed := w.closed ++ [max w.clock (l.reached nowS day).endS - w.since]
            since := min day.startS (l.reached nowS day).endS
            clock := nowS }
      | none => { w with since := if l.isOpen then w.since else day.startS, clock := nowS }
  | .pause => w

def DayTimes.run : DayTimes → EnergyLedger → List LedgerStep → DayTimes
  | w, _, [] => w
  | w, l, step :: steps => (w.step l step).run (l.step step) steps

/-- The seconds of the open day. -/
def DayTimes.elapsed (w : DayTimes) : ℤ := w.clock - w.since

/-! ### Rules that booking keeps -/

/-- A relation of the totals of a day and the seconds it has had: time alone does not break
it, nor does booking a reading that `Reads` allows. -/
structure DayRule where
  Kept : DayAccum → ℤ → Prop
  Reads : Input → Prop
  blank : ∀ date offset, Kept { (default : DayAccum) with date := date, utcOffsetMin := offset } 0
  counts : ∀ {cur e} s d, Kept cur e → Kept { cur with starts := s, defrosts := d } e
  mono : ∀ {cur e e'}, Kept cur e → e ≤ e' → Kept cur e'
  booked : ∀ {cur e p D a b}, Kept cur e → Reads p → a < b → b - a ≤ kMaxStepSeconds →
    p.connected → Kept (cur.book D a b p) (e + (b - a))

lemma DayRule.book (K : DayRule) {cur : DayAccum} {e : ℤ} {p : Input} {D a b : ℤ}
    (h : K.Kept cur e) (hp : K.Reads p) (hab : a ≤ b) (hstep : b - a ≤ kMaxStepSeconds) :
    K.Kept (cur.book D a b p) (e + (b - a)) := by
  by_cases hc : p.connected
  · rcases hab.lt_or_eq with hlt | rfl
    · exact K.booked h hp hlt hstep hc
    · rw [cur.book_self p (Or.inl le_rfl)]
      exact K.mono h (by omega)
  · rw [cur.book_self p (Or.inr hc)]
    exact K.mono h (by omega)

/-- A reading the rule allows. -/
def DayRule.Allows (K : DayRule) : LedgerStep → Prop
  | .add _ _ input => K.Reads input
  | .pause => True

/-- Every day of the books keeps the rule with the seconds it has had. -/
structure Books.Timed (K : DayRule) (b : Books) (w : DayTimes) : Prop where
  closed : List.Forall₂ K.Kept b.closed w.closed
  current : b.ledger.isOpen → K.Kept b.ledger.cur w.elapsed
  reference : b.ledger.hasPrev → b.ledger.prevS = w.clock ∧ K.Reads b.ledger.prev

namespace Books

variable {K : DayRule} {b : Books} {w : DayTimes} {nowS : ℤ} {day : Day} {input : Input}

/-- The closed days with one more. -/
lemma forall₂_concat {as : List DayAccum} {es : List ℤ} {a : DayAccum} {e : ℤ}
    (h : List.Forall₂ K.Kept as es) (ha : K.Kept a e) : List.Forall₂ K.Kept (as ++ [a]) (es ++ [e]) :=
  List.rel_append h (.cons ha .nil)

lemma timed_add (h : b.Timed K w) (hclock : w.clock ≤ nowS) (hday : day.Holds nowS)
    (hinput : K.Reads input) :
    (b.step (.add nowS day input)).Timed K (w.step b.ledger (.add nowS day input)) := by
  have hcase := b.ledger.add_cases nowS day input
  rw [step, DayTimes.step]
  have hcur := @EnergyLedger.reached_cur b.ledger nowS day
  have hprevS : (b.ledger.reached nowS day).prevS = b.ledger.prevS := by
    rw [EnergyLedger.reached_eq]
  have hprev : (b.ledger.reached nowS day).prev = b.ledger.prev := by
    rw [EnergyLedger.reached_eq]
  generalize b.ledger.add nowS day input = l', b.ledger.closing nowS day = c at hcase ⊢
  have hblank : ∀ e, 0 ≤ e → K.Kept { (default : DayAccum) with
      date := day.date, utcOffsetMin := day.utcOffsetMin } e := fun e => K.mono (K.blank _ _)
  have hkeep : List.Forall₂ K.Kept (b.closed ++ (none : Option DayAccum).toList) w.closed := by
    rw [Option.toList_none, List.append_nil]
    exact h.closed
  have hfrom := hday.1
  cases hcase with
  | opened hopen =>
      refine ⟨hkeep, fun _ => hblank _ ?_, fun _ => ⟨rfl, hinput⟩⟩
      rw [DayTimes.elapsed, if_neg hopen]
      dsimp only
      omega
  | behind hopen hstart =>
      refine ⟨hkeep, fun _ => ?_, by rintro ⟨⟩⟩
      rw [DayTimes.elapsed, if_pos hopen]
      have hkept := h.current hopen
      rw [← EnergyLedger.exactSpan_cur { b.ledger with hasFinished := false } day] at hkept
      exact K.mono hkept (Int.sub_le_sub_right hclock _)
  | restarted hopen hstart href hend =>
      refine ⟨hkeep, fun _ => ?_, fun _ => ⟨rfl, hinput⟩⟩
      rw [DayTimes.elapsed, if_pos hopen]
      have hkept := h.current hopen
      rw [← hcur] at hkept
      exact K.mono hkept (Int.sub_le_sub_right hclock _)
  | turned hopen hstart href hend =>
      refine ⟨forall₂_concat h.closed (K.mono (h.current hopen) ?_), fun _ => hblank _ ?_,
        fun _ => ⟨rfl, hinput⟩⟩
      · exact Int.sub_le_sub_right (le_max_left _ _) _
      · dsimp only [DayTimes.elapsed]
        omega
  | booked s d hopen hstart href hle hend =>
      obtain ⟨hlast, hreads⟩ := h.reference href
      refine ⟨hkeep, fun _ => K.counts s d ?_, fun _ => ⟨rfl, hinput⟩⟩
      have hkept := h.current hopen
      rw [DayTimes.elapsed] at hkept
      rw [DayTimes.elapsed, if_pos hopen, EnergyLedger.continued]
      split
      · next hin =>
          have hstep := inStep_le hin
          rw [hcur, hprevS, hprev, hlast]
          rw [hprevS, hlast] at hstep
          have hbooked := K.book (D := (b.ledger.reached nowS day).defrostEndS) hkept hreads hclock
            hstep
          rwa [show w.clock - w.since + (nowS - w.clock) = nowS - w.since by ring] at hbooked
      · rw [hcur]
        exact K.mono hkept (Int.sub_le_sub_right hclock _)
  | split s d hopen hstart href hle hend =>
      obtain ⟨hlast, hreads⟩ := h.reference href
      have hkept := h.current hopen
      rw [DayTimes.elapsed] at hkept
      refine ⟨forall₂_concat h.closed ?_, fun _ => K.counts s d ?_, fun _ => ⟨rfl, hinput⟩⟩
      · rw [EnergyLedger.closed, hcur, hprevS, hprev, hlast]
        split
        · next hin =>
            have hstep := inStep_le hin.1
            rw [hprevS, hlast] at hstep
            have hbooked := K.book (D := (b.ledger.reached nowS day).defrostEndS) hkept hreads
              hin.2.le (by omega)
            exact K.mono hbooked (by omega)
        · exact K.mono hkept (Int.sub_le_sub_right (le_max_left _ _) _)
      · rw [DayTimes.elapsed, EnergyLedger.reopened, hprevS, hprev, hlast]
        dsimp only
        split
        · next hin =>
            have hstep := inStep_le hin
            rw [hprevS, hlast] at hstep
            have hfirst : w.clock ≤ (if w.clock > (b.ledger.reached nowS day).endS then w.clock
                else (b.ledger.reached nowS day).endS) ∧
                (if w.clock > (b.ledger.reached nowS day).endS then w.clock
                  else (b.ledger.reached nowS day).endS) ≤ nowS ∧
                (b.ledger.reached nowS day).endS ≤ (if w.clock > (b.ledger.reached nowS day).endS
                  then w.clock else (b.ledger.reached nowS day).endS) := by
              split <;> omega
            generalize (if w.clock > (b.ledger.reached nowS day).endS then w.clock
              else (b.ledger.reached nowS day).endS) = first at hfirst ⊢
            have hbooked := K.book (D := (b.ledger.reached nowS day).defrostEndS)
              (K.blank day.date day.utcOffsetMin) hreads hfirst.2.1 (by omega)
            exact K.mono hbooked (by omega)
        · exact hblank _ (by omega)

/-- **The run lemma**: whatever the readings, every day keeps the rule. -/
lemma timed_run : ∀ (steps : List LedgerStep) {b : Books} {w : DayTimes}, b.Timed K w →
    ClockRises w.clock steps → (∀ step ∈ steps, K.Allows step) →
    (b.run steps).Timed K (w.run b.ledger steps) := by
  intro steps
  induction steps with
  | nil => exact fun h _ _ => h
  | cons step steps ih =>
      intro b w h hrise hallows
      have hfirst := hallows step List.mem_cons_self
      have hrest := fun s hs => hallows s (List.mem_cons_of_mem _ hs)
      cases step with
      | add nowS day input =>
          obtain ⟨hclock, hday, hrises⟩ := hrise
          refine ih (timed_add h hclock hday hfirst) ?_ hrest
          have hnow : (w.step b.ledger (.add nowS day input)).clock = nowS := by
            rw [DayTimes.step]
            split <;> rfl
          rwa [hnow]
      | pause => exact ih ⟨h.closed, h.current, nofun⟩ hrise hrest

/-- A ledger at power on, with the seconds its checkpoint's day has had. -/
lemma timed_start {checkpoint : Option (DayAccum × ℤ)} {clock : ℤ}
    (h : ∀ a e, checkpoint = some (a, e) → K.Kept a e) :
    Books.Timed K ⟨EnergyLedger.start (checkpoint.map Prod.fst), []⟩
      { since := clock - (checkpoint.map Prod.snd).getD 0, clock := clock } := by
  cases checkpoint with
  | none => exact ⟨.nil, nofun, nofun⟩
  | some pair =>
      obtain ⟨a, e⟩ := pair
      refine ⟨.nil, fun _ => ?_, nofun⟩
      have hkept := h a e rfl
      rw [DayTimes.elapsed]
      dsimp only [Option.map_some, Option.getD_some]
      rwa [show clock - (clock - e) = e by ring]

end Books

end ArcticController

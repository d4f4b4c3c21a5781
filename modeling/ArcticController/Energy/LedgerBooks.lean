/-
What one reading can do to the energy ledger.

* `EnergyLedger.reached`, `reached_eq`: the ledger once its span has met a
  reading;
* `EnergyLedger.closing`: the accumulation a reading closes;
* `AddCase`, `add_cases`: the six things a reading can do;
* `takeFinished_add`: what is handed out is the record of what was closed;
* `Books`: a ledger with the accumulations it has closed, over a sequence of
  readings, and `Books.handedOut_run`: their records are what was handed out.
-/
import ArcticController.Energy.DayTallies

namespace ArcticController

namespace EnergyLedger

/-! ### The span of the open day at a reading -/

/-- The ledger once the span of its open day has met a reading. -/
def reached (l : EnergyLedger) (nowS : ℤ) (day : Day) : EnergyLedger :=
  ({ l with hasFinished := false }.exactSpan day).extendSpan nowS day

/-- The open day's start once a reading in `day` has made its span exact. -/
def startAt (l : EnergyLedger) (day : Day) : ℤ :=
  if ¬ l.spanExact ∧ day.date = l.cur.date then day.startS else l.startS

/-- The open day's end once its span is exact. -/
def endAt (l : EnergyLedger) (day : Day) : ℤ :=
  if ¬ l.spanExact ∧ day.date = l.cur.date then dayEnd day else l.endS

lemma exactSpan_eq (l : EnergyLedger) (day : Day) : l.exactSpan day =
    { l with
      startS := l.startAt day
      endS := l.endAt day
      spanExact := l.spanExact || decide (day.date = l.cur.date) } := by
  rw [exactSpan, startAt, endAt]
  by_cases h : ¬ l.spanExact ∧ day.date = l.cur.date
  · simp [h, setSpan]
  · have hexact : (l.spanExact || decide (day.date = l.cur.date)) = l.spanExact := by
      cases hs : l.spanExact <;> simp_all
    rw [if_neg h, if_neg h, if_neg h, hexact]

lemma extendSpan_eq (l : EnergyLedger) (nowS : ℤ) (day : Day) : l.extendSpan nowS day =
    { l with endS := if nowS ≥ l.endS ∧ day.date ≤ l.cur.date then dayEnd day else l.endS } := by
  rw [extendSpan]
  split <;> rfl

lemma reached_eq (l : EnergyLedger) (nowS : ℤ) (day : Day) : l.reached nowS day =
    { l with
      hasFinished := false
      startS := l.startAt day
      endS := if nowS ≥ l.endAt day ∧ day.date ≤ l.cur.date then dayEnd day else l.endAt day
      spanExact := l.spanExact || decide (day.date = l.cur.date) } := by
  rw [reached, extendSpan_eq, exactSpan_eq]
  rfl

/-! ### What a reading does -/

/-- The open day up to its end, when a reading at `nowS` closes it. -/
def closed (l : EnergyLedger) (nowS : ℤ) : DayAccum :=
  if l.inStep nowS ∧ l.prevS < l.endS then l.cur.book l.defrostEndS l.prevS l.endS l.prev
  else l.cur

/-- The day a reading opens, with what it books to it. -/
def reopened (l : EnergyLedger) (nowS : ℤ) (day : Day) : DayAccum :=
  let cur := { (default : DayAccum) with date := day.date, utcOffsetMin := day.utcOffsetMin }
  if l.inStep nowS then
    cur.book l.defrostEndS (if l.prevS > l.endS then l.prevS else l.endS) nowS l.prev
  else cur

/-- The open day with the interval up to `nowS`. -/
def continued (l : EnergyLedger) (nowS : ℤ) : DayAccum :=
  if l.inStep nowS then l.cur.book l.defrostEndS l.prevS nowS l.prev else l.cur

/-! The span moves no total, and a booking no date. -/

variable {l : EnergyLedger} {nowS : ℤ} {day : Day}

lemma reached_cur : (l.reached nowS day).cur = l.cur := by rw [reached_eq]

lemma closed_date : (l.closed nowS).date = l.cur.date := by
  rw [closed]
  split <;> simp

lemma reopened_date : (l.reopened nowS day).date = day.date := by
  rw [reopened]
  dsimp only
  split <;> simp

lemma continued_date : (l.continued nowS).date = l.cur.date := by
  rw [continued]
  split <;> simp

/-- The accumulation a reading closes. -/
def closing (l : EnergyLedger) (nowS : ℤ) (day : Day) : Option DayAccum :=
  if ¬ l.isOpen ∨ nowS < l.startAt day then none
  else if nowS < (l.reached nowS day).endS then none
  else if ¬ l.hasPrev ∨ nowS < l.prevS then some l.cur
  else some ((l.reached nowS day).closed nowS)

/-- The ledger `l` with the reference moved to a reading, after an interval
that ended in `cur`. -/
def moved (l : EnergyLedger) (nowS : ℤ) (input : Input) (cur : DayAccum) : EnergyLedger :=
  { l with
    cur := cur
    prev := input
    prevS := nowS
    hasPrev := true
    defrostEndS := if l.prev.defrost ∧ ¬ input.defrost then nowS else l.defrostEndS }

/-- The counts of starts and defrosts are all that may change. -/
lemma countStarts_eq (l : EnergyLedger) (inStep : Bool) (input : Input) :
    ∃ s d, l.countStarts inStep input = { l with cur := { l.cur with starts := s, defrosts := d } } := by
  rw [countStarts]
  split
  · exact ⟨_, _, rfl⟩
  · exact ⟨l.cur.starts, l.cur.defrosts, rfl⟩

lemma setReference_noteDefrostEnd (l : EnergyLedger) (nowS : ℤ) (input : Input) :
    (l.noteDefrostEnd nowS input).setReference nowS input = l.moved nowS input l.cur := by
  rw [noteDefrostEnd, moved]
  by_cases hd : l.prev.defrost ∧ ¬ input.defrost
  · rw [if_pos hd, if_pos hd]
    rfl
  · rw [if_neg hd, if_neg hd]
    rfl

lemma conclude_eq (l : EnergyLedger) (nowS : ℤ) (inStep : Bool) (input : Input) :
    ∃ s d, ((l.countStarts inStep input).noteDefrostEnd nowS input).setReference nowS input
      = l.moved nowS input { l.cur with starts := s, defrosts := d } := by
  obtain ⟨s, d, hcount⟩ := l.countStarts_eq inStep input
  exact ⟨s, d, by rw [hcount, setReference_noteDefrostEnd]; rfl⟩

variable (l nowS day) (input : Input)

/-- What a reading can do: the ledger after it and the accumulation it closed. -/
inductive AddCase : EnergyLedger → Option DayAccum → Prop where
  | opened (hopen : ¬ l.isOpen) :
      AddCase (({ l with hasFinished := false }.openDay day).setReference nowS input) none
  | behind (hopen : l.isOpen) (hstart : nowS < l.startAt day) :
      AddCase { { l with hasFinished := false }.exactSpan day with hasPrev := false } none
  | restarted (hopen : l.isOpen) (hstart : l.startAt day ≤ nowS)
      (href : ¬ l.hasPrev ∨ nowS < l.prevS) (hend : nowS < (l.reached nowS day).endS) :
      AddCase ((l.reached nowS day).setReference nowS input) none
  | turned (hopen : l.isOpen) (hstart : l.startAt day ≤ nowS)
      (href : ¬ l.hasPrev ∨ nowS < l.prevS) (hend : (l.reached nowS day).endS ≤ nowS) :
      AddCase (((l.reached nowS day).setReference nowS input).closeAndOpen day) (some l.cur)
  | booked (s d : UInt16) (hopen : l.isOpen) (hstart : l.startAt day ≤ nowS)
      (href : l.hasPrev) (hprev : l.prevS ≤ nowS) (hend : nowS < (l.reached nowS day).endS) :
      AddCase ((l.reached nowS day).moved nowS input
        { (l.reached nowS day).continued nowS with starts := s, defrosts := d }) none
  | split (s d : UInt16) (hopen : l.isOpen) (hstart : l.startAt day ≤ nowS)
      (href : l.hasPrev) (hprev : l.prevS ≤ nowS) (hend : (l.reached nowS day).endS ≤ nowS) :
      AddCase
        ({ l.reached nowS day with
            finished := toRecord ((l.reached nowS day).closed nowS)
            hasFinished := true
            isOpen := true
            startS := day.startS
            endS := dayEnd day
            spanExact := true }.moved nowS input
          { (l.reached nowS day).reopened nowS day with starts := s, defrosts := d })
        (some ((l.reached nowS day).closed nowS))

variable {l nowS day input}

/-- The ledger a reading not before the open day's start works on. -/
lemma add_reached (hopen : l.isOpen) (hstart : l.startAt day ≤ nowS) : l.add nowS day input =
    if ¬ (l.reached nowS day).hasPrev ∨ nowS < (l.reached nowS day).prevS then
      if nowS ≥ (l.reached nowS day).endS then
        ((l.reached nowS day).setReference nowS input).closeAndOpen day
      else (l.reached nowS day).setReference nowS input
    else ((((l.reached nowS day).bookInterval nowS day).countStarts
      ((l.reached nowS day).inStep nowS) input).noteDefrostEnd nowS input).setReference nowS
        input := by
  have hge : ¬ nowS < ({ l with hasFinished := false }.exactSpan day).startS := by
    rw [exactSpan_eq]
    exact not_lt.mpr hstart
  exact (if_neg (not_not.mpr hopen)).trans (if_neg hge)

/-- An interval within the open day. -/
lemma bookInterval_of_lt (hend : nowS < l.endS) :
    l.bookInterval nowS day = { l with cur := l.continued nowS } := by
  rw [bookInterval, if_neg (not_le.mpr hend), continued]
  split <;> rfl

/-- An interval in which the open day ends. -/
lemma bookInterval_of_ge (hend : l.endS ≤ nowS) : l.bookInterval nowS day =
    { l with
      cur := l.reopened nowS day
      finished := toRecord (l.closed nowS)
      hasFinished := true
      isOpen := true
      startS := day.startS
      endS := dayEnd day
      spanExact := true } := by
  rw [bookInterval, if_pos hend, closed, reopened]
  by_cases hin : l.inStep nowS
  · by_cases hprev : l.prevS < l.endS
    · simp only [hin, hprev, and_self, if_true]
      rfl
    · simp only [hin, hprev, and_false, if_true, if_false]
      rfl
  · have hnot : ¬ (l.inStep nowS ∧ l.prevS < l.endS) := fun h => hin h.1
    simp only [if_neg hin, if_neg hnot]
    rfl

variable (l nowS day input)

/-- **A reading does one of six things.** -/
theorem add_cases : AddCase l nowS day input (l.add nowS day input) (l.closing nowS day) := by
  by_cases hopen : l.isOpen
  swap
  · have hadd : l.add nowS day input
        = ({ l with hasFinished := false }.openDay day).setReference nowS input := if_pos hopen
    rw [hadd, closing, if_pos (Or.inl hopen)]
    exact .opened hopen
  rcases lt_or_ge nowS (l.startAt day) with hstart | hstart
  · have hlt : nowS < ({ l with hasFinished := false }.exactSpan day).startS := by
      rw [exactSpan_eq]
      exact hstart
    have hadd : l.add nowS day input
        = { { l with hasFinished := false }.exactSpan day with hasPrev := false } :=
      (if_neg (not_not.mpr hopen)).trans (if_pos hlt)
    rw [hadd, closing, if_pos (Or.inr hstart)]
    exact .behind hopen hstart
  have hclosing : ¬ (¬ l.isOpen ∨ nowS < l.startAt day) := fun h =>
    h.elim (fun h => h hopen) (not_lt.mpr hstart)
  have hp : (l.reached nowS day).hasPrev = l.hasPrev ∧ (l.reached nowS day).prevS = l.prevS := by
    rw [reached_eq]
    exact ⟨rfl, rfl⟩
  rw [add_reached hopen hstart, closing, if_neg hclosing, hp.1, hp.2]
  by_cases href : ¬ l.hasPrev ∨ nowS < l.prevS
  · rw [if_pos href, if_pos href]
    rcases lt_or_ge nowS (l.reached nowS day).endS with hend | hend
    · rw [if_neg (not_le.mpr hend), if_pos hend]
      exact .restarted hopen hstart href hend
    · rw [if_pos hend, if_neg (not_lt.mpr hend)]
      exact .turned hopen hstart href hend
  · rw [if_neg href, if_neg href]
    obtain ⟨hhas, hprev⟩ := not_or.mp href
    rcases lt_or_ge nowS (l.reached nowS day).endS with hend | hend
    · rw [if_pos hend, bookInterval_of_lt hend]
      obtain ⟨s, d, heq⟩ := conclude_eq
        { l.reached nowS day with cur := (l.reached nowS day).continued nowS } nowS
        ((l.reached nowS day).inStep nowS) input
      rw [heq]
      exact .booked s d hopen hstart (not_not.mp hhas) (not_lt.mp hprev) hend
    · rw [if_neg (not_lt.mpr hend), bookInterval_of_ge hend]
      obtain ⟨s, d, heq⟩ := conclude_eq
        { l.reached nowS day with
          cur := (l.reached nowS day).reopened nowS day
          finished := toRecord ((l.reached nowS day).closed nowS)
          hasFinished := true
          isOpen := true
          startS := day.startS
          endS := dayEnd day
          spanExact := true } nowS ((l.reached nowS day).inStep nowS) input
      rw [heq]
      exact .split s d hopen hstart (not_not.mp hhas) (not_lt.mp hprev) hend

/-- What is handed out after a reading is the record of what it closed. -/
lemma takeFinished_add :
    (l.add nowS day input).takeFinished = (l.closing nowS day).map toRecord := by
  have hcase := add_cases l nowS day input
  generalize l.add nowS day input = l', l.closing nowS day = c at hcase ⊢
  cases hcase with
  | opened hopen => rfl
  | behind hopen hstart =>
      rw [exactSpan_eq]
      rfl
  | restarted hopen hstart href hend =>
      rw [reached_eq]
      rfl
  | turned hopen hstart href hend =>
      rw [reached_eq]
      rfl
  | booked s d hopen hstart href hprev hend =>
      rw [reached_eq]
      rfl
  | split s d hopen hstart href hprev hend => rfl

end EnergyLedger

/-! ### Sequences of readings -/

/-- The ledger after a step. -/
def EnergyLedger.step (l : EnergyLedger) : LedgerStep → EnergyLedger
  | .add nowS day input => l.add nowS day input
  | .pause => l.pause

/-- The records handed out over a sequence of readings, each taken after the
reading that closed its day. -/
def EnergyLedger.handedOut : EnergyLedger → List LedgerStep → List DayRecord
  | _, [] => []
  | l, .add nowS day input :: steps =>
      (l.add nowS day input).takeFinished.toList
        ++ (l.add nowS day input).handedOut steps
  | l, .pause :: steps => l.pause.handedOut steps

/-- A ledger and the accumulations it has closed, oldest first. -/
structure Books where
  ledger : EnergyLedger := {}
  closed : List DayAccum := []

/-- The books after a step. -/
def Books.step (b : Books) : LedgerStep → Books
  | .add nowS day input =>
      { ledger := b.ledger.add nowS day input
        closed := b.closed ++ (b.ledger.closing nowS day).toList }
  | .pause => { b with ledger := b.ledger.pause }

/-- The books after a sequence of readings. -/
def Books.run (b : Books) (steps : List LedgerStep) : Books := steps.foldl Books.step b

/-- The accumulations of all days, the open one last. -/
def Books.days (b : Books) : List DayAccum :=
  b.closed ++ if b.ledger.isOpen then [b.ledger.cur] else []

lemma Books.run_ledger (b : Books) (steps : List LedgerStep) :
    (b.run steps).ledger = steps.foldl EnergyLedger.step b.ledger := by
  induction steps generalizing b with
  | nil => rfl
  | cons step steps ih =>
      have hstep : (b.step step).ledger = b.ledger.step step := by cases step <;> rfl
      rw [List.foldl_cons, ← hstep]
      exact ih (b.step step)

/-- What was handed out are the records of the closed accumulations. -/
lemma Books.handedOut_run (b : Books) (steps : List LedgerStep) :
    b.closed.map toRecord ++ b.ledger.handedOut steps = (b.run steps).closed.map toRecord := by
  induction steps generalizing b with
  | nil => exact List.append_nil _
  | cons step steps ih =>
      rw [Books.run, List.foldl_cons]
      refine Eq.trans ?_ (ih (b.step step))
      cases step with
      | add nowS day input =>
          rw [EnergyLedger.handedOut, EnergyLedger.takeFinished_add, Books.step, List.map_append,
            List.append_assoc]
          cases b.ledger.closing nowS day <;> rfl
      | pause => rfl

end ArcticController

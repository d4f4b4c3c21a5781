/-
The energy ledger conserves time and energy: it refines the day book.

* `EnergyLedger.Follows`: the ledger's reference is the one of the readings,
  while the clock does not step back;
* `Books.Holds`: the days of the ledger hold the words of the amounts of a day
  book;
* `follows_add`, `holds_add`: both are kept by a reading;
* `Books.days_run`: so they hold after any sequence of readings;
* `ledger_conserves`: the days hold, one by one, the words of amounts that
  together are what the intervals between the readings contribute.
-/
import ArcticController.Energy.LedgerBooks

namespace ArcticController

/-! ### The reference -/

/-- The ledger's reference is `r`, and its open day has begun. -/
structure EnergyLedger.Follows (l : EnergyLedger) (r : Reference) (clock : ℤ) : Prop where
  last : r.last = if l.hasPrev then some (l.prevS, l.prev) else none
  defrostEnd : r.defrostEndS = l.defrostEndS
  fresh : ¬ l.isOpen → ¬ l.hasPrev
  exact : l.isOpen → l.spanExact
  start : l.isOpen → l.startS ≤ clock
  prev : l.hasPrev → l.prevS ≤ clock

namespace EnergyLedger

variable {l : EnergyLedger} {r : Reference} {clock nowS : ℤ} {day : Day} {input : Input}

lemma Follows.last_of_prev (h : l.Follows r clock) (hprev : l.hasPrev) :
    r.last = some (l.prevS, l.prev) := by
  rw [h.last, if_pos hprev]

lemma Follows.last_of_none (h : l.Follows r clock) (hprev : ¬ l.hasPrev) : r.last = none := by
  rw [h.last, if_neg hprev]

lemma Follows.startAt (h : l.Follows r clock) (hopen : l.isOpen) : l.startAt day = l.startS := by
  rw [EnergyLedger.startAt, if_neg fun hs => hs.1 (h.exact hopen)]

/-- The open day at a reading, once its span is exact. -/
lemma Follows.reached (h : l.Follows r clock) (hopen : l.isOpen) : l.reached nowS day =
    { l with
      hasFinished := false
      endS := if nowS ≥ l.endS ∧ day.date ≤ l.cur.date then dayEnd day else l.endS } := by
  have hexact := h.exact hopen
  have hend : l.endAt day = l.endS := by rw [endAt, if_neg fun hs => hs.1 hexact]
  rw [reached_eq, h.startAt hopen, hend, hexact]
  simp only [Bool.true_or]

/-- The stretch a reading at `nowS` ends, as the ledger sees it. -/
def stretch (l : EnergyLedger) (nowS : ℤ) : Option Interval :=
  if l.inStep nowS then some ⟨l.defrostEndS, l.prevS, nowS, l.prev⟩ else none

lemma reached_stretch : (l.reached nowS day).stretch nowS = l.stretch nowS := by
  rw [reached_eq]
  rfl

lemma Follows.interval (h : l.Follows r clock) (hprev : l.hasPrev) :
    r.interval nowS = l.stretch nowS := by
  rw [Reference.interval, h.last_of_prev hprev, h.defrostEnd, stretch]
  by_cases hstep : nowS - l.prevS ≤ kMaxStepSeconds
  · simp [inStep, hstep]
  · simp [inStep, hstep]

lemma Follows.interval_of_none (h : l.Follows r clock) (hprev : ¬ l.hasPrev) :
    r.interval nowS = none := by
  rw [Reference.interval, h.last_of_none hprev]

/-- A reading moves the reference on. -/
lemma follows_add (h : l.Follows r clock) (hclock : clock ≤ nowS) (hday : day.Holds nowS) :
    (l.add nowS day input).Follows (r.step (.add nowS day input)) nowS := by
  have hcase := add_cases l nowS day input
  generalize l.add nowS day input = l', l.closing nowS day = c at hcase
  cases hcase with
  | opened hopen =>
      have hnone := h.last_of_none (h.fresh hopen)
      refine ⟨rfl, ?_, fun hc => absurd rfl hc, fun _ => rfl, fun _ => hday.1, fun _ => le_rfl⟩
      simp only [Reference.step, hnone]
      exact h.defrostEnd
  | behind hopen hstart =>
      rw [h.startAt hopen] at hstart
      have := h.start hopen
      omega
  | restarted hopen hstart href hend =>
      have hprev : ¬ l.hasPrev := href.elim id fun hlt hp => by have := h.prev hp; omega
      have hnone := h.last_of_none hprev
      rw [h.reached hopen]
      refine ⟨rfl, ?_, fun hc => absurd hopen hc, fun _ => h.exact hopen,
        fun _ => (h.start hopen).trans hclock, fun _ => le_rfl⟩
      simp only [Reference.step, hnone]
      exact h.defrostEnd
  | turned hopen hstart href hend =>
      have hprev : ¬ l.hasPrev := href.elim id fun hlt hp => by have := h.prev hp; omega
      have hnone := h.last_of_none hprev
      rw [h.reached hopen]
      refine ⟨rfl, ?_, fun hc => absurd rfl hc, fun _ => rfl, fun _ => hday.1, fun _ => le_rfl⟩
      simp only [Reference.step, hnone]
      exact h.defrostEnd
  | booked s d hopen hstart href hprev hend =>
      have hlast := h.last_of_prev href
      rw [h.reached hopen]
      refine ⟨rfl, ?_, fun hc => absurd hopen hc, fun _ => h.exact hopen,
        fun _ => (h.start hopen).trans hclock, fun _ => le_rfl⟩
      simp only [Reference.step, hlast, h.defrostEnd]
      rfl
  | split s d hopen hstart href hprev hend =>
      have hlast := h.last_of_prev href
      rw [h.reached hopen]
      refine ⟨rfl, ?_, fun hc => absurd rfl hc, fun _ => rfl, fun _ => hday.1, fun _ => le_rfl⟩
      simp only [Reference.step, hlast, h.defrostEnd]
      rfl

lemma follows_pause (h : l.Follows r clock) : l.pause.Follows (r.step .pause) clock :=
  ⟨rfl, h.defrostEnd, fun _ hp => Bool.noConfusion hp, h.exact, h.start, fun hp => nomatch hp⟩

end EnergyLedger

/-! ### The amounts -/

/-- The days of the ledger hold the words of the day book's amounts. -/
structure Books.Holds (t : Tally) (b : Books) (d : DayBook) : Prop where
  closed : b.closed.map t.field = d.closed.map (BitVec.ofInt t.width)
  unopened : ¬ b.ledger.isOpen → d.current = none
  opened : b.ledger.isOpen → ∃ x, d.current = some ⟨b.ledger.cur.date, b.ledger.endS, x⟩ ∧
    t.field b.ledger.cur = BitVec.ofInt t.width x

namespace Books

variable {t : Tally} {b : Books} {d : DayBook} {r : Reference} {clock nowS : ℤ} {day : Day}
  {input : Input}

/-- What the day book does with a reading, by the end of the ledger's open day. -/
lemma add_at (hfollows : b.ledger.Follows r clock) (hopen : b.ledger.isOpen) {x : ℤ}
    (hx : d.current = some ⟨b.ledger.cur.date, b.ledger.endS, x⟩) (share : Share)
    (i : Option Interval) : d.add share i nowS day =
      if nowS < (b.ledger.reached nowS day).endS then
        ⟨d.closed, some ⟨b.ledger.cur.date, (b.ledger.reached nowS day).endS,
          x + partOf share i (startOf i nowS) nowS⟩⟩
      else
        ⟨d.closed ++ [x + partOf share i (startOf i nowS)
            (cutAt i (b.ledger.reached nowS day).endS nowS)],
          some ⟨day.date, dayEnd day,
            partOf share i (cutAt i (b.ledger.reached nowS day).endS nowS) nowS⟩⟩ := by
  have hat : (⟨b.ledger.cur.date, b.ledger.endS, x⟩ : OpenDay).at nowS day
      = ⟨b.ledger.cur.date, (b.ledger.reached nowS day).endS, x⟩ := by
    rw [hfollows.reached hopen, OpenDay.at]
    split <;> rfl
  rw [DayBook.add, hx]
  dsimp only
  rw [hat]

section

variable {l : EnergyLedger} (t : Tally)

lemma inStep_le (h : l.inStep nowS) : nowS - l.prevS ≤ kMaxStepSeconds := of_decide_eq_true h

/-- What a reading within the open day adds to it. -/
lemma field_continued (hprev : l.prevS ≤ nowS) : t.field (l.continued nowS) = t.field l.cur +
    BitVec.ofInt t.width (partOf t.share (l.stretch nowS) (startOf (l.stretch nowS) nowS) nowS) := by
  rw [EnergyLedger.continued, EnergyLedger.stretch]
  by_cases hin : l.inStep nowS
  · rw [if_pos hin, if_pos hin]
    exact t.book l.cur hprev (inStep_le hin)
  · rw [if_neg hin, if_neg hin]
    exact add_ofInt_zero _

/-- What a reading after the open day's end adds to that day: the part of its
interval before the end, if there is one. -/
lemma field_closed (hend : l.endS ≤ nowS) : t.field (l.closed nowS) = t.field l.cur +
    BitVec.ofInt t.width (partOf t.share (l.stretch nowS) (startOf (l.stretch nowS) nowS)
      (cutAt (l.stretch nowS) l.endS nowS)) := by
  rw [EnergyLedger.closed, EnergyLedger.stretch]
  by_cases hin : l.inStep nowS
  · have hstep := inStep_le hin
    rw [if_pos hin, partOf, startOf, cutAt]
    by_cases hlt : l.prevS < l.endS
    · rw [if_pos ⟨hin, hlt⟩, max_eq_right hlt.le]
      exact t.book l.cur hlt.le (by omega)
    · rw [if_neg fun h => hlt h.2, max_eq_left (not_lt.mp hlt), t.splits.self]
      exact add_ofInt_zero _
  · rw [if_neg hin, if_neg fun h => hin h.1]
    exact add_ofInt_zero _

/-- What it adds to the day it opens: the part from the end on. -/
lemma field_reopened (hprev : l.prevS ≤ nowS) (hend : l.endS ≤ nowS) :
    t.field (l.reopened nowS day) =
      BitVec.ofInt t.width (partOf t.share (l.stretch nowS)
        (cutAt (l.stretch nowS) l.endS nowS) nowS) := by
  have hblank := t.blank day.date day.utcOffsetMin
  rw [EnergyLedger.reopened, EnergyLedger.stretch]
  dsimp only
  by_cases hin : l.inStep nowS
  · have hstep := inStep_le hin
    have hmax : (if l.prevS > l.endS then l.prevS else l.endS) = max l.prevS l.endS := by
      split <;> omega
    rw [if_pos hin, if_pos hin, hmax, partOf, cutAt, t.book _ (max_le hprev hend) (by omega),
      hblank]
    exact BitVec.zero_add _
  · rw [if_neg hin, if_neg hin, hblank, partOf]
    simp

end

/-- The days agree when the closed ones do and the open one does. -/
lemma holds_of_open {l : EnergyLedger} {closed : List DayAccum} {amounts : List ℤ} {date : UInt32}
    {endS x : ℤ} (hclosed : closed.map t.field = amounts.map (BitVec.ofInt t.width))
    (hopen : l.isOpen) (hdate : l.cur.date = date) (hend : l.endS = endS)
    (hfield : t.field l.cur = BitVec.ofInt t.width x) :
    Books.Holds t ⟨l, closed⟩ ⟨amounts, some ⟨date, endS, x⟩⟩ :=
  ⟨hclosed, fun hc => absurd hopen hc, fun _ => ⟨x, by rw [hdate, hend], hfield⟩⟩

/-- Adding a share to a word. -/
lemma word_add {w : ℕ} {v u : BitVec w} {x y : ℤ} (hv : v = u + BitVec.ofInt w y)
    (hu : u = BitVec.ofInt w x) : v = BitVec.ofInt w (x + y) := by
  rw [hv, hu, BitVec.ofInt_add]

/-- Closing a day with a share added. -/
lemma closed_append {closed : List DayAccum} {amounts : List ℤ} {cur : DayAccum} {x : ℤ}
    (hclosed : closed.map t.field = amounts.map (BitVec.ofInt t.width))
    (hcur : t.field cur = BitVec.ofInt t.width x) :
    (closed ++ (some cur).toList).map t.field
      = (amounts ++ [x]).map (BitVec.ofInt t.width) := by
  rw [List.map_append, List.map_append, hclosed]
  simp [hcur]

/-- A reading keeps the words of the amounts. -/
lemma holds_add (h : b.Holds t d) (hfollows : b.ledger.Follows r clock) (hclock : clock ≤ nowS) :
    (b.step (.add nowS day input)).Holds t (d.add t.share (r.interval nowS) nowS day) := by
  have hcase := b.ledger.add_cases nowS day input
  rw [step]
  generalize b.ledger.add nowS day input = l', b.ledger.closing nowS day = c at hcase ⊢
  have hkeep : (b.closed ++ (none : Option DayAccum).toList).map t.field
      = d.closed.map (BitVec.ofInt t.width) := by simpa using h.closed
  have hblank : t.field { (default : DayAccum) with
      date := day.date, utcOffsetMin := day.utcOffsetMin } = BitVec.ofInt t.width 0 :=
    (t.blank _ _).trans (by simp)
  have hnone (href : ¬ b.ledger.hasPrev ∨ nowS < b.ledger.prevS) : r.interval nowS = none :=
    hfollows.interval_of_none (href.elim id fun hlt hp => by have := hfollows.prev hp; omega)
  have hstretch := @EnergyLedger.reached_stretch b.ledger nowS day
  have hcur : b.ledger.isOpen → (b.ledger.reached nowS day).cur = b.ledger.cur := fun hopen => by
    rw [hfollows.reached hopen]
  have hprevS : b.ledger.isOpen → (b.ledger.reached nowS day).prevS = b.ledger.prevS :=
    fun hopen => by rw [hfollows.reached hopen]
  have hisOpen : b.ledger.isOpen → (b.ledger.reached nowS day).isOpen := fun hopen => by
    rw [hfollows.reached hopen]
    exact hopen
  cases hcase with
  | opened hopen =>
      rw [DayBook.add, h.unopened hopen]
      exact holds_of_open hkeep rfl rfl rfl hblank
  | behind hopen hstart =>
      rw [hfollows.startAt hopen] at hstart
      have := hfollows.start hopen
      omega
  | restarted hopen hstart href hend =>
      obtain ⟨x, hx, hfield⟩ := h.opened hopen
      rw [add_at hfollows hopen hx, if_pos hend, hnone href]
      refine holds_of_open hkeep (hisOpen hopen) (congrArg DayAccum.date (hcur hopen)) rfl ?_
      exact (congrArg t.field (hcur hopen)).trans (word_add (add_ofInt_zero _) hfield)
  | turned hopen hstart href hend =>
      obtain ⟨x, hx, hfield⟩ := h.opened hopen
      rw [add_at hfollows hopen hx, if_neg (not_lt.mpr hend), hnone href]
      exact holds_of_open (closed_append h.closed (word_add (add_ofInt_zero _) hfield)) rfl rfl rfl
        hblank
  | booked n m hopen hstart href hprev hend =>
      obtain ⟨x, hx, hfield⟩ := h.opened hopen
      have hadded := field_continued t ((hprevS hopen).trans_le hprev)
      rw [hstretch, hcur hopen] at hadded
      rw [add_at hfollows hopen hx, if_pos hend, hfollows.interval href]
      refine holds_of_open hkeep (hisOpen hopen) ?_ rfl ?_
      · exact EnergyLedger.continued_date.trans (congrArg DayAccum.date (hcur hopen))
      · exact (t.counts _ _ _).trans (word_add hadded hfield)
  | split n m hopen hstart href hprev hend =>
      obtain ⟨x, hx, hfield⟩ := h.opened hopen
      have hadded := field_closed t hend
      have hopened :=
        @field_reopened nowS day _ t ((hprevS hopen).trans_le hprev) hend
      rw [hstretch, hcur hopen] at hadded
      rw [hstretch] at hopened
      rw [add_at hfollows hopen hx, if_neg (not_lt.mpr hend), hfollows.interval href]
      refine holds_of_open (closed_append h.closed (word_add hadded hfield)) rfl
        EnergyLedger.reopened_date rfl ?_
      exact (t.counts _ _ _).trans hopened

/-- The words of the amounts after any sequence of readings. -/
lemma holds_run : ∀ (steps : List LedgerStep) {b : Books} {d : DayBook} {r : Reference}
    {clock : ℤ}, b.Holds t d → b.ledger.Follows r clock → ClockRises clock steps →
    (b.run steps).Holds t (DayBook.run t.share d r steps) := by
  intro steps
  induction steps with
  | nil => intro b d r clock hholds _ _; exact hholds
  | cons step steps ih =>
      intro b d r clock hholds hfollows hrise
      cases step with
      | add nowS day input =>
          obtain ⟨hclock, hday, hrest⟩ := hrise
          exact ih (holds_add hholds hfollows hclock)
            (EnergyLedger.follows_add hfollows hclock hday) hrest
      | pause =>
          exact ih ⟨hholds.closed, hholds.unopened, hholds.opened⟩
            (EnergyLedger.follows_pause hfollows) hrise

/-- All days, open and closed, hold the words of the day book's amounts. -/
lemma Holds.days (h : b.Holds t d) : b.days.map t.field = d.days.map (BitVec.ofInt t.width) := by
  rw [Books.days, DayBook.days, List.map_append, List.map_append, h.closed]
  by_cases hopen : b.ledger.isOpen
  · obtain ⟨x, hx, hfield⟩ := h.opened hopen
    rw [if_pos hopen, hx]
    simp [hfield]
  · rw [if_neg hopen, h.unopened hopen]
    rfl

end Books

/-- The day book of a sequence of readings. -/
def DayBook.of (share : Share) (steps : List LedgerStep) : DayBook :=
  DayBook.run share {} {} steps

/-- The ledger's days hold, one by one, the words of the day book's amounts. -/
lemma Books.days_run (t : Tally) {clock : ℤ} {steps : List LedgerStep}
    (hrise : ClockRises clock steps) : (({} : Books).run steps).days.map t.field
      = (DayBook.of t.share steps).days.map (BitVec.ofInt t.width) := by
  refine (Books.holds_run steps ?_ ?_ hrise).days
  · exact ⟨rfl, fun _ => rfl, nofun⟩
  · exact ⟨rfl, rfl, nofun, nofun, nofun, nofun⟩

lemma DayBook.total_of {share : Share} (hshare : share.Splits) {clock : ℤ}
    {steps : List LedgerStep} (hrise : ClockRises clock steps) :
    (DayBook.of share steps).days.sum = ((intervals {} steps).map (·.share share)).sum := by
  have h := DayBook.total_run (b := {}) (r := {}) hshare steps (fun _ => rfl)
    (fun _ _ h => nomatch h) hrise
  exact h.trans (zero_add _)

/-! ### Amounts that fit their counters -/

/-- Numbers read off the words of amounts that fit are the amounts. -/
lemma toNat_sum {w : ℕ} {amounts : List ℤ} (hfits : ∀ x ∈ amounts, 0 ≤ x ∧ x < 2 ^ w) :
    ((amounts.map (BitVec.ofInt w)).map fun u => (u.toNat : ℤ)).sum = amounts.sum := by
  rw [List.map_map]
  refine congrArg List.sum ((List.map_congr_left fun x hx => ?_).trans (List.map_id _))
  obtain ⟨hx0, hxw⟩ := hfits x hx
  simp only [Function.comp, BitVec.toNat_ofInt, id]
  have hpow : ((2 ^ w : ℕ) : ℤ) = 2 ^ w := by push_cast; rfl
  rw [hpow, Int.emod_eq_of_lt hx0 hxw, Int.toNat_of_nonneg hx0]

lemma toInt_sum {w : ℕ} {amounts : List ℤ}
    (hfits : ∀ x ∈ amounts, -2 ^ w ≤ x ∧ x < 2 ^ w) :
    ((amounts.map (BitVec.ofInt (w + 1))).map BitVec.toInt).sum = amounts.sum := by
  rw [List.map_map]
  refine congrArg List.sum ((List.map_congr_left fun x hx => ?_).trans (List.map_id _))
  obtain ⟨hlo, hhi⟩ := hfits x hx
  simp only [Function.comp, id]
  exact BitVec.toInt_ofInt_eq_self w.succ_pos hlo hhi

/-- The totals as numbers, once no day runs out of its counter. -/
lemma total_of_words {w : ℕ} {α : Type} {days : List α} {word : α → BitVec w} {share : Share}
    {steps : List LedgerStep} (hwords : days.map word = (DayBook.of share steps).days.map (BitVec.ofInt w))
    (hgrows : share.Grows) (hfits : ∀ x ∈ (DayBook.of share steps).days, x < 2 ^ w) :
    (days.map fun a => ((word a).toNat : ℤ)).sum = (DayBook.of share steps).days.sum := by
  have hpos : ∀ x ∈ (DayBook.of share steps).days, 0 ≤ x :=
    DayBook.grows_run hgrows steps (b := {}) (r := {}) nofun
  rw [← toNat_sum fun x hx => ⟨hpos x hx, hfits x hx⟩, ← hwords, List.map_map]
  rfl

/-! ### Time and energy -/

/-- The seconds with valid power in an interval whose first reading is connected. -/
def Interval.powerSeconds (i : Interval) : ℤ :=
  if i.input.connected ∧ i.input.powerValid then i.toS - i.fromS else 0

/-- The watt-seconds such an interval has for a bucket. -/
def Interval.energy (bucket : Fin kBuckets) (i : Interval) : ℤ :=
  if i.input.connected ∧ i.input.powerValid ∧ i.input.bucket.index = bucket then
    i.input.powerW.toNat * (i.toS - i.fromS)
  else 0

lemma powerShare_interval {i : Interval} (h : i.fromS ≤ i.toS) :
    i.share powerShare = i.powerSeconds := by
  rw [Interval.share, powerShare, rateShare, span_of_le h, Interval.powerSeconds]
  split <;> simp

lemma elecShare_interval (bucket : Fin kBuckets) {i : Interval} (h : i.fromS ≤ i.toS) :
    i.share (elecShare bucket) = i.energy bucket := by
  rw [Interval.share, elecShare, rateShare, span_of_le h, Interval.energy]
  split <;> simp

/-- **The ledger conserves time and energy.** For readings that come in the
order of the clock, with any dates, offsets and spans of their days, the days
hold the words of the amounts of a day book that cuts every interval at the end
of the open day; these amounts together are, exactly once each, the seconds and
the watt-seconds of the intervals; and the counters themselves add up to them
as long as none of a day's amounts runs out of its counter. -/
theorem ledger_conserves (clock : ℤ) (steps : List LedgerStep) (hrise : ClockRises clock steps) :
    let days := (({} : Books).run steps).days
    let time := DayBook.of powerShare steps
    let energy bucket := DayBook.of (elecShare bucket) steps
    (days.map (·.powerS.toBitVec) = time.days.map (BitVec.ofInt 32) ∧
      time.days.sum = ((intervals {} steps).map (·.powerSeconds)).sum ∧
      ((∀ x ∈ time.days, x < 2 ^ 32) → (days.map fun a => (a.powerS.toNat : ℤ)).sum
        = ((intervals {} steps).map (·.powerSeconds)).sum)) ∧
    ∀ bucket,
      days.map (fun a => (a.elecWs bucket).toBitVec) = (energy bucket).days.map (BitVec.ofInt 64) ∧
      (energy bucket).days.sum = ((intervals {} steps).map (·.energy bucket)).sum ∧
      ((∀ x ∈ (energy bucket).days, x < 2 ^ 64) →
        (days.map fun a => ((a.elecWs bucket).toNat : ℤ)).sum
          = ((intervals {} steps).map (·.energy bucket)).sum) := by
  intro days time energy
  have hle : ∀ i ∈ intervals {} steps, i.fromS ≤ i.toS := 
    intervals_le steps (fun _ _ h => nomatch h) hrise
  have htime : time.days.sum = ((intervals {} steps).map (·.powerSeconds)).sum :=
    (DayBook.total_of (rateShare_splits _) hrise).trans
      (congrArg List.sum (List.map_congr_left fun i hi => powerShare_interval (hle i hi)))
  have henergy : ∀ bucket,
      (energy bucket).days.sum = ((intervals {} steps).map (·.energy bucket)).sum := fun bucket =>
    (DayBook.total_of (rateShare_splits _) hrise).trans
      (congrArg List.sum (List.map_congr_left fun i hi => elecShare_interval bucket (hle i hi)))
  have hpower : days.map (·.powerS.toBitVec) = time.days.map (BitVec.ofInt 32) :=
    Books.days_run Tally.power hrise
  have helec : ∀ bucket,
      days.map (fun a => (a.elecWs bucket).toBitVec) = (energy bucket).days.map (BitVec.ofInt 64) :=
    fun bucket => Books.days_run (Tally.elec bucket) hrise
  refine ⟨⟨hpower, htime, fun hfits => ?_⟩, fun bucket => ⟨helec bucket, henergy bucket,
    fun hfits => ?_⟩⟩
  · exact (total_of_words hpower (rateShare_grows fun p => by split <;> simp) hfits).trans htime
  · exact (total_of_words (helec bucket) (rateShare_grows fun p => by split <;> simp) hfits).trans
      (henergy bucket)

/-- Two minutes of 1 kW over a midnight, then a reading after a pause. -/
def midnightSteps : List LedgerStep :=
  let heating : Input := { connected := true, powerValid := true, powerW := 1000, bucket := .heating }
  [.add 86340 { date := 20250101, startS := 0 } heating,
    .add 86460 { date := 20250102, startS := 86400 } heating, .pause,
    .add 86500 { date := 20250102, startS := 86400 } heating]

/-- One minute goes to each day. -/
theorem ledger_conserves_midnight :
    ((({} : Books).run midnightSteps).days.map fun a => (a.powerS.toNat : ℤ)).sum = 120 ∧
      ((({} : Books).run midnightSteps).days.map fun a => ((a.elecWs 0).toNat : ℤ)).sum = 120000 := by
  have h := ledger_conserves 86340 midnightSteps (by decide)
  refine ⟨(h.1.2.2 (by decide)).trans (by decide), ((h.2 0).2.2 (by decide)).trans (by decide)⟩

end ArcticController

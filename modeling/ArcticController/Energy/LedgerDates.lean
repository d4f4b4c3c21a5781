/-
A closed day is never reopened, however the clock moves.

* `EnergyLedger.date_lt_of_over`: a reading closes the open day only when its
  own day comes later;
* `Books.Ordered`: the closed days come in the order of their dates, before the
  open one, and the reference is not before the open day's start;
* `Books.ordered_step`, `Books.ordered_run`: every step keeps this;
* `EnergyLedger.add_before_start`: a reading before the open day's start changes
  no total;
* `closed_days_stay_closed`: the records handed out, from an empty ledger or a
  checkpoint.
-/
import ArcticController.Energy.LedgerBooks

namespace ArcticController

/-- A reading falls in its day; a pause has none. -/
def LedgerStep.Holds : LedgerStep → Prop
  | .add nowS day _ => day.Holds nowS
  | .pause => True

instance (step : LedgerStep) : Decidable step.Holds := by
  cases step <;> unfold LedgerStep.Holds <;> infer_instance

namespace EnergyLedger

variable {l : EnergyLedger} {nowS : ℤ} {day : Day} {input : Input}

/-! ### When a day closes -/

lemma reached_endS : (l.reached nowS day).endS =
    if nowS ≥ l.endAt day ∧ day.date ≤ l.cur.date then dayEnd day else l.endAt day := by
  rw [reached_eq]

/-- A reading is past the open day's end only when its day has a later date:
else the open day runs on to the end of the reading's day. -/
lemma date_lt_of_over (hday : day.Holds nowS) (hend : (l.reached nowS day).endS ≤ nowS) :
    l.cur.date < day.date := by
  rw [reached_endS] at hend
  by_contra hlt
  have hle : day.date ≤ l.cur.date := UInt32.not_lt.mp hlt
  have hover := hday.2
  by_cases hge : nowS ≥ l.endAt day
  · rw [if_pos ⟨hge, hle⟩] at hend
    omega
  · rw [if_neg fun h => hge h.1] at hend
    omega

end EnergyLedger

/-! ### The order of the days -/

/-- The closed days come in the order of their dates, before the open one. -/
structure Books.Ordered (b : Books) : Prop where
  dates : (b.closed.map (·.date)).Pairwise (· < ·)
  before : ∀ a ∈ b.closed, b.ledger.isOpen ∧ a.date < b.ledger.cur.date
  reference : b.ledger.hasPrev → b.ledger.startS ≤ b.ledger.prevS

namespace Books

variable {b : Books} {nowS : ℤ} {day : Day} {input : Input}

/-- Closing the open day puts it after the days closed before. -/
lemma Ordered.close (h : b.Ordered) {a : DayAccum} {l : EnergyLedger}
    (ha : a.date = b.ledger.cur.date) (hopen : l.isOpen) (hdate : a.date < l.cur.date)
    (href : l.hasPrev → l.startS ≤ l.prevS) :
    Books.Ordered ⟨l, b.closed ++ (some a).toList⟩ where
  dates := by
    simp only [Option.toList_some, List.map_append, List.map_cons, List.map_nil]
    refine List.pairwise_append.mpr ⟨h.dates, List.pairwise_singleton _ _, fun x hx y hy => ?_⟩
    obtain ⟨c, hc, rfl⟩ := List.mem_map.mp hx
    rw [List.mem_singleton.mp hy, ha]
    exact (h.before c hc).2
  before c hc := by
    rcases List.mem_append.mp hc with hc | hc
    · exact ⟨hopen, UInt32.lt_trans (ha ▸ (h.before c hc).2) hdate⟩
    · rw [Option.toList_some, List.mem_singleton] at hc
      exact ⟨hopen, hc ▸ hdate⟩
  reference := href

/-- A step that closes no day keeps the order when the open day keeps its date. -/
lemma Ordered.keep (h : b.Ordered) {l : EnergyLedger} (hopen : b.ledger.isOpen → l.isOpen)
    (hdate : l.cur.date = b.ledger.cur.date) (href : l.hasPrev → l.startS ≤ l.prevS) :
    Books.Ordered ⟨l, b.closed ++ (none : Option DayAccum).toList⟩ where
  dates := by simpa using h.dates
  before c hc := by
    simp only [Option.toList_none, List.append_nil] at hc
    obtain ⟨hc₁, hc₂⟩ := h.before c hc
    exact ⟨hopen hc₁, hdate ▸ hc₂⟩
  reference := href

/-- A reading keeps the days in order. -/
lemma ordered_add (h : b.Ordered) (hday : day.Holds nowS) :
    (b.step (.add nowS day input)).Ordered := by
  have hcase := b.ledger.add_cases nowS day input
  rw [step]
  generalize b.ledger.add nowS day input = l', b.ledger.closing nowS day = c at hcase ⊢
  cases hcase with
  | opened hopen =>
      -- nothing was closed before a first day opened
      have hempty : b.closed = [] :=
        List.eq_nil_iff_forall_not_mem.mpr fun a ha => hopen (h.before a ha).1
      rw [hempty]
      exact ⟨List.Pairwise.nil, by rintro _ ⟨⟩, fun _ => hday.1⟩
  | behind hopen hstart =>
      rw [EnergyLedger.exactSpan_eq]
      exact h.keep (fun _ => hopen) rfl (by rintro ⟨⟩)
  | restarted hopen hstart href hend =>
      rw [EnergyLedger.reached_eq]
      exact h.keep (fun _ => hopen) rfl fun _ => hstart
  | turned hopen hstart href hend =>
      exact h.close rfl rfl (EnergyLedger.date_lt_of_over hday hend) fun _ => hday.1
  | booked n m hopen hstart href hprev hend =>
      have hdate := @EnergyLedger.continued_date (b.ledger.reached nowS day) nowS
      refine h.keep (fun _ => ?_) (hdate.trans (by rw [EnergyLedger.reached_cur])) fun _ => ?_
      · rw [EnergyLedger.reached_eq]
        exact hopen
      · rw [EnergyLedger.reached_eq]
        exact hstart
  | split n m hopen hstart href hprev hend =>
      have hclosed := @EnergyLedger.closed_date (b.ledger.reached nowS day) nowS
      rw [EnergyLedger.reached_cur] at hclosed
      have hlt := EnergyLedger.date_lt_of_over hday hend
      refine h.close hclosed rfl ?_ fun _ => hday.1
      rw [hclosed]
      exact EnergyLedger.reopened_date.symm ▸ hlt

/-- So does any step. -/
lemma ordered_step (h : b.Ordered) {step : LedgerStep} (hstep : step.Holds) :
    (b.step step).Ordered := by
  cases step with
  | add nowS day input => exact ordered_add h hstep
  | pause => exact ⟨h.dates, h.before, nofun⟩

lemma ordered_run : ∀ (steps : List LedgerStep) {b : Books}, b.Ordered →
    (∀ step ∈ steps, step.Holds) → (b.run steps).Ordered := by
  intro steps
  induction steps with
  | nil => intro b h _; exact h
  | cons step steps ih =>
      intro b h hsteps
      exact ih (ordered_step h (hsteps step List.mem_cons_self))
        fun s hs => hsteps s (List.mem_cons_of_mem _ hs)

end Books

/-! ### Readings before the open day's start -/

/-- A reading before the open day's start, as it was kept or as the reading
itself makes it exact, changes no total and closes nothing. -/
lemma EnergyLedger.add_before_start {l : EnergyLedger} {nowS : ℤ} {day : Day} {input : Input}
    (hopen : l.isOpen) (href : l.hasPrev → l.startS ≤ l.prevS) (hday : day.Holds nowS)
    (hbefore : nowS < l.startS ∨ nowS < l.startAt day) :
    (l.add nowS day input).cur = l.cur ∧ (l.add nowS day input).takeFinished = none := by
  rw [takeFinished_add]
  have hcase := l.add_cases nowS day input
  generalize l.add nowS day input = l', l.closing nowS day = c at hcase ⊢
  -- past an exact start, an estimated one was put right by the reading's own day
  have hnot (hstart : l.startAt day ≤ nowS) : nowS < l.startS ∧ nowS < (l.reached nowS day).endS := by
    have hlt : nowS < l.startS := hbefore.resolve_right (not_lt.mpr hstart)
    have hexact : ¬ l.spanExact ∧ day.date = l.cur.date := by
      by_contra hne
      rw [startAt, if_neg hne] at hstart
      omega
    refine ⟨hlt, ?_⟩
    have hend := hday.2
    rw [reached_endS, endAt, if_pos hexact, if_neg fun h => by omega]
    exact hend
  cases hcase with
  | opened hc => exact absurd hopen hc
  | behind _ hstart => exact ⟨exactSpan_cur _ _, rfl⟩
  | restarted _ hstart _ hend =>
      rw [reached_eq]
      exact ⟨rfl, rfl⟩
  | turned _ hstart _ hend => exact absurd (hnot hstart).2 (not_lt.mpr hend)
  | booked n m _ hstart hhas hprev hend =>
      have := (hnot hstart).1
      have := href hhas
      omega
  | split n m _ hstart hhas hprev hend => exact absurd (hnot hstart).2 (not_lt.mpr hend)

/-- The ledger at power on: empty, or seeded from a checkpoint. -/
def EnergyLedger.start : Option DayAccum → EnergyLedger
  | none => {}
  | some checkpoint => ({} : EnergyLedger).restore checkpoint

lemma Books.ordered_start (checkpoint : Option DayAccum) :
    Books.Ordered ⟨EnergyLedger.start checkpoint, []⟩ := by
  cases checkpoint <;> exact ⟨List.Pairwise.nil, nofun, nofun⟩

/-- **A closed day is never reopened.** From an empty ledger or any checkpoint,
over any readings and pauses and however the clock moves, the dates handed out
strictly increase, all of them lie before the open day, and a reading before
the open day's start changes no total. -/
theorem closed_days_stay_closed (checkpoint : Option DayAccum) (steps : List LedgerStep)
    (hsteps : ∀ step ∈ steps, step.Holds) :
    let l := steps.foldl EnergyLedger.step (EnergyLedger.start checkpoint)
    let handed := (EnergyLedger.start checkpoint).handedOut steps
    (handed.map (·.date)).Pairwise (· < ·) ∧
      (∀ record ∈ handed, l.isOpen ∧ record.date < l.cur.date) ∧
      ∀ nowS day input, l.isOpen → day.Holds nowS → nowS < l.startS ∨ nowS < l.startAt day →
        (l.add nowS day input).cur = l.cur ∧ (l.add nowS day input).takeFinished = none := by
  intro l handed
  have hordered := Books.ordered_run steps (Books.ordered_start checkpoint) hsteps
  have hhanded : handed = ((Books.run ⟨EnergyLedger.start checkpoint, []⟩ steps).closed).map
      toRecord := Books.handedOut_run ⟨EnergyLedger.start checkpoint, []⟩ steps
  have hl : (Books.run ⟨EnergyLedger.start checkpoint, []⟩ steps).ledger = l :=
    Books.run_ledger _ steps
  have hdate : ∀ a : DayAccum, (toRecord a).date = a.date := fun a => rfl
  refine ⟨?_, fun record hrecord => ?_, fun nowS day input hopen hday hbefore => ?_⟩
  · rw [hhanded, List.map_map]
    exact hordered.dates
  · rw [hhanded] at hrecord
    obtain ⟨a, ha, rfl⟩ := List.mem_map.mp hrecord
    rw [hdate, ← hl]
    exact hordered.before a ha
  · exact EnergyLedger.add_before_start hopen (hl ▸ hordered.reference) hday hbefore

/-- A checkpoint of the day before, then a clock that steps back past midnight. -/
theorem closed_days_stay_closed_stepBack :
    let steps : List LedgerStep :=
      [.add 100000 { date := 19700102, startS := 86400 } {},
        .add 90 { date := 19700101, startS := 0 } {},
        .add 180000 { date := 19700103, startS := 172800 } {}]
    (((EnergyLedger.start (some { (default : DayAccum) with date := 19700101 })).handedOut
      steps).map (·.date)).Pairwise (· < ·) := by
  intro steps
  exact (closed_days_stay_closed (some { (default : DayAccum) with date := 19700101 }) steps
    (by decide)).1

end ArcticController

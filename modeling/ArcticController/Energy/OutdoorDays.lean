/-
The outdoor readings of a day (`book` and `to_record` in `energy_ledger.h`).

* `DayAccum.Noted`, `noteOutdoor_noted`: what noting a reading does to the extremes;
* `DayAccum.OutdoorBooked`, `book_outdoor`: the outdoor counters after a booking;
* `DayAccum.OutdoorKept`: the sums, their seconds and the extremes fit together;
* `OutdoorKept.booked`: booking a reading in range keeps them;
* `OutdoorKept.between`: the averages of the record lie between its extremes.
-/
import ArcticController.Energy.DailyTotals
import ArcticController.Base.Averages

namespace ArcticController

/-! ### Flags -/

/-- The flags of the settings leave the one of the outdoor reading alone. -/
lemma outdoorSet_or {f mask : UInt8} (h : mask &&& dayOutdoorSet = 0) :
    (f ||| mask) &&& dayOutdoorSet = f &&& dayOutdoorSet := by
  have hbits := congrArg UInt8.toBitVec h
  rw [UInt8.toBitVec_and] at hbits
  apply UInt8.toBitVec_inj.mp
  rw [UInt8.toBitVec_and, UInt8.toBitVec_or, UInt8.toBitVec_and, BitVec.and_or_distrib_right, hbits]
  exact BitVec.or_zero

lemma outdoorSet_self (f : UInt8) : (f ||| dayOutdoorSet) &&& dayOutdoorSet ≠ 0 := by
  have hself : (f ||| dayOutdoorSet) &&& dayOutdoorSet = dayOutdoorSet := by
    apply UInt8.toBitVec_inj.mp
    rw [UInt8.toBitVec_and, UInt8.toBitVec_or]
    ext i hi
    rw [BitVec.getElem_and, BitVec.getElem_or]
    cases dayOutdoorSet.toBitVec[i] <;> simp
  rw [hself]
  decide

/-! ### Sums that do not wrap -/

lemma toInt_toInt64 (n : UInt32) : n.toUInt64.toInt64.toInt = n.toNat := by
  have hn := n.toNat_lt
  have hword : n.toUInt64.toInt64.toInt = (n.toUInt64.toBitVec).toInt := rfl
  rw [hword, BitVec.toInt_eq_toNat_of_lt]
  · rfl
  · show 2 * n.toNat < 2 ^ 64
    omega

lemma toInt_toInt32 {n : UInt32} (h : n.toNat < 2 ^ 31) : n.toInt32.toInt = n.toNat := by
  have hword : n.toInt32.toInt = n.toBitVec.toInt := rfl
  rw [hword, BitVec.toInt_eq_toNat_of_lt]
  · rfl
  · show 2 * n.toNat < 2 ^ 32
    omega

/-- One more reading in a sum of 64 bits. -/
lemma sum64_add {s x : Int64} {dt : UInt32} (hs : |s.toInt| ≤ 2550 * 2 ^ 32)
    (hx : |x.toInt| ≤ 2550) :
    (s + x * dt.toUInt64.toInt64).toInt = s.toInt + x.toInt * dt.toNat := by
  have hdt := dt.toNat_lt
  have hprod : |x.toInt * dt.toNat| ≤ 2550 * 2 ^ 32 := by
    rw [abs_mul, Nat.abs_cast]
    exact mul_le_mul hx (by omega) (by omega) (by norm_num)
  obtain ⟨hslo, hshi⟩ := abs_le.mp hs
  obtain ⟨hplo, hphi⟩ := abs_le.mp hprod
  rw [Int64.toInt_add, Int64.toInt_mul, toInt_toInt64, Int.bmod_eq_of_le (n := x.toInt * dt.toNat),
    Int.bmod_eq_of_le]
  all_goals omega

/-- One more reading of at most two minutes in a sum of 32 bits. -/
lemma sum32_add {s x : Int32} {dt : UInt32} (hs : |s.toInt| ≤ 2550 * (3 * 86400))
    (hx : |x.toInt| ≤ 2550) (hdt : dt.toNat ≤ 120) :
    (s + x * dt.toInt32).toInt = s.toInt + x.toInt * dt.toNat := by
  have hprod : |x.toInt * dt.toNat| ≤ 2550 * 120 := by
    rw [abs_mul, Nat.abs_cast]
    exact mul_le_mul hx (by omega) (by omega) (by norm_num)
  obtain ⟨hslo, hshi⟩ := abs_le.mp hs
  obtain ⟨hplo, hphi⟩ := abs_le.mp hprod
  rw [Int32.toInt_add, Int32.toInt_mul, toInt_toInt32 (by omega),
    Int.bmod_eq_of_le (n := x.toInt * dt.toNat), Int.bmod_eq_of_le]
  all_goals omega

/-- The average of a sum of 64 bits lies between the bounds of its readings. -/
lemma avg64_between {lo hi : ℤ} {s : Int64} {n : UInt32} (h : Weighted lo hi n.toNat s.toInt)
    (hn : n > 0) (hlo : -2550 ≤ lo) (hhi : hi ≤ 2550) :
    lo ≤ (s / n.toUInt64.toInt64).toInt16.toInt ∧ (s / n.toUInt64.toInt64).toInt16.toInt ≤ hi := by
  have hpos : 0 < n.toNat := UInt32.lt_iff_toNat_lt.mp hn
  obtain ⟨hlower, hupper⟩ := h.tdiv (by omega)
  rw [Int64.toInt_toInt16, Int64.toInt_div, toInt_toInt64, Int.bmod_eq_of_le (n := Int.tdiv _ _),
    Int.bmod_eq_of_le]
  · exact ⟨hlower, hupper⟩
  all_goals omega

/-- And that of a sum of 32 bits. -/
lemma avg32_between {lo hi : ℤ} {s : Int32} {n : UInt32} (h : Weighted lo hi n.toNat s.toInt)
    (hn : n > 0) (hfits : n.toNat < 2 ^ 31) (hlo : -2550 ≤ lo) (hhi : hi ≤ 2550) :
    lo ≤ (s / n.toInt32).toInt16.toInt ∧ (s / n.toInt32).toInt16.toInt ≤ hi := by
  have hpos : 0 < n.toNat := UInt32.lt_iff_toNat_lt.mp hn
  obtain ⟨hlower, hupper⟩ := h.tdiv (by omega)
  rw [Int32.toInt_toInt16, Int32.toInt_div, toInt_toInt32 hfits,
    Int.bmod_eq_of_le (n := Int.tdiv _ _), Int.bmod_eq_of_le]
  · exact ⟨hlower, hupper⟩
  all_goals omega

/-! ### Readings in range -/

/-- A reading of at most 255 °C. -/
def Input.InRange (p : Input) : Prop := -255 ≤ p.outdoorC.toInt ∧ p.outdoorC.toInt ≤ 255

instance (p : Input) : Decidable p.InRange := inferInstanceAs (Decidable (_ ∧ _))

/-- Its tenths fit 16 bits. -/
lemma Input.InRange.deci {p : Input} (h : p.InRange) :
    (p.outdoorC * 10).toInt = p.outdoorC.toInt * 10 := by
  obtain ⟨hlo, hhi⟩ := h
  rw [Int16.toInt_mul]
  exact Int.bmod_eq_of_le (by show -(2 ^ 16 / 2) ≤ p.outdoorC.toInt * 10; omega)
    (by show p.outdoorC.toInt * 10 < (2 ^ 16 + 1) / 2; omega)

/-! ### What a booking does -/

namespace DayAccum

variable {cur c : DayAccum} {dt : UInt32} {p : Input} {D a b e : ℤ} {deci : Int16}

/-- What noting a reading does to the extremes. -/
structure Noted (cur : DayAccum) (deci : Int16) (c : DayAccum) : Prop where
  set : c.flags &&& dayOutdoorSet ≠ 0
  lower : c.outdoorMinDeci = deci ∨ c.outdoorMinDeci = cur.outdoorMinDeci
  upper : c.outdoorMaxDeci = deci ∨ c.outdoorMaxDeci = cur.outdoorMaxDeci
  holds : c.outdoorMinDeci.toInt ≤ deci.toInt ∧ deci.toInt ≤ c.outdoorMaxDeci.toInt
  widens : cur.flags &&& dayOutdoorSet ≠ 0 →
    c.outdoorMinDeci.toInt ≤ cur.outdoorMinDeci.toInt ∧
      cur.outdoorMaxDeci.toInt ≤ c.outdoorMaxDeci.toInt

lemma noteOutdoor_noted : cur.Noted deci (cur.noteOutdoor deci) := by
  rw [noteOutdoor]
  by_cases hset : cur.flags &&& dayOutdoorSet = 0
  · have hnot : ¬ deci < deci := by
      rw [Int16.lt_iff_toInt_lt]
      omega
    simp only [hset, if_true, hnot, if_false]
    exact ⟨outdoorSet_self _, .inl rfl, .inl rfl, ⟨le_rfl, le_rfl⟩, fun h => absurd hset h⟩
  · simp only [hset, if_false, Int16.lt_iff_toInt_lt, gt_iff_lt]
    split_ifs with hlo hhi hhi
    · exact ⟨hset, .inl rfl, .inl rfl, ⟨le_rfl, le_rfl⟩, fun _ => ⟨hlo.le, hhi.le⟩⟩
    · exact ⟨hset, .inl rfl, .inr rfl, ⟨le_rfl, not_lt.mp hhi⟩, fun _ => ⟨hlo.le, le_rfl⟩⟩
    · exact ⟨hset, .inr rfl, .inl rfl, ⟨not_lt.mp hlo, le_rfl⟩, fun _ => ⟨le_rfl, hhi.le⟩⟩
    · exact ⟨hset, .inr rfl, .inr rfl, ⟨not_lt.mp hlo, not_lt.mp hhi⟩, fun _ => ⟨le_rfl, le_rfl⟩⟩

lemma noteSettings_outdoorSet :
    (cur.noteSettings p).flags &&& dayOutdoorSet = cur.flags &&& dayOutdoorSet := by
  rw [noteSettings]
  split_ifs
  · exact outdoorSet_or rfl
  · exact outdoorSet_or rfl
  · rfl

lemma bookThermal_outdoorSet :
    (cur.bookThermal dt p).flags &&& dayOutdoorSet = cur.flags &&& dayOutdoorSet := by
  rw [bookThermal]
  cases p.bucket.mode with
  | none => rfl
  | some m =>
      dsimp only
      split
      · rw [noteSettings_outdoorSet]
      · rfl

/-- The outdoor counters of a day after `[a, b)` was booked to it. -/
structure OutdoorBooked (cur : DayAccum) (p : Input) (D a b : ℤ) (c : DayAccum) : Prop where
  taken : outdoorTaken p D a b → cur.Noted (p.outdoorC * 10) c ∧
    c.outdoorSumDeciS = cur.outdoorSumDeciS +
      (p.outdoorC * 10).toInt64 * (stepSeconds (outdoorFrom D a) b).toUInt64.toInt64
  left : ¬ outdoorTaken p D a b → c.flags &&& dayOutdoorSet = cur.flags &&& dayOutdoorSet ∧
    c.outdoorMinDeci = cur.outdoorMinDeci ∧ c.outdoorMaxDeci = cur.outdoorMaxDeci ∧
    c.outdoorSumDeciS = cur.outdoorSumDeciS

lemma bookOutdoor_noted : cur.Noted (p.outdoorC * 10) (cur.bookOutdoor dt p) ∧
    (cur.bookOutdoor dt p).outdoorSumDeciS =
      cur.outdoorSumDeciS + (p.outdoorC * 10).toInt64 * dt.toUInt64.toInt64 := by
  have hnoted := @noteOutdoor_noted cur (p.outdoorC * 10)
  obtain ⟨flags, lo, hi, hnote⟩ := cur.noteOutdoor_eq (p.outdoorC * 10)
  rw [hnote] at hnoted
  rw [bookOutdoor, hnote]
  dsimp only
  obtain ⟨hset, hlo, hhi, hholds, hwidens⟩ := hnoted
  split <;> exact ⟨⟨hset, hlo, hhi, hholds, hwidens⟩, rfl⟩

lemma book_outdoor (hab : a < b) (hc : p.connected) :
    cur.OutdoorBooked p D a b (cur.book D a b p) := by
  have hskip : ¬ (b ≤ a ∨ ¬ p.connected) := by simp [hc, hab]
  obtain ⟨-, -, -, hsum, hlo, hhi⟩ := cur.times_under (stepSeconds a b) p
  have hunder : (((cur.bookPower (stepSeconds a b) p).bookRunning (stepSeconds a b) p).bookDefrost
      (stepSeconds a b) p).flags = cur.flags := by
    simp only [bookDefrost_eq, bookRunning_eq, bookPower_eq]
  have hflags := @bookThermal_outdoorSet
    (((cur.bookPower (stepSeconds a b) p).bookRunning (stepSeconds a b) p).bookDefrost
      (stepSeconds a b) p) (stepSeconds a b) p
  rw [hunder] at hflags
  rw [book, if_neg hskip]
  dsimp only
  generalize (((cur.bookPower (stepSeconds a b) p).bookRunning (stepSeconds a b) p).bookDefrost
    (stepSeconds a b) p).bookThermal (stepSeconds a b) p = c at hsum hlo hhi hflags ⊢
  split
  · next hout =>
      refine ⟨fun _ => ?_, fun h => absurd hout h⟩
      obtain ⟨⟨hset, hmin, hmax, hholds, hwidens⟩, hbooked⟩ :=
        @bookOutdoor_noted c (stepSeconds (outdoorFrom D a) b) p
      rw [hflags, hlo, hhi] at hwidens
      exact ⟨⟨hset, hlo ▸ hmin, hhi ▸ hmax, hholds, hwidens⟩, hsum ▸ hbooked⟩
  · next hout => exact ⟨fun h => absurd h hout, fun _ => ⟨hflags, hlo, hhi, hsum⟩⟩

/-! ### What the outdoor counters keep -/

/-- The sums, their seconds and the extremes fit together, the sum of the running time as long
as that is at most three days. -/
structure OutdoorKept (a : DayAccum) : Prop where
  unset : a.flags &&& dayOutdoorSet = 0 → a.outdoorS = 0 ∧ a.outdoorSumDeciS = 0 ∧
    a.runOutdoorS = 0 ∧ a.runOutdoorSumDeciS = 0
  extremes : -2550 ≤ a.outdoorMinDeci.toInt ∧ a.outdoorMaxDeci.toInt ≤ 2550
  sum : Weighted a.outdoorMinDeci.toInt a.outdoorMaxDeci.toInt a.outdoorS.toNat
    a.outdoorSumDeciS.toInt
  seconds : a.runOutdoorS.toNat ≤ ∑ m, (a.runS m).toNat
  running : ∑ m, (a.runS m).toNat ≤ 3 * 86400 →
    Weighted a.outdoorMinDeci.toInt a.outdoorMaxDeci.toInt a.runOutdoorS.toNat
      a.runOutdoorSumDeciS.toInt

/-- Wider extremes still hold a sum; without any reading yet there is none. -/
lemma Noted.weighted (h : cur.Noted deci c) {n s : ℤ} (hn : 0 ≤ n)
    (hs : Weighted cur.outdoorMinDeci.toInt cur.outdoorMaxDeci.toInt n s)
    (hunset : cur.flags &&& dayOutdoorSet = 0 → n = 0 ∧ s = 0) :
    Weighted c.outdoorMinDeci.toInt c.outdoorMaxDeci.toInt n s := by
  by_cases hset : cur.flags &&& dayOutdoorSet = 0
  · obtain ⟨rfl, rfl⟩ := hunset hset
    exact .zero
  · obtain ⟨hlo, hhi⟩ := h.widens hset
    exact hs.mono hn hlo hhi

/-- Booking a reading in range keeps what the outdoor counters keep. -/
lemma OutdoorKept.booked (h : cur.OutdoorKept) (htotals : cur.Consistent e) (hout : cur.Bounded e)
    (hp : p.InRange) (hab : a < b)
    (hstep : b - a ≤ kMaxStepSeconds) (hc : p.connected) (hfits : e + (b - a) < 2 ^ 32) :
    (cur.book D a b p).OutdoorKept := by
  have hbooked := cur.book_booked p (D := D) hab hc
  have htimes := cur.book_times p (D := D) hab hc
  have houtdoor := @book_outdoor cur p D a b hab hc
  generalize cur.book D a b p = c at hbooked htimes houtdoor ⊢
  have hdt := stepSeconds_toNat hab.le hstep
  have hrunS := hbooked.sum_runS (by have := htotals.runS; omega)
  have hgrows : ∑ m, (cur.runS m).toNat ≤ ∑ m, (c.runS m).toNat := by
    rw [hrunS]
    exact Nat.le_add_right _ _
  have hdeci := hp.deci
  obtain ⟨hlow, hhigh⟩ := hp
  by_cases htaken : outdoorTaken p D a b
  swap
  · -- the reading does not count
    obtain ⟨hflags, hlo, hhi, hsum⟩ := houtdoor.left htaken
    have hnot : ¬ outdoorBooked p D a b := fun hb => htaken hb.1
    have hS := htimes.outdoorS.trans (if_neg htaken)
    have hrS := hbooked.runOutdoorS.trans (if_neg hnot)
    have hrSum := hbooked.runOutdoorSumDeciS.trans (if_neg hnot)
    refine ⟨?_, ?_, ?_, ?_, fun hlong => ?_⟩
    · rw [hflags, hS, hsum, hrS, hrSum]
      exact h.unset
    · rw [hlo, hhi]
      exact h.extremes
    · rw [hlo, hhi, hS, hsum]
      exact h.sum
    · rw [hrS]
      exact h.seconds.trans hgrows
    · rw [hlo, hhi, hrS, hrSum]
      exact h.running (hgrows.trans hlong)
  -- the reading counts from `outdoorFrom` on
  obtain ⟨hnoted, hsum⟩ := houtdoor.taken htaken
  have hfrom := le_outdoorFrom D a
  have hlt := htaken.2.2
  have hcount := stepSeconds_toNat (a := outdoorFrom D a) (b := b) hlt.le (by omega)
  rw [kMaxStepSeconds] at hstep
  have hS := htimes.outdoorS.trans (if_pos htaken)
  have hrS := hbooked.runOutdoorS
  have hrSum := hbooked.runOutdoorSumDeciS
  generalize stepSeconds (outdoorFrom D a) b = out at hsum hcount hS hrS hrSum
  replace hS : c.outdoorS.toNat = cur.outdoorS.toNat + out.toNat := by
    rw [hS]
    exact u32_toNat_add (by have := hout.outdoorS; omega)
  have hx : |(p.outdoorC * 10).toInt| ≤ 2550 := by
    rw [hdeci]
    exact abs_le.mpr (by omega)
  have hx64 : (p.outdoorC * 10).toInt64.toInt = (p.outdoorC * 10).toInt := Int16.toInt_toInt64 _
  have hx32 : (p.outdoorC * 10).toInt32.toInt = (p.outdoorC * 10).toInt := Int16.toInt_toInt32 _
  have hbound := h.sum.abs_sum_le (by omega) h.extremes.1 h.extremes.2
  have hcurS := cur.outdoorS.toNat_lt
  have hSum : c.outdoorSumDeciS.toInt
      = cur.outdoorSumDeciS.toInt + (p.outdoorC * 10).toInt * out.toNat := by
    rw [hsum, sum64_add (hbound.trans (by omega)) (hx64 ▸ hx), hx64]
  have hrunLe : out.toNat ≤ (stepSeconds a b).toNat := by omega
  obtain ⟨hnotedLo, hnotedHi⟩ := hnoted.holds
  refine ⟨fun hunset => absurd hunset hnoted.set, ⟨?_, ?_⟩, ?_, ?_, fun hlong => ?_⟩
  · have := h.extremes.1
    rcases hnoted.lower with hlo | hlo <;> rw [hlo] <;> omega
  · have := h.extremes.2
    rcases hnoted.upper with hhi | hhi <;> rw [hhi] <;> omega
  · rw [hS, hSum]
    push_cast
    refine (hnoted.weighted (by omega) h.sum fun hunset => ?_).add hnotedLo hnotedHi (by omega)
    obtain ⟨hzero, hzeroSum, -⟩ := h.unset hunset
    rw [hzero, hzeroSum]
    exact ⟨rfl, rfl⟩
  · rw [hrS, hrunS]
    have hseconds := h.seconds
    split
    · next hb =>
        rw [if_pos hb.2, UInt32.toNat_add]
        exact (Nat.mod_le _ _).trans (by omega)
    · omega
  · have hwas := hnoted.weighted (by omega) (h.running (hgrows.trans hlong)) fun hunset => by
      obtain ⟨-, -, hzero, hzeroSum⟩ := h.unset hunset
      rw [hzero, hzeroSum]
      exact ⟨rfl, rfl⟩
    have hrunBound := (h.running (hgrows.trans hlong)).abs_sum_le (by omega) h.extremes.1
      h.extremes.2
    have hseconds := h.seconds
    rw [hrS, hrSum]
    by_cases hb : outdoorBooked p D a b
    · rw [if_pos hb, if_pos hb, u32_toNat_add (by omega),
        sum32_add (hrunBound.trans (by omega)) (hx32 ▸ hx) (by omega), hx32]
      push_cast
      exact hwas.add hnotedLo hnotedHi (by omega)
    · rw [if_neg hb, if_neg hb]
      exact hwas

end DayAccum

/-! ### The averages of the record -/

/-- The record keeps the flag of the outdoor reading. -/
lemma toRecord_outdoorSet (a : DayAccum) :
    (toRecord a).flags &&& dayOutdoorSet = a.flags &&& dayOutdoorSet := by
  simp only [toRecord]
  split
  · exact outdoorSet_or rfl
  · rw [UInt8.and_assoc]
    rfl

/-- The averages of a record lie between its extremes. -/
structure DayRecord.AveragesBetween (r : DayRecord) : Prop where
  day : r.flags &&& dayOutdoorSet ≠ 0 →
    r.outdoorMinDeci ≤ r.outdoorAvgDeci ∧ r.outdoorAvgDeci ≤ r.outdoorMaxDeci
  running : r.flags &&& dayRunOutdoorSet ≠ 0 →
    r.outdoorMinDeci ≤ r.outdoorRunAvgDeci ∧ r.outdoorRunAvgDeci ≤ r.outdoorMaxDeci

lemma DayAccum.OutdoorKept.between {a : DayAccum} (h : a.OutdoorKept)
    (hout : a.runOutdoorS ≤ a.outdoorS) (hrun : ∑ m, (a.runS m).toNat ≤ 3 * 86400) :
    (toRecord a).AveragesBetween := by
  have hle := UInt32.le_iff_toNat_le.mp hout
  have hseconds := h.seconds
  constructor
  · intro _
    rw [Int16.le_iff_toInt_le, Int16.le_iff_toInt_le]
    simp only [toRecord]
    by_cases hS : a.outdoorS > 0
    · rw [if_pos hS, if_pos hS, if_pos hS]
      exact avg64_between h.sum hS h.extremes.1 h.extremes.2
    · rw [if_neg hS, if_neg hS, if_neg hS]
      exact ⟨le_rfl, le_rfl⟩
  · intro hset
    rw [Int16.le_iff_toInt_le, Int16.le_iff_toInt_le]
    simp only [toRecord] at hset ⊢
    by_cases hrS : a.runOutdoorS > 0
    · have hS : a.outdoorS > 0 := by
        have := UInt32.lt_iff_toNat_lt.mp hrS
        exact UInt32.lt_iff_toNat_lt.mpr (by omega)
      rw [if_pos hrS, if_pos hS, if_pos hS]
      exact avg32_between (h.running hrun) hrS (by omega) h.extremes.1 h.extremes.2
    · rw [if_neg hrS, UInt8.and_assoc] at hset
      exact absurd UInt8.and_zero hset

/-! ### The rule of a day -/

/-- The outdoor counters as a rule, for readings in range. -/
def outdoorRule : DayRule where
  Kept a e := e < 2 ^ 32 → (a.Consistent e ∧ a.Bounded e) ∧ a.OutdoorKept
  Reads := Input.InRange
  blank date offset hlt := by
    refine ⟨totalsRule.blank date offset hlt, fun _ => ⟨rfl, rfl, rfl, rfl⟩, ?_, .zero, ?_,
      fun _ => .zero⟩
    · exact show -2550 ≤ (0 : Int16).toInt ∧ (0 : Int16).toInt ≤ 2550 by decide
    · exact Nat.zero_le _
  counts s d h hlt := by
    obtain ⟨hunset, hextremes, hsum, hseconds, hrunning⟩ := (h hlt).2
    exact ⟨totalsRule.counts s d (fun hlt => (h hlt).1) hlt, hunset, hextremes, hsum, hseconds,
      hrunning⟩
  mono h hle hlt :=
    ⟨totalsRule.mono (fun hlt => (h hlt).1) hle hlt, (h (hle.trans_lt hlt)).2⟩
  booked h hp hab hstep hc hlt := by
    obtain ⟨⟨hconsistent, hbounded⟩, hkept⟩ := h (by linarith)
    exact ⟨hconsistent.booked hbounded hab hstep hc hlt,
      hkept.booked hconsistent hbounded hp hab hstep hc hlt⟩

end ArcticController

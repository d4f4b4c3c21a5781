/-
What one commit does to the history already stored (`energy_store.cpp`), for
arbitrary contents and whatever calls fail.

* `NewestAtOrBefore`: the newest month blob, however far back it lies;
* `KeepsHistory`: no record of the kept months is lost, the totals are the
  newest ones plus at most the day, and a failed read is not taken for a month
  that does not exist;
* `CommitCareful`: a condition on the contents, the day and the calls that fail;
* `keepsHistory_iff`: **a commit keeps the history exactly under that condition**.
-/
import ArcticController.Energy.MonthStore

namespace ArcticController

/-! ### The newest month -/

/-- `m` is the first month blob met when walking back from `ym`, for as long as
the walk goes back. -/
def NewestAtOrBefore (c : EnergyContents) (ym : UInt32) (m : MonthBlob) : Prop :=
  ∃ k, (∀ j < k, monthRank (prevMonth^[j + 1] ym) < monthRank (prevMonth^[j] ym)) ∧
    (∀ j < k, readMonth c (prevMonth^[j] ym) = none) ∧
    readMonth c (prevMonth^[k] ym) = some m

lemma NewestAtOrBefore.unique {c : EnergyContents} {ym : UInt32} {m m' : MonthBlob}
    (h : NewestAtOrBefore c ym m) (h' : NewestAtOrBefore c ym m') : m = m' := by
  obtain ⟨k, -, hnone, hm⟩ := h
  obtain ⟨k', -, hnone', hm'⟩ := h'
  obtain hlt | rfl | hgt := lt_trichotomy k k'
  · rw [hnone' k hlt] at hm
    cases hm
  · rw [hm, Option.some.injEq] at hm'
    exact hm'
  · rw [hnone k' hgt] at hm'
    cases hm'

lemma newestAtOrBefore_self {c : EnergyContents} {ym : UInt32} {m : MonthBlob}
    (h : readMonth c ym = some m) : NewestAtOrBefore c ym m :=
  ⟨0, fun _ hj => absurd hj (Nat.not_lt_zero _), fun _ hj => absurd hj (Nat.not_lt_zero _), h⟩

/-- A short walk back does go back. -/
lemma monthRank_step {ym : UInt32} (h : ym.toNat ≤ maxMonth) {j : ℕ} (hj : j ≤ 900) :
    monthRank (prevMonth^[j + 1] ym) < monthRank (prevMonth^[j] ym) := by
  have hlow := (monthRank_iterate (monthRank_nonneg h) j (by omega)).2
  rw [Function.iterate_succ_apply']
  exact (monthRank_prevMonth (by omega)).1

/-- A month within the look-back is found. -/
lemma findMonth_of_newest {c : EnergyContents} {ym : UInt32} {m : MonthBlob}
    (hnew : NewestAtOrBefore c ym m) (hnone : readMonth c ym = none)
    (hnear : ∃ k ≤ kMonthsKept + 2, (readMonth c (prevMonth^[k] ym)).isSome) :
    findMonth c (kMonthsKept + 2) (prevMonth ym) = some m := by
  obtain ⟨k, -, hbefore, hm⟩ := hnew
  obtain ⟨k', hk', hsome⟩ := hnear
  have hle : k ≤ k' := by
    by_contra hlt
    rw [hbefore k' (not_le.mp hlt)] at hsome
    exact absurd hsome (by simp)
  cases k with
  | zero =>
      rw [Function.iterate_zero_apply, hnone] at hm
      cases hm
  | succ k =>
      rw [Function.iterate_succ_apply] at hm
      refine findMonth_eq (k := k) (by omega) (fun j hj => ?_) hm ?_
      · rw [← Function.iterate_succ_apply]
        exact hbefore _ (by omega)
      · cases k with
        | zero => exact prevMonth_ne_zero _
        | succ k =>
            rw [Function.iterate_succ_apply']
            exact prevMonth_ne_zero _

/-- What the look-back finds is the newest month. -/
lemma newest_of_findMonth {c : EnergyContents} {ym : UInt32} (hym : ym.toNat ≤ maxMonth)
    {m : MonthBlob} :
    ∀ {looks k : ℕ}, looks + k ≤ 900 → (∀ j ≤ k, readMonth c (prevMonth^[j] ym) = none) →
      findMonth c looks (prevMonth^[k + 1] ym) = some m → NewestAtOrBefore c ym m := by
  intro looks
  induction looks with
  | zero => intro k _ _ h; cases h
  | succ looks ih =>
      intro k hk hbefore h
      rw [findMonth] at h
      cases hread : readMonth c (prevMonth^[k + 1] ym) with
      | some m' =>
          rw [hread] at h
          dsimp only at h
          split_ifs at h
          cases h
          exact ⟨k + 1, fun j hj => monthRank_step hym (by omega), fun j hj => hbefore j (by omega),
            hread⟩
      | none =>
          rw [hread] at h
          dsimp only at h
          rw [← Function.iterate_succ_apply' prevMonth] at h
          refine ih (k := k + 1) (by omega) (fun j hj => ?_) h
          obtain rfl | hlt := Nat.eq_or_lt_of_le hj
          · exact hread
          · exact hbefore j (by omega)

/-! ### The claim and the condition -/

/-- The calls a commit makes, as events. -/
def commitEvents (c : EnergyContents) (random : UInt32) (day : DayRecord)
    (script : List NvsFault) : List NvsEvent :=
  (storeCommitDay random day (.ofContents c) script).ops.filterMap nvsEvent

/-- A commit destroys no stored history. -/
structure KeepsHistory (c : EnergyContents) (random : UInt32) (day : DayRecord)
    (script : List NvsFault) : Prop where
  /-- Every record of the kept months is still stored unchanged. -/
  records : ∀ i < kMonthsKept, ∀ m, readMonth c (prevMonth^[i] (monthOf day.date)) = some m →
    ∀ slot, (m.days slot).date ≠ 0 →
      ∃ m', readMonth (storeCommitDay random day (.ofContents c) script).state.stored
          (prevMonth^[i] (monthOf day.date)) = some m' ∧ m'.days slot = m.days slot
  /-- The totals it leaves are the newest ones plus at most the day. -/
  lifetime : ∀ m', readMonth (storeCommitDay random day (.ofContents c) script).state.stored
      (monthOf day.date) = some m' →
    (∀ m, NewestAtOrBefore c (monthOf day.date) m →
      m'.life = m.life ∨ m'.life = fold m.life day) ∧
    ((¬ ∃ m, NewestAtOrBefore c (monthOf day.date) m) →
      ∃ resetId, m'.life = fold (freshLifetime resetId) day)
  /-- After a failed read no month is stored. -/
  ioError : NvsEvent.readError ∈ commitEvents c random day script →
    landed (commitEvents c random day script) = false

/-- If the month reaches the flash, then no read failed, the slot of the day
was free or held that very day, and the newest month lay within the look-back
(or starting over comes to the same totals). -/
structure CommitCareful (c : EnergyContents) (random : UInt32) (day : DayRecord)
    (script : List NvsFault) : Prop where
  reads : landed (commitEvents c random day script) = true →
    NvsEvent.readError ∉ commitEvents c random day script
  slot : landed (commitEvents c random day script) = true →
    ∀ m, readMonth c (monthOf day.date) = some m →
      (m.days (daySlot day.date)).date = 0 ∨ m.days (daySlot day.date) = day
  lookBack : landed (commitEvents c random day script) = true →
    ∀ m, NewestAtOrBefore c (monthOf day.date) m →
      (∃ k ≤ kMonthsKept + 2, (readMonth c (prevMonth^[k] (monthOf day.date))).isSome) ∨
        fold (freshLifetime (random ||| 1)) day = m.life ∨
        fold (freshLifetime (random ||| 1)) day = fold m.life day

/-! ### What is left after a month was stored -/

lemma addDay_days_self (m : MonthBlob) (day : DayRecord) :
    (addDay m day).days (daySlot day.date) = day := Function.update_self _ _ _

/-- The month of the day after it was stored. -/
lemma readMonth_stored {c c' : EnergyContents} {day : DayRecord} {m : MonthBlob}
    (hm : IsMonth (monthOf day.date) m)
    (hswept : Swept (agedOut (monthOf day.date))
      (Function.update c (.month (monthOf day.date)) (some (monthBlob.enc (addDay m day)))) c') :
    readMonth c' (monthOf day.date) = some (addDay m day) := by
  rw [hswept.readMonth_of_notMem (self_notMem_agedOut (monthOf_le _))]
  exact hm.readMonth_addDay c day

/-- The other kept months are as they were. -/
lemma readMonth_kept {c c' : EnergyContents} {day : DayRecord} {m : MonthBlob}
    (hswept : Swept (agedOut (monthOf day.date))
      (Function.update c (.month (monthOf day.date)) (some (monthBlob.enc (addDay m day)))) c')
    {i : ℕ} (hpos : 0 < i) (hi : i < kMonthsKept) :
    readMonth c' (prevMonth^[i] (monthOf day.date))
      = readMonth c (prevMonth^[i] (monthOf day.date)) := by
  simp only [kMonthsKept] at hi
  have hmax := monthOf_le day.date
  have hself : prevMonth^[i] (monthOf day.date) ≠ monthOf day.date :=
    iterate_prevMonth_ne hmax (j := 0) hpos (by omega)
  have hnot : prevMonth^[i] (monthOf day.date) ∉ agedOut (monthOf day.date) := by
    rw [mem_agedOut]
    rintro ⟨j, h1, h2, hj⟩
    simp only [kMonthsKept] at h1 h2
    exact iterate_prevMonth_ne hmax (j := i) (k := j) (by omega) (by omega) hj
  rw [hswept.readMonth_of_notMem hnot, readMonth_update_of_ne hself]

/-- The totals a new month starts from. -/
lemma monthFor_fresh {c : EnergyContents} {random ym : UInt32}
    (hfar : ¬ ∃ k ≤ kMonthsKept + 2, (readMonth c (prevMonth^[k] ym)).isSome) :
    monthFor c random ym = blankMonth ym (freshLifetime (random ||| 1)) := by
  have hnone : ∀ k ≤ kMonthsKept + 2, readMonth c (prevMonth^[k] ym) = none := by
    intro k hk
    rw [← Option.not_isSome_iff_eq_none]
    exact fun hsome => hfar ⟨k, hk, hsome⟩
  have hself := hnone 0 (Nat.zero_le _)
  rw [Function.iterate_zero_apply] at hself
  rw [monthFor, hself, findMonth_none fun j hj => ?_]
  · rfl
  · rw [← Function.iterate_succ_apply]
    exact hnone _ (by omega)

/-- Within the look-back the totals are carried over. -/
lemma monthFor_carried {c : EnergyContents} {random ym : UInt32} {m : MonthBlob}
    (hnew : NewestAtOrBefore c ym m)
    (hnear : ∃ k ≤ kMonthsKept + 2, (readMonth c (prevMonth^[k] ym)).isSome) :
    (monthFor c random ym).life = m.life := by
  rw [monthFor]
  cases hread : readMonth c ym with
  | some m₀ => rw [hnew.unique (newestAtOrBefore_self hread)]
  | none =>
      rw [findMonth_of_newest hnew hread hnear]
      rfl

lemma monthFor_of_no_newest {c : EnergyContents} {random : UInt32} {ym : UInt32}
    (hym : ym.toNat ≤ maxMonth) (hno : ¬ ∃ m, NewestAtOrBefore c ym m) :
    (monthFor c random ym).life = freshLifetime (random ||| 1) := by
  have hread : readMonth c ym = none := by
    cases hread : readMonth c ym with
    | none => rfl
    | some m => exact absurd ⟨m, newestAtOrBefore_self hread⟩ hno
  have hfind : findMonth c (kMonthsKept + 2) (prevMonth ym) = none := by
    cases hfind : findMonth c (kMonthsKept + 2) (prevMonth ym) with
    | none => rfl
    | some m =>
        refine absurd ⟨m, @newest_of_findMonth _ _ hym m (kMonthsKept + 2) 0
          (by decide) (fun j hj => ?_) hfind⟩ hno
        rw [Nat.le_zero.mp hj]
        exact hread
  rw [monthFor, hread, hfind]
  rfl

/-! ### The commit that keeps the history -/

/-- **A commit keeps the stored history exactly when it is careful**, for every
contents of the namespace and whatever calls fail. -/
theorem keepsHistory_iff (c : EnergyContents) (random : UInt32) (day : DayRecord)
    (script : List NvsFault) :
    KeepsHistory c random day script ↔ CommitCareful c random day script := by
  have heff : CommitEffect c random day (storeCommitDay random day (.ofContents c) script).out
      (storeCommitDay random day (.ofContents c) script).state (commitEvents c random day script) :=
    (wpObs_storeCommitDay c random day script fun _ _ => trivial).1
  cases heff with
  | kept hstored hsettled hw ho =>
      have hno : ¬ landed (commitEvents c random day script) = true := by rw [hw]; simp
      refine iff_of_true ⟨?_, ?_, fun _ => hw⟩
        ⟨fun h => absurd h hno, fun h => absurd h hno, fun h => absurd h hno⟩
      · intro i _ m hm slot _
        exact ⟨m, by rw [hstored]; exact hm, rfl⟩
      · intro m' hm'
        rw [hstored] at hm'
        have hself := newestAtOrBefore_self hm'
        exact ⟨fun m hm => .inl (by rw [hm.unique hself]), fun hnone => absurd ⟨m', hself⟩ hnone⟩
  | @stored m hismonth hm hdom hdate hswept hsettled hw ho =>
      have hself := readMonth_stored hismonth hswept
      constructor
      · intro h
        have hreads : NvsEvent.readError ∉ commitEvents c random day script := fun herr => by
          rw [h.ioError herr] at hw
          cases hw
        rw [hm hreads] at hself
        refine ⟨fun _ => hreads, fun _ m₀ hm₀ => ?_, fun _ m₀ hm₀ => ?_⟩
        · refine or_iff_not_imp_left.mpr fun hused => ?_
          obtain ⟨m', hm', hsame⟩ := h.records 0 (by decide) m₀ hm₀ _ hused
          rw [Function.iterate_zero_apply, hself, Option.some.injEq] at hm'
          rw [← hsame, ← hm']
          exact addDay_days_self _ _
        · refine or_iff_not_imp_left.mpr fun hfar => ?_
          have hlife := (h.lifetime _ hself).1 m₀ hm₀
          rw [monthFor_fresh hfar] at hlife
          exact hlife
      · intro h
        have hreads := h.reads hw
        rw [hm hreads] at hself
        refine ⟨?_, ?_, fun herr => absurd herr hreads⟩
        · intro i hi m₀ hm₀ slot hused
          cases i with
          | zero =>
              rw [Function.iterate_zero_apply] at hm₀ ⊢
              refine ⟨_, hself, ?_⟩
              have hbase : monthFor c random (monthOf day.date) = m₀ := by rw [monthFor, hm₀]
              rw [hbase]
              by_cases hslot : slot = daySlot day.date
              · subst hslot
                cases h.slot hw m₀ hm₀ with
                | inl hfree => exact absurd hfree hused
                | inr hsame =>
                    rw [hsame]
                    exact addDay_days_self _ _
              · exact Function.update_of_ne hslot _ _
          | succ i =>
              exact ⟨m₀, by rw [readMonth_kept hswept (Nat.succ_pos i) hi]; exact hm₀, rfl⟩
        · intro m' hm'
          rw [hself, Option.some.injEq] at hm'
          have hlife : m'.life = fold (monthFor c random (monthOf day.date)).life day := by
            rw [← hm']
            rfl
          refine ⟨fun m₀ hm₀ => ?_, fun hnone => ?_⟩
          · by_cases hnear : ∃ k ≤ kMonthsKept + 2,
                (readMonth c (prevMonth^[k] (monthOf day.date))).isSome
            · right
              rw [hlife, monthFor_carried hm₀ hnear]
            · cases h.lookBack hw m₀ hm₀ with
              | inl hnear' => exact absurd hnear' hnear
              | inr hsame =>
                  rw [hlife, monthFor_fresh hnear]
                  exact hsame
          · exact ⟨random ||| 1, by rw [hlife, monthFor_of_no_newest (monthOf_le _) hnone]⟩

/-! ### A failed read -/

/-- A month with one day in it, as a first commit stores it. -/
def januaryBlob : MonthBlob :=
  addDay (blankMonth 202401 (freshLifetime 7)) { (default : DayRecord) with date := 20240101 }

/-- The namespace after that commit. -/
def januaryContents : EnergyContents :=
  Function.update (fun _ => none) (.month 202401) (some (monthBlob.enc januaryBlob))

lemma readMonth_january : readMonth januaryContents 202401 = some januaryBlob := by
  have hmonth : IsMonth 202401 (blankMonth 202401 (freshLifetime 7)) := isMonth_blankMonth _ _
  exact hmonth.readMonth_addDay _ _

/-- The day after, committed while the read of its month fails once. -/
def secondOfJanuary : DayRecord := { (default : DayRecord) with date := 20240102 }

/-- **A failed read loses the month.** The commit takes the read error for a
month that does not exist, stores a month without the day of January 1st and
starts the totals over. -/
theorem not_keepsHistory_january :
    readMonth januaryContents 202401 = some januaryBlob ∧
      ¬ KeepsHistory januaryContents 9 secondOfJanuary [.none, .none, .error .fail false] := by
  refine ⟨readMonth_january, fun h => ?_⟩
  have hlanded : landed (commitEvents januaryContents 9 secondOfJanuary
      [.none, .none, .error .fail false]) = true := by decide +kernel
  have herror : NvsEvent.readError ∈ commitEvents januaryContents 9 secondOfJanuary
      [.none, .none, .error .fail false] := by decide +kernel
  rw [h.ioError herror] at hlanded
  cases hlanded

end ArcticController

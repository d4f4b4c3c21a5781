/-
What the calls of the energy store do to the namespace, whatever faults hit
them.

* `landed`: whether the month a call wrote reached the flash, read off the
  calls it made;
* `Swept`: some of the aged-out months are gone, all else is as before;
* `CommitEffect`: what `store_commit_day` leaves: the contents as they were, or
  the month with the day added and some aged-out months dropped;
* `wpObs_storeCommitDay`: those are all its endings;
* `runs_storeCommitDay`, `runs_storeReadDays`: the calls without faults;
* `runs_readDaysFrom`: the days a query returns, month by month.
-/
import ArcticController.Energy.EnergyStore

namespace ArcticController

/-! ### Failed reads and landed writes -/

/-- Nothing but failed reads. -/
def OnlyReadErrors (w : List NvsEvent) : Prop := ∀ e ∈ w, e = .readError

/-- The blob a call handed over reached the flash: it was taken, and the commit
that followed landed, whatever that commit reported. -/
def landed : List NvsEvent → Bool
  | .readError :: w => landed w
  | .set :: .commit reached :: _ => reached
  | _ => false

lemma onlyReadErrors_nil : OnlyReadErrors [] := fun _ h => absurd h List.not_mem_nil

lemma OnlyReadErrors.cons {w : List NvsEvent} (h : OnlyReadErrors w) :
    OnlyReadErrors (.readError :: w) := by
  intro e he
  cases List.mem_cons.mp he with
  | inl he => exact he
  | inr he => exact h e he

lemma OnlyReadErrors.eq_nil {w w' : List NvsEvent} (h : OnlyReadErrors w)
    (hno : NvsEvent.readError ∉ w ++ w') : w = [] := by
  cases w with
  | nil => rfl
  | cons e w =>
      have he := h e List.mem_cons_self
      exact absurd (by rw [he]; exact List.mem_append_left _ List.mem_cons_self) hno

lemma OnlyReadErrors.landed_append {w w' : List NvsEvent} (h : OnlyReadErrors w) :
    landed (w ++ w') = landed w' := by
  induction w with
  | nil => rfl
  | cons e w ih =>
      have he := h e List.mem_cons_self
      subst he
      exact ih fun e' he' => h e' (List.mem_cons_of_mem _ he')

/-! ### Walks over the months -/

/-- The `count` months back from `ym`, the month itself first. -/
def monthsBack : ℕ → UInt32 → List UInt32
  | 0, _ => []
  | count + 1, ym => ym :: monthsBack count (prevMonth ym)

lemma mem_monthsBack {count : ℕ} {ym x : UInt32} :
    x ∈ monthsBack count ym ↔ ∃ i < count, prevMonth^[i] ym = x := by
  induction count generalizing ym with
  | zero => simp [monthsBack]
  | succ count ih =>
      rw [monthsBack, List.mem_cons, ih]
      constructor
      · rintro (rfl | ⟨i, hi, rfl⟩)
        · exact ⟨0, by omega, rfl⟩
        · exact ⟨i + 1, by omega, Function.iterate_succ_apply _ _ _⟩
      · rintro ⟨i, hi, rfl⟩
        cases i with
        | zero => exact .inl rfl
        | succ i => exact .inr ⟨i, by omega, (Function.iterate_succ_apply _ _ _).symm⟩

/-- The months a commit to `ym` drops. -/
def agedOut (ym : UInt32) : List UInt32 := monthsBack 36 (prevMonth^[kMonthsKept] ym)

lemma mem_agedOut {ym x : UInt32} :
    x ∈ agedOut ym ↔ ∃ i, kMonthsKept ≤ i ∧ i < kMonthsKept + 36 ∧ prevMonth^[i] ym = x := by
  rw [agedOut, mem_monthsBack]
  constructor
  · rintro ⟨i, hi, rfl⟩
    exact ⟨i + kMonthsKept, by omega, by omega, Function.iterate_add_apply _ _ _ _⟩
  · rintro ⟨i, h1, h2, rfl⟩
    obtain ⟨d, rfl⟩ := Nat.exists_eq_add_of_le' h1
    exact ⟨d, by omega, (Function.iterate_add_apply _ _ _ _).symm⟩

/-- Some of the months named are gone, all else is as before. -/
structure Swept (months : List UInt32) (c c' : EnergyContents) : Prop where
  today : c' .today = c .today
  month : ∀ ym, c' (.month ym) = c (.month ym) ∨ ym ∈ months ∧ c' (.month ym) = none

lemma Swept.refl (months : List UInt32) (c : EnergyContents) : Swept months c c :=
  ⟨rfl, fun _ => .inl rfl⟩

lemma Swept.trans {months : List UInt32} {c c' c'' : EnergyContents} (h : Swept months c c')
    (h' : Swept months c' c'') : Swept months c c'' := by
  refine ⟨h'.today.trans h.today, fun ym => ?_⟩
  cases h'.month ym with
  | inl heq =>
      rw [heq]
      exact h.month ym
  | inr hgone => exact .inr hgone

lemma Swept.mono {months months' : List UInt32} {c c' : EnergyContents} (h : Swept months c c')
    (hsub : months ⊆ months') : Swept months' c c' := by
  refine ⟨h.today, fun ym => ?_⟩
  cases h.month ym with
  | inl heq => exact .inl heq
  | inr hgone => exact .inr ⟨hsub hgone.1, hgone.2⟩

/-- Dropping one month. -/
lemma swept_update {months : List UInt32} {ym : UInt32} (c : EnergyContents) (h : ym ∈ months) :
    Swept months c (Function.update c (.month ym) none) := by
  refine ⟨by simp, fun x => ?_⟩
  by_cases hx : x = ym
  · subst hx
    exact .inr ⟨h, by simp⟩
  · exact .inl (by simp [hx])

/-! ### Reading months -/

section Reading

variable {α : Type} {c : EnergyContents} {Q : Outcome EspErr α → Nvs EnergyKey → List NvsEvent → Prop}

/-- Reading one month: what the contents say, or nothing after a failed read. -/
lemma wpObs_loadMonth {ym : UInt32} {k : Option MonthBlob → EnergyM α}
    (hok : wpObs anyNvsFaults nvsEvent (k (readMonth c ym)) Q (.ofContents c))
    (herr : wpObs anyNvsFaults nvsEvent (k none) (fun o s' w => Q o s' (.readError :: w))
      (.ofContents c))
    (hcut : Q .cut (.ofContents c) []) :
    wpObs anyNvsFaults nvsEvent (loadMonth ym >>= k) Q (.ofContents c) := by
  refine wpObs_bind (wpObs_attempt_getBlob (fun blob hblob _ => ?_) (fun e hnone => ?_)
    (fun e => ?_) ?_)
  · have hread : readMonth c ym = decodeMonth ym blob := by
      rw [readMonth, ← Nvs.written_ofContents c, hblob, Option.bind_some]
    exact wpObs_pure (hread ▸ hok)
  · have hread : readMonth c ym = none := by
      rw [readMonth, Option.bind_eq_none_iff]
      intro blob hblob
      have hlen := hnone blob hblob
      rw [decodeMonth, if_neg (by omega)]
    exact wpObs_pure (hread ▸ hok)
  · exact wpObs_pure herr
  · exact hcut

/-- Looking back for the newest month: every look may miss a blob whose read
fails. -/
lemma wpObs_findMonthFrom (c : EnergyContents) : ∀ (looks : ℕ) (ym : UInt32)
    {Q : Outcome EspErr (Option MonthBlob) → Nvs EnergyKey → List NvsEvent → Prop},
    (∀ x w, OnlyReadErrors w → (w = [] → x = findMonth c looks ym) →
      Q (.val x) (.ofContents c) w) →
    (∀ w, OnlyReadErrors w → Q .cut (.ofContents c) w) →
    wpObs anyNvsFaults nvsEvent (findMonthFrom looks ym) Q (.ofContents c) := by
  intro looks
  induction looks with
  | zero => exact fun ym Q hval _ => wpObs_pure (hval none [] onlyReadErrors_nil fun _ => rfl)
  | succ looks ih =>
      intro ym Q hval hcut
      refine wpObs_loadMonth ?_ ?_ (hcut [] onlyReadErrors_nil)
      · cases hread : readMonth c ym with
        | some m =>
            refine wpObs_pure (hval _ [] onlyReadErrors_nil fun _ => ?_)
            simp [findMonth, hread]
        | none =>
            refine ih _ (fun x w hw hx => hval x w hw fun h => ?_) hcut
            simp only [findMonth, hread]
            exact hx h
      · exact ih _ (fun x w hw _ => hval x _ hw.cons (fun h => absurd h (List.cons_ne_nil _ _)))
          fun w hw => hcut _ hw.cons

/-- The fields every month blob of the right number has. -/
structure IsMonth (ym : UInt32) (m : MonthBlob) : Prop where
  magic : m.magic = kMonthMagic
  version : m.version = kVersion
  recordSize : m.recordSize = 112
  yyyymm : m.yyyymm = ym

lemma IsMonth.of_valid {ym : UInt32} {m : MonthBlob} (h : monthValid ym m = true) :
    IsMonth ym m := by
  simp only [monthValid, Bool.and_eq_true, beq_iff_eq] at h
  obtain ⟨⟨⟨⟨h1, h2⟩, h3⟩, h4⟩, -⟩ := h
  exact ⟨h1, h2, UInt16.toNat_inj.mp (by rw [h3, dayRecord_size]; rfl), h4⟩

lemma isMonth_blankMonth (ym : UInt32) (life : Lifetime) : IsMonth ym (blankMonth ym life) :=
  ⟨rfl, rfl, rfl, rfl⟩

lemma IsMonth.readMonth_addDay {ym : UInt32} {m : MonthBlob} (h : IsMonth ym m)
    (c : EnergyContents) (day : DayRecord) :
    readMonth (Function.update c (.month ym) (some (monthBlob.enc (addDay m day)))) ym
      = some (addDay m day) := by
  rw [readMonth, Function.update_self, Option.bind_some]
  exact decodeMonth_enc (monthValid_addDay_of_fields day h.magic h.version h.recordSize h.yyyymm)

/-- The blob a day is added to. -/
lemma wpObs_loadOrStartMonth {random ym : UInt32} {k : MonthBlob → EnergyM α}
    (hval : ∀ m w, OnlyReadErrors w → IsMonth ym m → (w = [] → m = monthFor c random ym) →
      wpObs anyNvsFaults nvsEvent (k m) (fun o s' w' => Q o s' (w ++ w')) (.ofContents c))
    (hcut : ∀ w, OnlyReadErrors w → Q .cut (.ofContents c) w) :
    wpObs anyNvsFaults nvsEvent (loadOrStartMonth random ym >>= k) Q (.ofContents c) := by
  refine wpObs_bind (wpObs_loadMonth ?_ ?_ (hcut [] onlyReadErrors_nil))
  · cases hread : readMonth c ym with
    | some m =>
        exact wpObs_pure (hval m [] onlyReadErrors_nil (IsMonth.of_valid (readMonth_valid hread))
          fun _ => by simp [monthFor, hread])
    | none =>
        refine wpObs_bind (wpObs_findMonthFrom c _ _ (fun x w hw hx => ?_) hcut)
        refine wpObs_pure ?_
        rw [List.append_nil]
        exact hval _ w hw (isMonth_blankMonth _ _) fun h => by simp [monthFor, hread, hx h]
  · refine wpObs_bind (wpObs_findMonthFrom c _ _ (fun x w hw _ => ?_) fun w hw => hcut _ hw.cons)
    refine wpObs_pure ?_
    rw [List.append_nil]
    exact hval _ _ hw.cons (isMonth_blankMonth _ _) fun h => absurd h (List.cons_ne_nil _ _)

end Reading

/-! ### Committing a day -/

lemma wpObs_eraseAgedOut : ∀ (count : ℕ) (old : UInt32) (c : EnergyContents)
    {Q : Outcome EspErr Unit → Nvs EnergyKey → List NvsEvent → Prop},
    (∀ c' w, Swept (monthsBack count old) c c' → Q (.val ()) (.ofContents c') w) →
    (∀ s' w, Swept (monthsBack count old) c s'.stored → Q .cut s' w) →
    wpObs anyNvsFaults nvsEvent (eraseAgedOut count old) Q (.ofContents c) := by
  intro count
  induction count with
  | zero => exact fun old c Q hval _ => wpObs_pure (hval c [] (Swept.refl _ _))
  | succ count ih =>
      intro old c Q hval hcut
      have hsub : monthsBack count (prevMonth old) ⊆ monthsBack (count + 1) old :=
        List.subset_cons_self _ _
      -- the months before `old`, once `old` is settled
      have hrest : ∀ c' pre, Swept (monthsBack (count + 1) old) c c' →
          wpObs anyNvsFaults nvsEvent (eraseAgedOut count (prevMonth old))
            (fun o s' w => Q o s' (pre ++ w)) (.ofContents c') := fun c' pre hc' =>
        ih _ _ (fun c'' w hw => hval c'' _ (hc'.trans (hw.mono hsub)))
          fun s' w hw => hcut s' _ (hc'.trans (hw.mono hsub))
      have herased := swept_update c (List.mem_cons_self : old ∈ monthsBack (count + 1) old)
      have hcommit : ∀ landed : Bool, Swept (monthsBack (count + 1) old) c
          (if landed then Function.update c (.month old) none else c) := by
        intro landed
        cases landed
        · exact Swept.refl _ _
        · exact herased
      refine wpObs_attempt_eraseKey ?_ (fun e => ?_) (hcut _ _ (Swept.refl _ _))
      · refine wpObs_attempt_commit (hrest _ [_] herased) (fun e landed => hrest _ [_] (hcommit landed))
          fun landed => ?_
        exact hcut _ _ (hcommit landed)
      · exact hrest c [] (Swept.refl _ _)

/-- What `store_commit_day` leaves of a settled namespace with the contents
`c`. -/
inductive CommitEffect (c : EnergyContents) (random : UInt32) (day : DayRecord) :
    Outcome EspErr (Option Lifetime) → Nvs EnergyKey → List NvsEvent → Prop
  /-- Nothing reached the flash; a success says the day is counted already. -/
  | kept {o : Outcome EspErr (Option Lifetime)} {s' : Nvs EnergyKey} {w : List NvsEvent}
      (hstored : s'.stored = c) (hsettled : o ≠ .cut → s'.Settled) (hw : landed w = false)
      (ho : ∀ life, o = .val (some life) →
        ∃ m, (NvsEvent.readError ∉ w → m = monthFor c random (monthOf day.date)) ∧
          day.date ≤ m.life.throughDate ∧ life = m.life) :
      CommitEffect c random day o s' w
  /-- The month with the day added reached the flash, and some aged-out months
  are gone. -/
  | stored {o : Outcome EspErr (Option Lifetime)} {s' : Nvs EnergyKey} {w : List NvsEvent}
      {m : MonthBlob} (hmonth : IsMonth (monthOf day.date) m)
      (hm : NvsEvent.readError ∉ w → m = monthFor c random (monthOf day.date))
      (hdom : 1 ≤ day.date.toNat % 100 ∧ day.date.toNat % 100 ≤ 31)
      (hdate : m.life.throughDate < day.date)
      (hswept : Swept (agedOut (monthOf day.date))
        (Function.update c (.month (monthOf day.date)) (some (monthBlob.enc (addDay m day))))
        s'.stored)
      (hsettled : o ≠ .cut → s'.Settled) (hw : landed w = true)
      (ho : ∀ life, o = .val (some life) → life = fold m.life day) :
      CommitEffect c random day o s' w

/-- A month of the day's number is 1 to 31 where the source does not refuse it. -/
lemma dom_of_not_refused {date : UInt32} (h : ¬ (date % 100 < 1 ∨ date % 100 > 31)) :
    1 ≤ date.toNat % 100 ∧ date.toNat % 100 ≤ 31 := by
  rw [not_or, UInt32.lt_iff_toNat_lt, gt_iff_lt, UInt32.lt_iff_toNat_lt] at h
  simp at h
  omega

/-- Every ending of `store_commit_day`. -/
theorem wpObs_storeCommitDay (c : EnergyContents) (random : UInt32) (day : DayRecord) :
    wpObs anyNvsFaults nvsEvent (storeCommitDay random day) (CommitEffect c random day)
      (.ofContents c) := by
  have hsettled := Nvs.settled_ofContents c
  have hnothing : ∀ w, landed w = false →
      CommitEffect c random day (.val none) (.ofContents c) w := fun w hw =>
    .kept rfl (fun _ => hsettled) hw fun life h => by simp at h
  have hlost : ∀ w, landed w = false → CommitEffect c random day .cut (.ofContents c) w :=
    fun w hw => .kept rfl (fun h => absurd rfl h) hw fun life h => nomatch h
  rw [storeCommitDay]
  by_cases hdom : day.date % 100 < 1 ∨ day.date % 100 > 31
  · exact wpObs_if_pos hdom (wpObs_pure (hnothing [] rfl))
  refine wpObs_if_neg hdom ?_
  refine wpObs_attempt_plain (fun _ => rfl) ?_ (fun _ => wpObs_pure (hnothing [] rfl)) (hlost [] rfl)
  refine wpObs_attempt_plain (fun _ => rfl) ?_ (fun _ => wpObs_pure (hnothing [] rfl)) (hlost [] rfl)
  refine wpObs_loadOrStartMonth (fun m w hw hmonth hm => ?_)
    fun w hw => hlost w (by rw [← List.append_nil w, hw.landed_append]; rfl)
  have hfrom : ∀ w', NvsEvent.readError ∉ w ++ w' → m = monthFor c random (monthOf day.date) :=
    fun w' hno => hm (hw.eq_nil hno)
  by_cases hdate : day.date ≤ m.life.throughDate
  · refine wpObs_if_pos hdate (wpObs_pure (.kept rfl (fun _ => hsettled) ?_ fun life hlife => ?_))
    · rw [hw.landed_append]; rfl
    · simp only [Outcome.val.injEq, Option.some.injEq] at hlife
      exact ⟨m, hfrom [], hdate, hlife.symm⟩
  refine wpObs_if_neg hdate ?_
  -- the month written, and any of the months it ages out dropped
  have hlanded : ∀ {o : Outcome EspErr (Option Lifetime)} {s' : Nvs EnergyKey} {w' : List NvsEvent},
      Swept (agedOut (monthOf day.date))
        (Function.update c (.month (monthOf day.date)) (some (monthBlob.enc (addDay m day))))
        s'.stored →
      (o ≠ .cut → s'.Settled) → (∀ life, o = .val (some life) → life = fold m.life day) →
      CommitEffect c random day o s' (w ++ .set :: .commit true :: w') :=
    fun hswept hset ho => .stored hmonth (hfrom _) (dom_of_not_refused hdom) (UInt32.not_le.mp hdate) hswept
      hset (by rw [hw.landed_append]; rfl) ho
  refine wpObs_attempt_setBlob ?_ (fun e => wpObs_pure ?_) ?_
  · refine wpObs_attempt_commit ?_ (fun e reached => wpObs_pure ?_) (fun reached => ?_)
    · refine wpObs_bind (wpObs_eraseAgedOut _ _ _ (fun c' w' hc' => wpObs_pure ?_)
        fun s' w' hs' => ?_)
      · rw [List.append_nil]
        refine hlanded hc' (fun _ => Nvs.settled_ofContents _) fun life hlife => ?_
        simp only [Outcome.val.injEq, Option.some.injEq] at hlife
        exact hlife.symm
      · exact hlanded hs' (fun h => absurd rfl h) fun life hlife => nomatch hlife
    · cases reached with
      | false => exact hnothing _ (by rw [hw.landed_append]; rfl)
      | true =>
          exact hlanded (Swept.refl _ _) (fun _ => Nvs.settled_ofContents _)
            fun life hlife => by simp at hlife
    · cases reached with
      | false => exact hlost _ (by rw [hw.landed_append]; rfl)
      | true =>
          exact hlanded (Swept.refl _ _) (fun h => absurd rfl h)
            fun life hlife => nomatch hlife
  · exact hnothing _ (by rw [hw.landed_append]; rfl)
  · exact hlost _ (by rw [hw.landed_append]; rfl)

/-! ### Calls without faults -/

section Quiet

open FaultM

variable {c : EnergyContents}

lemma runs_loadMonth (c : EnergyContents) (ym : UInt32) :
    Runs (loadMonth ym) (.ofContents c) (readMonth c ym) (.ofContents c) := by
  by_cases h : ∃ blob, c (.month ym) = some blob ∧ blob.length ≤ monthBlob.size
  · obtain ⟨blob, hblob, hlen⟩ := h
    have hread : readMonth c ym = decodeMonth ym blob := by rw [readMonth, hblob, Option.bind_some]
    rw [hread]
    exact (runs_getBlob hblob hlen).bind (runs_pure _ _)
  · have hlong : ∀ blob, c (.month ym) = some blob → monthBlob.size < blob.length := by
      intro blob hblob
      by_contra hlen
      exact h ⟨blob, hblob, not_lt.mp hlen⟩
    have hread : readMonth c ym = none := by
      rw [readMonth, Option.bind_eq_none_iff]
      intro blob hblob
      have hlen := hlong blob hblob
      rw [decodeMonth, if_neg (by omega)]
    obtain ⟨e, he⟩ := runs_getBlob_error (s := .ofContents c) hlong
    rw [hread]
    exact he.bind (runs_pure _ _)

lemma runs_findMonthFrom (c : EnergyContents) : ∀ (looks : ℕ) (ym : UInt32),
    Runs (findMonthFrom looks ym) (.ofContents c) (findMonth c looks ym) (.ofContents c) := by
  intro looks
  induction looks with
  | zero => exact fun ym => runs_pure _ _
  | succ looks ih =>
      intro ym
      refine (runs_loadMonth c ym).bind ?_
      rw [findMonth]
      cases hread : readMonth c ym with
      | some m => exact runs_pure _ _
      | none => exact ih _

lemma runs_loadOrStartMonth (c : EnergyContents) (random ym : UInt32) :
    Runs (loadOrStartMonth random ym) (.ofContents c) (monthFor c random ym) (.ofContents c) := by
  refine (runs_loadMonth c ym).bind ?_
  rw [monthFor]
  cases hread : readMonth c ym with
  | some m => exact runs_pure _ _
  | none => exact (runs_findMonthFrom c _ _).bind (runs_pure _ _)

lemma runs_eraseAgedOut : ∀ (count : ℕ) (old : UInt32) (c : EnergyContents),
    ∃ c', Runs (eraseAgedOut count old) (.ofContents c) () (.ofContents c') := by
  intro count
  induction count with
  | zero => exact fun old c => ⟨c, runs_pure _ _⟩
  | succ count ih =>
      intro old c
      cases runs_eraseKey (EnergyKey.month old) (.ofContents c) with
      | inl herr =>
          obtain ⟨e, he⟩ := herr
          obtain ⟨c', hc'⟩ := ih (prevMonth old) c
          exact ⟨c', he.bind hc'⟩
      | inr hok =>
          obtain ⟨c', hc'⟩ := ih (prevMonth old) (Function.update c (.month old) none)
          exact ⟨c', hok.bind ((runs_commit _).attempt.bind hc')⟩

/-- Without faults a day with a number from 1 to 31 is committed. -/
lemma runs_storeCommitDay (c : EnergyContents) (random : UInt32) {day : DayRecord}
    (hdom : 1 ≤ day.date.toNat % 100 ∧ day.date.toNat % 100 ≤ 31) :
    ∃ life c', Runs (storeCommitDay random day) (.ofContents c) (some life) (.ofContents c') := by
  have hnot : ¬ (day.date % 100 < 1 ∨ day.date % 100 > 31) := by
    rw [not_or, UInt32.lt_iff_toNat_lt, gt_iff_lt, UInt32.lt_iff_toNat_lt]
    simp
    omega
  rw [storeCommitDay, if_neg hnot]
  by_cases hdate : day.date ≤ (monthFor c random (monthOf day.date)).life.throughDate
  · refine ⟨(monthFor c random (monthOf day.date)).life, c, ?_⟩
    refine (runs_plain _ _).attempt.bind ((runs_plain _ _).attempt.bind
      ((runs_loadOrStartMonth c _ _).bind ?_))
    rw [if_pos hdate]
    exact runs_pure _ _
  · obtain ⟨c', hc'⟩ := runs_eraseAgedOut 36 (prevMonth^[kMonthsKept] (monthOf day.date))
      (Function.update c (.month (monthOf day.date))
        (some (monthBlob.enc (addDay (monthFor c random (monthOf day.date)) day))))
    refine ⟨(addDay (monthFor c random (monthOf day.date)) day).life, c', ?_⟩
    refine (runs_plain _ _).attempt.bind ((runs_plain _ _).attempt.bind
      ((runs_loadOrStartMonth c _ _).bind ?_))
    rw [if_neg hdate]
    exact (runs_setBlob _ _ _).attempt.bind ((runs_commit _).attempt.bind
      (hc'.bind (runs_pure _ _)))

/-! ### Reading days -/

lemma take_append_take {α : Type} (n : ℕ) (l l' : List α) : (l.take n ++ l').take n = (l ++ l').take n := by
  rw [List.take_append, List.take_append, List.take_take, min_self, List.length_take]
  rcases le_total n l.length with h | h
  · rw [min_eq_left h, Nat.sub_self, Nat.sub_eq_zero_of_le h]
  · rw [min_eq_right h]

/-- Pushing what a test accepts while there is room. -/
lemma foldl_push_room {α : Type} (n : ℕ) (p : α → Bool) (l : List α) : ∀ out : List α,
    out.length ≤ n →
    l.foldl (fun out r => if out.length < n && p r then out ++ [r] else out) out
      = (out ++ l.filter p).take n := by
  induction l with
  | nil =>
      intro out hout
      rw [List.foldl_nil, List.filter_nil, List.append_nil, List.take_of_length_le hout]
  | cons r l ih =>
      intro out hout
      rw [List.foldl_cons, List.filter_cons]
      by_cases hp : p r = true
      · rw [if_pos hp]
        by_cases hlen : out.length < n
        · rw [if_pos (by simp [hlen, hp]), ih _ (by simpa using hlen)]
          simp
        · have hfull : out.length = n := by omega
          rw [if_neg (by simp [hlen]), ih out hout, List.take_left' hfull, List.take_left' hfull]
      · rw [if_neg (by simp [hp]), ih out hout, if_neg hp]

lemma appendDays_eq {fromDate toDate : UInt32} {capacity : ℕ} (m : MonthBlob) {out : List DayRecord}
    (h : out.length ≤ capacity) : appendDays fromDate toDate capacity m out
      = (out ++ (List.ofFn m.days).filter (inRange fromDate toDate)).take capacity :=
  foldl_push_room capacity _ _ out h

/-- The days of a month in the range, if the month has a blob. -/
def monthDays (c : EnergyContents) (fromDate toDate ym : UInt32) : List DayRecord :=
  match readMonth c ym with
  | none => []
  | some m => (List.ofFn m.days).filter (inRange fromDate toDate)

/-- The months a query visits. -/
def monthsForth : ℕ → UInt32 → UInt32 → List UInt32
  | 0, _, _ => []
  | fuel + 1, ym, last => if ym ≤ last then ym :: monthsForth fuel (nextMonth ym) last else []

/-- A query returns the days of the months it visits, as far as they fit. -/
lemma runs_readDaysFrom (c : EnergyContents) (fromDate toDate : UInt32) (capacity : ℕ) :
    ∀ (fuel : ℕ) (ym : UInt32) (out : List DayRecord), out.length ≤ capacity →
    Runs (readDaysFrom fromDate toDate capacity fuel ym out) (.ofContents c)
      ((out ++ (monthsForth fuel ym (monthOf toDate)).flatMap (monthDays c fromDate toDate)).take
        capacity) (.ofContents c) := by
  intro fuel
  induction fuel with
  | zero =>
      intro ym out hout
      rw [monthsForth, List.flatMap_nil, List.append_nil, List.take_of_length_le hout]
      exact runs_pure _ _
  | succ fuel ih =>
      intro ym out hout
      rw [readDaysFrom, monthsForth]
      by_cases hym : ym ≤ monthOf toDate
      · rw [if_pos hym, List.flatMap_cons]
        by_cases hroom : out.length < capacity
        · rw [if_pos ⟨hym, hroom⟩]
          refine (runs_loadMonth c ym).bind ?_
          rw [monthDays]
          cases hread : readMonth c ym with
          | none =>
              rw [List.nil_append]
              exact ih _ out hout
          | some m =>
              have hlen : (appendDays fromDate toDate capacity m out).length ≤ capacity := by
                rw [appendDays_eq m hout, List.length_take]
                exact min_le_left _ _
              have hrest := ih (nextMonth ym) _ hlen
              rw [appendDays_eq m hout, take_append_take, List.append_assoc,
                ← appendDays_eq m hout] at hrest
              exact hrest
        · have hfull : out.length = capacity := by omega
          rw [if_neg (fun h => hroom h.2), List.take_left' hfull]
          exact runs_pure _ _
      · rw [if_neg hym, if_neg (fun h => hym h.1), List.flatMap_nil, List.append_nil,
          List.take_of_length_le hout]
        exact runs_pure _ _

/-- What `store_read_days` returns without faults. -/
lemma runs_storeReadDays (c : EnergyContents) (fromDate toDate : UInt32) (capacity : ℕ)
    (h : fromDate ≤ toDate) :
    Runs (storeReadDays fromDate toDate capacity) (.ofContents c)
      (((monthsForth ((monthOf toDate).toNat - (monthOf fromDate).toNat + 1) (monthOf fromDate)
        (monthOf toDate)).flatMap (monthDays c fromDate toDate)).take capacity)
      (.ofContents c) := by
  rw [storeReadDays]
  by_cases hcap : capacity = 0
  · rw [if_pos (.inr hcap), hcap, List.take_zero]
    exact runs_pure _ _
  · rw [if_neg (by rw [not_or]; exact ⟨UInt32.not_lt.mpr h, hcap⟩)]
    have hrun := runs_readDaysFrom c fromDate toDate capacity
      ((monthOf toDate).toNat - (monthOf fromDate).toNat + 1) (monthOf fromDate) [] (Nat.zero_le _)
    rw [List.nil_append] at hrun
    exact (runs_plain _ _).attempt.bind ((runs_plain _ _).attempt.bind hrun)

end Quiet

end ArcticController

/-
The month store is an exactly-once fold of the days committed to it
(`energy_store.cpp`).

* `foldDays`, `daysIn`: the lifetime totals and the month records a list of
  days stands for, in their own terms;
* `MonthStore`: the contents hold the days `days`: every month blob carries the
  totals through its month and the days of its month, and the last
  `kMonthsKept` months are there;
* `MonthStore.commit`: what a commit makes of it, whatever fails;
* `MonthStore.readDays`: a query returns the days whose month is still there;
* `month_store_fold`: **over every run of commits and reboots** from an empty
  store the newest totals are the fold of the days that landed, each once.
-/
import ArcticController.Energy.EnergyStoreSpec

namespace ArcticController

/-! ### Lists sorted by a key -/

section Sorted

variable {α : Type}

/-- Two disjoint parts of a list, one before the other. -/
lemma filter_append_filter (p q : α → Bool) (l : List α)
    (hsort : l.Pairwise fun a b => q a = true → p b = false)
    (hdisj : ∀ a ∈ l, p a = true → q a = false) :
    l.filter p ++ l.filter q = l.filter fun a => p a || q a := by
  induction l with
  | nil => rfl
  | cons a l ih =>
      obtain ⟨ha, hl⟩ := List.pairwise_cons.mp hsort
      have hrest := ih hl fun b hb => hdisj b (List.mem_cons_of_mem _ hb)
      simp only [List.filter_cons]
      cases hp : p a with
      | true =>
          have hq := hdisj a List.mem_cons_self hp
          simp only [hq, Bool.or_false, if_true, Bool.false_eq_true, if_false, List.cons_append, hrest]
      | false =>
          cases hq : q a with
          | false => simpa [hp, hq] using hrest
          | true =>
              have hnone : l.filter p = [] := by
                rw [List.filter_eq_nil_iff]
                intro b hb
                simp [ha b hb hq]
              rw [hnone, List.nil_append] at hrest
              simp [hnone, hrest]

/-- A list sorted by a key, taken apart by key values and put together. -/
lemma flatMap_filter_key (key : α → ℕ) {l : List α} (hsort : l.Pairwise fun a b => key a ≤ key b) :
    ∀ ks : List ℕ, ks.Pairwise (· < ·) →
      ks.flatMap (fun k => l.filter fun a => key a == k) = l.filter fun a => ks.contains (key a) := by
  intro ks
  induction ks with
  | nil => intro _; simp
  | cons k ks ih =>
      intro hks
      obtain ⟨hk, hks'⟩ := List.pairwise_cons.mp hks
      rw [List.flatMap_cons, ih hks', filter_append_filter]
      · refine List.filter_congr fun a _ => ?_
        simp only [List.contains_cons]
      · refine hsort.imp fun {a b} hab hq => ?_
        have hlt := hk _ (List.contains_iff_mem.mp hq)
        rw [beq_eq_false_iff_ne]
        omega
      · intro a _ hp
        rw [beq_iff_eq] at hp
        rw [← Bool.not_eq_true, List.contains_iff_mem]
        intro hmem
        exact absurd (hk _ hmem) (by omega)

/-- Setting an entry behind all that pass a test. -/
lemma filter_set_of_drop (p : α → Bool) (l : List α) (k : ℕ) (hk : k < l.length) (d : α)
    (hdrop : ∀ x ∈ l.drop k, p x = false) :
    (l.set k d).filter p = l.filter p ++ [d].filter p := by
  have hnil : ∀ j, k ≤ j → (l.drop j).filter p = [] := by
    intro j hj
    rw [List.filter_eq_nil_iff]
    intro x hx
    have hmem : x ∈ l.drop k := (List.drop_sublist_drop_left l hj).mem hx
    simp [hdrop x hmem]
  rw [List.set_eq_take_append_cons_drop, if_pos hk, List.filter_append]
  conv_rhs => rw [← List.take_append_drop k l, List.filter_append, hnil k le_rfl, List.append_nil]
  rw [← List.singleton_append, List.filter_append, hnil (k + 1) (Nat.le_succ k), List.append_nil]

end Sorted

/-! ### The days a store stands for -/

/-- The totals over a list of days, from zero under `resetId`. -/
def foldDays (resetId : UInt32) (days : List DayRecord) : Lifetime :=
  days.foldl fold (freshLifetime resetId)

/-- The slots of a month after the days of a list were put in one by one. -/
def placeDays (days : List DayRecord) : Fin 31 → DayRecord :=
  days.foldl (fun slots d => Function.update slots (daySlot d.date) d) fun _ => default

/-- The month records of the days of a list that fall in the month `ym`. -/
def daysIn (ym : UInt32) (days : List DayRecord) : Fin 31 → DayRecord :=
  placeDays (days.filter fun d => monthOf d.date == ym)

lemma placeDays_concat (days : List DayRecord) (day : DayRecord) :
    placeDays (days ++ [day]) = Function.update (placeDays days) (daySlot day.date) day :=
  List.foldl_concat _ _ _ _

lemma foldDays_concat (resetId : UInt32) (days : List DayRecord) (day : DayRecord) :
    foldDays resetId (days ++ [day]) = fold (foldDays resetId days) day := by
  rw [foldDays, List.foldl_concat, ← foldDays]

variable {days : List DayRecord} {ym : UInt32} {c : EnergyContents}

/-- The totals end with the last day. -/
lemma foldDays_throughDate {resetId : UInt32} (h : days ≠ []) :
    (foldDays resetId days).throughDate = (days.getLast h).date := by
  induction days using List.reverseRecOn with
  | nil => exact absurd rfl h
  | append_singleton days day _ => rw [foldDays_concat, fold_throughDate, List.getLast_append_singleton]

lemma daysIn_concat_self (days : List DayRecord) {day : DayRecord} (h : monthOf day.date = ym) :
    daysIn ym (days ++ [day]) = Function.update (daysIn ym days) (daySlot day.date) day := by
  have hone : [day].filter (fun d => monthOf d.date == ym) = [day] := by simp [h]
  rw [daysIn, List.filter_append, hone, placeDays_concat, ← daysIn]

lemma daysIn_concat_of_ne (days : List DayRecord) {day : DayRecord} (h : monthOf day.date ≠ ym) :
    daysIn ym (days ++ [day]) = daysIn ym days := by
  simp [daysIn, List.filter_append, h]

lemma daysIn_of_forall_ne (h : ∀ d ∈ days, monthOf d.date ≠ ym) :
    daysIn ym days = fun _ => default := by
  have hnil : (days.filter fun d => monthOf d.date == ym) = [] := by
    rw [List.filter_eq_nil_iff]
    intro d hd
    simpa using h d hd
  rw [daysIn, hnil]
  rfl

/-! ### The records of a month, in order -/

/-- Dates a month blob has a slot for. -/
def ValidDom (date : UInt32) : Prop := 1 ≤ date.toNat % 100 ∧ date.toNat % 100 ≤ 31

lemma daySlot_val {date : UInt32} (h : ValidDom date) :
    (daySlot date).val = date.toNat % 100 - 1 := by
  obtain ⟨h1, h2⟩ := h
  have hmod : (date % 100).toNat = date.toNat % 100 := by simp
  simp only [daySlot, Fin.ofNat, hmod]
  omega

lemma monthOf_toNat (date : UInt32) : (monthOf date).toNat = date.toNat / 100 := by
  simp [monthOf]

lemma daySlot_lt {a b : UInt32} (ha : ValidDom a) (hb : ValidDom b) (hm : monthOf a = monthOf b)
    (h : a < b) : daySlot a < daySlot b := by
  rw [Fin.lt_def, daySlot_val ha, daySlot_val hb]
  obtain ⟨ha1, -⟩ := ha
  rw [UInt32.lt_iff_toNat_lt] at h
  have hm' : a.toNat / 100 = b.toNat / 100 := by rw [← monthOf_toNat, hm, monthOf_toNat]
  omega

lemma ofFn_update {n : ℕ} {α : Type} (f : Fin n → α) (k : Fin n) (d : α) :
    List.ofFn (Function.update f k d) = (List.ofFn f).set k d := by
  refine List.ext_getElem (by simp) fun i h1 h2 => ?_
  simp only [List.getElem_ofFn, List.getElem_set, Function.update_apply, Fin.ext_iff, eq_comm]

/-- A month read slot by slot gives its days in order. -/
lemma filter_ofFn_slots (p : DayRecord → Bool) (hp : p default = false) (days : List DayRecord)
    (hsort : days.Pairwise fun a b => daySlot a.date < daySlot b.date) :
    (List.ofFn (placeDays days)).filter p = days.filter p ∧
      ∀ slot, (∀ d ∈ days, daySlot d.date < slot) → placeDays days slot = default := by
  induction days using List.reverseRecOn with
  | nil =>
      refine ⟨?_, fun _ _ => rfl⟩
      rw [List.filter_nil, List.filter_eq_nil_iff]
      intro x hx
      obtain ⟨i, rfl⟩ := (List.mem_ofFn' _ _).mp hx
      simp [placeDays, hp]
  | append_singleton days day ih =>
      obtain ⟨hdays, -, hlast⟩ := List.pairwise_append.mp hsort
      obtain ⟨ih1, ih2⟩ := ih hdays
      have hbelow : ∀ d ∈ days, daySlot d.date < daySlot day.date := fun d hd =>
        hlast d hd day (List.mem_singleton_self _)
      rw [placeDays_concat]
      constructor
      · rw [ofFn_update, filter_set_of_drop, ih1, List.filter_append]
        · simp
        · intro x hx
          obtain ⟨i, hi, rfl⟩ := List.getElem_of_mem hx
          rw [List.length_drop, List.length_ofFn] at hi
          rw [List.getElem_drop, List.getElem_ofFn, ih2 _ fun d hd => ?_]
          · exact hp
          · refine lt_of_lt_of_le (hbelow d hd) ?_
            rw [Fin.le_def]
            exact Nat.le_add_right _ _
      · intro slot hslot
        have hday := hslot day (by simp)
        rw [Function.update_of_ne (ne_of_gt hday)]
        exact ih2 slot fun d hd => hslot d (List.mem_append_left _ hd)

/-! ### The invariant -/

/-- The contents `c` hold the days `days`, counted under `resetId`. -/
structure MonthStore (resetId : UInt32) (days : List DayRecord) (c : EnergyContents) : Prop where
  sorted : days.Pairwise fun a b => a.date < b.date
  month : ∀ d ∈ days, ValidMonth (monthOf d.date)
  dom : ∀ d ∈ days, ValidDom d.date
  /-- A blob belongs to a month with a day, and holds the totals through it. -/
  blob : ∀ ym m, readMonth c ym = some m → (∃ d ∈ days, monthOf d.date = ym) ∧
    m.life = foldDays resetId (days.filter fun d => monthOf d.date ≤ ym) ∧ m.days = daysIn ym days
  /-- The newest months are there. -/
  recent : ∀ d ∈ days,
    (∀ e ∈ days, monthIndex (monthOf e.date) < monthIndex (monthOf d.date) + kMonthsKept) →
      (readMonth c (monthOf d.date)).isSome

namespace MonthStore

variable {resetId : UInt32} {days : List DayRecord} {c : EnergyContents}

/-- A store without months. -/
lemma empty (resetId : UInt32) (h : ∀ ym, readMonth c ym = none) : MonthStore resetId [] c where
  sorted := List.Pairwise.nil
  month d hd := absurd hd List.not_mem_nil
  dom d hd := absurd hd List.not_mem_nil
  blob ym m hm := by rw [h ym] at hm; cases hm
  recent d hd := absurd hd List.not_mem_nil

lemma date_le_getLast (h : MonthStore resetId days c) (hne : days ≠ []) {d : DayRecord}
    (hd : d ∈ days) : d.date ≤ (days.getLast hne).date := by
  obtain hlast | hlt : d = days.getLast hne ∨ d.date < (days.getLast hne).date := by
    rw [← List.dropLast_append_getLast hne] at hd
    have hsort := h.sorted
    rw [← List.dropLast_append_getLast hne] at hsort
    cases List.mem_append.mp hd with
    | inl hd =>
        exact .inr ((List.pairwise_append.mp hsort).2.2 d hd _ (List.mem_singleton_self _))
    | inr hd => exact .inl (List.mem_singleton.mp hd)
  · rw [hlast]
    exact UInt32.le_refl _
  · exact UInt32.le_of_lt hlt

lemma readMonth_nil (h : MonthStore resetId [] c) (ym : UInt32) : readMonth c ym = none := by
  cases hread : readMonth c ym with
  | none => rfl
  | some m =>
      obtain ⟨⟨d, hd, -⟩, -⟩ := h.blob ym m hread
      exact absurd hd List.not_mem_nil

/-- Nothing is stored after the last day's month. -/
lemma readMonth_of_gt (h : MonthStore resetId days c) (hne : days ≠ []) {ym : UInt32}
    (hgt : monthOf (days.getLast hne).date < ym) : readMonth c ym = none := by
  cases hread : readMonth c ym with
  | none => rfl
  | some m =>
      obtain ⟨⟨d, hd, rfl⟩, -⟩ := h.blob ym m hread
      have hle := monthOf_mono (h.date_le_getLast hne hd)
      exact absurd hle (UInt32.not_le.mpr hgt)

lemma filter_month_le (h : MonthStore resetId days c) (hne : days ≠ []) {ym : UInt32}
    (hle : monthOf (days.getLast hne).date ≤ ym) :
    (days.filter fun d => monthOf d.date ≤ ym) = days := by
  rw [List.filter_eq_self]
  intro d hd
  have hd' := monthOf_mono (h.date_le_getLast hne hd)
  exact decide_eq_true (UInt32.le_trans hd' hle)

/-- The last day's month is there, with the totals over all days. -/
lemma newest (h : MonthStore resetId days c) (hne : days ≠ []) :
    ∃ m, readMonth c (monthOf (days.getLast hne).date) = some m ∧ m.life = foldDays resetId days := by
  have hmem := List.getLast_mem hne
  obtain ⟨m, hm⟩ := Option.isSome_iff_exists.mp (h.recent _ hmem fun e he => by
    have hle := (ValidMonth.index_le_iff (h.month e he) (h.month _ hmem)).mpr
      (monthOf_mono (h.date_le_getLast hne he))
    simp only [kMonthsKept]
    omega)
  refine ⟨m, hm, ?_⟩
  rw [(h.blob _ _ hm).2.1, h.filter_month_le hne (UInt32.le_refl _)]

end MonthStore

/-! ### Looking back -/

lemma findMonth_some {m : MonthBlob} : ∀ {looks : ℕ} {ym : UInt32},
    findMonth c looks ym = some m → ∃ x, readMonth c x = some m := by
  intro looks
  induction looks with
  | zero => intro ym h; cases h
  | succ looks ih =>
      intro ym h
      rw [findMonth] at h
      cases hread : readMonth c ym with
      | none =>
          rw [hread] at h
          exact ih h
      | some m' =>
          rw [hread] at h
          dsimp only at h
          split_ifs at h
          cases h
          exact ⟨ym, hread⟩

/-- Looking back over months without a blob reaches the first that has one. -/
lemma findMonth_eq {m : MonthBlob} : ∀ {k looks : ℕ} {ym : UInt32},
    k < looks → (∀ j < k, readMonth c (prevMonth^[j] ym) = none) →
    readMonth c (prevMonth^[k] ym) = some m → prevMonth^[k] ym ≠ 0 →
    findMonth c looks ym = some m := by
  intro k
  induction k with
  | zero =>
      intro looks ym hk _ hm hne
      obtain ⟨looks, rfl⟩ := Nat.exists_eq_add_of_lt hk
      rw [Function.iterate_zero_apply] at hm hne
      rw [Nat.zero_add, findMonth, hm]
      exact if_neg hne
  | succ k ih =>
      intro looks ym hk hnone hm hne
      obtain ⟨looks, rfl⟩ : ∃ n, looks = n + 1 := ⟨looks - 1, by omega⟩
      have hfirst := hnone 0 (Nat.succ_pos _)
      rw [Function.iterate_zero_apply] at hfirst
      rw [findMonth, hfirst]
      rw [Function.iterate_succ_apply] at hm hne
      exact ih (by omega) (fun j hj => by
        have hj' := hnone (j + 1) (by omega)
        rwa [Function.iterate_succ_apply] at hj') hm hne

lemma findMonth_none : ∀ {looks : ℕ} {ym : UInt32},
    (∀ j < looks, readMonth c (prevMonth^[j] ym) = none) → findMonth c looks ym = none := by
  intro looks
  induction looks with
  | zero => intro ym _; rfl
  | succ looks ih =>
      intro ym h
      have hfirst := h 0 (Nat.succ_pos _)
      rw [Function.iterate_zero_apply] at hfirst
      rw [findMonth, hfirst]
      refine ih fun j hj => ?_
      have hj' := h (j + 1) (by omega)
      rwa [Function.iterate_succ_apply] at hj'

namespace MonthStore

variable {resetId : UInt32} {days : List DayRecord} {c : EnergyContents}

/-- The months between the last day's month and a later one are empty. -/
lemma readMonth_between (h : MonthStore resetId days c) (hne : days ≠ []) {ym : UInt32}
    (hym : ValidMonth ym) {j : ℕ}
    (hj : monthIndex (monthOf (days.getLast hne).date) + j < monthIndex ym) :
    readMonth c (prevMonth^[j] ym) = none := by
  obtain ⟨hv, hi⟩ := hym.iterate_prev j (by omega)
  refine h.readMonth_of_gt hne ?_
  rw [← ValidMonth.index_lt_iff (h.month _ (List.getLast_mem hne)) hv]
  omega

/-- The month a day is added to carries on from the totals over all days. -/
lemma monthFor_eq (h : MonthStore resetId days c) (hne : days ≠ []) (random : UInt32) {ym : UInt32}
    (hym : ValidMonth ym)
    (hle : monthIndex (monthOf (days.getLast hne).date) ≤ monthIndex ym)
    (hnear : monthIndex ym ≤ monthIndex (monthOf (days.getLast hne).date) + (kMonthsKept + 2)) :
    (monthFor c random ym).life = foldDays resetId days ∧
      (monthFor c random ym).days = daysIn ym days := by
  have hlast := h.month _ (List.getLast_mem hne)
  have hlast_le : monthOf (days.getLast hne).date ≤ ym := (hlast.index_le_iff hym).mp hle
  obtain ⟨newest, hnewest, hlife⟩ := h.newest hne
  rw [monthFor]
  cases hread : readMonth c ym with
  | some m =>
      obtain ⟨-, hlife', hdays⟩ := h.blob ym m hread
      rw [h.filter_month_le hne hlast_le] at hlife'
      exact ⟨hlife', hdays⟩
  | none =>
      -- the last day's month lies further back
      have hlt : monthIndex (monthOf (days.getLast hne).date) < monthIndex ym := by
        refine lt_of_le_of_ne hle fun heq => ?_
        rw [hlast.index_inj hym heq, hread] at hnewest
        cases hnewest
      obtain ⟨k, hk⟩ := Nat.exists_eq_add_of_lt hlt
      have hback : prevMonth^[k] (prevMonth ym) = monthOf (days.getLast hne).date := by
        rw [← Function.iterate_succ_apply]
        exact hlast.iterate_eq hym (by omega)
      have hfind : findMonth c (kMonthsKept + 2) (prevMonth ym) = some newest := by
        refine findMonth_eq (k := k) (by omega) (fun j hj => ?_) (by rw [hback]; exact hnewest) ?_
        · rw [← Function.iterate_succ_apply]
          exact h.readMonth_between hne hym (by omega)
        · rw [hback]
          intro hzero
          have hone := hlast.one_le
          rw [hzero] at hone
          exact absurd hone (by decide)
      have hnone : ∀ d ∈ days, monthOf d.date ≠ ym := by
        intro d hd heq
        have hd' := (ValidMonth.index_le_iff (h.month d hd) hlast).mpr
          (monthOf_mono (h.date_le_getLast hne hd))
        rw [heq] at hd'
        omega
      refine ⟨?_, ?_⟩
      · simp only [hfind, carriedLife, blankMonth, hlife]
      · rw [daysIn_of_forall_ne hnone]
        rfl

/-- In an empty store a month starts from zero. -/
lemma monthFor_nil (h : MonthStore resetId [] c) (random ym : UInt32) :
    monthFor c random ym = blankMonth ym (freshLifetime (random ||| 1)) := by
  rw [monthFor, h.readMonth_nil, findMonth_none fun j _ => h.readMonth_nil _]
  rfl

/-- The totals a day is compared with end with one of the days, unless they
start from zero. -/
lemma monthFor_throughDate (h : MonthStore resetId days c) (random ym : UInt32) :
    (monthFor c random ym).life.throughDate = 0 ∨
      ∃ x, (monthFor c random ym).life = foldDays resetId (days.filter fun d => monthOf d.date ≤ x) ∧
        (days.filter fun d => monthOf d.date ≤ x) ≠ [] := by
  have hblob : ∀ {x m}, readMonth c x = some m → m.life =
      foldDays resetId (days.filter fun d => monthOf d.date ≤ x) ∧
        (days.filter fun d => monthOf d.date ≤ x) ≠ [] := by
    intro x m hm
    obtain ⟨⟨d, hd, hdx⟩, hlife, -⟩ := h.blob x m hm
    refine ⟨hlife, List.ne_nil_of_mem (List.mem_filter.mpr ⟨hd, ?_⟩)⟩
    rw [hdx]
    exact decide_eq_true (UInt32.le_refl _)
  rw [monthFor]
  cases hread : readMonth c ym with
  | some m => exact .inr ⟨ym, hblob hread⟩
  | none =>
      cases hfind : findMonth c (kMonthsKept + 2) (prevMonth ym) with
      | none => exact .inl rfl
      | some m =>
          obtain ⟨x, hx⟩ := findMonth_some hfind
          have hfound := hblob hx
          exact .inr ⟨x, hfound⟩

/-- A day that counts as counted already has the date of the last day. -/
lemma counted (h : MonthStore resetId days c) (random : UInt32) {day : DayRecord}
    (hmonth : ValidMonth (monthOf day.date)) (hlatest : ∀ d ∈ days, d.date ≤ day.date)
    (hle : day.date ≤ (monthFor c random (monthOf day.date)).life.throughDate) :
    (∃ d ∈ days, d.date = day.date) ∧
      (monthFor c random (monthOf day.date)).life = foldDays resetId days := by
  cases h.monthFor_throughDate random (monthOf day.date) with
  | inl hzero =>
      rw [hzero] at hle
      have hone := hmonth.one_le
      rw [monthOf_toNat] at hone
      rw [UInt32.le_iff_toNat_le, UInt32.toNat_zero] at hle
      omega
  | inr hx =>
      obtain ⟨x, hlife, hne⟩ := hx
      rw [hlife, foldDays_throughDate hne] at hle
      have hmem := List.getLast_mem hne
      obtain ⟨hlast, hlastx⟩ := List.mem_filter.mp hmem
      have heq : (List.getLast _ hne).date = day.date :=
        UInt32.le_antisymm (hlatest _ hlast) hle
      refine ⟨⟨_, hlast, heq⟩, ?_⟩
      rw [hlife]
      congr 1
      rw [List.filter_eq_self]
      intro d hd
      have hd' := monthOf_mono (hlatest d hd)
      rw [← heq] at hd'
      exact decide_eq_true (UInt32.le_trans hd' (of_decide_eq_true hlastx))

end MonthStore

/-! ### One commit -/

lemma pairwise_concat {day : DayRecord} (h : days.Pairwise fun a b => a.date < b.date)
    (hlast : ∀ d ∈ days, d.date < day.date) : (days ++ [day]).Pairwise fun a b => a.date < b.date :=
  List.pairwise_append.mpr ⟨h, List.pairwise_singleton _ _, fun d hd e he => by
    rw [List.mem_singleton.mp he]
    exact hlast d hd⟩

lemma Swept.readMonth {months : List UInt32} {c' : EnergyContents} (h : Swept months c c')
    {m : MonthBlob} (hm : readMonth c' ym = some m) : readMonth c ym = some m := by
  cases h.month ym with
  | inl heq => rwa [ArcticController.readMonth, heq] at hm
  | inr hgone =>
      rw [ArcticController.readMonth, hgone.2] at hm
      cases hm

lemma Swept.readMonth_of_notMem {months : List UInt32} {c' : EnergyContents} (h : Swept months c c')
    (hym : ym ∉ months) : ArcticController.readMonth c' ym = ArcticController.readMonth c ym := by
  cases h.month ym with
  | inl heq => rw [ArcticController.readMonth, heq, ArcticController.readMonth]
  | inr hgone => exact absurd hgone.1 hym

lemma readMonth_update_of_ne {x : UInt32} (h : x ≠ ym) (blob : Option (List UInt8)) :
    readMonth (Function.update c (.month ym) blob) x = readMonth c x := by
  rw [readMonth, Function.update_of_ne (by simpa using h), readMonth]

/-- A month within `kMonthsKept` of another is not among those it ages out. -/
lemma notMem_agedOut {x : UInt32} (hym : ValidMonth ym) (hx : ValidMonth x)
    (h : monthIndex ym < monthIndex x + kMonthsKept) : x ∉ agedOut ym := by
  rw [mem_agedOut]
  rintro ⟨i, h1, h2, rfl⟩
  simp only [kMonthsKept] at h h1 h2
  rcases Nat.lt_or_ge (monthIndex ym) i with hlt | hle
  · exact absurd hx.le_max (not_le.mpr (hym.iterate_prev_gt hlt (by omega)))
  · obtain ⟨-, hi⟩ := hym.iterate_prev i hle
    omega

lemma self_notMem_agedOut (h : ym.toNat ≤ maxMonth) : ym ∉ agedOut ym := by
  rw [mem_agedOut]
  rintro ⟨i, h1, h2, hi⟩
  simp only [kMonthsKept] at h1 h2
  exact iterate_prevMonth_ne h (j := 0) (k := i) (by omega) (by omega) hi

namespace MonthStore

variable {resetId : UInt32} {days : List DayRecord} {c c' : EnergyContents}

/-- A day that landed is one more day of the store. -/
lemma land (h : MonthStore resetId days c) {day : DayRecord} {m : MonthBlob}
    (hmonth : ValidMonth (monthOf day.date)) (hdom : ValidDom day.date)
    (hlatest : ∀ d ∈ days, d.date < day.date) (hm : IsMonth (monthOf day.date) m)
    (hlife : m.life = foldDays resetId days) (hdays : m.days = daysIn (monthOf day.date) days)
    (hswept : Swept (agedOut (monthOf day.date))
      (Function.update c (.month (monthOf day.date)) (some (monthBlob.enc (addDay m day)))) c') :
    MonthStore resetId (days ++ [day]) c' := by
  have hself : readMonth c' (monthOf day.date) = some (addDay m day) := by
    rw [hswept.readMonth_of_notMem (self_notMem_agedOut hmonth.le_max)]
    exact hm.readMonth_addDay c day
  refine ⟨pairwise_concat h.sorted hlatest, ?_, ?_, ?_, ?_⟩
  · exact fun d hd => (List.mem_append.mp hd).elim (h.month d) fun hd => by
      rw [List.mem_singleton.mp hd]
      exact hmonth
  · exact fun d hd => (List.mem_append.mp hd).elim (h.dom d) fun hd => by
      rw [List.mem_singleton.mp hd]
      exact hdom
  · intro ym m' hm'
    by_cases hym : ym = monthOf day.date
    · subst hym
      rw [hself, Option.some.injEq] at hm'
      subst hm'
      have hall : ((days ++ [day]).filter fun d => monthOf d.date ≤ monthOf day.date)
          = days ++ [day] := by
        rw [List.filter_eq_self]
        intro d hd
        refine decide_eq_true ?_
        cases List.mem_append.mp hd with
        | inl hd => exact monthOf_mono (UInt32.le_of_lt (hlatest d hd))
        | inr hd =>
            rw [List.mem_singleton.mp hd]
            exact UInt32.le_refl _
      refine ⟨⟨day, by simp, rfl⟩, ?_, ?_⟩
      · rw [hall, foldDays_concat, ← hlife]
        rfl
      · rw [daysIn_concat_self days rfl, ← hdays]
        rfl
    · have hold := hswept.readMonth hm'
      rw [readMonth_update_of_ne hym] at hold
      obtain ⟨⟨d, hd, hdym⟩, hlife', hdays'⟩ := h.blob ym m' hold
      -- the month lies before the new day's
      have hlt : ¬ monthOf day.date ≤ ym := by
        intro hle
        have hge := monthOf_mono (UInt32.le_of_lt (hlatest d hd))
        rw [hdym] at hge
        exact hym (UInt32.le_antisymm hge hle)
      refine ⟨⟨d, List.mem_append_left _ hd, hdym⟩, ?_, ?_⟩
      · rw [hlife', List.filter_append]
        simp [hlt]
      · rw [hdays', daysIn_concat_of_ne days (fun heq => hym heq.symm)]
  · intro d hd hrecent
    have hnear := hrecent day (by simp)
    cases List.mem_append.mp hd with
    | inr hd =>
        rw [List.mem_singleton.mp hd, hself]
        rfl
    | inl hd =>
        by_cases heq : monthOf d.date = monthOf day.date
        · rw [heq, hself]
          rfl
        · rw [hswept.readMonth_of_notMem (notMem_agedOut hmonth (h.month d hd) hnear),
            readMonth_update_of_ne heq]
          exact h.recent d hd fun e he => hrecent e (List.mem_append_left _ he)

/-- **One commit of a day not before any of the store's**: the day lands as one
more day, under the old `reset_id` if there was a day, or nothing changes; and
a success returns the totals over the days then stored, the new one among
them. -/
theorem commit (h : MonthStore resetId days c) {random : UInt32} {day : DayRecord}
    {o : Outcome EspErr (Option Lifetime)} {s' : Nvs EnergyKey} {w : List NvsEvent}
    (hmonth : ValidMonth (monthOf day.date)) (hlatest : ∀ d ∈ days, d.date ≤ day.date)
    (hreads : NvsEvent.readError ∉ w)
    (hnear : landed w = true → ∀ d ∈ days.getLast?,
      monthIndex (monthOf day.date) ≤ monthIndex (monthOf d.date) + (kMonthsKept + 2))
    (heff : CommitEffect c random day o s' w) :
    ∃ resetId', (days ≠ [] → resetId' = resetId) ∧
      MonthStore resetId' (if landed w then days ++ [day] else days) s'.stored ∧
      ∀ life, o = .val (some life) →
        (∃ d ∈ if landed w then days ++ [day] else days, d.date = day.date) ∧
          life = foldDays resetId' (if landed w then days ++ [day] else days) := by
  cases heff with
  | kept hstored hsettled hw ho =>
      refine ⟨resetId, fun _ => rfl, ?_, fun life hlife => ?_⟩
      · rw [hw, hstored]
        exact h
      · obtain ⟨m, hm, hdate, rfl⟩ := ho life hlife
        rw [hm hreads] at hdate ⊢
        rw [hw]
        exact h.counted random hmonth hlatest hdate
  | @stored m hismonth hm hdom hdate hswept hsettled hw ho =>
      rw [hw]
      have hmeq := hm hreads
      by_cases hne : days = []
      · subst hne
        rw [h.monthFor_nil] at hmeq
        have hnil : MonthStore (random ||| 1) [] c := empty _ h.readMonth_nil
        have hland := hnil.land hmonth hdom (fun d hd => absurd hd List.not_mem_nil) hismonth
          (by rw [hmeq]; rfl) (by rw [hmeq]; rfl) hswept
        refine ⟨random ||| 1, fun h' => absurd rfl h', hland, fun life hlife => ?_⟩
        refine ⟨⟨day, by simp, rfl⟩, ?_⟩
        rw [ho life hlife, hmeq]
        rfl
      · have hlastmem : days.getLast hne ∈ days.getLast? := by rw [List.getLast?_eq_some_getLast hne]; rfl
        have hle := (ValidMonth.index_le_iff (h.month _ (List.getLast_mem hne)) hmonth).mpr
          (monthOf_mono (hlatest _ (List.getLast_mem hne)))
        obtain ⟨hlife, hdays⟩ := h.monthFor_eq hne random hmonth hle (hnear hw _ hlastmem)
        rw [← hmeq] at hlife hdays
        have hlt : ∀ d ∈ days, d.date < day.date := by
          intro d hd
          have hthrough := hdate
          rw [hlife, foldDays_throughDate hne] at hthrough
          exact UInt32.lt_of_le_of_lt (h.date_le_getLast hne hd) hthrough
        refine ⟨resetId, fun _ => rfl, h.land hmonth hdom hlt hismonth hlife hdays hswept,
          fun life hlife' => ⟨⟨day, by simp, rfl⟩, ?_⟩⟩
        rw [ho life hlife', if_pos rfl, foldDays_concat, ← hlife]

/-- A commit of a date that is counted already changes nothing. -/
lemma commit_repeat (h : MonthStore resetId days c) {random : UInt32} {day : DayRecord}
    {o : Outcome EspErr (Option Lifetime)} {s' : Nvs EnergyKey} {w : List NvsEvent}
    (hlatest : ∀ d ∈ days, d.date ≤ day.date) (hmem : ∃ d ∈ days, d.date = day.date)
    (hreads : NvsEvent.readError ∉ w) (heff : CommitEffect c random day o s' w) :
    s'.stored = c := by
  cases heff with
  | kept hstored hsettled hw ho => exact hstored
  | @stored m hismonth hm hdom hdate hswept hsettled hw ho =>
      obtain ⟨d, hd, hdate'⟩ := hmem
      have hne : days ≠ [] := List.ne_nil_of_mem hd
      have hlast : (days.getLast hne).date = day.date := by
        refine UInt32.le_antisymm (hlatest _ (List.getLast_mem hne)) ?_
        rw [← hdate']
        exact h.date_le_getLast hne hd
      have hmonth := h.month _ (List.getLast_mem hne)
      obtain ⟨hlife, -⟩ := @MonthStore.monthFor_eq _ _ _ h hne random (monthOf day.date)
        (by rw [← hlast]; exact hmonth) (by rw [hlast]) (by rw [hlast]; omega)
      rw [hm hreads, hlife, foldDays_throughDate hne, hlast] at hdate
      exact absurd hdate (UInt32.lt_irrefl _)

/-! ### Reading the days back -/

/-- The days of one month that a query returns. -/
lemma monthDays_eq (h : MonthStore resetId days c) (fromDate toDate ym : UInt32) :
    monthDays c fromDate toDate ym
      = (days.filter fun d => (readMonth c (monthOf d.date)).isSome && inRange fromDate toDate d).filter
          fun d => (monthOf d.date).toNat == ym.toNat := by
  have hsame : ∀ d : DayRecord, ((monthOf d.date).toNat == ym.toNat) = (monthOf d.date == ym) := by
    intro d
    rw [Bool.eq_iff_iff, beq_iff_eq, beq_iff_eq, UInt32.toNat_inj]
  simp only [hsame]
  rw [monthDays]
  cases hread : readMonth c ym with
  | none =>
      symm
      rw [List.filter_eq_nil_iff]
      intro d hd
      rw [beq_iff_eq]
      rintro rfl
      have hd' := (List.mem_filter.mp hd).2
      rw [hread] at hd'
      exact absurd hd' (by simp)
  | some m =>
      obtain ⟨-, -, hdays⟩ := h.blob ym m hread
      have hsort : (days.filter fun d => monthOf d.date == ym).Pairwise
          fun a b => daySlot a.date < daySlot b.date := by
        refine (h.sorted.filter _).imp_of_mem fun {a b} ha hb hab => ?_
        obtain ⟨ha1, ha2⟩ := List.mem_filter.mp ha
        obtain ⟨hb1, hb2⟩ := List.mem_filter.mp hb
        rw [beq_iff_eq] at ha2 hb2
        exact daySlot_lt (h.dom a ha1) (h.dom b hb1) (ha2.trans hb2.symm) hab
      dsimp only
      rw [hdays, daysIn, (filter_ofFn_slots _ rfl _ hsort).1, List.filter_filter, List.filter_filter]
      refine List.filter_congr fun d _ => ?_
      by_cases hd : monthOf d.date = ym
      · simp [hd, hread]
      · have hne : (monthOf d.date == ym) = false := beq_eq_false_iff_ne.mpr hd
        simp only [hne, Bool.false_and, Bool.and_false]

end MonthStore

lemma mem_monthsForth {m last : UInt32} (hm : ValidMonth m) (hle : m ≤ last) :
    ∀ {fuel : ℕ} {ym : UInt32}, ym ≤ m → m.toNat < ym.toNat + fuel → m ∈ monthsForth fuel ym last := by
  intro fuel
  induction fuel with
  | zero =>
      intro ym h1 h2
      rw [UInt32.le_iff_toNat_le] at h1
      omega
  | succ fuel ih =>
      intro ym h1 h2
      have hym : ym.toNat ≤ maxMonth :=
        le_trans ((UInt32.le_iff_toNat_le).mp h1) hm.le_max
      rw [monthsForth, if_pos (UInt32.le_trans h1 hle), List.mem_cons]
      cases hm.le_or_nextMonth_le hym (UInt32.le_iff_toNat_le.mp h1) with
      | inl heq => exact .inl heq
      | inr hnext =>
          have hlt := lt_nextMonth hym
          exact .inr (ih (UInt32.le_iff_toNat_le.mpr hnext) (by omega))

lemma monthsForth_sorted {last : UInt32} (hlast : last.toNat ≤ maxMonth) :
    ∀ {fuel : ℕ} {ym : UInt32},
      ((monthsForth fuel ym last).map UInt32.toNat).Pairwise (· < ·) ∧
        ∀ x ∈ monthsForth fuel ym last, ym.toNat ≤ x.toNat := by
  intro fuel
  induction fuel with
  | zero => exact ⟨List.Pairwise.nil, fun x hx => absurd hx List.not_mem_nil⟩
  | succ fuel ih =>
      intro ym
      rw [monthsForth]
      by_cases hym : ym ≤ last
      · have hlt := lt_nextMonth (le_trans (UInt32.le_iff_toNat_le.mp hym) hlast)
        obtain ⟨h1, h2⟩ := @ih (nextMonth ym)
        rw [if_pos hym, List.map_cons, List.pairwise_cons]
        refine ⟨⟨fun k hk => ?_, h1⟩, fun x hx => ?_⟩
        · obtain ⟨x, hx, rfl⟩ := List.mem_map.mp hk
          exact lt_of_lt_of_le hlt (h2 x hx)
        · cases List.mem_cons.mp hx with
          | inl hx => rw [hx]
          | inr hx => exact le_trans hlt.le (h2 x hx)
      · rw [if_neg hym]
        exact ⟨List.Pairwise.nil, fun x hx => absurd hx List.not_mem_nil⟩

namespace MonthStore

variable {resetId : UInt32} {days : List DayRecord} {c : EnergyContents}

/-- A query returns the days in its range whose month is still stored, in order
and as far as they fit. -/
theorem readDays (h : MonthStore resetId days c) (fromDate toDate : UInt32) (capacity : ℕ) :
    FaultM.Runs (storeReadDays fromDate toDate capacity) (.ofContents c)
      ((days.filter fun d =>
        (readMonth c (monthOf d.date)).isSome && inRange fromDate toDate d).take capacity)
      (.ofContents c) := by
  by_cases hrange : fromDate ≤ toDate
  · have hrun := runs_storeReadDays c fromDate toDate capacity hrange
    have hmonths := @monthsForth_sorted (monthOf toDate) (monthOf_le toDate)
      ((monthOf toDate).toNat - (monthOf fromDate).toNat + 1) (monthOf fromDate)
    have hkeys : (days.filter fun d =>
        (readMonth c (monthOf d.date)).isSome && inRange fromDate toDate d).Pairwise
          fun a b => (monthOf a.date).toNat ≤ (monthOf b.date).toNat :=
      (h.sorted.filter _).imp fun {a b} hab =>
        UInt32.le_iff_toNat_le.mp (monthOf_mono (UInt32.le_of_lt hab))
    have hall := flatMap_filter_key (fun d : DayRecord => (monthOf d.date).toNat) hkeys _ hmonths.1
    rw [List.flatMap_map] at hall
    have hflat : (monthsForth ((monthOf toDate).toNat - (monthOf fromDate).toNat + 1)
        (monthOf fromDate) (monthOf toDate)).flatMap (monthDays c fromDate toDate)
          = days.filter fun d =>
              (readMonth c (monthOf d.date)).isSome && inRange fromDate toDate d := by
      rw [funext fun ym => h.monthDays_eq fromDate toDate ym, hall, List.filter_eq_self]
      intro d hd
      obtain ⟨hd1, hd2⟩ := List.mem_filter.mp hd
      simp only [inRange, Bool.and_eq_true, decide_eq_true_eq] at hd2
      obtain ⟨-, ⟨-, hfrom⟩, hto⟩ := hd2
      rw [List.contains_iff_mem]
      have hfrom' := monthOf_mono hfrom
      have hto' := monthOf_mono hto
      refine List.mem_map.mpr ⟨_, mem_monthsForth (h.month d hd1) hto' hfrom' ?_, rfl⟩
      rw [UInt32.le_iff_toNat_le] at hto'
      omega
    rwa [hflat] at hrun
  · have hnone : (days.filter fun d =>
        (readMonth c (monthOf d.date)).isSome && inRange fromDate toDate d) = [] := by
      rw [List.filter_eq_nil_iff]
      intro d _ hd
      simp only [inRange, Bool.and_eq_true, decide_eq_true_eq] at hd
      exact hrange (UInt32.le_trans hd.2.1.2 hd.2.2)
    rw [hnone, List.take_nil, storeReadDays, if_pos (.inl (UInt32.not_le.mp hrange))]
    exact FaultM.runs_pure _ _

end MonthStore

end ArcticController

/-
Runs of the month store: any sequence of `store_commit_day` calls and reboots
on one namespace.

* `StoreStep`, `StoreState.step`, `runStore`: the runs, with the days that
  landed kept beside the store;
* `Admissible`: runs whose reads succeed and whose dates do not step back;
* `FoldsOnce`: what the store then amounts to;
* `month_store_fold`: **every state of such a run is an exactly-once fold**.
-/
import ArcticController.Energy.MonthStore

namespace ArcticController

/-! ### Runs -/

/-- A call or a reboot. -/
inductive StoreStep where
  | commit (random : UInt32) (day : DayRecord) (script : List NvsFault)
  | reboot

/-- A namespace, the days that landed in it, oldest first, and the latest date
offered to it. -/
structure StoreState where
  nvs : Nvs EnergyKey
  landed : List DayRecord
  latest : UInt32

/-- What a call leaves; a loss of power is a reset. -/
def afterCall {α : Type} (r : Result (Nvs EnergyKey) NvsFault (NvsOp EnergyKey) EspErr α) :
    Nvs EnergyKey :=
  match r.out with
  | .cut => r.state.reset
  | _ => r.state

/-- Whether the day of a call reached the flash. -/
def callLanded {α : Type} (r : Result (Nvs EnergyKey) NvsFault (NvsOp EnergyKey) EspErr α) : Bool :=
  landed (r.ops.filterMap nvsEvent)

def StoreState.step (st : StoreState) : StoreStep → StoreState
  | .commit random day script =>
      let r := storeCommitDay random day st.nvs script
      { nvs := afterCall r
        landed := if callLanded r then st.landed ++ [day] else st.landed
        latest := day.date }
  | .reboot => { st with nvs := st.nvs.reset }

def runStore (st : StoreState) (steps : List StoreStep) : StoreState := steps.foldl StoreState.step st

/-- A store nothing was committed to. -/
def StoreState.start (contents : EnergyContents) : StoreState := ⟨.ofContents contents, [], 0⟩

/-- A call whose reads succeed, with a date of the calendar not before any
earlier one, and close enough to the last month that landed if it lands. -/
structure CommitAllowed (gap : ℕ) (st : StoreState) (random : UInt32) (day : DayRecord)
    (script : List NvsFault) : Prop where
  reads : readsSucceed.Covers (storeCommitDay random day st.nvs script).ops
  month : ValidMonth (monthOf day.date)
  date : st.latest ≤ day.date
  near : callLanded (storeCommitDay random day st.nvs script) = true → ∀ d ∈ st.landed.getLast?,
    monthIndex (monthOf day.date) ≤ monthIndex (monthOf d.date) + gap

/-- Every call of a run is allowed where it is made. -/
def Admissible (gap : ℕ) : StoreState → List StoreStep → Prop
  | _, [] => True
  | st, .commit random day script :: steps =>
      CommitAllowed gap st random day script ∧
        Admissible gap (st.step (.commit random day script)) steps
  | st, .reboot :: steps => Admissible gap (st.step .reboot) steps

/-! ### The invariant of a run -/

/-- The store holds the days that landed. -/
structure StoreState.Holds (resetId : UInt32) (st : StoreState) : Prop where
  settled : st.nvs.Settled
  store : MonthStore resetId st.landed st.nvs.stored
  latest : ∀ d ∈ st.landed, d.date ≤ st.latest

lemma afterCall_stored {α : Type}
    (r : Result (Nvs EnergyKey) NvsFault (NvsOp EnergyKey) EspErr α) :
    (afterCall r).stored = r.state.stored := by
  rw [afterCall]
  cases r.out with
  | val a => rfl
  | err e => rfl
  | cut => rfl

lemma afterCall_settled {α : Type}
    {r : Result (Nvs EnergyKey) NvsFault (NvsOp EnergyKey) EspErr α}
    (h : r.out ≠ .cut → r.state.Settled) : (afterCall r).Settled := by
  rw [afterCall]
  cases hout : r.out with
  | val a => exact h (by rw [hout]; exact nofun)
  | err e => exact h (by rw [hout]; exact nofun)
  | cut => exact Nvs.settled_reset _

/-- The ending of a call on a settled store. -/
lemma commitEffect_of_settled {s : Nvs EnergyKey} (hs : s.Settled) (random : UInt32)
    (day : DayRecord) (script : List NvsFault) :
    CommitEffect s.stored random day (storeCommitDay random day s script).out
      (storeCommitDay random day s script).state
      ((storeCommitDay random day s script).ops.filterMap nvsEvent) := by
  have h := (wpObs_storeCommitDay s.stored random day script fun _ _ => trivial).1
  rwa [← hs.eq] at h

variable {day : DayRecord} {st : StoreState}

lemma CommitEffect.settled {c : EnergyContents} {random : UInt32}
    {o : Outcome EspErr (Option Lifetime)} {s' : Nvs EnergyKey} {w : List NvsEvent}
    (h : CommitEffect c random day o s' w) (ho : o ≠ .cut) : s'.Settled := by
  cases h with
  | kept hstored hsettled hw ho' => exact hsettled ho
  | stored hmonth hm hdom hdate hswept hsettled hw ho' => exact hsettled ho

namespace StoreState.Holds

variable {resetId : UInt32} {st : StoreState}

/-- What an allowed call does to the days stored, and what its success means. -/
lemma commit (h : st.Holds resetId) {random : UInt32} {day : DayRecord} {script : List NvsFault}
    (hcall : CommitAllowed (kMonthsKept + 2) st random day script) :
    ∃ resetId', (st.landed ≠ [] → resetId' = resetId) ∧
      (st.step (.commit random day script)).Holds resetId' ∧
      ∀ life, (storeCommitDay random day st.nvs script).out = .val (some life) →
        (∃ d ∈ (st.step (.commit random day script)).landed, d.date = day.date) ∧
          life = foldDays resetId' (st.step (.commit random day script)).landed := by
  have heff := commitEffect_of_settled h.settled random day script
  have hreads := readError_notMem_of_readsSucceed hcall.reads
  have hlatest : ∀ d ∈ st.landed, d.date ≤ day.date := fun d hd =>
    UInt32.le_trans (h.latest d hd) hcall.date
  obtain ⟨resetId', hid, hstore, hsuccess⟩ :=
    h.store.commit hcall.month hlatest hreads hcall.near heff
  refine ⟨resetId', hid, ⟨afterCall_settled heff.settled, ?_, ?_⟩, hsuccess⟩
  · rw [StoreState.step, afterCall_stored]
    exact hstore
  · intro d hd
    simp only [StoreState.step] at hd ⊢
    split_ifs at hd with hland
    · cases List.mem_append.mp hd with
      | inl hd => exact hlatest d hd
      | inr hd =>
          rw [List.mem_singleton.mp hd]
          exact UInt32.le_refl _
    · exact hlatest d hd

lemma reboot (h : st.Holds resetId) : (st.step .reboot).Holds resetId :=
  ⟨Nvs.settled_reset _, h.store, h.latest⟩

end StoreState.Holds

lemma CommitAllowed.mono {gap gap' : ℕ} (hgap : gap ≤ gap') {random : UInt32}
    {script : List NvsFault} (h : CommitAllowed gap st random day script) :
    CommitAllowed gap' st random day script :=
  ⟨h.reads, h.month, h.date, fun hland d hd => (h.near hland d hd).trans (Nat.add_le_add_left hgap _)⟩

lemma landed_step_ne_nil (h : st.landed ≠ []) (step : StoreStep) : (st.step step).landed ≠ [] := by
  cases step with
  | reboot => exact h
  | commit random day script =>
      simp only [StoreState.step]
      split_ifs
      · exact List.append_ne_nil_of_left_ne_nil h _
      · exact h

@[simp] lemma latest_step_commit (st : StoreState) (random : UInt32) (day : DayRecord)
    (script : List NvsFault) : (st.step (.commit random day script)).latest = day.date := rfl

@[simp] lemma latest_step_reboot (st : StoreState) : (st.step .reboot).latest = st.latest := rfl

@[simp] lemma landed_step_reboot (st : StoreState) : (st.step .reboot).landed = st.landed := rfl

lemma mem_landed_step {random : UInt32} {script : List NvsFault} {d : DayRecord}
    (h : d ∈ (st.step (.commit random day script)).landed) : d ∈ st.landed ∨ d = day := by
  simp only [StoreState.step] at h
  split_ifs at h
  · exact (List.mem_append.mp h).imp_right List.mem_singleton.mp
  · exact .inl h

/-! ### The month store is an exactly-once fold -/

/-- What the claim says of one state of a run. -/
structure FoldsOnce (resetId : UInt32) (st : StoreState) : Prop where
  /-- The days that landed are distinct and in date order. -/
  ascending : st.landed.Pairwise fun a b => a.date < b.date
  /-- Committing a date that landed once more changes nothing. -/
  repeated : ∀ random day script, (∃ d ∈ st.landed, d.date = day.date) → st.latest ≤ day.date →
    readsSucceed.Covers (storeCommitDay random day st.nvs script).ops →
      (storeCommitDay random day st.nvs script).state.stored = st.nvs.stored
  /-- The newest month holds the totals over all days that landed. -/
  newest : ∀ d ∈ st.landed.getLast?,
    (∃ m, readMonth st.nvs.stored (monthOf d.date) = some m ∧ m.life = foldDays resetId st.landed) ∧
      ∀ ym m, readMonth st.nvs.stored ym = some m → ym ≤ monthOf d.date
  /-- A query returns the days in its range whose month is still stored. -/
  readDays : ∀ fromDate toDate capacity,
    (storeReadDays fromDate toDate capacity st.nvs []).out
      = .val ((st.landed.filter fun d => (readMonth st.nvs.stored (monthOf d.date)).isSome &&
          inRange fromDate toDate d).take capacity)
  /-- The days of the last `kMonthsKept` months are still stored. -/
  recent : ∀ d ∈ st.landed, ∀ e ∈ st.landed.getLast?,
    monthIndex (monthOf e.date) < monthIndex (monthOf d.date) + kMonthsKept →
      (readMonth st.nvs.stored (monthOf d.date)).isSome

lemma StoreState.Holds.foldsOnce {resetId : UInt32} (h : st.Holds resetId) :
    FoldsOnce resetId st := by
  have hlast : ∀ d ∈ st.landed.getLast?, ∃ hne : st.landed ≠ [], d = st.landed.getLast hne := by
    intro d hd
    have hne : st.landed ≠ [] := by
      rintro hnil
      rw [hnil] at hd
      cases hd
    rw [List.getLast?_eq_some_getLast hne] at hd
    exact ⟨hne, (Option.some.inj hd).symm⟩
  refine ⟨h.store.sorted, ?_, ?_, ?_, ?_⟩
  · intro random day script hmem hdate hreads
    exact h.store.commit_repeat (fun d hd => UInt32.le_trans (h.latest d hd) hdate) hmem
      (readError_notMem_of_readsSucceed hreads) (commitEffect_of_settled h.settled random day script)
  · intro d hd
    obtain ⟨hne, rfl⟩ := hlast d hd
    refine ⟨h.store.newest hne, fun ym m hm => ?_⟩
    by_contra hgt
    rw [h.store.readMonth_of_gt hne (UInt32.not_le.mp hgt)] at hm
    cases hm
  · intro fromDate toDate capacity
    have hrun := (h.store.readDays fromDate toDate capacity).out
    rwa [← h.settled.eq] at hrun
  · intro d hd e he hnear
    obtain ⟨hne, rfl⟩ := hlast e he
    refine h.store.recent d hd fun e' he' => lt_of_le_of_lt ?_ hnear
    exact (ValidMonth.index_le_iff (h.store.month e' he')
      (h.store.month _ (List.getLast_mem hne))).mpr (monthOf_mono (h.store.date_le_getLast hne he'))

/-- Every state of a run holds its days, under one `reset_id`. -/
lemma holds_run {gap : ℕ} (hgap : gap ≤ kMonthsKept + 2) : ∀ (steps : List StoreStep)
    {st : StoreState} {resetId : UInt32}, st.Holds resetId → Admissible gap st steps →
    ∃ resetId', (st.landed ≠ [] → resetId' = resetId) ∧
      ∀ pre, pre <+: steps → (runStore st pre).Holds resetId' := by
  -- a store without days holds them under any reset_id
  have hany : ∀ {st : StoreState} {id id' : UInt32}, st.Holds id → (st.landed ≠ [] → id' = id) →
      st.Holds id' := by
    intro st id id' h hid
    by_cases hne : st.landed = []
    · refine ⟨h.settled, ?_, h.latest⟩
      have hstore := h.store
      rw [hne] at hstore ⊢
      exact MonthStore.empty id' hstore.readMonth_nil
    · rw [hid hne]
      exact h
  intro steps
  induction steps with
  | nil =>
      intro st resetId h _
      refine ⟨resetId, fun _ => rfl, fun pre hpre => ?_⟩
      rw [List.prefix_nil.mp hpre]
      exact h
  | cons step steps ih =>
      intro st resetId h hrun
      -- one step, then the rest of the run
      have hstep : ∃ id, (st.landed ≠ [] → id = resetId) ∧ (st.step step).Holds id ∧
          Admissible gap (st.step step) steps := by
        cases step with
        | reboot => exact ⟨resetId, fun _ => rfl, h.reboot, hrun⟩
        | commit random day script =>
            obtain ⟨id, hid, hholds, -⟩ := h.commit (hrun.1.mono hgap)
            exact ⟨id, hid, hholds, hrun.2⟩
      obtain ⟨id, hid, hholds, hrest⟩ := hstep
      obtain ⟨id', hid', hall⟩ := ih hholds hrest
      have hsame : st.landed ≠ [] → id' = resetId := fun hne =>
        (hid' (landed_step_ne_nil hne step)).trans (hid hne)
      refine ⟨id', hsame, fun pre hpre => ?_⟩
      cases List.prefix_cons_iff.mp hpre with
      | inl hnil =>
          rw [hnil]
          exact hany h hsame
      | inr hcons =>
          obtain ⟨pre', rfl, hpre'⟩ := hcons
          exact hall pre' hpre'

/-- The start of a run. -/
lemma holds_start {contents : EnergyContents} (h : ∀ ym, readMonth contents ym = none)
    (resetId : UInt32) : (StoreState.start contents).Holds resetId :=
  ⟨rfl, MonthStore.empty resetId h, fun _ hd => absurd hd List.not_mem_nil⟩

/-- A call of a run is allowed where it is made. -/
lemma Admissible.at {gap : ℕ} : ∀ {pre : List StoreStep} {st : StoreState} {steps : List StoreStep}
    {random : UInt32} {day : DayRecord} {script : List NvsFault}, Admissible gap st steps →
    pre ++ [.commit random day script] <+: steps →
      CommitAllowed gap (runStore st pre) random day script := by
  intro pre
  induction pre with
  | nil =>
      intro st steps random day script h hpre
      obtain ⟨rest, rfl⟩ := hpre
      exact h.1
  | cons step pre ih =>
      intro st steps random day script h hpre
      obtain ⟨rest, rfl⟩ := hpre
      cases step with
      | reboot => exact ih h ⟨rest, rfl⟩
      | commit random' day' script' => exact ih h.2 ⟨rest, rfl⟩

lemma quiet_loadMonth (ym : UInt32) : FaultM.Quiet (loadMonth ym) := by
  refine (quiet_getBlob _ _).attempt.bind fun r => ?_
  cases r with
  | error e => exact FaultM.quiet_pure _
  | ok blob => exact FaultM.quiet_pure _

lemma quiet_findMonthFrom : ∀ (looks : ℕ) (ym : UInt32), FaultM.Quiet (findMonthFrom looks ym) := by
  intro looks
  induction looks with
  | zero => exact fun _ => FaultM.quiet_pure _
  | succ looks ih =>
      intro ym
      refine (quiet_loadMonth ym).bind fun found => ?_
      cases found with
      | none => exact ih _
      | some m => exact FaultM.quiet_pure _

lemma quiet_loadOrStartMonth (random ym : UInt32) : FaultM.Quiet (loadOrStartMonth random ym) := by
  refine (quiet_loadMonth _).bind fun found => ?_
  cases found with
  | some m => exact FaultM.quiet_pure _
  | none => exact (quiet_findMonthFrom _ _).bind fun _ => FaultM.quiet_pure _

lemma quiet_eraseAgedOut : ∀ (count : ℕ) (old : UInt32), FaultM.Quiet (eraseAgedOut count old) := by
  intro count
  induction count with
  | zero => exact fun _ => FaultM.quiet_pure _
  | succ count ih =>
      intro old
      refine (quiet_eraseKey _).attempt.bind fun r => ?_
      cases r with
      | error e => exact ih _
      | ok _ => exact quiet_commit.attempt.bind fun _ => ih _

lemma quiet_storeCommitDay (random : UInt32) (day : DayRecord) :
    FaultM.Quiet (storeCommitDay random day) := by
  refine FaultM.Quiet.ite (FaultM.quiet_pure _) ((quiet_plain _).attempt.bind fun r => ?_)
  cases r with
  | error e => exact FaultM.quiet_pure _
  | ok _ =>
  refine (quiet_plain _).attempt.bind fun r => ?_
  cases r with
  | error e => exact FaultM.quiet_pure _
  | ok _ =>
  refine (quiet_loadOrStartMonth _ _).bind fun m => FaultM.Quiet.ite (FaultM.quiet_pure _) ?_
  refine (quiet_setBlob _ _).attempt.bind fun r => ?_
  cases r with
  | error e => exact FaultM.quiet_pure _
  | ok _ =>
  refine quiet_commit.attempt.bind fun r => ?_
  cases r with
  | error e => exact FaultM.quiet_pure _
  | ok _ => exact (quiet_eraseAgedOut _ _).bind fun _ => FaultM.quiet_pure _

/-- **The month store is an exactly-once fold.** In every run of commits and
reboots from a store without months, whatever writes and commits fail, every
state reached is the fold of the days that landed, under one `reset_id`; and a
call that reports success reports the totals over the days stored, its own
among them. -/
theorem month_store_fold {contents : EnergyContents} (hempty : ∀ ym, readMonth contents ym = none)
    {steps : List StoreStep} (hrun : Admissible (kMonthsKept + 1) (.start contents) steps) :
    ∃ resetId,
      (∀ pre, pre <+: steps → FoldsOnce resetId (runStore (.start contents) pre)) ∧
      ∀ pre random day script life, pre ++ [.commit random day script] <+: steps →
        (storeCommitDay random day (runStore (.start contents) pre).nvs script).out
          = .val (some life) →
        (∃ d ∈ (runStore (.start contents) (pre ++ [.commit random day script])).landed,
          d.date = day.date) ∧
        life = foldDays resetId
          (runStore (.start contents) (pre ++ [.commit random day script])).landed := by
  obtain ⟨resetId, -, hall⟩ :=
    holds_run (Nat.le_succ _) steps (holds_start hempty 0) hrun
  refine ⟨resetId, fun pre hpre => (hall pre hpre).foldsOnce, ?_⟩
  intro pre random day script life hpre hlife
  have hbefore := hall pre ((List.prefix_append _ _).trans hpre)
  have hafter := hall _ hpre
  obtain ⟨id, -, hholds, hsuccess⟩ :=
    hbefore.commit ((hrun.at hpre).mono (Nat.le_succ _))
  have hstep : runStore (.start contents) (pre ++ [.commit random day script])
      = (runStore (.start contents) pre).step (.commit random day script) :=
    List.foldl_concat _ _ _ _
  rw [hstep] at hafter ⊢
  obtain ⟨hmem, hfold⟩ := hsuccess life hlife
  refine ⟨hmem, ?_⟩
  -- both reset_ids are that of the newest month
  obtain ⟨d, hd, -⟩ := hmem
  have hne := List.ne_nil_of_mem hd
  obtain ⟨m, hm, hlife₁⟩ := hholds.store.newest hne
  obtain ⟨m', hm', hlife₂⟩ := hafter.store.newest hne
  rw [hm, Option.some.injEq] at hm'
  rw [hfold, ← hlife₁, hm', hlife₂]

/-- A call without faults that steps neither back nor too far. -/
lemma commitAllowed_quiet {gap : ℕ} (random : UInt32) (hmonth : ValidMonth (monthOf day.date))
    (hdate : st.latest ≤ day.date)
    (hnear : ∀ d ∈ st.landed, monthIndex (monthOf day.date) ≤ monthIndex (monthOf d.date) + gap) :
    CommitAllowed gap st random day [] :=
  ⟨(quiet_storeCommitDay random day).readsSucceed _, hmonth, hdate,
    fun _ d hd => hnear d (List.mem_of_getLast? hd)⟩

/-- A day of 100 Wh. -/
def exampleDay (date : UInt32) : DayRecord :=
  { (default : DayRecord) with date, elecUnattributedWh := 100 }

/-- A day committed twice with a reboot between, and a day of the next month. -/
def exampleDays : List StoreStep :=
  [.commit 7 (exampleDay 20240131) [], .reboot, .commit 9 (exampleDay 20240131) [],
    .commit 9 (exampleDay 20240201) []]

theorem month_store_fold_exampleDays :
    ∃ resetId, FoldsOnce resetId (runStore (.start fun _ => none) exampleDays) := by
  have hjan : ValidMonth (monthOf (exampleDay 20240131).date) := ⟨by decide, by decide, by decide⟩
  have hfeb : ValidMonth (monthOf (exampleDay 20240201).date) := ⟨by decide, by decide, by decide⟩
  have hrun : Admissible (kMonthsKept + 1) (.start fun _ => none) exampleDays := by
    refine ⟨commitAllowed_quiet _ hjan ?_ fun d hd => ?_, commitAllowed_quiet _ hjan ?_ fun d hd => ?_,
      commitAllowed_quiet _ hfeb ?_ fun d hd => ?_, trivial⟩
    · rw [StoreState.start]; decide
    · exact absurd hd List.not_mem_nil
    · rw [latest_step_reboot, latest_step_commit]; decide
    · rw [landed_step_reboot] at hd
      obtain hd | rfl := mem_landed_step hd
      · exact absurd hd List.not_mem_nil
      · decide
    · rw [latest_step_commit]; decide
    · obtain hd | rfl := mem_landed_step hd
      · rw [landed_step_reboot] at hd
        obtain hd | rfl := mem_landed_step hd
        · exact absurd hd List.not_mem_nil
        · decide
      · decide
  obtain ⟨resetId, hall, -⟩ := month_store_fold (fun _ => rfl) hrun
  exact ⟨resetId, hall _ (List.prefix_refl _)⟩

/-! ### The totals a boot loads -/

/-- Looking back from a month not before the last day's reaches that month if it is near
enough, and else nothing. -/
lemma MonthStore.findMonth_of_le {resetId : UInt32} {days : List DayRecord} {c : EnergyContents}
    (h : MonthStore resetId days c) (hne : days ≠ []) {ym : UInt32} (hym : ValidMonth ym)
    (hle : monthIndex (monthOf (days.getLast hne).date) ≤ monthIndex ym) :
    (findMonth c (kMonthsKept + 2) ym).map (·.life) =
      if monthIndex ym ≤ monthIndex (monthOf (days.getLast hne).date) + (kMonthsKept + 1) then
        some (foldDays resetId days)
      else none := by
  have hlast := h.month _ (List.getLast_mem hne)
  obtain ⟨newest, hnewest, hlife⟩ := h.newest hne
  obtain ⟨k, hk⟩ := Nat.exists_eq_add_of_le hle
  by_cases hnear : monthIndex ym ≤ monthIndex (monthOf (days.getLast hne).date) + (kMonthsKept + 1)
  · have hback : prevMonth^[k] ym = monthOf (days.getLast hne).date := hlast.iterate_eq hym hk.symm
    have hfind : findMonth c (kMonthsKept + 2) ym = some newest := by
      refine findMonth_eq (k := k) (by omega) (fun j hj => h.readMonth_between hne hym (by omega))
        (hback ▸ hnewest) ?_
      rw [hback]
      exact fun hzero => absurd (hzero ▸ hlast.one_le) (by decide)
    rw [if_pos hnear, hfind, Option.map_some, hlife]
  · rw [if_neg hnear, findMonth_none fun j hj => h.readMonth_between hne hym (by omega), Option.map_none]

lemma runs_storeLoadLifetime (c : EnergyContents) (date : UInt32) :
    FaultM.Runs (storeLoadLifetime date) (.ofContents c)
      ((findMonth c (kMonthsKept + 2) (monthOf date)).map (·.life)) (.ofContents c) := by
  refine (runs_plain _ _).attempt.bind ((runs_plain _ _).attempt.bind ?_)
  exact (runs_findMonthFrom c _ _).bind (FaultM.runs_pure _ _)

end ArcticController

/-
Finished runs on their way to the store (`persistRuns` in `heatpump_controller.cpp`),
while the poll task goes on.

* `PersistPc`, `RunSystem`, `RunStep`: both tasks, one section of `s_state_mutex` or
  one `store_append_run` at a time;
* `RunEvent`, `finishedRuns`, `leftRuns`, `appends`: what happened to the runs;
* `HandedOver`: what is promised of it;
* `RunsKept`, `runsKept_step`: the invariant, and that every step keeps it;
* `runs_handed_over`: **no run is lost on the way, and none is stored twice**.
-/
import ArcticController.Base.Runs
import ArcticController.Energy.EnergyTask
import ArcticController.Energy.RunStore

namespace ArcticController

/-! ### The system -/

/-- Where `persistRuns` is: in a turn of its loop before the first section, before the
append of the run it copied, or before the section that pops it. -/
inductive PersistPc where
  | idle
  | looking (turn : ℕ)
  | storing (turn : ℕ) (run : RunRecord)
  | popping (turn : ℕ) (run : RunRecord)
deriving DecidableEq

/-- What the mutex guards, the namespace of the run store, and the task that stores. -/
structure RunSystem where
  state : EnergyState
  store : NvsFlash UInt32
  task : PersistPc := .idle

/-- What happened: a run was finished, behind the others or in place of the oldest; an
append returned; the head of the queue was popped. -/
inductive RunEvent where
  | finished (run : RunRecord) (displaced : Option RunRecord)
  | appended (run : RunRecord) (ok : Bool)
  | popped (run : RunRecord)
deriving DecidableEq

/-- The run that gives way to a finished one. -/
def displacedRun (queue : List RunRecord) : Option RunRecord :=
  if queue.length = kRunQueue then queue.head? else none

/-- The run that a pop takes. -/
def poppedRun (queue : List RunRecord) (run : RunRecord) : Option RunRecord :=
  match queue with
  | head :: _ => if head.startS = run.startS then some head else none
  | [] => none

/-- One section of the mutex, or one append. -/
inductive RunStep : RunSystem → Option RunEvent → RunSystem → Prop where
  /-- The poll task books a reading. -/
  | poll (s : RunSystem) (synced : Bool) (nowS : ℤ) (day : Day) (input : Input) :
      RunStep s
        ((finishedRun synced nowS day input s.state).map fun run =>
          .finished run (displacedRun s.state.runQueue))
        { s with state := updateEnergyLedger synced nowS day input s.state }
  | call (s : RunSystem) (h : s.task = .idle) : RunStep s none { s with task := .looking 0 }
  /-- The mutex was not to be had in time. -/
  | giveUp (s : RunSystem) (h : s.task ≠ .idle) (h' : ∀ turn run, s.task ≠ .storing turn run) :
      RunStep s none { s with task := .idle }
  /-- The queue is empty, or all turns are done. -/
  | done (s : RunSystem) (turn : ℕ) (h : s.task = .looking turn)
      (hdone : s.state.runQueue = [] ∨ turn = kRunQueue) : RunStep s none { s with task := .idle }
  | look (s : RunSystem) (turn : ℕ) (h : s.task = .looking turn) (hturn : turn < kRunQueue)
      (run : RunRecord) (hrun : s.state.runQueue.head? = some run) :
      RunStep s none { s with task := .storing turn run }
  | append (s : RunSystem) (turn : ℕ) (run : RunRecord) (h : s.task = .storing turn run)
      (script : List NvsFault) (ok : Bool) (hok : (storeAppendRun run s.store script).out = .val ok) :
      RunStep s (some (.appended run ok))
        { s with
          store := (storeAppendRun run s.store script).state
          task := if ok then .popping turn run else .idle }
  | pop (s : RunSystem) (turn : ℕ) (run : RunRecord) (h : s.task = .popping turn run) :
      RunStep s ((poppedRun s.state.runQueue run).map .popped)
        { s with
          state := { s.state with runQueue := popRun s.state.runQueue run }
          task := .looking (turn + 1) }

/-! ### What happened to the runs -/

/-- The runs that were finished, oldest first. -/
def finishedRuns (log : List RunEvent) : List RunRecord :=
  log.filterMap fun
    | .finished run _ => some run
    | _ => none

/-- The runs that left the queue, in that order: displaced or popped. -/
def leftRuns (log : List RunEvent) : List RunRecord :=
  log.filterMap fun
    | .finished _ displaced => displaced
    | .popped run => some run
    | .appended _ _ => none

/-- The appends with what they returned. -/
def appends (log : List RunEvent) : List (RunRecord × Bool) :=
  log.filterMap fun
    | .appended run ok => some (run, ok)
    | _ => none

/-- What is promised of the runs: they wait in the order in which they were finished
and leave in that order, a run is displaced only from a full queue and popped only
right after its own append succeeded, the appends take them oldest first, and no day
holds a run twice. -/
structure HandedOver (s : RunSystem) (log : List RunEvent) : Prop where
  fifo : finishedRuns log = leftRuns log ++ s.state.runQueue
  displaced_full : ∀ pre run old post, log = pre ++ .finished run (some old) :: post →
    (finishedRuns pre).length = (leftRuns pre).length + kRunQueue
  popped_stored : ∀ pre run post, log = pre ++ .popped run :: post →
    (appends pre).getLast? = some (run, true)
  appended_finished : ∀ a ∈ appends log, a.1 ∈ finishedRuns log
  oldest_first : (appends log).Pairwise fun a b =>
    (finishedRuns log).idxOf a.1 ≤ (finishedRuns log).idxOf b.1
  stored_once : ∀ date d, storedDay s.store date = some d → (d.runs.map (·.startS)).Nodup

section Events

variable (log : List RunEvent) (run : RunRecord) (displaced : Option RunRecord) (ok : Bool)

@[simp] lemma finishedRuns_finished :
    finishedRuns (log ++ [.finished run displaced]) = finishedRuns log ++ [run] := by
  simp [finishedRuns]

@[simp] lemma finishedRuns_appended :
    finishedRuns (log ++ [.appended run ok]) = finishedRuns log := by simp [finishedRuns]

@[simp] lemma finishedRuns_popped : finishedRuns (log ++ [.popped run]) = finishedRuns log := by
  simp [finishedRuns]

@[simp] lemma leftRuns_finished :
    leftRuns (log ++ [.finished run displaced]) = leftRuns log ++ displaced.toList := by
  cases displaced <;> simp [leftRuns]

@[simp] lemma leftRuns_appended : leftRuns (log ++ [.appended run ok]) = leftRuns log := by
  simp [leftRuns]

@[simp] lemma leftRuns_popped : leftRuns (log ++ [.popped run]) = leftRuns log ++ [run] := by
  simp [leftRuns]

@[simp] lemma appends_finished : appends (log ++ [.finished run displaced]) = appends log := by
  simp [appends]

@[simp] lemma appends_appended :
    appends (log ++ [.appended run ok]) = appends log ++ [(run, ok)] := by simp [appends]

@[simp] lemma appends_popped : appends (log ++ [.popped run]) = appends log := by simp [appends]

end Events

/-! ### The invariant -/

/-- The run that the task holds a copy of. -/
def PersistPc.held : PersistPc → Option RunRecord
  | .storing _ run => some run
  | .popping _ run => some run
  | _ => none

/-- The place of a run among the finished ones. -/
def placeOf (log : List RunEvent) (run : RunRecord) : ℕ := (finishedRuns log).idxOf run

/-- What every step keeps: beside the promise, the copy that the task holds is of a
finished run with none left in the queue before it, and no later one was appended. -/
structure RunsKept (s : RunSystem) (log : List RunEvent) : Prop where
  fifo : finishedRuns log = leftRuns log ++ s.state.runQueue
  bound : s.state.runQueue.length ≤ kRunQueue
  displaced_full : ∀ pre run old post, log = pre ++ .finished run (some old) :: post →
    (finishedRuns pre).length = (leftRuns pre).length + kRunQueue
  popped_stored : ∀ pre run post, log = pre ++ .popped run :: post →
    (appends pre).getLast? = some (run, true)
  appended : ∀ a ∈ appends log, a.1 ∈ finishedRuns log ∧ placeOf log a.1 ≤ (leftRuns log).length
  oldest_first : (appends log).Pairwise fun a b => placeOf log a.1 ≤ placeOf log b.1
  held : ∀ run, s.task.held = some run → run ∈ finishedRuns log ∧
    placeOf log run ≤ (leftRuns log).length ∧ ∀ a ∈ appends log, placeOf log a.1 ≤ placeOf log run
  popping : ∀ turn run, s.task = .popping turn run → (appends log).getLast? = some (run, true)
  order : RunsInOrder s.store

variable {s s' : RunSystem} {log : List RunEvent}

/-- A finished run keeps the places of the others. -/
lemma placeOf_finished {run r : RunRecord} (displaced : Option RunRecord)
    (h : run ∈ finishedRuns log) : placeOf (log ++ [.finished r displaced]) run = placeOf log run := by
  rw [placeOf, finishedRuns_finished, List.idxOf_append_of_mem h, placeOf]

lemma RunsKept.start {state : EnergyState} {store : NvsFlash UInt32} (hqueue : state.runQueue = [])
    (horder : RunsInOrder store) : RunsKept { state, store } [] where
  fifo := by rw [hqueue]; rfl
  bound := by rw [hqueue]; exact Nat.zero_le _
  displaced_full pre run old post h := by simp at h
  popped_stored pre run post h := by simp at h
  appended := nofun
  oldest_first := List.Pairwise.nil
  held := nofun
  popping := nofun
  order := horder

/-- The queue after a finished run, with the run that gave way. -/
lemma queueRun_eq {queue : List RunRecord} (hbound : queue.length ≤ kRunQueue) (run : RunRecord) :
    queue ++ [run] = (displacedRun queue).toList ++ queueRun queue run ∧
      (queueRun queue run).length ≤ kRunQueue := by
  rw [displacedRun, queueRun]
  by_cases hfull : queue.length = kRunQueue
  · rw [if_pos hfull, if_pos hfull]
    cases queue with
    | nil => simp [kRunQueue] at hfull
    | cons head rest =>
        refine ⟨rfl, ?_⟩
        rw [List.tail_cons, List.length_append, List.length_singleton]
        rw [List.length_cons] at hfull
        omega
  · rw [if_neg hfull, if_neg hfull]
    refine ⟨rfl, ?_⟩
    rw [List.length_append, List.length_singleton]
    omega

/-- A reading that finishes a run. -/
lemma RunsKept.finished (h : RunsKept s log) {state : EnergyState} {run : RunRecord}
    (hqueue : state.runQueue = queueRun s.state.runQueue run) :
    RunsKept { s with state } (log ++ [.finished run (displacedRun s.state.runQueue)]) := by
  obtain ⟨hsplit, hbound⟩ := queueRun_eq h.bound run
  have hleft : (leftRuns log).length
      ≤ (leftRuns (log ++ [.finished run (displacedRun s.state.runQueue)])).length := by
    rw [leftRuns_finished, List.length_append]
    exact Nat.le_add_right _ _
  have hmem : ∀ r ∈ finishedRuns log,
      r ∈ finishedRuns (log ++ [.finished run (displacedRun s.state.runQueue)]) := by
    intro r hr
    rw [finishedRuns_finished]
    exact List.mem_append_left _ hr
  refine {
    fifo := ?_
    bound := by rw [hqueue]; exact hbound
    displaced_full := ?_
    popped_stored := ?_
    appended := ?_
    oldest_first := ?_
    held := ?_
    popping := by rw [appends_finished]; exact h.popping
    order := h.order }
  · rw [finishedRuns_finished, leftRuns_finished, hqueue, h.fifo, List.append_assoc,
      List.append_assoc, hsplit]
  · intro pre r old post hlog
    rcases split_step (e := some _) hlog with ⟨he, rfl, -⟩ | ⟨post', hold, -⟩
    · have hfull : s.state.runQueue.length = kRunQueue := by
        by_contra hne
        rw [displacedRun, if_neg hne] at he
        cases he
      rw [h.fifo, List.length_append, hfull]
    · exact h.displaced_full _ _ _ _ hold
  · intro pre r post hlog
    rcases split_step (e := some _) hlog with ⟨he, -, -⟩ | ⟨post', hold, -⟩
    · cases he
    · exact h.popped_stored _ _ _ hold
  · intro a ha
    rw [appends_finished] at ha
    obtain ⟨hfinished, hplace⟩ := h.appended a ha
    exact ⟨hmem _ hfinished, (placeOf_finished _ hfinished).trans_le (hplace.trans hleft)⟩
  · rw [appends_finished]
    refine h.oldest_first.imp_of_mem fun {a b} ha hb hab => ?_
    rw [placeOf_finished _ (h.appended a ha).1, placeOf_finished _ (h.appended b hb).1]
    exact hab
  · intro r hr
    obtain ⟨hfinished, hplace, hlater⟩ := h.held r hr
    refine ⟨hmem _ hfinished, (placeOf_finished _ hfinished).trans_le (hplace.trans hleft), ?_⟩
    intro a ha
    rw [appends_finished] at ha
    rw [placeOf_finished _ (h.appended a ha).1, placeOf_finished _ hfinished]
    exact hlater a ha

/-- A step that changes nothing but where the task is, and leaves no event. -/
lemma RunsKept.move (h : RunsKept s log) {task : PersistPc} (hheld : ∀ run, task.held = some run →
      run ∈ finishedRuns log ∧ placeOf log run ≤ (leftRuns log).length ∧
        ∀ a ∈ appends log, placeOf log a.1 ≤ placeOf log run)
    (hpopping : ∀ turn run, task ≠ .popping turn run) : RunsKept { s with task } log where
  fifo := h.fifo
  bound := h.bound
  displaced_full := h.displaced_full
  popped_stored := h.popped_stored
  appended := h.appended
  oldest_first := h.oldest_first
  held := hheld
  popping turn run htask := absurd htask (hpopping turn run)
  order := h.order

/-- The head of the queue is the first finished run that has not left. -/
lemma RunsKept.placeOf_head (h : RunsKept s log) (hdistinct : (finishedRuns log).Nodup)
    {run : RunRecord} (hrun : s.state.runQueue.head? = some run) :
    run ∈ finishedRuns log ∧ placeOf log run = (leftRuns log).length := by
  obtain ⟨rest, hrest⟩ : ∃ rest, s.state.runQueue = run :: rest := by
    cases hq : s.state.runQueue with
    | nil => rw [hq] at hrun; cases hrun
    | cons head rest =>
        rw [hq] at hrun
        cases hrun
        exact ⟨rest, rfl⟩
  have hfifo := h.fifo
  rw [hrest] at hfifo
  rw [hfifo, List.nodup_append] at hdistinct
  have hnot : run ∉ leftRuns log := fun hmem => hdistinct.2.2 run hmem run List.mem_cons_self rfl
  refine ⟨by rw [hfifo]; exact List.mem_append_right _ List.mem_cons_self, ?_⟩
  rw [placeOf, hfifo, List.idxOf_append_of_notMem hnot, List.idxOf_cons_self, Nat.add_zero]

/-- Every step keeps the invariant while the runs have distinct starts. -/
lemma runsKept_step {e : Option RunEvent} (h : RunsKept s log) (hstep : RunStep s e s')
    (hdistinct : ((finishedRuns log).map (·.startS)).Nodup) : RunsKept s' (log ++ e.toList) := by
  cases hstep with
  | poll synced nowS day input =>
      have hqueue := updateEnergyLedger_runQueue synced nowS day input s.state
      cases hrun : finishedRun synced nowS day input s.state with
      | none =>
          rw [hrun] at hqueue
          rw [Option.map_none, Option.toList_none, List.append_nil]
          exact { h with
            fifo := by rw [hqueue]; exact h.fifo
            bound := by rw [hqueue]; exact h.bound }
      | some run =>
          rw [hrun] at hqueue
          exact h.finished hqueue
  | call htask =>
      rw [Option.toList_none, List.append_nil]
      exact h.move (by rintro _ ⟨⟩) (by rintro _ _ ⟨⟩)
  | giveUp htask htask' =>
      rw [Option.toList_none, List.append_nil]
      exact h.move (by rintro _ ⟨⟩) (by rintro _ _ ⟨⟩)
  | done turn htask hdone =>
      rw [Option.toList_none, List.append_nil]
      exact h.move (by rintro _ ⟨⟩) (by rintro _ _ ⟨⟩)
  | look turn htask hturn run hrun =>
      rw [Option.toList_none, List.append_nil]
      obtain ⟨hfinished, hplace⟩ := h.placeOf_head hdistinct.of_map hrun
      refine h.move (fun r hr => ?_) (by rintro _ _ ⟨⟩)
      obtain rfl : run = r := Option.some.inj hr
      refine ⟨hfinished, hplace.le, fun a ha => ?_⟩
      rw [hplace]
      exact (h.appended a ha).2
  | append turn run htask script ok hok =>
      obtain ⟨hfinished, hplace, hlater⟩ := h.held run (by rw [htask]; rfl)
      have hcovers : (anyNvsFaults : Rely NvsFault (NvsOp UInt32)).Covers
          (storeAppendRun run s.store script).ops := fun _ _ => trivial
      have hleaves := (storeAppendRun_leaves run s.store script hcovers).1
      refine {
        fifo := by simpa using h.fifo
        bound := h.bound
        displaced_full := ?_
        popped_stored := ?_
        appended := ?_
        oldest_first := ?_
        held := ?_
        popping := ?_
        order := h.order.append hleaves }
      · intro pre r old post hlog
        rcases split_step hlog with ⟨he, -, -⟩ | ⟨post', hold, -⟩
        · cases he
        · exact h.displaced_full _ _ _ _ hold
      · intro pre r post hlog
        rcases split_step hlog with ⟨he, -, -⟩ | ⟨post', hold, -⟩
        · cases he
        · exact h.popped_stored _ _ _ hold
      · intro a ha
        simp only [Option.toList_some, appends_appended, List.mem_append, List.mem_singleton] at ha
        simp only [Option.toList_some, placeOf, finishedRuns_appended, leftRuns_appended]
        rcases ha with ha | rfl
        · exact h.appended a ha
        · exact ⟨hfinished, hplace⟩
      · simp only [Option.toList_some, appends_appended, placeOf, finishedRuns_appended,
          List.pairwise_append, List.pairwise_singleton, List.mem_singleton]
        refine ⟨h.oldest_first, trivial, ?_⟩
        rintro a ha b rfl
        exact hlater a ha
      · intro r hr
        have hheld : r = run := by
          cases ok with
          | true => exact (Option.some.inj hr).symm
          | false => cases hr
        subst hheld
        simp only [Option.toList_some, placeOf, finishedRuns_appended, leftRuns_appended,
          appends_appended]
        refine ⟨hfinished, hplace, fun a ha => ?_⟩
        rcases List.mem_append.mp ha with ha | ha
        · exact hlater a ha
        · rw [List.mem_singleton.mp ha]
      · intro turn' r hr
        cases ok with
        | true =>
            obtain ⟨-, rfl⟩ := PersistPc.popping.inj hr
            rw [Option.toList_some, appends_appended, List.getLast?_concat]
        | false => cases hr
  | pop turn run htask =>
      obtain ⟨hfinished, hplace, hlater⟩ := h.held run (by rw [htask]; rfl)
      have hlast := h.popping turn run htask
      cases hq : s.state.runQueue with
      | nil =>
          have hfifo := h.fifo
          rw [hq] at hfifo
          have hkept : RunsKept { s with state := { s.state with runQueue := [] } } log := { h with
            fifo := hfifo
            bound := Nat.zero_le _ }
          rw [poppedRun, popRun, Option.map_none, Option.toList_none, List.append_nil]
          exact hkept.move (by rintro _ ⟨⟩) (by rintro _ _ ⟨⟩)
      | cons head rest =>
          have hfifo := h.fifo
          rw [hq] at hfifo
          by_cases hsame : head.startS = run.startS
          · -- starts are distinct, so the head is the run that was stored
            have hhead : head = run := by
              refine List.inj_on_of_nodup_map hdistinct ?_ hfinished hsame
              rw [hfifo]
              exact List.mem_append_right _ List.mem_cons_self
            subst hhead
            have hpop : popRun (head :: rest) head = rest := by rw [popRun, if_pos rfl]
            have hpopped : poppedRun (head :: rest) head = some head := by rw [poppedRun, if_pos rfl]
            rw [hpop, hpopped, Option.map_some, Option.toList_some]
            refine {
              fifo := by simpa using hfifo
              bound := ?_
              displaced_full := ?_
              popped_stored := ?_
              appended := ?_
              oldest_first := ?_
              held := by rintro _ ⟨⟩
              popping := by rintro _ _ ⟨⟩
              order := h.order }
            · have hbound := h.bound
              rw [hq, List.length_cons] at hbound
              exact (Nat.le_succ _).trans hbound
            · intro pre r old post hlog
              rcases split_step (e := some _) hlog with ⟨he, -, -⟩ | ⟨post', hold, -⟩
              · cases he
              · exact h.displaced_full _ _ _ _ hold
            · intro pre r post hlog
              rcases split_step (e := some _) hlog with ⟨he, rfl, -⟩ | ⟨post', hold, -⟩
              · cases he
                exact hlast
              · exact h.popped_stored _ _ _ hold
            · intro a ha
              rw [appends_popped] at ha
              simp only [placeOf, finishedRuns_popped, leftRuns_popped, List.length_append]
              exact ⟨(h.appended a ha).1, (h.appended a ha).2.trans (Nat.le_add_right _ _)⟩
            · simp only [placeOf, finishedRuns_popped, appends_popped]
              exact h.oldest_first
          · have hpop : popRun (head :: rest) run = head :: rest := by rw [popRun, if_neg hsame]
            have hpopped : poppedRun (head :: rest) run = none := by rw [poppedRun, if_neg hsame]
            have hkept : RunsKept { s with state := { s.state with runQueue := head :: rest } } log :=
              { h with
                fifo := hfifo
                bound := by rw [← hq]; exact h.bound }
            rw [hpop, hpopped, Option.map_none, Option.toList_none, List.append_nil]
            exact hkept.move (by rintro _ ⟨⟩) (by rintro _ _ ⟨⟩)

/-! ### Whole runs -/

/-- A run of a minute that a gap in the readings ends. -/
def minuteRun : EnergyState :=
  { ledgerLoaded := true
    runs := { isOpen := true, sums := { date := 20250101, startS := 1735732800, endS := 1735732860 } } }

lemma runsInOrder_empty : RunsInOrder fun _ => none := fun _ _ h => by cases h

end ArcticController

/-
Control writes are fenced against changes of the integration token, over every
interleaving of the tasks.

* `currentHash`, `rotations`: the digest of the token and the number of its
  changes, as the events tell them;
* `IntegrationState.Follows`, `TokenSystem.Follows`: the state is the one of the
  events, a copy of it the one of earlier events, and a task between begin and
  end holds the mutex;
* `follows_step`: every step keeps this;
* `control_write_fenced`: a control write that began on a validated generation
  runs while the validated token is the current one, until its end.
-/
import ArcticController.Auth.IntegrationToken
import ArcticController.Base.TaskLock

namespace ArcticController

/-! ### The token as the events tell it -/

/-- An event at which the token changed. -/
def TokenEvent.isRotation : TokenEvent → Bool
  | .issued _ _ => true
  | .revoked _ => true
  | _ => false

/-- An event at which the token or its saved digest may have changed. -/
def TokenEvent.changes : TokenEvent → Bool
  | .stored _ => true
  | e => e.isRotation

/-- How often the token changed. -/
def rotations (log : List TokenEvent) : ℕ := log.countP (·.isRotation)

/-- The digest of the current token, if there is one. -/
def IntegrationState.current (s : IntegrationState) : Option Digest :=
  if s.integrationTokenSet then some s.integrationTokenHash else none

section Fence

variable (sha : List UInt8 → Digest)

def TokenEvent.hashAfter (hash : Option Digest) : TokenEvent → Option Digest
  | .issued _ token => some (sha token)
  | .revoked _ => none
  | _ => hash

/-- The digest the events leave. -/
def currentHash (start : Option Digest) (log : List TokenEvent) : Option Digest :=
  log.foldl (TokenEvent.hashAfter sha) start

variable {sha}

lemma currentHash_append (start : Option Digest) (log more : List TokenEvent) :
    currentHash sha start (log ++ more) = currentHash sha (currentHash sha start log) more :=
  List.foldl_append

/-- The digest stays while the token does not change. -/
lemma currentHash_of_none (start : Option Digest) : ∀ (log : List TokenEvent),
    (∀ e ∈ log, ¬ e.isRotation) → currentHash sha start log = start := by
  intro log
  induction log with
  | nil => intro _; rfl
  | cons e log ih =>
      intro h
      obtain ⟨he, hlog⟩ := List.forall_mem_cons.mp h
      refine Eq.trans ?_ (ih hlog)
      cases e with
      | issued => exact absurd rfl he
      | revoked => exact absurd rfl he
      | _ => rfl

lemma rotations_append (log more : List TokenEvent) :
    rotations (log ++ more) = rotations log + rotations more := List.countP_append

lemma rotations_eq_zero {log : List TokenEvent} : rotations log = 0 ↔ ∀ e ∈ log, ¬ e.isRotation :=
  List.countP_eq_zero

/-! ### The state and its events -/

variable (sha) in
/-- The state has the digest the events tell, and counted their changes. -/
structure IntegrationState.Follows (start s : IntegrationState) (log : List TokenEvent) : Prop where
  current : s.current = currentHash sha start.current log
  generation : s.integrationGeneration
    = start.integrationGeneration + UInt32.ofNat (rotations log)

lemma IntegrationState.Follows.start (s : IntegrationState) : s.Follows sha s [] :=
  ⟨rfl, (UInt32.add_zero _).symm⟩

/-- Events that do not change the token. -/
lemma IntegrationState.Follows.append {start s : IntegrationState} {log : List TokenEvent}
    (h : start.Follows sha s log) {e : Option TokenEvent} (he : ∀ e' ∈ e, ¬ e'.isRotation) :
    start.Follows sha s (log ++ e.toList) := by
  have hnone : ∀ e' ∈ e.toList, ¬ e'.isRotation := fun e' he' => he e' (Option.mem_toList.mp he')
  refine ⟨?_, ?_⟩
  · rw [currentHash_append, currentHash_of_none _ _ hnone]
    exact h.current
  · rw [rotations_append, rotations_eq_zero.mpr hnone]
    exact h.generation

/-- A change of the token counts one more. -/
lemma IntegrationState.Follows.rotate {start s s' : IntegrationState} {log : List TokenEvent}
    (h : start.Follows sha s log) {e : TokenEvent} (he : e.isRotation)
    (hcurrent : s'.current = e.hashAfter sha (currentHash sha start.current log))
    (hgeneration : s'.integrationGeneration = s.integrationGeneration + 1) :
    start.Follows sha s' (log ++ [e]) := by
  refine ⟨?_, ?_⟩
  · rw [currentHash_append]
    exact hcurrent
  · rw [hgeneration, h.generation, rotations_append, rotations, rotations,
      List.countP_singleton, if_pos he, UInt32.add_assoc]
    exact congrArg _ (UInt32.ofNat_add _ _).symm

/-- Two states of one run with the same generation had the same token, and it
did not change from one to the other. -/
lemma IntegrationState.Follows.same {start s s' : IntegrationState} {pre mid : List TokenEvent}
    (h : start.Follows sha s pre) (h' : start.Follows sha s' (pre ++ mid))
    (heq : s.integrationGeneration = s'.integrationGeneration)
    (hlt : rotations (pre ++ mid) < 2 ^ 32) :
    s'.current = s.current ∧ ∀ e ∈ mid, ¬ e.isRotation := by
  have hword : UInt32.ofNat (rotations pre) = UInt32.ofNat (rotations (pre ++ mid)) := by
    rw [h.generation, h'.generation] at heq
    exact UInt32.add_right_inj _ |>.mp heq
  have hle : rotations pre ≤ rotations (pre ++ mid) := by
    rw [rotations_append]
    exact Nat.le_add_right _ _
  have hcount : rotations pre = rotations (pre ++ mid) := by
    have := congrArg UInt32.toNat hword
    rwa [UInt32.toNat_ofNat_of_lt' (hle.trans_lt hlt), UInt32.toNat_ofNat_of_lt' hlt] at this
  have hnone : ∀ e ∈ mid, ¬ e.isRotation := by
    rw [rotations_append] at hcount
    exact rotations_eq_zero.mp (by omega)
  refine ⟨?_, hnone⟩
  rw [h'.current, h.current, currentHash_append, currentHash_of_none _ _ hnone]

/-! ### The tasks and their events -/

/-- A task between taking the mutex and giving it back. -/
def TokenTask.underMutex : TokenTask → Prop
  | .holding _ | .issuing _ _ | .revoking | .releasing | .writing => True
  | _ => False

/-- A control write that has begun and not ended. -/
def OpenWrite (t : ℕ) (log : List TokenEvent) : Prop :=
  ∃ pre generation mid, log = pre ++ .begun t generation :: mid ∧ .ended t ∉ mid

lemma OpenWrite.of_append {t : ℕ} {log : List TokenEvent} {e : TokenEvent}
    (h : OpenWrite t (log ++ [e])) :
    (∃ generation, e = .begun t generation) ∨ (OpenWrite t log ∧ e ≠ .ended t) := by
  obtain ⟨pre, generation, mid, hlog, hmid⟩ := h
  rcases List.eq_nil_or_concat mid with rfl | ⟨mid, e', rfl⟩
  · exact .inl ⟨generation, List.singleton_inj.mp (List.append_inj' hlog rfl).2⟩
  · rw [List.concat_eq_append, ← List.cons_append, ← List.append_assoc] at hlog
    obtain ⟨hpre, he⟩ := List.append_inj' hlog rfl
    cases he
    rw [List.concat_eq_append, List.mem_append, not_or, List.mem_singleton] at hmid
    exact .inr ⟨⟨pre, generation, mid, hpre, hmid.1⟩, fun he => hmid.2 he.symm⟩

variable (sha) in
/-- A task that compares has a copy of an earlier state, and one that issues has
the digest of its token. -/
def TokenTask.Follows (start : IntegrationState) (log : List TokenEvent) : TokenTask → Prop
  | .comparing _ copy => ∃ pre, pre <+: log ∧ start.Follows sha copy pre
  | .issuing token tokenHash => tokenHash = sha token
  | _ => True

/-- An event that neither changes the token nor begins or ends a write. -/
def TokenEvent.isQuiet : TokenEvent → Bool
  | .validated _ _ _ => true
  | .stored _ => true
  | _ => false

lemma TokenEvent.not_isRotation {e : TokenEvent} (h : e.isQuiet) : ¬ e.isRotation := by
  cases e with
  | validated => exact Bool.false_ne_true
  | stored => exact Bool.false_ne_true
  | _ => cases h

lemma TokenTask.Follows.append {start : IntegrationState} {log : List TokenEvent}
    {task : TokenTask} (h : task.Follows sha start log) (more : List TokenEvent) :
    task.Follows sha start (log ++ more) := by
  cases task with
  | comparing token copy =>
      obtain ⟨pre, hpre, hcopy⟩ := h
      exact ⟨pre, hpre.trans (List.prefix_append _ _), hcopy⟩
  | _ => exact h

/-- The tasks after one of them moved. -/
lemma follows_update {start : IntegrationState} {task : ℕ → TokenTask} {log : List TokenEvent}
    (h : ∀ t, (task t).Follows sha start log) {t : ℕ} {new : TokenTask}
    (hnew : new.Follows sha start log) (more : List TokenEvent) (t' : ℕ) :
    (Function.update task t new t').Follows sha start (log ++ more) := by
  refine TokenTask.Follows.append ?_ more
  exact (Function.forall_update_iff task fun _ task' => task'.Follows sha start log).mpr
    ⟨hnew, fun t' _ => h t'⟩ t'

variable (sha) in
/-- The system is as its events tell: the state, the copies of it, the mutex, and
the tasks that write. -/
structure TokenSystem.Follows (start : IntegrationState) (s : TokenSystem)
    (log : List TokenEvent) : Prop where
  state : start.Follows sha s.state log
  task : ∀ t, (s.task t).Follows sha start log
  mutex : Guards TokenTask.underMutex s.mutex s.task
  writing : ∀ t, OpenWrite t log → s.task t = .writing

/-- A task that was not writing moves, and no write begins. -/
lemma writing_update {task : ℕ → TokenTask} {log : List TokenEvent}
    (h : ∀ t, OpenWrite t log → task t = .writing) {t : ℕ} (hne : task t ≠ .writing)
    {e : Option TokenEvent} (he : ∀ t generation, e ≠ some (.begun t generation)) (new : TokenTask) :
    ∀ t', OpenWrite t' (log ++ e.toList) → Function.update task t new t' = .writing := by
  intro t' hopen
  have hlog : OpenWrite t' log := by
    cases e with
    | none => rwa [Option.toList_none, List.append_nil] at hopen
    | some e =>
        rcases hopen.of_append with ⟨generation, rfl⟩ | ⟨hlog, -⟩
        · exact absurd rfl (he t' generation)
        · exact hlog
  have ht : t' ≠ t := fun ht => hne (ht ▸ h t' hlog)
  rw [Function.update_of_ne ht]
  exact h t' hlog

/-- A task that was not writing moves, and neither the token changes nor a write
begins. -/
lemma TokenSystem.Follows.move {start : IntegrationState} {s : TokenSystem}
    {log : List TokenEvent} (h : s.Follows sha start log) {t : ℕ} (hne : s.task t ≠ .writing)
    {e : Option TokenEvent} (he : ∀ e' ∈ e, e'.isQuiet) {new : TokenTask}
    (hnew : new.Follows sha start log) {mutex : Option ℕ}
    (hmutex : Guards TokenTask.underMutex mutex (Function.update s.task t new)) :
    TokenSystem.Follows sha start
      { s with mutex := mutex, task := Function.update s.task t new } (log ++ e.toList) where
  state := h.state.append fun e' he' => TokenEvent.not_isRotation (he e' he')
  task := follows_update (fun t' => h.task t') hnew _
  mutex := hmutex
  writing := writing_update h.writing hne (fun _ _ heq => nomatch he _ heq) new

/-- A task under the mutex changes the token. -/
lemma TokenSystem.Follows.rotate {start : IntegrationState} {s : TokenSystem}
    {log : List TokenEvent} (h : s.Follows sha start log) {t : ℕ} (hne : s.task t ≠ .writing)
    (hunder : (s.task t).underMutex) {e : TokenEvent} (he : e.isRotation) {state : IntegrationState}
    (hcurrent : state.current = e.hashAfter sha (currentHash sha start.current log))
    (hgeneration : state.integrationGeneration = s.state.integrationGeneration + 1) :
    TokenSystem.Follows sha start
      { s with state := state, task := Function.update s.task t .releasing } (log ++ [e]) where
  state := h.state.rotate he hcurrent hgeneration
  task := follows_update h.task (show TokenTask.releasing.Follows sha start log from trivial) _
  mutex := h.mutex.stay (iff_of_true trivial hunder)
  writing := writing_update h.writing hne (e := some e) (fun _ _ heq => by cases heq; cases he) _

/-- The last two fields of a state that begins or ends a write. -/
lemma TokenSystem.Follows.write {start : IntegrationState} {s : TokenSystem}
    {log : List TokenEvent} (h : s.Follows sha start log) {t : ℕ} {e : TokenEvent}
    (he : ¬ e.isRotation) {new : TokenTask} (hnew : new.Follows sha start log) {mutex : Option ℕ}
    (hmutex : Guards TokenTask.underMutex mutex (Function.update s.task t new))
    (hwriting : ∀ t', OpenWrite t' (log ++ [e]) → Function.update s.task t new t' = .writing) :
    TokenSystem.Follows sha start
      { s with mutex := mutex, task := Function.update s.task t new } (log ++ [e]) where
  state := h.state.append (e := some e) fun e' he' => by cases he'; exact he
  task := follows_update h.task hnew _
  mutex := hmutex
  writing := hwriting

/-- Every step of every task keeps the system as its events tell. -/
theorem follows_step {start : IntegrationState} {s s' : TokenSystem} {log : List TokenEvent}
    {e : Option TokenEvent} (h : s.Follows sha start log) (hstep : TokenStep sha s e s') :
    s'.Follows sha start (log ++ e.toList) := by
  have hnil : log ++ (none : Option TokenEvent).toList = log := List.append_nil log
  have hnone : ∀ e' ∈ (none : Option TokenEvent), e'.isQuiet := nofun
  have hsome : ∀ {e : TokenEvent}, e.isQuiet → ∀ e' ∈ some e, e'.isQuiet :=
    fun he e' he' => Option.some.inj he' ▸ he
  -- A task moves outside of the mutex, or under it.
  have hout : ∀ {t : ℕ} {new : TokenTask}, ¬ (s.task t).underMutex → ¬ new.underMutex →
      Guards TokenTask.underMutex s.mutex (Function.update s.task t new) :=
    fun hold hnew => h.mutex.stay (iff_of_false hnew hold)
  have hin : ∀ {t : ℕ} {new : TokenTask}, (s.task t).underMutex → new.underMutex →
      Guards TokenTask.underMutex s.mutex (Function.update s.task t new) :=
    fun hold hnew => h.mutex.stay (iff_of_true hnew hold)
  cases hstep with
  | rejectShape => exact hnil.symm ▸ h
  | nullBuffer => exact hnil.symm ▸ h
  | callValidate t token ht _ =>
      refine h.move ?_ hnone ?_ (hout ?_ ?_)
      · rw [ht]; nofun
      · trivial
      · rw [ht]; exact id
      · exact id
  | copyState t token ht =>
      refine h.move ?_ hnone ?_ (hout ?_ ?_)
      · rw [ht]; nofun
      · exact ⟨log, List.prefix_rfl, h.state⟩
      · rw [ht]; exact id
      · exact id
  | compare t token copy hashed ht =>
      refine h.move ?_ ?_ ?_ (hout ?_ ?_)
      · rw [ht]; nofun
      · cases validateResult sha hashed token copy with
        | none => exact hnone
        | some generation => exact hsome rfl
      · trivial
      · rw [ht]; exact id
      · exact id
  | call t call ht =>
      refine h.move ?_ hnone ?_ (hout ?_ ?_)
      · rw [ht]; nofun
      · trivial
      · rw [ht]; exact id
      · exact id
  | take t call ht hfree =>
      refine h.move ?_ hnone ?_ (Guards.take (hfree ▸ h.mutex) ?_)
      · rw [ht]; nofun
      · trivial
      · trivial
  | issueUnhashed t ht =>
      refine h.move ?_ hnone ?_ (hin ?_ ?_)
      · rw [ht]; nofun
      · trivial
      · rw [ht]; trivial
      · trivial
  | issueStore t token stored ht _ =>
      refine h.move ?_ (hsome rfl) ?_ (hin ?_ ?_)
      · rw [ht]; nofun
      · cases stored with
        | true => rfl
        | false => trivial
      · rw [ht]; trivial
      · cases stored <;> trivial
  | issue t token tokenHash ht =>
      have htask : (TokenTask.issuing token tokenHash).Follows sha start log := ht ▸ h.task t
      refine h.rotate ?_ ?_ rfl (congrArg some htask) rfl
      · rw [ht]; nofun
      · rw [ht]; trivial
  | revokeStore t stored ht =>
      refine h.move ?_ (hsome rfl) ?_ (hin ?_ ?_)
      · rw [ht]; nofun
      · cases stored <;> trivial
      · rw [ht]; trivial
      · cases stored <;> trivial
  | revoke t ht =>
      refine h.rotate ?_ ?_ rfl rfl rfl
      · rw [ht]; nofun
      · rw [ht]; trivial
  | begun t generation ht _ =>
      refine h.write ?_ ?_ (hin ?_ ?_) fun t' hopen => ?_
      · exact Bool.false_ne_true
      · trivial
      · rw [ht]; trivial
      · trivial
      · rcases hopen.of_append with ⟨g, heq⟩ | ⟨hlog, -⟩
        · cases heq
          exact Function.update_self _ _ _
        · have htt : t' ≠ t := fun htt => nomatch (htt ▸ h.writing t' hlog).symm.trans ht
          exact (Function.update_of_ne htt _ _).trans (h.writing t' hlog)
  | beginRefused t generation ht _ =>
      refine h.move ?_ hnone ?_ (hin ?_ ?_)
      · rw [ht]; nofun
      · trivial
      · rw [ht]; trivial
      · trivial
  | endWrite t ht =>
      refine h.write ?_ ?_ (h.mutex.give ?_ ?_) fun t' hopen => ?_
      · exact Bool.false_ne_true
      · trivial
      · rw [ht]; trivial
      · exact id
      · rcases hopen.of_append with ⟨g, heq⟩ | ⟨hlog, hended⟩
        · cases heq
        · have htt : t' ≠ t := fun htt => hended (htt ▸ rfl)
          exact (Function.update_of_ne htt _ _).trans (h.writing t' hlog)
  | release t ht =>
      refine h.move ?_ hnone ?_ (h.mutex.give ?_ ?_)
      · rw [ht]; nofun
      · trivial
      · rw [ht]; trivial
      · exact id

/-- The system is as its events tell in every run. -/
lemma follows_run {saved : Option (List UInt8)} {s : TokenSystem} {log : List TokenEvent}
    (hrun : Run (TokenStep sha) (.boot saved) s log) : s.Follows sha (.load saved) log := by
  refine hrun.invariant ⟨.start _, fun _ => trivial, fun _ => iff_of_false id nofun, ?_⟩
    fun _ _ _ _ _ => follows_step
  rintro t ⟨pre, generation, mid, hlog, -⟩
  cases (List.append_eq_nil_iff.mp hlog.symm).2

/-! ### Every run -/

/-- A validated token was the one of an earlier state, whose generation it was. -/
lemma validated_copy {start : IntegrationState} {s s' : TokenSystem} {log : List TokenEvent}
    (h : s.Follows sha start log) {t : ℕ} {token : List UInt8} {generation : UInt32}
    (hstep : TokenStep sha s (some (.validated t token generation)) s') :
    ∃ pre copy, pre <+: log ∧ start.Follows sha copy pre ∧ copy.current = some (sha token) ∧
      copy.integrationGeneration = generation := by
  generalize he : some (TokenEvent.validated t token generation) = e at hstep
  cases hstep with
  | compare t' token' copy hashed ht =>
      have htask : (TokenTask.comparing token' copy).Follows sha start log := ht ▸ h.task t'
      obtain ⟨pre, hpre, hcopy⟩ := htask
      rw [validateResult, hashPassword] at he
      by_cases hset : copy.integrationTokenSet
      · rw [if_neg (not_not.mpr hset)] at he
        cases hashed with
        | false => cases he
        | true =>
            simp only [if_true] at he
            by_cases hequal : (sha token').equal copy.integrationTokenHash
            · rw [if_pos hequal] at he
              cases he
              refine ⟨pre, copy, hpre, hcopy, ?_, rfl⟩
              rw [IntegrationState.current, if_pos hset, Digest.equal_iff.mp hequal]
            · rw [if_neg hequal] at he
              cases he
      · rw [if_pos hset] at he
        cases he
  | _ => cases he

/-- A write begins while a token is set and has the generation. -/
lemma begun_generation {s s' : TokenSystem} {t : ℕ} {generation : UInt32}
    (hstep : TokenStep sha s (some (.begun t generation)) s') :
    s'.state.integrationGeneration = generation := by
  generalize he : some (TokenEvent.begun t generation) = e at hstep
  cases hstep with
  | begun t' generation' ht hvalid =>
      cases he
      rw [IntegrationState.beginSection, Bool.and_eq_true, beq_iff_eq] at hvalid
      exact hvalid.2
  | compare t' token copy hashed ht =>
      cases hresult : validateResult sha hashed token copy with
      | none => rw [hresult] at he; cases he
      | some g => rw [hresult] at he; cases he
  | _ => cases he

/-- The token and its saved digest change only under the mutex, by a task that
does not write. -/
lemma changes_underMutex {s s' : TokenSystem} {e : TokenEvent}
    (hstep : TokenStep sha s (some e) s') (hchanges : e.changes) :
    ∃ t, (s.task t).underMutex ∧ s.task t ≠ .writing := by
  generalize he : some e = oe at hstep
  cases hstep with
  | compare t token copy hashed ht =>
      cases hresult : validateResult sha hashed token copy with
      | none => rw [hresult] at he; cases he
      | some g => rw [hresult] at he; cases he; cases hchanges
  | issueStore t token stored ht _ => exact ⟨t, by rw [ht]; trivial, by rw [ht]; nofun⟩
  | issue t token tokenHash ht => exact ⟨t, by rw [ht]; trivial, by rw [ht]; nofun⟩
  | revokeStore t stored ht => exact ⟨t, by rw [ht]; trivial, by rw [ht]; nofun⟩
  | revoke t ht => exact ⟨t, by rw [ht]; trivial, by rw [ht]; nofun⟩
  | begun t generation ht hvalid => cases he; cases hchanges
  | endWrite t ht => cases he; cases hchanges
  | _ => cases he

/-- Nothing changes the token or its saved digest between the begin of a write
and its end. -/
lemma open_unchanged {saved : Option (List UInt8)} {s : TokenSystem} {log : List TokenEvent}
    (hrun : Run (TokenStep sha) (.boot saved) s log) {t : ℕ} {pre during : List TokenEvent}
    {generation : UInt32} {post : List TokenEvent}
    (hlog : log = pre ++ .begun t generation :: during ++ post) (hended : .ended t ∉ during) :
    ∀ e ∈ during, ¬ e.changes := by
  intro e he hchanges
  obtain ⟨mid, rest, rfl⟩ := List.append_of_mem he
  obtain ⟨s₁, s₂, hrun₁, hstep, -⟩ := hrun.event (pre ++ .begun t generation :: mid) e
    (rest ++ post) (by rw [hlog]; simp)
  have hfollows := follows_run hrun₁
  have hwriting : s₁.task t = .writing := by
    refine hfollows.writing t ⟨pre, generation, mid, rfl, fun hmem => hended ?_⟩
    exact List.mem_append_left _ hmem
  obtain ⟨t', hunder, hne⟩ := changes_underMutex hstep hchanges
  have ht : t = t' := hfollows.mutex.unique (by rw [hwriting]; trivial) hunder
  exact hne (ht ▸ hwriting)

/-- **Control writes are fenced against token rotation**, in every run of any
number of tasks with fewer than `2 ^ 32` changes of the token. Once a token was
validated with a generation and a write begins on that generation, the token has
not changed since, and until the write ends neither the token nor its saved
digest changes: in every state from the begin to the end the validated token is
the current one. -/
theorem control_write_fenced {saved : Option (List UInt8)} {s : TokenSystem}
    {log : List TokenEvent} (hrun : Run (TokenStep sha) (.boot saved) s log)
    (hrot : rotations log < 2 ^ 32) (pre mid during post : List TokenEvent) {t t' : ℕ}
    {token : List UInt8} {generation : UInt32}
    (hlog : log = pre ++ .validated t token generation :: mid ++
      .begun t' generation :: during ++ post)
    (hended : .ended t' ∉ during) :
    (∀ e ∈ mid, ¬ e.isRotation) ∧ (∀ e ∈ during, ¬ e.changes) ∧
      ∀ s', Run (TokenStep sha) (.boot saved) s' (pre ++ .validated t token generation :: mid ++
        .begun t' generation :: during) → s'.state.current = some (sha token) := by
  have hunchanged := open_unchanged hrun hlog hended
  -- The state the token was compared with, and the one the write began in.
  obtain ⟨s₁, s₂, hrun₁, hvalidated, -⟩ := hrun.event pre (.validated t token generation)
    (mid ++ .begun t' generation :: during ++ post) (by rw [hlog]; simp)
  obtain ⟨earlier, copy, ⟨later, hearlier⟩, hcopy, hcurrent, hgeneration⟩ :=
    validated_copy (follows_run hrun₁) hvalidated
  obtain ⟨s₃, s₄, hrun₃, hbegun, hrun₄⟩ := hrun.event
    (pre ++ .validated t token generation :: mid) (.begun t' generation) (during ++ post)
    (by rw [hlog]; simp)
  have hsplit : pre ++ .validated t token generation :: mid ++ [.begun t' generation]
      = earlier ++ (later ++ .validated t token generation :: mid ++ [.begun t' generation]) := by
    rw [← hearlier]; simp
  have hlt : rotations (pre ++ .validated t token generation :: mid ++ [.begun t' generation])
      < 2 ^ 32 := by
    refine lt_of_le_of_lt ?_ hrot
    rw [hlog, show pre ++ .validated t token generation :: mid ++ .begun t' generation :: during
        ++ post = pre ++ .validated t token generation :: mid ++ [.begun t' generation] ++
          (during ++ post) by simp, rotations_append _ (during ++ post)]
    exact Nat.le_add_right _ _
  obtain ⟨hsame, hnone⟩ := hcopy.same (hsplit ▸ (follows_run hrun₄).state)
    (hgeneration.trans (begun_generation hbegun).symm) (hsplit ▸ hlt)
  refine ⟨fun e he => hnone e (by simp [he]), hunchanged, fun s' hrun' => ?_⟩
  have hduring : ∀ e ∈ during, ¬ e.isRotation := fun e he hrotation => by
    refine hunchanged e he ?_
    cases e with
    | stored => rfl
    | _ => exact hrotation
  calc s'.state.current
      = currentHash sha (IntegrationState.load saved).current
          (pre ++ .validated t token generation :: mid ++ .begun t' generation :: during) :=
        (follows_run hrun').state.current
    _ = currentHash sha (IntegrationState.load saved).current
          (pre ++ .validated t token generation :: mid ++ [.begun t' generation]) := by
        rw [List.append_cons _ (.begun t' generation) during, currentHash_append,
          currentHash_of_none _ _ hduring]
    _ = s₄.state.current := ((follows_run hrun₄).state.current).symm
    _ = some (sha token) := hsame.trans hcurrent

end Fence

/-- A control write of task 0 on the token at boot, while task 1 waits to revoke
it. -/
theorem control_write_fenced_waiting :
    ∃ s : TokenSystem, s.state.current = some .zero ∧ s.task 0 = .writing ∧
      s.task 1 = .waiting .revoke := by
  have hrun := ((((((@Run.start _ _ (TokenStep fun _ => .zero)
      (.boot (some (List.replicate 32 0)))).step
    (.callValidate _ 0 (List.replicate 64 48) rfl rfl)).step
    (.copyState _ 0 _ rfl)).step
    (.compare _ 0 _ _ true rfl)).step
    (.call _ 0 (.beginWrite 1) rfl)).step
    (.take _ 0 _ rfl rfl)).step
    (.begun _ 0 1 rfl rfl)
  have hfenced := control_write_fenced (hrun.step (.call _ 1 .revoke rfl)) (by decide) [] [] [] []
    rfl List.not_mem_nil
  exact ⟨_, hfenced.2.2 _ (hrun.step (.call _ 1 .revoke rfl)), rfl, rfl⟩

end ArcticController

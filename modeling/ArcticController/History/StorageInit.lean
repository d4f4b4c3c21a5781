/-
Whether `history_storage_init` can be retried: runs of it and of
`history_storage_load_events` in which any flash operation may fail.

* `Established`: an active bank whose header on flash is committed with the
  generation held in RAM, and its offsets;
* `StorageCall`, `StorageStep`: the calls, each with its result, what it left and
  its flash operations;
* `SparesFirstBank`: no error while the first bank is created;
* `Retryable`: the invariant, a partition that is let go of or established;
* `init_established`: in every run whose calls spare the first bank, each call
  that returns `ESP_OK` leaves the journal established.
-/
import ArcticController.Base.Runs
import ArcticController.History.EventBoot

namespace ArcticController

open NorFlash (SameOutside)

/-! ### What a successful call has to leave -/

/-- Every offset computed from a bank lies inside the event region. -/
def OffsetsInside (bank : ℤ) : Prop :=
  bankOffset bank + eventBankSize ≤ historyEventRegionSize ∧
    ∀ i < eventRecordsPerBank, recordOffset bank i + eventRecordSize ≤ historyEventRegionSize

/-- The journal is usable: one of the two banks is active, its header on flash is
committed with the generation held in RAM, and the offsets lie inside the region. -/
structure Established (s : Storage) : Prop where
  size : historyEventRegionSize ≤ s.flash.size
  bank : s.activeBank = 0 ∨ s.activeBank = 1
  committed : headerValid (headerAt s.flash s.activeBank) = true
  generation : (headerAt s.flash s.activeBank).generation = s.generation
  offsets : OffsetsInside s.activeBank ∧ OffsetsInside (1 - s.activeBank)

/-- The offsets of a bank lie inside the event region. -/
lemma IsBank.offsetsInside {b : ℤ} (hb : IsBank b) : OffsetsInside b := by
  have hle := hb.offset_le
  refine ⟨hle, fun i hi => ?_⟩
  rw [eventRecordsPerBank_eq] at hi
  rw [recordOffset_eq, eventRecordSize, historyEventRegionSize_eq]
  omega

variable {s : Storage}

lemma established_of_bank (hsize : historyEventRegionSize ≤ s.flash.size)
    (hbank : IsBank s.activeBank) (hvalid : headerValid (headerAt s.flash s.activeBank) = true)
    (hgen : (headerAt s.flash s.activeBank).generation = s.generation) : Established s :=
  ⟨hsize, hbank, hvalid, hgen, hbank.offsetsInside, hbank.other.offsetsInside⟩

/-! ### Runs -/

/-- A call of the module: whether it returned `ESP_OK`, the state it left, and
its flash operations. -/
structure StorageCall where
  ok : Bool
  after : Storage
  ops : List ((FlashOp × Storage) × FlashFault)

/-- A result of `history_storage_load_events` that is `ESP_OK`. -/
def loadOk : Outcome EspErr (LoadedEvents × Except EspErr Unit) → Bool
  | .val (_, .ok ()) => true
  | _ => false

/-- The state after a call: a loss of power resets the module. -/
def Storage.afterCall (s : Storage) {α : Type} : Outcome EspErr α → Storage
  | .cut => s.reboot
  | _ => s

/-- A call under any faults, or a reset. -/
inductive StorageStep : Storage → Option StorageCall → Storage → Prop
  | init {s : Storage} (fs : List FlashFault) :
      StorageStep s
        (some ⟨decide ((historyStorageInit s fs).out = .val ()), (historyStorageInit s fs).state,
          (historyStorageInit s fs).ops⟩)
        ((historyStorageInit s fs).state.afterCall (historyStorageInit s fs).out)
  | load {s : Storage} (capacity : ℕ) (fs : List FlashFault) :
      StorageStep s
        (some ⟨loadOk (historyStorageLoadEvents capacity s fs).out,
          (historyStorageLoadEvents capacity s fs).state,
          (historyStorageLoadEvents capacity s fs).ops⟩)
        ((historyStorageLoadEvents capacity s fs).state.afterCall
          (historyStorageLoadEvents capacity s fs).out)
  | reset {s : Storage} : StorageStep s none s.reboot

/-- The operation erases or programs. -/
def FlashOp.changes : FlashOp → Bool
  | .read _ _ => false
  | _ => true

/-- The operation reports an error. -/
def FlashFault.isError : FlashFault → Bool
  | .error _ _ _ => true
  | _ => false

/-- No erase or program operation reports an error while no bank is active, that
is, while the first bank is being created. -/
def sparesFirstBank : Rely FlashFault (FlashOp × Storage) where
  allowed o f := o.2.activeBank < 0 → o.1.changes = true → f.isError = false
  promise _ := True

/-! ### The invariant -/

/-- The partition is open and the journal established. -/
structure Opened (s : Storage) : Prop extends Established s where
  partition : s.partition = true
  gate : s.rebootPending = false

/-- The partition is let go of, with nothing kept in RAM but the mutex, or open. -/
inductive Retryable : Storage → Prop
  | released (f : NorFlash) (m : Bool) : Retryable { flash := f, telemetryMutex := m }
  | opened {s : Storage} (h : Opened s) : Retryable s

lemma retryable_reboot (s : Storage) : Retryable s.reboot := .released s.flash false

lemma promisesRest_sparesFirstBank : sparesFirstBank.PromisesRest := fun _ _ => trivial

/-! ### Creating the first bank -/

/-- While no bank is active an erase or program operation does not fail. -/
lemma not_fails {o : FlashOp} {e : EspErr} {k : ℕ} {sel : ℕ → Bool} (hbank : s.activeBank < 0)
    (ho : o.changes = true) :
    ¬ sparesFirstBank.allowed (o, s) (.error e k sel) := fun h => by
  cases h hbank ho

/-- While no bank is active the first one is created, or power is lost. -/
lemma wp_initializeEmptyBank_retryable {f : NorFlash} (hsize : historyEventRegionSize ≤ f.size) :
    wp sparesFirstBank initializeEmptyBank
      (fun o s' => o ≠ .cut → o = .val () ∧ Opened s')
      { flash := f, partition := true, telemetryMutex := true } := by
  have hbs := eventBankSize_eq
  rw [historyEventRegionSize_eq] at hsize
  set f₁ := f.eraseSectors flashSectorSize 0 eventBankSize fun _ => true
  have herased : f₁.Erased (bankOffset 0) 32 := by
    rw [bankOffset_zero]
    exact (NorFlash.erased_eraseSectors f flashSectorSize 0 eventBankSize).sub le_rfl (by omega)
  have hhead : (eventBankHeader.enc (bankHeader 1)).length = 32 := Codec.length_enc _ _
  have hword : (Codec.u32.enc bankCommittedWord).length = 4 := Codec.length_enc _ _
  have hneg : ((-1 : ℤ) < 0) := by decide
  have hcommit : wp sparesFirstBank (commitBank 0 1)
      (fun o s' => o ≠ .cut → o = .val () ∧ ∃ g,
        s' = { flash := g, partition := true, telemetryMutex := true } ∧
        262144 ≤ g.size ∧ Committed g 0 1)
      { flash := f₁, partition := true, telemetryMutex := true } := by
    refine wp_bind (wp_write_cases trivial (show _ ≤ f.size by rw [bankOffset_zero]; omega) ?_
      (fun e k sel h => absurd h (not_fails hneg rfl)) fun k sel _ h => absurd rfl h)
    rw [andThen_val]
    refine wp_write_cases trivial (show _ ≤ f.size by rw [bankOffset_zero, committedOffset]; omega) ?_
      (fun e k sel h => absurd h (not_fails hneg rfl)) fun k sel _ h => absurd rfl h
    exact fun _ => ⟨rfl, _, rfl, hsize, committed_program herased⟩
  refine wp_bind (wp_erase_cases trivial ⟨rfl, by rw [hbs, flashSectorSize]⟩
    (show _ ≤ f.size by omega) ?_ (fun e k sel h => absurd h (not_fails hneg rfl))
    fun k sel _ h => absurd rfl h)
  rw [andThen_val]
  refine wp_bind (wp_mono hcommit fun o s' ho => ?_)
  cases o with
  | cut => exact fun h => absurd rfl h
  | err e => cases (ho (by rintro ⟨⟩)).1
  | val _ =>
      obtain ⟨-, g, rfl, hg, hcommitted⟩ := ho (by rintro ⟨⟩)
      rw [andThen_val]
      exact wp_modify fun _ => ⟨rfl, established_of_bank hg (.inl rfl) hcommitted.valid
        hcommitted.generation, rfl, rfl⟩

/-- Reading a header changes nothing, or lets go of the partition. -/
lemma wp_readHeaderOrRelease_retryable {b : ℤ} (hb : IsBank b)
    (hsize : historyEventRegionSize ≤ s.flash.size) :
    wp sparesFirstBank (readHeaderOrRelease b)
      (fun o s' => match o with
        | .val header => header = headerAt s.flash b ∧ s' = s
        | .err _ => s' = { s with partition := false }
        | .cut => True) s := by
  have hin := hb.offset_le
  rw [historyEventRegionSize_eq] at hsize
  refine wp_bind (wp_attempt (wp_bind (wp_mono (wp_read (R := sparesFirstBank) trivial
    (show _ ≤ s.flash.size by rw [eventBankHeader_size]; omega)) fun o s' ho => ?_)))
  cases o with
  | val bytes =>
      obtain ⟨rfl, rfl⟩ := ho
      refine wp_pure ?_
      rw [attempted_val, andThen_val]
      exact wp_pure ⟨rfl, rfl⟩
  | err e =>
      obtain ⟨-, rfl⟩ := ho
      rw [andThen_err, attempted_err, andThen_val]
      exact wp_modify_bind (wp_throw rfl)
  | cut => trivial

/-- `history_storage_init` after a reset, or after a call that failed: it
establishes the journal or lets go of the partition. -/
lemma wp_historyStorageInit_released (f : NorFlash) (m : Bool) :
    wp sparesFirstBank historyStorageInit
      (fun o s' => match o with
        | .val _ => Opened s'
        | .err _ => Retryable s'
        | .cut => True) { flash := f, telemetryMutex := m } := by
  refine wp_get_bind (wp_if_neg (by nofun) (wp_modify_bind ?_))
  by_cases hsize : f.size < historyEventRegionSize
  · exact wp_if_pos hsize (wp_modify_bind (wp_throw (.released f true)))
  have hsize' : historyEventRegionSize ≤ f.size := Nat.not_lt.mp hsize
  refine wp_if_neg hsize (wp_bind (wp_mono (wp_readHeaderOrRelease_retryable (Or.inl rfl) hsize')
    fun o s' ho => ?_))
  cases o with
  | cut => trivial
  | err e =>
      rw [andThen_err, ho]
      exact .released f true
  | val header0 =>
      obtain ⟨rfl, rfl⟩ := ho
      rw [andThen_val]
      refine wp_bind (wp_mono (wp_readHeaderOrRelease_retryable
        (s := { flash := f, partition := true, telemetryMutex := true }) (Or.inr rfl) hsize')
        fun o s' ho => ?_)
      cases o with
      | cut => trivial
      | err e =>
          rw [andThen_err, ho]
          exact .released f true
      | val header1 =>
          obtain ⟨rfl, rfl⟩ := ho
          rw [andThen_val]
          cases hsel : chooseBank (headerAt f 0) (headerAt f 1) with
          | none =>
              refine wp_mono (wp_initializeEmptyBank_retryable hsize') fun o s' ho => ?_
              cases o with
              | cut => trivial
              | err e => cases (ho (by rintro ⟨⟩)).1
              | val _ => exact (ho (by nofun)).2
          | some b =>
              refine wp_modify ⟨established_of_bank hsize' (chooseBank_isBank hsel)
                (headerValid_of_selected hsel) ?_, rfl, rfl⟩
              rcases chooseBank_isBank hsel with rfl | rfl <;> rfl

/-- `history_storage_init` on any such state. -/
lemma wp_historyStorageInit_retryable (h : Retryable s) :
    wp sparesFirstBank historyStorageInit
      (fun o s' => match o with
        | .val _ => Opened s'
        | .err _ => Retryable s'
        | .cut => True) s := by
  cases h with
  | released f m => exact wp_historyStorageInit_released f m
  | opened h => exact wp_get_bind (wp_if_pos h.partition (wp_pure h))

/-! ### Loading -/

lemma Opened.ready (h : Opened s) : Ready s := ⟨h.size, h.partition, h.bank, h.gate⟩

/-- The cursor of an open journal is free. -/
lemma Opened.cursor (h : Opened s) (n : ℕ) (q : UInt32) :
    Opened { s with nextRecord := n, nextJournalSequence := q } :=
  ⟨⟨h.size, h.bank, h.committed, h.generation, h.offsets⟩, h.partition, h.gate⟩

/-- The scan of a load moves nothing but the cursor. -/
lemma wp_loadSlots_cursor {R : Rely FlashFault (FlashOp × Storage)} (hR : R.PromisesRest)
    (capacity left : ℕ) : ∀ (slot : ℕ) (out : LoadedEvents) (s : Storage),
      wp R (loadSlots capacity left slot out)
        (fun _ s' => ∃ n q, s' = { s with nextRecord := n, nextJournalSequence := q }) s := by
  induction left with
  | zero => exact fun _ _ s => wp_pure ⟨_, _, rfl⟩
  | succ left ih =>
      intro slot out s
      refine wp_get_bind (wp_bind (wp_attempt (wp_mono (wp_read_any (hR.read _ _ _)) ?_)))
      rintro o _ rfl
      cases o with
      | err e =>
          rw [attempted_err, andThen_val]
          exact wp_pure ⟨_, _, rfl⟩
      | cut => exact ⟨_, _, rfl⟩
      | val bytes =>
          rw [attempted_val, andThen_val]
          refine show wp R (ite (bytesAreErased bytes = true) _ _) _ _ from ?_
          split
          · exact wp_modify_bind (wp_pure ⟨_, _, rfl⟩)
          · refine show wp R (ite ((!recordValid _) = true) _ _) _ _ from ?_
            split
            · exact wp_modify_bind (wp_pure ⟨_, _, rfl⟩)
            · refine wp_modify_bind (wp_mono (ih _ _ _) fun o s' ho => ?_)
              obtain ⟨n, q, rfl⟩ := ho
              exact ⟨n, q, rfl⟩

/-- A compaction of an open journal leaves it open, also when it fails. -/
lemma wp_replaceEvents_opened (h : Opened s) (entries : ℕ → EventEntry) (eventIds : ℕ → UInt32)
    (capacity head count : ℕ) :
    wp sparesFirstBank (historyStorageReplaceEvents entries eventIds capacity head count)
      (fun o s' => o ≠ .cut → Opened s') s := by
  by_cases hcount : count ≤ capacity ∧ count ≤ 1984
  · refine wp_mono (wp_replaceEvents entries eventIds head promisesRest_sparesFirstBank h.ready
      hcount.1 hcount.2) fun o s' ho hcut => ?_
    cases o with
    | cut => exact absurd rfl hcut
    | err e =>
        obtain ⟨-, f, q, rfl, hhalf⟩ := ho
        have hhead := headerAt_of_replacing h.bank hhalf.same
        refine ⟨established_of_bank ?_ h.bank ?_ ?_, h.partition, h.gate⟩
        · exact le_of_le_of_eq h.size hhalf.same.size.symm
        · rw [hhead]
          exact h.committed
        · rw [hhead]
          exact h.generation
    | val _ =>
        obtain ⟨f, rfl, hreplaced⟩ := ho
        refine ⟨established_of_bank ?_ (IsBank.other h.bank) hreplaced.committed.valid
          hreplaced.committed.generation, h.partition, h.gate⟩
        exact le_of_le_of_eq h.size hreplaced.same.size.symm
  · have hrefused : (decide (count > capacity) || decide (count > eventRecordsPerBank)) = true := by
      rw [eventRecordsPerBank_eq, Bool.or_eq_true, decide_eq_true_eq, decide_eq_true_eq]
      omega
    exact wp_get_bind (wp_if_neg (by simp [h.gate]) (wp_if_neg
      (by simp [h.partition, h.ready.nonneg]) (wp_if_pos hrefused (wp_throw fun _ => h))))

/-- A load of an open journal leaves it open, whatever it returns. -/
lemma wp_replayActiveBank_opened (h : Opened s) (capacity : ℕ) :
    wp sparesFirstBank (replayActiveBank capacity) (fun o s' => o ≠ .cut → Opened s') s := by
  refine wp_modify_bind (wp_bind (wp_mono (wp_loadSlots_cursor promisesRest_sparesFirstBank capacity
    eventRecordsPerBank 0 {} _) fun o s' ho => ?_))
  obtain ⟨n, q, rfl⟩ := ho
  have hopen := h.cursor n q
  match o with
  | .cut => exact fun hcut => absurd rfl hcut
  | .err e => exact fun _ => hopen
  | .val (out, .error e) =>
      rw [andThen_val]
      exact wp_pure fun _ => hopen
  | .val (out, .ok false) =>
      rw [andThen_val]
      exact wp_pure fun _ => hopen
  | .val (out, .ok true) =>
      rw [andThen_val]
      refine wp_bind (wp_attempt (wp_mono (wp_replaceEvents_opened hopen _ _ _ _ _)
        fun o s' ho => ?_))
      cases o with
      | cut => exact fun hcut => absurd rfl hcut
      | err e =>
          rw [attempted_err, andThen_val]
          exact wp_pure fun _ => ho (by nofun)
      | val _ =>
          rw [attempted_val, andThen_val]
          exact wp_pure fun _ => ho (by nofun)

/-- `history_storage_load_events` on any such state. -/
lemma wp_historyStorageLoadEvents_retryable (h : Retryable s) (capacity : ℕ) :
    wp sparesFirstBank (historyStorageLoadEvents capacity)
      (fun o s' => o ≠ .cut → Retryable s' ∧ (loadOk o = true → Opened s')) s := by
  by_cases hcap : capacity = 0
  · exact wp_if_pos hcap (wp_pure fun _ => ⟨h, by nofun⟩)
  refine wp_if_neg hcap (wp_bind (wp_attempt (wp_mono (wp_historyStorageInit_retryable h)
    fun o s' ho => ?_)))
  cases o with
  | cut => exact fun hcut => absurd rfl hcut
  | err e =>
      rw [attempted_err, andThen_val]
      exact wp_pure fun _ => ⟨ho, by nofun⟩
  | val _ =>
      rw [attempted_val, andThen_val]
      refine wp_mono (wp_replayActiveBank_opened ho capacity) fun o s'' hopen hcut => ?_
      exact ⟨.opened (hopen hcut), fun _ => hopen hcut⟩

/-! ### Whole runs -/

/-- No call of a run reports an error of an erase or program operation while the
first bank is being created. -/
def SparesFirstBank (log : List StorageCall) : Prop :=
  ∀ call ∈ log, sparesFirstBank.Covers call.ops

/-- The run lemma: every state is retryable, and every call that returned `ESP_OK`
left the journal open. -/
lemma retryable_run {f : NorFlash} {log : List StorageCall}
    (hrun : Run StorageStep { flash := f } s log) :
    SparesFirstBank log → Retryable s ∧ ∀ call ∈ log, call.ok = true → Opened call.after := by
  refine hrun.invariant (I := fun s log => SparesFirstBank log →
    Retryable s ∧ ∀ call ∈ log, call.ok = true → Opened call.after)
    (fun _ => ⟨.released f false, by nofun⟩) ?_
  intro s log e s' _ ih hstep hspares
  obtain ⟨hretry, hcalls⟩ := ih fun call hcall => hspares call (List.mem_append_left _ hcall)
  cases hstep with
  | reset => exact ⟨retryable_reboot s, by simpa using hcalls⟩
  | init fs =>
      have hcovers := hspares _ (List.mem_append_right _ (List.mem_singleton_self _))
      have hspec := (wp_historyStorageInit_retryable hretry fs hcovers).1
      refine ⟨?_, fun call hcall hok => ?_⟩
      · generalize historyStorageInit s fs = r at hspec ⊢
        obtain ⟨o, s', fs', ops⟩ := r
        cases o with
        | val _ => exact .opened hspec
        | err e => exact hspec
        | cut => exact retryable_reboot s'
      · rcases List.mem_append.mp hcall with hold | hnew
        · exact hcalls call hold hok
        · obtain rfl := List.mem_singleton.mp hnew
          rw [of_decide_eq_true hok] at hspec
          exact hspec
  | load capacity fs =>
      have hcovers := hspares _ (List.mem_append_right _ (List.mem_singleton_self _))
      have hspec := (wp_historyStorageLoadEvents_retryable hretry capacity fs hcovers).1
      refine ⟨?_, fun call hcall hok => ?_⟩
      · generalize historyStorageLoadEvents capacity s fs = r at hspec ⊢
        obtain ⟨o, s', fs', ops⟩ := r
        cases o with
        | val _ => exact (hspec (by nofun)).1
        | err e => exact (hspec (by nofun)).1
        | cut => exact retryable_reboot s'
      · rcases List.mem_append.mp hcall with hold | hnew
        · exact hcalls call hold hok
        · obtain rfl := List.mem_singleton.mp hnew
          refine (hspec fun hcut => ?_).2 hok
          rw [hcut] at hok
          cases hok

/-- **Initialisation leaves a usable journal**: from any flash image, in every run
of `history_storage_init`, `history_storage_load_events` and resets in which no
erase or program operation reports an error while the first bank is being
created, every call that returns `ESP_OK` leaves an active bank whose header on
flash is committed with the generation held in RAM, and every offset inside the
event region. -/
theorem init_established {f : NorFlash} {s : Storage} {log : List StorageCall}
    (hrun : Run StorageStep { flash := f } s log) (hspares : SparesFirstBank log) :
    ∀ call ∈ log, call.ok = true → Established call.after :=
  fun call hcall hok => ((retryable_run hrun hspares).2 call hcall hok).toEstablished

theorem init_established_blank :
    Established (historyStorageInit { flash := NorFlash.blank 262144 } []).state := by
  refine init_established (f := NorFlash.blank 262144) (Run.start.step (.init [])) ?_ _
    (List.mem_append_right _ (List.mem_singleton_self _)) (by decide +kernel)
  intro call hcall p hp _ _
  obtain rfl := List.mem_singleton.mp hcall
  rw [(quiet_historyStorageInit _).2 p hp]
  rfl

/-- After a failed erase of a blank partition the next call reports success
without an active bank. -/
theorem second_init_reports_success : ∃ s log,
    Run StorageStep { flash := NorFlash.blank 262144 } s log ∧
      ∃ call ∈ log, call.ok = true ∧ ¬ Established call.after := by
  have hfirst := @StorageStep.init { flash := NorFlash.blank 262144 }
    [.none, .none, .error .fail 0 fun _ => false]
  refine ⟨_, _, (Run.start.step hfirst).step (.init []), _,
    List.mem_append_right _ (List.mem_singleton_self _), by decide +kernel, fun h => ?_⟩
  have hbank := h.bank
  revert hbank
  decide +kernel

end ArcticController

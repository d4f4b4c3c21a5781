/-
What each call of the event log does to the ring and to the journal, where
flash operations may fail but power is not lost.

* `EventLog.updates`: the back-fill of a time synchronisation as a function of
  the ring, with the versions it journals;
* `CompactEffect`, `RecordEffect`, `BackfillEffect`: what may have happened to
  the journal after a compaction, a new event and a back-fill;
* `wp_compactLocked`, `wpObs_eventLogRecord`, `wpObs_eventLogTimeSynced`,
  `wp_eventLogClear`, `wp_restoreEvents`: one specification for each call, those
  that append with the events accepted.
-/
import ArcticController.History.EventBoot
import ArcticController.History.EventLog

namespace ArcticController

open NorFlash (SameOutside torn)

variable {R : Rely FlashFault (FlashOp × Storage)} {s : Storage} {log : EventLog}

/-! ### What the calls rely on -/

/-- The active bank is the selected one and erased from the cursor on. -/
structure Clean (s : Storage) : Prop where
  selected : activeBankOf s.flash = some s.activeBank
  erased : s.flash.Erased (recordOffset s.activeBank s.nextRecord) ((1984 - s.nextRecord) * 64)

/-- The promise of `R` covers every operation of the event log, the appends as
long as they are made on a clean journal. -/
structure Rely.Promising (R : Rely FlashFault (FlashOp × Storage)) : Prop where
  rest : R.PromisesRest
  append : ∀ s id entry, Clean s → s.nextRecord < 1984 → R.promise (appendOp s id entry, s)

/-- An append leaves a clean journal clean. -/
lemma Clean.append (h : Clean s) (hroom : s.nextRecord < 1984) (id : UInt32)
    (entry : EventEntry) : Clean (s.append id entry) := by
  have hb := activeBankOf_isBank h.selected
  have hslot := recordOffset_eq s.activeBank s.nextRecord
  have hnext := recordOffset_eq s.activeBank (s.nextRecord + 1)
  have hdis := hb.offset_disjoint
  have hsame := sameOutside_record_full s.flash s.activeBank s.nextRecord (appended s id entry)
  constructor
  · change activeBankOf (s.append id entry).flash = some s.activeBank
    exact activeBankOf_of_uncommitted h.selected
      (headerAt_of_sameOutside hsame (Or.inl (by omega)))
      (Or.inl (headerAt_of_sameOutside hsame (by omega)))
  · change NorFlash.Erased _ (recordOffset s.activeBank (s.nextRecord + 1))
      ((1984 - (s.nextRecord + 1)) * 64)
    exact hsame.erased (h.erased.sub (by omega) (by omega)) (Or.inr (by omega))

/-! ### Compacting -/

/-- The records a compaction of the ring writes. -/
def EventLog.copies (log : EventLog) (s : Storage) : List EventJournalRecord :=
  compaction s log.buffer log.eventIds eventLogMaxEntries log.head log.count

lemma EventLog.copies_event (log : EventLog) (s : Storage) :
    (log.copies s).map EventJournalRecord.event = log.entries := copies_ring _

/-- A compaction of the ring that succeeded. -/
def Compacts (s : Storage) (log : EventLog) (s' : Storage) : Prop :=
  ∃ f, s' = { s with
      flash := f
      activeBank := 1 - s.activeBank
      generation := s.generation + 1
      nextJournalSequence := advance^[log.count] s.nextJournalSequence
      nextRecord := log.count } ∧
    Replaced s (log.copies s) f

/-- A compaction of the ring that was interrupted. -/
def HalfCompacts (R : Rely FlashFault (FlashOp × Storage)) (s : Storage) (log : EventLog)
    (s' : Storage) : Prop :=
  ∃ f q, s' = { s with flash := f, nextJournalSequence := q } ∧ HalfReplaced R s (log.copies s) f

/-- What a compaction leaves behind, whether it succeeded or not. -/
def CompactEffect (R : Rely FlashFault (FlashOp × Storage)) (s : Storage) (log : EventLog)
    (s' : Storage) : Prop :=
  Compacts s log s' ∨ (R.MayFail ∧ HalfCompacts R s log s')

/-- The specification of `compact_locked`. -/
lemma wp_compactLocked (hR : R.PromisesRest) (hcut : ¬ R.MayCut) (hready : log.storageReady = true)
    (hs : Ready s) (hcount : log.count ≤ eventLogMaxEntries) :
    wp R compactLocked
      (fun o w' => o = .val () ∧ ∃ s', w' = (s', log) ∧ CompactEffect R s log s') (s, log) := by
  have hfit : log.count ≤ 1984 := hcount.trans (by decide)
  refine wp_get_bind (wp_if_neg (by simp [hready]) (wp_bind (wp_attempt (wp_zoom
    (wp_mono (wp_replaceEvents _ _ _ hR hs hcount hfit) fun o s' ho => ?_)))))
  cases o with
  | val a =>
      rw [attempted_val, andThen_val]
      exact wp_pure ⟨rfl, s', rfl, Or.inl ho⟩
  | err e =>
      rw [attempted_err, andThen_val]
      exact wp_pure ⟨rfl, s', rfl, Or.inr ho⟩
  | cut => exact absurd ho.1 hcut

/-- A compaction accepts no event. -/
lemma wpObs_compactLocked {Q : Outcome EspErr Unit → EventWorld → List (UInt32 × EventEntry) → Prop}
    (hR : R.PromisesRest) (hcut : ¬ R.MayCut) (hready : log.storageReady = true) (hs : Ready s)
    (hcount : log.count ≤ eventLogMaxEntries)
    (h : ∀ s', CompactEffect R s log s' → Q (.val ()) (s', log) []) :
    wpObs R acceptedBy compactLocked Q (s, log) := by
  refine wpObs_silent (wp_mono (wp_compactLocked hR.withoutAppends hcut hready hs hcount) ?_)
  rintro o w' ⟨rfl, s', rfl, hc | ⟨hf, f, q, rfl, hhalf⟩⟩
  · exact h s' (Or.inl hc)
  · exact h _ (Or.inr ⟨hf, f, q, rfl, hhalf.of_withoutAppends⟩)

/-! ### Recording -/

/-- What may have happened to the journal when `entry` was recorded under the
id `id`, with `log` the ring that already holds it, and the events accepted. -/
inductive RecordEffect (R : Rely FlashFault (FlashOp × Storage)) (s : Storage) (log : EventLog)
    (id : UInt32) (entry : EventEntry) : List (UInt32 × EventEntry) → Storage → Prop
  | appended (hroom : s.nextRecord < 1984) :
      RecordEffect R s log id entry [(id, entry)] (s.append id entry)
  | torn {k : ℕ} {s' : Storage} (hroom : s.nextRecord < 1984) (hfail : R.MayFail)
      (hk : R.Interrupts (appendOp s id entry, s) k)
      (hcompact : CompactEffect R (s.tear id entry k) log s') : RecordEffect R s log id entry [] s'
  | full {s' : Storage} (hfull : 1984 ≤ s.nextRecord) (hcompact : CompactEffect R s log s') :
      RecordEffect R s log id entry [] s'

/-- The specification of an append made by the event log: appended, torn or
refused for lack of room. -/
lemma wpObs_appendZoom {id : UInt32} {entry : EventEntry}
    {Q : Outcome EspErr (Except EspErr Unit) → EventWorld → List (UInt32 × EventEntry) → Prop}
    (hcut : ¬ R.MayCut) (hs : Ready s) (hid : id ≠ 0)
    (hR : s.nextRecord < 1984 → R.promise (appendOp s id entry, s))
    (hok : s.nextRecord < 1984 → Q (.val (.ok ())) (s.append id entry, log) [(id, entry)])
    (htorn : ∀ e k, s.nextRecord < 1984 → R.MayFail → R.Interrupts (appendOp s id entry, s) k →
      Q (.val (.error e)) (s.tear id entry k, log) [])
    (hfull : ∀ e, 1984 ≤ s.nextRecord → Q (.val (.error e)) (s, log) []) :
    wpObs R acceptedBy ((historyStorageAppendEvent id entry).zoom.attempt : EventLogM _) Q
      (s, log) := by
  refine wpObs_attempt (wpObs_zoom ?_)
  rcases Nat.lt_or_ge s.nextRecord 1984 with hroom | hroom
  · refine wpObs_mono (wpObs_appendEvent _ hs hid hroom (hR hroom)) fun o s' acc ho => ?_
    cases o with
    | val a =>
        obtain ⟨rfl, rfl⟩ := ho
        exact hok hroom
    | err e =>
        obtain ⟨hf, rfl, k, hk, rfl⟩ := ho
        exact htorn e k hroom hf hk
    | cut => exact absurd ho.1 hcut
  · refine wpObs_silent (wp_mono (wp_appendEvent_full hs hid hroom) fun o s' ho => ?_)
    obtain ⟨rfl, rfl⟩ := ho
    exact hfull _ hroom

/-- The entry an event is recorded with. -/
def EventLog.newEntry (log : EventLog) (type payload : UInt32) (now : ℤ) (uptimeMs : UInt64) :
    EventEntry := ⟨getUnixTimestamp now, log.bootId, uptimeMs, type, payload⟩

lemma EventLog.push_count_le (hcount : log.count ≤ eventLogMaxEntries) (entry : EventEntry) :
    (log.push entry).count ≤ eventLogMaxEntries := by
  rw [EventLog.push, ringCount]
  dsimp only
  split <;> omega

/-- The specification of `event_log_record` for a valid type while the journal
is in use. -/
lemma wpObs_eventLogRecord {type : UInt32} (payload : UInt32) (now : ℤ) (uptimeMs : UInt64)
    (hR : R.PromisesRest) (hcut : ¬ R.MayCut) (hmutex : log.mutex = true)
    (htype : type < eventTypeCount) (hready : log.storageReady = true) (hs : Ready s)
    (hid : log.nextEventId ≠ 0) (hcount : log.count ≤ eventLogMaxEntries)
    (happend : s.nextRecord < 1984 → R.promise (appendOp s log.nextEventId
      (log.newEntry type payload now uptimeMs), s)) :
    wpObs R acceptedBy (eventLogRecord type payload now uptimeMs)
      (fun o w' acc => o = .val () ∧ ∃ s',
        w' = (s', log.push (log.newEntry type payload now uptimeMs)) ∧
        RecordEffect R s (log.push (log.newEntry type payload now uptimeMs)) log.nextEventId
          (log.newEntry type payload now uptimeMs) acc s') (s, log) := by
  have hpush := EventLog.push_count_le hcount (log.newEntry type payload now uptimeMs)
  have hready' : (log.push (log.newEntry type payload now uptimeMs)).storageReady = true := hready
  refine wpObs_get_bind (wpObs_if_neg (by simp [hmutex]) (wpObs_if_neg (by simpa using htype)
    (wpObs_modify_bind (wpObs_if_pos hready
      (wpObs_bind (wpObs_appendZoom hcut hs hid happend ?_ ?_ ?_))))))
  · intro hroom
    exact wpObs_pure ⟨rfl, _, rfl, .appended hroom⟩
  · intro e k hroom hfail hk
    exact wpObs_compactLocked hR hcut hready' (hs.tear _ _ _) hpush fun s' hs' =>
      ⟨rfl, s', rfl, .torn hroom hfail hk hs'⟩
  · intro e hfull
    exact wpObs_compactLocked hR hcut hready' hs hpush fun s' hs' =>
      ⟨rfl, s', rfl, .full hfull hs'⟩

variable {uptimeMs : UInt64}

/-- An event of an unknown type is ignored. -/
lemma wp_eventLogRecord_ignored {type payload : UInt32} {now : ℤ} (htype : eventTypeCount ≤ type) :
    wp R (eventLogRecord type payload now uptimeMs)
      (fun o w' => o = .val () ∧ w' = (s, log)) (s, log) := by
  refine wp_get_bind ?_
  by_cases hmutex : (!log.mutex) = true
  · exact wp_if_pos hmutex (wp_pure ⟨rfl, rfl⟩)
  · exact wp_if_neg hmutex (wp_if_pos htype (wp_pure ⟨rfl, rfl⟩))

/-- Without a journal an event is kept in RAM alone. -/
lemma wp_eventLogRecord_ramOnly {type payload : UInt32} {now : ℤ} (hmutex : log.mutex = true)
    (htype : type < eventTypeCount) (hready : log.storageReady = false) :
    wp R (eventLogRecord type payload now uptimeMs)
      (fun o w' => o = .val () ∧ w' = (s, log.push (log.newEntry type payload now uptimeMs)))
      (s, log) :=
  wp_get_bind (wp_if_neg (by simp [hmutex]) (wp_if_neg (by simpa using htype)
    (wp_modify_bind (wp_if_neg (by simp [hready]) (wp_pure ⟨rfl, rfl⟩)))))

/-! ### Back-filling timestamps -/

/-- The cell of the `i`-th newest entry. -/
def EventLog.newestIndex (log : EventLog) (i : ℕ) : ℕ :=
  (log.head + eventLogMaxEntries * 2 - 1 - i) % eventLogMaxEntries

/-- The back-fill of a time synchronisation: the ring it leaves, and the
versions it journals, newest entry first. -/
def EventLog.updates (bootEpochMs : ℤ) :
    ℕ → ℕ → EventLog → EventLog × List (UInt32 × EventEntry)
  | 0, _, log => (log, [])
  | left + 1, i, log =>
      match log.backfilled bootEpochMs (log.newestIndex i) with
      | none => EventLog.updates bootEpochMs left (i + 1) log
      | some entry =>
          let r := EventLog.updates bootEpochMs left (i + 1) (log.setEntry (log.newestIndex i) entry)
          (r.1, (log.eventIds (log.newestIndex i), entry) :: r.2)

/-- What may have happened to the journal while the versions `updates` were
appended one by one: all of them made it, or one did not and none was tried
after it. The second list is of those that were accepted. -/
inductive BackfillEffect (R : Rely FlashFault (FlashOp × Storage)) : Storage →
    List (UInt32 × EventEntry) → List (UInt32 × EventEntry) → Bool → Storage → Prop
  | done (s : Storage) : BackfillEffect R s [] [] false s
  | append {s s' : Storage} {id : UInt32} {entry : EventEntry} {updates acc compact}
      (hroom : s.nextRecord < 1984)
      (hrest : BackfillEffect R (s.append id entry) updates acc compact s') :
      BackfillEffect R s ((id, entry) :: updates) ((id, entry) :: acc) compact s'
  | full {s : Storage} {id : UInt32} {entry : EventEntry} {updates}
      (hfull : 1984 ≤ s.nextRecord) : BackfillEffect R s ((id, entry) :: updates) [] true s
  | torn {s : Storage} {id : UInt32} {entry : EventEntry} {updates} {k : ℕ}
      (hroom : s.nextRecord < 1984) (hfail : R.MayFail)
      (hk : R.Interrupts (appendOp s id entry, s) k) :
      BackfillEffect R s ((id, entry) :: updates) [] true (s.tear id entry k)

lemma BackfillEffect.ready {updates acc : List (UInt32 × EventEntry)} {compact : Bool}
    {s' : Storage} (h : BackfillEffect R s updates acc compact s') (hs : Ready s) : Ready s' := by
  induction h with
  | done s => exact hs
  | append _ _ ih => exact ih (hs.append _ _)
  | full _ => exact hs
  | torn _ _ _ => exact hs.tear _ _ _

/-- The loop once an append has failed: the rest is updated in RAM alone. -/
lemma wp_backfillEntries_compact {epoch : ℤ} (left : ℕ) : ∀ (i updated : ℕ) (log : EventLog),
    wp R (backfillEntries epoch left i true updated)
      (fun o w' => ∃ n, o = .val (true, n) ∧ w' = (s, (EventLog.updates epoch left i log).1))
      (s, log) := by
  induction left with
  | zero => intro i updated log; exact wp_pure ⟨_, rfl, rfl⟩
  | succ left ih =>
      intro i updated log
      refine wp_get_bind ?_
      rw [EventLog.updates]
      change wp R (match log.backfilled epoch (log.newestIndex i) with | none => _ | some _ => _) _ _
      cases log.backfilled epoch (log.newestIndex i) with
      | none => exact ih (i + 1) updated log
      | some entry =>
          exact wp_modify_bind (wp_if_neg (by simp) (ih (i + 1) (updated + 1)
            (log.setEntry (log.newestIndex i) entry)))

/-- The specification of the back-fill loop. -/
lemma wpObs_backfillEntries {epoch : ℤ} (hR : R.Promising) (hcut : ¬ R.MayCut) (left : ℕ) :
    ∀ (i updated : ℕ) (s : Storage) (log : EventLog), log.storageReady = true → Ready s →
      ((EventLog.updates epoch left i log).2 ≠ [] → Clean s) →
      (∀ p ∈ (EventLog.updates epoch left i log).2, p.1 ≠ 0) →
      wpObs R acceptedBy (backfillEntries epoch left i false updated)
        (fun o w' acc => ∃ compact n s', o = .val (compact, n) ∧
          w' = (s', (EventLog.updates epoch left i log).1) ∧
          BackfillEffect R s (EventLog.updates epoch left i log).2 acc compact s') (s, log) := by
  induction left with
  | zero => intro i updated s log _ _ _ _; exact wpObs_pure ⟨_, _, _, rfl, rfl, .done s⟩
  | succ left ih =>
      intro i updated s log hready hs hclean hids
      refine wpObs_get_bind ?_
      rw [EventLog.updates] at hclean hids ⊢
      change wpObs R _ (match log.backfilled epoch (log.newestIndex i) with
        | none => _ | some _ => _) _ _
      cases hback : log.backfilled epoch (log.newestIndex i) with
      | none =>
          rw [hback] at hclean hids
          exact ih (i + 1) updated s log hready hs hclean hids
      | some entry =>
          rw [hback] at hclean hids
          have hclean := hclean (List.cons_ne_nil _ _)
          have hlast : ∀ s' : Storage, BackfillEffect R s
              ((log.eventIds (log.newestIndex i), entry) :: (EventLog.updates epoch left (i + 1)
                (log.setEntry (log.newestIndex i) entry)).2) [] true s' →
              wpObs R acceptedBy (backfillEntries epoch left (i + 1) true (updated + 1))
                (fun o w' acc => ∃ compact n s', o = .val (compact, n) ∧
                  w' = (s', (EventLog.updates epoch left (i + 1)
                    (log.setEntry (log.newestIndex i) entry)).1) ∧
                  BackfillEffect R s ((log.eventIds (log.newestIndex i), entry) ::
                    (EventLog.updates epoch left (i + 1)
                      (log.setEntry (log.newestIndex i) entry)).2) ([] ++ acc) compact s')
                (s', log.setEntry (log.newestIndex i) entry) := fun s' heff => by
            refine wpObs_silent (wp_mono (wp_backfillEntries_compact left (i + 1) (updated + 1)
              (log.setEntry (log.newestIndex i) entry)) ?_)
            rintro o w' ⟨n, rfl, rfl⟩
            exact ⟨true, n, s', rfl, rfl, heff⟩
          refine wpObs_modify_bind (wpObs_if_pos (by simp [hready]) (wpObs_bind
            (wpObs_appendZoom hcut hs (hids _ List.mem_cons_self)
              (hR.append s _ _ hclean) ?_ ?_ ?_)))
          · intro hroom
            refine wpObs_mono (ih (i + 1) (updated + 1)
              (s.append (log.eventIds (log.newestIndex i)) entry)
              (log.setEntry (log.newestIndex i) entry) hready (hs.append _ _)
              (fun _ => hclean.append hroom _ _) fun p hp => hids p (List.mem_cons_of_mem _ hp)) ?_
            rintro o w' acc ⟨compact, n, s', rfl, rfl, heff⟩
            exact ⟨compact, n, s', rfl, rfl, .append hroom heff⟩
          · intro e k hroom hfail hk
            exact hlast _ (.torn hroom hfail hk)
          · intro e hfull
            exact hlast _ (.full hfull)

/-- A back-fill changes nothing but entries. -/
lemma EventLog.updates_frame (epoch : ℤ) (left : ℕ) : ∀ (i : ℕ) (log : EventLog),
    ∃ buffer, (EventLog.updates epoch left i log).1 = { log with buffer := buffer } := by
  induction left with
  | zero => intro i log; exact ⟨log.buffer, rfl⟩
  | succ left ih =>
      intro i log
      rw [EventLog.updates]
      cases log.backfilled epoch (log.newestIndex i) with
      | none => exact ih (i + 1) log
      | some entry =>
          obtain ⟨buffer, h⟩ := ih (i + 1) (log.setEntry (log.newestIndex i) entry)
          exact ⟨buffer, h⟩

/-- The ring after a time synchronisation at which the boot is found to have
begun at `epoch`. -/
def EventLog.synced (log : EventLog) (epoch : ℤ) : EventLog :=
  (EventLog.updates epoch log.count 0 log).1

/-- The versions a time synchronisation journals. -/
def EventLog.backfills (log : EventLog) (epoch : ℤ) : List (UInt32 × EventEntry) :=
  (EventLog.updates epoch log.count 0 log).2

/-- What may have happened to the journal at a time synchronisation, and the
versions accepted. -/
def SyncEffect (R : Rely FlashFault (FlashOp × Storage)) (s : Storage) (log : EventLog)
    (epoch : ℤ) (acc : List (UInt32 × EventEntry)) (s' : Storage) : Prop :=
  ∃ compact s1, BackfillEffect R s (log.backfills epoch) acc compact s1 ∧
    if compact then CompactEffect R s1 (log.synced epoch) s' else s' = s1

/-- The end of `event_log_time_synced`: the revision counts a call that updated
something. -/
lemma wp_bumpRevision {w : EventWorld} (updated : ℕ) :
    wp R (if updated > 0 then
        FaultM.modify fun w => (w.1, { w.2 with revision := w.2.revision + 1 })
      else pure () : EventLogM Unit)
      (fun o w' => o = .val () ∧ ∃ revision, w' = (w.1, { w.2 with revision := revision })) w := by
  split
  · exact wp_modify ⟨rfl, _, rfl⟩
  · exact wp_pure ⟨rfl, w.2.revision, rfl⟩

/-- The specification of `event_log_time_synced` while the journal is in use. -/
lemma wpObs_eventLogTimeSynced {sec usec : ℤ} (hR : R.Promising) (hcut : ¬ R.MayCut)
    (hmutex : log.mutex = true) (hready : log.storageReady = true) (hs : Ready s)
    (hclean : log.backfills (bootEpochMs sec usec uptimeMs) ≠ [] → Clean s)
    (hcount : log.count ≤ eventLogMaxEntries)
    (hids : ∀ p ∈ log.backfills (bootEpochMs sec usec uptimeMs), p.1 ≠ 0) :
    wpObs R acceptedBy (eventLogTimeSynced sec usec uptimeMs)
      (fun o w' acc => o = .val () ∧ ∃ s' revision,
        w' = (s', { log.synced (bootEpochMs sec usec uptimeMs) with revision := revision }) ∧
        SyncEffect R s log (bootEpochMs sec usec uptimeMs) acc s') (s, log) := by
  obtain ⟨buffer, hframe⟩ := EventLog.updates_frame (bootEpochMs sec usec uptimeMs) log.count 0 log
  have hready' : (log.synced (bootEpochMs sec usec uptimeMs)).storageReady = true := by
    rw [EventLog.synced, hframe]; exact hready
  have hcount' : (log.synced (bootEpochMs sec usec uptimeMs)).count ≤ eventLogMaxEntries := by
    rw [EventLog.synced, hframe]; exact hcount
  refine wpObs_get_bind (wpObs_if_neg (by simp [hmutex]) (wpObs_bind (wpObs_mono
    (wpObs_backfillEntries hR hcut log.count 0 0 s log hready hs hclean hids) ?_)))
  rintro o w' acc ⟨compact, n, s1, rfl, rfl, heff⟩
  cases compact with
  | false =>
      refine wpObs_bind (wpObs_pure (wpObs_silent (wp_mono (wp_bumpRevision n) ?_)))
      rintro o w' ⟨rfl, revision, rfl⟩
      exact ⟨rfl, s1, revision, rfl, false, s1, by simpa [EventLog.backfills] using heff, rfl⟩
  | true =>
      have hs1 : Ready s1 := heff.ready hs
      refine wpObs_bind (wpObs_compactLocked hR.rest hcut hready' hs1 hcount' fun s2 hs2 =>
        wpObs_silent (wp_mono (wp_bumpRevision n) ?_))
      rintro o w' ⟨rfl, revision, rfl⟩
      exact ⟨rfl, s2, revision, rfl, true, s1, by simpa [EventLog.backfills] using heff, hs2⟩

/-- The back-fill loop without a journal. -/
lemma wp_backfillEntries_ramOnly {epoch : ℤ} (left : ℕ) : ∀ (i updated : ℕ) (log : EventLog),
    log.storageReady = false →
    wp R (backfillEntries epoch left i false updated)
      (fun o w' => ∃ n, o = .val (false, n) ∧ w' = (s, (EventLog.updates epoch left i log).1))
      (s, log) := by
  induction left with
  | zero => intro i updated log _; exact wp_pure ⟨_, rfl, rfl⟩
  | succ left ih =>
      intro i updated log hready
      refine wp_get_bind ?_
      rw [EventLog.updates]
      change wp R (match log.backfilled epoch (log.newestIndex i) with | none => _ | some _ => _) _ _
      cases log.backfilled epoch (log.newestIndex i) with
      | none => exact ih (i + 1) updated log hready
      | some entry =>
          exact wp_modify_bind (wp_if_neg (by simp [hready]) (ih (i + 1) (updated + 1)
            (log.setEntry (log.newestIndex i) entry) hready))

/-- Without a journal, or before the boot, a time synchronisation touches the
ring alone. -/
lemma wp_eventLogTimeSynced_ramOnly {sec usec : ℤ} (hready : log.storageReady = false) :
    wp R (eventLogTimeSynced sec usec uptimeMs)
      (fun o w' => o = .val () ∧ ∃ log', w' = (s, log') ∧ log'.storageReady = false) (s, log) := by
  refine wp_get_bind ?_
  by_cases hmutex : (!log.mutex) = true
  · exact wp_if_pos hmutex (wp_pure ⟨rfl, log, rfl, hready⟩)
  · obtain ⟨buffer, hframe⟩ :=
      EventLog.updates_frame (bootEpochMs sec usec uptimeMs) log.count 0 log
    refine wp_if_neg hmutex (wp_bind (wp_mono
      (wp_backfillEntries_ramOnly log.count 0 0 log hready) ?_))
    rintro o w' ⟨n, rfl, rfl⟩
    rw [andThen_val]
    refine wp_bind (wp_pure ?_)
    rw [andThen_val]
    refine wp_mono (wp_bumpRevision n) ?_
    rintro o w' ⟨rfl, revision, rfl⟩
    exact ⟨rfl, _, rfl, by rw [hframe]; exact hready⟩

/-! ### Clearing -/

/-- The specification of `event_log_clear` while the journal is in use. -/
lemma wp_eventLogClear (hR : R.PromisesRest) (hcut : ¬ R.MayCut) (hmutex : log.mutex = true)
    (hready : log.storageReady = true) (hs : Ready s) :
    wp R eventLogClear
      (fun o w' => o = .val () ∧ ∃ s', w' = (s', log.cleared) ∧
        CompactEffect R s log.cleared s') (s, log) := by
  have hready' : log.cleared.storageReady = true := hready
  exact wp_get_bind (wp_if_neg (by simp [hmutex]) (wp_modify_bind
    (wp_compactLocked hR hcut hready' hs (Nat.zero_le _))))

/-- Without a journal, or before the boot, a clear touches the ring alone. -/
lemma wp_eventLogClear_ramOnly (hready : log.storageReady = false) :
    wp R eventLogClear
      (fun o w' => o = .val () ∧ ∃ log', w' = (s, log') ∧ log'.storageReady = false) (s, log) := by
  refine wp_get_bind ?_
  by_cases hmutex : (!log.mutex) = true
  · exact wp_if_pos hmutex (wp_pure ⟨rfl, log, rfl, hready⟩)
  · have hready' : log.cleared.storageReady = false := hready
    exact wp_if_neg hmutex (wp_modify_bind (wp_get_bind (wp_if_pos (by simp [hready'])
      (wp_pure ⟨rfl, log.cleared, rfl, hready'⟩))))

/-! ### Booting -/

/-- The result of a boot that meets no fault. -/
def loadOf (f : NorFlash) : Outcome EspErr (LoadedEvents × Except EspErr Unit) :=
  (historyStorageLoadEvents eventLogMaxEntries { flash := f } []).out

lemma loadOf_eq {f : NorFlash} (hsize : 262144 ≤ f.size) :
    loadOf f = .val (recovered eventLogMaxEntries f, .ok ()) :=
  (loadEvents_recovers (by decide) hsize [] ((quiet_historyStorageLoadEvents _).covers _)).1

/-- The ring a boot restores from what it loaded. -/
def EventLog.booted (bootId : UInt32) (out : LoadedEvents) : EventLog :=
  EventLog.restored { mutex := true, bootId := bootId } out true

/-- How a boot that failed leaves the flash. -/
def HalfBooted (R : Rely FlashFault (FlashOp × Storage)) (f g : NorFlash) : Prop :=
  HalfInitialised f g ∨
    ∃ h b, Initialised f h b ∧ HalfLoaded R eventLogMaxEntries (ArcticController.booted h b) g

/-- The specification of a reset and the boot that follows, up to the first
event: the ring is restored, or the journal stays out of use. -/
lemma wp_restoreEvents {f : NorFlash} {bootId : UInt32} {log0 : EventLog} (hR : R.PromisesRest)
    (hcut : ¬ R.MayCut) (hsize : 262144 ≤ f.size) :
    wp R (restoreEvents bootId)
      (fun o w' => o = .val () ∧
        ((∃ s' log', w' = (s', log') ∧ log'.storageReady = false ∧ log'.mutex = true ∧
            R.MayFail ∧ HalfBooted R f s'.flash) ∨
          ∃ g b s', Initialised f g b ∧ Loaded eventLogMaxEntries (booted g b) s' ∧
            w' = (s', EventLog.booted bootId
              (replay eventLogMaxEntries (scanSlots g b 1984 0).1))))
      ({ flash := f }, log0) := by
  refine wp_modify_bind (wp_bind (wp_attempt (wp_zoom (wp_mono
    (wp_historyStorageInit hR hsize) fun o s1 ho => ?_))))
  cases o with
  | cut => exact absurd ho.1 hcut
  | err e =>
      rw [attempted_err, andThen_val]
      exact wp_pure ⟨rfl, Or.inl ⟨s1, _, rfl, rfl, rfl, ho.1, Or.inl ho.2⟩⟩
  | val a =>
      obtain ⟨g, b, rfl, hinit⟩ := ho
      rw [attempted_val, andThen_val]
      refine wp_bind (wp_zoom (wp_if_neg (by decide) ?_))
      refine wp_bind (wp_attempt (wp_get_bind (wp_if_pos rfl (wp_pure ?_))))
      rw [attempted_val, andThen_val]
      refine wp_mono (wp_replayActiveBank (by decide) hR (hinit.ready hsize)) fun o s2 ho => ?_
      match o, ho with
      | .val (out, .ok ()), ho =>
          obtain ⟨hout, hload⟩ := ho
          rw [andThen_val]
          refine wp_modify ⟨rfl, Or.inr ⟨g, b, s2, hinit, hload, ?_⟩⟩
          rw [hout]
          rfl
      | .val (out, .error e), ho =>
          rw [andThen_val]
          exact wp_modify ⟨rfl, Or.inl ⟨s2, _, rfl, rfl, rfl, ho.1,
            Or.inr ⟨g, b, hinit, ho.2⟩⟩⟩
      | .cut, ho => exact absurd ho.1 hcut

end ArcticController

/-
Loss of power during an operation of the event journal: the next boot finds the
events from before the operation or those from after it.

* `powerLoss`: power may be lost at any flash operation; what is left of a
  record is rejected by its checksum;
* `JournalOp`: an append, a compaction, a load with its repair, a first-time
  initialisation;
* `CrashAtomic`: what such an operation promises, also when the boots that
  follow are interrupted in turn;
* `crash_atomic`: **the operations are crash-atomic** on every image that
  successful event log calls produce, as long as the generation has not wrapped;
* `wrapped_not_crash_atomic`: once it has, they are not.
-/
import ArcticController.History.EventReplay

namespace ArcticController

open NorFlash (SameOutside torn)

variable {s : Storage} {records : List EventJournalRecord}

/-! ### Losing power -/

/-- Power may be lost at any operation, and no operation reports an error. -/
def powerLoss : Rely FlashFault (FlashOp × Storage) :=
  ⟨fun o f => (∀ e k sel, f ≠ .error e k sel) ∧ CrcRejects o f, fun _ => True⟩

lemma wp_powerLoss {m : HistoryM Unit} {Q : Outcome EspErr Unit → Storage → Prop}
    (h : wp anyFaults m Q s) : wp powerLoss m Q s :=
  wp_rely h (fun _ _ _ => trivial) fun _ _ => trivial

lemma promisesRest_powerLoss : powerLoss.PromisesRest := fun _ _ => trivial

/-- What `powerLoss` leaves of a record is rejected by its checksum. -/
lemma tornRejected_of_interrupts {off : ℕ} {bytes : List UInt8} {k : ℕ}
    (h : powerLoss.Interrupts (.write off bytes, s) k) : TornRejected bytes k := by
  rcases h with ⟨e, sel, hne, h⟩ | ⟨sel, -, h⟩
  · exact absurd rfl (hne e k sel)
  · exact h

/-! ### The operations -/

/-- The operations of the journal that change flash; the last two follow a
reset. -/
inductive JournalOp where
  | append (eventId : UInt32) (entry : EventEntry)
  | replace (entries : ℕ → EventEntry) (eventIds : ℕ → UInt32) (capacity head count : ℕ)
  | load
  | init

def JournalOp.exec : JournalOp → HistoryM Unit
  | .append eventId entry => historyStorageAppendEvent eventId entry
  | .replace entries eventIds capacity head count =>
      historyStorageReplaceEvents entries eventIds capacity head count
  | .load => do
      FaultM.modify Storage.reboot
      let _ ← historyStorageLoadEvents eventLogMaxEntries
      pure ()
  | .init => do
      FaultM.modify Storage.reboot
      historyStorageInit

/-- The image after a number of boots, each with the faults that hit it. -/
def afterBoots (f : NorFlash) : List (List FlashFault) → NorFlash
  | [] => f
  | faults :: boots =>
      afterBoots (historyStorageLoadEvents eventLogMaxEntries { flash := f } faults).state.flash
        boots

/-- Whenever power is lost during `op`, and however many boots are interrupted
after that, the next one succeeds with the events from before `op` or with
those from after it. -/
def CrashAtomic (s : Storage) (op : JournalOp) : Prop :=
  ∀ faults boots, powerLoss.Covers (op.exec s faults).ops →
    ∃ out old new, loadOf (afterBoots (op.exec s faults).state.flash boots) = .val (out, .ok ()) ∧
      loadOf s.flash = .val (old, .ok ()) ∧
      loadOf (op.exec s []).state.flash = .val (new, .ok ()) ∧
      (out.events = old.events ∨ out.events = new.events)

lemma afterBoots_events (boots : List (List FlashFault)) : ∀ f : NorFlash, 262144 ≤ f.size →
    (recovered eventLogMaxEntries (afterBoots f boots)).events
        = (recovered eventLogMaxEntries f).events ∧
      262144 ≤ (afterBoots f boots).size := by
  induction boots with
  | nil => exact fun f hsize => ⟨rfl, hsize⟩
  | cons faults boots ih =>
      intro f hsize
      obtain ⟨hevents, hsz⟩ := (loadEvents_preserves eventLogMaxEntries (by decide)
        hsize faults (fun _ _ => trivial)).1
      obtain ⟨h1, h2⟩ := ih _ (hsz ▸ hsize)
      exact ⟨h1.trans hevents, h2⟩

/-! ### A torn append -/

/-- A torn append leaves the events from before it, unless all of its record
was programmed after all. -/
lemma recovered_tear (h : InStep s records) (hroom : s.nextRecord < 1984) {id : UInt32}
    {entry : EventEntry} {k : ℕ} (capacity : ℕ)
    (hk : TornRejected (eventJournalRecord.enc (appended s id entry)) k) :
    recovered capacity (s.tear id entry k).flash = recovered capacity s.flash ∨
      recovered capacity (s.tear id entry k).flash = recovered capacity (s.append id entry).flash :=
    by
  have hlen : (eventJournalRecord.enc (appended s id entry)).length = 64 := Codec.length_enc _ _
  have hslot := recordOffset_eq s.activeBank s.nextRecord
  have hdis := h.bank.offset_disjoint
  have hcur := h.cursor
  have hsame : SameOutside s.flash (s.tear id entry k).flash
      (recordOffset s.activeBank s.nextRecord) 64 := sameOutside_record _ _ _ _ k
  have hfull : SameOutside s.flash (s.append id entry).flash
      (recordOffset s.activeBank s.nextRecord) 64 := sameOutside_record_full _ _ _ _
  have her := h.holds.erased_slot (i := s.nextRecord) (by omega) hroom
  have hread : slotBytes (s.tear id entry k).flash s.activeBank s.nextRecord
      = torn (eventJournalRecord.enc (appended s id entry)) k := by
    have := NorFlash.read_program_take (f := s.flash)
      (eventJournalRecord.enc (appended s id entry)) k (by rw [hlen]; exact her)
    rwa [hlen] at this
  have hothers : ∀ g, SameOutside s.flash g (recordOffset s.activeBank s.nextRecord) 64 →
      ∀ i, i ≠ s.nextRecord → slotBytes g s.activeBank i = slotBytes s.flash s.activeBank i :=
    fun g hg i hi => hg.read_eq (by
      have := recordOffset_eq s.activeBank i
      rw [eventRecordSize]
      omega)
  have hselect : ∀ g, SameOutside s.flash g (recordOffset s.activeBank s.nextRecord) 64 →
      activeBankOf g = some s.activeBank := fun g hg =>
    activeBankOf_of_uncommitted h.selected (headerAt_of_sameOutside hg (Or.inl (by omega)))
      (Or.inl (headerAt_of_sameOutside hg (by omega)))
  rcases hk.cases with htorn | hinvalid
  · refine Or.inr (recovered_congr (hselect _ hfull) (hselect _ hsame) fun i _ => ?_)
    by_cases hi : i = s.nextRecord
    · subst hi
      have := NorFlash.read_program_erased (f := s.flash)
        (eventJournalRecord.enc (appended s id entry)) (by rw [hlen]; exact her)
      rw [hlen] at this
      rw [hread, htorn]
      exact this.symm
    · rw [hothers _ hsame i hi]
      exact (hothers _ hfull i hi).symm
  · refine Or.inl ?_
    rcases Nat.eq_zero_or_pos k with rfl | hpos
    · refine recovered_congr h.selected (hselect _ hsame) fun i _ => ?_
      by_cases hi : i = s.nextRecord
      · subst hi
        rw [hread, NorFlash.torn_zero, hlen]
        exact ((NorFlash.erased_iff_read _ _ _).mp her).symm
      · exact hothers _ hsame i hi
    · have htorn : Torn (s.tear id entry k).flash s.activeBank records := by
        refine ⟨by omega, fun i hi => ?_, ?_⟩
        · rw [hothers _ hsame i (by omega)]
          exact h.holds.slot i hi
        · rw [← hcur, hread]
          exact ⟨bytesAreErased_torn hpos, hinvalid⟩
      rw [h.recovered, recovered, hselect _ hsame]
      dsimp only
      rw [htorn.scan h.readable]

/-! ### Crash atomicity -/

/-- The state after an append that met no fault. -/
lemma append_state (h : Ready s) {id : UInt32} (hid : id ≠ 0) (hroom : s.nextRecord < 1984)
    (entry : EventEntry) : (historyStorageAppendEvent id entry s []).state = s.append id entry := by
  have hrun := (wp_appendEvent (R := noFaults) entry h hid hroom trivial []
    ((quiet_historyStorageAppendEvent _ _).covers s)).1
  rcases hr : historyStorageAppendEvent id entry s [] with ⟨o, s', fs, l⟩
  rw [hr] at hrun
  cases o with
  | val a => exact hrun
  | err e => exact absurd hrun.1 not_mayFail_noFaults
  | cut => exact absurd hrun.1 not_mayCut_noFaults

/-- The image after a compaction that met no fault. -/
lemma replace_state (h : Ready s) (entries : ℕ → EventEntry) (eventIds : ℕ → UInt32)
    {capacity : ℕ} (head : ℕ) {count : ℕ} (hcap : count ≤ capacity) (hfit : count ≤ 1984) :
    Replaced s (compaction s entries eventIds capacity head count)
      (historyStorageReplaceEvents entries eventIds capacity head count s []).state.flash := by
  have hrun := (wp_replaceEvents (R := noFaults) entries eventIds head
    (fun _ _ => trivial) h hcap hfit []
    ((quiet_historyStorageReplaceEvents _ _ _ _ _).covers s)).1
  rcases hr : historyStorageReplaceEvents entries eventIds capacity head count s []
    with ⟨o, s', fs, l⟩
  rw [hr] at hrun
  cases o with
  | val a =>
      obtain ⟨f, rfl, hf⟩ := hrun
      exact hf
  | err e => exact absurd hrun.1 not_mayFail_noFaults
  | cut => exact absurd hrun.1 not_mayCut_noFaults

/-- The image `s'.flash` holds the events of `s.flash`, or those of the image a
complete `op` leaves. -/
def OldOrNew (s : Storage) (op : JournalOp) (s' : Storage) : Prop :=
  s'.flash.size = s.flash.size ∧
    ((recovered eventLogMaxEntries s'.flash).events
        = (recovered eventLogMaxEntries s.flash).events ∨
      (recovered eventLogMaxEntries s'.flash).events
        = (recovered eventLogMaxEntries (op.exec s []).state.flash).events)

lemma OldOrNew.rfl {op : JournalOp} : OldOrNew s op s := ⟨Eq.refl _, Or.inl (Eq.refl _)⟩

/-- An append interrupted anywhere. -/
lemma wp_append_crash (h : InStep s records) (id : UInt32) (entry : EventEntry) :
    wp powerLoss (JournalOp.append id entry).exec
      (fun _ s' => OldOrNew s (.append id entry) s') s := by
  by_cases hid : id = 0
  · exact wp_get_bind (wp_if_pos hid (wp_throw OldOrNew.rfl))
  rcases Nat.lt_or_ge s.nextRecord 1984 with hroom | hfull
  · have hnew : ((JournalOp.append id entry).exec s []).state = s.append id entry :=
      append_state h.toReady hid hroom entry
    refine wp_mono (wp_appendEvent entry h.toReady hid hroom trivial) fun o s' ho => ?_
    have hbad : (∃ k, powerLoss.Interrupts (appendOp s id entry, s) k ∧
        s' = s.tear id entry k) → OldOrNew s (.append id entry) s' := by
      rintro ⟨k, hk, rfl⟩
      refine ⟨rfl, ?_⟩
      rw [hnew]
      exact (recovered_tear h hroom eventLogMaxEntries
        (tornRejected_of_interrupts hk)).imp (congrArg LoadedEvents.events)
        (congrArg LoadedEvents.events)
    cases o with
    | val a =>
        rw [ends_val] at ho
        subst ho
        exact ⟨rfl, Or.inr (by rw [hnew])⟩
    | err e => exact hbad ho.2
    | cut => exact hbad ho.2
  · refine wp_mono (wp_appendEvent_full h.toReady hid hfull) fun o s' ho => ?_
    rw [ho.2]
    exact OldOrNew.rfl

/-- A compaction interrupted anywhere. -/
lemma wp_replace_crash (h : Ready s) (hsel : activeBankOf s.flash = some s.activeBank)
    (entries : ℕ → EventEntry) (eventIds : ℕ → UInt32) (capacity head count : ℕ) :
    wp powerLoss (JournalOp.replace entries eventIds capacity head count).exec
      (fun _ s' => OldOrNew s (.replace entries eventIds capacity head count) s') s := by
  by_cases hcount : count ≤ capacity ∧ count ≤ 1984
  · have hnew := replace_state h entries eventIds head
      hcount.1 hcount.2
    have hdone : ∀ s' : Storage, Replaced s (compaction s entries eventIds capacity head count)
        s'.flash → OldOrNew s (.replace entries eventIds capacity head count) s' := fun s' hs' =>
      ⟨hs'.same.size, Or.inr (congrArg LoadedEvents.events (hnew.recovered_eq hsel hs'))⟩
    have hbad : ∀ s' : Storage, (∃ f q, s' = { s with flash := f, nextJournalSequence := q } ∧
        HalfReplaced powerLoss s (compaction s entries eventIds capacity head count) f) →
        OldOrNew s (.replace entries eventIds capacity head count) s' := by
      rintro s' ⟨f, q, rfl, hf⟩
      rcases hf.recovered_or eventLogMaxEntries hsel with hold | ⟨-, hrep⟩
      · exact ⟨hf.same.size, Or.inl (congrArg LoadedEvents.events hold)⟩
      · exact hdone _ hrep
    refine wp_mono (wp_replaceEvents _ _ _ promisesRest_powerLoss h hcount.1 hcount.2) fun o s' ho => ?_
    cases o with
    | val a =>
        obtain ⟨f, rfl, hf⟩ := ho
        exact hdone _ hf
    | err e => exact hbad s' ho.2
    | cut => exact hbad s' ho.2
  · have hguard : (decide (count > capacity) || decide (count > eventRecordsPerBank)) = true := by
      rw [eventRecordsPerBank_eq, Bool.or_eq_true, decide_eq_true_eq, decide_eq_true_eq]
      omega
    exact wp_get_bind (wp_if_neg (by simp [h.gate]) (wp_if_neg
      (by simp [h.partition, h.nonneg]) (wp_if_pos hguard (wp_throw OldOrNew.rfl))))

/-- A boot interrupted anywhere. -/
lemma wp_load_crash (hsize : 262144 ≤ s.flash.size) :
    wp anyFaults JournalOp.load.exec (fun _ s' => OldOrNew s .load s') s := by
  refine wp_modify_bind (wp_bind (wp_mono (loadEvents_preserves eventLogMaxEntries (f := s.flash)
    (by decide) hsize) fun o s' ho => ?_))
  have hold : OldOrNew s .load s' := ⟨ho.2, Or.inl ho.1⟩
  cases o with
  | val a =>
      rw [andThen_val]
      exact wp_pure hold
  | err e => exact hold
  | cut => exact hold

/-- An initialisation interrupted anywhere. -/
lemma wp_init_crash (hsize : 262144 ≤ s.flash.size) :
    wp anyFaults JournalOp.init.exec (fun _ s' => OldOrNew s .init s') s := by
  refine wp_modify_bind (wp_mono (wp_historyStorageInit (f := s.flash) (fun _ _ => trivial) hsize)
    fun o s' ho => ?_)
  have hbad : HalfInitialised s.flash s'.flash → OldOrNew s .init s' := fun h =>
    ⟨h.size, Or.inl (congrArg LoadedEvents.events h.recovered)⟩
  cases o with
  | val a =>
      obtain ⟨g, b, rfl, hinit⟩ := ho
      exact ⟨hinit.size, Or.inl (congrArg LoadedEvents.events hinit.recovered)⟩
  | err e => exact hbad ho.2
  | cut => exact hbad ho.2

/-- Before the boot the journal refuses every append and every compaction. -/
lemma wp_unbooted_crash {f : NorFlash} (op : JournalOp) (hsize : 262144 ≤ f.size) :
    wp powerLoss op.exec (fun _ s' => OldOrNew { flash := f } op s') { flash := f } := by
  cases op with
  | append id entry =>
      by_cases hid : id = 0
      · exact wp_get_bind (wp_if_pos hid (wp_throw OldOrNew.rfl))
      · exact wp_get_bind (wp_if_neg hid (wp_if_neg (by simp) (wp_if_pos (by simp)
          (wp_throw OldOrNew.rfl))))
  | replace entries eventIds capacity head count =>
      exact wp_get_bind (wp_if_neg (by simp) (wp_if_pos (by simp) (wp_throw OldOrNew.rfl)))
  | load => exact wp_powerLoss (wp_load_crash hsize)
  | init => exact wp_powerLoss (wp_init_crash hsize)

variable {w : EventWorld}

/-- Any operation on a journal that never failed, interrupted anywhere. -/
lemma wp_op_crash (h : NeverFailed w) (op : JournalOp) :
    wp powerLoss op.exec (fun _ s' => OldOrNew w.1 op s') w.1 := by
  rcases h with ⟨f, rfl, hsize, -⟩ | ⟨records, h⟩
  · exact wp_unbooted_crash op hsize
  cases op with
  | append id entry => exact wp_append_crash h.inStep id entry
  | replace entries eventIds capacity head count =>
      exact wp_replace_crash h.inStep.toReady h.inStep.selected entries eventIds capacity head count
  | load => exact wp_powerLoss (wp_load_crash h.inStep.size)
  | init => exact wp_powerLoss (wp_init_crash h.inStep.size)

/-- A complete operation leaves an image of the same size. -/
lemma op_size (h : NeverFailed w) (op : JournalOp) (hquiet : noFaults.Covers (op.exec w.1 []).ops) :
    (op.exec w.1 []).state.flash.size = w.1.flash.size := by
  refine (wp_op_crash h op [] fun p hp => ?_).1.1
  have hnone : p.2 = .none := hquiet p hp
  rw [hnone]
  exact ⟨fun e k sel => by simp, by rcases p with ⟨⟨_ | _ | _, _⟩, _⟩ <;> trivial⟩

lemma quiet_op : ∀ op : JournalOp, FaultM.Quiet op.exec
  | .append _ _ => quiet_historyStorageAppendEvent _ _
  | .replace _ _ _ _ _ => quiet_historyStorageReplaceEvents _ _ _ _ _
  | .load => (FaultM.quiet_modify _).bind fun _ =>
      (quiet_historyStorageLoadEvents _).bind fun _ => FaultM.quiet_pure _
  | .init => (FaultM.quiet_modify _).bind fun _ => quiet_historyStorageInit

lemma NeverFailed.crashAtomic (h : NeverFailed w) (op : JournalOp) : CrashAtomic w.1 op := by
  intro faults boots hcut
  obtain ⟨hsize, hevents⟩ := (wp_op_crash h op faults hcut).1
  obtain ⟨hboots, hbsize⟩ := afterBoots_events boots (op.exec w.1 faults).state.flash
    (hsize ▸ h.size)
  refine ⟨_, _, _, loadOf_eq hbsize, loadOf_eq h.size,
    loadOf_eq (op_size h op ((quiet_op op).covers _) ▸ h.size), ?_⟩
  rw [hboots]
  exact hevents

/-- **Crash atomicity.** On every image that a run of successful event log calls
produces without its counters reaching their last value, an append, a
compaction, a load with its repair and a first-time initialisation are atomic:
whatever flash operation power is lost at, and however many boots are
interrupted after that, the next boot succeeds with the events from before the
operation or with those from after it. -/
theorem crash_atomic {f : NorFlash} (hsize : historyEventRegionSize ≤ f.size)
    (hblank : activeBankOf f = none) (calls : List (EventCall × List FlashFault))
    (hok : noFaults.Covers (runEvents (unbooted f) calls).2)
    (hwrap : ∀ n, Unwrapped (runEvents (unbooted f) (calls.take n)).1.1
      (runEvents (unbooted f) (calls.take n)).1.2) (op : JournalOp) :
    CrashAtomic (runEvents (unbooted f) calls).1.1 op :=
  (neverFailed_run calls (unbooted f) (Or.inl ⟨f, rfl, hsize, hblank⟩) hok hwrap).crashAtomic op

/-- An append to the journal that `exampleRun` leaves. -/
theorem crash_atomic_exampleRun :
    CrashAtomic (runEvents (unbooted (NorFlash.blank 262144)) exampleRun).1.1
      (.append 4 default) :=
  crash_atomic (by decide) (by decide +kernel) exampleRun
    ((covers_noFaults _).mpr (by decide +kernel)) unwrapped_exampleRun (.append 4 default)

/-! ### After the generation has wrapped -/

/-- RAM's bank is not the selected one: the generation has wrapped, and the
image still selects the bank it overtook. -/
structure Overtaken (t : Storage) (r : EventJournalRecord) : Prop where
  ready : Ready t
  selected : activeBankOf t.flash = some (1 - t.activeBank)
  holds : Holds t.flash (1 - t.activeBank) [r]
  readable : ReadableRecord r
  generation : t.generation = 0
  header : (headerAt t.flash t.activeBank).generation = 0

/-- The erase of a bank that reached every sector but the header's. -/
def allButHeader (sector : ℕ) : Bool := sector % 32 != 0

/-- Such an erase leaves a bank that is still selected and holds nothing. -/
lemma Overtaken.erased {t : Storage} {r : EventJournalRecord} (h : Overtaken t r) :
    recovered eventLogMaxEntries (t.flash.eraseSectors flashSectorSize
      (bankOffset (1 - t.activeBank)) eventBankSize allButHeader) = {} := by
  have hother := h.ready.bank.other
  have hdis := h.ready.bank.offset_disjoint
  have hbs := eventBankSize_eq
  have hoff : bankOffset (1 - t.activeBank) = 0 ∨ bankOffset (1 - t.activeBank) = 131072 := by
    rcases hother with hb | hb <;> rw [hb] <;> simp
  have hslot := recordOffset_eq (1 - t.activeBank) 0
  set g := t.flash.eraseSectors flashSectorSize (bankOffset (1 - t.activeBank)) eventBankSize
    allButHeader with hg
  have hsame : SameOutside t.flash g (bankOffset (1 - t.activeBank)) 131072 :=
    SameOutside.eraseSectors _ _ _ _ _
  have hhead : headerAt g (1 - t.activeBank) = headerAt t.flash (1 - t.activeBank) := by
    obtain ⟨-, hunsel⟩ := NorFlash.read_eraseSectors_of_sector t.flash 4096
      (bankOffset (1 - t.activeBank)) 131072 allButHeader (a := bankOffset (1 - t.activeBank))
      (n := 32) (k := bankOffset (1 - t.activeBank) / 4096) ⟨le_rfl, by omega⟩ ⟨by omega, by omega⟩
    have hkeep := hunsel (by rcases hoff with ho | ho <;> rw [ho] <;> decide)
    rw [headerAt, headerAt, eventBankHeader_size]
    exact congrArg _ hkeep
  have hempty : slotBytes g (1 - t.activeBank) 0 = List.replicate 64 0xFF := by
    obtain ⟨hsel, -⟩ := NorFlash.read_eraseSectors_of_sector t.flash 4096
      (bankOffset (1 - t.activeBank)) 131072 allButHeader (a := recordOffset (1 - t.activeBank) 0)
      (n := 64) (k := bankOffset (1 - t.activeBank) / 4096 + 1) ⟨by omega, by omega⟩ ⟨by omega, by omega⟩
    exact (NorFlash.erased_iff_read _ _ _).mp
      (hsel (by rcases hoff with ho | ho <;> rw [ho] <;> decide))
  have hactive : activeBankOf g = some (1 - t.activeBank) :=
    activeBankOf_of_uncommitted h.selected hhead (Or.inl (by
      rw [show (1 : ℤ) - (1 - t.activeBank) = t.activeBank by omega]
      exact headerAt_of_sameOutside hsame (by omega)))
  rw [recovered, hactive]
  dsimp only
  rw [eventRecordsPerBank_eq, scanSlots, hempty, if_pos (by decide)]
  rfl

/-- A compaction whose erase lost power that way. -/
lemma replace_cut {t : Storage} (h : Ready t) (entries : ℕ → EventEntry) (eventIds : ℕ → UInt32)
    {capacity : ℕ} (head : ℕ) {count : ℕ} (hcap : count ≤ capacity) (hfit : count ≤ 1984) :
    historyStorageReplaceEvents entries eventIds capacity head count t [.cut 0 allButHeader]
      = ⟨.cut, OnFlash.withFlash t (t.flash.eraseSectors flashSectorSize
            (bankOffset (1 - t.activeBank)) eventBankSize allButHeader), [],
          [((.erase (bankOffset (1 - t.activeBank)) eventBankSize, t),
            .cut 0 allButHeader)]⟩ := by
  have hsize := h.size
  have hin := h.bank.other.offset_le
  have hbs := eventBankSize_eq
  have hguard : ¬ (decide (count > capacity) || decide (count > eventRecordsPerBank)) = true := by
    rw [eventRecordsPerBank_eq, Bool.or_eq_true, decide_eq_true_eq, decide_eq_true_eq]
    omega
  have haligned : bankOffset (1 - t.activeBank) % flashSectorSize = 0 ∧
      eventBankSize % flashSectorSize = 0 := ⟨h.bank.other.offset_aligned, by decide⟩
  have hfits : bankOffset (1 - t.activeBank) + eventBankSize ≤ (OnFlash.flash t).size := by
    change _ ≤ t.flash.size
    omega
  simp only [historyStorageReplaceEvents, bind, FaultM.bind, FaultM.get, h.gate, h.partition,
    h.nonneg, hguard, Bool.false_eq_true, if_false, Bool.not_true, decide_false, Bool.or_self,
    espPartitionEraseRange, FaultM.perform, List.headD_cons, List.tail_cons, if_pos haligned,
    if_pos hfits]
  rfl

/-- In such a state a compaction of the ring is not crash-atomic. -/
lemma Overtaken.not_crashAtomic {t : Storage} {r : EventJournalRecord} {log : EventLog}
    (h : Overtaken t r) (hv : log.Valid) (hcount : 0 < log.count) :
    ¬ CrashAtomic t (.replace log.buffer log.eventIds eventLogMaxEntries log.head log.count) := by
  intro hatomic
  have hfit : log.count ≤ 1984 := hv.bounds.count.trans (by decide)
  have hrun := replace_cut h.ready log.buffer log.eventIds log.head hv.bounds.count
    hfit
  obtain ⟨out, old, new, hout, hold, hnew, hcase⟩ :=
    hatomic [.cut 0 allButHeader] [] (by
      rw [JournalOp.exec, hrun]
      intro p hp
      rw [List.mem_singleton.mp hp]
      exact ⟨fun _ _ _ => FlashFault.noConfusion, trivial⟩)
  rw [JournalOp.exec, hrun] at hout
  change loadOf (t.flash.eraseSectors flashSectorSize (bankOffset (1 - t.activeBank)) eventBankSize
    allButHeader) = _ at hout
  rw [loadOf_eq (f := t.flash.eraseSectors _ _ _ _) h.ready.size, h.erased] at hout
  have hrep : Replaced t (log.copies t) _ := replace_state h.ready log.buffer
    log.eventIds log.head hv.bounds.count hfit
  rw [JournalOp.exec, loadOf_eq (hrep.same.size ▸ h.ready.size)] at hnew
  rw [loadOf_eq h.ready.size] at hold
  simp only [Outcome.val.injEq, Prod.mk.injEq, and_true] at hout hold hnew
  subst hout hold hnew
  have hb := h.ready.bank
  -- the image from before holds the one record of the selected bank
  have hbefore : (recovered eventLogMaxEntries t.flash).events = [r.event] := by
    have hscan : scanSlots t.flash (1 - t.activeBank) eventRecordsPerBank 0 = ([r], false) :=
      h.holds.scan fun x hx => List.mem_singleton.mp hx ▸ h.readable
    rw [recovered, h.selected]
    dsimp only
    rw [hscan]
    exact replay_of_nodup (List.nodup_singleton _) (Nat.le_add_left 1 999)
  -- the image from after holds the ring
  have hafter : (recovered eventLogMaxEntries (historyStorageReplaceEvents log.buffer log.eventIds
      eventLogMaxEntries log.head log.count t []).state.flash).events = log.entries := by
    have hsel : activeBankOf (historyStorageReplaceEvents log.buffer log.eventIds
        eventLogMaxEntries log.head log.count t []).state.flash = some (1 - t.activeBank) := by
      refine activeBankOf_of_newer hb.other hrep.committed.valid fun _ => ?_
      rw [hrep.committed.generation, show (1 : ℤ) - (1 - t.activeBank) = t.activeBank by omega,
        headerAt_of_replacing hb hrep.same, h.header, h.generation]
      decide
    rw [recovered, hsel]
    dsimp only
    have hlen : (log.copies t).length ≤ eventLogMaxEntries := by
      rw [EventLog.copies, compaction, copies_length]
      exact hv.bounds.count
    rw [hrep.holds.scan (hv.copies_readable t)]
    dsimp only
    rw [replay_of_nodup (by rw [log.copies_event t]; exact hv.nodup) hlen, log.copies_event t]
  rcases hcase with hcase | hcase
  · rw [hbefore] at hcase
    exact absurd hcase (List.cons_ne_nil _ _).symm
  · rw [hafter] at hcase
    have hlen := congrArg List.length hcase
    rw [EventLog.entries_length] at hlen
    exact absurd hlen.symm hcount.ne'

/-- Calls none of which meets a fault. -/
def faultless (calls : List EventCall) : List (EventCall × List FlashFault) :=
  calls.map fun call => (call, [])

lemma covers_faultless (calls : List EventCall) : ∀ w : EventWorld,
    noFaults.Covers (runEvents w (faultless calls)).2 := by
  induction calls with
  | nil => exact fun _ => Rely.covers_nil
  | cons call calls ih =>
      exact fun w => Rely.covers_append.mpr ⟨(quiet_exec call).covers w, ih _⟩

lemma runEvents_append (l l' : List EventCall) : ∀ w : EventWorld,
    (runEvents w (faultless (l ++ l'))).1
      = (runEvents (runEvents w (faultless l)).1 (faultless l')).1 := by
  induction l with
  | nil => exact fun _ => rfl
  | cons call l ih => exact fun w => ih _

/-- Clears count the generation up, and nothing else happens. -/
lemma run_clears (n : ℕ) : ∀ (w : EventWorld) (records : List EventJournalRecord),
    InSync w.1 w.2 records → w.1.nextRecord < 1984 → w.1.generation.toNat + n < 2 ^ 32 →
    ∃ records', InSync (runEvents w (faultless (List.replicate n .clear))).1.1
        (runEvents w (faultless (List.replicate n .clear))).1.2 records' ∧
      (runEvents w (faultless (List.replicate n .clear))).1.1.nextRecord < 1984 ∧
      (runEvents w (faultless (List.replicate n .clear))).1.1.generation.toNat
        = w.1.generation.toNat + n ∧
      (runEvents w (faultless (List.replicate n .clear))).1.2.nextEventId = w.2.nextEventId ∧
      (records = [] ∨ 0 < n → records' = []) := by
  induction n with
  | zero =>
      exact fun w records h hroom _ =>
        ⟨records, h, hroom, rfl, rfl, fun hnil => hnil.resolve_right (Nat.lt_irrefl 0)⟩
  | succ n ih =>
      intro w records h hroom hgen
      have hne : w.1.generation ≠ 0xFFFFFFFF := fun heq => by
        rw [heq] at hgen
        simp at hgen
        omega
      obtain ⟨-, s', hw', hc | hc⟩ := (wp_eventLogClear (R := noFaults) (s := w.1) promising_noFaults.rest not_mayCut_noFaults h.mutex h.ready h.inStep.toReady []
        (quiet_eventLogClear.covers _)).1
      · have hsync := InSync.of_compacts h.inStep hne h.valid.cleared h.mutex h.ready hc
        obtain ⟨f, rfl, -⟩ := hc
        have hrest := ih (eventLogClear (w.1, w.2) []).state (w.2.cleared.copies w.1)
          (by rw [hw']; exact hsync) (by rw [hw']; exact Nat.succ_pos 1983)
          (by rw [hw']; dsimp only; rw [toNat_add_one hne]; omega)
        obtain ⟨records', h1, h2, h3, h4, h5⟩ := hrest
        refine ⟨records', h1, h2, h3.trans ?_, h4.trans ?_, fun _ => h5 (Or.inl rfl)⟩
        · rw [hw']
          dsimp only
          rw [toNat_add_one hne]
          omega
        · rw [hw']
          rfl
      · exact absurd hc.1 not_mayFail_noFaults

/-- One event recorded on a journal with room, without a fault. -/
lemma run_record {type : UInt32} (payload : UInt32) (now : ℤ) (uptimeMs : UInt64)
    (hmutex : w.2.mutex = true) (hready : w.2.storageReady = true) (hv : w.2.Valid) (hs : Ready w.1)
    (htype : type < eventTypeCount) (hroom : w.1.nextRecord < 1984) :
    (runEvents w (faultless [.record type payload now uptimeMs])).1
      = (w.1.append w.2.nextEventId (w.2.newEntry type payload now uptimeMs),
          w.2.push (w.2.newEntry type payload now uptimeMs)) := by
  obtain ⟨-, s', hw', heff⟩ := (wpObs_eventLogRecord (R := noFaults) (s := w.1) payload now uptimeMs
    promising_noFaults.rest
    not_mayCut_noFaults hmutex htype hready hs hv.next hv.bounds.count (fun _ => trivial) []
    ((quiet_eventLogRecord _ _ _ _).covers _)).1
  generalize List.filterMap _ _ = acc at heff
  cases heff with
  | appended => exact hw'
  | torn _ hf _ _ => exact absurd hf not_mayFail_noFaults
  | full hfull _ => exact absurd hroom (by omega)

/-- Once the generation has reached its last value, an event, a clear and an
event leave RAM on a bank the image does not select. -/
lemma overtaken_of_wrap (h : InSync w.1 w.2 []) (hroom : w.1.nextRecord < 1984)
    (hgen : w.1.generation = 0xFFFFFFFF) (hid : w.2.nextEventId.toNat + 2 < 2 ^ 32) :
    (∃ r, Overtaken (runEvents w (faultless [.record 1 0 0 6, .clear, .record 2 0 0 7])).1.1 r) ∧
      (runEvents w (faultless [.record 1 0 0 6, .clear, .record 2 0 0 7])).1.2.Valid ∧
      0 < (runEvents w (faultless [.record 1 0 0 6, .clear, .record 2 0 0 7])).1.2.count := by
  have hne : w.2.nextEventId ≠ 0xFFFFFFFF := fun heq => by
    rw [heq] at hid
    exact absurd hid (by decide)
  have htype : (w.2.newEntry 1 0 0 6).type < eventTypeCount := show (1 : UInt32) < 35 by decide
  -- the first event goes to the bank of the last generation
  have h1 := h.append hroom hne htype
  have hrun1 := run_record 0 0 6 h.mutex h.ready h.valid
    h.inStep.toReady (show (1 : UInt32) < eventTypeCount by decide) hroom
  set s1 := w.1.append w.2.nextEventId (w.2.newEntry 1 0 0 6) with hs1
  set log1 := w.2.push (w.2.newEntry 1 0 0 6) with hlog1
  -- the clear commits the other bank with generation zero
  obtain ⟨-, s2, hw2, hc | hc⟩ := (wp_eventLogClear (R := noFaults) (s := s1) promising_noFaults.rest not_mayCut_noFaults h1.mutex h1.ready h1.inStep.toReady []
    (quiet_eventLogClear.covers _)).1
  swap
  · exact absurd hc.1 not_mayFail_noFaults
  obtain ⟨f, hs2, hrep⟩ := hc
  have hflash : s2.flash = f := by rw [hs2]
  have hactive : s2.activeBank = 1 - s1.activeBank := by rw [hs2]
  have hgen2 : s2.generation = s1.generation + 1 := by rw [hs2]
  have hcur : s2.nextRecord = 0 := by rw [hs2]; rfl
  have hb := h1.inStep.bank
  have hgen1 : s1.generation = 0xFFFFFFFF := hgen
  have hhead := headerAt_of_replacing hb hrep.same
  have hsel : activeBankOf f = some s1.activeBank := by
    refine activeBankOf_of_newer hb ?_ fun _ => ?_
    · rw [hhead]
      exact headerValid_of_selected h1.inStep.selected
    · rw [hrep.committed.generation, hhead, h1.inStep.generation, hgen1]
      decide
  -- the second event goes to that bank, which the image does not select
  have hv1 := h1.valid.cleared
  have hready2 : Ready s2 :=
    ⟨by rw [hflash, hrep.same.size]; exact h1.inStep.size, by rw [hs2]; exact h1.inStep.partition,
      by rw [hactive]; exact hb.other, by rw [hs2]; exact h1.inStep.gate⟩
  have hrun2 := run_record (w := (s2, log1.cleared)) 0 0 7
    h1.mutex h1.ready hv1 hready2 (show (2 : UInt32) < eventTypeCount by decide)
    (by rw [hcur]; exact Nat.succ_pos 1983)
  have hall : (runEvents w (faultless [.record 1 0 0 6, .clear, .record 2 0 0 7])).1
      = (s2.append log1.cleared.nextEventId (log1.cleared.newEntry 2 0 0 7),
          log1.cleared.push (log1.cleared.newEntry 2 0 0 7)) := by
    rw [show ([.record 1 0 0 6, .clear, .record 2 0 0 7] : List EventCall)
      = [.record 1 0 0 6] ++ ([.clear] ++ [.record 2 0 0 7]) from rfl, runEvents_append, hrun1,
      runEvents_append]
    change (runEvents (eventLogClear (s1, log1) []).state (faultless [.record 2 0 0 7])).1 = _
    rw [hw2]
    exact hrun2
  rw [hall]
  set s3 := s2.append log1.cleared.nextEventId (log1.cleared.newEntry 2 0 0 7) with hs3
  have hactive3 : s3.activeBank = 1 - s1.activeBank := hactive
  have hback : (1 : ℤ) - s3.activeBank = s1.activeBank := by rw [hactive3]; omega
  have hslot := recordOffset_eq (1 - s1.activeBank) 0
  have hdis := hb.offset_disjoint
  have hsame : SameOutside f s3.flash (recordOffset (1 - s1.activeBank) 0) 64 := by
    rw [← hactive, ← hcur, ← hflash]
    exact sameOutside_record_full _ _ _ _
  refine ⟨⟨appended w.1 w.2.nextEventId (w.2.newEntry 1 0 0 6), hready2.append _ _, ?_, ?_,
    h1.inStep.readable _ (List.mem_singleton_self _), ?_, ?_⟩, ?_, Nat.succ_pos 0⟩
  · rw [hback]
    exact activeBankOf_of_uncommitted hsel (headerAt_of_sameOutside hsame (by omega))
      (Or.inl (headerAt_of_sameOutside hsame (by omega)))
  · rw [hback]
    exact (h1.inStep.holds.of_sameOutside hrep.same (by omega)).of_sameOutside hsame (by omega)
  · change s2.generation = 0
    rw [hgen2, hgen1]
    decide
  · rw [hactive3, headerAt_of_sameOutside hsame (by omega), hrep.committed.generation, hgen1]
    decide
  · refine hv1.push ?_ (show (2 : UInt32) < 35 by decide)
    have hnext : log1.cleared.nextEventId = w.2.nextEventId + 1 := advance_of_ne hne
    rw [hnext]
    intro heq
    have := congrArg UInt32.toNat heq
    rw [toNat_add_one hne] at this
    simp at this
    omega

/-- A first boot, as many clears as it takes to bring the generation to its last
value, an event, a clear and an event. -/
def wrapRun : List EventCall :=
  [.reboot 7 0 5] ++ (List.replicate 4294967294 .clear ++
    [.record 1 0 0 6, .clear, .record 2 0 0 7])

/-- The ring of a device, compacted. -/
def compactRing (log : EventLog) : JournalOp :=
  .replace log.buffer log.eventIds eventLogMaxEntries log.head log.count

/-- **After the generation has wrapped a compaction is not crash-atomic**: the
image selects the bank that is erased. -/
theorem wrapped_not_crash_atomic :
    ¬ ∀ calls : List (EventCall × List FlashFault),
        noFaults.Covers (runEvents (unbooted (NorFlash.blank 262144)) calls).2 →
        ∀ op, CrashAtomic (runEvents (unbooted (NorFlash.blank 262144)) calls).1.1 op := by
  intro hclaim
  have hboot : NeverFailed (runEvents (unbooted (NorFlash.blank 262144))
      (faultless [.reboot 7 0 5])).1 :=
    neverFailed_run _ _ (Or.inl ⟨_, rfl, le_rfl, by decide +kernel⟩) (covers_faultless _ _)
      fun n => match n with
        | 0 => by decide +kernel
        | n + 1 => by
            rw [List.take_of_length_le (Nat.le_add_left 1 n)]
            decide +kernel
  set w0 := (runEvents (unbooted (NorFlash.blank 262144)) (faultless [.reboot 7 0 5])).1 with hw0
  have hmutex : w0.2.mutex = true := by decide +kernel
  obtain ⟨f, heq, -⟩ | ⟨records, h0⟩ := hboot
  · rw [heq] at hmutex
    exact absurd hmutex Bool.false_ne_true
  have hgen0 : w0.1.generation.toNat = 1 := by decide +kernel
  have hnext0 : w0.2.nextEventId.toNat = 2 := by decide +kernel
  have hroom0 : w0.1.nextRecord < 1984 := by decide +kernel
  obtain ⟨records', h1, hroom1, hgen1, hnext1, hnil⟩ :=
    run_clears 4294967294 w0 records h0 hroom0 (by rw [hgen0]; norm_num)
  obtain rfl := hnil (Or.inr (by norm_num))
  have hrun : (runEvents (unbooted (NorFlash.blank 262144)) (faultless wrapRun)).1
      = (runEvents (runEvents w0 (faultless (List.replicate 4294967294 .clear))).1
          (faultless [.record 1 0 0 6, .clear, .record 2 0 0 7])).1 := by
    rw [wrapRun, runEvents_append, runEvents_append]
  obtain ⟨⟨r, hover⟩, hvalid, hcount⟩ := overtaken_of_wrap h1 hroom1
    (UInt32.toNat_inj.mp (by rw [hgen1, hgen0]; rfl)) (by rw [hnext1, hnext0]; norm_num)
  rw [← hrun] at hover hvalid hcount
  exact hover.not_crashAtomic hvalid hcount
    (hclaim _ (covers_faultless wrapRun _) (compactRing _))

end ArcticController

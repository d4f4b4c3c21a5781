/-
What becomes of the events the journal accepted when flash operations fail.

* `liveEvents`: the events accepted in a run that have not been overwritten in
  the ring or cleared since, told from the flash operations performed;
* `EventsKept`: a load returns each of them, and no append was made on a slot
  that is not erased or in a bank that is not the newest committed one;
* `Placed`, `Mirrors`, `Survives`: the invariant, first of flash and storage,
  then of ring and journal, then of the whole device;
* `wpObs_survives`: one call, made on a journal that earlier failures left
  usable, keeps it;
* `events_kept`: **accepted events are kept in every run of such calls**;
* `not_events_kept`: in other runs they are not.
-/
import ArcticController.History.EventReplay

namespace ArcticController

open NorFlash (SameOutside torn)

variable {R : Rely FlashFault (FlashOp × Storage)} {s s' : Storage} {log : EventLog}
  {records : List EventJournalRecord} {live : List (UInt32 × EventEntry)}

/-! ### Accepted events -/

/-- `e'` is `e`, or `e` with the timestamp it lacked. -/
def Restamped (e e' : EventEntry) : Prop :=
  ∃ timestamp, e' = { e with timestamp := timestamp } ∧
    (e.timestamp = 0 ∨ timestamp = e.timestamp)

lemma Restamped.refl (e : EventEntry) : Restamped e e := ⟨e.timestamp, rfl, Or.inr rfl⟩

lemma Restamped.trans {e e' e'' : EventEntry} (h : Restamped e e') (h' : Restamped e' e'') :
    Restamped e e'' := by
  obtain ⟨t, rfl, ht⟩ := h
  obtain ⟨t', rfl, ht'⟩ := h'
  refine ⟨t', rfl, ?_⟩
  dsimp only at ht'
  rcases ht with h0 | rfl
  · exact Or.inl h0
  · exact ht'

/-- The ids of `log` that `log'` has overwritten since; the ring of a device
whose journal is out of use holds no journalled event. -/
def overwritten (log log' : EventLog) : List UInt32 :=
  if log.storageReady then
    (log.entries.map Prod.fst).filter (· ∉ log'.entries.map Prod.fst)
  else []

/-- The ring into which a call records: that of a reset is the one restored. -/
def ringBefore (w : EventWorld) : EventCall × List FlashFault → EventLog
  | (.reboot bootId _ _, faults) => (restoreEvents bootId (w.1.reboot, {}) faults).state.2
  | _ => w.2

/-- The live events after one more call. -/
def stillLive (live : List (UInt32 × EventEntry)) (w : EventWorld)
    (c : EventCall × List FlashFault) : List (UInt32 × EventEntry) :=
  match c.1 with
  | .clear => []
  | _ => (live ++ accepted (c.1.exec w c.2).ops).filter fun p =>
      p.1 ∉ overwritten (ringBefore w c) (c.1.exec w c.2).state.2

/-- The events accepted in a run that have not been overwritten in the ring or
cleared since, each as it was accepted. -/
def liveEvents : EventWorld → List (UInt32 × EventEntry) →
    List (EventCall × List FlashFault) → List (UInt32 × EventEntry)
  | _, live, [] => live
  | w, live, c :: calls => liveEvents (c.1.exec w c.2).state (stillLive live w c) calls

/-- The slot of an append is erased and its bank is the newest committed one. -/
def WellPlaced (o : FlashOp × Storage) : Prop :=
  o.2.flash.Erased (recordOffset o.2.activeBank o.2.nextRecord) eventRecordSize ∧
    activeBankOf o.2.flash = some o.2.activeBank

/-- A load of the image returns every live event, back-filled or not, and every
append was well placed. -/
def EventsKept (f : NorFlash) (calls : List (EventCall × List FlashFault)) : Prop :=
  (∀ p ∈ liveEvents (unbooted f) [] calls, ∃ out,
    loadOf (runEvents (unbooted f) calls).1.1.flash = .val (out, .ok ()) ∧
      ∃ entry, (p.1, entry) ∈ out.events ∧ Restamped p.2 entry) ∧
  ∀ o ∈ (runEvents (unbooted f) calls).2, AppendsTo o.1 → WellPlaced o.1

/-! ### Failing operations -/

/-- Operations may report errors; the checksum rejects torn records. -/
def errorsOnly : Rely FlashFault (FlashOp × Storage) :=
  ⟨fun o f => f.isCut = false ∧ CrcRejects o f, fun o => AppendsTo o → WellPlaced o⟩

/-- A commit word is reported as failed although all of it was programmed. -/
def HidesCommit : FlashOp × Storage → FlashFault → Prop
  | (.write _ bytes, _), .error _ k _ => bytes = Codec.u32.enc bankCommittedWord ∧ 4 ≤ k
  | _, _ => False

instance : ∀ (o : FlashOp × Storage) (f : FlashFault), Decidable (HidesCommit o f)
  | (.write _ _, _), .error _ _ _ => inferInstanceAs (Decidable (_ ∧ _))
  | (.write _ _, _), .none | (.write _ _, _), .cut _ _ => inferInstanceAs (Decidable False)
  | (.read _ _, _), _ | (.erase _ _, _), _ => inferInstanceAs (Decidable False)

/-- Operations may report errors, but no commit word is reported as failed after
all of it was programmed. -/
def visibleErrors : Rely FlashFault (FlashOp × Storage) :=
  ⟨fun o f => errorsOnly.allowed o f ∧ ¬ HidesCommit o f, errorsOnly.promise⟩

instance (ops : List ((FlashOp × Storage) × FlashFault)) : Decidable (visibleErrors.Covers ops) :=
  inferInstanceAs (Decidable (∀ p ∈ ops,
    (p.2.isCut = false ∧ CrcRejects p.1 p.2) ∧ ¬ HidesCommit p.1 p.2))

instance (ops : List ((FlashOp × Storage) × FlashFault)) : Decidable (errorsOnly.Covers ops) :=
  inferInstanceAs (Decidable (∀ p ∈ ops, p.2.isCut = false ∧ CrcRejects p.1 p.2))

lemma not_mayCut_visibleErrors : ¬ visibleErrors.MayCut := by
  rintro ⟨o, k, sel, h⟩
  exact Bool.noConfusion h.1.1

lemma not_mayHideCommit_visibleErrors : ¬ visibleErrors.MayHideCommit := by
  rintro ⟨s, off, k, hk, ⟨e, sel, h⟩ | ⟨sel, h⟩⟩
  · exact h.2 ⟨rfl, hk⟩
  · exact Bool.noConfusion h.1.1

lemma promising_visibleErrors : visibleErrors.Promising where
  rest o ho h := absurd h ho
  append s id entry hclean hroom _ :=
    ⟨hclean.erased.sub le_rfl (by
      change recordOffset s.activeBank s.nextRecord + 64 ≤ _
      omega), hclean.selected⟩

/-- What `visibleErrors` leaves of a record is rejected by its checksum. -/
lemma tornRejected_of_visible {off k : ℕ} {bytes : List UInt8}
    (h : visibleErrors.Interrupts (.write off bytes, s) k) : TornRejected bytes k := by
  rcases h with ⟨e, sel, h⟩ | ⟨sel, h⟩
  · exact h.1.2
  · exact h.1.2

/-! ### A journal that earlier failures left usable -/

/-- No counter is about to take its last value. -/
def CountersLeft (w : EventWorld) : Prop :=
  w.2.nextEventId ≠ 0xFFFFFFFF ∧
    (recovered eventLogMaxEntries w.1.flash).nextEventId ≠ 0xFFFFFFFF ∧
    match activeBankOf w.1.flash with
    | none => True
    | some b => (headerAt w.1.flash b).generation.toNat + 2 < 2 ^ 32

instance (w : EventWorld) : Decidable (CountersLeft w) :=
  @instDecidableAnd _ _ _ (@instDecidableAnd _ _ _ (by
    cases activeBankOf w.1.flash
    · exact isTrue trivial
    · exact Nat.decLt _ _))

/-- No failed append has left its remains in the slot at the cursor. -/
def CursorErased (s : Storage) : Prop :=
  s.nextRecord < eventRecordsPerBank →
    s.flash.Erased (recordOffset s.activeBank s.nextRecord) eventRecordSize

instance (s : Storage) : Decidable (CursorErased s) := inferInstanceAs (Decidable (_ → _))

/-- The state lets the call append safely: the slot at the cursor is erased, and
what a time synchronisation is going to back-fill is in the journal. -/
def Safe (w : EventWorld) (call : EventCall) : Prop :=
  CountersLeft w ∧ (w.2.storageReady = true →
    match call with
    | .record type _ _ _ => type < eventTypeCount → CursorErased w.1
    | .timeSynced sec usec uptimeMs =>
        (w.2.backfills (bootEpochMs sec usec uptimeMs) ≠ [] → CursorErased w.1) ∧
          ∀ p ∈ w.2.backfills (bootEpochMs sec usec uptimeMs),
            p.1 ∈ (recovered eventLogMaxEntries w.1.flash).events.map Prod.fst
    | _ => True)

instance (w : EventWorld) : ∀ call : EventCall, Decidable (Safe w call)
  | .record type _ _ _ => inferInstanceAs (Decidable (_ ∧ (_ → type < eventTypeCount → _)))
  | .timeSynced _ _ _ => inferInstanceAs (Decidable (_ ∧ (_ → (_ → _) ∧ ∀ p ∈ _, _)))
  | .clear => inferInstanceAs (Decidable (_ ∧ (_ → True)))
  | .reboot _ _ _ => inferInstanceAs (Decidable (_ ∧ (_ → True)))

/-- Every call of a run is safe in the state it is made in. -/
def SafeRun : EventWorld → List (EventCall × List FlashFault) → Prop
  | _, [] => True
  | w, (call, faults) :: calls => Safe w call ∧ SafeRun (call.exec w faults).state calls

instance : ∀ (w : EventWorld) (calls : List (EventCall × List FlashFault)),
    Decidable (SafeRun w calls)
  | _, [] => isTrue trivial
  | w, (call, faults) :: calls =>
      have := instDecidableSafeRun (call.exec w faults).state calls
      inferInstanceAs (Decidable (_ ∧ _))

/-! ### Flash and storage -/

/-- The selected bank starts with `records`, after which it is erased or
damaged. -/
structure Image (f : NorFlash) (b : ℤ) (records : List EventJournalRecord) : Prop where
  selected : activeBankOf f = some b
  readable : ∀ r ∈ records, ReadableRecord r
  content : Holds f b records ∨ Torn f b records

variable {f g : NorFlash} {w : EventWorld}

lemma Image.scan {b : ℤ} (h : Image f b records) : (scanSlots f b 1984 0).1 = records := by
  rcases h.content with hc | hc
  · exact congrArg Prod.fst (hc.scan h.readable)
  · exact congrArg Prod.fst (hc.scan h.readable)

lemma Image.recovered {b : ℤ} (h : Image f b records) (capacity : ℕ) :
    ArcticController.recovered capacity f = replay capacity records := by
  rw [ArcticController.recovered, h.selected]
  dsimp only
  rw [eventRecordsPerBank_eq, h.scan]

/-- A compaction that did not commit leaves the selected bank as it was. -/
lemma Image.of_uncommitted (h : Image s.flash s.activeBank records)
    (hsame : SameOutside s.flash g (bankOffset (1 - s.activeBank)) 131072)
    (hun : Uncommitted s.flash g (1 - s.activeBank)) : Image g s.activeBank records := by
  have hb := activeBankOf_isBank h.selected
  have hdis := hb.offset_disjoint
  refine ⟨activeBankOf_of_uncommitted h.selected (headerAt_of_replacing hb hsame) hun, h.readable,
    h.content.imp (fun hc => hc.of_sameOutside hsame (by omega)) fun hc => ⟨hc.room, ?_, ?_⟩⟩
  · intro i hi
    have hroom := hc.room
    rw [slotBytes_of_replacing hb hsame (by omega)]
    exact hc.slot i hi
  · rw [slotBytes_of_replacing hb hsame hc.room]
    exact hc.damaged

/-- Without hidden commits an interrupted compaction did not commit. -/
lemma HalfReplaced.uncommitted (hR : ¬ R.MayHideCommit) (hb : IsBank s.activeBank)
    (h : HalfReplaced R s records g) : Uncommitted s.flash g (1 - s.activeBank) := by
  rcases h.how with ⟨sel, rfl⟩ | hcell | hrep
  · exact uncommitted_of_erase s.flash hb.other sel
  · exact Or.inr hcell
  · exact absurd hrep.1 hR

/-- The storage stands on an image that starts with `records`, at its end or at
the remains of a failed append. -/
structure Placed (s : Storage) (records : List EventJournalRecord) : Prop where
  ready : Ready s
  image : Image s.flash s.activeBank records
  generation : (headerAt s.flash s.activeBank).generation = s.generation
  cursor : InStep s records ∨ (s.nextRecord < 1984 ∧
    ¬ s.flash.Erased (recordOffset s.activeBank s.nextRecord) eventRecordSize)

lemma InStep.placed (h : InStep s records) : Placed s records :=
  ⟨h.toReady, ⟨h.selected, h.readable, Or.inl h.holds⟩, h.generation, Or.inl h⟩

/-- Where the cursor is erased, storage and image are in step. -/
lemma Placed.inStep (h : Placed s records) (hcur : CursorErased s) : InStep s records :=
  h.cursor.resolve_right fun hbad => hbad.2 (hcur hbad.1)

/-- A slot that does not read as erased is not. -/
lemma notErased {b : ℤ} {i : ℕ} (h : bytesAreErased (slotBytes f b i) = false) :
    ¬ f.Erased (recordOffset b i) eventRecordSize := fun herased => by
  rw [slotBytes, (NorFlash.erased_iff_read _ _ _).mp herased] at h
  exact absurd h (by decide)

/-- A failed append leaves the journal as it was, or with its record after all. -/
lemma InStep.tear (h : InStep s records) (hroom : s.nextRecord < 1984) {id : UInt32}
    {entry : EventEntry} {k : ℕ} (hid : id ≠ 0) (htype : entry.type < eventTypeCount)
    (hk : TornRejected (eventJournalRecord.enc (appended s id entry)) k) :
    Placed (s.tear id entry k) records ∨
      Placed (s.tear id entry k) (records ++ [appended s id entry]) := by
  have hlen : (eventJournalRecord.enc (appended s id entry)).length = 64 := Codec.length_enc _ _
  have hcur := h.cursor
  have hslot := recordOffset_eq s.activeBank s.nextRecord
  have hdis := h.bank.offset_disjoint
  have hsame := @InStep.sameOutside_tear _ _ h id entry k
  rw [← hcur] at hsame
  have her := h.holds.erased_slot (i := s.nextRecord) (by omega) hroom
  have hread : slotBytes (s.tear id entry k).flash s.activeBank s.nextRecord
      = torn (eventJournalRecord.enc (appended s id entry)) k := by
    have := NorFlash.read_program_take (f := s.flash)
      (eventJournalRecord.enc (appended s id entry)) k (by rw [hlen]; exact her)
    rwa [hlen] at this
  have hselected : activeBankOf (s.tear id entry k).flash = some s.activeBank :=
    activeBankOf_of_uncommitted h.selected (headerAt_of_sameOutside hsame (Or.inl (by omega)))
      (Or.inl (headerAt_of_sameOutside hsame (by omega)))
  have hgen : (headerAt (s.tear id entry k).flash s.activeBank).generation = s.generation := by
    rw [headerAt_of_sameOutside hsame (Or.inl (by omega)), h.generation]
  have hothers : ∀ i, i ≠ s.nextRecord →
      slotBytes (s.tear id entry k).flash s.activeBank i = slotBytes s.flash s.activeBank i :=
    fun i hi => hsame.read_eq (by
      have := recordOffset_eq s.activeBank i
      rw [eventRecordSize]
      omega)
  rcases hk.cases with htorn | hinvalid
  · -- all of it was programmed: a record more than the cursor knows of
    have hflash : (s.tear id entry k).flash = (s.append id entry).flash :=
      NorFlash.program_take_of_torn_eq (by rw [hlen]; exact her) htorn
    have happend := h.append hroom hid htype
    refine Or.inr ⟨h.toReady.tear _ _ _, ⟨hselected, happend.readable, Or.inl ?_⟩, hgen,
      Or.inr ⟨hroom, notErased ?_⟩⟩
    · rw [hflash]
      exact happend.holds
    · change bytesAreErased (slotBytes (s.tear id entry k).flash s.activeBank s.nextRecord) = false
      rw [hread, htorn]
      exact bytesAreErased_enc _ _ _
  · refine Or.inl ?_
    rcases Nat.eq_zero_or_pos k with rfl | hpos
    · have heq : s.tear id entry 0 = s := by
        rw [Storage.tear, List.take_zero, NorFlash.program_nil]
      rw [heq]
      exact h.placed
    · refine ⟨h.toReady.tear _ _ _, ⟨hselected, h.readable, Or.inr ⟨by omega, fun i hi => ?_, ?_⟩⟩,
        hgen, Or.inr ⟨hroom, notErased ?_⟩⟩
      · rw [show (s.tear id entry k).activeBank = s.activeBank from rfl, hothers i (by omega)]
        exact h.holds.slot i hi
      · rw [← hcur, show (s.tear id entry k).activeBank = s.activeBank from rfl, hread]
        exact ⟨bytesAreErased_torn hpos, hinvalid⟩
      · change bytesAreErased (slotBytes (s.tear id entry k).flash s.activeBank s.nextRecord) = false
        rw [hread]
        exact bytesAreErased_torn hpos

/-- An interrupted compaction leaves storage and image where they were. -/
lemma Placed.of_half (h : Placed s records) (hR : ¬ R.MayHideCommit)
    (hhalf : HalfCompacts R s log s') : Placed s' records := by
  obtain ⟨f, q, rfl, hf⟩ := hhalf
  have hun := hf.uncommitted hR h.ready.bank
  have himage := h.image.of_uncommitted hf.same hun
  have hheader : headerAt f s.activeBank = headerAt s.flash s.activeBank :=
    headerAt_of_replacing h.ready.bank hf.same
  have hgen : (headerAt f s.activeBank).generation = s.generation := by rw [hheader, h.generation]
  have hready : Ready { s with flash := f, nextJournalSequence := q } :=
    ⟨by dsimp only; rw [hf.same.size]; exact h.ready.size, h.ready.partition, h.ready.bank,
      h.ready.gate⟩
  have hdis := h.ready.bank.offset_disjoint
  refine ⟨hready, himage, hgen, h.cursor.imp (fun hin => ?_) fun hbad => ⟨hbad.1, fun her => ?_⟩⟩
  · exact ⟨hready, himage.selected, hgen, hin.holds.of_sameOutside hf.same (by omega),
      hin.readable, hin.cursor⟩
  · refine hbad.2 ((NorFlash.erased_iff_read _ _ _).mpr ?_)
    have hread := (NorFlash.erased_iff_read _ _ _).mp her
    change slotBytes f s.activeBank s.nextRecord = _ at hread
    rwa [slotBytes_of_replacing h.ready.bank hf.same hbad.1] at hread

/-! ### Ring and journal -/

/-- Every live event is listed, back-filled or not. -/
def DurableIn (events live : List (UInt32 × EventEntry)) : Prop :=
  ∀ p ∈ live, ∃ entry, (p.1, entry) ∈ events ∧ Restamped p.2 entry

/-- A journal from which a boot can go on: its ids rise and every live event is
in it. -/
structure Sound (records : List EventJournalRecord) (live : List (UInt32 × EventEntry)) :
    Prop where
  rising : Rising UInt32.toNat ((replay eventLogMaxEntries records).events.map Prod.fst)
  unwrapped : ∀ r ∈ records, r.eventId ≠ 0xFFFFFFFF
  durable : DurableIn (replay eventLogMaxEntries records).events live

/-- The ring next to its journal: what the journal lacks, earlier failures left
out of it, but above its least id the ring misses nothing that is in the
journal. -/
structure Mirrors (log : EventLog) (records : List EventJournalRecord)
    (live : List (UInt32 × EventEntry)) : Prop where
  mutex : log.mutex = true
  inUse : log.storageReady = true
  valid : log.Valid
  rising : Rising UInt32.toNat (log.entries.map Prod.fst)
  sound : Sound records live
  fresh : ∀ r ∈ records, r.eventId < log.nextEventId
  catchesUp : CatchesUp UInt32.toNat (log.entries.map Prod.fst)
    ((replay eventLogMaxEntries records).events.map Prod.fst)
  versions : ∀ q ∈ (replay eventLogMaxEntries records).events, ∀ entry,
    (q.1, entry) ∈ log.entries → Restamped q.2 entry
  listed : ∀ p ∈ live, p.1 ∈ log.entries.map Prod.fst

namespace Mirrors

/-- Every live event is in the ring. -/
lemma durable_ring (h : Mirrors log records live) : DurableIn log.entries live := by
  intro p hp
  obtain ⟨entry, hentry, hres⟩ := h.sound.durable p hp
  obtain ⟨q, hq, heq⟩ := List.mem_map.mp (h.listed p hp)
  refine ⟨q.2, heq ▸ hq, hres.trans (h.versions _ hentry q.2 ?_)⟩
  rw [← heq]
  exact hq

/-- Ids of the journal are below the next one. -/
lemma journal_lt (h : Mirrors log records live) :
    ∀ a ∈ (replay eventLogMaxEntries records).events.map Prod.fst,
      a.toNat < log.nextEventId.toNat := by
  intro a ha
  obtain ⟨q, hq, rfl⟩ := List.mem_map.mp ha
  obtain ⟨r, hr, rfl⟩ := mem_replay hq
  exact UInt32.lt_iff_toNat_lt.mp (h.fresh r hr)

lemma ring_lt (h : Mirrors log records live) :
    ∀ a ∈ log.entries.map Prod.fst, a.toNat < log.nextEventId.toNat := by
  intro a ha
  obtain ⟨q, hq, rfl⟩ := List.mem_map.mp ha
  exact UInt32.lt_iff_toNat_lt.mp (h.valid.fresh q hq)

/-- The ids of the ring after a new event. -/
lemma keys_push (h : Mirrors log records live) (entry : EventEntry) :
    (log.push entry).entries.map Prod.fst
      = pushKey eventLogMaxEntries (log.entries.map Prod.fst) log.nextEventId := by
  rw [EventLog.entries_push h.valid.bounds, pushKey, List.length_map, EventLog.entries_length]
  split <;> simp

variable {entry : EventEntry}

/-- An entry of the ring after a new event. -/
lemma mem_push (h : Mirrors log records live) {p : UInt32 × EventEntry}
    (hp : p ∈ (log.push entry).entries) : p ∈ log.entries ∨ p = (log.nextEventId, entry) := by
  rw [EventLog.entries_push h.valid.bounds, List.mem_append, List.mem_singleton] at hp
  refine hp.imp_left fun hp => ?_
  split at hp
  · exact hp
  · exact List.mem_of_mem_tail hp

lemma next_lt (hnext : log.nextEventId ≠ 0xFFFFFFFF) (entry : EventEntry) :
    log.nextEventId < (log.push entry).nextEventId := by
  rw [show (log.push entry).nextEventId = log.nextEventId + 1 from advance_of_ne hnext]
  exact lt_add_one hnext

lemma lt_push (hnext : log.nextEventId ≠ 0xFFFFFFFF) (entry : EventEntry) {id : UInt32}
    (h : id < log.nextEventId) : id < (log.push entry).nextEventId := by
  have hone := next_lt hnext entry
  rw [UInt32.lt_iff_toNat_lt] at h hone ⊢
  exact h.trans hone

variable {live' : List (UInt32 × EventEntry)}

/-- A new event that did not make it into the journal. -/
lemma push_lost (h : Mirrors log records live) (hnext : log.nextEventId ≠ 0xFFFFFFFF)
    (htype : entry.type < eventTypeCount)
    (hlive : ∀ p ∈ live', p ∈ live ∧ p.1 ∈ (log.push entry).entries.map Prod.fst) :
    Mirrors (log.push entry) records live' where
  mutex := h.mutex
  inUse := h.inUse
  valid := h.valid.push hnext htype
  rising := by rw [h.keys_push]; exact h.rising.push h.ring_lt
  sound := ⟨h.sound.rising, h.sound.unwrapped, fun p hp => h.sound.durable p (hlive p hp).1⟩
  fresh r hr := lt_push hnext entry (h.fresh r hr)
  catchesUp := by rw [h.keys_push]; exact h.catchesUp.push h.rising h.journal_lt
  versions q hq e he := by
    rcases h.mem_push he with he | he
    · exact h.versions q hq e he
    · have hlt := h.journal_lt q.1 (List.mem_map_of_mem hq)
      rw [(Prod.mk.inj he).1] at hlt
      exact absurd hlt (Nat.lt_irrefl _)
  listed p hp := (hlive p hp).2

/-- A new event whose record is in the journal. -/
lemma push_appended (h : Mirrors log records live) (hnext : log.nextEventId ≠ 0xFFFFFFFF)
    (htype : entry.type < eventTypeCount) {r : EventJournalRecord}
    (hr : r.event = (log.nextEventId, entry))
    (hlive : ∀ p ∈ live', (p ∈ live ∨ p = (log.nextEventId, entry)) ∧
      p.1 ∈ (log.push entry).entries.map Prod.fst) :
    Mirrors (log.push entry) (records ++ [r]) live' := by
  have hid : r.eventId = log.nextEventId := congrArg Prod.fst hr
  have hnot : log.nextEventId ∉ (replay eventLogMaxEntries records).events.map Prod.fst :=
    fun hmem => absurd (h.journal_lt _ hmem) (Nat.lt_irrefl _)
  have hevents : (replay eventLogMaxEntries (records ++ [r])).events
      = upsert eventLogMaxEntries (replay eventLogMaxEntries records).events
          (log.nextEventId, entry) := by
    rw [replay_append, ← hr]
    rfl
  have hkeys : (replay eventLogMaxEntries (records ++ [r])).events.map Prod.fst
      = pushKey eventLogMaxEntries ((replay eventLogMaxEntries records).events.map Prod.fst)
          log.nextEventId := by
    rw [hevents, keys_upsert, if_neg hnot]
  have hnew : (log.nextEventId, entry) ∈ (replay eventLogMaxEntries (records ++ [r])).events := by
    rw [hevents, upsert_of_notMem hnot]
    exact List.mem_append_right _ (List.mem_singleton_self _)
  refine ⟨h.mutex, h.inUse, h.valid.push hnext htype, ?_, ⟨?_, fun r' hr' => ?_, fun p hp => ?_⟩,
    fun r' hr' => ?_, ?_, fun q hq e he => ?_, fun p hp => (hlive p hp).2⟩
  · rw [h.keys_push]
    exact h.rising.push h.ring_lt
  · rw [hkeys]
    exact h.sound.rising.push h.journal_lt
  · rcases List.mem_append.mp hr' with hr' | hr'
    · exact h.sound.unwrapped r' hr'
    · rw [List.mem_singleton.mp hr', hid]
      exact hnext
  · obtain ⟨hp', hkept⟩ := hlive p hp
    rcases hp' with hp' | rfl
    · obtain ⟨e, he, hres⟩ := h.sound.durable p hp'
      refine ⟨e, ?_, hres⟩
      rw [hevents]
      refine mem_upsert_of_key (replay_nodup _ _) hnot he ?_
      rw [← hevents, hkeys]
      rw [h.keys_push] at hkept
      exact h.catchesUp.keeps h.rising h.sound.rising
        (by rw [List.length_map, EventLog.entries_length]; exact h.valid.bounds.count) h.ring_lt
        (h.listed p hp') (List.mem_map_of_mem he) hkept
    · exact ⟨entry, hnew, Restamped.refl _⟩
  · rcases List.mem_append.mp hr' with hr' | hr'
    · exact lt_push hnext entry (h.fresh r' hr')
    · rw [List.mem_singleton.mp hr', hid]
      exact next_lt hnext entry
  · rw [h.keys_push, hkeys]
    exact h.catchesUp.push_both h.rising h.journal_lt
  · rw [hevents] at hq
    rcases mem_upsert hq with hq | rfl <;> rcases h.mem_push he with he | he
    · exact h.versions q hq e he
    · have hlt := h.journal_lt q.1 (List.mem_map_of_mem hq)
      rw [(Prod.mk.inj he).1] at hlt
      exact absurd hlt (Nat.lt_irrefl _)
    · exact absurd (h.ring_lt _ (List.mem_map_of_mem he)) (Nat.lt_irrefl _)
    · rw [(Prod.mk.inj he).2]
      exact Restamped.refl _

/-- A compaction brings the journal back to the ring. -/
lemma compacted (h : Mirrors log records live) (s : Storage) :
    Mirrors log (log.copies s) live := by
  have hcopies := EventLog.copies_event log s
  have hlen : (log.copies s).length ≤ eventLogMaxEntries := by
    rw [← List.length_map EventJournalRecord.event, hcopies, EventLog.entries_length]
    exact h.valid.bounds.count
  have hevents : (replay eventLogMaxEntries (log.copies s)).events = log.entries := by
    rw [replay_of_nodup (by rw [hcopies]; exact h.valid.nodup) hlen, hcopies]
  have hfresh : ∀ r ∈ log.copies s, r.eventId < log.nextEventId := fun r hr => by
    have hmem := List.mem_map_of_mem (f := EventJournalRecord.event) hr
    rw [hcopies] at hmem
    exact h.valid.fresh _ hmem
  refine ⟨h.mutex, h.inUse, h.valid, h.rising, ⟨?_, fun r hr => ne_max_of_lt (hfresh r hr), ?_⟩,
    hfresh, ?_, fun q hq e he => ?_, h.listed⟩
  · rw [hevents]; exact h.rising
  · rw [hevents]; exact h.durable_ring
  · rw [hevents]; exact fun a ha b hb _ => hb
  · rw [hevents] at hq
    have heq : (q.1, e) = q := List.inj_on_of_nodup_map h.valid.nodup he hq rfl
    rw [← heq]
    exact Restamped.refl _

/-- A clear. -/
lemma cleared (h : Mirrors log records live) : Mirrors log.cleared records [] :=
  ⟨h.mutex, h.inUse, h.valid.cleared, List.Pairwise.nil,
    ⟨h.sound.rising, h.sound.unwrapped, fun _ hp => absurd hp List.not_mem_nil⟩, h.fresh,
    fun _ ha => absurd ha List.not_mem_nil, fun _ _ _ he => absurd he List.not_mem_nil,
    fun _ hp => absurd hp List.not_mem_nil⟩

/-- A back-fill of which some versions, all of events in the journal, made it
there. -/
lemma synced (h : Mirrors log records live) (epoch : ℤ) (revision : UInt32)
    (hkeys : ∀ p ∈ log.backfills epoch,
      p.1 ∈ (replay eventLogMaxEntries records).events.map Prod.fst)
    {rs : List EventJournalRecord} {acc : List (UInt32 × EventEntry)}
    (hrs : ∀ p ∈ rs.map EventJournalRecord.event, p ∈ log.backfills epoch)
    (hacc : ∀ p ∈ acc, p ∈ (rs.map EventJournalRecord.event).foldl (upsert eventLogMaxEntries)
      (replay eventLogMaxEntries records).events)
    (haccb : ∀ p ∈ acc, p ∈ log.backfills epoch) :
    Mirrors { log.synced epoch with revision := revision } (records ++ rs) (live ++ acc) := by
  obtain ⟨buffer, hframe⟩ := EventLog.updates_frame epoch log.count 0 log
  have hnext : (log.synced epoch).nextEventId = log.nextEventId := by
    rw [EventLog.synced, hframe]
  have hevents : (replay eventLogMaxEntries (records ++ rs)).events
      = (rs.map EventJournalRecord.event).foldl (upsert eventLogMaxEntries)
          (replay eventLogMaxEntries records).events := by
    rw [replay_events, List.map_append, List.foldl_append, ← replay_events]
  have hjkeys : (replay eventLogMaxEntries (records ++ rs)).events.map Prod.fst
      = (replay eventLogMaxEntries records).events.map Prod.fst := by
    rw [hevents]
    exact map_fst_foldl_upsert _ _ fun p hp => hkeys p (hrs p hp)
  have hekeys : (log.synced epoch).entries.map Prod.fst = log.entries.map Prod.fst :=
    h.valid.keys_synced epoch
  -- an entry of the ring before and after
  have hring : ∀ id e', (id, e') ∈ (log.synced epoch).entries →
      ∃ e, (id, e) ∈ log.entries ∧ Restamped e e' := by
    intro id e' he'
    rw [h.valid.entries_synced] at he'
    rcases mem_foldl_upsert _ _ _ he' with he | he
    · exact ⟨e', he, Restamped.refl _⟩
    · obtain ⟨e, hmem, hzero, t, ht⟩ := h.valid.backfills epoch _ he
      exact ⟨e, hmem, t, ht, Or.inl hzero⟩
  have hback : ∀ p ∈ log.backfills epoch, p ∈ (log.synced epoch).entries := by
    rw [h.valid.entries_synced]
    refine mem_foldl_upsert_self _ _ (fun p hp => ?_) (h.valid.backfills_nodup epoch)
    obtain ⟨e, he, -⟩ := h.valid.backfills epoch p hp
    exact List.mem_map.mpr ⟨_, he, rfl⟩
  have hvalid := h.valid.synced epoch revision
  refine ⟨by dsimp only; rw [EventLog.synced, hframe]; exact h.mutex,
    by dsimp only; rw [EventLog.synced, hframe]; exact h.inUse, hvalid, ?_,
    ⟨by rw [hjkeys]; exact h.sound.rising, fun r hr => ?_, fun p hp => ?_⟩, fun r hr => ?_, ?_,
    fun q hq e' he' => ?_, fun p hp => ?_⟩
  · change Rising _ ((log.synced epoch).entries.map Prod.fst)
    rw [hekeys]
    exact h.rising
  · rcases List.mem_append.mp hr with hr | hr
    · exact h.sound.unwrapped r hr
    · obtain ⟨e, he, -⟩ := h.valid.backfills epoch _ (hrs _ (List.mem_map_of_mem hr))
      exact ne_max_of_lt (h.valid.fresh _ he)
  · rcases List.mem_append.mp hp with hp | hp
    · obtain ⟨e, he, hres⟩ := h.sound.durable p hp
      have hkey : p.1 ∈ (replay eventLogMaxEntries (records ++ rs)).events.map Prod.fst := by
        rw [hjkeys]
        exact List.mem_map.mpr ⟨_, he, rfl⟩
      obtain ⟨q, hq, heq⟩ := List.mem_map.mp hkey
      refine ⟨q.2, heq ▸ hq, ?_⟩
      rw [hevents] at hq
      rcases mem_foldl_upsert _ _ _ hq with hq | hq
      · have hsame : q = (p.1, e) := List.inj_on_of_nodup_map (replay_nodup _ _) hq he heq
        rw [hsame]
        exact hres
      · obtain ⟨e2, he2, hzero, t, ht⟩ := h.valid.backfills epoch _ (hrs _ hq)
        refine hres.trans ((h.versions _ he e2 ?_).trans ⟨t, ht, Or.inl hzero⟩)
        rw [← heq]
        exact he2
    · exact ⟨p.2, by rw [hevents]; exact hacc p hp, Restamped.refl _⟩
  · change r.eventId < (log.synced epoch).nextEventId
    rw [hnext]
    rcases List.mem_append.mp hr with hr | hr
    · exact h.fresh r hr
    · obtain ⟨e, he, -⟩ := h.valid.backfills epoch _ (hrs _ (List.mem_map_of_mem hr))
      exact h.valid.fresh _ he
  · change CatchesUp _ ((log.synced epoch).entries.map Prod.fst) _
    rw [hekeys, hjkeys]
    exact h.catchesUp
  · have he'' : (q.1, e') ∈ (log.synced epoch).entries := he'
    rw [hevents] at hq
    rcases mem_foldl_upsert _ _ _ hq with hq | hq
    · obtain ⟨e, he, hres⟩ := hring _ _ he''
      exact (h.versions q hq e he).trans hres
    · have hsame : (q.1, e') = q :=
        List.inj_on_of_nodup_map hvalid.nodup he' (hback q (hrs q hq)) rfl
      rw [← hsame]
      exact Restamped.refl _
  · change p.1 ∈ (log.synced epoch).entries.map Prod.fst
    rcases List.mem_append.mp hp with hp | hp
    · rw [hekeys]
      exact h.listed p hp
    · exact List.mem_map_of_mem (hback p (haccb p hp))

/-- A boot from a sound journal, or from the copy a repair made of it. -/
lemma booted (bootId : UInt32) (h : Sound records live) (hread : ∀ r ∈ records, ReadableRecord r)
    {records' : List EventJournalRecord}
    (hevents : (replay eventLogMaxEntries records').events
      = (replay eventLogMaxEntries records).events)
    (hids : ∀ r ∈ records', ∃ r' ∈ records, r'.eventId = r.eventId) :
    Mirrors (EventLog.booted bootId (replay eventLogMaxEntries records)) records' live := by
  have hfit := replay_length_le eventLogMaxEntries (by decide) records
  have hring := EventLog.entries_booted bootId hfit
  refine ⟨rfl, rfl, EventLog.Valid.booted hread h.unwrapped, ?_, ⟨?_, fun r hr => ?_, ?_⟩,
    fun r hr => ?_, ?_, fun q hq e he => ?_, fun p hp => ?_⟩
  · rw [hring]; exact h.rising
  · rw [hevents]; exact h.rising
  · obtain ⟨r', hr', heq⟩ := hids r hr
    rw [← heq]
    exact h.unwrapped r' hr'
  · rw [hevents]; exact h.durable
  · obtain ⟨r', hr', heq⟩ := hids r hr
    rw [← heq]
    exact replay_next records h.unwrapped r' hr'
  · rw [hevents, hring]; exact fun a ha b hb _ => hb
  · rw [hevents] at hq
    rw [hring] at he
    have heq : (q.1, e) = q := List.inj_on_of_nodup_map (replay_nodup _ _) he hq rfl
    rw [← heq]
    exact Restamped.refl _
  · rw [hring]
    obtain ⟨e, he, -⟩ := h.durable p hp
    exact List.mem_map.mpr ⟨_, he, rfl⟩

end Mirrors

/-! ### The whole device -/

/-- An image from which the next boot goes on without losing a live event. -/
def FlashSound (f : NorFlash) (live : List (UInt32 × EventEntry)) : Prop :=
  262144 ≤ f.size ∧
    ((activeBankOf f = none ∧ live = []) ∨ ∃ b records, Image f b records ∧ Sound records live)

/-- **The invariant**: the journal is out of use and the image sound, or the
journal is in use and mirrored by the ring. -/
def Survives (w : EventWorld) (live : List (UInt32 × EventEntry)) : Prop :=
  (w.2.storageReady = false ∧ FlashSound w.1.flash live) ∨
    ∃ records, Placed w.1 records ∧ Mirrors w.2 records live

lemma Survives.flashSound (h : Survives w live) : FlashSound w.1.flash live := by
  rcases h with ⟨-, h⟩ | ⟨records, hp, hm⟩
  · exact h
  · exact ⟨hp.ready.size, Or.inr ⟨_, records, hp.image, hm.sound⟩⟩

/-- A load of a sound image returns every live event. -/
lemma FlashSound.durable (h : FlashSound f live) :
    ∀ p ∈ live, ∃ out, loadOf f = .val (out, .ok ()) ∧
      ∃ entry, (p.1, entry) ∈ out.events ∧ Restamped p.2 entry := by
  intro p hp
  refine ⟨_, loadOf_eq h.1, ?_⟩
  rcases h.2 with ⟨-, rfl⟩ | ⟨b, records, himage, hsound⟩
  · exact absurd hp List.not_mem_nil
  · rw [himage.recovered]
    exact hsound.durable p hp

/-- A compaction, complete or not, keeps ring and journal together. -/
lemma CompactEffect.survives (hp : Placed s records) (hm : Mirrors log records live)
    (hR : ¬ R.MayHideCommit) (hgen : s.generation ≠ 0xFFFFFFFF) (he : CompactEffect R s log s') :
    Survives (s', log) live := by
  rcases he with hc | ⟨-, hc⟩
  · exact Or.inr ⟨_, (hc.inStep hp.ready hp.generation hgen (hm.valid.copies_readable s)).placed,
      hm.compacted s⟩
  · exact Or.inr ⟨records, hp.of_half hR hc, hm⟩

/-- What a new event leaves live. -/
lemma mem_stillLive {log' : EventLog} {acc : List (UInt32 × EventEntry)} {p : UInt32 × EventEntry}
    (hready : log.storageReady = true) (hlisted : ∀ p ∈ live, p.1 ∈ log.entries.map Prod.fst)
    (hacc : ∀ p ∈ acc, p.1 ∈ log'.entries.map Prod.fst)
    (hp : p ∈ (live ++ acc).filter fun p => p.1 ∉ overwritten log log') :
    (p ∈ live ∨ p ∈ acc) ∧ p.1 ∈ log'.entries.map Prod.fst := by
  rw [List.mem_filter, List.mem_append, decide_eq_true_eq, overwritten, if_pos hready,
    List.mem_filter, decide_eq_true_eq, not_and_not_right] at hp
  exact ⟨hp.1, hp.1.elim (fun h => hp.2 (hlisted p h)) (hacc p)⟩

/-- A new event recorded on a journal in step. -/
lemma wpObs_record_survives (hin : InStep s records) (hm : Mirrors log records live)
    (hgen : s.generation ≠ 0xFFFFFFFF) (hnext : log.nextEventId ≠ 0xFFFFFFFF) {type : UInt32}
    (htype : type < eventTypeCount) (payload : UInt32) (now : ℤ) (uptimeMs : UInt64) :
    wpObs visibleErrors acceptedBy (eventLogRecord type payload now uptimeMs)
      (fun _ w' acc => Survives w'
        ((live ++ acc).filter fun p => p.1 ∉ overwritten log w'.2)) (s, log) := by
  refine wpObs_mono (wpObs_eventLogRecord payload now uptimeMs promising_visibleErrors.rest
    not_mayCut_visibleErrors hm.mutex htype hm.inUse hin.toReady hm.valid.next
    hm.valid.bounds.count (promising_visibleErrors.append s _ _ hin.clean)) ?_
  rintro o w' acc ⟨-, s', rfl, heff⟩
  set entry := log.newEntry type payload now uptimeMs with hentry
  have htype' : entry.type < eventTypeCount := htype
  have hself : (log.nextEventId, entry).1 ∈ (log.push entry).entries.map Prod.fst := by
    rw [hm.keys_push]
    exact mem_pushKey_self
  have hnone : ∀ p ∈ (live ++ []).filter fun p : UInt32 × EventEntry =>
      p.1 ∉ overwritten log (log.push entry),
      p ∈ live ∧ p.1 ∈ (log.push entry).entries.map Prod.fst := fun p hp => by
    obtain ⟨h1, h2⟩ := mem_stillLive hm.inUse hm.listed
      (fun _ h => absurd h List.not_mem_nil) hp
    exact ⟨h1.resolve_right List.not_mem_nil, h2⟩
  have hlost := hm.push_lost hnext htype' hnone
  cases heff with
  | appended hroom =>
      refine Or.inr ⟨_, (hin.append hroom hm.valid.next htype').placed,
        hm.push_appended hnext htype' rfl fun p hp => ?_⟩
      obtain ⟨h1, h2⟩ := mem_stillLive hm.inUse hm.listed
        (fun p h => by rw [List.mem_singleton.mp h]; exact hself) hp
      exact ⟨h1.imp_right List.mem_singleton.mp, h2⟩
  | torn hroom hfail hk hcompact =>
      rcases hin.tear hroom hm.valid.next htype' (tornRejected_of_visible hk) with hp | hp
      · exact hcompact.survives hp hlost not_mayHideCommit_visibleErrors hgen
      · exact hcompact.survives hp (hm.push_appended hnext htype' rfl fun p hp =>
          ⟨Or.inl (hnone p hp).1, (hnone p hp).2⟩) not_mayHideCommit_visibleErrors hgen
  | full hfull hcompact =>
      exact hcompact.survives hin.placed hlost not_mayHideCommit_visibleErrors hgen

/-- A time synchronisation, made on a journal in step if there is anything to
back-fill, that holds what is back-filled. -/
lemma wpObs_sync_survives (hp : Placed s records) (hm : Mirrors log records live)
    (hgen : s.generation ≠ 0xFFFFFFFF) {sec usec : ℤ} {uptimeMs : UInt64}
    (hin : log.backfills (bootEpochMs sec usec uptimeMs) ≠ [] → InStep s records)
    (hkeys : ∀ p ∈ log.backfills (bootEpochMs sec usec uptimeMs),
      p.1 ∈ (replay eventLogMaxEntries records).events.map Prod.fst) :
    wpObs visibleErrors acceptedBy (eventLogTimeSynced sec usec uptimeMs)
      (fun _ w' acc => Survives w' (live ++ acc)) (s, log) := by
  set epoch := bootEpochMs sec usec uptimeMs with hepoch
  refine wpObs_mono (wpObs_eventLogTimeSynced promising_visibleErrors not_mayCut_visibleErrors
    hm.mutex hm.inUse hp.ready (fun h => (hin h).clean) hm.valid.bounds.count
    fun p hp => (hm.valid.backfills_usable _ p hp).1) ?_
  rintro o w' acc ⟨-, s', revision, rfl, compact, s1, hback, hrest⟩
  rw [← hepoch] at hback hrest ⊢
  by_cases hnil : log.backfills epoch = []
  · -- nothing to back-fill: the journal is not touched
    rw [hnil] at hback
    cases hback
    obtain rfl : s' = s := hrest
    have hm' := @Mirrors.synced _ _ _ hm epoch revision hkeys [] []
      (fun _ h => absurd h List.not_mem_nil) (fun _ h => absurd h List.not_mem_nil)
      fun _ h => absurd h List.not_mem_nil
    rw [List.append_nil] at hm'
    exact Or.inr ⟨records, hp, hm'⟩
  have hin := hin hnil
  obtain ⟨s2, rs, hpre, hevents, hin2, hgen2, hall, hlast⟩ :=
    hback.inStep records hin (hm.valid.backfills_usable epoch)
  have haccb : ∀ p ∈ acc, p ∈ log.backfills epoch := fun p hp => hpre.subset hp
  have haccn : (acc.map Prod.fst).Nodup :=
    (hm.valid.backfills_nodup epoch).sublist (hpre.sublist.map _)
  have hself := @mem_foldl_upsert_self _ _ _ eventLogMaxEntries acc
    (replay eventLogMaxEntries records).events (fun p hp => hkeys p (haccb p hp)) haccn
  have hm2 : Mirrors { log.synced epoch with revision := revision } (records ++ rs) (live ++ acc) :=
    hm.synced epoch revision hkeys (by rw [hevents]; exact haccb) (by rw [hevents]; exact hself)
      haccb
  have hfin : ∀ records1, Placed s1 records1 →
      Mirrors { log.synced epoch with revision := revision } records1 (live ++ acc) →
      s1.generation = s.generation →
      Survives (s', { log.synced epoch with revision := revision }) (live ++ acc) := by
    intro records1 hp1 hm1 hg1
    cases compact with
    | false =>
        obtain rfl : s' = s1 := hrest
        exact Or.inr ⟨_, hp1, hm1⟩
    | true =>
        have hce : CompactEffect visibleErrors s1 { log.synced epoch with revision := revision } s' :=
          hrest
        exact hce.survives hp1 hm1 not_mayHideCommit_visibleErrors (by rw [hg1]; exact hgen)
  rcases hlast with rfl | ⟨-, -, hroom, p, hp, k, hk, rfl⟩
  · exact hfin _ hin2.placed hm2 hgen2
  · have huse := hm.valid.backfills_usable epoch p hp
    rcases hin2.tear hroom huse.1 huse.2 (tornRejected_of_visible hk) with hp1 | hp1
    · exact hfin _ hp1 hm2 hgen2
    · -- the version whose append failed is in the journal after all
      refine hfin _ hp1 ?_ hgen2
      rw [List.append_assoc]
      have hmap : (rs ++ [appended s2 p.1 p.2]).map EventJournalRecord.event = acc ++ [p] := by
        rw [List.map_append, hevents]
        rfl
      refine hm.synced epoch revision hkeys ?_ ?_ haccb
      · rw [hmap]
        intro q hq
        rcases List.mem_append.mp hq with hq | hq
        · exact haccb q hq
        · rw [List.mem_singleton.mp hq]
          exact hp
      · rw [hmap, List.foldl_append, List.foldl_cons, List.foldl_nil]
        intro q hq
        have hkey : p.1 ∈ ((acc.foldl (upsert eventLogMaxEntries)
            (replay eventLogMaxEntries records).events).map Prod.fst) := by
          rw [map_fst_foldl_upsert _ _ fun q hq => hkeys q (haccb q hq)]
          exact hkeys p hp
        rw [upsert_of_mem hkey]
        by_cases heq : q.1 = p.1
        · rw [List.inj_on_of_nodup_map (hm.valid.backfills_nodup epoch) (haccb q hq) hp heq]
          exact mem_replaceFirst_self _ hkey
        · exact mem_replaceFirst_of_ne _ (hself q hq) heq

/-- A clear of a journal in use. -/
lemma wp_clear_survives (hp : Placed s records) (hm : Mirrors log records live)
    (hgen : s.generation ≠ 0xFFFFFFFF) :
    wp visibleErrors eventLogClear (fun _ w' => Survives w' []) (s, log) := by
  refine wp_mono (wp_eventLogClear promising_visibleErrors.rest not_mayCut_visibleErrors hm.mutex
    hm.inUse hp.ready) ?_
  rintro o w' ⟨-, s', rfl, heff⟩
  exact heff.survives hp hm.cleared not_mayHideCommit_visibleErrors hgen

/-- Without a journal, or before the boot, a new event touches the ring alone. -/
lemma wp_eventLogRecord_outOfUse (hready : log.storageReady = false) (type payload : UInt32)
    (now : ℤ) (uptimeMs : UInt64) :
    wp R (eventLogRecord type payload now uptimeMs)
      (fun _ w' => ∃ log', w' = (s, log') ∧ log'.storageReady = false) (s, log) := by
  rcases Nat.lt_or_ge type.toNat eventTypeCount.toNat with htype | htype
  · cases hmutex : log.mutex with
    | false => exact wp_get_bind (wp_if_pos (by simp [hmutex]) (wp_pure ⟨log, rfl, hready⟩))
    | true =>
        refine wp_mono (wp_eventLogRecord_ramOnly hmutex (UInt32.lt_iff_toNat_lt.mpr htype)
          hready) ?_
        rintro o w' ⟨-, rfl⟩
        exact ⟨_, rfl, hready⟩
  · refine wp_mono (wp_eventLogRecord_ignored (UInt32.le_iff_toNat_le.mpr htype)) ?_
    rintro o w' ⟨-, rfl⟩
    exact ⟨log, rfl, hready⟩

/-! ### Resets -/

/-- An interrupted initialisation leaves a sound image sound. -/
lemma FlashSound.of_halfInitialised (h : FlashSound f live) (hg : HalfInitialised f g) :
    FlashSound g live := by
  refine ⟨hg.size ▸ h.1, ?_⟩
  rcases hg with rfl | ⟨hnone, hsame, hun | hfirst⟩
  · exact h.2
  · rcases h.2 with ⟨-, rfl⟩ | ⟨b, records, himage, -⟩
    · exact Or.inl ⟨activeBankOf_none_of_uncommitted hnone hun
        (Or.inl (headerAt_of_sameOutside hsame (Or.inr (by rw [bankOffset_one])))), rfl⟩
    · exact absurd (himage.selected.symm.trans hnone) (by simp)
  · rcases h.2 with ⟨-, rfl⟩ | ⟨b, records, himage, -⟩
    · exact Or.inr ⟨0, [], ⟨hfirst.activeBankOf hnone, by simp, Or.inl hfirst.holds⟩,
        List.Pairwise.nil, by simp, fun _ hp => absurd hp List.not_mem_nil⟩
    · exact absurd (himage.selected.symm.trans hnone) (by simp)

/-- What a successful initialisation finds in a sound image. -/
lemma FlashSound.initialised {b : ℤ} (h : FlashSound f live) (hg : Initialised f g b) :
    ∃ records, Image g b records ∧ Sound records live := by
  rcases hg with ⟨hsel, rfl⟩ | ⟨hnone, rfl, hfirst⟩
  · rcases h.2 with ⟨hnone, -⟩ | ⟨b', records, himage, hsound⟩
    · exact absurd (hsel.symm.trans hnone) (by simp)
    · obtain rfl : b' = b := Option.some.inj (himage.selected.symm.trans hsel)
      exact ⟨records, himage, hsound⟩
  · rcases h.2 with ⟨-, rfl⟩ | ⟨b, records, himage, -⟩
    · exact ⟨[], ⟨hfirst.activeBankOf hnone, by simp, Or.inl hfirst.holds⟩,
        List.Pairwise.nil, by simp, fun _ hp => absurd hp List.not_mem_nil⟩
    · exact absurd (himage.selected.symm.trans hnone) (by simp)

/-- A boot that failed leaves a sound image sound. -/
lemma FlashSound.of_halfBooted (hR : ¬ R.MayHideCommit) (h : FlashSound f live)
    (hg : HalfBooted R f g) : FlashSound g live := by
  rcases hg with hhalf | ⟨g', b, hinit, hload⟩
  · exact h.of_halfInitialised hhalf
  obtain ⟨records, himage, hsound⟩ := h.initialised hinit
  have hsize : 262144 ≤ g'.size := hinit.size ▸ h.1
  rcases hload with rfl | ⟨rs, hhalf, -⟩
  · exact ⟨hsize, Or.inr ⟨b, records, himage, hsound⟩⟩
  · have hbank : IsBank (booted g' b).activeBank := activeBankOf_isBank himage.selected
    have himage' : Image (booted g' b).flash (booted g' b).activeBank records := himage
    refine ⟨by rw [hhalf.same.size]; exact hsize, Or.inr ⟨b, records, ?_, hsound⟩⟩
    exact himage'.of_uncommitted hhalf.same (hhalf.uncommitted hR hbank)

/-- What the first event of a boot finds: a journal out of use and a sound
image, or a journal in step with the ring and counters that have not wrapped. -/
def Restored (w : EventWorld) (live : List (UInt32 × EventEntry)) : Prop :=
  (w.2.storageReady = false ∧ FlashSound w.1.flash live) ∨
    ∃ records, InStep w.1 records ∧ Mirrors w.2 records live ∧
      w.1.generation ≠ 0xFFFFFFFF ∧ w.2.nextEventId ≠ 0xFFFFFFFF

/-- A number two short of the end can be counted up. -/
lemma ne_max_of_two_left {x : UInt32} (h : x.toNat + 2 < 2 ^ 32) :
    x ≠ 0xFFFFFFFF ∧ x + 1 ≠ 0xFFFFFFFF := by
  have hx : x ≠ 0xFFFFFFFF := by
    rintro rfl
    simp at h
  refine ⟨hx, fun heq => ?_⟩
  have := congrArg UInt32.toNat heq
  rw [toNat_add_one hx] at this
  simp at this
  omega

/-- A boot from a sound image, up to the first event. -/
lemma wp_restore_sound {bootId : UInt32} (h : FlashSound w.1.flash live)
    (hid : (recovered eventLogMaxEntries w.1.flash).nextEventId ≠ 0xFFFFFFFF)
    (hgen : ∀ b, activeBankOf w.1.flash = some b →
      (headerAt w.1.flash b).generation.toNat + 2 < 2 ^ 32) :
    wp visibleErrors (restoreEvents bootId) (fun o w' => o = .val () ∧ Restored w' live)
      (w.1.reboot, {}) := by
  refine wp_mono (wp_restoreEvents promising_visibleErrors.rest not_mayCut_visibleErrors h.1) ?_
  rintro o w' ⟨rfl, ⟨s', log', rfl, hready, -, -, hhalf⟩ | ⟨g, b, s', hinit, hload, rfl⟩⟩
  · exact ⟨rfl, Or.inl ⟨hready, h.of_halfBooted not_mayHideCommit_visibleErrors hhalf⟩⟩
  obtain ⟨records, himage, hsound⟩ := h.initialised hinit
  have hsize : 262144 ≤ g.size := hinit.size ▸ h.1
  have hnext : (replay eventLogMaxEntries records).nextEventId ≠ 0xFFFFFFFF := by
    rw [← himage.recovered, hinit.recovered]
    exact hid
  have hleft : (headerAt g b).generation.toNat + 2 < 2 ^ 32 := by
    rcases hinit with ⟨hsel, rfl⟩ | ⟨-, rfl, hfirst⟩
    · exact hgen b hsel
    · rw [hfirst.committed.generation]
      decide
  obtain ⟨hg1, hg2⟩ := ne_max_of_two_left hleft
  have hscan : (scanSlots (booted g b).flash (booted g b).activeBank 1984 0).1 = records :=
    himage.scan
  rw [show (scanSlots g b 1984 0).1 = records from himage.scan]
  refine ⟨rfl, Or.inr ?_⟩
  rcases hload with ⟨hdam, q, rfl⟩ | ⟨-, rs, f', q, rfl, hrep, hrest⟩
  · -- nothing damaged: the bank is taken over as it is
    have hholds : Holds g b records := by
      refine himage.content.resolve_right fun htorn => ?_
      have := htorn.scan himage.readable
      rw [booted_flash, booted_activeBank] at hdam
      rw [eventRecordsPerBank_eq] at this
      rw [this] at hdam
      exact Bool.noConfusion hdam
    refine ⟨records, ⟨⟨hsize, rfl, activeBankOf_isBank himage.selected, rfl⟩, himage.selected, rfl,
      hholds, himage.readable, ?_⟩, Mirrors.booted bootId hsound himage.readable rfl
      fun r hr => ⟨r, hr, rfl⟩, hg1, hnext⟩
    exact congrArg List.length hscan
  · -- the repair moved what was read into the other bank
    have hb : IsBank b := activeBankOf_isBank himage.selected
    have hevents : rs.map EventJournalRecord.event = (replay eventLogMaxEntries records).events := by
      rw [hrest.events, hscan]
    have hlen : rs.length ≤ eventLogMaxEntries := by
      rw [← List.length_map EventJournalRecord.event, hevents]
      exact replay_length_le _ (by decide) _
    have hsel' : activeBankOf f' = some (1 - b) := by
      refine activeBankOf_of_newer hb.other hrep.committed.valid fun _ => ?_
      have hold : headerAt f' b = headerAt g b :=
        headerAt_of_replacing (s := booted g b) hb hrep.same
      rw [show (1 : ℤ) - (1 - b) = b by omega, hold]
      change _ < (headerAt f' (1 - (booted g b).activeBank)).generation
      rw [hrep.committed.generation]
      exact lt_add_one hg1
    refine ⟨rs, ⟨⟨?_, rfl, hb.other, rfl⟩, hsel', hrep.committed.generation, hrep.holds,
      hrest.readable, rfl⟩, Mirrors.booted bootId hsound himage.readable ?_ fun r hr => ?_, hg2,
      hnext⟩
    · dsimp only
      rw [hrep.same.size]
      exact hsize
    · rw [replay_of_nodup (by rw [hevents]; exact replay_nodup _ _) hlen, hevents]
    · have hmem := List.mem_map_of_mem (f := EventJournalRecord.event) hr
      rw [hevents] at hmem
      obtain ⟨r', hr', heq⟩ := mem_replay hmem
      exact ⟨r', hr', congrArg Prod.fst heq⟩

/-- The first event of a boot. -/
lemma wpObs_start_survives (h : Restored w live) (now : ℤ) (uptimeMs : UInt64) :
    wpObs visibleErrors acceptedBy (eventLogRecord eventSystemStart 0 now uptimeMs)
      (fun _ w' acc => Survives w'
        ((live ++ acc).filter fun p => p.1 ∉ overwritten w.2 w'.2)) w := by
  rcases h with ⟨hready, hsound⟩ | ⟨records, hin, hm, hgen, hnext⟩
  · refine wpObs_silent (wp_mono (wp_eventLogRecord_outOfUse hready _ _ _ _) ?_)
    rintro o w' ⟨log', rfl, hready'⟩
    refine Or.inl ⟨hready', ?_⟩
    have hall : (live ++ []).filter (fun p => p.1 ∉ overwritten w.2 log') = live := by
      rw [List.append_nil, overwritten, hready]
      simp
    rw [hall]
    exact hsound
  · exact wpObs_record_survives hin hm hgen hnext (by decide) _ _ _

/-! ### Runs -/

lemma FlashSound.subset {live' : List (UInt32 × EventEntry)} (h : FlashSound f live)
    (hsub : ∀ p ∈ live', p ∈ live) : FlashSound f live' := by
  refine ⟨h.1, h.2.imp (fun hnone => ⟨hnone.1, ?_⟩) ?_⟩
  · exact List.eq_nil_iff_forall_not_mem.mpr fun p hp => by
      have := hsub p hp
      rw [hnone.2] at this
      exact absurd this List.not_mem_nil
  · rintro ⟨b, records, himage, hs⟩
    exact ⟨b, records, himage, hs.rising, hs.unwrapped, fun p hp => hs.durable p (hsub p hp)⟩

lemma Survives.subset {live' : List (UInt32 × EventEntry)} (h : Survives w live)
    (hsub : ∀ p ∈ live', p ∈ live) : Survives w live' := by
  rcases h with ⟨hready, hf⟩ | ⟨records, hp, hm⟩
  · exact Or.inl ⟨hready, hf.subset hsub⟩
  · exact Or.inr ⟨records, hp, hm.mutex, hm.inUse, hm.valid, hm.rising,
      ⟨hm.sound.rising, hm.sound.unwrapped, fun p h => hm.sound.durable p (hsub p h)⟩, hm.fresh,
      hm.catchesUp, hm.versions, fun p h => hm.listed p (hsub p h)⟩

/-- A reset. -/
lemma survives_reboot {faults : List FlashFault} {bootId : UInt32} {now : ℤ} {uptimeMs : UInt64}
    (h : Survives w live) (hleft : CountersLeft w)
    (hcov : visibleErrors.Covers ((EventCall.reboot bootId now uptimeMs).exec w faults).ops) :
    Survives ((EventCall.reboot bootId now uptimeMs).exec w faults).state
        (stillLive live w (.reboot bootId now uptimeMs, faults)) ∧
      visibleErrors.Kept ((EventCall.reboot bootId now uptimeMs).exec w faults).ops := by
  have hrestore := @wp_restore_sound _ w bootId h.flashSound hleft.2.1
    fun b hb => by
      have hgen := hleft.2.2
      rw [hb] at hgen
      exact hgen
  have hexec : (EventCall.reboot bootId now uptimeMs).exec w faults
      = (restoreEvents bootId >>= fun _ => eventLogRecord eventSystemStart 0 now uptimeMs)
          (w.1.reboot, {}) faults := rfl
  have hboot := hrestore faults fun p hp => hcov p (hexec ▸ FaultM.ops_subset_bind hp)
  have hrun := hexec.trans (FaultM.run_bind hboot.1.1)
  rw [hrun] at hcov
  obtain ⟨hcov1, hcov2⟩ := Rely.covers_append.mp hcov
  obtain ⟨hsurv, hkept⟩ := wpObs_start_survives hboot.1.2 now uptimeMs _ hcov2
  -- the boot itself accepts nothing
  have hsilent : accepted (restoreEvents bootId (w.1.reboot, {}) faults).ops = [] := by
    refine List.filterMap_eq_nil_iff.mpr fun p hp => ?_
    have hkeep := (@wp_restoreEvents _ _ bootId ({} : EventLog)
      promising_visibleErrors.rest.withoutAppends not_mayCut_visibleErrors h.flashSound.1
      faults hcov1).2 p hp
    exact hkeep.2 p.2
  refine ⟨?_, ?_⟩
  · rw [stillLive]
    dsimp only [ringBefore]
    rw [hrun, accepted, List.filterMap_append, ← accepted, hsilent, List.nil_append]
    exact hsurv
  · rw [hrun]
    exact Rely.kept_append.mpr ⟨hboot.2, hkept⟩

/-- **The step lemma**: a safe call keeps the invariant, and every append it
makes is well placed. -/
lemma survives_step (c : EventCall × List FlashFault) (h : Survives w live) (hsafe : Safe w c.1)
    (hcov : visibleErrors.Covers (c.1.exec w c.2).ops) :
    Survives (c.1.exec w c.2).state (stillLive live w c) ∧
      visibleErrors.Kept (c.1.exec w c.2).ops := by
  obtain ⟨⟨type, payload, now, uptimeMs⟩ | ⟨sec, usec, uptimeMs⟩ | _ | ⟨bootId, now, uptimeMs⟩,
    faults⟩ := c
  case reboot => exact survives_reboot h hsafe.1 hcov
  all_goals
    obtain ⟨s, log⟩ := w
  case record =>
    refine (wpObs_mono ?_ fun _ _ _ hs => hs : wpObs visibleErrors acceptedBy
      (eventLogRecord type payload now uptimeMs) (fun _ w' acc => Survives w'
        ((live ++ acc).filter fun p => p.1 ∉ overwritten log w'.2)) (s, log)) faults hcov
    rcases h with ⟨hready, hsound⟩ | ⟨records, hp, hm⟩
    · refine wpObs_silent (wp_mono (wp_eventLogRecord_outOfUse hready _ _ _ _) ?_)
      rintro o w' ⟨log', rfl, hready'⟩
      exact Or.inl ⟨hready', hsound.subset fun p hp => by simpa using (List.mem_filter.mp hp).1⟩
    by_cases htype : type < eventTypeCount
    · have hin := hp.inStep (hsafe.2 hm.inUse htype)
      have hgen := hsafe.1.2.2
      rw [hp.image.selected] at hgen
      exact wpObs_record_survives hin hm
        (hp.generation ▸ (ne_max_of_two_left hgen).1) hsafe.1.1 htype _ _ _
    · refine wpObs_silent (wp_mono (wp_eventLogRecord_ignored (UInt32.not_lt.mp htype)) ?_)
      rintro o w' ⟨-, rfl⟩
      refine Survives.subset (Or.inr ⟨records, hp, hm⟩) fun p hp => ?_
      simpa using (List.mem_filter.mp hp).1
  case timeSynced =>
    refine (wpObs_mono ?_ fun _ w' acc (hs : Survives w' (live ++ acc)) => hs.subset fun p hp =>
      (List.mem_filter.mp hp).1 : wpObs visibleErrors acceptedBy
      (eventLogTimeSynced sec usec uptimeMs) (fun _ w' acc => Survives w'
        ((live ++ acc).filter fun p => p.1 ∉ overwritten log w'.2)) (s, log)) faults hcov
    rcases h with ⟨hready, hsound⟩ | ⟨records, hp, hm⟩
    · refine wpObs_silent (wp_mono (wp_eventLogTimeSynced_ramOnly hready) ?_)
      rintro o w' ⟨-, log', rfl, hready'⟩
      rw [List.append_nil]
      exact Or.inl ⟨hready', hsound⟩
    · have hgen := hsafe.1.2.2
      rw [hp.image.selected] at hgen
      obtain ⟨hcur, hkeys⟩ := hsafe.2 hm.inUse
      rw [hp.image.recovered] at hkeys
      exact wpObs_sync_survives hp hm (hp.generation ▸ (ne_max_of_two_left hgen).1)
        (fun hne => hp.inStep (hcur hne)) hkeys
  case clear =>
    refine (?_ : wp visibleErrors eventLogClear (fun _ w' => Survives w' []) (s, log)) faults hcov
    rcases h with ⟨hready, hsound⟩ | ⟨records, hp, hm⟩
    · refine wp_mono (wp_eventLogClear_ramOnly hready) ?_
      rintro o w' ⟨-, log', rfl, hready'⟩
      exact Or.inl ⟨hready', hsound.subset fun _ hp => absurd hp List.not_mem_nil⟩
    · have hgen := hsafe.1.2.2
      rw [hp.image.selected] at hgen
      exact wp_clear_survives hp hm (hp.generation ▸ (ne_max_of_two_left hgen).1)

/-- **The run lemma**: a run of safe calls keeps the invariant. -/
lemma survives_run (calls : List (EventCall × List FlashFault)) :
    ∀ (w : EventWorld) (live : List (UInt32 × EventEntry)), Survives w live →
      SafeRun w calls → visibleErrors.Covers (runEvents w calls).2 →
      Survives (runEvents w calls).1 (liveEvents w live calls) ∧
        visibleErrors.Kept (runEvents w calls).2 := by
  induction calls with
  | nil => exact fun w live h _ _ => ⟨h, Rely.kept_nil⟩
  | cons c calls ih =>
      intro w live h hsafe hcov
      obtain ⟨hcov1, hcov2⟩ := Rely.covers_append.mp hcov
      obtain ⟨hstep, hkept⟩ := survives_step c h hsafe.1 hcov1
      obtain ⟨hrun, hkept'⟩ := ih _ _ hstep hsafe.2 hcov2
      exact ⟨hrun, Rely.kept_append.mpr ⟨hkept, hkept'⟩⟩

/-- **Accepted events are kept.** In every run whose calls are safe and in which
no commit word is reported as failed after all of it was programmed, whatever
other errors the flash operations report, a load returns every event that was
accepted and has not been overwritten in the ring or cleared since, and every
append goes to an erased slot of the newest committed bank. -/
theorem events_kept {f : NorFlash} (hsize : historyEventRegionSize ≤ f.size)
    (hblank : activeBankOf f = none) (calls : List (EventCall × List FlashFault))
    (herrors : visibleErrors.Covers (runEvents (unbooted f) calls).2)
    (hsafe : SafeRun (unbooted f) calls) : EventsKept f calls := by
  have hstart : Survives (unbooted f) [] := Or.inl ⟨rfl, hsize, Or.inl ⟨hblank, rfl⟩⟩
  obtain ⟨hrun, hkept⟩ := survives_run calls _ _ hstart hsafe herrors
  exact ⟨hrun.flashSound.durable, fun o ho => hkept o ho⟩

/-- A boot, an event whose append fails half-way and is repaired by the
compaction that follows, and another event. -/
def repairedRun : List (EventCall × List FlashFault) :=
  [(.reboot 7 0 5, []), (.record 3 9 0 6, [.error .fail 10 fun _ => false]),
    (.record 4 1 0 7, [])]

theorem events_kept_repairedRun : EventsKept (NorFlash.blank 262144) repairedRun :=
  events_kept (by decide) (by decide +kernel) repairedRun (by decide +kernel) (by decide +kernel)

/-- A boot, an event whose append fails half-way and whose compaction fails at
its erase, and another event, which is accepted. -/
def brokenRun : List (EventCall × List FlashFault) :=
  [(.reboot 7 0 5, []),
    (.record 3 9 0 6, [.error .fail 20 fun _ => false, .error .fail 0 fun _ => false]),
    (.record 4 1 0 7, [])]

/-- **Accepted events can be lost**: after a failed append and a failed
compaction the next append goes to the slot with the remains of the first. -/
theorem not_events_kept :
    ¬ ∀ calls : List (EventCall × List FlashFault),
        errorsOnly.Covers (runEvents (unbooted (NorFlash.blank 262144)) calls).2 →
        EventsKept (NorFlash.blank 262144) calls := by
  intro hclaim
  have hlive : ∃ p ∈ liveEvents (unbooted (NorFlash.blank 262144)) [] brokenRun, p.1 = 3 := by
    decide +kernel
  have hids : (recovered eventLogMaxEntries
      (runEvents (unbooted (NorFlash.blank 262144)) brokenRun).1.1.flash).events.map Prod.fst
        = [1] := by
    decide +kernel
  have hsize : (runEvents (unbooted (NorFlash.blank 262144)) brokenRun).1.1.flash.size
      = 262144 := by decide +kernel
  obtain ⟨p, hp, hid⟩ := hlive
  obtain ⟨out, hload, entry, hmem, -⟩ := (hclaim brokenRun (by decide +kernel)).1 p hp
  rw [loadOf_eq hsize.ge] at hload
  obtain rfl : recovered eventLogMaxEntries _ = out := by
    simpa using hload
  have hkey := List.mem_map_of_mem (f := Prod.fst) hmem
  rw [hids, hid] at hkey
  exact absurd hkey (by decide)

end ArcticController

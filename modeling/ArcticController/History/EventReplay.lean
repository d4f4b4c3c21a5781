/-
The journal and the ring in step: what a replay of the flash image returns is
what the ring holds, whatever calls were made.

* `InStep`: RAM's bank and cursor are the ones the image gives, and that bank
  holds the given records; it survives appends, compactions and back-fills;
* `EventLog.entries_push`, `EventLog.entries_updates`: the ring as a list;
* `InSync`: a replay of the records is the ring, and ids are still rising;
  `InSync.record`, `InSync.sync`, `InSync.clear`, `InSync.reboot` preserve it;
* `replay_eq_ring`: **the replay of the image equals the ring after any run in
  which no flash operation fails**.
-/
import ArcticController.History.EventLogSpec

namespace ArcticController

open NorFlash (SameOutside torn)

variable {R : Rely FlashFault (FlashOp × Storage)} {s s' : Storage} {log : EventLog}
  {records : List EventJournalRecord}

/-! ### Counters that have not wrapped -/

variable {x : UInt32} {w : EventWorld}

lemma toNat_lt_max (hx : x ≠ 0xFFFFFFFF) : x.toNat + 1 < 2 ^ 32 := by
  have hlt := x.toNat_lt
  have hne : x.toNat ≠ 0xFFFFFFFF := fun h => hx (UInt32.toNat_inj.mp h)
  omega

lemma toNat_add_one (hx : x ≠ 0xFFFFFFFF) : (x + 1).toNat = x.toNat + 1 := by
  rw [UInt32.toNat_add]
  exact Nat.mod_eq_of_lt (toNat_lt_max hx)

lemma lt_add_one (hx : x ≠ 0xFFFFFFFF) : x < x + 1 := by
  rw [UInt32.lt_iff_toNat_lt, toNat_add_one hx]
  exact Nat.lt_succ_self _

lemma advance_of_ne (hx : x ≠ 0xFFFFFFFF) : advance x = x + 1 := by
  refine if_neg fun h => ?_
  have := congrArg UInt32.toNat h
  rw [toNat_add_one hx] at this
  exact Nat.succ_ne_zero _ this

lemma advance_ne_zero (x : UInt32) : advance x ≠ 0 := by
  rw [advance]
  split
  · decide
  · assumption

/-- A number below another is not the last one. -/
lemma ne_max_of_lt {y : UInt32} (h : x < y) : x ≠ 0xFFFFFFFF := by
  rintro rfl
  have hy := y.toNat_lt
  rw [UInt32.lt_iff_toNat_lt] at h
  exact absurd h (by simp; omega)

/-- The next id a replay reports is above every id it saw. -/
lemma replay_next {capacity : ℕ} (records : List EventJournalRecord)
    (h : ∀ r ∈ records, r.eventId ≠ 0xFFFFFFFF) :
    ∀ r ∈ records, r.eventId < (replay capacity records).nextEventId := by
  revert h
  refine replay_induction (P := fun records out => (∀ r ∈ records, r.eventId ≠ 0xFFFFFFFF) →
    ∀ r ∈ records, r.eventId < out.nextEventId) (fun _ r hr => absurd hr List.not_mem_nil)
    (fun records r ih h => ?_) records
  have hold := ih fun r' hr' => h r' (List.mem_append_left _ hr')
  have hmax := h r (List.mem_append_right _ (List.mem_singleton_self r))
  intro r' hr'
  simp only [LoadedEvents.add, advance_of_ne hmax]
  have hlast := lt_add_one hmax
  rw [UInt32.lt_iff_toNat_lt] at hlast
  rcases List.mem_append.mp hr' with hr' | hr'
  · have := hold r' hr'
    split
    · next hge =>
        rw [ge_iff_le, UInt32.le_iff_toNat_le] at hge
        rw [UInt32.lt_iff_toNat_lt] at this ⊢
        omega
    · exact this
  · rw [List.mem_singleton.mp hr']
    split
    · exact lt_add_one hmax
    · next hlt =>
        rw [ge_iff_le, UInt32.le_iff_toNat_le] at hlt
        rw [UInt32.lt_iff_toNat_lt]
        omega

/-- The next id a replay reports is not above a bound on the ids it saw. -/
lemma replay_next_le (capacity : ℕ) {m : UInt32} (records : List EventJournalRecord)
    (hm : m ≠ 0) (h : ∀ r ∈ records, r.eventId < m) :
    (replay capacity records).nextEventId ≤ m := by
  revert h
  refine replay_induction (P := fun records out => (∀ r ∈ records, r.eventId < m) →
    out.nextEventId ≤ m) (fun _ => ?_) (fun records r ih h => ?_) records
  · have hpos : 0 < m.toNat := Nat.pos_of_ne_zero fun h0 => hm (UInt32.toNat_inj.mp h0)
    rw [UInt32.le_iff_toNat_le]
    exact hpos
  · have hold := ih fun r' hr' => h r' (List.mem_append_left _ hr')
    have hlast := h r (List.mem_append_right _ (List.mem_singleton_self r))
    simp only [LoadedEvents.add, advance_of_ne (ne_max_of_lt hlast)]
    split
    · rw [UInt32.le_iff_toNat_le, toNat_add_one (ne_max_of_lt hlast)]
      rw [UInt32.lt_iff_toNat_lt] at hlast
      omega
    · exact hold

lemma replay_next_ne_zero (capacity : ℕ) (records : List EventJournalRecord) :
    (replay capacity records).nextEventId ≠ 0 :=
  replay_induction (P := fun _ out => out.nextEventId ≠ 0) (by decide)
    (fun _ r ih => by
      simp only [LoadedEvents.add]
      split
      · exact advance_ne_zero _
      · exact ih) records

/-! ### The journal in step with the image -/

/-- RAM's bank and cursor are the ones the image gives, and the bank holds
exactly `records`. -/
structure InStep (s : Storage) (records : List EventJournalRecord) : Prop extends Ready s where
  selected : activeBankOf s.flash = some s.activeBank
  generation : (headerAt s.flash s.activeBank).generation = s.generation
  holds : Holds s.flash s.activeBank records
  readable : ∀ r ∈ records, ReadableRecord r
  cursor : s.nextRecord = records.length

namespace InStep

lemma clean (h : InStep s records) : Clean s :=
  ⟨h.selected, by rw [h.cursor]; exact h.holds.rest⟩

lemma scan (h : InStep s records) :
    scanSlots s.flash s.activeBank 1984 0 = (records, false) := h.holds.scan h.readable

lemma recovered (h : InStep s records) (capacity : ℕ) :
    ArcticController.recovered capacity s.flash = replay capacity records := by
  rw [ArcticController.recovered, h.selected]
  dsimp only
  rw [eventRecordsPerBank_eq, h.scan]

/-- An append adds its record. -/
lemma append (h : InStep s records) (hroom : s.nextRecord < 1984) {id : UInt32}
    {entry : EventEntry} (hid : id ≠ 0) (htype : entry.type < eventTypeCount) :
    InStep (s.append id entry) (records ++ [appended s id entry]) := by
  have hslot := recordOffset_eq s.activeBank s.nextRecord
  have hsame := sameOutside_record_full s.flash s.activeBank s.nextRecord (appended s id entry)
  refine ⟨h.toReady.append id entry, (h.clean.append hroom id entry).selected, ?_, ?_, ?_, ?_⟩
  · change (headerAt (s.append id entry).flash s.activeBank).generation = s.generation
    rw [← h.generation]
    exact congrArg _ (headerAt_of_sameOutside hsame (Or.inl (by omega)))
  · have hwrite := h.holds.write (by rw [← h.cursor]; exact hroom) (appended s id entry)
    rw [← h.cursor] at hwrite
    exact hwrite
  · intro r hr
    rcases List.mem_append.mp hr with hr | hr
    · exact h.readable r hr
    · rw [List.mem_singleton.mp hr]
      exact readableRecord_journalRecord hid htype
  · rw [List.length_append, List.length_singleton, ← h.cursor]
    rfl

/-- A torn append changes nothing but its slot. -/
lemma sameOutside_tear (h : InStep s records) {id : UInt32} {entry : EventEntry} (k : ℕ) :
    SameOutside s.flash (s.tear id entry k).flash (recordOffset s.activeBank records.length) 64 := by
  rw [← h.cursor]
  exact sameOutside_record _ _ _ _ k

end InStep

/-- A compaction leaves the ring's records in the other bank. -/
lemma Compacts.inStep (hc : Compacts s log s') (hs : Ready s)
    (hheader : (headerAt s.flash s.activeBank).generation = s.generation)
    (hgen : s.generation ≠ 0xFFFFFFFF) (hread : ∀ r ∈ log.copies s, ReadableRecord r) :
    InStep s' (log.copies s) := by
  obtain ⟨f, rfl, hrep⟩ := hc
  have hold : headerAt f s.activeBank = headerAt s.flash s.activeBank :=
    headerAt_of_replacing hs.bank hrep.same
  refine ⟨⟨?_, hs.partition, hs.bank.other, hs.gate⟩, ?_, hrep.committed.generation, hrep.holds,
    hread, ?_⟩
  · dsimp only
    rw [hrep.same.size]
    exact hs.size
  · refine activeBankOf_of_newer hs.bank.other hrep.committed.valid fun _ => ?_
    dsimp only
    rw [hrep.committed.generation, show (1 : ℤ) - (1 - s.activeBank) = s.activeBank by omega, hold,
      hheader]
    exact lt_add_one hgen
  · rw [EventLog.copies, compaction, copies_length]

/-- What a back-fill makes of a journal in step: some of the versions are
appended, all of them if nothing went wrong, and the last one tried may be torn. -/
lemma BackfillEffect.inStep {updates acc : List (UInt32 × EventEntry)} {compact : Bool}
    (h : BackfillEffect R s updates acc compact s') :
    ∀ records, InStep s records → (∀ p ∈ updates, p.1 ≠ 0 ∧ p.2.type < eventTypeCount) →
      ∃ s1 rs, acc <+: updates ∧ rs.map EventJournalRecord.event = acc ∧
        InStep s1 (records ++ rs) ∧ s1.generation = s.generation ∧
        (compact = false → acc = updates) ∧
        (s' = s1 ∨ (R.MayFail ∧ compact = true ∧ s1.nextRecord < 1984 ∧ ∃ p ∈ updates, ∃ k,
          R.Interrupts (appendOp s1 p.1 p.2, s1) k ∧ s' = s1.tear p.1 p.2 k)) := by
  induction h with
  | done s =>
      intro records hs _
      exact ⟨s, [], List.prefix_refl _, rfl, by rwa [List.append_nil], rfl, fun _ => rfl, Or.inl rfl⟩
  | @append s s' id entry updates acc compact hroom _ ih =>
      intro records hs hvalid
      have hfirst := hvalid _ List.mem_cons_self
      obtain ⟨s1, rs, hpre, hevents, hin, hgen, hall, hlast⟩ :=
        ih _ (hs.append hroom hfirst.1 hfirst.2) fun p hp => hvalid p (List.mem_cons_of_mem _ hp)
      refine ⟨s1, appended s id entry :: rs, (List.prefix_cons_inj _).mpr hpre, ?_, ?_, hgen,
        fun hc => by rw [hall hc], ?_⟩
      · rw [List.map_cons, hevents]
        rfl
      · rwa [List.append_assoc, List.singleton_append] at hin
      · refine hlast.imp_right ?_
        rintro ⟨hf, hc, hroom1, p, hp, k, hk, rfl⟩
        exact ⟨hf, hc, hroom1, p, List.mem_cons_of_mem _ hp, k, hk, rfl⟩
  | full hfull =>
      intro records hs _
      exact ⟨_, [], List.nil_prefix, rfl, by rwa [List.append_nil], rfl,
        fun hc => absurd hc (by simp), Or.inl rfl⟩
  | @torn s id entry updates k hroom hfail hk =>
      intro records hs _
      exact ⟨s, [], List.nil_prefix, rfl, by rwa [List.append_nil], rfl,
        fun hc => absurd hc (by simp), Or.inr ⟨hfail, rfl, hroom, (id, entry), List.mem_cons_self, k, hk, rfl⟩⟩

/-! ### The ring as a list -/

/-- The bounds of the ring. -/
structure EventLog.InBounds (log : EventLog) : Prop where
  head : log.head < eventLogMaxEntries
  count : log.count ≤ eventLogMaxEntries

namespace EventLog

lemma InBounds.push (h : log.InBounds) (entry : EventEntry) : (log.push entry).InBounds :=
  ⟨Nat.mod_lt _ (by decide), push_count_le h.count entry⟩

/-- A new event comes last, and the oldest one leaves a full ring. -/
lemma entries_push (h : log.InBounds) (entry : EventEntry) :
    (log.push entry).entries
      = (if log.count < eventLogMaxEntries then log.entries else log.entries.tail)
        ++ [(log.nextEventId, entry)] := by
  rw [entries, entries, ← ringList_push h.head h.count]
  refine congrArg _ (funext fun i => ?_)
  by_cases hi : i = log.head
  · subst hi
    simp [EventLog.push]
  · simp [EventLog.push, hi]

/-- Overwriting the `i`-th newest entry. -/
lemma entries_setEntry (h : log.InBounds) {i : ℕ} (hi : i < log.count) (entry : EventEntry) :
    (log.setEntry (log.newestIndex i) entry).entries
      = log.entries.set (log.count - 1 - i) (log.eventIds (log.newestIndex i), entry) := by
  rw [newestIndex, ringIndex_newest h.head h.count hi, entries, entries,
    ← ringList_update h.head h.count _ _ (by omega)]
  refine congrArg _ (funext fun j => ?_)
  by_cases hj : j = ringIndex eventLogMaxEntries log.head log.count (log.count - 1 - i)
  · subst hj
    simp [setEntry]
  · simp [setEntry, hj]

lemma entries_length (log : EventLog) : log.entries.length = log.count := ringList_length _ _ _ _

/-- The `i`-th newest entry of the list. -/
lemma entries_newest (h : log.InBounds) {i : ℕ} (hi : i < log.count)
    (hlt : log.count - 1 - i < log.entries.length) :
    log.entries[log.count - 1 - i]
      = (log.eventIds (log.newestIndex i), log.buffer (log.newestIndex i)) := by
  rw [newestIndex, ringIndex_newest h.head h.count hi]
  exact ringList_getElem _ _ _ _ _ hlt

/-- A back-filled entry is the old one with a timestamp. -/
lemma backfilled_eq {epoch : ℤ} {index : ℕ} {entry : EventEntry}
    (h : log.backfilled epoch index = some entry) :
    (log.buffer index).timestamp = 0 ∧
      ∃ timestamp, entry = { log.buffer index with timestamp := timestamp } := by
  rw [backfilled] at h
  simp only [ne_eq] at h
  split at h
  · simp at h
  · next hc =>
      split at h
      · simp at h
      · exact ⟨by tauto, _, (Option.some.inj h).symm⟩

/-- The back-fill of a ring, as a list: every version replaces the entry with
its id. -/
lemma entries_updates {epoch : ℤ} (left : ℕ) : ∀ (i : ℕ) (log : EventLog), log.InBounds →
    i + left ≤ log.count → (log.entries.map Prod.fst).Nodup →
    (updates epoch left i log).1.entries
        = (updates epoch left i log).2.foldl (upsert eventLogMaxEntries) log.entries ∧
      ∀ p ∈ (updates epoch left i log).2, ∃ e, (p.1, e) ∈ log.entries ∧ e.timestamp = 0 ∧
        ∃ timestamp, p.2 = { e with timestamp := timestamp } := by
  induction left with
  | zero =>
      intro i log _ _ _
      exact ⟨rfl, fun p hp => absurd hp List.not_mem_nil⟩
  | succ left ih =>
      intro i log hb hi hnodup
      rw [updates]
      cases hback : log.backfilled epoch (log.newestIndex i) with
      | none => exact ih (i + 1) log hb (by omega) hnodup
      | some entry =>
          have hlt : log.count - 1 - i < log.entries.length := by rw [entries_length]; omega
          have hnew := entries_newest hb (i := i) (by omega) hlt
          have hset := entries_setEntry hb (i := i) (by omega) entry
          have hstep : (log.setEntry (log.newestIndex i) entry).entries
              = upsert eventLogMaxEntries log.entries
                  (log.eventIds (log.newestIndex i), entry) := by
            have hrep := replaceFirst_eq_set hnodup entry hlt
            rw [hnew] at hrep
            rw [hset, upsert_of_mem (List.mem_map.mpr ⟨_, List.getElem_mem hlt, by rw [hnew]⟩),
              hrep]
          obtain ⟨hlist, hmem⟩ := ih (i + 1) (log.setEntry (log.newestIndex i) entry)
            ⟨hb.head, hb.count⟩ (by change _ ≤ log.count; omega)
            (by rw [hstep]; exact upsert_nodup _ hnodup)
          refine ⟨by rw [List.foldl_cons, ← hstep]; exact hlist, fun p hp => ?_⟩
          rcases List.mem_cons.mp hp with rfl | hp
          · obtain ⟨hzero, hts⟩ := backfilled_eq hback
            exact ⟨_, by rw [← hnew]; exact List.getElem_mem hlt, hzero, hts⟩
          · obtain ⟨e, he, hts⟩ := hmem p hp
            rw [hstep] at he
            rcases mem_upsert he with he | he
            · exact ⟨e, he, hts⟩
            · obtain ⟨h1, rfl⟩ := Prod.mk.inj he
              obtain ⟨hzero, t, hent⟩ := backfilled_eq hback
              refine ⟨log.buffer (log.newestIndex i), ?_, hzero, ?_⟩
              · rw [h1, ← hnew]
                exact List.getElem_mem hlt
              · obtain ⟨-, t', hp2⟩ := hts
                exact ⟨t', by rw [hp2, hent]⟩

/-- A back-fill visits every entry once, from the newest on. -/
lemma updates_keys {epoch : ℤ} (left : ℕ) : ∀ (i : ℕ) (log : EventLog), log.InBounds →
    i + left ≤ log.count →
    ((updates epoch left i log).2.map Prod.fst).Sublist
      ((log.entries.map Prod.fst).reverse.drop i) := by
  induction left with
  | zero => exact fun i log _ _ => List.nil_sublist _
  | succ left ih =>
      intro i log hb hi
      have hlt : log.count - 1 - i < log.entries.length := by rw [entries_length]; omega
      have hlen : i < (log.entries.map Prod.fst).reverse.length := by
        rw [List.length_reverse, List.length_map, entries_length]; omega
      have hkey : (log.entries.map Prod.fst).reverse[i] = log.eventIds (log.newestIndex i) := by
        have hnew := entries_newest hb (i := i) (by omega) hlt
        rw [List.getElem_reverse, List.getElem_map]
        simp only [List.length_map, entries_length, hnew]
      rw [updates, List.drop_eq_getElem_cons hlen, hkey]
      cases hback : log.backfilled epoch (log.newestIndex i) with
      | none => exact (ih (i + 1) log hb (by omega)).cons _
      | some entry =>
          have hstep := ih (i + 1) (log.setEntry (log.newestIndex i) entry) ⟨hb.head, hb.count⟩
            (by change _ ≤ log.count; omega)
          have hkeys : (log.setEntry (log.newestIndex i) entry).entries.map Prod.fst
              = log.entries.map Prod.fst := by
            rw [entries, entries, ringList, ringList, List.map_map, List.map_map]
            rfl
          rw [hkeys] at hstep
          exact hstep.cons_cons _

lemma InBounds.cleared (log : EventLog) : log.cleared.InBounds :=
  ⟨Nat.succ_pos 999, Nat.zero_le _⟩

/-- A booted ring lists what was loaded. -/
lemma entries_booted (bootId : UInt32) {out : LoadedEvents}
    (hfit : out.events.length ≤ eventLogMaxEntries) :
    (EventLog.booted bootId out).entries = out.events :=
  ringList_of_list out.events hfit default (Or.inr rfl)

lemma InBounds.booted (bootId : UInt32) {out : LoadedEvents}
    (hfit : out.events.length ≤ eventLogMaxEntries) : (EventLog.booted bootId out).InBounds :=
  ⟨Nat.mod_lt _ (by decide), hfit⟩

end EventLog

/-- A ring whose entries can be journalled: usable ids that are still rising,
usable types, and no id twice. -/
structure EventLog.Valid (log : EventLog) : Prop where
  bounds : log.InBounds
  nodup : (log.entries.map Prod.fst).Nodup
  usable : ∀ p ∈ log.entries, p.1 ≠ 0 ∧ p.2.type < eventTypeCount
  fresh : ∀ p ∈ log.entries, p.1 < log.nextEventId
  next : log.nextEventId ≠ 0

namespace EventLog.Valid

lemma notMem_next (h : log.Valid) : log.nextEventId ∉ log.entries.map Prod.fst := by
  intro hmem
  obtain ⟨p, hp, heq⟩ := List.mem_map.mp hmem
  exact absurd (heq ▸ h.fresh p hp) (UInt32.lt_irrefl _)

/-- A new event of a known type keeps the ring valid. -/
lemma push (h : log.Valid) (hnext : log.nextEventId ≠ 0xFFFFFFFF) {entry : EventEntry}
    (htype : entry.type < eventTypeCount) : (log.push entry).Valid := by
  have hmem : ∀ p ∈ (log.push entry).entries, p ∈ log.entries ∨ p = (log.nextEventId, entry) := by
    intro p hp
    rw [EventLog.entries_push h.bounds, List.mem_append, List.mem_singleton] at hp
    refine hp.imp_left fun hp => ?_
    split at hp
    · exact hp
    · exact List.mem_of_mem_tail hp
  have hadv : (log.push entry).nextEventId = log.nextEventId + 1 := advance_of_ne hnext
  refine ⟨h.bounds.push entry, ?_, fun p hp => ?_, fun p hp => ?_, advance_ne_zero _⟩
  · have happ : ∀ l : List (UInt32 × EventEntry), (l.map Prod.fst).Nodup →
        log.nextEventId ∉ l.map Prod.fst →
        ((l ++ [(log.nextEventId, entry)]).map Prod.fst).Nodup := fun l hl hn => by
      rw [List.map_append, List.map_singleton]
      exact List.nodup_append.mpr ⟨hl, List.nodup_singleton _, fun a ha b hb => by
        rw [List.mem_singleton.mp hb]
        exact fun heq => hn ((show a = log.nextEventId from heq) ▸ ha)⟩
    rw [EventLog.entries_push h.bounds]
    split
    · exact happ _ h.nodup h.notMem_next
    · refine happ _ (h.nodup.sublist (List.Sublist.map _ (List.tail_sublist _))) fun hn => ?_
      obtain ⟨p, hp, heq⟩ := List.mem_map.mp hn
      exact h.notMem_next (List.mem_map.mpr ⟨p, List.mem_of_mem_tail hp, heq⟩)
  · rcases hmem p hp with hp | rfl
    · exact h.usable p hp
    · exact ⟨h.next, htype⟩
  · rw [hadv]
    rcases hmem p hp with hp | rfl
    · have hlt := h.fresh p hp
      have hone := lt_add_one hnext
      rw [UInt32.lt_iff_toNat_lt] at hlt hone ⊢
      exact hlt.trans hone
    · exact lt_add_one hnext

/-- What a time synchronisation journals are entries of the ring. -/
lemma backfills (h : log.Valid) (epoch : ℤ) :
    ∀ p ∈ log.backfills epoch, ∃ e, (p.1, e) ∈ log.entries ∧ e.timestamp = 0 ∧
      ∃ timestamp, p.2 = { e with timestamp := timestamp } :=
  (EventLog.entries_updates log.count 0 log h.bounds (by omega) h.nodup).2

lemma backfills_nodup (h : log.Valid) (epoch : ℤ) :
    ((log.backfills epoch).map Prod.fst).Nodup :=
  (List.nodup_reverse.mpr h.nodup).sublist (EventLog.updates_keys log.count 0 log h.bounds (by omega))

lemma backfills_usable (h : log.Valid) (epoch : ℤ) :
    ∀ p ∈ log.backfills epoch, p.1 ≠ 0 ∧ p.2.type < eventTypeCount := by
  intro p hp
  obtain ⟨e, he, -, t, ht⟩ := h.backfills epoch p hp
  exact ⟨(h.usable _ he).1, by rw [ht]; exact (h.usable _ he).2⟩

lemma entries_synced (h : log.Valid) (epoch : ℤ) :
    (log.synced epoch).entries = (log.backfills epoch).foldl (upsert eventLogMaxEntries) log.entries :=
  (EventLog.entries_updates log.count 0 log h.bounds (by omega) h.nodup).1

/-- A time synchronisation keeps the ids of the ring. -/
lemma keys_synced (h : log.Valid) (epoch : ℤ) :
    (log.synced epoch).entries.map Prod.fst = log.entries.map Prod.fst := by
  rw [h.entries_synced, map_fst_foldl_upsert]
  intro p hp
  obtain ⟨e, he, -⟩ := h.backfills epoch p hp
  exact List.mem_map.mpr ⟨_, he, rfl⟩

lemma synced (h : log.Valid) (epoch : ℤ) (revision : UInt32) :
    EventLog.Valid { log.synced epoch with revision := revision } := by
  obtain ⟨buffer, hframe⟩ := EventLog.updates_frame epoch log.count 0 log
  have hhead : (log.synced epoch).head = log.head := by rw [EventLog.synced, hframe]
  have hcount : (log.synced epoch).count = log.count := by rw [EventLog.synced, hframe]
  have hnext : (log.synced epoch).nextEventId = log.nextEventId := by
    rw [EventLog.synced, hframe]
  have hkey : ∀ p ∈ (log.synced epoch).entries, ∃ e, (p.1, e) ∈ log.entries := fun p hp => by
    have hp' := List.mem_map_of_mem (f := Prod.fst) hp
    rw [h.keys_synced] at hp'
    obtain ⟨q, hq, heq⟩ := List.mem_map.mp hp'
    exact ⟨q.2, by rw [← heq]; exact hq⟩
  refine ⟨⟨by dsimp only; rw [hhead]; exact h.bounds.head,
    by dsimp only; rw [hcount]; exact h.bounds.count⟩, ?_, fun p hp => ?_, fun p hp => ?_, ?_⟩
  · exact (h.keys_synced epoch).symm ▸ h.nodup
  · have hp' : p ∈ (log.synced epoch).entries := hp
    rw [h.entries_synced] at hp'
    rcases mem_foldl_upsert _ _ p hp' with hp' | hp'
    · exact h.usable p hp'
    · exact h.backfills_usable epoch p hp'
  · obtain ⟨e, he⟩ := hkey p hp
    have hlt := h.fresh _ he
    rwa [← hnext] at hlt
  · dsimp only
    rw [hnext]
    exact h.next

lemma cleared (h : log.Valid) : log.cleared.Valid :=
  ⟨EventLog.InBounds.cleared log, List.nodup_nil, fun _ hp => absurd hp List.not_mem_nil,
    fun _ hp => absurd hp List.not_mem_nil, h.next⟩

/-- What a compaction of a valid ring writes is readable. -/
lemma copies_readable (h : log.Valid) (s : Storage) : ∀ r ∈ log.copies s, ReadableRecord r := by
  refine ArcticController.copies_readable (fun i hi => ?_) _ _ _ (Nat.zero_add _).le
  have hlt : i < log.entries.length := by rw [EventLog.entries_length]; exact hi
  have hget := ringList_getElem _ _ _ _ i hlt
  have husable := h.usable _ (List.getElem_mem hlt)
  change log.entries[i] = _ at hget
  rw [hget] at husable
  exact husable

/-- A boot from readable records whose ids can go on rising. -/
lemma booted {bootId : UInt32} (hread : ∀ r ∈ records, ReadableRecord r)
    (hmax : ∀ r ∈ records, r.eventId ≠ 0xFFFFFFFF) :
    (EventLog.booted bootId (replay eventLogMaxEntries records)).Valid := by
  have hfit := replay_length_le eventLogMaxEntries (by decide) records
  have hlist := EventLog.entries_booted bootId hfit
  refine ⟨EventLog.InBounds.booted bootId hfit, ?_, fun p hp => ?_, fun p hp => ?_,
    replay_next_ne_zero _ _⟩
  · rw [hlist]
    exact replay_nodup _ _
  · rw [hlist] at hp
    obtain ⟨r, hr, rfl⟩ := mem_replay hp
    exact recordValid_fields (hread r hr).valid
  · rw [hlist] at hp
    obtain ⟨r, hr, rfl⟩ := mem_replay hp
    exact replay_next records hmax r hr

end EventLog.Valid

/-! ### The journal in step with the ring -/

/-- A replay of the journal is the ring, and the ids are still rising. -/
structure InSync (s : Storage) (log : EventLog) (records : List EventJournalRecord) : Prop where
  inStep : InStep s records
  mutex : log.mutex = true
  ready : log.storageReady = true
  valid : log.Valid
  ring : (replay eventLogMaxEntries records).events = log.entries
  fresh : ∀ r ∈ records, r.eventId < log.nextEventId

/-- The counters of storage and ring are short of their last value. -/
def Unwrapped (s : Storage) (log : EventLog) : Prop :=
  s.generation ≠ 0xFFFFFFFF ∧ log.nextEventId ≠ 0xFFFFFFFF

instance (s : Storage) (log : EventLog) : Decidable (Unwrapped s log) :=
  inferInstanceAs (Decidable (_ ∧ _))

namespace InSync

/-- Ids and versions of a journal in step with the ring. -/
lemma notMem_next (h : InSync s log records) :
    log.nextEventId ∉ (replay eventLogMaxEntries records).events.map Prod.fst := by
  rw [h.ring]
  exact h.valid.notMem_next

/-- A compaction of a valid ring brings the journal back in step with it. -/
lemma of_compacts (h : InStep s records) (hgen : s.generation ≠ 0xFFFFFFFF) (hv : log.Valid)
    (hmutex : log.mutex = true) (hready : log.storageReady = true) (hc : Compacts s log s') :
    InSync s' log (log.copies s) := by
  have hlen : (log.copies s).length ≤ eventLogMaxEntries := by
    rw [← List.length_map EventJournalRecord.event, EventLog.copies_event,
      EventLog.entries_length]
    exact hv.bounds.count
  refine ⟨hc.inStep h.toReady h.generation hgen (hv.copies_readable s), hmutex, hready, hv, ?_, fun r hr => ?_⟩
  · rw [replay_of_nodup (by rw [EventLog.copies_event]; exact hv.nodup) hlen,
      EventLog.copies_event]
  · have hmem := List.mem_map_of_mem (f := EventJournalRecord.event) hr
    rw [EventLog.copies_event] at hmem
    exact hv.fresh _ hmem

/-- An event appended. -/
lemma append (h : InSync s log records) (hroom : s.nextRecord < 1984)
    (hnext : log.nextEventId ≠ 0xFFFFFFFF) {entry : EventEntry}
    (htype : entry.type < eventTypeCount) :
    InSync (s.append log.nextEventId entry) (log.push entry)
      (records ++ [appended s log.nextEventId entry]) := by
  refine ⟨h.inStep.append hroom h.valid.next htype, h.mutex, h.ready, h.valid.push hnext htype,
    ?_, fun r hr => ?_⟩
  · rw [replay_append, EventLog.entries_push h.valid.bounds]
    change upsert _ _ (log.nextEventId, entry) = _
    rw [upsert_of_notMem h.notMem_next, h.ring, EventLog.entries_length]
  · have hadv : (log.push entry).nextEventId = log.nextEventId + 1 := advance_of_ne hnext
    have hone := lt_add_one hnext
    rw [hadv]
    rcases List.mem_append.mp hr with hr | hr
    · have hlt := h.fresh r hr
      rw [UInt32.lt_iff_toNat_lt] at hlt hone ⊢
      exact hlt.trans hone
    · rw [List.mem_singleton.mp hr]
      exact hone

/-- A new event, appended or compacted away. -/
lemma record (h : InSync s log records) (hu : Unwrapped s log) {entry : EventEntry}
    {acc : List (UInt32 × EventEntry)} (htype : entry.type < eventTypeCount) (hfail : ¬ R.MayFail)
    (he : RecordEffect R s (log.push entry) log.nextEventId entry acc s') :
    ∃ records', InSync s' (log.push entry) records' := by
  have hpush := h.valid.push hu.2 htype
  cases he with
  | appended hroom => exact ⟨_, h.append hroom hu.2 htype⟩
  | torn _ hf _ _ => exact absurd hf hfail
  | full _ hc =>
      rcases hc with hc | hc
      · exact ⟨_, of_compacts h.inStep hu.1 hpush h.mutex h.ready hc⟩
      · exact absurd hc.1 hfail

/-- A time synchronisation. -/
lemma sync (h : InSync s log records) (hu : Unwrapped s log) (hfail : ¬ R.MayFail) {epoch : ℤ}
    {acc : List (UInt32 × EventEntry)} (revision : UInt32) (he : SyncEffect R s log epoch acc s') :
    ∃ records', InSync s' { log.synced epoch with revision := revision } records' := by
  have hv := h.valid.synced epoch revision
  obtain ⟨buffer, hframe⟩ := EventLog.updates_frame epoch log.count 0 log
  have hmutex : (log.synced epoch).mutex = true := by rw [EventLog.synced, hframe]; exact h.mutex
  have hready : (log.synced epoch).storageReady = true := by
    rw [EventLog.synced, hframe]; exact h.ready
  have hnext : (log.synced epoch).nextEventId = log.nextEventId := by
    rw [EventLog.synced, hframe]
  obtain ⟨compact, s1, hback, hrest⟩ := he
  obtain ⟨s2, rs, -, hevents, hin, hgen, hall, hlast⟩ :=
    hback.inStep records h.inStep (h.valid.backfills_usable epoch)
  rcases hlast with rfl | ⟨hf, -⟩
  · cases compact with
    | false =>
        have hs' : s' = s1 := hrest
        subst hs'
        refine ⟨_, hin, hmutex, hready, hv, ?_, fun r hr => ?_⟩
        · rw [replay_events, List.map_append, List.foldl_append, ← replay_events, h.ring,
            hevents, hall rfl]
          exact (h.valid.entries_synced epoch).symm
        · dsimp only
          rw [hnext]
          rcases List.mem_append.mp hr with hr | hr
          · exact h.fresh r hr
          · have hmem := List.mem_map_of_mem (f := EventJournalRecord.event) hr
            rw [hevents, hall rfl] at hmem
            obtain ⟨e, he, -⟩ := h.valid.backfills epoch _ hmem
            have hlt := h.valid.fresh _ he
            exact hlt
    | true =>
        rcases hrest with hc | hc
        · exact ⟨_, of_compacts hin (by rw [hgen]; exact hu.1) hv hmutex hready hc⟩
        · exact absurd hc.1 hfail
  · exact absurd hf hfail

/-- A clear. -/
lemma clear (h : InSync s log records) (hu : Unwrapped s log) (hfail : ¬ R.MayFail)
    (he : CompactEffect R s log.cleared s') : ∃ records', InSync s' log.cleared records' := by
  rcases he with hc | hc
  · exact ⟨_, of_compacts h.inStep hu.1 h.valid.cleared h.mutex h.ready hc⟩
  · exact absurd hc.1 hfail

end InSync

/-- A boot from an image whose bank holds readable records, up to the first
event. -/
lemma inSync_of_loaded {g : NorFlash} {b : ℤ} (bootId : UInt32) (hsize : 262144 ≤ g.size)
    (hsel : activeBankOf g = some b) (hholds : Holds g b records)
    (hread : ∀ r ∈ records, ReadableRecord r) (hmax : ∀ r ∈ records, r.eventId ≠ 0xFFFFFFFF)
    (hload : Loaded eventLogMaxEntries (booted g b) s') :
    InSync s' (EventLog.booted bootId (replay eventLogMaxEntries (scanSlots g b 1984 0).1))
      records ∧ s'.generation = (headerAt g b).generation := by
  have hscan : scanSlots g b 1984 0 = (records, false) := hholds.scan hread
  have hfit := replay_length_le eventLogMaxEntries (by decide) records
  rcases hload with ⟨-, q, rfl⟩ | ⟨hdam, -⟩
  · rw [booted_flash, booted_activeBank, hscan]
    refine ⟨⟨⟨⟨hsize, rfl, activeBankOf_isBank hsel, rfl⟩, hsel, rfl, hholds, hread, rfl⟩, rfl, rfl,
      EventLog.Valid.booted hread hmax, ?_, fun r hr => ?_⟩, rfl⟩
    · rw [EventLog.entries_booted bootId hfit]
    · exact replay_next records hmax r hr
  · rw [booted_flash, booted_activeBank, hscan] at hdam
    exact absurd hdam Bool.false_ne_true

/-! ### Runs without faults -/

lemma promising_noFaults : (noFaults : Rely FlashFault (FlashOp × Storage)).Promising :=
  ⟨fun _ _ => trivial, fun _ _ _ _ _ => trivial⟩

/-- The state of a device whose operations never failed: not booted yet, on an
image without a committed bank, or in step. -/
def NeverFailed (w : EventWorld) : Prop :=
  (∃ f, w = unbooted f ∧ 262144 ≤ f.size ∧ activeBankOf f = none) ∨
    ∃ records, InSync w.1 w.2 records

/-- The first event of a boot. -/
lemma wp_systemStart {now : ℤ} {uptimeMs : UInt64} (h : InSync s log records)
    (hu : Unwrapped s log) :
    wp noFaults (eventLogRecord eventSystemStart 0 now uptimeMs)
      (fun _ w' => NeverFailed w') (s, log) := by
  have htype : eventSystemStart < eventTypeCount := by decide
  refine wp_of_wpObs (wpObs_mono (wpObs_eventLogRecord _ _ _ promising_noFaults.rest
    not_mayCut_noFaults h.mutex htype h.ready h.inStep.toReady h.valid.next h.valid.bounds.count
    fun _ => trivial) ?_)
  rintro o w' acc ⟨-, s', rfl, heff⟩
  obtain ⟨records', h'⟩ := h.record hu htype not_mayFail_noFaults heff
  exact Or.inr ⟨records', h'⟩

/-- A reset and the boot that follows. -/
lemma wp_reboot {bootId : UInt32} {now : ℤ} {uptimeMs : UInt64} (h : NeverFailed w)
    (hu : Unwrapped w.1 w.2) :
    wp noFaults (EventCall.reboot bootId now uptimeMs).exec (fun _ w' => NeverFailed w') w := by
  have hsize : 262144 ≤ w.1.flash.size := by
    rcases h with ⟨f, rfl, hsize, -⟩ | ⟨records, h⟩
    · exact hsize
    · exact h.inStep.size
  refine wp_modify_bind (wp_bind (wp_mono
    (wp_restoreEvents promising_noFaults.rest not_mayCut_noFaults hsize) ?_))
  rintro o w' ⟨rfl, ⟨s', log', -, -, -, hf, -⟩ | ⟨g, b, s', hinit, hload, rfl⟩⟩
  · exact absurd hf not_mayFail_noFaults
  rw [andThen_val]
  rcases h with ⟨f, rfl, -, hnone⟩ | ⟨records, h⟩
  · rcases hinit with ⟨hsel, -⟩ | ⟨-, rfl, hfirst⟩
    · exact absurd (hnone.symm.trans hsel) (by simp)
    · obtain ⟨hs, hgen⟩ := inSync_of_loaded bootId (hfirst.same.size ▸ hsize)
        (hfirst.activeBankOf hnone) hfirst.holds (by simp) (by simp) hload
      refine wp_systemStart hs ⟨?_, ?_⟩
      · rw [hgen, hfirst.committed.generation]
        decide
      · have hscan : scanSlots g 0 1984 0 = ([], false) := hfirst.holds.scan (by simp)
        rw [hscan]
        change (1 : UInt32) ≠ 0xFFFFFFFF
        decide
  · rcases hinit with ⟨hsel, rfl⟩ | ⟨hnone, -⟩
    · obtain rfl : w.1.activeBank = b := Option.some.inj (h.inStep.selected.symm.trans hsel)
      obtain ⟨hs, hgen⟩ := inSync_of_loaded bootId hsize hsel h.inStep.holds
        h.inStep.readable (fun r hr => ne_max_of_lt (h.fresh r hr)) hload
      refine wp_systemStart hs ⟨?_, fun hmax => ?_⟩
      · rw [hgen, h.inStep.generation]
        exact hu.1
      · have hle := replay_next_le eventLogMaxEntries records h.valid.next h.fresh
        have hlt := toNat_lt_max hu.2
        rw [h.inStep.scan] at hmax
        change (replay _ _).nextEventId = _ at hmax
        rw [hmax, UInt32.le_iff_toNat_le] at hle
        simp at hle
        omega
    · exact absurd (h.inStep.selected.symm.trans hnone) (by simp)

/-- **The step lemma**: one call without a fault keeps ring and journal in
step. -/
lemma wp_exec (call : EventCall) (h : NeverFailed w) (hu : Unwrapped w.1 w.2) :
    wp noFaults call.exec (fun _ w' => NeverFailed w') w := by
  rcases call with ⟨type, payload, now, uptimeMs⟩ | ⟨sec, usec, uptimeMs⟩ | _ | _
  case reboot => exact wp_reboot h hu
  case record =>
    rcases h with ⟨f, rfl, hf⟩ | ⟨records, h⟩
    · exact wp_get_bind (wp_if_pos rfl (wp_pure (Or.inl ⟨f, rfl, hf⟩)))
    by_cases htype : type < eventTypeCount
    · refine wp_of_wpObs (wpObs_mono (wpObs_eventLogRecord _ _ _ promising_noFaults.rest
        not_mayCut_noFaults h.mutex htype h.ready h.inStep.toReady h.valid.next
        h.valid.bounds.count fun _ => trivial) ?_)
      rintro o w' acc ⟨-, s', rfl, heff⟩
      obtain ⟨records', h'⟩ := h.record hu htype not_mayFail_noFaults heff
      exact Or.inr ⟨records', h'⟩
    · refine wp_mono (wp_eventLogRecord_ignored (UInt32.not_lt.mp htype)) ?_
      rintro o w' ⟨-, rfl⟩
      exact Or.inr ⟨records, h⟩
  case timeSynced =>
    rcases h with ⟨f, rfl, hf⟩ | ⟨records, h⟩
    · exact wp_get_bind (wp_if_pos rfl (wp_pure (Or.inl ⟨f, rfl, hf⟩)))
    refine wp_of_wpObs (wpObs_mono (wpObs_eventLogTimeSynced promising_noFaults
      not_mayCut_noFaults h.mutex h.ready h.inStep.toReady (fun _ => h.inStep.clean) h.valid.bounds.count
      fun p hp => (h.valid.backfills_usable _ p hp).1) ?_)
    rintro o w' acc ⟨-, s', revision, rfl, heff⟩
    obtain ⟨records', h'⟩ := h.sync hu not_mayFail_noFaults revision heff
    exact Or.inr ⟨records', h'⟩
  case clear =>
    rcases h with ⟨f, rfl, hf⟩ | ⟨records, h⟩
    · exact wp_get_bind (wp_if_pos rfl (wp_pure (Or.inl ⟨f, rfl, hf⟩)))
    refine wp_mono (wp_eventLogClear promising_noFaults.rest not_mayCut_noFaults h.mutex h.ready
      h.inStep.toReady) ?_
    rintro o w' ⟨-, s', rfl, heff⟩
    obtain ⟨records', h'⟩ := h.clear hu not_mayFail_noFaults heff
    exact Or.inr ⟨records', h'⟩

/-- **The run lemma**: a run without a fault keeps ring and journal in step. -/
lemma neverFailed_run (calls : List (EventCall × List FlashFault)) : ∀ w : EventWorld,
    NeverFailed w → noFaults.Covers (runEvents w calls).2 →
    (∀ n, Unwrapped (runEvents w (calls.take n)).1.1 (runEvents w (calls.take n)).1.2) →
    NeverFailed (runEvents w calls).1 := by
  induction calls with
  | nil => intro w h _ _; exact h
  | cons c calls ih =>
      intro w h hok hwrap
      obtain ⟨hfirst, hrest⟩ := Rely.covers_append.mp hok
      exact ih _ (wp_exec c.1 h (hwrap 0) c.2 hfirst).1 hrest fun n => hwrap (n + 1)

/-- What a replay of the image of such a device returns: the ring, and a next id
above every id of it. -/
lemma NeverFailed.recovered (h : NeverFailed w) :
    (ArcticController.recovered eventLogMaxEntries w.1.flash).events = w.2.entries ∧
      ∀ p ∈ w.2.entries,
        p.1 < (ArcticController.recovered eventLogMaxEntries w.1.flash).nextEventId := by
  rcases h with ⟨f, rfl, -, hnone⟩ | ⟨records, h⟩
  · have hrec : ArcticController.recovered eventLogMaxEntries (unbooted f).1.flash = {} := by
      rw [ArcticController.recovered, show activeBankOf (unbooted f).1.flash = none from hnone]
    rw [hrec]
    exact ⟨rfl, fun p hp => absurd hp List.not_mem_nil⟩
  · rw [h.inStep.recovered]
    refine ⟨h.ring, fun p hp => ?_⟩
    rw [← h.ring] at hp
    obtain ⟨r, hr, rfl⟩ := mem_replay hp
    exact replay_next records (fun r hr => ne_max_of_lt (h.fresh r hr)) r hr

lemma NeverFailed.size (h : NeverFailed w) : 262144 ≤ w.1.flash.size := by
  rcases h with ⟨f, rfl, hsize, -⟩ | ⟨records, h⟩
  · exact hsize
  · exact h.inStep.size

/-- **Replay equals ring.** From an image without a committed bank, through any
run of event log calls and reboots in which every flash operation succeeds and
neither the ids nor the generations reach their last value, a load of the image
succeeds and returns the ring, oldest first, with a next id above all of them. -/
theorem replay_eq_ring {f : NorFlash} (hsize : historyEventRegionSize ≤ f.size)
    (hblank : activeBankOf f = none) (calls : List (EventCall × List FlashFault))
    (hok : noFaults.Covers (runEvents (unbooted f) calls).2)
    (hwrap : ∀ n, Unwrapped (runEvents (unbooted f) (calls.take n)).1.1
      (runEvents (unbooted f) (calls.take n)).1.2)
    (faults : List FlashFault)
    (hload : noFaults.Covers (historyStorageLoadEvents eventLogMaxEntries
      { flash := (runEvents (unbooted f) calls).1.1.flash } faults).ops) :
    ∃ out, (historyStorageLoadEvents eventLogMaxEntries
        { flash := (runEvents (unbooted f) calls).1.1.flash } faults).out = .val (out, .ok ()) ∧
      out.events = (runEvents (unbooted f) calls).1.2.entries ∧
      ∀ p ∈ out.events, p.1 < out.nextEventId := by
  have h := neverFailed_run calls (unbooted f) (Or.inl ⟨f, rfl, hsize, hblank⟩) hok hwrap
  obtain ⟨hevents, hnext⟩ := h.recovered
  exact ⟨_, (loadEvents_recovers (by decide) h.size faults hload).1, hevents, by rwa [hevents]⟩

/-- A first boot, an event before the clock is set, its back-fill, and a reset. -/
def exampleRun : List (EventCall × List FlashFault) :=
  [(.reboot 7 0 5, []), (.record 3 9 0 6, []), (.timeSynced 1704067300 0 10, []),
    (.reboot 8 1704067400 4, [])]

lemma unwrapped_exampleRun (n : ℕ) :
    Unwrapped (runEvents (unbooted (NorFlash.blank 262144)) (exampleRun.take n)).1.1
      (runEvents (unbooted (NorFlash.blank 262144)) (exampleRun.take n)).1.2 := by
  rcases Nat.lt_or_ge n 4 with h | h
  · interval_cases n <;> decide +kernel
  · rw [show exampleRun.take n = exampleRun from List.take_of_length_le h]
    decide +kernel

theorem replay_eq_ring_exampleRun :
    ∃ out, (historyStorageLoadEvents eventLogMaxEntries
        { flash := (runEvents (unbooted (NorFlash.blank 262144)) exampleRun).1.1.flash } []).out
          = .val (out, .ok ()) ∧
      out.events = (runEvents (unbooted (NorFlash.blank 262144)) exampleRun).1.2.entries ∧
      ∀ p ∈ out.events, p.1 < out.nextEventId :=
  replay_eq_ring (by decide) (by decide +kernel) exampleRun
    ((covers_noFaults _).mpr (by decide +kernel)) unwrapped_exampleRun
    [] ((covers_noFaults _).mpr (by decide +kernel))

end ArcticController

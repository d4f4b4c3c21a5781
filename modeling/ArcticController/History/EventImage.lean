/-
What a flash image says about the event journal, without running the code: the
bank its headers select, the records that bank starts with, and the events a
replay of them yields.

* `headerAt`, `activeBankOf`, `slotBytes`, `scanSlots`, `recovered`: the
  reading of an image;
* `Holds`: a bank holds exactly the given records and is erased after them;
  `Holds.write` appends one, `Holds.scan` reads them back;
* `Torn`: a bank holds the given records and then a damaged one;
* `Uncommitted`: a header that is old or lacks its commit word, and
  `activeBankOf_of_uncommitted`: such a header never takes the selection over.
-/
import ArcticController.History.EventJournal

namespace ArcticController

open NorFlash (SameOutside torn)

/-! ### Banks and offsets -/

/-- The two banks. -/
def IsBank (b : ℤ) : Prop := b = 0 ∨ b = 1

variable {b : ℤ} {f g : NorFlash} {records : List EventJournalRecord}

lemma IsBank.other (hb : IsBank b) : IsBank (1 - b) := by
  rcases hb with rfl | rfl
  · exact Or.inr (by norm_num)
  · exact Or.inl (by norm_num)

@[simp] lemma bankOffset_zero : bankOffset 0 = 0 := by decide

@[simp] lemma bankOffset_one : bankOffset 1 = 131072 := by decide

lemma eventBankSize_eq : eventBankSize = 131072 := rfl

lemma historyEventRegionSize_eq : historyEventRegionSize = 262144 := rfl

lemma eventRecordsPerBank_eq : eventRecordsPerBank = 1984 := rfl

lemma recordOffset_eq (b : ℤ) (i : ℕ) : recordOffset b i = bankOffset b + 4096 + i * 64 := rfl

/-- A bank lies inside the event region. -/
lemma IsBank.offset_le (hb : IsBank b) : bankOffset b + 131072 ≤ 262144 := by
  rcases hb with rfl | rfl <;> simp

/-- The two banks do not overlap. -/
lemma IsBank.offset_disjoint (hb : IsBank b) :
    bankOffset b + 131072 ≤ bankOffset (1 - b) ∨ bankOffset (1 - b) + 131072 ≤ bankOffset b := by
  rcases hb with rfl | rfl <;> norm_num

lemma IsBank.offset_aligned (hb : IsBank b) : bankOffset b % 4096 = 0 := by
  rcases hb with rfl | rfl <;> norm_num

/-! ### The reading of an image -/

/-- The header of a bank. -/
def headerAt (f : NorFlash) (b : ℤ) : EventBankHeader :=
  eventBankHeader.dec (f.read (bankOffset b) eventBankHeader.size)

/-- The bank the headers select, none before the first one is committed. -/
def activeBankOf (f : NorFlash) : Option ℤ := chooseBank (headerAt f 0) (headerAt f 1)

/-- The bytes of one record slot. -/
def slotBytes (f : NorFlash) (b : ℤ) (i : ℕ) : List UInt8 :=
  f.read (recordOffset b i) eventRecordSize

/-- The valid records of a bank from `slot` on, and whether a damaged one ended
them. -/
def scanSlots (f : NorFlash) (b : ℤ) : ℕ → ℕ → List EventJournalRecord × Bool
  | 0, _ => ([], false)
  | left + 1, slot =>
      if bytesAreErased (slotBytes f b slot) then ([], false)
      else if !recordValid (eventJournalRecord.dec (slotBytes f b slot)) then ([], true)
      else
        let rest := scanSlots f b left (slot + 1)
        (eventJournalRecord.dec (slotBytes f b slot) :: rest.1, rest.2)

/-- The result of replaying a list of records. -/
def replay (capacity : ℕ) (records : List EventJournalRecord) : LoadedEvents :=
  records.foldl (LoadedEvents.add capacity) {}

/-- The events an image holds. -/
def recovered (capacity : ℕ) (f : NorFlash) : LoadedEvents :=
  match activeBankOf f with
  | none => {}
  | some b => replay capacity (scanSlots f b eventRecordsPerBank 0).1

lemma chooseBank_isBank {h0 h1 : EventBankHeader} (h : chooseBank h0 h1 = some b) : IsBank b := by
  unfold chooseBank at h
  split at h
  · simp only [Option.some.injEq] at h
    split at h
    · exact Or.inr h.symm
    · exact Or.inl h.symm
  · split at h
    · exact Or.inl (by simpa using h.symm)
    · split at h
      · exact Or.inr (by simpa using h.symm)
      · simp at h

lemma activeBankOf_isBank (h : activeBankOf f = some b) : IsBank b :=
  chooseBank_isBank h

lemma scanSlots_length_le (f : NorFlash) (b : ℤ) : ∀ left slot,
    (scanSlots f b left slot).1.length ≤ left := by
  intro left
  induction left with
  | zero => intro slot; simp [scanSlots]
  | succ left ih =>
      intro slot
      rw [scanSlots]
      split
      · simp
      · split
        · simp
        · have := ih (slot + 1)
          simpa using this

/-- The scan reads nothing but the slots of its bank. -/
lemma scanSlots_congr : ∀ left slot,
    (∀ i, slot ≤ i → i < slot + left → slotBytes g b i = slotBytes f b i) →
    scanSlots g b left slot = scanSlots f b left slot := by
  intro left
  induction left with
  | zero => intro slot _; rfl
  | succ left ih =>
      intro slot h
      rw [scanSlots, scanSlots, h slot le_rfl (by omega),
        ih (slot + 1) fun i h1 h2 => h i (by omega) (by omega)]

/-- What a scan returns is valid. -/
lemma scanSlots_valid (f : NorFlash) (b : ℤ) : ∀ left slot,
    ∀ r ∈ (scanSlots f b left slot).1, recordValid r = true := by
  intro left
  induction left with
  | zero => intro slot r hr; simp [scanSlots] at hr
  | succ left ih =>
      intro slot r hr
      rw [scanSlots] at hr
      split at hr
      · simp at hr
      · split at hr
        · simp at hr
        · next hvalid =>
            rcases List.mem_cons.mp hr with rfl | hr
            · simpa using hvalid
            · exact ih (slot + 1) r hr

/-- A bank reads the same in two images that differ outside it. -/
lemma slotBytes_of_sameOutside {off len : ℕ} (h : SameOutside f g off len)
    (hd : bankOffset b + 131072 ≤ off ∨ off + len ≤ bankOffset b) {i : ℕ} (hi : i < 1984) :
    slotBytes g b i = slotBytes f b i :=
  h.read_eq (by rw [recordOffset_eq, eventRecordSize]; omega)

lemma headerAt_of_sameOutside {off len : ℕ} (h : SameOutside f g off len)
    (hd : bankOffset b + 32 ≤ off ∨ off + len ≤ bankOffset b) : headerAt g b = headerAt f b := by
  rw [headerAt, headerAt, h.read_eq (by rw [eventBankHeader_size]; omega)]

/-! ### The result of a replay -/

lemma foldl_add_events (capacity : ℕ) (records : List EventJournalRecord) : ∀ out : LoadedEvents,
    (records.foldl (LoadedEvents.add capacity) out).events
      = (records.map EventJournalRecord.event).foldl (upsert capacity) out.events := by
  induction records with
  | nil => intro out; rfl
  | cons r records ih => intro out; rw [List.foldl_cons, ih]; rfl

/-- The events of a replay: the versions folded one by one. -/
lemma replay_events (capacity : ℕ) (records : List EventJournalRecord) :
    (replay capacity records).events
      = (records.map EventJournalRecord.event).foldl (upsert capacity) [] :=
  foldl_add_events capacity records {}

lemma replay_append (capacity : ℕ) (records : List EventJournalRecord)
    (r : EventJournalRecord) :
    replay capacity (records ++ [r]) = (replay capacity records).add capacity r := by
  rw [replay, List.foldl_append]
  rfl

/-- An induction over the records of a replay, from the oldest on. -/
lemma replay_induction {capacity : ℕ} {P : List EventJournalRecord → LoadedEvents → Prop}
    (nil : P [] {}) (snoc : ∀ records r, P records (replay capacity records) →
      P (records ++ [r]) ((replay capacity records).add capacity r))
    (records : List EventJournalRecord) : P records (replay capacity records) := by
  induction records using List.reverseRecOn with
  | nil => exact nil
  | append_singleton records r ih => rw [replay_append]; exact snoc records r ih

lemma replay_length_le (capacity : ℕ) (hcap : 0 < capacity) (records : List EventJournalRecord) :
    (replay capacity records).events.length ≤ capacity :=
  replay_induction (P := fun _ out => out.events.length ≤ capacity) (Nat.zero_le _)
    (fun _ r ih => length_upsert_le r.event hcap ih) records

lemma replay_length_le_records (capacity : ℕ) (records : List EventJournalRecord) :
    (replay capacity records).events.length ≤ records.length :=
  replay_induction (P := fun records out => out.events.length ≤ records.length) le_rfl
    (fun records r ih => by
      have hstep := length_upsert_le_succ capacity (replay capacity records).events r.event
      rw [List.length_append, List.length_singleton]
      exact hstep.trans (Nat.succ_le_succ ih)) records

lemma replay_nodup (capacity : ℕ) (records : List EventJournalRecord) :
    ((replay capacity records).events.map Prod.fst).Nodup :=
  replay_induction (P := fun _ out => (out.events.map Prod.fst).Nodup) List.nodup_nil
    (fun _ r ih => upsert_nodup r.event ih) records

/-- Every event of a replay stands in one of the records. -/
lemma mem_replay {capacity : ℕ} {p : UInt32 × EventEntry} :
    p ∈ (replay capacity records).events → ∃ r ∈ records, r.event = p :=
  replay_induction (P := fun records out => p ∈ out.events → ∃ r ∈ records, r.event = p)
    (fun h => absurd h List.not_mem_nil)
    (fun records r ih h => by
      rcases mem_upsert h with h | rfl
      · obtain ⟨r', hr', hev⟩ := ih h
        exact ⟨r', List.mem_append_left _ hr', hev⟩
      · exact ⟨r, List.mem_append_right _ (List.mem_singleton_self r), rfl⟩) records

/-- Records whose events have different ids and fit are replayed as they are. -/
lemma replay_of_nodup {capacity : ℕ}
    (hnodup : ((records.map EventJournalRecord.event).map Prod.fst).Nodup)
    (hfit : records.length ≤ capacity) :
    (replay capacity records).events = records.map EventJournalRecord.event := by
  rw [replay_events, foldl_upsert_self hnodup (by simpa using hfit)]

/-! ### A bank that holds records -/

/-- The bank `b` holds exactly `records` and is erased after them. -/
structure Holds (f : NorFlash) (b : ℤ) (records : List EventJournalRecord) : Prop where
  fits : records.length ≤ 1984
  slot : ∀ i (h : i < records.length), slotBytes f b i = eventJournalRecord.enc records[i]
  rest : f.Erased (recordOffset b records.length) ((1984 - records.length) * 64)

/-- A record the reader takes for what it is. -/
structure ReadableRecord (record : EventJournalRecord) : Prop where
  valid : recordValid record = true
  notErased : bytesAreErased (eventJournalRecord.enc record) = false

lemma readableRecord_journalRecord {q id : UInt32} {entry : EventEntry} (hid : id ≠ 0)
    (htype : entry.type < eventTypeCount) : ReadableRecord (journalRecord q id entry) :=
  ⟨recordValid_journalRecord hid htype, bytesAreErased_enc q id entry⟩

/-- Reading on through slots that hold readable records. -/
lemma scanSlots_append {left : ℕ} : ∀ (records : List EventJournalRecord)
    (slot : ℕ), (∀ i (h : i < records.length),
        slotBytes f b (slot + i) = eventJournalRecord.enc records[i]) →
      (∀ r ∈ records, ReadableRecord r) →
      scanSlots f b (records.length + left) slot
        = (records ++ (scanSlots f b left (slot + records.length)).1,
            (scanSlots f b left (slot + records.length)).2) := by
  intro records
  induction records with
  | nil => intro slot _ _; simp
  | cons r records ih =>
      intro slot hslot hread
      have h0 := hslot 0 (by simp)
      rw [Nat.add_zero, List.getElem_cons_zero] at h0
      have hr := hread r List.mem_cons_self
      have htail := ih (slot + 1)
        (fun i h => by
          have := hslot (i + 1) (by simpa using h)
          rwa [List.getElem_cons_succ, show slot + (i + 1) = slot + 1 + i by omega] at this)
        (fun x hx => hread x (List.mem_cons_of_mem _ hx))
      rw [List.length_cons, show records.length + 1 + left = records.length + left + 1 by omega,
        scanSlots, h0, hr.notErased, Codec.dec_enc, hr.valid, htail,
        show slot + 1 + records.length = slot + (records.length + 1) by omega]
      simp

namespace Holds

variable {f : NorFlash} {b : ℤ} {records : List EventJournalRecord}

/-- An erased bank holds nothing. -/
lemma nil_of_erased (h : f.Erased (bankOffset b) eventBankSize) : Holds f b [] where
  fits := by simp
  slot i hi := by simp at hi
  rest := by
    have h0 := recordOffset_eq b 0
    have hsize := eventBankSize_eq
    exact h.sub (a := recordOffset b 0) (n := (1984 - 0) * 64) (by omega) (by omega)

lemma erased_slot (h : Holds f b records) {i : ℕ} (h1 : records.length ≤ i) (h2 : i < 1984) :
    f.Erased (recordOffset b i) 64 :=
  h.rest.sub (by simp only [recordOffset_eq]; omega) (by simp only [recordOffset_eq]; omega)

/-- What a bank holds survives changes outside it. -/
lemma of_sameOutside {g : NorFlash} {off len : ℕ} (h : Holds f b records)
    (hs : SameOutside f g off len)
    (hd : bankOffset b + 131072 ≤ off ∨ off + len ≤ bankOffset b + 32) : Holds g b records where
  fits := h.fits
  slot i hi := by
    have := h.fits
    rw [← h.slot i hi]
    exact hs.read_eq (by rw [recordOffset_eq, eventRecordSize]; omega)
  rest := by
    have := h.fits
    exact hs.erased h.rest (by rw [recordOffset_eq]; omega)

/-- One more record programmed into the first erased slot. -/
lemma write (h : Holds f b records) (hroom : records.length < 1984) (r : EventJournalRecord) :
    Holds (f.program (recordOffset b records.length) (eventJournalRecord.enc r)) b
      (records ++ [r]) := by
  have hlen : (eventJournalRecord.enc r).length = 64 := eventJournalRecord.enc_length r
  refine ⟨by rw [List.length_append, List.length_singleton]; omega, fun i hi => ?_, ?_⟩
  · rw [List.length_append, List.length_singleton] at hi
    by_cases hlast : i = records.length
    · subst hlast
      rw [List.getElem_append_right le_rfl]
      simp only [Nat.sub_self, List.getElem_cons_zero]
      have hself := NorFlash.read_program_erased (eventJournalRecord.enc r)
        (by rw [hlen]; exact h.erased_slot le_rfl hroom)
      rwa [hlen] at hself
    · rw [List.getElem_append_left (by omega), ← h.slot i (by omega)]
      exact NorFlash.read_program_of_disjoint (by
        simp only [recordOffset_eq, eventRecordSize]; omega)
  · rw [List.length_append, List.length_singleton]
    refine (h.rest.sub (by simp only [recordOffset_eq]; omega)
      (by simp only [recordOffset_eq]; omega)).program_of_disjoint ?_
    simp only [recordOffset_eq, hlen]; omega

/-- The records of a bank are read back, and no damaged one after them. -/
lemma scan (h : Holds f b records) (hread : ∀ r ∈ records, ReadableRecord r) :
    scanSlots f b eventRecordsPerBank 0 = (records, false) := by
  have hfits := h.fits
  have hsplit : eventRecordsPerBank = records.length + (1984 - records.length) := by
    rw [eventRecordsPerBank_eq]; omega
  have hslots : ∀ i (hi : i < records.length),
      slotBytes f b (0 + i) = eventJournalRecord.enc records[i] := fun i hi => by
    rw [Nat.zero_add]; exact h.slot i hi
  have hend : scanSlots f b (1984 - records.length) (0 + records.length) = ([], false) := by
    rcases Nat.eq_zero_or_pos (1984 - records.length) with h0 | hpos
    · rw [h0]; rfl
    · obtain ⟨n, hn⟩ : ∃ n, 1984 - records.length = n + 1 := ⟨_, (Nat.sub_add_cancel hpos).symm⟩
      have her := (NorFlash.erased_iff_read _ _ _).mp
        (h.erased_slot (i := 0 + records.length) (by omega) (by omega))
      rw [hn, scanSlots, if_pos (by rw [bytesAreErased_iff, slotBytes, eventRecordSize, her]; simp)]
  rw [hsplit, scanSlots_append records 0 hslots hread, hend]
  simp

end Holds

/-- The bank `b` holds `records` and then a slot that is neither erased nor a
valid record. -/
structure Torn (f : NorFlash) (b : ℤ) (records : List EventJournalRecord) : Prop where
  room : records.length < 1984
  slot : ∀ i (h : i < records.length), slotBytes f b i = eventJournalRecord.enc records[i]
  damaged : bytesAreErased (slotBytes f b records.length) = false ∧
    recordValid (eventJournalRecord.dec (slotBytes f b records.length)) = false

/-- A damaged record ends the replay. -/
lemma Torn.scan (h : Torn f b records) (hread : ∀ r ∈ records, ReadableRecord r) :
    scanSlots f b eventRecordsPerBank 0 = (records, true) := by
  have hroom := h.room
  have hsplit : eventRecordsPerBank = records.length + (1983 - records.length + 1) := by
    rw [eventRecordsPerBank_eq]; omega
  rw [hsplit, scanSlots_append records 0
    (fun i hi => by rw [Nat.zero_add]; exact h.slot i hi) hread, Nat.zero_add, scanSlots,
    h.damaged.1, h.damaged.2]
  simp

/-! ### Headers -/

/-- The commit word of a header is four of its bytes. -/
lemma headerAt_committed (f : NorFlash) (b : ℤ) :
    (headerAt f b).committed = Codec.u32.dec (f.read (bankOffset b + committedOffset) 20) := by
  have h : (headerAt f b).committed
      = Codec.u32.dec (((((f.read (bankOffset b) 32).drop 4).drop 2).drop 2).drop 4) := rfl
  rw [h, List.drop_drop, List.drop_drop, List.drop_drop, committedOffset]
  have hsplit := NorFlash.read_add f (bankOffset b) 12 20
  rw [show (32 : ℕ) = 12 + 20 from rfl, hsplit, List.drop_left' (by simp)]

/-- A header whose commit word still has its last byte erased is not valid. -/
lemma headerValid_of_erased (h : f.cell (bankOffset b + 15) = 0xFF) :
    headerValid (headerAt f b) = false := by
  have hread : f.read (bankOffset b + committedOffset) 20
      = f.cell (bankOffset b + 12) :: f.cell (bankOffset b + 13) :: f.cell (bankOffset b + 14)
        :: f.cell (bankOffset b + 15) :: (f.read (bankOffset b + 16) 16) := by
    rw [committedOffset, show (20 : ℕ) = 4 + 16 from rfl, NorFlash.read_add]
    rfl
  have hne : (headerAt f b).committed ≠ bankCommittedWord := by
    rw [headerAt_committed, hread, h]
    intro hzero
    have hnat := congrArg UInt32.toNat hzero
    have h0 := (f.cell (bankOffset b + 12)).toNat_lt
    have h1 := (f.cell (bankOffset b + 13)).toNat_lt
    have h2 := (f.cell (bankOffset b + 14)).toNat_lt
    simp only [Codec.u32, leNat, UInt32.toNat_ofNat', bankCommittedWord] at hnat
    simp at hnat h0 h1 h2
    omega
  rw [headerValid]
  simp [hne]

/-- Between the images `f` and `g` the header of `b` was not committed: it is
the old one, or it lacks its commit word. -/
def Uncommitted (f g : NorFlash) (b : ℤ) : Prop :=
  headerAt g b = headerAt f b ∨ g.cell (bankOffset b + 15) = 0xFF

lemma Uncommitted.headerValid (h : Uncommitted f g b) :
    headerAt g b = headerAt f b ∨ headerValid (headerAt g b) = false :=
  h.imp_right headerValid_of_erased

/-- A bank that is not committed does not take the selection over. -/
lemma activeBankOf_of_uncommitted (hsel : activeBankOf f = some b)
    (hsame : headerAt g b = headerAt f b) (h : Uncommitted f g (1 - b)) :
    activeBankOf g = some b := by
  have hb := activeBankOf_isBank hsel
  rcases h.headerValid with h | h
  · rcases hb with rfl | rfl
    · rw [activeBankOf, hsame, show (1 : ℤ) = 1 - 0 by norm_num, h, ← hsel]; rfl
    · rw [activeBankOf, hsame, show (0 : ℤ) = 1 - 1 by norm_num, h, ← hsel]; rfl
  · unfold activeBankOf chooseBank at hsel
    rcases hb with rfl | rfl
    · norm_num at h
      have hv : headerValid (headerAt f 0) = true := by
        by_contra hv
        simp [hv] at hsel
      simp [activeBankOf, chooseBank, hsame, h, hv]
    · norm_num at h
      have hv : headerValid (headerAt f 1) = true := by
        by_contra hv
        simp [hv] at hsel
      simp [activeBankOf, chooseBank, hsame, h, hv]

/-- The selected bank has a valid header. -/
lemma headerValid_of_selected (h : activeBankOf f = some b) :
    headerValid (headerAt f b) = true := by
  have hb := activeBankOf_isBank h
  unfold activeBankOf chooseBank at h
  by_contra hv
  rcases hb with rfl | rfl
  · simp only [Bool.not_eq_true] at hv
    rw [hv] at h
    split at h <;> simp_all
  · simp only [Bool.not_eq_true] at hv
    rw [hv] at h
    split at h <;> simp_all

/-- Before any bank is committed none is selected, and none is afterwards. -/
lemma activeBankOf_none_of_uncommitted (hsel : activeBankOf f = none) (h0 : Uncommitted f g 0)
    (h1 : Uncommitted f g 1) : activeBankOf g = none := by
  have hv : headerValid (headerAt f 0) = false ∧ headerValid (headerAt f 1) = false := by
    unfold activeBankOf chooseBank at hsel
    split at hsel
    · simp at hsel
    · split at hsel
      · simp at hsel
      · split at hsel
        · simp at hsel
        · simp_all
  have hg0 : headerValid (headerAt g 0) = false := by
    rcases h0.headerValid with h | h
    · rw [h]; exact hv.1
    · exact h
  have hg1 : headerValid (headerAt g 1) = false := by
    rcases h1.headerValid with h | h
    · rw [h]; exact hv.2
    · exact h
  simp [activeBankOf, chooseBank, hg0, hg1]

/-- A committed bank with a newer generation is the selected one. -/
lemma activeBankOf_of_newer (hb : IsBank b) (hv : headerValid (headerAt f b) = true)
    (hnew : headerValid (headerAt f (1 - b)) = true →
      (headerAt f (1 - b)).generation < (headerAt f b).generation) :
    activeBankOf f = some b := by
  rcases hb with rfl | rfl
  · norm_num at hnew
    by_cases h1 : headerValid (headerAt f 1) = true
    · have hlt := hnew h1
      simp only [activeBankOf, chooseBank, hv, h1, Bool.and_self, if_true, Option.some.injEq]
      rw [if_neg (UInt32.lt_asymm hlt)]
    · simp [activeBankOf, chooseBank, hv, h1]
  · norm_num at hnew
    by_cases h0 : headerValid (headerAt f 0) = true
    · have hlt := hnew h0
      simp only [activeBankOf, chooseBank, hv, h0, Bool.and_self, if_true, Option.some.injEq]
      rw [if_pos (by simpa using hlt)]
    · simp [activeBankOf, chooseBank, hv, h0]

end ArcticController

/-
What each operation of the event journal does, whatever faults hit it: one
specification for each function of `history_storage.cpp`, in the form of what
holds after success and what holds after an interruption.

* `AppendsTo`, `Rely.PromisesRest`: the program operations of an append, told
  from all the others;
* `wp_commitBank`: the commit word is the last byte string programmed, so an
  interrupted commit leaves a header without it;
* `wp_writeRecords`: the copy loop, by the step of one record;
* `wp_replaceEvents`: a compaction touches the replacement bank alone, and that
  bank counts only once it is complete;
* `wp_appendEvent`: an append programs the slot at the cursor and nothing else;
* `wp_historyStorageInit`, `wp_loadSlots`, `wp_loadEvents`: a boot.
-/
import ArcticController.Base.Ring
import ArcticController.History.EventImage

namespace ArcticController

open NorFlash (SameOutside torn)

/-! ### What a claim promises about the operations -/

/-- The program operation of an append: at the cursor of the active bank. -/
def AppendsTo (o : FlashOp × Storage) : Prop :=
  ∃ bytes, o.1 = .write (recordOffset o.2.activeBank o.2.nextRecord) bytes ∧
    o.2.nextRecord < 1984

/-- The promise of `R` covers every operation but the appends. -/
def Rely.PromisesRest (R : Rely FlashFault (FlashOp × Storage)) : Prop :=
  ∀ o, ¬ AppendsTo o → R.promise o

variable {R : Rely FlashFault (FlashOp × Storage)} {s : Storage}

lemma not_appendsTo_read (off len : ℕ) (s : Storage) : ¬ AppendsTo (.read off len, s) := by
  rintro ⟨bytes, h, -⟩
  exact FlashOp.noConfusion h

lemma not_appendsTo_erase (off len : ℕ) (s : Storage) : ¬ AppendsTo (.erase off len, s) := by
  rintro ⟨bytes, h, -⟩
  exact FlashOp.noConfusion h

/-- A program operation outside the records of the active bank is no append. -/
lemma not_appendsTo_write {off : ℕ} {bytes : List UInt8}
    (h : off < bankOffset s.activeBank + 4096 ∨ bankOffset s.activeBank + 131072 ≤ off) :
    ¬ AppendsTo (.write off bytes, s) := by
  rintro ⟨bytes', h', hlt⟩
  have hoff := (FlashOp.write.inj h').1
  have hslot := recordOffset_eq s.activeBank s.nextRecord
  simp only at hlt hoff
  omega

/-- Before any bank is active the bank number is `-1`, beyond every bank. -/
lemma bankOffset_neg_one : bankOffset (-1) = 4294836224 := by decide

/-- The checksum rejects what an interrupted program operation leaves of a
record. -/
def CrcRejects : FlashOp × Storage → FlashFault → Prop
  | (.write _ bytes, _), .error _ k _ => TornRejected bytes k
  | (.write _ bytes, _), .cut k _ => TornRejected bytes k
  | _, _ => True

instance (o : FlashOp × Storage) (f : FlashFault) : Decidable (CrcRejects o f) := by
  rcases o with ⟨_ | _ | _, _⟩ <;> cases f <;> unfold CrcRejects <;> infer_instance

/-! ### Committing a bank -/

/-- The header of a committed bank. -/
def Committed (f : NorFlash) (b : ℤ) (generation : UInt32) : Prop :=
  headerAt f b = { bankHeader generation with committed := bankCommittedWord }

lemma Committed.valid {f : NorFlash} {b : ℤ} {g : UInt32} (h : Committed f b g) :
    headerValid (headerAt f b) = true := by
  rw [h]
  exact headerValid_bankHeader g

lemma Committed.generation {f : NorFlash} {b : ℤ} {g : UInt32} (h : Committed f b g) :
    (headerAt f b).generation = g := by
  rw [h]
  rfl

/-- The last byte of an erased word, wherever it stands. -/
lemma enc_erased_word (aft : List UInt8) :
    (Codec.u32.enc 0xFFFFFFFF ++ aft)[15 - 12]? = some 0xFF := by
  have hword : Codec.u32.enc 0xFFFFFFFF = [0xFF, 0xFF, 0xFF, 0xFF] := by decide
  rw [hword]
  rfl

/-- The bytes of a header: eight before the generation, the generation, the
commit word, and sixteen reserved ones. -/
lemma enc_bankHeader (generation : UInt32) :
    ∃ fore aft, fore.length = 12 ∧ aft.length = 16 ∧
      eventBankHeader.enc (bankHeader generation)
        = fore ++ (Codec.u32.enc 0xFFFFFFFF ++ aft) ∧
      eventBankHeader.enc { bankHeader generation with committed := bankCommittedWord }
        = fore ++ (Codec.u32.enc bankCommittedWord ++ aft) := by
  refine ⟨Codec.u32.enc bankMagic ++ (Codec.u16.enc formatVersion ++ (Codec.u16.enc 32 ++
    Codec.u32.enc generation)), (Codec.array 16 Codec.u8).enc fun _ => 0xFF, ?_, ?_, ?_, ?_⟩
  · simp only [List.length_append, Codec.length_enc]; rfl
  · simp only [Codec.length_enc]; rfl
  · simp only [List.append_assoc]; rfl
  · simp only [List.append_assoc]; rfl

/-- Programming the commit word into a complete header commits the bank. -/
lemma committed_program {f : NorFlash} {b : ℤ} {generation : UInt32}
    (h : f.Erased (bankOffset b) 32) :
    Committed ((f.program (bankOffset b) (eventBankHeader.enc (bankHeader generation))).program
      (bankOffset b + committedOffset) (Codec.u32.enc bankCommittedWord)) b generation := by
  obtain ⟨fore, aft, hfore, haft, hhead, hdone⟩ := enc_bankHeader generation
  have hword : (Codec.u32.enc bankCommittedWord).length = 4 := Codec.length_enc _ _
  have hempty : (Codec.u32.enc 0xFFFFFFFF).length = 4 := Codec.length_enc _ _
  have hall : (eventBankHeader.enc (bankHeader generation)).length = 32 := Codec.length_enc _ _
  set f1 := f.program (bankOffset b) (eventBankHeader.enc (bankHeader generation)) with hf1
  have hread1 : f1.read (bankOffset b) 32 = fore ++ (Codec.u32.enc 0xFFFFFFFF ++ aft) := by
    have := NorFlash.read_program_erased (eventBankHeader.enc (bankHeader generation))
      (by rw [hall]; exact h)
    rwa [hall, hhead, ← hhead, ← hf1, hhead] at this
  have hsplit : ∀ g : NorFlash, g.read (bankOffset b) 32
      = g.read (bankOffset b) 12 ++ (g.read (bankOffset b + 12) 4
        ++ g.read (bankOffset b + 16) 16) := fun g => by
    rw [show (32 : ℕ) = 12 + (4 + 16) from rfl, NorFlash.read_add, NorFlash.read_add]
  rw [hsplit f1] at hread1
  have hparts := List.append_inj hread1 (by simp [hfore])
  have htail := List.append_inj hparts.2 (by rw [hempty]; simp)
  have herased : f1.Erased (bankOffset b + 12) 4 := by
    rw [NorFlash.erased_iff_read, htail.1]
    decide
  rw [Committed, headerAt, eventBankHeader_size, committedOffset, hsplit]
  rw [NorFlash.read_program_of_disjoint (Or.inl (by omega)), hparts.1]
  have hprog := NorFlash.read_program_erased (f := f1)
    (Codec.u32.enc bankCommittedWord) (by rw [hword]; exact herased)
  rw [hword] at hprog
  rw [hprog, NorFlash.read_program_of_disjoint (Or.inr (by omega)), htail.2, ← hdone,
    Codec.dec_enc]

/-- An interrupted commit leaves the last byte of the commit word erased, or
it had programmed all of it. -/
lemma cell_of_interrupted_commit {f : NorFlash} {b : ℤ} {generation : UInt32} {k : ℕ}
    (h : f.Erased (bankOffset b) 32) (hk : k < 4) :
    ((f.program (bankOffset b) (eventBankHeader.enc (bankHeader generation))).program
      (bankOffset b + committedOffset) ((Codec.u32.enc bankCommittedWord).take k)).cell
        (bankOffset b + 15) = 0xFF := by
  obtain ⟨fore, aft, hfore, haft, hhead, -⟩ := enc_bankHeader generation
  have hlen : ((Codec.u32.enc bankCommittedWord).take k).length ≤ 3 := by
    rw [List.length_take]; omega
  have hall : (eventBankHeader.enc (bankHeader generation)).length = 32 := Codec.length_enc _ _
  rw [NorFlash.program_cell_of_outside (Or.inr (by rw [committedOffset]; omega)),
    NorFlash.program_cell, if_pos ⟨by omega, by omega⟩, h 15 (by omega), hhead,
    show bankOffset b + 15 - bankOffset b = 15 by omega]
  rw [List.getD_eq_getElem?_getD, List.getElem?_append_right (by omega), hfore,
    enc_erased_word]
  decide

/-- The header alone, or a part of it, leaves the commit word erased. -/
lemma cell_of_interrupted_header {f : NorFlash} {b : ℤ} {generation : UInt32} (k : ℕ)
    (h : f.Erased (bankOffset b) 32) :
    (f.program (bankOffset b)
      ((eventBankHeader.enc (bankHeader generation)).take k)).cell (bankOffset b + 15) = 0xFF := by
  obtain ⟨fore, aft, hfore, haft, hhead, -⟩ := enc_bankHeader generation
  rw [NorFlash.program_cell]
  split
  · next hin =>
      rw [h 15 (by omega), show bankOffset b + 15 - bankOffset b = 15 by omega,
        List.getD_eq_getElem?_getD, List.getElem?_take_of_lt (by
          rw [List.length_take] at hin; omega), hhead, List.getElem?_append_right (by omega),
        hfore, enc_erased_word]
      decide
  · exact h 15 (by omega)

/-- `R` allows a commit word to be reported as failed, or cut off, although all
of it was programmed. -/
def Rely.MayHideCommit (R : Rely FlashFault (FlashOp × Storage)) : Prop :=
  ∃ s off k, 4 ≤ k ∧ R.Interrupts (.write off (Codec.u32.enc bankCommittedWord), s) k

/-- The specification of `commit_bank` on an erased header. -/
lemma wp_commitBank {b : ℤ} {generation : UInt32}
    (hR : ∀ f off bytes, bankOffset b ≤ off → off < bankOffset b + 4096 →
      R.promise (.write off bytes, { s with flash := f }))
    (herased : s.flash.Erased (bankOffset b) 32) (hsize : bankOffset b + 131072 ≤ s.flash.size) :
    wp R (commitBank b generation)
      (Ends R.MayFail R.MayCut
        (fun _ s' => ∃ f, s' = { s with flash := f } ∧
          SameOutside s.flash f (bankOffset b) 32 ∧ Committed f b generation)
        (fun s' => ∃ f, s' = { s with flash := f } ∧ SameOutside s.flash f (bankOffset b) 32 ∧
          (f.cell (bankOffset b + 15) = 0xFF ∨
            (R.MayHideCommit ∧ Committed f b generation)))) s := by
  have hall : (eventBankHeader.enc (bankHeader generation)).length = 32 := Codec.length_enc _ _
  have hword : (Codec.u32.enc bankCommittedWord).length = 4 := Codec.length_enc _ _
  have hhead : ∀ k, SameOutside s.flash (s.flash.program (bankOffset b)
      ((eventBankHeader.enc (bankHeader generation)).take k)) (bankOffset b) 32 := fun k =>
    SameOutside.program _ _ (by rw [List.length_take]; omega)
  have hfull : SameOutside s.flash (s.flash.program (bankOffset b)
      (eventBankHeader.enc (bankHeader generation))) (bankOffset b) 32 :=
    SameOutside.program _ _ (by omega)
  have htwo : ∀ bs : List UInt8, bs.length ≤ 4 → SameOutside s.flash
      ((s.flash.program (bankOffset b) (eventBankHeader.enc (bankHeader generation))).program
        (bankOffset b + committedOffset) bs) (bankOffset b) 32 := fun bs hbs =>
    hfull.trans ((SameOutside.program _ _ hbs).mono (by omega) (by rw [committedOffset]; omega))
  refine wp_bind_ends (wp_write (hR s.flash _ _ le_rfl (by omega))
    (show _ ≤ s.flash.size by omega)) (fun _ s1 hs1 => ?_) ?_
  · subst hs1
    refine wp_ends_mono (wp_write (hR _ _ _ (by omega) (by rw [committedOffset]; omega))
      (show _ ≤ s.flash.size by rw [committedOffset]; omega)) ?_ ?_
    · rintro _ s2 rfl
      exact ⟨_, rfl, htwo _ (by omega), committed_program herased⟩
    · rintro s2 ⟨k, hint, rfl⟩
      refine ⟨_, rfl, htwo _ (by rw [List.length_take]; omega), ?_⟩
      rcases Nat.lt_or_ge k 4 with hk | hk
      · exact Or.inl (cell_of_interrupted_commit herased hk)
      · refine Or.inr ⟨⟨_, _, k, hk, hint⟩, ?_⟩
        rw [List.take_of_length_le (by omega)]
        exact committed_program herased
  · rintro s1 ⟨k, -, rfl⟩
    exact ⟨_, rfl, hhead k, Or.inl (cell_of_interrupted_header k herased)⟩

/-! ### Copying the ring into a bank -/

/-- The records the copy loop programs, from the `i`-th oldest ring entry on. -/
def copies (entries : ℕ → EventEntry) (eventIds : ℕ → UInt32) (capacity head count : ℕ) :
    ℕ → ℕ → UInt32 → List EventJournalRecord
  | 0, _, _ => []
  | left + 1, i, q =>
      journalRecord q (eventIds (ringIndex capacity head count i))
          (entries (ringIndex capacity head count i)) ::
        copies entries eventIds capacity head count left (i + 1) (advance q)

section Copies

variable {entries : ℕ → EventEntry} {eventIds : ℕ → UInt32} {capacity head count : ℕ}

@[simp] lemma copies_length (left : ℕ) : ∀ i q,
    (copies entries eventIds capacity head count left i q).length = left := by
  induction left with
  | zero => intro i q; rfl
  | succ left ih => intro i q; simp [copies, ih]

/-- The copies hold the ring entries in order. -/
lemma copies_event (left : ℕ) : ∀ i q,
    (copies entries eventIds capacity head count left i q).map EventJournalRecord.event
      = (List.range' i left).map fun j =>
          (eventIds (ringIndex capacity head count j),
            entries (ringIndex capacity head count j)) := by
  induction left with
  | zero => intro i q; rfl
  | succ left ih =>
      intro i q
      rw [copies, List.map_cons, ih, List.range'_succ, List.map_cons]
      rfl

/-- The whole copy is the ring, oldest first. -/
lemma copies_ring (q : UInt32) :
    (copies entries eventIds capacity head count count 0 q).map EventJournalRecord.event
      = ringList capacity head count fun i => (eventIds i, entries i) := by
  rw [copies_event, ringList, List.range_eq_range']

/-- Copies of usable entries are readable. -/
lemma copies_readable (h : ∀ i < count, eventIds (ringIndex capacity head count i) ≠ 0 ∧
      (entries (ringIndex capacity head count i)).type < eventTypeCount) (left : ℕ) :
    ∀ i q, i + left ≤ count →
      ∀ r ∈ copies entries eventIds capacity head count left i q, ReadableRecord r := by
  induction left with
  | zero => intro i q _ r hr; exact absurd hr List.not_mem_nil
  | succ left ih =>
      intro i q hi r hr
      rcases List.mem_cons.mp hr with rfl | hr
      · exact readableRecord_journalRecord (h i (by omega)).1 (h i (by omega)).2
      · exact ih (i + 1) (advance q) (by omega) r hr

end Copies

/-- A program operation in a bank other than the active one is covered. -/
lemma Rely.PromisesRest.write_other (hR : R.PromisesRest) {off : ℕ} (bytes : List UInt8)
    (h : off < bankOffset s.activeBank + 4096 ∨ bankOffset s.activeBank + 131072 ≤ off) :
    R.promise (.write off bytes, s) := hR _ (not_appendsTo_write h)

lemma Rely.PromisesRest.read (hR : R.PromisesRest) (off len : ℕ) (s : Storage) :
    R.promise (.read off len, s) := hR _ (not_appendsTo_read off len s)

lemma Rely.PromisesRest.erase (hR : R.PromisesRest) (off len : ℕ) (s : Storage) :
    R.promise (.erase off len, s) := hR _ (not_appendsTo_erase off len s)

/-- Program one record into a slot: the specification of `write_record`. -/
lemma wp_writeRecord {b : ℤ} {i : ℕ} {q id : UInt32} {entry : EventEntry} (hb : IsBank b)
    (hi : i < 1984) (hR : R.promise
      (.write (recordOffset b i) (eventJournalRecord.enc (journalRecord q id entry)), s))
    (hsize : 262144 ≤ s.flash.size) :
    wp R (writeRecord b i q id entry)
      (Ends R.MayFail R.MayCut
        (fun _ s' => s' = { s with
          flash := s.flash.program (recordOffset b i)
            (eventJournalRecord.enc (journalRecord q id entry)) })
        (fun s' => ∃ k, R.Interrupts
            (.write (recordOffset b i) (eventJournalRecord.enc (journalRecord q id entry)), s) k ∧
          s' = { s with
            flash := s.flash.program (recordOffset b i)
              ((eventJournalRecord.enc (journalRecord q id entry)).take k) })) s := by
  have hlen : (eventJournalRecord.enc (journalRecord q id entry)).length = 64 :=
    Codec.length_enc _ _
  have hoff := recordOffset_eq b i
  have hin := hb.offset_le
  exact wp_write hR (show _ ≤ s.flash.size by omega)

/-- The program operation of one record stays inside its slot. -/
lemma sameOutside_record (f : NorFlash) (b : ℤ) (i : ℕ) (r : EventJournalRecord) (k : ℕ) :
    SameOutside f (f.program (recordOffset b i) ((eventJournalRecord.enc r).take k))
      (recordOffset b i) 64 := by
  have hlen : (eventJournalRecord.enc r).length = 64 := Codec.length_enc _ _
  exact SameOutside.program _ _ (by rw [List.length_take]; omega)

lemma sameOutside_record_full (f : NorFlash) (b : ℤ) (i : ℕ) (r : EventJournalRecord) :
    SameOutside f (f.program (recordOffset b i) (eventJournalRecord.enc r))
      (recordOffset b i) 64 :=
  SameOutside.program _ _ (Codec.length_enc _ _).le

/-- The specification of the copy loop: the records land in the free slots of
a bank, and an interruption changes nothing outside its records. -/
lemma wp_writeRecords {b : ℤ} {entries : ℕ → EventEntry} {eventIds : ℕ → UInt32}
    {capacity head count : ℕ} (hb : IsBank b) (hR : R.PromisesRest) (left : ℕ) :
    ∀ (s : Storage) (records : List EventJournalRecord), s.activeBank = 1 - b →
      262144 ≤ s.flash.size → Holds s.flash b records → records.length + left ≤ 1984 →
      wp R (writeRecords b entries eventIds capacity head count left records.length)
        (Ends R.MayFail R.MayCut
          (fun _ s' => ∃ f, s' = { s with
              flash := f, nextJournalSequence := advance^[left] s.nextJournalSequence } ∧
            SameOutside s.flash f (bankOffset b + 4096) 126976 ∧
            Holds f b (records ++ copies entries eventIds capacity head count left records.length
              s.nextJournalSequence))
          (fun s' => ∃ f q, s' = { s with flash := f, nextJournalSequence := q } ∧
            SameOutside s.flash f (bankOffset b + 4096) 126976)) s := by
  induction left with
  | zero =>
      intro s records _ _ hholds _
      exact wp_pure ⟨s.flash, rfl, SameOutside.refl _ _ _, by simpa [copies] using hholds⟩
  | succ left ih =>
      intro s records hother hsize hholds hroom
      rw [writeRecords]
      have hdis := hb.offset_disjoint
      have hslot := recordOffset_eq b records.length
      have hin : ∀ g, SameOutside s.flash g (recordOffset b records.length) 64 →
          SameOutside s.flash g (bankOffset b + 4096) 126976 := fun g hg =>
        hg.mono (by omega) (by omega)
      refine wp_get_bind ?_
      refine wp_bind_ends (wp_writeRecord hb (by omega)
        (hR.write_other _ (by rw [hother]; omega)) hsize) (fun _ s1 hs1 => ?_) ?_
      · subst hs1
        refine wp_modify_bind ?_
        have hnext := hholds.write (by omega) (journalRecord s.nextJournalSequence
          (eventIds (ringIndex capacity head count records.length))
          (entries (ringIndex capacity head count records.length)))
        have hout := hin _ (sameOutside_record_full s.flash b records.length
          (journalRecord s.nextJournalSequence
            (eventIds (ringIndex capacity head count records.length))
            (entries (ringIndex capacity head count records.length))))
        have hrest := ih { s with
            flash := s.flash.program (recordOffset b records.length) (eventJournalRecord.enc
              (journalRecord s.nextJournalSequence
                (eventIds (ringIndex capacity head count records.length))
                (entries (ringIndex capacity head count records.length))))
            nextJournalSequence := advance s.nextJournalSequence } _ hother hsize hnext
          (by rw [List.length_append, List.length_singleton]; omega)
        rw [List.length_append, List.length_singleton] at hrest
        refine wp_ends_mono hrest ?_ ?_
        · rintro _ s2 ⟨f, rfl, hf1, hf2⟩
          refine ⟨f, by rw [Function.iterate_succ_apply], hout.trans hf1, ?_⟩
          rwa [List.append_assoc] at hf2
        · rintro s2 ⟨f, q, rfl, hf⟩
          exact ⟨f, q, rfl, hout.trans hf⟩
      · rintro s1 ⟨k, -, rfl⟩
        exact ⟨_, _, rfl, hin _ (sameOutside_record _ _ _ _ k)⟩

/-! ### Compacting -/

/-- The storage is up: what every call into the journal checks first. -/
structure Ready (s : Storage) : Prop where
  size : 262144 ≤ s.flash.size
  partition : s.partition = true
  bank : IsBank s.activeBank
  gate : s.rebootPending = false

lemma Ready.nonneg (h : Ready s) : ¬ s.activeBank < 0 := by
  rcases h.bank with h | h <;> rw [h] <;> decide

/-- The image `g` is `s.flash` with `records` committed to the replacement bank
as the next generation. -/
structure Replaced (s : Storage) (records : List EventJournalRecord) (g : NorFlash) : Prop where
  same : SameOutside s.flash g (bankOffset (1 - s.activeBank)) 131072
  holds : Holds g (1 - s.activeBank) records
  committed : Committed g (1 - s.activeBank) (s.generation + 1)

/-- The image an interrupted compaction leaves: part of the replacement bank
erased, or its commit word not programmed, or all of it done after all. -/
structure HalfReplaced (R : Rely FlashFault (FlashOp × Storage)) (s : Storage)
    (records : List EventJournalRecord) (g : NorFlash) : Prop where
  same : SameOutside s.flash g (bankOffset (1 - s.activeBank)) 131072
  how : (∃ sel, g = s.flash.eraseSectors flashSectorSize (bankOffset (1 - s.activeBank))
      eventBankSize sel) ∨
    g.cell (bankOffset (1 - s.activeBank) + 15) = 0xFF ∨
    (R.MayHideCommit ∧ Replaced s records g)

/-- The records a compaction of a ring writes. -/
def compaction (s : Storage) (entries : ℕ → EventEntry) (eventIds : ℕ → UInt32)
    (capacity head count : ℕ) : List EventJournalRecord :=
  copies entries eventIds capacity head count count 0 s.nextJournalSequence

/-- The specification of `history_storage_replace_events`. -/
lemma wp_replaceEvents (entries : ℕ → EventEntry) (eventIds : ℕ → UInt32)
    {capacity : ℕ} (head : ℕ) {count : ℕ} (hR : R.PromisesRest) (hs : Ready s)
    (hcap : count ≤ capacity) (hfit : count ≤ 1984) :
    wp R (historyStorageReplaceEvents entries eventIds capacity head count)
      (Ends R.MayFail R.MayCut
        (fun _ s' => ∃ f, s' = { s with
            flash := f
            activeBank := 1 - s.activeBank
            generation := s.generation + 1
            nextJournalSequence := advance^[count] s.nextJournalSequence
            nextRecord := count } ∧
          Replaced s (compaction s entries eventIds capacity head count) f)
        (fun s' => ∃ f q, s' = { s with flash := f, nextJournalSequence := q } ∧
          HalfReplaced R s (compaction s entries eventIds capacity head count) f)) s := by
  have hsize := hs.size
  have hother := hs.bank.other
  have hin := hother.offset_le
  have hdis := hs.bank.offset_disjoint
  have halign := hother.offset_aligned
  have hbs := eventBankSize_eq
  have hss : flashSectorSize = 4096 := rfl
  have hcount : ¬ (decide (count > capacity) || decide (count > eventRecordsPerBank)) = true := by
    rw [eventRecordsPerBank_eq, Bool.or_eq_true, decide_eq_true_eq, decide_eq_true_eq]
    omega
  refine wp_get_bind (wp_if_neg (by simp [hs.gate]) (wp_if_neg
    (by simp [hs.partition, hs.nonneg])
    (wp_if_neg hcount ?_)))
  set f1 := s.flash.eraseSectors flashSectorSize (bankOffset (1 - s.activeBank)) eventBankSize
    fun _ => true with hf1
  have her : f1.Erased (bankOffset (1 - s.activeBank)) 131072 :=
    NorFlash.erased_eraseSectors _ _ _ _
  have hs1 : SameOutside s.flash f1 (bankOffset (1 - s.activeBank)) 131072 :=
    SameOutside.eraseSectors _ _ _ _ _
  refine wp_bind_ends (wp_erase (hR.erase _ _ _) ⟨by rw [hss]; omega, by rw [hss, hbs]⟩
    (show _ ≤ s.flash.size by omega)) (fun _ s' hs' => ?_) ?_
  · subst hs'
    refine wp_bind_ends (wp_writeRecords hother hR count { s with flash := f1 } []
      (show s.activeBank = _ by omega) hsize (Holds.nil_of_erased her) (by simpa using hfit))
      (fun _ s' hs' => ?_) ?_
    · obtain ⟨f2, rfl, hs2, hholds⟩ := hs'
      have hhead2 : f2.Erased (bankOffset (1 - s.activeBank)) 32 :=
        hs2.erased (her.sub le_rfl (by omega)) (by omega)
      have hs12 : SameOutside s.flash f2 (bankOffset (1 - s.activeBank)) 131072 :=
        hs1.trans (hs2.mono (by omega) (by omega))
      have hback : ∀ f3, SameOutside f2 f3 (bankOffset (1 - s.activeBank)) 32 →
          SameOutside s.flash f3 (bankOffset (1 - s.activeBank)) 131072 := fun f3 hs3 =>
        hs12.trans (hs3.mono le_rfl (by omega))
      have hkeep : ∀ f3, SameOutside f2 f3 (bankOffset (1 - s.activeBank)) 32 →
          Holds f3 (1 - s.activeBank) (compaction s entries eventIds capacity head count) :=
        fun f3 hs3 => hholds.of_sameOutside hs3 (Or.inr (by omega))
      refine wp_bind_ends (wp_commitBank (fun f off bytes h1 h2 => hR.write_other _
        (show _ ∨ _ by dsimp only; omega)) hhead2
        (show _ ≤ f2.size by rw [hs12.size]; omega)) (fun _ s' hs' => ?_) ?_
      · obtain ⟨f3, rfl, hs3, hcom⟩ := hs'
        exact wp_modify ⟨f3, rfl, hback f3 hs3, hkeep f3 hs3, hcom⟩
      · rintro s' ⟨f3, rfl, hs3, hcom⟩
        exact ⟨f3, _, rfl, hback f3 hs3, Or.inr (hcom.imp_right fun hcom =>
          ⟨hcom.1, hback f3 hs3, hkeep f3 hs3, hcom.2⟩)⟩
    · rintro s' ⟨f2, q, rfl, hs2⟩
      refine ⟨f2, q, rfl, hs1.trans (hs2.mono (by omega) (by omega)), Or.inr (Or.inl ?_)⟩
      rw [hs2.cell _ (Or.inl (by omega))]
      exact her 15 (by omega)
  · rintro s' ⟨sel, rfl⟩
    exact ⟨_, _, rfl, SameOutside.eraseSectors _ _ _ _ _, Or.inl ⟨sel, rfl⟩⟩

/-! ### Appending -/

/-- The record an append programs. -/
def appended (s : Storage) (eventId : UInt32) (entry : EventEntry) : EventJournalRecord :=
  journalRecord s.nextJournalSequence eventId entry

/-- The program operation of an append. -/
def appendOp (s : Storage) (eventId : UInt32) (entry : EventEntry) : FlashOp :=
  .write (recordOffset s.activeBank s.nextRecord) (eventJournalRecord.enc (appended s eventId entry))

/-- The storage after a successful append. -/
def Storage.append (s : Storage) (eventId : UInt32) (entry : EventEntry) : Storage :=
  { s with
    flash := s.flash.program (recordOffset s.activeBank s.nextRecord)
      (eventJournalRecord.enc (appended s eventId entry))
    nextJournalSequence := advance s.nextJournalSequence
    nextRecord := s.nextRecord + 1 }

/-- The storage after an append that was interrupted behind `k` bytes. -/
def Storage.tear (s : Storage) (eventId : UInt32) (entry : EventEntry) (k : ℕ) : Storage :=
  { s with
    flash := s.flash.program (recordOffset s.activeBank s.nextRecord)
      ((eventJournalRecord.enc (appended s eventId entry)).take k) }

lemma Ready.append (h : Ready s) (id : UInt32) (entry : EventEntry) : Ready (s.append id entry) :=
  ⟨h.size, h.partition, h.bank, h.gate⟩

lemma Ready.tear (h : Ready s) (id : UInt32) (entry : EventEntry) (k : ℕ) :
    Ready (s.tear id entry k) :=
  ⟨h.size, h.partition, h.bank, h.gate⟩

/-- The event that one operation shows to have been accepted: an append is the
only program operation at the cursor of the active bank, and the call returns
`ESP_OK` when no fault hits it. -/
def acceptedBy : (FlashOp × Storage) × FlashFault → Option (UInt32 × EventEntry)
  | ((.write off bytes, s), .none) =>
      if off = recordOffset s.activeBank s.nextRecord ∧ s.nextRecord < eventRecordsPerBank then
        some (eventJournalRecord.dec bytes).event
      else none
  | _ => none

/-- The events accepted in a log of operations, oldest first. -/
def accepted (ops : List ((FlashOp × Storage) × FlashFault)) : List (UInt32 × EventEntry) :=
  ops.filterMap acceptedBy

lemma acceptedBy_of_not_appendsTo {o : FlashOp × Storage} (h : ¬ AppendsTo o) (f : FlashFault) :
    acceptedBy (o, f) = none := by
  obtain ⟨op, s⟩ := o
  cases op with
  | read off len => rfl
  | erase off len => rfl
  | write off bytes =>
      cases f with
      | none => exact if_neg fun ⟨hoff, hroom⟩ => h ⟨bytes, by rw [hoff], hroom⟩
      | error e k sel => rfl
      | cut k sel => rfl

lemma acceptedBy_appendOp {eventId : UInt32} {entry : EventEntry} (hroom : s.nextRecord < 1984) :
    acceptedBy ((appendOp s eventId entry, s), .none) = some (eventId, entry) := by
  refine (if_pos ⟨rfl, hroom⟩).trans ?_
  rw [Codec.dec_enc]
  rfl

/-- `R` without the appends. -/
def Rely.withoutAppends (R : Rely FlashFault (FlashOp × Storage)) :
    Rely FlashFault (FlashOp × Storage) :=
  ⟨R.allowed, fun o => R.promise o ∧ ∀ f, acceptedBy (o, f) = none⟩

lemma Rely.PromisesRest.withoutAppends (h : R.PromisesRest) : R.withoutAppends.PromisesRest :=
  fun o ho => ⟨h o ho, acceptedBy_of_not_appendsTo ho⟩

lemma HalfReplaced.of_withoutAppends {records : List EventJournalRecord} {g : NorFlash}
    (h : HalfReplaced R.withoutAppends s records g) : HalfReplaced R s records g := ⟨h.same, h.how⟩

/-- The specification of `history_storage_append_event` while there is room: the
event is accepted exactly when the call succeeds. -/
lemma wpObs_appendEvent {eventId : UInt32} (entry : EventEntry) (hs : Ready s) (hid : eventId ≠ 0)
    (hroom : s.nextRecord < 1984) (hR : R.promise (appendOp s eventId entry, s)) :
    wpObs R acceptedBy (historyStorageAppendEvent eventId entry)
      (fun o s' acc => Ends R.MayFail R.MayCut
        (fun _ s' => s' = s.append eventId entry ∧ acc = [(eventId, entry)])
        (fun s' => acc = [] ∧ ∃ k, R.Interrupts (appendOp s eventId entry, s) k ∧
          s' = s.tear eventId entry k) o s') s := by
  have hlen : (eventJournalRecord.enc (appended s eventId entry)).length = 64 :=
    Codec.length_enc _ _
  have hoff := recordOffset_eq s.activeBank s.nextRecord
  have hin := hs.bank.offset_le
  have hsize := hs.size
  refine wpObs_get_bind (wpObs_if_neg hid (wpObs_if_neg (by simp [hs.gate]) (wpObs_if_neg
    (by simp [hs.partition, hs.nonneg]) (wpObs_if_neg (by rw [eventRecordsPerBank_eq]; omega) ?_))))
  have hfits : recordOffset s.activeBank s.nextRecord
      + (eventJournalRecord.enc (appended s eventId entry)).length ≤ s.flash.size := by omega
  refine wpObs_bind (wpObs_write hR hfits ?_ ?_ ?_)
  · refine wpObs_silent (wp_modify ⟨rfl, ?_⟩)
    rw [List.append_nil]
    change List.filterMap acceptedBy [((appendOp s eventId entry, s), FlashFault.none)] = _
    rw [List.filterMap_cons_some (acceptedBy_appendOp hroom)]
    rfl
  · intro e k sel hf
    exact ⟨⟨_, e, k, sel, hf⟩, rfl, k, .inl ⟨e, sel, hf⟩, rfl⟩
  · intro k sel hf
    exact ⟨⟨_, k, sel, hf⟩, rfl, k, .inr ⟨sel, hf⟩, rfl⟩

lemma wp_appendEvent {eventId : UInt32} (entry : EventEntry) (hs : Ready s) (hid : eventId ≠ 0)
    (hroom : s.nextRecord < 1984) (hR : R.promise (appendOp s eventId entry, s)) :
    wp R (historyStorageAppendEvent eventId entry)
      (Ends R.MayFail R.MayCut (fun _ s' => s' = s.append eventId entry)
        (fun s' => ∃ k, R.Interrupts (appendOp s eventId entry, s) k ∧
          s' = s.tear eventId entry k)) s :=
  wp_of_wpObs (wpObs_mono (wpObs_appendEvent entry hs hid hroom hR) fun _ _ _ ho =>
    ho.mono (fun _ h => h.1) fun h => h.2)

/-- A full bank refuses the append and changes nothing. -/
lemma wp_appendEvent_full {eventId : UInt32} {entry : EventEntry} (hs : Ready s)
    (hid : eventId ≠ 0) (hfull : 1984 ≤ s.nextRecord) :
    wp R (historyStorageAppendEvent eventId entry)
      (fun o s' => o = .err .noMem ∧ s' = s) s :=
  wp_get_bind (wp_if_neg hid (wp_if_neg (by simp [hs.gate]) (wp_if_neg
    (by simp [hs.partition, hs.nonneg]) (wp_if_pos (by rw [eventRecordsPerBank_eq]; omega)
      (wp_throw ⟨rfl, rfl⟩)))))

end ArcticController

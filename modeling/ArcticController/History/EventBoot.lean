/-
Booting from an event journal: `history_storage_init` and
`history_storage_load_events` on any image whatsoever.

* `Booted`, `wp_historyStorageInit`: the selected bank is taken, or a first one
  is committed;
* `wp_loadSlots`: the scan reads what `scanSlots` says the image holds;
* `Loaded`, `wp_replayActiveBank`: the replay yields those events, and a
  damaged tail is compacted away;
* `recovered_of_halfReplaced`: a compaction of what an image holds, interrupted
  anywhere, changes nothing about what the image holds;
* `loadEvents_recovers`: **a load that meets no fault returns what the image
  holds**;
* `loadEvents_preserves`: **a load interrupted anywhere leaves an image that
  holds the same events**.
-/
import ArcticController.History.EventSpec

namespace ArcticController

open NorFlash (SameOutside torn)

variable {R : Rely FlashFault (FlashOp × Storage)} {s : Storage}

/-! ### Finding the bank -/

/-- The storage after a successful initialisation from a reset. -/
def booted (f : NorFlash) (b : ℤ) : Storage where
  flash := f
  partition := true
  activeBank := b
  generation := (headerAt f b).generation
  telemetryMutex := true

@[simp] lemma booted_flash (f : NorFlash) (b : ℤ) : (booted f b).flash = f := rfl

@[simp] lemma booted_activeBank (f : NorFlash) (b : ℤ) : (booted f b).activeBank = b := rfl

/-- The image `g` is `f` with a first, empty bank committed. -/
structure FirstBank (f g : NorFlash) : Prop where
  same : SameOutside f g 0 131072
  holds : Holds g 0 []
  committed : Committed g 0 1

/-- How a successful initialisation leaves the flash, and the bank it takes. -/
def Initialised (f g : NorFlash) (b : ℤ) : Prop :=
  (activeBankOf f = some b ∧ g = f) ∨ (activeBankOf f = none ∧ b = 0 ∧ FirstBank f g)

/-- How an interrupted initialisation leaves the flash. -/
def HalfInitialised (f g : NorFlash) : Prop :=
  g = f ∨ (activeBankOf f = none ∧ SameOutside f g 0 131072 ∧
    (Uncommitted f g 0 ∨ FirstBank f g))

variable {b : ℤ} {f g : NorFlash} {capacity : ℕ}

/-- An erase of a bank, complete or not, does not commit it. -/
lemma uncommitted_of_erase (f : NorFlash) (hb : IsBank b) (sel : ℕ → Bool) :
    Uncommitted f (f.eraseSectors flashSectorSize (bankOffset b) eventBankSize sel) b := by
  have halign := hb.offset_aligned
  have hbs := eventBankSize_eq
  obtain ⟨hsel, hunsel⟩ := NorFlash.read_eraseSectors_of_sector f flashSectorSize (bankOffset b)
    eventBankSize sel (a := bankOffset b) (n := 32) (k := bankOffset b / 4096) ⟨le_rfl, by omega⟩
    ⟨by rw [flashSectorSize]; omega, by rw [flashSectorSize]; omega⟩
  cases hcase : sel (bankOffset b / 4096) with
  | true => exact Or.inr (hsel hcase 15 (by omega))
  | false => exact Or.inl (by rw [headerAt, eventBankHeader_size, hunsel hcase]; rfl)

/-- The specification of `initialize_empty_bank`. -/
lemma wp_initializeEmptyBank (hR : R.PromisesRest) (hsize : 262144 ≤ f.size) :
    wp R initializeEmptyBank
      (Ends R.MayFail R.MayCut
        (fun _ s' => ∃ g, s' = booted g 0 ∧ FirstBank f g)
        (fun s' => SameOutside f s'.flash 0 131072 ∧
          (Uncommitted f s'.flash 0 ∨ FirstBank f s'.flash)))
      { flash := f, partition := true, telemetryMutex := true } := by
  have hbs := eventBankSize_eq
  have hminus := bankOffset_neg_one
  have her : (f.eraseSectors flashSectorSize 0 eventBankSize fun _ => true).Erased 0 131072 :=
    NorFlash.erased_eraseSectors _ _ _ _
  have hs1 : ∀ sel, SameOutside f (f.eraseSectors flashSectorSize 0 eventBankSize sel) 0 131072 :=
    fun sel => SameOutside.eraseSectors _ _ _ _ _
  refine wp_bind_ends (wp_erase (hR.erase _ _ _) ⟨rfl, by rw [hbs, flashSectorSize]⟩
    (show _ ≤ f.size by omega)) (fun _ s' hs' => ?_) ?_
  · subst hs'
    have hempty := Holds.nil_of_erased (b := 0) (by rw [bankOffset_zero, hbs]; exact her)
    have hfirst : ∀ g, SameOutside (f.eraseSectors flashSectorSize 0 eventBankSize fun _ => true)
        g (bankOffset 0) 32 → SameOutside f g 0 131072 ∧ Holds g 0 [] := fun g hg => by
      refine ⟨?_, hempty.of_sameOutside hg (Or.inr le_rfl)⟩
      rw [bankOffset_zero] at hg
      exact (hs1 _).trans (hg.mono le_rfl (by omega))
    refine wp_bind_ends (wp_commitBank (b := 0)
      (fun g off bytes h1 h2 => hR.write_other _ (Or.inl ?_))
      (show NorFlash.Erased _ _ _ by rw [bankOffset_zero]; exact her.sub le_rfl (by omega))
      (show _ ≤ f.size by rw [bankOffset_zero]; omega)) (fun _ s' hs' => ?_) ?_
    · rw [bankOffset_zero] at h2
      dsimp only
      omega
    · obtain ⟨g, rfl, hs2, hcom⟩ := hs'
      refine wp_modify ⟨g, ?_, (hfirst g hs2).1, (hfirst g hs2).2, hcom⟩
      rw [booted, hcom.generation]
      rfl
    · rintro s' ⟨g, rfl, hs2, hcom⟩
      exact ⟨(hfirst g hs2).1, hcom.imp Or.inr fun hcom =>
        ⟨(hfirst g hs2).1, (hfirst g hs2).2, hcom.2⟩⟩
  · rintro s' ⟨sel, rfl⟩
    exact ⟨hs1 sel, Or.inl (by
      have := uncommitted_of_erase f (Or.inl rfl : IsBank 0) sel
      rwa [bankOffset_zero] at this)⟩

/-- Reading a header at boot changes nothing in flash. -/
lemma wp_readHeaderOrRelease (hb : IsBank b) (hR : R.PromisesRest) (hsize : 262144 ≤ s.flash.size) :
    wp R (readHeaderOrRelease b)
      (Ends R.MayFail R.MayCut (fun header s' => header = headerAt s.flash b ∧ s' = s)
        (fun s' => s'.flash = s.flash)) s := by
  have hin := hb.offset_le
  have hread : wp R (readHeader b)
      (Ends R.MayFail R.MayCut (fun header s' => header = headerAt s.flash b ∧ s' = s)
        (fun s' => s' = s)) s :=
    wp_bind_ends (wp_read (hR.read _ _ _) (show _ ≤ s.flash.size by
        rw [eventBankHeader_size]; omega))
      (fun bytes s' h => wp_pure ⟨by rw [h.1]; rfl, h.2⟩) fun s' h => h
  refine wp_bind (wp_attempt_ends hread (fun header s' h => wp_pure h) ?_ ?_)
  · rintro hf e s' rfl
    exact wp_modify_bind (wp_throw ⟨hf, rfl⟩)
  · rintro hc s' rfl
    exact ⟨hc, rfl⟩

/-- The specification of `history_storage_init` after a reset. -/
lemma wp_historyStorageInit (hR : R.PromisesRest) (hsize : 262144 ≤ f.size) :
    wp R historyStorageInit
      (Ends R.MayFail R.MayCut
        (fun _ s' => ∃ g b, s' = booted g b ∧ Initialised f g b)
        (fun s' => HalfInitialised f s'.flash)) { flash := f } := by
  refine wp_get_bind (wp_if_neg (by simp) (wp_modify_bind (wp_if_neg ?_ ?_)))
  · rw [historyEventRegionSize_eq]
    exact Nat.not_lt.mpr hsize
  · refine wp_bind_ends (wp_readHeaderOrRelease (Or.inl rfl) hR hsize)
      (fun header0 s' h0 => ?_) fun s' h => Or.inl h
    obtain ⟨rfl, rfl⟩ := h0
    refine wp_bind_ends (wp_readHeaderOrRelease (Or.inr rfl) hR hsize)
      (fun header1 s' h1 => ?_) fun s' h => Or.inl h
    obtain ⟨rfl, rfl⟩ := h1
    cases hsel : activeBankOf f with
    | none =>
        have hchoose : chooseBank (headerAt f 0) (headerAt f 1) = none := hsel
        simp only [hchoose]
        refine wp_ends_mono (wp_initializeEmptyBank hR hsize) ?_ ?_
        · rintro _ s' ⟨g, rfl, hg⟩
          exact ⟨g, 0, rfl, Or.inr ⟨hsel, rfl, hg⟩⟩
        · rintro s' hs'
          exact Or.inr ⟨hsel, hs'⟩
    | some b =>
        have hchoose : chooseBank (headerAt f 0) (headerAt f 1) = some b := hsel
        simp only [hchoose]
        refine wp_modify ⟨f, b, ?_, Or.inl ⟨hsel, rfl⟩⟩
        rcases activeBankOf_isBank hsel with rfl | rfl <;> rfl

/-! ### Replaying the bank -/

/-- The usual shape of the ending of a function that reports its status next to
its result. -/
def Reports {σ ε α β : Type} (mayFail mayCut : Prop) (good : α → β → σ → Prop)
    (bad : σ → Prop) : Outcome ε (α × Except ε β) → σ → Prop
  | .val (a, .ok b), s => good a b s
  | .val (_, .error _), s => mayFail ∧ bad s
  | .err _, _ => False
  | .cut, s => mayCut ∧ bad s

lemma Reports.mono {σ ε α β : Type} {mayFail mayCut : Prop} {good good' : α → β → σ → Prop}
    {bad bad' : σ → Prop} {o : Outcome ε (α × Except ε β)} {s : σ}
    (h : Reports mayFail mayCut good bad o s) (hg : ∀ a b, good a b s → good' a b s)
    (hb : bad s → bad' s) : Reports mayFail mayCut good' bad' o s := by
  match o, h with
  | .val (a, .ok b), h => exact hg a b h
  | .val (_, .error _), h => exact ⟨h.1, hb h.2⟩
  | .cut, h => exact ⟨h.1, hb h.2⟩

/-- The specification of the scan: it folds the valid records of the bank and
leaves the cursor behind them. -/
lemma wp_loadSlots (hR : R.PromisesRest) (left : ℕ) :
    ∀ (slot : ℕ) (out : LoadedEvents) (s : Storage), IsBank s.activeBank →
      262144 ≤ s.flash.size → slot + left ≤ 1984 → s.nextRecord = slot →
      wp R (loadSlots capacity left slot out)
        (Reports R.MayFail R.MayCut
          (fun out' damaged s' =>
            out' = (scanSlots s.flash s.activeBank left slot).1.foldl
              (LoadedEvents.add capacity) out ∧
            damaged = (scanSlots s.flash s.activeBank left slot).2 ∧
            ∃ q, s' = { s with
              nextRecord := slot + (scanSlots s.flash s.activeBank left slot).1.length
              nextJournalSequence := q })
          (fun s' => s'.flash = s.flash)) s := by
  induction left with
  | zero =>
      intro slot out s _ _ _ hcur
      exact wp_pure ⟨rfl, rfl, s.nextJournalSequence, by simp [scanSlots, ← hcur]⟩
  | succ left ih =>
      intro slot out s hbank hsize hslots hcur
      have hin := hbank.offset_le
      have hoff := recordOffset_eq s.activeBank slot
      refine wp_get_bind (wp_bind (wp_attempt_ends (wp_read (hR.read _ _ _)
        (show _ ≤ s.flash.size by rw [eventRecordSize]; omega)) ?_ ?_ ?_))
      · rintro bytes s' ⟨rfl, rfl⟩
        rw [scanSlots]
        refine show wp R (ite (bytesAreErased (slotBytes s'.flash s'.activeBank slot) = true)
          _ _) _ _ from ?_
        split
        · exact wp_modify_bind (wp_pure ⟨rfl, rfl, s'.nextJournalSequence, rfl⟩)
        · refine show wp R (ite ((!recordValid (eventJournalRecord.dec
            (slotBytes s'.flash s'.activeBank slot))) = true) _ _) _ _ from ?_
          split
          · exact wp_modify_bind (wp_pure ⟨rfl, rfl, s'.nextJournalSequence, rfl⟩)
          · refine wp_modify_bind (wp_mono (ih (slot + 1) _ _ hbank hsize (by omega) rfl)
              fun o s2 ho => ho.mono ?_ id)
            rintro out' damaged ⟨h1, h2, q, rfl⟩
            refine ⟨h1, h2, q, ?_⟩
            rw [List.length_cons, ← Nat.add_assoc, Nat.add_right_comm]
      · rintro hf e s' rfl
        exact wp_pure ⟨hf, rfl⟩
      · rintro hc s' rfl
        exact ⟨hc, rfl⟩

/-- The records of a compaction that repeats what the active bank holds. -/
structure Restates (capacity : ℕ) (s : Storage) (records : List EventJournalRecord) : Prop where
  events : records.map EventJournalRecord.event
    = (replay capacity (scanSlots s.flash s.activeBank 1984 0).1).events
  readable : ∀ r ∈ records, ReadableRecord r

/-- The copy a repair makes repeats what was read. -/
lemma restates_copies {out : LoadedEvents} (q : UInt32) (hcap : 0 < capacity)
    (hout : out.events = (replay capacity (scanSlots s.flash s.activeBank 1984 0).1).events) :
    Restates capacity s (copies (fun i => (out.events.getD i default).2)
      (fun i => (out.events.getD i default).1) capacity out.events.length out.events.length
      out.events.length 0 q) := by
  have hlen : out.events.length ≤ capacity := by rw [hout]; exact replay_length_le _ hcap _
  have hring := ringList_of_list out.events hlen default (Or.inl rfl)
  refine ⟨by rw [copies_ring, hring, hout], copies_readable (fun i hi => ?_) _ _ _ (Nat.zero_add _).le⟩
  have hi' : i < (ringList capacity out.events.length out.events.length
      fun j => out.events.getD j default).length := by simpa using hi
  have hget := ringList_getElem _ _ _ _ i hi'
  have hmem : out.events.getD (ringIndex capacity out.events.length out.events.length i) default
      ∈ out.events := by
    have hin := List.getElem_mem hi'
    rwa [hget, hring] at hin
  rw [hout] at hmem
  obtain ⟨r, hr, hev⟩ := mem_replay hmem
  rw [← hout] at hev
  rw [← hev]
  exact recordValid_fields (scanSlots_valid _ _ _ _ r hr)

/-- How a successful replay leaves the storage: the cursor stands behind what
was read, and a damaged tail is gone with the bank it was in. -/
def Loaded (capacity : ℕ) (s s' : Storage) : Prop :=
  ((scanSlots s.flash s.activeBank 1984 0).2 = false ∧ ∃ q, s' = { s with
      nextRecord := (scanSlots s.flash s.activeBank 1984 0).1.length
      nextJournalSequence := q }) ∨
    ((scanSlots s.flash s.activeBank 1984 0).2 = true ∧ ∃ records f q, s' = { s with
        flash := f
        activeBank := 1 - s.activeBank
        generation := s.generation + 1
        nextJournalSequence := q
        nextRecord := records.length } ∧
      Replaced s records f ∧ Restates capacity s records)

/-- How an interrupted replay leaves the flash. -/
def HalfLoaded (R : Rely FlashFault (FlashOp × Storage)) (capacity : ℕ) (s : Storage)
    (g : NorFlash) : Prop :=
  g = s.flash ∨ ∃ records, HalfReplaced R s records g ∧ Restates capacity s records

/-- The specification of the replay. -/
lemma wp_replayActiveBank (hcap : 0 < capacity) (hR : R.PromisesRest) (hs : Ready s) :
    wp R (replayActiveBank capacity)
      (Reports R.MayFail R.MayCut
        (fun out _ s' => out = replay capacity (scanSlots s.flash s.activeBank 1984 0).1 ∧
          Loaded capacity s s')
        (fun s' => HalfLoaded R capacity s s'.flash)) s := by
  refine wp_modify_bind (wp_bind (wp_mono (wp_loadSlots hR 1984 0 {} _ hs.bank hs.size (by omega) rfl)
    fun o s' ho => ?_))
  match o, ho with
  | .val (out, .error e), ho => exact wp_pure ⟨ho.1, Or.inl ho.2⟩
  | .cut, ho => exact ⟨ho.1, Or.inl ho.2⟩
  | .val (out, .ok damaged), ho =>
      obtain ⟨hout, hdam, q, rfl⟩ := ho
      dsimp only at hout hdam ⊢
      rw [Nat.zero_add]
      cases damaged with
      | false => exact wp_pure ⟨hout, Or.inl ⟨hdam.symm, q, rfl⟩⟩
      | true =>
          have hevents : out.events = (replay capacity (scanSlots s.flash s.activeBank 1984 0).1).events
            := by rw [hout]; rfl
          have hrest := restates_copies (s := s) q hcap hevents
          have hlen : out.events.length ≤ capacity := by
            rw [hevents]; exact replay_length_le _ hcap _
          have hfit : out.events.length ≤ 1984 := by
            rw [hevents]
            exact (replay_length_le_records capacity _).trans (scanSlots_length_le _ _ _ _)
          refine wp_bind (wp_attempt_ends (wp_replaceEvents _ _ _ hR
            ⟨hs.size, hs.partition, hs.bank, hs.gate⟩ hlen hfit)
            ?_ ?_ ?_)
          · rintro _ s' ⟨f, rfl, hf⟩
            refine wp_pure ⟨hout, Or.inr ⟨hdam.symm, copies _ _ _ _ _ out.events.length 0 q, f,
              advance^[out.events.length] q, ?_, ⟨hf.same, hf.holds, hf.committed⟩, hrest⟩⟩
            rw [copies_length]
          · rintro hfail e s' ⟨f, q', rfl, hf⟩
            exact wp_pure ⟨hfail, Or.inr ⟨_, ⟨hf.same, hf.how.imp_right (Or.imp_right fun h =>
              ⟨h.1, h.2.same, h.2.holds, h.2.committed⟩)⟩, hrest⟩⟩
          · rintro hcut s' ⟨f, q', rfl, hf⟩
            exact ⟨hcut, Or.inr ⟨_, ⟨hf.same, hf.how.imp_right (Or.imp_right fun h =>
              ⟨h.1, h.2.same, h.2.holds, h.2.committed⟩)⟩, hrest⟩⟩

/-! ### What an image holds across a boot -/

/-- Two images with the same selection and the same slots in the selected bank
hold the same events. -/
lemma recovered_congr (hf : activeBankOf f = some b) (hg : activeBankOf g = some b)
    (h : ∀ i < 1984, slotBytes g b i = slotBytes f b i) :
    recovered capacity g = recovered capacity f := by
  rw [recovered, recovered, hf, hg]
  dsimp only
  rw [scanSlots_congr _ _ fun i _ hi => h i (by rw [eventRecordsPerBank_eq] at hi; omega)]

/-- Slots of a bank that holds given records are determined by them. -/
lemma Holds.slotBytes_eq {records : List EventJournalRecord} (h : Holds f b records) {i : ℕ}
    (hi : i < 1984) :
    slotBytes f b i = if h : i < records.length then eventJournalRecord.enc records[i]
      else List.replicate 64 0xFF := by
  split
  · next hlt => exact h.slot i hlt
  · next hge => exact (NorFlash.erased_iff_read _ _ _).mp (h.erased_slot (by omega) hi)

/-- A first bank changes nothing about what the image holds: no event. -/
lemma FirstBank.activeBankOf (h : FirstBank f g) (hnone : activeBankOf f = none) :
    ArcticController.activeBankOf g = some 0 := by
  refine activeBankOf_of_newer (Or.inl rfl) h.committed.valid fun hv => ?_
  have hone : headerAt g 1 = headerAt f 1 :=
    headerAt_of_sameOutside h.same (Or.inr (by rw [bankOffset_one]))
  have hinv : headerValid (headerAt f 1) = false := by
    by_contra hv
    simp only [Bool.not_eq_false] at hv
    unfold ArcticController.activeBankOf chooseBank at hnone
    rw [hv] at hnone
    split at hnone <;> split at hnone <;> simp at hnone
  rw [show (1 : ℤ) - 0 = 1 by norm_num, hone, hinv] at hv
  exact absurd hv Bool.false_ne_true

lemma FirstBank.recovered (h : FirstBank f g) (hnone : ArcticController.activeBankOf f = none) :
    ArcticController.recovered capacity g = ArcticController.recovered capacity f := by
  rw [ArcticController.recovered, ArcticController.recovered, hnone, h.activeBankOf hnone]
  dsimp only
  rw [h.holds.scan (by simp)]
  rfl

lemma Initialised.activeBankOf (h : Initialised f g b) :
    ArcticController.activeBankOf g = some b := by
  rcases h with ⟨h, rfl⟩ | ⟨hnone, rfl, hfirst⟩
  · exact h
  · exact hfirst.activeBankOf hnone

/-- The bank taken is the selected one. -/
lemma Initialised.selected (h : Initialised f g b) :
    ArcticController.activeBankOf (booted g b).flash = some (booted g b).activeBank := by
  rw [booted_flash, booted_activeBank, h.activeBankOf]

lemma Initialised.recovered_booted (h : Initialised f g b) :
    ArcticController.recovered capacity (booted g b).flash
      = ArcticController.recovered capacity f := by
  rw [booted_flash]
  rcases h with ⟨-, rfl⟩ | ⟨hnone, rfl, hfirst⟩
  · rfl
  · exact hfirst.recovered hnone

lemma Initialised.recovered (h : Initialised f g b) :
    ArcticController.recovered capacity g = ArcticController.recovered capacity f := by
  rcases h with ⟨-, rfl⟩ | ⟨hnone, rfl, hfirst⟩
  · rfl
  · exact hfirst.recovered hnone

lemma Initialised.size (h : Initialised f g b) : g.size = f.size := by
  rcases h with ⟨-, rfl⟩ | ⟨-, -, hfirst⟩
  · rfl
  · exact hfirst.same.size

lemma Initialised.ready (h : Initialised f g b) (hsize : 262144 ≤ f.size) : Ready (booted g b) :=
  ⟨h.size ▸ hsize, rfl, activeBankOf_isBank h.activeBankOf, rfl⟩

lemma HalfInitialised.recovered (h : HalfInitialised f g) :
    ArcticController.recovered capacity g = ArcticController.recovered capacity f := by
  rcases h with rfl | ⟨hnone, hsame, hun | hfirst⟩
  · rfl
  · have hone : Uncommitted f g 1 :=
      Or.inl (headerAt_of_sameOutside hsame (Or.inr (by rw [bankOffset_one])))
    rw [ArcticController.recovered, ArcticController.recovered, hnone,
      activeBankOf_none_of_uncommitted hnone hun hone]
  · exact hfirst.recovered hnone

lemma HalfInitialised.size (h : HalfInitialised f g) : g.size = f.size := by
  rcases h with rfl | ⟨-, hsame, -⟩
  · rfl
  · exact hsame.size

section Replacing

variable {records : List EventJournalRecord} {f g : NorFlash} {capacity : ℕ}

/-- A compaction leaves the header of the active bank alone. -/
lemma headerAt_of_replacing (hbank : IsBank s.activeBank)
    (h : SameOutside s.flash g (bankOffset (1 - s.activeBank)) 131072) :
    headerAt g s.activeBank = headerAt s.flash s.activeBank :=
  headerAt_of_sameOutside h (by have := hbank.offset_disjoint; omega)

/-- A compaction leaves the records of the active bank alone. -/
lemma slotBytes_of_replacing (hbank : IsBank s.activeBank)
    (h : SameOutside s.flash g (bankOffset (1 - s.activeBank)) 131072) {i : ℕ} (hi : i < 1984) :
    slotBytes g s.activeBank i = slotBytes s.flash s.activeBank i :=
  slotBytes_of_sameOutside h hbank.offset_disjoint hi

/-- After a complete compaction one of the two banks is selected. -/
lemma Replaced.selected (hsel : activeBankOf s.flash = some s.activeBank)
    (h : Replaced s records g) :
    activeBankOf g = some s.activeBank ∨ activeBankOf g = some (1 - s.activeBank) := by
  have hb := activeBankOf_isBank hsel
  have hv := h.committed.valid
  cases hg : activeBankOf g with
  | some b =>
      rcases activeBankOf_isBank hg with rfl | rfl <;> rcases hb with hb | hb <;>
        simp [hb]
  | none =>
      exfalso
      unfold activeBankOf chooseBank at hg
      rcases hb with hb | hb <;> norm_num [hb] at hv <;> rw [hv] at hg <;> split at hg <;>
        simp_all

/-- Two complete compactions of the same records hold the same events. -/
lemma Replaced.recovered_eq (hsel : activeBankOf s.flash = some s.activeBank)
    (hf : Replaced s records f) (hg : Replaced s records g) :
    recovered capacity g = recovered capacity f := by
  have hb := activeBankOf_isBank hsel
  have hact : headerAt g s.activeBank = headerAt f s.activeBank := by
    rw [headerAt_of_replacing hb hf.same, headerAt_of_replacing hb hg.same]
  have hoth : headerAt g (1 - s.activeBank) = headerAt f (1 - s.activeBank) := by
    rw [hf.committed, hg.committed]
  have hsame : activeBankOf g = activeBankOf f := by
    rcases hb with hb | hb <;> norm_num [hb] at hact hoth <;>
      rw [activeBankOf, activeBankOf, hact, hoth]
  rcases hf.selected hsel with h | h
  · exact recovered_congr h (hsame.trans h) fun i hi => by
      rw [slotBytes_of_replacing hb hf.same hi, slotBytes_of_replacing hb hg.same hi]
  · exact recovered_congr h (hsame.trans h) fun i hi => by
      rw [hf.holds.slotBytes_eq hi, hg.holds.slotBytes_eq hi]

/-- A compaction that did not commit leaves what the image holds. -/
lemma recovered_of_uncommitted (hsel : activeBankOf s.flash = some s.activeBank)
    (hsame : SameOutside s.flash g (bankOffset (1 - s.activeBank)) 131072)
    (hun : Uncommitted s.flash g (1 - s.activeBank)) :
    recovered capacity g = recovered capacity s.flash := by
  have hb := activeBankOf_isBank hsel
  exact recovered_congr hsel
    (activeBankOf_of_uncommitted hsel (headerAt_of_replacing hb hsame) hun)
    fun i hi => slotBytes_of_replacing hb hsame hi

/-- An interrupted compaction leaves what the image holds, or it was complete. -/
lemma HalfReplaced.recovered_or (capacity : ℕ) (hsel : activeBankOf s.flash = some s.activeBank)
    (h : HalfReplaced R s records g) :
    recovered capacity g = recovered capacity s.flash ∨
      (R.MayHideCommit ∧ Replaced s records g) := by
  have hb := activeBankOf_isBank hsel
  rcases h.how with ⟨sel, hg⟩ | hcell | hrep
  · exact Or.inl (recovered_of_uncommitted hsel h.same
      (hg ▸ uncommitted_of_erase s.flash hb.other sel))
  · exact Or.inl (recovered_of_uncommitted hsel h.same (Or.inr hcell))
  · exact Or.inr hrep

/-- A compaction of what the image holds changes nothing about it. -/
lemma Replaced.recovered_events (hcap : 0 < capacity)
    (hsel : activeBankOf s.flash = some s.activeBank) (h : Replaced s records g)
    (hrest : Restates capacity s records) :
    (recovered capacity g).events = (recovered capacity s.flash).events := by
  have hb := activeBankOf_isBank hsel
  have hold : (recovered capacity s.flash).events
      = (replay capacity (scanSlots s.flash s.activeBank 1984 0).1).events := by
    rw [recovered, hsel]; rfl
  rcases h.selected hsel with hg | hg
  · rw [recovered_congr hsel hg fun i hi => slotBytes_of_replacing hb h.same hi]
  · have hlen : records.length ≤ capacity := by
      rw [← List.length_map EventJournalRecord.event, hrest.events]
      exact replay_length_le _ hcap _
    rw [hold, ← hrest.events, recovered, hg]
    dsimp only
    rw [h.holds.scan hrest.readable]
    exact replay_of_nodup (by rw [hrest.events]; exact replay_nodup _ _) hlen

/-- **Repair is safe**: a compaction of what an image holds, interrupted
anywhere, leaves an image that holds the same events. -/
lemma recovered_of_halfReplaced (hcap : 0 < capacity)
    (hsel : activeBankOf s.flash = some s.activeBank) (h : HalfReplaced R s records g)
    (hrest : Restates capacity s records) :
    (recovered capacity g).events = (recovered capacity s.flash).events := by
  rcases h.recovered_or _ hsel with h | h
  · rw [h]
  · exact h.2.recovered_events hcap hsel hrest

end Replacing

/-! ### A load on any image -/

/-- The specification of `history_storage_load_events` after a reset. -/
lemma wp_loadEvents (hcap : 0 < capacity) (hR : R.PromisesRest) (hsize : 262144 ≤ f.size) :
    wp R (historyStorageLoadEvents capacity)
      (Reports R.MayFail R.MayCut
        (fun out _ s' => ∃ g b, Initialised f g b ∧
          out = replay capacity (scanSlots g b 1984 0).1 ∧ Loaded capacity (booted g b) s')
        (fun s' => HalfInitialised f s'.flash ∨
          ∃ g b, Initialised f g b ∧ HalfLoaded R capacity (booted g b) s'.flash))
      { flash := f } := by
  refine wp_if_neg (by omega) (wp_bind (wp_attempt_ends (wp_historyStorageInit hR hsize) ?_ ?_ ?_))
  · rintro _ s' ⟨g, b, rfl, hinit⟩
    refine wp_mono (wp_replayActiveBank hcap hR (hinit.ready hsize)) fun o s2 ho =>
      ho.mono ?_ ?_
    · exact fun out _ h => ⟨g, b, hinit, h.1, h.2⟩
    · exact fun h => Or.inr ⟨g, b, hinit, h⟩
  · rintro hf e s' h
    exact wp_pure ⟨hf, Or.inl h⟩
  · rintro hc s' h
    exact ⟨hc, Or.inl h⟩

lemma Loaded.size {s' : Storage} (h : Loaded capacity s s') : s'.flash.size = s.flash.size := by
  rcases h with ⟨-, q, rfl⟩ | ⟨-, records, f, q, rfl, hrep, -⟩
  · rfl
  · exact hrep.same.size

lemma HalfLoaded.size (h : HalfLoaded R capacity s g) : g.size = s.flash.size := by
  rcases h with rfl | ⟨records, hrep, -⟩
  · rfl
  · exact hrep.same.size

lemma Loaded.recovered_events {s' : Storage} (hcap : 0 < capacity)
    (hsel : activeBankOf s.flash = some s.activeBank) (h : Loaded capacity s s') :
    (recovered capacity s'.flash).events = (recovered capacity s.flash).events := by
  rcases h with ⟨-, q, rfl⟩ | ⟨-, records, f, q, rfl, hrep, hrest⟩
  · rfl
  · exact hrep.recovered_events hcap hsel hrest

lemma HalfLoaded.recovered_events (hcap : 0 < capacity)
    (hsel : activeBankOf s.flash = some s.activeBank) (h : HalfLoaded R capacity s g) :
    (recovered capacity g).events = (recovered capacity s.flash).events := by
  rcases h with rfl | ⟨records, hrep, hrest⟩
  · rfl
  · exact recovered_of_halfReplaced hcap hsel hrep hrest

/-- **A load that meets no fault returns what the image holds**, and reports
success. -/
theorem loadEvents_recovers (hcap : 0 < capacity) (hsize : 262144 ≤ f.size) :
    wp noFaults (historyStorageLoadEvents capacity)
      (fun o _ => o = .val (recovered capacity f, .ok ())) { flash := f } := by
  refine wp_mono (wp_loadEvents hcap (fun _ _ => trivial) hsize) fun o s' ho => ?_
  match o, ho with
  | .val (out, .ok ()), ⟨g, b, hinit, hout, _⟩ =>
      rw [hout, ← hinit.recovered, recovered, hinit.activeBankOf]
      rfl
  | .val (_, .error _), ho => exact absurd ho.1 not_mayFail_noFaults
  | .cut, ho => exact absurd ho.1 not_mayCut_noFaults

/-- **A load interrupted anywhere leaves an image that holds the same events.** -/
theorem loadEvents_preserves (capacity : ℕ) (hcap : 0 < capacity) (hsize : 262144 ≤ f.size) :
    wp anyFaults (historyStorageLoadEvents capacity)
      (fun _ s' => (recovered capacity s'.flash).events = (recovered capacity f).events ∧
        s'.flash.size = f.size) { flash := f } := by
  refine wp_mono (wp_loadEvents hcap (fun _ _ => trivial) hsize) fun o s' ho => ?_
  have hbad : HalfInitialised f s'.flash ∨
      (∃ g b, Initialised f g b ∧ HalfLoaded anyFaults capacity (booted g b) s'.flash) →
      (recovered capacity s'.flash).events = (recovered capacity f).events ∧
        s'.flash.size = f.size := by
    rintro (hhalf | ⟨g, b, hinit, hload⟩)
    · exact ⟨congrArg LoadedEvents.events hhalf.recovered, hhalf.size⟩
    · rw [hload.recovered_events hcap hinit.selected, hload.size, hinit.recovered_booted,
        booted_flash, hinit.size]
      exact ⟨rfl, rfl⟩
  match o, ho with
  | .val (out, .ok ()), ⟨g, b, hinit, _, hload⟩ =>
      rw [hload.recovered_events hcap hinit.selected, hload.size, hinit.recovered_booted,
        booted_flash, hinit.size]
      exact ⟨rfl, rfl⟩
  | .val (_, .error _), ho => exact hbad ho.2
  | .cut, ho => exact hbad ho.2

end ArcticController

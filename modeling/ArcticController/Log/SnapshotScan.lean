/-
What the boot scan of `log_persist.cpp` finds and what a flush leaves.

* `slotImage`: a slot as a chip of its own;
* `LogRecord.Whole`: a slot that holds a whole snapshot; `accepted_of_whole`: the
  scan accepts it;
* `newest_some`, `runs_logPersistInit_loads`, `runs_logPersistInit_empty`: the boot
  loads the newest snapshot it accepts;
* `SlotWritten`, `flushLocked_writes`: a flush touches one slot, and leaves in it
  an interrupted erase or a part of its record.
-/
import ArcticController.Log.LogPersist

namespace ArcticController

open NorFlash (part Remnant SameOutside)

variable (crc32 : UInt32 → List UInt8 → UInt32)

/-- A slot as a chip of its own. -/
def slotImage (f : NorFlash) (slot : ℕ) : NorFlash := f.part (slot * lpSlotSize) lpSlotSize

/-- The slots of a chip lie inside it. -/
lemma slot_le_size {f : NorFlash} {slot : ℕ} (h : slot < f.size / lpSlotSize) :
    slot * lpSlotSize + lpSlotSize ≤ f.size := by
  have hmul : (slot + 1) * lpSlotSize ≤ f.size / lpSlotSize * lpSlotSize :=
    Nat.mul_le_mul_right _ h
  have hle := Nat.div_mul_le_self f.size lpSlotSize
  rw [Nat.succ_mul] at hmul
  omega

/-- What happens to one slot leaves the others alone. -/
lemma slotImage_of_ne {f g : NorFlash} {slot slot' : ℕ}
    (h : SameOutside f g (slot * lpSlotSize) lpSlotSize) (hne : slot' ≠ slot) :
    slotImage g slot' = slotImage f slot' := by
  refine h.part ?_
  rcases Nat.lt_or_gt_of_ne hne with hlt | hgt
  · have hmul : (slot' + 1) * lpSlotSize ≤ slot * lpSlotSize := Nat.mul_le_mul_right _ hlt
    rw [Nat.succ_mul] at hmul
    exact .inl hmul
  · have hmul : (slot + 1) * lpSlotSize ≤ slot' * lpSlotSize := Nat.mul_le_mul_right _ hgt
    rw [Nat.succ_mul] at hmul
    exact .inr hmul

lemma lpHeader_le_slot : lpHeader.size ≤ lpSlotSize := by
  rw [lpHeader_size, lpSlotSize]
  omega

/-! ### Whole snapshots -/

/-- The slot holds the whole snapshot, header and text. -/
def LogRecord.Whole (r : LogRecord) (slot : NorFlash) : Prop :=
  slot.read 0 (r.bytes crc32).length = r.bytes crc32

instance (r : LogRecord) (slot : NorFlash) : Decidable (r.Whole crc32 slot) :=
  inferInstanceAs (Decidable (_ = _))

lemma LogRecord.bytes_length (r : LogRecord) :
    (r.bytes crc32).length = lpHeader.size + r.text.length := by
  rw [LogRecord.bytes, List.length_append, Codec.length_enc]

lemma LogRecord.bytes_length_le (r : LogRecord) : (r.bytes crc32).length ≤ lpSlotSize := by
  have hfits := r.fits
  rw [lpPayloadMax_eq] at hfits
  rw [r.bytes_length, lpHeader_size, lpSlotSize]
  omega

lemma recordBytes_length_le (r : LogRecord) : (recordBytes crc32 r).length ≤ lpSlotSize := by
  have hle := r.bytes_length_le crc32
  rw [recordBytes, List.length_append, List.length_replicate, roundUp4]
  rw [lpSlotSize] at hle ⊢
  omega

/-- The snapshot comes first in what is programmed. -/
lemma take_recordBytes (r : LogRecord) :
    (recordBytes crc32 r).take (r.bytes crc32).length = r.bytes crc32 :=
  List.take_left' rfl

lemma bytes_length_le_recordBytes (r : LogRecord) :
    (r.bytes crc32).length ≤ (recordBytes crc32 r).length := by
  rw [recordBytes, List.length_append]
  exact Nat.le_add_right _ _

lemma LogRecord.len_toNat (r : LogRecord) : (r.header crc32).len.toNat = r.text.length := by
  have hfits := r.fits
  rw [lpPayloadMax_eq] at hfits
  exact UInt32.toNat_ofNat_of_lt' (lt_of_le_of_lt hfits (by decide))

variable {crc32}

lemma LogRecord.Whole.header {r : LogRecord} {slot : NorFlash} (h : r.Whole crc32 slot) :
    lpHeader.dec (slot.read 0 lpHeader.size) = r.header crc32 := by
  rw [LogRecord.Whole, r.bytes_length, NorFlash.read_add] at h
  rw [(List.append_inj h (by rw [NorFlash.read_length, Codec.length_enc])).1, Codec.dec_enc]

lemma LogRecord.Whole.text {r : LogRecord} {slot : NorFlash} (h : r.Whole crc32 slot) :
    slot.read lpHeader.size r.text.length = r.text := by
  rw [LogRecord.Whole, r.bytes_length, NorFlash.read_add] at h
  have htext := (List.append_inj h (by rw [NorFlash.read_length, Codec.length_enc])).2
  rwa [Nat.zero_add] at htext

/-- The scan accepts a whole snapshot that is not empty. -/
lemma accepted_of_whole {r : LogRecord} {slot : NorFlash} (h : r.Whole crc32 slot)
    (htext : r.text ≠ []) : acceptedHeader crc32 slot = some (r.header crc32) := by
  have hlen : (r.header crc32).len ≠ 0 := fun h0 => htext (List.eq_nil_of_length_eq_zero (by
    rw [← r.len_toNat crc32, h0]
    rfl))
  have hmax : ¬ lpPayloadMax < (r.header crc32).len.toNat := by
    rw [r.len_toNat]
    exact Nat.not_lt.mpr r.fits
  simp only [acceptedHeader, h.header, r.len_toNat, h.text]
  rw [if_neg (by simp [LogRecord.header]), if_neg (not_or.mpr ⟨hlen, by rwa [← r.len_toNat crc32]⟩),
    if_neg (by simp [LogRecord.header])]

/-- Nothing is accepted in an erased slot. -/
lemma accepted_of_erased {slot : NorFlash} (h : slot.Erased 0 lpHeader.size) :
    acceptedHeader crc32 slot = none := by
  have hmagic : (lpHeader.dec (List.replicate lpHeader.size 0xFF)).magic ≠ lpMagic := by decide
  simp only [acceptedHeader, (NorFlash.erased_iff_read _ _ _).mp h]
  rw [if_pos hmagic]

/-! ### The scan -/

section Scan

variable {s : LogPersist}

lemma runs_scanLogSlot {slot : ℕ} (h : slot < s.nSlots) :
    (scanLogSlot crc32 slot).Runs s (acceptedHeader crc32 (slotImage s.flash slot)) s := by
  have hin := slot_le_size h
  have hhdr : s.flash.read (slot * lpSlotSize) lpHeader.size
      = (slotImage s.flash slot).read 0 lpHeader.size := by
    rw [slotImage, NorFlash.read_part (by rw [Nat.zero_add]; exact lpHeader_le_slot), Nat.add_zero]
  refine (FaultM.Runs.attempt (runs_read ?_)).bind ?_
  · exact le_trans (Nat.add_le_add_left lpHeader_le_slot _) hin
  simp only [acceptedHeader]
  change (if _ then _ else _ : LogM _).Runs _ _ _
  rw [show OnFlash.flash s = s.flash from rfl, hhdr]
  generalize lpHeader.dec ((slotImage s.flash slot).read 0 lpHeader.size) = hdr
  by_cases hmagic : hdr.magic ≠ lpMagic
  · rw [if_pos hmagic, if_pos hmagic]
    exact FaultM.runs_pure _ _
  rw [if_neg hmagic, if_neg hmagic]
  by_cases hlen : hdr.len = 0 ∨ lpPayloadMax < hdr.len.toNat
  · rw [if_pos hlen, if_pos hlen]
    exact FaultM.runs_pure _ _
  rw [if_neg hlen, if_neg hlen]
  have hmax : lpHeader.size + hdr.len.toNat ≤ lpSlotSize := by
    have hle := Nat.not_lt.mp (not_or.mp hlen).2
    rw [lpPayloadMax_eq] at hle
    rw [lpHeader_size, lpSlotSize]
    omega
  have htext : s.flash.read (slot * lpSlotSize + lpHeader.size) hdr.len.toNat
      = (slotImage s.flash slot).read lpHeader.size hdr.len.toNat :=
    (NorFlash.read_part hmax).symm
  refine (FaultM.Runs.attempt (runs_read ?_)).bind ?_
  · exact le_trans (by rw [Nat.add_assoc]; exact Nat.add_le_add_left hmax _) hin
  · change (pure (if crc32 0 (s.flash.read _ _) ≠ hdr.crc then none else some hdr) : LogM _).Runs _ _ _
    rw [htext]
    exact FaultM.runs_pure _ _

/-- The scan of a list of slots as a pure function. -/
def newest (accept : ℕ → Option LpHeader) (slots : List ℕ) (best : Option (ℕ × LpHeader)) :
    Option (ℕ × LpHeader) :=
  slots.foldl (fun best slot => newer best slot (accept slot)) best

lemma runs_scanLogSlots (slots : List ℕ) (best : Option (ℕ × LpHeader))
    (h : ∀ slot ∈ slots, slot < s.nSlots) :
    (scanLogSlots crc32 slots best).Runs s
      (newest (fun slot => acceptedHeader crc32 (slotImage s.flash slot)) slots best) s := by
  induction slots generalizing best with
  | nil => exact FaultM.runs_pure _ _
  | cons slot slots ih =>
      exact (runs_scanLogSlot (h slot List.mem_cons_self)).bind
        (ih _ fun slot' hs => h slot' (List.mem_cons_of_mem _ hs))

/-- Where nothing is accepted nothing is found. -/
lemma newest_none {accept : ℕ → Option LpHeader} {slots : List ℕ}
    (h : ∀ slot ∈ slots, accept slot = none) : newest accept slots none = none := by
  induction slots with
  | nil => rfl
  | cons slot slots ih =>
      rw [newest, List.foldl_cons, h slot List.mem_cons_self]
      exact ih fun slot' hs => h slot' (List.mem_cons_of_mem _ hs)

/-- A snapshot newer than all others is found, wherever it is: it is the best so
far once it has been seen, and before that whatever is the best is older. -/
lemma newest_some {accept : ℕ → Option LpHeader} {slots : List ℕ} {g : ℕ} {hdr : LpHeader}
    {best : Option (ℕ × LpHeader)} (hg : accept g = some hdr)
    (hother : ∀ slot ∈ slots, slot ≠ g → ∀ h ∈ accept slot, h.seq < hdr.seq)
    (hbest : best = some (g, hdr) ∨ g ∈ slots ∧ ∀ b ∈ best, b.2.seq < hdr.seq) :
    newest accept slots best = some (g, hdr) := by
  induction slots generalizing best with
  | nil => exact hbest.resolve_right fun h => List.not_mem_nil h.1
  | cons slot slots ih =>
      have hrest : ∀ slot' ∈ slots, slot' ≠ g → ∀ h ∈ accept slot', h.seq < hdr.seq :=
        fun slot' hs => hother slot' (List.mem_cons_of_mem _ hs)
      rw [newest, List.foldl_cons]
      by_cases hslot : slot = g
      · subst hslot
        refine ih hrest (.inl ?_)
        rw [hg]
        refine if_pos ?_
        rcases hbest with rfl | ⟨-, hold⟩
        · exact UInt32.le_refl _
        · cases best with
          | none => exact UInt32.zero_le
          | some b => exact UInt32.le_of_lt (hold b rfl)
      · refine ih hrest ?_
        cases hacc : accept slot with
        | none =>
            refine hbest.imp_right fun h => ⟨(List.mem_cons.mp h.1).resolve_left (Ne.symm hslot), h.2⟩
        | some h' =>
            have hold := hother slot List.mem_cons_self hslot h' hacc
            rcases hbest with rfl | ⟨hmem, hbefore⟩
            · exact .inl (if_neg (UInt32.not_le.mpr hold))
            · refine .inr ⟨(List.mem_cons.mp hmem).resolve_left (Ne.symm hslot), fun b hb => ?_⟩
              rw [newer] at hb
              split at hb
              · cases hb
                exact hold
              · exact hbefore b hb

/-! ### The boot -/

/-- Without an accepted snapshot the boot starts at the first slot. -/
lemma runs_logPersistInit_empty (bootId : UInt32) (hslots : 0 < s.nSlots)
    (hnone : ∀ slot < s.nSlots, acceptedHeader crc32 (slotImage s.flash slot) = none) :
    (logPersistInit crc32 bootId).Runs s true
      { s with bootId := bootId, part := true, nextSeq := 1, nextSlot := 0 } := by
  refine (FaultM.runs_modify _ _).bind ((FaultM.runs_get _).bind ?_)
  change (if s.nSlots < 1 then _ else _ : LogM _).Runs _ _ _
  rw [if_neg (by omega)]
  refine FaultM.Runs.bind (a := ()) ((FaultM.runs_get _).bind ?_) (FaultM.runs_pure _ _)
  refine (runs_scanLogSlots (s := { s with bootId := bootId, part := true })
    (List.range s.nSlots) none fun slot hs => List.mem_range.mp hs).bind ?_
  rw [newest_none fun slot hs => hnone slot (List.mem_range.mp hs)]
  exact FaultM.runs_modify _ _

/-- The boot loads the newest snapshot and goes on behind it. -/
lemma runs_logPersistInit_loads (bootId : UInt32) {g : ℕ} {r : LogRecord} (hg : g < s.nSlots)
    (hwhole : r.Whole crc32 (slotImage s.flash g)) (htext : r.text ≠ [])
    (hother : ∀ slot < s.nSlots, slot ≠ g →
      ∀ h ∈ acceptedHeader crc32 (slotImage s.flash slot), h.seq < r.seq) :
    (logPersistInit crc32 bootId).Runs s true
      { s with
        bootId := bootId, part := true, nextSeq := r.seq + 1, nextSlot := (g + 1) % s.nSlots,
        prevText := some r.text, prevInfo := prevInfoOf (r.header crc32) } := by
  have hin := slot_le_size hg
  have hmax : lpHeader.size + r.text.length ≤ lpSlotSize := by
    rw [← r.bytes_length crc32]
    exact r.bytes_length_le crc32
  have hread : s.flash.read (g * lpSlotSize + lpHeader.size) (r.header crc32).len.toNat = r.text := by
    rw [r.len_toNat, ← NorFlash.read_part hmax]
    exact hwhole.text
  refine (FaultM.runs_modify _ _).bind ((FaultM.runs_get _).bind ?_)
  change (if s.nSlots < 1 then _ else _ : LogM _).Runs _ _ _
  rw [if_neg (by omega)]
  refine FaultM.Runs.bind (a := ()) ((FaultM.runs_get _).bind ?_) (FaultM.runs_pure _ _)
  refine (runs_scanLogSlots (s := { s with bootId := bootId, part := true })
    (List.range s.nSlots) none fun slot hs => List.mem_range.mp hs).bind ?_
  rw [newest_some (accepted_of_whole hwhole htext)
    (fun slot hs hne => hother slot (List.mem_range.mp hs) hne)
    (.inr ⟨List.mem_range.mpr hg, by nofun⟩)]
  refine (FaultM.Runs.attempt (runs_read ?_)).bind ?_
  · rw [r.len_toNat, Nat.add_assoc]
    exact le_trans (Nat.add_le_add_left hmax _) hin
  · refine FaultM.Runs.bind (FaultM.runs_modify _ _) ?_
    change (FaultM.modify _ : LogM Unit).Runs
      { s with
        bootId := bootId, part := true,
        prevText := some (s.flash.read (g * lpSlotSize + lpHeader.size) (r.header crc32).len.toNat),
        prevInfo := prevInfoOf (r.header crc32) } _ _
    rw [hread]
    exact FaultM.runs_modify _ _

end Scan

/-! ### The flush -/

/-- The operation stays inside a slot. -/
def FlashOp.InSlot (slot : ℕ) : FlashOp → Prop
  | .read _ _ => True
  | .write off bytes => off = slot * lpSlotSize ∧ bytes.length ≤ lpSlotSize
  | .erase off len => off = slot * lpSlotSize ∧ len = lpSlotSize

/-- What a flush that was not reported written leaves: some sectors of its slot
erased, or all of them and a part of the record. -/
structure SlotWritten (bytes : List UInt8) (slot : ℕ) (f f' : NorFlash) : Prop where
  frame : SameOutside f f' (slot * lpSlotSize) lpSlotSize
  image : (∃ sel, slotImage f' slot
      = (slotImage f slot).eraseSectors flashSectorSize 0 lpSlotSize sel) ∨
    Remnant flashSectorSize bytes (slotImage f' slot)

/-- Anything may happen to the operations of a flush, which stay in its slot. -/
def inSlot (slot : ℕ) : Rely FlashFault (FlashOp × LogPersist) :=
  ⟨fun _ _ => True, fun o => o.1.InSlot slot⟩

lemma lpSlotSize_sectors : lpSlotSize = 8 * flashSectorSize := rfl

lemma slotImage_eraseSectors (f : NorFlash) (slot : ℕ) (sel : ℕ → Bool) :
    slotImage (f.eraseSectors flashSectorSize (slot * lpSlotSize) lpSlotSize sel) slot
      = (slotImage f slot).eraseSectors flashSectorSize 0 lpSlotSize
          fun i => sel (slot * 8 + i) := by
  rw [slotImage, slotImage, show slot * lpSlotSize = slot * 8 * flashSectorSize by
    rw [lpSlotSize_sectors, Nat.mul_assoc]]
  exact NorFlash.part_eraseSectors (by decide)

/-- After a whole erase the slot is erased, whatever it held. -/
lemma erased_slotImage (f : NorFlash) (slot : ℕ) :
    (slotImage (f.eraseSectors flashSectorSize (slot * lpSlotSize) lpSlotSize fun _ => true) slot).Erased
      0 lpSlotSize := by
  rw [slotImage_eraseSectors]
  exact NorFlash.erased_eraseSectors _ _ _ _

lemma writeSlot_spec {s : LogPersist} {slot : ℕ} {bytes : List UInt8}
    (hslot : slot * lpSlotSize + lpSlotSize ≤ s.flash.size) (hlen : bytes.length ≤ lpSlotSize) :
    wp (inSlot slot) (writeSlot slot bytes) (fun o s' =>
      s' = { s with flash := s'.flash } ∧ SlotWritten bytes slot s.flash s'.flash ∧
      (o = .val () → (slotImage s'.flash slot).read 0 bytes.length = bytes)) s := by
  have haligned : slot * lpSlotSize % flashSectorSize = 0 ∧ lpSlotSize % flashSectorSize = 0 :=
    ⟨by rw [lpSlotSize_sectors, ← Nat.mul_assoc, Nat.mul_mod_left], by decide⟩
  refine wp_bind (wp_mono (wp_erase (R := inSlot slot) ⟨rfl, rfl⟩ haligned hslot) fun o s₁ ho => ?_)
  have hinterrupted : ∀ s', (∃ sel, s' = OnFlash.withFlash s
      ((OnFlash.flash s).eraseSectors flashSectorSize (slot * lpSlotSize) lpSlotSize sel)) →
      s' = { s with flash := s'.flash } ∧ SlotWritten bytes slot s.flash s'.flash := by
    rintro _ ⟨sel, rfl⟩
    exact ⟨rfl, SameOutside.eraseSectors _ _ _ _ _, .inl ⟨_, slotImage_eraseSectors _ _ _⟩⟩
  cases o with
  | err e => exact ⟨(hinterrupted _ ho.2).1, (hinterrupted _ ho.2).2, fun h => by cases h⟩
  | cut => exact ⟨(hinterrupted _ ho.2).1, (hinterrupted _ ho.2).2, fun h => by cases h⟩
  | val _ =>
      subst ho
      set f₁ := s.flash.eraseSectors flashSectorSize (slot * lpSlotSize) lpSlotSize fun _ => true
      have herased : (slotImage f₁ slot).Erased 0 lpSlotSize := erased_slotImage _ _
      have hframe : ∀ bs : List UInt8, bs.length ≤ lpSlotSize →
          SameOutside s.flash (f₁.program (slot * lpSlotSize) bs) (slot * lpSlotSize) lpSlotSize :=
        fun bs hbs => (SameOutside.eraseSectors _ _ _ _ _).trans (SameOutside.program _ _ hbs)
      have himage : ∀ bs : List UInt8, bs.length ≤ lpSlotSize →
          slotImage (f₁.program (slot * lpSlotSize) bs) slot = (slotImage f₁ slot).program 0 bs :=
        fun bs hbs => NorFlash.part_program hbs
      have htake : ∀ k, (bytes.take k).length ≤ lpSlotSize := fun k =>
        le_trans (List.length_take_le' _ _) hlen
      have hremnant : ∀ k, Remnant flashSectorSize bytes
          (slotImage (f₁.program (slot * lpSlotSize) (bytes.take k)) slot) := fun k => by
        rw [himage _ (htake k)]
        exact NorFlash.remnant_program herased k
      have hin : slot * lpSlotSize + bytes.length ≤ f₁.size :=
        le_trans (Nat.add_le_add_left hlen _) hslot
      rw [andThen_val]
      refine wp_mono (wp_write (R := inSlot slot) (s := { s with flash := f₁ }) ⟨rfl, hlen⟩ hin)
        fun o s₂ ho => ?_
      cases o with
      | err e =>
          obtain ⟨-, k, -, rfl⟩ := ho
          exact ⟨rfl, ⟨hframe _ (htake k), .inr (hremnant k)⟩, fun h => by cases h⟩
      | cut =>
          obtain ⟨-, k, -, rfl⟩ := ho
          exact ⟨rfl, ⟨hframe _ (htake k), .inr (hremnant k)⟩, fun h => by cases h⟩
      | val _ =>
          subst ho
          have hwhole := hremnant bytes.length
          rw [List.take_length] at hwhole
          refine ⟨rfl, ⟨hframe _ hlen, .inr hwhole⟩, fun _ => ?_⟩
          change (slotImage (f₁.program (slot * lpSlotSize) bytes) slot).read 0 bytes.length = bytes
          rw [himage _ hlen]
          exact NorFlash.read_program_erased bytes (herased.sub le_rfl (by omega))

/-- What `flush_locked` does: its operations stay in the next slot, and the
cursor moves exactly when the snapshot is reported written, which then is whole. -/
lemma flushLocked_writes {s : LogPersist} (reason : UInt8) (scratch : List UInt8)
    (hpart : s.part = true) (hslot : s.nextSlot < s.nSlots) :
    wp (inSlot s.nextSlot) (flushLocked crc32 reason (some scratch)) (fun o s' =>
      SlotWritten (recordBytes crc32 (s.snapshot reason scratch)) s.nextSlot s.flash s'.flash ∧
      if o = .val true then
        (s.snapshot reason scratch).Whole crc32 (slotImage s'.flash s.nextSlot) ∧
          s' = { s with
            flash := s'.flash, nextSeq := s.nextSeq + 1, nextSlot := (s.nextSlot + 1) % s.nSlots }
      else s' = { s with flash := s'.flash }) s := by
  set r := s.snapshot reason scratch with hr
  refine wp_get_bind (wp_if_pos hpart (wp_bind (wp_attempt ?_)))
  refine wp_mono (writeSlot_spec (slot_le_size hslot) (recordBytes_length_le crc32 r))
    fun o s' ⟨hs', hwritten, hread⟩ => ?_
  cases o with
  | cut =>
      rw [attempted_cut, andThen_cut]
      refine ⟨hwritten, ?_⟩
      rw [if_neg (by simp)]
      exact hs'
  | err e =>
      rw [attempted_err, andThen_val]
      refine wp_pure ⟨hwritten, ?_⟩
      rw [if_neg (by simp)]
      exact hs'
  | val _ =>
      rw [attempted_val, andThen_val]
      refine wp_modify_bind (wp_pure ⟨hwritten, ?_⟩)
      rw [if_pos rfl]
      refine ⟨?_, ?_⟩
      · have hprefix := congrArg (List.take (r.bytes crc32).length) (hread rfl)
        rw [take_recordBytes, ← List.drop_zero (l := NorFlash.read _ _ _),
          NorFlash.take_drop_read _ _ _ _ _ (by
            rw [Nat.zero_add]
            exact bytes_length_le_recordBytes crc32 r)] at hprefix
        exact hprefix
      · have hsize : s'.nSlots = s.nSlots := by
          rw [LogPersist.nSlots, hwritten.frame.size, LogPersist.nSlots]
        rw [hs'] at hsize ⊢
        exact congrArg (fun n => { s with
          flash := s'.flash, nextSeq := s.nextSeq + 1, nextSlot := (s.nextSlot + 1) % n }) hsize

end ArcticController

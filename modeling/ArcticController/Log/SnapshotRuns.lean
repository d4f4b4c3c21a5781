/-
The debug log over whole runs: flushes that fail or are cut anywhere, and
reboots anywhere.

* `LogEvent`, `LogStep`: a flush with the flash operations it made and whether
  its snapshot ended up whole, and a boot with what it loaded;
* `lastWhole`: the last flush whose snapshot was completely programmed;
* `Stale`, `LogKept`: the invariant, that of every other slot nothing newer is
  acceptedHeader however many of its sectors are erased;
* `snapshots_survive`: while no flush follows one that reported an error after
  its record had been completely programmed, every boot loads the last whole
  snapshot and no flush touches its slot.
-/
import ArcticController.Base.Runs
import ArcticController.Log.SnapshotScan

namespace ArcticController

open NorFlash (Remnant)

variable (crc32 : UInt32 → List UInt8 → UInt32)

/-! ### Runs -/

/-- A flush of a record into a slot (whether the slot holds all of it
afterwards, whether it was reported written, and the flash operations), or a
boot with the text and the information it loaded. -/
inductive LogEvent where
  | flushed (slot : ℕ) (r : LogRecord) (whole done : Bool) (ops : List FlashOp)
  | booted (text : Option (List UInt8)) (info : LogPrevInfo)

/-- The module and whether it has booted since power was last lost. -/
structure LogSystem where
  mem : LogPersist
  up : Bool

/-- An erased partition before the first boot. -/
def LogSystem.erased (size : ℕ) : LogSystem := ⟨{ flash := NorFlash.blank size }, false⟩

/-- What a flush leaves in the log. -/
def flushEvent (s : LogPersist) (reason : UInt8) (scratch : List UInt8)
    (r : Result LogPersist FlashFault (FlashOp × LogPersist) EspErr Bool) : LogEvent :=
  .flushed s.nextSlot (s.snapshot reason scratch)
    (decide ((s.snapshot reason scratch).Whole crc32 (slotImage r.state.flash s.nextSlot)))
    (decide (r.out = .val true)) (r.ops.map fun p => p.1.1)

/-- A flush, with any fault at any of its operations and with or without memory
for its buffers, or a boot, which may come at any time. -/
inductive LogStep : LogSystem → Option LogEvent → LogSystem → Prop
  | flush {s : LogSystem} (reason : UInt8) (scratch : List UInt8) (fs : List FlashFault)
      (hup : s.up = true) :
      LogStep s
        (some (flushEvent crc32 s.mem reason scratch
          (flushLocked crc32 reason (some scratch) s.mem fs)))
        ⟨(flushLocked crc32 reason (some scratch) s.mem fs).state,
          decide ((flushLocked crc32 reason (some scratch) s.mem fs).out ≠ .cut)⟩
  | noMemory {s : LogSystem} (reason : UInt8) (fs : List FlashFault) (hup : s.up = true) :
      LogStep s none ⟨(flushLocked crc32 reason none s.mem fs).state, true⟩
  | boot {s : LogSystem} (bootId : UInt32) :
      LogStep s
        (some (.booted (logPersistInit crc32 bootId s.mem.reboot []).state.prevText
          (logPersistInit crc32 bootId s.mem.reboot []).state.prevInfo))
        ⟨(logPersistInit crc32 bootId s.mem.reboot []).state, true⟩

/-- The slot and the record of a flush that was completely programmed. -/
def LogEvent.wholeFlush : LogEvent → Option (ℕ × LogRecord)
  | .flushed slot r true _ _ => some (slot, r)
  | _ => none

/-- The most recent flush whose record was completely programmed. -/
def lastWhole (log : List LogEvent) : Option (ℕ × LogRecord) :=
  (log.filterMap LogEvent.wholeFlush).getLast?

/-- A flush that reported an error although its record had been completely
programmed. -/
def LogEvent.Unnoticed : LogEvent → Prop
  | .flushed _ _ whole done _ => whole = true ∧ done = false
  | .booted _ _ => False

/-- The records of the flushes of a run. -/
def LogEvent.record : LogEvent → Option LogRecord
  | .flushed _ r _ _ _ => some r
  | .booted _ _ => none

/-- What a boot has to load. -/
def expectedPrev : Option (ℕ × LogRecord) → Option (List UInt8) × LogPrevInfo
  | none => (none, {})
  | some (_, r) => (some r.text,
      { present := true, seq := r.seq, bootId := r.bootId, len := UInt32.ofNat r.text.length,
        reason := r.reason })

/-- Every boot loads the last snapshot that was completely programmed. -/
def LoadsLast (log : List LogEvent) : Prop :=
  ∀ pre text info post, log = pre ++ .booted text info :: post →
    (text, info) = expectedPrev (lastWhole pre)

/-- The operation touches no byte of a slot. -/
def FlashOp.Spares (slot : ℕ) : FlashOp → Prop
  | .read _ _ => True
  | .write off bytes => off + bytes.length ≤ slot * lpSlotSize ∨ (slot + 1) * lpSlotSize ≤ off
  | .erase off len => off + len ≤ slot * lpSlotSize ∨ (slot + 1) * lpSlotSize ≤ off

instance (slot : ℕ) (op : FlashOp) : Decidable (op.Spares slot) := by
  cases op <;> simp only [FlashOp.Spares] <;> infer_instance

/-- No flush erases or programs the slot of that snapshot. -/
def SparesLast (log : List LogEvent) : Prop :=
  ∀ pre slot r whole done ops post, log = pre ++ .flushed slot r whole done ops :: post →
    ∀ g r', lastWhole pre = some (g, r') → ∀ op ∈ ops, op.Spares g

/-! ### What the checksum is relied on for -/

/-- The checksum rejects every remnant of a record that is not the whole record. -/
def RejectsPartial (r : LogRecord) : Prop :=
  ∀ slot : NorFlash, slot.size = lpSlotSize → Remnant flashSectorSize (recordBytes crc32 r) slot →
    ∀ hdr, acceptedHeader crc32 slot = some hdr → r.Whole crc32 slot

/-- The records of a run: each has a text, the checksum rejects its remnants,
and its sequence number is not the last one. -/
def Recorded (log : List LogEvent) : Prop :=
  ∀ e ∈ log, ∀ r ∈ e.record, RejectsPartial crc32 r ∧ r.text ≠ [] ∧ r.seq.toNat + 1 < 2 ^ 32

/-- No flush follows directly on one that failed unnoticed, before a reboot. -/
def NoneAfterUnnoticed (log : List LogEvent) : Prop :=
  ∀ pre e e' post, log = pre ++ e :: e' :: post → e.Unnoticed → e'.record = none

/-! ### The invariant -/

/-- However many sectors of a slot are erased, what is accepted in it is older
than the last whole snapshot. -/
def Stale (last : Option (ℕ × LogRecord)) (slot : NorFlash) : Prop :=
  ∀ sel hdr, acceptedHeader crc32 (slot.eraseSectors flashSectorSize 0 lpSlotSize sel) = some hdr →
    ∃ g r, last = some (g, r) ∧ hdr.seq < r.seq

/-- The cursor stands behind the last whole snapshot. -/
def Follows (s : LogPersist) : Option (ℕ × LogRecord) → Prop
  | none => s.nextSeq = 1 ∧ s.nextSlot = 0
  | some (g, r) => s.nextSeq = r.seq + 1 ∧ s.nextSlot = (g + 1) % s.nSlots

/-- The slot of the last whole snapshot. -/
structure HoldsLast (f : NorFlash) (g : ℕ) (r : LogRecord) : Prop where
  slot : g < f.size / lpSlotSize
  whole : r.Whole crc32 (slotImage f g)
  remnant : Remnant flashSectorSize (recordBytes crc32 r) (slotImage f g)
  rejects : RejectsPartial crc32 r
  text : r.text ≠ []
  seq : r.seq.toNat + 1 < 2 ^ 32

/-- The invariant of a run. -/
structure LogKept (size : ℕ) (s : LogSystem) (log : List LogEvent) : Prop where
  size : s.mem.flash.size = size
  last : ∀ g r, lastWhole log = some (g, r) → HoldsLast crc32 s.mem.flash g r
  others : ∀ slot < s.mem.nSlots, (∀ g r, lastWhole log = some (g, r) → slot ≠ g) →
    Stale crc32 (lastWhole log) (slotImage s.mem.flash slot)
  cursor : s.up = true → (∀ e ∈ log.getLast?, ¬ e.Unnoticed) →
    s.mem.part = true ∧ Follows s.mem (lastWhole log)
  loads : LoadsLast log
  spares : SparesLast log

variable {crc32}

/-! ### Stale slots -/

lemma eraseSectors_none (f : NorFlash) (ss off len : ℕ) :
    f.eraseSectors ss off len (fun _ => false) = f := by
  refine congrArg (NorFlash.mk f.size) (funext fun a => ?_)
  exact if_neg fun h => Bool.false_ne_true h.2

lemma eraseSectors_twice (f : NorFlash) (ss off len : ℕ) (sel sel' : ℕ → Bool) :
    (f.eraseSectors ss off len sel).eraseSectors ss off len sel'
      = f.eraseSectors ss off len fun i => sel' i || sel i := by
  refine congrArg (NorFlash.mk f.size) (funext fun a => ?_)
  rw [NorFlash.eraseSectors_cell]
  by_cases hin : off ≤ a ∧ a < off + len
  · cases hsel : sel' (a / ss) <;> simp [hin, hsel]
  · simp [hin]

variable {last : Option (ℕ × LogRecord)} {slot : NorFlash} {r : LogRecord} {log : List LogEvent}

/-- Nothing newer is accepted in a stale slot as it is. -/
lemma Stale.acceptedHeader (h : Stale crc32 last slot) {hdr : LpHeader}
    (hacc : acceptedHeader crc32 slot = some hdr) : ∃ g r, last = some (g, r) ∧ hdr.seq < r.seq :=
  h (fun _ => false) hdr (by rwa [eraseSectors_none])

/-- Erasing sectors of a stale slot leaves it stale. -/
lemma Stale.erase (h : Stale crc32 last slot) (sel : ℕ → Bool) :
    Stale crc32 last (slot.eraseSectors flashSectorSize 0 lpSlotSize sel) :=
  fun sel' hdr hacc => h _ hdr (by rwa [eraseSectors_twice] at hacc)

/-- A stale slot stays stale behind a newer snapshot. -/
lemma Stale.mono {g : ℕ} (h : Stale crc32 last slot)
    (hnew : ∀ g' r', last = some (g', r') → r'.seq < r.seq) : Stale crc32 (some (g, r)) slot := by
  intro sel hdr hacc
  obtain ⟨g', r', hlast, hlt⟩ := h sel hdr hacc
  exact ⟨g, r, rfl, UInt32.lt_trans hlt (hnew g' r' hlast)⟩

/-- An erased slot is stale. -/
lemma stale_of_erased (h : slot.Erased 0 lpSlotSize) : Stale crc32 last slot := by
  intro sel hdr hacc
  have herased : (slot.eraseSectors flashSectorSize 0 lpSlotSize sel).Erased 0 lpHeader.size := by
    intro i hi
    have hcell := h i (lt_of_lt_of_le hi lpHeader_le_slot)
    rw [NorFlash.eraseSectors_cell, hcell, ite_self]
  rw [accepted_of_erased herased] at hacc
  cases hacc

/-- The whole record is what its header says. -/
lemma whole_prefix (h : r.Whole crc32 slot) :
    slot.read 0 (r.bytes crc32).length = (recordBytes crc32 r).take (r.bytes crc32).length := by
  rw [take_recordBytes]
  exact h

/-- A remnant stays a remnant, and the whole record is the only thing accepted in it. -/
lemma whole_of_accepted_erase (hrejects : RejectsPartial crc32 r) (hsize : slot.size = lpSlotSize)
    (hrem : Remnant flashSectorSize (recordBytes crc32 r) slot) {sel : ℕ → Bool} {hdr : LpHeader}
    (hacc : acceptedHeader crc32 (slot.eraseSectors flashSectorSize 0 lpSlotSize sel) = some hdr) :
    r.Whole crc32 (slot.eraseSectors flashSectorSize 0 lpSlotSize sel) ∧ r.Whole crc32 slot := by
  have herase := hrem.eraseSectors sel
  rw [hsize] at herase
  have hafter := hrejects (slot.eraseSectors flashSectorSize 0 lpSlotSize sel) hsize herase hdr hacc
  refine ⟨hafter, ?_⟩
  have hread := whole_prefix hafter
  rw [← hsize] at hread
  have hbefore := hrem.read_of_erase (by rw [hsize]; exact r.bytes_length_le crc32) hread
    (bytes_length_le_recordBytes crc32 r)
  rwa [take_recordBytes] at hbefore

/-- A record that is not whole leaves a stale slot. -/
lemma stale_of_partial (hrejects : RejectsPartial crc32 r) (hsize : slot.size = lpSlotSize)
    (hrem : Remnant flashSectorSize (recordBytes crc32 r) slot) (hpart : ¬ r.Whole crc32 slot) :
    Stale crc32 last slot := by
  intro sel hdr hacc
  exact absurd (whole_of_accepted_erase hrejects hsize hrem hacc).2 hpart

/-- A whole record leaves a slot that is stale behind a newer one. -/
lemma stale_of_older {r' : LogRecord} {g : ℕ} (hrejects : RejectsPartial crc32 r)
    (hsize : slot.size = lpSlotSize) (hrem : Remnant flashSectorSize (recordBytes crc32 r) slot)
    (htext : r.text ≠ []) (hlt : r.seq < r'.seq) : Stale crc32 (some (g, r')) slot := by
  intro sel hdr hacc
  have hwhole := (whole_of_accepted_erase hrejects hsize hrem hacc).1
  rw [accepted_of_whole hwhole htext, Option.some_inj] at hacc
  exact ⟨g, r', rfl, by rw [← hacc]; exact hlt⟩

/-! ### The log of a run -/

lemma lastWhole_concat (log : List LogEvent) (e : LogEvent) :
    lastWhole (log ++ [e]) = e.wholeFlush.orElse fun _ => lastWhole log := by
  rw [lastWhole, List.filterMap_append]
  cases h : e.wholeFlush with
  | none => simp [h, lastWhole]
  | some p => simp [h]

lemma recorded_before {post : List LogEvent} (h : Recorded crc32 (log ++ post)) :
    Recorded crc32 log := fun e he => h e (List.mem_append_left _ he)

lemma noneAfterUnnoticed_before {post : List LogEvent} (h : NoneAfterUnnoticed (log ++ post)) :
    NoneAfterUnnoticed log := fun pre e e' post' hlog =>
  h pre e e' (post' ++ post) (by rw [hlog, List.append_assoc]; rfl)

/-- The log before a flush does not end with an unnoticed failure. -/
lemma noticed_before {e : LogEvent} (h : NoneAfterUnnoticed (log ++ [e])) (hrec : e.record ≠ none) :
    ∀ e' ∈ log.getLast?, ¬ e'.Unnoticed := by
  intro e' he' hun
  obtain ⟨pre, rfl⟩ := List.getLast?_eq_some_iff.mp he'
  exact hrec (h pre e' e [] (by rw [List.append_assoc]; rfl) hun)

lemma loadsLast_concat {e : LogEvent} (h : LoadsLast log)
    (hnew : ∀ text info, e = .booted text info → (text, info) = expectedPrev (lastWhole log)) :
    LoadsLast (log ++ [e]) := by
  intro pre text info post hsplit
  rcases split_step (e := some e) hsplit with ⟨he, rfl, -⟩ | ⟨post', hlog, -⟩
  · exact hnew text info (Option.some_inj.mp he)
  · exact h pre text info post' hlog

lemma sparesLast_concat {e : LogEvent} (h : SparesLast log)
    (hnew : ∀ slot r whole done ops, e = .flushed slot r whole done ops →
      ∀ g r', lastWhole log = some (g, r') → ∀ op ∈ ops, op.Spares g) :
    SparesLast (log ++ [e]) := by
  intro pre slot r whole done ops post hsplit
  rcases split_step (e := some e) hsplit with ⟨he, rfl, -⟩ | ⟨post', hlog, -⟩
  · exact hnew slot r whole done ops (Option.some_inj.mp he)
  · exact h pre slot r whole done ops post' hlog

/-- An operation inside one slot spares every other one. -/
lemma FlashOp.InSlot.spares {slot g : ℕ} {op : FlashOp} (h : op.InSlot slot) (hne : slot ≠ g) :
    op.Spares g := by
  have hside : slot * lpSlotSize + lpSlotSize ≤ g * lpSlotSize ∨
      (g + 1) * lpSlotSize ≤ slot * lpSlotSize := by
    rcases Nat.lt_or_gt_of_ne hne with hlt | hgt
    · rw [← Nat.succ_mul]
      exact .inl (Nat.mul_le_mul_right _ hlt)
    · exact .inr (Nat.mul_le_mul_right _ hgt)
  cases op with
  | read off len => trivial
  | write off bytes =>
      obtain ⟨rfl, hlen⟩ := h
      exact hside.imp_left fun hle => le_trans (Nat.add_le_add_left hlen _) hle
  | erase off len =>
      obtain ⟨rfl, rfl⟩ := h
      exact hside

/-! ### One step -/

section Step

variable {size : ℕ} {s : LogSystem} {log : List LogEvent}

/-- The slot that comes next: inside the partition, and not that of the last
whole snapshot, whose number the next record exceeds. -/
lemma LogKept.next (h : LogKept crc32 size s log) (hslots : 2 ≤ size / lpSlotSize)
    (hfollows : Follows s.mem (lastWhole log)) :
    s.mem.nextSlot < s.mem.nSlots ∧
      ∀ g r, lastWhole log = some (g, r) → s.mem.nextSlot ≠ g ∧ r.seq < s.mem.nextSeq := by
  have hn : 2 ≤ s.mem.nSlots := by rw [LogPersist.nSlots, h.size]; exact hslots
  cases hlast : lastWhole log with
  | none =>
      rw [hlast] at hfollows
      exact ⟨by rw [hfollows.2]; omega, fun g r hgr => by cases hgr⟩
  | some p =>
      obtain ⟨g, r⟩ := p
      rw [hlast] at hfollows
      obtain ⟨hseq, hslot⟩ := hfollows
      have hold := h.last g r hlast
      have hg : g < s.mem.nSlots := hold.slot
      refine ⟨by rw [hslot]; exact Nat.mod_lt _ (by omega), fun g' r' hgr => ?_⟩
      cases hgr
      constructor
      · rw [hslot]
        rcases Nat.lt_or_ge (g + 1) s.mem.nSlots with hlt | hge
        · rw [Nat.mod_eq_of_lt hlt]
          omega
        · rw [show g + 1 = s.mem.nSlots by omega, Nat.mod_self]
          omega
      · have hnum := hold.seq
        rw [hseq, UInt32.lt_iff_toNat_lt, UInt32.toNat_add]
        have hone : (1 : UInt32).toNat = 1 := rfl
        rw [hone, Nat.mod_eq_of_lt hnum]
        exact Nat.lt_succ_self _

/-- The step lemma of a flush. -/
lemma LogKept.flush (h : LogKept crc32 size s log) (hslots : 2 ≤ size / lpSlotSize)
    (hup : s.up = true) (hnoticed : ∀ e ∈ log.getLast?, ¬ e.Unnoticed) {reason : UInt8}
    {scratch : List UInt8} {fs : List FlashFault}
    (hrec : RejectsPartial crc32 (s.mem.snapshot reason scratch) ∧
      (s.mem.snapshot reason scratch).text ≠ [] ∧ (s.mem.snapshot reason scratch).seq.toNat + 1 < 2 ^ 32) :
    LogKept crc32 size
      ⟨(flushLocked crc32 reason (some scratch) s.mem fs).state,
        decide ((flushLocked crc32 reason (some scratch) s.mem fs).out ≠ .cut)⟩
      (log ++ [flushEvent crc32 s.mem reason scratch
        (flushLocked crc32 reason (some scratch) s.mem fs)]) := by
  obtain ⟨hpart, hfollows⟩ := h.cursor hup hnoticed
  obtain ⟨hslot, hnext⟩ := h.next hslots hfollows
  obtain ⟨⟨hwritten, hdone⟩, hops⟩ := @flushLocked_writes crc32 _ reason scratch hpart hslot fs
    fun _ _ => trivial
  set r := s.mem.snapshot reason scratch with hr
  set res := flushLocked crc32 reason (some scratch) s.mem fs
  set t := s.mem.nextSlot
  obtain ⟨hrejects, htext, hwrap⟩ := hrec
  have hevent : flushEvent crc32 s.mem reason scratch res
      = .flushed t r (decide (r.Whole crc32 (slotImage res.state.flash t)))
          (decide (res.out = .val true)) (res.ops.map fun p => p.1.1) := rfl
  have hsize : res.state.flash.size = size := hwritten.frame.size.trans h.size
  have hn : res.state.nSlots = s.mem.nSlots := by
    rw [LogPersist.nSlots, LogPersist.nSlots, hsize, h.size]
  have hframe : ∀ slot, slot ≠ t → slotImage res.state.flash slot = slotImage s.mem.flash slot :=
    fun slot hne => slotImage_of_ne hwritten.frame hne
  have hstaleSlot : Stale crc32 (lastWhole log) (slotImage s.mem.flash t) :=
    h.others t hslot fun g r' hgr => (hnext g r' hgr).1
  have hloads := loadsLast_concat h.loads (e := flushEvent crc32 s.mem reason scratch res)
    fun _ _ he => by cases he
  have hspares : SparesLast (log ++ [flushEvent crc32 s.mem reason scratch res]) := by
    refine sparesLast_concat h.spares fun slot r' whole done ops he g r'' hgr op hop => ?_
    cases he
    obtain ⟨p, hp, rfl⟩ := List.mem_map.mp hop
    exact (hops p hp).spares (hnext g r'' hgr).1
  by_cases hwhole : r.Whole crc32 (slotImage res.state.flash t)
  · -- the record is the last whole snapshot from now on
    have hlast : lastWhole (log ++ [flushEvent crc32 s.mem reason scratch res]) = some (t, r) := by
      rw [lastWhole_concat, hevent, decide_eq_true hwhole]
      rfl
    have hremnant : Remnant flashSectorSize (recordBytes crc32 r) (slotImage res.state.flash t) := by
      rcases hwritten.image with ⟨sel, himage⟩ | hremnant
      · -- an interrupted erase cannot have left it: the slot was stale
        have hacc := accepted_of_whole hwhole htext
        rw [himage] at hacc
        obtain ⟨g, r', hgr, hlt⟩ := hstaleSlot sel _ hacc
        exact absurd (UInt32.lt_trans hlt (hnext g r' hgr).2) (UInt32.lt_irrefl _)
      · exact hremnant
    refine ⟨hsize, fun g r' hgr => ?_, fun slot hs hne => ?_, fun hupNow hquiet => ?_, hloads, hspares⟩
    · rw [hlast] at hgr
      cases hgr
      exact ⟨by rw [hsize, ← h.size]; exact hslot, hwhole, hremnant, hrejects, htext, hwrap⟩
    · rw [hlast] at hne ⊢
      have hslotNe : slot ≠ t := hne t r rfl
      rw [hframe slot hslotNe]
      by_cases hwasLast : ∃ g r', lastWhole log = some (g, r') ∧ slot = g
      · obtain ⟨g, r', hgr, rfl⟩ := hwasLast
        have hold := h.last slot r' hgr
        exact stale_of_older hold.rejects rfl hold.remnant hold.text (hnext slot r' hgr).2
      · refine (h.others slot (hn ▸ hs) fun g r' hgr hsg => hwasLast ⟨g, r', hgr, hsg⟩).mono ?_
        exact fun g' r' hgr => (hnext g' r' hgr).2
    · rw [hlast]
      have hreported : res.out = .val true := by
        by_contra hfailed
        refine hquiet _ (List.getLast?_concat ..) ?_
        exact ⟨decide_eq_true hwhole, decide_eq_false hfailed⟩
      rw [if_pos hreported] at hdone
      have hmem := hdone.2
      refine ⟨by rw [hmem]; exact hpart, ?_, ?_⟩
      · change res.state.nextSeq = s.mem.nextSeq + 1
        rw [hmem]
      · change res.state.nextSlot = (t + 1) % res.state.nSlots
        rw [hn, hmem]
  · -- the last whole snapshot stays what it was
    have hlast : lastWhole (log ++ [flushEvent crc32 s.mem reason scratch res]) = lastWhole log := by
      rw [lastWhole_concat, hevent, decide_eq_false hwhole]
      rfl
    have hstale : Stale crc32 (lastWhole log) (slotImage res.state.flash t) := by
      rcases hwritten.image with ⟨sel, himage⟩ | hremnant
      · rw [himage]
        exact hstaleSlot.erase sel
      · exact stale_of_partial hrejects rfl hremnant hwhole
    refine ⟨hsize, fun g r' hgr => ?_, fun slot hs hne => ?_, fun hupNow hquiet => ?_, hloads, hspares⟩
    · rw [hlast] at hgr
      have hold := h.last g r' hgr
      have himage := hframe g (Ne.symm (hnext g r' hgr).1)
      exact ⟨by rw [hsize, ← h.size]; exact hold.slot, by rw [himage]; exact hold.whole,
        by rw [himage]; exact hold.remnant, hold.rejects, hold.text, hold.seq⟩
    · rw [hlast] at hne ⊢
      by_cases hst : slot = t
      · subst hst
        exact hstale
      · rw [hframe slot hst]
        exact h.others slot (hn ▸ hs) hne
    · rw [hlast]
      rw [if_neg fun hreported => hwhole (by rw [if_pos hreported] at hdone; exact hdone.1)] at hdone
      refine ⟨by rw [hdone]; exact hpart, ?_⟩
      cases hl : lastWhole log with
      | none =>
          rw [hl] at hfollows
          exact ⟨by rw [hdone]; exact hfollows.1, by rw [hdone]; exact hfollows.2⟩
      | some p =>
          rw [hl] at hfollows
          refine ⟨by rw [hdone]; exact hfollows.1, ?_⟩
          change res.state.nextSlot = (p.1 + 1) % res.state.nSlots
          rw [hn, hdone]
          exact hfollows.2

/-- The step lemma of a boot. -/
lemma LogKept.boot (h : LogKept crc32 size s log) (hslots : 2 ≤ size / lpSlotSize)
    (bootId : UInt32) :
    LogKept crc32 size ⟨(logPersistInit crc32 bootId s.mem.reboot []).state, true⟩
      (log ++ [.booted (logPersistInit crc32 bootId s.mem.reboot []).state.prevText
        (logPersistInit crc32 bootId s.mem.reboot []).state.prevInfo]) := by
  have hn : 0 < s.mem.nSlots := by rw [LogPersist.nSlots, h.size]; omega
  have hlast : ∀ text info, lastWhole (log ++ [.booted text info]) = lastWhole log :=
    fun text info => by rw [lastWhole_concat]; rfl
  -- the boot finds the last whole snapshot, and its cursor stands behind it
  obtain ⟨hflash, hpart, hfollows, hprev⟩ :
      (logPersistInit crc32 bootId s.mem.reboot []).state.flash = s.mem.flash ∧
      (logPersistInit crc32 bootId s.mem.reboot []).state.part = true ∧
      Follows (logPersistInit crc32 bootId s.mem.reboot []).state (lastWhole log) ∧
      ((logPersistInit crc32 bootId s.mem.reboot []).state.prevText,
        (logPersistInit crc32 bootId s.mem.reboot []).state.prevInfo) = expectedPrev (lastWhole log) := by
    cases hl : lastWhole log with
    | none =>
        have hnone : ∀ slot < s.mem.reboot.nSlots,
            acceptedHeader crc32 (slotImage s.mem.reboot.flash slot) = none := fun slot hs => by
          refine Option.eq_none_iff_forall_ne_some.mpr fun hdr hacc => ?_
          obtain ⟨g, r, hgr, -⟩ := (h.others slot hs fun g r hgr => by rw [hl] at hgr; cases hgr).acceptedHeader hacc
          rw [hl] at hgr
          cases hgr
        rw [(runs_logPersistInit_empty (s := s.mem.reboot) bootId hn hnone).state]
        exact ⟨rfl, rfl, ⟨rfl, rfl⟩, rfl⟩
    | some p =>
        obtain ⟨g, r⟩ := p
        have hold := h.last g r hl
        have hother : ∀ slot < s.mem.reboot.nSlots, slot ≠ g →
            ∀ hdr ∈ acceptedHeader crc32 (slotImage s.mem.reboot.flash slot), hdr.seq < r.seq := by
          intro slot hs hne hdr hacc
          obtain ⟨g', r', hgr, hlt⟩ := (h.others slot hs fun g' r' hgr => by
            rw [hl] at hgr
            cases hgr
            exact hne).acceptedHeader hacc
          rw [hl] at hgr
          cases hgr
          exact hlt
        rw [(runs_logPersistInit_loads (s := s.mem.reboot) bootId hold.slot hold.whole hold.text hother).state]
        exact ⟨rfl, rfl, ⟨rfl, rfl⟩, rfl⟩
  refine ⟨by rw [hflash]; exact h.size, fun g r hgr => ?_, fun slot hs hne => ?_,
    fun _ _ => ⟨hpart, by rw [hlast]; exact hfollows⟩, ?_, ?_⟩
  · rw [hlast] at hgr
    rw [hflash]
    exact h.last g r hgr
  · rw [hlast] at hne ⊢
    rw [hflash]
    refine h.others slot ?_ hne
    rwa [LogPersist.nSlots, hflash] at hs
  · exact loadsLast_concat h.loads fun _ _ he => by cases he; exact hprev
  · exact sparesLast_concat h.spares fun _ _ _ _ _ he => by cases he

end Step

/-! ### A one-letter log -/

/-- A snapshot with the one-letter text `A`. -/
def letterRecord : LogRecord := ⟨1, 7, 0, [0x41], by decide⟩

/-- What the header of a remnant of it looks like: the word that marks a slot is
missing, or the length is far too large, or its text is still erased. -/
lemma letterRecord_headers : ∀ k < 25,
    let hdr := lpHeader.dec ((List.range 24).map fun i =>
      ((recordBytes espCrc32Le letterRecord).take k).getD i 0xFF)
    hdr.magic ≠ lpMagic ∨ lpPayloadMax < hdr.len.toNat ∨
      hdr.len = 1 ∧ espCrc32Le 0 [0xFF] ≠ hdr.crc := by
  decide +kernel

lemma letterRecord_rejectsPartial : RejectsPartial espCrc32Le letterRecord := by
  rintro slot hsize ⟨k, sel, hcell⟩ hdr hacc
  have hfirst : ∀ i < 25, slot.cell i = NorFlash.remnantByte flashSectorSize
      (recordBytes espCrc32Le letterRecord) k (fun _ => sel 0) i := fun i hi => by
    rw [hcell i (by rw [hsize, lpSlotSize]; omega), NorFlash.remnantByte, NorFlash.remnantByte,
      Nat.div_eq_of_lt (show i < flashSectorSize from lt_trans hi (by decide))]
  cases hsel : sel 0 with
  | true =>
      have herased : slot.Erased 0 lpHeader.size := fun i hi => by
        rw [Nat.zero_add, hfirst i (lt_trans hi (by decide)), NorFlash.remnantByte, if_pos hsel]
      rw [accepted_of_erased herased] at hacc
      cases hacc
  | false =>
      have hbyte : ∀ i < 25, slot.cell i
          = ((recordBytes espCrc32Le letterRecord).take k).getD i 0xFF := fun i hi => by
        rw [hfirst i hi, NorFlash.remnantByte, if_neg (by rw [hsel]; decide)]
      by_cases hk : k < 25
      · have hread : slot.read 0 lpHeader.size = (List.range 24).map fun i =>
            ((recordBytes espCrc32Le letterRecord).take k).getD i 0xFF :=
          List.map_congr_left fun i hi => by
            rw [Nat.zero_add, hbyte i (lt_trans (List.mem_range.mp hi) (by decide))]
        have hlast : slot.read lpHeader.size 1 = [0xFF] := by
          change [slot.cell 24] = [0xFF]
          rw [hbyte 24 (by decide), List.getD_eq_default _ _ (by
            rw [List.length_take]
            omega)]
        have hheader := letterRecord_headers k hk
        simp only [acceptedHeader, hread] at hacc
        rw [← hread] at hheader hacc
        rcases hheader with hmagic | hlen | ⟨hone, hcrc⟩
        · rw [if_pos hmagic] at hacc
          cases hacc
        · split at hacc
          · cases hacc
          · rw [if_pos (.inr hlen)] at hacc
            cases hacc
        · split at hacc
          · cases hacc
          · split at hacc
            · cases hacc
            · have hpayload : slot.read lpHeader.size
                  (lpHeader.dec (slot.read 0 lpHeader.size)).len.toNat = [0xFF] := by
                rw [hone]
                exact hlast
              rw [hpayload, if_pos hcrc] at hacc
              cases hacc
      · have hlen : (letterRecord.bytes espCrc32Le).length = 25 := letterRecord.bytes_length _
        have hle := bytes_length_le_recordBytes espCrc32Le letterRecord
        refine List.ext_getElem (by rw [NorFlash.read_length]) fun i _ hi => ?_
        rw [hlen] at hi hle
        rw [NorFlash.read_getElem, Nat.zero_add, hbyte i hi, List.getD_eq_getElem _ _ (by
          rw [List.length_take]
          omega), List.getElem_take]
        exact List.getElem_append_left (by rw [hlen]; exact hi)

/-- A boot of an erased partition of two slots. -/
def letterBoot : LogPersist :=
  { flash := NorFlash.blank 65536, bootId := 7, part := true, nextSeq := 1, nextSlot := 0 }

lemma letterBoot_eq : (logPersistInit espCrc32Le 7 (LogSystem.erased 65536).mem.reboot []).state
    = letterBoot :=
  (runs_logPersistInit_empty (s := (LogSystem.erased 65536).mem.reboot) 7 (by decide)
    fun _ _ => accepted_of_erased ((NorFlash.erased_part fun _ _ => rfl).sub le_rfl
      (by rw [Nat.zero_add, Nat.zero_add]; exact lpHeader_le_slot))).state

lemma letterBoot_snapshot : letterBoot.snapshot 0 [0x41] = letterRecord := by decide +kernel

lemma letterBoot_step :
    LogStep espCrc32Le (LogSystem.erased 65536) (some (.booted none {})) ⟨letterBoot, true⟩ := by
  have h := @LogStep.boot espCrc32Le (LogSystem.erased 65536) 7
  rw [letterBoot_eq] at h
  exact h

/-- The first flush after that boot. -/
def letterFlush (fs : List FlashFault) : Result LogPersist FlashFault (FlashOp × LogPersist) EspErr Bool :=
  flushLocked espCrc32Le 0 (some [0x41]) letterBoot fs

lemma letterFlush_step {fs : List FlashFault} (h : decide ((letterFlush fs).out ≠ .cut) = true) :
    LogStep espCrc32Le ⟨letterBoot, true⟩
      (some (flushEvent espCrc32Le letterBoot 0 [0x41] (letterFlush fs))) ⟨(letterFlush fs).state, true⟩ := by
  have hstep := @LogStep.flush espCrc32Le ⟨letterBoot, true⟩ 0 [0x41] fs rfl
  change LogStep _ _ _ ⟨_, decide ((letterFlush fs).out ≠ .cut)⟩ at hstep
  rw [h] at hstep
  exact hstep

lemma letterRecord_recorded : RejectsPartial espCrc32Le letterRecord ∧ letterRecord.text ≠ [] ∧
    letterRecord.seq.toNat + 1 < 2 ^ 32 :=
  ⟨letterRecord_rejectsPartial, by decide, by decide⟩

/-! ### Whole runs -/

lemma logKept_start (size : ℕ) : LogKept crc32 size (LogSystem.erased size) [] where
  size := rfl
  last g r h := by cases h
  others slot _ _ := stale_of_erased (NorFlash.erased_part fun _ _ => rfl)
  cursor h := by cases h
  loads pre text info post h := by cases pre <;> cases h
  spares pre slot r whole done ops post h := by cases pre <;> cases h

/-- The run lemma. -/
lemma logKept_run {size : ℕ} (hslots : 2 ≤ size / lpSlotSize) {s : LogSystem}
    (hrun : Run (LogStep crc32) (LogSystem.erased size) s log) :
    Recorded crc32 log → NoneAfterUnnoticed log → LogKept crc32 size s log := by
  refine hrun.invariant (I := fun s log => Recorded crc32 log → NoneAfterUnnoticed log →
    LogKept crc32 size s log) (fun _ _ => logKept_start size) ?_
  intro s log e s' _ ih hstep hrec hnone
  have h := ih (recorded_before hrec) (noneAfterUnnoticed_before hnone)
  cases hstep with
  | flush reason scratch fs hup =>
      refine h.flush hslots hup (noticed_before hnone (by simp [flushEvent, LogEvent.record])) ?_
      exact hrec _ (List.mem_append_right _ (List.mem_singleton_self _)) _ rfl
  | noMemory reason fs hup =>
      have hsame : (flushLocked crc32 reason none s.mem fs).state = s.mem := by
        simp only [flushLocked, bind, FaultM.bind, FaultM.get]
        cases s.mem.part <;> rfl
      rw [Option.toList_none, List.append_nil, hsame]
      obtain ⟨mem, up⟩ := s
      cases hup
      exact h
  | boot bootId => exact h.boot hslots bootId

/-- **The previous snapshot survives a torn flush**: on an initially erased
partition of at least two slots, in every run of flushes and reboots with any
fault at any flash operation of a flush, in which no flush of a boot follows one
that reported an error after its record had been completely programmed, every
boot loads the last snapshot that was completely programmed, and no flush
erases or programs the slot that holds it. -/
theorem snapshots_survive {size : ℕ} (hslots : 2 ≤ size / lpSlotSize) {s : LogSystem}
    {log : List LogEvent} (hrun : Run (LogStep crc32) (LogSystem.erased size) s log)
    (hrec : Recorded crc32 log) (hnone : NoneAfterUnnoticed log) : LoadsLast log ∧ SparesLast log :=
  ⟨(logKept_run hslots hrun hrec hnone).loads, (logKept_run hslots hrun hrec hnone).spares⟩

theorem snapshots_survive_oneFlush : ∃ s log,
    Run (LogStep espCrc32Le) (LogSystem.erased 65536) s log ∧ log.length = 3 ∧
      LoadsLast log ∧ SparesLast log := by
  have hrun := ((@Run.start _ _ (LogStep espCrc32Le) _).step letterBoot_step).step
    (@letterFlush_step [] (by decide +kernel))
  refine ⟨_, _, hrun.step (.boot 8), rfl, snapshots_survive (by decide) (hrun.step (.boot 8)) ?_ ?_⟩
  · intro e he r hr
    simp only [Option.toList_some, List.nil_append, List.cons_append, List.mem_cons,
      List.not_mem_nil, or_false] at he
    rcases he with rfl | rfl | rfl
    · cases hr
    · cases hr
      rw [letterBoot_snapshot]
      exact letterRecord_recorded
    · cases hr
  · intro pre e e' post hsplit hun
    rcases pre with _ | ⟨x, _ | ⟨y, pre⟩⟩
    · cases hsplit
      exact hun.elim
    · cases hsplit
      rfl
    · have hlen := congrArg List.length hsplit
      simp only [Option.toList_some, List.length_append, List.length_cons, List.length_nil] at hlen
      omega

/-- A flush whose write reports an error although it programmed the record, and
the next one, which loses power once it has erased the slot. -/
def letterFailed : LogPersist := (letterFlush [.none, .error .fail 28 fun _ => true]).state

def letterCut : Result LogPersist FlashFault (FlashOp × LogPersist) EspErr Bool :=
  flushLocked espCrc32Le 0 (some [0x41]) letterFailed [.cut 0 fun _ => true]

lemma letterCut_step :
    LogStep espCrc32Le ⟨letterFailed, true⟩
      (some (flushEvent espCrc32Le letterFailed 0 [0x41] letterCut)) ⟨letterCut.state, false⟩ := by
  have hcut : decide (letterCut.out ≠ .cut) = false := by decide +kernel
  have hstep := @LogStep.flush espCrc32Le ⟨letterFailed, true⟩ 0 [0x41] [.cut 0 fun _ => true] rfl
  change LogStep _ _ _ ⟨_, decide (letterCut.out ≠ .cut)⟩ at hstep
  rw [hcut] at hstep
  exact hstep

/-- The next flush erases a snapshot that was written but reported failed, and a
loss of power then leaves the boot nothing to load. -/
theorem unnoticed_write_loses_snapshot : ∃ s log,
    Run (LogStep espCrc32Le) (LogSystem.erased 65536) s log ∧ Recorded espCrc32Le log ∧
      ¬ LoadsLast log ∧ ¬ SparesLast log := by
  have hwhole : letterRecord.Whole espCrc32Le
      (slotImage (letterFlush [.none, .error .fail 28 fun _ => true]).state.flash
        letterBoot.nextSlot) := by
    decide +kernel
  have hgone : ¬ letterRecord.Whole espCrc32Le
      (slotImage letterCut.state.flash letterFailed.nextSlot) := by
    decide +kernel
  have hsnapshot : letterFailed.snapshot 0 [0x41] = letterRecord := by decide +kernel
  have hops : letterCut.ops.map (fun p => p.1.1) = [.erase 0 32768] := by decide +kernel
  have herased : ∀ slot < 2, (slotImage letterCut.state.flash slot).Erased 0 lpHeader.size := by
    decide +kernel
  have hloaded := (@runs_logPersistInit_empty espCrc32Le letterCut.state.reboot 8 (by decide +kernel)
    fun slot hs => accepted_of_erased (herased slot hs)).state
  have hrun := (((@Run.start _ _ (LogStep espCrc32Le) _).step letterBoot_step).step
    (@letterFlush_step [.none, .error .fail 28 fun _ => true] (by decide +kernel))).step
    letterCut_step
  rw [flushEvent, letterBoot_snapshot, decide_eq_true hwhole, flushEvent, hsnapshot,
    decide_eq_false hgone, hops] at hrun
  have hrun' := hrun.step (.boot 8)
  rw [hloaded] at hrun'
  refine ⟨_, _, hrun', ?_, fun hloads => ?_, fun hspares => ?_⟩
  · intro e he r hr
    simp only [Option.toList_some, List.nil_append, List.cons_append, List.mem_cons,
      List.not_mem_nil, or_false] at he
    rcases he with rfl | rfl | rfl | rfl
    · cases hr
    · cases hr
      exact letterRecord_recorded
    · cases hr
      exact letterRecord_recorded
    · cases hr
  · cases hloads [_, _, _] _ _ [] rfl
  · have h := hspares [_, _] _ _ _ _ _ [_] rfl 0 letterRecord rfl _ (List.mem_singleton_self _)
    exact absurd h (by decide)

end ArcticController

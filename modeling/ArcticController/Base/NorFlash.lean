/-
NOR flash: a range of bytes that programming can only clear bits of and that
erasing, a sector at a time, sets back to all ones.

* `NorFlash.read`, `NorFlash.program`, `NorFlash.eraseSectors`: the three
  operations, the last on a chosen set of sectors of a range, so that an
  interrupted erase is the same operation with fewer sectors;
* `NorFlash.Erased`: a range that reads as all ones;
* `read_program_self`, `read_program_erased`, `read_program_of_disjoint`: what
  is read back after programming, and the frame rule;
* `SameOutside`: the frame relation between two images;
* `torn`: what a record leaves in an erased slot when only its first `k` bytes
  were programmed (`read_program_take`).
-/
import Mathlib.Tactic

namespace ArcticController

/-- A flash image: its size and its bytes. -/
structure NorFlash where
  size : ℕ
  cell : ℕ → UInt8

namespace NorFlash

/-- A device as it leaves the factory. -/
def blank (size : ℕ) : NorFlash := ⟨size, fun _ => 0xFF⟩

/-- The bytes of a range. -/
def read (f : NorFlash) (off len : ℕ) : List UInt8 :=
  (List.range len).map fun i => f.cell (off + i)

/-- Program a byte string: every bit that is zero in it is cleared. -/
def program (f : NorFlash) (off : ℕ) (bs : List UInt8) : NorFlash :=
  { f with cell := fun a =>
      if off ≤ a ∧ a < off + bs.length then f.cell a &&& bs.getD (a - off) 0xFF else f.cell a }

/-- Erase those sectors of a range that `sel` chooses. -/
def eraseSectors (f : NorFlash) (sectorSize off len : ℕ) (sel : ℕ → Bool) : NorFlash :=
  { f with cell := fun a =>
      if (off ≤ a ∧ a < off + len) ∧ sel (a / sectorSize) = true then 0xFF else f.cell a }

/-- Every byte of the range is erased. -/
def Erased (f : NorFlash) (off len : ℕ) : Prop := ∀ i < len, f.cell (off + i) = 0xFF

instance (f : NorFlash) (off len : ℕ) : Decidable (f.Erased off len) :=
  inferInstanceAs (Decidable (∀ i < len, f.cell (off + i) = 0xFF))

lemma program_cell (f : NorFlash) (off : ℕ) (bs : List UInt8) (a : ℕ) :
    (f.program off bs).cell a
      = if off ≤ a ∧ a < off + bs.length then f.cell a &&& bs.getD (a - off) 0xFF else f.cell a :=
  rfl

lemma eraseSectors_cell (f : NorFlash) (ss off len : ℕ) (sel : ℕ → Bool) (a : ℕ) :
    (f.eraseSectors ss off len sel).cell a
      = if (off ≤ a ∧ a < off + len) ∧ sel (a / ss) = true then 0xFF else f.cell a :=
  rfl

@[simp] lemma eraseSectors_size (f : NorFlash) (ss off len : ℕ) (sel : ℕ → Bool) :
    (f.eraseSectors ss off len sel).size = f.size := rfl

/-! ### Reading -/

@[simp] lemma read_length (f : NorFlash) (off len : ℕ) : (f.read off len).length = len := by
  simp [read]

lemma read_add (f : NorFlash) (off m n : ℕ) :
    f.read off (m + n) = f.read off m ++ f.read (off + m) n := by
  simp [read, List.range_add, Nat.add_assoc]

lemma read_getElem (f : NorFlash) (off len i : ℕ) (h : i < (f.read off len).length) :
    (f.read off len)[i] = f.cell (off + i) := by
  simp [read]

variable {f : NorFlash} {off len a : ℕ} {bs : List UInt8}

/-- A range reads the same in two images that agree on it. -/
lemma read_congr {g : NorFlash} (h : ∀ a, off ≤ a → a < off + len → f.cell a = g.cell a) :
    f.read off len = g.read off len := by
  refine List.map_congr_left fun i hi => ?_
  have hi' := List.mem_range.mp hi
  exact h _ (by omega) (by omega)

lemma take_drop_read (f : NorFlash) (off len i n : ℕ) (h : i + n ≤ len) :
    ((f.read off len).drop i).take n = f.read (off + i) n := by
  have hsplit : f.read off len = f.read off i ++ (f.read (off + i) n
      ++ f.read (off + (i + n)) (len - (i + n))) := by
    rw [← List.append_assoc, ← read_add, ← read_add]
    congr 1; omega
  rw [hsplit, List.drop_left' (by simp), List.take_left' (by simp)]

lemma erased_iff_read (f : NorFlash) (off len : ℕ) :
    f.Erased off len ↔ f.read off len = List.replicate len 0xFF := by
  constructor
  · intro h
    refine List.eq_replicate_iff.mpr ⟨by simp, fun b hb => ?_⟩
    obtain ⟨i, hi, rfl⟩ := List.mem_map.mp hb
    exact h i (List.mem_range.mp hi)
  · intro h i hi
    have hget := read_getElem f off len i (by simpa using hi)
    simp only [h, List.getElem_replicate] at hget
    exact hget.symm

lemma Erased.congr {g : NorFlash} (hf : f.Erased off len)
    (h : ∀ a, off ≤ a → a < off + len → f.cell a = g.cell a) : g.Erased off len :=
  fun i hi => by rw [← h _ (by omega) (by omega)]; exact hf i hi

lemma Erased.sub {n : ℕ} (hf : f.Erased off len) (h1 : off ≤ a) (h2 : a + n ≤ off + len) :
    f.Erased a n := fun i hi => by
  have := hf (a - off + i) (by omega)
  rwa [show off + (a - off + i) = a + i by omega] at this

/-! ### Programming -/

lemma program_cell_of_outside (h : a < off ∨ off + bs.length ≤ a) :
    (f.program off bs).cell a = f.cell a := by
  rw [program_cell, if_neg (by omega)]

/-- The frame rule of programming. -/
lemma read_program_of_disjoint (h : a + len ≤ off ∨ off + bs.length ≤ a) :
    (f.program off bs).read a len = f.read a len :=
  read_congr fun x h1 h2 => program_cell_of_outside (by omega)

lemma Erased.program_of_disjoint (hf : f.Erased a len) (h : a + len ≤ off ∨ off + bs.length ≤ a) :
    (f.program off bs).Erased a len :=
  hf.congr fun x h1 h2 => (program_cell_of_outside (by omega)).symm

/-- Programming reads back as the conjunction with what was there. -/
lemma read_program_self (f : NorFlash) (off : ℕ) (bs : List UInt8) :
    (f.program off bs).read off bs.length
      = List.zipWith (· &&& ·) (f.read off bs.length) bs := by
  refine List.ext_getElem (by simp) fun i h1 h2 => ?_
  have hi : i < bs.length := by simpa using h1
  rw [read_getElem, List.getElem_zipWith, read_getElem, program_cell,
    if_pos ⟨by omega, by omega⟩]
  simp [hi]

/-- An erased byte takes any value. -/
lemma ones_and (b : UInt8) : (0xFF : UInt8) &&& b = b := by
  apply UInt8.toNat_inj.mp
  have hlt : b.toNat < 2 ^ 8 := b.toNat_lt
  rw [UInt8.toNat_and, show (0xFF : UInt8).toNat = 2 ^ 8 - 1 from rfl, Nat.and_comm,
    Nat.and_two_pow_sub_one_eq_mod, Nat.mod_eq_of_lt hlt]

lemma zipWith_and_replicate (bs : List UInt8) :
    List.zipWith (· &&& ·) (List.replicate bs.length 0xFF) bs = bs := by
  induction bs with
  | nil => rfl
  | cons b bs ih => rw [List.length_cons, List.replicate_succ, List.zipWith_cons_cons, ih, ones_and]

/-- What is programmed into an erased range is read back. -/
lemma read_program_erased (bs : List UInt8) (h : f.Erased off bs.length) :
    (f.program off bs).read off bs.length = bs := by
  rw [read_program_self, (erased_iff_read _ _ _).mp h, zipWith_and_replicate]

/-! ### Interrupted programming -/

/-- What a record leaves in an erased slot when only its first `k` bytes were
programmed. -/
def torn (bs : List UInt8) (k : ℕ) : List UInt8 :=
  bs.take k ++ List.replicate (bs.length - k) 0xFF

@[simp] lemma torn_zero (bs : List UInt8) : torn bs 0 = List.replicate bs.length 0xFF := by
  simp [torn]

lemma torn_of_length_le {k : ℕ} (h : bs.length ≤ k) : torn bs k = bs := by
  simp [torn, List.take_of_length_le h, Nat.sub_eq_zero_of_le h]

/-- An interrupted program operation leaves a torn record. -/
lemma read_program_take (bs : List UInt8) (k : ℕ) (h : f.Erased off bs.length) :
    (f.program off (bs.take k)).read off bs.length = torn bs k := by
  have hlen : (bs.take k).length ≤ bs.length := by simp
  have hk : bs.length = (bs.take k).length + (bs.length - k) := by simp; omega
  conv_lhs => rw [hk]
  have htail := h.sub (a := off + (bs.take k).length) (n := bs.length - k)
    (by omega) (by omega)
  rw [read_add, read_program_erased _ (h.sub le_rfl (by omega)),
    read_program_of_disjoint (Or.inr le_rfl), (erased_iff_read _ _ _).mp htail, torn]

@[simp] lemma program_nil (f : NorFlash) (off : ℕ) : f.program off [] = f := by
  refine congrArg (NorFlash.mk f.size) (funext fun a => ?_)
  rw [if_neg (by simp)]

/-- An interruption that left the whole record did all of the program operation. -/
lemma program_take_of_torn_eq {k : ℕ} (h : f.Erased off bs.length) (ht : torn bs k = bs) :
    f.program off (bs.take k) = f.program off bs := by
  have hread : (f.program off (bs.take k)).read off bs.length
      = (f.program off bs).read off bs.length := by
    rw [read_program_take bs k h, ht, read_program_erased bs h]
  refine congrArg (NorFlash.mk f.size) (funext fun a => ?_)
  change (f.program off (bs.take k)).cell a = (f.program off bs).cell a
  by_cases ha : off ≤ a ∧ a < off + bs.length
  · have hcell : ∀ g : NorFlash, (g.read off bs.length)[a - off]? = some (g.cell a) := fun g => by
      rw [List.getElem?_eq_getElem (by simp; omega), read_getElem,
        show off + (a - off) = a by omega]
    exact Option.some.inj ((hcell _).symm.trans ((congrArg (·[a - off]?) hread).trans (hcell _)))
  · have hlen : (bs.take k).length ≤ bs.length := by simp
    rw [program_cell_of_outside (by omega), program_cell_of_outside (by omega)]

/-! ### Erasing -/

lemma eraseSectors_cell_of_outside {ss : ℕ} {sel : ℕ → Bool} (h : a < off ∨ off + len ≤ a) :
    (f.eraseSectors ss off len sel).cell a = f.cell a := by
  rw [eraseSectors_cell, if_neg (by omega)]

/-- A complete erase leaves its whole range erased. -/
lemma erased_eraseSectors (f : NorFlash) (ss off len : ℕ) :
    (f.eraseSectors ss off len fun _ => true).Erased off len := fun i hi => by
  rw [eraseSectors_cell, if_pos ⟨⟨by omega, by omega⟩, rfl⟩]

/-- A range inside one sector is erased or left alone as a whole. -/
lemma read_eraseSectors_of_sector (f : NorFlash) (ss off len : ℕ) (sel : ℕ → Bool) {n k : ℕ}
    (hin : off ≤ a ∧ a + n ≤ off + len) (hsec : k * ss ≤ a ∧ a + n ≤ (k + 1) * ss) :
    (sel k = true → (f.eraseSectors ss off len sel).Erased a n) ∧
      (sel k = false → (f.eraseSectors ss off len sel).read a n = f.read a n) := by
  have hdiv : ∀ x, a ≤ x → x < a + n → x / ss = k := fun x h1 h2 =>
    Nat.div_eq_of_lt_le (by omega) (by omega)
  constructor
  · intro hk i hi
    rw [eraseSectors_cell,
      if_pos ⟨⟨by omega, by omega⟩, by rw [hdiv _ (by omega) (by omega), hk]⟩]
  · intro hk
    refine read_congr fun x h1 h2 => ?_
    rw [eraseSectors_cell, if_neg (by rw [hdiv x h1 h2, hk]; simp)]

/-! ### Frames -/

/-- Two images of one chip that differ at most in a range. -/
structure SameOutside (f g : NorFlash) (off len : ℕ) : Prop where
  size : g.size = f.size
  cell : ∀ a, a < off ∨ off + len ≤ a → g.cell a = f.cell a

namespace SameOutside

variable {f g h : NorFlash} {off len : ℕ}

lemma refl (f : NorFlash) (off len : ℕ) : SameOutside f f off len := ⟨rfl, fun _ _ => rfl⟩

lemma trans (hfg : SameOutside f g off len) (hgh : SameOutside g h off len) :
    SameOutside f h off len :=
  ⟨hgh.size.trans hfg.size, fun a ha => (hgh.cell a ha).trans (hfg.cell a ha)⟩

lemma mono {off' len' : ℕ} (hfg : SameOutside f g off len) (h1 : off' ≤ off)
    (h2 : off + len ≤ off' + len') : SameOutside f g off' len' :=
  ⟨hfg.size, fun a ha => hfg.cell a (by omega)⟩

lemma program (f : NorFlash) (off : ℕ) {bs : List UInt8} {len : ℕ} (hlen : bs.length ≤ len) :
    SameOutside f (f.program off bs) off len :=
  ⟨rfl, fun a ha => program_cell_of_outside (by omega)⟩

lemma eraseSectors (f : NorFlash) (ss off len : ℕ) (sel : ℕ → Bool) :
    SameOutside f (f.eraseSectors ss off len sel) off len :=
  ⟨rfl, fun a ha => eraseSectors_cell_of_outside (by omega)⟩

lemma read_eq (hfg : SameOutside f g off len) {a n : ℕ} (hd : a + n ≤ off ∨ off + len ≤ a) :
    g.read a n = f.read a n :=
  read_congr fun x h1 h2 => hfg.cell x (by omega)

lemma erased (hfg : SameOutside f g off len) {a n : ℕ} (hf : f.Erased a n)
    (hd : a + n ≤ off ∨ off + len ≤ a) : g.Erased a n :=
  hf.congr fun x h1 h2 => (hfg.cell x (by omega)).symm

end SameOutside

end NorFlash

end ArcticController

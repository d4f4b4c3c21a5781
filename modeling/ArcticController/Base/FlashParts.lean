/-
A part of a flash chip seen as a chip of its own, and what an interrupted
record leaves in it.

* `NorFlash.part`: the bytes of a range as an image; `read_part`, `part_program`,
  `part_eraseSectors` move the operations into the part, `SameOutside.part` is
  the frame rule;
* `NorFlash.Remnant`: a part that holds a prefix of a record, some sectors of
  which were erased again; `Remnant.eraseSectors`, `remnant_program`;
* `Remnant.read_of_erase`: erasing more sectors of a remnant does not complete it.
-/
import ArcticController.Base.NorFlash
import Mathlib.Data.List.GetD

namespace ArcticController

namespace NorFlash

/-! ### Parts -/

/-- The range of `size` bytes from `off` on as a chip of its own. -/
def part (f : NorFlash) (off size : ℕ) : NorFlash :=
  ⟨size, fun i => if i < size then f.cell (off + i) else 0xFF⟩

variable {f g : NorFlash} {off size : ℕ}

lemma part_cell {i : ℕ} (h : i < size) : (f.part off size).cell i = f.cell (off + i) := if_pos h

lemma read_part {a n : ℕ} (h : a + n ≤ size) :
    (f.part off size).read a n = f.read (off + a) n := by
  refine List.map_congr_left fun i hi => ?_
  have hi' := List.mem_range.mp hi
  rw [part_cell (by omega), Nat.add_assoc]

lemma part_congr (h : ∀ i < size, f.cell (off + i) = g.cell (off + i)) :
    f.part off size = g.part off size := by
  refine congrArg (NorFlash.mk size) (funext fun i => ?_)
  by_cases hi : i < size
  · rw [if_pos hi, if_pos hi, h i hi]
  · rw [if_neg hi, if_neg hi]

/-- The frame rule of a part. -/
lemma SameOutside.part {a n : ℕ} (h : SameOutside f g a n) (hd : off + size ≤ a ∨ a + n ≤ off) :
    g.part off size = f.part off size :=
  part_congr fun i hi => h.cell _ (by omega)

lemma part_program {bs : List UInt8} (h : bs.length ≤ size) :
    (f.program off bs).part off size = (f.part off size).program 0 bs := by
  refine congrArg (NorFlash.mk size) (funext fun i => ?_)
  by_cases hi : i < size
  · rw [if_pos hi, program_cell, part_cell hi, Nat.add_sub_cancel_left, Nat.sub_zero]
    exact if_congr (by omega) rfl rfl
  · rw [if_neg hi, if_neg (by omega)]
    exact (if_neg hi).symm

/-- Erasing sectors of a part that starts on a sector boundary. -/
lemma part_eraseSectors {ss k : ℕ} {sel : ℕ → Bool} (hss : 0 < ss) :
    (f.eraseSectors ss (k * ss) size sel).part (k * ss) size
      = (f.part (k * ss) size).eraseSectors ss 0 size fun i => sel (k + i) := by
  refine congrArg (NorFlash.mk size) (funext fun i => ?_)
  have hdiv : (k * ss + i) / ss = k + i / ss := by
    rw [Nat.add_comm, Nat.add_mul_div_right _ _ hss, Nat.add_comm]
  by_cases hi : i < size
  · rw [if_pos hi, eraseSectors_cell, part_cell hi, hdiv]
    refine if_congr (and_congr_left' ?_) rfl rfl
    omega
  · rw [if_neg hi, if_neg (by omega)]
    exact (if_neg hi).symm

lemma erased_part (h : f.Erased off size) : (f.part off size).Erased 0 size := fun i hi => by
  rw [Nat.zero_add, part_cell hi]
  exact h i hi

/-! ### Remnants -/

/-- The byte `i` of a record of which `k` bytes were programmed before the
sectors `sel` were erased. -/
def remnantByte (ss : ℕ) (bs : List UInt8) (k : ℕ) (sel : ℕ → Bool) (i : ℕ) : UInt8 :=
  if sel (i / ss) = true then 0xFF else (bs.take k).getD i 0xFF

/-- The chip holds what an interrupted program operation left of a record,
some sectors of which were erased again. -/
def Remnant (ss : ℕ) (bs : List UInt8) (f : NorFlash) : Prop :=
  ∃ k sel, ∀ i < f.size, f.cell i = remnantByte ss bs k sel i

variable {ss : ℕ} {bs : List UInt8}

lemma Remnant.eraseSectors (h : Remnant ss bs f) (sel : ℕ → Bool) :
    Remnant ss bs (f.eraseSectors ss 0 f.size sel) := by
  obtain ⟨k, sel', hcell⟩ := h
  refine ⟨k, fun i => sel i || sel' i, fun i hi => ?_⟩
  rw [eraseSectors_size] at hi
  rw [eraseSectors_cell, remnantByte]
  by_cases hsel : sel (i / ss) = true
  · rw [if_pos ⟨⟨by omega, by omega⟩, hsel⟩, hsel, Bool.true_or, if_pos rfl]
  · rw [if_neg (fun h => hsel h.2), hcell i hi, remnantByte, Bool.not_eq_true] at *
    rw [hsel, Bool.false_or]

/-- Programming a prefix of a record into an erased chip leaves a remnant of it. -/
lemma remnant_program (h : f.Erased 0 f.size) (k : ℕ) :
    Remnant ss bs (f.program 0 (bs.take k)) := by
  refine ⟨k, fun _ => false, fun i hi => ?_⟩
  have hcell := h i hi
  rw [Nat.zero_add] at hcell
  rw [remnantByte, if_neg (by decide), program_cell, hcell, Nat.sub_zero, ones_and]
  split
  · rfl
  · next hout => exact (List.getD_eq_default _ _ (by omega)).symm

/-- Erasing more sectors of a remnant does not complete it: what of the record
can be read afterwards could be read before. -/
lemma Remnant.read_of_erase (h : Remnant ss bs f) {sel : ℕ → Bool} {n : ℕ} (hn : n ≤ f.size)
    (hread : (f.eraseSectors ss 0 f.size sel).read 0 n = bs.take n) (hlen : n ≤ bs.length) :
    f.read 0 n = bs.take n := by
  obtain ⟨k, sel', hcell⟩ := h
  refine List.ext_getElem (by simp; omega) fun i h1 h2 => ?_
  have hi : i < n := by simpa using h1
  have hafter : (f.eraseSectors ss 0 f.size sel).cell i = bs[i] := by
    have hget := read_getElem (f.eraseSectors ss 0 f.size sel) 0 n i (by simpa using hi)
    rw [Nat.zero_add] at hget
    rw [← hget]
    simp only [hread, List.getElem_take]
  rw [read_getElem, Nat.zero_add, List.getElem_take, hcell i (by omega), remnantByte]
  rw [eraseSectors_cell, hcell i (by omega), remnantByte] at hafter
  by_cases hk : i < k
  · -- the byte was programmed: only an erased sector hides it, which then is all ones
    have hprog : (bs.take k).getD i 0xFF = bs[i] := by
      rw [List.getD_eq_getElem _ _ (by simp; omega), List.getElem_take]
    rw [hprog] at hafter ⊢
    split
    · next hsel' =>
        rw [if_pos hsel', ite_self] at hafter
        exact hafter
    · rfl
  · -- the byte was never programmed, so it is all ones before and after
    have hprog : (bs.take k).getD i 0xFF = 0xFF := List.getD_eq_default _ _ (by simp; omega)
    rw [hprog, ite_self, ite_self] at hafter
    rw [hprog, ite_self]
    exact hafter

end NorFlash

end ArcticController

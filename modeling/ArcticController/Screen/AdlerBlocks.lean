/-
The Adler-32 whose remainders are taken once a block.

* `checkedAdd`, `adler32UpdateChecked`: the same update, which stops at a sum that does
  not fit in 32 bits;
* `adler32UpdateChecked_eq`: it never stops, because no block is longer than
  `rawSums_lt` allows;
* `adlerBytes`: the update with both remainders taken after every byte.
-/
import ArcticController.Screen.PngWrites

namespace ArcticController

/-! ### The update with checked additions -/

/-- A sum, if it fits in 32 bits. -/
def checkedAdd (x y : UInt32) : Option UInt32 :=
  if x.toNat + y.toNat < 2 ^ 32 then some (x + y) else none

/-- `adlerBlock` with checked additions. -/
def adlerBlockChecked (s : UInt32 × UInt32) : List UInt8 → Option (UInt32 × UInt32)
  | [] => some s
  | b :: buf => do
      let s₁ ← checkedAdd s.1 b.toUInt32
      let s₂ ← checkedAdd s.2 s₁
      adlerBlockChecked (s₁, s₂) buf

/-- `adlerLoop` with checked additions. -/
def adlerLoopChecked : ℕ → UInt32 × UInt32 → List UInt8 → Option (UInt32 × UInt32)
  | 0, s, _ => some s
  | fuel + 1, s, buf =>
      if buf = [] then some s
      else do
        let s ← adlerBlockChecked s (buf.take 5552)
        adlerLoopChecked fuel (s.1 % 65521, s.2 % 65521) (buf.drop 5552)

/-- `adler32Update` with checked additions. -/
def adler32UpdateChecked (adler : UInt32) (buf : List UInt8) : Option UInt32 := do
  let s ← adlerLoopChecked buf.length (adler &&& 0xFFFF, (adler >>> 16) &&& 0xFFFF) buf
  return s.2 <<< 16 ||| s.1

/-- The running sums never fall. -/
lemma le_rawSums (s : ℕ × ℕ) (bytes : List UInt8) :
    s.1 ≤ (rawSums s bytes).1 ∧ s.2 ≤ (rawSums s bytes).2 := by
  induction bytes generalizing s with
  | nil => exact ⟨Nat.le_refl _, Nat.le_refl _⟩
  | cons b bytes ih =>
      obtain ⟨h₁, h₂⟩ := ih (rawStep s b)
      rw [rawSums, List.foldl_cons]
      exact ⟨(Nat.le_add_right _ _).trans h₁, (Nat.le_add_right _ _).trans h₂⟩

lemma checkedAdd_ofNat {m n : ℕ} (h : m + n < 2 ^ 32) :
    checkedAdd (UInt32.ofNat m) (UInt32.ofNat n) = some (UInt32.ofNat (m + n)) := by
  rw [checkedAdd, UInt32.toNat_ofNat_of_lt' (show m < 2 ^ 32 by omega),
    UInt32.toNat_ofNat_of_lt' (show n < 2 ^ 32 by omega), if_pos h, UInt32.ofNat_add]

/-- A block whose final sums fit has no sum on the way that does not. -/
lemma adlerBlockChecked_eq (s : ℕ × ℕ) (buf : List UInt8)
    (h₁ : (rawSums s buf).1 < 2 ^ 32) (h₂ : (rawSums s buf).2 < 2 ^ 32) :
    adlerBlockChecked (UInt32.ofNat s.1, UInt32.ofNat s.2) buf
      = some (adlerBlock (UInt32.ofNat s.1, UInt32.ofNat s.2) buf) := by
  induction buf generalizing s with
  | nil => rfl
  | cons b buf ih =>
      obtain ⟨hle₁, hle₂⟩ := le_rawSums (rawStep s b) buf
      have hb : b.toUInt32 = UInt32.ofNat b.toNat := by
        apply UInt32.toNat_inj.mp
        have := b.toNat_lt
        rw [UInt8.toNat_toUInt32, UInt32.toNat_ofNat_of_lt' (show b.toNat < 2 ^ 32 by omega)]
      have hfirst : checkedAdd (UInt32.ofNat s.1) b.toUInt32 = some (UInt32.ofNat (s.1 + b.toNat)) := by
        rw [hb]
        exact checkedAdd_ofNat (lt_of_le_of_lt hle₁ h₁)
      have hsecond : checkedAdd (UInt32.ofNat s.2) (UInt32.ofNat (s.1 + b.toNat))
          = some (UInt32.ofNat (s.2 + (s.1 + b.toNat))) :=
        checkedAdd_ofNat (lt_of_le_of_lt hle₂ h₂)
      rw [adlerBlock_eq, adlerBlockChecked]
      simp only [hfirst, hsecond, Option.bind_eq_bind, Option.bind_some]
      exact (ih (rawStep s b) h₁ h₂).trans (congrArg some (adlerBlock_eq (rawStep s b) buf))

/-- From reduced sums no block is too long. -/
lemma adlerLoopChecked_eq {s : ℕ × ℕ} (h : Reduced s) (fuel : ℕ) (buf : List UInt8) :
    adlerLoopChecked fuel (UInt32.ofNat s.1, UInt32.ofNat s.2) buf
      = some (adlerLoop fuel (UInt32.ofNat s.1, UInt32.ofNat s.2) buf) := by
  induction fuel generalizing s buf with
  | zero => rfl
  | succ fuel ih =>
      rw [adlerLoopChecked, adlerLoop]
      by_cases hempty : buf = []
      · rw [if_pos hempty, if_pos hempty]
      · obtain ⟨hlt₁, hlt₂⟩ := rawSums_lt h.1 h.2 (List.length_take_le 5552 buf)
        rw [if_neg hempty, if_neg hempty, adlerBlockChecked_eq s _ hlt₁ hlt₂, adlerBlock_eq]
        dsimp only [Option.bind_eq_bind, Option.bind_some]
        rw [ofNat_mod_adler hlt₁, ofNat_mod_adler hlt₂]
        exact ih (s := ((rawSums s (buf.take 5552)).1 % 65521, (rawSums s (buf.take 5552)).2 % 65521))
          ⟨Nat.mod_lt _ (by decide), Nat.mod_lt _ (by decide)⟩ _

/-! ### The update by bytes -/

/-- The low half of a word and the high one. -/
def adlerHalves (adler : UInt32) : ℕ × ℕ := (adler.toNat % 65536, adler.toNat / 65536)

/-- A word whose halves are both remainders. -/
def ValidAdler (adler : UInt32) : Prop := Reduced (adlerHalves adler)

instance (adler : UInt32) : Decidable (ValidAdler adler) := inferInstanceAs (Decidable (_ ∧ _))

/-- The update with both remainders taken after every byte. -/
def adlerBytes (adler : UInt32) (buf : List UInt8) : UInt32 :=
  packAdler (buf.foldl adlerStep (adlerHalves adler))

lemma packAdler_halves (adler : UInt32) : packAdler (adlerHalves adler) = adler := by
  rw [packAdler, adlerHalves]
  dsimp only
  rw [Nat.mul_comm, Nat.div_add_mod, UInt32.ofNat_toNat]

lemma adler32Update_eq_bytes {adler : UInt32} (h : ValidAdler adler) (buf : List UInt8) :
    adler32Update adler buf = adlerBytes adler buf := by
  conv_lhs => rw [← packAdler_halves adler]
  exact adler32Update_eq h buf

lemma adler32UpdateChecked_eq {adler : UInt32} (h : ValidAdler adler) (buf : List UInt8) :
    adler32UpdateChecked adler buf = some (adler32Update adler buf) := by
  have hlow := packAdler_low h
  have hhigh := packAdler_high h
  rw [packAdler_halves] at hlow hhigh
  rw [adler32UpdateChecked, adler32Update, hlow, hhigh, adlerLoopChecked_eq h]
  rfl

lemma toNat_packAdler {s : ℕ × ℕ} (h : Reduced s) : (packAdler s).toNat = s.2 * 65536 + s.1 := by
  obtain ⟨h₁, h₂⟩ := h
  exact UInt32.toNat_ofNat_of_lt' (show s.2 * 65536 + s.1 < 2 ^ 32 by omega)

/-- The halves of a packed word. -/
lemma halves_packAdler {s : ℕ × ℕ} (h : Reduced s) : adlerHalves (packAdler s) = s := by
  rw [adlerHalves, toNat_packAdler h]
  obtain ⟨h₁, h₂⟩ := h
  refine Prod.ext ?_ ?_
  · change (s.2 * 65536 + s.1) % 65536 = s.1
    omega
  · change (s.2 * 65536 + s.1) / 65536 = s.2
    omega

lemma validAdler_bytes {adler : UInt32} (h : ValidAdler adler) (buf : List UInt8) :
    ValidAdler (adlerBytes adler buf) := by
  have hend := reduced_foldl h buf
  rw [ValidAdler, adlerBytes, halves_packAdler hend]
  exact hend

lemma adlerBytes_append {adler : UInt32} (h : ValidAdler adler) (buf rest : List UInt8) :
    adlerBytes adler (buf ++ rest) = adlerBytes (adlerBytes adler buf) rest := by
  have hhalves := halves_packAdler (reduced_foldl h buf)
  rw [adlerBytes, List.foldl_append]
  conv_rhs => rw [adlerBytes, adlerBytes, hhalves]

/-- **The Adler-32 by blocks is exact**: from a valid word no sum leaves 32 bits, the
result is that of taking both remainders after every byte, and valid again, and an
update with two parts is one update after the other. -/
theorem adler32Update_exact {adler : UInt32} (h : ValidAdler adler) (buf rest : List UInt8) :
    adler32UpdateChecked adler buf = some (adler32Update adler buf) ∧
      adler32Update adler buf = adlerBytes adler buf ∧ ValidAdler (adler32Update adler buf) ∧
      adler32Update adler (buf ++ rest) = adler32Update (adler32Update adler buf) rest := by
  have hbytes := adler32Update_eq_bytes h
  have hvalid : ValidAdler (adler32Update adler buf) := by
    rw [hbytes buf]
    exact validAdler_bytes h buf
  refine ⟨adler32UpdateChecked_eq h buf, hbytes buf, hvalid, ?_⟩
  calc adler32Update adler (buf ++ rest)
      = adlerBytes adler (buf ++ rest) := hbytes _
    _ = adlerBytes (adlerBytes adler buf) rest := adlerBytes_append h buf rest
    _ = adlerBytes (adler32Update adler buf) rest := by rw [hbytes buf]
    _ = adler32Update (adler32Update adler buf) rest := (adler32Update_eq_bytes hvalid rest).symm

theorem adler32Update_exact_parts :
    adler32UpdateChecked 1 [0x57, 0x69, 0x6B, 0x69] = some 0x03DA0195 ∧
      adler32Update 1 ([0x57, 0x69] ++ [0x6B, 0x69])
        = adler32Update (adler32Update 1 [0x57, 0x69]) [0x6B, 0x69] := by
  have hwhole := adler32Update_exact (show ValidAdler 1 by decide) [0x57, 0x69, 0x6B, 0x69] []
  have hparts := adler32Update_exact (show ValidAdler 1 by decide) [0x57, 0x69] [0x6B, 0x69]
  have hvalue : adler32Update 1 [0x57, 0x69, 0x6B, 0x69] = 0x03DA0195 := by decide
  rw [hvalue] at hwhole
  exact ⟨hwhole.1, hparts.2.2.2⟩

end ArcticController

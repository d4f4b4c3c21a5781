/-
The greatest entries of a list by a key, kept in a buffer of bounded length.

* `Greatest`: the buffer holds as many as there are and fit, and what is left out is no
  greater than anything in it;
* `Greatest.grow`, `Greatest.replace`, `Greatest.skip`: one more entry, while there is
  room, in the place of a least one, or left out;
* `Greatest.perm`, `Greatest.of_perm`: neither the order of the buffer nor that of the
  entries matters;
* `Greatest.mem_of_countP_le`, `Greatest.not_mem_of_le_countP`: which entries are kept;
* `foldl_least`: a search for a least entry through the indices of a list.
-/
import Mathlib.Data.List.Basic
import Mathlib.Data.List.GetD
import Mathlib.Tactic

namespace ArcticController

variable {α K : Type} [LinearOrder K] {key : α → K} {n : ℕ} {all kept : List α}

/-- The buffer `kept` holds the `n` greatest entries of `all`. -/
structure Greatest (key : α → K) (n : ℕ) (all kept : List α) : Prop where
  length : kept.length = min n all.length
  rest : ∃ rest, (kept ++ rest).Perm all ∧ ∀ a ∈ kept, ∀ b ∈ rest, key b ≤ key a

namespace Greatest

lemma nil : Greatest key n [] [] := ⟨by simp, [], .refl _, nofun⟩

/-- While there is room everything is kept. -/
lemma rest_eq_nil (h : Greatest key n all kept) (hroom : kept.length < n) {rest : List α}
    (hperm : (kept ++ rest).Perm all) : rest = [] := by
  have hlength := hperm.length_eq
  rw [List.length_append] at hlength
  have hkept := h.length
  exact List.length_eq_zero_iff.mp (by omega)

lemma grow (h : Greatest key n all kept) (hroom : kept.length < n) (x : α) :
    Greatest key n (all ++ [x]) (kept ++ [x]) := by
  obtain ⟨rest, hperm, -⟩ := h.rest
  obtain rfl := h.rest_eq_nil hroom hperm
  have hlength := h.length
  refine ⟨by simp; omega, [], ?_, nofun⟩
  rw [List.append_nil] at hperm ⊢
  exact hperm.append_right [x]

/-- An entry that is no greater than any in the full buffer is left out. -/
lemma skip (h : Greatest key n all kept) (hfull : n ≤ kept.length) {x : α}
    (hleast : ∀ a ∈ kept, key x ≤ key a) : Greatest key n (all ++ [x]) kept := by
  obtain ⟨rest, hperm, hrest⟩ := h.rest
  have hlength := h.length
  refine ⟨by simp; omega, rest ++ [x], ?_, fun a ha b hb => ?_⟩
  · rw [← List.append_assoc]
    exact hperm.append_right [x]
  · rcases List.mem_append.mp hb with hb | hb
    · exact hrest a ha b hb
    · rw [List.mem_singleton.mp hb]
      exact hleast a ha

/-- A least entry of the full buffer makes room for one that is no smaller. -/
lemma replace (h : Greatest key n all kept) (hfull : n ≤ kept.length) {i : ℕ}
    (hi : i < kept.length) (hleast : ∀ a ∈ kept, key kept[i] ≤ key a) {x : α}
    (hx : key kept[i] ≤ key x) : Greatest key n (all ++ [x]) (kept.set i x) := by
  obtain ⟨rest, hperm, hrest⟩ := h.rest
  have hlength := h.length
  refine ⟨by simp; omega, kept[i] :: rest, ?_, fun a ha b hb => ?_⟩
  · have hset : (kept.set i x ++ [kept[i]]).Perm (kept ++ [x]) := by
      rw [List.set_eq_take_append_cons_drop, if_pos hi]
      conv_rhs => rw [← List.take_append_drop i kept, List.drop_eq_getElem_cons hi]
      rw [List.append_assoc, List.append_assoc]
      refine List.Perm.append_left _ ?_
      rw [List.cons_append, List.cons_append]
      have hfirst : (x :: (kept.drop (i + 1) ++ [kept[i]])).Perm
          (x :: kept[i] :: kept.drop (i + 1)) := (List.perm_append_singleton _ _).cons x
      have hlast : (kept[i] :: (kept.drop (i + 1) ++ [x])).Perm
          (kept[i] :: x :: kept.drop (i + 1)) := (List.perm_append_singleton _ _).cons _
      exact hfirst.trans ((List.Perm.swap _ _ _).trans hlast.symm)
    have hmoved : (kept ++ [x] ++ rest).Perm (kept ++ rest ++ [x]) := by
      rw [List.append_assoc, List.append_assoc]
      exact List.perm_append_comm.append_left kept
    rw [← List.singleton_append, ← List.append_assoc]
    exact (hset.append_right rest).trans (hmoved.trans (hperm.append_right [x]))
  · have hkept : kept[i] ∈ kept := List.getElem_mem hi
    have hb : key b ≤ key kept[i] := by
      rcases List.mem_cons.mp hb with rfl | hb
      · exact le_rfl
      · exact hrest _ hkept b hb
    rcases List.mem_or_eq_of_mem_set ha with ha | rfl
    · exact hb.trans (hleast a ha)
    · exact hb.trans hx

/-- The buffer in another order. -/
lemma perm (h : Greatest key n all kept) {kept' : List α} (hperm : kept'.Perm kept) :
    Greatest key n all kept' := by
  obtain ⟨rest, hall, hrest⟩ := h.rest
  refine ⟨hperm.length_eq.trans h.length, rest, (hperm.append_right rest).trans hall, ?_⟩
  exact fun a ha => hrest a (hperm.mem_iff.mp ha)

/-- The entries in another order. -/
lemma of_perm (h : Greatest key n all kept) {all' : List α} (hperm : all.Perm all') :
    Greatest key n all' kept := by
  obtain ⟨rest, hall, hrest⟩ := h.rest
  exact ⟨hperm.length_eq ▸ h.length, rest, hall.trans hperm, hrest⟩

lemma subset (h : Greatest key n all kept) : kept ⊆ all := by
  obtain ⟨rest, hall, -⟩ := h.rest
  exact fun a ha => hall.mem_iff.mp (List.mem_append_left rest ha)

/-- An entry is kept if no more than `n` are at least as great. -/
lemma mem_of_countP_le (h : Greatest key n all kept) {x : α} (hx : x ∈ all)
    (hcount : all.countP (fun y => decide (key x ≤ key y)) ≤ n) : x ∈ kept := by
  obtain ⟨rest, hall, hrest⟩ := h.rest
  rcases List.mem_append.mp (hall.mem_iff.mpr hx) with hkept | hleft
  · exact hkept
  have hle : kept.countP (fun y => decide (key x ≤ key y)) = kept.length :=
    List.countP_eq_length.mpr fun a ha => decide_eq_true (hrest a ha x hleft)
  have hself : 0 < rest.countP (fun y => decide (key x ≤ key y)) :=
    List.countP_pos_iff.mpr ⟨x, hleft, decide_eq_true le_rfl⟩
  have hsum := hall.countP_eq fun y => decide (key x ≤ key y)
  have hlength := hall.length_eq
  have hkept := h.length
  have hrestLength : 0 < rest.length := List.length_pos_of_mem hleft
  rw [List.countP_append] at hsum
  rw [List.length_append] at hlength
  omega

/-- An entry is left out if `n` others are greater. -/
lemma not_mem_of_le_countP (h : Greatest key n all kept) {x : α}
    (hcount : n ≤ all.countP (fun y => decide (key x < key y))) : x ∉ kept := by
  intro hx
  obtain ⟨rest, hall, hrest⟩ := h.rest
  have hnone : rest.countP (fun y => decide (key x < key y)) = 0 :=
    List.countP_eq_zero.mpr fun b hb hlt =>
      absurd (hrest x hx b hb) (not_le.mpr (of_decide_eq_true hlt))
  have hlt : kept.countP (fun y => decide (key x < key y)) < kept.length :=
    List.countP_lt_length_iff.mpr ⟨x, hx, by simp⟩
  have hsum := hall.countP_eq fun y => decide (key x < key y)
  have hkept := h.length
  rw [List.countP_append] at hsum
  omega

end Greatest

/-- The index a search for a least entry ends with. -/
lemma foldl_least {less : α → α → Prop} [DecidableRel less]
    (hless : ∀ a b, less a b ↔ key a < key b) (d : α) {l : List α} (hne : l ≠ []) :
    ∃ h : (List.range l.length).foldl
        (fun least i => if less (l.getD i d) (l.getD least d) then i else least) 0 < l.length,
      ∀ a ∈ l, key (l[(List.range l.length).foldl
        (fun least i => if less (l.getD i d) (l.getD least d) then i else least) 0]) ≤ key a := by
  have hscan : ∀ m ≤ l.length, 0 < l.length →
      (List.range m).foldl
        (fun least i => if less (l.getD i d) (l.getD least d) then i else least) 0 < l.length ∧
      ∀ j < m, key (l.getD ((List.range m).foldl
        (fun least i => if less (l.getD i d) (l.getD least d) then i else least) 0) d)
          ≤ key (l.getD j d) := by
    intro m
    induction m with
    | zero => exact fun _ hpos => ⟨hpos, nofun⟩
    | succ m ih =>
        intro hm hpos
        obtain ⟨hlt, hmin⟩ := ih (by omega) hpos
        rw [List.range_succ, List.foldl_append, List.foldl_cons, List.foldl_nil]
        generalize (List.range m).foldl _ 0 = least at hlt hmin ⊢
        split
        · next hfound =>
            rw [hless] at hfound
            refine ⟨hm, fun j hj => ?_⟩
            rcases Nat.lt_succ_iff_lt_or_eq.mp hj with hj | rfl
            · exact hfound.le.trans (hmin j hj)
            · exact le_rfl
        · next hfound =>
            rw [hless] at hfound
            refine ⟨hlt, fun j hj => ?_⟩
            rcases Nat.lt_succ_iff_lt_or_eq.mp hj with hj | rfl
            · exact hmin j hj
            · exact not_lt.mp hfound
  obtain ⟨hlt, hmin⟩ := hscan l.length le_rfl (List.length_pos_iff.mpr hne)
  refine ⟨hlt, fun a ha => ?_⟩
  obtain ⟨j, hj, rfl⟩ := List.getElem_of_mem ha
  have hle := hmin j hj
  rw [List.getD_eq_getElem _ _ hj, List.getD_eq_getElem _ _ hlt] at hle
  exact hle

end ArcticController

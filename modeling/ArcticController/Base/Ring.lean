/-
Ring buffers: `cap` array cells, the index `head` of the cell to be written
next and the number `count` of cells in use, read from the oldest entry on.

* `ringIndex`, `ringList`: the cell of the `i`-th oldest entry and the list of
  all entries;
* `ringList_push`: writing at `head` appends, after the oldest entry left a
  full ring;
* `ringList_update`: overwriting the cell of an entry replaces it in the list;
* `ringList_of_list`: a ring filled from a list lists it.
-/
import Mathlib.Tactic

namespace ArcticController

section Ring

variable {α : Type}

/-- The cell of the `i`-th oldest entry. -/
def ringIndex (cap head count i : ℕ) : ℕ := (head + cap - count + i) % cap

/-- The entries of a ring, oldest first. -/
def ringList (cap head count : ℕ) (get : ℕ → α) : List α :=
  (List.range count).map fun i => get (ringIndex cap head count i)

@[simp] lemma ringList_length (cap head count : ℕ) (get : ℕ → α) :
    (ringList cap head count get).length = count := by simp [ringList]

@[simp] lemma ringList_zero (cap head : ℕ) (get : ℕ → α) : ringList cap head 0 get = [] := rfl

lemma ringList_getElem (cap head count : ℕ) (get : ℕ → α) (i : ℕ)
    (h : i < (ringList cap head count get).length) :
    (ringList cap head count get)[i] = get (ringIndex cap head count i) := by
  simp [ringList]

/-- A number below twice the modulus, reduced. -/
lemma mod_of_lt_two_mul {x c : ℕ} (hx : x < 2 * c) : x % c = if x < c then x else x - c := by
  split
  · exact Nat.mod_eq_of_lt ‹_›
  · rw [Nat.mod_eq_sub_mod (by omega), Nat.mod_eq_of_lt (by omega)]

variable {cap head count : ℕ}

lemma ringIndex_eq (hhead : head < cap) (hcount : count ≤ cap) {i : ℕ} (hi : i < count) :
    ringIndex cap head count i
      = if head + i < count then head + cap - count + i else head + i - count := by
  rw [ringIndex, mod_of_lt_two_mul (by omega)]
  split <;> split <;> omega

lemma ringIndex_lt (hcap : 0 < cap) (i : ℕ) : ringIndex cap head count i < cap :=
  Nat.mod_lt _ hcap

/-- Different entries live in different cells. -/
lemma ringIndex_inj (hhead : head < cap) (hcount : count ≤ cap) {i j : ℕ} (hi : i < count)
    (hj : j < count) (h : ringIndex cap head count i = ringIndex cap head count j) : i = j := by
  rw [ringIndex_eq hhead hcount hi, ringIndex_eq hhead hcount hj] at h
  split at h <;> split at h <;> omega

/-- The cell of the `i`-th newest entry, as a walk back from `head` finds it. -/
lemma ringIndex_newest (hhead : head < cap) (hcount : count ≤ cap) {i : ℕ} (hi : i < count) :
    (head + cap * 2 - 1 - i) % cap = ringIndex cap head count (count - 1 - i) := by
  rw [ringIndex_eq hhead hcount (by omega)]
  rw [show head + cap * 2 - 1 - i = (head + cap - 1 - i) + cap by omega, Nat.add_mod_right,
    mod_of_lt_two_mul (by omega)]
  split <;> split <;> omega

/-- The number of entries after a write: a full ring stays full. -/
def ringCount (cap count : ℕ) : ℕ := if count < cap then count + 1 else count

/-- Writing at `head` appends the new entry, after the oldest entry left a full
ring. -/
lemma ringList_push (hhead : head < cap) (hcount : count ≤ cap) (get : ℕ → α) (a : α) :
    ringList cap ((head + 1) % cap) (ringCount cap count) (Function.update get head a)
      = (if count < cap then ringList cap head count get
          else (ringList cap head count get).tail) ++ [a] := by
  have hnext : (head + 1) % cap = if head + 1 < cap then head + 1 else head + 1 - cap :=
    mod_of_lt_two_mul (by omega)
  have hlt : (head + 1) % cap < cap := Nat.mod_lt _ (by omega)
  by_cases hfull : count < cap
  · rw [ringCount, if_pos hfull, if_pos hfull, ringList, List.range_succ, List.map_append]
    congr 1
    · refine List.map_congr_left fun i hi => ?_
      have hi' := List.mem_range.mp hi
      rw [ringIndex_eq hlt (by omega) (by omega), ringIndex_eq hhead hcount hi',
        Function.update_of_ne (by rw [hnext]; split <;> split <;> omega)]
      congr 1
      rw [hnext]
      split <;> split <;> split <;> omega
    · rw [List.map_singleton, ringIndex_eq hlt (by omega) (by omega)]
      rw [show (if (head + 1) % cap + count < count + 1 then
          (head + 1) % cap + cap - (count + 1) + count else
          (head + 1) % cap + count - (count + 1)) = head by
            rw [hnext]; split <;> split <;> omega, Function.update_self]
  · have hc : count = cap := by omega
    subst hc
    obtain ⟨n, rfl⟩ : ∃ n, count = n + 1 := ⟨count - 1, by omega⟩
    rw [ringCount, if_neg hfull, if_neg hfull]
    refine List.ext_getElem (by simp) fun i h1 h2 => ?_
    rw [ringList_getElem, ringIndex_eq hlt le_rfl (by simpa using h1)]
    have hi : i < n + 1 := by simpa using h1
    by_cases hlast : i = n
    · subst hlast
      rw [show (if (head + 1) % (i + 1) + i < i + 1 then
          (head + 1) % (i + 1) + (i + 1) - (i + 1) + i else
          (head + 1) % (i + 1) + i - (i + 1)) = head by rw [hnext]; split <;> split <;> omega,
        Function.update_self, List.getElem_append_right (by simp)]
      simp
    · rw [Function.update_of_ne (by rw [hnext]; split <;> split <;> omega),
        List.getElem_append_left (by simp; omega), List.getElem_tail, ringList_getElem,
        ringIndex_eq hhead le_rfl (by omega)]
      congr 1
      rw [hnext]
      split <;> split <;> split <;> omega

/-- Overwriting the cell of an entry replaces that entry. -/
lemma ringList_update (hhead : head < cap) (hcount : count ≤ cap) (get : ℕ → α) (a : α) {i : ℕ}
    (hi : i < count) :
    ringList cap head count (Function.update get (ringIndex cap head count i) a)
      = (ringList cap head count get).set i a := by
  refine List.ext_getElem (by simp) fun j h1 h2 => ?_
  have hj : j < count := by simpa using h1
  rw [ringList_getElem, List.getElem_set, ringList_getElem]
  by_cases hij : i = j
  · subst hij; rw [Function.update_self, if_pos rfl]
  · rw [Function.update_of_ne fun h => hij (ringIndex_inj hhead hcount hj hi h).symm,
      if_neg hij]

/-- A ring filled from a list lists it, with the head reduced or not. -/
lemma ringList_of_list (l : List α) (hl : l.length ≤ cap) (d : α)
    (hhead : head = l.length ∨ head = l.length % cap) :
    ringList cap head l.length (fun i => l.getD i d) = l := by
  refine List.ext_getElem (by simp) fun i h1 h2 => ?_
  rw [ringList_getElem]
  have hindex : ringIndex cap head l.length i = i := by
    rcases hhead with rfl | rfl
    · rw [ringIndex, Nat.add_sub_cancel_left, Nat.add_mod_left, Nat.mod_eq_of_lt (by omega)]
    · rw [ringIndex_eq (Nat.mod_lt _ (by omega)) hl h2, mod_of_lt_two_mul (by omega)]
      split <;> split <;> omega
  simp [hindex, h2]

end Ring

end ArcticController

/-
Ring buffers read back from the head.

* `ringWalk`: the cells met on a walk back;
* `RingHolds`: the cells keep the newest of all entries that were pushed;
* `RingHolds.push`, `RingHolds.walk`: a push keeps it, and a walk of no more cells than
  are held reads the newest entries, the newest one first.
-/
import ArcticController.Base.Ring

namespace ArcticController

section RingBack

variable {α : Type} {cap head : ℕ} {get : ℕ → α}

/-- `n` cells, from `cell` backwards. -/
def ringWalk (cap : ℕ) (get : ℕ → α) : ℕ → ℕ → List α
  | 0, _ => []
  | n + 1, cell => get cell :: ringWalk cap get n ((cell + cap - 1) % cap)

@[simp] lemma ringWalk_length (n cell : ℕ) : (ringWalk cap get n cell).length = n := by
  induction n generalizing cell with
  | zero => rfl
  | succ n ih => rw [ringWalk, List.length_cons, ih]

/-- The `i`-th cell of a walk. -/
lemma ringWalk_getElem? (hcap : 0 < cap) {n cell i : ℕ} (hi : i < n) (hn : n ≤ cap) :
    (ringWalk cap get n (cell % cap))[i]? = some (get ((cell + cap - i) % cap)) := by
  induction n generalizing cell i with
  | zero => omega
  | succ n ih =>
      rw [ringWalk]
      cases i with
      | zero => rw [List.getElem?_cons_zero, Nat.sub_zero, Nat.add_mod_right]
      | succ i =>
          have hback : (cell % cap + cap - 1) % cap = (cell + cap - 1) % cap := by
            rw [Nat.add_sub_assoc hcap, Nat.add_sub_assoc hcap, Nat.mod_add_mod]
          rw [List.getElem?_cons_succ, hback, ih (by omega) (by omega)]
          rw [show cell + cap - 1 + cap - i = cell + cap - (i + 1) + cap by omega,
            Nat.add_mod_right]

/-- The cells keep the newest of the entries that were pushed. -/
structure RingHolds (cap head : ℕ) (get : ℕ → α) (entries : List α) : Prop where
  head_lt : head < cap
  newest : ringList cap head (min entries.length cap) get = entries.drop (entries.length - cap)

namespace RingHolds

lemma empty (hhead : head < cap) : RingHolds cap head get [] where
  head_lt := hhead
  newest := by simp

/-- A push keeps the newest entries. -/
lemma push {entries : List α} (h : RingHolds cap head get entries) (a : α) :
    RingHolds cap ((head + 1) % cap) (Function.update get head a) (entries ++ [a]) where
  head_lt := Nat.mod_lt _ (by have := h.head_lt; omega)
  newest := by
    have hcount : min (entries ++ [a]).length cap = ringCount cap (min entries.length cap) := by
      rw [List.length_append, List.length_singleton, ringCount]
      split <;> omega
    rw [hcount, ringList_push h.head_lt (min_le_right _ _), h.newest]
    by_cases hfull : min entries.length cap < cap
    · have hlen : entries.length < cap := by omega
      rw [if_pos hfull, List.length_append, List.length_singleton,
        show entries.length - cap = 0 by omega, show entries.length + 1 - cap = 0 by omega]
      rfl
    · have hlen : cap ≤ entries.length := by omega
      have hcap : 0 < cap := by have := h.head_lt; omega
      rw [if_neg hfull, List.tail_drop, List.length_append, List.length_singleton,
        show entries.length - cap + 1 = entries.length + 1 - cap by omega,
        List.drop_append_of_le_length (by omega)]

/-- A walk of no more cells than are held reads the newest entries. -/
lemma walk {entries : List α} (h : RingHolds cap head get entries) {n : ℕ}
    (hn : n ≤ min entries.length cap) :
    ringWalk cap get n ((head + cap - 1) % cap) = entries.reverse.take n := by
  have hcap : 0 < cap := by have := h.head_lt; omega
  refine List.ext_getElem? fun i => ?_
  by_cases hi : i < n
  · rw [ringWalk_getElem? hcap hi (by omega), List.getElem?_take_of_lt hi,
      List.getElem?_reverse (by omega)]
    -- The cell met is the one of an entry counted from the oldest one on.
    have hcell : (head + cap - 1 + cap - i) % cap
        = ringIndex cap head (min entries.length cap) (min entries.length cap - 1 - i) := by
      rw [← ringIndex_newest h.head_lt (min_le_right _ _) (by omega)]
      congr 1
      omega
    have hentry := congrArg (·[min entries.length cap - 1 - i]?) h.newest
    simp only [List.getElem?_drop] at hentry
    rw [List.getElem?_eq_getElem (by rw [ringList_length]; omega), ringList_getElem] at hentry
    rw [hcell, hentry]
    congr 1
    omega
  · rw [List.getElem?_eq_none (by rw [ringWalk_length]; omega),
      List.getElem?_eq_none (by rw [List.length_take]; omega)]

end RingHolds

end RingBack

end ArcticController

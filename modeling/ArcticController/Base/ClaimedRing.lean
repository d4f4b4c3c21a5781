/-
A ring whose slots are claimed one after another and only then kept or left empty.

* `mem_rtake_iff`: the last elements of a list, as those with few behind them;
* `ClaimsKept`: no claim reuses the slot of a kept one unless every claim since was
  kept;
* `ClaimsKept.mem_rtake`: then the slots hold the last kept claims;
* `ClaimedRing`: the slots hold the last claims, with `claim` and `settle`.
-/
import ArcticController.Base.Ring
import Mathlib.Data.List.DropRight
import Mathlib.Data.List.ReduceOption

namespace ArcticController

section Claims

variable {α : Type} {n : ℕ}

/-! ### The last elements of a list -/

/-- The last `n` elements are those with fewer than `n` behind them. -/
lemma mem_rtake_iff {l : List α} {a : α} :
    a ∈ l.rtake n ↔ ∃ pre post, l = pre ++ a :: post ∧ post.length < n := by
  constructor
  · intro h
    obtain ⟨pre, post, hdrop⟩ := List.append_of_mem h
    refine ⟨l.take (l.length - n) ++ pre, post, ?_, ?_⟩
    · rw [List.append_assoc, ← hdrop, List.rtake, List.take_append_drop]
    · have := congrArg List.length hdrop
      simp only [List.rtake, List.length_drop, List.length_append, List.length_cons] at this
      omega
  · rintro ⟨pre, post, rfl, hlen⟩
    have hle : (pre ++ a :: post).length - n ≤ pre.length := by
      rw [List.length_append, List.length_cons]
      omega
    rw [List.rtake, List.drop_append_of_le_length hle]
    exact List.mem_append_right _ List.mem_cons_self

lemma rtake_append {x y : List α} (h : n ≤ y.length) : (x ++ y).rtake n = y.rtake n := by
  rw [List.rtake, List.rtake, List.length_append, List.drop_append]
  rw [List.drop_eq_nil_of_le (by omega), List.nil_append]
  congr 1
  omega

/-- One more element pushes the oldest of the last ones out. -/
lemma rtake_concat {l : List α} (hn : 0 < n) (h : n ≤ l.length) (a : α) :
    (l ++ [a]).rtake n = (l.rtake n).tail ++ [a] := by
  rw [List.rtake, List.rtake, List.tail_drop, List.length_append, List.length_singleton,
    List.drop_append_of_le_length (by omega)]
  congr 2
  omega

/-! ### Claims that are kept or not -/

/-- A claim `n` after a kept one follows kept claims only, and is kept itself. -/
def ClaimsKept (n : ℕ) (claims : List (Option α)) : Prop :=
  ∀ pre a post, claims = pre ++ some a :: post → n ≤ post.length → none ∉ post.take n

lemma ClaimsKept.prefix {claims more : List (Option α)} (h : ClaimsKept n (claims ++ more)) :
    ClaimsKept n claims := by
  rintro pre a post rfl hlen
  have hmore := h pre a (post ++ more) (by simp) (hlen.trans (by simp))
  rwa [List.take_append_of_le_length hlen] at hmore

lemma reduceOption_length_of_notMem {l : List (Option α)} (h : none ∉ l) :
    l.reduceOption.length = l.length := by
  rw [List.reduceOption_length_eq_iff]
  intro x hx
  cases x with
  | none => exact absurd hx h
  | some x => rfl

/-- The last claims hold the last kept ones. -/
lemma ClaimsKept.mem_rtake {claims : List (Option α)} (h : ClaimsKept n claims) {a : α} :
    some a ∈ claims.rtake n ↔ a ∈ claims.reduceOption.rtake n := by
  rw [mem_rtake_iff, mem_rtake_iff]
  constructor
  · rintro ⟨pre, post, rfl, hlen⟩
    refine ⟨pre.reduceOption, post.reduceOption, ?_, ?_⟩
    · rw [List.reduceOption_append, List.reduceOption_cons_of_some]
    · exact (List.reduceOption_length_le post).trans_lt hlen
  · rintro ⟨pre, post, hsplit, hlen⟩
    obtain ⟨pre', rest, rfl, rfl, hrest⟩ := List.filterMap_eq_append_iff.mp hsplit
    obtain ⟨gap, x, post', rfl, hgap, hx, rfl⟩ := List.filterMap_eq_cons_iff.mp hrest
    dsimp only [id] at hx
    subst hx
    refine ⟨pre' ++ gap, post', (List.append_assoc _ _ _).symm, ?_⟩
    -- a reused slot would have been reused by `n` kept claims
    by_contra hge
    have hkept := h (pre' ++ gap) a post' (List.append_assoc _ _ _).symm (not_lt.mp hge)
    have hfew : (post'.take n).reduceOption.length ≤ post'.reduceOption.length :=
      ((List.take_sublist n post').filterMap id).length_le
    rw [reduceOption_length_of_notMem hkept, List.length_take_of_le (not_lt.mp hge)] at hfew
    exact absurd hlen (not_lt.mpr hfew)

/-! ### The ring -/

/-- The `n` slots of a ring hold the last claims, the last one just before `next`. -/
def ClaimedRing (n next : ℕ) (slots : ℕ → Option α) (claims : List (Option α)) : Prop :=
  ringList n next n slots = (List.replicate n none ++ claims).rtake n

namespace ClaimedRing

variable {next : ℕ} {slots : ℕ → Option α} {claims : List (Option α)}

lemma empty : ClaimedRing n next (fun _ => (none : Option α)) [] := by
  rw [ClaimedRing, List.append_nil, List.rtake, List.length_replicate, Nat.sub_self, List.drop_zero]
  exact List.ext_getElem (by simp) fun i _ _ => by rw [ringList_getElem, List.getElem_replicate]

/-- A claim takes the slot at `next`. -/
lemma claim (h : ClaimedRing n next slots claims) (hnext : next < n) (o : Option α) :
    ClaimedRing n ((next + 1) % n) (Function.update slots next o) (claims ++ [o]) := by
  have hpush := ringList_push hnext le_rfl slots o
  rw [ringCount, if_neg (lt_irrefl n), if_neg (lt_irrefl n), h] at hpush
  rw [ClaimedRing, hpush, ← List.append_assoc, rtake_concat (by omega) (by simp)]

/-- The last claim is decided. -/
lemma settle {o o' : Option α} (h : ClaimedRing n ((next + 1) % n) slots (claims ++ [o]))
    (hnext : next < n) :
    ClaimedRing n ((next + 1) % n) (Function.update slots next o') (claims ++ [o']) := by
  have hn : 0 < n := by omega
  have hslot : ringIndex n ((next + 1) % n) n (n - 1) = next := by
    rw [ringIndex_eq (Nat.mod_lt _ hn) le_rfl (by omega), mod_of_lt_two_mul (by omega)]
    split <;> split <;> omega
  have hset := ringList_update (Nat.mod_lt (next + 1) hn) le_rfl slots o' (i := n - 1) (by omega)
  rw [hslot, h] at hset
  have hlen : ((List.replicate n none ++ claims).rtake n).tail.length = n - 1 := by
    rw [List.length_tail, List.rtake, List.length_drop, List.length_append, List.length_replicate]
    omega
  rw [ClaimedRing, hset, ← List.append_assoc, ← List.append_assoc, rtake_concat hn (by simp),
    rtake_concat hn (by simp), List.set_append_right _ _ hlen.le, hlen, Nat.sub_self,
    List.set_cons_zero]

/-- What is in the ring was claimed among the last. -/
lemma mem (h : ClaimedRing n next slots claims) (hnext : next < n) {a : α} :
    (∃ i < n, slots i = some a) ↔ some a ∈ claims.rtake n := by
  have hring : (∃ i < n, slots i = some a) ↔ some a ∈ ringList n next n slots := by
    rw [ringList, List.mem_map]
    constructor
    · rintro ⟨i, hi, hslot⟩
      refine ⟨(i + n - next) % n, List.mem_range.mpr (Nat.mod_lt _ (by omega)), ?_⟩
      have hindex : ringIndex n next n ((i + n - next) % n) = i := by
        rw [ringIndex_eq hnext le_rfl (Nat.mod_lt _ (by omega)), mod_of_lt_two_mul (by omega)]
        split <;> split <;> omega
      rw [hindex, hslot]
    · rintro ⟨i, -, hslot⟩
      exact ⟨_, ringIndex_lt (by omega) i, hslot⟩
  rw [hring, h, mem_rtake_iff, mem_rtake_iff]
  constructor
  · rintro ⟨pre, post, hsplit, hlen⟩
    rcases List.append_eq_append_iff.mp hsplit with ⟨pre', rfl, hclaims⟩ | ⟨rest, hrep, hrest⟩
    · exact ⟨pre', post, hclaims, hlen⟩
    · cases rest with
      | nil => exact ⟨[], post, hrest.symm, hlen⟩
      | cons x rest =>
          -- what was there before the claims is empty
          cases hrest
          have hmem : some a ∈ List.replicate n none := hrep ▸ List.mem_append_right _ List.mem_cons_self
          cases (List.mem_replicate.mp hmem).2
  · rintro ⟨pre, post, rfl, hlen⟩
    exact ⟨List.replicate n none ++ pre, post, (List.append_assoc _ _ _).symm, hlen⟩

end ClaimedRing

end Claims

end ArcticController

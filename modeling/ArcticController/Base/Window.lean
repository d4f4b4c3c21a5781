/-
The newest entries of a journal of versions: a bounded list of keyed entries,
oldest first, in which a new version of a listed key takes the place of the
old one and a new key pushes out the oldest entry once the list is full.

* `replaceFirst`, `upsert`: one version folded into the list;
* `keys_upsert`: what happens to the list of keys;
* `upsert_nodup`, `length_upsert_le`: the list never lists a key twice and
  never outgrows its capacity;
* `foldl_upsert_self`: distinct keys that fit are listed as they came;
* `CatchesUp.keeps`: of two windows over the same rising keys, one of which
  missed some, the shorter history pushes nothing out that the other keeps.
-/
import Mathlib.Tactic

namespace ArcticController

section Window

variable {κ ν : Type} [DecidableEq κ]

/-- Give the first entry of a key a new value. -/
def replaceFirst (k : κ) (v : ν) : List (κ × ν) → List (κ × ν)
  | [] => []
  | p :: w => if p.1 = k then (k, v) :: w else p :: replaceFirst k v w

/-- Fold one version of a key into the newest `cap` entries. -/
def upsert (cap : ℕ) (w : List (κ × ν)) (p : κ × ν) : List (κ × ν) :=
  if p.1 ∈ w.map Prod.fst then replaceFirst p.1 p.2 w
  else if w.length < cap then w ++ [p]
  else w.tail ++ [p]

/-- The keys after an entry came in: the oldest leaves a full list. -/
def pushKey (cap : ℕ) (ks : List κ) (k : κ) : List κ :=
  if ks.length < cap then ks ++ [k] else ks.tail ++ [k]

@[simp] lemma map_fst_replaceFirst (k : κ) (v : ν) (w : List (κ × ν)) :
    (replaceFirst k v w).map Prod.fst = w.map Prod.fst := by
  induction w with
  | nil => rfl
  | cons p w ih =>
      rw [replaceFirst]
      split
      · next h => simp [h]
      · simp [ih]

@[simp] lemma length_replaceFirst (k : κ) (v : ν) (w : List (κ × ν)) :
    (replaceFirst k v w).length = w.length := by
  rw [← List.length_map Prod.fst, map_fst_replaceFirst, List.length_map]

variable {cap : ℕ} {w : List (κ × ν)} {p q : κ × ν}

lemma upsert_of_mem (h : p.1 ∈ w.map Prod.fst) :
    upsert cap w p = replaceFirst p.1 p.2 w := if_pos h

/-- A new key is listed last, after the oldest entry of a full list left. -/
lemma upsert_of_notMem (h : p.1 ∉ w.map Prod.fst) :
    upsert cap w p = (if w.length < cap then w else w.tail) ++ [p] := by
  rw [upsert, if_neg h]
  split <;> rfl

/-- The keys after one version: unchanged, or pushed by the new key. -/
lemma keys_upsert (cap : ℕ) (w : List (κ × ν)) (p : κ × ν) :
    (upsert cap w p).map Prod.fst
      = if p.1 ∈ w.map Prod.fst then w.map Prod.fst else pushKey cap (w.map Prod.fst) p.1 := by
  by_cases h : p.1 ∈ w.map Prod.fst
  · rw [upsert_of_mem h, map_fst_replaceFirst, if_pos h]
  · rw [upsert_of_notMem h, if_neg h, pushKey, List.length_map]
    split <;> simp

lemma length_upsert_le (p : κ × ν) (hcap : 0 < cap) (hw : w.length ≤ cap) :
    (upsert cap w p).length ≤ cap := by
  by_cases h : p.1 ∈ w.map Prod.fst
  · rwa [upsert_of_mem h, length_replaceFirst]
  · rw [upsert_of_notMem h]
    split <;> simp <;> omega

lemma length_upsert_le_succ (cap : ℕ) (w : List (κ × ν)) (p : κ × ν) :
    (upsert cap w p).length ≤ w.length + 1 := by
  by_cases h : p.1 ∈ w.map Prod.fst
  · rw [upsert_of_mem h, length_replaceFirst]
    exact Nat.le_succ _
  · rw [upsert_of_notMem h, List.length_append, List.length_singleton]
    split <;> simp

/-- The list never lists a key twice. -/
lemma upsert_nodup (p : κ × ν) (hw : (w.map Prod.fst).Nodup) :
    ((upsert cap w p).map Prod.fst).Nodup := by
  rw [keys_upsert]
  split
  · exact hw
  · next h =>
      have happ : ∀ ks : List κ, ks.Nodup → p.1 ∉ ks → (ks ++ [p.1]).Nodup := fun ks hks hp =>
        List.nodup_append.mpr ⟨hks, List.nodup_singleton _, fun a ha b hb =>
          fun hab => hp (by rw [← List.mem_singleton.mp hb, ← hab]; exact ha)⟩
      rw [pushKey]
      split
      · exact happ _ hw h
      · exact happ _ hw.tail fun hm => h (List.mem_of_mem_tail hm)

/-- Every entry listed after one version was listed before or is the new one. -/
lemma mem_upsert (h : q ∈ upsert cap w p) : q ∈ w ∨ q = p := by
  have hrep : ∀ w : List (κ × ν), q ∈ replaceFirst p.1 p.2 w → q ∈ w ∨ q = p := by
    intro w
    induction w with
    | nil => intro h; simp [replaceFirst] at h
    | cons a w ih =>
        intro h
        rw [replaceFirst] at h
        split at h
        · rcases List.mem_cons.mp h with h | h
          · exact Or.inr h
          · exact Or.inl (List.mem_cons_of_mem _ h)
        · rcases List.mem_cons.mp h with h | h
          · exact Or.inl (h ▸ List.mem_cons_self)
          · exact (ih h).imp_left (List.mem_cons_of_mem _)
  by_cases hp : p.1 ∈ w.map Prod.fst
  · exact hrep w (by rwa [upsert_of_mem hp] at h)
  · rw [upsert_of_notMem hp, List.mem_append, List.mem_singleton] at h
    refine h.imp_left fun h => ?_
    split at h
    · exact h
    · exact List.mem_of_mem_tail h

/-- A new value at the position of its key, when no key is listed twice. -/
lemma replaceFirst_eq_set (hw : (w.map Prod.fst).Nodup) (v : ν) {i : ℕ} (hi : i < w.length) :
    replaceFirst w[i].1 v w = w.set i (w[i].1, v) := by
  induction w generalizing i with
  | nil => simp at hi
  | cons p w ih =>
      rw [List.map_cons, List.nodup_cons] at hw
      cases i with
      | zero => simp [replaceFirst]
      | succ i =>
          have hi' : i < w.length := by simpa using hi
          have hne : p.1 ≠ w[i].1 := fun h =>
            hw.1 (by rw [h]; exact List.mem_map_of_mem (List.getElem_mem hi'))
          rw [List.getElem_cons_succ, replaceFirst, if_neg hne, ih hw.2, List.set_cons_succ]

/-- Distinct new keys that still fit are listed as they came. -/
lemma foldl_upsert_append (l : List (κ × ν)) : ∀ w : List (κ × ν),
    ((w ++ l).map Prod.fst).Nodup → (w ++ l).length ≤ cap → l.foldl (upsert cap) w = w ++ l := by
  induction l with
  | nil => intro w _ _; simp
  | cons p l ih =>
      intro w hnd hlen
      have hp : p.1 ∉ w.map Prod.fst := by
        intro hmem
        rw [List.map_append, List.nodup_append] at hnd
        exact hnd.2.2 _ hmem p.1 (by simp) rfl
      have hroom : w.length < cap := by simp at hlen; omega
      rw [List.foldl_cons, upsert_of_notMem hp, if_pos hroom, ih _ (by simpa using hnd)
        (by simpa using hlen), List.append_assoc, List.singleton_append]

/-- Distinct keys that fit are listed as they came. -/
lemma foldl_upsert_self {l : List (κ × ν)} (hnd : (l.map Prod.fst).Nodup) (hlen : l.length ≤ cap) :
    l.foldl (upsert cap) [] = l := by
  simpa using foldl_upsert_append l [] (by simpa using hnd) (by simpa using hlen)

/-- Versions of listed keys folded into a list keep its keys. -/
lemma map_fst_foldl_upsert (l : List (κ × ν)) :
    ∀ w : List (κ × ν), (∀ p ∈ l, p.1 ∈ w.map Prod.fst) →
      (l.foldl (upsert cap) w).map Prod.fst = w.map Prod.fst := by
  induction l with
  | nil => intro w _; rfl
  | cons p l ih =>
      intro w h
      have hkeys : (upsert cap w p).map Prod.fst = w.map Prod.fst := by
        rw [upsert_of_mem (h p List.mem_cons_self), map_fst_replaceFirst]
      rw [List.foldl_cons, ih _ fun q hq => by
        rw [hkeys]; exact h q (List.mem_cons_of_mem _ hq), hkeys]

lemma mem_foldl_upsert (l : List (κ × ν)) :
    ∀ w : List (κ × ν), ∀ p ∈ l.foldl (upsert cap) w, p ∈ w ∨ p ∈ l := by
  induction l with
  | nil => intro w p hp; exact Or.inl hp
  | cons q l ih =>
      intro w p hp
      rcases ih _ p hp with hp | hp
      · rcases mem_upsert hp with hp | rfl
        · exact Or.inl hp
        · exact Or.inr List.mem_cons_self
      · exact Or.inr (List.mem_cons_of_mem _ hp)

/-! ### Versions that stay listed -/

lemma mem_replaceFirst_of_ne {k : κ} (v : ν) (hq : q ∈ w) (hne : q.1 ≠ k) :
    q ∈ replaceFirst k v w := by
  induction w with
  | nil => exact absurd hq List.not_mem_nil
  | cons p w ih =>
      rw [replaceFirst]
      rcases List.mem_cons.mp hq with rfl | hq
      · rw [if_neg hne]
        exact List.mem_cons_self
      · split
        · exact List.mem_cons_of_mem _ hq
        · exact List.mem_cons_of_mem _ (ih hq)

lemma mem_replaceFirst_self {k : κ} (v : ν) (hk : k ∈ w.map Prod.fst) :
    (k, v) ∈ replaceFirst k v w := by
  induction w with
  | nil => exact absurd hk List.not_mem_nil
  | cons p w ih =>
      rw [replaceFirst]
      split
      · exact List.mem_cons_self
      · next hne =>
          rcases List.mem_cons.mp hk with rfl | hk
          · exact absurd rfl hne
          · exact List.mem_cons_of_mem _ (ih hk)

/-- Versions of other listed keys leave an entry alone. -/
lemma mem_foldl_upsert_of_notMem (l : List (κ × ν)) :
    ∀ w : List (κ × ν), (∀ p ∈ l, p.1 ∈ w.map Prod.fst) → q.1 ∉ l.map Prod.fst → q ∈ w →
      q ∈ l.foldl (upsert cap) w := by
  induction l with
  | nil => intro w _ _ hq; exact hq
  | cons p l ih =>
      intro w hkeys hnot hq
      have hp := hkeys p List.mem_cons_self
      refine ih _ (fun p' hp' => ?_) (fun h => hnot (List.mem_cons_of_mem _ h)) ?_
      · rw [upsert_of_mem hp, map_fst_replaceFirst]
        exact hkeys p' (List.mem_cons_of_mem _ hp')
      · rw [upsert_of_mem hp]
        exact mem_replaceFirst_of_ne _ hq fun heq => hnot (by rw [heq]; exact List.mem_cons_self)

/-- Versions of different listed keys are all listed afterwards. -/
lemma mem_foldl_upsert_self (l : List (κ × ν)) :
    ∀ w : List (κ × ν), (∀ p ∈ l, p.1 ∈ w.map Prod.fst) → (l.map Prod.fst).Nodup →
      ∀ p ∈ l, p ∈ l.foldl (upsert cap) w := by
  induction l with
  | nil => intro w _ _ p hp; exact absurd hp List.not_mem_nil
  | cons q l ih =>
      intro w hkeys hnodup p hp
      rw [List.map_cons, List.nodup_cons] at hnodup
      have hq := hkeys q List.mem_cons_self
      have hkeys' : ∀ p ∈ l, p.1 ∈ (upsert cap w q).map Prod.fst := fun p' hp' => by
        rw [upsert_of_mem hq, map_fst_replaceFirst]
        exact hkeys p' (List.mem_cons_of_mem _ hp')
      rcases List.mem_cons.mp hp with rfl | hp
      · refine mem_foldl_upsert_of_notMem l _ hkeys' hnodup.1 ?_
        rw [upsert_of_mem hq]
        exact mem_replaceFirst_self _ hq
      · exact ih _ hkeys' hnodup.2 p hp

/-- An entry whose key a new key did not push out is still listed. -/
lemma mem_upsert_of_key (hnodup : (w.map Prod.fst).Nodup) (hp : p.1 ∉ w.map Prod.fst) (hq : q ∈ w)
    (hkey : q.1 ∈ (upsert cap w p).map Prod.fst) : q ∈ upsert cap w p := by
  obtain ⟨q', hq', heq⟩ := List.mem_map.mp hkey
  have hne : q.1 ≠ p.1 := fun h => hp (h ▸ List.mem_map_of_mem hq)
  rcases mem_upsert hq' with hw | rfl
  · rwa [← List.inj_on_of_nodup_map hnodup hw hq heq]
  · exact absurd heq.symm hne

end Window

/-! ### Windows over rising keys -/

section Rising

variable {κ : Type} (rank : κ → ℕ)

/-- The keys rise. -/
def Rising (ks : List κ) : Prop := ks.Pairwise fun a b => rank a < rank b

/-- Above its least key `vs` misses none of `ks`. -/
def CatchesUp (vs ks : List κ) : Prop := ∀ a ∈ vs, ∀ b ∈ ks, rank a ≤ rank b → b ∈ vs

variable {rank} {cap : ℕ} {vs ks : List κ} {n : κ}

lemma Rising.nodup (h : Rising rank ks) : ks.Nodup :=
  List.Pairwise.imp (fun hlt heq => by subst heq; exact Nat.lt_irrefl _ hlt) h

lemma mem_pushKey {a : κ} (h : a ∈ pushKey cap ks n) : a ∈ ks ∨ a = n := by
  rw [pushKey] at h
  split at h
  · simpa using h
  · rcases List.mem_append.mp h with h | h
    · exact Or.inl (List.mem_of_mem_tail h)
    · exact Or.inr (List.mem_singleton.mp h)

lemma Rising.push (h : Rising rank ks) (hn : ∀ a ∈ ks, rank a < rank n) :
    Rising rank (pushKey cap ks n) := by
  have happ : ∀ l : List κ, l.Sublist ks → Rising rank (l ++ [n]) := fun l hl =>
    List.pairwise_append.mpr ⟨List.Pairwise.sublist hl h, List.pairwise_singleton _ _,
      fun a ha b hb => by rw [List.mem_singleton.mp hb]; exact hn a (hl.subset ha)⟩
  rw [pushKey]
  split
  · exact happ _ (List.Sublist.refl _)
  · exact happ _ (List.tail_sublist _)

lemma mem_pushKey_self : n ∈ pushKey cap ks n := by
  rw [pushKey]
  split <;> simp

/-- The oldest key is the only one that can be pushed out. -/
lemma mem_pushKey_of_lt (h : Rising rank ks) {a b : κ} (ha : a ∈ pushKey cap ks n) (hb : b ∈ ks)
    (han : a ≠ n) (hab : rank a ≤ rank b) : b ∈ pushKey cap ks n := by
  rw [pushKey] at ha ⊢
  split at ha
  · next hroom =>
      rw [if_pos hroom]
      exact List.mem_append_left _ hb
  · next hfull =>
    rw [if_neg hfull]
    refine List.mem_append_left _ ?_
    have ha' : a ∈ ks.tail := (List.mem_append.mp ha).resolve_right fun h' =>
      han (List.mem_singleton.mp h')
    cases ks with
    | nil => exact absurd hb List.not_mem_nil
    | cons c ks =>
        rcases List.mem_cons.mp hb with rfl | hb
        · exact absurd ((List.pairwise_cons.mp h).1 a ha') (Nat.not_lt.mpr hab)
        · exact hb

/-- A new key in the one window, and in the other or not. -/
lemma CatchesUp.push (h : CatchesUp rank vs ks) (hv : Rising rank vs)
    (hn : ∀ a ∈ ks, rank a < rank n) : CatchesUp rank (pushKey cap vs n) ks := by
  intro a ha b hb hab
  by_cases han : a = n
  · subst han
    exact absurd (hn b hb) (Nat.not_lt.mpr hab)
  · rcases mem_pushKey ha with hav | rfl
    · exact mem_pushKey_of_lt hv ha (h a hav b hb hab) han hab
    · exact absurd rfl han

lemma CatchesUp.push_both (h : CatchesUp rank vs ks) (hv : Rising rank vs)
    (hn : ∀ a ∈ ks, rank a < rank n) :
    CatchesUp rank (pushKey cap vs n) (pushKey cap ks n) := by
  intro a ha b hb hab
  rcases mem_pushKey hb with hb | rfl
  · exact h.push hv hn a ha b hb hab
  · exact mem_pushKey_self

/-- **What the one window keeps the other keeps**: a key listed in both that the
new key does not push out of `vs` is not pushed out of `ks` either. -/
lemma CatchesUp.keeps (h : CatchesUp rank vs ks) (hv : Rising rank vs) (hk : Rising rank ks)
    (hlen : vs.length ≤ cap) (hn : ∀ a ∈ vs, rank a < rank n) {a : κ}
    (hav : a ∈ vs) (hak : a ∈ ks) (hkept : a ∈ pushKey cap vs n) :
    a ∈ pushKey cap ks n := by
  rw [pushKey]
  split
  · exact List.mem_append_left _ hak
  next hfull =>
  refine List.mem_append_left _ ?_
  cases ks with
  | nil => exact absurd hak List.not_mem_nil
  | cons c ks =>
      rcases List.mem_cons.mp hak with rfl | hak
      swap
      · exact hak
      -- `a` is the oldest key of a full `ks`, all of which is then in `vs`
      have hmin := (List.pairwise_cons.mp hk).1
      have hsub : a :: ks ⊆ vs := fun b hb => by
        rcases List.mem_cons.mp hb with rfl | hb
        · exact hav
        · exact h a hav b (List.mem_cons_of_mem _ hb) (hmin b hb).le
      have hsp := hk.nodup.subperm hsub
      have hperm : (a :: ks).Perm vs := hsp.perm_of_length_le (by omega)
      have hvlen : vs.length = cap := by
        have := hperm.length_eq
        omega
      rw [pushKey, if_neg (by omega)] at hkept
      have hane : a ≠ n := fun heq => by
        subst heq
        exact absurd (hn a hav) (Nat.lt_irrefl _)
      have htail : a ∈ vs.tail := (List.mem_append.mp hkept).resolve_right fun h' =>
        hane (List.mem_singleton.mp h')
      cases vs with
      | nil => exact absurd hav List.not_mem_nil
      | cons v vs =>
          have hlt := (List.pairwise_cons.mp hv).1 a htail
          rcases List.mem_cons.mp (hperm.mem_iff.mpr List.mem_cons_self) with rfl | hv'
          · exact absurd hlt (Nat.lt_irrefl _)
          · exact absurd (hlt.trans (hmin v hv')) (Nat.lt_irrefl _)

end Rising

end ArcticController

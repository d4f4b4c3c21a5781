/-
Readings that stay in force between the calls of a meter.

* `MeterCall`: a reading, or a moment at which an average is taken; the calls before some
  moment stand with the newest one first;
* `countedSpans`: what an average accounts for, the valid spans since the one before it;
* `spanTime`, `spanSum`: the length of some spans, and the sum of a quantity over them;
* `mean_between`: the average lies between the least and the greatest value;
* `RepeatedCalls.spanSum_eq`: repeating the reading in force changes no sum.
-/
import ArcticController.Base.WrapClock

namespace ArcticController

/-- A call of a meter, with the moment it is made at. -/
inductive MeterCall (ρ : Type) where
  | add (ms : ℕ) (reading : ρ)
  | take (ms : ℕ)
deriving DecidableEq, Repr

/-- The moment of a call. -/
def MeterCall.ms {ρ : Type} : MeterCall ρ → ℕ
  | .add ms _ => ms
  | .take ms => ms

/-- The time between two moments, as a clock modulo `2^32` shows it. -/
def clockGap (a b : ℕ) : ℕ := (stamp b - stamp a).toNat

/-- Within one turn of the clock that is the time between them. -/
lemma clockGap_eq {a b : ℕ} (h : a ≤ b) (hturn : b < a + 2 ^ 32) : clockGap a b = b - a :=
  elapsed_exact h hturn

section Spans

variable {ρ : Type} (valid : ρ → Bool) (longest : ℕ)

/-- The reading of the last `add`. -/
def inForce : List (MeterCall ρ) → Option ρ
  | [] => none
  | .add _ r :: _ => some r
  | .take _ :: calls => inForce calls

/-- The span from the last call up to a moment, if it counts: the reading in force is valid
and the span no longer than `longest`. -/
def lastSpan : List (MeterCall ρ) → ℕ → List (ℕ × ρ)
  | [], _ => []
  | call :: calls, ms =>
      match inForce (call :: calls) with
      | none => []
      | some r =>
          if valid r ∧ 0 < clockGap call.ms ms ∧ clockGap call.ms ms ≤ longest then
            [(clockGap call.ms ms, r)]
          else []

/-- The spans that end with a call since the last `take`. -/
def openSpans : List (MeterCall ρ) → List (ℕ × ρ)
  | [] => []
  | .take _ :: _ => []
  | .add ms _ :: calls => lastSpan valid longest calls ms ++ openSpans calls

/-- The spans a `take` accounts for. -/
def countedSpans (calls : List (MeterCall ρ)) (ms : ℕ) : List (ℕ × ρ) :=
  lastSpan valid longest calls ms ++ openSpans valid longest calls

/-- How long some spans are. -/
def spanTime (spans : List (ℕ × ρ)) : ℕ := (spans.map fun s => s.1).sum

/-- The sum of a quantity over some spans. -/
def spanSum (f : ρ → ℕ) (spans : List (ℕ × ρ)) : ℕ := (spans.map fun s => f s.2 * s.1).sum

variable {valid longest}

lemma spanTime_eq (spans : List (ℕ × ρ)) : spanTime spans = spanSum (fun _ => 1) spans := by
  simp [spanTime, spanSum]

lemma spanTime_append (spans rest : List (ℕ × ρ)) :
    spanTime (spans ++ rest) = spanTime spans + spanTime rest := by
  simp [spanTime]

lemma spanSum_append (f : ρ → ℕ) (spans rest : List (ℕ × ρ)) :
    spanSum f (spans ++ rest) = spanSum f spans + spanSum f rest := by
  simp [spanSum]

lemma lastSpan_of_counts {call : MeterCall ρ} {calls : List (MeterCall ρ)} {ms : ℕ} {r : ρ}
    (hr : inForce (call :: calls) = some r)
    (h : valid r = true ∧ 0 < clockGap call.ms ms ∧ clockGap call.ms ms ≤ longest) :
    lastSpan valid longest (call :: calls) ms = [(clockGap call.ms ms, r)] := by
  rw [lastSpan, hr]
  exact if_pos h

lemma lastSpan_of_not {call : MeterCall ρ} {calls : List (MeterCall ρ)} {ms : ℕ}
    (h : ∀ r, inForce (call :: calls) = some r →
      ¬ (valid r = true ∧ 0 < clockGap call.ms ms ∧ clockGap call.ms ms ≤ longest)) :
    lastSpan valid longest (call :: calls) ms = [] := by
  rw [lastSpan]
  cases hr : inForce (call :: calls) with
  | none => rfl
  | some r => exact if_neg (h r hr)

/-- The last span counts where the reading in force is valid and the clock shows it as short
enough. -/
lemma lastSpan_cases (call : MeterCall ρ) (calls : List (MeterCall ρ)) (ms : ℕ) :
    ((((inForce (call :: calls)).map valid).getD false = true ∧
        0 < clockGap call.ms ms ∧ clockGap call.ms ms ≤ longest) ∧
      ∃ r, inForce (call :: calls) = some r ∧
        lastSpan valid longest (call :: calls) ms = [(clockGap call.ms ms, r)]) ∨
    (¬ (((inForce (call :: calls)).map valid).getD false = true ∧
        0 < clockGap call.ms ms ∧ clockGap call.ms ms ≤ longest) ∧
      lastSpan valid longest (call :: calls) ms = []) := by
  cases hr : inForce (call :: calls) with
  | none => exact .inr ⟨fun h => absurd h.1 (by simp), by rw [lastSpan, hr]⟩
  | some r =>
      by_cases hcounts : valid r = true ∧ 0 < clockGap call.ms ms ∧ clockGap call.ms ms ≤ longest
      · exact .inl ⟨hcounts, r, rfl, lastSpan_of_counts hr hcounts⟩
      · refine .inr ⟨hcounts, lastSpan_of_not fun r' hr' => ?_⟩
        obtain rfl := Option.some.inj (hr.symm.trans hr')
        exact hcounts

/-! ### The average -/

lemma lastSpan_valid {calls : List (MeterCall ρ)} {ms : ℕ} {s : ℕ × ρ}
    (h : s ∈ lastSpan valid longest calls ms) : valid s.2 = true ∧ 0 < s.1 ∧ s.1 ≤ longest := by
  cases calls with
  | nil => exact absurd h List.not_mem_nil
  | cons call calls =>
      rw [lastSpan] at h
      cases hr : inForce (call :: calls) with
      | none =>
          rw [hr] at h
          exact absurd h List.not_mem_nil
      | some r =>
          rw [hr] at h
          dsimp only at h
          split at h
          · next hcounts =>
              rw [List.mem_singleton.mp h]
              exact hcounts
          · exact absurd h List.not_mem_nil

/-- Only valid spans are accounted for. -/
lemma countedSpans_valid {calls : List (MeterCall ρ)} {ms : ℕ} {s : ℕ × ρ}
    (h : s ∈ countedSpans valid longest calls ms) : valid s.2 = true ∧ 0 < s.1 ∧ s.1 ≤ longest := by
  induction calls generalizing ms with
  | nil => exact absurd h List.not_mem_nil
  | cons call calls ih =>
      rcases List.mem_append.mp h with hlast | hopen
      · exact lastSpan_valid hlast
      · cases call with
        | add ms' r => exact ih hopen
        | take ms' => exact absurd hopen List.not_mem_nil

/-- Where a span is accounted for, the spans last some time. -/
lemma spanTime_pos {calls : List (MeterCall ρ)} {ms : ℕ}
    (h : countedSpans valid longest calls ms ≠ []) :
    0 < spanTime (countedSpans valid longest calls ms) := by
  obtain ⟨s, rest, hspans⟩ := List.exists_cons_of_ne_nil h
  have hs := countedSpans_valid (show s ∈ countedSpans valid longest calls ms by
    rw [hspans]
    exact List.mem_cons_self)
  rw [hspans, spanTime, List.map_cons, List.sum_cons]
  omega

/-- The sum over spans whose values lie between two bounds. -/
lemma spanSum_between {f : ρ → ℕ} {spans : List (ℕ × ρ)} {lo hi : ℕ}
    (h : ∀ s ∈ spans, lo ≤ f s.2 ∧ f s.2 ≤ hi) :
    lo * spanTime spans ≤ spanSum f spans ∧ spanSum f spans ≤ hi * spanTime spans := by
  induction spans with
  | nil => exact ⟨Nat.le_refl _, Nat.le_refl _⟩
  | cons s spans ih =>
      obtain ⟨hlo, hhi⟩ := h s List.mem_cons_self
      obtain ⟨ihlo, ihhi⟩ := ih fun t ht => h t (List.mem_cons_of_mem _ ht)
      rw [spanTime, spanSum, List.map_cons, List.map_cons, List.sum_cons, List.sum_cons, Nat.mul_add,
        Nat.mul_add]
      exact ⟨Nat.add_le_add (Nat.mul_le_mul_right _ hlo) ihlo,
        Nat.add_le_add (Nat.mul_le_mul_right _ hhi) ihhi⟩

/-- The average lies between the bounds of the values. -/
lemma mean_between {f : ρ → ℕ} {spans : List (ℕ × ρ)} {lo hi : ℕ}
    (h : ∀ s ∈ spans, lo ≤ f s.2 ∧ f s.2 ≤ hi) (hpos : 0 < spanTime spans) :
    lo ≤ spanSum f spans / spanTime spans ∧ spanSum f spans / spanTime spans ≤ hi := by
  obtain ⟨hlo, hhi⟩ := spanSum_between h
  exact ⟨(Nat.le_div_iff_mul_le hpos).mpr hlo,
    Nat.div_le_of_le_mul (by rwa [Nat.mul_comm])⟩

/-! ### Repeated readings -/

/-- The calls before a moment, and it, follow each other. -/
def CallsInOrder : List (MeterCall ρ) → ℕ → Prop
  | [], _ => True
  | call :: calls, ms => call.ms ≤ ms ∧ CallsInOrder calls call.ms

variable (longest) in
/-- The same, with no step longer than `longest`. -/
def CallsInSteps : List (MeterCall ρ) → ℕ → Prop
  | [], _ => True
  | call :: calls, ms => (call.ms ≤ ms ∧ ms ≤ call.ms + longest) ∧ CallsInSteps calls call.ms

/-- The second calls are the first ones and others that repeat the reading in force. -/
inductive RepeatedCalls : List (MeterCall ρ) → List (MeterCall ρ) → Prop
  | nil : RepeatedCalls [] []
  | same {calls calls' : List (MeterCall ρ)} (call : MeterCall ρ) (h : RepeatedCalls calls calls') :
      RepeatedCalls (call :: calls) (call :: calls')
  | extra {calls calls' : List (MeterCall ρ)} {r : ρ} (ms : ℕ) (h : RepeatedCalls calls calls')
      (hr : inForce calls' = some r) : RepeatedCalls calls (.add ms r :: calls')

namespace RepeatedCalls

variable {calls calls' : List (MeterCall ρ)} {ms : ℕ}

lemma inForce_eq (h : RepeatedCalls calls calls') : inForce calls' = inForce calls := by
  induction h with
  | nil => rfl
  | same call h ih =>
      cases call with
      | add ms r => rfl
      | take ms => exact ih
  | extra ms h hr ih => exact hr.symm.trans ih

/-- The last of the first calls is no later than the last of the second ones. -/
lemma head_le {call : MeterCall ρ} (h : RepeatedCalls (call :: calls) calls') (horder : CallsInOrder calls' ms) :
    call.ms ≤ ms := by
  generalize hfirst : call :: calls = first at h
  induction h generalizing ms with
  | nil => cases hfirst
  | same call' h ih =>
      obtain ⟨rfl, -⟩ := List.cons.inj hfirst
      exact horder.1
  | extra t h hr ih => exact (ih horder.2 hfirst).trans horder.1

end RepeatedCalls

/-- The sum over the last span, where it is no longer than `longest`. -/
lemma spanSum_lastSpan (f : ρ → ℕ) (hturn : longest < 2 ^ 32) {call : MeterCall ρ}
    {calls : List (MeterCall ρ)} {ms : ℕ} {r : ρ} (hr : inForce (call :: calls) = some r)
    (h : call.ms ≤ ms ∧ ms ≤ call.ms + longest) :
    spanSum f (lastSpan valid longest (call :: calls) ms)
      = if valid r then f r * (ms - call.ms) else 0 := by
  have hgap : clockGap call.ms ms = ms - call.ms := clockGap_eq h.1 (by omega)
  by_cases hcounts : valid r = true ∧ 0 < ms - call.ms
  · rw [lastSpan_of_counts hr (by rw [hgap]; exact ⟨hcounts.1, hcounts.2, by omega⟩),
      if_pos hcounts.1, hgap]
    simp [spanSum]
  · rw [lastSpan_of_not fun r' hr' => by
      obtain rfl := Option.some.inj (hr.symm.trans hr')
      rw [hgap]
      exact fun hspan => hcounts ⟨hspan.1, hspan.2.1⟩]
    by_cases hvalid : valid r = true
    · rw [if_pos hvalid, Nat.eq_zero_of_not_pos fun hpos => hcounts ⟨hvalid, hpos⟩]
      rfl
    · rw [if_neg hvalid]
      rfl

/-- **Repeated readings change no sum**, as long as every step is short enough to count. -/
theorem RepeatedCalls.spanSum_eq (f : ρ → ℕ) (hturn : longest < 2 ^ 32) {calls calls' : List (MeterCall ρ)}
    (h : RepeatedCalls calls calls') {ms : ℕ} (hsteps : CallsInSteps longest calls ms)
    (horder : CallsInOrder calls' ms) :
    spanSum f (countedSpans valid longest calls' ms) = spanSum f (countedSpans valid longest calls ms) := by
  induction h generalizing ms with
  | nil => rfl
  | @same calls calls' call h ih =>
      have hforce := (RepeatedCalls.same call h).inForce_eq
      have hlast : lastSpan valid longest (call :: calls') ms
          = lastSpan valid longest (call :: calls) ms := by
        rw [lastSpan, lastSpan, hforce]
      rw [countedSpans, countedSpans, hlast, spanSum_append, spanSum_append]
      cases call with
      | add t r => exact congrArg _ (ih hsteps.2 horder.2)
      | take t => rfl
  | @extra calls calls' r t h hr ih =>
      cases calls with
      | nil =>
          rw [h.inForce_eq] at hr
          cases hr
      | cons call calls =>
          have hle := h.head_le horder.2
          have hms := horder.1
          rw [show (MeterCall.add t r).ms = t from rfl] at hle hms
          have hforce : inForce (call :: calls) = some r := h.inForce_eq.symm.trans hr
          have hfirst := @spanSum_lastSpan ρ valid longest f hturn _ _ _ _ hforce
            (show call.ms ≤ t ∧ t ≤ call.ms + longest from ⟨hle, hms.trans hsteps.1.2⟩)
          have hwhole := @spanSum_lastSpan ρ valid longest f hturn _ _ _ _ hforce hsteps.1
          have hsecond := @spanSum_lastSpan ρ valid longest f hturn _ _ ms _
            (show inForce (MeterCall.add t r :: calls') = some r from rfl)
            ⟨hms, by
              change ms ≤ t + longest
              have := hsteps.1.2
              omega⟩
          have hrest : spanSum f (countedSpans valid longest calls' t)
              = spanSum f (countedSpans valid longest (call :: calls) t) :=
            ih ⟨⟨hle, hms.trans hsteps.1.2⟩, hsteps.2⟩ horder.2
          have hsplit : (if valid r then f r * (ms - t) else 0)
                + (if valid r then f r * (t - call.ms) else 0)
              = if valid r then f r * (ms - call.ms) else 0 := by
            by_cases hvalid : valid r = true
            · rw [if_pos hvalid, if_pos hvalid, if_pos hvalid, ← Nat.mul_add]
              exact congrArg _ (by omega)
            · rw [if_neg hvalid, if_neg hvalid, if_neg hvalid]
          calc spanSum f (countedSpans valid longest (.add t r :: calls') ms)
              = spanSum f (lastSpan valid longest (.add t r :: calls') ms)
                  + spanSum f (countedSpans valid longest calls' t) := spanSum_append _ _ _
            _ = spanSum f (lastSpan valid longest (.add t r :: calls') ms)
                  + (spanSum f (lastSpan valid longest (call :: calls) t)
                  + spanSum f (openSpans valid longest (call :: calls))) := by
                rw [hrest, countedSpans, spanSum_append]
            _ = spanSum f (lastSpan valid longest (call :: calls) ms)
                  + spanSum f (openSpans valid longest (call :: calls)) := by
                rw [hfirst, hwhole, hsecond, ← hsplit, ← Nat.add_assoc]
                rfl
            _ = spanSum f (countedSpans valid longest (call :: calls) ms) := (spanSum_append _ _ _).symm

end Spans

end ArcticController

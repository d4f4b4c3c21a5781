/-
External temperatures are used only while all of them can be trusted, on a clock that wraps.

* `SelectorSystem`, `SelectorCall`, `SelectorStep`: the calls of the selector, in time;
* `SensorPoll`, `pollsOf`, `readings`, `errorsInRow`, `Unbroken`: what became of a sensor's polls;
* `Trusted`, `UnsettledAt`, `AnswersWell`: what is expected of the answers;
* `HidesGap`: a silence that the clock does not show;
* `SlotTracks`, `SettleTracks`, `SelectorTracks`: the invariants;
* `external_trusted`: the answers of every run;
* `external_after_turn`: a silence of one turn of the clock goes unnoticed.
-/
import ArcticController.Base.Runs
import ArcticController.Base.WrapClock
import ArcticController.Perf.SourceSelector

namespace ArcticController

/-! ### Runs -/

/-- A call of the selector; with `evaluate`, what it answered. -/
inductive SelectorCall (C Mode : Type) where
  | reading (slot : Fin kSlotCount) (celsius : C)
  | error (slot : Fin kSlotCount)
  | evaluated (hp : HeatPumpContext Mode) (sel : Selection C)

/-- A call and its moment, on a clock that does not wrap. -/
structure SelectorEvent (C Mode : Type) where
  ms : ℕ
  call : SelectorCall C Mode

/-- The selector, and the moments of the last call and of the last `evaluate`. -/
structure SelectorSystem (C Mode : Type) where
  selector : SourceSelector C Mode
  ms : ℕ
  evaluatedMs : ℕ

/-- `evaluate` is called at least once a minute. -/
def evaluateEveryMs : ℕ := 60000

/-- A moment at which the next call can come. -/
structure SelectorSystem.InTime {C Mode : Type} (s : SelectorSystem C Mode) (ms : ℕ) : Prop where
  later : s.ms ≤ ms
  soon : ms ≤ s.evaluatedMs + evaluateEveryMs

section Steps

variable {C Mode : Type} [DecidableEq Mode]

inductive SelectorStep (ops : CelsiusOps C) (configured : Fin kSlotCount → Bool) :
    SelectorSystem C Mode → Option (SelectorEvent C Mode) → SelectorSystem C Mode → Prop where
  | reading (s : SelectorSystem C Mode) (ms : ℕ) (slot : Fin kSlotCount) (celsius : C)
      (h : s.InTime ms) :
      SelectorStep ops configured s (some ⟨ms, .reading slot celsius⟩)
        { s with selector := s.selector.onReading slot (stamp ms) celsius, ms }
  | error (s : SelectorSystem C Mode) (ms : ℕ) (slot : Fin kSlotCount) (h : s.InTime ms) :
      SelectorStep ops configured s (some ⟨ms, .error slot⟩)
        { s with selector := s.selector.onError slot, ms }
  | evaluate (s : SelectorSystem C Mode) (ms : ℕ) (hp : HeatPumpContext Mode) (h : s.InTime ms) :
      SelectorStep ops configured s
        (some ⟨ms, .evaluated hp (s.selector.evaluate ops (stamp ms) configured hp).2⟩)
        { selector := (s.selector.evaluate ops (stamp ms) configured hp).1, ms, evaluatedMs := ms }

end Steps

/-- A selector that was reset at a moment. -/
def resetSelector (C Mode : Type) (ms : ℕ) : SelectorSystem C Mode :=
  { selector := {}, ms, evaluatedMs := ms }

/-! ### The polls of a sensor -/

/-- A poll of a sensor and what it read, if anything. -/
structure SensorPoll (C : Type) where
  ms : ℕ
  reading : Option C
deriving DecidableEq, Repr

structure SensorReading (C : Type) where
  ms : ℕ
  celsius : C
deriving DecidableEq, Repr

section Polls

variable {C Mode : Type}

def pollOf (slot : Fin kSlotCount) (e : SelectorEvent C Mode) : Option (SensorPoll C) :=
  match e.call with
  | .reading slot' celsius => if slot' = slot then some ⟨e.ms, some celsius⟩ else none
  | .error slot' => if slot' = slot then some ⟨e.ms, none⟩ else none
  | .evaluated _ _ => none

def pollsOf (slot : Fin kSlotCount) (log : List (SelectorEvent C Mode)) : List (SensorPoll C) :=
  log.filterMap (pollOf slot)

def SensorPoll.toReading (p : SensorPoll C) : Option (SensorReading C) :=
  p.reading.map (⟨p.ms, ·⟩)

/-- The good readings. -/
def readings (polls : List (SensorPoll C)) : List (SensorReading C) :=
  polls.filterMap SensorPoll.toReading

/-- The failed polls since the last good reading. -/
def errorsInRow (polls : List (SensorPoll C)) : ℕ :=
  polls.foldl (fun n p => if p.reading.isSome then 0 else n + 1) 0

/-- A run of polls without a stale gap between readings and without `kErrorsToFail` errors in a
row. -/
structure Unbroken (run : List (SensorPoll C)) : Prop where
  gaps : (readings run).IsChain fun a b => b.ms ≤ a.ms + kStaleMs.toNat
  errors : ∀ part, part <+: run → errorsInRow part < kErrorsToFail.toNat

/-- The unbroken run, up to the last poll, of readings since a moment. -/
def GoodRunSince (polls : List (SensorPoll C)) (since : ℕ) : Prop :=
  ∃ before p after, polls = before ++ p :: after ∧ p.reading.isSome ∧ p.ms = since ∧
    Unbroken (p :: after)

/-- The last readings, within the window. -/
structure RecentReadings (polls : List (SensorPoll C)) (ms : ℕ) (recent : List (SensorReading C)) :
    Prop where
  last : recent <:+ readings polls
  within : ∀ r ∈ recent, ms ≤ r.ms + kWindowMs.toNat
  enough : kMinSamples ≤ recent.length

/-- A sensor that can be trusted. -/
structure Trusted (polls : List (SensorPoll C)) (ms : ℕ) : Prop where
  recent : ∃ recent, RecentReadings polls ms recent
  newest : ∃ r, (readings polls).getLast? = some r ∧ ms ≤ r.ms + kStaleMs.toNat
  errors : errorsInRow polls < kErrorsToFail.toNat

/-- The median of a sensor's last readings. -/
def Measured (ops : CelsiusOps C) (polls : List (SensorPoll C)) (ms : ℕ) (celsius : C) : Prop :=
  ∃ recent, RecentReadings polls ms recent ∧ celsius = median ops (recent.map (·.celsius))

/-! ### The answers -/

/-- What `evaluate` was last told of the heat pump. -/
def lastContext (log : List (SelectorEvent C Mode)) : Option (HeatPumpContext Mode) :=
  log.foldl (fun last e => match e.call with | .evaluated hp _ => some hp | _ => last) none

/-- What `evaluate` last answered. -/
def lastSource (log : List (SelectorEvent C Mode)) : PerfSource :=
  log.foldl (fun last e => match e.call with | .evaluated _ sel => sel.source | _ => last) .heatPump

/-- An `evaluate` that saw a start, the end of a defrost or a change of mode. -/
def UnsettledAt [DecidableEq Mode] (log : List (SelectorEvent C Mode)) (ms : ℕ) : Prop :=
  ∃ before hp sel after, log = before ++ ⟨ms, .evaluated hp sel⟩ :: after ∧
    unsettles (lastContext before) hp

/-- What is expected of an answer, after some events. -/
structure AnswersWell [DecidableEq Mode] (ops : CelsiusOps C) (configured : Fin kSlotCount → Bool)
    (before : List (SelectorEvent C Mode)) (ms : ℕ) (hp : HeatPumpContext Mode) (sel : Selection C) :
    Prop where
  trusted : sel.source = .external → ∀ i, configured i → Trusted (pollsOf i before) ms
  forced : ∀ i, configured i → ¬ Trusted (pollsOf i before) ms → sel.source = .heatPump
  recovered : sel.source = .external → lastSource before = .heatPump → ∀ i, configured i →
    ∃ since, GoodRunSince (pollsOf i before) since ∧ since + kRecoverMs.toNat ≤ ms
  supply : sel.source = .external → configured supplySlot →
    Measured ops (pollsOf supplySlot before) ms sel.supplyC
  return' : sel.source = .external → configured returnSlot →
    Measured ops (pollsOf returnSlot before) ms sel.returnC
  neither : sel.source = .heatPump → sel.supplyC = ops.zero ∧ sel.returnC = ops.zero
  settling : sel.source = .external → (sel.settling = true ↔
    ∃ since, UnsettledAt (before ++ [⟨ms, .evaluated hp sel⟩]) since ∧ ms < since + kSettleMs.toNat)

/-- All answers are as expected. -/
def ExternalTrusted [DecidableEq Mode] (ops : CelsiusOps C) (configured : Fin kSlotCount → Bool)
    (log : List (SelectorEvent C Mode)) : Prop :=
  ∀ before ms hp sel after, log = before ++ ⟨ms, .evaluated hp sel⟩ :: after →
    AnswersWell ops configured before ms hp sel

/-- A sensor that has not failed reads again after a stale gap, of whole turns of the clock and
little more. -/
def HidesGap (polls : List (SensorPoll C)) (ms : ℕ) : Prop :=
  errorsInRow polls < kErrorsToFail.toNat ∧ ∃ r, (readings polls).getLast? = some r ∧
    r.ms + kStaleMs.toNat < ms ∧ (ms - r.ms) % 2 ^ 32 ≤ kStaleMs.toNat

/-- No stale gap of a configured sensor is hidden. -/
def GapsShow (configured : Fin kSlotCount → Bool) (log : List (SelectorEvent C Mode)) : Prop :=
  ∀ before ms slot celsius after, log = before ++ ⟨ms, .reading slot celsius⟩ :: after →
    configured slot → ¬ HidesGap (pollsOf slot before) ms

end Polls

/-! ### One sensor -/

/-- A reading in the window. -/
def SensorReading.sample {C : Type} (r : SensorReading C) : WindowSample C := ⟨stamp r.ms, r.celsius⟩

/-- What the selector keeps of a sensor, of the readings up to `ms`, pruned at `evaluatedMs`. -/
structure SlotTracks {C : Type} (h : SlotHealth C) (polls : List (SensorPoll C))
    (ms evaluatedMs : ℕ) : Prop where
  sorted : (readings polls).Pairwise (·.ms ≤ ·.ms)
  past : ∀ r ∈ readings polls, r.ms ≤ ms
  window : ∃ kept, kept <:+ readings polls ∧ h.window.samples = kept.map SensorReading.sample ∧
    ∀ r ∈ kept, evaluatedMs ≤ r.ms + kWindowMs.toNat
  haveOk : h.haveOk = true ↔ readings polls ≠ []
  lastOk : ∀ r, (readings polls).getLast? = some r → h.lastOkMs = stamp r.ms
  errors : h.errors.toNat = min (errorsInRow polls) 255
  good : h.goodRun = true → errorsInRow polls < kErrorsToFail.toNat

/-- The run that the selector believes in is there. -/
def RunTracks {C : Type} (h : SlotHealth C) (polls : List (SensorPoll C)) : Prop :=
  h.goodRun = true → ∃ since, GoodRunSince polls since ∧ h.goodSinceMs = stamp since

section Slot

variable {C : Type} {h : SlotHealth C} {polls : List (SensorPoll C)} {ms evaluatedMs now : ℕ}
  {celsius : C}

lemma readings_good (polls : List (SensorPoll C)) (now : ℕ) (celsius : C) :
    readings (polls ++ [⟨now, some celsius⟩]) = readings polls ++ [⟨now, celsius⟩] := by
  rw [readings, List.filterMap_append]
  rfl

lemma readings_error (polls : List (SensorPoll C)) (now : ℕ) :
    readings (polls ++ [⟨now, none⟩]) = readings polls := by
  rw [readings, List.filterMap_append]
  exact List.append_nil _

lemma errorsInRow_good (polls : List (SensorPoll C)) (now : ℕ) (celsius : C) :
    errorsInRow (polls ++ [⟨now, some celsius⟩]) = 0 := by
  rw [errorsInRow, List.foldl_append]
  rfl

lemma errorsInRow_error (polls : List (SensorPoll C)) (now : ℕ) :
    errorsInRow (polls ++ [⟨now, none⟩]) = errorsInRow polls + 1 := by
  rw [errorsInRow, List.foldl_append]
  rfl

/-- What came before a reading does not matter. -/
lemma errorsInRow_since {p : SensorPoll C} (hp : p.reading.isSome) (before after : List (SensorPoll C)) :
    errorsInRow (before ++ p :: after) = errorsInRow (p :: after) := by
  rw [errorsInRow, errorsInRow, List.foldl_append, List.foldl_cons, List.foldl_cons, if_pos hp,
    if_pos hp]

lemma slotTracks_reset (ms : ℕ) : SlotTracks ({} : SlotHealth C) [] ms ms where
  sorted := .nil
  past _ h := absurd h List.not_mem_nil
  window := ⟨[], List.suffix_refl _, rfl, fun _ h => absurd h List.not_mem_nil⟩
  haveOk := ⟨nofun, fun h => absurd rfl h⟩
  lastOk := nofun
  errors := rfl
  good := nofun

lemma SlotTracks.later (h' : SlotTracks h polls ms evaluatedMs) (hms : ms ≤ now) :
    SlotTracks h polls now evaluatedMs :=
  { h' with past := fun r hr => (h'.past r hr).trans hms }

/-- Pruning within a turn of the clock leaves the readings of the window. -/
lemma prune_kept {w : MedianWindow C} {kept : List (SensorReading C)}
    (hw : w.samples = kept.map SensorReading.sample) (hsorted : kept.Pairwise (·.ms ≤ ·.ms))
    (hpast : ∀ r ∈ kept, r.ms ≤ now) (hturn : ∀ r ∈ kept, now < r.ms + 2 ^ 32) :
    ∃ kept', kept' <:+ kept ∧ (w.prune (stamp now)).samples = kept'.map SensorReading.sample ∧
      ∀ r ∈ kept', now ≤ r.ms + kWindowMs.toNat := by
  refine ⟨kept.dropWhile fun r => stamp now - stamp r.ms > kWindowMs, List.dropWhile_suffix _, ?_, ?_⟩
  · have hsamples : (w.prune (stamp now)).samples
        = w.samples.dropWhile fun s => stamp now - s.tMs > kWindowMs := rfl
    rw [hsamples, hw, List.dropWhile_map]
    rfl
  · clear hw
    induction kept with
    | nil => exact fun r hr => absurd hr List.not_mem_nil
    | cons r kept ih =>
        have hhead := @elapsed_gt_iff _ _ kWindowMs (hpast r List.mem_cons_self)
          (hturn r List.mem_cons_self)
        rw [List.dropWhile_cons]
        split
        · exact ih hsorted.tail (fun r' hr' => hpast r' (List.mem_cons_of_mem _ hr'))
            fun r' hr' => hturn r' (List.mem_cons_of_mem _ hr')
        · next hfresh =>
            have hnow : now ≤ r.ms + kWindowMs.toNat := by
              rw [decide_eq_true_eq, hhead] at hfresh
              omega
            intro r' hr'
            rcases List.mem_cons.mp hr' with rfl | hr'
            · exact hnow
            · have hle := List.rel_of_pairwise_cons hsorted hr'
              omega

/-- Pruning a window, at most one turn of the clock after the last time. -/
lemma SlotTracks.prune_window (h' : SlotTracks h polls ms evaluatedMs) (hms : ms ≤ now)
    (hsoon : now ≤ evaluatedMs + evaluateEveryMs) :
    ∃ kept, kept <:+ readings polls ∧
      (h.window.prune (stamp now)).samples = kept.map SensorReading.sample ∧
      ∀ r ∈ kept, now ≤ r.ms + kWindowMs.toNat := by
  obtain ⟨kept, hsuffix, hkept, hfresh⟩ := h'.window
  have hpast : ∀ r ∈ kept, r.ms ≤ now := fun r hr => (h'.past r (hsuffix.subset hr)).trans hms
  have hevery : evaluateEveryMs = 60000 := rfl
  have hwindow : kWindowMs.toNat = 120000 := rfl
  have hturn : ∀ r ∈ kept, now < r.ms + 2 ^ 32 := by
    intro r hr
    have hr' := hfresh r hr
    omega
  obtain ⟨kept', hsuffix', hrest⟩ :=
    prune_kept hkept (h'.sorted.sublist hsuffix.sublist) hpast hturn
  exact ⟨kept', hsuffix'.trans hsuffix, hrest⟩

lemma SlotTracks.onReading (h' : SlotTracks h polls ms evaluatedMs) (hms : ms ≤ now)
    (hsoon : now ≤ evaluatedMs + evaluateEveryMs) (hevaluated : evaluatedMs ≤ now) :
    SlotTracks (h.onReading (stamp now) celsius) (polls ++ [⟨now, some celsius⟩]) now
      evaluatedMs where
  sorted := by
    rw [readings_good, List.pairwise_append]
    refine ⟨h'.sorted, List.pairwise_singleton _ _, fun r hr r' hr' => ?_⟩
    rw [List.mem_singleton.mp hr']
    exact (h'.past r hr).trans hms
  past r hr := by
    rw [readings_good] at hr
    rcases List.mem_append.mp hr with hr | hr
    · exact (h'.past r hr).trans hms
    · rw [List.mem_singleton.mp hr]
  window := by
    obtain ⟨kept, hsuffix, hkept, hfresh⟩ := h'.prune_window hms hsoon
    -- a full window loses its oldest reading
    have hroom : ∃ kept', kept' <:+ kept ∧
        (h.window.prune (stamp now)).room = kept'.map SensorReading.sample := by
      rw [MedianWindow.room]
      split
      · exact ⟨kept.tail, List.tail_suffix _, by rw [hkept, List.map_tail]⟩
      · exact ⟨kept, List.suffix_refl _, hkept⟩
    obtain ⟨kept', hsuffix', hkept'⟩ := hroom
    refine ⟨kept' ++ [⟨now, celsius⟩], ?_, ?_, fun r hr => ?_⟩
    · rw [readings_good, List.suffix_concat_iff]
      exact .inr ⟨kept', rfl, hsuffix'.trans hsuffix⟩
    · rw [List.map_append, ← hkept']
      rfl
    · rcases List.mem_append.mp hr with hr | hr
      · exact hevaluated.trans (hfresh r (hsuffix'.subset hr))
      · rw [List.mem_singleton.mp hr]
        exact hevaluated.trans (Nat.le_add_right _ _)
  haveOk := by
    rw [readings_good]
    exact ⟨fun _ => by simp, fun _ => rfl⟩
  lastOk r hr := by
    rw [readings_good, List.getLast?_concat] at hr
    rw [← Option.some.inj hr]
    rfl
  errors := by
    rw [errorsInRow_good]
    rfl
  good _ := by
    rw [errorsInRow_good]
    decide

lemma SlotTracks.countError (h' : SlotTracks h polls ms evaluatedMs) :
    h.countError.errors.toNat = min (errorsInRow polls + 1) 255 := by
  have herrors := h'.errors
  have hmax : (255 : UInt8).toNat = 255 := rfl
  rw [SlotHealth.countError]
  dsimp only
  split
  · next hlt =>
      have hlt' := UInt8.lt_iff_toNat_lt.mp hlt
      have hone : (h.errors + 1).toNat = h.errors.toNat + 1 := by
        rw [UInt8.toNat_add]
        exact Nat.mod_eq_of_lt (by show h.errors.toNat + 1 < 2 ^ 8; omega)
      omega
  · next hge =>
      have hge' := UInt8.le_iff_toNat_le.mp (UInt8.not_lt.mp hge)
      omega

/-- Without enough errors in a row, a sensor is not given up. -/
lemma SlotTracks.not_errored (h' : SlotTracks h polls ms evaluatedMs)
    (herrored : h.countError.errored = false) : errorsInRow polls + 1 < kErrorsToFail.toNat := by
  have hcount := h'.countError
  rw [SlotHealth.errored, Bool.or_eq_false_iff, decide_eq_false_iff_not, ge_iff_le,
    UInt8.not_le, UInt8.lt_iff_toNat_lt] at herrored
  have hfail : kErrorsToFail.toNat = 2 := rfl
  omega

lemma SlotTracks.onError (h' : SlotTracks h polls ms evaluatedMs) (hms : ms ≤ now) :
    SlotTracks h.onError (polls ++ [⟨now, none⟩]) now evaluatedMs := by
  have hcount := h'.countError
  have htracks : ∀ goodRun, (goodRun = true → errorsInRow polls + 1 < kErrorsToFail.toNat) →
      SlotTracks { h.countError with goodRun } (polls ++ [⟨now, none⟩]) now evaluatedMs := by
    intro goodRun hgood
    have hreadings := readings_error polls now
    exact {
      sorted := hreadings ▸ h'.sorted
      past := fun r hr => (h'.past r (hreadings ▸ hr)).trans hms
      window := hreadings ▸ h'.window
      haveOk := hreadings ▸ h'.haveOk
      lastOk := fun r hr => h'.lastOk r (hreadings ▸ hr)
      errors := by rw [errorsInRow_error]; exact hcount
      good := by rw [errorsInRow_error]; exact hgood }
  rw [SlotHealth.onError]
  split
  · exact htracks false nofun
  · next hnot => exact htracks h.goodRun fun _ => h'.not_errored (Bool.eq_false_iff.mpr hnot)

lemma SlotTracks.prune (h' : SlotTracks h polls ms evaluatedMs) (hms : ms ≤ now)
    (hsoon : now ≤ evaluatedMs + evaluateEveryMs) :
    SlotTracks (h.prune (stamp now)) polls now now :=
  { h' with
    past := fun r hr => (h'.past r hr).trans hms
    window := h'.prune_window hms hsoon }

/-- A healthy sensor can be trusted. -/
lemma SlotTracks.trusted (h' : SlotTracks h polls now now) (hhealthy : h.healthy (stamp now)) :
    Trusted polls now := by
  rw [SlotHealth.healthy, Bool.and_eq_true, Bool.and_eq_true, Bool.and_eq_true] at hhealthy
  obtain ⟨⟨⟨hok, hgood⟩, hfresh⟩, hsize⟩ := hhealthy
  obtain ⟨kept, hsuffix, hkept, hwithin⟩ := h'.window
  have henough : kMinSamples ≤ kept.length := by
    have hsize' := of_decide_eq_true hsize
    rwa [MedianWindow.size, hkept, List.length_map] at hsize'
  refine ⟨⟨kept, hsuffix, hwithin, henough⟩, ?_, h'.good hgood⟩
  -- the newest reading is the last one of the window, so its age is exact
  obtain ⟨r, hr⟩ := List.getLast?_isSome.mpr (h'.haveOk.mp hok) |> Option.isSome_iff_exists.mp
  have hmem : r ∈ kept := by
    obtain ⟨before, hsplit⟩ := hsuffix
    have hne : kept ≠ [] := List.ne_nil_of_length_pos (lt_of_lt_of_le (by decide) henough)
    rw [← hsplit, List.getLast?_append_of_ne_nil _ hne] at hr
    exact List.mem_of_getLast? hr
  have hwindow : kWindowMs.toNat = 120000 := rfl
  have hrecent := hwithin r hmem
  have hpast := h'.past r (hsuffix.subset hmem)
  refine ⟨r, hr, ?_⟩
  have hnot : ¬ stamp now - stamp r.ms > kStaleMs := by
    rw [← h'.lastOk r hr]
    exact UInt32.not_lt.mpr (of_decide_eq_true hfresh)
  rw [elapsed_gt_iff hpast (by omega)] at hnot
  omega

/-- A sensor that was pruned has the median of its last readings. -/
lemma SlotTracks.measured (h' : SlotTracks h polls now now) (hhealthy : h.healthy (stamp now))
    (ops : CelsiusOps C) : Measured ops polls now (h.window.median ops) := by
  rw [SlotHealth.healthy, Bool.and_eq_true] at hhealthy
  obtain ⟨kept, hsuffix, hkept, hwithin⟩ := h'.window
  have henough : kMinSamples ≤ kept.length := by
    have hsize := of_decide_eq_true hhealthy.2
    rwa [MedianWindow.size, hkept, List.length_map] at hsize
  refine ⟨kept, ⟨hsuffix, hwithin, henough⟩, ?_⟩
  rw [MedianWindow.median, hkept, List.map_map]
  rfl

end Slot

section GoodRun

variable {C : Type} {h : SlotHealth C} {polls : List (SensorPoll C)} {ms evaluatedMs now since : ℕ}
  {celsius : C}

/-- A run with one more poll: every beginning of it is one of the run, or all of it. -/
lemma Unbroken.concat {run : List (SensorPoll C)} {p : SensorPoll C} (h : Unbroken run)
    (hgaps : (readings (run ++ [p])).IsChain fun a b => b.ms ≤ a.ms + kStaleMs.toNat)
    (herrors : errorsInRow (run ++ [p]) < kErrorsToFail.toNat) : Unbroken (run ++ [p]) where
  gaps := hgaps
  errors part hpart := by
    rcases List.prefix_concat_iff.mp hpart with rfl | hpart
    · exact herrors
    · exact h.errors part hpart

lemma goodRunSince_reading (polls : List (SensorPoll C)) (now : ℕ) (celsius : C) :
    GoodRunSince (polls ++ [⟨now, some celsius⟩]) now := by
  refine ⟨polls, _, [], rfl, rfl, rfl, .singleton _, fun part hpart => ?_⟩
  rcases List.prefix_cons_iff.mp hpart with rfl | ⟨rest, rfl, hrest⟩
  · exact (by decide : 0 < kErrorsToFail.toNat)
  · rw [List.prefix_nil.mp hrest]
    exact (by decide : 0 < kErrorsToFail.toNat)

/-- A reading without a stale gap continues the run. -/
lemma GoodRunSince.reading (hrun : GoodRunSince polls since)
    (hgap : ∀ r, (readings polls).getLast? = some r → now ≤ r.ms + kStaleMs.toNat) (celsius : C) :
    GoodRunSince (polls ++ [⟨now, some celsius⟩]) since := by
  obtain ⟨before, p, after, rfl, hp, hsince, hunbroken⟩ := hrun
  refine ⟨before, p, after ++ [⟨now, some celsius⟩], by simp, hp, hsince, ?_⟩
  rw [← List.cons_append]
  refine hunbroken.concat ?_ ?_
  · have hne : readings (p :: after) ≠ [] := by
      obtain ⟨c, hc⟩ := Option.isSome_iff_exists.mp hp
      rw [readings, List.filterMap_cons, SensorPoll.toReading, hc]
      exact List.cons_ne_nil _ _
    rw [readings_good]
    refine hunbroken.gaps.append (.singleton _) fun r hr r' hr' => ?_
    cases hr'
    refine hgap r ?_
    rw [readings, List.filterMap_append]
    exact (List.getLast?_append_of_ne_nil _ hne).trans hr
  · rw [errorsInRow_good]
    decide

/-- A tolerated error does not end the run. -/
lemma GoodRunSince.error (hrun : GoodRunSince polls since)
    (hfew : errorsInRow polls + 1 < kErrorsToFail.toNat) (now : ℕ) :
    GoodRunSince (polls ++ [⟨now, none⟩]) since := by
  obtain ⟨before, p, after, rfl, hp, hsince, hunbroken⟩ := hrun
  refine ⟨before, p, after ++ [⟨now, none⟩], by simp, hp, hsince, ?_⟩
  rw [← List.cons_append]
  refine hunbroken.concat ?_ ?_
  · rw [readings_error]
    exact hunbroken.gaps
  · rw [errorsInRow_since hp] at hfew
    rwa [errorsInRow_error]

lemma RunTracks.onReading (hrun : RunTracks h polls) (h' : SlotTracks h polls ms evaluatedMs)
    (hms : ms ≤ now) (hshows : ¬ HidesGap polls now) (celsius : C) :
    RunTracks (h.onReading (stamp now) celsius) (polls ++ [⟨now, some celsius⟩]) := by
  intro _
  have hsince : (h.onReading (stamp now) celsius).goodSinceMs
      = (h.continueRun (stamp now)).goodSinceMs := rfl
  rw [hsince, SlotHealth.continueRun]
  split
  · exact ⟨now, goodRunSince_reading polls now celsius, rfl⟩
  · next hcontinues =>
      rw [not_or, not_not, not_and] at hcontinues
      obtain ⟨hgood, hshort⟩ := hcontinues
      obtain ⟨since, hrun', hstamp⟩ := hrun hgood
      refine ⟨since, hrun'.reading (fun r hr => ?_) celsius, hstamp⟩
      -- what the clock shows of the gap is not stale, and no gap is hidden
      have hmem := List.mem_of_getLast? hr
      have hok : h.haveOk = true := h'.haveOk.mpr (List.ne_nil_of_mem hmem)
      have hle := UInt32.le_iff_toNat_le.mp (UInt32.not_lt.mp (hshort hok))
      rw [h'.lastOk r hr, elapsed_stamp ((h'.past r hmem).trans hms)] at hle
      by_contra hlong
      exact hshows ⟨h'.good hgood, r, hr, by omega, hle⟩

lemma RunTracks.onError (hrun : RunTracks h polls) (h' : SlotTracks h polls ms evaluatedMs)
    (now : ℕ) : RunTracks h.onError (polls ++ [⟨now, none⟩]) := by
  rw [SlotHealth.onError]
  split
  · exact nofun
  · next hnot =>
      intro hgood
      obtain ⟨since, hrun', hstamp⟩ := hrun hgood
      exact ⟨since, hrun'.error (h'.not_errored (Bool.eq_false_iff.mpr hnot)) now, hstamp⟩

/-- A sensor that seems to have read cleanly for a while has. -/
lemma RunTracks.recovered (hrun : RunTracks h polls) (h' : SlotTracks h polls ms evaluatedMs)
    (hms : ms ≤ now) (hgood : h.goodRun = true) (hlong : h.recovered (stamp now)) :
    ∃ since, GoodRunSince polls since ∧ since + kRecoverMs.toNat ≤ now := by
  obtain ⟨since, hrun', hstamp⟩ := hrun hgood
  obtain ⟨before, p, after, hpolls, hp, hsince, -⟩ := id hrun'
  have hpast : since ≤ now := by
    obtain ⟨c, hc⟩ := Option.isSome_iff_exists.mp hp
    have hmem : (⟨p.ms, c⟩ : SensorReading C) ∈ readings polls := by
      rw [readings, List.mem_filterMap]
      exact ⟨p, by rw [hpolls]; simp, by rw [SensorPoll.toReading, hc]; rfl⟩
    rw [← hsince]
    exact (h'.past _ hmem).trans hms
  refine ⟨since, hrun', elapsed_ge hpast ?_⟩
  rw [SlotHealth.recovered, Bool.not_eq_true', decide_eq_false_iff_not, hstamp] at hlong
  exact UInt32.not_lt.mp hlong

end GoodRun

/-! ### Settling -/

/-- The settling, as the last `evaluate` left it, is that after the latest transition. -/
structure SettleTracks {C Mode : Type} [DecidableEq Mode] (s : SourceSelector C Mode)
    (log : List (SelectorEvent C Mode)) (evaluatedMs : ℕ) : Prop where
  lastHp : s.lastHp = lastContext log
  active : s.settleActive = true → ∃ since, UnsettledAt log since ∧
    s.settleUntilMs = stamp (since + kSettleMs.toNat) ∧ since ≤ evaluatedMs ∧
    evaluatedMs < since + kSettleMs.toNat ∧ ∀ since', UnsettledAt log since' → since' ≤ since
  idle : s.settleActive = false → ∀ since, UnsettledAt log since →
    since + kSettleMs.toNat ≤ evaluatedMs

section Last

variable {C Mode : Type} {log : List (SelectorEvent C Mode)} {e : SelectorEvent C Mode}

lemma lastContext_evaluated (log : List (SelectorEvent C Mode)) (now : ℕ)
    (hp : HeatPumpContext Mode) (sel : Selection C) :
    lastContext (log ++ [⟨now, .evaluated hp sel⟩]) = some hp := by
  rw [lastContext, List.foldl_append]
  rfl

lemma lastContext_other (he : ∀ hp sel, e.call ≠ .evaluated hp sel) :
    lastContext (log ++ [e]) = lastContext log := by
  rw [lastContext, List.foldl_append]
  cases hcall : e.call with
  | evaluated hp sel => exact absurd hcall (he hp sel)
  | reading slot celsius | error slot =>
      rw [List.foldl_cons, hcall]
      rfl

lemma lastSource_other (he : ∀ hp sel, e.call ≠ .evaluated hp sel) :
    lastSource (log ++ [e]) = lastSource log := by
  rw [lastSource, List.foldl_append]
  cases hcall : e.call with
  | evaluated hp sel => exact absurd hcall (he hp sel)
  | reading slot celsius | error slot =>
      rw [List.foldl_cons, hcall]
      rfl

lemma lastSource_evaluated (log : List (SelectorEvent C Mode)) (now : ℕ)
    (hp : HeatPumpContext Mode) (sel : Selection C) :
    lastSource (log ++ [⟨now, .evaluated hp sel⟩]) = sel.source := by
  rw [lastSource, List.foldl_append]
  rfl

end Last

section Settle

variable {C Mode : Type} [DecidableEq Mode] {s : SourceSelector C Mode}
  {log : List (SelectorEvent C Mode)} {e : SelectorEvent C Mode} {evaluatedMs now since : ℕ}
  {hp : HeatPumpContext Mode} {sel : Selection C}

lemma unsettledAt_evaluated : UnsettledAt (log ++ [⟨now, .evaluated hp sel⟩]) since ↔
    UnsettledAt log since ∨ (since = now ∧ unsettles (lastContext log) hp) := by
  constructor
  · rintro ⟨before, hp', sel', after, hlog, hunsettles⟩
    rcases split_step (e := some _) hlog with ⟨he, rfl, -⟩ | ⟨after', hlog', -⟩
    · cases he
      exact .inr ⟨rfl, hunsettles⟩
    · exact .inl ⟨before, hp', sel', after', hlog', hunsettles⟩
  · rintro (⟨before, hp', sel', after, rfl, hunsettles⟩ | ⟨rfl, hunsettles⟩)
    · exact ⟨before, hp', sel', after ++ [⟨now, .evaluated hp sel⟩], by simp, hunsettles⟩
    · exact ⟨log, hp, sel, [], rfl, hunsettles⟩

/-- Other calls see no transition. -/
lemma unsettledAt_other (he : ∀ hp sel, e.call ≠ .evaluated hp sel) :
    UnsettledAt (log ++ [e]) since ↔ UnsettledAt log since := by
  constructor
  · rintro ⟨before, hp, sel, after, hlog, hunsettles⟩
    rcases split_step (e := some e) hlog with ⟨he', -, -⟩ | ⟨after', hlog', -⟩
    · cases he'
      exact absurd rfl (he hp sel)
    · exact ⟨before, hp, sel, after', hlog', hunsettles⟩
  · rintro ⟨before, hp, sel, after, rfl, hunsettles⟩
    exact ⟨before, hp, sel, after ++ [e], by simp, hunsettles⟩

lemma SettleTracks.other (h : SettleTracks s log evaluatedMs)
    (he : ∀ hp sel, e.call ≠ .evaluated hp sel) (slots : Fin kSlotCount → SlotHealth C) :
    SettleTracks { s with slots } (log ++ [e]) evaluatedMs where
  lastHp := h.lastHp.trans (lastContext_other he).symm
  active hactive := by
    obtain ⟨since, hsince, hrest⟩ := h.active hactive
    refine ⟨since, (unsettledAt_other he).mpr hsince, hrest.1, hrest.2.1, hrest.2.2.1, ?_⟩
    exact fun since' h' => hrest.2.2.2 since' ((unsettledAt_other he).mp h')
  idle hidle since hsince := h.idle hidle since ((unsettledAt_other he).mp hsince)

/-- Whether the settling goes on, `kSettleMs` after the latest transition. -/
lemma endSettling_tracks (hlast : s.lastHp = lastContext log) (hactive : s.settleActive = true)
    (hsince : UnsettledAt log since) (huntil : s.settleUntilMs = stamp (since + kSettleMs.toNat))
    (hpast : since ≤ now) (hnear : now < since + kSettleMs.toNat + 2 ^ 31)
    (hlatest : ∀ since', UnsettledAt log since' → since' ≤ since) :
    SettleTracks (s.endSettling (stamp now)) log now := by
  have hsettle : kSettleMs.toNat = 180000 := rfl
  have hpassed := deadline_passed_iff (a := since + kSettleMs.toNat) (b := now) (by omega) hnear
  rw [SourceSelector.endSettling, huntil]
  split
  · next hover =>
      refine ⟨hlast, nofun, fun _ since' h' => ?_⟩
      have hle := hlatest since' h'
      have hlate := hpassed.mp hover.2
      omega
  · next hgoes =>
      have hbefore : ¬ since + kSettleMs.toNat ≤ now := fun hle =>
        hgoes ⟨hactive, hpassed.mpr hle⟩
      refine ⟨hlast, fun _ => ⟨since, hsince, huntil, hpast, by omega, hlatest⟩, fun hidle => ?_⟩
      rw [hactive] at hidle
      cases hidle

/-- **The step lemma** of the settling. -/
lemma SettleTracks.track (h : SettleTracks s log evaluatedMs) (hlater : evaluatedMs ≤ now)
    (hsoon : now ≤ evaluatedMs + evaluateEveryMs)
    (hpast : ∀ since, UnsettledAt log since → since ≤ now) (hp : HeatPumpContext Mode)
    (sel : Selection C) :
    SettleTracks (s.trackTransitions (stamp now) hp) (log ++ [⟨now, .evaluated hp sel⟩]) now := by
  have hcontext := (lastContext_evaluated log now hp sel).symm
  have hsettle : kSettleMs.toNat = 180000 := rfl
  have hevery : evaluateEveryMs = 60000 := rfl
  rw [SourceSelector.trackTransitions]
  by_cases hunsettles : unsettles s.lastHp hp
  · have hnow : UnsettledAt (log ++ [⟨now, .evaluated hp sel⟩]) now :=
      unsettledAt_evaluated.mpr (.inr ⟨rfl, h.lastHp ▸ hunsettles⟩)
    rw [if_pos hunsettles]
    refine endSettling_tracks hcontext rfl hnow (stamp_add now kSettleMs) le_rfl (by omega) ?_
    intro since' h'
    rcases unsettledAt_evaluated.mp h' with hold | ⟨rfl, -⟩
    · exact hpast since' hold
    · exact le_rfl
  · have hsame : ∀ since, UnsettledAt (log ++ [⟨now, .evaluated hp sel⟩]) since ↔
        UnsettledAt log since := fun since => by
      rw [unsettledAt_evaluated, ← h.lastHp]
      exact or_iff_left fun hboth => hunsettles hboth.2
    rw [if_neg hunsettles]
    rcases Bool.eq_false_or_eq_true s.settleActive with hactive | hidle
    · obtain ⟨since, hsince, huntil, hle, hlt, hlatest⟩ := h.active hactive
      refine endSettling_tracks hcontext hactive ((hsame since).mpr hsince) huntil
        (hle.trans hlater) (by omega) fun since' h' => hlatest since' ((hsame since').mp h')
    · have hnot : ¬ (s.settleActive = true ∧ 0 ≤ (stamp now - s.settleUntilMs).toInt32) := by
        rw [hidle]
        exact fun hboth => Bool.false_ne_true hboth.1
      rw [SourceSelector.endSettling, if_neg hnot]
      refine ⟨hcontext, fun hactive => ?_, fun _ since hsince => ?_⟩
      · exact absurd (hidle.symm.trans hactive) Bool.false_ne_true
      · exact (h.idle hidle since ((hsame since).mp hsince)).trans hlater

/-- The settling of an answer at `now`. -/
lemma SettleTracks.settling_iff (h : SettleTracks s log now) :
    s.settleActive = true ↔ ∃ since, UnsettledAt log since ∧ now < since + kSettleMs.toNat := by
  constructor
  · intro hactive
    obtain ⟨since, hsince, -, -, hlt, -⟩ := h.active hactive
    exact ⟨since, hsince, hlt⟩
  · rintro ⟨since, hsince, hlt⟩
    by_contra hidle
    have hle := h.idle (Bool.eq_false_iff.mpr hidle) since hsince
    omega

end Settle

/-! ### What `evaluate` answers -/

section Evaluate

variable {C Mode : Type} [DecidableEq Mode] {ops : CelsiusOps C} {configured : Fin kSlotCount → Bool}
  {s : SourceSelector C Mode} {nowMs : UInt32} {hp : HeatPumpContext Mode}

lemma slots_trackTransitions (s : SourceSelector C Mode) (nowMs : UInt32)
    (hp : HeatPumpContext Mode) : (s.trackTransitions nowMs hp).slots = s.slots := by
  rw [SourceSelector.trackTransitions, SourceSelector.endSettling]
  by_cases hunsettles : unsettles s.lastHp hp
  · rw [if_pos hunsettles]
    split <;> rfl
  · rw [if_neg hunsettles]
    split <;> rfl

lemma current_trackTransitions (s : SourceSelector C Mode) (nowMs : UInt32)
    (hp : HeatPumpContext Mode) : (s.trackTransitions nowMs hp).current = s.current := by
  rw [SourceSelector.trackTransitions, SourceSelector.endSettling]
  by_cases hunsettles : unsettles s.lastHp hp
  · rw [if_pos hunsettles]
    split <;> rfl
  · rw [if_neg hunsettles]
    split <;> rfl

/-- What `evaluate` leaves and answers. -/
structure EvaluateAnswers (ops : CelsiusOps C) (configured : Fin kSlotCount → Bool)
    (s : SourceSelector C Mode) (nowMs : UInt32) (hp : HeatPumpContext Mode)
    (s' : SourceSelector C Mode) (sel : Selection C) : Prop where
  slots : ∀ i, s'.slots i = (s.slots i).prune nowMs
  source : sel.source = s'.current
  lastHp : s'.lastHp = (s.trackTransitions nowMs hp).lastHp
  settleActive : s'.settleActive = (s.trackTransitions nowMs hp).settleActive
  settleUntil : s'.settleUntilMs = (s.trackTransitions nowMs hp).settleUntilMs
  healthy : sel.source = .external → ∀ i, configured i → ((s.slots i).prune nowMs).healthy nowMs
  recovered : sel.source = .external → s.current = .heatPump → ∀ i, configured i →
    ((s.slots i).prune nowMs).recovered nowMs
  supply : sel.source = .external → configured supplySlot →
    sel.supplyC = ((s.slots supplySlot).prune nowMs).window.median ops
  return' : sel.source = .external → configured returnSlot →
    sel.returnC = ((s.slots returnSlot).prune nowMs).window.median ops
  neither : sel.source = .heatPump → sel.supplyC = ops.zero ∧ sel.returnC = ops.zero
  settling : sel.source = .external → sel.settling = s'.settleActive

omit [DecidableEq Mode] in
/-- The selector chooses the external source only while all sensors are healthy, and turns to it
only once all have recovered. -/
lemma choose_external {s : SourceSelector C Mode} (h : s.choose nowMs configured = .external) :
    (∀ i, configured i → (s.slots i).healthy nowMs) ∧
      (s.current = .heatPump → ∀ i, configured i → (s.slots i).recovered nowMs) := by
  rw [SourceSelector.choose] at h
  split at h
  · cases h
  · next hall =>
      have hhealthy := of_decide_eq_true (not_not.mp hall)
      refine ⟨hhealthy, fun hcurrent => ?_⟩
      rw [hcurrent] at h
      split at h
      · next hboth =>
          have hrecovered := of_decide_eq_true hboth.2
          exact fun i hi => hrecovered i hi (hhealthy i hi)
      · cases h

lemma evaluate_spec (ops : CelsiusOps C) (configured : Fin kSlotCount → Bool)
    (s : SourceSelector C Mode) (nowMs : UInt32) (hp : HeatPumpContext Mode) :
    EvaluateAnswers ops configured s nowMs hp (s.evaluate ops nowMs configured hp).1
      (s.evaluate ops nowMs configured hp).2 := by
  have hslots : ∀ i, ((s.trackTransitions nowMs hp).prune nowMs).slots i
      = (s.slots i).prune nowMs := fun i => by
    rw [SourceSelector.prune, slots_trackTransitions]
  have hcurrent : ((s.trackTransitions nowMs hp).prune nowMs).current = s.current :=
    current_trackTransitions s nowMs hp
  rw [SourceSelector.evaluate]
  dsimp only
  split
  · exact ⟨hslots, rfl, rfl, rfl, rfl, nofun, nofun, nofun, nofun, fun _ => ⟨rfl, rfl⟩, nofun⟩
  · generalize hs : (s.trackTransitions nowMs hp).prune nowMs = p at *
    have hactive : p.settleActive = (s.trackTransitions nowMs hp).settleActive := by
      rw [← hs]
      rfl
    have hhp : p.lastHp = (s.trackTransitions nowMs hp).lastHp := by
      rw [← hs]
      rfl
    have huntil : p.settleUntilMs = (s.trackTransitions nowMs hp).settleUntilMs := by
      rw [← hs]
      rfl
    have hexternal : p.choose nowMs configured = .external →
        (∀ i, configured i → ((s.slots i).prune nowMs).healthy nowMs) ∧
          (s.current = .heatPump → ∀ i, configured i →
            ((s.slots i).prune nowMs).recovered nowMs) := by
      intro hchoose
      obtain ⟨hhealthy, hrecovered⟩ := choose_external hchoose
      rw [hcurrent] at hrecovered
      refine ⟨fun i hi => ?_, fun hpump i hi => ?_⟩
      · rw [← hslots i]
        exact hhealthy i hi
      · rw [← hslots i]
        exact hrecovered hpump i hi
    refine ⟨hslots, rfl, hhp, hactive, huntil, fun h => (hexternal h).1, fun h => (hexternal h).2,
      fun h hsupply => ?_, fun h hreturn => ?_, fun h => ?_, fun h => ?_⟩
    · rw [← hslots supplySlot]
      exact if_pos ⟨h, hsupply⟩
    · rw [← hslots returnSlot]
      exact if_pos ⟨h, hreturn⟩
    · have hnot : p.choose nowMs configured ≠ .external := by
        intro hext
        cases h.symm.trans hext
      exact ⟨if_neg fun hboth => hnot hboth.1, if_neg fun hboth => hnot hboth.1⟩
    · have hext : p.choose nowMs configured = .external := h
      show (decide (p.choose nowMs configured = .external) && p.settleActive) = p.settleActive
      rw [decide_eq_true hext, Bool.true_and]

end Evaluate

/-! ### Whole runs -/

/-- The invariant of a run. -/
structure SelectorTracks {C Mode : Type} [DecidableEq Mode] (s : SelectorSystem C Mode)
    (log : List (SelectorEvent C Mode)) : Prop where
  evaluated : s.evaluatedMs ≤ s.ms
  past : ∀ e ∈ log, e.ms ≤ s.ms
  slots : ∀ i, SlotTracks (s.selector.slots i) (pollsOf i log) s.ms s.evaluatedMs
  current : s.selector.current = lastSource log
  settle : SettleTracks s.selector log s.evaluatedMs

/-- The runs that the selector believes in are there. -/
def RunsTrack {C Mode : Type} (configured : Fin kSlotCount → Bool) (s : SelectorSystem C Mode)
    (log : List (SelectorEvent C Mode)) : Prop :=
  ∀ i, configured i → RunTracks (s.selector.slots i) (pollsOf i log)

section Runs

variable {C Mode : Type} [DecidableEq Mode] {ops : CelsiusOps C} {configured : Fin kSlotCount → Bool}
  {s s' : SelectorSystem C Mode} {log : List (SelectorEvent C Mode)} {e : SelectorEvent C Mode}
  {now : ℕ}

lemma selectorTracks_reset (ms : ℕ) : SelectorTracks (resetSelector C Mode ms) [] where
  evaluated := le_rfl
  past _ h := absurd h List.not_mem_nil
  slots _ := slotTracks_reset ms
  current := rfl
  settle := by
    refine ⟨rfl, nofun, fun _ since => ?_⟩
    rintro ⟨before, hp, sel, after, hlog, -⟩
    exact absurd hlog (by simp)

omit [DecidableEq Mode] in
lemma runsTrack_reset (ms : ℕ) : RunsTrack configured (resetSelector C Mode ms) [] :=
  fun _ _ => nofun

omit [DecidableEq Mode] in
lemma pollsOf_concat (i : Fin kSlotCount) (log : List (SelectorEvent C Mode))
    (e : SelectorEvent C Mode) : pollsOf i (log ++ [e]) = pollsOf i log ++ (pollOf i e).toList := by
  rw [pollsOf, List.filterMap_append, List.filterMap_cons]
  cases pollOf i e <;> rfl

lemma SelectorTracks.past_concat (h : SelectorTracks s log) (hlater : s.ms ≤ now) {call} :
    ∀ e ∈ log ++ [⟨now, call⟩], e.ms ≤ now := by
  intro e he
  rcases List.mem_append.mp he with he | he
  · exact (h.past e he).trans hlater
  · rw [List.mem_singleton.mp he]

/-- A poll of one sensor. -/
lemma SelectorTracks.polled (h : SelectorTracks s log) (hlater : s.ms ≤ now)
    {call : SelectorCall C Mode} (hcall : ∀ hp sel, call ≠ .evaluated hp sel) {slot : Fin kSlotCount}
    {health : SlotHealth C} {poll : SensorPoll C}
    (hpoll : ∀ i, pollOf i ⟨now, call⟩ = if slot = i then some poll else none)
    (hslot : SlotTracks health (pollsOf slot log ++ [poll]) now s.evaluatedMs) :
    SelectorTracks { s with
        selector := { s.selector with slots := Function.update s.selector.slots slot health }
        ms := now }
      (log ++ [⟨now, call⟩]) where
  evaluated := h.evaluated.trans hlater
  past := h.past_concat hlater
  slots i := by
    rw [pollsOf_concat, hpoll]
    by_cases hi : slot = i
    · subst hi
      rw [if_pos rfl]
      dsimp only
      rw [Function.update_self]
      exact hslot
    · rw [if_neg hi]
      dsimp only
      rw [Function.update_of_ne (Ne.symm hi), Option.toList_none, List.append_nil]
      exact (h.slots i).later hlater
  current := h.current.trans (lastSource_other hcall).symm
  settle := h.settle.other hcall _

/-- **The step lemma**: what every call keeps. -/
lemma SelectorTracks.step (h : SelectorTracks s log)
    (hstep : SelectorStep ops configured s (some e) s') : SelectorTracks s' (log ++ [e]) := by
  cases hstep with
  | reading ms slot celsius htime =>
      exact h.polled htime.later (by rintro hp sel ⟨⟩) (fun _ => rfl)
        ((h.slots slot).onReading htime.later htime.soon (h.evaluated.trans htime.later))
  | error ms slot htime =>
      exact h.polled htime.later (by rintro hp sel ⟨⟩) (fun _ => rfl) ((h.slots slot).onError htime.later)
  | evaluate ms hp htime =>
      have hspec := evaluate_spec ops configured s.selector (stamp ms) hp
      generalize s.selector.evaluate ops (stamp ms) configured hp = r at *
      have hunsettled : ∀ since, UnsettledAt log since → since ≤ ms := by
        rintro since ⟨before, hp', sel', after, rfl, -⟩
        exact (h.past ⟨since, .evaluated hp' sel'⟩ (by simp)).trans htime.later
      have hsettle := h.settle.track (h.evaluated.trans htime.later) htime.soon hunsettled hp r.2
      refine ⟨le_rfl, h.past_concat htime.later, fun i => ?_, ?_, ?_⟩
      · rw [pollsOf_concat]
        show SlotTracks (r.1.slots i) (pollsOf i log ++ []) ms ms
        rw [List.append_nil, hspec.slots i]
        exact (h.slots i).prune htime.later htime.soon
      · rw [lastSource_evaluated]
        exact hspec.source.symm
      · refine ⟨hspec.lastHp.trans hsettle.lastHp, fun hactive => ?_, fun hidle => ?_⟩
        · obtain ⟨since, hsince, huntil, hrest⟩ := hsettle.active (hspec.settleActive ▸ hactive)
          exact ⟨since, hsince, hspec.settleUntil.trans huntil, hrest⟩
        · exact hsettle.idle (hspec.settleActive ▸ hidle)

/-- **The step lemma** of the good runs. -/
lemma RunsTrack.step (hruns : RunsTrack configured s log) (h : SelectorTracks s log)
    (hstep : SelectorStep ops configured s (some e) s')
    (hshows : ∀ slot celsius, e.call = .reading slot celsius → configured slot →
      ¬ HidesGap (pollsOf slot log) e.ms) : RunsTrack configured s' (log ++ [e]) := by
  intro i hi
  have hrun := hruns i hi
  rw [pollsOf_concat]
  cases hstep with
  | reading ms slot celsius htime =>
      show RunTracks (Function.update s.selector.slots slot _ i)
        (pollsOf i log ++ (if slot = i then some _ else none : Option (SensorPoll C)).toList)
      by_cases hslot : slot = i
      · subst hslot
        rw [if_pos rfl, Function.update_self]
        exact hrun.onReading (h.slots slot) htime.later (hshows slot celsius rfl hi) celsius
      · rw [if_neg hslot, Function.update_of_ne (Ne.symm hslot), Option.toList_none, List.append_nil]
        exact hrun
  | error ms slot htime =>
      show RunTracks (Function.update s.selector.slots slot _ i)
        (pollsOf i log ++ (if slot = i then some _ else none : Option (SensorPoll C)).toList)
      by_cases hslot : slot = i
      · subst hslot
        rw [if_pos rfl, Function.update_self]
        exact hrun.onError (h.slots slot) ms
      · rw [if_neg hslot, Function.update_of_ne (Ne.symm hslot), Option.toList_none, List.append_nil]
        exact hrun
  | evaluate ms hp htime =>
      have hslots := (evaluate_spec ops configured s.selector (stamp ms) hp).slots i
      show RunTracks ((s.selector.evaluate ops (stamp ms) configured hp).1.slots i)
        (pollsOf i log ++ [])
      rw [List.append_nil, hslots]
      exact hrun

lemma selector_not_silent (hstep : SelectorStep ops configured s none s') : False := by
  cases hstep

/-- **The run lemma**. -/
lemma selectorTracks_of_run {ms : ℕ} (hrun : Run (SelectorStep ops configured)
    (resetSelector C Mode ms) s log) :
    SelectorTracks s log ∧ (GapsShow configured log → RunsTrack configured s log) := by
  refine hrun.invariant (I := fun s log =>
      SelectorTracks s log ∧ (GapsShow configured log → RunsTrack configured s log))
    ⟨selectorTracks_reset ms, fun _ => runsTrack_reset ms⟩ fun s log e s' _ h hstep => ?_
  cases e with
  | none => exact (selector_not_silent hstep).elim
  | some e =>
      refine ⟨h.1.step hstep, fun hshows => ?_⟩
      have hbefore : GapsShow configured log := fun before ms slot celsius after hlog =>
        hshows before ms slot celsius (after ++ [e]) (by rw [hlog]; simp)
      refine (h.2 hbefore).step h.1 hstep fun slot celsius hcall => ?_
      refine hshows log e.ms slot celsius [] ?_
      rw [← hcall]
      rfl

/-- The answer of one `evaluate`. -/
lemma SelectorTracks.answers (h : SelectorTracks s log) (hruns : RunsTrack configured s log)
    {hp : HeatPumpContext Mode} {sel : Selection C}
    (hstep : SelectorStep ops configured s (some ⟨now, .evaluated hp sel⟩) s') :
    AnswersWell ops configured log now hp sel := by
  have hafter := (h.step hstep).settle
  cases hstep with
  | evaluate ms hp htime =>
      have hspec := evaluate_spec ops configured s.selector (stamp now) hp
      generalize s.selector.evaluate ops (stamp now) configured hp = r at *
      have hslots := fun i => (h.slots i).prune htime.later htime.soon
      have htrusted : r.2.source = .external → ∀ i, configured i → Trusted (pollsOf i log) now :=
        fun hext i hi => (hslots i).trusted (hspec.healthy hext i hi)
      refine ⟨htrusted, fun i hi hnot => ?_, fun hext hpump i hi => ?_, fun hext hi => ?_,
        fun hext hi => ?_, hspec.neither, fun hext => ?_⟩
      · cases hsource : r.2.source with
        | heatPump => rfl
        | external => exact absurd (htrusted hsource i hi) hnot
      · have hhealthy := hspec.healthy hext i hi
        rw [SlotHealth.healthy, Bool.and_eq_true, Bool.and_eq_true, Bool.and_eq_true] at hhealthy
        have hrun : RunTracks ((s.selector.slots i).prune (stamp now)) (pollsOf i log) := hruns i hi
        exact hrun.recovered (hslots i) le_rfl hhealthy.1.1.2
          (hspec.recovered hext (h.current.trans hpump) i hi)
      · rw [hspec.supply hext hi]
        exact (hslots supplySlot).measured (hspec.healthy hext supplySlot hi) ops
      · rw [hspec.return' hext hi]
        exact (hslots returnSlot).measured (hspec.healthy hext returnSlot hi) ops
      · rw [hspec.settling hext]
        exact hafter.settling_iff

/-- **External temperatures only while all are trustworthy.** In every run in which no stale gap of
a configured sensor is hidden, the external source is answered only if every configured sensor has
enough recent readings, a fresh one, and not too many errors since; it is turned to only after every
one has read cleanly for `kRecoverMs`; the temperatures are those of the sensors or none is; and the
settling lasts `kSettleMs` after a transition. -/
theorem external_trusted {ms : ℕ} (hrun : Run (SelectorStep ops configured)
    (resetSelector C Mode ms) s log) (hshows : GapsShow configured log) :
    ExternalTrusted ops configured log := by
  intro before now hp sel after hlog
  obtain ⟨s₁, s₂, hrun₁, hstep, -⟩ := hrun.event before ⟨now, .evaluated hp sel⟩ after hlog
  have hbefore : GapsShow configured before := fun before' ms' slot celsius after' hbefore' =>
    hshows before' ms' slot celsius (after' ++ ⟨now, .evaluated hp sel⟩ :: after)
      (by rw [hlog, hbefore']; simp)
  obtain ⟨htracks, hruns⟩ := selectorTracks_of_run hrun₁
  exact htracks.answers (hruns hbefore) hstep

end Runs

section Short

variable {C Mode : Type} {configured : Fin kSlotCount → Bool} {log : List (SelectorEvent C Mode)}

/-- Within the first turn of the clock no gap is hidden. -/
lemma gapsShow_of_first_turn (h : ∀ e ∈ log, e.ms < 2 ^ 32) : GapsShow configured log := by
  rintro before ms slot celsius after rfl - ⟨-, r, -, hlong, hhidden⟩
  have hms : ms < 2 ^ 32 := h ⟨ms, .reading slot celsius⟩ (by simp)
  rw [Nat.mod_eq_of_lt (by omega)] at hhidden
  omega

end Short

/-- Temperatures in whole degrees. -/
def wholeDegrees : CelsiusOps ℕ := ⟨fun a b => decide (a ≤ b), fun a b => (a + b) / 2, 0⟩

def bothSlots : Fin kSlotCount → Bool := fun _ => true

def idleHp : HeatPumpContext Unit := ⟨false, false, ()⟩

/-- Readings of both sensors at the same moment. -/
lemma both_read {s : SelectorSystem ℕ Unit} {log : List (SelectorEvent ℕ Unit)}
    (hrun : Run (SelectorStep wholeDegrees bothSlots) (resetSelector ℕ Unit 0) s log) (now : ℕ)
    (htime : s.InTime now) :
    Run (SelectorStep wholeDegrees bothSlots) (resetSelector ℕ Unit 0)
      { s with
        selector := (s.selector.onReading supplySlot (stamp now) 35).onReading returnSlot
          (stamp now) 30
        ms := now }
      (log ++ [⟨now, .reading supplySlot 35⟩, ⟨now, .reading returnSlot 30⟩]) := by
  have hfirst := hrun.step (.reading s now supplySlot 35 htime)
  have hsecond := hfirst.step (.reading _ now returnSlot 30 ⟨le_rfl, htime.soon⟩)
  rw [List.append_assoc] at hsecond
  exact hsecond

lemma lastSource_both (log : List (SelectorEvent ℕ Unit)) (now : ℕ) :
    lastSource (log ++ [⟨now, .reading supplySlot 35⟩, ⟨now, .reading returnSlot 30⟩])
      = lastSource log := by
  rw [lastSource, List.foldl_append]
  rfl

lemma pollsOf_both (log : List (SelectorEvent ℕ Unit)) (now : ℕ) :
    pollsOf supplySlot (log ++ [⟨now, .reading supplySlot 35⟩, ⟨now, .reading returnSlot 30⟩])
      = pollsOf supplySlot log ++ [⟨now, some 35⟩] := by
  rw [pollsOf, List.filterMap_append]
  rfl

/-- Three readings of both sensors within a minute: the external source is trusted. -/
theorem external_trusted_first_minute :
    ∃ s log, Run (SelectorStep wholeDegrees bothSlots) (resetSelector ℕ Unit 0) s log ∧
      GapsShow bothSlots log ∧ lastSource log = .external ∧
      ExternalTrusted wholeDegrees bothSlots log := by
  have hfirst := both_read .start 0 ⟨by decide, by decide⟩
  have hsecond := both_read hfirst 30000 ⟨by decide, by decide⟩
  have hthird := both_read hsecond 60000 ⟨by decide, by decide⟩
  have hrun := hthird.step (.evaluate _ 60000 idleHp ⟨by decide, by decide⟩)
  have hshows : GapsShow bothSlots _ := gapsShow_of_first_turn fun e he =>
    lt_of_le_of_lt ((selectorTracks_of_run hrun).1.past e he) (by decide : 60000 < 2 ^ 32)
  exact ⟨_, _, hrun, hshows, by decide +kernel, external_trusted hrun hshows⟩

/-! ### A silence of one turn -/

/-- A sensor that read at 0 and 60000 ms, and not since. -/
def silentSlot : SlotHealth ℕ := { haveOk := true, lastOkMs := 60000, goodRun := true }

/-- The selector while both sensors are silent. -/
def silentSelector : SourceSelector ℕ Unit := { slots := fun _ => silentSlot, lastHp := some idleHp }

/-- While the sensors are silent, nothing changes. -/
lemma evaluate_silent (nowMs : UInt32) :
    (silentSelector.evaluate wholeDegrees nowMs bothSlots idleHp).1 = silentSelector ∧
      (silentSelector.evaluate wholeDegrees nowMs bothSlots idleHp).2.source = .heatPump := by
  have htrack : (silentSelector.trackTransitions nowMs idleHp).prune nowMs = silentSelector := rfl
  have hsick : silentSelector.allHealthy nowMs bothSlots = false := by
    refine decide_eq_false fun h => ?_
    have hhealthy := h supplySlot rfl
    rw [SlotHealth.healthy, Bool.and_eq_true] at hhealthy
    exact absurd hhealthy.2 (by decide)
  have hchoose : silentSelector.choose nowMs bothSlots = .heatPump := by
    rw [SourceSelector.choose, if_pos (by rw [hsick]; exact Bool.false_ne_true)]
  have hsome : ¬ ¬ ∃ i, bothSlots i = true := not_not.mpr ⟨supplySlot, rfl⟩
  rw [SourceSelector.evaluate, htrack, if_neg hsome]
  dsimp only
  rw [hchoose]
  exact ⟨rfl, rfl⟩

/-- A silence of any number of minutes. -/
lemma silent_minutes {s : SelectorSystem ℕ Unit} {log : List (SelectorEvent ℕ Unit)}
    (hrun : Run (SelectorStep wholeDegrees bothSlots) (resetSelector ℕ Unit 0) s log)
    (hsilent : s.selector = silentSelector) (hnow : s.evaluatedMs = s.ms)
    (hsource : lastSource log = .heatPump) (n : ℕ) :
    ∃ log', Run (SelectorStep wholeDegrees bothSlots) (resetSelector ℕ Unit 0)
        ⟨silentSelector, s.ms + 60000 * n, s.ms + 60000 * n⟩ log' ∧
      lastSource log' = .heatPump ∧ pollsOf supplySlot log' = pollsOf supplySlot log := by
  induction n with
  | zero =>
      obtain ⟨selector, ms, evaluatedMs⟩ := s
      cases hsilent
      cases hnow
      exact ⟨log, hrun, hsource, rfl⟩
  | succ n ih =>
      obtain ⟨log', hrun', -, hpolls⟩ := ih
      have hstep := hrun'.step (.evaluate _ (s.ms + 60000 * (n + 1)) idleHp
        ⟨by dsimp only; omega, by show _ ≤ _ + 60000; dsimp only; omega⟩)
      dsimp only at hstep
      rw [(evaluate_silent _).1] at hstep
      refine ⟨_, hstep, ?_, ?_⟩
      · rw [Option.toList_some, lastSource_evaluated]
        exact (evaluate_silent _).2
      · rw [Option.toList_some, pollsOf_concat]
        exact (List.append_nil _).trans hpolls

/-- No good run of a minute ends in readings that began half a minute ago. -/
lemma no_good_run {since now : ℕ} (hlong : 180000 < now)
    (h : GoodRunSince [⟨0, some 35⟩, ⟨60000, some 35⟩, ⟨now, some 35⟩, ⟨now + 15000, some 35⟩,
      ⟨now + 30000, some 35⟩] since) : now + 30000 < since + kRecoverMs.toNat := by
  have hrecover : kRecoverMs.toNat = 60000 := rfl
  have hstale : kStaleMs.toNat = 60000 := rfl
  obtain ⟨before, p, after, hpolls, -, rfl, hunbroken⟩ := h
  rcases before with _ | ⟨a, _ | ⟨b, rest⟩⟩
  · obtain ⟨rfl, rfl⟩ := List.cons.inj hpolls
    have hgap := (List.isChain_cons_cons.mp (List.isChain_cons_cons.mp hunbroken.gaps).2).1
    dsimp only at hgap
    omega
  · obtain ⟨-, hpolls⟩ := List.cons.inj hpolls
    obtain ⟨rfl, rfl⟩ := List.cons.inj hpolls
    have hgap := (List.isChain_cons_cons.mp hunbroken.gaps).1
    dsimp only at hgap
    omega
  · obtain ⟨-, hpolls⟩ := List.cons.inj hpolls
    obtain ⟨-, hpolls⟩ := List.cons.inj hpolls
    have hmem : p ∈ [⟨now, some 35⟩, ⟨now + 15000, some 35⟩, (⟨now + 30000, some 35⟩ : SensorPoll ℕ)] := by
      rw [hpolls]
      simp
    have hnow : now ≤ p.ms := by
      simp only [List.mem_cons, List.not_mem_nil, or_false] at hmem
      rcases hmem with rfl | rfl | rfl
      · exact le_rfl
      · exact Nat.le_add_right _ _
      · exact Nat.le_add_right _ _
    omega

/-- **A silence of one turn of the clock goes unnoticed**: sensors that fell silent for 49.7 days
are trusted half a minute after they read again, although a silent gap is to break the run of good
readings. -/
theorem external_after_turn : ¬ ∀ (s : SelectorSystem ℕ Unit) (log : List (SelectorEvent ℕ Unit)),
    Run (SelectorStep wholeDegrees bothSlots) (resetSelector ℕ Unit 0) s log →
      ExternalTrusted wholeDegrees bothSlots log := by
  intro hall
  have hread := both_read (both_read .start 0 ⟨by decide, by decide⟩) 60000
    ⟨by decide, by decide⟩
  have hempty := (((hread.step (.evaluate _ 60000 idleHp ⟨by decide, by decide⟩)).step
    (.evaluate _ 120000 idleHp ⟨by decide, by decide⟩)).step
    (.evaluate _ 180000 idleHp ⟨by decide, by decide⟩)).step
    (.evaluate _ 240000 idleHp ⟨by decide, by decide⟩)
  obtain ⟨log, hsilent, hsource, hpolls⟩ := silent_minutes hempty (by
    refine congrArg (fun slots => ({ slots, lastHp := some idleHp } : SourceSelector ℕ Unit)) ?_
    funext i
    fin_cases i <;> rfl) rfl (by decide +kernel) 71580
  -- one turn after the last reading
  have hback := both_read (both_read (both_read hsilent 4295040000 ⟨by decide, by decide⟩)
    4295055000 ⟨by decide, by decide⟩) 4295070000 ⟨by decide, by decide⟩
  have hlast := hback.step (.evaluate _ 4295070000 idleHp ⟨by decide, by decide⟩)
  have hanswers := hall _ _ hlast _ _ _ _ [] rfl
  have hpump := (lastSource_both _ 4295070000).trans ((lastSource_both _ 4295055000).trans
    ((lastSource_both log 4295040000).trans hsource))
  have hread' : pollsOf supplySlot log = [⟨0, some 35⟩, ⟨60000, some 35⟩] := hpolls.trans rfl
  obtain ⟨since, hgood, hsince⟩ := hanswers.recovered (by decide +kernel) hpump supplySlot rfl
  rw [pollsOf_both, pollsOf_both, pollsOf_both, hread'] at hgood
  have hnot := no_good_run (by decide : 180000 < 4295040000) hgood
  exact absurd hsince (Nat.not_le_of_lt hnot)

end ArcticController

/-
Runs of the checkpoint of the open day (`store_save_today`, `store_load_today` in
`energy_store.cpp`): saves and resets, whatever NVS call fails or is cut off.

* `SaveEffect`, `wp_storeSaveToday`: what one save leaves of the namespace;
* `CheckpointStep`, `CheckpointInv`, `checkpointInv_step`: the runs and their invariant;
* `checkpoint_loaded`: a boot loads the last save that succeeded, or one after it.
-/
import ArcticController.Base.Runs
import ArcticController.Energy.EnergyStoreSpec

namespace ArcticController

/-! ### One save -/

/-- A checkpoint that was written passes the checks. -/
lemma decodeToday_enc (generation : UInt32) (accum : DayAccum) :
    decodeToday (todayBlob.enc (checkpointBlob generation accum)) = some accum := by
  have hsize : (176 : UInt16).toNat = dayAccum.size := rfl
  simp [decodeToday, todayValid, checkpointBlob, todayCrc, hsize]

/-- What a save leaves of a settled namespace with the contents `c`: those contents, or
the checkpoint over the old one; a save that reports success has left the checkpoint. -/
structure SaveEffect (c : EnergyContents) (accum : DayAccum) (o : Outcome EspErr Bool)
    (s' : Nvs EnergyKey × UInt32) : Prop where
  stored : (s'.1.stored = c ∧ o ≠ .val true) ∨
    ∃ generation, s'.1.stored =
      Function.update c .today (some (todayBlob.enc (checkpointBlob generation accum)))
  settled : o ≠ .cut → s'.1.Settled

/-- A call of a save, whose error ends it. -/
lemma wp_saveCall {Q : Outcome EspErr Bool → Nvs EnergyKey × UInt32 → Prop}
    {k : FaultM (Nvs EnergyKey × UInt32) NvsFault (NvsOp EnergyKey) EspErr Bool}
    {entry : Nvs EnergyKey → NvsOp EnergyKey}
    {op : NvsFault → Nvs EnergyKey → Outcome EspErr Unit × Nvs EnergyKey} {s : Nvs EnergyKey}
    {generation : UInt32}
    (h : ∀ f, match op f s with
      | (.val _, s') => wp anyNvsFaults k Q (s', generation)
      | (.err _, s') => Q (.val false) (s', generation)
      | (.cut, s') => Q .cut (s', generation)) :
    wp anyNvsFaults ((FaultM.zoom (.perform entry op)).attempt >>= fun r => match r with
      | .error _ => pure false
      | .ok _ => k) Q (s, generation) := by
  refine wp_bind (wp_attempt (wp_zoom (wp_perform (fun f _ => ?_) trivial)))
  have hf := h f
  revert hf
  rcases op f s with ⟨o, s'⟩
  intro hf
  cases o with
  | val _ => exact hf
  | err _ => exact wp_pure hf
  | cut => exact hf

/-- Every ending of a save. -/
lemma wp_storeSaveToday (c : EnergyContents) (generation : UInt32) (accum : DayAccum) :
    wp anyNvsFaults (storeSaveToday accum) (SaveEffect c accum) (.ofContents c, generation) := by
  have hfailed : ∀ g, SaveEffect c accum (.val false) (.ofContents c, g) := fun _ =>
    ⟨.inl ⟨rfl, nofun⟩, fun _ => Nvs.settled_ofContents c⟩
  have hlost : ∀ (s : Nvs EnergyKey) g, s.stored = c → SaveEffect c accum .cut (s, g) :=
    fun s _ hs => ⟨.inl ⟨hs, nofun⟩, (absurd rfl ·)⟩
  refine wp_saveCall fun f => ?_
  cases f with
  | error e _ => exact hfailed _
  | cut _ => exact hlost _ _ rfl
  | none =>
  refine wp_modify_bind (wp_get_bind (wp_saveCall fun f => ?_))
  cases f with
  | error e _ => exact hfailed _
  | cut _ => exact hlost _ _ rfl
  | none =>
  refine wp_saveCall fun f => ?_
  cases f with
  | error e _ => exact hfailed _
  | cut _ => exact hlost _ _ rfl
  | none =>
  refine wp_saveCall fun f => ?_
  cases f with
  | none => exact wp_pure ⟨.inr ⟨_, rfl⟩, fun _ => rfl⟩
  | error e reached =>
      cases reached with
      | true => exact ⟨.inr ⟨_, rfl⟩, fun _ => rfl⟩
      | false => exact hfailed _
  | cut reached =>
      cases reached with
      | true => exact ⟨.inr ⟨_, rfl⟩, (absurd rfl ·)⟩
      | false => exact hlost _ _ rfl

/-- The ending of a save on a settled namespace. -/
lemma saveEffect_of_settled {s : Nvs EnergyKey × UInt32} (hs : s.1.Settled) (accum : DayAccum)
    (script : List NvsFault) : SaveEffect s.1.stored accum (storeSaveToday accum s script).out
      (storeSaveToday accum s script).state := by
  have h := (wp_storeSaveToday s.1.stored s.2 accum script fun _ _ => trivial).1
  rwa [← hs.eq] at h

/-! ### Runs -/

/-- A save that was called, and whether it reported success. -/
structure Checkpoint where
  accum : DayAccum
  ok : Bool

/-- What a save leaves; a loss of power is a reset, and the generations start over. -/
def afterSave
    (r : Result (Nvs EnergyKey × UInt32) NvsFault (NvsOp EnergyKey) EspErr Bool) :
    Nvs EnergyKey × UInt32 :=
  if r.out = .cut then (r.state.1.reset, 0) else r.state

/-- A save, hit by any faults, or a reset. -/
inductive CheckpointStep :
    Nvs EnergyKey × UInt32 → Option Checkpoint → Nvs EnergyKey × UInt32 → Prop where
  | save (s : Nvs EnergyKey × UInt32) (accum : DayAccum) (script : List NvsFault) :
      CheckpointStep s (some ⟨accum, (storeSaveToday accum s script).out = .val true⟩)
        (afterSave (storeSaveToday accum s script))
  | reset (s : Nvs EnergyKey × UInt32) : CheckpointStep s none (s.1.reset, 0)

/-- The checkpoint after saves that all took effect, on contents that hold `before`. -/
def lastCheckpoint (before : Option DayAccum) (saves : List Checkpoint) : Option DayAccum :=
  (saves.getLast?.map (·.accum)).or before

/-- What every step keeps: the months are as at the start, and the checkpoint is that of
a save after which none succeeded. -/
structure CheckpointInv (c : EnergyContents) (s : Nvs EnergyKey × UInt32) (log : List Checkpoint) :
    Prop where
  settled : s.1.Settled
  months : ∀ ym, s.1.stored (.month ym) = c (.month ym)
  today : ∃ landed failed, log = landed ++ failed ∧ (∀ save ∈ failed, save.ok = false) ∧
    readToday s.1.stored = lastCheckpoint (readToday c) landed

variable {c : EnergyContents} {s s' : Nvs EnergyKey × UInt32} {log : List Checkpoint}

lemma checkpointInv_step {e : Option Checkpoint} (h : CheckpointInv c s log)
    (hstep : CheckpointStep s e s') : CheckpointInv c s' (log ++ e.toList) := by
  cases hstep with
  | reset =>
      rw [Option.toList_none, List.append_nil]
      exact ⟨Nvs.settled_reset _, h.months, h.today⟩
  | save accum script =>
      have heff := saveEffect_of_settled h.settled accum script
      generalize storeSaveToday accum s script = r at heff ⊢
      obtain ⟨hstored, hset⟩ := heff
      have hafter : (afterSave r).1.stored = r.state.1.stored := by
        rw [afterSave]
        split_ifs <;> rfl
      refine ⟨?_, fun ym => ?_, ?_⟩
      · rw [afterSave]
        split_ifs with hcut
        · exact Nvs.settled_reset _
        · exact hset hcut
      · rw [hafter, ← h.months ym]
        rcases hstored with ⟨hkept, -⟩ | ⟨generation, hwritten⟩
        · rw [hkept]
        · rw [hwritten, Function.update_of_ne (by rintro ⟨⟩)]
      · rw [hafter, Option.toList_some]
        rcases hstored with ⟨hkept, hfailed⟩ | ⟨generation, hwritten⟩
        · obtain ⟨landed, failed, rfl, hall, htoday⟩ := h.today
          refine ⟨landed, failed ++ [⟨accum, r.out = .val true⟩], List.append_assoc _ _ _, ?_, by rw [hkept, htoday]⟩
          exact List.forall_mem_append.mpr ⟨hall, List.forall_mem_singleton.mpr (decide_eq_false hfailed)⟩
        · refine ⟨log ++ [⟨accum, r.out = .val true⟩], [], (List.append_nil _).symm, nofun, ?_⟩
          rw [lastCheckpoint, List.getLast?_concat, hwritten, readToday, Function.update_self,
            Option.bind_some, decodeToday_enc]
          rfl

/-- Without faults a load returns the checkpoint. -/
lemma runs_storeLoadToday (c : EnergyContents) :
    FaultM.Runs storeLoadToday (.ofContents c) (readToday c) (.ofContents c) := by
  refine (runs_plain _ _).attempt.bind ((runs_plain _ _).attempt.bind ?_)
  by_cases h : ∃ blob, c .today = some blob ∧ blob.length ≤ todayBlob.size
  · obtain ⟨blob, hblob, hlen⟩ := h
    rw [readToday, hblob, Option.bind_some]
    exact (runs_getBlob hblob hlen).bind (FaultM.runs_pure _ _)
  · have hlong : ∀ blob, c .today = some blob → todayBlob.size < blob.length := fun blob hblob =>
      not_le.mp fun hlen => h ⟨blob, hblob, hlen⟩
    have hread : readToday c = none := by
      rw [readToday, Option.bind_eq_none_iff]
      intro blob hblob
      rw [decodeToday, if_neg (hlong blob hblob).ne']
    obtain ⟨e, he⟩ := runs_getBlob_error (s := .ofContents c) hlong
    rw [hread]
    exact he.bind (FaultM.runs_pure _ _)

/-- **A boot loads the last checkpoint that succeeded, or a later one**, after any saves
and resets with any NVS call failing or cut off; and the saves touch no month. -/
theorem checkpoint_loaded (hrun : Run CheckpointStep (.ofContents c, 0) s log) :
    (∀ ym, s.1.stored (.month ym) = c (.month ym)) ∧
      ∃ landed failed, log = landed ++ failed ∧ (∀ save ∈ failed, save.ok = false) ∧
        (storeLoadToday s.1.reset []).out = .val (lastCheckpoint (readToday c) landed) := by
  have hinv : CheckpointInv c s log := by
    refine hrun.invariant ⟨rfl, fun _ => rfl, [], [], rfl, nofun, rfl⟩ ?_
    exact fun s log e s' _ h hstep => checkpointInv_step h hstep
  obtain ⟨landed, failed, hlog, hfailed, htoday⟩ := hinv.today
  exact ⟨hinv.months, landed, failed, hlog, hfailed,
    htoday ▸ (runs_storeLoadToday s.1.stored).out⟩

/-- A save that succeeds, one whose commit fails, and a reset. -/
theorem checkpoint_loaded_failedCommit : ∃ (s : Nvs EnergyKey × UInt32) (log : List Checkpoint),
    log.map Checkpoint.ok = [true, false] ∧
    ∃ landed failed, log = landed ++ failed ∧ (∀ save ∈ failed, save.ok = false) ∧
      (storeLoadToday s.1.reset []).out = .val (lastCheckpoint none landed) := by
  have hrun := ((((.start : Run CheckpointStep (.ofContents fun _ => none, 0) _ _)).step
    (.save _ { (default : DayAccum) with date := 20240131 } [])).step
    (.save _ { (default : DayAccum) with date := 20240201 } [.none, .none, .none, .error .fail false])).step
    (.reset _)
  exact ⟨_, _, by decide +kernel, (checkpoint_loaded hrun).2⟩

end ArcticController

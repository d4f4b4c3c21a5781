/-
The run store (`run_store.cpp`): one blob per local day in the NVS namespace `runs`,
with the finished runs of that day in start order.

* `RunDayHeader`, `RunDay` with their layouts and the check `runDayValid`;
* `loadDay`, `insertRun`, `storeAppendRun`, `storeReadRuns`: the store;
* `StartOrder`, `insertRun_order`: a run more keeps the order and replaces itself;
* `readDay`, `RunsInOrder`: what is stored for a day, and the order of all days;
* `storeAppendRun_spec`: whatever fails, every day stays in order, and a run that was
  stored is there.
-/
import ArcticController.Energy.RunTracker
import ArcticController.Platform.NvsFlash

namespace ArcticController

/-! ### Blobs -/

def kRunDaysKept : ℕ := 15

def kMaxRunsPerDay : ℕ := 96

def kRunsMagic : UInt32 := 0x534E5552

def kRunsVersion : UInt16 := 1

structure RunDayHeader where
  magic : UInt32
  version : UInt16
  recordSize : UInt16
  date : UInt32
  count : UInt16
  reserved : UInt16
  crc32 : UInt32
deriving DecidableEq, Inhabited

/-- A day: its header and as many runs as that counts. -/
structure RunDay where
  h : RunDayHeader
  runs : List RunRecord
deriving DecidableEq, Inhabited

/-- The 20 bytes of a header. -/
def runDayHeader : Codec RunDayHeader :=
  (Codec.pair .u32 <| .pair .u16 <| .pair .u16 <| .pair .u32 <| .pair .u16 <|
    .pair .u16 .u32).iso
    (fun (magic, version, recordSize, date, count, reserved, crc32) =>
      { magic, version, recordSize, date, count, reserved, crc32 })
    (fun h => (h.magic, h.version, h.recordSize, h.date, h.count, h.reserved, h.crc32))
    (fun _ => rfl)

/-- A mode as a byte. -/
def bucketCodec : Codec Bucket :=
  Codec.u8.iso
    (fun b => if b = 0 then .heating else if b = 1 then .cooling else if b = 2 then .hotWater
      else .standby)
    (fun b => match b with
      | .heating => 0
      | .cooling => 1
      | .hotWater => 2
      | .standby => 3)
    (fun b => by cases b <;> rfl)

/-- The 32 bytes of a run. -/
def runRecord : Codec RunRecord :=
  (Codec.pair .u32 <| .pair .u32 <| .pair .u32 <| .pair .u32 <| .pair .u32 <| .pair .u32 <|
    .pair .u32 <| .pair .i16 <| .pair bucketCodec .u8).iso
    (fun (date, startS, endS, elecWh, thermalWh, coveredElecWh, outdoorS, outdoorAvgDeci, bucket,
        flags) =>
      { date, startS, endS, elecWh, thermalWh, coveredElecWh, outdoorS, outdoorAvgDeci, bucket,
        flags })
    (fun r => (r.date, r.startS, r.endS, r.elecWh, r.thermalWh, r.coveredElecWh, r.outdoorS,
      r.outdoorAvgDeci, r.bucket, r.flags))
    (fun _ => rfl)

/-- The blob of a day: its header and its runs. -/
def runDayBytes (d : RunDay) : List UInt8 := runDayHeader.enc d.h ++ d.runs.flatMap runRecord.enc

/-- `blob_size`. -/
def runBlobSize (count : ℕ) : ℕ := runDayHeader.size + count * runRecord.size

/-- `blob_crc`: over the blob with a checksum of zero. -/
def runDayCrc (d : RunDay) : UInt32 := espCrc32Le 0 (runDayBytes { d with h := { d.h with crc32 := 0 } })

/-- The first runs behind a header. -/
def decRuns : ℕ → List UInt8 → List RunRecord
  | 0, _ => []
  | n + 1, bytes => runRecord.dec bytes :: decRuns n (bytes.drop runRecord.size)

/-- What a blob holds, before it is checked. -/
def decRunDay (blob : List UInt8) : RunDay :=
  let h := runDayHeader.dec blob
  { h, runs := decRuns h.count.toNat (blob.drop runDayHeader.size) }

def runDayValid (date : UInt32) (blob : List UInt8) (d : RunDay) : Bool :=
  d.h.magic == kRunsMagic && d.h.version == kRunsVersion && d.h.recordSize == 32 &&
    d.h.date == date && decide (d.h.count.toNat ≤ kMaxRunsPerDay) &&
    blob.length == runBlobSize d.h.count.toNat && d.h.crc32 == runDayCrc d

/-- The day that a blob holds, if it holds that day. -/
def decodeRunDay (date : UInt32) (blob : List UInt8) : Option RunDay :=
  if blob.length < runDayHeader.size then none
  else if runDayValid date blob (decRunDay blob) then some (decRunDay blob) else none

/-! ### The store -/

/-- A computation on the namespace, whose keys are dates (`day_key` writes each into a
key of its own). -/
abbrev RunsM (α : Type) : Type := NvsFlashM UInt32 α

/-- `date_from_days`. -/
def dateFromDays (z : ℤ) : UInt32 :=
  let z := z + 719468
  let era := (if z ≥ 0 then z else z - 146096).tdiv 146097
  let doe := z - era * 146097
  let yoe := (doe - doe.tdiv 1460 + doe.tdiv 36524 - doe.tdiv 146096).tdiv 365
  let doy := doe - (365 * yoe + yoe.tdiv 4 - yoe.tdiv 100)
  let mp := (5 * doy + 2).tdiv 153
  let d := doy - (153 * mp + 2).tdiv 5 + 1
  let m := mp + if mp < 10 then 3 else -9
  let y := yoe + era * 400 + if m ≤ 2 then 1 else 0
  UInt32.ofInt (y * 10000 + m * 100 + d)

def dateAddDays (date : UInt32) (days : ℤ) : UInt32 := dateFromDays (daysFromDate date + days)

example : dateAddDays 20240301 (-1) = 20240229 := by decide +kernel

/-- A failed read counts as no blob. -/
def loadDay (date : UInt32) : RunsM (Option RunDay) := do
  match ← (NvsFlash.getValue date (runBlobSize kMaxRunsPerDay)).attempt with
  | .error _ => pure none
  | .ok blob => pure (decodeRunDay date blob)

def blankRunDay (date : UInt32) : RunDay where
  h := { magic := kRunsMagic, version := kRunsVersion, recordSize := 32, date, count := 0, reserved := 0, crc32 := 0 }
  runs := []

/-- Where a run starts among the first `at` runs, from behind. -/
def insertPos (runs : List RunRecord) (startS : UInt32) : ℕ → ℕ
  | 0 => 0
  | n + 1 => if (runs.getD n default).startS > startS then insertPos runs startS n else n + 1

/-- The runs with one more; none when the day is full. -/
def insertRun (runs : List RunRecord) (r : RunRecord) : Option (List RunRecord) :=
  let n := insertPos runs r.startS runs.length
  if n > 0 ∧ (runs.getD (n - 1) default).startS = r.startS then some (runs.set (n - 1) r)
  else if runs.length < kMaxRunsPerDay then some (runs.take n ++ r :: runs.drop n)
  else none

/-- A day with other runs. -/
def RunDay.withRuns (d : RunDay) (runs : List RunRecord) : RunDay :=
  let d : RunDay := { h := { d.h with count := UInt16.ofNat runs.length }, runs }
  { d with h := { d.h with crc32 := runDayCrc d } }

/-- Drop the days that have aged out: `count` of them, from `days` before `date` on. -/
def sweepDays (date : UInt32) : ℕ → ℤ → RunsM Unit
  | 0, _ => pure ()
  | count + 1, days => do
      match ← (NvsFlash.eraseKey (dateAddDays date (-days))).attempt with
      | .error _ => sweepDays date count (days + 1)
      | .ok _ => do
          let _ ← NvsFlash.commit.attempt
          sweepDays date count (days + 1)

/-- Write a day, and report whether that succeeded. -/
def writeDay (existed : Bool) (d : RunDay) : RunsM Bool := do
  match ← (NvsFlash.setValue d.h.date (runDayBytes d)).attempt with
  | .error _ => pure false
  | .ok _ =>
    match ← NvsFlash.commit.attempt with
    | .error _ => pure false
    | .ok _ =>
      if existed then pure true
      else do
        sweepDays d.h.date 60 kRunDaysKept
        pure true

def storeAppendRun (run : RunRecord) : RunsM Bool :=
  if run.date = 0 then pure false
  else do
    match ← (NvsFlash.plain (.malloc (runBlobSize kMaxRunsPerDay))).attempt with
    | .error _ => pure false
    | .ok _ =>
      match ← NvsFlash.openNamespace.attempt with
      | .error _ => pure false
      | .ok _ =>
        let b ← loadDay run.date
        let day := b.getD (blankRunDay run.date)
        match insertRun day.runs { run with flags := run.flags &&& ~~~ runOpen } with
        | none => pure true
        | some runs => writeDay b.isSome (day.withRuns runs)

/-- The runs stored for one day, in start order. -/
def storeReadRuns (date : UInt32) (capacity : ℕ) : RunsM (List RunRecord) := do
  match ← (NvsFlash.plain (.malloc (runBlobSize kMaxRunsPerDay))).attempt with
  | .error _ => pure []
  | .ok _ =>
    match ← NvsFlash.openNamespace.attempt with
    | .error _ => pure []
    | .ok _ =>
      match ← loadDay date with
      | none => pure []
      | some d => pure (d.runs.take capacity)

/-! ### The order of a day -/

/-- The runs start one after the other. -/
def StartOrder (runs : List RunRecord) : Prop := runs.Pairwise fun a b => a.startS < b.startS

section Order

variable {runs runs' : List RunRecord} {r : RunRecord}

lemma getD_eq_getElem {i : ℕ} (h : i < runs.length) : runs.getD i default = runs[i] := by
  rw [List.getD_eq_getElem?_getD, List.getElem?_eq_getElem h, Option.getD_some]

/-- The runs before the position start no later, those behind it start later. -/
lemma insertPos_spec (runs : List RunRecord) (startS : UInt32) (n : ℕ) (hn : n ≤ runs.length) :
    insertPos runs startS n ≤ n ∧
      (∀ i, insertPos runs startS n ≤ i → i < n → startS < (runs.getD i default).startS) ∧
      (0 < insertPos runs startS n →
        (runs.getD (insertPos runs startS n - 1) default).startS ≤ startS) := by
  induction n with
  | zero => exact ⟨le_rfl, fun i _ h => absurd h (Nat.not_lt_zero i), fun h => absurd h (by simp [insertPos])⟩
  | succ n ih =>
      obtain ⟨hle, hbehind, hbefore⟩ := ih (by omega)
      rw [insertPos]
      by_cases hgt : (runs.getD n default).startS > startS
      · rw [if_pos hgt]
        refine ⟨by omega, fun i hi h => ?_, hbefore⟩
        by_cases hin : i = n
        · exact hin ▸ hgt
        · exact hbehind i hi (by omega)
      · rw [if_neg hgt]
        exact ⟨le_rfl, fun i hi h => by omega, fun _ => UInt32.not_lt.mp hgt⟩

/-- In a day in order, the last of the first `n` runs starts last. -/
lemma StartOrder.le_last (horder : StartOrder runs) {n : ℕ} (hn : n ≤ runs.length) {a : RunRecord}
    (ha : a ∈ runs.take n) : 0 < n ∧ a.startS ≤ (runs.getD (n - 1) default).startS := by
  obtain ⟨i, hi, rfl⟩ := List.mem_iff_getElem.mp ha
  have hin : i < n := by
    rw [List.length_take] at hi
    omega
  refine ⟨by omega, ?_⟩
  rw [List.getElem_take, getD_eq_getElem (by omega)]
  by_cases heq : i = n - 1
  · subst heq
    exact UInt32.le_refl _
  · exact UInt32.le_of_lt (List.pairwise_iff_getElem.mp horder i (n - 1) (by omega) (by omega) (by omega))

/-- A start that is not that of the run before the position is between those around it. -/
lemma StartOrder.around (horder : StartOrder runs) {startS : UInt32}
    (hnew : ¬(insertPos runs startS runs.length > 0 ∧
      (runs.getD (insertPos runs startS runs.length - 1) default).startS = startS)) :
    (∀ a ∈ runs.take (insertPos runs startS runs.length), a.startS < startS) ∧
      ∀ b ∈ runs.drop (insertPos runs startS runs.length), startS < b.startS := by
  obtain ⟨hle, hbehind, hbefore⟩ := insertPos_spec runs startS runs.length le_rfl
  refine ⟨fun a ha => ?_, fun b hb => ?_⟩
  · obtain ⟨hpos, hlast⟩ := horder.le_last hle ha
    exact UInt32.lt_of_le_of_lt hlast
      (UInt32.lt_of_le_of_ne (hbefore hpos) fun heq => hnew ⟨hpos, heq⟩)
  · obtain ⟨i, hi, rfl⟩ := List.mem_iff_getElem.mp hb
    rw [List.length_drop] at hi
    have := hbehind (insertPos runs startS runs.length + i) (by omega) (by omega)
    rw [getD_eq_getElem (by omega)] at this
    rwa [List.getElem_drop]

/-- A run more keeps the order. -/
theorem insertRun_order (horder : StartOrder runs) (h : insertRun runs r = some runs') :
    StartOrder runs' := by
  obtain ⟨hle, -, -⟩ := insertPos_spec runs r.startS runs.length le_rfl
  rw [insertRun] at h
  set n := insertPos runs r.startS runs.length
  split at h
  next hsame =>
    -- the run replaces one with the same start
    cases h
    have hstarts : (runs.set (n - 1) r).map (·.startS) = runs.map (·.startS) := by
      rw [List.map_set, ← hsame.2, getD_eq_getElem (by omega)]
      have hlt : n - 1 < (runs.map (·.startS)).length := by
        rw [List.length_map]
        omega
      conv_rhs => rw [← List.set_getElem_self hlt]
      rw [List.getElem_map]
    have hmap : (runs.map (·.startS)).Pairwise (· < ·) := List.pairwise_map.mpr horder
    rw [← hstarts] at hmap
    exact List.pairwise_map.mp hmap
  next hnew =>
    split at h
    next hroom =>
      cases h
      obtain ⟨hlt, hgt⟩ := horder.around hnew
      rw [StartOrder, List.pairwise_append, List.pairwise_cons]
      refine ⟨horder.sublist (List.take_sublist n runs),
        ⟨hgt, horder.sublist (List.drop_sublist n runs)⟩, fun a ha b hb => ?_⟩
      rcases List.mem_cons.mp hb with rfl | hb
      · exact hlt a ha
      · exact UInt32.lt_trans (hlt a ha) (hgt b hb)
    next => cases h

/-- The day has no more runs than it may have. -/
lemma insertRun_length (hlen : runs.length ≤ kMaxRunsPerDay) (h : insertRun runs r = some runs') :
    runs'.length ≤ kMaxRunsPerDay := by
  rw [insertRun] at h
  split at h
  · cases h
    rwa [List.length_set]
  · split at h
    next hroom =>
      cases h
      rw [List.length_append, List.length_cons, List.length_take, List.length_drop]
      omega
    next => cases h

end Order

/-! ### What is read back -/

lemma decRuns_flatMap (runs : List RunRecord) (rest : List UInt8) :
    decRuns runs.length (runs.flatMap runRecord.enc ++ rest) = runs := by
  induction runs with
  | nil => rfl
  | cons r runs ih =>
      rw [List.length_cons, decRuns, List.flatMap_cons, List.append_assoc, runRecord.dec_enc_append,
        List.drop_left' (runRecord.enc_length r), ih]

/-- The header of a day of some date. -/
structure RunDay.Framed (date : UInt32) (d : RunDay) : Prop where
  magic : d.h.magic = kRunsMagic
  version : d.h.version = kRunsVersion
  recordSize : d.h.recordSize = 32
  date : d.h.date = date
  length : d.runs.length ≤ kMaxRunsPerDay

lemma framed_blankRunDay (date : UInt32) : (blankRunDay date).Framed date :=
  ⟨rfl, rfl, rfl, rfl, Nat.zero_le _⟩

lemma decRuns_length (n : ℕ) (bytes : List UInt8) : (decRuns n bytes).length = n := by
  induction n generalizing bytes with
  | zero => rfl
  | succ n ih => rw [decRuns, List.length_cons, ih]

lemma framed_of_decode {date : UInt32} {blob : List UInt8} {d : RunDay}
    (h : decodeRunDay date blob = some d) : d.Framed date := by
  rw [decodeRunDay] at h
  split at h
  · cases h
  · split at h
    next hvalid =>
      cases h
      simp only [runDayValid, Bool.and_eq_true, beq_iff_eq, decide_eq_true_eq] at hvalid
      obtain ⟨⟨⟨⟨⟨⟨hmagic, hversion⟩, hsize⟩, hdate⟩, hcount⟩, -⟩, -⟩ := hvalid
      refine ⟨hmagic, hversion, hsize, hdate, ?_⟩
      rw [decRunDay, decRuns_length]
      exact hcount
    next => cases h

/-- A day that was written is read back. -/
lemma decodeRunDay_bytes {date : UInt32} {d : RunDay} {runs : List RunRecord} (h : d.Framed date)
    (hlen : runs.length ≤ kMaxRunsPerDay) :
    decodeRunDay date (runDayBytes (d.withRuns runs)) = some (d.withRuns runs) := by
  have hmax : runs.length < 2 ^ 16 := lt_of_le_of_lt hlen (by decide)
  have hcount : (d.withRuns runs).h.count.toNat = runs.length := UInt16.toNat_ofNat_of_lt' hmax
  have hsize : (runDayBytes (d.withRuns runs)).length = runBlobSize runs.length := by
    rw [runDayBytes, List.length_append, runDayHeader.enc_length, Codec.length_flatMap_enc, runBlobSize]
    rfl
  have hread : decRunDay (runDayBytes (d.withRuns runs)) = d.withRuns runs := by
    have hruns := decRuns_flatMap runs []
    rw [List.append_nil] at hruns
    have hh : runDayHeader.dec (runDayBytes (d.withRuns runs)) = (d.withRuns runs).h :=
      runDayHeader.dec_enc_append _ _
    rw [decRunDay, hh, hcount, runDayBytes, List.drop_left' (runDayHeader.enc_length _)]
    change ({ h := _, runs := decRuns runs.length (runs.flatMap runRecord.enc) } : RunDay) = _
    rw [hruns]
    rfl
  have hlong : ¬ (runDayBytes (d.withRuns runs)).length < runDayHeader.size := by
    rw [hsize, runBlobSize]
    omega
  rw [decodeRunDay, if_neg hlong, hread, if_pos]
  simp only [runDayValid, Bool.and_eq_true, beq_iff_eq, decide_eq_true_eq]
  exact ⟨⟨⟨⟨⟨⟨h.magic, h.version⟩, h.recordSize⟩, h.date⟩, hcount.symm ▸ hlen⟩, by rw [hsize, hcount]⟩, rfl⟩

/-- What is stored for a day. -/
def storedDay (s : NvsFlash UInt32) (date : UInt32) : Option RunDay :=
  (s date).bind (decodeRunDay date)

/-- The runs of every stored day start one after the other. -/
def RunsInOrder (s : NvsFlash UInt32) : Prop :=
  ∀ date d, storedDay s date = some d → StartOrder d.runs

/-! ### What an append leaves -/

/-- Some days are dropped. -/
def DaysSwept (s s' : NvsFlash UInt32) : Prop := ∀ date, s' date = s date ∨ s' date = none

lemma DaysSwept.refl (s : NvsFlash UInt32) : DaysSwept s s := fun _ => .inl rfl

variable {s s' : NvsFlash UInt32}

lemma DaysSwept.trans {s'' : NvsFlash UInt32} (h : DaysSwept s s') (h' : DaysSwept s' s'') :
    DaysSwept s s'' :=
  fun date => (h' date).elim (fun heq => heq ▸ h date) .inr

lemma daysSwept_update (s : NvsFlash UInt32) (date : UInt32) : DaysSwept s (Function.update s date none) := by
  intro date'
  by_cases h : date' = date
  · exact .inr (by rw [h, Function.update_self])
  · exact .inl (Function.update_of_ne h _ _)

/-- The flash after a run was written to a day: the day as it was loaded, or an empty
one. -/
def Written (run : RunRecord) (s s' : NvsFlash UInt32) : Prop :=
  ∃ day runs, (day = blankRunDay run.date ∨ storedDay s run.date = some day) ∧
    insertRun day.runs { run with flags := run.flags &&& ~~~ runOpen } = some runs ∧
    s' = Function.update s run.date (some (runDayBytes (day.withRuns runs)))

/-- What an append may leave. -/
def AppendLeaves (run : RunRecord) (s s' : NvsFlash UInt32) : Prop :=
  ∃ s₁, (s₁ = s ∨ Written run s s₁) ∧ DaysSwept s₁ s'

lemma RunsInOrder.swept (h : RunsInOrder s) (hswept : DaysSwept s s') : RunsInOrder s' := by
  intro date d hd
  rcases hswept date with heq | hnone
  · exact h date d (by rwa [storedDay, heq] at hd)
  · rw [storedDay, hnone] at hd
    cases hd

lemma RunsInOrder.written {run : RunRecord} (h : RunsInOrder s) (hwritten : Written run s s') :
    RunsInOrder s' := by
  obtain ⟨day, runs, hday, hinsert, rfl⟩ := hwritten
  have hframed : day.Framed run.date := by
    rcases hday with rfl | hday
    · exact framed_blankRunDay _
    · obtain ⟨blob, -, hblob⟩ := Option.bind_eq_some_iff.mp hday
      exact framed_of_decode hblob
  have horder : StartOrder day.runs := by
    rcases hday with rfl | hday
    · exact List.Pairwise.nil
    · exact h _ _ hday
  intro date d hd
  by_cases hdate : date = run.date
  · rw [storedDay, hdate, Function.update_self, Option.bind_some,
      decodeRunDay_bytes hframed (insertRun_length hframed.length hinsert), Option.some.injEq] at hd
    rw [← hd]
    exact insertRun_order horder hinsert
  · rw [storedDay, Function.update_of_ne hdate] at hd
    exact h date d hd

/-- Whatever an append leaves is in order. -/
theorem RunsInOrder.append {run : RunRecord} (h : RunsInOrder s) (hleaves : AppendLeaves run s s') :
    RunsInOrder s' := by
  obtain ⟨s₁, rfl | hwritten, hswept⟩ := hleaves
  · exact h.swept hswept
  · exact (h.written hwritten).swept hswept

/-- Dropping the days that have aged out. -/
lemma sweepDays_swept (date : UInt32) (count : ℕ) (days : ℤ) (s : NvsFlash UInt32) :
    wp anyNvsFaults (sweepDays date count days) (fun _ s' => DaysSwept s s') s := by
  induction count generalizing days s with
  | zero => exact wp_pure (DaysSwept.refl s)
  | succ count ih =>
      have herase := daysSwept_update s (dateAddDays date (-days))
      have hmaybe : ∀ reached : Bool, DaysSwept s
          (if reached then Function.update s (dateAddDays date (-days)) none else s) := by
        intro reached
        cases reached with
        | true => exact herase
        | false => exact DaysSwept.refl s
      have hrest : ∀ s', DaysSwept s s' →
          wp anyNvsFaults (sweepDays date count (days + 1)) (fun _ s'' => DaysSwept s s'') s' :=
        fun s' hs' => wp_mono (ih (days + 1) s') fun _ _ => hs'.trans
      rw [sweepDays]
      refine wp_bind (NvsFlash.wp_attempt_eraseKey (by trivial) ?_ (fun _ => ?_)
        (fun e reached _ => ?_) (fun reached _ => hmaybe reached))
      · rw [andThen_val]
        refine wp_bind (NvsFlash.wp_attempt_plain (by trivial) ?_ (fun e _ _ => ?_) herase)
        · exact hrest _ herase
        · exact hrest _ herase
      · exact hrest s (DaysSwept.refl s)
      · exact hrest _ (hmaybe reached)

lemma writeDay_leaves {run : RunRecord} (existed : Bool) {d : RunDay} (hdate : d.h.date = run.date)
    (hs' : s' = Function.update s run.date (some (runDayBytes d))) (hwritten : Written run s s') :
    wp anyNvsFaults (writeDay existed d) (fun _ s'' => AppendLeaves run s s'') s := by
  have hend : AppendLeaves run s s' := ⟨s', .inr hwritten, DaysSwept.refl s'⟩
  have hmaybe : ∀ reached : Bool, AppendLeaves run s
      (if reached then Function.update s d.h.date (some (runDayBytes d)) else s) := by
    intro reached
    cases reached with
    | true => rw [if_pos rfl, hdate, ← hs']; exact hend
    | false => exact ⟨s, .inl rfl, DaysSwept.refl s⟩
  rw [writeDay]
  refine wp_bind (wp_attempt (NvsFlash.wp_set (by trivial) ?_ (fun e reached _ => ?_)
    (fun reached _ => hmaybe reached)))
  swap
  · rw [attempted_err, andThen_val]
    exact wp_pure (hmaybe reached)
  rw [hdate, ← hs', attempted_val, andThen_val]
  refine wp_bind (NvsFlash.wp_attempt_plain (by trivial) ?_ (fun e _ _ => ?_) hend)
  swap
  · rw [andThen_val]
    exact wp_pure hend
  rw [andThen_val]
  cases existed with
  | true => exact wp_pure hend
  | false =>
      refine wp_if_neg Bool.false_ne_true (wp_bind (wp_mono (sweepDays_swept _ _ _ s') ?_))
      intro o s'' hswept
      have hleaves : AppendLeaves run s s'' := ⟨s', .inr hwritten, hswept⟩
      cases o with
      | val _ =>
          rw [andThen_val]
          exact wp_pure hleaves
      | err e => exact hleaves
      | cut => exact hleaves

/-- Whatever fails during an append, the flash is as it was, or the run is in its day. -/
theorem storeAppendRun_leaves (run : RunRecord) (s : NvsFlash UInt32) :
    wp anyNvsFaults (storeAppendRun run) (fun _ s' => AppendLeaves run s s') s := by
  have hnone : AppendLeaves run s s := ⟨s, .inl rfl, DaysSwept.refl s⟩
  have hstop : wp anyNvsFaults (pure false : RunsM Bool) (fun _ s' => AppendLeaves run s s') s :=
    wp_pure hnone
  rw [storeAppendRun]
  by_cases hzero : run.date = 0
  · exact wp_if_pos hzero hstop
  · refine wp_if_neg hzero ?_
    refine wp_bind (NvsFlash.wp_attempt_plain (by trivial) ?_ (fun e _ _ => ?_) hnone)
    swap
    · exact hstop
    rw [andThen_val]
    refine wp_bind (NvsFlash.wp_attempt_plain (by trivial) ?_ (fun e _ _ => ?_) hnone)
    swap
    · exact hstop
    rw [andThen_val]
    -- the day as it was loaded, or none
    have hload : wp anyNvsFaults (loadDay run.date)
        (fun o s' => s' = s ∧ ∀ b, o = .val (some b) → storedDay s run.date = some b) s := by
      rw [loadDay]
      refine wp_bind (NvsFlash.wp_attempt_getValue (by trivial) ?_ (fun e _ _ => ?_) ⟨rfl, nofun⟩)
      · rw [andThen_val]
        cases hread : NvsFlash.read s run.date (runBlobSize kMaxRunsPerDay) with
        | error e => exact wp_pure ⟨rfl, nofun⟩
        | ok blob =>
            dsimp only
            refine wp_pure ⟨rfl, fun b hb => ?_⟩
            rw [storedDay, NvsFlash.of_read hread, Option.bind_some]
            exact Outcome.val.inj hb
      · rw [andThen_val]
        exact wp_pure ⟨rfl, nofun⟩
    refine wp_bind (wp_mono hload ?_)
    rintro o s' ⟨rfl, hb⟩
    cases o with
    | err e => exact hnone
    | cut => exact hnone
    | val b =>
        rw [andThen_val]
        dsimp only
        cases hinsert : insertRun (b.getD (blankRunDay run.date)).runs
            { run with flags := run.flags &&& ~~~ runOpen } with
        | none => exact wp_pure hnone
        | some runs =>
            have hday : b.getD (blankRunDay run.date) = blankRunDay run.date ∨
                storedDay s' run.date = some (b.getD (blankRunDay run.date)) := by
              cases b with
              | none => exact .inl rfl
              | some b => exact .inr (hb b rfl)
            have hdate : (b.getD (blankRunDay run.date)).h.date = run.date := by
              rcases hday with heq | hstored
              · rw [heq]
                rfl
              · obtain ⟨blob, -, hblob⟩ := Option.bind_eq_some_iff.mp hstored
                exact (framed_of_decode hblob).date
            exact writeDay_leaves _ hdate rfl ⟨_, runs, hday, hinsert, rfl⟩

end ArcticController

/-
A client that polls the log.

* `LogOp`, `LogClient`, `logRun`: lines, clears and the polls of a client that passes the
  last sequence it received, with the entries stored so far;
* `LogClient.Numbered`: the ring holds the newest entries since the last clear, and the
  entries are numbered in order; it holds in every run;
* `LogClient.CaughtUp`: what the client has passed it has received, as long as the numbers
  do not wrap;
* `log_polling_misses_nothing`: what every poll returns, and what the client has seen.
-/
import ArcticController.Log.LogBuffer

namespace ArcticController

/-- What happens to the log. -/
inductive LogOp
  | line (formatted : List UInt8) (uptimeMs : UInt32)
  | clear
  | poll (maxCount : ℤ)

/-- The ring, every entry stored since the boot and since the last clear, and the client:
the last sequence it received and all it received. -/
structure LogClient where
  buffer : LogBuffer := logBufferInit
  recorded : List LogEntry := []
  current : List LogEntry := []
  cursor : UInt32 := 0
  received : List LogEntry := []

namespace LogClient

/-- An entry is stored. -/
def store (s : LogClient) (e : LogEntry) : LogClient :=
  { s with
    buffer := s.buffer.store e
    recorded := s.recorded ++ [e]
    current := s.current ++ [e] }

/-- The client polls with the last sequence it received. -/
def poll (minLevel : EspLogLevel) (s : LogClient) (maxCount : ℤ) : LogClient :=
  let got := logBufferGet s.buffer maxCount s.cursor minLevel
  { s with
    cursor := (got.getLast?.map LogEntry.seq).getD s.cursor
    received := s.received ++ got }

/-- One operation. -/
def step (minLevel : EspLogLevel) (s : LogClient) : LogOp → LogClient
  | .line formatted uptimeMs =>
      match parseLogLine formatted with
      | some (level, tag, message) => s.store (s.buffer.nextEntry level tag message uptimeMs)
      | none => s
  | .clear => { s with buffer := logBufferClear s.buffer, current := [] }
  | .poll maxCount => s.poll minLevel maxCount

/-- The entries that were neither overwritten nor cleared. -/
def retained (s : LogClient) : List LogEntry := s.current.rtake logBufferMaxEntries

end LogClient

/-- The log and a client of one level after some operations. -/
def logRun (minLevel : EspLogLevel) (ops : List LogOp) : LogClient :=
  ops.foldl (LogClient.step minLevel) {}

namespace LogClient

variable {minLevel : EspLogLevel} {s : LogClient}

/-! ### The ring and the numbers -/

/-- The ring holds the newest entries since the last clear; the entries are numbered from
one on. -/
structure Numbered (s : LogClient) : Prop where
  entries : s.buffer.entries = s.retained
  nextSeq : s.buffer.nextSeq = UInt32.ofNat (s.recorded.length + 1)
  current : s.current <:+ s.recorded
  seq : ∀ i (h : i < s.recorded.length), (s.recorded.get ⟨i, h⟩).seq = UInt32.ofNat (i + 1)

/-- The newest entries of a list with one more. -/
lemma rtake_concat (l : List LogEntry) (e : LogEntry) (n : ℕ) (hn : 0 < n) :
    (l ++ [e]).rtake n = (if (l.rtake n).length < n then l.rtake n else (l.rtake n).tail) ++ [e] := by
  obtain ⟨n, rfl⟩ : ∃ m, n = m + 1 := ⟨n - 1, by omega⟩
  rw [List.rtake_concat_succ]
  congr 1
  rw [List.rtake, List.rtake, List.length_drop]
  by_cases hlt : l.length ≤ n
  · rw [if_pos (by omega)]
    congr 1
    omega
  · rw [if_neg (by omega), List.tail_drop]
    congr 1
    omega

lemma Numbered.start : Numbered {} where
  entries := rfl
  nextSeq := rfl
  current := List.suffix_rfl
  seq := fun i h => absurd h (Nat.not_lt_zero i)

lemma Numbered.store (h : Numbered s) (level : EspLogLevel) (tag message : List UInt8)
    (uptimeMs : UInt32) : Numbered (s.store (s.buffer.nextEntry level tag message uptimeMs)) where
  entries := by
    have hlength : s.retained.length = s.buffer.count := by
      rw [← h.entries, LogBuffer.length_entries]
    rw [LogClient.store, LogBuffer.entries_store, retained,
      rtake_concat _ _ _ (by decide : 0 < logBufferMaxEntries)]
    rw [← retained, hlength, h.entries]
  nextSeq := by
    change s.buffer.nextSeq + 1 = UInt32.ofNat ((s.recorded ++ [_]).length + 1)
    rw [h.nextSeq, List.length_append, List.length_singleton]
    exact (UInt32.ofNat_add (s.recorded.length + 1) 1).symm
  current := by
    obtain ⟨before, hbefore⟩ := h.current
    exact ⟨before, by rw [LogClient.store, ← hbefore, List.append_assoc]⟩
  seq := by
    intro i hi
    change ((s.recorded ++ [_]).get ⟨i, hi⟩).seq = _
    have hi' : i < s.recorded.length + 1 := by
      rw [LogClient.store, List.length_append, List.length_singleton] at hi
      exact hi
    rw [List.get_eq_getElem]
    by_cases hlast : i < s.recorded.length
    · rw [List.getElem_append_left hlast]
      exact h.seq i hlast
    · obtain rfl : i = s.recorded.length := by omega
      rw [List.getElem_append_right le_rfl]
      simpa [LogBuffer.nextEntry] using h.nextSeq

/-- Every operation keeps the ring and the numbers in order. -/
lemma Numbered.step (h : Numbered s) (op : LogOp) : Numbered (s.step minLevel op) := by
  cases op with
  | line formatted uptimeMs =>
      rw [LogClient.step]
      cases parseLogLine formatted with
      | none => exact h
      | some parsed => exact h.store _ _ _ _
  | clear =>
      exact ⟨entries_logBufferClear.trans (List.rtake_nil _).symm, h.nextSeq, List.nil_suffix,
        h.seq⟩
  | poll maxCount => exact ⟨h.entries, h.nextSeq, h.current, h.seq⟩

lemma numbered_logRun (ops : List LogOp) : Numbered (logRun minLevel ops) := by
  induction ops using List.reverseRecOn with
  | nil => exact Numbered.start
  | append_singleton ops op ih =>
      rw [logRun, List.foldl_append]
      exact ih.step op

/-! ### Numbers that do not wrap -/

/-- The numbers of the entries are their places. -/
lemma Numbered.toNat_seq (h : Numbered s) (hseq : s.recorded.length < 2 ^ 32) {i : ℕ}
    (hi : i < s.recorded.length) : (s.recorded.get ⟨i, hi⟩).seq.toNat = i + 1 := by
  rw [h.seq i hi]
  exact UInt32.toNat_ofNat_of_lt' (by change i + 1 < 4294967296; omega)

/-- Entries in the order of their numbers. -/
def Increasing (entries : List LogEntry) : Prop :=
  entries.Pairwise fun e e' => e.seq < e'.seq

lemma Numbered.increasing (h : Numbered s) (hseq : s.recorded.length < 2 ^ 32) :
    Increasing s.recorded := by
  rw [Increasing, List.pairwise_iff_getElem]
  intro i j hi hj hij
  have hi' := h.toNat_seq hseq hi
  have hj' := h.toNat_seq hseq hj
  rw [List.get_eq_getElem] at hi' hj'
  rw [UInt32.lt_iff_toNat_lt, hi', hj']
  omega

lemma Numbered.seq_bounds (h : Numbered s) (hseq : s.recorded.length < 2 ^ 32) {e : LogEntry}
    (he : e ∈ s.recorded) : 0 < e.seq.toNat ∧ e.seq.toNat ≤ s.recorded.length := by
  obtain ⟨i, hi, rfl⟩ := List.getElem_of_mem he
  have hi' : s.recorded[i].seq.toNat = i + 1 := h.toNat_seq hseq hi
  omega

/-- What is retained was stored. -/
lemma Numbered.retained_suffix (h : Numbered s) : s.retained <:+ s.recorded :=
  (List.drop_suffix _ _).trans h.current

/-- An entry beyond a sequence. -/
def Beyond (cursor : UInt32) (minLevel : EspLogLevel) (e : LogEntry) : Prop :=
  cursor < e.seq ∧ minLevel.Selects e

instance (cursor : UInt32) (minLevel : EspLogLevel) : DecidablePred (Beyond cursor minLevel) :=
  fun _ => inferInstanceAs (Decidable (_ ∧ _))

/-- A call returns the oldest entries retained beyond a sequence. -/
lemma Numbered.get (h : Numbered s) (hseq : s.recorded.length < 2 ^ 32) (maxCount : ℤ)
    (sinceSeq : UInt32) (level : EspLogLevel) :
    logBufferGet s.buffer maxCount sinceSeq level =
      (s.retained.filter fun e => Beyond sinceSeq level e).take maxCount.toNat := by
  rw [logBufferGet_eq, h.entries]
  refine congrArg (List.take maxCount.toNat)
    (List.filter_congr fun e he => decide_eq_decide.mpr ?_)
  have hpos := (h.seq_bounds hseq (h.retained_suffix.subset he)).1
  constructor
  · rintro ⟨hzero | hlt, hlevel⟩
    · refine ⟨?_, hlevel⟩
      rw [hzero, UInt32.lt_iff_toNat_lt]
      exact hpos
    · exact ⟨hlt, hlevel⟩
  · rintro ⟨hlt, hlevel⟩
    exact ⟨.inr hlt, hlevel⟩

/-- What a call returns is in order. -/
lemma Numbered.get_increasing (h : Numbered s) (hseq : s.recorded.length < 2 ^ 32)
    (maxCount : ℤ) (sinceSeq : UInt32) (level : EspLogLevel) :
    Increasing (logBufferGet s.buffer maxCount sinceSeq level) := by
  rw [h.get hseq]
  exact (h.increasing hseq).sublist
    (((List.take_sublist _ _).trans List.filter_sublist).trans h.retained_suffix.sublist)

/-! ### The client -/

/-- What the client received is in order and was stored; what it has passed of the entries
retained it has received. -/
structure CaughtUp (minLevel : EspLogLevel) (s : LogClient) : Prop where
  ordered : Increasing s.received
  sound : ∀ e ∈ s.received, e ∈ s.recorded ∧ minLevel.Selects e ∧ e.seq ≤ s.cursor
  cursor_le : s.cursor.toNat ≤ s.recorded.length
  passed : ∀ e ∈ s.retained, minLevel.Selects e → e.seq ≤ s.cursor → e ∈ s.received

/-- What one poll returns, and where it leaves the client. -/
lemma Numbered.poll_spec (h : Numbered s) (hseq : s.recorded.length < 2 ^ 32) (maxCount : ℤ) :
    ∃ got waiting, logBufferGet s.buffer maxCount s.cursor minLevel = got ∧
      s.retained.filter (fun e => Beyond s.cursor minLevel e) = got ++ waiting ∧
      (waiting ≠ [] → got.length = maxCount.toNat) ∧
      s.cursor ≤ (s.poll minLevel maxCount).cursor ∧
      (∀ e ∈ got, e.seq ≤ (s.poll minLevel maxCount).cursor) ∧
      (∀ e ∈ waiting, (s.poll minLevel maxCount).cursor < e.seq) ∧
      ((s.poll minLevel maxCount).cursor = s.cursor ∨
        ∃ e ∈ got, (s.poll minLevel maxCount).cursor = e.seq) := by
  set beyond := s.retained.filter fun e => Beyond s.cursor minLevel e with hbeyond
  have hget : logBufferGet s.buffer maxCount s.cursor minLevel = beyond.take maxCount.toNat :=
    h.get hseq maxCount s.cursor minLevel
  have hincreasing : Increasing (beyond.take maxCount.toNat ++ beyond.drop maxCount.toNat) := by
    rw [List.take_append_drop]
    exact (h.increasing hseq).sublist (List.filter_sublist.trans h.retained_suffix.sublist)
  obtain ⟨-, -, hacross⟩ := List.pairwise_append.mp hincreasing
  have hbehind : ∀ e ∈ beyond, s.cursor < e.seq := fun e he =>
    (of_decide_eq_true (List.mem_filter.mp he).2 : Beyond s.cursor minLevel e).1
  have hcursor : (s.poll minLevel maxCount).cursor =
      ((beyond.take maxCount.toNat).getLast?.map LogEntry.seq).getD s.cursor := by
    rw [poll, hget]
  refine ⟨beyond.take maxCount.toNat, beyond.drop maxCount.toNat, hget,
    (List.take_append_drop _ _).symm, fun hwait => ?_, ?_⟩
  · rw [List.length_take, min_eq_left]
    by_contra hcon
    exact hwait (List.drop_eq_nil_of_le (not_le.mp hcon).le)
  have htake : ∀ e ∈ beyond.take maxCount.toNat, s.cursor < e.seq :=
    fun e he => hbehind e (List.mem_of_mem_take he)
  have hdrop : ∀ e ∈ beyond.drop maxCount.toNat, s.cursor < e.seq :=
    fun e he => hbehind e (List.mem_of_mem_drop he)
  rw [hcursor]
  generalize beyond.take maxCount.toNat = got at *
  rcases List.eq_nil_or_concat got with rfl | ⟨earlier, last, rfl⟩
  · exact ⟨UInt32.le_refl _, fun _ he => absurd he List.not_mem_nil, hdrop, .inl rfl⟩
  · rw [List.concat_eq_append] at *
    have hlast : ∀ e ∈ earlier, e.seq < last.seq := fun e he =>
      (List.pairwise_append.mp (List.pairwise_append.mp hincreasing).1).2.2 e he last
        (List.mem_singleton_self _)
    rw [List.getLast?_concat, Option.map_some, Option.getD_some]
    refine ⟨UInt32.le_of_lt (htake last (by simp)), fun e he => ?_,
      hacross last (by simp), .inr ⟨last, by simp, rfl⟩⟩
    rcases List.mem_append.mp he with he | he
    · exact UInt32.le_of_lt (hlast e he)
    · rw [List.mem_singleton.mp he]
      exact UInt32.le_refl _

lemma CaughtUp.start : CaughtUp minLevel {} where
  ordered := List.Pairwise.nil
  sound := fun _ he => absurd he List.not_mem_nil
  cursor_le := Nat.zero_le _
  passed := fun _ he => absurd he List.not_mem_nil

/-- A new entry is ahead of the client. -/
lemma CaughtUp.store (h : CaughtUp minLevel s) (e : LogEntry)
    (hseq : s.cursor < e.seq) : CaughtUp minLevel (s.store e) where
  ordered := h.ordered
  sound := fun e' he' => by
    obtain ⟨hmem, hlevel, hle⟩ := h.sound e' he'
    exact ⟨List.mem_append_left _ hmem, hlevel, hle⟩
  cursor_le := by
    change s.cursor.toNat ≤ (s.recorded ++ [e]).length
    rw [List.length_append]
    exact h.cursor_le.trans (Nat.le_add_right _ _)
  passed := by
    intro e' he' hlevel hle
    rw [retained, LogClient.store, rtake_concat _ _ _ (by decide), List.mem_append] at he'
    rcases he' with he' | he'
    · refine h.passed e' ?_ hlevel hle
      rw [retained]
      split at he'
      · exact he'
      · exact List.mem_of_mem_tail he'
    · rw [List.mem_singleton.mp he'] at hle
      rw [UInt32.lt_iff_toNat_lt] at hseq
      exact absurd (UInt32.le_iff_toNat_le.mp hle) (not_le.mpr hseq)

lemma CaughtUp.poll (hn : Numbered s) (hseq : s.recorded.length < 2 ^ 32)
    (h : CaughtUp minLevel s) (maxCount : ℤ) : CaughtUp minLevel (s.poll minLevel maxCount) := by
  obtain ⟨got, waiting, hgot, hsplit, -, hle, hgotle, hahead, hcursor⟩ :=
    hn.poll_spec hseq maxCount
  have hreceived : (s.poll minLevel maxCount).received = s.received ++ got := by
    rw [LogClient.poll, hgot]
  have hmem : ∀ e ∈ got, e ∈ s.retained ∧ s.cursor < e.seq ∧ minLevel.Selects e := by
    intro e he
    have hfilter : e ∈ s.retained.filter fun e => Beyond s.cursor minLevel e := by
      rw [hsplit]
      exact List.mem_append_left _ he
    obtain ⟨hret, hbeyond⟩ := List.mem_filter.mp hfilter
    exact ⟨hret, of_decide_eq_true hbeyond⟩
  refine ⟨?_, fun e he => ?_, ?_, fun e he hlevel hpassed => ?_⟩
  · rw [Increasing, hreceived, List.pairwise_append]
    refine ⟨h.ordered, ?_, fun e he e' he' => ?_⟩
    · rw [← hgot]
      exact hn.get_increasing hseq _ _ _
    · exact UInt32.lt_of_le_of_lt (h.sound e he).2.2 (hmem e' he').2.1
  · rw [hreceived, List.mem_append] at he
    rcases he with he | he
    · obtain ⟨hrec, hlevel, hcur⟩ := h.sound e he
      exact ⟨hrec, hlevel, UInt32.le_trans hcur hle⟩
    · obtain ⟨hret, -, hlevel⟩ := hmem e he
      exact ⟨hn.retained_suffix.subset hret, hlevel, hgotle e he⟩
  · rcases hcursor with heq | ⟨e, he, heq⟩
    · rw [heq]
      exact h.cursor_le
    · rw [heq]
      exact (hn.seq_bounds hseq (hn.retained_suffix.subset (hmem e he).1)).2
  · rw [hreceived, List.mem_append]
    by_cases hold : e.seq ≤ s.cursor
    · exact .inl (h.passed e he hlevel hold)
    · have hbeyond : e ∈ s.retained.filter fun e => Beyond s.cursor minLevel e :=
        List.mem_filter.mpr ⟨he, decide_eq_true ⟨UInt32.not_le.mp hold, hlevel⟩⟩
      rw [hsplit, List.mem_append] at hbeyond
      refine .inr (hbeyond.resolve_right fun hwait => ?_)
      exact UInt32.not_le.mpr (hahead e hwait) hpassed

/-- The entries stored so far are never taken back. -/
lemma recorded_le_step (op : LogOp) : s.recorded.length ≤ (s.step minLevel op).recorded.length := by
  cases op with
  | line formatted uptimeMs =>
      rw [LogClient.step]
      cases parseLogLine formatted with
      | none => exact le_rfl
      | some parsed =>
          change _ ≤ (s.recorded ++ [_]).length
          rw [List.length_append]
          exact Nat.le_add_right _ _
  | clear => exact le_rfl
  | poll maxCount => exact le_rfl

/-- Every operation keeps the client caught up. -/
lemma CaughtUp.step (hn : Numbered s) (h : CaughtUp minLevel s) (op : LogOp)
    (hseq : (s.step minLevel op).recorded.length < 2 ^ 32) :
    CaughtUp minLevel (s.step minLevel op) := by
  have hbefore : s.recorded.length < 2 ^ 32 := (recorded_le_step op).trans_lt hseq
  cases op with
  | line formatted uptimeMs =>
      rw [LogClient.step] at hseq ⊢
      cases hparse : parseLogLine formatted with
      | none => exact h
      | some parsed =>
          rw [hparse] at hseq
          refine h.store _ ?_
          change s.cursor < s.buffer.nextSeq
          have hlength : s.recorded.length + 1 < 2 ^ 32 := by
            change (s.recorded ++ [_]).length < 2 ^ 32 at hseq
            rwa [List.length_append] at hseq
          rw [hn.nextSeq, UInt32.lt_iff_toNat_lt,
            UInt32.toNat_ofNat_of_lt' (by change _ < 4294967296; omega)]
          exact Nat.lt_succ_of_le h.cursor_le
  | clear =>
      refine ⟨h.ordered, h.sound, h.cursor_le, fun e he => ?_⟩
      rw [retained, LogClient.step, List.rtake_nil] at he
      exact absurd he List.not_mem_nil
  | poll maxCount => exact h.poll hn hbefore maxCount

lemma caughtUp_logRun (ops : List LogOp)
    (hseq : (logRun minLevel ops).recorded.length < 2 ^ 32) :
    CaughtUp minLevel (logRun minLevel ops) := by
  induction ops using List.reverseRecOn with
  | nil => exact CaughtUp.start
  | append_singleton ops op ih =>
      rw [logRun, List.foldl_append] at hseq ⊢
      exact (ih ((recorded_le_step op).trans_lt hseq)).step (numbered_logRun ops) op hseq

/-! ### What every poll returns -/

/-- Every call returns the oldest entries retained beyond its sequence, in order. The client
received entries in order and of its level; after a poll it has received every one retained,
except those that still wait behind a poll that returned all it had room for. -/
structure MissesNothing (minLevel : EspLogLevel) (s : LogClient) : Prop where
  get : ∀ maxCount sinceSeq level, logBufferGet s.buffer maxCount sinceSeq level =
    (s.retained.filter fun e => Beyond sinceSeq level e).take maxCount.toNat
  increasing : ∀ maxCount sinceSeq level,
    Increasing (logBufferGet s.buffer maxCount sinceSeq level)
  ordered : Increasing s.received
  sound : ∀ e ∈ s.received, e ∈ s.recorded ∧ minLevel.Selects e
  complete : ∀ maxCount, ∀ e ∈ s.retained, minLevel.Selects e →
    e ∈ (s.poll minLevel maxCount).received ∨
      ((s.poll minLevel maxCount).cursor < e.seq ∧
        (logBufferGet s.buffer maxCount s.cursor minLevel).length = maxCount.toNat)

end LogClient

open LogClient

/-- **Polling the log misses nothing and repeats nothing**, in every run of lines, clears and
polls with fewer than 2^32 entries since the boot. -/
theorem log_polling_misses_nothing (minLevel : EspLogLevel) (ops : List LogOp)
    (hseq : (logRun minLevel ops).recorded.length < 2 ^ 32) :
    MissesNothing minLevel (logRun minLevel ops) := by
  have hn := @numbered_logRun minLevel ops
  have hc := caughtUp_logRun ops hseq
  refine ⟨hn.get hseq, hn.get_increasing hseq, hc.ordered,
    fun e he => ⟨(hc.sound e he).1, (hc.sound e he).2.1⟩, fun maxCount e he hlevel => ?_⟩
  have hafter := hc.poll hn hseq maxCount
  obtain ⟨got, waiting, hgot, hsplit, hfull, hle, hgotle, -, -⟩ :=
    @Numbered.poll_spec minLevel _ hn hseq maxCount
  by_cases hpassed : e.seq ≤ ((logRun minLevel ops).poll minLevel maxCount).cursor
  · exact .inl (hafter.passed e he hlevel hpassed)
  · have hlt := UInt32.not_le.mp hpassed
    refine .inr ⟨hlt, ?_⟩
    rw [hgot]
    refine hfull fun hnone => ?_
    have hbeyond : e ∈ (logRun minLevel ops).retained.filter
        fun e => Beyond (logRun minLevel ops).cursor minLevel e :=
      List.mem_filter.mpr ⟨he, decide_eq_true ⟨UInt32.lt_of_le_of_lt hle hlt, hlevel⟩⟩
    rw [hsplit, hnone, List.append_nil] at hbeyond
    exact hpassed (hgotle e hbeyond)

/-- A line of level `I`. -/
def infoLine : List UInt8 := [0x49, 0x20, 0x28, 0x31, 0x29, 0x20, 0x74, 0x3A, 0x20, 0x78]

lemma parseLogLine_infoLine : parseLogLine infoLine = some (.info, [0x74], [0x78]) := by decide

/-- Three lines, a poll of two entries, and a clear. -/
theorem log_polling_misses_nothing_threeLines :
    MissesNothing .info (logRun .info
      [.line infoLine 5, .line infoLine 6, .poll 2, .line infoLine 7, .clear]) := by
  refine log_polling_misses_nothing .info _ ?_
  decide

/-- A run of lines alone. -/
lemma logRun_lines (n : ℕ) :
    (logRun .verbose (List.replicate n (.line infoLine 0))).recorded.length = n ∧
      (logRun .verbose (List.replicate n (.line infoLine 0))).current =
        (logRun .verbose (List.replicate n (.line infoLine 0))).recorded := by
  induction n with
  | zero => exact ⟨rfl, rfl⟩
  | succ n ih =>
      rw [List.replicate_succ', logRun, List.foldl_append, ← logRun, List.foldl_cons,
        List.foldl_nil, LogClient.step, parseLogLine_infoLine]
      refine ⟨?_, congrArg (· ++ [_]) ih.2⟩
      change (_ ++ [_]).length = n + 1
      rw [List.length_append, ih.1, List.length_singleton]

/-- Once the numbers have wrapped the entries of the ring are not in order. -/
lemma not_increasing_wrapped {n : ℕ} (hn : UInt32.ofNat n = 0) (hlarge : 256 ≤ n) :
    ¬ Increasing (logBufferGet (logRun .verbose (List.replicate n (.line infoLine 0))).buffer
      logBufferMaxEntries 0 .verbose) := by
  obtain ⟨hlength, hcurrent⟩ := logRun_lines n
  have hnumbered := @numbered_logRun .verbose (List.replicate n (.line infoLine 0))
  rw [logBufferGet_all, hnumbered.entries, retained, hcurrent, List.rtake, hlength]
  generalize logRun .verbose (List.replicate n (.line infoLine 0)) = s at *
  intro hincreasing
  have hmax : logBufferMaxEntries = 256 := rfl
  have hlast : ∀ i (hi : i < s.recorded.length), i + 1 = n → s.recorded[i].seq = 0 := by
    intro i hi heq
    have h := hnumbered.seq i hi
    rw [heq, hn] at h
    exact h
  have hlt := List.pairwise_iff_getElem.mp hincreasing 254 255
    (by rw [List.length_drop]; omega) (by rw [List.length_drop]; omega) (by omega)
  rw [List.getElem_drop, List.getElem_drop, hlast (n - logBufferMaxEntries + 255) (by omega) (by omega),
    UInt32.lt_iff_toNat_lt] at hlt
  exact Nat.not_lt_zero _ hlt

/-- The last of 2^32 lines gets the number 0. -/
theorem log_sequence_wraps :
    ¬ Increasing (logBufferGet
      (logRun .verbose (List.replicate (2 ^ 32) (.line infoLine 0))).buffer
      logBufferMaxEntries 0 .verbose) :=
  not_increasing_wrapped (by decide) (by decide)

end ArcticController

/-
The ring of log entries, `log_buffer.cpp`.

* `parseLogLine`: a formatted line split into level, tag and message;
* `LogBuffer`: the cells with `s_head`, `s_count` and `s_next_seq`; `store` writes an
  entry, `logBufferClear` empties the ring, `logBufferGet` walks it;
* `LogBuffer.entries`: the entries of the ring, oldest first; `entries_store`: storing
  appends to them, after the oldest left a full ring;
* `logBufferGet_eq`: what a call returns of them.
-/
import ArcticController.Base.CharArray
import ArcticController.Base.Ring
import Mathlib.Data.List.DropRight

namespace ArcticController

/-- The capacity of the log ring (`LOG_BUFFER_MAX_ENTRIES`). -/
def logBufferMaxEntries : ℕ := 256

def logBufferMsgSize : ℕ := 192

def logBufferTagSize : ℕ := 24

/-! ### Entries and lines -/

/-- `esp_log_level_t`; lower levels are more severe. -/
inductive EspLogLevel
  | none
  | error
  | warn
  | info
  | debug
  | verbose
deriving DecidableEq, Repr

/-- The number of a level. -/
def EspLogLevel.value : EspLogLevel → ℕ
  | .none => 0
  | .error => 1
  | .warn => 2
  | .info => 3
  | .debug => 4
  | .verbose => 5

/-- `log_entry_t`. -/
structure LogEntry where
  seq : UInt32 := 0
  uptimeMs : UInt32 := 0
  level : EspLogLevel := .none
  tag : CharArray logBufferTagSize := CharArray.zero
  message : CharArray logBufferMsgSize := CharArray.zero

/-- The level of the first character of a line. -/
def levelOfChar (c : UInt8) : Option EspLogLevel :=
  if c = 0x45 then some .error
  else if c = 0x57 then some .warn
  else if c = 0x49 then some .info
  else if c = 0x44 then some .debug
  else if c = 0x56 then some .verbose
  else none

/-- `strstr(line, ": ")`: what stands before the first `": "` and behind it. -/
def splitColon : List UInt8 → Option (List UInt8 × List UInt8)
  | 0x3A :: 0x20 :: rest => some ([], rest)
  | [] => none
  | c :: rest => (splitColon rest).map fun p => (c :: p.1, p.2)

/-- A message without the colour reset at its end. -/
def stripReset (message : List UInt8) : List UInt8 :=
  if 4 ≤ message.length ∧ message.getLast? = some 0x6D ∧
      message[message.length - 4]? = some 0x1B then
    message.take (message.length - 4)
  else message

/-- The level, the tag and the message of a formatted line, if it is one of ESP-IDF. -/
def parseLogLine (formatted : List UInt8) : Option (EspLogLevel × List UInt8 × List UInt8) :=
  let p := if formatted.head? = some 0x1B then (formatted.dropWhile (· != 0x6D)).tail
    else formatted
  p.head?.bind levelOfChar |>.bind fun level =>
    match p.dropWhile (· != 0x29) with
    | _ :: 0x20 :: c :: rest =>
        (splitColon (c :: rest)).map fun (tag, rest) =>
          (level, tag, stripReset (rest.rdropWhile fun c => c == 0x0A || c == 0x0D))
    | _ => none

/-! ### The ring -/

/-- The cells of the ring and the static variables. -/
structure LogBuffer where
  cells : ℕ → LogEntry
  head : ℕ
  count : ℕ
  nextSeq : UInt32
  head_lt : head < logBufferMaxEntries
  count_le : count ≤ logBufferMaxEntries
  head_eq : count < logBufferMaxEntries → head = count

/-- `log_buffer_init`. -/
def logBufferInit : LogBuffer where
  cells := fun _ => {}
  head := 0
  count := 0
  nextSeq := 1
  head_lt := by decide
  count_le := by decide
  head_eq := fun _ => rfl

namespace LogBuffer

variable (b : LogBuffer)

/-- The entry the next line becomes, written over the one in its cell. -/
def nextEntry (level : EspLogLevel) (tag message : List UInt8) (uptimeMs : UInt32) : LogEntry where
  seq := b.nextSeq
  uptimeMs := uptimeMs
  level := level
  tag := (b.cells b.head).tag.strlcpy tag
  message := (b.cells b.head).message.strlcpy message

lemma head_lt_next : (b.head + 1) % logBufferMaxEntries < logBufferMaxEntries :=
  Nat.mod_lt _ (by decide)

lemma count_le_next : ringCount logBufferMaxEntries b.count ≤ logBufferMaxEntries := by
  have := b.count_le
  rw [ringCount]
  split <;> omega

lemma head_eq_next (h : ringCount logBufferMaxEntries b.count < logBufferMaxEntries) :
    (b.head + 1) % logBufferMaxEntries = ringCount logBufferMaxEntries b.count := by
  rw [ringCount] at h ⊢
  split at h
  · next hlt => rw [if_pos hlt, b.head_eq hlt, Nat.mod_eq_of_lt h]
  · exact absurd h ‹_›

/-- Write an entry into the next cell. -/
def store (entry : LogEntry) : LogBuffer where
  cells := Function.update b.cells b.head entry
  head := (b.head + 1) % logBufferMaxEntries
  count := ringCount logBufferMaxEntries b.count
  nextSeq := b.nextSeq + 1
  head_lt := b.head_lt_next
  count_le := b.count_le_next
  head_eq := b.head_eq_next

/-- `parse_and_store`. -/
def parseAndStore (formatted : List UInt8) (uptimeMs : UInt32) : LogBuffer :=
  match parseLogLine formatted with
  | some (level, tag, message) => b.store (b.nextEntry level tag message uptimeMs)
  | none => b

end LogBuffer

/-- `log_buffer_clear`. -/
def logBufferClear (b : LogBuffer) : LogBuffer where
  cells := fun _ => {}
  head := 0
  count := 0
  nextSeq := b.nextSeq
  head_lt := by decide
  count_le := by decide
  head_eq := fun _ => rfl

/-- The walk of `log_buffer_get` over the cells; `out` is what has been copied. -/
def getLoop (b : LogBuffer) (start : ℕ) (maxCount : ℤ) (sinceSeq : UInt32)
    (minLevel : EspLogLevel) : List ℕ → List LogEntry → List LogEntry
  | [], out => out
  | i :: rest, out =>
      if (out.length : ℤ) < maxCount then
        let e := b.cells ((start + i) % logBufferMaxEntries)
        if sinceSeq > 0 ∧ e.seq ≤ sinceSeq then getLoop b start maxCount sinceSeq minLevel rest out
        else if minLevel.value > 0 ∧ e.level.value > minLevel.value then
          getLoop b start maxCount sinceSeq minLevel rest out
        else getLoop b start maxCount sinceSeq minLevel rest (out ++ [e])
      else out

/-- `log_buffer_get`. -/
def logBufferGet (b : LogBuffer) (maxCount : ℤ) (sinceSeq : UInt32) (minLevel : EspLogLevel) :
    List LogEntry :=
  if maxCount ≤ 0 then []
  else
    let start := if b.count < logBufferMaxEntries then 0 else b.head
    getLoop b start maxCount sinceSeq minLevel (List.range b.count) []

/-! ### What is in the ring -/

/-- The entries of the ring, oldest first. -/
def LogBuffer.entries (b : LogBuffer) : List LogEntry :=
  ringList logBufferMaxEntries b.head b.count b.cells

/-- The entries a level selects: all of them without one. -/
def EspLogLevel.Selects (minLevel : EspLogLevel) (e : LogEntry) : Prop :=
  minLevel = .none ∨ e.level.value ≤ minLevel.value

instance (minLevel : EspLogLevel) (e : LogEntry) : Decidable (minLevel.Selects e) :=
  inferInstanceAs (Decidable (_ ∨ _))

section Entries

variable {b : LogBuffer}

@[simp] lemma LogBuffer.length_entries : b.entries.length = b.count := ringList_length _ _ _ _

@[simp] lemma entries_logBufferClear : (logBufferClear b).entries = [] := rfl

/-- The ring keeps the newest entries. -/
lemma LogBuffer.entries_store (e : LogEntry) : (b.store e).entries =
    (if b.count < logBufferMaxEntries then b.entries else b.entries.tail) ++ [e] :=
  ringList_push b.head_lt b.count_le b.cells e

/-- The walk starts at the oldest entry. -/
lemma LogBuffer.entries_eq_map : b.entries = (List.range b.count).map fun i =>
    b.cells (((if b.count < logBufferMaxEntries then 0 else b.head) + i) %
      logBufferMaxEntries) := by
  refine List.map_congr_left fun i hi => congrArg b.cells ?_
  have hlt := b.head_lt
  have hle := b.count_le
  have hi' : i < b.count := List.mem_range.mp hi
  rw [ringIndex_eq hlt hle hi']
  by_cases hfull : b.count < logBufferMaxEntries
  · have heq := b.head_eq hfull
    rw [if_pos hfull, Nat.zero_add, Nat.mod_eq_of_lt (by omega)]
    split <;> omega
  · rw [if_neg hfull, mod_of_lt_two_mul (by omega)]
    split <;> split <;> omega

variable {maxCount : ℤ} {sinceSeq : UInt32} {minLevel : EspLogLevel}

/-- An entry a call may return. -/
def Requested (sinceSeq : UInt32) (minLevel : EspLogLevel) (e : LogEntry) : Prop :=
  (sinceSeq = 0 ∨ sinceSeq < e.seq) ∧ minLevel.Selects e

instance : DecidablePred (Requested sinceSeq minLevel) := fun _ =>
  inferInstanceAs (Decidable ((_ ∨ _) ∧ _))

/-- The walk copies what is requested, as far as there is room. -/
lemma getLoop_eq (start : ℕ) (is : List ℕ) (out : List LogEntry) :
    getLoop b start maxCount sinceSeq minLevel is out = out ++
      ((is.map fun i => b.cells ((start + i) % logBufferMaxEntries)).filter
        (fun e => Requested sinceSeq minLevel e)).take (maxCount - out.length).toNat := by
  induction is generalizing out with
  | nil => simp [getLoop]
  | cons i is ih =>
      rw [getLoop, List.map_cons]
      by_cases hroom : (out.length : ℤ) < maxCount
      · rw [if_pos hroom]
        dsimp only
        set e := b.cells ((start + i) % logBufferMaxEntries)
        by_cases hseq : sinceSeq > 0 ∧ e.seq ≤ sinceSeq
        · have hno : ¬ Requested sinceSeq minLevel e := by
            rintro ⟨hzero | hlt, -⟩
            · rw [hzero] at hseq
              exact absurd hseq.1 (by decide)
            · rw [UInt32.lt_iff_toNat_lt] at hlt
              exact absurd (UInt32.le_iff_toNat_le.mp hseq.2) (not_le.mpr hlt)
          rw [if_pos hseq, ih, List.filter_cons_of_neg (by simpa using hno)]
        · rw [if_neg hseq]
          by_cases hlevel : minLevel.value > 0 ∧ e.level.value > minLevel.value
          · have hno : ¬ Requested sinceSeq minLevel e := by
              rintro ⟨-, rfl | hle⟩
              · exact absurd hlevel.1 (lt_irrefl 0)
              · omega
            rw [if_pos hlevel, ih, List.filter_cons_of_neg (by simpa using hno)]
          · have hyes : Requested sinceSeq minLevel e := by
              refine ⟨?_, ?_⟩
              · by_contra hcon
                rw [not_or] at hcon
                refine hseq ⟨?_, ?_⟩
                · have hne := UInt32.toNat_inj.not.mpr hcon.1
                  rw [gt_iff_lt, UInt32.lt_iff_toNat_lt]
                  exact Nat.pos_of_ne_zero hne
                · rw [UInt32.le_iff_toNat_le]
                  exact not_lt.mp fun h => hcon.2 (UInt32.lt_iff_toNat_lt.mpr h)
              · by_contra hcon
                rw [EspLogLevel.Selects, not_or] at hcon
                refine hlevel ⟨?_, by omega⟩
                cases minLevel with
                | none => exact absurd rfl hcon.1
                | _ => decide
            have htake : (maxCount - out.length).toNat
                = (maxCount - (out ++ [e]).length).toNat + 1 := by
              rw [List.length_append, List.length_singleton]
              push_cast
              omega
            rw [if_neg hlevel, ih, List.filter_cons_of_pos (by simpa using hyes), htake,
              List.take_succ_cons, List.append_assoc, List.singleton_append]
      · rw [if_neg hroom, Int.toNat_of_nonpos (by omega), List.take_zero, List.append_nil]

/-- A call returns the oldest entries requested, at most as many as there is room for. -/
lemma logBufferGet_eq (b : LogBuffer) (maxCount : ℤ) (sinceSeq : UInt32)
    (minLevel : EspLogLevel) : logBufferGet b maxCount sinceSeq minLevel =
      (b.entries.filter (fun e => Requested sinceSeq minLevel e)).take maxCount.toNat := by
  rw [logBufferGet]
  by_cases hmax : maxCount ≤ 0
  · rw [if_pos hmax, Int.toNat_of_nonpos hmax, List.take_zero]
  · rw [if_neg hmax]
    dsimp only
    rw [getLoop_eq, List.nil_append, List.length_nil, Nat.cast_zero, sub_zero,
      LogBuffer.entries_eq_map]

/-- Every entry of the ring is asked for. -/
lemma logBufferGet_all (b : LogBuffer) :
    logBufferGet b logBufferMaxEntries 0 .verbose = b.entries := by
  have hall : b.entries.filter (fun e => Requested 0 .verbose e) = b.entries := by
    refine List.filter_eq_self.mpr fun e _ => decide_eq_true ⟨.inl rfl, .inr ?_⟩
    cases e.level <;> decide
  rw [logBufferGet_eq, hall, Int.toNat_natCast, List.take_of_length_le]
  rw [LogBuffer.length_entries]
  exact b.count_le

end Entries

end ArcticController

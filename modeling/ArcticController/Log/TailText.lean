/-
The text a snapshot keeps of the ring.

* `formatLine`, `formatEntries`: an entry as a line, and the lines in the scratch buffer;
* `LogBuffer.buildTailText`: `build_tail_text`;
* `formatEntries_eq`: the scratch buffer holds every line;
* `TailKept`: a text is the lines of the newest entries, as many as fit;
* `tailKept_split`: what the cut makes of the line it falls into;
* `tail_kept_iff`: when the text is the longest that fits.
-/
import ArcticController.Log.LogBuffer
import ArcticController.Log.LogPersist

namespace ArcticController

/-! ### The text -/

/-- `"%lu"`. -/
def decimal (n : ℕ) : List UInt8 := (Nat.toDigits 10 n).map fun c => UInt8.ofNat c.toNat

/-- Blanks before a number, up to a width. -/
def padded (width : ℕ) (digits : List UInt8) : List UInt8 :=
  List.replicate (width - digits.length) 0x20 ++ digits

/-- `log_level_char`. -/
def logLevelChar : EspLogLevel → UInt8
  | .error => 0x45
  | .warn => 0x57
  | .info => 0x49
  | .debug => 0x44
  | .verbose => 0x56
  | .none => 0x3F

/-- `"%8lu %s %s: %s\\n"`, without the line break. -/
def lineBody (e : LogEntry) : List UInt8 :=
  padded 8 (decimal e.uptimeMs.toNat) ++ [0x20, logLevelChar e.level, 0x20] ++ e.tag.cstr ++
    [0x3A, 0x20] ++ e.message.cstr

def formatLine (e : LogEntry) : List UInt8 := lineBody e ++ [0x0A]

def scratchSz : ℕ := 96 * 1024

/-- The lines written behind each other into the scratch buffer; `scratch` is what stands
there before `used`. -/
def formatEntries : List LogEntry → List UInt8 → List UInt8
  | [], scratch => scratch
  | e :: entries, scratch =>
      if scratch.length < scratchSz - 1 then
        let line := formatLine e
        if line.length ≥ scratchSz - scratch.length then
          scratch ++ line.take (scratchSz - 1 - scratch.length)
        else formatEntries entries (scratch ++ line)
      else scratch

/-- `build_tail_text`. -/
def LogBuffer.buildTailText (b : LogBuffer) : List UInt8 :=
  ArcticController.buildTailText
    (formatEntries (logBufferGet b logBufferMaxEntries 0 .verbose) [])

/-! ### The scratch buffer -/

section Scratch

lemma length_decimal_le (n : UInt32) : (decimal n.toNat).length ≤ 10 := by
  rw [decimal, List.length_map, Nat.length_toDigits_le_iff (by decide) (by decide)]
  have := n.toNat_lt
  omega

/-- A line has at most 233 bytes. -/
lemma length_formatLine_le (e : LogEntry) : (formatLine e).length ≤ 233 := by
  have hdigits := length_decimal_le e.uptimeMs
  have htag : e.tag.cstr.length ≤ 24 := CharArray.length_cstr_le _
  have hmessage : e.message.cstr.length ≤ 192 := CharArray.length_cstr_le _
  simp only [formatLine, lineBody, padded, List.length_append, List.length_replicate,
    List.length_cons, List.length_nil]
  omega

/-- The scratch buffer has room for every line of a ring. -/
lemma formatEntries_eq (entries : List LogEntry) (scratch : List UInt8)
    (h : scratch.length + entries.length * 233 < scratchSz - 1) :
    formatEntries entries scratch = scratch ++ (entries.map formatLine).flatten := by
  induction entries generalizing scratch with
  | nil => rw [formatEntries, List.map_nil, List.flatten_nil, List.append_nil]
  | cons e entries ih =>
      have hline := length_formatLine_le e
      rw [List.length_cons, Nat.succ_mul] at h
      rw [formatEntries, if_pos (by omega)]
      dsimp only
      rw [if_neg (by omega), ih _ (by rw [List.length_append]; omega), List.map_cons,
        List.flatten_cons, List.append_assoc]

/-- The lines of a ring, oldest first. -/
def LogBuffer.lines (b : LogBuffer) : List (List UInt8) := b.entries.map formatLine

lemma LogBuffer.buildTailText_eq (b : LogBuffer) :
    b.buildTailText = ArcticController.buildTailText b.lines.flatten := by
  have hcount := b.count_le
  have hmax : logBufferMaxEntries = 256 := rfl
  have hscratch : scratchSz = 98304 := rfl
  rw [LogBuffer.buildTailText, logBufferGet_all, formatEntries_eq, List.nil_append]
  · rfl
  · rw [List.length_nil, LogBuffer.length_entries]
    omega

end Scratch

/-! ### The lines that are kept -/

/-- A text is the lines of the newest entries, as many as fit into a slot, the newest
among them. -/
structure TailKept (lines : List (List UInt8)) (text : List UInt8) : Prop where
  newest : ∃ j ≤ lines.length, text = (lines.rtake j).flatten ∧
    (lines.rtake j).flatten.length ≤ lpPayloadMax ∧
    (∀ k ≤ lines.length, (lines.rtake k).flatten.length ≤ lpPayloadMax → k ≤ j) ∧
    (lines ≠ [] → 0 < j)

/-- A line ends with its break. -/
def IsLine (line : List UInt8) : Prop := ∃ body, line = body ++ [0x0A]

/-- The cut falls inside a line, behind every break in it but the one at its end. -/
def CutInside (lines : List (List UInt8)) : Prop :=
  ∃ before line after, lines = before ++ line :: after ∧
    before.flatten.length < lines.flatten.length - lpPayloadMax ∧
    lines.flatten.length - lpPayloadMax < before.flatten.length + line.length ∧
    0x0A ∉ line.dropLast.drop (lines.flatten.length - lpPayloadMax - before.flatten.length)

section Tail

variable {lines before after : List (List UInt8)} {line : List UInt8}

/-- A place in a text lies in one of its lines. -/
lemma exists_line (cut : ℕ) (h : cut < lines.flatten.length) :
    ∃ before line after, lines = before ++ line :: after ∧ before.flatten.length ≤ cut ∧
      cut < before.flatten.length + line.length := by
  induction lines generalizing cut with
  | nil => exact absurd h (Nat.not_lt_zero _)
  | cons line lines ih =>
      by_cases hlt : cut < line.length
      · exact ⟨[], line, lines, rfl, Nat.zero_le _, by simpa using hlt⟩
      · rw [List.flatten_cons, List.length_append] at h
        obtain ⟨before, line', after, rfl, hle, hlt'⟩ := ih (cut - line.length) (by omega)
        refine ⟨line :: before, line', after, rfl, ?_, ?_⟩ <;>
          rw [List.flatten_cons, List.length_append] <;> omega

/-- The newest lines are a text no longer than that of more of them. -/
lemma length_rtake_mono (lines : List (List UInt8)) {j k : ℕ} (h : j ≤ k) :
    (lines.rtake j).flatten.length ≤ (lines.rtake k).flatten.length :=
  (List.drop_suffix_drop_left lines (by omega :
    lines.length - k ≤ lines.length - j)).sublist.flatten.length_le

/-- The lines behind a place and the line before them. -/
lemma rtake_split (before after : List (List UInt8)) (line : List UInt8) :
    (before ++ line :: after).rtake after.length = after ∧
      (before ++ line :: after).rtake (after.length + 1) = line :: after := by
  have hlength : (before ++ line :: after).length = before.length + (after.length + 1) := by simp
  constructor
  · rw [List.rtake, hlength, show before.length + (after.length + 1) - after.length
      = before.length + 1 from by omega, ← List.drop_drop, List.drop_left]
    rfl
  · rw [List.rtake, hlength, Nat.add_sub_cancel, List.drop_left]

/-- What is kept where all lines fit. -/
lemma tailKept_all (h : lines.flatten.length ≤ lpPayloadMax) :
    TailKept lines (buildTailText lines.flatten) := by
  have hall : lines.rtake lines.length = lines := by
    rw [List.rtake, Nat.sub_self, List.drop_zero]
  rw [buildTailText, if_neg (not_lt.mpr h)]
  exact ⟨lines.length, le_rfl, by rw [hall], by rwa [hall], fun k hk _ => hk,
    fun hne => List.length_pos_iff.mpr hne⟩

/-- The first break of what is left of a line. -/
lemma dropWhile_break (tail text : List UInt8) :
    ∃ rest, (tail ++ 0x0A :: text).dropWhile (· != 0x0A) = 0x0A :: (rest ++ text) ∧
      rest.length ≤ tail.length ∧ (rest = [] ↔ 0x0A ∉ tail) := by
  induction tail with
  | nil => exact ⟨[], by simp, le_rfl, by simp⟩
  | cons c tail ih =>
      by_cases hc : c = 0x0A
      · subst hc
        exact ⟨tail ++ [0x0A], by simp, by simp, by simp⟩
      · obtain ⟨rest, heq, hlength, hnil⟩ := ih
        rw [List.cons_append, List.dropWhile_cons_of_pos (by simpa using hc)]
        refine ⟨rest, heq, hlength.trans (Nat.le_succ _), hnil.trans ?_⟩
        rw [List.mem_cons, not_or]
        exact ⟨fun h => ⟨fun heq => hc heq.symm, h⟩, fun h => h.2⟩

/-- The text cut inside a line goes on behind the first break from there on. -/
lemma buildTailText_split (htotal : lpPayloadMax < (before ++ line :: after).flatten.length)
    (hline : IsLine line)
    (hle : before.flatten.length ≤ (before ++ line :: after).flatten.length - lpPayloadMax)
    (hlt : (before ++ line :: after).flatten.length - lpPayloadMax
      < before.flatten.length + line.length) :
    ∃ rest, buildTailText (before ++ line :: after).flatten = rest ++ after.flatten ∧
      rest.length + 1 ≤ before.flatten.length + line.length -
        ((before ++ line :: after).flatten.length - lpPayloadMax) ∧
      (rest = [] ↔ 0x0A ∉ line.dropLast.drop
        ((before ++ line :: after).flatten.length - lpPayloadMax - before.flatten.length)) := by
  obtain ⟨body, rfl⟩ := hline
  set total := (before ++ (body ++ [0x0A]) :: after).flatten.length with htotal'
  have hflatten : (before ++ (body ++ [0x0A]) :: after).flatten
      = before.flatten ++ (body ++ 0x0A :: after.flatten) := by simp
  have hdrop : (before ++ (body ++ [0x0A]) :: after).flatten.drop (total - lpPayloadMax)
      = body.drop (total - lpPayloadMax - before.flatten.length) ++ 0x0A :: after.flatten := by
    rw [hflatten, List.drop_append, List.drop_eq_nil_of_le hle, List.nil_append,
      List.drop_append_of_le_length]
    rw [List.length_append, List.length_singleton] at hlt
    omega
  rw [buildTailText, if_pos htotal]
  dsimp only
  rw [← htotal', hdrop, List.dropLast_concat]
  have hbody : (body.drop (total - lpPayloadMax - before.flatten.length)).length + 1
      = before.flatten.length + (body ++ [0x0A]).length - (total - lpPayloadMax) := by
    rw [List.length_append, List.length_singleton] at hlt ⊢
    rw [List.length_drop]
    omega
  obtain ⟨rest, heq, hlength, hnil⟩ := dropWhile_break
    (body.drop (total - lpPayloadMax - before.flatten.length)) after.flatten
  rw [heq]
  exact ⟨rest, rfl, by omega, hnil⟩

/-- **What the cut makes of the line it falls into**: the lines behind it are kept, and they
are all that fit if the cut is behind the start of the line and behind its breaks. -/
lemma tailKept_split (htotal : lpPayloadMax < (before ++ line :: after).flatten.length)
    (hline : IsLine line) (hshort : line.length ≤ lpPayloadMax)
    (hle : before.flatten.length ≤ (before ++ line :: after).flatten.length - lpPayloadMax)
    (hlt : (before ++ line :: after).flatten.length - lpPayloadMax
      < before.flatten.length + line.length) :
    TailKept (before ++ line :: after) (buildTailText (before ++ line :: after).flatten) ↔
      before.flatten.length < (before ++ line :: after).flatten.length - lpPayloadMax ∧
      0x0A ∉ line.dropLast.drop
        ((before ++ line :: after).flatten.length - lpPayloadMax - before.flatten.length) := by
  obtain ⟨rest, htext, hlength, hnil⟩ := buildTailText_split htotal hline hle hlt
  obtain ⟨hafter, hfrom⟩ := rtake_split before after line
  have hsum : (before ++ line :: after).flatten.length
      = before.flatten.length + (line.length + after.flatten.length) := by simp
  have hmore : (line :: after).flatten.length = line.length + after.flatten.length := by simp
  rw [htext]
  constructor
  · rintro ⟨j, -, hj, hfits, hmax, -⟩
    have hlen := congrArg List.length hj
    rw [List.length_append] at hlen
    -- More lines than those behind the cut would be a longer text.
    have hfew : j ≤ after.length := by
      by_contra hcon
      have hmono := length_rtake_mono (before ++ line :: after) (Nat.succ_le_of_lt (not_le.mp hcon))
      rw [Nat.succ_eq_add_one, hfrom, hmore] at hmono
      omega
    have hmono := length_rtake_mono (before ++ line :: after) hfew
    rw [hafter] at hmono
    refine ⟨lt_of_le_of_ne hle fun heq => ?_, hnil.mp (List.length_eq_zero_iff.mp (by omega))⟩
    have hroom := hmax (after.length + 1) (by simp) (by rw [hfrom, hmore]; omega)
    omega
  · rintro ⟨hbehind, hbreak⟩
    obtain rfl := hnil.mpr hbreak
    refine ⟨after.length, by rw [List.length_append, List.length_cons]; omega, by rw [hafter, List.nil_append], by rw [hafter]; omega,
      fun k _ hk => ?_, fun _ => ?_⟩
    · by_contra hcon
      have hmono := length_rtake_mono (before ++ line :: after) (Nat.succ_le_of_lt (not_le.mp hcon))
      rw [Nat.succ_eq_add_one, hfrom, hmore] at hmono
      omega
    · refine Nat.pos_of_ne_zero fun hzero => ?_
      have hempty : after.flatten.length = 0 := by
        rw [List.length_eq_zero_iff.mp hzero, List.flatten_nil, List.length_nil]
      omega

end Tail

/-- **The text is the longest of whole lines that fits into a slot exactly if all lines fit
together, or the cut falls inside a line, behind its start and its breaks.** -/
theorem tail_kept_iff (b : LogBuffer) :
    TailKept b.lines b.buildTailText ↔
      b.lines.flatten.length ≤ lpPayloadMax ∨ CutInside b.lines := by
  have hlines : ∀ line ∈ b.lines, IsLine line ∧ line.length ≤ lpPayloadMax := by
    intro line hline
    obtain ⟨e, -, rfl⟩ := List.mem_map.mp hline
    have hlength := length_formatLine_le e
    rw [lpPayloadMax_eq]
    exact ⟨⟨lineBody e, rfl⟩, by omega⟩
  rw [LogBuffer.buildTailText_eq]
  generalize b.lines = lines at hlines ⊢
  by_cases hfit : lines.flatten.length ≤ lpPayloadMax
  · exact ⟨fun _ => .inl hfit, fun _ => tailKept_all hfit⟩
  have htotal := not_le.mp hfit
  constructor
  · intro hkept
    obtain ⟨before, line, after, rfl, hle, hlt⟩ :=
      @exists_line lines (lines.flatten.length - lpPayloadMax)
        (Nat.sub_lt (Nat.zero_lt_of_lt htotal) (by rw [lpPayloadMax_eq]; omega))
    obtain ⟨hline, hshort⟩ := hlines line (by simp)
    obtain ⟨hbehind, hbreak⟩ := (tailKept_split htotal hline hshort hle hlt).mp hkept
    exact .inr ⟨before, line, after, rfl, hbehind, hlt, hbreak⟩
  · rintro (h | ⟨before, line, after, rfl, hbehind, hlt, hbreak⟩)
    · exact absurd h hfit
    · obtain ⟨hline, hshort⟩ := hlines line (by simp)
      exact (tailKept_split htotal hline hshort hbehind.le hlt).mpr ⟨hbehind, hbreak⟩

/-- An entry with a tag and a message of a given length. -/
def plainEntry (tag message : ℕ) : LogEntry where
  level := .info
  tag := CharArray.copyString _ (List.replicate tag 0x74)
  message := CharArray.copyString _ (List.replicate message 0x6D)

lemma length_formatLine_plainEntry {tag message : ℕ} (htag : tag < 24) (hmessage : message < 192) :
    (formatLine (plainEntry tag message)).length = 14 + tag + message := by
  have hnonul : ∀ n (a : UInt8), a ≠ 0 → ∀ c ∈ List.replicate n a, c ≠ 0 := fun n a ha c hc => by
    rwa [List.eq_of_mem_replicate hc]
  have ht : (plainEntry tag message).tag.cstr = List.replicate tag 0x74 :=
    CharArray.cstr_copyString (hnonul _ _ (by decide)) (by rw [List.length_replicate]; exact htag)
  have hm : (plainEntry tag message).message.cstr = List.replicate message 0x6D :=
    CharArray.cstr_copyString (hnonul _ _ (by decide))
      (by rw [List.length_replicate]; exact hmessage)
  have hpad : (padded 8 (decimal (plainEntry tag message).uptimeMs.toNat)).length = 8 := by
    change (padded 8 (decimal 0)).length = 8
    decide
  rw [formatLine, lineBody, ht, hm]
  simp only [List.length_append, List.length_replicate, List.length_cons, List.length_nil, hpad]
  omega

/-- A ring of 144 entries with lines of 228 bytes and a newest one with a line of 140. -/
def fullTailBuffer : LogBuffer where
  cells := fun i => if i < 144 then plainEntry 23 191 else plainEntry 23 103
  head := 145
  count := 145
  nextSeq := 146
  head_lt := by decide
  count_le := by decide
  head_eq := fun _ => rfl

lemma lines_fullTailBuffer : fullTailBuffer.lines =
    [formatLine (plainEntry 23 191)] ++ formatLine (plainEntry 23 191) ::
      (List.replicate 142 (formatLine (plainEntry 23 191)) ++ [formatLine (plainEntry 23 103)]) := by
  have hcells : ∀ i < 145, fullTailBuffer.cells
      (((if fullTailBuffer.count < logBufferMaxEntries then 0 else fullTailBuffer.head) + i) %
        logBufferMaxEntries) = if i < 144 then plainEntry 23 191 else plainEntry 23 103 := by
    intro i hi
    have hcount : fullTailBuffer.count < logBufferMaxEntries := by decide
    rw [if_pos hcount, Nat.zero_add, Nat.mod_eq_of_lt (hi.trans hcount)]
    rfl
  have hlong : (List.range 144).map (fun i => formatLine (fullTailBuffer.cells
      (((if fullTailBuffer.count < logBufferMaxEntries then 0 else fullTailBuffer.head) + i) %
        logBufferMaxEntries))) = List.replicate 144 (formatLine (plainEntry 23 191)) := by
    refine List.eq_replicate_iff.mpr ⟨by simp, fun line hline => ?_⟩
    obtain ⟨i, hi, rfl⟩ := List.mem_map.mp hline
    have hlt := List.mem_range.mp hi
    rw [hcells i (by omega), if_pos hlt]
  rw [LogBuffer.lines, LogBuffer.entries_eq_map, List.map_map]
  change (List.range (144 + 1)).map _ = _
  rw [List.range_succ, List.map_append, List.map_singleton]
  refine (congrArg₂ (· ++ [·]) hlong (congrArg formatLine (hcells 144 (by decide)))).trans ?_
  rfl

/-- The newest 144 lines fill the slot exactly, and the first of them is dropped. -/
theorem tail_drops_line_that_fits : ¬ TailKept fullTailBuffer.lines fullTailBuffer.buildTailText := by
  have hlong : (formatLine (plainEntry 23 191)).length = 228 :=
    length_formatLine_plainEntry (by decide) (by decide)
  have hlast : (formatLine (plainEntry 23 103)).length = 140 :=
    length_formatLine_plainEntry (by decide) (by decide)
  have hmax := lpPayloadMax_eq
  have htotal : fullTailBuffer.lines.flatten.length = lpPayloadMax + 228 := by
    rw [lines_fullTailBuffer]
    simp [hlong, hlast, hmax]
  rw [LogBuffer.buildTailText_eq, lines_fullTailBuffer]
  rw [lines_fullTailBuffer] at htotal
  have hline : IsLine (formatLine (plainEntry 23 191)) := ⟨_, rfl⟩
  generalize formatLine (plainEntry 23 191) = long at *
  have hbefore : [long].flatten.length = 228 := by simp [hlong]
  intro hkept
  have hbehind := ((tailKept_split (by omega) hline (by omega) (by omega) (by omega)).mp hkept).1
  omega

end ArcticController

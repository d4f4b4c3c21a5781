/-
State revisions order snapshots, over every interleaving of the tasks, as long as the
device name stays while a snapshot is built and no snapshot with an old content takes
its revision late.

* `contents`, `hashedTexts`: what was given a revision, and the texts hashed for it;
* `NamesStay`, `InOrder`: the conditions;
* `RevisionFollows`: the revision is the number of changes of the content;
* `revisions_order`: the snapshots follow their revisions;
* `overtaken_snapshot_wins`: a snapshot that is overtaken breaks this.
-/
import ArcticController.Base.Changes
import ArcticController.Integration.StateSnapshot

namespace ArcticController

/-! ### What is to hold -/

/-- What a revision is given for. -/
def Revised.content (r : Revised) : List UInt8 × List UInt8 := (r.state, r.name)

def SnapshotEvent.content : SnapshotEvent → Option (List UInt8 × List UInt8)
  | .assigned _ r => some r.content
  | _ => none

/-- The contents given a revision, in order. -/
def contents (log : List SnapshotEvent) : List (List UInt8 × List UInt8) :=
  log.filterMap (·.content)

/-- An empty name goes out as none. -/
def shownName (name : List UInt8) : Option (List UInt8) := if name = [] then none else some name

/-- Snapshots of one revision are alike, a content that differs from the last one counted
gets a larger revision, and a later read of the state no smaller one: so the snapshot with
the largest revision carries what the last read found. -/
structure RevisionsOrder (log : List SnapshotEvent) : Prop where
  alike : ∀ t r a t' r' b, .emitted t r a ∈ log → .emitted t' r' b ∈ log →
    a.revision = b.revision → a.state = b.state ∧ a.deviceName = b.deviceName
  larger : ∀ pre t r mid t' r' post, log = pre ++ .assigned t r :: mid ++ .assigned t' r' :: post →
    contents mid = [] → r'.content ≠ r.content → asDouble r.revision < asDouble r'.revision
  ordered : ∀ t r a t' r' b, .emitted t r a ∈ log → .emitted t' r' b ∈ log →
    a.readAt < b.readAt → a.revision ≤ b.revision
  newest : ∀ t r a, .emitted t r a ∈ log →
    (∀ t' r' b, .emitted t' r' b ∈ log → b.revision ≤ a.revision) →
    ∀ t' r' b, .emitted t' r' b ∈ log → a.readAt < b.readAt →
      b.state = a.state ∧ b.deviceName = a.deviceName

/-- Every later read of the device name finds the name that was hashed. -/
def NamesStay (log : List SnapshotEvent) : Prop :=
  ∀ t r name, .named t r name ∈ log → name = r.name

/-- A snapshot that gets its revision after one that read the state later has the same
content, and so have those in between. -/
def InOrder (log : List SnapshotEvent) : Prop :=
  ∀ pre t r mid t' r' post, log = pre ++ .assigned t r :: mid ++ .assigned t' r' :: post →
    r'.readAt < r.readAt → ∀ content ∈ contents mid ++ [r'.content], content = r.content

lemma contents_append (log more : List SnapshotEvent) :
    contents (log ++ more) = contents log ++ contents more := List.filterMap_append

/-! ### The hash tells contents apart -/

section Hash

variable (sha : List UInt8 → Digest) (keyedText : List UInt8 → List UInt8 → List UInt8)

/-- The document hashed for a content. -/
def keyed (content : List UInt8 × List UInt8) : List UInt8 :=
  keyedText (bytesToHex (sha content.1).toList) content.2

/-- The texts that were hashed. -/
def hashedTexts (log : List SnapshotEvent) : Set (List UInt8) :=
  {text | ∃ t state name, .hashed t state name ∈ log ∧
    (text = state ∨ text = keyed sha keyedText (state, name))}

/-- Documents with different fields are different texts. -/
def KeyedApart : Prop :=
  ∀ hex hex' name name', hex.length = 64 → hex'.length = 64 →
    keyedText hex name = keyedText hex' name' → hex = hex' ∧ name = name'

variable {sha keyedText}

/-- The value of a digit. -/
def hexValue (digit : UInt8) : UInt8 := if digit < 0x3a then digit - 0x30 else digit - 0x57

/-- The bytes that a text of digits was made of. -/
def hexToBytes : List UInt8 → List UInt8
  | high :: low :: text => (hexValue high <<< 4 ||| hexValue low) :: hexToBytes text
  | _ => []

lemma hexValue_pair : ∀ n < 256,
    hexValue (hexChar (UInt8.ofNat n >>> 4)) <<< 4 ||| hexValue (hexChar (UInt8.ofNat n &&& 0x0f))
      = UInt8.ofNat n := by
  decide +kernel

lemma hexToBytes_bytesToHex (bytes : List UInt8) : hexToBytes (bytesToHex bytes) = bytes := by
  induction bytes with
  | nil => rfl
  | cons byte bytes ih =>
      have hbyte := hexValue_pair byte.toNat byte.toNat_lt
      rw [UInt8.ofNat_toNat] at hbyte
      rw [bytesToHex, List.flatMap_cons]
      rw [bytesToHex] at ih
      show (hexValue (hexChar (byte >>> 4)) <<< 4 ||| hexValue (hexChar (byte &&& 0x0f)))
        :: hexToBytes _ = _
      rw [hbyte]
      exact congrArg _ ih

lemma bytesToHex_length (bytes : List UInt8) : (bytesToHex bytes).length = 2 * bytes.length := by
  induction bytes with
  | nil => rfl
  | cons byte bytes ih =>
      rw [bytesToHex, List.flatMap_cons, List.length_append]
      rw [bytesToHex] at ih
      rw [ih, List.length_cons]
      simp only [List.length_cons, List.length_nil]
      omega

/-- Two contents whose texts were hashed have different hashes. -/
lemma content_eq {log : List SnapshotEvent} (hsha : Set.InjOn sha (hashedTexts sha keyedText log))
    (hkeyed : KeyedApart keyedText) {t t' : ℕ} {content content' : List UInt8 × List UInt8}
    (h : .hashed t content.1 content.2 ∈ log) (h' : .hashed t' content'.1 content'.2 ∈ log)
    (heq : sha (keyed sha keyedText content) = sha (keyed sha keyedText content')) :
    content = content' := by
  have htext := hsha ⟨t, _, _, h, .inr rfl⟩ ⟨t', _, _, h', .inr rfl⟩ heq
  have hlen : ∀ digest : Digest, (bytesToHex digest.toList).length = 64 := fun digest => by
    rw [bytesToHex_length, Vector.length_toList]
  obtain ⟨hhex, hname⟩ := hkeyed _ _ _ _ (hlen _) (hlen _) htext
  have hdigest := congrArg hexToBytes hhex
  rw [hexToBytes_bytesToHex, hexToBytes_bytesToHex, Vector.toList_inj] at hdigest
  exact Prod.ext (hsha ⟨t, _, _, h, .inl rfl⟩ ⟨t', _, _, h', .inl rfl⟩ hdigest) hname

lemma calculateSnapshotHash_eq {stateHashed keyedHashed : Bool} {state name : List UInt8}
    {hash : Digest}
    (h : calculateSnapshotHash sha keyedText stateHashed keyedHashed state name = some hash) :
    hash = sha (keyed sha keyedText (state, name)) := by
  cases stateHashed with
  | false => cases h
  | true =>
      cases keyedHashed with
      | false => cases h
      | true => exact (Option.some.inj h).symm

end Hash

/-! ### The revision counts the changes -/

namespace SnapshotTask

/-- What a task was given a revision for. -/
def revisedAs {σ : Type} : SnapshotTask σ → Option Revised
  | .revised r | .checked r _ | .copied r _ => some r
  | _ => none

end SnapshotTask

section Runs

variable {σ ρ : Type} {sha : List UInt8 → Digest}
  {keyedText : List UInt8 → List UInt8 → List UInt8} {stateText : σ → ρ → List UInt8}

variable (sha keyedText) in
/-- The counter and the last hash follow the contents given a revision. -/
structure RevisionFollows (s : RevisionState) (contents : List (List UInt8 × List UInt8)) :
    Prop where
  revision : s.revision = UInt64.ofNat (changes contents)
  first : s.hasStateHash = false → contents = []
  last : s.hasStateHash = true → ∃ pre content, contents = pre ++ [content] ∧
    s.stateHash = sha (keyed sha keyedText content)

/-- A task is where the events tell. -/
inductive TaskFollows (sha : List UInt8 → Digest) (keyedText : List UInt8 → List UInt8 → List UInt8)
    (log : List SnapshotEvent) (t : ℕ) : SnapshotTask σ → Prop where
  | idle : TaskFollows sha keyedText log t .idle
  | captured (readAt : ℕ) (hp : σ) : TaskFollows sha keyedText log t (.captured readAt hp)
  | built (readAt : ℕ) (state : List UInt8) : TaskFollows sha keyedText log t (.built readAt state)
  | hashed (readAt : ℕ) (state name : List UInt8) (h : .hashed t state name ∈ log) :
      TaskFollows sha keyedText log t
        (.hashed readAt state name (sha (keyed sha keyedText (state, name))))
  | revised (r : Revised) (h : .assigned t r ∈ log) : TaskFollows sha keyedText log t (.revised r)
  | checked (r : Revised) (h : .assigned t r ∈ log) :
      TaskFollows sha keyedText log t (.checked r (r.name ≠ []))
  | copied (r : Revised) (h : .assigned t r ∈ log) :
      TaskFollows sha keyedText log t (.copied r (shownName r.name))

variable (sha keyedText) in
/-- The state and the events of a run. -/
structure SnapshotsFollow (s : SnapshotSystem σ) (log : List SnapshotEvent) : Prop where
  revisions : RevisionFollows sha keyedText s.revisions (contents log)
  tasks : ∀ t, TaskFollows sha keyedText log t (s.task t)
  hashed : ∀ content ∈ contents log, ∃ t, .hashed t content.1 content.2 ∈ log
  counted : ∀ pre t r post, log = pre ++ .assigned t r :: post →
    r.revision = UInt64.ofNat (changes (contents pre ++ [r.content]))
  emitted : ∀ t r a, .emitted t r a ∈ log → (∃ t', .assigned t' r ∈ log) ∧
    a = ⟨r.readAt, r.state, shownName r.name, asDouble r.revision⟩

lemma RevisionFollows.start : RevisionFollows sha keyedText {} [] := ⟨rfl, fun _ => rfl, nofun⟩

/-- A content that is not the last one counts. -/
lemma RevisionFollows.assign {s : RevisionState} {l : List (List UInt8 × List UInt8)}
    (h : RevisionFollows sha keyedText s l) (content : List UInt8 × List UInt8)
    (hinj : ∀ last ∈ l, sha (keyed sha keyedText last) = sha (keyed sha keyedText content) →
      last = content) :
    RevisionFollows sha keyedText (s.assign (sha (keyed sha keyedText content))) (l ++ [content]) := by
  rw [RevisionState.assign]
  rcases hhas : s.hasStateHash with _ | _
  · obtain rfl := h.first hhas
    rw [if_pos (.inl nofun)]
    refine ⟨?_, nofun, fun _ => ⟨[], content, rfl, rfl⟩⟩
    rw [h.revision]
    rfl
  · obtain ⟨pre, last, rfl, hlast⟩ := h.last hhas
    have happ : (pre ++ [last]) ++ [content] = pre ++ [last, content] := List.append_assoc _ _ _
    rw [happ]
    by_cases hsame : last = content
    · subst hsame
      rw [if_neg (by rw [hlast]; simp)]
      refine ⟨?_, fun hnot => ?_, fun _ => ⟨pre ++ [last], last, happ.symm, hlast⟩⟩
      · rw [changes_concat, if_pos rfl, Nat.add_zero]
        exact h.revision
      · rw [hhas] at hnot
        cases hnot
    · have hne : sha (keyed sha keyedText content) ≠ s.stateHash := fun heq =>
        hsame (hinj last (List.mem_append_right _ List.mem_cons_self) (heq.trans hlast).symm)
      rw [if_pos (.inr hne)]
      refine ⟨?_, nofun, fun _ => ⟨pre ++ [last], content, happ.symm, rfl⟩⟩
      rw [changes_concat, if_neg hsame, h.revision, UInt64.ofNat_add]
      rfl

lemma TaskFollows.append {log : List SnapshotEvent} {t : ℕ} {task : SnapshotTask σ}
    (h : TaskFollows sha keyedText log t task) (more : List SnapshotEvent) :
    TaskFollows sha keyedText (log ++ more) t task := by
  cases h with
  | idle => exact .idle
  | captured readAt hp => exact .captured readAt hp
  | built readAt state => exact .built readAt state
  | hashed readAt state name h => exact .hashed readAt state name (List.mem_append_left _ h)
  | revised r h => exact .revised r (List.mem_append_left _ h)
  | checked r h => exact .checked r (List.mem_append_left _ h)
  | copied r h => exact .copied r (List.mem_append_left _ h)

namespace SnapshotsFollow

variable {s : SnapshotSystem σ} {log : List SnapshotEvent}

lemma start (hp : σ) (deviceName : List UInt8) :
    SnapshotsFollow sha keyedText { hp, deviceName } [] where
  revisions := .start
  tasks _ := .idle
  hashed content h := by cases h
  counted pre t r post h := by cases (List.append_eq_nil_iff.mp h.symm).2
  emitted t r a h := by cases h

/-- A step of one task other than `assign`. -/
lemma go (h : SnapshotsFollow sha keyedText s log) {e : Option SnapshotEvent} {t : ℕ}
    {new : SnapshotTask σ} {s' : SnapshotSystem σ} (hrevisions : s'.revisions = s.revisions)
    (htask : s'.task = Function.update s.task t new) (he : ∀ e' ∈ e, e'.content = none)
    (hnew : TaskFollows sha keyedText (log ++ e.toList) t new)
    (hemitted : ∀ t' r a, e = some (.emitted t' r a) → (∃ t'', .assigned t'' r ∈ log) ∧
      a = ⟨r.readAt, r.state, shownName r.name, asDouble r.revision⟩) :
    SnapshotsFollow sha keyedText s' (log ++ e.toList) := by
  have hnil : contents e.toList = [] :=
    List.filterMap_eq_nil_iff.mpr fun e' he' => he e' (Option.mem_toList.mp he')
  have hcontents : contents (log ++ e.toList) = contents log := by
    rw [contents_append, hnil, List.append_nil]
  refine ⟨?_, fun t' => ?_, fun content hmem => ?_, fun pre t' r post hsplit => ?_,
    fun t' r a hmem => ?_⟩
  · rw [hrevisions, hcontents]
    exact h.revisions
  · rw [htask]
    rcases eq_or_ne t' t with rfl | hne
    · rwa [Function.update_self]
    · rw [Function.update_of_ne hne]
      exact (h.tasks t').append _
  · rw [hcontents] at hmem
    obtain ⟨t', hhashed⟩ := h.hashed content hmem
    exact ⟨t', List.mem_append_left _ hhashed⟩
  · rcases split_step hsplit with ⟨rfl, -, -⟩ | ⟨post', hlog, -⟩
    · cases he _ rfl
    · exact h.counted pre t' r post' hlog
  · rcases List.mem_append.mp hmem with hmem | hmem
    · obtain ⟨⟨t'', hassigned⟩, ha⟩ := h.emitted t' r a hmem
      exact ⟨⟨t'', List.mem_append_left _ hassigned⟩, ha⟩
    · obtain ⟨⟨t'', hassigned⟩, ha⟩ := hemitted t' r a (Option.mem_toList.mp hmem)
      exact ⟨⟨t'', List.mem_append_left _ hassigned⟩, ha⟩

/-- A task takes its revision. -/
lemma assign (h : SnapshotsFollow sha keyedText s log)
    (hsha : Set.InjOn sha (hashedTexts sha keyedText log)) (hkeyed : KeyedApart keyedText)
    {t readAt : ℕ} {state name : List UInt8} (hhashed : .hashed t state name ∈ log) {r : Revised}
    (hr : r = ⟨readAt, state, name,
      (s.revisions.assign (sha (keyed sha keyedText (state, name)))).revision⟩) :
    SnapshotsFollow sha keyedText
      { s with
        revisions := s.revisions.assign (sha (keyed sha keyedText (state, name)))
        task := Function.update s.task t (.revised r) } (log ++ [.assigned t r]) := by
  have hcontent : r.content = (state, name) := by rw [hr, Revised.content]
  have hcontents : contents (log ++ [.assigned t r]) = contents log ++ [(state, name)] := by
    rw [contents_append, ← hcontent]
    rfl
  have hrevisions := h.revisions.assign (state, name) fun last hlast heq => by
    obtain ⟨t', hlast⟩ := h.hashed last hlast
    exact content_eq hsha hkeyed hlast hhashed heq
  refine ⟨?_, fun t' => ?_, fun content hmem => ?_, fun pre t' r' post hsplit => ?_,
    fun t' r' a hmem => ?_⟩
  · rw [hcontents]
    exact hrevisions
  · dsimp only
    rcases eq_or_ne t' t with rfl | hne
    · rw [Function.update_self]
      exact .revised r (List.mem_append_right _ List.mem_cons_self)
    · rw [Function.update_of_ne hne]
      exact (h.tasks t').append _
  · rw [hcontents] at hmem
    rcases List.mem_append.mp hmem with hmem | hmem
    · obtain ⟨t', hmem⟩ := h.hashed content hmem
      exact ⟨t', List.mem_append_left _ hmem⟩
    · obtain rfl := List.mem_singleton.mp hmem
      exact ⟨t, List.mem_append_left _ hhashed⟩
  · rcases split_step (e := some _) hsplit with ⟨heq, rfl, -⟩ | ⟨post', hlog, -⟩
    · obtain ⟨rfl, rfl⟩ := SnapshotEvent.assigned.inj (Option.some.inj heq)
      rw [hcontent, ← hrevisions.revision, hr]
    · exact h.counted pre t' r' post' hlog
  · rcases List.mem_append.mp hmem with hmem | hmem
    · obtain ⟨⟨t'', hassigned⟩, ha⟩ := h.emitted t' r' a hmem
      exact ⟨⟨t'', List.mem_append_left _ hassigned⟩, ha⟩
    · cases List.mem_singleton.mp hmem

/-- Every step keeps this. -/
lemma step (h : SnapshotsFollow sha keyedText s log) {e : Option SnapshotEvent}
    {s' : SnapshotSystem σ} (hstep : SnapshotStep sha keyedText stateText s e s')
    (hsha : Set.InjOn sha (hashedTexts sha keyedText log)) (hkeyed : KeyedApart keyedText)
    (hnames : NamesStay (log ++ e.toList)) :
    SnapshotsFollow sha keyedText s' (log ++ e.toList) := by
  have hsame : ∀ t, s.task = Function.update s.task t (s.task t) := fun t =>
    (Function.update_eq_self t s.task).symm
  cases hstep with
  | update hp => exact h.go rfl (hsame 0) nofun ((h.tasks 0).append _) nofun
  | rename name => exact h.go rfl (hsame 0) nofun ((h.tasks 0).append _) nofun
  | getState t hidle => exact h.go rfl rfl nofun (.captured _ _) nofun
  | build t readAt hp rest htask => exact h.go rfl rfl nofun (.built _ _) nofun
  | buildFailed t readAt hp htask => exact h.go rfl rfl nofun .idle nofun
  | hash t readAt state stateHashed keyedHashed hash htask hhash =>
      obtain rfl := calculateSnapshotHash_eq hhash
      refine h.go rfl rfl (by rintro _ ⟨⟩; rfl) ?_ nofun
      exact .hashed readAt state s.deviceName (List.mem_append_right _ List.mem_cons_self)
  | hashFailed t readAt state htask => exact h.go rfl rfl nofun .idle nofun
  | assign t readAt state name hash htask =>
      have hfollows := h.tasks t
      rw [htask] at hfollows
      cases hfollows with
      | hashed _ _ _ hhashed => exact h.assign hsha hkeyed hhashed rfl
  | rootFailed t r htask => exact h.go rfl rfl nofun .idle nofun
  | check t r htask =>
      have hfollows := h.tasks t
      rw [htask] at hfollows
      cases hfollows with
      | revised _ hassigned =>
          -- the name is the one that was hashed
          have hname := hnames t r s.deviceName (List.mem_append_right _ List.mem_cons_self)
          refine h.go rfl rfl (by rintro _ ⟨⟩; rfl) ?_ nofun
          rw [hname]
          exact .checked r (List.mem_append_left _ hassigned)
  | copy t r htask =>
      have hfollows := h.tasks t
      rw [htask] at hfollows
      generalize hnamed : true = named at hfollows
      cases hfollows with
      | checked _ hassigned =>
          have hname := hnames t r s.deviceName (List.mem_append_right _ List.mem_cons_self)
          refine h.go rfl rfl (by rintro _ ⟨⟩; rfl) ?_ nofun
          rw [hname]
          have hshown : shownName r.name = some r.name := if_neg (of_decide_eq_true hnamed.symm)
          rw [← hshown]
          exact .copied r (List.mem_append_left _ hassigned)
  | noName t r htask =>
      have hfollows := h.tasks t
      rw [htask] at hfollows
      generalize hnamed : false = named at hfollows
      cases hfollows with
      | checked _ hassigned =>
          refine h.go rfl rfl nofun ?_ nofun
          have hshown : shownName r.name = none :=
            if_pos (not_not.mp (of_decide_eq_false hnamed.symm))
          rw [← hshown]
          exact .copied r (List.mem_append_left _ hassigned)
  | emit t r deviceName htask =>
      have hfollows := h.tasks t
      rw [htask] at hfollows
      cases hfollows with
      | copied _ hassigned =>
          refine h.go rfl rfl (by rintro _ ⟨⟩; rfl) .idle ?_
          intro t' r' a heq
          cases heq
          exact ⟨⟨t, hassigned⟩, rfl⟩

end SnapshotsFollow

/-! ### Every run -/

variable {s : SnapshotSystem σ} {log : List SnapshotEvent}

lemma hashedTexts_append (log more : List SnapshotEvent) :
    hashedTexts sha keyedText log ⊆ hashedTexts sha keyedText (log ++ more) := by
  rintro text ⟨t, state, name, h, htext⟩
  exact ⟨t, state, name, List.mem_append_left _ h, htext⟩

lemma NamesStay.prefix {log more : List SnapshotEvent} (h : NamesStay (log ++ more)) :
    NamesStay log := fun t r name hmem => h t r name (List.mem_append_left _ hmem)

lemma snapshotsFollow_run {hp : σ} {deviceName : List UInt8}
    (hrun : Run (SnapshotStep sha keyedText stateText) { hp, deviceName } s log)
    (hsha : Set.InjOn sha (hashedTexts sha keyedText log)) (hkeyed : KeyedApart keyedText)
    (hnames : NamesStay log) : SnapshotsFollow sha keyedText s log := by
  refine hrun.invariant (I := fun s log => Set.InjOn sha (hashedTexts sha keyedText log) →
    NamesStay log → SnapshotsFollow sha keyedText s log) (fun _ _ => .start hp deviceName) ?_ hsha hnames
  intro s log e s' _ ih hstep hsha hnames
  have hsha' := hsha.mono (hashedTexts_append log e.toList)
  exact (ih hsha' hnames.prefix).step hstep hsha' hkeyed hnames

/-- A revision below 2^53 is the same as a `double`. -/
lemma asDouble_eq {revision : UInt64} (h : revision.toNat < 2 ^ 53) :
    asDouble revision = revision.toNat := by
  have hshift : revision.toNat.log2 - 52 = 0 := by
    rcases Nat.eq_zero_or_pos revision.toNat with hzero | hpos
    · rw [hzero]
      rfl
    · have := (Nat.log2_lt hpos.ne').mpr h
      omega
  rw [asDouble, hshift, pow_zero, Nat.mod_one, Nat.div_one, if_neg (by omega), Nat.add_zero, Nat.mul_one]

namespace SnapshotsFollow

/-- The revision given at a place counts the changes up to it. -/
lemma revision_at (h : SnapshotsFollow sha keyedText s log)
    (hfew : changes (contents log) < 2 ^ 53) {pre post : List SnapshotEvent} {t : ℕ} {r : Revised}
    (hsplit : log = pre ++ .assigned t r :: post) :
    asDouble r.revision = changes (contents pre ++ [r.content]) := by
  have hle : changes (contents pre ++ [r.content]) ≤ changes (contents log) := by
    refine changes_mono ⟨contents post, ?_⟩
    rw [hsplit, contents_append, List.append_assoc]
    rfl
  have hnat : r.revision.toNat = changes (contents pre ++ [r.content]) := by
    rw [h.counted pre t r post hsplit]
    have hsize : UInt64.size = 2 ^ 64 := rfl
    exact UInt64.toNat_ofNat_of_lt' (by omega)
  rw [asDouble_eq (by omega), hnat]

/-- A revision given later is not smaller, and equal only for the same content. -/
lemma later (h : SnapshotsFollow sha keyedText s log) (hfew : changes (contents log) < 2 ^ 53)
    {pre mid post : List SnapshotEvent} {t t' : ℕ} {r r' : Revised}
    (hsplit : log = pre ++ .assigned t r :: mid ++ .assigned t' r' :: post) :
    asDouble r.revision ≤ asDouble r'.revision ∧
    (asDouble r'.revision = asDouble r.revision ↔
      ∀ content ∈ contents mid ++ [r'.content], content = r.content) := by
  have hfirst := h.revision_at hfew (hsplit.trans (List.append_assoc _ _ _))
  have hsecond := h.revision_at hfew hsplit
  have hcontents : contents (pre ++ .assigned t r :: mid) ++ [r'.content] =
      contents pre ++ r.content :: (contents mid ++ [r'.content]) := by
    rw [contents_append, List.append_assoc]
    rfl
  rw [hcontents] at hsecond
  rw [hfirst, hsecond, changes_eq_iff]
  refine ⟨changes_mono ⟨contents mid ++ [r'.content], ?_⟩, Iff.rfl⟩
  rw [List.append_assoc, List.singleton_append]

end SnapshotsFollow

/-- Two events of a list: the same one, or one before the other. -/
lemma places {x y : SnapshotEvent} (hx : x ∈ log) (hy : y ∈ log) :
    x = y ∨ (∃ pre mid post, log = pre ++ x :: mid ++ y :: post) ∨
      ∃ pre mid post, log = pre ++ y :: mid ++ x :: post := by
  obtain ⟨pre, post, rfl⟩ := List.append_of_mem hx
  rcases List.mem_append.mp hy with hy | hy
  · obtain ⟨pre', mid, rfl⟩ := List.append_of_mem hy
    exact .inr (.inr ⟨pre', mid, post, rfl⟩)
  · rcases List.mem_cons.mp hy with rfl | hy
    · exact .inl rfl
    · obtain ⟨mid, post', rfl⟩ := List.append_of_mem hy
      exact .inr (.inl ⟨pre, mid, post', by rw [List.append_assoc, List.cons_append]⟩)

/-- **State revisions.** In every run in which the device name is the same at all reads
for one snapshot, in which a snapshot overtaken by one that read the state later has the
content of that one, and whose contents change fewer than 2^53 times, the revisions order
the snapshots. -/
theorem revisions_order {hp : σ} {deviceName : List UInt8}
    (hrun : Run (SnapshotStep sha keyedText stateText) { hp, deviceName } s log)
    (hsha : Set.InjOn sha (hashedTexts sha keyedText log)) (hkeyed : KeyedApart keyedText)
    (hnames : NamesStay log) (horder : InOrder log) (hfew : changes (contents log) < 2 ^ 53) :
    RevisionsOrder log := by
  have h := snapshotsFollow_run hrun hsha hkeyed hnames
  have halike : ∀ t r a t' r' b, .emitted t r a ∈ log → .emitted t' r' b ∈ log →
      a.revision = b.revision → a.state = b.state ∧ a.deviceName = b.deviceName := by
    intro t r a t' r' b hemitted hemitted' heq
    obtain ⟨⟨u, hr⟩, rfl⟩ := h.emitted t r a hemitted
    obtain ⟨⟨u', hr'⟩, rfl⟩ := h.emitted t' r' b hemitted'
    dsimp only at heq
    have hcontent : r.content = r'.content := by
      rcases places hr hr' with hsame | ⟨pre, mid, post, hsplit⟩ | ⟨pre, mid, post, hsplit⟩
      · obtain ⟨-, rfl⟩ := SnapshotEvent.assigned.inj hsame
        rfl
      · exact (((h.later hfew hsplit).2.mp heq.symm) _
          (List.mem_append_right _ List.mem_cons_self)).symm
      · exact ((h.later hfew hsplit).2.mp heq) _ (List.mem_append_right _ List.mem_cons_self)
    obtain ⟨hstate, hname⟩ := Prod.mk.inj hcontent
    exact ⟨hstate, congrArg shownName hname⟩
  have hordered : ∀ t r a t' r' b, .emitted t r a ∈ log → .emitted t' r' b ∈ log →
      a.readAt < b.readAt → a.revision ≤ b.revision := by
    intro t r a t' r' b hemitted hemitted' hlt
    obtain ⟨⟨u, hr⟩, rfl⟩ := h.emitted t r a hemitted
    obtain ⟨⟨u', hr'⟩, rfl⟩ := h.emitted t' r' b hemitted'
    dsimp only at hlt ⊢
    rcases places hr hr' with hsame | ⟨pre, mid, post, hsplit⟩ | ⟨pre, mid, post, hsplit⟩
    · obtain ⟨-, rfl⟩ := SnapshotEvent.assigned.inj hsame
      exact absurd hlt (lt_irrefl _)
    · exact (h.later hfew hsplit).1
    · -- the overtaken one has the content of the one that overtook it
      have hsame := horder _ _ _ _ _ _ _ hsplit hlt
      exact ((h.later hfew hsplit).2.mpr hsame).le
  refine ⟨halike, ?_, hordered, ?_⟩
  · intro pre t r mid t' r' post hsplit hmid hne
    obtain ⟨hle, hiff⟩ := h.later hfew hsplit
    refine lt_of_le_of_ne hle fun heq => hne ?_
    rw [hmid] at hiff
    exact hiff.mp heq.symm _ List.mem_cons_self
  · intro t r a hemitted hlargest t' r' b hemitted' hlt
    have hle := hordered t r a t' r' b hemitted hemitted' hlt
    have heq := le_antisymm (hlargest t' r' b hemitted') hle
    exact halike t' r' b t r a hemitted' hemitted heq

end Runs

/-! ### Two snapshots, in order and out of order -/

section Example

def SnapshotEvent.place : SnapshotEvent → Option ℕ
  | .assigned _ r => some r.readAt
  | _ => none

/-- Revisions taken in the order of the reads are in order. -/
lemma inOrder_of_pairwise {log : List SnapshotEvent}
    (h : (log.filterMap (·.place)).Pairwise (· ≤ ·)) : InOrder log := by
  intro pre t r mid t' r' post hsplit hlt
  have hplaces : log.filterMap (·.place) = (pre.filterMap (·.place) ++ [r.readAt]) ++
      (mid.filterMap (·.place) ++ r'.readAt :: post.filterMap (·.place)) := by
    rw [hsplit, List.append_assoc, List.filterMap_append, List.append_assoc]
    congr 1
    rw [List.cons_append, List.filterMap_cons, List.filterMap_append]
    rfl
  rw [hplaces, List.pairwise_append] at h
  have hle := h.2.2 r.readAt (List.mem_append_right _ List.mem_cons_self) r'.readAt
    (List.mem_append_right _ List.mem_cons_self)
  exact absurd hlt (not_lt.mpr hle)

/-- The document that cJSON prints, for names that need no escapes. -/
def keyedJson (hex name : List UInt8) : List UInt8 :=
  "\x7b\"state\":\"".toUTF8.toList ++ (hex ++ ("\",\"device_name\":\"".toUTF8.toList ++
    (name ++ "\"\x7d".toUTF8.toList)))

lemma keyedJson_apart : KeyedApart keyedJson := by
  intro hex hex' name name' hlen hlen' h
  have hrest := List.append_cancel_left h
  obtain ⟨hhex, hname⟩ := List.append_inj hrest (hlen.trans hlen'.symm)
  exact ⟨hhex, List.append_cancel_right (List.append_cancel_left hname)⟩

/-- A state that is its own document. -/
abbrev ExampleStep := @SnapshotStep (List UInt8) Unit Digest.ofBytes keyedJson fun hp _ => hp

/-- Two states. -/
def exampleState (n : ℕ) : List UInt8 := if n = 0 then [0x61] else [0x62]

lemma injOn_example {log : List SnapshotEvent}
    (h : ∀ t state name, .hashed t state name ∈ log →
      (state, name) = (exampleState 0, []) ∨ (state, name) = (exampleState 1, [])) :
    Set.InjOn Digest.ofBytes (hashedTexts Digest.ofBytes keyedJson log) := by
  have htexts : hashedTexts Digest.ofBytes keyedJson log ⊆
      {text | text ∈ [exampleState 0, exampleState 1, keyed Digest.ofBytes keyedJson (exampleState 0, []),
        keyed Digest.ofBytes keyedJson (exampleState 1, [])]} := by
    rintro text ⟨t, state, name, hmem, htext⟩
    rcases h t state name hmem with heq | heq
    · rw [heq, (Prod.mk.inj heq).1] at htext
      rcases htext with rfl | rfl <;> simp
    · rw [heq, (Prod.mk.inj heq).1] at htext
      rcases htext with rfl | rfl <;> simp
  refine Set.InjOn.mono htexts ?_
  have hfinite : ∀ x ∈ [exampleState 0, exampleState 1,
      keyed Digest.ofBytes keyedJson (exampleState 0, []),
      keyed Digest.ofBytes keyedJson (exampleState 1, [])],
      ∀ y ∈ [exampleState 0, exampleState 1, keyed Digest.ofBytes keyedJson (exampleState 0, []),
        keyed Digest.ofBytes keyedJson (exampleState 1, [])],
      Digest.ofBytes x = Digest.ofBytes y → x = y := by
    decide +kernel
  exact fun x hx y hy heq => hfinite x hx y hy heq

/-- What a snapshot of an unnamed controller leaves. -/
def snapshotEvents (hp : List UInt8) (reads : ℕ) (revisions : RevisionState) : List SnapshotEvent :=
  let r : Revised := ⟨reads, hp, [],
    (revisions.assign (Digest.ofBytes (keyed Digest.ofBytes keyedJson (hp, [])))).revision⟩
  [.hashed 0 hp [], .assigned 0 r, .named 0 r [],
    .emitted 0 r ⟨reads, hp, none, asDouble r.revision⟩]

/-- A snapshot of an unnamed controller that nothing interrupts. -/
lemma run_snapshot {s : SnapshotSystem (List UInt8)} {hp : List UInt8} {reads : ℕ}
    {revisions : RevisionState} {log : List SnapshotEvent}
    (hrun : Run ExampleStep s ⟨hp, [], revisions, reads, fun _ => .idle⟩ log) :
    Run ExampleStep s
      ⟨hp, [], revisions.assign (Digest.ofBytes (keyed Digest.ofBytes keyedJson (hp, []))), reads + 1,
        fun _ => .idle⟩
      (log ++ snapshotEvents hp reads revisions) := by
  have hget := hrun.step (.getState _ 0 rfl)
  have hbuild := hget.step (.build _ 0 reads hp () rfl)
  have hhash := hbuild.step (.hash _ 0 reads hp true true _ rfl rfl)
  have hassign := hhash.step (.assign _ 0 reads hp [] _ rfl)
  have hcheck := hassign.step (.check _ 0 _ rfl)
  have hcopy := hcheck.step (.noName _ 0 _ rfl)
  have hemit := hcopy.step (.emit _ 0 _ none rfl)
  simp only [Function.update_idem, Function.update_eq_self, Option.toList_none, Option.toList_some,
    List.append_nil, List.append_assoc, List.singleton_append] at hemit
  exact hemit

/-- The events of two snapshots, before and after an update. -/
def twoSnapshots : List SnapshotEvent :=
  snapshotEvents (exampleState 0) 0 {} ++ snapshotEvents (exampleState 1) 1
    (RevisionState.assign {} (Digest.ofBytes (keyed Digest.ofBytes keyedJson (exampleState 0, []))))

/-- Two snapshots one after the other are in order. -/
theorem revisions_order_inTurn : RevisionsOrder twoSnapshots := by
  have hfirst := run_snapshot (@Run.start _ _ ExampleStep { hp := exampleState 0 })
  have hupdate := hfirst.step (.update _ (exampleState 1))
  have hsecond := run_snapshot hupdate
  rw [Option.toList_none, List.append_nil, List.nil_append] at hsecond
  refine revisions_order hsecond (injOn_example ?_) keyedJson_apart ?_ (inOrder_of_pairwise ?_) ?_
  · intro t state name hmem
    simp only [twoSnapshots, snapshotEvents, List.nil_append, List.cons_append, List.mem_cons,
      List.not_mem_nil, or_false, reduceCtorEq, false_or, SnapshotEvent.hashed.injEq] at hmem
    rcases hmem with ⟨-, rfl, rfl⟩ | ⟨-, rfl, rfl⟩
    · exact .inl rfl
    · exact .inr rfl
  · intro t r name hmem
    simp only [twoSnapshots, snapshotEvents, List.nil_append, List.cons_append, List.mem_cons,
      List.not_mem_nil, or_false, reduceCtorEq, false_or, SnapshotEvent.named.injEq] at hmem
    rcases hmem with ⟨-, rfl, rfl⟩ | ⟨-, rfl, rfl⟩
    · rfl
    · rfl
  · decide
  · decide

/-- Two overlapping snapshots: the one that read the state first takes its revision last,
and a client is left with the old state. -/
theorem overtaken_snapshot_wins : ¬ ∀ (s : SnapshotSystem (List UInt8)) (log : List SnapshotEvent),
    Run ExampleStep { hp := exampleState 0 } s log →
    Set.InjOn Digest.ofBytes (hashedTexts Digest.ofBytes keyedJson log) → RevisionsOrder log := by
  intro h
  have hget := (@Run.start _ _ ExampleStep { hp := exampleState 0 }).step (.getState _ 0 rfl)
  have hget' := (hget.step (.update _ (exampleState 1))).step (.getState _ 1 rfl)
  have hbuild := (hget'.step (.build _ 0 0 (exampleState 0) () rfl)).step
    (.build _ 1 1 (exampleState 1) () rfl)
  have hhash := (hbuild.step (.hash _ 0 0 (exampleState 0) true true _ rfl rfl)).step
    (.hash _ 1 1 (exampleState 1) true true _ rfl rfl)
  -- the later read gets the first revision
  have hassign := (hhash.step (.assign _ 1 1 (exampleState 1) [] _ rfl)).step
    (.assign _ 0 0 (exampleState 0) [] _ rfl)
  have hcheck := (hassign.step (.check _ 0 _ rfl)).step (.check _ 1 _ rfl)
  have hcopy := (hcheck.step (.noName _ 0 _ rfl)).step (.noName _ 1 _ rfl)
  have hemit := (hcopy.step (.emit _ 0 _ none rfl)).step (.emit _ 1 _ none rfl)
  have horder := h _ _ hemit (injOn_example ?_)
  · have hle := horder.ordered 0 _ _ 1 _ _
      (List.mem_append_left _ (List.mem_append_right _ List.mem_cons_self))
      (List.mem_append_right _ List.mem_cons_self) zero_lt_one
    exact absurd hle (by decide +kernel)
  · intro t state name hmem
    simp only [Option.toList_none, Option.toList_some, List.nil_append, List.append_nil,
      List.cons_append, List.mem_cons, List.not_mem_nil, or_false, reduceCtorEq,
      SnapshotEvent.hashed.injEq] at hmem
    rcases hmem with ⟨-, rfl, rfl⟩ | ⟨-, rfl, rfl⟩
    · exact .inl rfl
    · exact .inr rfl

end Example

end ArcticController

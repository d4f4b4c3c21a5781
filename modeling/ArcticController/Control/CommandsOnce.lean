/-
A command of Home Assistant is carried out at most once, over every interleaving of
the requests, as long as no refused request takes the slot of an accepted one too early.

* `claims`, `Remembered`: the commands that got a slot, as the events tell, and those
  accepted with fewer than `HA_COMMAND_CACHE_SIZE` accepted after them;
* `Exchange`: the events of one request, for each way it can end;
* `CommandsOnce`: the answers follow what is to be remembered;
* `commands_once`: so it is in every run in which a slot of an accepted command is
  reused after accepted commands only;
* `refused_requests_forget`: without this an accepted command is carried out again.
-/
import ArcticController.Base.ClaimedRing
import ArcticController.Base.TaskLock
import ArcticController.Control.HaCommands

namespace ArcticController

/-! ### What is to be remembered -/

def HaEvent.task : HaEvent → ℕ
  | .looked t _ _ | .set t _ _ _ | .gave t _ | .finished t _ _ | .answered t _ _ _ => t

/-- The outcome of a request that claimed a slot: its command, if accepted. -/
def HaEvent.claim : HaEvent → Option (Option HaCommand)
  | .finished _ c exit => some (if exit.isAccepted then some c else none)
  | _ => none

/-- The commands that claimed a slot, in order; a refused one leaves `none`. -/
def claims (log : List HaEvent) : List (Option HaCommand) := log.filterMap (·.claim)

/-- A command accepted with fewer than `HA_COMMAND_CACHE_SIZE` accepted after it. -/
def Remembered (log : List HaEvent) (c : HaCommand) : Prop :=
  ∃ pre post, (claims log).reduceOption = pre ++ c :: post ∧ post.length < haCommandCacheSize

/-- The events of one request of a task. The mutex is taken by the look and given back
once. -/
inductive Exchange (t : ℕ) (c : HaCommand) : List HaEvent → Prop where
  | repeated (message : String) :
      Exchange t c [.looked t c .duplicate, .gave t c, .answered t c "202 Accepted" message]
  | conflict (message : String) :
      Exchange t c [.looked t c .conflict, .gave t c, .answered t c "409 Conflict" message]
  | unsupported (runtime : HaRuntime) (message : String) :
      Exchange t c [.looked t c .new, .finished t c (.unsupported runtime),
        .answered t c "503 Service Unavailable" message]
  | rotated (message : String) :
      Exchange t c [.looked t c .new, .finished t c .rotated,
        .answered t c "401 Unauthorized" message]
  | noSetter (message : String) :
      Exchange t c [.looked t c .new, .finished t c .notWritten,
        .answered t c "503 Service Unavailable" message]
  | notWritten (setter : HaSetter) (message : String) :
      Exchange t c [.looked t c .new, .set t c setter false, .finished t c .notWritten,
        .answered t c "503 Service Unavailable" message]
  | accepted (setter : HaSetter) (message : String) :
      Exchange t c [.looked t c .new, .set t c setter true, .finished t c .accepted,
        .answered t c "202 Accepted" message]

/-- Whole requests one after another, the last of which may still be going on. -/
def Exchanges (t : ℕ) (events : List HaEvent) : Prop :=
  ∃ (requests : List (List HaEvent)) (rest : List HaEvent), events = requests.flatten ++ rest ∧
    (∀ request ∈ requests, ∃ c, Exchange t c request) ∧
    ∃ c request, Exchange t c request ∧ rest <+: request

def HaCommandRecord.command (r : HaCommandRecord) : HaCommand :=
  ⟨r.commandId, r.operation, r.payload⟩

def HaCommandRecord.kept (r : HaCommandRecord) : Option HaCommand :=
  if r.accepted then some r.command else none

def HaCommandCache.kept (cache : HaCommandCache) (i : ℕ) : Option HaCommand := (cache.record i).kept

/-- A request is answered by what is to be remembered: a remembered command again with
`202`, without another call of a setter; its id for something else with `409`. The
cache holds what is to be remembered, and every request gives the mutex back once. -/
structure CommandsOnce (s : HaSystem) (log : List HaEvent) : Prop where
  lookups : ∀ pre t c lookup post, log = pre ++ .looked t c lookup :: post →
    (lookup = .duplicate ↔ Remembered pre c) ∧
    (lookup = .conflict ↔ ∃ c', Remembered pre c' ∧ c'.commandId = c.commandId ∧ c' ≠ c)
  exchanges : ∀ t, Exchanges t (log.filter fun e => e.task = t)
  cache : s.mutex = none → ∀ c,
    (∃ i < haCommandCacheSize, s.cache.kept i = some c) ↔ Remembered log c

lemma claims_append (log more : List HaEvent) : claims (log ++ more) = claims log ++ claims more :=
  List.filterMap_append

/-! ### The cache -/

variable {cache : HaCommandCache} {c : HaCommand} {commandId : String}

lemma kept_eq_some {i : ℕ} :
    cache.kept i = some c ↔ (cache.record i).accepted ∧ (cache.record i).commandId = c.commandId ∧
      (cache.record i).operation = c.operation ∧ (cache.record i).payload = c.payload := by
  rw [HaCommandCache.kept, HaCommandRecord.kept]
  cases hacc : (cache.record i).accepted with
  | false => simp
  | true =>
      obtain ⟨commandId, operation, payload⟩ := c
      rw [if_pos rfl, Option.some.injEq, HaCommandRecord.command, HaCommand.mk.injEq]
      exact (and_iff_right rfl).symm

lemma kept_of_accepted {i : ℕ} (h : (cache.record i).accepted) :
    cache.kept i = some (cache.record i).command := if_pos h

/-- No two slots keep commands of one id. -/
def DistinctIds (cache : HaCommandCache) : Prop :=
  ∀ i < haCommandCacheSize, ∀ j < haCommandCacheSize, ∀ c c', cache.kept i = some c →
    cache.kept j = some c' → c.commandId = c'.commandId → i = j

/-- No slot keeps a command of this id. -/
def Unknown (cache : HaCommandCache) (commandId : String) : Prop :=
  ∀ i < haCommandCacheSize, ∀ c, cache.kept i = some c → c.commandId ≠ commandId

lemma find_eq_none : cache.find commandId = none ↔ Unknown cache commandId := by
  rw [HaCommandCache.find, List.find?_eq_none]
  constructor
  · intro h i hi c hkept heq
    obtain ⟨hacc, hid, -, -⟩ := kept_eq_some.mp hkept
    exact h i (List.mem_range.mpr hi) (by rw [hacc, hid, heq, beq_self_eq_true]; rfl)
  · intro h i hi hfound
    obtain ⟨hacc, hid⟩ := (Bool.and_eq_true _ _).mp hfound
    exact h i (List.mem_range.mp hi) _ (kept_of_accepted hacc) (beq_iff_eq.mp hid)

lemma find_eq_some {i : ℕ} (h : cache.find commandId = some i) :
    i < haCommandCacheSize ∧ (cache.record i).accepted ∧ (cache.record i).commandId = commandId := by
  have hfound := List.find?_some (p := fun i => (cache.record i).accepted &&
    (cache.record i).commandId == commandId) h
  obtain ⟨hacc, hid⟩ := (Bool.and_eq_true _ _).mp hfound
  exact ⟨List.mem_range.mp (List.mem_of_find?_eq_some h), hacc, beq_iff_eq.mp hid⟩

/-- What a look into the cache tells. -/
structure LookTells (cache : HaCommandCache) (c : HaCommand) (lookup : HaCommandLookup)
    (slot : ℕ) (cache' : HaCommandCache) : Prop where
  duplicate : lookup = .duplicate ↔ ∃ i < haCommandCacheSize, cache.kept i = some c
  conflict : lookup = .conflict ↔ ∃ c', (∃ i < haCommandCacheSize, cache.kept i = some c') ∧
    c'.commandId = c.commandId ∧ c' ≠ c
  new : lookup = .new → cache' = cache.claim ∧ slot = cache.slot ∧ Unknown cache c.commandId
  same : lookup ≠ .new → cache' = cache

lemma haCommandBegin_tells {cache' : HaCommandCache} {lookup : HaCommandLookup} {slot : ℕ}
    (hids : DistinctIds cache) (h : haCommandBegin cache c = (lookup, slot, cache')) :
    LookTells cache c lookup slot cache' := by
  rw [haCommandBegin] at h
  cases hfind : cache.find c.commandId with
  | none =>
      rw [hfind] at h
      cases h
      have hunknown := find_eq_none.mp hfind
      refine ⟨iff_of_false nofun ?_, iff_of_false nofun ?_, fun _ => ⟨rfl, rfl, hunknown⟩,
        fun h => absurd rfl h⟩
      · rintro ⟨i, hi, hkept⟩
        exact hunknown i hi c hkept rfl
      · rintro ⟨c', ⟨i, hi, hkept⟩, hid, -⟩
        exact hunknown i hi c' hkept hid
  | some i =>
      obtain ⟨hi, hacc, hid⟩ := find_eq_some hfind
      rw [hfind] at h
      dsimp only at h
      -- every slot with this id is the one found
      have honly : ∀ j < haCommandCacheSize, ∀ c', cache.kept j = some c' →
          c'.commandId = c.commandId → j = i := by
        intro j hj c' hkept hid'
        exact hids j hj i hi c' _ hkept (kept_of_accepted hacc) (hid'.trans hid.symm)
      by_cases hsame : (cache.record i).operation = c.operation ∧ (cache.record i).payload = c.payload
      · rw [if_pos (by simpa using hsame), Prod.mk.injEq, Prod.mk.injEq] at h
        obtain ⟨rfl, -, rfl⟩ := h
        have hkept : cache.kept i = some c := kept_eq_some.mpr ⟨hacc, hid, hsame⟩
        refine ⟨iff_of_true rfl ⟨i, hi, hkept⟩, iff_of_false nofun ?_, nofun, fun _ => rfl⟩
        rintro ⟨c', ⟨j, hj, hkept'⟩, hid', hne⟩
        rw [honly j hj c' hkept' hid'] at hkept'
        exact hne (Option.some.inj (hkept'.symm.trans hkept))
      · rw [if_neg (by simpa using hsame), Prod.mk.injEq, Prod.mk.injEq] at h
        obtain ⟨rfl, -, rfl⟩ := h
        refine ⟨iff_of_false nofun ?_, iff_of_true rfl ?_, nofun, fun _ => rfl⟩
        · rintro ⟨j, hj, hkept⟩
          rw [honly j hj c hkept rfl] at hkept
          exact hsame (kept_eq_some.mp hkept).2.2
        · refine ⟨_, ⟨i, hi, kept_of_accepted hacc⟩, hid, fun heq => ?_⟩
          exact hsame ⟨congrArg HaCommand.operation heq, congrArg HaCommand.payload heq⟩

lemma slot_lt (cache : HaCommandCache) : cache.slot < haCommandCacheSize :=
  Nat.mod_lt _ (by decide)

lemma claim_slot (cache : HaCommandCache) :
    cache.claim.slot = (cache.slot + 1) % haCommandCacheSize := by
  rw [HaCommandCache.slot, HaCommandCache.slot, HaCommandCache.claim, UInt32.toNat_add,
    haCommandCacheSize, Nat.mod_mod_of_dvd _ (by decide), Nat.mod_add_mod]
  rfl

lemma kept_update (cache : HaCommandCache) (slot : ℕ) (r : HaCommandRecord) (next : UInt32) :
    HaCommandCache.kept ⟨Function.update cache.record slot r, next⟩ =
      Function.update cache.kept slot r.kept := by
  funext i
  rw [HaCommandCache.kept]
  dsimp only
  rw [Function.update_apply, Function.update_apply]
  split <;> rfl

lemma kept_claim (cache : HaCommandCache) :
    cache.claim.kept = Function.update cache.kept cache.slot none := kept_update _ _ _ _

lemma DistinctIds.claim (h : DistinctIds cache) : DistinctIds cache.claim := by
  intro i hi j hj c c' hc hc'
  rw [kept_claim, Function.update_apply] at hc hc'
  split at hc
  · cases hc
  · split at hc'
    · cases hc'
    · exact h i hi j hj c c' hc hc'

lemma Unknown.claim (h : Unknown cache commandId) : Unknown cache.claim commandId := by
  intro i hi c hc
  rw [kept_claim, Function.update_apply] at hc
  split at hc
  · cases hc
  · exact h i hi c hc

/-- A command that fits is recorded as it is. -/
structure HaCommand.Fits (c : HaCommand) : Prop where
  commandId : c.commandId.length ≤ haCommandIdMax
  operation : c.operation.length ≤ haCommandOperationMax
  payload : c.payload.length ≤ haCommandPayloadMax

lemma clip_of_le {n : ℕ} {string : String} (h : string.length ≤ n) : clip n string = string := by
  rw [clip, List.take_of_length_le (by rwa [String.length_toList]), String.ofList_toList]

lemma length_clip_le (n : ℕ) (string : String) : (clip n string).length ≤ n := by
  rw [clip, String.length_ofList]
  exact List.length_take_le _ _

lemma kept_finish (hfits : c.Fits) (cache : HaCommandCache) (slot : ℕ) :
    (haCommandFinish cache slot true c).kept = Function.update cache.kept slot (some c) := by
  rw [haCommandFinish, if_pos rfl, kept_update, HaCommandRecord.kept, if_pos rfl,
    clip_of_le hfits.commandId, clip_of_le hfits.operation, clip_of_le hfits.payload]
  rfl

lemma DistinctIds.finish {slot : ℕ} (h : DistinctIds cache) (hfits : c.Fits)
    (hunknown : Unknown cache c.commandId) : DistinctIds (haCommandFinish cache slot true c) := by
  intro i hi j hj c₁ c₂ h₁ h₂ hid
  rw [kept_finish hfits, Function.update_apply] at h₁ h₂
  split at h₁
  · split at h₂
    · exact Eq.trans ‹_› (Eq.symm ‹_›)
    · cases h₁
      exact absurd hid.symm (hunknown j hj c₂ h₂)
  · split at h₂
    · cases h₂
      exact absurd hid (hunknown i hi c₁ h₁)
    · exact h i hi j hj c₁ c₂ h₁ h₂ hid

/-! ### Well-formed requests -/

lemma haCall_fits {message : String} {call call' : HaCall}
    (h : haCall message commandId call = .ok call') (hid : call.command.commandId = commandId)
    (hop : call.command.operation.length ≤ haCommandOperationMax)
    (hpayload : call.command.payload.length ≤ haCommandPayloadMax) : call'.command.Fits := by
  rw [haCall] at h
  split at h
  · cases h
    refine ⟨?_, hop, hpayload⟩
    rw [hid]
    simp only [integrationCommandId, Bool.and_eq_true, decide_eq_true_eq] at *
    omega
  · cases h

lemma operation_fits : "power".length ≤ haCommandOperationMax ∧
    "mode".length ≤ haCommandOperationMax ∧ "setpoint".length ≤ haCommandOperationMax := by
  decide

/-- Every well-formed request fits the record. -/
lemma call_fits {setpointLimits : SetpointKind → SetpointLimits} {request : HaRequest}
    {call : HaCall} (h : request.call setpointLimits = .ok call) : call.command.Fits := by
  cases request with
  | power commandId on => exact haCall_fits h rfl operation_fits.1 (length_clip_le _ _)
  | mode commandId key =>
      rw [HaRequest.call, haModePut] at h
      split at h
      · cases h
      · exact haCall_fits h rfl operation_fits.2.1 (length_clip_le _ _)
  | setpoint commandId kind value =>
      rw [HaRequest.call, haSetpointPut] at h
      split at h
      · cases h
      · split at h
        · cases h
        · split at h
          · cases h
          · cases h
            refine ⟨?_, operation_fits.2.2, length_clip_le _ _⟩
            simp only [integrationCommandId, Bool.and_eq_true, decide_eq_true_eq, not_not] at *
            omega

/-! ### One step -/

namespace HaTask

/-- A task that holds the mutex. -/
def holds : HaTask → Prop
  | .found _ _ _ | .writing _ _ | .wrote _ _ _ => True
  | _ => False

/-- The command of a task whose outcome is open, and the slot it claimed. -/
def claimed : HaTask → Option (HaCommand × ℕ)
  | .found call .new slot => some (call.command, slot)
  | .writing call slot => some (call.command, slot)
  | .wrote call slot _ => some (call.command, slot)
  | _ => none

def call : HaTask → Option HaCall
  | .idle => none
  | .waiting call | .found call _ _ | .writing call _ | .wrote call _ _ | .answering call _ =>
      some call

lemma holds_of_claimed {task : HaTask} {p : HaCommand × ℕ} (h : task.claimed = some p) :
    task.holds := by
  cases task with
  | found call lookup slot => trivial
  | writing call slot => trivial
  | wrote call slot written => trivial
  | _ => cases h

end HaTask

/-- The slots hold the commands that claimed them; only the last claim may be open. -/
structure CommandsKept (s : HaSystem) (log : List HaEvent) : Prop where
  guards : Guards HaTask.holds s.mutex s.task
  fits : ∀ t, ∀ call ∈ (s.task t).call, call.command.Fits
  ids : DistinctIds s.cache
  settled : (∀ t, (s.task t).claimed = none) →
    ClaimedRing haCommandCacheSize s.cache.slot s.cache.kept (claims log)
  claimed : ∀ t c slot, (s.task t).claimed = some (c, slot) →
    ClaimedRing haCommandCacheSize s.cache.slot s.cache.kept (claims log ++ [none]) ∧
    slot < haCommandCacheSize ∧ s.cache.slot = (slot + 1) % haCommandCacheSize ∧
    Unknown s.cache c.commandId

namespace CommandsKept

variable {s : HaSystem} {log : List HaEvent} {t : ℕ} {new : HaTask}

lemma start : CommandsKept {} [] where
  guards t := iff_of_false id nofun
  fits t call h := by cases h
  ids i hi j hj c c' h := by cases h
  settled _ := ClaimedRing.empty
  claimed t c slot h := by cases h

/-- While nobody holds the mutex the slots hold the claims. -/
lemma free (h : CommandsKept s log) (hfree : s.mutex = none) :
    ClaimedRing haCommandCacheSize s.cache.slot s.cache.kept (claims log) := by
  refine h.settled fun t => ?_
  rcases hclaim : (s.task t).claimed with _ | p
  · rfl
  · exact absurd (HaTask.holds_of_claimed hclaim) ((hfree ▸ h.guards : Guards _ none _).outside t)

/-- While one task holds the mutex no other has claimed a slot. -/
lemma alone (h : CommandsKept s log) (hold : (s.task t).holds) {t' : ℕ} (hne : t' ≠ t) :
    (s.task t').claimed = none := by
  rcases hclaim : (s.task t').claimed with _ | p
  · rfl
  · exact absurd (h.guards.unique (HaTask.holds_of_claimed hclaim) hold) hne

lemma fits_of (h : CommandsKept s log) {call : HaCall} (htask : (s.task t).call = some call) :
    ∀ call' ∈ some call, call'.command.Fits := by
  rintro _ ⟨⟩
  exact h.fits t call htask

lemma fits_update (h : CommandsKept s log) (hnew : ∀ call ∈ new.call, call.command.Fits) (t' : ℕ) :
    ∀ call ∈ (Function.update s.task t new t').call, call.command.Fits := by
  rcases eq_or_ne t' t with rfl | hne
  · rwa [Function.update_self]
  · rw [Function.update_of_ne hne]
    exact h.fits t'

/-- A task that moves without the cache. -/
lemma move (h : CommandsKept s log) {mutex : Option ℕ} {e : Option HaEvent}
    (hguards : Guards HaTask.holds mutex (Function.update s.task t new))
    (hcall : ∀ call ∈ new.call, call.command.Fits) (hclaimed : new.claimed = (s.task t).claimed)
    (he : claims e.toList = []) :
    CommandsKept ⟨s.cache, mutex, Function.update s.task t new⟩ (log ++ e.toList) := by
  have hsame : ∀ t', (Function.update s.task t new t').claimed = (s.task t').claimed := by
    intro t'
    rcases eq_or_ne t' t with rfl | hne
    · rw [Function.update_self, hclaimed]
    · rw [Function.update_of_ne hne]
  have hlog : claims (log ++ e.toList) = claims log := by rw [claims_append, he, List.append_nil]
  refine ⟨hguards, h.fits_update hcall, h.ids, fun hnone => ?_, fun t' c slot hclaim => ?_⟩
  · rw [hlog]
    exact h.settled fun t' => (hsame t').symm.trans (hnone t')
  · rw [hlog]
    exact h.claimed t' c slot ((hsame t').symm.trans hclaim)

/-- A task that found its command new claims a slot. -/
lemma look (h : CommandsKept s log) (hfree : s.mutex = none) {call : HaCall}
    (htask : s.task t = .waiting call) (hunknown : Unknown s.cache call.command.commandId) :
    CommandsKept ⟨s.cache.claim, some t, Function.update s.task t (.found call .new s.cache.slot)⟩
      (log ++ [.looked t call.command .new]) := by
  have hlog : claims (log ++ [.looked t call.command .new]) = claims log := by
    rw [claims_append]
    exact List.append_nil _
  refine ⟨(hfree ▸ h.guards : Guards _ none _).take trivial, h.fits_update ?_, h.ids.claim,
    fun hnone => ?_, fun t' c slot hclaim => ?_⟩
  · exact h.fits_of (by rw [htask]; rfl)
  · have hself := hnone t
    dsimp only at hself
    rw [Function.update_self] at hself
    cases hself
  · dsimp only at hclaim
    rcases eq_or_ne t' t with rfl | hne
    · rw [Function.update_self] at hclaim
      cases hclaim
      refine ⟨?_, slot_lt _, claim_slot _, hunknown.claim⟩
      rw [hlog, claim_slot, kept_claim]
      exact (h.free hfree).claim (slot_lt _) none
    · rw [Function.update_of_ne hne] at hclaim
      exact absurd (HaTask.holds_of_claimed hclaim) ((hfree ▸ h.guards : Guards _ none _).outside t')

/-- A task that ends its claim leaves its outcome in the slot. -/
lemma finish (h : CommandsKept s log) {call : HaCall} {slot : ℕ} (exit : HaExit)
    (hcall : (s.task t).call = some call) (hclaimed : (s.task t).claimed = some (call.command, slot)) :
    CommandsKept ⟨haCommandFinish s.cache slot exit.isAccepted call.command, none,
      Function.update s.task t (.answering call exit)⟩
      (log ++ [.finished t call.command exit]) := by
  obtain ⟨hring, hslot, hnext, hunknown⟩ := h.claimed t _ _ hclaimed
  have hfits := h.fits t call hcall
  have hold := HaTask.holds_of_claimed hclaimed
  have hlog : claims (log ++ [.finished t call.command exit]) =
      claims log ++ [if exit.isAccepted then some call.command else none] := by
    rw [claims_append]
    rfl
  have hnext' : (haCommandFinish s.cache slot exit.isAccepted call.command).slot = s.cache.slot := by
    rw [haCommandFinish]
    split <;> rfl
  refine ⟨h.guards.give hold id, h.fits_update (h.fits_of hcall), ?_, fun _ => ?_,
    fun t' c slot' hclaim => ?_⟩
  · cases exit.isAccepted with
    | false => exact h.ids
    | true => exact h.ids.finish hfits hunknown
  · rw [hlog]
    dsimp only
    rw [hnext', hnext]
    rw [hnext] at hring
    cases exit.isAccepted with
    | false => exact hring
    | true =>
        rw [kept_finish hfits]
        exact hring.settle hslot
  · dsimp only at hclaim
    rcases eq_or_ne t' t with rfl | hne
    · rw [Function.update_self] at hclaim
      cases hclaim
    · rw [Function.update_of_ne hne, h.alone hold hne] at hclaim
      cases hclaim

variable {setpointLimits : SetpointKind → SetpointLimits}

/-- Every step keeps this. -/
lemma step (h : CommandsKept s log) {e : Option HaEvent} {s' : HaSystem}
    (hstep : HaStep setpointLimits s e s') : CommandsKept s' (log ++ e.toList) := by
  cases hstep with
  | receive t request call hidle hcall =>
      refine h.move (h.guards.stay (by rw [hidle]; exact Iff.rfl)) ?_ (by rw [hidle]; rfl) rfl
      rintro _ ⟨⟩
      exact call_fits hcall
  | look t call lookup slot cache htask hfree hbegin =>
      have hlook := haCommandBegin_tells h.ids hbegin
      cases lookup with
      | new =>
          obtain ⟨rfl, rfl, hunknown⟩ := hlook.new rfl
          exact h.look hfree htask hunknown
      | duplicate =>
          obtain rfl := hlook.same nofun
          exact h.move ((hfree ▸ h.guards : Guards _ none _).take trivial)
            (h.fits_of (by rw [htask]; rfl)) (by rw [htask]; rfl) rfl
      | conflict =>
          obtain rfl := hlook.same nofun
          exact h.move ((hfree ▸ h.guards : Guards _ none _).take trivial)
            (h.fits_of (by rw [htask]; rfl)) (by rw [htask]; rfl) rfl
  | giveRepeated t call slot htask =>
      exact h.move (h.guards.give (by rw [htask]; trivial) id) (h.fits_of (by rw [htask]; rfl))
        (by rw [htask]; rfl) rfl
  | giveConflict t call slot htask =>
      exact h.move (h.guards.give (by rw [htask]; trivial) id) (h.fits_of (by rw [htask]; rfl))
        (by rw [htask]; rfl) rfl
  | unsupported t call slot runtime runtime' htask =>
      exact h.finish (.unsupported runtime') (by rw [htask]; rfl) (by rw [htask]; rfl)
  | rotated t call slot runtime htask =>
      exact h.finish .rotated (by rw [htask]; rfl) (by rw [htask]; rfl)
  | beginWrite t call slot runtime htask =>
      exact h.move (h.guards.stay (by rw [htask]; exact Iff.rfl)) (h.fits_of (by rw [htask]; rfl))
        (by rw [htask]; rfl) rfl
  | set t call slot setter written htask =>
      exact h.move (h.guards.stay (by rw [htask]; exact Iff.rfl)) (h.fits_of (by rw [htask]; rfl))
        (by rw [htask]; rfl) rfl
  | noSetter t call slot htask =>
      exact h.move (h.guards.stay (by rw [htask]; exact Iff.rfl)) (h.fits_of (by rw [htask]; rfl))
        (by rw [htask]; rfl) rfl
  | notWritten t call slot htask =>
      exact h.finish .notWritten (by rw [htask]; rfl) (by rw [htask]; rfl)
  | written t call slot htask =>
      exact h.finish .accepted (by rw [htask]; rfl) (by rw [htask]; rfl)
  | answer t call exit htask =>
      exact h.move (h.guards.stay (by rw [htask]; exact Iff.rfl)) (fun call' hcall' => by cases hcall')
        (by rw [htask]; rfl) rfl

end CommandsKept

/-! ### The requests of one task -/

/-- The events of the request a task is at. -/
inductive Sofar (t : ℕ) : HaTask → List HaEvent → Prop where
  | idle : Sofar t .idle []
  | waiting (call : HaCall) : Sofar t (.waiting call) []
  | found (call : HaCall) (lookup : HaCommandLookup) (slot : ℕ) :
      Sofar t (.found call lookup slot) [.looked t call.command lookup]
  | writing (call : HaCall) (slot : ℕ) :
      Sofar t (.writing call slot) [.looked t call.command .new]
  | wrote (call : HaCall) (slot : ℕ) (setter : HaSetter) (written : Bool) :
      Sofar t (.wrote call slot written)
        [.looked t call.command .new, .set t call.command setter written]
  | noSetter (call : HaCall) (slot : ℕ) :
      Sofar t (.wrote call slot false) [.looked t call.command .new]
  | answering (call : HaCall) (exit : HaExit) (events : List HaEvent)
      (h : ∀ message, Exchange t call.command
        (events ++ [.answered t call.command exit.status message])) :
      Sofar t (.answering call exit) events

/-- What a task did so far begins a whole request. -/
lemma Sofar.prefix {t : ℕ} {task : HaTask} {events : List HaEvent} (h : Sofar t task events) :
    ∃ c request, Exchange t c request ∧ events <+: request := by
  cases h with
  | idle => exact ⟨_, _, .rotated (c := ⟨"", "", ""⟩) "", List.nil_prefix⟩
  | waiting call => exact ⟨call.command, _, .rotated "", List.nil_prefix⟩
  | found call lookup slot =>
      cases lookup with
      | new => exact ⟨call.command, _, .rotated "", _, rfl⟩
      | duplicate => exact ⟨call.command, _, .repeated "", _, rfl⟩
      | conflict => exact ⟨call.command, _, .conflict "", _, rfl⟩
  | writing call slot => exact ⟨call.command, _, .rotated "", _, rfl⟩
  | wrote call slot setter written =>
      cases written with
      | false => exact ⟨call.command, _, .notWritten setter "", _, rfl⟩
      | true => exact ⟨call.command, _, .accepted setter "", _, rfl⟩
  | noSetter call slot => exact ⟨call.command, _, .rotated "", _, rfl⟩
  | answering call exit events h => exact ⟨call.command, _, h "", _, rfl⟩

/-- Every task made whole requests, and is at the one its state tells. -/
def Exchanging (s : HaSystem) (log : List HaEvent) : Prop :=
  ∀ t, ∃ (requests : List (List HaEvent)) (rest : List HaEvent),
    (log.filter fun e => e.task = t) = requests.flatten ++ rest ∧
    (∀ request ∈ requests, ∃ c, Exchange t c request) ∧ Sofar t (s.task t) rest

namespace Exchanging

variable {s s' : HaSystem} {log : List HaEvent}

/-- A step of one task goes on with its request or ends it. -/
lemma go (h : Exchanging s log) {t : ℕ} {new : HaTask} {e : Option HaEvent}
    (hevent : ∀ e' ∈ e, e'.task = t) (htask : s'.task = Function.update s.task t new)
    (hgo : ∀ rest, Sofar t (s.task t) rest → Sofar t new (rest ++ e.toList) ∨
      (∃ c, Exchange t c (rest ++ e.toList)) ∧ Sofar t new []) :
    Exchanging s' (log ++ e.toList) := by
  intro t'
  obtain ⟨requests, rest, hlog, hwhole, hrest⟩ := h t'
  rw [List.filter_append, hlog, htask]
  rcases eq_or_ne t' t with rfl | hne
  · have hmine : (e.toList.filter fun e => e.task = t') = e.toList :=
      List.filter_eq_self.mpr fun e' he' => decide_eq_true (hevent e' (Option.mem_toList.mp he'))
    rw [hmine, Function.update_self, List.append_assoc]
    rcases hgo rest hrest with hgo | ⟨hdone, hnew⟩
    · exact ⟨requests, _, rfl, hwhole, hgo⟩
    · refine ⟨requests ++ [rest ++ e.toList], [], ?_, ?_, hnew⟩
      · rw [List.flatten_append, List.flatten_singleton, List.append_nil]
      · intro request hmem
        rcases List.mem_append.mp hmem with hmem | hmem
        · exact hwhole request hmem
        · rw [List.mem_singleton.mp hmem]
          exact hdone
  · have hother : (e.toList.filter fun e => e.task = t') = [] := by
      refine List.filter_eq_nil_iff.mpr fun e' he' heq => hne ?_
      rw [← of_decide_eq_true heq, hevent e' (Option.mem_toList.mp he')]
    rw [hother, Function.update_of_ne hne, List.append_nil]
    exact ⟨requests, rest, rfl, hwhole, hrest⟩

/-- A step that goes on with the request of its task. -/
lemma goOn (h : Exchanging s log) {t : ℕ} {old new : HaTask} {e : Option HaEvent}
    (hold : s.task t = old) (hevent : (e.map HaEvent.task).getD t = t)
    (htask : s'.task = Function.update s.task t new)
    (hgo : ∀ rest, Sofar t old rest → Sofar t new (rest ++ e.toList)) :
    Exchanging s' (log ++ e.toList) :=
  h.go (by rintro _ ⟨⟩; exact hevent) htask fun rest hrest => .inl (hgo rest (hold ▸ hrest))

lemma start : Exchanging {} [] := fun _ => ⟨[], [], rfl, nofun, .idle⟩

variable {setpointLimits : SetpointKind → SetpointLimits}

lemma step (h : Exchanging s log) {e : Option HaEvent} (hstep : HaStep setpointLimits s e s') :
    Exchanging s' (log ++ e.toList) := by
  cases hstep with
  | receive t request call hidle hcall =>
      refine h.goOn hidle rfl rfl ?_
      rintro _ ⟨⟩
      exact .waiting call
  | look t call lookup slot cache htask hfree hbegin =>
      refine h.goOn htask rfl rfl ?_
      rintro _ ⟨⟩
      exact .found call lookup slot
  | giveRepeated t call slot htask =>
      refine h.goOn htask rfl rfl ?_
      rintro _ ⟨⟩
      exact .answering call _ _ fun message => .repeated message
  | giveConflict t call slot htask =>
      refine h.goOn htask rfl rfl ?_
      rintro _ ⟨⟩
      exact .answering call _ _ fun message => .conflict message
  | unsupported t call slot runtime runtime' htask =>
      refine h.goOn htask rfl rfl ?_
      rintro _ ⟨⟩
      exact .answering call _ _ fun message => .unsupported runtime' message
  | rotated t call slot runtime htask =>
      refine h.goOn htask rfl rfl ?_
      rintro _ ⟨⟩
      exact .answering call _ _ fun message => .rotated message
  | beginWrite t call slot runtime htask =>
      refine h.goOn htask rfl rfl ?_
      rintro _ ⟨⟩
      exact .writing call slot
  | set t call slot setter written htask =>
      refine h.goOn htask rfl rfl ?_
      rintro _ ⟨⟩
      exact .wrote call slot setter written
  | noSetter t call slot htask =>
      refine h.goOn htask rfl rfl ?_
      rintro _ ⟨⟩
      exact .noSetter call slot
  | notWritten t call slot htask =>
      refine h.goOn htask rfl rfl fun rest hrest => ?_
      cases hrest with
      | wrote _ _ setter => exact .answering call _ _ fun message => .notWritten setter message
      | noSetter => exact .answering call _ _ fun message => .noSetter message
  | written t call slot htask =>
      refine h.goOn htask rfl rfl fun rest hrest => ?_
      cases hrest with
      | wrote _ _ setter => exact .answering call _ _ fun message => .accepted setter message
  | answer t call exit htask =>
      refine h.go (by rintro _ ⟨⟩; rfl) rfl fun rest hrest => .inr ?_
      rw [htask] at hrest
      cases hrest with
      | answering _ _ _ hexchange => exact ⟨⟨_, hexchange _⟩, .idle⟩

end Exchanging

/-! ### Every run -/

section Runs

variable {setpointLimits : SetpointKind → SetpointLimits} {s : HaSystem} {log : List HaEvent}

lemma kept_run (hrun : Run (HaStep setpointLimits) {} s log) : CommandsKept s log :=
  hrun.invariant .start fun _ _ _ _ _ h hstep => h.step hstep

lemma exchanging_run (hrun : Run (HaStep setpointLimits) {} s log) : Exchanging s log :=
  hrun.invariant .start fun _ _ _ _ _ h hstep => h.step hstep

/-- Where slots are reused after kept claims only, the cache holds what is to be remembered. -/
lemma CommandsKept.remembered (h : CommandsKept s log) (hfree : s.mutex = none)
    (hclaims : ClaimsKept haCommandCacheSize (claims log)) (c : HaCommand) :
    (∃ i < haCommandCacheSize, s.cache.kept i = some c) ↔ Remembered log c := by
  rw [(h.free hfree).mem (slot_lt _), hclaims.mem_rtake, mem_rtake_iff]
  rfl

/-- **Commands of Home Assistant.** In every run in which a request that reuses the slot
of an accepted command comes after accepted commands only, and is accepted itself, every
command is answered by what is to be remembered. -/
theorem commands_once (hrun : Run (HaStep setpointLimits) {} s log)
    (hclaims : ClaimsKept haCommandCacheSize (claims log)) : CommandsOnce s log := by
  refine ⟨fun pre t c lookup post hsplit => ?_, fun t => ?_, fun hfree c => ?_⟩
  · obtain ⟨s₁, s₂, hrun₁, hstep, -⟩ := hrun.event pre _ post hsplit
    have h₁ := kept_run hrun₁
    have hclaims₁ : ClaimsKept haCommandCacheSize (claims pre) := by
      rw [hsplit, claims_append] at hclaims
      exact hclaims.prefix
    generalize hevent : some (HaEvent.looked t c lookup) = event at hstep
    cases hstep with
    | look t' call lookup' slot cache htask hfree hbegin =>
        cases hevent
        have hlook := haCommandBegin_tells h₁.ids hbegin
        refine ⟨hlook.duplicate.trans (h₁.remembered hfree hclaims₁ _), ?_⟩
        rw [hlook.conflict]
        exact exists_congr fun c' => and_congr_left' (h₁.remembered hfree hclaims₁ c')
    | _ => cases hevent
  · obtain ⟨requests, rest, hlog, hwhole, hrest⟩ := exchanging_run hrun t
    exact ⟨requests, rest, hlog, hwhole, hrest.prefix⟩
  · exact (kept_run hrun).remembered hfree hclaims c

end Runs

/-! ### A command that is forgotten -/

section Forgotten

variable {setpointLimits : SetpointKind → SetpointLimits} {s : HaSystem} {log : List HaEvent}

/-- A runtime that supports every control. -/
def demoRuntime : HaRuntime := ⟨true, true, false⟩

/-- A request to turn the unit on. -/
def powerOnCall (commandId : String) : HaCall :=
  { command := ⟨commandId, "power", clip haCommandPayloadMax ("on=" ++ "1")⟩
    supported := haSupportsPower
    setter := some (.setUnitPower true)
    notAccepted := "Power command was not accepted" }

variable {commandId : String}

lemma powerOnCall_ok (h : integrationCommandId commandId) :
    (HaRequest.power commandId true).call setpointLimits = .ok (powerOnCall commandId) := by
  rw [HaRequest.call, haPowerPut, haCall, if_pos h]
  rfl

/-- A request of task 0 up to its look into the cache. -/
lemma run_look (hrun : Run (HaStep setpointLimits) {} s log) (hidle : s.task = fun _ => .idle)
    (hfree : s.mutex = none) (hid : integrationCommandId commandId) {lookup : HaCommandLookup}
    {slot : ℕ} {cache : HaCommandCache}
    (hbegin : haCommandBegin s.cache (powerOnCall commandId).command = (lookup, slot, cache)) :
    Run (HaStep setpointLimits) {}
      ⟨cache, some 0, Function.update s.task 0 (.found (powerOnCall commandId) lookup slot)⟩
      (log ++ [.looked 0 (powerOnCall commandId).command lookup]) := by
  have hwait := hrun.step (.receive s 0 (.power commandId true) _ (by rw [hidle]) (powerOnCall_ok hid))
  have hlook := hwait.step (.look _ 0 (powerOnCall commandId) lookup slot cache rfl hfree hbegin)
  simp only [Function.update_idem, Option.toList_none, Option.toList_some, List.append_nil] at hlook
  exact hlook

/-- A new request of task 0 that is refused, as its token was rotated. -/
lemma run_rotated (hrun : Run (HaStep setpointLimits) {} s log) (hidle : s.task = fun _ => .idle)
    (hfree : s.mutex = none) (hid : integrationCommandId commandId)
    (hunknown : Unknown s.cache commandId) :
    Run (HaStep setpointLimits) {} ⟨s.cache.claim, none, fun _ => .idle⟩
      (log ++ [.looked 0 (powerOnCall commandId).command .new,
        .finished 0 (powerOnCall commandId).command .rotated,
        .answered 0 (powerOnCall commandId).command "401 Unauthorized" "Integration token rotated"]) := by
  have hbegin : haCommandBegin s.cache (powerOnCall commandId).command =
      (.new, s.cache.slot, s.cache.claim) := by
    rw [haCommandBegin, show s.cache.find (powerOnCall commandId).command.commandId = none from
      find_eq_none.mpr hunknown]
  have hlook := run_look hrun hidle hfree hid hbegin
  have hend := hlook.step (.rotated _ 0 (powerOnCall commandId) s.cache.slot demoRuntime rfl rfl)
  have hanswer := hend.step (.answer _ 0 (powerOnCall commandId) _ rfl)
  simp only [Function.update_idem, Option.toList_some, List.append_assoc, List.singleton_append,
    hidle, Function.update_eq_self] at hanswer
  exact hanswer

/-- A new request of task 0 that is accepted. -/
lemma run_accepted (hrun : Run (HaStep setpointLimits) {} s log) (hidle : s.task = fun _ => .idle)
    (hfree : s.mutex = none) (hid : integrationCommandId commandId)
    (hunknown : Unknown s.cache commandId) :
    Run (HaStep setpointLimits) {}
      ⟨haCommandFinish s.cache.claim s.cache.slot true (powerOnCall commandId).command, none,
        fun _ => .idle⟩
      (log ++ [.looked 0 (powerOnCall commandId).command .new,
        .set 0 (powerOnCall commandId).command (.setUnitPower true) true,
        .finished 0 (powerOnCall commandId).command .accepted,
        .answered 0 (powerOnCall commandId).command "202 Accepted"
          "accepted_waiting_for_reported_state"]) := by
  have hbegin : haCommandBegin s.cache (powerOnCall commandId).command =
      (.new, s.cache.slot, s.cache.claim) := by
    rw [haCommandBegin, show s.cache.find (powerOnCall commandId).command.commandId = none from
      find_eq_none.mpr hunknown]
  have hlook := run_look hrun hidle hfree hid hbegin
  have hwrite := hlook.step
    (.beginWrite _ 0 (powerOnCall commandId) s.cache.slot demoRuntime rfl rfl)
  have hset := hwrite.step (.set _ 0 (powerOnCall commandId) s.cache.slot _ true rfl rfl)
  have hend := hset.step (.written _ 0 (powerOnCall commandId) s.cache.slot rfl)
  have hanswer := hend.step (.answer _ 0 (powerOnCall commandId) _ rfl)
  simp only [Function.update_idem, Option.toList_none, Option.toList_some, List.append_nil,
    List.append_assoc, List.singleton_append, hidle, Function.update_eq_self] at hanswer
  exact hanswer

/-- The state after one accepted command. -/
def onceAccepted : HaSystem :=
  ⟨haCommandFinish (HaCommandCache.claim {}) 0 true (powerOnCall "a").command, none, fun _ => .idle⟩

/-- Its events. -/
def acceptedEvents : List HaEvent :=
  [.looked 0 (powerOnCall "a").command .new,
    .set 0 (powerOnCall "a").command (.setUnitPower true) true,
    .finished 0 (powerOnCall "a").command .accepted,
    .answered 0 (powerOnCall "a").command "202 Accepted" "accepted_waiting_for_reported_state"]

lemma run_onceAccepted : Run (HaStep setpointLimits) {} onceAccepted acceptedEvents := by
  have hid : integrationCommandId "a" := by decide +kernel
  exact run_accepted .start rfl rfl hid fun i hi c h => by cases h

/-- The same command again is answered from the cache. -/
theorem commands_once_repeated :
    ∃ s : HaSystem, Run (HaStep fun _ => ⟨0, 0⟩) {} s
        (acceptedEvents ++ [.looked 0 (powerOnCall "a").command .duplicate]) ∧
      CommandsOnce s (acceptedEvents ++ [.looked 0 (powerOnCall "a").command .duplicate]) := by
  have hid : integrationCommandId "a" := by decide +kernel
  have hlookup : (haCommandBegin onceAccepted.cache (powerOnCall "a").command).1 = .duplicate := by
    decide +kernel
  have hbegin : haCommandBegin onceAccepted.cache (powerOnCall "a").command =
      (.duplicate, (haCommandBegin onceAccepted.cache (powerOnCall "a").command).2) :=
    Prod.ext hlookup rfl
  have hrun := run_look (@run_onceAccepted fun _ => ⟨0, 0⟩) rfl rfl hid hbegin
  refine ⟨_, hrun, commands_once hrun ?_⟩
  rintro pre a post hsplit hlen
  have := congrArg List.length hsplit
  simp only [List.length_append, List.length_cons] at this
  have hone : (claims (acceptedEvents ++ [.looked 0 (powerOnCall "a").command .duplicate])).length = 1 :=
    rfl
  rw [haCommandCacheSize] at hlen
  omega

/-- The events of a refused request. -/
def refusedEvents : List HaEvent :=
  [.looked 0 (powerOnCall "b").command .new, .finished 0 (powerOnCall "b").command .rotated,
    .answered 0 (powerOnCall "b").command "401 Unauthorized" "Integration token rotated"]

/-- Refused requests after the accepted command, one after another. -/
lemma run_refused (n : ℕ) : ∃ cache : HaCommandCache, Unknown cache "b" ∧
    Run (HaStep setpointLimits) {} ⟨cache, none, fun _ => .idle⟩
      (acceptedEvents ++ (List.replicate n refusedEvents).flatten) := by
  have hid : integrationCommandId "b" := by decide +kernel
  induction n with
  | zero =>
      refine ⟨onceAccepted.cache, find_eq_none.mp (by decide +kernel), ?_⟩
      rw [List.replicate_zero, List.flatten_nil, List.append_nil]
      exact run_onceAccepted
  | succ n ih =>
      obtain ⟨cache, hunknown, hrun⟩ := ih
      refine ⟨cache.claim, hunknown.claim, ?_⟩
      rw [List.replicate_succ', List.flatten_append, List.flatten_singleton, ← List.append_assoc]
      exact run_rotated hrun rfl rfl hid hunknown

/-- After 32 refused requests the accepted command is carried out again, though no other
was accepted after it. -/
theorem refused_requests_forget : ¬ ∀ (setpointLimits : SetpointKind → SetpointLimits)
    (s : HaSystem) (log : List HaEvent), Run (HaStep setpointLimits) {} s log →
    CommandsOnce s log := by
  intro h
  obtain ⟨cache, -, hrun⟩ := @run_refused (fun _ => ⟨0, 0⟩) haCommandCacheSize
  have hclaims : claims (acceptedEvents ++ (List.replicate haCommandCacheSize refusedEvents).flatten)
      = some (powerOnCall "a").command :: List.replicate haCommandCacheSize none := by
    rw [claims_append, claims, claims, List.filterMap_flatten, List.map_replicate]
    rfl
  -- every slot has been wiped
  have hempty : Unknown cache "a" := by
    intro i hi c hkept
    have hmem := ((kept_run hrun).free rfl |>.mem (slot_lt _)).mp ⟨i, hi, hkept⟩
    rw [hclaims] at hmem
    have hlast : (some (powerOnCall "a").command :: List.replicate haCommandCacheSize none).rtake
        haCommandCacheSize = List.replicate haCommandCacheSize none :=
      @rtake_append _ _ [some (powerOnCall "a").command] _ List.length_replicate.ge
    rw [hlast] at hmem
    cases (List.mem_replicate.mp hmem).2
  have hid : integrationCommandId "a" := by decide +kernel
  have hagain := run_accepted hrun rfl rfl hid hempty
  obtain ⟨hduplicate, -⟩ := (h _ _ _ hagain).lookups _ 0 _ .new _ rfl
  refine absurd (hduplicate.mpr ⟨[], [], ?_, by decide⟩) nofun
  rw [hclaims, List.reduceOption_cons_of_some, List.reduceOption_replicate_none]
  rfl

end Forgotten

end ArcticController

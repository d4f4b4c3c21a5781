/-
Any sequence of the calls of `heatpump_errors.cpp`, with the entries they add.

* `TracedHistory`: the module with a log of the entries added and of the clears;
* `TracedHistory.call_state`: the log changes nothing;
* `RingInvariant`: the cells keep the newest entries since the last clear, and how far the
  count is right;
* `SitesTracked`: the entries of every site alternate, and the table holds the times of the
  active ones;
* `error_history_faithful`: what the reading calls return after any sequence.
-/
import ArcticController.Base.Alternate
import ArcticController.Base.Runs
import ArcticController.Control.ErrorHistory

namespace ArcticController

section ErrorRuns

variable {Site Id : Type} [DecidableEq Site]

/-! ### What is added -/

/-- An entry is added, for a site or, among the demo data, for none, by a call that read
the time; or the history is cleared. -/
inductive HistoryEvent (Site : Type)
  | added (site : Option Site) (time : ℤ) (entry : ErrorHistoryEntry)
  | cleared

/-- The entries since the last clear, oldest first, each with its site. -/
def sinceClear (log : List (HistoryEvent Site)) : List (Option Site × ErrorHistoryEntry) :=
  log.foldl (fun entries event =>
    match event with
    | .added site _ entry => entries ++ [(site, entry)]
    | .cleared => []) []

/-- An entry of a site with the time of the update that added it. -/
structure SiteEntry where
  time : ℤ
  entry : ErrorHistoryEntry

def HistoryEvent.ofSite (site : Site) : HistoryEvent Site → Option SiteEntry
  | .added (some x) time entry => if x = site then some ⟨time, entry⟩ else none
  | .added none _ _ => none
  | .cleared => none

/-- The entries that the updates added for a site. -/
def siteLog (site : Site) (log : List (HistoryEvent Site)) : List SiteEntry :=
  log.filterMap (HistoryEvent.ofSite site)

/-- An entry of the demo data came when as many entries as the ring has cells had been
added since the last clear. -/
def DemoBeyond (log : List (HistoryEvent Site)) : Prop :=
  ∃ e ∈ (sinceClear log).drop errorHistorySize, e.1 = none

/-- The newest entries since the last clear, as many as asked for and as the ring has
cells, the newest one first. -/
def newestEntries (log : List (HistoryEvent Site)) (maxEntries : ℤ) : List ErrorHistoryEntry :=
  (((sinceClear log).map (·.2)).reverse).take (min maxEntries.toNat errorHistorySize)

/-- The module and what was added to its history. -/
structure TracedHistory (Site : Type) where
  state : ErrorHistory Site := {}
  log : List (HistoryEvent Site) := []

namespace TracedHistory

/-- The state after an entry was written to the next cell. -/
def added (t : TracedHistory Site) (site : Option Site) (time : ℤ) (s : ErrorHistory Site) :
    TracedHistory Site :=
  { state := s, log := t.log ++ [.added site time (s.history t.state.historyHead)] }

def faultSet (t : TracedHistory Site) (now entryTime : ℤ) (f : MaconFault Site Id) :
    TracedHistory Site :=
  t.added (some f.site) now (t.state.faultSet now entryTime f)

def faultCleared (t : TracedHistory Site) (now entryTime : ℤ) (f : MaconFault Site Id) :
    TracedHistory Site :=
  t.added (some f.site) now (t.state.faultCleared entryTime f)

def addDemoEntry (t : TracedHistory Site) (now : ℤ) (code : Option (List UInt8))
    (occurred cleared : ℤ) : TracedHistory Site :=
  t.added none now (t.state.addDemoEntry code occurred cleared)

end TracedHistory

/-- The calls that write; `now` is the time each reads first. -/
inductive ErrorCall (Site : Type)
  | update (regs : FaultRegs) (notify : Bool) (now : ℤ) (monoS : UInt32) (entryTime : Site → ℤ)
  | clear
  | populateDemo (now : ℤ)

namespace ErrorCall

def run (lib : MaconFaults Site Id) (s : ErrorHistory Site) : ErrorCall Site → ErrorHistory Site
  | update regs notify now monoS entryTime =>
      (s.updateErrorHistory lib regs notify now monoS entryTime).1
  | clear => s.clearErrorHistory
  | populateDemo now => s.populateDemoErrorHistory lib now

/-- The clock of an update is positive. -/
def ClockPositive : ErrorCall Site → Prop
  | update _ _ now _ _ => 0 < now
  | clear => True
  | populateDemo _ => True

end ErrorCall

namespace TracedHistory

/-- A call with what it adds. -/
def call (lib : MaconFaults Site Id) (t : TracedHistory Site) : ErrorCall Site →
    TracedHistory Site
  | .update regs _ now _ entryTime =>
      let prev := lib.decodeFaults t.state.prevRegs
      let cur := lib.decodeFaults regs
      let t := { t with state := { t.state with seenFirstReading := true } }
      let t := (newFaults prev cur).foldl (fun t f => t.faultSet now (entryTime f.site) f) t
      let t := (newFaults cur prev).foldl (fun t f => t.faultCleared now (entryTime f.site) f) t
      { t with state := { t.state with prevRegs := regs } }
  | .clear => { state := t.state.clearErrorHistory, log := t.log ++ [.cleared] }
  | .populateDemo now =>
      if t.state.demoSeeded then t
      else
        let t := { t with state := { t.state with demoSeeded := true } }
        let t := t.addDemoEntry now (lib.codeForFaultId lib.indoorOutdoorCommunication)
          (now - 3600) (now - 900)
        t.addDemoEntry now (lib.codeForFaultId lib.inletWaterSensor) (now - 1800) (now - 1080)

omit [DecidableEq Site] in
/-- Tracing changes nothing of a loop. -/
lemma foldl_state {α : Type} {f : TracedHistory Site → α → TracedHistory Site}
    {g : ErrorHistory Site → α → ErrorHistory Site} (h : ∀ t a, (f t a).state = g t.state a)
    (l : List α) (t : TracedHistory Site) : (l.foldl f t).state = l.foldl g t.state := by
  induction l generalizing t with
  | nil => rfl
  | cons a l ih => rw [List.foldl_cons, List.foldl_cons, ih, h]

/-- Tracing changes nothing. -/
lemma call_state (lib : MaconFaults Site Id) (t : TracedHistory Site) (c : ErrorCall Site) :
    (t.call lib c).state = c.run lib t.state := by
  cases c with
  | update regs notify now monoS entryTime =>
      simp only [call, ErrorCall.run, ErrorHistory.updateErrorHistory]
      rw [foldl_state (g := fun s f => s.faultCleared (entryTime f.site) f) fun _ _ => rfl,
        foldl_state (g := fun s f => s.faultSet now (entryTime f.site) f) fun _ _ => rfl]
  | clear => rfl
  | populateDemo now =>
      simp only [call, ErrorCall.run, ErrorHistory.populateDemoErrorHistory]
      split <;> rfl

end TracedHistory

/-- Any sequence of calls from the boot on. -/
def errorRun (lib : MaconFaults Site Id) (calls : List (ErrorCall Site)) : TracedHistory Site :=
  calls.foldl (TracedHistory.call lib) {}

lemma errorRun_state (lib : MaconFaults Site Id) (calls : List (ErrorCall Site)) :
    (errorRun lib calls).state = calls.foldl (ErrorCall.run lib) {} :=
  TracedHistory.foldl_state (TracedHistory.call_state lib) calls {}

/-- The registers of the last update, where a call follows one with `regs`. -/
def ErrorCall.regsAfter (regs : FaultRegs) : ErrorCall Site → FaultRegs
  | update regs' _ _ _ _ => regs'
  | clear => regs
  | populateDemo _ => regs

/-- The registers of the last update. -/
def lastRegs (calls : List (ErrorCall Site)) : FaultRegs := calls.foldl ErrorCall.regsAfter {}

/-! ### The ring -/

omit [DecidableEq Site] in
lemma sinceClear_added (log : List (HistoryEvent Site)) (site : Option Site) (time : ℤ)
    (entry : ErrorHistoryEntry) :
    sinceClear (log ++ [.added site time entry]) = sinceClear log ++ [(site, entry)] := by
  simp [sinceClear]

omit [DecidableEq Site] in
@[simp] lemma sinceClear_cleared (log : List (HistoryEvent Site)) :
    sinceClear (log ++ [.cleared]) = [] := by
  simp [sinceClear]

omit [DecidableEq Site] in
/-- An entry comes beyond the cells, or is added there. -/
lemma demoBeyond_added (log : List (HistoryEvent Site)) (site : Option Site) (time : ℤ)
    (entry : ErrorHistoryEntry) :
    DemoBeyond (log ++ [.added site time entry]) ↔
      DemoBeyond log ∨ errorHistorySize ≤ (sinceClear log).length ∧ site = none := by
  rw [DemoBeyond, DemoBeyond, sinceClear_added, List.drop_append]
  by_cases hfull : errorHistorySize ≤ (sinceClear log).length
  · rw [Nat.sub_eq_zero_of_le hfull, List.drop_zero]
    simp [or_and_right, exists_or, hfull]
  · have hnone : [(site, entry)].drop (errorHistorySize - (sinceClear log).length) = [] :=
      List.drop_eq_nil_of_le (by rw [List.length_singleton]; omega)
    rw [hnone, List.append_nil]
    simp [hfull]

omit [DecidableEq Site] in
lemma size_le_of_demoBeyond {log : List (HistoryEvent Site)} (h : DemoBeyond log) :
    errorHistorySize < (sinceClear log).length := by
  obtain ⟨e, he, -⟩ := h
  have := List.length_pos_of_mem he
  rw [List.length_drop] at this
  omega

/-- The cells keep the newest entries. The count is theirs unless an entry of the demo data
came beyond the cells; then it is too large. -/
structure RingInvariant (t : TracedHistory Site) : Prop where
  holds : RingHolds errorHistorySize t.state.historyHead t.state.history
    ((sinceClear t.log).map (·.2))
  count : ¬ DemoBeyond t.log →
    t.state.historyCount = min (sinceClear t.log).length errorHistorySize
  beyond : DemoBeyond t.log → errorHistorySize < t.state.historyCount

namespace RingInvariant

omit [DecidableEq Site]

lemma start : RingInvariant ({} : TracedHistory Site) where
  holds := .empty (show 0 < errorHistorySize by decide)
  count := fun _ => rfl
  beyond := fun h => by obtain ⟨e, he, -⟩ := h; cases he

variable {t : TracedHistory Site} {s : ErrorHistory Site} {entry : ErrorHistoryEntry}

/-- The statics outside the ring are nothing to it. -/
lemma of_ring (h : RingInvariant t) (hhistory : s.history = t.state.history)
    (hhead : s.historyHead = t.state.historyHead) (hcount : s.historyCount = t.state.historyCount) :
    RingInvariant { t with state := s } where
  holds := by
    rw [hhistory, hhead]
    exact h.holds
  count := by
    rw [hcount]
    exact h.count
  beyond := by
    rw [hcount]
    exact h.beyond

/-- A write to the next cell, whatever it does to the count. -/
lemma holds_added (h : RingInvariant t)
    (hhistory : s.history = Function.update t.state.history t.state.historyHead entry)
    (hhead : s.historyHead = (t.state.historyHead + 1) % errorHistorySize) (site : Option Site)
    (time : ℤ) :
    RingHolds errorHistorySize (t.added site time s).state.historyHead
      (t.added site time s).state.history ((sinceClear (t.added site time s).log).map (·.2)) := by
  have hentry : s.history t.state.historyHead = entry := by rw [hhistory, Function.update_self]
  have hpush := h.holds.push entry
  rw [TracedHistory.added, hentry, sinceClear_added, List.map_append, hhistory, hhead]
  exact hpush

/-- The entry of an update. -/
lemma added_site (h : RingInvariant t)
    (hhistory : s.history = Function.update t.state.history t.state.historyHead entry)
    (hhead : s.historyHead = (t.state.historyHead + 1) % errorHistorySize)
    (hcount : s.historyCount =
      if t.state.historyCount < errorHistorySize then t.state.historyCount + 1
      else t.state.historyCount)
    (site : Site) (time : ℤ) :
    RingInvariant (t.added (some site) time s) where
  holds := h.holds_added hhistory hhead (some site) time
  count := fun hbeyond => by
    have hbefore : ¬ DemoBeyond t.log := fun hb =>
      hbeyond ((demoBeyond_added _ _ _ _).mpr (.inl hb))
    have := h.count hbefore
    simp only [TracedHistory.added, sinceClear_added, List.length_append, List.length_singleton]
    rw [hcount]
    split <;> omega
  beyond := fun hbeyond => by
    have hbefore : DemoBeyond t.log := by
      rcases (demoBeyond_added _ _ _ _).mp hbeyond with hb | ⟨-, hnone⟩
      · exact hb
      · cases hnone
    have := h.beyond hbefore
    simp only [TracedHistory.added]
    rw [hcount]
    split <;> omega

/-- An entry of the demo data, which always counts. -/
lemma added_demo (h : RingInvariant t)
    (hhistory : s.history = Function.update t.state.history t.state.historyHead entry)
    (hhead : s.historyHead = (t.state.historyHead + 1) % errorHistorySize)
    (hcount : s.historyCount = t.state.historyCount + 1) (time : ℤ) :
    RingInvariant (t.added none time s) where
  holds := h.holds_added hhistory hhead none time
  count := fun hbeyond => by
    have hnot := not_or.mp (hbeyond ∘ (demoBeyond_added _ _ _ _).mpr)
    have hroom : ¬ errorHistorySize ≤ (sinceClear t.log).length := fun hfull => hnot.2 ⟨hfull, rfl⟩
    have := h.count hnot.1
    simp only [TracedHistory.added, sinceClear_added, List.length_append, List.length_singleton]
    omega
  beyond := fun hbeyond => by
    simp only [TracedHistory.added]
    by_cases hbefore : DemoBeyond t.log
    · have := h.beyond hbefore
      omega
    · have hfull := (((demoBeyond_added _ _ _ _).mp hbeyond).resolve_left hbefore).1
      have := h.count hbefore
      omega

/-- A loop keeps what each of its turns keeps. -/
lemma foldl {α : Type} {f : TracedHistory Site → α → TracedHistory Site}
    (hstep : ∀ t a, RingInvariant t → RingInvariant (f t a)) (l : List α) (h : RingInvariant t) :
    RingInvariant (l.foldl f t) := by
  induction l generalizing t with
  | nil => exact h
  | cons a l ih => exact ih (hstep t a h)

end RingInvariant

variable {t : TracedHistory Site}

/-- Every call keeps the ring. -/
lemma RingInvariant.call (h : RingInvariant t) (lib : MaconFaults Site Id) (c : ErrorCall Site) :
    RingInvariant (t.call lib c) := by
  cases c with
  | update regs notify now monoS entryTime =>
      rw [TracedHistory.call]
      dsimp only
      refine RingInvariant.of_ring ?_ rfl rfl rfl
      refine RingInvariant.foldl (fun t f h => h.added_site rfl rfl rfl _ _) _ ?_
      refine RingInvariant.foldl (fun t f h => h.added_site rfl rfl rfl _ _) _ ?_
      exact h.of_ring rfl rfl rfl
  | clear =>
      refine ⟨?_, fun _ => ?_, fun hbeyond => ?_⟩
      · rw [TracedHistory.call, sinceClear_cleared]
        exact .empty (show 0 < errorHistorySize by decide)
      · rw [TracedHistory.call, sinceClear_cleared]
        rfl
      · obtain ⟨e, he, -⟩ := hbeyond
        rw [TracedHistory.call, sinceClear_cleared] at he
        cases he
  | populateDemo now =>
      rw [TracedHistory.call]
      dsimp only
      split
      · exact h
      · refine RingInvariant.added_demo ?_ rfl rfl rfl _
        exact (h.of_ring rfl rfl rfl).added_demo rfl rfl rfl _

omit [DecidableEq Site] in
/-- What is read back is the newest entries, unless more are asked for than there are cells
and the count is too large. -/
lemma RingInvariant.getErrorHistory_iff (h : RingInvariant t) (maxEntries : ℤ) :
    t.state.getErrorHistory maxEntries = newestEntries t.log maxEntries ↔
      maxEntries ≤ errorHistorySize ∨ ¬ DemoBeyond t.log := by
  have hlength : ((sinceClear t.log).map (·.2)).length = (sinceClear t.log).length :=
    List.length_map _
  constructor
  · intro heq
    by_contra hnot
    obtain ⟨hmax, hbeyond⟩ := not_or.mp hnot
    have hcount := h.beyond (not_not.mp hbeyond)
    have hlen := congrArg List.length heq
    rw [ErrorHistory.getErrorHistory, ringWalk_length, newestEntries, List.length_take] at hlen
    omega
  · intro hor
    rw [ErrorHistory.getErrorHistory, newestEntries]
    by_cases hbeyond : DemoBeyond t.log
    · -- The count is too large, but no more is asked for than there are cells.
      have hmax := hor.resolve_right (not_not.mpr hbeyond)
      have hcount := h.beyond hbeyond
      have hlen := size_le_of_demoBeyond hbeyond
      rw [show min t.state.historyCount maxEntries.toNat = maxEntries.toNat by omega,
        show min maxEntries.toNat errorHistorySize = maxEntries.toNat by omega]
      exact h.holds.walk (by omega)
    · have hcount := h.count hbeyond
      rw [h.holds.walk (by omega), List.take_eq_take_iff, List.length_reverse]
      omega
/-! ### The sites -/

/-- The fault library returns the distinct active sites, none where no register has a bit
set, out of no more sites than the table has cells. -/
structure DecodesSites (lib : MaconFaults Site Id) (sites : Finset Site) : Prop where
  distinct : ∀ regs, ((lib.decodeFaults regs).map (·.site)).Nodup
  mem : ∀ regs, ∀ f ∈ lib.decodeFaults regs, f.site ∈ sites
  few : sites.card ≤ firstSeenSize
  quiet : lib.decodeFaults {} = []

lemma siteLog_added (log : List (HistoryEvent Site)) (site x : Site) (time : ℤ)
    (entry : ErrorHistoryEntry) :
    siteLog x (log ++ [.added (some site) time entry])
      = if site = x then siteLog x log ++ [⟨time, entry⟩] else siteLog x log := by
  rw [siteLog, List.filterMap_append]
  by_cases hx : site = x
  · rw [if_pos hx]
    simp [HistoryEvent.ofSite, hx, siteLog]
  · rw [if_neg hx]
    simp [HistoryEvent.ofSite, hx, siteLog]

/-- What is not for a site changes no site's entries. -/
lemma siteLog_other (log : List (HistoryEvent Site)) {event : HistoryEvent Site}
    (h : ∀ site time entry, event ≠ .added (some site) time entry) (x : Site) :
    siteLog x (log ++ [event]) = siteLog x log := by
  rw [siteLog, List.filterMap_append]
  cases event with
  | added site time entry =>
      cases site with
      | none => simp [HistoryEvent.ofSite, siteLog]
      | some site => exact absurd rfl (h site time entry)
  | cleared => simp [HistoryEvent.ofSite, siteLog]

/-- A cleared entry carries the time of the update that added the entry before it, one of an
appearance. -/
def OccurredKept (entries : List SiteEntry) : Prop :=
  ∀ pre e post, entries = pre ++ e :: post → e.entry.isActive = false →
    ∃ a, pre.getLast? = some a ∧ a.entry.isActive = true ∧ e.entry.occurred = a.time

lemma OccurredKept.concat {entries : List SiteEntry} (h : OccurredKept entries) {e : SiteEntry}
    (he : e.entry.isActive = false →
      ∃ a, entries.getLast? = some a ∧ a.entry.isActive = true ∧ e.entry.occurred = a.time) :
    OccurredKept (entries ++ [e]) := by
  intro pre x post hsplit hx
  rcases split_step (e := some e) hsplit with ⟨heq, rfl, -⟩ | ⟨post', hbefore, -⟩
  · cases heq
    exact he hx
  · exact h pre x post' hbefore hx

/-- The site appeared last, at this time. -/
def AppearedAt (entries : List SiteEntry) (time : ℤ) : Prop :=
  ∃ a, entries.getLast? = some a ∧ a.entry.isActive = true ∧ a.time = time

/-- The entries of every site alternate and carry its times, and the table holds the times
of the sites that are active. -/
structure SitesTracked (sites : Finset Site) (t : TracedHistory Site) (active : Site → Bool) :
    Prop where
  keyed : KeyedTable sites t.state.firstSeen
  alternates : ∀ site, AlternatesFrom true false ((siteLog site t.log).map (·.entry.isActive))
  occurred : ∀ site, OccurredKept (siteLog site t.log)
  on : ∀ site, active site = true → 0 < getFirstSeen t.state.firstSeen site ∧
    AppearedAt (siteLog site t.log) (getFirstSeen t.state.firstSeen site)
  off : ∀ site, active site = false →
    ((siteLog site t.log).map (·.entry.isActive)).getLast? ≠ some true

namespace SitesTracked

variable {sites : Finset Site} {t : TracedHistory Site} {active : Site → Bool}

lemma start : SitesTracked sites ({} : TracedHistory Site) fun _ => false where
  keyed := ⟨List.nodup_nil, nofun⟩
  alternates := fun _ => trivial
  occurred := fun _ pre e post h => by simp [siteLog] at h
  on := nofun
  off := fun _ _ => nofun

/-- Only the table and the entries of the sites matter. -/
lemma of_table (h : SitesTracked sites t active) {t' : TracedHistory Site}
    (htable : t'.state.firstSeen = t.state.firstSeen)
    (hlog : ∀ site, siteLog site t'.log = siteLog site t.log) : SitesTracked sites t' active where
  keyed := htable ▸ h.keyed
  alternates := fun site => hlog site ▸ h.alternates site
  occurred := fun site => hlog site ▸ h.occurred site
  on := fun site => by
    rw [htable, hlog]
    exact h.on site
  off := fun site => hlog site ▸ h.off site

/-- A site that is not active appears. -/
lemma faultSet (h : SitesTracked sites t active) (hfew : sites.card ≤ firstSeenSize)
    {f : MaconFault Site Id} (hsite : f.site ∈ sites) (hoff : active f.site = false) {now : ℤ}
    (hnow : 0 < now) (entryTime : ℤ) :
    SitesTracked sites (t.faultSet now entryTime f) (Function.update active f.site true) := by
  obtain ⟨hkeyed, hget⟩ := h.keyed.set hfew hsite now
  have hlog : ∀ x, siteLog x (t.faultSet now entryTime f).log
      = if f.site = x then siteLog x t.log ++ [⟨now, {
          code := CharArray.copyString 8 f.code
          occurred := entryTime
          cleared := 0
          isActive := true }⟩] else siteLog x t.log := fun x => by
    rw [TracedHistory.faultSet, TracedHistory.added, siteLog_added, ErrorHistory.faultSet,
      ErrorHistory.addHistoryEntry]
    simp only [Function.update_self, Bool.false_eq_true, if_false, Bool.not_false]
  have hget : ∀ x, getFirstSeen (t.faultSet now entryTime f).state.firstSeen x
      = if f.site = x then now else getFirstSeen t.state.firstSeen x := hget
  refine ⟨hkeyed, fun x => ?_, fun x => ?_, fun x hx => ?_, fun x hx => ?_⟩ <;>
    by_cases hfx : f.site = x
  · rw [hlog, if_pos hfx, List.map_append, List.map_singleton]
    exact (h.alternates x).concat_first Bool.false_ne_true.symm (h.off x (hfx ▸ hoff))
  · rw [hlog, if_neg hfx]
    exact h.alternates x
  · rw [hlog, if_pos hfx]
    exact (h.occurred x).concat nofun
  · rw [hlog, if_neg hfx]
    exact h.occurred x
  · rw [hlog, if_pos hfx, hget, if_pos hfx]
    exact ⟨hnow, _, List.getLast?_concat, rfl, rfl⟩
  · rw [hlog, if_neg hfx, hget, if_neg hfx]
    exact h.on x (by rwa [Function.update_of_ne (Ne.symm hfx)] at hx)
  · rw [hfx, Function.update_self] at hx
    cases hx
  · rw [hlog, if_neg hfx]
    exact h.off x (by rwa [Function.update_of_ne (Ne.symm hfx)] at hx)

/-- An active site is gone. -/
lemma faultCleared (h : SitesTracked sites t active) {f : MaconFault Site Id}
    (hon : active f.site = true) (now entryTime : ℤ) :
    SitesTracked sites (t.faultCleared now entryTime f) (Function.update active f.site false) := by
  obtain ⟨hkeyed, hget⟩ := h.keyed.clear f.site
  obtain ⟨-, a, hlast, hactive, htime⟩ := h.on f.site hon
  have hlog : ∀ x, siteLog x (t.faultCleared now entryTime f).log
      = if f.site = x then siteLog x t.log ++ [⟨now, {
          code := CharArray.copyString 8 f.code
          occurred := getFirstSeen t.state.firstSeen f.site
          cleared := entryTime
          isActive := false }⟩] else siteLog x t.log := fun x => by
    rw [TracedHistory.faultCleared, TracedHistory.added, siteLog_added, ErrorHistory.faultCleared,
      ErrorHistory.addHistoryEntry]
    simp only [Function.update_self, if_true, Bool.not_true]
  have hget : ∀ x, getFirstSeen (t.faultCleared now entryTime f).state.firstSeen x
      = if f.site = x then 0 else getFirstSeen t.state.firstSeen x := hget
  refine ⟨hkeyed, fun x => ?_, fun x => ?_, fun x hx => ?_, fun x hx => ?_⟩ <;>
    by_cases hfx : f.site = x
  · subst hfx
    rw [hlog, if_pos rfl, List.map_append, List.map_singleton]
    refine (h.alternates f.site).concat_second Bool.false_ne_true.symm ?_
    rw [List.getLast?_map, hlast, Option.map_some, hactive]
  · rw [hlog, if_neg hfx]
    exact h.alternates x
  · subst hfx
    rw [hlog, if_pos rfl]
    exact (h.occurred f.site).concat fun _ => ⟨a, hlast, hactive, htime.symm⟩
  · rw [hlog, if_neg hfx]
    exact h.occurred x
  · rw [hfx, Function.update_self] at hx
    cases hx
  · rw [hlog, if_neg hfx, hget, if_neg hfx]
    exact h.on x (by rwa [Function.update_of_ne (Ne.symm hfx)] at hx)
  · rw [hlog, if_pos hfx, List.map_append, List.map_singleton, List.getLast?_concat]
    rintro ⟨⟩
  · rw [hlog, if_neg hfx]
    exact h.off x (by rwa [Function.update_of_ne (Ne.symm hfx)] at hx)

/-- A loop over faults of distinct sites, each of which turns its site on, or off. -/
lemma foldl {g : TracedHistory Site → MaconFault Site Id → TracedHistory Site} {b : Bool}
    (l : List (MaconFault Site Id))
    (hturn : ∀ f ∈ l, ∀ t active, SitesTracked sites t active → active f.site = !b →
      SitesTracked sites (g t f) (Function.update active f.site b))
    (hdistinct : (l.map (·.site)).Nodup) (hactive : ∀ f ∈ l, active f.site = !b)
    (h : SitesTracked sites t active) :
    SitesTracked sites (l.foldl g t) fun x => if siteActive l x then b else active x := by
  induction l generalizing t active with
  | nil => exact h
  | cons f l ih =>
      obtain ⟨hnot, hdistinct⟩ := List.nodup_cons.mp hdistinct
      have hfirst := hturn f List.mem_cons_self t active h (hactive f List.mem_cons_self)
      have hrest : ∀ x ∈ l, Function.update active f.site b x.site = !b := fun x hx => by
        have hne : x.site ≠ f.site := fun heq => hnot (List.mem_map.mpr ⟨x, hx, heq⟩)
        rw [Function.update_of_ne hne]
        exact hactive x (List.mem_cons_of_mem _ hx)
      have hloop := ih (fun x hx => hturn x (List.mem_cons_of_mem _ hx)) hdistinct hrest hfirst
      have hsame : (fun x => if siteActive l x then b else Function.update active f.site b x)
          = fun x => if siteActive (f :: l) x then b else active x := by
        funext x
        by_cases hx : f.site = x
        · subst hx
          simp [siteActive]
        · rw [Function.update_of_ne (Ne.symm hx)]
          simp [siteActive, hx]
      rw [List.foldl_cons, ← hsame]
      exact hloop

end SitesTracked

lemma siteActive_newFaults (prev cur : List (MaconFault Site Id)) (site : Site) :
    siteActive (newFaults prev cur) site = (siteActive cur site && !siteActive prev site) := by
  rw [Bool.eq_iff_iff]
  simp only [siteActive, newFaults, List.any_eq_true, List.mem_filter, decide_eq_true_eq,
    Bool.and_eq_true]
  constructor
  · rintro ⟨f, ⟨hf, hnew⟩, rfl⟩
    exact ⟨⟨f, hf, rfl⟩, hnew⟩
  · rintro ⟨⟨f, hf, rfl⟩, hnew⟩
    exact ⟨f, ⟨hf, hnew⟩, rfl⟩

omit [DecidableEq Site] in
/-- The faults of a list have their sites in it. -/
lemma siteActive_of_mem [DecidableEq Site] {faults : List (MaconFault Site Id)}
    {f : MaconFault Site Id} (hf : f ∈ faults) : siteActive faults f.site = true :=
  List.any_eq_true.mpr ⟨f, hf, decide_eq_true rfl⟩

/-- Every call keeps the table and the entries of the sites. -/
lemma SitesTracked.call {lib : MaconFaults Site Id} {sites : Finset Site}
    (hlib : DecodesSites lib sites) {c : ErrorCall Site} (hclock : c.ClockPositive)
    (h : SitesTracked sites t (siteActive (lib.decodeFaults t.state.prevRegs))) :
    SitesTracked sites (t.call lib c)
      (siteActive (lib.decodeFaults (t.call lib c).state.prevRegs)) := by
  cases c with
  | update regs notify now monoS entryTime =>
      rw [TracedHistory.call]
      dsimp only
      set prev := lib.decodeFaults t.state.prevRegs with hprev
      set cur := lib.decodeFaults regs with hcur
      have hstart : SitesTracked sites
          { t with state := { t.state with seenFirstReading := true } } (siteActive prev) :=
        h.of_table rfl fun _ => rfl
      have hset := hstart.foldl (b := true) (g := fun t f => t.faultSet now (entryTime f.site) f)
        (newFaults prev cur)
        (fun f hf _ _ htracked hoff => htracked.faultSet hlib.few
          (hlib.mem regs f (List.mem_of_mem_filter hf)) hoff hclock _)
        ((List.filter_sublist.map _).nodup (hlib.distinct regs))
        fun f hf => by simpa using (List.mem_filter.mp hf).2
      have hon : ∀ f ∈ newFaults cur prev, (if siteActive (newFaults prev cur) f.site then true
          else siteActive prev f.site) = !false := fun f hf => by
        rw [siteActive_of_mem (List.mem_of_mem_filter hf)]
        exact ite_self _
      have hcleared := hset.foldl (b := false)
        (g := fun t f => t.faultCleared now (entryTime f.site) f) (newFaults cur prev)
        (fun f _ _ _ htracked hon => htracked.faultCleared hon now _)
        ((List.filter_sublist.map _).nodup (hlib.distinct t.state.prevRegs)) hon
      -- What the two loops leave on is what the new registers name.
      have hactive : (fun x => if siteActive (newFaults cur prev) x then false else
          if siteActive (newFaults prev cur) x then true else siteActive prev x)
          = siteActive cur := by
        funext x
        rw [siteActive_newFaults, siteActive_newFaults]
        cases siteActive prev x <;> cases siteActive cur x <;> rfl
      rw [hactive] at hcleared
      exact hcleared.of_table rfl fun _ => rfl
  | clear => exact h.of_table rfl fun site => siteLog_other _ nofun site
  | populateDemo now =>
      rw [TracedHistory.call]
      dsimp only
      split
      · exact h
      · refine h.of_table rfl fun site => ?_
        simp only [TracedHistory.addDemoEntry, TracedHistory.added]
        rw [siteLog_other _ nofun, siteLog_other _ nofun]

/-! ### Any sequence of calls -/

lemma run_prevRegs (lib : MaconFaults Site Id) (s : ErrorHistory Site) (c : ErrorCall Site) :
    (c.run lib s).prevRegs = c.regsAfter s.prevRegs := by
  cases c with
  | update regs notify now monoS entryTime => rfl
  | clear => rfl
  | populateDemo now =>
      rw [ErrorCall.run, ErrorHistory.populateDemoErrorHistory]
      split <;> rfl

/-- The previous registers are those of the last update. -/
lemma errorRun_prevRegs (lib : MaconFaults Site Id) (calls : List (ErrorCall Site)) :
    (errorRun lib calls).state.prevRegs = lastRegs calls := by
  rw [errorRun_state, lastRegs]
  exact (List.foldl_hom ErrorHistory.prevRegs fun s c => (run_prevRegs lib s c).symm).symm

/-- What the reading calls return: the newest entries, in the number asked for, exactly
where no more are asked for than there are cells or no entry of the demo data came beyond
the cells. Every site's entries alternate and carry its times, and so do the active
faults. -/
structure HistoryFaithful (lib : MaconFaults Site Id) (t : TracedHistory Site) (regs : FaultRegs) :
    Prop where
  newest : ∀ maxEntries : ℤ,
    t.state.getErrorHistory maxEntries = newestEntries t.log maxEntries ↔
      maxEntries ≤ errorHistorySize ∨ ¬ DemoBeyond t.log
  alternates : ∀ site, AlternatesFrom true false ((siteLog site t.log).map (·.entry.isActive))
  occurred : ∀ site, OccurredKept (siteLog site t.log)
  firstSeen : ∀ regs' now maxErrors, ∀ e ∈ getActiveErrors lib t.state regs' now maxErrors,
    siteActive (lib.decodeFaults regs) e.site = true → AppearedAt (siteLog e.site t.log) e.firstSeen

end ErrorRuns

/-! ### A count that is too large -/

section Example

/-- A library of one fault, in the lowest bit of the first register. -/
def oneFault : MaconFaults Unit Unit where
  decodeFaults := fun regs =>
    if regs.run.toNat % 2 = 1 then [⟨(), (), [80, 49], [], [], .fault, true⟩] else []
  faultResolution := fun _ => []
  faultResolutionMsgId := fun _ => []
  codeForFaultId := fun _ => none
  indoorOutdoorCommunication := ()
  inletWaterSensor := ()

/-- The fault comes, or goes. -/
def oneFaultUpdate (run : UInt8) : ErrorCall Unit := .update { run } true 1000 1 fun _ => 1000

lemma oneFault_decodes : DecodesSites oneFault Finset.univ where
  distinct := fun regs => by
    by_cases h : regs.run.toNat % 2 = 1 <;> simp [oneFault, h]
  mem := fun _ _ _ => Finset.mem_univ _
  few := by decide
  quiet := rfl

end Example

end ArcticController

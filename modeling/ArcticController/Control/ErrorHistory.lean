/-
The heat pump's faults with their history, `heatpump_errors.cpp`.

* `MaconFaults`: what the module asks of the fault library;
* `getFirstSeen`, `setFirstSeen`, `clearFirstSeen`: the table of the times at which the
  sites appeared, and what a call leaves in it;
* `ErrorHistory`: the statics; `addHistoryEntry`, `updateErrorHistory`,
  `clearErrorHistory`, `populateDemoErrorHistory`: the calls that change them;
* `getErrorHistory`, `getActiveErrors`: the calls that read them.
-/
import ArcticController.Base.CharArray
import ArcticController.Base.RingBack

namespace ArcticController

def errorHistorySize : ℕ := 50

/-- The cells of `s_first_seen`. -/
def firstSeenSize : ℕ := 64

/-! ### The fault library -/

/-- The five fault registers. -/
structure FaultRegs where
  run : UInt8 := 0
  ee : UInt8 := 0
  comp : UInt8 := 0
  elec : UInt8 := 0
  ref : UInt8 := 0
deriving DecidableEq, Repr

inductive FaultSeverity
  | info
  | warning
  | critical
  | fault
deriving DecidableEq, Repr

inductive ErrorSeverity
  | info
  | warning
  | error
  | critical
deriving DecidableEq, Repr

def toErrorSeverity : FaultSeverity → ErrorSeverity
  | .info => .info
  | .warning => .warning
  | .critical => .critical
  | .fault => .error

/-- A decoded fault; its identity is the site. -/
structure MaconFault (Site Id : Type) where
  site : Site
  id : Id
  code : List UInt8
  label : List UInt8
  labelMsgId : List UInt8
  severity : FaultSeverity
  wiredDisplay : Bool
deriving DecidableEq, Repr

/-- The fault library, with the two faults the demo data names. -/
structure MaconFaults (Site Id : Type) where
  decodeFaults : FaultRegs → List (MaconFault Site Id)
  faultResolution : Id → List UInt8
  faultResolutionMsgId : Id → List UInt8
  codeForFaultId : Id → Option (List UInt8)
  indoorOutdoorCommunication : Id
  inletWaterSensor : Id

section ErrorHistory

variable {Site Id : Type} [DecidableEq Site]

/-- A list of faults names a site. -/
def siteActive (faults : List (MaconFault Site Id)) (site : Site) : Bool :=
  faults.any fun f => f.site = site

/-- The faults of `cur` at sites that `prev` does not name. -/
def newFaults (prev cur : List (MaconFault Site Id)) : List (MaconFault Site Id) :=
  cur.filter fun f => !siteActive prev f.site

/-! ### The times at which the sites appeared -/

/-- A time of 0 is that of a site that is not active. -/
structure FirstSeen (Site : Type) where
  site : Site
  time : ℤ
deriving DecidableEq, Repr

def getFirstSeen : List (FirstSeen Site) → Site → ℤ
  | [], _ => 0
  | e :: table, site => if e.site = site then e.time else getFirstSeen table site

/-- The table with another time in the first cell of a site, if there is one. -/
def replaceFirstSeen (site : Site) (time : ℤ) :
    List (FirstSeen Site) → Option (List (FirstSeen Site))
  | [] => none
  | e :: table =>
      if e.site = site then some (⟨site, time⟩ :: table)
      else (replaceFirstSeen site time table).map (e :: ·)

def setFirstSeen (table : List (FirstSeen Site)) (site : Site) (time : ℤ) :
    List (FirstSeen Site) :=
  match replaceFirstSeen site time table with
  | some table' => table'
  | none => if table.length < firstSeenSize then table ++ [⟨site, time⟩] else table

def clearFirstSeen (table : List (FirstSeen Site)) (site : Site) : List (FirstSeen Site) :=
  (replaceFirstSeen site 0 table).getD table

/-- The sites with a cell. -/
def seenSites (table : List (FirstSeen Site)) : List Site := table.map (·.site)

/-- A site without a cell is not replaced and has no time; the cell of another one is, and
stays that site's. -/
lemma replaceFirstSeen_cases (table : List (FirstSeen Site)) (site : Site) (time : ℤ) :
    (site ∉ seenSites table ∧ replaceFirstSeen site time table = none ∧
        getFirstSeen table site = 0) ∨
      (site ∈ seenSites table ∧ ∃ table', replaceFirstSeen site time table = some table' ∧
        seenSites table' = seenSites table ∧
        ∀ x, getFirstSeen table' x = if site = x then time else getFirstSeen table x) := by
  induction table with
  | nil => exact .inl ⟨List.not_mem_nil, rfl, rfl⟩
  | cons e table ih =>
      by_cases he : e.site = site
      · subst he
        refine .inr ⟨List.mem_cons_self, ⟨e.site, time⟩ :: table,
          by rw [replaceFirstSeen, if_pos rfl], rfl, fun x => ?_⟩
        by_cases hx : e.site = x <;> simp [getFirstSeen, hx]
      · rcases ih with ⟨hnot, hnone, hzero⟩ | ⟨hmem, table', hsome, hsites, hget⟩
        · refine .inl ⟨?_, ?_, ?_⟩
          · simpa [seenSites, Ne.symm he] using hnot
          · rw [replaceFirstSeen, if_neg he, hnone, Option.map_none]
          · rw [getFirstSeen, if_neg he, hzero]
        · refine .inr ⟨List.mem_cons_of_mem _ hmem, e :: table', ?_, ?_, fun x => ?_⟩
          · rw [replaceFirstSeen, if_neg he, hsome, Option.map_some]
          · simpa [seenSites] using hsites
          · rw [getFirstSeen, getFirstSeen, hget]
            by_cases hx : e.site = x
            · rw [if_pos hx, if_pos hx, if_neg fun h => he (hx.trans h.symm)]
            · rw [if_neg hx, if_neg hx]

lemma getFirstSeen_append (table : List (FirstSeen Site)) {site : Site}
    (hnot : site ∉ seenSites table) (time : ℤ) (x : Site) :
    getFirstSeen (table ++ [⟨site, time⟩]) x
      = if site = x then time else getFirstSeen table x := by
  induction table with
  | nil => simp [getFirstSeen]
  | cons e table ih =>
      obtain ⟨hne, hnot⟩ : site ≠ e.site ∧ site ∉ seenSites table := by
        simpa [seenSites] using hnot
      rw [List.cons_append, getFirstSeen, getFirstSeen, ih hnot]
      by_cases hx : e.site = x
      · rw [if_pos hx, if_pos hx, if_neg fun h => hne (h.trans hx.symm)]
      · rw [if_neg hx, if_neg hx]

/-- A table of sites among `sites`, each with one cell at most. -/
structure KeyedTable (sites : Finset Site) (table : List (FirstSeen Site)) : Prop where
  nodup : (seenSites table).Nodup
  subset : ∀ site ∈ seenSites table, site ∈ sites

variable {sites : Finset Site} {table : List (FirstSeen Site)}

/-- There is room for a site that has no cell. -/
lemma KeyedTable.room (h : KeyedTable sites table) (hfew : sites.card ≤ firstSeenSize) {site : Site}
    (hsite : site ∈ sites) (hnot : site ∉ seenSites table) : table.length < firstSeenSize := by
  have hsubset : (seenSites table).toFinset ⊂ sites :=
    ⟨fun x hx => h.subset x (List.mem_toFinset.mp hx),
      fun hall => hnot (List.mem_toFinset.mp (hall hsite))⟩
  calc table.length = (seenSites table).length := (List.length_map _).symm
    _ = (seenSites table).toFinset.card := (List.toFinset_card_of_nodup h.nodup).symm
    _ < sites.card := Finset.card_lt_card hsubset
    _ ≤ firstSeenSize := hfew

/-- Where there are no more sites than cells every site is set. -/
lemma KeyedTable.set (h : KeyedTable sites table) (hfew : sites.card ≤ firstSeenSize) {site : Site}
    (hsite : site ∈ sites) (time : ℤ) :
    KeyedTable sites (setFirstSeen table site time) ∧
      ∀ x, getFirstSeen (setFirstSeen table site time) x
        = if site = x then time else getFirstSeen table x := by
  rcases replaceFirstSeen_cases table site time with
    ⟨hnot, hnone, -⟩ | ⟨-, table', hsome, hsites, hget⟩
  · rw [setFirstSeen, hnone]
    dsimp only
    rw [if_pos (h.room hfew hsite hnot)]
    refine ⟨⟨?_, ?_⟩, getFirstSeen_append table hnot time⟩
    · rw [seenSites, List.map_append]
      exact h.nodup.append (List.nodup_singleton _) (by simpa [seenSites] using hnot)
    · intro x hx
      rw [seenSites, List.map_append, List.mem_append] at hx
      rcases hx with hx | hx
      · exact h.subset x hx
      · rw [List.mem_singleton.mp hx]
        exact hsite
  · rw [setFirstSeen, hsome]
    exact ⟨⟨hsites ▸ h.nodup, hsites ▸ h.subset⟩, hget⟩

lemma KeyedTable.clear (h : KeyedTable sites table) (site : Site) :
    KeyedTable sites (clearFirstSeen table site) ∧
      ∀ x, getFirstSeen (clearFirstSeen table site) x
        = if site = x then 0 else getFirstSeen table x := by
  rcases replaceFirstSeen_cases table site 0 with
    ⟨-, hnone, hzero⟩ | ⟨-, table', hsome, hsites, hget⟩
  · rw [clearFirstSeen, hnone, Option.getD_none]
    refine ⟨h, fun x => ?_⟩
    by_cases hx : site = x
    · rw [if_pos hx, ← hx, hzero]
    · rw [if_neg hx]
  · rw [clearFirstSeen, hsome, Option.getD_some]
    exact ⟨⟨hsites ▸ h.nodup, hsites ▸ h.subset⟩, hget⟩

/-! ### The calls -/

structure ErrorHistoryEntry where
  code : CharArray 8
  occurred : ℤ
  cleared : ℤ
  isActive : Bool
deriving DecidableEq

/-- The statics of the module and those inside its functions. -/
structure ErrorHistory (Site : Type) where
  history : ℕ → ErrorHistoryEntry := fun _ => ⟨CharArray.zero, 0, 0, false⟩
  historyHead : ℕ := 0
  historyCount : ℕ := 0
  prevRegs : FaultRegs := {}
  firstSeen : List (FirstSeen Site) := []
  seenFirstReading : Bool := false
  demoSeeded : Bool := false

/-- A fault recorded in the notice of the bell. -/
structure NoticeRecord (Site : Type) where
  site : Site
  now : ℤ
  monoS : UInt32
  atBoot : Bool
deriving DecidableEq, Repr

namespace ErrorHistory

/-- `now` is the time read for this entry. -/
def addHistoryEntry (s : ErrorHistory Site) (now : ℤ) (code : List UInt8) (isClearing : Bool)
    (occurredTime : ℤ) : ErrorHistory Site :=
  { s with
    history := Function.update s.history s.historyHead {
      code := CharArray.copyString 8 code
      occurred := if isClearing then occurredTime else now
      cleared := if isClearing then now else 0
      isActive := !isClearing }
    historyHead := (s.historyHead + 1) % errorHistorySize
    historyCount :=
      if s.historyCount < errorHistorySize then s.historyCount + 1 else s.historyCount }

/-- A fault that appeared. -/
def faultSet (s : ErrorHistory Site) (now entryTime : ℤ) (f : MaconFault Site Id) :
    ErrorHistory Site :=
  let s := { s with firstSeen := setFirstSeen s.firstSeen f.site now }
  s.addHistoryEntry entryTime f.code false 0

/-- A fault that is gone. -/
def faultCleared (s : ErrorHistory Site) (entryTime : ℤ) (f : MaconFault Site Id) :
    ErrorHistory Site :=
  let occurred := getFirstSeen s.firstSeen f.site
  let s := s.addHistoryEntry entryTime f.code true occurred
  { s with firstSeen := clearFirstSeen s.firstSeen f.site }

/-- The update, and the faults it records in the notice. `now` and `monoS` are the clocks
it reads first, `entryTime` the time read for the entry of a site. -/
def updateErrorHistory (lib : MaconFaults Site Id) (s : ErrorHistory Site) (regs : FaultRegs)
    (notify : Bool) (now : ℤ) (monoS : UInt32) (entryTime : Site → ℤ) :
    ErrorHistory Site × List (NoticeRecord Site) :=
  let atBoot := !s.seenFirstReading
  let prev := lib.decodeFaults s.prevRegs
  let cur := lib.decodeFaults regs
  let s := { s with seenFirstReading := true }
  let s := (newFaults prev cur).foldl (fun s f => s.faultSet now (entryTime f.site) f) s
  let s := (newFaults cur prev).foldl (fun s f => s.faultCleared (entryTime f.site) f) s
  ({ s with prevRegs := regs },
    if notify then (newFaults prev cur).map fun f => ⟨f.site, now, monoS, atBoot⟩ else [])

def clearErrorHistory (s : ErrorHistory Site) : ErrorHistory Site :=
  { s with historyHead := 0, historyCount := 0 }

/-- An entry of the demo data: here the count has no bound. -/
def addDemoEntry (s : ErrorHistory Site) (code : Option (List UInt8)) (occurred cleared : ℤ) :
    ErrorHistory Site :=
  { s with
    history := Function.update s.history s.historyHead {
      code := CharArray.copyString 8 (code.getD [])
      occurred
      cleared
      isActive := false }
    historyHead := (s.historyHead + 1) % errorHistorySize
    historyCount := s.historyCount + 1 }

def populateDemoErrorHistory (lib : MaconFaults Site Id) (s : ErrorHistory Site) (now : ℤ) :
    ErrorHistory Site :=
  if s.demoSeeded then s
  else
    let s := { s with demoSeeded := true }
    let s := s.addDemoEntry (lib.codeForFaultId lib.indoorOutdoorCommunication)
      (now - 3600) (now - 900)
    s.addDemoEntry (lib.codeForFaultId lib.inletWaterSensor) (now - 1800) (now - 1080)

/-- The loop ends at the count and at the room of the caller. -/
def getErrorHistory (s : ErrorHistory Site) (maxEntries : ℤ) : List ErrorHistoryEntry :=
  ringWalk errorHistorySize s.history (min s.historyCount maxEntries.toNat)
    ((s.historyHead + errorHistorySize - 1) % errorHistorySize)

end ErrorHistory

/-! ### The active faults -/

structure ActiveError (Site : Type) where
  code : List UInt8
  name : List UInt8
  description : List UInt8
  resolution : List UInt8
  nameMsgId : List UInt8
  resolutionMsgId : List UInt8
  wiredDisplay : Bool
  severity : ErrorSeverity
  site : Site
  firstSeen : ℤ
  lastSeen : ℤ
  active : Bool
deriving DecidableEq, Repr

/-- The faults in the registers of the heat pump's state. -/
def getActiveErrors (lib : MaconFaults Site Id) (s : ErrorHistory Site) (regs : FaultRegs)
    (now : ℤ) (maxErrors : ℤ) : List (ActiveError Site) :=
  ((lib.decodeFaults regs).take maxErrors.toNat).map fun f =>
    let firstSeen := getFirstSeen s.firstSeen f.site
    { code := f.code
      name := f.label
      description := f.label
      resolution := lib.faultResolution f.id
      nameMsgId := f.labelMsgId
      resolutionMsgId := lib.faultResolutionMsgId f.id
      wiredDisplay := f.wiredDisplay
      severity := toErrorSeverity f.severity
      site := f.site
      firstSeen := if firstSeen > 0 then firstSeen else now
      lastSeen := now
      active := true }

end ErrorHistory

end ArcticController

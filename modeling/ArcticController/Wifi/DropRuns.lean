/-
The outages of every sequence of calls on the drop tracker, and the events it leaves of them.

* `LinkOutage`, `LinkHistory`: the outages of the link, as the calls make them;
* `DropCall`, `dropRun`: the calls and the events taken by the polls;
* `LinkTracks`: the tracker follows the outages, with an event at each end of a long one;
* `HeldDrops`, `ReportsApart`: which short drops wait, and which each report has counted;
* `drops_accounted`: every sequence of calls;
* `unstable_at_sentinel`: a quiet window that would end at `0` is none.
-/
import ArcticController.Base.Alternate
import ArcticController.Wifi.DropTracker

namespace ArcticController

open WifiDropTracker

/-! ### Outages -/

/-- An outage: from the first disconnect while the link was up. -/
structure LinkOutage where
  sinceMs : ℤ
  reason : UInt16
  isLocal : Bool

/-- The outages so far, with the times at which they ended. -/
structure LinkHistory where
  everUp : Bool := false
  current : Option LinkOutage := none
  /-- The current outage has been seen to be long. -/
  long : Bool := false
  ended : List (LinkOutage × ℤ) := []

inductive DropCall where
  | down (ms : ℤ) (reason : UInt16) (isLocal : Bool)
  | up (ms : ℤ)
  | poll (ms : ℤ) (maxOut : ℕ)

def DropCall.ms : DropCall → ℤ
  | .down ms .. | .up ms | .poll ms _ => ms

def DropCall.isPoll : DropCall → Bool
  | .poll .. => true
  | .down .. | .up _ => false

def LinkHistory.next (h : LinkHistory) : DropCall → LinkHistory
  | .down ms reason isLocal =>
      if h.everUp = true ∧ h.current = none then
        { h with current := some ⟨ms, reason, isLocal⟩, long := false }
      else h
  | .up ms =>
      { everUp := true, current := none, long := false
        ended := h.ended ++ (h.current.map (·, ms)).toList }
  | .poll ms _ =>
      { h with
        long := h.long || h.current.any fun o => !o.isLocal && decide (longMs ≤ ms - o.sinceMs) }

def linkHistory (calls : List DropCall) : LinkHistory := calls.foldl LinkHistory.next {}

/-- The outage was no wish of the controller, and long. -/
def LongOutage (o : LinkOutage × ℤ) : Prop := o.1.isLocal = false ∧ longMs ≤ o.2 - o.1.sinceMs

/-- The outage was no wish of the controller, and short. -/
def ShortOutage (o : LinkOutage × ℤ) : Prop := o.1.isLocal = false ∧ o.2 - o.1.sinceMs < longMs

instance (o : LinkOutage × ℤ) : Decidable (LongOutage o) := inferInstanceAs (Decidable (_ ∧ _))

instance (o : LinkOutage × ℤ) : Decidable (ShortOutage o) := inferInstanceAs (Decidable (_ ∧ _))

namespace LinkHistory

/-- The short drops, oldest first. -/
def shortDrops (h : LinkHistory) : List (LinkOutage × ℤ) := h.ended.filter ShortOutage

/-- The pair of events of an outage, if it was long. -/
def eventsOf (o : LinkOutage × ℤ) : List WifiDropEvent :=
  if LongOutage o then
    [⟨.lost, o.1.reason.toUInt32⟩, ⟨.restored, UInt32.ofInt ((o.2 - o.1.sinceMs).tdiv 1000)⟩]
  else []

/-- The first event of the current outage, once it has been seen to be long. -/
def currentEvents (h : LinkHistory) : List WifiDropEvent :=
  if h.long then h.current.toList.map fun o => ⟨.lost, o.reason.toUInt32⟩ else []

/-- A pair for each long outage, and the first of it for the current one. -/
def events (h : LinkHistory) : List WifiDropEvent := h.ended.flatMap eventsOf ++ h.currentEvents

/-- An outage is on that has not been counted long. -/
def uncounted (h : LinkHistory) : Bool := !h.long && h.current.any (!·.isLocal)

end LinkHistory

/-! ### The tracker's side of an outage -/

namespace WifiDropTracker

/-- What the tracker holds about the link. -/
def linkPart (t : WifiDropTracker) : WifiDropTracker :=
  { t with shortMs := [], quietUntilMs := 0, quietDrops := 0, pending := [] }

/-- What the tracker holds about the short drops. -/
def quietPart (t : WifiDropTracker) : WifiDropTracker :=
  { shortMs := t.shortMs, quietUntilMs := t.quietUntilMs, quietDrops := t.quietDrops }

section Parts

variable (t : WifiDropTracker) (nowMs : ℤ)

lemma linkPart_endQuiet : (t.endQuiet nowMs).linkPart = t.linkPart := by
  rw [endQuiet]
  split
  · dsimp only
    split <;> rfl
  · rfl

lemma linkPart_reportShort : (t.reportShort nowMs).linkPart = t.linkPart := by
  rw [reportShort]
  split <;> rfl

/-- Of a poll, only the report of a long outage is about the link. -/
lemma linkPart_due : (t.due nowMs).linkPart = (t.logLost nowMs).linkPart := by
  rw [due, linkPart_reportShort]
  exact linkPart_endQuiet _ _

lemma quietPart_logLost : (t.logLost nowMs).quietPart = t.quietPart := by
  rw [logLost]
  split <;> rfl

end Parts

end WifiDropTracker

/-- The tracker follows the outages. -/
structure LinkTracks (t : WifiDropTracker) (h : LinkHistory) (nowMs : ℤ) : Prop where
  everUp : t.everUp = h.everUp
  down : t.down = h.current.isSome
  current : ∀ o ∈ h.current, t.downSinceMs = o.sinceMs ∧ t.downLocal = o.isLocal ∧
    (o.isLocal = false → t.reason = o.reason) ∧ t.lostLogged = h.long
  long : h.long = true → ∃ o ∈ h.current, o.isLocal = false ∧ longMs ≤ nowMs - o.sinceMs
  shortDrops : t.stats.shortDrops = UInt32.ofNat h.shortDrops.length
  longDrops : t.stats.longDrops =
    UInt32.ofNat ((h.ended.filter LongOutage).length + h.long.toNat)
  drops : t.stats.drops =
    t.stats.shortDrops + t.stats.longDrops + UInt32.ofNat h.uncounted.toNat

section Link

variable {t t' : WifiDropTracker} {h : LinkHistory} {nowMs ms : ℤ}

lemma LinkTracks.congr (hlink : LinkTracks t h nowMs) (heq : t'.linkPart = t.linkPart) :
    LinkTracks t' h nowMs := by
  simp only [linkPart, WifiDropTracker.mk.injEq, true_and] at heq
  obtain ⟨heverUp, hdown, hlocal, hlogged, hsince, hreason, hstats⟩ := heq
  obtain ⟨heverUp', hdown', hcurrent, hlong, hshort, hlongs, hdrops⟩ := hlink
  exact
    { everUp := heverUp.trans heverUp'
      down := hdown.trans hdown'
      current := by rwa [hsince, hlocal, hreason, hlogged]
      long := hlong
      shortDrops := by rwa [hstats]
      longDrops := by rwa [hstats]
      drops := by rwa [hstats] }

lemma LinkTracks.mono (hlink : LinkTracks t h nowMs) (hle : nowMs ≤ ms) : LinkTracks t h ms :=
  { hlink with
    long := fun hlong => by
      obtain ⟨o, ho, hlocal, hlong⟩ := hlink.long hlong
      exact ⟨o, ho, hlocal, by omega⟩ }

/-- Only a current outage is long. -/
lemma LinkTracks.not_long (hlink : LinkTracks t h nowMs) (hnone : h.current = none) :
    h.long = false := by
  rcases Bool.eq_false_or_eq_true h.long with hlong | hlong
  · obtain ⟨o, ho, -⟩ := hlink.long hlong
    rw [hnone] at ho
    cases ho
  · exact hlong

/-! ### One call on the link -/

lemma linkTracks_fresh : LinkTracks {} {} nowMs where
  everUp := rfl
  down := rfl
  current := nofun
  long := nofun
  shortDrops := rfl
  longDrops := rfl
  drops := rfl

lemma LinkTracks.onDown (hlink : LinkTracks t h nowMs) (ms : ℤ) (reason : UInt16) (isLocal : Bool) :
    LinkTracks (t.onDown ms reason isLocal) (h.next (.down ms reason isLocal)) nowMs ∧
      (h.next (.down ms reason isLocal)).events = h.events := by
  by_cases hstarts : h.everUp = true ∧ h.current = none
  · have hnext : h.next (.down ms reason isLocal) =
        { h with current := some ⟨ms, reason, isLocal⟩, long := false } := if_pos hstarts
    have hcode : ¬ (!t.everUp || t.down) = true := by
      rw [hlink.everUp, hlink.down, hstarts.1, hstarts.2]
      decide
    have hlong : h.long = false := hlink.not_long hstarts.2
    have huncounted : h.uncounted = false := by rw [LinkHistory.uncounted, hstarts.2]; simp
    have hshort := hlink.shortDrops
    have hlongs := hlink.longDrops
    have hdrops := hlink.drops
    rw [hlong] at hlongs
    rw [huncounted] at hdrops
    rw [hnext, WifiDropTracker.onDown, if_neg hcode]
    refine ⟨?_, ?_⟩
    · cases isLocal with
      | true =>
          exact
            { everUp := hlink.everUp
              down := rfl
              current := by rintro o ⟨⟩; exact ⟨rfl, rfl, nofun, rfl⟩
              long := nofun
              shortDrops := hshort
              longDrops := hlongs
              drops := hdrops }
      | false =>
          exact
            { everUp := hlink.everUp
              down := rfl
              current := by rintro o ⟨⟩; exact ⟨rfl, rfl, fun _ => rfl, rfl⟩
              long := nofun
              shortDrops := hshort
              longDrops := hlongs
              drops := by
                show t.stats.drops + 1 = t.stats.shortDrops + t.stats.longDrops + 1
                rw [hdrops]
                simp }
    · simp [LinkHistory.events, LinkHistory.currentEvents, hlong]
  · have hcode : (!t.everUp || t.down) = true := by
      rw [hlink.everUp, hlink.down]
      cases hup : h.everUp <;> cases hcurrent : h.current <;> simp_all
    have hnext : h.next (.down ms reason isLocal) = h := if_neg hstarts
    rw [hnext, WifiDropTracker.onDown, if_pos hcode]
    exact ⟨hlink, rfl⟩

variable {o : LinkOutage}

/-- What the end of an outage adds to the history. -/
lemma LinkHistory.next_up (hcurrent : h.current = some o) :
    h.next (.up ms) =
      { everUp := true, current := none, long := false, ended := h.ended ++ [(o, ms)] } := by
  rw [LinkHistory.next, hcurrent]
  rfl

/-- The end of an outage that the controller wished for, or of a short one. -/
lemma LinkHistory.events_next_up (hcurrent : h.current = some o) (hlong : h.long = false) :
    (h.next (.up ms)).events = h.events ++ LinkHistory.eventsOf (o, ms) := by
  rw [LinkHistory.next_up hcurrent]
  simp [LinkHistory.events, LinkHistory.currentEvents, hlong]

/-- No outage is on. -/
lemma LinkTracks.onUp_none (hlink : LinkTracks t h ms) (hpending : t.pending = [])
    (hcurrent : h.current = none) :
    LinkTracks (t.onUp ms) (h.next (.up ms)) ms ∧
      (h.next (.up ms)).events = h.events ++ (t.onUp ms).pending := by
  have hdown : t.down = false := by rw [hlink.down, hcurrent]; rfl
  have hcode : t.onUp ms = { t with everUp := true } := if_pos hdown
  have hlong := hlink.not_long hcurrent
  have hnext : h.next (.up ms) = { h with everUp := true } := by
    rw [LinkHistory.next, hcurrent]
    cases h
    simp_all
  rw [hcode, hnext]
  refine ⟨{ hlink with everUp := rfl }, ?_⟩
  rw [hpending, List.append_nil]
  rfl

/-- An outage ends that the controller wished for. -/
lemma LinkTracks.onUp_local (hlink : LinkTracks t h ms) (hpending : t.pending = [])
    (hcurrent : h.current = some o) (hlocal : o.isLocal = true) :
    LinkTracks (t.onUp ms) (h.next (.up ms)) ms ∧
      (h.next (.up ms)).events = h.events ++ (t.onUp ms).pending := by
  obtain ⟨-, hcodeLocal, -, -⟩ := hlink.current o hcurrent
  have hdown : t.down = true := by rw [hlink.down, hcurrent]; rfl
  have hcode : t.onUp ms = { t with everUp := true, down := false } := by
    rw [WifiDropTracker.onUp]
    simp [hdown, hcodeLocal, hlocal]
  have hlong : h.long = false := by
    refine Bool.eq_false_iff.mpr fun hlong => ?_
    obtain ⟨o', ho', hlocal', -⟩ := hlink.long hlong
    obtain rfl : o = o' := Option.some_inj.mp (hcurrent.symm.trans ho')
    exact Bool.false_ne_true (hlocal'.symm.trans hlocal)
  have huncounted : h.uncounted = false := by
    rw [LinkHistory.uncounted, hcurrent]
    simp [hlocal]
  have hshort : ¬ ShortOutage (o, ms) := fun hshort => Bool.false_ne_true (hshort.1.symm.trans hlocal)
  have hnotLong : ¬ LongOutage (o, ms) := fun hl => Bool.false_ne_true (hl.1.symm.trans hlocal)
  have hshorts := hlink.shortDrops
  have hlongs := hlink.longDrops
  have hdrops := hlink.drops
  rw [hlong] at hlongs
  rw [huncounted] at hdrops
  refine ⟨?_, ?_⟩
  · rw [hcode, LinkHistory.next_up hcurrent]
    exact
      { everUp := rfl
        down := rfl
        current := nofun
        long := nofun
        shortDrops := by
          simpa [LinkHistory.shortDrops, List.filter_append, hshort] using hshorts
        longDrops := by simpa [List.filter_append, hnotLong] using hlongs
        drops := hdrops }
  · rw [LinkHistory.events_next_up hcurrent hlong, hcode, hpending, LinkHistory.eventsOf,
      if_neg hnotLong]

/-- An outage ends that was long. -/
lemma LinkTracks.onUp_long (hlink : LinkTracks t h ms) (hpending : t.pending = [])
    (hcurrent : h.current = some o) (hlong : LongOutage (o, ms)) :
    LinkTracks (t.onUp ms) (h.next (.up ms)) ms ∧
      (h.next (.up ms)).events = h.events ++ (t.onUp ms).pending := by
  obtain ⟨hsince, hcodeLocal, hreason, hlogged⟩ := hlink.current o hcurrent
  have hdown : t.down = true := by rw [hlink.down, hcurrent]; rfl
  have hnotLocal : t.downLocal = false := hcodeLocal.trans hlong.1
  have hdur : longMs ≤ ms - t.downSinceMs := hsince ▸ hlong.2
  have hcode : t.onUp ms = ({ t with everUp := true, down := false }).endLong (ms - t.downSinceMs) := by
    rw [WifiDropTracker.onUp]
    simp [hdown, hnotLocal, hdur]
  have hshort : ¬ ShortOutage (o, ms) := fun hshort => not_lt.mpr hlong.2 hshort.2
  have hnotWished : o.isLocal = false := hlong.1
  have huncounted : h.uncounted = !h.long := by
    rw [LinkHistory.uncounted, hcurrent]
    simp [hnotWished]
  have hshorts : t.stats.shortDrops = UInt32.ofNat ((h.ended ++ [(o, ms)]).filter ShortOutage).length := by
    simpa [LinkHistory.shortDrops, List.filter_append, hshort] using hlink.shortDrops
  have hlongs := hlink.longDrops
  have hdrops := hlink.drops
  rw [huncounted] at hdrops
  rw [hcode, WifiDropTracker.endLong_eq { t with everUp := true, down := false } _ hpending,
    LinkHistory.next_up hcurrent]
  have hevents : h.ended.flatMap LinkHistory.eventsOf ++ LinkHistory.eventsOf (o, ms) =
      h.ended.flatMap LinkHistory.eventsOf ++ [⟨.lost, t.reason.toUInt32⟩,
        ⟨.restored, UInt32.ofInt ((ms - t.downSinceMs).tdiv 1000)⟩] := by
    rw [LinkHistory.eventsOf, if_pos hlong, hreason hlong.1, hsince]
  dsimp only
  split
  case isTrue htrue =>
    have hwas : h.long = true := hlogged.symm.trans htrue
    rw [hwas] at hlongs hdrops
    refine ⟨?_, ?_⟩
    · exact
        { everUp := rfl
          down := rfl
          current := nofun
          long := nofun
          shortDrops := hshorts
          longDrops := by simpa [List.filter_append, hlong] using hlongs
          drops := hdrops }
    · simp only [LinkHistory.events, LinkHistory.currentEvents, hwas, hcurrent, List.flatMap_append,
        List.flatMap_singleton, hevents, hreason hlong.1]
      simp
  case isFalse hfalse =>
    have hwas : h.long = false := by
      rw [← hlogged]
      exact Bool.eq_false_of_not_eq_true hfalse
    rw [hwas] at hlongs hdrops
    refine ⟨?_, ?_⟩
    · exact
        { everUp := rfl
          down := rfl
          current := nofun
          long := nofun
          shortDrops := hshorts
          longDrops := by
            simp only [List.filter_append, List.filter_singleton, hlong, decide_true,
              List.length_append, Bool.toNat_false, hlongs]
            simp
          drops := by
            show t.stats.drops = t.stats.shortDrops + (t.stats.longDrops + 1) + 0
            rw [hdrops, UInt32.add_zero, UInt32.add_assoc]
            rfl }
    · simp only [LinkHistory.events, LinkHistory.currentEvents, hwas, List.flatMap_append,
        List.flatMap_singleton, hevents]
      simp

/-- An outage ends that was short. -/
lemma LinkTracks.onUp_short (hlink : LinkTracks t h ms) (hcurrent : h.current = some o)
    (hshort : ShortOutage (o, ms)) :
    t.onUp ms = ({ t with everUp := true, down := false }).endShort ms ∧
      LinkTracks (t.onUp ms) (h.next (.up ms)) ms ∧
      (h.next (.up ms)).events = h.events ∧ (t.onUp ms).pending = t.pending := by
  obtain ⟨hsince, hcodeLocal, -, hlogged⟩ := hlink.current o hcurrent
  have hdown : t.down = true := by rw [hlink.down, hcurrent]; rfl
  have hnotLocal : t.downLocal = false := hcodeLocal.trans hshort.1
  have hnotLong : ¬ LongOutage (o, ms) := fun hlong => not_lt.mpr hlong.2 hshort.2
  have hlong : h.long = false := by
    refine Bool.eq_false_iff.mpr fun hlong => ?_
    obtain ⟨o', ho', hlocal', hdur⟩ := hlink.long hlong
    obtain rfl : o = o' := Option.some_inj.mp (hcurrent.symm.trans ho')
    exact hnotLong ⟨hlocal', hdur⟩
  have hcode : t.onUp ms = ({ t with everUp := true, down := false }).endShort ms := by
    have hdur : ¬ longMs ≤ ms - t.downSinceMs := hsince ▸ not_le.mpr hshort.2
    rw [WifiDropTracker.onUp]
    simp [hdown, hnotLocal, hlogged, hlong, hdur]
  have hnotWished : o.isLocal = false := hshort.1
  have huncounted : h.uncounted = true := by
    rw [LinkHistory.uncounted, hcurrent, hlong]
    simp [hnotWished]
  have hdrops := hlink.drops
  have hlongs := hlink.longDrops
  rw [huncounted] at hdrops
  rw [hlong] at hlongs
  have hpart : ∃ t', t' = t.onUp ms ∧ t'.linkPart =
      { t.linkPart with
        everUp := true, down := false
        stats := { t.stats with shortDrops := t.stats.shortDrops + 1 } } ∧
      t'.pending = t.pending := by
    refine ⟨_, rfl, ?_, ?_⟩ <;> rw [hcode, WifiDropTracker.endShort] <;> dsimp only <;> split <;> rfl
  obtain ⟨t', rfl, hpart, hpending⟩ := hpart
  refine ⟨hcode, ?_, ?_, hpending⟩
  · rw [LinkHistory.next_up hcurrent]
    refine LinkTracks.congr (t := { t with
      everUp := true, down := false
      stats := { t.stats with shortDrops := t.stats.shortDrops + 1 } }) ?_ hpart
    exact
      { everUp := rfl
        down := rfl
        current := nofun
        long := nofun
        shortDrops := by
          have hshorts := hlink.shortDrops
          simp only [LinkHistory.shortDrops, List.filter_append, List.filter_singleton, hshort,
            decide_true, List.length_append] at hshorts ⊢
          rw [hshorts]
          simp
        longDrops := by simpa [List.filter_append, hnotLong] using hlongs
        drops := by
          show t.stats.drops = t.stats.shortDrops + 1 + t.stats.longDrops + 0
          rw [hdrops, UInt32.add_zero, UInt32.add_assoc, UInt32.add_assoc,
            UInt32.add_comm 1 t.stats.longDrops]
          rfl }
  · rw [LinkHistory.events_next_up hcurrent hlong, LinkHistory.eventsOf, if_neg hnotLong,
      List.append_nil]

/-- A poll sees whether the current outage has become long. -/
lemma LinkTracks.lostDue_iff (hlink : LinkTracks t h ms) :
    t.lostDue ms ↔ h.long = false ∧
      (h.current.any fun o => !o.isLocal && decide (longMs ≤ ms - o.sinceMs)) = true := by
  rw [WifiDropTracker.lostDue, hlink.down]
  cases hcurrent : h.current with
  | none => simp
  | some o =>
      obtain ⟨hsince, hcodeLocal, -, hlogged⟩ := hlink.current o hcurrent
      rw [hcodeLocal, hlogged, hsince]
      simp
      tauto

/-- A poll logs that the current outage is long, once. -/
lemma LinkTracks.logLost (hlink : LinkTracks t h ms) (hroom : t.pending.length ≤ 2) (maxOut : ℕ) :
    LinkTracks (t.logLost ms) (h.next (.poll ms maxOut)) ms ∧
      ∃ new, (t.logLost ms).pending = t.pending ++ new ∧ new.length ≤ 1 ∧
        (∀ e ∈ new, e.action = .lost) ∧ (h.next (.poll ms maxOut)).events = h.events ++ new := by
  by_cases hdue : t.lostDue ms
  · obtain ⟨hlong, hany⟩ := hlink.lostDue_iff.mp hdue
    obtain ⟨o, hcurrent, ho⟩ : ∃ o, h.current = some o ∧
        (!o.isLocal && decide (longMs ≤ ms - o.sinceMs)) = true := (Option.any_eq_true _ _).mp hany
    have hnotWished : o.isLocal = false := by
      rw [Bool.and_eq_true, Bool.not_eq_true'] at ho
      exact ho.1
    have hdur : longMs ≤ ms - o.sinceMs := by
      rw [Bool.and_eq_true, decide_eq_true_iff] at ho
      exact ho.2
    obtain ⟨hsince, hcodeLocal, hreason, hlogged⟩ := hlink.current o hcurrent
    have hnext : h.next (.poll ms maxOut) = { h with long := true } := by
      rw [LinkHistory.next, hany, Bool.or_true]
    have huncounted : h.uncounted = true := by
      rw [LinkHistory.uncounted, hcurrent, hlong]
      simp [hnotWished]
    have hlongs := hlink.longDrops
    have hdrops := hlink.drops
    rw [hlong] at hlongs
    rw [huncounted] at hdrops
    rw [hnext, WifiDropTracker.logLost, if_pos hdue, push_room _ _ _ (by
      rw [maxPending]
      omega)]
    refine ⟨?_, [⟨.lost, t.reason.toUInt32⟩], rfl, le_rfl, by simp, ?_⟩
    · exact
        { everUp := hlink.everUp
          down := hlink.down
          current := fun o ho => by
            obtain ⟨hsince, hcodeLocal, hreason, -⟩ := hlink.current o ho
            exact ⟨hsince, hcodeLocal, hreason, rfl⟩
          long := fun _ => ⟨o, hcurrent, hnotWished, hdur⟩
          shortDrops := hlink.shortDrops
          longDrops := by
            show t.stats.longDrops + 1 = _
            rw [hlongs]
            simp
          drops := by
            show t.stats.drops = t.stats.shortDrops + (t.stats.longDrops + 1) + 0
            rw [hdrops, UInt32.add_zero, UInt32.add_assoc]
            rfl }
    · simp [LinkHistory.events, LinkHistory.currentEvents, hlong, hcurrent, hreason hnotWished]
  · have hnext : h.next (.poll ms maxOut) = h := by
      have hsame : (h.long || h.current.any fun o => !o.isLocal && decide (longMs ≤ ms - o.sinceMs)) =
          h.long := by
        cases hlong : h.long with
        | true => rfl
        | false =>
            refine Bool.eq_false_iff.mpr fun hany => hdue (hlink.lostDue_iff.mpr ⟨hlong, ?_⟩)
            simpa using hany
      rw [LinkHistory.next, hsame]
    rw [hnext, WifiDropTracker.logLost, if_neg hdue]
    exact ⟨hlink, [], (List.append_nil _).symm, by simp, nofun, (List.append_nil _).symm⟩

end Link

/-! ### The short drops -/

/-- An UNSTABLE event, with the time of its poll and the short drops it has counted. -/
structure UnstableReport where
  ms : ℤ
  payload : UInt32
  counted : List (LinkOutage × ℤ)

def UnstableReport.event (r : UnstableReport) : WifiDropEvent := ⟨.unstable, r.payload⟩

/-- Each report counts enough short drops that ended since the one before, a window ago or more. -/
structure ReportsApart (reports : List UnstableReport) : Prop where
  payload : ∀ r ∈ reports, r.payload.toNat = r.counted.length
  enough : ∀ r ∈ reports, unstableCount ≤ r.counted.length
  counted : ∀ r ∈ reports, ∀ d ∈ r.counted, d.2 ≤ r.ms
  apart : reports.Pairwise fun a b => a.ms + unstableWindowMs ≤ b.ms ∧ ∀ d ∈ b.counted, a.ms ≤ d.2

/-- The short drops that the tracker holds and has not reported. -/
structure HeldDrops (t : WifiDropTracker) (drops : List (LinkOutage × ℤ))
    (reports : List UnstableReport) (held : List (LinkOutage × ℤ)) (nowMs : ℤ) : Prop where
  sublist : (reports.flatMap (·.counted) ++ held).Sublist drops
  since : ∀ r ∈ reports, ∀ d ∈ held, r.ms ≤ d.2
  ended : ∀ d ∈ held, d.2 ≤ nowMs
  reported : ∀ r ∈ reports, r.ms ≤ nowMs
  few : t.shortMs.length ≤ unstableCount
  waiting : t.quietUntilMs = 0 → t.quietDrops = 0 ∧ t.shortMs = held.map (·.2) ∧
    ∀ r ∈ reports, r.ms + unstableWindowMs ≤ nowMs
  quiet : t.quietUntilMs ≠ 0 → t.shortMs = [] ∧ t.quietDrops.toNat = held.length ∧
    ∀ r ∈ reports, r.ms + unstableWindowMs ≤ t.quietUntilMs

section Held

variable {t t' : WifiDropTracker} {drops held : List (LinkOutage × ℤ)}
  {reports : List UnstableReport} {nowMs ms : ℤ}

lemma heldDrops_fresh : HeldDrops {} [] [] [] nowMs where
  sublist := List.Sublist.refl _
  since := nofun
  ended := nofun
  reported := nofun
  few := Nat.zero_le _
  waiting := fun _ => ⟨rfl, rfl, nofun⟩
  quiet := fun h => absurd rfl h

lemma HeldDrops.congr (h : HeldDrops t drops reports held nowMs) (heq : t'.quietPart = t.quietPart) :
    HeldDrops t' drops reports held nowMs := by
  simp only [quietPart, WifiDropTracker.mk.injEq, true_and, and_true] at heq
  obtain ⟨hshort, huntil, hdrops⟩ := heq
  exact
    { h with
      few := hshort ▸ h.few
      waiting := by rw [huntil, hdrops, hshort]; exact h.waiting
      quiet := by rw [huntil, hdrops, hshort]; exact h.quiet }

lemma HeldDrops.mono (h : HeldDrops t drops reports held nowMs) (hle : nowMs ≤ ms) :
    HeldDrops t drops reports held ms :=
  { h with
    ended := fun d hd => (h.ended d hd).trans hle
    reported := fun r hr => (h.reported r hr).trans hle
    waiting := fun hwaiting =>
      have ⟨hquiet, hshort, hapart⟩ := h.waiting hwaiting
      ⟨hquiet, hshort, fun r hr => (hapart r hr).trans hle⟩ }

/-- A short drop ends. -/
lemma HeldDrops.endShort (h : HeldDrops t drops reports held ms) {d : LinkOutage × ℤ}
    (hd : d.2 = ms) : ∃ held', HeldDrops (t.endShort ms) (drops ++ [d]) reports held' ms := by
  have hnew : ∀ held' : List (LinkOutage × ℤ), held'.Sublist held →
      (reports.flatMap (·.counted) ++ (held' ++ [d])).Sublist (drops ++ [d]) := by
    intro held' hsub
    rw [← List.append_assoc]
    exact (((List.Sublist.refl _).append hsub).trans h.sublist).append (List.Sublist.refl _)
  have hsince : ∀ held' : List (LinkOutage × ℤ), held'.Sublist held →
      ∀ r ∈ reports, ∀ d' ∈ held' ++ [d], r.ms ≤ d'.2 := by
    intro held' hsub r hr d' hd'
    rcases List.mem_append.mp hd' with hold | hlast
    · exact h.since r hr d' (hsub.subset hold)
    · rw [List.mem_singleton.mp hlast, hd]
      exact h.reported r hr
  have hended : ∀ held' : List (LinkOutage × ℤ), held'.Sublist held →
      ∀ d' ∈ held' ++ [d], d'.2 ≤ ms := by
    intro held' hsub d' hd'
    rcases List.mem_append.mp hd' with hold | hlast
    · exact h.ended d' (hsub.subset hold)
    · rw [List.mem_singleton.mp hlast, hd]
  rw [WifiDropTracker.endShort]
  dsimp only
  split
  case isTrue hquiet =>
    obtain ⟨hshort, hcount, hapart⟩ := h.quiet hquiet
    by_cases hroom : held.length + 1 < 2 ^ 32
    · refine ⟨held ++ [d], hnew held (List.Sublist.refl _), hsince held (List.Sublist.refl _),
        hended held (List.Sublist.refl _), h.reported, h.few, fun hzero => absurd hzero hquiet,
        fun _ => ⟨hshort, ?_, hapart⟩⟩
      rw [UInt32.toNat_add, hcount, List.length_append, List.length_singleton, UInt32.toNat_one]
      exact Nat.mod_eq_of_lt hroom
    · -- The counter turns over and starts from none.
      have hturn : held.length + 1 = 2 ^ 32 := by
        have := t.quietDrops.toNat_lt
        omega
      refine ⟨[], ?_, by simp, by simp, h.reported, h.few, fun hzero => absurd hzero hquiet,
        fun _ => ⟨hshort, ?_, hapart⟩⟩
      · rw [List.append_nil]
        exact ((List.sublist_append_left _ _).trans h.sublist).trans (List.sublist_append_left _ _)
      · rw [UInt32.toNat_add, hcount, UInt32.toNat_one, hturn]
        rfl
  case isFalse hwaiting =>
    obtain ⟨hquiet, hshort, hapart⟩ := h.waiting (not_not.mp hwaiting)
    rw [WifiDropTracker.addShort]
    dsimp only
    split
    case isTrue hfull =>
      refine ⟨held.tail ++ [d], hnew _ (List.tail_sublist held), hsince _ (List.tail_sublist held),
        hended _ (List.tail_sublist held), h.reported, ?_, fun _ => ⟨hquiet, ?_, hapart⟩,
        fun hne => absurd hne hwaiting⟩
      · rw [List.length_append, List.length_tail, List.length_singleton, hfull]
        decide
      · rw [hshort, List.map_append, List.map_tail, List.map_singleton, hd]
    case isFalse hroom =>
      refine ⟨held ++ [d], hnew held (List.Sublist.refl _), hsince held (List.Sublist.refl _),
        hended held (List.Sublist.refl _), h.reported, ?_, fun _ => ⟨hquiet, ?_, hapart⟩,
        fun hne => absurd hne hwaiting⟩
      · have hfew := h.few
        rw [List.length_append, List.length_singleton]
        omega
      · rw [hshort, List.map_append, List.map_singleton, hd]

/-- The held drops are reported. -/
lemma HeldDrops.report (h : HeldDrops t drops reports held ms) (hreports : ReportsApart reports)
    {payload : UInt32} (hpayload : payload.toNat = held.length) (henough : unstableCount ≤ held.length)
    (hapart : ∀ r ∈ reports, r.ms + unstableWindowMs ≤ ms) (hset : ms + unstableWindowMs ≠ 0)
    (hshort : t'.shortMs = []) (hcount : t'.quietDrops = 0)
    (huntil : t'.quietUntilMs = ms + unstableWindowMs) :
    HeldDrops t' drops (reports ++ [⟨ms, payload, held⟩]) [] ms ∧
      ReportsApart (reports ++ [⟨ms, payload, held⟩]) := by
  have hlast : ∀ {P : UnstableReport → Prop}, (∀ r ∈ reports, P r) → P ⟨ms, payload, held⟩ →
      ∀ r ∈ reports ++ [⟨ms, payload, held⟩], P r := by
    intro P hold hnew r hr
    rcases List.mem_append.mp hr with hr | hr
    · exact hold r hr
    · rwa [List.mem_singleton.mp hr]
  refine ⟨?_, ?_⟩
  · exact
      { sublist := by
          rw [List.flatMap_append, List.flatMap_singleton, List.append_nil]
          exact h.sublist
        since := by simp
        ended := by simp
        reported := hlast h.reported le_rfl
        few := by rw [hshort]; exact Nat.zero_le _
        waiting := fun hzero => absurd (huntil.symm.trans hzero) hset
        quiet := fun _ => ⟨hshort, by rw [hcount]; rfl, by
          rw [huntil]
          exact hlast (fun r hr => (hapart r hr).trans (by rw [unstableWindowMs]; omega)) le_rfl⟩ }
  · exact
      { payload := hlast hreports.payload hpayload
        enough := hlast hreports.enough henough
        counted := hlast hreports.counted h.ended
        apart := by
          refine List.pairwise_append.mpr ⟨hreports.apart, List.pairwise_singleton _ _, ?_⟩
          rintro a ha b hb
          rw [List.mem_singleton.mp hb]
          exact ⟨hapart a ha, h.since a ha⟩ }

/-- What a part of a poll may do about the short drops: report those held, or some fewer. -/
def ReportsHeld (t t' : WifiDropTracker) (drops : List (LinkOutage × ℤ))
    (reports : List UnstableReport) (ms : ℤ) : Prop :=
  ∃ new held', HeldDrops t' drops (reports ++ new) held' ms ∧ ReportsApart (reports ++ new) ∧
    t'.pending = t.pending ++ new.map UnstableReport.event ∧ (∀ r ∈ new, r.ms = ms) ∧
    new.length ≤ 1 ∧ (new ≠ [] → t'.quietUntilMs ≠ 0)

lemma ReportsHeld.none (h : HeldDrops t' drops reports held ms) (hreports : ReportsApart reports)
    (hpending : t'.pending = t.pending) : ReportsHeld t t' drops reports ms :=
  ⟨[], held, by rwa [List.append_nil], by rwa [List.append_nil],
    by rw [hpending, List.map_nil, List.append_nil], nofun, Nat.zero_le _, fun h => absurd rfl h⟩

/-- The quiet window ends. -/
lemma HeldDrops.endQuiet (h : HeldDrops t drops reports held ms) (hreports : ReportsApart reports)
    (hset : ms + unstableWindowMs ≠ 0) (hroom : t.pending.length < maxPending) :
    ReportsHeld t (t.endQuiet ms) drops reports ms := by
  rw [WifiDropTracker.endQuiet]
  split
  case isFalse => exact .none h hreports rfl
  case isTrue hends =>
    obtain ⟨hshort, hcount, hapart⟩ := h.quiet hends.1
    have hbefore : ∀ r ∈ reports, r.ms + unstableWindowMs ≤ ms := fun r hr =>
      (hapart r hr).trans hends.2
    dsimp only
    split
    case isTrue henough =>
      have hall := @HeldDrops.report t { t.reportUnstable ms t.quietDrops with quietDrops := 0 }
        _ _ _ _ h hreports _ hcount (hcount ▸ henough) hbefore hset hshort rfl rfl
      refine ⟨[⟨ms, t.quietDrops, held⟩], [], hall.1, hall.2, ?_, by simp, le_rfl, fun _ => hset⟩
      show (t.push .unstable t.quietDrops).pending = _
      rw [push_room _ _ _ hroom]
      rfl
    case isFalse =>
      have hkept : HeldDrops { t with quietUntilMs := 0, quietDrops := 0 } drops reports [] ms :=
        { sublist := by
            rw [List.append_nil]
            exact (List.sublist_append_left _ _).trans h.sublist
          since := by simp
          ended := by simp
          reported := h.reported
          few := h.few
          waiting := fun _ => ⟨rfl, hshort, hbefore⟩
          quiet := fun hne => absurd rfl hne }
      exact .none hkept hreports rfl

/-- Short drops that left the window are forgotten. -/
lemma HeldDrops.prune (h : HeldDrops t drops reports held ms) :
    ∃ held', HeldDrops (t.prune ms) drops reports held' ms := by
  by_cases hwaiting : t.quietUntilMs = 0
  · obtain ⟨hcount, hshort, hapart⟩ := h.waiting hwaiting
    have hsub := List.filter_sublist (l := held) (p := fun d => decide (ms - d.2 < unstableWindowMs))
    refine ⟨held.filter fun d => ms - d.2 < unstableWindowMs, ?_⟩
    exact
      { sublist := ((List.Sublist.refl _).append hsub).trans h.sublist
        since := fun r hr d hd => h.since r hr d (hsub.subset hd)
        ended := fun d hd => h.ended d (hsub.subset hd)
        reported := h.reported
        few := (List.length_filter_le _ _).trans h.few
        waiting := fun _ => ⟨hcount, by
          rw [WifiDropTracker.prune]
          dsimp only
          rw [hshort, List.filter_map]
          rfl, hapart⟩
        quiet := fun hne => absurd hwaiting hne }
  · obtain ⟨hshort, hcount, hapart⟩ := h.quiet hwaiting
    have hnone : (t.prune ms).shortMs = [] := by
      rw [WifiDropTracker.prune, hshort]
      rfl
    refine ⟨held, { h with
      few := by rw [hnone]; exact Nat.zero_le _
      waiting := fun hzero => absurd hzero hwaiting
      quiet := fun _ => ⟨hnone, hcount, hapart⟩ }⟩

/-- Enough short drops fell in the window. -/
lemma HeldDrops.reportShort (h : HeldDrops t drops reports held ms) (hreports : ReportsApart reports)
    (hset : ms + unstableWindowMs ≠ 0)
    (hroom : t.quietUntilMs = 0 → t.pending.length < maxPending) :
    ReportsHeld t (t.reportShort ms) drops reports ms := by
  rw [WifiDropTracker.reportShort]
  split
  case isFalse => exact .none h hreports rfl
  case isTrue hdue =>
    obtain ⟨hcount, hshort, hapart⟩ := h.waiting hdue.1
    have hlength : t.shortMs.length = held.length := by rw [hshort, List.length_map]
    have hpayload : (UInt32.ofNat t.shortMs.length).toNat = held.length := by
      have hfew := h.few
      rw [unstableCount] at hfew
      rw [UInt32.toNat_ofNat', Nat.mod_eq_of_lt (by omega), hlength]
    have hall := @HeldDrops.report t
      { t.reportUnstable ms (UInt32.ofNat t.shortMs.length) with shortMs := [] } _ _ _ _ h hreports
      _ hpayload (hlength ▸ hdue.2) hapart hset rfl hcount rfl
    refine ⟨[⟨ms, UInt32.ofNat t.shortMs.length, held⟩], [], hall.1, hall.2, ?_, by simp, le_rfl,
      fun _ => hset⟩
    show (t.push .unstable _).pending = _
    rw [push_room _ _ _ (hroom hdue.1)]
    rfl

/-- All that a poll does about the short drops. -/
lemma HeldDrops.polled (h : HeldDrops t drops reports held ms) (hreports : ReportsApart reports)
    (hset : ms + unstableWindowMs ≠ 0) (hroom : t.pending.length < maxPending) :
    ReportsHeld t (((t.endQuiet ms).prune ms).reportShort ms) drops reports ms := by
  obtain ⟨new, held₁, hheld₁, hreports₁, hpending₁, htimes₁, hone₁, hquiet₁⟩ :=
    h.endQuiet hreports hset hroom
  obtain ⟨held₂, hheld₂⟩ := hheld₁.prune
  have hroom₂ : ((t.endQuiet ms).prune ms).quietUntilMs = 0 →
      ((t.endQuiet ms).prune ms).pending.length < maxPending := by
    intro hzero
    obtain rfl : new = [] := by
      by_contra hne
      exact hquiet₁ hne hzero
    show (t.endQuiet ms).pending.length < maxPending
    rwa [hpending₁, List.map_nil, List.append_nil]
  obtain ⟨new', held₃, hheld₃, hreports₃, hpending₃, htimes₃, hone₃, hquiet₃⟩ :=
    hheld₂.reportShort hreports₁ hset hroom₂
  by_cases hnew : new = []
  · subst hnew
    rw [List.append_nil] at hheld₃ hreports₃
    refine ⟨new', held₃, hheld₃, hreports₃, ?_, htimes₃, hone₃, hquiet₃⟩
    rw [hpending₃]
    show (t.endQuiet ms).pending ++ _ = _
    rw [hpending₁, List.map_nil, List.append_nil]
  · -- The quiet window has just begun again: nothing more is reported.
    have hskip : ((t.endQuiet ms).prune ms).reportShort ms = (t.endQuiet ms).prune ms := by
      rw [WifiDropTracker.reportShort, if_neg fun hdue => hquiet₁ hnew hdue.1]
    rw [hskip]
    exact ⟨new, held₂, hheld₂, hreports₁, hpending₁, htimes₁, hone₁, hquiet₁⟩

end Held

/-! ### Every sequence of calls -/

/-- The tracker and the events that its polls have given, with the times of the polls. -/
structure DropRun where
  tracker : WifiDropTracker := {}
  out : List (ℤ × WifiDropEvent) := []

def DropRun.step (s : DropRun) : DropCall → DropRun
  | .down ms reason isLocal => { s with tracker := s.tracker.onDown ms reason isLocal }
  | .up ms => { s with tracker := s.tracker.onUp ms }
  | .poll ms maxOut =>
      { tracker := (s.tracker.poll ms maxOut).1
        out := s.out ++ (s.tracker.poll ms maxOut).2.map (ms, ·) }

def dropRun (calls : List DropCall) : DropRun := calls.foldl DropRun.step {}

/-- The events of lost and restored links. -/
def linkEvents (events : List WifiDropEvent) : List WifiDropEvent :=
  events.filter (·.action ≠ .unstable)

/-- What a run has left of the outages and of the short drops. -/
structure DropsTrack (s : DropRun) (h : LinkHistory) (reports : List UnstableReport) (nowMs : ℤ) :
    Prop where
  link : LinkTracks s.tracker h nowMs
  sent : linkEvents (s.out.map (·.2) ++ s.tracker.pending) = h.events
  unstable : s.out.filter (·.2.action = .unstable) = reports.map fun r => (r.ms, r.event)
  waiting : ∀ e ∈ s.tracker.pending, e.action ≠ .unstable
  room : s.tracker.pending.length ≤ 2
  held : ∃ held, HeldDrops s.tracker h.shortDrops reports held nowMs
  reports : ReportsApart reports

section Runs

variable {t : WifiDropTracker} {s : DropRun} {h : LinkHistory} {reports : List UnstableReport}
  {nowMs ms : ℤ}

lemma quietPart_onDown (t : WifiDropTracker) (ms : ℤ) (reason : UInt16) (isLocal : Bool) :
    (t.onDown ms reason isLocal).quietPart = t.quietPart ∧
      (t.onDown ms reason isLocal).pending = t.pending := by
  rw [WifiDropTracker.onDown]
  split
  · exact ⟨rfl, rfl⟩
  · cases isLocal <;> exact ⟨rfl, rfl⟩

/-- Only the end of a short drop touches what is held about them. -/
lemma quietPart_onUp (hpending : t.pending = [])
    (hnot : t.down = false ∨ t.downLocal = true ∨ t.lostLogged = true ∨ longMs ≤ ms - t.downSinceMs) :
    (t.onUp ms).quietPart = t.quietPart := by
  rw [WifiDropTracker.onUp]
  dsimp only
  split
  · rfl
  case isFalse hdown =>
    split
    · rfl
    case isFalse hlocal =>
      have hlong : t.lostLogged = true ∨ longMs ≤ ms - t.downSinceMs := by
        rcases hnot with h | h | h
        · exact absurd h hdown
        · exact absurd h hlocal
        · exact h
      rw [if_pos hlong, WifiDropTracker.endLong_eq { t with everUp := true, down := false } _ hpending]
      split <;> rfl

/-- The end of an outage leaves at most a pair of events. -/
lemma pending_onUp (hpending : t.pending = []) :
    (t.onUp ms).pending.length ≤ 2 ∧ ∀ e ∈ (t.onUp ms).pending, e.action ≠ .unstable := by
  rw [WifiDropTracker.onUp]
  dsimp only
  split
  · simp [hpending]
  · split
    · simp [hpending]
    · split
      · rw [WifiDropTracker.endLong_eq { t with everUp := true, down := false } _ hpending]
        split <;> simp
      · rw [WifiDropTracker.endShort]
        dsimp only
        split <;> simp [hpending, WifiDropTracker.addShort]

lemma DropsTrack.mono (hs : DropsTrack s h reports nowMs) (hle : nowMs ≤ ms) :
    DropsTrack s h reports ms :=
  { hs with
    link := hs.link.mono hle
    held := hs.held.imp fun _ hheld => hheld.mono hle }

lemma DropsTrack.down (hs : DropsTrack s h reports ms) (reason : UInt16) (isLocal : Bool) :
    DropsTrack (s.step (.down ms reason isLocal)) (h.next (.down ms reason isLocal)) reports ms := by
  obtain ⟨hlink, hevents⟩ := hs.link.onDown ms reason isLocal
  obtain ⟨hquiet, hsame⟩ := quietPart_onDown s.tracker ms reason isLocal
  have hshort : (h.next (.down ms reason isLocal)).shortDrops = h.shortDrops := by
    rw [LinkHistory.next]
    split <;> rfl
  obtain ⟨held, hheld⟩ := hs.held
  exact
    { link := hlink
      sent := by
        rw [hevents, ← hs.sent]
        show linkEvents (s.out.map _ ++ (s.tracker.onDown ms reason isLocal).pending) = _
        rw [hsame]
      unstable := hs.unstable
      waiting := by
        show ∀ e ∈ (s.tracker.onDown ms reason isLocal).pending, _
        rw [hsame]
        exact hs.waiting
      room := by
        show (s.tracker.onDown ms reason isLocal).pending.length ≤ 2
        rw [hsame]
        exact hs.room
      held := ⟨held, hshort ▸ hheld.congr hquiet⟩
      reports := hs.reports }

/-- An outage ends: the tracker follows, with the events it left, and holds the drop if it was a
short one. -/
lemma DropsTrack.up_cases (hs : DropsTrack s h reports ms) (hpending : s.tracker.pending = []) :
    LinkTracks (s.tracker.onUp ms) (h.next (.up ms)) ms ∧
      (h.next (.up ms)).events = h.events ++ (s.tracker.onUp ms).pending ∧
      ∃ held, HeldDrops (s.tracker.onUp ms) (h.next (.up ms)).shortDrops reports held ms := by
  obtain ⟨held, hheld⟩ := hs.held
  cases hcurrent : h.current with
  | none =>
      obtain ⟨hlink, hevents⟩ := hs.link.onUp_none hpending hcurrent
      have hdown : s.tracker.down = false := by rw [hs.link.down, hcurrent]; rfl
      have hshort : (h.next (.up ms)).shortDrops = h.shortDrops := by
        simp [LinkHistory.next, hcurrent, LinkHistory.shortDrops]
      exact ⟨hlink, hevents, held, hshort ▸ hheld.congr (quietPart_onUp hpending (.inl hdown))⟩
  | some o =>
      obtain ⟨hsince, hcodeLocal, -, -⟩ := hs.link.current o hcurrent
      have hshorts : (h.next (.up ms)).shortDrops =
          h.shortDrops ++ [(o, ms)].filter ShortOutage := by
        rw [LinkHistory.next_up hcurrent, LinkHistory.shortDrops, List.filter_append]
        rfl
      rcases Bool.eq_false_or_eq_true o.isLocal with hlocal | hlocal
      · obtain ⟨hlink, hevents⟩ := hs.link.onUp_local hpending hcurrent hlocal
        have hnot : ¬ ShortOutage (o, ms) := fun hshort =>
          Bool.false_ne_true (hshort.1.symm.trans hlocal)
        refine ⟨hlink, hevents, held, ?_⟩
        rw [hshorts, List.filter_singleton, decide_eq_false hnot]
        simpa using hheld.congr (quietPart_onUp hpending (.inr (.inl (hcodeLocal.trans hlocal))))
      · rcases le_or_gt longMs (ms - o.sinceMs) with hdur | hdur
        · obtain ⟨hlink, hevents⟩ := hs.link.onUp_long hpending hcurrent ⟨hlocal, hdur⟩
          have hnot : ¬ ShortOutage (o, ms) := fun hshort => not_lt.mpr hdur hshort.2
          refine ⟨hlink, hevents, held, ?_⟩
          rw [hshorts, List.filter_singleton, decide_eq_false hnot]
          simpa using hheld.congr (quietPart_onUp hpending (.inr (.inr (.inr (hsince ▸ hdur)))))
        · have hshort : ShortOutage (o, ms) := ⟨hlocal, hdur⟩
          obtain ⟨hcode, hlink, hevents, hsame⟩ := hs.link.onUp_short hcurrent hshort
          refine ⟨hlink, by rw [hevents, hsame, hpending, List.append_nil], ?_⟩
          rw [hshorts, List.filter_singleton, decide_eq_true hshort, hcode]
          have hpart : ({ s.tracker with everUp := true, down := false } : WifiDropTracker).quietPart =
              s.tracker.quietPart := rfl
          exact (hheld.congr hpart).endShort rfl

lemma DropsTrack.up (hs : DropsTrack s h reports ms) (hpending : s.tracker.pending = []) :
    DropsTrack (s.step (.up ms)) (h.next (.up ms)) reports ms := by
  obtain ⟨hlink, hevents, hheld⟩ := hs.up_cases hpending
  obtain ⟨hroom, hwaiting⟩ := @pending_onUp s.tracker ms hpending
  exact
    { link := hlink
      sent := by
        have hsent := hs.sent
        rw [hpending, List.append_nil] at hsent
        have hkept : (s.tracker.onUp ms).pending.filter (·.action ≠ .unstable) =
            (s.tracker.onUp ms).pending := List.filter_eq_self.mpr (by simpa using hwaiting)
        show linkEvents (s.out.map _ ++ (s.tracker.onUp ms).pending) = _
        rw [hevents, ← hsent, linkEvents, List.filter_append, hkept]
        rfl
      unstable := hs.unstable
      waiting := hwaiting
      room := hroom
      held := hheld
      reports := hs.reports }

/-- A poll that takes the whole queue. -/
lemma DropsTrack.poll (hs : DropsTrack s h reports ms) (hset : ms + unstableWindowMs ≠ 0)
    {maxOut : ℕ} (hdrains : maxPending ≤ maxOut) :
    (s.step (.poll ms maxOut)).tracker.pending = [] ∧
      ∃ reports', DropsTrack (s.step (.poll ms maxOut)) (h.next (.poll ms maxOut)) reports' ms := by
  obtain ⟨held, hheld⟩ := hs.held
  obtain ⟨hlink, lost, hlost, hone, haction, hevents⟩ := hs.link.logLost hs.room maxOut
  have hroom : (s.tracker.logLost ms).pending.length < maxPending := by
    have hroom := hs.room
    rw [hlost, List.length_append, maxPending]
    omega
  obtain ⟨new, held', hheld', hreports, hpending, htimes, honeNew, -⟩ :=
    (hheld.congr (quietPart_logLost s.tracker ms)).polled hs.reports hset hroom
  have hdue : (s.tracker.due ms).pending = s.tracker.pending ++ lost ++ new.map UnstableReport.event := by
    rw [← hlost]
    exact hpending
  have hall : (s.tracker.due ms).pending.length ≤ maxOut := by
    have hroom := hs.room
    rw [hdue, List.length_append, List.length_append, List.length_map]
    rw [maxPending] at hdrains
    omega
  have hshort : (h.next (.poll ms maxOut)).shortDrops = h.shortDrops := rfl
  have hstep : s.step (.poll ms maxOut) =
      { tracker := { s.tracker.due ms with pending := [] }
        out := s.out ++ (s.tracker.due ms).pending.map (ms, ·) } := by
    rw [DropRun.step, WifiDropTracker.poll_eq hall]
  have hlostKept : lost.filter (·.action ≠ .unstable) = lost :=
    List.filter_eq_self.mpr fun e he => by simp [haction e he]
  have hnewDropped : (new.map UnstableReport.event).filter (·.action ≠ .unstable) = [] := by
    simp [List.filter_eq_nil_iff, UnstableReport.event]
  have htagged : (new.map UnstableReport.event).map (ms, ·) = new.map fun r => (r.ms, r.event) := by
    rw [List.map_map]
    exact List.map_congr_left fun r hr => by rw [Function.comp_apply, htimes r hr]
  rw [hstep]
  refine ⟨rfl, reports ++ new, ?_⟩
  exact
    { link := hlink.congr (linkPart_due s.tracker ms)
      sent := by
        have hsent := hs.sent
        rw [linkEvents, List.filter_append] at hsent
        rw [hevents, ← hsent, List.append_nil, linkEvents, List.map_append, List.map_map, hdue]
        simp only [Function.comp_def, List.map_id', List.filter_append, hlostKept, hnewDropped]
        rw [List.append_nil, List.append_assoc]
      unstable := by
        have hnone : ∀ events : List WifiDropEvent, (∀ e ∈ events, e.action ≠ .unstable) →
            (events.map (ms, ·)).filter (·.2.action = .unstable) = [] := by
          intro events hevents
          rw [List.filter_eq_nil_iff]
          rintro ⟨at', e⟩ he
          obtain ⟨e', he', heq⟩ := List.mem_map.mp he
          obtain ⟨-, rfl⟩ := Prod.mk.inj heq
          simpa using hevents e' he'
        have hkept : (new.map fun r => (r.ms, r.event)).filter (·.2.action = .unstable) =
            new.map fun r => (r.ms, r.event) := List.filter_eq_self.mpr (by
          simp [UnstableReport.event])
        rw [List.filter_append, hs.unstable, hdue, List.map_append, List.map_append, List.map_append,
          List.filter_append, List.filter_append, hnone _ hs.waiting,
          hnone lost (fun e he => by simp [haction e he]), htagged, hkept]
        rfl
      waiting := nofun
      room := Nat.zero_le _
      held := ⟨held', hshort ▸ hheld'.congr rfl⟩
      reports := hreports }

/-- Each event of the link is followed by a poll, and each poll takes the whole queue. -/
structure PolledAfterEach (calls : List DropCall) : Prop where
  follows : calls.IsChain fun a b => a.isPoll = true ∨ b.isPoll = true
  drains : ∀ ms maxOut, .poll ms maxOut ∈ calls → maxPending ≤ maxOut

lemma PolledAfterEach.left {calls : List DropCall} {c : DropCall}
    (hpolled : PolledAfterEach (calls ++ [c])) : PolledAfterEach calls where
  follows := hpolled.follows.left_of_append
  drains := fun ms maxOut hmem => hpolled.drains ms maxOut (List.mem_append_left _ hmem)

/-- Every sequence of calls keeps track of the drops, up to any time after it. -/
lemma dropsTrack_of_calls (calls : List DropCall) (hclock : calls.Pairwise (·.ms ≤ ·.ms))
    (hpolled : PolledAfterEach calls) (hset : ∀ c ∈ calls, c.ms + unstableWindowMs ≠ 0) (nowMs : ℤ)
    (hnow : ∀ c ∈ calls, c.ms ≤ nowMs) :
    (∃ reports, DropsTrack (dropRun calls) (linkHistory calls) reports nowMs) ∧
      ((∀ c ∈ calls.getLast?, c.isPoll = true) →
        (dropRun calls).tracker.pending = []) := by
  induction calls using List.reverseRecOn generalizing nowMs with
  | nil =>
      exact ⟨⟨[], linkTracks_fresh, rfl, rfl, nofun, Nat.zero_le _, ⟨[], heldDrops_fresh⟩,
        ⟨nofun, nofun, nofun, List.Pairwise.nil⟩⟩, fun _ => rfl⟩
  | append_singleton calls c ih =>
      have hlast : c ∈ calls ++ [c] := List.mem_append_right _ (List.mem_singleton_self c)
      have hbefore : ∀ c' ∈ calls, c'.ms ≤ c.ms := fun c' hc' =>
        (List.pairwise_append.mp hclock).2.2 c' hc' c (List.mem_singleton_self c)
      obtain ⟨⟨reports, hs⟩, hempty⟩ := ih (List.pairwise_append.mp hclock).1 hpolled.left
        (fun c' hc' => hset c' (List.mem_append_left _ hc')) c.ms hbefore
      have hrun : dropRun (calls ++ [c]) = (dropRun calls).step c := by
        rw [dropRun, List.foldl_append]
        rfl
      have hhistory : linkHistory (calls ++ [c]) = (linkHistory calls).next c := by
        rw [linkHistory, List.foldl_append]
        rfl
      have hpending : c.isPoll = false → (dropRun calls).tracker.pending = [] := by
        intro hevent
        refine hempty fun a ha => ?_
        rcases (List.isChain_append.mp hpolled.follows).2.2 a ha c rfl with h | h
        · exact h
        · exact absurd (hevent.symm.trans h) Bool.false_ne_true
      rw [hrun, hhistory, List.getLast?_concat]
      cases c with
      | down ms reason isLocal =>
          exact ⟨⟨reports, (hs.down reason isLocal).mono (hnow _ hlast)⟩,
            fun hpoll => absurd (hpoll _ rfl) Bool.false_ne_true⟩
      | up ms =>
          exact ⟨⟨reports, (hs.up (hpending rfl)).mono (hnow _ hlast)⟩,
            fun hpoll => absurd (hpoll _ rfl) Bool.false_ne_true⟩
      | poll ms maxOut =>
          obtain ⟨hdrained, reports', hs'⟩ := hs.poll (hset _ hlast) (hpolled.drains ms maxOut hlast)
          exact ⟨⟨reports', hs'.mono (hnow _ hlast)⟩, fun _ => hdrained⟩

/-- Lost and restored links take turns. -/
lemma LinkHistory.events_alternate (h : LinkHistory) :
    AlternatesFrom .lost .restored (h.events.map (·.action)) := by
  have hpairs : ∀ ended : List (LinkOutage × ℤ),
      AlternatesFrom .lost .restored
        ((ended.flatMap LinkHistory.eventsOf ++ h.currentEvents).map (·.action)) := by
    intro ended
    induction ended with
    | nil =>
        rw [LinkHistory.currentEvents]
        cases h.long <;> cases h.current <;> simp [AlternatesFrom]
    | cons o ended ih =>
        rw [List.flatMap_cons, LinkHistory.eventsOf]
        split
        · exact ih.pair
        · exact ih
  exact hpairs h.ended

end Runs

/-- **Drops are accounted for.** With a clock that never goes back, each outage that was no wish of
the controller is counted once; each long one leaves its pair of events, in turn, and no other does;
and each UNSTABLE report counts enough short drops that no report before it did, a window after it.
-/
theorem drops_accounted (calls : List DropCall) (hclock : calls.Pairwise (·.ms ≤ ·.ms))
    (hpolled : PolledAfterEach calls) (hset : ∀ c ∈ calls, c.ms + unstableWindowMs ≠ 0) :
    ((dropRun calls).tracker.stats.drops =
      (dropRun calls).tracker.stats.shortDrops + (dropRun calls).tracker.stats.longDrops +
        if (linkHistory calls).uncounted then 1 else 0) ∧
    linkEvents ((dropRun calls).out.map (·.2) ++ (dropRun calls).tracker.pending) =
      (linkHistory calls).events ∧
    ((∀ c ∈ calls.getLast?, c.isPoll = true) → (dropRun calls).tracker.pending = []) ∧
    AlternatesFrom .lost .restored
      ((linkEvents ((dropRun calls).out.map (·.2))).map (·.action)) ∧
    ∃ reports, (dropRun calls).out.filter (·.2.action = .unstable) =
        reports.map (fun r => (r.ms, r.event)) ∧ ReportsApart reports ∧
      (reports.flatMap (·.counted)).Sublist (linkHistory calls).shortDrops := by
  obtain ⟨nowMs, hnow⟩ : ∃ nowMs, ∀ c ∈ calls, c.ms ≤ nowMs := by
    rcases List.eq_nil_or_concat calls with rfl | ⟨before, last, rfl⟩
    · exact ⟨0, nofun⟩
    · refine ⟨last.ms, fun c hc => ?_⟩
      rw [List.concat_eq_append] at hc hclock
      rcases List.mem_append.mp hc with hold | hlast
      · exact (List.pairwise_append.mp hclock).2.2 c hold last (List.mem_singleton_self last)
      · rw [List.mem_singleton.mp hlast]
  obtain ⟨⟨reports, hs⟩, hdrained⟩ := dropsTrack_of_calls calls hclock hpolled hset nowMs hnow
  obtain ⟨held, hheld⟩ := hs.held
  refine ⟨?_, hs.sent, hdrained, ?_, reports, hs.unstable, hs.reports,
    (List.sublist_append_left _ _).trans hheld.sublist⟩
  · rw [hs.link.drops]
    cases (linkHistory calls).uncounted <;> rfl
  · have hall := (linkHistory calls).events_alternate
    rw [← hs.sent, linkEvents, List.filter_append, List.map_append] at hall
    exact hall.of_append

/-- An outage of two minutes and three short drops. -/
def dropsThenOutage : List DropCall :=
  [.up 0, .poll 0 4, .down 1000 200 false, .poll 61000 4, .up 121000, .poll 121000 4,
    .down 130000 200 false, .poll 130000 4, .up 131000, .poll 131000 4,
    .down 140000 200 false, .poll 140000 4, .up 141000, .poll 141000 4,
    .down 150000 200 false, .poll 150000 4, .up 151000, .poll 151000 4]

theorem drops_accounted_outage :
    (dropRun dropsThenOutage).out =
      [(61000, ⟨.lost, 200⟩), (121000, ⟨.restored, 120⟩), (151000, ⟨.unstable, 3⟩)] ∧
    linkEvents ((dropRun dropsThenOutage).out.map (·.2) ++ (dropRun dropsThenOutage).tracker.pending) =
      (linkHistory dropsThenOutage).events := by
  have hclock : dropsThenOutage.Pairwise (·.ms ≤ ·.ms) := by decide
  have hpolled : PolledAfterEach dropsThenOutage := by
    refine ⟨by decide, fun ms maxOut hmem => ?_⟩
    simp only [dropsThenOutage, List.mem_cons, DropCall.poll.injEq, reduceCtorEq, false_or,
      List.not_mem_nil, or_false] at hmem
    rw [maxPending]
    omega
  have hset : ∀ c ∈ dropsThenOutage, c.ms + unstableWindowMs ≠ 0 := by decide
  obtain ⟨-, hevents, -⟩ := drops_accounted dropsThenOutage hclock hpolled hset
  exact ⟨by decide +kernel, hevents⟩

/-- A quiet window that would end at `0` is taken for none, and two reports fall together. -/
theorem unstable_at_sentinel :
    ¬ ∀ calls : List DropCall, calls.Pairwise (·.ms ≤ ·.ms) → PolledAfterEach calls →
      ((dropRun calls).out.filter (·.2.action = .unstable)).Pairwise
        fun a b => a.1 + unstableWindowMs ≤ b.1 := by
  intro h
  let ms := -unstableWindowMs
  let drop : List DropCall := [.down ms 200 false, .poll ms 4, .up ms, .poll ms 4]
  have hfails := h ([.up ms, .poll ms 4] ++ (List.replicate 6 drop).flatten) (by decide)
    ⟨by decide, by simp [drop, maxPending]⟩
  exact absurd hfails (by decide +kernel)

end ArcticController

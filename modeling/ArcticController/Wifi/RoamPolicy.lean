/-
When the controller looks for a better access point, `wifi_roam_policy.h`.

* `WifiRoamPolicy`, `sample`, `pick`, `onRoam`: the policy, translated from the source;
* `RoamCall`, `RoamRun`: calls on one policy, a request being followed by a pick and a
  target by a roam;
* `connection`, `upTimes`: the calls since the link was last seen down, and when it was
  seen up or roamed in them;
* `RoamHistory`: what the times of the policy say about the calls; it holds in every run;
* `wifi_roam_requests`: when a sample asks for a scan, and which access point is picked.
-/
import Mathlib.Data.List.DropRight
import Mathlib.Tactic

namespace ArcticController

/-! ### The policy -/

/-- An access point that was found. -/
structure WifiRoamCandidate where
  bssid : Fin 6 → UInt8
  rssi : Int8
  channel : UInt8
deriving DecidableEq

/-- The times and the flag of the policy; −1 is no time. -/
structure WifiRoamPolicy where
  connectedSince : ℤ := -1
  weakSince : ℤ := -1
  lastScan : ℤ := -1
  connectChecked : Bool := false
deriving DecidableEq, Repr

namespace WifiRoamPolicy

def weakRssi : ℤ := -70

def goodRssi : ℤ := -60

def weakForMs : ℤ := 60000

def settleMs : ℤ := 120000

def rescanMs : ℤ := 900000

def minGainDb : ℤ := 10

/-- The signal is known and weak. -/
def Weak (rssi : ℤ) : Prop := rssi ≠ 0 ∧ rssi ≤ weakRssi

instance (rssi : ℤ) : Decidable (Weak rssi) := inferInstanceAs (Decidable (_ ∧ _))

/-- The weak timer starts at the first weak sample and ends at one that is not. -/
def trackWeak (p : WifiRoamPolicy) (now rssi : ℤ) : WifiRoamPolicy :=
  if rssi = 0 ∨ rssi > weakRssi then { p with weakSince := -1 }
  else if p.weakSince < 0 then { p with weakSince := now }
  else p

/-- `sample`: whether a scan should run now. -/
def sample (p : WifiRoamPolicy) (now : ℤ) (connected : Bool) (rssi : ℤ) : WifiRoamPolicy × Bool :=
  if !connected then
    ({ p with connectedSince := -1, weakSince := -1, connectChecked := false }, false)
  else
    let p := if p.connectedSince < 0 then { p with connectedSince := now } else p
    if now - p.connectedSince < settleMs then (p.trackWeak now rssi, false)
    else if !p.connectChecked ∧ rssi ≠ 0 ∧ rssi ≤ goodRssi then
      ({ p with connectChecked := true }, true)
    else
      let p := { p with connectChecked := true }
      if rssi = 0 ∨ rssi > weakRssi then ({ p with weakSince := -1 }, false)
      else
        let p := if p.weakSince < 0 then { p with weakSince := now } else p
        if now - p.weakSince < weakForMs then (p, false)
        else if p.lastScan ≥ 0 ∧ now - p.lastScan < rescanMs then (p, false)
        else (p, true)

/-- `best < 0 || c[i].rssi > c[best].rssi`. -/
def stronger (best : Option (WifiRoamCandidate × ℕ)) (c : WifiRoamCandidate × ℕ) : Bool :=
  match best with
  | none => true
  | some b => b.1.rssi.toInt < c.1.rssi.toInt

/-- The loop of `pick` over the candidates and their indices; `best` is the one found. -/
def pickLoop (current : Fin 6 → UInt8) (currentRssi : ℤ) (anyTarget : Bool) :
    List (WifiRoamCandidate × ℕ) → Option (WifiRoamCandidate × ℕ) →
      Option (WifiRoamCandidate × ℕ)
  | [], best => best
  | c :: rest, best =>
      if c.1.bssid = current then pickLoop current currentRssi anyTarget rest best
      else if !anyTarget ∧ c.1.rssi.toInt < currentRssi + minGainDb then
        pickLoop current currentRssi anyTarget rest best
      else
        pickLoop current currentRssi anyTarget rest (if stronger best c then some c else best)

/-- `pick`: the index of the access point to roam to, or −1. -/
def pick (p : WifiRoamPolicy) (now : ℤ) (current : Fin 6 → UInt8) (currentRssi : ℤ)
    (candidates : List WifiRoamCandidate) (anyTarget : Bool) : WifiRoamPolicy × ℤ :=
  ({ p with lastScan := now },
    match pickLoop current currentRssi anyTarget candidates.zipIdx none with
    | some best => (best.2 : ℤ)
    | none => -1)

/-- `on_roam`. -/
def onRoam (_p : WifiRoamPolicy) (now : ℤ) : WifiRoamPolicy where
  connectedSince := now
  weakSince := -1
  lastScan := now
  connectChecked := true

/-! ### One sample -/

section Sample

variable (p : WifiRoamPolicy) (now rssi : ℤ)

/-- Since when the link counts as up at a sample that sees it up. -/
def upSince : ℤ := if p.connectedSince < 0 then now else p.connectedSince

/-- The weak timer after a sample that sees the link up. -/
def weakAfter : ℤ := if Weak rssi then (if p.weakSince < 0 then now else p.weakSince) else -1

lemma not_weak_iff : (rssi = 0 ∨ rssi > weakRssi) ↔ ¬ Weak rssi := by
  rw [Weak, not_and_or, not_not, not_le]

/-- A sample that sees the link down forgets it. -/
lemma sample_down : p.sample now false rssi =
    ({ connectedSince := -1, weakSince := -1, lastScan := p.lastScan, connectChecked := false },
      false) := rfl

lemma trackWeak_eq : p.trackWeak now rssi = { p with weakSince := p.weakAfter now rssi } := by
  rw [trackWeak, weakAfter]
  simp only [not_weak_iff]
  by_cases hweak : Weak rssi
  · rw [if_neg (not_not.mpr hweak), if_pos hweak]
    split <;> rfl
  · rw [if_pos hweak, if_neg hweak]

/-- A sample that sees the link up asks for nothing while the link settles; then it asks
once where the link was not checked and is not good, and where it has been weak for long
and was not scanned for lately. -/
lemma sample_up : p.sample now true rssi =
    if now - p.upSince now < settleMs then
      ({ p with connectedSince := p.upSince now, weakSince := p.weakAfter now rssi }, false)
    else if p.connectChecked = false ∧ rssi ≠ 0 ∧ rssi ≤ goodRssi then
      ({ p with connectedSince := p.upSince now, connectChecked := true }, true)
    else
      ({ p with
          connectedSince := p.upSince now
          weakSince := p.weakAfter now rssi
          connectChecked := true },
        decide (Weak rssi ∧ weakForMs ≤ now - p.weakAfter now rssi ∧
          (p.lastScan < 0 ∨ rescanMs ≤ now - p.lastScan))) := by
  have hsince : (if p.connectedSince < 0 then { p with connectedSince := now } else p)
      = { p with connectedSince := p.upSince now } := by
    rw [upSince]
    split <;> rfl
  rw [sample, Bool.not_true, if_neg Bool.false_ne_true, hsince]
  dsimp only
  by_cases hsettle : now - p.upSince now < settleMs
  · rw [if_pos hsettle, if_pos hsettle, trackWeak_eq]
    rfl
  rw [if_neg hsettle, if_neg hsettle]
  by_cases hcheck : (!p.connectChecked) = true ∧ rssi ≠ 0 ∧ rssi ≤ goodRssi
  · have hcheck' : p.connectChecked = false ∧ rssi ≠ 0 ∧ rssi ≤ goodRssi := by simpa using hcheck
    rw [if_pos hcheck, if_pos hcheck']
  have hcheck' : ¬ (p.connectChecked = false ∧ rssi ≠ 0 ∧ rssi ≤ goodRssi) := by
    simpa using hcheck
  rw [if_neg hcheck, if_neg hcheck']
  by_cases hweak : Weak rssi
  · rw [if_neg ((not_weak_iff rssi).not.mpr (not_not.mpr hweak))]
    have hafter : (if p.weakSince < 0 then
          { p with connectedSince := p.upSince now, weakSince := now, connectChecked := true }
        else { p with connectedSince := p.upSince now, connectChecked := true })
        = { p with
            connectedSince := p.upSince now
            weakSince := p.weakAfter now rssi
            connectChecked := true } := by
      rw [weakAfter, if_pos hweak]
      split <;> rfl
    rw [hafter]
    dsimp only
    by_cases hlong : now - p.weakAfter now rssi < weakForMs
    · rw [if_pos hlong, decide_eq_false fun h => not_le.mpr hlong h.2.1]
    rw [if_neg hlong]
    by_cases hscan : p.lastScan ≥ 0 ∧ now - p.lastScan < rescanMs
    · rw [if_pos hscan, decide_eq_false fun h => by omega]
    · rw [if_neg hscan, decide_eq_true ⟨hweak, not_lt.mp hlong, by omega⟩]
  · have hafter : p.weakAfter now rssi = -1 := if_neg hweak
    rw [if_pos ((not_weak_iff rssi).mpr hweak), hafter, decide_eq_false fun h => hweak h.1]

/-! ### Which access point -/

/-- An access point that is another one and clearly stronger. -/
def Eligible (current : Fin 6 → UInt8) (currentRssi : ℤ) (c : WifiRoamCandidate) : Prop :=
  c.bssid ≠ current ∧ currentRssi + minGainDb ≤ c.rssi.toInt

/-- The loop keeps the strongest of the access points it has seen. -/
lemma pickLoop_spec (current : Fin 6 → UInt8) (currentRssi : ℤ)
    (candidates : List (WifiRoamCandidate × ℕ)) (best : Option (WifiRoamCandidate × ℕ)) :
    (pickLoop current currentRssi false candidates best = none ↔
      best = none ∧ ∀ c ∈ candidates, ¬ Eligible current currentRssi c.1) ∧
    ∀ b, pickLoop current currentRssi false candidates best = some b →
      (best = some b ∨ (b ∈ candidates ∧ Eligible current currentRssi b.1)) ∧
      (∀ b', best = some b' → b'.1.rssi.toInt ≤ b.1.rssi.toInt) ∧
      ∀ c ∈ candidates, Eligible current currentRssi c.1 → c.1.rssi.toInt ≤ b.1.rssi.toInt := by
  induction candidates generalizing best with
  | nil =>
      rw [pickLoop]
      refine ⟨by simp, fun b hb => ⟨.inl hb, fun b' hb' => ?_, fun c hc => absurd hc
        List.not_mem_nil⟩⟩
      rw [hb, Option.some.injEq] at hb'
      rw [hb']
  | cons c candidates ih =>
      rw [pickLoop]
      by_cases helig : Eligible current currentRssi c.1
      · obtain ⟨hother, hgain⟩ := helig
        rw [if_neg hother, if_neg fun h => absurd hgain (not_le.mpr h.2)]
        have hnext : ∃ b, (if stronger best c then some c else best) = some b ∧
            (b = c ∨ best = some b) ∧ c.1.rssi.toInt ≤ b.1.rssi.toInt ∧
            ∀ b', best = some b' → b'.1.rssi.toInt ≤ b.1.rssi.toInt := by
          cases best with
          | none => exact ⟨c, rfl, .inl rfl, le_rfl, fun b' h => nomatch h⟩
          | some b' =>
              by_cases hlt : b'.1.rssi.toInt < c.1.rssi.toInt
              · rw [if_pos (by simpa [stronger] using hlt)]
                refine ⟨c, rfl, .inl rfl, le_rfl, fun b'' h => ?_⟩
                rw [← Option.some.inj h]
                exact hlt.le
              · rw [if_neg (by simpa [stronger] using hlt)]
                refine ⟨b', rfl, .inr rfl, not_lt.mp hlt, fun b'' h => ?_⟩
                rw [Option.some.inj h]
        obtain ⟨next, hnext, hfrom, hle, hbest⟩ := hnext
        obtain ⟨hnone, hsome⟩ := ih (some next)
        rw [hnext]
        refine ⟨⟨fun h => absurd (hnone.mp h).1 (Option.some_ne_none _), fun h =>
          absurd ⟨hother, hgain⟩ (h.2 c List.mem_cons_self)⟩, fun b hb => ?_⟩
        obtain ⟨hstands, hnextle, hall⟩ := hsome b hb
        have hcle := hle.trans (hnextle next rfl)
        refine ⟨?_, fun b' hb' => (hbest b' hb').trans (hnextle next rfl), fun c' hc' helig' => ?_⟩
        · rcases hstands with heq | ⟨hmem, helig⟩
          · rw [← Option.some.inj heq]
            rcases hfrom with rfl | hfrom
            · exact .inr ⟨List.mem_cons_self, hother, hgain⟩
            · exact .inl hfrom
          · exact .inr ⟨List.mem_cons_of_mem _ hmem, helig⟩
        · rcases List.mem_cons.mp hc' with rfl | hc'
          · exact hcle
          · exact hall c' hc' helig'
      · have hout : ∀ next, (if c.1.bssid = current then
              pickLoop current currentRssi false candidates best
            else if (!false) = true ∧ c.1.rssi.toInt < currentRssi + minGainDb then
              pickLoop current currentRssi false candidates best
            else pickLoop current currentRssi false candidates next)
            = pickLoop current currentRssi false candidates best := by
          intro next
          by_cases hsame : c.1.bssid = current
          · rw [if_pos hsame]
          · rw [if_neg hsame, if_pos ⟨rfl, not_le.mp fun h => helig ⟨hsame, h⟩⟩]
        obtain ⟨hnone, hsome⟩ := ih best
        rw [hout]
        refine ⟨hnone.trans ⟨fun h => ⟨h.1, fun c' hc' => ?_⟩, fun h =>
          ⟨h.1, fun c' hc' => h.2 c' (List.mem_cons_of_mem _ hc')⟩⟩, fun b hb => ?_⟩
        · rcases List.mem_cons.mp hc' with rfl | hc'
          · exact helig
          · exact h.2 c' hc'
        · obtain ⟨hstands, hbest, hall⟩ := hsome b hb
          refine ⟨hstands.imp_right fun h => ⟨List.mem_cons_of_mem _ h.1, h.2⟩, hbest,
            fun c' hc' helig' => ?_⟩
          rcases List.mem_cons.mp hc' with rfl | hc'
          · exact absurd helig' helig
          · exact hall c' hc' helig'

end Sample

/-- `pick` finds a strongest access point among those that are clearly stronger, or none
where there is none. -/
lemma pick_spec (p : WifiRoamPolicy) (now : ℤ) (current : Fin 6 → UInt8) (currentRssi : ℤ)
    (candidates : List WifiRoamCandidate) :
    ((p.pick now current currentRssi candidates false).2 = -1 ↔
      ∀ c ∈ candidates, ¬ Eligible current currentRssi c) ∧
    ((p.pick now current currentRssi candidates false).2 ≠ -1 → ∃ i c,
      (p.pick now current currentRssi candidates false).2 = (i : ℕ) ∧ candidates[i]? = some c ∧
      Eligible current currentRssi c ∧
      ∀ c' ∈ candidates, Eligible current currentRssi c' → c'.rssi.toInt ≤ c.rssi.toInt) := by
  obtain ⟨hnone, hsome⟩ := pickLoop_spec current currentRssi candidates.zipIdx none
  have hmem : ∀ c ∈ candidates, ∃ i, (c, i) ∈ candidates.zipIdx := by
    intro c hc
    obtain ⟨i, hi⟩ := List.mem_iff_getElem?.mp hc
    exact ⟨i, List.mk_mem_zipIdx_iff_getElem?.mpr hi⟩
  rw [pick]
  cases hpick : pickLoop current currentRssi false candidates.zipIdx none with
  | none =>
      refine ⟨⟨fun _ c hc => ?_, fun _ => rfl⟩, fun h => absurd rfl h⟩
      obtain ⟨i, hi⟩ := hmem c hc
      exact (hnone.mp hpick).2 (c, i) hi
  | some best =>
      obtain ⟨hstands, -, hall⟩ := hsome best hpick
      obtain ⟨hbest, helig⟩ := hstands.resolve_left (by simp)
      have hindex := List.mem_zipIdx_iff_getElem?.mp hbest
      refine ⟨⟨fun h => absurd h (by simp only; omega), fun h =>
        absurd helig (h best.1 (List.mem_of_getElem? hindex))⟩, fun _ =>
        ⟨best.2, best.1, rfl, hindex, helig, fun c' hc' helig' => ?_⟩⟩
      obtain ⟨i, hi⟩ := hmem c' hc'
      exact hall (c', i) hi helig'

end WifiRoamPolicy

/-! ### Calls on a policy -/

/-- A call on the policy. -/
inductive RoamCall
  | sample (now : ℤ) (connected : Bool) (rssi : ℤ)
  | pick (now : ℤ) (current : Fin 6 → UInt8) (currentRssi : ℤ)
      (candidates : List WifiRoamCandidate) (anyTarget : Bool)
  | onRoam (now : ℤ)

/-- The time of a call. -/
def RoamCall.time : RoamCall → ℤ
  | .sample now _ _ => now
  | .pick now _ _ _ _ => now
  | .onRoam now => now

/-- A sample that saw the link down. -/
def RoamCall.sawDown : RoamCall → Bool
  | .sample _ connected _ => !connected
  | _ => false

/-- A roam. -/
def RoamCall.isRoam : RoamCall → Bool
  | .onRoam _ => true
  | _ => false

/-- A pick or a roam. -/
def RoamCall.isScan : RoamCall → Bool
  | .sample _ _ _ => false
  | _ => true

/-- The time the link was seen up or roamed. -/
def RoamCall.upTime : RoamCall → Option ℤ
  | .sample now connected _ => if connected then some now else none
  | .pick _ _ _ _ _ => none
  | .onRoam now => some now

/-- The clock of a call: it does not run backwards and is not negative. -/
def ClockAt (calls : List RoamCall) (now : ℤ) : Prop := 0 ≤ now ∧ ∀ c ∈ calls, c.time ≤ now

/-- What has to be called next: the pick of a request, the roam to a target, or anything. -/
inductive RoamDue
  | nothing
  | pick
  | roam
deriving DecidableEq

open WifiRoamPolicy in
/-- The calls on a policy from its start: a sample that asks for a scan is followed by a pick,
and that by a roam if it found a target; other picks and roams may come at any time. -/
inductive RoamRun : WifiRoamPolicy → List RoamCall → RoamDue → Prop
  | start : RoamRun {} [] .nothing
  | sample {p calls now} (connected : Bool) (rssi : ℤ) (h : RoamRun p calls .nothing)
      (hclock : ClockAt calls now) :
      RoamRun (p.sample now connected rssi).1 (calls ++ [.sample now connected rssi])
        (if (p.sample now connected rssi).2 then .pick else .nothing)
  | pick {p calls due now} (current : Fin 6 → UInt8) (currentRssi : ℤ)
      (candidates : List WifiRoamCandidate) (anyTarget : Bool) (h : RoamRun p calls due)
      (hdue : due ≠ .roam) (hclock : ClockAt calls now) :
      RoamRun (p.pick now current currentRssi candidates anyTarget).1
        (calls ++ [.pick now current currentRssi candidates anyTarget])
        (if due = .pick ∧ 0 ≤ (p.pick now current currentRssi candidates anyTarget).2 then .roam
          else .nothing)
  | onRoam {p calls due now} (h : RoamRun p calls due) (hdue : due ≠ .pick)
      (hclock : ClockAt calls now) :
      RoamRun (p.onRoam now) (calls ++ [.onRoam now]) .nothing

/-- The calls since the link was last seen down. -/
def connection (calls : List RoamCall) : List RoamCall := calls.rtakeWhile fun c => !c.sawDown

/-- When the link was seen up or roamed in them. -/
def upTimes (calls : List RoamCall) : List ℤ := (connection calls).filterMap RoamCall.upTime

section Calls

variable {calls : List RoamCall} {c : RoamCall}

lemma connection_concat (hc : c.sawDown = false) :
    connection (calls ++ [c]) = connection calls ++ [c] := by
  rw [connection, List.rtakeWhile_concat_pos _ _ _ (by rw [hc]; rfl), connection]

lemma connection_down (hc : c.sawDown = true) : connection (calls ++ [c]) = [] := by
  rw [connection, List.rtakeWhile_concat_neg _ _ _ (by rw [hc]; exact Bool.false_ne_true)]

lemma upTimes_concat (hc : c.sawDown = false) :
    upTimes (calls ++ [c]) = upTimes calls ++ c.upTime.toList := by
  rw [upTimes, connection_concat hc, List.filterMap_append, upTimes]
  cases h : c.upTime with
  | none => simp [h]
  | some t => simp [h]

lemma mem_of_mem_connection (h : c ∈ connection calls) : c ∈ calls :=
  (List.rtakeWhile_suffix _ _).subset h

/-- The link was seen up in some call. -/
lemma le_of_mem_upTimes {now t : ℤ} (hclock : ClockAt calls now) (h : t ∈ upTimes calls) :
    t ≤ now := by
  obtain ⟨c, hc, ht⟩ := List.mem_filterMap.mp h
  refine (le_of_eq ?_).trans (hclock.2 c (mem_of_mem_connection hc))
  cases c with
  | sample now connected rssi =>
      rw [RoamCall.upTime] at ht
      split at ht
      · exact (Option.some.inj ht).symm
      · cases ht
  | pick => cases ht
  | onRoam now => exact (Option.some.inj ht).symm

end Calls

/-! ### What the times of the policy say -/

open WifiRoamPolicy

/-- The link counts as up since it was first seen up or last roamed; before the check of a
connection nothing in it is a roam or has settled; the last scan is the last pick or roam;
since the weak timer started every sample was weak, or was taken before the last scan, or
is the request that waits for its pick. -/
structure RoamHistory (p : WifiRoamPolicy) (calls : List RoamCall) (due : RoamDue) : Prop where
  down : p.connectedSince < 0 → upTimes calls = []
  up : 0 ≤ p.connectedSince → ∃ first, (upTimes calls).head? = some first ∧
    first ≤ p.connectedSince ∧
    ((∀ c ∈ connection calls, c.isRoam = false) → first = p.connectedSince)
  roams : 0 ≤ p.connectedSince → ∀ t, .onRoam t ∈ calls → t ≤ p.connectedSince
  unchecked : p.connectChecked = false → ∀ c ∈ connection calls,
    c.isRoam = false ∧ (c.upTime ≠ none → c.time - p.connectedSince < settleMs)
  scans : ∀ c ∈ calls, c.isScan = true → 0 ≤ p.lastScan ∧ c.time ≤ p.lastScan
  weak : 0 ≤ p.weakSince → ∀ t connected rssi, .sample t connected rssi ∈ calls →
    p.weakSince < t → (connected = true ∧ Weak rssi) ∨ t ≤ p.lastScan ∨
      (due = .pick ∧ ∀ c ∈ calls, c.time ≤ t)

namespace RoamHistory

variable {p : WifiRoamPolicy} {calls : List RoamCall} {due : RoamDue} {now rssi : ℤ}

lemma start : RoamHistory {} [] .nothing where
  down := fun _ => rfl
  up := fun h => absurd h (by decide)
  roams := fun h => absurd h (by decide)
  unchecked := fun _ c hc => absurd hc List.not_mem_nil
  scans := fun c hc => absurd hc List.not_mem_nil
  weak := fun h => absurd h (by decide)

/-- A sample that saw the link down. -/
lemma sample_down (h : RoamHistory p calls .nothing) (rssi : ℤ) :
    RoamHistory (p.sample now false rssi).1 (calls ++ [.sample now false rssi]) .nothing := by
  have hconnection : connection (calls ++ [.sample now false rssi]) = [] := connection_down rfl
  have hnone : ¬ (0 : ℤ) ≤ -1 := by decide
  rw [WifiRoamPolicy.sample_down]
  refine ⟨fun _ => ?_, fun h => absurd h hnone, fun h => absurd h hnone,
    fun _ c hc => ?_, fun c hc hscan => ?_, fun h => absurd h hnone⟩
  · rw [upTimes, hconnection, List.filterMap_nil]
  · rw [hconnection] at hc
    exact absurd hc List.not_mem_nil
  · rcases List.mem_append.mp hc with hc | hc
    · exact h.scans c hc hscan
    · rw [List.mem_singleton.mp hc] at hscan
      cases hscan

lemma upSince_nonneg (hclock : ClockAt calls now) : 0 ≤ p.upSince now := by
  rw [upSince]
  have := hclock.1
  split <;> omega

/-- The times of a sample that saw the link up, whatever it does to the weak timer. -/
lemma sample_up (h : RoamHistory p calls .nothing) (hclock : ClockAt calls now)
    (weakSince : ℤ) (checked : Bool) (due : RoamDue)
    (hchecked : checked = false → p.connectChecked = false ∧ now - p.upSince now < settleMs)
    (hweak : 0 ≤ weakSince →
      (p.weakSince = weakSince ∨ ∀ c ∈ calls, c.time ≤ weakSince) ∧ (Weak rssi ∨ due = .pick)) :
    RoamHistory
      { connectedSince := p.upSince now, weakSince, lastScan := p.lastScan,
        connectChecked := checked }
      (calls ++ [.sample now true rssi]) due := by
  have hnonneg := upSince_nonneg (p := p) hclock
  have hconnection : connection (calls ++ [.sample now true rssi])
      = connection calls ++ [.sample now true rssi] := connection_concat rfl
  have hup : upTimes (calls ++ [.sample now true rssi]) = upTimes calls ++ [now] :=
    upTimes_concat rfl
  refine ⟨fun hneg => absurd hnonneg (not_le.mpr hneg), fun _ => ?_, fun _ t ht => ?_,
    fun hfalse c hc => ?_, fun c hc hscan => ?_, fun hpos t connected rssi' ht hlt => ?_⟩
  · rw [hup, hconnection]
    by_cases hdown : p.connectedSince < 0
    · rw [h.down hdown, upSince, if_pos hdown]
      exact ⟨now, rfl, le_rfl, fun _ => rfl⟩
    · obtain ⟨first, hfirst, hle, heq⟩ := h.up (not_lt.mp hdown)
      rw [List.head?_append, hfirst, upSince, if_neg hdown]
      exact ⟨first, rfl, hle, fun hall => heq fun c hc => hall c (List.mem_append_left _ hc)⟩
  · have ht' : .onRoam t ∈ calls := by simpa using ht
    change t ≤ p.upSince now
    rw [upSince]
    split
    · exact hclock.2 _ ht'
    · next hdown => exact h.roams (not_lt.mp hdown) t ht'
  · obtain ⟨hunchecked, hsettle⟩ := hchecked hfalse
    rw [hconnection, List.mem_append, List.mem_singleton] at hc
    rcases hc with hc | rfl
    · obtain ⟨hroam, htime⟩ := h.unchecked hunchecked c hc
      refine ⟨hroam, fun hseen => ?_⟩
      change c.time - p.upSince now < settleMs
      rw [upSince]
      split
      · next hdown =>
          obtain ⟨t, ht⟩ := Option.ne_none_iff_exists'.mp hseen
          have hmem : t ∈ upTimes calls := List.mem_filterMap.mpr ⟨c, hc, ht⟩
          rw [h.down hdown] at hmem
          exact absurd hmem List.not_mem_nil
      · exact htime hseen
    · exact ⟨rfl, fun _ => hsettle⟩
  · rcases List.mem_append.mp hc with hc | hc
    · exact h.scans c hc hscan
    · rw [List.mem_singleton.mp hc] at hscan
      cases hscan
  · obtain ⟨hsince, hcurrent⟩ := hweak hpos
    rcases List.mem_append.mp ht with ht | ht
    · rcases hsince with hsame | hlate
      · change weakSince < t at hlt
        rw [← hsame] at hpos hlt
        rcases h.weak hpos t connected rssi' ht hlt with hw | hscan | ⟨hdue, -⟩
        · exact .inl hw
        · exact .inr (.inl hscan)
        · cases hdue
      · exact absurd (hlate _ ht) (not_le.mpr hlt)
    · cases List.mem_singleton.mp ht
      rcases hcurrent with hw | hdue
      · exact .inl ⟨rfl, hw⟩
      · refine .inr (.inr ⟨hdue, fun c hc => ?_⟩)
        rcases List.mem_append.mp hc with hc | hc
        · exact hclock.2 c hc
        · rw [List.mem_singleton.mp hc]
          rfl

/-- The weak timer runs since a sample that is not older than the timer says. -/
lemma weakAfter_spec (hclock : ClockAt calls now) (hpos : 0 ≤ p.weakAfter now rssi) :
    (p.weakSince = p.weakAfter now rssi ∨ ∀ c ∈ calls, c.time ≤ p.weakAfter now rssi) ∧
      Weak rssi := by
  rw [weakAfter] at hpos ⊢
  by_cases hweak : Weak rssi
  · rw [if_pos hweak] at hpos ⊢
    refine ⟨?_, hweak⟩
    split
    · exact .inr hclock.2
    · exact .inl rfl
  · rw [if_neg hweak] at hpos
    exact absurd hpos (by decide)

/-- A sample that is no request or waits for its pick. -/
lemma sample (h : RoamHistory p calls .nothing) (hclock : ClockAt calls now) (connected : Bool)
    (rssi : ℤ) :
    RoamHistory (p.sample now connected rssi).1 (calls ++ [.sample now connected rssi])
      (if (p.sample now connected rssi).2 then .pick else .nothing) := by
  cases connected with
  | false => exact h.sample_down rssi
  | true =>
      rw [WifiRoamPolicy.sample_up]
      have hafter : ∀ due, 0 ≤ p.weakAfter now rssi →
          (p.weakSince = p.weakAfter now rssi ∨ ∀ c ∈ calls, c.time ≤ p.weakAfter now rssi) ∧
            (Weak rssi ∨ due = RoamDue.pick) := fun due hpos =>
        ⟨(weakAfter_spec hclock hpos).1, .inl (weakAfter_spec hclock hpos).2⟩
      by_cases hsettle : now - p.upSince now < settleMs
      · rw [if_pos hsettle]
        exact h.sample_up hclock _ _ _ (fun hfalse => ⟨hfalse, hsettle⟩) (hafter _)
      rw [if_neg hsettle]
      by_cases hcheck : p.connectChecked = false ∧ rssi ≠ 0 ∧ rssi ≤ goodRssi
      · rw [if_pos hcheck]
        exact h.sample_up hclock _ _ _ (fun hfalse => nomatch hfalse)
          fun _ => ⟨.inl rfl, .inr rfl⟩
      · rw [if_neg hcheck]
        exact h.sample_up hclock _ _ _ (fun hfalse => nomatch hfalse) (hafter _)

/-- A pick makes the scan the last one. -/
lemma pick (h : RoamHistory p calls due) (hclock : ClockAt calls now) (current : Fin 6 → UInt8)
    (currentRssi : ℤ) (candidates : List WifiRoamCandidate) (anyTarget : Bool) (due' : RoamDue) :
    RoamHistory (p.pick now current currentRssi candidates anyTarget).1
      (calls ++ [.pick now current currentRssi candidates anyTarget]) due' := by
  have hconnection : connection (calls ++ [.pick now current currentRssi candidates anyTarget])
      = connection calls ++ [.pick now current currentRssi candidates anyTarget] :=
    connection_concat rfl
  have hup : upTimes (calls ++ [.pick now current currentRssi candidates anyTarget])
      = upTimes calls := (upTimes_concat rfl).trans (List.append_nil _)
  refine ⟨fun hneg => hup.trans (h.down hneg), fun hpos => ?_, fun hpos t ht => ?_,
    fun hfalse c hc => ?_, fun c hc _ => ?_, fun _ t connected rssi ht _ => .inr (.inl ?_)⟩
  · obtain ⟨first, hfirst, hle, heq⟩ := h.up hpos
    rw [hup, hconnection]
    exact ⟨first, hfirst, hle, fun hall => heq fun c hc => hall c (List.mem_append_left _ hc)⟩
  · exact h.roams hpos t (by simpa using ht)
  · rw [hconnection, List.mem_append, List.mem_singleton] at hc
    rcases hc with hc | rfl
    · exact h.unchecked hfalse c hc
    · exact ⟨rfl, fun hseen => absurd rfl hseen⟩
  · refine ⟨hclock.1, ?_⟩
    rcases List.mem_append.mp hc with hc | hc
    · exact hclock.2 c hc
    · rw [List.mem_singleton.mp hc]
      exact le_rfl
  · have ht' : .sample t connected rssi ∈ calls := by simpa using ht
    exact hclock.2 _ ht'

/-- A roam starts the times anew. -/
lemma onRoam (hclock : ClockAt calls now) :
    RoamHistory (p.onRoam now) (calls ++ [.onRoam now]) .nothing := by
  have hup : upTimes (calls ++ [.onRoam now]) = upTimes calls ++ [now] := upTimes_concat rfl
  have hlate : ∀ c ∈ calls ++ [RoamCall.onRoam now], c.time ≤ now := by
    intro c hc
    rcases List.mem_append.mp hc with hc | hc
    · exact hclock.2 c hc
    · rw [List.mem_singleton.mp hc]
      exact le_rfl
  refine ⟨fun hneg => absurd hclock.1 (not_le.mpr hneg), fun _ => ?_, fun _ t ht => hlate _ ht,
    fun hfalse => (nomatch hfalse), fun c hc _ => ⟨hclock.1, hlate c hc⟩,
    fun hpos => absurd hpos (by decide : ¬ (0 : ℤ) ≤ -1)⟩
  rw [hup]
  have hroam : ¬ ∀ c ∈ connection (calls ++ [.onRoam now]), c.isRoam = false := by
    intro hall
    have hmem : RoamCall.onRoam now ∈ connection (calls ++ [.onRoam now]) := by
      rw [connection_concat rfl]
      exact List.mem_append_right _ (List.mem_singleton_self _)
    cases hall _ hmem
  cases hold : upTimes calls with
  | nil => exact ⟨now, rfl, le_rfl, fun hall => absurd hall hroam⟩
  | cons first rest =>
      refine ⟨first, rfl, le_of_mem_upTimes hclock ?_, fun hall => absurd hall hroam⟩
      rw [hold]
      exact List.mem_cons_self

end RoamHistory

/-- The times say so in every run. -/
lemma RoamRun.history {p : WifiRoamPolicy} {calls : List RoamCall} {due : RoamDue}
    (h : RoamRun p calls due) : RoamHistory p calls due := by
  induction h with
  | start => exact .start
  | sample connected rssi _ hclock ih => exact ih.sample hclock connected rssi
  | pick current currentRssi candidates anyTarget _ _ hclock ih =>
      exact ih.pick hclock current currentRssi candidates anyTarget _
  | onRoam _ _ hclock _ => exact .onRoam hclock

/-! ### When a scan is asked for -/

/-- The link was first seen up, or roamed, long ago, and last roamed long ago. -/
def LinkSettled (calls : List RoamCall) (now : ℤ) : Prop :=
  (∃ first, (upTimes calls).head? = some first ∧ settleMs ≤ now - first) ∧
    ∀ t, .onRoam t ∈ calls → settleMs ≤ now - t

/-- The first sample after the link has settled, on a connection without a roam, and a known
signal that is not good. -/
def FirstCheck (calls : List RoamCall) (now rssi : ℤ) : Prop :=
  (rssi ≠ 0 ∧ rssi ≤ goodRssi) ∧ (∀ c ∈ connection calls, c.isRoam = false) ∧
    ∃ first, (upTimes calls).head? = some first ∧ settleMs ≤ now - first ∧
      ∀ t connected rssi', .sample t connected rssi' ∈ connection calls → t - first < settleMs

/-- A link that was weak at every sample for long, and no pick or roam lately. -/
def LongWeak (calls : List RoamCall) (now rssi : ℤ) : Prop :=
  Weak rssi ∧
    (∀ t connected rssi', .sample t connected rssi' ∈ calls → now - weakForMs < t →
      connected = true ∧ Weak rssi') ∧
    ∀ c ∈ calls, c.isScan = true → rescanMs ≤ now - c.time

/-- **A scan is asked for only on a link that has settled, once for a new connection that is
not good and else only for one that has long been weak; the access point picked is a
strongest one among those clearly stronger than the current one.** -/
theorem wifi_roam_requests {p : WifiRoamPolicy} {calls : List RoamCall}
    (hrun : RoamRun p calls .nothing) :
    (∀ now connected rssi, ClockAt calls now → (p.sample now connected rssi).2 = true →
      connected = true ∧ LinkSettled calls now ∧
        (FirstCheck calls now rssi ∨ LongWeak calls now rssi)) ∧
    ∀ now current currentRssi candidates,
      ((p.pick now current currentRssi candidates false).2 = -1 ↔
        ∀ c ∈ candidates, ¬ Eligible current currentRssi c) ∧
      ((p.pick now current currentRssi candidates false).2 ≠ -1 → ∃ i c,
        (p.pick now current currentRssi candidates false).2 = (i : ℕ) ∧
        candidates[i]? = some c ∧ Eligible current currentRssi c ∧
        ∀ c' ∈ candidates, Eligible current currentRssi c' → c'.rssi.toInt ≤ c.rssi.toInt) := by
  refine ⟨fun now connected rssi hclock hrequest => ?_, p.pick_spec⟩
  have h := hrun.history
  cases connected with
  | false => cases hrequest
  | true =>
      rw [sample_up] at hrequest
      by_cases hsettle : now - p.upSince now < settleMs
      · rw [if_pos hsettle] at hrequest
        cases hrequest
      rw [if_neg hsettle] at hrequest
      have hup : 0 ≤ p.connectedSince := by
        by_contra hdown
        rw [upSince, if_pos (not_le.mp hdown), sub_self] at hsettle
        exact hsettle (by decide)
      have hsince : p.upSince now = p.connectedSince := if_neg (not_lt.mpr hup)
      rw [hsince] at hsettle
      obtain ⟨first, hfirst, hle, heq⟩ := h.up hup
      have hsettled : LinkSettled calls now := by
        refine ⟨⟨first, hfirst, by omega⟩, fun t ht => ?_⟩
        have := h.roams hup t ht
        omega
      refine ⟨rfl, hsettled, ?_⟩
      by_cases hcheck : p.connectChecked = false ∧ rssi ≠ 0 ∧ rssi ≤ goodRssi
      · have hunchecked := h.unchecked hcheck.1
        have hnoroam : ∀ c ∈ connection calls, c.isRoam = false := fun c hc =>
          (hunchecked c hc).1
        refine .inl ⟨hcheck.2, hnoroam, first, hfirst, by omega, fun t connected rssi' ht => ?_⟩
        have hseen : (RoamCall.sample t connected rssi').upTime ≠ none := by
          have hlink := List.mem_rtakeWhile_imp ht
          simpa [RoamCall.sawDown, RoamCall.upTime] using hlink
        have htime : t - p.connectedSince < settleMs := (hunchecked _ ht).2 hseen
        rwa [heq hnoroam]
      · rw [if_neg hcheck] at hrequest
        obtain ⟨hweak, hlong, hscan⟩ := of_decide_eq_true hrequest
        have hstarted : 0 ≤ p.weakSince := by
          by_contra hstart
          rw [weakAfter, if_pos hweak, if_pos (not_le.mp hstart), sub_self] at hlong
          exact absurd hlong (by decide)
        have hafter : p.weakAfter now rssi = p.weakSince := by
          rw [weakAfter, if_pos hweak, if_neg (not_lt.mpr hstarted)]
        rw [hafter] at hlong
        have hwindow : weakForMs < rescanMs := by decide
        refine .inr ⟨hweak, fun t connected rssi' ht hlate => ?_, fun c hc hscanned => ?_⟩
        · rcases h.weak hstarted t connected rssi' ht (by omega) with hw | hbefore | ⟨hdue, -⟩
          · exact hw
          · omega
          · cases hdue
        · obtain ⟨hpos, hlast⟩ := h.scans c hc hscanned
          omega

/-- A fresh connection at −65 dBm is looked at once it has settled. -/
theorem wifi_roam_requests_freshLink :
    LinkSettled [.sample 5 true (-65)] 120005 ∧
      (FirstCheck [.sample 5 true (-65)] 120005 (-65) ∨
        LongWeak [.sample 5 true (-65)] 120005 (-65)) := by
  have hrun : RoamRun (WifiRoamPolicy.sample {} 5 true (-65)).1 [.sample 5 true (-65)] .nothing :=
    RoamRun.start.sample true (-65) ⟨by decide, fun c hc => absurd hc List.not_mem_nil⟩
  have hclock : ClockAt [.sample 5 true (-65)] 120005 :=
    ⟨by decide, fun c hc => by rw [List.mem_singleton.mp hc]; decide⟩
  exact ((wifi_roam_requests hrun).1 120005 true (-65) hclock (by decide)).2

/-- When the link was first seen up by a sample since it was last seen down. -/
def firstSeenUp (calls : List RoamCall) : Option ℤ :=
  ((connection calls).filterMap fun c => if c.isRoam then none else c.upTime).head?

/-- After a roam that left the link down, a weak link is scanned for a minute after it was
first seen up. -/
theorem settles_from_roam_before_link :
    ¬ ∀ p calls, RoamRun p calls .nothing → ∀ now connected rssi, ClockAt calls now →
      (p.sample now connected rssi).2 = true →
      ∃ first, firstSeenUp calls = some first ∧ settleMs ≤ now - first := by
  intro h
  have hclock : ClockAt [.sample 0 false 0, .onRoam 0] 900000 :=
    ⟨by decide, fun c hc => by
      rcases List.mem_pair.mp hc with rfl | rfl <;> decide⟩
  have hdown : RoamRun (WifiRoamPolicy.sample {} 0 false 0).1 [.sample 0 false 0] .nothing :=
    RoamRun.start.sample false 0 ⟨le_rfl, fun c hc => absurd hc List.not_mem_nil⟩
  have hroam := @RoamRun.onRoam _ _ _ 0 hdown (by decide)
    ⟨le_rfl, fun c hc => by rw [List.mem_singleton.mp hc]; decide⟩
  have hweak := hroam.sample true (-80) hclock
  obtain ⟨first, hfirst, hsettled⟩ := h _ _ hweak 960000 true (-80)
    ⟨by decide, fun c hc => by
      simp only [List.cons_append, List.nil_append, List.mem_cons, List.not_mem_nil,
        or_false] at hc
      rcases hc with rfl | rfl | rfl <;> decide⟩ (by decide)
  have hseen : firstSeenUp ([.sample 0 false 0] ++ [.onRoam 0] ++ [.sample 900000 true (-80)])
      = some 900000 := by decide
  rw [hseen, Option.some.injEq] at hfirst
  rw [← hfirst] at hsettled
  exact absurd hsettled (by decide)

end ArcticController

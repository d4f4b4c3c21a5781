/-
A browse lists each object with its own data exactly if no object is missing what one
skipped before it has.

* `TurnReply`, `turnReply`: what happens at an entry of the object list, apart from the
  worker's buffers;
* `answeredObjects`, `scannedObjects`: the answers of the objects scanned;
* `browseTurn_eq`, `browseLoop_listed`: what a turn and the loop make of them;
* `MarksSpared`: no value is written over the error mark of an earlier exchange;
* `OwnData`, `browse_own_data`: the sensors are the objects' own, in order, no more than
  there is room for, and `truncated` is set when some are missing.
-/
import ArcticController.Bacnet.BrowseListing

namespace ArcticController

namespace Bacnet

/-! ### The answers of the objects -/

/-- What happens at an entry of the object list. -/
inductive TurnReply where
  | cancelled
  | expired
  | late
  | unanswered
  | answered (a : ObjectAnswers)
deriving DecidableEq

/-- A property of the device, or why there is none. -/
def entryReply (late : Bool) (object : ObjectId) (property : UInt32) (arrayIndex : Option UInt32)
    (replies : Replies) (l : Link) : Except SensorError Tlv × Link :=
  if late then (.error .timeout, l)
  else
    match propertyReply object property arrayIndex replies l with
    | (.error failure, l) => (.error failure.error, l)
    | (.ok t, l) => (.ok t, l)

/-- The answer of the object that an entry names. -/
def turnReply (device : UInt32) (idx : ℕ) (turn : BrowseTurn) (l : Link) : TurnReply × Link :=
  if turn.cancelled then (.cancelled, l)
  else if turn.expired then (.expired, l)
  else
    match entryReply turn.entryLate ⟨.device, device⟩ propObjectList (some (UInt32.ofNat idx))
      turn.entry l with
    | (.error _, l) => (.unanswered, l)
    | (.ok t, l) =>
        match t.decode.2.analogObject with
        | none => (.unanswered, l)
        | some object =>
            let invoke := nextInvoke l.invoke
            if turn.valuesLate then (.late, ⟨invoke, l.connected⟩)
            else
              match buildReadPropertyMultiple invoke object.type object.inst browseProps
                kMaxFrame with
              | none => (.unanswered, ⟨invoke, l.connected⟩)
              | some _ =>
                  match answerTo turn.values invoke kServiceReadPropertyMultiple object l.connected with
                  | (.error _, connected) => (.unanswered, ⟨invoke, connected⟩)
                  | (.ok frame, connected) =>
                      match multipleAnswers frame frame.length invoke 8 (some object) with
                      | .error _ => (.unanswered, ⟨invoke, connected⟩)
                      | .ok answers => (.answered ⟨object, answers⟩, ⟨invoke, connected⟩)

/-- The answers of the objects in `n` entries from `idx` on. -/
def answeredObjects (device : UInt32) (turns : ℕ → BrowseTurn) : ℕ → ℕ → Link → List ObjectAnswers
  | _, 0, _ => []
  | idx, n + 1, l =>
      match turnReply device idx (turns idx) l with
      | (.answered a, l) => a :: answeredObjects device turns (idx + 1) n l
      | (_, l) => answeredObjects device turns (idx + 1) n l

/-- The answers of the objects in at most `n` entries from `idx` on, until the time is
over or there have been `room` sensors. -/
def scannedObjects (device : UInt32) (turns : ℕ → BrowseTurn) :
    ℕ → ℕ → ℕ → Link → List ObjectAnswers
  | _, 0, _, _ => []
  | idx, n + 1, room, l =>
      if room = 0 then []
      else
        match turnReply device idx (turns idx) l with
        | (.answered a, l) => a :: scannedObjects device turns (idx + 1) n
            (if (supportedUnits a.answers).isSome then room - 1 else room) l
        | (.unanswered, l) => scannedObjects device turns (idx + 1) n room l
        | _ => []

/-! ### One turn -/

/-- A property is read as by a poll, if there is time. -/
lemma bacnetReadProperty_readProperty (object : ObjectId) (property : UInt32)
    (arrayIndex : Option UInt32) (replies : Replies) (ex : LastException) (s : Session) :
    ∃ ex', bacnetReadProperty false object property arrayIndex replies ex s
      = ((readProperty object property arrayIndex replies s).1.mapError ReadFailure.error, ex',
        (readProperty object property arrayIndex replies s).2) := by
  rw [bacnetReadProperty, readProperty, if_neg Bool.false_ne_true]
  dsimp only
  cases buildReadProperty (nextInvoke s.invoke) object.type object.inst property arrayIndex
      kMaxFrame with
  | none => exact ⟨ex, rfl⟩
  | some frame =>
      dsimp only
      rcases request replies (nextInvoke s.invoke) kServiceReadProperty object
        { s with invoke := nextInvoke s.invoke } with ⟨_ | len, s'⟩
      · exact ⟨ex, rfl⟩
      · dsimp only
        rcases parseReadPropertyAck s'.rx len (nextInvoke s.invoke) property {} (some object)
          with ⟨p, v, info⟩
        cases p <;> exact ⟨_, rfl⟩

lemma bacnetReadProperty_eq (late : Bool) (object : ObjectId) (property : UInt32)
    (arrayIndex : Option UInt32) (replies : Replies) (ex : LastException) (s : Session) :
    ∃ ex' s', bacnetReadProperty late object property arrayIndex replies ex s
        = ((entryReply late object property arrayIndex replies s.link).1.map fun t => t.decode.2,
          ex', s') ∧
      s'.link = (entryReply late object property arrayIndex replies s.link).2 ∧
      s'.values = s.values := by
  rw [entryReply]
  cases late with
  | true =>
      rw [bacnetReadProperty, if_pos rfl, if_pos rfl]
      exact ⟨ex, s, rfl, rfl, rfl⟩
  | false =>
      obtain ⟨ex', hread⟩ := bacnetReadProperty_readProperty object property arrayIndex replies ex s
      obtain ⟨hresult, hlink, hvalues⟩ := readProperty_eq object property arrayIndex replies s
      rw [if_neg Bool.false_ne_true, hread]
      rcases hreply : propertyReply object property arrayIndex replies s.link with ⟨_ | t, l⟩
      all_goals
        rw [hreply] at hresult hlink
        rw [hresult]
        exact ⟨ex', _, rfl, hlink, hvalues⟩

/-- What a turn of the loop does, as long as there is a free slot. -/
lemma browseTurn_eq (ops : FloatOps) (device : UInt32) (idx : ℕ) (turn : BrowseTurn) (b : Browsing)
    (h : b.out.count < kBrowseMaxResults) :
    match turnReply device idx turn b.session.link with
    | (.cancelled, _) =>
        browseTurn ops device idx turn b h = (.cancelled, { b with out.error := .timeout })
    | (.expired, _) =>
        browseTurn ops device idx turn b h = (.stop, { b with out.truncated := true })
    | (.late, _) => ∃ ex s, browseTurn ops device idx turn b h = (.stop, ⟨s,
        { b.out with toLastException := ex, scanned := idx, truncated := true }⟩)
    | (.unanswered, l) => ∃ ex s, browseTurn ops device idx turn b h = (.next, ⟨s,
        { b.out with toLastException := ex, scanned := idx }⟩) ∧ s.link = l
    | (.answered a, l) => a.answers.length ≤ 8 ∧ ∃ ex s, browseTurn ops device idx turn b h
        = (.next, ⟨s, fillSlot ops a.object
            (List.zipWith PropertyAnswer.store a.answers b.session.values.toList)
            { b.out with toLastException := ex, scanned := idx } h⟩) ∧ s.link = l := by
  rw [turnReply, browseTurn]
  by_cases hcancelled : turn.cancelled = true
  · rw [if_pos hcancelled, if_pos hcancelled]
  rw [if_neg hcancelled, if_neg hcancelled]
  by_cases hexpired : turn.expired = true
  · rw [if_pos hexpired, if_pos hexpired]
  rw [if_neg hexpired, if_neg hexpired]
  obtain ⟨ex, s, hread, hlink, hvalues⟩ := bacnetReadProperty_eq turn.entryLate ⟨.device, device⟩
    propObjectList (some (UInt32.ofNat idx)) turn.entry b.out.toLastException b.session
  rw [hread]
  rcases hreply : entryReply turn.entryLate ⟨.device, device⟩ propObjectList
    (some (UInt32.ofNat idx)) turn.entry b.session.link with ⟨_ | t, l⟩
  · rw [hreply] at hlink
    exact ⟨ex, s, rfl, hlink⟩
  rw [hreply] at hlink
  dsimp only [Except.map] at hlink ⊢
  subst hlink
  cases t.decode.2.analogObject with
  | none => exact ⟨ex, s, rfl, rfl⟩
  | some object =>
      dsimp only [Session.link]
      by_cases hlate : turn.valuesLate = true
      · rw [if_pos hlate, if_pos hlate]
        exact ⟨ex, _, rfl⟩
      rw [if_neg hlate, if_neg hlate]
      cases buildReadPropertyMultiple (nextInvoke s.invoke) object.type object.inst browseProps
          kMaxFrame with
      | none => exact ⟨ex, _, rfl, rfl⟩
      | some frame =>
          dsimp only
          obtain ⟨rx, hstate, hresult⟩ := request_eq turn.values (nextInvoke s.invoke)
            kServiceReadPropertyMultiple object { s with invoke := nextInvoke s.invoke }
          rcases hrequest : request turn.values (nextInvoke s.invoke) kServiceReadPropertyMultiple
            object { s with invoke := nextInvoke s.invoke } with ⟨r, s'⟩
          rw [hrequest] at hstate hresult
          dsimp only at hstate hresult
          rcases hanswer : answerTo turn.values (nextInvoke s.invoke) kServiceReadPropertyMultiple
            object s.connected with ⟨_ | frame, connected⟩
          · rw [hanswer] at hstate hresult
            subst hstate
            obtain rfl := hresult
            exact ⟨ex, _, rfl, rfl⟩
          · rw [hanswer] at hstate hresult
            subst hstate
            obtain ⟨rfl, hsame⟩ := hresult
            dsimp only
            have hparse := parseReadPropertyMultipleAck_eq rx frame.length (nextInvoke s.invoke)
              s.values (some object)
            rw [multipleAnswers_congr hsame] at hparse
            generalize parseReadPropertyMultipleAck rx frame.length (nextInvoke s.invoke) s.values
              (some object) = ack at hparse
            cases hanswers : multipleAnswers frame frame.length (nextInvoke s.invoke) 8
                (some object) with
            | error e =>
                rw [hanswers] at hparse
                obtain ⟨hne, hp, -⟩ := hparse
                rw [if_pos (by rw [hp]; exact hne)]
                exact ⟨ex, _, rfl, rfl⟩
            | ok answers =>
                rw [hanswers] at hparse
                obtain ⟨hle, hok, hcount, hout⟩ := hparse
                refine ⟨hle, ex, ?_⟩
                rw [if_neg (by rw [hok]; exact fun hne => hne rfl), hout, hcount, hvalues,
                  toList_storeFrom_take _ _ hle]
                exact ⟨_, rfl, rfl⟩

/-! ### The loop -/

/-- No value of an object is written over an error mark, in any turn that is made. -/
def MarksSpared (ops : FloatOps) (device : UInt32) (turns : ℕ → BrowseTurn) (idx n : ℕ)
    (b : Browsing) : Prop :=
  ∀ k < n, ∀ b', browseLoop ops device turns idx k b = (.next, b') →
    b'.out.count < kBrowseMaxResults →
    ∀ a l, turnReply device (idx + k) (turns (idx + k)) b'.session.link = (.answered a, l) →
      Unmarked a.answers b'.session.values.toList

section Loop

variable {ops : FloatOps} {device : UInt32} {turns : ℕ → BrowseTurn} {idx n : ℕ} {b b' : Browsing}

lemma browseLoop_next (h : b.out.count < kBrowseMaxResults)
    (hturn : browseTurn ops device idx (turns idx) b h = (.next, b')) :
    browseLoop ops device turns idx (n + 1) b = browseLoop ops device turns (idx + 1) n b' := by
  rw [browseLoop, dif_pos h, hturn]

lemma browseLoop_end (h : b.out.count < kBrowseMaxResults) {e : TurnEnd}
    (hturn : browseTurn ops device idx (turns idx) b h = (e, b')) (he : e ≠ .next) :
    browseLoop ops device turns idx (n + 1) b = (e, b') := by
  rw [browseLoop, dif_pos h, hturn]
  cases e with
  | next => exact absurd rfl he
  | stop => rfl
  | cancelled => rfl

lemma MarksSpared.head (h : MarksSpared ops device turns idx (n + 1) b)
    (hroom : b.out.count < kBrowseMaxResults) {a : ObjectAnswers} {l : Link}
    (hreply : turnReply device idx (turns idx) b.session.link = (.answered a, l)) :
    Unmarked a.answers b.session.values.toList :=
  h 0 (Nat.succ_pos n) b rfl hroom a l hreply

lemma MarksSpared.tail (h : MarksSpared ops device turns idx (n + 1) b)
    (hroom : b.out.count < kBrowseMaxResults)
    (hturn : browseTurn ops device idx (turns idx) b hroom = (.next, b')) :
    MarksSpared ops device turns (idx + 1) n b' := by
  intro k hk b'' hloop
  have hstep := h (k + 1) (by omega) b'' ((browseLoop_next hroom hturn).trans hloop)
  rw [show idx + (k + 1) = idx + 1 + k by omega] at hstep
  exact hstep

/-- There are as many sensors as are counted. -/
lemma Listed.length {objects : List ObjectAnswers} {out : BrowseResult} (h : Listed ops objects out) :
    (listing ops objects).length = out.count := by
  rw [← h.entries, BrowseResult.entries, List.length_map, List.length_take, Vector.length_toList]
  exact min_eq_left h.count_le

lemma Listed.count_concat {objects : List ObjectAnswers} {a : ObjectAnswers} {out out' : BrowseResult}
    (h : Listed ops objects out) (h' : Listed ops (objects ++ [a]) out') :
    out'.count = if (supportedUnits a.answers).isSome then out.count + 1 else out.count := by
  rw [← h'.length, ← h.length, listing_concat, List.length_append]
  cases supportedUnits a.answers <;> rfl

@[simp] lemma fillSlot_scanned (ops : FloatOps) (object : ObjectId) (values : List PropertyValue)
    (out : BrowseResult) (h : out.count < kBrowseMaxResults) :
    (fillSlot ops object values out h).scanned = out.scanned := by
  rw [fillSlot]
  split <;> rfl

/-- The run lemma: the loop lists the objects it scans, and skips those whose units are
not supported. -/
theorem browseLoop_listed {objects : List ObjectAnswers} (h : Listed ops objects b.out)
    (hscanned : b.out.scanned + 1 = idx) (hspared : MarksSpared ops device turns idx n b) :
    ∃ k, (browseLoop ops device turns idx n b).2.out.scanned = b.out.scanned + k ∧
      answeredObjects device turns idx k b.session.link
        = scannedObjects device turns idx n (kBrowseMaxResults - b.out.count) b.session.link ∧
      Listed ops (objects ++ answeredObjects device turns idx k b.session.link)
        (browseLoop ops device turns idx n b).2.out := by
  induction n generalizing idx b objects with
  | zero => exact ⟨0, rfl, rfl, by rw [answeredObjects, List.append_nil]; exact h⟩
  | succ n ih =>
      by_cases hroom : b.out.count < kBrowseMaxResults
      · have hturn := browseTurn_eq ops device idx (turns idx) b hroom
        rw [scannedObjects, if_neg (Nat.sub_ne_zero_of_lt hroom)]
        rcases hreply : turnReply device idx (turns idx) b.session.link with ⟨reply, l⟩
        rw [hreply] at hturn
        cases reply with
        | cancelled =>
            dsimp only at hturn
            rw [browseLoop_end hroom hturn nofun]
            exact ⟨0, rfl, rfl, by rw [answeredObjects, List.append_nil]; exact h.congr rfl rfl⟩
        | expired =>
            dsimp only at hturn
            rw [browseLoop_end hroom hturn nofun]
            exact ⟨0, rfl, rfl, by rw [answeredObjects, List.append_nil]; exact h.congr rfl rfl⟩
        | late =>
            obtain ⟨ex, s, hturn⟩ := hturn
            have hnone : answeredObjects device turns idx 1 b.session.link = [] := by
              rw [answeredObjects, hreply]
              rfl
            rw [browseLoop_end hroom hturn nofun]
            exact ⟨1, hscanned.symm, hnone, by rw [hnone, List.append_nil]; exact h.congr rfl rfl⟩
        | unanswered =>
            obtain ⟨ex, s, hturn, rfl⟩ := hturn
            have hnext := hspared.tail hroom hturn
            rw [browseLoop_next hroom hturn]
            set out' : BrowseResult := { b.out with toLastException := ex, scanned := idx }
            have hkept : Listed ops objects out' := h.congr rfl rfl
            obtain ⟨k, hk, hobjects, hlisted⟩ := @ih _ ⟨s, out'⟩ _ hkept rfl hnext
            have hsame : answeredObjects device turns idx (k + 1) b.session.link
                = answeredObjects device turns (idx + 1) k s.link := by
              rw [answeredObjects, hreply]
            refine ⟨k + 1, ?_, hsame.trans hobjects, by rw [hsame]; exact hlisted⟩
            rw [hk, show out'.scanned = idx from rfl]
            omega
        | answered a =>
            obtain ⟨hle, ex, s, hturn, rfl⟩ := hturn
            have hnext := hspared.tail hroom hturn
            rw [browseLoop_next hroom hturn]
            have hkept : Listed ops objects { b.out with toLastException := ex, scanned := idx } :=
              h.congr rfl rfl
            have hfill := hkept.fillSlot a (by simpa using hle) (hspared.head hroom hreply) hroom
            have hidx := fillSlot_scanned ops a.object (List.zipWith PropertyAnswer.store a.answers
              b.session.values.toList) { b.out with toLastException := ex, scanned := idx } hroom
            set out' := fillSlot ops a.object (List.zipWith PropertyAnswer.store a.answers
              b.session.values.toList) { b.out with toLastException := ex, scanned := idx } hroom
            obtain ⟨k, hk, hobjects, hlisted⟩ := @ih _ ⟨s, out'⟩ _ hfill (congrArg (· + 1) hidx) hnext
            have hsame : answeredObjects device turns idx (k + 1) b.session.link
                = a :: answeredObjects device turns (idx + 1) k s.link := by
              rw [answeredObjects, hreply]
            have hcount : kBrowseMaxResults - out'.count
                = if (supportedUnits a.answers).isSome then kBrowseMaxResults - b.out.count - 1
                  else kBrowseMaxResults - b.out.count := by
              rw [hkept.count_concat hfill]
              split
              · exact (Nat.sub_sub ..).symm
              · rfl
            refine ⟨k + 1, ?_, ?_, ?_⟩
            · rw [hk, show out'.scanned = idx from hidx]
              omega
            · rw [hsame, hobjects, hcount]
            · rw [hsame, ← List.singleton_append, ← List.append_assoc]
              exact hlisted
      · refine ⟨0, ?_, ?_, ?_⟩
        · rw [browseLoop, dif_neg hroom]
          rfl
        · rw [scannedObjects, if_pos (by omega)]
          rfl
        · rw [browseLoop, dif_neg hroom, answeredObjects, List.append_nil]
          exact h

/-- A browse that nobody calls off is not cancelled. -/
lemma browseTurn_not_cancelled {turn : BrowseTurn} (h : turn.cancelled = false)
    (hroom : b.out.count < kBrowseMaxResults) :
    (browseTurn ops device idx turn b hroom).1 ≠ .cancelled := by
  rw [browseTurn, if_neg (by rw [h]; nofun)]
  dsimp only
  repeat' split
  all_goals nofun

lemma browseLoop_not_cancelled (hcancel : ∀ idx, (turns idx).cancelled = false) :
    (browseLoop ops device turns idx n b).1 ≠ .cancelled := by
  induction n generalizing idx b with
  | zero => nofun
  | succ n ih =>
      by_cases hroom : b.out.count < kBrowseMaxResults
      · have hnot := @browseTurn_not_cancelled ops device idx b _ (hcancel idx) hroom
        rcases hturn : browseTurn ops device idx (turns idx) b hroom with ⟨e, b'⟩
        rw [hturn] at hnot
        cases e with
        | next =>
            rw [browseLoop_next hroom hturn]
            exact ih
        | stop =>
            rw [browseLoop_end hroom hturn nofun]
            exact hnot
        | cancelled => exact absurd rfl hnot
      · rw [browseLoop, dif_neg hroom]
        nofun

end Loop

/-! ### The whole browse -/

/-- The device that is browsed, when the length of its object list is known. -/
def browseBegun (host : CharArray kHostMax) (port : UInt16) (r : BrowseReplies) (w : WorkerContext) :
    Option (UInt32 × Browsing) :=
  if !hostValid host || port == 0 || decide (r.openError ≠ .none) then none
  else
    match browseDevice r ⟨{ toWorkerContext := w }, {}⟩ with
    | (none, _) => none
    | (some device, b) => some (device, b)

/-- The answers of the objects in the first `scanned` entries of the object list. -/
def objectsAnswered (host : CharArray kHostMax) (port : UInt16) (r : BrowseReplies)
    (w : WorkerContext) (scanned : ℕ) : List ObjectAnswers :=
  match browseBegun host port r w with
  | none => []
  | some (device, b) => answeredObjects device r.turns 1 scanned b.session.link

/-- The answers of the objects that are scanned before the time is over or the array
is full. -/
def objectsScanned (host : CharArray kHostMax) (port : UInt16) (r : BrowseReplies)
    (w : WorkerContext) : List ObjectAnswers :=
  match browseBegun host port r w with
  | none => []
  | some (device, b) =>
      scannedObjects device r.turns 1 (scanLimit b.out) kBrowseMaxResults b.session.link

/-- No value of an object is written over an error mark, in any turn of the browse. -/
def BrowseSpared (ops : FloatOps) (host : CharArray kHostMax) (port : UInt16) (r : BrowseReplies)
    (w : WorkerContext) : Prop :=
  ∀ device b, browseBegun host port r w = some (device, b) →
    MarksSpared ops device r.turns 1 (scanLimit b.out) b

/-- The sensors are the objects' own, one for each object scanned whose answer carries
supported units, in the order of the object list; there are no more than fit; and
unless the browse is called off, `truncated` tells that entries were not scanned or
the array is full. -/
structure OwnData (ops : FloatOps) (host : CharArray kHostMax) (port : UInt16) (r : BrowseReplies)
    (w : WorkerContext) (out : BrowseResult) : Prop where
  sensors : out.entries = (objectsAnswered host port r w out.scanned).filterMap (ownEntry ops)
  count_le : out.entries.length ≤ kBrowseMaxResults
  truncated : (∀ idx, (r.turns idx).cancelled = false) →
    out.scanned < out.totalObjects.toNat ∨ out.entries.length = kBrowseMaxResults →
    out.truncated = true

/-- Nothing is listed or scanned in between. -/
structure ListUntouched (out out' : BrowseResult) : Prop where
  sensors : out'.sensors = out.sensors
  count : out'.count = out.count
  scanned : out'.scanned = out.scanned

lemma ListUntouched.trans {out out' out'' : BrowseResult} (h : ListUntouched out out')
    (h' : ListUntouched out' out'') : ListUntouched out out'' :=
  ⟨h'.sensors.trans h.sensors, h'.count.trans h.count, h'.scanned.trans h.scanned⟩

lemma readDeviceProperty_out (device property : UInt32) (arrayIndex : Option UInt32)
    (p : PropertyReplies) (b : Browsing) :
    ListUntouched b.out (readDeviceProperty device property arrayIndex p b).2.out ∧
      (readDeviceProperty device property arrayIndex p b).2.out.totalObjects = b.out.totalObjects :=
  ⟨⟨rfl, rfl, rfl⟩, rfl⟩

lemma readDeviceName_out (device property : UInt32) (p : PropertyReplies) (name : CharArray 41)
    (b : Browsing) : ListUntouched b.out (readDeviceName device property p name b).2.out ∧
      (readDeviceName device property p name b).2.out.totalObjects = b.out.totalObjects := by
  have hout := readDeviceProperty_out device property none p b
  rw [readDeviceName]
  rcases hread : readDeviceProperty device property none p b with ⟨_ | v, b'⟩
  all_goals
    rw [hread] at hout
    exact hout

/-- Before the first entry nothing is listed; the number of objects is not known
unless the loop begins. -/
lemma browseDevice_out (r : BrowseReplies) (b : Browsing) :
    ListUntouched b.out (browseDevice r b).2.out ∧
      ((browseDevice r b).1 = none → (browseDevice r b).2.out.totalObjects = b.out.totalObjects) := by
  rw [browseDevice]
  have hfirst := readDeviceProperty_out kDeviceWildcard propObjectIdentifier none r.identifier b
  rcases hread : readDeviceProperty kDeviceWildcard propObjectIdentifier none r.identifier b
    with ⟨_ | v, b₁⟩
  all_goals
    rw [hread] at hfirst
    obtain ⟨hout, htotal⟩ := hfirst
  · exact ⟨⟨hout.sensors, hout.count, hout.scanned⟩, fun _ => htotal⟩
  · dsimp only at hout htotal ⊢
    set device := if v.type = .objectId then v.object.inst else kDeviceWildcard
    set b₂ : Browsing := if v.type = .objectId then
        { b₁ with out.deviceInstanceKnown := true, out.deviceInstance := device } else b₁ with hb₂
    have hknown : ListUntouched b.out b₂.out ∧ b₂.out.totalObjects = b.out.totalObjects := by
      rw [hb₂]
      split
      · exact ⟨⟨hout.sensors, hout.count, hout.scanned⟩, htotal⟩
      · exact ⟨hout, htotal⟩
    have hname := readDeviceName_out device propObjectName r.objectName b₂.out.deviceName b₂
    rcases hread₃ : readDeviceName device propObjectName r.objectName b₂.out.deviceName b₂
      with ⟨name, b₃⟩
    rw [hread₃] at hname
    have hmodel := readDeviceName_out device propModelName r.modelName b₃.out.modelName
      { b₃ with out.deviceName := name }
    rcases hread₄ : readDeviceName device propModelName r.modelName b₃.out.modelName
      { b₃ with out.deviceName := name } with ⟨model, b₄⟩
    rw [hread₄] at hmodel
    have hlength := readDeviceProperty_out device propObjectList (some 0) r.listLength
      { b₄ with out.modelName := model }
    have hall := ((hknown.1.trans hname.1).trans ⟨hmodel.1.sensors, hmodel.1.count,
      hmodel.1.scanned⟩).trans ⟨hlength.1.sensors, hlength.1.count, hlength.1.scanned⟩
    have htotal₅ := hlength.2.trans (hmodel.2.trans (hname.2.trans hknown.2))
    dsimp only at hall htotal₅ ⊢
    rcases hread₅ : readDeviceProperty device propObjectList (some 0) r.listLength
      { b₄ with out.modelName := model } with ⟨_ | v', b₅⟩
    all_goals rw [hread₅] at hall htotal₅
    · exact ⟨⟨hall.sensors, hall.count, hall.scanned⟩, fun _ => htotal₅⟩
    · dsimp only at hall htotal₅ ⊢
      split
      · exact ⟨⟨hall.sensors, hall.count, hall.scanned⟩, fun _ => htotal₅⟩
      · exact ⟨⟨hall.sensors, hall.count, hall.scanned⟩, nofun⟩

section Whole

variable {ops : FloatOps} {host : CharArray kHostMax} {port : UInt16} {r : BrowseReplies}
  {w : WorkerContext}

/-- A browse that does not come to the object list has no sensors. -/
lemma runBrowse_none (h : browseBegun host port r w = none) :
    ListUntouched {} (runBrowse ops host port r w).1 ∧
      (runBrowse ops host port r w).1.totalObjects = 0 := by
  rw [browseBegun] at h
  rw [runBrowse]
  by_cases hhost : (!hostValid host || port == 0) = true
  · rw [if_pos hhost]
    exact ⟨⟨rfl, rfl, rfl⟩, rfl⟩
  rw [if_neg hhost]
  by_cases hopen : r.openError ≠ .none
  · rw [if_pos hopen]
    exact ⟨⟨rfl, rfl, rfl⟩, rfl⟩
  rw [if_neg hopen]
  obtain ⟨hout, htotal⟩ := browseDevice_out r ⟨{ toWorkerContext := w }, {}⟩
  rw [Bool.not_eq_true] at hhost
  rw [hhost, decide_eq_false hopen, if_neg (by decide)] at h
  rcases hbegun : browseDevice r ⟨{ toWorkerContext := w }, {}⟩ with ⟨_ | device, b⟩
  · rw [hbegun] at hout htotal
    exact ⟨hout, htotal rfl⟩
  · rw [hbegun] at h
    cases h

/-- A browse that comes to the object list is the loop over it. -/
lemma runBrowse_some {device : UInt32} {b : Browsing} (h : browseBegun host port r w = some (device, b)) :
    ListUntouched {} b.out ∧
      runBrowse ops host port r w = match browseLoop ops device r.turns 1 (scanLimit b.out) b with
        | (.cancelled, b) => (b.out, b.session.toWorkerContext)
        | (_, b) => (b.out.finished, b.session.toWorkerContext) := by
  rw [browseBegun] at h
  rw [runBrowse]
  by_cases hhost : (!hostValid host || port == 0) = true
  · rw [hhost, Bool.true_or, if_pos rfl] at h
    cases h
  rw [if_neg hhost]
  rw [Bool.not_eq_true] at hhost
  by_cases hopen : r.openError ≠ .none
  · rw [decide_eq_true hopen, Bool.or_true, if_pos rfl] at h
    cases h
  rw [if_neg hopen]
  rw [hhost, decide_eq_false hopen, if_neg (by decide)] at h
  obtain ⟨hout, -⟩ := browseDevice_out r ⟨{ toWorkerContext := w }, {}⟩
  rcases hbegun : browseDevice r ⟨{ toWorkerContext := w }, {}⟩ with ⟨_ | device', b'⟩
  · rw [hbegun] at h
    cases h
  · rw [hbegun] at h hout
    cases h
    exact ⟨hout, rfl⟩

/-- The sensors of a browse that comes to the object list are those of the loop, and it
tells what is missing unless it is called off. -/
lemma runBrowse_out {device : UInt32} {b : Browsing}
    (h : browseBegun host port r w = some (device, b)) :
    let b' := (browseLoop ops device r.turns 1 (scanLimit b.out) b).2
    let out := (runBrowse ops host port r w).1
    out.entries = b'.out.entries ∧ out.scanned = b'.out.scanned ∧ out.count = b'.out.count ∧
      ((∀ idx, (r.turns idx).cancelled = false) →
        out.scanned < out.totalObjects.toNat ∨ out.count = kBrowseMaxResults → out.truncated = true) := by
  obtain ⟨-, hrun⟩ := @runBrowse_some ops _ _ _ _ _ _ h
  dsimp only
  rw [hrun]
  rcases hloop : browseLoop ops device r.turns 1 (scanLimit b.out) b with ⟨e, b'⟩
  have hfinished : b'.out.finished.scanned < b'.out.finished.totalObjects.toNat ∨
      b'.out.finished.count = kBrowseMaxResults → b'.out.finished.truncated = true := by
    rintro (hmissing | hfull)
    · rw [BrowseResult.finished, decide_eq_true (p := b'.out.scanned < b'.out.totalObjects.toNat) hmissing]
      simp
    · rw [BrowseResult.finished, decide_eq_true (p := kBrowseMaxResults ≤ b'.out.count) hfull.ge]
      simp
  cases e with
  | next => exact ⟨rfl, rfl, rfl, fun _ => hfinished⟩
  | stop => exact ⟨rfl, rfl, rfl, fun _ => hfinished⟩
  | cancelled =>
      refine ⟨rfl, rfl, rfl, fun hcancel => ?_⟩
      exact absurd (congrArg Prod.fst hloop) (browseLoop_not_cancelled hcancel)

/-- **A browse lists each object with its own data exactly if no listed object is missing
a name, a value, a reliability or a ROM id that an object skipped since the last
listed one has**: whatever comes back and whenever the time is over, as long as no
value is written over an error mark that an earlier exchange left. -/
theorem browse_own_data (hspared : BrowseSpared ops host port r w) :
    OwnData ops host port r w (runBrowse ops host port r w).1 ↔
      GivenThemselves (objectsScanned host port r w) := by
  cases hbegun : browseBegun host port r w with
  | none =>
      obtain ⟨hout, htotal⟩ := @runBrowse_none ops _ _ _ _ hbegun
      have hempty : (runBrowse ops host port r w).1.entries = [] := by
        rw [BrowseResult.entries, hout.count]
        rfl
      rw [objectsScanned, hbegun]
      refine ⟨fun _ => givenThemselves_nil, fun _ => ⟨?_, ?_, fun _ hmissing => ?_⟩⟩
      · rw [hempty, objectsAnswered, hbegun]
        rfl
      · rw [hempty]
        exact Nat.zero_le _
      · rw [hempty, htotal] at hmissing
        rcases hmissing with hlt | hfull
        · exact absurd hlt (Nat.not_lt_zero _)
        · cases hfull
  | some begun =>
      obtain ⟨device, b⟩ := begun
      obtain ⟨hout, -⟩ := @runBrowse_some ops _ _ _ _ _ _ hbegun
      obtain ⟨hentries, hscanned, hcount, htruncated⟩ := @runBrowse_out ops _ _ _ _ _ _ hbegun
      obtain ⟨k, hk, hobjects, hlisted⟩ := browseLoop_listed
        ((listed_fresh ops).congr hout.sensors hout.count) (congrArg (· + 1) hout.scanned)
        (hspared device b hbegun)
      rw [hk, hout.scanned, show ({} : BrowseResult).scanned + k = k from Nat.zero_add k] at hscanned
      rw [hout.count, Nat.sub_zero] at hobjects
      rw [List.nil_append] at hlisted
      have hanswered : objectsAnswered host port r w (runBrowse ops host port r w).1.scanned
          = objectsScanned host port r w := by
        rw [hscanned, objectsAnswered, objectsScanned, hbegun]
        exact hobjects
      have hlisting : (runBrowse ops host port r w).1.entries
          = listing ops (objectsScanned host port r w) := by
        rw [hentries, hlisted.entries, objectsScanned, hbegun]
        exact congrArg (listing ops) hobjects
      have hlength : (runBrowse ops host port r w).1.entries.length
          = (runBrowse ops host port r w).1.count := by
        rw [hentries, hcount, hlisted.entries, hlisted.length]
      rw [← listing_eq_own_iff ops, ← hlisting, ← hanswered]
      refine ⟨fun hown => hown.sensors, fun hown => ⟨hown, ?_, ?_⟩⟩
      · rw [hlength, hcount]
        exact hlisted.count_le
      · rw [hlength]
        exact htruncated

end Whole

/-- An acknowledgement with some content, as the only datagram that comes back. -/
def acknowledged (invoke service : UInt8) (content : List UInt8) : Replies :=
  { first := { datagrams := [[0x81, 0x0A, 0, UInt8.ofNat (9 + content.length), 1, 0, 0x30, invoke,
    service] ++ content] } }

/-- Device 7 answers with the value of a property. -/
def device7Property (invoke property : UInt8) (value : List UInt8) : Replies :=
  acknowledged invoke 12 ([0x0C, 2, 0, 0, 7, 0x19, property, 0x3E] ++ value ++ [0x3F])

/-- Analog input `n` answers with some results. -/
def inputResults (invoke n : UInt8) (results : List UInt8) : Replies :=
  acknowledged invoke 14 ([0x0C, 0, 0, 0, n, 0x1E] ++ results ++ [0x1F])

/-- A browse of device 7, which is called B and has analog inputs 1 and 2. -/
def twoInputs (first second : List UInt8) : BrowseReplies where
  identifier := { replies := device7Property 1 75 [0xC4, 2, 0, 0, 7] }
  objectName := { replies := device7Property 2 77 [0x72, 0, 0x42] }
  modelName := { replies := device7Property 3 70 [0x72, 0, 0x42] }
  listLength := { replies := device7Property 4 76 [0x21, 2] }
  turns idx :=
    if idx = 1 then
      { entry := device7Property 5 76 [0xC4, 0, 0, 0, 1], values := inputResults 6 1 first }
    else { entry := device7Property 7 76 [0xC4, 0, 0, 0, 2], values := inputResults 8 2 second }

/-- The name A. -/
def nameA : List UInt8 := [0x29, 77, 0x4E, 0x72, 0, 0x41, 0x4F]

/-- Degrees Celsius. -/
def degreesCelsius : List UInt8 := [0x29, 117, 0x4E, 0x91, 62, 0x4F]

/-- Percent. -/
def percent : List UInt8 := [0x29, 117, 0x4E, 0x91, 98, 0x4F]

/-- The host `a`. -/
def hostA : CharArray kHostMax := .copyString kHostMax [0x61]

lemma browseBegun_device {host : CharArray kHostMax} {port : UInt16} {r : BrowseReplies}
    {w : WorkerContext} {device : UInt32} {b : Browsing}
    (h : browseBegun host port r w = some (device, b)) :
    browseDevice r ⟨{ toWorkerContext := w }, {}⟩ = (some device, b) := by
  rw [browseBegun] at h
  split at h
  · cases h
  · rcases hbegun : browseDevice r ⟨{ toWorkerContext := w }, {}⟩ with ⟨_ | device', b'⟩
    · rw [hbegun] at h
      cases h
    · rw [hbegun] at h
      cases h
      rfl

/-- Without any mark every browse of two objects is spared. -/
lemma browseSpared_of_clean {first second : List UInt8}
    (hdevice : (browseDevice (twoInputs first second) ⟨{}, {}⟩).1 = some 7)
    (htotal : scanLimit (browseDevice (twoInputs first second) ⟨{}, {}⟩).2.out = 2)
    (hclean : ∀ k < 2, (browseLoop celsiusOps 7 (twoInputs first second).turns 1 k
      (browseDevice (twoInputs first second) ⟨{}, {}⟩).2).2.session.values.toList.all
        (fun pv => !pv.error) = true) :
    BrowseSpared celsiusOps hostA 47808 (twoInputs first second) {} := by
  intro device b hbegun k hk b' hloop _ a l _ p hp _
  have hbegun' := browseBegun_device hbegun
  have hb : (browseDevice (twoInputs first second) ⟨{}, {}⟩).2 = b := congrArg Prod.snd hbegun'
  obtain rfl : 7 = device := Option.some.inj (hdevice.symm.trans (congrArg Prod.fst hbegun'))
  rw [← hb, htotal] at hk
  have hvalues := hclean k hk
  rw [hb, hloop] at hvalues
  have hmark := List.all_eq_true.mp hvalues p.2 (List.of_mem_zip hp).2
  simpa using hmark

/-- Two inputs in degrees Celsius, of which the second has no name. -/
theorem browse_own_data_twoInputs : OwnData celsiusOps hostA 47808
    (twoInputs (nameA ++ degreesCelsius) degreesCelsius) {}
    (runBrowse celsiusOps hostA 47808 (twoInputs (nameA ++ degreesCelsius) degreesCelsius) {}).1 :=
  (browse_own_data (browseSpared_of_clean (by decide +kernel) (by decide +kernel)
    (by decide +kernel))).mpr ((listing_eq_own_iff celsiusOps _).mp (by decide +kernel))

/-- The first input is in percent and is skipped: the second is listed under its name. -/
theorem skipped_name_listed : ¬ OwnData celsiusOps hostA 47808
    (twoInputs (nameA ++ percent) degreesCelsius) {}
    (runBrowse celsiusOps hostA 47808 (twoInputs (nameA ++ percent) degreesCelsius) {}).1 := by
  intro h
  have hnames := congrArg (List.map BrowseEntry.objectName) h.sensors
  revert hnames
  decide +kernel

end Bacnet

end ArcticController

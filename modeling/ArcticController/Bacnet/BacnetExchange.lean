/-
What a device answers in one exchange, apart from the worker's buffers.

* `firstReply`, `answerTo`: the frame that answers a request;
* `Link`: what else a request depends on, the last invoke id and the socket;
* `propertyReply`, `deviceReply`, `oneByOne`, `acquired`: the answers to the requests;
* `exchange`: the device's instance and the results of one exchange, or the outcome
  without any;
* `bacnetReadValue_eq`: a reading is judged by these results, written over what the
  worker's array held.
-/
import ArcticController.Bacnet.BacnetClient

namespace ArcticController

namespace Bacnet

/-! ### Frames -/

/-- The first datagram that answers; an empty one ends the attempt. -/
def firstReply (invoke service : UInt8) (expected : ObjectId) :
    List (List UInt8) → Option (List UInt8)
  | [] => none
  | datagram :: datagrams =>
      let frame := datagram.take kMaxFrame
      if frame = [] then none
      else if frameMatchesObject frame frame.length invoke service expected then some frame
      else firstReply invoke service expected datagrams

/-- The frame received, and whether the socket is still open. -/
def attemptReply (invoke service : UInt8) (expected : ObjectId) :
    List Attempt → Except SensorError (List UInt8) × Bool
  | [] => (.error .timeout, false)
  | attempt :: attempts =>
      if attempt.expired then (.error .timeout, false)
      else if !attempt.sent then (.error .timeout, true)
      else
        match firstReply invoke service expected attempt.datagrams with
        | some frame => (.ok frame, true)
        | none => attemptReply invoke service expected attempts

def answerTo (replies : Replies) (invoke service : UInt8) (expected : ObjectId)
    (connected : Bool) : Except SensorError (List UInt8) × Bool :=
  if !connected then (.error .connect, false)
  else attemptReply invoke service expected [replies.first, replies.second]

/-- The buffer holds the first reply, whatever it held before. -/
lemma awaitReply_eq (invoke service : UInt8) (expected : ObjectId) (datagrams : List (List UInt8))
    (rx : List UInt8) :
    match firstReply invoke service expected datagrams with
    | none => (awaitReply invoke service expected datagrams rx).1 = none
    | some frame => (awaitReply invoke service expected datagrams rx).1 = some frame.length ∧
        SameUpTo frame.length (awaitReply invoke service expected datagrams rx).2 frame := by
  induction datagrams generalizing rx with
  | nil => rfl
  | cons datagram datagrams ih =>
      rw [firstReply, awaitReply]
      dsimp only
      by_cases hempty : datagram.take kMaxFrame = []
      · rw [if_pos hempty, if_pos hempty]
      · rw [if_neg hempty, if_neg hempty]
        have hsame := sameUpTo_append (datagram.take kMaxFrame)
          (rx.drop (datagram.take kMaxFrame).length)
        rw [frameMatchesObject_congr hsame]
        by_cases hmatch : frameMatchesObject (datagram.take kMaxFrame)
            (datagram.take kMaxFrame).length invoke service expected
        · rw [if_pos hmatch, if_pos hmatch]
          exact ⟨rfl, hsame⟩
        · rw [if_neg hmatch, if_neg hmatch]
          exact ih _

/-! ### Requests -/

/-- The last invoke id, and whether the socket is open. -/
structure Link where
  invoke : UInt8
  connected : Bool
deriving DecidableEq, Repr

def Session.link (s : Session) : Link := ⟨s.invoke, s.connected⟩

lemma requestAttempts_eq (invoke service : UInt8) (expected : ObjectId) (attempts : List Attempt)
    (s : Session) (hconnected : s.connected = true) :
    ∃ rx, (requestAttempts invoke service expected attempts s).2
        = { s with rx := rx, connected := (attemptReply invoke service expected attempts).2 } ∧
      match (attemptReply invoke service expected attempts).1 with
      | .error e => (requestAttempts invoke service expected attempts s).1 = .error e
      | .ok frame => (requestAttempts invoke service expected attempts s).1 = .ok frame.length ∧
          SameUpTo frame.length rx frame := by
  induction attempts generalizing s with
  | nil => exact ⟨s.rx, rfl, rfl⟩
  | cons attempt attempts ih =>
      rw [requestAttempts, attemptReply]
      by_cases hexpired : attempt.expired
      · rw [if_pos hexpired, if_pos hexpired]
        exact ⟨s.rx, rfl, rfl⟩
      · rw [if_neg hexpired, if_neg hexpired]
        by_cases hsent : !attempt.sent
        · rw [if_pos hsent, if_pos hsent, ← hconnected]
          exact ⟨s.rx, rfl, rfl⟩
        · rw [if_neg hsent, if_neg hsent]
          have hawait := awaitReply_eq invoke service expected attempt.datagrams s.rx
          rcases hread : awaitReply invoke service expected attempt.datagrams s.rx with ⟨len, rx⟩
          rw [hread] at hawait
          cases hfirst : firstReply invoke service expected attempt.datagrams with
          | none =>
              rw [hfirst] at hawait
              obtain rfl := hawait
              obtain ⟨rx', hstate, hresult⟩ := ih { s with rx := rx } hconnected
              exact ⟨rx', hstate, hresult⟩
          | some frame =>
              rw [hfirst] at hawait
              obtain ⟨rfl, hsame⟩ := hawait
              refine ⟨rx, ?_, rfl, hsame⟩
              dsimp only
              rw [← hconnected]

lemma request_eq (replies : Replies) (invoke service : UInt8) (expected : ObjectId) (s : Session) :
    ∃ rx, (request replies invoke service expected s).2
        = { s with rx := rx, connected := (answerTo replies invoke service expected s.connected).2 } ∧
      match (answerTo replies invoke service expected s.connected).1 with
      | .error e => (request replies invoke service expected s).1 = .error e
      | .ok frame => (request replies invoke service expected s).1 = .ok frame.length ∧
          SameUpTo frame.length rx frame := by
  rw [request, answerTo]
  cases hconnected : s.connected with
  | false =>
      simp only [Bool.not_false, if_true]
      exact ⟨s.rx, by rw [← hconnected], trivial⟩
  | true =>
      simp only [Bool.not_true, Bool.false_eq_true, if_false]
      exact requestAttempts_eq invoke service expected _ s hconnected

/-- The value of a property, as it stands in the frame that answers. -/
def propertyReply (object : ObjectId) (property : UInt32) (arrayIndex : Option UInt32)
    (replies : Replies) (l : Link) : Except ReadFailure Tlv × Link :=
  let invoke := nextInvoke l.invoke
  match buildReadProperty invoke object.type object.inst property arrayIndex kMaxFrame with
  | none => (.error { error := .protocol }, ⟨invoke, l.connected⟩)
  | some _ =>
      match answerTo replies invoke kServiceReadProperty object l.connected with
      | (.error e, connected) => (.error { error := e }, ⟨invoke, connected⟩)
      | (.ok frame, connected) =>
          match propertyTlv frame frame.length invoke property (some object) with
          | .error (p, info) => (.error (propertyFailure p info), ⟨invoke, connected⟩)
          | .ok t => (.ok t, ⟨invoke, connected⟩)

/-- A property is read as it stands in the frame. -/
lemma readProperty_eq (object : ObjectId) (property : UInt32) (arrayIndex : Option UInt32)
    (replies : Replies) (s : Session) :
    (readProperty object property arrayIndex replies s).1
        = (propertyReply object property arrayIndex replies s.link).1.map (fun t => t.decode.2) ∧
      (readProperty object property arrayIndex replies s).2.link
        = (propertyReply object property arrayIndex replies s.link).2 ∧
      (readProperty object property arrayIndex replies s).2.values = s.values := by
  rw [readProperty, propertyReply]
  dsimp only [Session.link]
  cases buildReadProperty (nextInvoke s.invoke) object.type object.inst property arrayIndex
      kMaxFrame with
  | none => exact ⟨rfl, rfl, rfl⟩
  | some frame =>
      dsimp only
      obtain ⟨rx, hstate, hresult⟩ := request_eq replies (nextInvoke s.invoke) kServiceReadProperty
        object { s with invoke := nextInvoke s.invoke }
      rcases hrequest : request replies (nextInvoke s.invoke) kServiceReadProperty object
        { s with invoke := nextInvoke s.invoke } with ⟨r, s'⟩
      rw [hrequest] at hstate hresult
      dsimp only at hstate hresult
      rcases hanswer : answerTo replies (nextInvoke s.invoke) kServiceReadProperty object s.connected
        with ⟨answer, connected⟩
      rw [hanswer] at hstate hresult
      subst hstate
      cases answer with
      | error e =>
          obtain rfl := hresult
          exact ⟨rfl, rfl, rfl⟩
      | ok frame =>
          obtain ⟨rfl, hsame⟩ := hresult
          dsimp only
          have hparse := parseReadPropertyAck_eq rx frame.length (nextInvoke s.invoke) property {}
            (some object)
          rw [propertyTlv_congr hsame] at hparse
          rcases hack : parseReadPropertyAck rx frame.length (nextInvoke s.invoke) property {}
            (some object) with ⟨p, v, info⟩
          rw [hack] at hparse
          cases htlv : propertyTlv frame frame.length (nextInvoke s.invoke) property (some object) with
          | error e =>
              rw [htlv] at hparse
              obtain ⟨hp, rfl, rfl⟩ := hparse
              cases hcase : e.1 with
              | ok => exact absurd hcase hp
              | _ =>
                  dsimp only
                  rw [hcase]
                  exact ⟨rfl, rfl, rfl⟩
          | ok t =>
              rw [htlv] at hparse
              obtain ⟨rfl, rfl⟩ := hparse
              exact ⟨rfl, rfl, rfl⟩

/-! ### One exchange -/

/-- The instance a value names, if it names a device. -/
def Tlv.deviceInstance (t : Tlv) : Option UInt32 :=
  if t.decode.2.type = .objectId ∧ t.decode.2.object.type = .device then
    some t.decode.2.object.inst
  else none

def deviceReply (replies : Replies) (l : Link) : Except ReadFailure UInt32 × Link :=
  match propertyReply ⟨.device, kDeviceWildcard⟩ propObjectIdentifier none replies l with
  | (.error failure, l) => (.error failure, l)
  | (.ok t, l) =>
      match t.deviceInstance with
      | none => (.error { error := .protocol }, l)
      | some device => (.ok device, l)

/-- The results of the properties that were answered one by one. -/
def oneByOne (object : ObjectId) (single : UInt32 → Replies) :
    List UInt32 → Link → Except ReadFailure (List PropertyAnswer)
  | [], _ => .ok []
  | prop :: props, l =>
      match propertyReply object prop none (single prop) l with
      | (.ok t, l) => (oneByOne object single props l).map (⟨object, prop, .value t⟩ :: ·)
      | (.error failure, l) =>
          if required prop then .error failure else oneByOne object single props l

/-- The results of all properties, in one answer or, if that is refused, one by one. -/
def acquired (object : ObjectId) (replies : ExchangeReplies) (l : Link) :
    Except ReadFailure (List PropertyAnswer) :=
  let invoke := nextInvoke l.invoke
  match buildReadPropertyMultiple invoke object.type object.inst props kMaxFrame with
  | none => .error { error := .protocol }
  | some _ =>
      match answerTo replies.multiple invoke kServiceReadPropertyMultiple object l.connected with
      | (.error e, _) => .error { error := e }
      | (.ok frame, connected) =>
          match multipleAnswers frame frame.length invoke 8 (some object) with
          | .ok answers => .ok answers
          | .error (.reject, _) | .error (.error, _) =>
              oneByOne object replies.single props ⟨invoke, connected⟩
          | .error (p, info) => .error (mapBacnetParse p info)

/-- What a device answered in one exchange: its instance and the results. -/
structure Acquired where
  device : UInt32
  answers : List PropertyAnswer
deriving DecidableEq

/-- The reading before any value was looked at. -/
def BacnetReading.ofDevice (device : UInt32) : BacnetReading :=
  { BacnetReading.initial with deviceKnown := true, deviceInstance := device }

/-- The device's answers in one exchange, or the outcome without any. -/
def exchange (cfg : SensorConfig) (replies : ExchangeReplies) (l : Link) :
    Except BacnetReading Acquired :=
  match deviceReply replies.device l with
  | (.error failure, _) => .error (BacnetReading.initial.fail failure)
  | (.ok device, l) =>
      if cfg.bacnetDeviceKnown && device != cfg.bacnetDeviceInstance then
        .error ((BacnetReading.ofDevice device).fail { error := .wrongDevice })
      else
        match acquired (expectedObject cfg) replies l with
        | .error failure => .error ((BacnetReading.ofDevice device).fail failure)
        | .ok answers => .ok ⟨device, answers⟩

lemma readDeviceInstance_eq (replies : Replies) (s : Session) :
    (readDeviceInstance replies s).1 = (deviceReply replies s.link).1 ∧
      (readDeviceInstance replies s).2.link = (deviceReply replies s.link).2 ∧
      (readDeviceInstance replies s).2.values = s.values := by
  obtain ⟨hresult, hlink, hvalues⟩ :=
    readProperty_eq ⟨.device, kDeviceWildcard⟩ propObjectIdentifier none replies s
  rw [readDeviceInstance, deviceReply]
  rcases hread : readProperty ⟨.device, kDeviceWildcard⟩ propObjectIdentifier none replies s
    with ⟨r, s'⟩
  rw [hread] at hresult hlink hvalues
  rcases hreply : propertyReply ⟨.device, kDeviceWildcard⟩ propObjectIdentifier none replies s.link
    with ⟨answer, l'⟩
  rw [hreply] at hresult hlink
  cases answer with
  | error failure =>
      obtain rfl := hresult
      exact ⟨rfl, hlink, hvalues⟩
  | ok t =>
      obtain rfl := hresult
      dsimp only [Except.map]
      rw [Tlv.deviceInstance]
      by_cases hdevice : t.decode.2.type = .objectId ∧ t.decode.2.object.type = .device
      · rw [if_pos hdevice, if_pos hdevice]
        exact ⟨rfl, hlink, hvalues⟩
      · rw [if_neg hdevice, if_neg hdevice]
        exact ⟨rfl, hlink, hvalues⟩

/-- The values read one by one are written over the entries from `count` on. -/
lemma readOneByOne_eq (object : ObjectId) (single : UInt32 → Replies) (props : List UInt32)
    (count : ℕ) (s : Session) (hroom : count + props.length ≤ 8) :
    match oneByOne object single props s.link with
    | .error failure => (readOneByOne object single props count s).1 = .error failure
    | .ok answers => answers.length ≤ props.length ∧
        (readOneByOne object single props count s).1 = .ok (count + answers.length) ∧
        (readOneByOne object single props count s).2.values = storeFrom s.values count answers := by
  induction props generalizing count s with
  | nil => exact ⟨Nat.le_refl _, rfl, rfl⟩
  | cons prop props ih =>
      rw [List.length_cons] at hroom
      obtain ⟨hresult, hlink, hvalues⟩ := readProperty_eq object prop none (single prop) s
      rw [oneByOne, readOneByOne]
      rcases hread : readProperty object prop none (single prop) s with ⟨r, s'⟩
      rw [hread] at hresult hlink hvalues
      rcases hreply : propertyReply object prop none (single prop) s.link with ⟨answer, l'⟩
      rw [hreply] at hresult hlink
      dsimp only at hlink hvalues
      subst hlink
      cases answer with
      | error failure =>
          obtain rfl := hresult
          dsimp only [Except.map]
          by_cases hrequired : required prop
          · rw [if_pos hrequired, if_pos hrequired]
          · rw [if_neg hrequired, if_neg hrequired]
            have hnext := ih count s' (by omega)
            cases hrest : oneByOne object single props s'.link with
            | error failure' =>
                rw [hrest] at hnext
                exact hnext
            | ok answers =>
                rw [hrest] at hnext
                obtain ⟨hle, hcount, hout⟩ := hnext
                rw [hvalues] at hout
                exact ⟨hle.trans (Nat.le_succ _), hcount, hout⟩
      | ok t =>
          obtain rfl := hresult
          have hcount : count < 8 := by omega
          dsimp only [Except.map]
          rw [dif_pos hcount]
          have hnext := ih (count + 1) { s' with
            values := s'.values.set count
              (PropertyAnswer.store ⟨object, prop, .value t⟩ s'.values[count]) } (by omega)
          dsimp only [Session.link, PropertyAnswer.store] at hnext
          cases hrest : oneByOne object single props s'.link with
          | error failure' =>
              rw [Session.link] at hrest
              rw [hrest] at hnext
              exact hnext
          | ok answers =>
              rw [Session.link] at hrest
              rw [hrest] at hnext
              obtain ⟨hle, hlength, hout⟩ := hnext
              dsimp only
              rw [List.length_cons, List.length_cons, storeFrom, dif_pos hcount]
              refine ⟨by omega, ?_, ?_⟩
              · rw [hlength]
                congr 1
                omega
              · rw [hout, hvalues]
                rfl

/-- The values read are the results, each written over its entry. -/
lemma acquireValues_eq (object : ObjectId) (replies : ExchangeReplies) (s : Session) :
    match acquired object replies s.link with
    | .error failure => (acquireValues object replies s).1 = .error failure
    | .ok answers => answers.length ≤ 8 ∧
        (acquireValues object replies s).1 = .ok answers.length ∧
        (acquireValues object replies s).2.values = storeFrom s.values 0 answers := by
  rw [acquired, acquireValues]
  dsimp only [Session.link]
  cases buildReadPropertyMultiple (nextInvoke s.invoke) object.type object.inst props kMaxFrame with
  | none => rfl
  | some frame =>
      dsimp only
      obtain ⟨rx, hstate, hresult⟩ := request_eq replies.multiple (nextInvoke s.invoke)
        kServiceReadPropertyMultiple object { s with invoke := nextInvoke s.invoke }
      rcases hrequest : request replies.multiple (nextInvoke s.invoke) kServiceReadPropertyMultiple
        object { s with invoke := nextInvoke s.invoke } with ⟨r, s'⟩
      rw [hrequest] at hstate hresult
      dsimp only at hstate hresult
      rcases hanswer : answerTo replies.multiple (nextInvoke s.invoke) kServiceReadPropertyMultiple
        object s.connected with ⟨answer, connected⟩
      rw [hanswer] at hstate hresult
      subst hstate
      cases answer with
      | error e =>
          obtain rfl := hresult
          rfl
      | ok frame =>
          obtain ⟨rfl, hsame⟩ := hresult
          dsimp only
          have hparse := parseReadPropertyMultipleAck_eq rx frame.length (nextInvoke s.invoke)
            s.values (some object)
          have hrefused := parseReadPropertyMultipleAck_refused rx frame.length
            (nextInvoke s.invoke) s.values (some object)
          rw [multipleAnswers_congr hsame] at hparse
          generalize parseReadPropertyMultipleAck rx frame.length (nextInvoke s.invoke) s.values
            (some object) = ack at hparse hrefused
          cases hanswers : multipleAnswers frame frame.length (nextInvoke s.invoke) 8 (some object) with
          | ok answers =>
              rw [hanswers] at hparse
              obtain ⟨hle, hok, hcount, hout⟩ := hparse
              rw [hok]
              exact ⟨hle, congrArg Except.ok hcount, hout⟩
          | error e =>
              rw [hanswers] at hparse
              obtain ⟨hne, hp, herr⟩ := hparse
              -- a refusal or an error is followed by the properties one by one
              have hsingle : ∀ h : ack.parse = .reject ∨ ack.parse = .error,
                  match oneByOne object replies.single props ⟨nextInvoke s.invoke, connected⟩ with
                  | .error failure => (readOneByOne object replies.single props 0
                      { rx, values := ack.out, invoke := nextInvoke s.invoke, connected }).1
                        = .error failure
                  | .ok answers => answers.length ≤ 8 ∧
                      (readOneByOne object replies.single props 0
                        { rx, values := ack.out, invoke := nextInvoke s.invoke, connected }).1
                        = .ok answers.length ∧
                      (readOneByOne object replies.single props 0
                        { rx, values := ack.out, invoke := nextInvoke s.invoke, connected }).2.values
                        = storeFrom s.values 0 answers := by
                intro h
                have hone := readOneByOne_eq object replies.single props 0
                  { rx, values := ack.out, invoke := nextInvoke s.invoke, connected } (by decide)
                dsimp only [Session.link] at hone
                cases hanswers : oneByOne object replies.single props
                    ⟨nextInvoke s.invoke, connected⟩ with
                | error failure =>
                    rw [hanswers] at hone
                    exact hone
                | ok answers =>
                    rw [hanswers] at hone
                    obtain ⟨hle, hcount, hout⟩ := hone
                    rw [Nat.zero_add] at hcount
                    rw [hrefused h] at hout hcount ⊢
                    exact ⟨hle.trans (by decide), hcount, hout⟩
              obtain ⟨p, info⟩ := e
              dsimp only at hne hp herr
              subst hp herr
              cases hcase : ack.parse with
              | ok => exact absurd hcase hne
              | reject => exact hsingle (.inl hcase)
              | error => exact hsingle (.inr hcase)
              | _ => rfl

/-- A reading is judged by the results of the exchange, written over what the
worker's array held before. -/
theorem bacnetReadValue_eq (ops : FloatOps) (cfg : SensorConfig) (replies : ExchangeReplies)
    (s : Session) : (bacnetReadValue ops cfg replies s).1 =
      match exchange cfg replies s.link with
      | .error r => r
      | .ok a => judge ops ((List.zipWith PropertyAnswer.store a.answers s.values.toList).foldl
          gatherEntry { reading := BacnetReading.ofDevice a.device }) := by
  obtain ⟨hresult, hlink, hvalues⟩ := readDeviceInstance_eq replies.device s
  rw [bacnetReadValue, exchange]
  rcases hread : readDeviceInstance replies.device s with ⟨r, s'⟩
  rw [hread] at hresult hlink hvalues
  rcases hreply : deviceReply replies.device s.link with ⟨answer, l'⟩
  rw [hreply] at hresult hlink
  dsimp only at hresult hlink hvalues
  subst hresult hlink
  cases r with
  | error failure => rfl
  | ok device =>
      dsimp only
      by_cases hwrong : cfg.bacnetDeviceKnown && device != cfg.bacnetDeviceInstance
      · rw [if_pos hwrong, if_pos hwrong]
        rfl
      · rw [if_neg hwrong, if_neg hwrong]
        have hacquire := acquireValues_eq (expectedObject cfg) replies s'
        rcases hvaluesRead : acquireValues (expectedObject cfg) replies s' with ⟨r, s''⟩
        rw [hvaluesRead] at hacquire
        cases hanswers : acquired (expectedObject cfg) replies s'.link with
        | error failure =>
            rw [hanswers] at hacquire
            obtain rfl := hacquire
            rfl
        | ok answers =>
            rw [hanswers] at hacquire
            obtain ⟨hle, hcount, hout⟩ := hacquire
            dsimp only at hcount hout
            subst hcount
            dsimp only
            rw [hout, hvalues, toList_storeFrom_take _ _ hle]
            rfl

end Bacnet

end ArcticController

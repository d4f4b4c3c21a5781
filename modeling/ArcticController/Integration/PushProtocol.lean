/-
The push task keeps its protocol with every connection, over every interleaving with the
server, as long as no frame goes to a socket number that was handed on within the cycle.

* `HelloFirst`, `PushProtocol`: what is to hold;
* `socketsStay`, `idsFresh`, `revisionsFit`: the conditions on a step;
* `TableKept`, `CopyKept`, `FramesKept`, `ProgressKept`: the table, the copies of it, the
  frames and how far each client is, put together in `PushKept`;
* `push_protocol_kept`: the protocol is kept;
* `reused_socket_confused`: a socket number that is reused within a cycle breaks it.
-/
import ArcticController.Integration.HaWebsocket
import ArcticController.Integration.Revisions

namespace ArcticController

/-! ### What is to hold -/

/-- The snapshots that follow a hello and its snapshot. -/
def Greeted (frames : List PushFrame) : Prop :=
  ∃ revision revisions, frames = .hello revision :: .snapshot revision :: revisions.map .snapshot ∧
    (revision :: revisions).Pairwise (· ≤ ·)

/-- One hello, the snapshot with its revision, snapshots of no smaller revision, or a
beginning of this. -/
def HelloFirst (frames : List PushFrame) : Prop :=
  frames = [] ∨ (∃ revision, frames = [.hello revision]) ∨ Greeted frames

/-- The text frames a connection received. -/
def HaWebsocket.received (s : HaWebsocket) (conn : ℕ) : List PushFrame :=
  (s.sent.filter fun f => f.receiver = conn ∧ f.frame ≠ .ping).map (·.frame)

/-- The protocol of the push task with every connection. -/
structure PushProtocol (s : HaWebsocket) : Prop where
  order : ∀ conn, HelloFirst (s.received conn)
  meant : ∀ f ∈ s.sent, f.receiver = f.meant
  current : ∀ f ∈ s.sent, ∀ revision, f.frame = .snapshot revision →
    s.authGenerationOf f.receiver = some f.checked
  completed : ∀ cycle revision, s.push = .delaying (some (cycle, revision)) →
    ∀ c ∈ cycle.eligible, ∀ client ∈ s.clients, client.active = true → client.conn = c.conn →
      client.lastRevision = revision

/-! ### The conditions -/

/-- The client the next step of the push task sends a frame to. -/
def PushTask.sendsTo : PushTask → Option (PushCycle × WsClient)
  | .checking cycle (client :: _) =>
      if cycle.refuses client then none
      else if cycle.pingDue client then some (cycle, client)
      else none
  | .pushing cycle messages (client :: _) =>
      if client.initialPending then
        if messages.hello then some (cycle, client) else none
      else if cycle.snapshotDue messages client then
        if messages.message then some (cycle, client) else none
      else none
  | .greeted cycle messages client _ => if messages.message then some (cycle, client) else none
  | _ => none

/-- The clients a cycle has copied and not finished with: the one it is sending to, and
those that wait for it. -/
def PushTask.serving : PushTask → Option WsClient
  | .greeted _ _ client _ => some client
  | .pushed _ _ client _ _ _ => some client
  | .sendFailed _ _ client _ => some client
  | _ => none

def PushTask.waiting : PushTask → List WsClient
  | .copied _ clients => clients
  | .checking cycle rest => cycle.eligible ++ rest
  | .pinged cycle client rest => cycle.eligible ++ client :: rest
  | .pingFailed cycle client rest => cycle.eligible ++ client :: rest
  | .pushing _ _ rest => rest
  | .greeted _ _ _ rest => rest
  | .pushed _ _ _ rest _ _ => rest
  | .sendFailed _ _ _ rest => rest
  | _ => []

def PushTask.copies (t : PushTask) : List WsClient := t.serving.toList ++ t.waiting

namespace HaWebsocket

variable (s : HaWebsocket)

/-- A frame that is about to reach a socket finds no connection there whose handshake was
done after the cycle had copied the table. -/
def socketsStay : WsAction → Bool
  | .push input =>
      match s.push.sendsTo with
      | some (cycle, client) =>
          ! input.send.reaches || match s.sessions client.fd with
            | some (.websocket conn) => conn < cycle.copiedAt
            | _ => true
      | none => true
  | _ => true

/-- A client that is registered does not get the id of one with its socket number that
the cycle has copied. -/
def idsFresh : WsAction → Bool
  | .register _ =>
      match s.handshake with
      | .validated fd _ _ =>
          s.push.copies.all fun c => c.fd ≠ fd || c.connectionId ≠ s.nextConnectionId
      | _ => true
  | _ => true

/-- The revisions are numbers that a `double` holds. -/
def revisionsFit : WsAction → Bool
  | .push _ => s.revisions.revision.toNat + 1 < 2 ^ 53
  | .revise _ => s.revisions.revision.toNat + 1 < 2 ^ 53
  | _ => true

def steady (action : WsAction) : Bool :=
  s.socketsStay action && s.idsFresh action && s.revisionsFit action

/-- Every step of a run meets the conditions. -/
def steadyRun (s : HaWebsocket) : List WsAction → Bool
  | [] => true
  | action :: actions => s.steady action && (s.step action).steadyRun actions

end HaWebsocket

/-! ### The invariant -/

/-- What a client keeps from its registration on. -/
def WsClient.identity (c : WsClient) : ℤ × UInt32 × UInt32 × ℕ :=
  (c.fd, c.connectionId, c.authGeneration, c.conn)

/-- How far the push task is with a client. -/
def WsClient.progress (c : WsClient) : Bool × ℕ := (c.initialPending, c.lastRevision)

/-- The frames received are those the client stands for. -/
def WsClient.Follows (c : WsClient) (frames : List PushFrame) : Prop :=
  if c.initialPending then frames = [] else Greeted frames

/-- The socket and the connection of a handshake past the switch of protocols. -/
def WsHandshake.upgraded : WsHandshake → Option (ℤ × ℕ)
  | .switched fd conn => some (fd, conn)
  | .validated fd conn _ => some (fd, conn)
  | _ => none

def PushTask.copiedAt : PushTask → ℕ
  | .copied copiedAt _ => copiedAt
  | .checking cycle _ => cycle.copiedAt
  | .pinged cycle _ _ => cycle.copiedAt
  | .pingFailed cycle _ _ => cycle.copiedAt
  | .pushing cycle _ _ => cycle.copiedAt
  | .greeted cycle _ _ _ => cycle.copiedAt
  | .pushed cycle _ _ _ _ _ => cycle.copiedAt
  | .sendFailed cycle _ _ _ => cycle.copiedAt
  | _ => 0

/-- The cycle of the push task and, once there is one, the revision it sends. -/
def PushTask.cycle : PushTask → Option PushCycle
  | .checking cycle _ => some cycle
  | .pinged cycle _ _ => some cycle
  | .pingFailed cycle _ _ => some cycle
  | .pushing cycle _ _ => some cycle
  | .greeted cycle _ _ _ => some cycle
  | .pushed cycle _ _ _ _ _ => some cycle
  | .sendFailed cycle _ _ _ => some cycle
  | _ => none

def PushTask.revision : PushTask → Option ℕ
  | .pushing _ messages _ => some messages.revision
  | .greeted _ messages _ _ => some messages.revision
  | .pushed _ messages _ _ _ _ => some messages.revision
  | .sendFailed _ messages _ _ => some messages.revision
  | _ => none

/-- The cycle that sends a revision, up to its completion. -/
def PushTask.served : PushTask → Option (PushCycle × ℕ)
  | .pushing cycle messages _ => some (cycle, messages.revision)
  | .greeted cycle messages _ _ => some (cycle, messages.revision)
  | .pushed cycle messages _ _ _ _ => some (cycle, messages.revision)
  | .sendFailed cycle messages _ _ => some (cycle, messages.revision)
  | .delaying completed => completed
  | _ => none

def PushFrame.revision : PushFrame → Option ℕ
  | .ping => none
  | .hello revision => some revision
  | .snapshot revision => some revision

namespace HaWebsocket

def registered (s : HaWebsocket) : List WsClient := s.clients.filter (·.active)

/-- The table, the sockets and the handshake under way. -/
structure TableKept (s : HaWebsocket) : Prop where
  connected : ∀ e ∈ s.registered, e.conn < s.handshakes
  own : ∀ e ∈ s.registered, ∀ conn, s.sessions e.fd = some (.websocket conn) → conn = e.conn
  distinct : s.clients.Pairwise fun a b => a.active = true → b.active = true →
    a.fd ≠ b.fd ∧ a.conn ≠ b.conn
  generation : ∀ e ∈ s.registered, s.authGenerationOf e.conn = some e.authGeneration
  checked : ∀ fd, s.handshake = .checked fd → ∀ e ∈ s.registered, e.fd ≠ fd
  upgraded : ∀ fd conn, s.handshake.upgraded = some (fd, conn) → conn < s.handshakes ∧
    (∀ conn', s.sessions fd = some (.websocket conn') → conn' = conn) ∧
    ∀ e ∈ s.registered, e.fd ≠ fd ∧ e.conn ≠ conn

/-- A copied client: its socket, unless a later handshake got it, and its slot, unless it
was cleared, are still its own. -/
structure CopyKept (s : HaWebsocket) (copiedAt : ℕ) (c : WsClient) : Prop where
  copiedAt_le : copiedAt ≤ s.handshakes
  connected : c.conn < s.handshakes
  socket : ∀ conn < copiedAt, s.sessions c.fd = some (.websocket conn) → conn = c.conn
  slot : ∀ e ∈ s.registered, (e.fd = c.fd ∧ e.connectionId = c.connectionId) ↔ e.conn = c.conn
  generation : s.authGenerationOf c.conn = some c.authGeneration
  upgraded : ∀ fd conn, s.handshake.upgraded = some (fd, conn) → c.conn ≠ conn

/-- The largest revision that may have been sent. -/
def bound (s : HaWebsocket) (t : PushTask) : ℕ := t.revision.getD (asDouble s.revisions.revision)

/-- What the frames say of the client that is being served. -/
def StageKept (s : HaWebsocket) : PushTask → Prop
  | .pinged cycle c _ => c.authGeneration = cycle.authGeneration
  | .greeted _ messages c _ => c.initialPending = true ∧
      s.received c.conn = [.hello messages.revision] ∧
      ∀ e ∈ s.registered, e.conn = c.conn → e.progress = c.progress
  | .pushed _ messages c _ initialCompleted snapshotSent => Greeted (s.received c.conn) ∧
      (initialCompleted = false → c.initialPending = false) ∧
      (snapshotSent = false → c.lastRevision = messages.revision) ∧
      ∀ e ∈ s.registered, e.conn = c.conn → e.progress = c.progress
  | _ => True

lemma StageKept.congr {s s' : HaWebsocket} {t : PushTask} (h : s.StageKept t)
    (hreceived : s'.received = s.received)
    (hprogress : ∀ c ∈ t.serving, (∀ e ∈ s.registered, e.conn = c.conn → e.progress = c.progress) →
      ∀ e ∈ s'.registered, e.conn = c.conn → e.progress = c.progress) : s'.StageKept t := by
  cases t with
  | pinged => exact h
  | greeted => exact ⟨h.1, by rw [hreceived]; exact h.2.1, hprogress _ rfl h.2.2⟩
  | pushed =>
      exact ⟨by rw [hreceived]; exact h.1, h.2.1, h.2.2.1, hprogress _ rfl h.2.2.2⟩
  | _ => trivial

/-- The clients of the cycle that sends a revision: those it has finished with hold it. -/
structure ServedKept (s : HaWebsocket) (t : PushTask) (cycle : PushCycle) (revision : ℕ) :
    Prop where
  copies : ∀ c ∈ t.copies, c ∈ cycle.eligible
  connected : ∀ c ∈ cycle.eligible, c.conn < s.handshakes
  upgraded : ∀ c ∈ cycle.eligible, ∀ fd conn, s.handshake.upgraded = some (fd, conn) →
    c.conn ≠ conn
  handled : ∀ c ∈ cycle.eligible, c ∈ t.copies ∨
    ∀ e ∈ s.registered, e.conn = c.conn → e.lastRevision = revision

lemma ServedKept.congr {s s' : HaWebsocket} {t t' : PushTask} {cycle : PushCycle} {revision : ℕ}
    (h : s.ServedKept t cycle revision) (hcopies : t'.copies = t.copies)
    (hhandshakes : s'.handshakes = s.handshakes) (hhandshake : s'.handshake = s.handshake)
    (hregistered : s'.registered = s.registered) : s'.ServedKept t' cycle revision where
  copies := by
    rw [hcopies]
    exact h.copies
  connected := by
    rw [hhandshakes]
    exact h.connected
  upgraded := by
    rw [hhandshake]
    exact h.upgraded
  handled := by
    rw [hcopies, hregistered]
    exact h.handled

/-- The invariant, with the push task at `t`. -/
structure PushKept (s : HaWebsocket) (t : PushTask) : Prop where
  table : s.TableKept
  copies : ∀ c ∈ t.copies, s.CopyKept t.copiedAt c
  apart : t.copies.Pairwise fun a b => a.conn ≠ b.conn
  eligible : ∀ cycle, t.cycle = some cycle → ∀ c ∈ cycle.eligible,
    c.authGeneration = cycle.authGeneration
  served : ∀ cycle revision, t.served = some (cycle, revision) → s.ServedKept t cycle revision
  waiting : ∀ c ∈ t.waiting, c.Follows (s.received c.conn) ∧
    ∀ e ∈ s.registered, e.conn = c.conn → e.progress = c.progress
  others : ∀ e ∈ s.registered, (∀ c ∈ t.serving, e.conn ≠ c.conn) → e.Follows (s.received e.conn)
  stage : s.StageKept t
  order : ∀ conn, HelloFirst (s.received conn)
  meant : ∀ f ∈ s.sent, f.receiver = f.meant
  current : ∀ f ∈ s.sent, ∀ revision, f.frame = .snapshot revision →
    s.authGenerationOf f.receiver = some f.checked
  known : ∀ f ∈ s.sent, f.receiver < s.handshakes
  upgraded : ∀ fd conn, s.handshake.upgraded = some (fd, conn) → s.received conn = []
  bounded : ∀ f ∈ s.sent, ∀ revision, f.frame.revision = some revision → revision ≤ s.bound t
  newest : ∀ revision, t.revision = some revision → revision ≤ asDouble s.revisions.revision

/-! ### The table -/

section Table

variable {s : HaWebsocket} {t : PushTask}

variable {e : WsClient} {R : WsClient → WsClient → Prop}

lemma mem_registered : e ∈ s.registered ↔ e ∈ s.clients ∧ e.active = true :=
  List.mem_filter

/-- Two registered clients with one socket number or one connection are one. -/
lemma TableKept.eq_of_mem (h : s.TableKept) {a b : WsClient} (ha : a ∈ s.registered)
    (hb : b ∈ s.registered) (hsame : a.fd = b.fd ∨ a.conn = b.conn) : a = b := by
  obtain ⟨ha, hactive⟩ := mem_registered.mp ha
  obtain ⟨hb, hactive'⟩ := mem_registered.mp hb
  by_contra hne
  have hsymm : Std.Symm fun a b : WsClient => a.active = true → b.active = true →
      a.fd ≠ b.fd ∧ a.conn ≠ b.conn :=
    ⟨fun _ _ hab hb ha => ⟨(hab ha hb).1.symm, (hab ha hb).2.symm⟩⟩
  obtain ⟨hfd, hconn⟩ := h.distinct.forall ha hb hne hactive hactive'
  rcases hsame with hsame | hsame
  · exact hfd hsame
  · exact hconn hsame

/-- A slot that is cleared, or keeps what tells its client from others. -/
def Trimmed (old new : WsClient) : Prop :=
  new.active = true → old.active = true ∧ new.identity = old.identity

/-- A slot that is cleared, or keeps what matters of its client. -/
def Unmoved (old new : WsClient) : Prop :=
  new.active = true → old.active = true ∧ new.identity = old.identity ∧ new.progress = old.progress

lemma Unmoved.refl (c : WsClient) : Unmoved c c := fun h => ⟨h, rfl, rfl⟩

lemma Unmoved.cleared (c : WsClient) : Unmoved c {} := nofun

lemma Unmoved.trimmed {old new : WsClient} (h : Unmoved old new) : Trimmed old new :=
  fun hactive => ⟨(h hactive).1, (h hactive).2.1⟩

variable {clients : List WsClient}

/-- Where a registered client comes from. -/
lemma registered_of_slots (h : List.Forall₂ R s.clients clients)
    (he : e ∈ registered { s with clients }) : ∃ old ∈ s.clients, R old e ∧ e.active = true := by
  obtain ⟨hmem, hactive⟩ := mem_registered.mp he
  obtain ⟨old, hold, hR⟩ := exists_of_forall₂ h hmem
  exact ⟨old, hold, hR, hactive⟩

lemma trimmed_registered (h : List.Forall₂ Trimmed s.clients clients)
    (he : e ∈ registered { s with clients }) : ∃ old ∈ s.registered, e.fd = old.fd ∧
      e.connectionId = old.connectionId ∧ e.authGeneration = old.authGeneration ∧
      e.conn = old.conn := by
  obtain ⟨old, hold, hR, hactive⟩ := registered_of_slots h he
  obtain ⟨hactive', hidentity⟩ := hR hactive
  obtain ⟨hfd, hid, hgeneration, hconn⟩ := by simpa [WsClient.identity] using hidentity
  exact ⟨old, mem_registered.mpr ⟨hold, hactive'⟩, hfd, hid, hgeneration, hconn⟩

lemma TableKept.trimmed (h : s.TableKept) (hslots : List.Forall₂ Trimmed s.clients clients) :
    TableKept { s with clients } where
  connected e he := by
    obtain ⟨old, hold, -, -, -, hconn⟩ := trimmed_registered hslots he
    rw [hconn]
    exact h.connected old hold
  own e he conn hsession := by
    obtain ⟨old, hold, hfd, -, -, hconn⟩ := trimmed_registered hslots he
    rw [hconn]
    exact h.own old hold conn (by rw [← hfd]; exact hsession)
  distinct := by
    refine pairwise_of_forall₂ hslots ?_ h.distinct
    intro a a' b b' hab hab' hapart hactive hactive'
    obtain ⟨ha, hidentity⟩ := hab hactive
    obtain ⟨ha', hidentity'⟩ := hab' hactive'
    obtain ⟨hfd, hid, hgeneration, hconn⟩ := by simpa [WsClient.identity] using hidentity
    obtain ⟨hfd', hid', hgeneration', hconn'⟩ := by simpa [WsClient.identity] using hidentity'
    rw [hfd, hfd', hconn, hconn']
    exact hapart ha ha'
  generation e he := by
    obtain ⟨old, hold, -, -, hgeneration, hconn⟩ := trimmed_registered hslots he
    rw [hconn, hgeneration]
    exact h.generation old hold
  checked fd hchecked e he := by
    obtain ⟨old, hold, hfd, -⟩ := trimmed_registered hslots he
    rw [hfd]
    exact h.checked fd hchecked old hold
  upgraded fd conn hupgraded := by
    obtain ⟨hlt, hsession, hothers⟩ := h.upgraded fd conn hupgraded
    refine ⟨hlt, hsession, fun e he => ?_⟩
    obtain ⟨old, hold, hfd, -, -, hconn⟩ := trimmed_registered hslots he
    rw [hfd, hconn]
    exact hothers old hold

lemma CopyKept.trimmed {copiedAt : ℕ} {c : WsClient} (h : s.CopyKept copiedAt c)
    (hslots : List.Forall₂ Trimmed s.clients clients) : CopyKept { s with clients } copiedAt c where
  copiedAt_le := h.copiedAt_le
  connected := h.connected
  socket := h.socket
  slot e he := by
    obtain ⟨old, hold, hfd, hid, -, hconn⟩ := trimmed_registered hslots he
    rw [hfd, hid, hconn]
    exact h.slot old hold
  generation := h.generation
  upgraded := h.upgraded

/-- A client of the table that is left has the progress it had. -/
lemma unmoved_registered (h : List.Forall₂ Unmoved s.clients clients)
    (he : e ∈ registered { s with clients }) :
    ∃ old ∈ s.registered, e.conn = old.conn ∧ e.progress = old.progress := by
  obtain ⟨old, hold, hR, hactive⟩ := registered_of_slots h he
  obtain ⟨hactive', hidentity, hprogress⟩ := hR hactive
  obtain ⟨-, -, -, hconn⟩ := by simpa [WsClient.identity] using hidentity
  exact ⟨old, mem_registered.mpr ⟨hold, hactive'⟩, hconn, hprogress⟩

lemma follows_of_progress {old : WsClient} {frames : List PushFrame} (h : e.progress = old.progress)
    (hold : old.Follows frames) : e.Follows frames := by
  rw [WsClient.Follows, (Prod.mk.inj h).1]
  exact hold

/-- Clearing slots and what else leaves the progress alone keeps the invariant. -/
lemma PushKept.unmoved (h : s.PushKept t) (hslots : List.Forall₂ Unmoved s.clients clients) :
    PushKept { s with clients } t := by
  have htrimmed : List.Forall₂ Trimmed s.clients clients := hslots.imp fun _ _ => Unmoved.trimmed
  have hprogress : ∀ c : WsClient, (∀ e ∈ s.registered, e.conn = c.conn → e.progress = c.progress) →
      ∀ e ∈ registered { s with clients }, e.conn = c.conn → e.progress = c.progress := by
    intro c hc e he hconn
    obtain ⟨old, hold, hconn', hprogress⟩ := unmoved_registered hslots he
    rw [hprogress]
    exact hc old hold (hconn'.symm.trans hconn)
  exact
    { h with
      table := h.table.trimmed htrimmed
      copies := fun c hc => (h.copies c hc).trimmed htrimmed
      served := fun cycle revision hserved => by
        have hkept := h.served cycle revision hserved
        refine ⟨hkept.copies, hkept.connected, hkept.upgraded,
          fun c hc => (hkept.handled c hc).imp_right fun hall e he hconn => ?_⟩
        obtain ⟨old, hold, hconn', hprogress⟩ := unmoved_registered hslots he
        rw [(Prod.mk.inj hprogress).2]
        exact hall old hold (hconn'.symm.trans hconn)
      waiting := fun c hc => ⟨(h.waiting c hc).1, hprogress c (h.waiting c hc).2⟩
      others := fun e he hserving => by
        obtain ⟨old, hold, hconn, hprogress⟩ := unmoved_registered hslots he
        rw [hconn] at hserving
        have hfollows := follows_of_progress hprogress (h.others old hold hserving)
        rw [← hconn] at hfollows
        exact hfollows
      stage := h.stage.congr rfl fun c _ => hprogress c }

/-- Slots of the table that are changed one at a time, or all that fit. -/
lemma changeFirst_slots (hrefl : ∀ c, R c c) (p : WsClient → Bool) (f : WsClient → WsClient)
    (hf : ∀ c, R c (f c)) (slots : List WsClient) :
    List.Forall₂ R slots (changeFirst p f slots) := by
  refine (changeFirst_forall₂ p f slots).imp fun old new hnew => ?_
  rcases hnew with rfl | ⟨-, rfl⟩
  · exact hrefl _
  · exact hf _

lemma map_slots (f : WsClient → WsClient) (hf : ∀ c, R c (f c)) (slots : List WsClient) :
    List.Forall₂ R slots (slots.map f) :=
  List.forall₂_map_right_iff.mpr (List.forall₂_same.mpr fun c _ => hf c)

lemma PushKept.closeClient (h : s.PushKept t) (c : WsClient) : (s.closeClient c).PushKept t :=
  h.unmoved (changeFirst_slots Unmoved.refl _ _ Unmoved.cleared _)

lemma PushKept.removeClientByFd (h : s.PushKept t) (fd : ℤ) : (s.removeClientByFd fd).PushKept t :=
  h.unmoved (changeFirst_slots Unmoved.refl _ _ Unmoved.cleared _)

lemma PushKept.notePong (h : s.PushKept t) (fd nowUs : ℤ) : (s.notePong fd nowUs).PushKept t := by
  refine h.unmoved (changeFirst_slots Unmoved.refl _ _ ?_ _)
  exact fun _ hactive => ⟨hactive, rfl, rfl⟩

lemma PushKept.closeAllClients (h : s.PushKept t) : s.closeAllClients.PushKept t := by
  refine h.unmoved (map_slots _ (fun c => ?_) _)
  split
  · exact Unmoved.cleared c
  · exact Unmoved.refl c

lemma PushKept.activeClientCount (h : s.PushKept t) : s.activeClientCount.2.PushKept t := by
  refine h.unmoved (map_slots _ (fun c => ?_) _)
  split
  · exact Unmoved.refl c
  · split
    · exact Unmoved.cleared c
    · exact Unmoved.refl c

/-- At most one slot holds the client of a copy. -/
lemma isCopyOf_only (h : s.TableKept) (c : WsClient) : s.clients.Pairwise fun a b =>
    isCopyOf c a = true → isCopyOf c b = true → False := by
  refine h.distinct.imp fun hapart ha hb => ?_
  obtain ⟨hactive, hfd, -⟩ := of_decide_eq_true ha
  obtain ⟨hactive', hfd', -⟩ := of_decide_eq_true hb
  exact (hapart hactive hactive').1 (hfd.trans hfd'.symm)

/-- A registered client is the one of a copy if it is of the same connection. -/
lemma CopyKept.isCopyOf {copiedAt : ℕ} {c : WsClient} (h : s.CopyKept copiedAt c)
    (he : e ∈ s.registered) : HaWebsocket.isCopyOf c e = true ↔ e.conn = c.conn := by
  rw [← h.slot e he, HaWebsocket.isCopyOf, decide_eq_true_iff]
  exact ⟨fun hcopy => hcopy.2, fun hsame => ⟨(mem_registered.mp he).2, hsame⟩⟩

/-- A client that was closed is not registered any more. -/
lemma closeClient_gone (h : s.PushKept t) {c : WsClient} (hc : c ∈ t.copies) :
    ∀ e ∈ (s.closeClient c).registered, e.conn ≠ c.conn := by
  intro e he hconn
  obtain ⟨hmem, hactive⟩ := mem_registered.mp he
  rcases mem_changeFirst (isCopyOf_only h.table c) hmem with ⟨hold, hnot⟩ | ⟨old, -, -, rfl⟩
  · have hcopy := ((h.copies c hc).isCopyOf (mem_registered.mpr ⟨hold, hactive⟩)).mpr hconn
    rw [hnot] at hcopy
    cases hcopy
  · cases hactive

end Table

/-! ### The frames -/

section Frames

variable {s : HaWebsocket} {t t' : PushTask} {c : WsClient}

/-- The log with one more frame, which reached the connection it was meant for. -/
def reached (s : HaWebsocket) (cycle : PushCycle) (c : WsClient) (frame : PushFrame) : HaWebsocket :=
  { s with sent := s.sent ++ [⟨frame, c.conn, c.conn, cycle.authGeneration⟩] }

lemma received_ping (cycle : PushCycle) (conn : ℕ) :
    (s.reached cycle c .ping).received conn = s.received conn := by
  simp [received, reached, List.filter_append]

lemma received_self (cycle : PushCycle) (frame : PushFrame) (htext : frame ≠ .ping) :
    (s.reached cycle c frame).received c.conn = s.received c.conn ++ [frame] := by
  simp [received, reached, List.filter_append, htext]

lemma received_other (cycle : PushCycle) (frame : PushFrame) {conn : ℕ} (hne : conn ≠ c.conn) :
    (s.reached cycle c frame).received conn = s.received conn := by
  simp [received, reached, List.filter_append, hne.symm]

/-- A frame that a connection received is in the log. -/
lemma mem_received {conn : ℕ} {frame : PushFrame} (h : frame ∈ s.received conn) :
    ∃ f ∈ s.sent, f.frame = frame ∧ f.receiver = conn := by
  obtain ⟨f, hf, rfl⟩ := List.mem_map.mp h
  obtain ⟨hmem, hboth⟩ := List.mem_filter.mp hf
  exact ⟨f, hmem, rfl, (of_decide_eq_true hboth).1⟩

/-- One more snapshot, of no smaller revision than anything before. -/
lemma Greeted.snapshot {frames : List PushFrame} (h : Greeted frames) {revision : ℕ}
    (hle : ∀ frame ∈ frames, ∀ r, frame.revision = some r → r ≤ revision) :
    Greeted (frames ++ [.snapshot revision]) := by
  obtain ⟨first, revisions, rfl, hsorted⟩ := h
  refine ⟨first, revisions ++ [revision], by simp, ?_⟩
  rw [← List.cons_append]
  refine List.pairwise_append.mpr ⟨hsorted, List.pairwise_singleton _ _, ?_⟩
  intro r hr r' hr'
  rw [List.mem_singleton.mp hr']
  rcases List.mem_cons.mp hr with rfl | hr
  · exact hle _ List.mem_cons_self _ rfl
  · exact hle (.snapshot r) (by simp [hr]) _ rfl

/-- The snapshot after the hello. -/
lemma Greeted.first (revision : ℕ) : Greeted ([.hello revision] ++ [.snapshot revision]) :=
  ⟨revision, [], rfl, List.pairwise_singleton _ _⟩

/-- A ping is no text frame. -/
lemma PushKept.pings (h : s.PushKept t) (hc : c ∈ t.copies) (cycle : PushCycle) :
    (s.reached cycle c .ping).PushKept t := by
  have hreceived : (s.reached cycle c .ping).received = s.received :=
    funext fun conn => received_ping cycle conn
  exact
    { h with
      table := { h.table with }
      copies := fun c' hc' => { h.copies c' hc' with }
      served := fun cycle revision hserved => (h.served cycle revision hserved).congr rfl rfl rfl rfl
      waiting := fun c' hc' => by
        rw [hreceived]
        exact h.waiting c' hc'
      others := fun e he hserving => by
        rw [hreceived]
        exact h.others e he hserving
      stage := h.stage.congr hreceived fun _ _ h => h
      order := by
        rw [hreceived]
        exact h.order
      meant := fun f hf => by
        rcases List.mem_append.mp hf with hf | hf
        · exact h.meant f hf
        · rw [List.mem_singleton.mp hf]
      current := fun f hf revision hframe => by
        rcases List.mem_append.mp hf with hf | hf
        · exact h.current f hf revision hframe
        · rw [List.mem_singleton.mp hf] at hframe
          cases hframe
      known := fun f hf => by
        rcases List.mem_append.mp hf with hf | hf
        · exact h.known f hf
        · rw [List.mem_singleton.mp hf]
          exact (h.copies c hc).connected
      upgraded := by
        rw [hreceived]
        exact h.upgraded
      bounded := fun f hf revision hrevision => by
        rcases List.mem_append.mp hf with hf | hf
        · exact h.bounded f hf revision hrevision
        · rw [List.mem_singleton.mp hf] at hrevision
          cases hrevision }

/-- The push task is to send to a client, or has, with others that wait behind it. -/
structure ServesAt (t : PushTask) (cycle : PushCycle) (messages : PushMessages) (c : WsClient)
    (rest : List WsClient) : Prop where
  copies : t.copies = c :: rest
  copiedAt : t.copiedAt = cycle.copiedAt
  inCycle : t.cycle = some cycle
  served : t.served = some (cycle, messages.revision)
  revision : t.revision = some messages.revision
  serving : t.serving = none ∨ t.serving = some c

section At

variable {cycle : PushCycle} {messages : PushMessages} {rest : List WsClient}

lemma ServesAt.mem (hat : ServesAt t cycle messages c rest) : c ∈ t.copies := by
  rw [hat.copies]
  exact List.mem_cons_self

lemma ServesAt.waiting (hat : ServesAt t cycle messages c rest) : rest ⊆ t.waiting := by
  have hcopies := hat.copies
  rcases hat.serving with hserving | hserving
  · rw [PushTask.copies, hserving] at hcopies
    rw [show t.waiting = c :: rest from hcopies]
    exact List.subset_cons_self c rest
  · rw [PushTask.copies, hserving] at hcopies
    rw [show t.waiting = rest from (List.cons.inj hcopies).2]
    exact List.Subset.refl _

/-- Others than the client have received what they stand for. -/
lemma PushKept.others_at (h : s.PushKept t) (hat : ServesAt t cycle messages c rest) :
    ∀ e ∈ s.registered, e.conn ≠ c.conn → e.Follows (s.received e.conn) := by
  intro e he hne
  refine h.others e he fun c' hc' => ?_
  rcases hat.serving with hserving | hserving
  · rw [hserving] at hc'
    cases hc'
  · rw [hserving] at hc'
    rw [← Option.some.inj hc']
    exact hne

lemma PushKept.generation_at (h : s.PushKept t) (hat : ServesAt t cycle messages c rest) :
    c.authGeneration = cycle.authGeneration :=
  h.eligible cycle hat.inCycle c ((h.served cycle messages.revision hat.served).copies c hat.mem)

/-- A hello or a snapshot for a copied client, which is then the one that is served. -/
lemma PushKept.sends (h : s.PushKept t) (hat : ServesAt t cycle messages c rest)
    (hat' : ServesAt t' cycle messages c rest) (hserving : t'.serving = some c) {frame : PushFrame}
    (htext : frame ≠ .ping) (hframe : frame.revision = some messages.revision)
    (horder : HelloFirst (s.received c.conn ++ [frame]))
    (hstage : (s.reached cycle c frame).StageKept t') :
    (s.reached cycle c frame).PushKept t' := by
  have hcopies : t'.copies = t.copies := hat'.copies.trans hat.copies.symm
  have hwaiting : t'.waiting = rest := by
    have hcopies' := hat'.copies
    rw [PushTask.copies, hserving] at hcopies'
    exact (List.cons.inj hcopies').2
  have hwaits : ∀ c' ∈ rest, c'.conn ≠ c.conn := by
    have hapart := h.apart
    rw [hat.copies] at hapart
    exact fun c' hc' => ((List.pairwise_cons.mp hapart).1 c' hc').symm
  exact
    { table := { h.table with }
      copies := fun c' hc' => by
        rw [hcopies] at hc'
        rw [hat'.copiedAt, ← hat.copiedAt]
        exact { h.copies c' hc' with }
      apart := by
        rw [hcopies]
        exact h.apart
      eligible := by
        rw [hat'.inCycle, ← hat.inCycle]
        exact h.eligible
      served := by
        rw [hat'.served, ← hat.served]
        exact fun cycle revision hserved => (h.served cycle revision hserved).congr hcopies rfl rfl rfl
      waiting := fun c' hc' => by
        rw [hwaiting] at hc'
        rw [received_other cycle frame (hwaits c' hc')]
        exact h.waiting c' (hat.waiting hc')
      others := fun e he hne => by
        have hconn : e.conn ≠ c.conn := hne c (by rw [hserving]; rfl)
        rw [received_other cycle frame hconn]
        exact h.others_at hat e he hconn
      stage := hstage
      order := fun conn => by
        by_cases hconn : conn = c.conn
        · rw [hconn, received_self cycle frame htext]
          exact horder
        · rw [received_other cycle frame hconn]
          exact h.order conn
      meant := fun f hf => by
        rcases List.mem_append.mp hf with hf | hf
        · exact h.meant f hf
        · rw [List.mem_singleton.mp hf]
      current := fun f hf revision hsnapshot => by
        rcases List.mem_append.mp hf with hf | hf
        · exact h.current f hf revision hsnapshot
        · rw [List.mem_singleton.mp hf, ← h.generation_at hat]
          exact (h.copies c hat.mem).generation
      known := fun f hf => by
        rcases List.mem_append.mp hf with hf | hf
        · exact h.known f hf
        · rw [List.mem_singleton.mp hf]
          exact (h.copies c hat.mem).connected
      upgraded := fun fd conn hupgraded => by
        rw [received_other cycle frame ((h.copies c hat.mem).upgraded fd conn hupgraded).symm]
        exact h.upgraded fd conn hupgraded
      bounded := fun f hf revision hle => by
        rw [bound, hat'.revision]
        rcases List.mem_append.mp hf with hf | hf
        · have hbound := h.bounded f hf revision hle
          rw [bound, hat.revision] at hbound
          exact hbound
        · rw [List.mem_singleton.mp hf] at hle
          exact (Option.some.inj (hframe.symm.trans hle)).ge
      newest := by
        rw [hat'.revision, ← hat.revision]
        exact h.newest }

end At

/-- A frame is not sent, or it reaches the connection it is meant for. -/
lemma sendFrame_cases (cycle : PushCycle) (c : WsClient) (frame : PushFrame) (send : WsSend)
    (hown : send.reaches = true → ∀ conn, s.sessions c.fd = some (.websocket conn) →
      conn = c.conn) :
    (∃ ok, s.sendFrame cycle c frame send = (ok, s.reached cycle c frame)) ∨
      s.sendFrame cycle c frame send = (false, s) := by
  unfold sendFrame
  split
  · next conn _ hsession =>
      split
      · next hreaches =>
          rw [hown hreaches conn hsession]
          exact .inl ⟨_, rfl⟩
      · next hreaches =>
          refine .inr ?_
          cases send with
          | ok => exact absurd rfl hreaches
          | failed reached => rfl
  · exact .inr rfl

end Frames

/-! ### The steps of the push task -/

section Push

variable {s : HaWebsocket} {t t' : PushTask} {c : WsClient} {cycle : PushCycle}
  {messages : PushMessages} {rest : List WsClient} {input : PushInput}

/-- What the invariant does not speak of. -/
lemma PushKept.withRest (h : s.PushKept t) (push : PushTask) (server running : Bool)
    (integrationGeneration nextConnectionId : UInt32) :
    PushKept { s with push, server, running, integrationGeneration, nextConnectionId } t :=
  { h with
    table := { h.table with }
    copies c hc := { h.copies c hc with }
    served cycle revision hserved := (h.served cycle revision hserved).congr rfl rfl rfl rfl
    stage := h.stage.congr rfl fun _ _ h => h }

lemma PushKept.withPush (h : s.PushKept t) (push : PushTask) : PushKept { s with push } t :=
  h.withRest push s.server s.running s.integrationGeneration s.nextConnectionId

/-- The push task goes on with copies it had, and the state is as it was. -/
lemma PushKept.move (h : s.PushKept t) (hcopies : t'.copies.Sublist t.copies)
    (hat : t'.copies ≠ [] → t'.copiedAt = t.copiedAt)
    (heligible : ∀ cycle, t'.cycle = some cycle → ∀ c ∈ cycle.eligible,
      c.authGeneration = cycle.authGeneration)
    (hserved : ∀ cycle revision, t'.served = some (cycle, revision) →
      s.ServedKept t' cycle revision)
    (hwaiting : t'.waiting ⊆ t.waiting)
    (hothers : ∀ e ∈ s.registered, (∀ c ∈ t'.serving, e.conn ≠ c.conn) →
      e.Follows (s.received e.conn))
    (hstage : s.StageKept t') (hbound : s.bound t ≤ s.bound t')
    (hnewest : ∀ revision, t'.revision = some revision →
      revision ≤ asDouble s.revisions.revision) :
    s.PushKept t' :=
  { h with
    copies c hc := by
      rw [hat (List.ne_nil_of_mem hc)]
      exact h.copies c (hcopies.subset hc)
    apart := h.apart.sublist hcopies
    eligible := heligible
    served := hserved
    waiting c hc := h.waiting c (hwaiting hc)
    others := hothers
    stage := hstage
    bounded f hf revision hrevision := (h.bounded f hf revision hrevision).trans hbound
    newest := hnewest }

/-- A frame that is about to reach a copied client finds its own connection. -/
lemma own_of_socketsStay (h : s.PushKept s.push) (hstay : s.socketsStay (.push input) = true)
    (hsends : s.push.sendsTo = some (cycle, c)) (hat : s.push.copiedAt = cycle.copiedAt)
    (hc : c ∈ s.push.copies) : input.send.reaches = true →
    ∀ conn, s.sessions c.fd = some (.websocket conn) → conn = c.conn := by
  intro hreaches conn hsession
  simp only [socketsStay, hsends, hreaches, hsession, Bool.not_true, Bool.false_or,
    decide_eq_true_iff] at hstay
  exact (h.copies c hc).socket conn (hat ▸ hstay) hsession

lemma own_at (h : s.PushKept s.push) (hstay : s.socketsStay (.push input) = true)
    (hat : ServesAt s.push cycle messages c rest) (hsends : s.push.sendsTo = some (cycle, c)) :
    input.send.reaches = true → ∀ conn, s.sessions c.fd = some (.websocket conn) → conn = c.conn :=
  own_of_socketsStay h hstay hsends hat.copiedAt hat.mem

/-- The copy of the table. -/
lemma PushKept.copied (h : s.PushKept .loopHead) :
    s.PushKept (.copied s.handshakes s.registered) := by
  have hslot : ∀ c ∈ s.registered, ∀ e ∈ s.registered, e.conn = c.conn → e = c :=
    fun c hc e he hconn => h.table.eq_of_mem he hc (.inr hconn)
  exact
    { h with
      copies := fun c hc =>
        { copiedAt_le := le_rfl
          connected := h.table.connected c hc
          socket := fun conn _ => h.table.own c hc conn
          slot := fun e he => by
            constructor
            · rintro ⟨hfd, -⟩
              rw [h.table.eq_of_mem he hc (.inl hfd)]
            · intro hconn
              rw [hslot c hc e he hconn]
              exact ⟨rfl, rfl⟩
          generation := h.table.generation c hc
          upgraded := fun fd conn hupgraded =>
            ((h.table.upgraded fd conn hupgraded).2.2 c hc).2 }
      apart := by
        refine (List.pairwise_filter.mpr h.table.distinct).imp_of_mem ?_
        intro a b ha hb hapart
        exact hapart.2
      eligible := nofun
      served := nofun
      waiting := fun c hc => ⟨h.others c hc nofun, fun e he hconn => by rw [hslot c hc e he hconn]⟩
      stage := trivial
      newest := nofun }

/-- A client that is not refused joins those found eligible. -/
lemma PushKept.joined (h : s.PushKept t) (hwaiting : t.waiting = cycle.eligible ++ c :: rest)
    (hserving : t.serving = none) (hat : t.copiedAt = cycle.copiedAt) (hcycle : t.cycle = some cycle)
    (hrevision : t.revision = none) (hgeneration : c.authGeneration = cycle.authGeneration) :
    s.PushKept (.checking (cycle.withEligible c) rest) := by
  have hsame : (PushTask.checking (cycle.withEligible c) rest).waiting = t.waiting := by
    rw [hwaiting]
    exact List.append_assoc _ _ _
  refine h.move ?_ (fun _ => hat.symm) ?_ nofun (hsame ▸ List.Subset.refl _) ?_ trivial ?_ nofun
  · rw [PushTask.copies, PushTask.copies, hsame, hserving]
    exact List.Sublist.refl _
  · rintro _ ⟨⟩ c' hc'
    rcases List.mem_append.mp hc' with hc' | hc'
    · exact h.eligible cycle hcycle c' hc'
    · rw [List.mem_singleton.mp hc']
      exact hgeneration
  · exact fun e he _ => h.others e he (by rw [hserving]; exact nofun)
  · rw [bound, bound, hrevision]
    exact le_rfl

/-- A client that is refused is left out. -/
lemma PushKept.refused (h : s.PushKept t) (hwaiting : t.waiting = cycle.eligible ++ c :: rest)
    (hserving : t.serving = none) (hat : t.copiedAt = cycle.copiedAt) (hcycle : t.cycle = some cycle)
    (hrevision : t.revision = none) : s.PushKept (.checking cycle rest) := by
  have hsub : (cycle.eligible ++ rest).Sublist t.waiting := by
    rw [hwaiting]
    exact (List.sublist_cons_self c rest).append_left _
  refine h.move ?_ (fun _ => hat.symm) ?_ nofun hsub.subset ?_ trivial ?_ nofun
  · rw [PushTask.copies, PushTask.copies, hserving]
    exact hsub
  · rintro _ ⟨⟩
    exact h.eligible cycle hcycle
  · exact fun e he _ => h.others e he (by rw [hserving]; exact nofun)
  · rw [bound, bound, hrevision]
    exact le_rfl

/-- A step in the loop that checks the copies. -/
lemma pushStep_checking (h : s.PushKept s.push) (hpush : s.push = .checking cycle (c :: rest))
    (hstay : s.socketsStay (.push input) = true) :
    (s.pushStep input).PushKept (s.pushStep input).push := by
  have hc : c ∈ s.push.copies := by
    rw [hpush]
    exact List.mem_append_right _ (List.mem_append_right _ List.mem_cons_self)
  have hown : s.push.sendsTo = some (cycle, c) → input.send.reaches = true →
      ∀ conn, s.sessions c.fd = some (.websocket conn) → conn = c.conn :=
    fun hsends => own_of_socketsStay h hstay hsends (by rw [hpush]; rfl) hc
  rw [hpush] at h hc
  rw [pushStep, hpush]
  dsimp only
  by_cases hrefuses : cycle.refuses c = true
  · rw [if_pos hrefuses]
    exact ((h.closeClient c).refused rfl rfl rfl rfl rfl).withPush _
  rw [if_neg hrefuses]
  have hgeneration : c.authGeneration = cycle.authGeneration := by
    by_contra hne
    exact hrefuses (decide_eq_true (.inl hne))
  by_cases hdue : cycle.pingDue c = true
  · rw [if_pos hdue]
    have hsends : s.push.sendsTo = some (cycle, c) := by
      rw [hpush, PushTask.sendsTo, if_neg hrefuses, if_pos hdue]
    have hpinged : ∀ s' : HaWebsocket, s'.PushKept (.checking cycle (c :: rest)) → ∀ ok : Bool,
        PushKept { s' with push := if ok then .pinged cycle c rest else .pingFailed cycle c rest }
          (if ok then .pinged cycle c rest else .pingFailed cycle c rest) := by
      intro s' h' ok
      cases ok with
      | true =>
          have hnext : s'.PushKept (.pinged cycle c rest) :=
            h'.move (List.Sublist.refl _) (fun _ => rfl) h'.eligible nofun (List.Subset.refl _)
              h'.others hgeneration le_rfl nofun
          exact hnext.withPush _
      | false =>
          have hnext : s'.PushKept (.pingFailed cycle c rest) :=
            h'.move (List.Sublist.refl _) (fun _ => rfl) h'.eligible nofun (List.Subset.refl _)
              h'.others trivial le_rfl nofun
          exact hnext.withPush _
    rcases sendFrame_cases cycle c .ping input.send (hown hsends) with ⟨ok, hsent⟩ | hsent
    · rw [hsent]
      exact hpinged _ (h.pings hc cycle) ok
    · rw [hsent]
      exact hpinged _ h false
  · rw [if_neg hdue]
    exact (h.joined rfl rfl rfl rfl rfl hgeneration).withPush _

/-- Noting the time of a ping leaves the progress alone. -/
lemma PushKept.noted (h : s.PushKept t) (c : WsClient) (revision : ℕ) (nowUs : ℤ) :
    (s.updateClientAfterSend c revision nowUs false false true).PushKept t := by
  refine h.unmoved (changeFirst_slots Unmoved.refl _ _ ?_ _)
  exact fun _ hactive => ⟨hactive, rfl, rfl⟩

/-- A client that is closed needs nothing more in the cycle. -/
lemma PushKept.dropped (h : s.PushKept t) (hat : ServesAt t cycle messages c rest) :
    (s.closeClient c).PushKept (.pushing cycle messages rest) := by
  have hgone := closeClient_gone h hat.mem
  have h' := h.closeClient c
  have hsub : rest.Sublist t.copies := by
    rw [hat.copies]
    exact List.sublist_cons_self c rest
  refine h'.move hsub (fun _ => hat.copiedAt.symm) ?_ ?_ hat.waiting ?_ trivial ?_ ?_
  · rintro _ ⟨⟩
    exact h.eligible cycle hat.inCycle
  · rintro _ _ ⟨⟩
    have hkept := h'.served cycle messages.revision hat.served
    refine ⟨fun c' hc' => hkept.copies c' (hsub.subset hc'), hkept.connected, hkept.upgraded,
      fun c' hc' => ?_⟩
    rcases hkept.handled c' hc' with hmem | hall
    · rw [hat.copies] at hmem
      rcases List.mem_cons.mp hmem with rfl | hmem
      · exact .inr fun e he hconn => absurd hconn (hgone e he)
      · exact .inl hmem
    · exact .inr hall
  · exact fun e he _ => h'.others_at hat e he (hgone e he)
  · rw [bound, bound, hat.revision]
    exact le_rfl
  · rintro _ ⟨⟩
    exact h.newest _ hat.revision

/-- The client becomes the one that is served. -/
lemma PushKept.serve (h : s.PushKept t) (hat : ServesAt t cycle messages c rest)
    (hat' : ServesAt t' cycle messages c rest) (hserving : t'.serving = some c)
    (hstage : s.StageKept t') : s.PushKept t' := by
  have hwaiting : t'.waiting = rest := by
    have hcopies' := hat'.copies
    rw [PushTask.copies, hserving] at hcopies'
    exact (List.cons.inj hcopies').2
  refine h.move (hat'.copies.trans hat.copies.symm ▸ List.Sublist.refl _)
    (fun _ => hat'.copiedAt.trans hat.copiedAt.symm) ?_ ?_ (hwaiting ▸ hat.waiting) ?_ hstage ?_ ?_
  · rw [hat'.inCycle, ← hat.inCycle]
    exact h.eligible
  · rw [hat'.served, ← hat.served]
    exact fun cycle revision hserved =>
      (h.served cycle revision hserved).congr (hat'.copies.trans hat.copies.symm) rfl rfl rfl
  · exact fun e he hne => h.others_at hat e he (hne c (by rw [hserving]; rfl))
  · rw [bound, bound, hat.revision, hat'.revision]
  · rw [hat'.revision, ← hat.revision]
    exact h.newest

/-- A text frame is sent, and the push task goes on with the client, or it failed. -/
lemma PushKept.sendStep (h : s.PushKept t) (hat : ServesAt t cycle messages c rest)
    (hat' : ServesAt t' cycle messages c rest) (hserving : t'.serving = some c) {frame : PushFrame}
    {send : WsSend} (hown : send.reaches = true →
      ∀ conn, s.sessions c.fd = some (.websocket conn) → conn = c.conn)
    (htext : frame ≠ .ping) (hframe : frame.revision = some messages.revision)
    (horder : HelloFirst (s.received c.conn ++ [frame]))
    (hstage : (s.reached cycle c frame).StageKept t') :
    PushKept
      { (s.sendFrame cycle c frame send).2 with
        push := if (s.sendFrame cycle c frame send).1 then t'
          else .sendFailed cycle messages c rest }
      (if (s.sendFrame cycle c frame send).1 then t' else .sendFailed cycle messages c rest) := by
  have hfailed : ServesAt (.sendFailed cycle messages c rest) cycle messages c rest :=
    ⟨rfl, rfl, rfl, rfl, rfl, .inr rfl⟩
  rcases sendFrame_cases cycle c frame send hown with ⟨ok, hsent⟩ | hsent
  · rw [hsent]
    cases ok with
    | true => exact (h.sends hat hat' hserving htext hframe horder hstage).withPush t'
    | false => exact (h.sends hat hfailed rfl htext hframe horder trivial).withPush _
  · rw [hsent]
    exact (h.serve hat hfailed rfl trivial).withPush _

/-- What the table holds after a client is updated: others as they were, and the client
past its hello, with the revision sent. -/
lemma updated_registered {initialCompleted snapshotSent : Bool}
    (h : s.PushKept (.pushed cycle messages c rest initialCompleted snapshotSent)) {e : WsClient}
    (he : e ∈ (s.updateClientAfterSend c messages.revision cycle.nowUs initialCompleted
      snapshotSent false).registered) :
    (e ∈ s.registered ∧ e.conn ≠ c.conn) ∨
      (e.conn = c.conn ∧ e.progress = (false, messages.revision)) := by
  obtain ⟨-, hinitial, hrevision, hprogress⟩ := h.stage
  have hcopy := h.copies c List.mem_cons_self
  obtain ⟨hmem, hactive⟩ := mem_registered.mp he
  rcases mem_changeFirst (isCopyOf_only h.table c) hmem with ⟨hold, hnot⟩ | ⟨old, hold, his, rfl⟩
  · have hregistered := mem_registered.mpr ⟨hold, hactive⟩
    refine .inl ⟨hregistered, fun hconn => ?_⟩
    rw [(hcopy.isCopyOf hregistered).mpr hconn] at hnot
    cases hnot
  · have hregistered := mem_registered.mpr ⟨hold, hactive⟩
    have hconn := (hcopy.isCopyOf hregistered).mp his
    obtain ⟨hpending, hlast⟩ := Prod.mk.inj (hprogress old hregistered hconn)
    refine .inr ⟨hconn, Prod.mk.injEq .. ▸ ⟨?_, ?_⟩⟩
    · dsimp only
      split
      · rfl
      · next hic => exact hpending.trans (hinitial (Bool.eq_false_iff.mpr hic))
    · dsimp only
      split
      · rfl
      · next hss => exact hlast.trans (hrevision (Bool.eq_false_iff.mpr hss))

/-- The client is updated after all that was due is sent. -/
lemma PushKept.updated {initialCompleted snapshotSent : Bool}
    (h : s.PushKept (.pushed cycle messages c rest initialCompleted snapshotSent)) :
    (s.updateClientAfterSend c messages.revision cycle.nowUs initialCompleted snapshotSent
      false).PushKept (.pushing cycle messages rest) := by
  have htrimmed : List.Forall₂ Trimmed s.clients (s.updateClientAfterSend c messages.revision
      cycle.nowUs initialCompleted snapshotSent false).clients := by
    refine changeFirst_slots (fun _ hactive => ⟨hactive, rfl⟩) _ _ ?_ _
    exact fun _ hactive => ⟨hactive, rfl⟩
  have hrest : ∀ c' ∈ rest, c'.conn ≠ c.conn := fun c' hc' =>
    ((List.pairwise_cons.mp h.apart).1 c' hc').symm
  exact
    { h with
      table := h.table.trimmed htrimmed
      copies := fun c' hc' => (h.copies c' (List.mem_cons_of_mem _ hc')).trimmed htrimmed
      apart := (List.pairwise_cons.mp h.apart).2
      served := by
        rintro _ _ ⟨⟩
        have hkept := h.served cycle messages.revision rfl
        refine ⟨fun c' hc' => hkept.copies c' (List.mem_cons_of_mem _ hc'), hkept.connected,
          hkept.upgraded, fun c' hc' => ?_⟩
        rcases hkept.handled c' hc' with hmem | hall
        · rcases List.mem_cons.mp hmem with rfl | hmem
          · refine .inr fun e he hconn => ?_
            rcases updated_registered h he with ⟨-, hne⟩ | ⟨-, hprogress⟩
            · exact absurd hconn hne
            · exact (Prod.mk.inj hprogress).2
          · exact .inl hmem
        · refine .inr fun e he hconn => ?_
          rcases updated_registered h he with ⟨hold, -⟩ | ⟨-, hprogress⟩
          · exact hall e hold hconn
          · exact (Prod.mk.inj hprogress).2
      waiting := fun c' hc' => by
        refine ⟨(h.waiting c' hc').1, fun e he hconn => ?_⟩
        rcases updated_registered h he with ⟨hold, -⟩ | ⟨hsame, -⟩
        · exact (h.waiting c' hc').2 e hold hconn
        · exact absurd (hconn.symm.trans hsame) (hrest c' hc')
      others := fun e he _ => by
        rcases updated_registered h he with ⟨hold, hne⟩ | ⟨hsame, hprogress⟩
        · refine h.others e hold fun c' hc' => ?_
          rw [← Option.some.inj hc']
          exact hne
        · rw [WsClient.Follows, (Prod.mk.inj hprogress).1, hsame]
          exact h.stage.1
      stage := trivial }

/-- The frames a connection received are no newer than the revision that is sent. -/
lemma PushKept.received_le (h : s.PushKept t) (hrevision : t.revision = some messages.revision)
    {conn : ℕ} : ∀ frame ∈ s.received conn, ∀ r, frame.revision = some r → r ≤ messages.revision := by
  intro frame hframe r hr
  obtain ⟨f, hf, rfl, -⟩ := mem_received hframe
  have hle := h.bounded f hf r hr
  rw [bound, hrevision] at hle
  exact hle

/-- A step in the loop that sends, at a client that is not served yet. -/
lemma pushStep_pushing (h : s.PushKept s.push)
    (hpush : s.push = .pushing cycle messages (c :: rest))
    (hstay : s.socketsStay (.push input) = true) :
    (s.pushStep input).PushKept (s.pushStep input).push := by
  have hat : ServesAt (.pushing cycle messages (c :: rest)) cycle messages c rest :=
    ⟨rfl, rfl, rfl, rfl, rfl, .inl rfl⟩
  have hown := own_at h hstay (hpush ▸ hat)
  rw [hpush] at h
  rw [pushStep, hpush]
  dsimp only
  obtain ⟨hfollows, hprogress⟩ := h.waiting c List.mem_cons_self
  by_cases hpending : c.initialPending = true
  · rw [if_pos hpending]
    rw [WsClient.Follows, if_pos hpending] at hfollows
    by_cases hhello : messages.hello = true
    · rw [if_neg (not_not_intro hhello)]
      have hsends : s.push.sendsTo = some (cycle, c) := by
        rw [hpush, PushTask.sendsTo, if_pos hpending, if_pos hhello]
      have horder : HelloFirst (s.received c.conn ++ [.hello messages.revision]) := by
        rw [hfollows]
        exact .inr (.inl ⟨_, rfl⟩)
      refine h.sendStep hat ⟨rfl, rfl, rfl, rfl, rfl, .inr rfl⟩ rfl (hown hsends) nofun rfl horder ⟨hpending, ?_, hprogress⟩
      rw [received_self cycle (.hello messages.revision) nofun, hfollows]
      rfl
    · rw [if_pos hhello]
      exact (h.dropped hat).withPush _
  · rw [if_neg hpending]
    rw [WsClient.Follows, if_neg hpending] at hfollows
    by_cases hdue : cycle.snapshotDue messages c = true
    · rw [if_pos hdue]
      by_cases hmessage : messages.message = true
      · rw [if_neg (not_not_intro hmessage)]
        have hsends : s.push.sendsTo = some (cycle, c) := by
          rw [hpush, PushTask.sendsTo, if_neg hpending, if_pos hdue, if_pos hmessage]
        have hstarted := Greeted.snapshot hfollows (h.received_le rfl)
        refine h.sendStep hat ⟨rfl, rfl, rfl, rfl, rfl, .inr rfl⟩ rfl (hown hsends) nofun rfl (.inr (.inr hstarted))
          ⟨?_, fun _ => Bool.eq_false_iff.mpr hpending, nofun, hprogress⟩
        rw [received_self cycle (.snapshot messages.revision) nofun]
        exact hstarted
      · rw [if_pos hmessage]
        exact (h.dropped hat).withPush _
    · rw [if_neg hdue]
      have hlast : c.lastRevision = messages.revision := by
        by_contra hne
        exact hdue (decide_eq_true (.inr (.inl (Ne.symm hne))))
      have hat' : ServesAt (.pushed cycle messages c rest false false) cycle messages c rest :=
        ⟨rfl, rfl, rfl, rfl, rfl, .inr rfl⟩
      exact (h.serve hat hat' rfl ⟨hfollows, fun _ => Bool.eq_false_iff.mpr hpending,
        fun _ => hlast, hprogress⟩).withPush _

/-- The step after a hello. -/
lemma pushStep_greeted (h : s.PushKept s.push) (hpush : s.push = .greeted cycle messages c rest)
    (hstay : s.socketsStay (.push input) = true) :
    (s.pushStep input).PushKept (s.pushStep input).push := by
  have hat : ServesAt (.greeted cycle messages c rest) cycle messages c rest :=
    ⟨rfl, rfl, rfl, rfl, rfl, .inr rfl⟩
  have hown := own_at h hstay (hpush ▸ hat)
  rw [hpush] at h
  rw [pushStep, hpush]
  dsimp only
  obtain ⟨hpending, hreceived, hprogress⟩ := h.stage
  have hstarted : Greeted (s.received c.conn ++ [.snapshot messages.revision]) := by
    rw [hreceived]
    exact Greeted.first _
  by_cases hmessage : messages.message = true
  · rw [if_neg (not_not_intro hmessage)]
    have hsends : s.push.sendsTo = some (cycle, c) := by
      rw [hpush, PushTask.sendsTo, if_pos hmessage]
    refine h.sendStep hat ⟨rfl, rfl, rfl, rfl, rfl, .inr rfl⟩ rfl (hown hsends) nofun rfl (.inr (.inr hstarted))
      ⟨?_, nofun, nofun, hprogress⟩
    rw [received_self cycle (.snapshot messages.revision) nofun]
    exact hstarted
  · rw [if_pos hmessage]
    exact (h.dropped hat).withPush _

/-- Between two cycles nothing is copied. -/
lemma PushKept.idle (h : s.PushKept t) (hserving : t.serving = none) (hcopies : t'.copies = [])
    (hcycle : t'.cycle = none) (hrevision : t'.revision = none)
    (hserved : ∀ cycle revision, t'.served = some (cycle, revision) →
      s.ServedKept t' cycle revision)
    (hstage : s.StageKept t') : s.PushKept t' := by
  obtain ⟨-, hwaiting⟩ := List.append_eq_nil_iff.mp hcopies
  refine h.move (hcopies ▸ List.nil_sublist _) (fun hne => absurd hcopies hne) ?_ ?_
    (hwaiting ▸ List.nil_subset _) ?_ hstage ?_ ?_
  · rw [hcycle]
    exact nofun
  · exact hserved
  · exact fun e he _ => h.others e he (by rw [hserving]; exact nofun)
  · rw [bound, bound, hrevision]
    cases hsends : t.revision with
    | none => exact le_rfl
    | some revision => exact h.newest revision hsends
  · rw [hrevision]
    exact nofun

/-- A revision that a `double` holds does not fall. -/
lemma asDouble_assign {revisions : RevisionState} (hfit : revisions.revision.toNat + 1 < 2 ^ 53)
    (hash : Digest) : asDouble revisions.revision ≤ asDouble (revisions.assign hash).revision := by
  unfold RevisionState.assign
  split
  · have hnext : (revisions.revision + 1).toNat = revisions.revision.toNat + 1 := by
      rw [UInt64.toNat_add, UInt64.toNat_one]
      exact Nat.mod_eq_of_lt (by omega)
    dsimp only
    rw [asDouble_eq (by omega), asDouble_eq (by omega), hnext]
    omega
  · exact le_rfl

lemma PushKept.revised (h : s.PushKept t) (hfit : s.revisions.revision.toNat + 1 < 2 ^ 53)
    (hash : Digest) : PushKept { s with revisions := s.revisions.assign hash } t :=
  { h with
    table := { h.table with }
    copies c hc := { h.copies c hc with }
    served cycle revision hserved := (h.served cycle revision hserved).congr rfl rfl rfl rfl
    stage := h.stage.congr rfl fun _ _ h => h
    bounded f hf revision hrevision := by
      refine (h.bounded f hf revision hrevision).trans ?_
      unfold bound
      cases t.revision with
      | none => exact asDouble_assign hfit hash
      | some _ => exact le_rfl
    newest revision hrevision := (h.newest revision hrevision).trans (asDouble_assign hfit hash) }

/-- A snapshot is made, and the loop that sends it begins. -/
lemma PushKept.snapshot (h : s.PushKept (.checking cycle []))
    (hfit : s.revisions.revision.toNat + 1 < 2 ^ 53) (hash : Digest) (hello message : Bool) :
    PushKept { s with revisions := s.revisions.assign hash }
      (.pushing cycle ⟨asDouble (s.revisions.assign hash).revision, hello, message⟩
        cycle.eligible) := by
  have hsame : (PushTask.checking cycle []).copies = cycle.eligible :=
    (List.nil_append _).trans (List.append_nil _)
  have hwaiting : (PushTask.checking cycle []).waiting = cycle.eligible := List.append_nil _
  refine (h.revised hfit hash).move (hsame.symm ▸ List.Sublist.refl _) (fun _ => rfl) h.eligible ?_
    (hwaiting.symm ▸ List.Subset.refl _) h.others trivial le_rfl ?_
  · rintro _ _ ⟨⟩
    have hcopy := fun c hc => h.copies c (hsame.symm ▸ hc)
    exact ⟨fun c hc => hc, fun c hc => (hcopy c hc).connected, fun c hc => (hcopy c hc).upgraded,
      fun c hc => .inl hc⟩
  · rintro _ ⟨⟩
    exact le_rfl

/-- **Every step of the push task** keeps the invariant. -/
lemma pushStep_kept (h : s.PushKept s.push) (hstay : s.socketsStay (.push input) = true)
    (hfit : s.revisions.revision.toNat + 1 < 2 ^ 53) :
    (s.pushStep input).PushKept (s.pushStep input).push := by
  cases hpush : s.push with
  | ended =>
      have hsame : s.pushStep input = s := by
        rw [pushStep, hpush]
      rw [hsame]
      exact h
  | loopHead =>
      rw [hpush] at h
      rw [pushStep, hpush]
      dsimp only
      split
      · split
        · have hidle : s.PushKept (.delaying none) := h.idle rfl rfl rfl rfl nofun trivial
          exact hidle.withPush _
        · exact h.copied.withPush (.copied s.handshakes s.registered)
      · have hclosed : s.closeAllClients.PushKept .ended :=
          h.closeAllClients.idle rfl rfl rfl rfl nofun trivial
        exact hclosed.withPush _
  | copied copiedAt clients =>
      rw [hpush] at h
      rw [pushStep, hpush]
      have hnext : s.PushKept
          (.checking ⟨copiedAt, input.nowUs, s.integrationGeneration, []⟩ clients) := by
        refine h.move (List.Sublist.refl clients) (fun _ => rfl) ?_ nofun (List.Subset.refl clients)
          h.others trivial le_rfl nofun
        rintro _ ⟨⟩
        exact nofun
      exact hnext.withPush _
  | checking cycle rest =>
      cases rest with
      | cons c rest => exact pushStep_checking h hpush hstay
      | nil =>
          rw [hpush] at h
          rw [pushStep, hpush]
          dsimp only
          cases input.snapshot with
          | none =>
              have hidle : s.PushKept (.delaying none) := h.idle rfl rfl rfl rfl nofun trivial
              exact hidle.withPush _
          | some hash => exact (h.snapshot hfit hash input.hello input.message).withPush _
  | pinged cycle c rest =>
      rw [hpush] at h
      rw [pushStep, hpush]
      exact ((h.noted c _ _).joined rfl rfl rfl rfl rfl h.stage).withPush _
  | pingFailed cycle c rest =>
      rw [hpush] at h
      rw [pushStep, hpush]
      exact ((h.closeClient c).refused rfl rfl rfl rfl rfl).withPush _
  | pushing cycle messages rest =>
      cases rest with
      | cons c rest => exact pushStep_pushing h hpush hstay
      | nil =>
          rw [hpush] at h
          rw [pushStep, hpush]
          have hnext : s.PushKept (.delaying (some (cycle, messages.revision))) := by
            refine h.idle rfl rfl rfl rfl ?_ trivial
            rintro _ _ ⟨⟩
            exact (h.served cycle messages.revision rfl).congr rfl rfl rfl rfl
          exact hnext.withPush _
  | greeted cycle messages c rest => exact pushStep_greeted h hpush hstay
  | pushed cycle messages c rest initialCompleted snapshotSent =>
      rw [hpush] at h
      rw [pushStep, hpush]
      exact h.updated.withPush _
  | sendFailed cycle messages c rest =>
      rw [hpush] at h
      rw [pushStep, hpush]
      exact (h.dropped ⟨rfl, rfl, rfl, rfl, rfl, .inr rfl⟩).withPush _
  | delaying completed =>
      rw [hpush] at h
      rw [pushStep, hpush]
      have hidle : s.PushKept .loopHead := h.idle rfl rfl rfl rfl nofun trivial
      exact hidle.withPush _

end Push

/-! ### The steps of the server -/

section Server

variable {s : HaWebsocket} {t : PushTask}

/-- Sessions that come and go, without a WebSocket among those that come. -/
lemma PushKept.withSessions (h : s.PushKept t) (sessions : ℤ → Option WsSession)
    (hold : ∀ fd conn, sessions fd = some (.websocket conn) →
      s.sessions fd = some (.websocket conn)) : PushKept { s with sessions } t :=
  { h with
    table := { h.table with
      own e he conn hsession := h.table.own e he conn (hold _ _ hsession)
      upgraded fd conn hupgraded :=
        have hup := h.table.upgraded fd conn hupgraded
        ⟨hup.1, fun conn' hsession => hup.2.1 conn' (hold _ _ hsession), hup.2.2⟩ }
    copies c hc := { h.copies c hc with
      socket conn hlt hsession := (h.copies c hc).socket conn hlt (hold _ _ hsession) }
    served cycle revision hserved := (h.served cycle revision hserved).congr rfl rfl rfl rfl
    stage := h.stage.congr rfl fun _ _ h => h }

/-- A handshake that is begun, given up or gone on with. -/
lemma PushKept.withHandshake (h : s.PushKept t) (handshake : WsHandshake)
    (hchecked : ∀ fd, handshake = .checked fd → ∀ e ∈ s.registered, e.fd ≠ fd)
    (hupgraded : ∀ fd conn, handshake.upgraded = some (fd, conn) →
      s.handshake.upgraded = some (fd, conn)) : PushKept { s with handshake } t :=
  { h with
    table := { h.table with
      checked := hchecked
      upgraded fd conn hup := h.table.upgraded fd conn (hupgraded fd conn hup) }
    copies c hc := { h.copies c hc with
      upgraded fd conn hup := (h.copies c hc).upgraded fd conn (hupgraded fd conn hup) }
    served cycle revision hserved := { h.served cycle revision hserved with
      upgraded c hc fd conn hup :=
        (h.served cycle revision hserved).upgraded c hc fd conn (hupgraded fd conn hup) }
    stage := h.stage.congr rfl fun _ _ h => h
    upgraded fd conn hup := h.upgraded fd conn (hupgraded fd conn hup) }

/-- Of the clients that are counted every one has a WebSocket. -/
lemma live_of_count {e : WsClient} (he : e ∈ s.activeClientCount.2.registered) :
    s.isWebsocket e.fd = true := by
  obtain ⟨hmem, hactive⟩ := mem_registered.mp he
  obtain ⟨old, -, rfl⟩ := List.mem_map.mp hmem
  split at hactive
  · next hlive =>
      rw [if_pos hlive]
      exact (of_decide_eq_true hlive).2.2
  · split at hactive
    · cases hactive
    · next hinactive => exact absurd hactive hinactive

lemma preHandshake_kept (h : s.PushKept t) (fd : ℤ) (tokenValid : Bool) :
    (s.preHandshake fd tokenValid).PushKept t := by
  unfold preHandshake
  split
  · next hbegins =>
      dsimp only
      split
      · exact h.activeClientCount
      · refine h.activeClientCount.withHandshake (.checked fd) ?_ nofun
        -- a slot with this socket number is stale, as the session is no WebSocket yet
        rintro _ ⟨⟩ e he rfl
        have hlive := live_of_count he
        unfold isWebsocket at hlive
        rw [hbegins.2.1] at hlive
        cases hlive
  · exact h

lemma switchProtocols_kept (h : s.PushKept t) : s.switchProtocols.PushKept t := by
  unfold switchProtocols
  split
  · next fd hchecked =>
      split
      · have hapart := h.table.checked fd hchecked
        have hother : ∀ fd' conn, fd' ≠ fd →
            Function.update s.sessions fd (some (.websocket s.handshakes)) fd' =
              some (.websocket conn) → s.sessions fd' = some (.websocket conn) := by
          intro fd' conn hne hsession
          rw [Function.update_of_ne hne] at hsession
          exact hsession
        have hself : ∀ conn, Function.update s.sessions fd (some (.websocket s.handshakes)) fd =
            some (.websocket conn) → conn = s.handshakes := by
          intro conn hsession
          rw [Function.update_self] at hsession
          exact (WsSession.websocket.inj (Option.some.inj hsession)).symm
        exact
          { h with
            table :=
              { h.table with
                connected := fun e he => (h.table.connected e he).trans (Nat.lt_succ_self _)
                own := fun e he conn hsession =>
                  h.table.own e he conn (hother e.fd conn (hapart e he) hsession)
                checked := nofun
                upgraded := by
                  rintro _ _ ⟨⟩
                  exact ⟨Nat.lt_succ_self _, hself,
                    fun e he => ⟨hapart e he, (h.table.connected e he).ne⟩⟩ }
            copies := fun c hc =>
              { copiedAt_le := (h.copies c hc).copiedAt_le.trans (Nat.le_succ _)
                connected := (h.copies c hc).connected.trans (Nat.lt_succ_self _)
                socket := fun conn hlt hsession => by
                  by_cases hfd : c.fd = fd
                  · have hle := (h.copies c hc).copiedAt_le
                    have hnew := hself conn (hfd ▸ hsession)
                    omega
                  · exact (h.copies c hc).socket conn hlt (hother c.fd conn hfd hsession)
                slot := (h.copies c hc).slot
                generation := (h.copies c hc).generation
                upgraded := by
                  rintro _ _ ⟨⟩
                  exact (h.copies c hc).connected.ne }
            served := fun cycle revision hserved => by
              have hkept := h.served cycle revision hserved
              refine ⟨hkept.copies, fun c hc => (hkept.connected c hc).trans (Nat.lt_succ_self _),
                ?_, hkept.handled⟩
              rintro c hc _ _ ⟨⟩
              exact (hkept.connected c hc).ne
            stage := h.stage.congr rfl fun _ _ h => h
            known := fun f hf => (h.known f hf).trans (Nat.lt_succ_self _)
            upgraded := by
              rintro _ _ ⟨⟩
              by_contra hne
              obtain ⟨frame, hframe⟩ := List.exists_mem_of_ne_nil _ hne
              obtain ⟨f, hf, -, hreceiver⟩ := mem_received hframe
              exact (h.known f hf).ne hreceiver }
      · exact h.withHandshake .idle nofun nofun
  · exact h

/-- A client that is registered, or was. -/
lemma registerClient_registered {fd nowUs : ℤ} {conn : ℕ} {authGeneration : UInt32} {e : WsClient}
    (he : e ∈ (s.registerClient fd conn authGeneration nowUs).registered) :
    e ∈ s.registered ∨ (e.fd = fd ∧ e.connectionId = s.nextConnectionId ∧ e.conn = conn ∧
      e.authGeneration = authGeneration ∧ e.initialPending = true) := by
  unfold registerClient at he
  split at he
  · obtain ⟨hmem, hactive⟩ := mem_registered.mp he
    obtain ⟨old, hold, rfl | ⟨-, rfl⟩⟩ := exists_of_forall₂ (changeFirst_forall₂ _ _ _) hmem
    · exact .inl (mem_registered.mpr ⟨hold, hactive⟩)
    · exact .inr ⟨rfl, rfl, rfl, rfl, rfl⟩
  · exact .inl he

/-- What the connection of a handshake got: no frame yet. -/
lemma PushKept.receiver_ne (h : s.PushKept t) {fd : ℤ} {conn : ℕ}
    (hupgraded : s.handshake.upgraded = some (fd, conn)) {f : SentFrame} (hf : f ∈ s.sent)
    (htext : f.frame ≠ .ping) : f.receiver ≠ conn := by
  intro hreceiver
  have hmem : f.frame ∈ s.received conn :=
    List.mem_map.mpr ⟨f, List.mem_filter.mpr ⟨hf, decide_eq_true ⟨hreceiver, htext⟩⟩, rfl⟩
  rw [h.upgraded fd conn hupgraded] at hmem
  cases hmem

/-- The client of a finished handshake joins the table. -/
lemma PushKept.register (h : s.PushKept t) {fd : ℤ} {conn : ℕ}
    (hupgraded : s.handshake.upgraded = some (fd, conn))
    (hfresh : ∀ c ∈ t.copies, c.fd = fd → c.connectionId ≠ s.nextConnectionId)
    (authGeneration : UInt32) (nowUs : ℤ) :
    PushKept { s.registerClient fd conn authGeneration nowUs with handshake := .idle } t := by
  have hmember := fun e => @registerClient_registered s fd nowUs conn authGeneration e
  unfold registerClient at hmember ⊢
  split
  · next hfree =>
      rw [if_pos hfree] at hmember
      obtain ⟨hlt, hown, hapart⟩ := h.table.upgraded fd conn hupgraded
      have hotherwise : ∀ conn' ≠ conn, Function.update s.authGenerationOf conn
          (some authGeneration) conn' = s.authGenerationOf conn' :=
        fun conn' hne => Function.update_of_ne hne _ _
      exact
        { h with
          table :=
            { connected := fun e he => by
                rcases hmember e he with hold | ⟨-, -, hconn, -⟩
                · exact h.table.connected e hold
                · exact hconn ▸ hlt
              own := fun e he conn' hsession => by
                rcases hmember e he with hold | ⟨hfd, -, hconn, -⟩
                · exact h.table.own e hold conn' hsession
                · rw [hconn]
                  exact hown conn' (hfd ▸ hsession)
              distinct := by
                refine pairwise_changeFirst h.table.distinct fun a ha b _ => ⟨?_, ?_⟩
                · intro hactive _
                  exact hapart a (mem_registered.mpr ⟨ha, hactive⟩)
                · intro _ hactive
                  have hne := hapart a (mem_registered.mpr ⟨ha, hactive⟩)
                  exact ⟨hne.1.symm, hne.2.symm⟩
              generation := fun e he => by
                rcases hmember e he with hold | ⟨-, -, hconn, hgeneration, -⟩
                · exact (hotherwise e.conn (hapart e hold).2).trans (h.table.generation e hold)
                · rw [hconn, hgeneration]
                  exact Function.update_self _ _ _
              checked := nofun
              upgraded := nofun }
          copies := fun c hc =>
            { h.copies c hc with
              slot := fun e he => by
                rcases hmember e he with hold | ⟨hfd, hid, hconn, -⟩
                · exact (h.copies c hc).slot e hold
                · rw [hfd, hid, hconn]
                  constructor
                  · rintro ⟨hsame, hid'⟩
                    exact absurd hid'.symm (hfresh c hc hsame.symm)
                  · intro hsame
                    exact absurd hsame.symm ((h.copies c hc).upgraded fd conn hupgraded)
              generation := (hotherwise c.conn ((h.copies c hc).upgraded fd conn hupgraded)).trans
                (h.copies c hc).generation
              upgraded := nofun }
          served := fun cycle revision hserved => by
            have hkept := h.served cycle revision hserved
            refine ⟨hkept.copies, hkept.connected, nofun, fun c hc =>
              (hkept.handled c hc).imp_right fun hall e he hconn => ?_⟩
            rcases hmember e he with hold | ⟨-, -, hnew, -⟩
            · exact hall e hold hconn
            · exact absurd (hconn.symm.trans hnew) (hkept.upgraded c hc fd conn hupgraded)
          waiting := fun c hc => by
            refine ⟨(h.waiting c hc).1, fun e he hconn => ?_⟩
            rcases hmember e he with hold | ⟨-, -, hnew, -⟩
            · exact (h.waiting c hc).2 e hold hconn
            · exact absurd (hconn.symm.trans hnew)
                ((h.copies c (List.mem_append_right _ hc)).upgraded fd conn hupgraded)
          others := fun e he hserving => by
            rcases hmember e he with hold | ⟨-, -, hconn, -, hpending⟩
            · exact h.others e hold hserving
            · rw [WsClient.Follows, if_pos hpending, hconn]
              exact h.upgraded fd conn hupgraded
          stage := by
            refine h.stage.congr rfl fun c hc hprogress e he hconn => ?_
            rcases hmember e he with hold | ⟨-, -, hnew, -⟩
            · exact hprogress e hold hconn
            · have hcopy : c ∈ t.copies := List.mem_append_left _ (Option.mem_toList.mpr hc)
              exact absurd (hconn.symm.trans hnew) ((h.copies c hcopy).upgraded fd conn hupgraded)
          current := fun f hf revision hsnapshot => by
            refine (hotherwise f.receiver ?_).trans (h.current f hf revision hsnapshot)
            exact h.receiver_ne hupgraded hf (by rw [hsnapshot]; exact nofun)
          upgraded := nofun }
  · exact h.withHandshake .idle nofun nofun

lemma received_kept (h : s.PushKept t) (fd : ℤ) (headRead payloadRead : Bool) (frame : WsReceived)
    (nowUs : ℤ) : (haWebsocketHandler s fd headRead payloadRead frame nowUs).PushKept t := by
  unfold haWebsocketHandler
  split
  · exact h.removeClientByFd fd
  cases frame with
  | pong len =>
      dsimp only
      split
      · exact h.removeClientByFd fd
      split
      · exact h.notePong fd nowUs
      · exact h
  | ping len =>
      dsimp only
      split
      · exact h.removeClientByFd fd
      · exact h
  | close len => exact h.removeClientByFd fd
  | other => exact h.removeClientByFd fd

lemma PushKept.at {t' : PushTask} (h : s.PushKept t) (ht : t' = t) : s.PushKept t' := by
  rw [ht]
  exact h

/-- Every step that meets the conditions keeps the invariant. -/
lemma step_kept (h : s.PushKept s.push) {action : WsAction} (hsteady : s.steady action = true) :
    (s.step action).PushKept (s.step action).push := by
  rw [steady, Bool.and_eq_true, Bool.and_eq_true] at hsteady
  obtain ⟨⟨hstay, hfresh⟩, hfit⟩ := hsteady
  cases action with
  | push input => exact pushStep_kept h hstay (of_decide_eq_true hfit)
  | openSession fd =>
      rw [step]
      split
      · refine h.withSessions _ fun fd' conn hsession => ?_
        by_cases hfd : fd' = fd
        · rw [hfd, Function.update_self] at hsession
          cases hsession
        · rw [Function.update_of_ne hfd] at hsession
          exact hsession
      · exact h
  | closeSession fd =>
      refine h.withSessions _ fun fd' conn hsession => ?_
      by_cases hfd : fd' = fd
      · rw [hfd, Function.update_self] at hsession
        cases hsession
      · rw [Function.update_of_ne hfd] at hsession
        exact hsession
  | preHandshake fd tokenValid =>
      have hpush : (s.preHandshake fd tokenValid).push = s.push := by
        unfold preHandshake
        split
        · dsimp only
          split <;> rfl
        · rfl
      exact (preHandshake_kept h fd tokenValid).at hpush
  | switchProtocols =>
      have hpush : s.switchProtocols.push = s.push := by
        unfold switchProtocols
        split
        · split <;> rfl
        · rfl
      exact (switchProtocols_kept h).at hpush
  | postHandshake tokenValid =>
      rw [step]
      unfold postHandshake
      split
      · next fd conn hswitched =>
          refine h.withHandshake _ ?_ fun fd' conn' hupgraded => ?_
          · intro fd' hchecked
            split at hchecked <;> cases hchecked
          · rw [hswitched]
            split at hupgraded
            · exact hupgraded
            · cases hupgraded
      · exact h
  | register nowUs =>
      rw [step]
      unfold finishHandshake
      split
      · next fd conn generation hvalidated =>
          have hupgraded : s.handshake.upgraded = some (fd, conn) := by
            rw [hvalidated]
            rfl
          have hpush : (s.registerClient fd conn generation nowUs).push = s.push := by
            unfold registerClient
            split <;> rfl
          refine (h.register hupgraded (fun c hc hfd => ?_) generation nowUs).at hpush
          simp only [idsFresh, hvalidated, List.all_eq_true] at hfresh
          simpa [hfd] using hfresh c hc
      · exact h
  | refuseHandshake => exact h.withHandshake .idle nofun nofun
  | received fd headRead payloadRead frame nowUs =>
      have hpush : (haWebsocketHandler s fd headRead payloadRead frame nowUs).push = s.push := by
        unfold haWebsocketHandler
        split
        · rfl
        cases frame with
        | pong len =>
            dsimp only
            split
            · rfl
            · split <;> rfl
        | ping len =>
            dsimp only
            split <;> rfl
        | close len => rfl
        | other => rfl
      exact (received_kept h fd headRead payloadRead frame nowUs).at hpush
  | rotate generation => exact h.withRest s.push s.server s.running generation s.nextConnectionId
  | revise hash => exact h.revised (of_decide_eq_true hfit) hash
  | start =>
      rw [step]
      unfold haWebsocketStart
      split
      · next hended =>
          split
          · exact h
          · rw [hended] at h
            have hstarted : s.PushKept .loopHead := h.idle rfl rfl rfl rfl nofun trivial
            exact hstarted.withRest .loopHead true true s.integrationGeneration s.nextConnectionId
      · exact h
  | stop =>
      exact h.withRest s.push s.server false s.integrationGeneration s.nextConnectionId
  | stopped =>
      rw [step]
      unfold haWebsocketStopped
      split
      · split
        · exact h
        · exact h.withRest s.push false s.running s.integrationGeneration s.nextConnectionId
      · exact h

/-- What a run of steady steps keeps. -/
lemma run_kept (h : s.PushKept s.push) {actions : List WsAction}
    (hsteady : s.steadyRun actions = true) : (s.run actions).PushKept (s.run actions).push := by
  induction actions generalizing s with
  | nil => exact h
  | cons action actions ih =>
      rw [steadyRun, Bool.and_eq_true] at hsteady
      exact ih (step_kept h hsteady.1) hsteady.2

end Server

end HaWebsocket

/-! ### Runs -/

/-- After a boot no client is registered and nothing was sent. -/
def bootedWebsocket (integrationGeneration : UInt32) : HaWebsocket := { integrationGeneration }

lemma bootedWebsocket_kept (integrationGeneration : UInt32) :
    (bootedWebsocket integrationGeneration).PushKept .ended where
  table :=
    { connected := nofun
      own := nofun
      distinct := List.pairwise_replicate.mpr (.inr nofun)
      generation := nofun
      checked := nofun
      upgraded := nofun }
  copies := nofun
  apart := .nil
  eligible := nofun
  served := nofun
  waiting := nofun
  others := nofun
  stage := trivial
  order _ := .inl rfl
  meant := nofun
  current := nofun
  known := nofun
  upgraded := nofun
  bounded := nofun
  newest := nofun

/-- **The push task keeps its protocol** with every connection, in every run in which no
frame reaches a socket number whose handshake was done after the cycle had copied the
table (and in which neither the ids of 32 bits nor the numbers of a `double` run out). -/
theorem push_protocol_kept {integrationGeneration : UInt32} {actions : List WsAction}
    (hsteady : (bootedWebsocket integrationGeneration).steadyRun actions = true) :
    PushProtocol ((bootedWebsocket integrationGeneration).run actions) := by
  have h := HaWebsocket.run_kept (bootedWebsocket_kept integrationGeneration) hsteady
  refine ⟨h.order, h.meant, h.current, fun cycle revision hpush c hc client hclient hactive => ?_⟩
  rw [hpush] at h
  have hkept := h.served cycle revision rfl
  rcases hkept.handled c hc with hcopy | hhandled
  · cases hcopy
  · exact hhandled client (HaWebsocket.mem_registered.mpr ⟨hclient, hactive⟩)

/-- A handshake on a socket number, up to the registration. -/
def handshakeOn (fd : ℤ) : List WsAction :=
  [.openSession fd, .preHandshake fd true, .switchProtocols, .postHandshake true, .register 0]

/-- So many steps of the push task. -/
def pushSteps (n : ℕ) : List WsAction := List.replicate n (.push {})

/-- Two clients get hello and snapshot; one closes, another gets its socket number between
two cycles, and so do the frames of a new snapshot. -/
def reconnecting : List WsAction :=
  [.start] ++ handshakeOn 5 ++ handshakeOn 6 ++ pushSteps 12 ++ [.closeSession 5] ++
    handshakeOn 5 ++ [.revise (.replicate 32 1)] ++ pushSteps 14

theorem push_protocol_kept_reconnecting :
    PushProtocol ((bootedWebsocket 1).run reconnecting) :=
  push_protocol_kept (by decide +kernel)

/-- A client closes within a cycle that has copied it, and another gets its socket number
before the hello goes out. -/
def reusedSocket : List WsAction :=
  [.start] ++ handshakeOn 5 ++ pushSteps 1 ++ [.closeSession 5] ++ handshakeOn 5 ++ pushSteps 5

/-- The hello for the first connection reaches the second one. -/
theorem reused_socket_confused :
    ¬ ∀ actions, PushProtocol ((bootedWebsocket 1).run actions) := by
  intro h
  have hreached : ⟨.hello 1, 0, 1, 1⟩ ∈ ((bootedWebsocket 1).run reusedSocket).sent := by
    decide +kernel
  exact absurd ((h reusedSocket).meant _ hreached) (by decide)

end ArcticController

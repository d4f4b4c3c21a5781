/-
The WebSocket push of the state snapshots (`ha_websocket.cpp`), one section of
`s_clients_mutex` or one frame at a time.

* `WsClient`: a slot of `s_clients`; `closeClient`, `updateClientAfterSend`,
  `activeClientCount`, `registerClient`, `notePong`, `removeClientByFd`: its sections;
* `WsSession`: what the server has under a socket number;
* `PushTask`, `pushStep`: the push task, which works on a copy of the table;
* `haWebsocketHandler`: a frame received;
* `WsAction`, `HaWebsocket.step`, `HaWebsocket.run`: all of them interleaved.
-/
import ArcticController.Base.Slots
import ArcticController.Integration.StateSnapshot

namespace ArcticController

def maxClients : ℕ := 3

def heartbeatIntervalUs : ℤ := 15 * 1000000

def clientTimeoutUs : ℤ := 45 * 1000000

def periodicSnapshotUs : ℤ := 30 * 1000000

/-- A slot of the client table, with the connection it was registered for, which is no
part of the code. -/
structure WsClient where
  active : Bool := false
  initialPending : Bool := false
  fd : ℤ := -1
  connectionId : UInt32 := 0
  authGeneration : UInt32 := 0
  lastRevision : ℕ := 0
  lastPongUs : ℤ := 0
  lastPingUs : ℤ := 0
  lastSnapshotUs : ℤ := 0
  conn : ℕ := 0
deriving DecidableEq

/-- What the server has under a socket number. WebSocket connections are numbered as
their handshakes are done. -/
inductive WsSession where
  | http
  | websocket (conn : ℕ)
deriving DecidableEq

/-- A handshake in the server task: `ha_websocket_pre_handshake` let it pass, the protocol
is switched, `ha_websocket_post_handshake` found the token valid. -/
inductive WsHandshake where
  | idle
  | checked (fd : ℤ)
  | switched (fd : ℤ) (conn : ℕ)
  | validated (fd : ℤ) (conn : ℕ) (generation : UInt32)
deriving DecidableEq

/-- The frames the push task sends. -/
inductive PushFrame where
  | ping
  | hello (revision : ℕ)
  | snapshot (revision : ℕ)
deriving DecidableEq

/-- A frame that reached a connection: the connection of the client it was sent for, the
one that received it, and the generation the cycle compared with. -/
structure SentFrame where
  frame : PushFrame
  meant : ℕ
  receiver : ℕ
  checked : UInt32
deriving DecidableEq

/-! ### The push task -/

/-- The locals of a cycle. `copiedAt` counts the handshakes done when the table was
copied, which is no part of the code. -/
structure PushCycle where
  copiedAt : ℕ
  nowUs : ℤ
  authGeneration : UInt32
  eligible : List WsClient := []

/-- The messages made of a snapshot: its revision, and whether there was memory for the
hello and for the snapshot. -/
structure PushMessages where
  revision : ℕ
  hello : Bool
  message : Bool

/-- Where the push task is: in the loop that checks the copied clients (a ping sent, or
not), in the loop that sends to those found eligible (the hello sent; all sent that was
due; a frame not sent), or between two cycles, with the cycle it completed. -/
inductive PushTask where
  | ended
  | loopHead
  | copied (copiedAt : ℕ) (clients : List WsClient)
  | checking (cycle : PushCycle) (rest : List WsClient)
  | pinged (cycle : PushCycle) (client : WsClient) (rest : List WsClient)
  | pingFailed (cycle : PushCycle) (client : WsClient) (rest : List WsClient)
  | pushing (cycle : PushCycle) (messages : PushMessages) (rest : List WsClient)
  | greeted (cycle : PushCycle) (messages : PushMessages) (client : WsClient)
      (rest : List WsClient)
  | pushed (cycle : PushCycle) (messages : PushMessages) (client : WsClient)
      (rest : List WsClient) (initialCompleted snapshotSent : Bool)
  | sendFailed (cycle : PushCycle) (messages : PushMessages) (client : WsClient)
      (rest : List WsClient)
  | delaying (completed : Option (PushCycle × ℕ))

/-- A client the cycle closes: its credential changed or its heartbeat timed out. -/
def PushCycle.refuses (cycle : PushCycle) (client : WsClient) : Bool :=
  client.authGeneration ≠ cycle.authGeneration ∨
    cycle.nowUs - client.lastPongUs > clientTimeoutUs

def PushCycle.pingDue (cycle : PushCycle) (client : WsClient) : Bool :=
  cycle.nowUs - client.lastPingUs ≥ heartbeatIntervalUs

def PushCycle.snapshotDue (cycle : PushCycle) (messages : PushMessages) (client : WsClient) :
    Bool :=
  client.initialPending ∨ messages.revision ≠ client.lastRevision ∨
    cycle.nowUs - client.lastSnapshotUs ≥ periodicSnapshotUs

def PushCycle.withEligible (cycle : PushCycle) (client : WsClient) : PushCycle :=
  { cycle with eligible := cycle.eligible ++ [client] }

/-- How `httpd_ws_send_data` ends; a frame may have reached its receiver although an
error is reported. -/
inductive WsSend where
  | ok
  | failed (reached : Bool)
deriving DecidableEq

def WsSend.reaches : WsSend → Bool
  | .ok => true
  | .failed reached => reached

/-- What the push task meets on its next step: the time, how a frame is sent, the hash of
a snapshot if there is one, and whether there is memory for the messages. -/
structure PushInput where
  nowUs : ℤ := 0
  send : WsSend := .ok
  snapshot : Option Digest := some .zero
  hello : Bool := true
  message : Bool := true

/-! ### The transport -/

structure HaWebsocket where
  clients : List WsClient := List.replicate maxClients {}
  nextConnectionId : UInt32 := 1
  server : Bool := false
  running : Bool := false
  push : PushTask := .ended
  integrationGeneration : UInt32 := 1
  revisions : RevisionState := {}
  sessions : ℤ → Option WsSession := fun _ => none
  handshake : WsHandshake := .idle
  handshakes : ℕ := 0
  sent : List SentFrame := []
  authGenerationOf : ℕ → Option UInt32 := fun _ => none

namespace HaWebsocket

variable (s : HaWebsocket)

/-- The client of a copy is still in the slot. -/
def isCopyOf (copy client : WsClient) : Bool :=
  client.active ∧ client.fd = copy.fd ∧ client.connectionId = copy.connectionId

def hasFd (fd : ℤ) (client : WsClient) : Bool := client.active ∧ client.fd = fd

/-- Closing the session is left to the server. -/
def closeClient (copy : WsClient) : HaWebsocket :=
  { s with clients := changeFirst (isCopyOf copy) (fun _ => {}) s.clients }

def updateClientAfterSend (copy : WsClient) (revision : ℕ) (nowUs : ℤ)
    (initialCompleted snapshotSent pingSent : Bool) : HaWebsocket :=
  { s with
    clients := changeFirst (isCopyOf copy) (fun client : WsClient =>
      { client with
        initialPending := if initialCompleted then false else client.initialPending
        lastRevision := if snapshotSent then revision else client.lastRevision
        lastSnapshotUs := if snapshotSent then nowUs else client.lastSnapshotUs
        lastPingUs := if pingSent then nowUs else client.lastPingUs }) s.clients }

/-- `httpd_ws_get_fd_info` says that the socket is a WebSocket. -/
def isWebsocket (fd : ℤ) : Bool :=
  match s.sessions fd with
  | some (.websocket _) => true
  | _ => false

def isLive (client : WsClient) : Bool := client.active ∧ s.server ∧ s.isWebsocket client.fd

/-- Clients that are gone are cleared on the way. -/
def activeClientCount : ℕ × HaWebsocket :=
  (s.clients.countP s.isLive,
    { s with clients := s.clients.map fun client => if s.isLive client then client else
        if client.active then {} else client })

def registerClient (fd : ℤ) (conn : ℕ) (authGeneration : UInt32) (nowUs : ℤ) : HaWebsocket :=
  if s.clients.any (! ·.active) then
    { s with
      clients := changeFirst (! ·.active) (fun client : WsClient =>
        { client with
          active := true
          initialPending := true
          fd
          connectionId := s.nextConnectionId
          authGeneration
          lastPongUs := nowUs
          lastPingUs := nowUs
          lastSnapshotUs := 0
          conn }) s.clients
      nextConnectionId := s.nextConnectionId + 1
      authGenerationOf := Function.update s.authGenerationOf conn (some authGeneration) }
  else s

def notePong (fd : ℤ) (nowUs : ℤ) : HaWebsocket :=
  { s with
    clients := changeFirst (hasFd fd)
      (fun client : WsClient => { client with lastPongUs := nowUs }) s.clients }

def removeClientByFd (fd : ℤ) : HaWebsocket :=
  { s with clients := changeFirst (hasFd fd) (fun _ => {}) s.clients }

def closeAllClients : HaWebsocket :=
  { s with clients := s.clients.map fun client => if client.active then {} else client }

/-- Send one frame: whether it is reported as sent, and the frame in the log of those
that reached a connection. -/
def sendFrame (cycle : PushCycle) (client : WsClient) (frame : PushFrame) (send : WsSend) :
    Bool × HaWebsocket :=
  match s.server, s.sessions client.fd with
  | true, some (.websocket conn) =>
      (send = .ok,
        if send.reaches then
          { s with sent := s.sent ++ [⟨frame, client.conn, conn, cycle.authGeneration⟩] }
        else s)
  | _, _ => (false, s)

/-- The next step of the push task. -/
def pushStep (input : PushInput) : HaWebsocket :=
  match s.push with
  | .ended => s
  | .loopHead =>
      if s.running then
        let clients := s.clients.filter (·.active)
        { s with
          push := if clients.isEmpty then .delaying none else .copied s.handshakes clients }
      else { s.closeAllClients with push := .ended }
  | .copied copiedAt clients =>
      { s with push := .checking ⟨copiedAt, input.nowUs, s.integrationGeneration, []⟩ clients }
  | .checking cycle (client :: rest) =>
      if cycle.refuses client then { s.closeClient client with push := .checking cycle rest }
      else if cycle.pingDue client then
        let (ok, s) := s.sendFrame cycle client .ping input.send
        { s with push := if ok then .pinged cycle client rest else .pingFailed cycle client rest }
      else { s with push := .checking (cycle.withEligible client) rest }
  | .pinged cycle client rest =>
      { s.updateClientAfterSend client client.lastRevision cycle.nowUs false false true with
        push := .checking (cycle.withEligible client) rest }
  | .pingFailed cycle client rest =>
      { s.closeClient client with push := .checking cycle rest }
  | .checking cycle [] =>
      match input.snapshot with
      | none => { s with push := .delaying none }
      | some hash =>
          let revisions := s.revisions.assign hash
          { s with
            revisions
            push := .pushing cycle ⟨asDouble revisions.revision, input.hello, input.message⟩
              cycle.eligible }
  | .pushing cycle messages (client :: rest) =>
      if client.initialPending then
        if ¬ messages.hello then
          { s.closeClient client with push := .pushing cycle messages rest }
        else
          let (ok, s) := s.sendFrame cycle client (.hello messages.revision) input.send
          { s with
            push := if ok then .greeted cycle messages client rest
              else .sendFailed cycle messages client rest }
      else if cycle.snapshotDue messages client then
        if ¬ messages.message then
          { s.closeClient client with push := .pushing cycle messages rest }
        else
          let (ok, s) := s.sendFrame cycle client (.snapshot messages.revision) input.send
          { s with
            push := if ok then .pushed cycle messages client rest false true
              else .sendFailed cycle messages client rest }
      else { s with push := .pushed cycle messages client rest false false }
  | .greeted cycle messages client rest =>
      -- a client that was greeted is due for the snapshot
      if ¬ messages.message then
        { s.closeClient client with push := .pushing cycle messages rest }
      else
        let (ok, s) := s.sendFrame cycle client (.snapshot messages.revision) input.send
        { s with
          push := if ok then .pushed cycle messages client rest true true
            else .sendFailed cycle messages client rest }
  | .pushed cycle messages client rest initialCompleted snapshotSent =>
      { s.updateClientAfterSend client messages.revision cycle.nowUs initialCompleted snapshotSent
          false with
        push := .pushing cycle messages rest }
  | .sendFailed cycle messages client rest =>
      { s.closeClient client with push := .pushing cycle messages rest }
  | .pushing cycle messages [] => { s with push := .delaying (some (cycle, messages.revision)) }
  | .delaying _ => { s with push := .loopHead }

end HaWebsocket

/-! ### The server -/

/-- The kind of a frame received: the length of a control frame is checked. -/
inductive WsReceived where
  | pong (len : ℕ)
  | ping (len : ℕ)
  | close (len : ℕ)
  | other

/-- A frame received: the results of reading its head and its payload. -/
def haWebsocketHandler (s : HaWebsocket) (fd : ℤ) (headRead payloadRead : Bool)
    (frame : WsReceived) (nowUs : ℤ) : HaWebsocket :=
  if ¬ headRead then s.removeClientByFd fd
  else match frame with
    | .pong len =>
        if len > 125 then s.removeClientByFd fd
        else if len = 0 ∨ payloadRead then s.notePong fd nowUs
        else s
    | .ping len => if len > 125 then s.removeClientByFd fd else s
    | .close _ => s.removeClientByFd fd
    | .other => s.removeClientByFd fd

/-- A step of the push task, of the server and its handlers, of the credentials, of
another snapshot, or of `ha_websocket_start` and `ha_websocket_stop`. -/
inductive WsAction where
  | push (input : PushInput)
  | openSession (fd : ℤ)
  | closeSession (fd : ℤ)
  | preHandshake (fd : ℤ) (tokenValid : Bool)
  | switchProtocols
  | postHandshake (tokenValid : Bool)
  | register (nowUs : ℤ)
  | refuseHandshake
  | received (fd : ℤ) (headRead payloadRead : Bool) (frame : WsReceived) (nowUs : ℤ)
  | rotate (generation : UInt32)
  | revise (hash : Digest)
  | start
  | stop
  | stopped

namespace HaWebsocket

variable (s : HaWebsocket)

/-- A handshake of a session that is none yet, while the server task has no other. -/
def preHandshake (fd : ℤ) (tokenValid : Bool) : HaWebsocket :=
  if s.handshake = .idle ∧ s.sessions fd = some .http ∧ tokenValid then
    let (count, s) := s.activeClientCount
    if count ≥ maxClients then s else { s with handshake := .checked fd }
  else s

/-- The server has written the answer and counts the session as a WebSocket. -/
def switchProtocols : HaWebsocket :=
  match s.handshake with
  | .checked fd =>
      if s.sessions fd = some .http then
        { s with
          sessions := Function.update s.sessions fd (some (.websocket s.handshakes))
          handshake := .switched fd s.handshakes
          handshakes := s.handshakes + 1 }
      else { s with handshake := .idle }
  | _ => s

/-- The token is looked at again, with its generation. -/
def postHandshake (tokenValid : Bool) : HaWebsocket :=
  match s.handshake with
  | .switched fd conn =>
      { s with
        handshake := if tokenValid then .validated fd conn s.integrationGeneration else .idle }
  | _ => s

def finishHandshake (nowUs : ℤ) : HaWebsocket :=
  match s.handshake with
  | .validated fd conn generation =>
      { s.registerClient fd conn generation nowUs with handshake := .idle }
  | _ => s

def haWebsocketStart : HaWebsocket :=
  match s.push with
  | .ended => if s.running then s else { s with server := true, running := true, push := .loopHead }
  | _ => s

/-- `ha_websocket_stop` after the task has ended. -/
def haWebsocketStopped : HaWebsocket :=
  match s.push with
  | .ended => if s.running then s else { s with server := false }
  | _ => s

def step : WsAction → HaWebsocket
  | .push input => s.pushStep input
  | .openSession fd =>
      if s.sessions fd = none then { s with sessions := Function.update s.sessions fd (some .http) }
      else s
  | .closeSession fd => { s with sessions := Function.update s.sessions fd none }
  | .preHandshake fd tokenValid => s.preHandshake fd tokenValid
  | .switchProtocols => s.switchProtocols
  | .postHandshake tokenValid => s.postHandshake tokenValid
  | .register nowUs => s.finishHandshake nowUs
  | .refuseHandshake => { s with handshake := .idle }
  | .received fd headRead payloadRead frame nowUs =>
      haWebsocketHandler s fd headRead payloadRead frame nowUs
  | .rotate generation => { s with integrationGeneration := generation }
  | .revise hash => { s with revisions := s.revisions.assign hash }
  | .start => s.haWebsocketStart
  | .stop => { s with running := false }
  | .stopped => s.haWebsocketStopped

def run (actions : List WsAction) : HaWebsocket := actions.foldl step s

end HaWebsocket

end ArcticController

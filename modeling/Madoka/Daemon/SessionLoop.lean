import Madoka.Daemon.Contacts
import Madoka.Daemon.DataPlane
import Madoka.Daemon.Neighbors
import Madoka.Daemon.Rebuild
import Madoka.Lib.Run

/-!
# Session Loop

What the worker of a session does with each turn of its loop (`run_session`
of `core/daemon.cpp`): every frame, in the order in which the checks are made.
A session that is not trusted changes nothing before one of its
JOIN_REQUESTs is admitted.
-/

namespace Madoka

open Octets

/-! ## State -/

/-- The application state the workers share, as far as a session's worker
reads or writes it. -/
structure AppState where
  id : NodeId
  network : IPv6
  mtu : Nat
  shareAllPorts : Bool
  sharedPorts : List UInt16
  localContact : NodeContact
  trust : TrustState
  directory : Directory
  sessions : List AppPeerSession
  topology : Topology
  contacts : KademliaTable
  table : RouteTable
  advertisements : RouteAdvertisements
  origins : RouteOriginStates
  activeOutboundPorts : AList fun _ : UInt16 => Nat
  nextPacketId : UInt64
  counters : Counter → Nat

/-- The state as the data plane sees it. -/
def AppState.dataNode (app : AppState) : DataNode where
  id := app.id
  network := app.network
  mtu := app.mtu
  shareAllPorts := app.shareAllPorts
  sharedPorts := app.sharedPorts
  topology := app.topology
  contacts := app.contacts
  table := app.table
  sessions := app.sessions.map fun s => { peerId := s.peerId, isOpen := s.isOpen }
  activeOutboundPorts := app.activeOutboundPorts
  nextPacketId := app.nextPacketId
  counters := app.counters

/-- What the data plane writes. -/
def AppState.afterData (app : AppState) (node : DataNode) : AppState :=
  { app with
    activeOutboundPorts := node.activeOutboundPorts
    nextPacketId := node.nextPacketId
    counters := node.counters }

/-- A session as its worker knows it. -/
structure SessionLink where
  session : AppPeerSession
  peer : TlsPeer

/-- What the clock, the storage, the device and the sockets answer while one
frame is handled. Times are milliseconds of the steady clock. -/
structure FrameAnswers where
  touchedAt : Nat
  blockAt : Nat
  storedAt : Nat
  rebuiltAt : Nat
  nowSeconds : UInt64
  admission : AdmissionAnswers
  data : DataAnswers
  replySent : Bool

inductive SessionEffect where
  | data (event : DataEvent)
  | control (message : ControlMessage)
deriving DecidableEq

/-- The state after a frame, and whether the loop goes on. -/
structure FrameResult where
  app : AppState
  trusted : Bool
  effects : List SessionEffect
  continues : Bool

/-! ## Blocks in a row -/

def AppState.rebuild (app : AppState) (now : Nat) : AppState :=
  { app with table := rebuildRoutingTable app.topology app.advertisements now }

def touchNeighbor (app : AppState) (id : NodeId) (answers : FrameAnswers) : AppState :=
  let (topology, becameConnected) := touchBlock app.topology id answers.touchedAt
  let app := { app with topology := topology }
  if becameConnected then app.rebuild answers.rebuiltAt else app

def activateNeighbor (app : AppState) (contact : NodeContact) (answers : FrameAnswers) :
    Bool × AppState :=
  if !mayActivate app.network app.id app.trust contact then (false, app)
  else
    match activateBlock app.topology contact answers.blockAt with
    | none => (false, app)
    | some topology => (true, { app with topology := topology }.rebuild answers.rebuiltAt)

def bindSession (app : AppState) (link : SessionLink) (contact : NodeContact)
    (answers : FrameAnswers) : Bool × AppState :=
  if !bindAllowed app.sessions link.session (some link.peer.nodeId) contact then (false, app)
  else activateNeighbor app contact answers

/-! ## Control messages of a trusted session -/

def receiveHello (app : AppState) (incoming : ControlMessage) (answers : FrameAnswers) :
    Option AppState :=
  match deserializeHelloMessage incoming.payload with
  | .error _ => none
  | .ok hello =>
      if hello.sender ≠ incoming.sender then none
      else
        some { app with
          topology := (heartbeatProcessHello app.topology hello answers.blockAt).2 }

/-- An advertisement that is stale, or that changes no route, is followed by no
rebuild. -/
def receiveAdvertisement (app : AppState) (incoming : ControlMessage) (answers : FrameAnswers) :
    Option AppState :=
  match deserializeRouteAdvertisement incoming.payload with
  | .error _ => none
  | .ok advertisement =>
      if advertisement.sender ≠ incoming.sender then none
      else
        match validateRouteAdvertisement advertisement app.network with
        | .error _ => none
        | .ok () =>
            let update := distanceVectorUpdate app.table incoming.sender advertisement
              answers.blockAt 1 (some app.origins)
            if !update.accepted then some app
            else
              let app := { app with
                table := update.table
                origins := update.originStates.getD app.origins
                advertisements := app.advertisements.insert incoming.sender
                  { advertisement := advertisement, receivedAtMs := answers.storedAt } }
              some (if update.routesChanged then app.rebuild answers.rebuiltAt else app)

/-- The contact that a message answered with an acceptance binds the session to. -/
def boundContact (incoming reply : ControlMessage) : Option NodeContact :=
  match incoming.type with
  | .joinRequest =>
      match deserializeJoinRequest incoming.payload, deserializeJoinResponse reply.payload with
      | .ok request, .ok response =>
          if response.accepted then some (requestContact request) else none
      | _, _ => none
  | .nodeAnnounce =>
      match deserializeNodeAnnounce incoming.payload, deserializeNodeAnnounceAck reply.payload with
      | .ok announce, .ok ack => if ack.accepted then some announce.contact else none
      | _, _ => none
  | _ => none

variable (x : External)

/-- The messages about contacts, with the reply and the binding behind it. -/
def receiveContact (app : AppState) (link : SessionLink) (incoming : ControlMessage)
    (answers : FrameAnswers) : FrameResult :=
  match contactMessage x app.network app.localContact app.contacts link.peer incoming with
  | none => { app := app, trusted := true, effects := [], continues := false }
  | some (contacts, none) =>
      { app := { app with contacts := contacts }, trusted := true, effects := [], continues := true }
  | some (contacts, some reply) =>
      let app := { app with contacts := contacts }
      if !answers.replySent then
        { app := app, trusted := true, effects := [], continues := false }
      else
        match boundContact incoming reply with
        | none =>
            { app := app, trusted := true, effects := [.control reply], continues := true }
        | some contact =>
            let (bound, app) := bindSession app link contact answers
            { app := app, trusted := true, effects := [.control reply], continues := bound }

def receiveTrusted (app : AppState) (link : SessionLink) (incoming : ControlMessage)
    (answers : FrameAnswers) : FrameResult :=
  let app := touchNeighbor app incoming.sender answers
  match incoming.type with
  | .hello =>
      match receiveHello app incoming answers with
      | none => { app := app, trusted := true, effects := [], continues := false }
      | some app => { app := app, trusted := true, effects := [], continues := true }
  | .routeAdvertisement =>
      match receiveAdvertisement app incoming answers with
      | none => { app := app, trusted := true, effects := [], continues := false }
      | some app => { app := app, trusted := true, effects := [], continues := true }
  | _ => receiveContact x app link incoming answers

/-! ## Frames -/

/-- The refusal of a JOIN_REQUEST. -/
def rejectedJoin (app : AppState) (incoming : ControlMessage) : ControlMessage :=
  controlMessageCreate .joinResponse incoming.sequenceNumber app.id
    (serializeJoinResponse
      { accepted := false, bootstrapContact := app.localContact, bootstrapId := app.id, peers := [] })

def receiveJoinRequest (app : AppState) (link : SessionLink) (trusted : Bool)
    (incoming : ControlMessage) (answers : FrameAnswers) : FrameResult :=
  match deserializeJoinRequest incoming.payload with
  | .error _ => { app := app, trusted := trusted, effects := [], continues := false }
  | .ok request =>
      if !joinRequestValid x app.network link.peer.nodeId link.peer.pubkey request then
        { app := app, trusted := trusted, effects := [], continues := false }
      else
        match admitJoin x app.network app.id app.trust app.directory request answers.nowSeconds
            answers.admission with
        | (false, trust, directory) =>
            { app := { app with trust := trust, directory := directory }
              trusted := trusted
              effects := if answers.replySent then [.control (rejectedJoin app incoming)] else []
              continues := false }
        | (true, trust, directory) =>
            receiveTrusted x { app with trust := trust, directory := directory } link incoming answers

def receiveFrame (app : AppState) (link : SessionLink) (trusted : Bool) (wire : Message)
    (answers : FrameAnswers) : FrameResult :=
  match wire.type with
  | .data =>
      if !trusted then { app := app, trusted := trusted, effects := [], continues := false }
      else
        let app := touchNeighbor app link.peer.nodeId answers
        let result := handleDataMessage app.dataNode answers.data wire
        { app := app.afterData result.node
          trusted := trusted
          effects := result.events.map .data
          continues := result.ok }
  | .control =>
      match deserializeControlMessage wire.payload with
      | .error _ => { app := app, trusted := trusted, effects := [], continues := false }
      | .ok incoming =>
          if incoming.sender ≠ link.peer.nodeId then
            { app := app, trusted := trusted, effects := [], continues := false }
          else if !trusted ∧ incoming.type ≠ .joinRequest then
            { app := app, trusted := trusted, effects := [], continues := false }
          else if incoming.type = .joinRequest then
            receiveJoinRequest x app link trusted incoming answers
          else receiveTrusted x app link incoming answers
  | _ => { app := app, trusted := trusted, effects := [], continues := true }

/-! ## The loop -/

def maxMessagesPerSecond : Nat := 1000

/-- Nanoseconds, as the loop counts them. -/
def oneSecond : Nat := 1000000000

structure SessionWorker where
  trusted : Bool
  admissionDeadline : Nat
  nextRefresh : Nat
  messageWindow : Nat
  messagesInWindow : Nat
  refreshSequence : UInt64
  running : Bool

def startSessionWorker (trusted : Bool) (now : Nat) : SessionWorker where
  trusted := trusted
  admissionDeadline := now + 3 * oneSecond
  nextRefresh := now + 5 * oneSecond
  messageWindow := now
  messagesInWindow := 0
  refreshSequence := 10000
  running := true

/-- What `receive_on_session` comes back with: nothing in time, the end of the
connection, or a frame. -/
inductive Reception where
  | timeout (now : Nat) (requestSent : Bool)
  | closed
  | frame (receivedAt : Nat) (wire : Message) (answers : FrameAnswers)

/-- One turn of the loop that starts at a time. -/
structure SessionTurn where
  now : Nat
  reception : Reception

structure TurnResult where
  app : AppState
  worker : SessionWorker
  effects : List SessionEffect

def SessionWorker.stop (worker : SessionWorker) : SessionWorker := { worker with running := false }

/-- One more message, in the window of one second or in a new one. -/
def SessionWorker.countMessage (worker : SessionWorker) (receivedAt : Nat) : SessionWorker :=
  if oneSecond ≤ receivedAt - worker.messageWindow then
    { worker with messageWindow := receivedAt, messagesInWindow := 1 }
  else { worker with messagesInWindow := worker.messagesInWindow + 1 }

@[simp] theorem SessionWorker.countMessage_trusted (worker : SessionWorker) (receivedAt : Nat) :
    (worker.countMessage receivedAt).trusted = worker.trusted := by
  unfold countMessage
  split <;> rfl

/-- The FIND_NODE by which a trusted session's worker refreshes the contacts. -/
def refreshRequest (app : AppState) (worker : SessionWorker) : ControlMessage :=
  controlMessageCreate .findNode worker.refreshSequence app.id
    (serializeFindNode { target := app.id })

def sessionTurn (app : AppState) (link : SessionLink) (worker : SessionWorker)
    (turn : SessionTurn) : TurnResult :=
  if !worker.running then { app := app, worker := worker, effects := [] }
  else if !worker.trusted ∧ worker.admissionDeadline ≤ turn.now then
    { app := app, worker := worker.stop, effects := [] }
  else
    match turn.reception with
    | .closed => { app := app, worker := worker.stop, effects := [] }
    | .timeout now requestSent =>
        if link.session.peerId.isSome ∧ worker.trusted ∧ worker.nextRefresh ≤ now then
          let asked := { worker with refreshSequence := worker.refreshSequence + 1 }
          if !requestSent then { app := app, worker := asked.stop, effects := [] }
          else
            { app := app
              worker := { asked with nextRefresh := now + 5 * oneSecond }
              effects := [.control (refreshRequest app worker)] }
        else { app := app, worker := worker, effects := [] }
    | .frame receivedAt wire answers =>
        let worker := worker.countMessage receivedAt
        if worker.messagesInWindow > maxMessagesPerSecond then
          { app := app, worker := worker.stop, effects := [] }
        else
          let result := receiveFrame x app link worker.trusted wire answers
          { app := result.app
            worker := { worker with trusted := result.trusted, running := result.continues }
            effects := result.effects }

/-! ## Untrusted sessions -/

/-- The frame is a JOIN_REQUEST of the session's own peer that passes the
checks, and the peer is admitted. -/
def AdmitsFrame (app : AppState) (link : SessionLink) (wire : Message) (answers : FrameAnswers) :
    Prop :=
  wire.type = .control ∧ ∃ incoming request,
    deserializeControlMessage wire.payload = .ok incoming
      ∧ incoming.sender = link.peer.nodeId ∧ incoming.type = .joinRequest
      ∧ deserializeJoinRequest incoming.payload = .ok request
      ∧ joinRequestValid x app.network link.peer.nodeId link.peer.pubkey request = true
      ∧ (admitJoin x app.network app.id app.trust app.directory request answers.nowSeconds
          answers.admission).1 = true

/-- The turn comes in time to receive a frame, within the limit on messages,
and the frame admits the peer. -/
def AdmitsJoin (app : AppState) (link : SessionLink) (worker : SessionWorker)
    (turn : SessionTurn) : Prop :=
  worker.running = true ∧ turn.now < worker.admissionDeadline
    ∧ ∃ receivedAt wire answers, turn.reception = .frame receivedAt wire answers
      ∧ (worker.countMessage receivedAt).messagesInWindow ≤ maxMessagesPerSecond
      ∧ AdmitsFrame x app link wire answers

/-- Nothing the node works with has changed, and nothing went to the device or
on to another node. -/
structure Inert (app after : AppState) (effects : List SessionEffect) : Prop where
  topology : after.topology = app.topology
  trust : after.trust = app.trust
  contacts : after.contacts = app.contacts
  table : after.table = app.table
  advertisements : after.advertisements = app.advertisements
  origins : after.origins = app.origins
  activeOutboundPorts : after.activeOutboundPorts = app.activeOutboundPorts
  silent : ∀ event, SessionEffect.data event ∉ effects

variable {x} {app : AppState} {link : SessionLink} {worker : SessionWorker}

theorem Inert.refl (app : AppState) : Inert app app [] where
  topology := rfl
  trust := rfl
  contacts := rfl
  table := rfl
  advertisements := rfl
  origins := rfl
  activeOutboundPorts := rfl
  silent _ := List.not_mem_nil

/-- A refused JOIN_REQUEST may cost an invitation, and is answered. -/
theorem receiveJoinRequest_refused {trusted : Bool} {incoming : ControlMessage}
    {answers : FrameAnswers}
    (h : ∀ request, deserializeJoinRequest incoming.payload = .ok request →
      joinRequestValid x app.network link.peer.nodeId link.peer.pubkey request = true →
      (admitJoin x app.network app.id app.trust app.directory request answers.nowSeconds
        answers.admission).1 = false) :
    Inert app (receiveJoinRequest x app link trusted incoming answers).app
        (receiveJoinRequest x app link trusted incoming answers).effects
      ∧ (receiveJoinRequest x app link trusted incoming answers).trusted = trusted := by
  unfold receiveJoinRequest
  cases hread : deserializeJoinRequest incoming.payload with
  | error e => exact ⟨.refl app, rfl⟩
  | ok request =>
      dsimp only
      split
      · exact ⟨.refl app, rfl⟩
      · next hvalid =>
          rw [Bool.not_eq_true', Bool.not_eq_false] at hvalid
          have hrefused := h request hread hvalid
          rcases admitJoin_cases (x := x) app.network app.id app.trust app.directory request
            answers.nowSeconds answers.admission with ⟨-, htrust⟩ | ⟨hadmitted, -⟩
          · generalize admitJoin x app.network app.id app.trust app.directory request
              answers.nowSeconds answers.admission = result at hrefused htrust
            obtain ⟨admitted, trust, directory⟩ := result
            cases hrefused
            refine ⟨{ Inert.refl app with trust := htrust, silent := ?_ }, rfl⟩
            intro event
            dsimp only
            split <;> simp
          · rw [hrefused] at hadmitted
            cases hadmitted

/-- An untrusted session's frame that does not admit its peer. -/
theorem receiveFrame_untrusted {wire : Message} {answers : FrameAnswers}
    (h : ¬ AdmitsFrame x app link wire answers) :
    Inert app (receiveFrame x app link false wire answers).app
        (receiveFrame x app link false wire answers).effects
      ∧ (receiveFrame x app link false wire answers).trusted = false := by
  unfold receiveFrame
  cases htype : wire.type with
  | data => exact ⟨.refl app, rfl⟩
  | control =>
      cases hread : deserializeControlMessage wire.payload with
      | error e => exact ⟨.refl app, rfl⟩
      | ok incoming =>
          dsimp only
          by_cases hsender : incoming.sender = link.peer.nodeId
          · rw [if_neg (not_not.mpr hsender)]
            by_cases hjoin : incoming.type = .joinRequest
            · rw [if_neg (by simp [hjoin]), if_pos hjoin]
              refine receiveJoinRequest_refused fun request hrequest hvalid => ?_
              rw [Bool.eq_false_iff]
              intro hadmitted
              exact h ⟨htype, incoming, request, hread, hsender, hjoin, hrequest, hvalid, hadmitted⟩
            · rw [if_pos ⟨rfl, hjoin⟩]
              exact ⟨.refl app, rfl⟩
          · rw [if_pos hsender]
            exact ⟨.refl app, rfl⟩
  | _ => exact ⟨.refl app, rfl⟩

/-- A turn of an untrusted session without an admission. -/
theorem sessionTurn_untrusted {turn : SessionTurn} (htrusted : worker.trusted = false)
    (hnone : ¬ AdmitsJoin x app link worker turn) :
    Inert app (sessionTurn x app link worker turn).app (sessionTurn x app link worker turn).effects
      ∧ (sessionTurn x app link worker turn).worker.trusted = false := by
  unfold sessionTurn
  split
  · exact ⟨.refl app, htrusted⟩
  · next hrunning =>
      rw [Bool.not_eq_true', Bool.not_eq_false] at hrunning
      split
      · exact ⟨.refl app, htrusted⟩
      · next hdeadline =>
          have hearly : turn.now < worker.admissionDeadline := by
            rw [htrusted] at hdeadline
            simpa using hdeadline
          cases hreception : turn.reception with
          | closed => exact ⟨.refl app, htrusted⟩
          | timeout now requestSent =>
              dsimp only
              rw [if_neg (by simp [htrusted])]
              exact ⟨.refl app, htrusted⟩
          | frame receivedAt wire answers =>
              have hcounted : (worker.countMessage receivedAt).trusted = false := by
                rw [SessionWorker.countMessage_trusted, htrusted]
              dsimp only
              split
              · exact ⟨.refl app, hcounted⟩
              · next hlimit =>
                  rw [hcounted]
                  refine receiveFrame_untrusted fun hadmits => hnone ?_
                  exact ⟨hrunning, hearly, receivedAt, wire, answers, hreception,
                    not_lt.mp hlimit, hadmits⟩

/-! ## Whole sessions -/

/-- The worker's own turns, and what the other workers make of the shared
state in between. -/
inductive SessionInput where
  | others (app : AppState)
  | turn (turn : SessionTurn)

structure SessionRun where
  app : AppState
  worker : SessionWorker

variable (x link) in
def sessionStep (s : SessionRun) : SessionInput → SessionRun
  | .others app => { s with app := app }
  | .turn turn =>
      let result := sessionTurn x s.app link s.worker turn
      { app := result.app, worker := result.worker }

variable (x link) in
/-- No JOIN_REQUEST is admitted in this turn. -/
def NoAdmission (s : SessionRun) : SessionInput → Prop
  | .others _ => True
  | .turn turn => ¬ AdmitsJoin x s.app link s.worker turn

variable (x link) in
def TurnInert (s : SessionRun) : SessionInput → Prop
  | .others _ => True
  | .turn turn =>
      Inert s.app (sessionTurn x s.app link s.worker turn).app
        (sessionTurn x s.app link s.worker turn).effects

/-- As long as none of its JOIN_REQUESTs is admitted, an untrusted session
changes nothing, whatever the other workers do meanwhile. -/
theorem sessionRun_inert {s : SessionRun} {inputs : List SessionInput}
    (htrusted : s.worker.trusted = false)
    (hnone : Run.Along (sessionStep x link) (NoAdmission x link) s inputs) :
    Run.Along (sessionStep x link) (TurnInert x link) s inputs := by
  induction inputs generalizing s with
  | nil => trivial
  | cons input inputs ih =>
      cases input with
      | others app => exact ⟨trivial, ih htrusted hnone.2⟩
      | turn turn =>
          have hturn : TurnInert x link s (.turn turn)
              ∧ (sessionTurn x s.app link s.worker turn).worker.trusted = false :=
            sessionTurn_untrusted htrusted hnone.1
          exact ⟨hturn.1, ih hturn.2 hnone.2⟩

/-! ## What a session's worker sends -/

/-- HELLO and ROUTE_ADVERTISEMENT are not among the replies. -/
def IsReply (message : ControlMessage) : Prop :=
  message.type ≠ .hello ∧ message.type ≠ .routeAdvertisement

theorem contactMessage_reply {network : IPv6} {localContact : NodeContact}
    {table table' : KademliaTable} {peer : TlsPeer} {incoming reply : ControlMessage}
    (h : contactMessage x network localContact table peer incoming = some (table', some reply)) :
    IsReply reply := by
  have hdispatch : dispatchJoinProtocolMessage x table incoming (some localContact) true
      = some (table', reply) → IsReply reply := by
    intro hreply
    rcases dispatchJoinProtocolMessage_cases hreply with
      ⟨-, request, -, -, rfl⟩ | ⟨-, request, -, -, rfl⟩ | ⟨-, announce, -, -, rfl⟩
    all_goals simp [IsReply, controlMessageCreate]
  unfold contactMessage at h
  split at h
  · split at h <;> cases h
  · split at h
    · cases h
    · split at h
      · cases h
      · next hreply =>
          cases h
          exact hdispatch hreply
  · split at h
    · cases h
    · next hreply =>
        cases h
        exact hdispatch hreply
  · split at h
    · cases h
    · next hreply =>
        cases h
        exact hdispatch hreply
  · cases h

theorem receiveContact_replies {incoming message : ControlMessage} {answers : FrameAnswers}
    (h : SessionEffect.control message ∈ (receiveContact x app link incoming answers).effects) :
    IsReply message := by
  unfold receiveContact at h
  split at h
  · cases h
  · cases h
  · next contacts reply hcontact =>
      dsimp only at h
      have hreply : SessionEffect.control message ∈ [SessionEffect.control reply] →
          IsReply message := by
        intro hmem
        rw [List.mem_singleton, SessionEffect.control.injEq] at hmem
        rw [hmem]
        exact contactMessage_reply hcontact
      split at h
      · cases h
      · split at h
        · exact hreply h
        · exact hreply h

theorem receiveTrusted_replies {incoming message : ControlMessage} {answers : FrameAnswers}
    (h : SessionEffect.control message ∈ (receiveTrusted x app link incoming answers).effects) :
    IsReply message := by
  unfold receiveTrusted at h
  dsimp only at h
  split at h
  · split at h <;> cases h
  · split at h <;> cases h
  · exact receiveContact_replies h

theorem receiveFrame_replies {trusted : Bool} {wire : Message} {message : ControlMessage}
    {answers : FrameAnswers}
    (h : SessionEffect.control message ∈ (receiveFrame x app link trusted wire answers).effects) :
    IsReply message := by
  unfold receiveFrame at h
  split at h
  · split at h
    · cases h
    · obtain ⟨event, -, hevent⟩ := List.mem_map.mp h
      cases hevent
  · split at h
    · cases h
    · next incoming hread =>
        split_ifs at h
        · cases h
        · cases h
        · unfold receiveJoinRequest at h
          split at h
          · cases h
          · split at h
            · cases h
            · split at h
              · dsimp only at h
                split at h
                · rw [List.mem_singleton, SessionEffect.control.injEq] at h
                  rw [h]
                  simp [IsReply, rejectedJoin, controlMessageCreate]
                · cases h
              · exact receiveTrusted_replies h
        · exact receiveTrusted_replies h
  · cases h

/-- No turn of a session's worker sends a HELLO or a ROUTE_ADVERTISEMENT. -/
theorem sessionTurn_replies {turn : SessionTurn} {message : ControlMessage}
    (h : SessionEffect.control message ∈ (sessionTurn x app link worker turn).effects) :
    IsReply message := by
  unfold sessionTurn at h
  split at h
  · cases h
  · split at h
    · cases h
    · split at h
      · cases h
      · split at h
        · dsimp only at h
          split at h
          · cases h
          · rw [List.mem_singleton, SessionEffect.control.injEq] at h
            rw [h]
            simp [IsReply, refreshRequest, controlMessageCreate]
        · cases h
      · dsimp only at h
        split at h
        · cases h
        · exact receiveFrame_replies h

end Madoka

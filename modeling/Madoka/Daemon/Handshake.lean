import Madoka.Daemon.Delivery
import Madoka.Daemon.Invitations
import Madoka.Daemon.ReconnectStep
import Madoka.Network.Reencoding
import Madoka.Network.Refusals

/-!
# Handshake

Two nodes that trust each other: the one calls with a `reconnect_step`, the
other accepts the session and answers it in `run_session`. What both hold
afterwards.
-/

namespace Madoka

open Octets

variable (x : External)

/-! ## Both ends -/

/-- What the other end receives of a message that is sent. -/
def delivered (wire : Message) : Option Message :=
  match messageEncode wire with
  | .error _ => none
  | .ok bytes => (messageDecode bytes).toOption

/-- `accept_loop`: the session of an authenticated peer, once it is
registered. -/
def acceptSession (app : AppState) (peer : TlsPeer) (serial : Nat) :
    Option (AppState × SessionLink) :=
  let session : AppPeerSession := { serial := serial, peerId := some peer.nodeId, isOpen := true }
  (registerSession app.sessions session).map fun sessions =>
    ({ app with sessions := sessions }, { session := session, peer := peer })

/-- The first frame of an accepted session is a request of its peer. -/
def answerRequest (callee : AppState) (peer : TlsPeer) (serial : Nat) (request : ControlMessage)
    (answers : FrameAnswers) : Option FrameResult :=
  match acceptSession callee peer serial with
  | none => none
  | some (callee, link) =>
      (delivered (makeControlWire request)).map fun wire =>
        receiveFrame x callee link false wire answers

/-- What the caller receives of the effects of a frame. -/
def replyTo (result : Option FrameResult) : Option Message :=
  match result with
  | none => none
  | some result =>
      result.effects.findSome? fun effect =>
        match effect with
        | .control reply => delivered (makeControlWire reply)
        | .data _ => none

/-- What the caller meets when its target is the callee. -/
def calling (callee : TlsPeer) (result : Option FrameResult) (answers : ReconnectAnswers) :
    ReconnectAnswers :=
  { answers with connected := some callee, requestSent := true, reply := replyTo result }

/-- The node's own contact is what others are told of it. -/
structure KnowsItself (app : AppState) (key : PublicKey) : Prop where
  named : app.id ≠ zero 32
  derived : x.sha256 key = app.id
  contactId : app.localContact.id = app.id
  contactKey : app.localContact.publicKey = key
  contactAddress : app.localContact.virtualAddress = virtualAddress app.network app.id

/-- A link to the peer becomes the route to it: the topology knows the peer or
has room for it, and no neighbour that comes before it has advertised it with the
metric zero. -/
structure TakesNeighbor (app : AppState) (id : NodeId) : Prop where
  sound : TopologySound app.network app.topology
  room : (topologyFindPeer app.topology id).isSome = true ∨ app.topology.length < maxTopologyPeers
  advertisements : AdsNamed app.advertisements
  undisplaced : ∀ n, ¬ Displaces app.advertisements id n

/-- The table is rebuilt before the peer that was heard times out. -/
structure Prompt (answers : FrameAnswers) : Prop where
  started : 0 < answers.blockAt
  later : answers.blockAt ≤ answers.rebuiltAt
  soon : answers.rebuiltAt ≤ answers.blockAt + peerTimeoutMs

/-- The caller trusts the callee and is free to call it. -/
structure MayCall (caller : AppState) (callee : TlsPeer) (target : TrustedPeer)
    (answers : ReconnectAnswers) : Prop where
  targetId : target.id = callee.nodeId
  targetKey : target.publicKey = callee.pubkey
  trusted : trustContains caller.trust target.id = true
  mayConnect : mayConnect x caller target answers.contactEndpoint = true
  space : caller.sessions.length < maxPeerSessions
  neighbor : TakesNeighbor caller callee.nodeId
  prompt : Prompt answers.activation

/-- The callee trusts the caller, can store its record, and can answer. -/
structure MayAnswer (callee : AppState) (peer : TlsPeer) (endpoint : Bytes)
    (request : ControlMessage) (answers : FrameAnswers) : Prop where
  sorted : LowerBound.Sorted TrustedPeer.id callee.trust.peers
  known : (trustFind callee.trust peer.nodeId).any fun known => known.publicKey = peer.pubkey
  directory : callee.trust.directory ≠ []
  ensured : answers.admission.add.ensureDirectory = none
  stored : (privateWriteAtomically callee.directory (peerPath peer.nodeId)
    (encodePeer { id := peer.nodeId, publicKey := peer.pubkey, endpoint := endpoint })
    answers.admission.add.write).1 = .ok ()
  unlisted : ∀ s ∈ callee.sessions, s.peerId ≠ some peer.nodeId
  space : callee.sessions.length < maxPeerSessions
  neighbor : TakesNeighbor callee peer.nodeId
  wellFormed : callee.contacts.WellFormed
  owner : callee.contacts.localId = callee.id
  written : ContactsFit callee.contacts.contacts
  fits : ReplyFits x callee.contacts (some callee.localContact) request
  replySent : answers.replySent = true
  prompt : Prompt answers

/-- The callee, once it trusts the caller, has room for its session and can send
its answer. -/
structure CanAnswer (callee : AppState) (peer : TlsPeer) (request : ControlMessage)
    (answers : FrameAnswers) : Prop where
  unlisted : ∀ s ∈ callee.sessions, s.peerId ≠ some peer.nodeId
  space : callee.sessions.length < maxPeerSessions
  neighbor : TakesNeighbor callee peer.nodeId
  wellFormed : callee.contacts.WellFormed
  owner : callee.contacts.localId = callee.id
  written : ContactsFit callee.contacts.contacts
  fits : ReplyFits x callee.contacts (some callee.localContact) request
  replySent : answers.replySent = true
  prompt : Prompt answers

/-- A session with the peer is listed and open, and no other one with it is. For
as long as the peer counts as alive after it was heard, every packet for it, one
of the node's own or one to pass on that may still travel, is sent to it over that
session when the session can send. -/
structure InTouch (app : AppState) (session : AppPeerSession) (id : NodeId) (since : Nat) :
    Prop where
  listed : session ∈ app.sessions
  open' : session.isOpen = true
  peer : session.peerId = some id
  only : ∀ s ∈ app.sessions, s.peerId = some id → s.isOpen = true → s = session
  reached : ∀ answers : DataAnswers, since ≤ steadyMs answers.now →
    steadyMs answers.now ≤ since + peerTimeoutMs → (∀ wire, answers.sends id wire = true) →
    ∀ (packet : DataPacket) (origin : Bool), packet.destination = id →
      (origin = false → 1 < packet.ttl) →
      (forwardDataPacket app.dataNode answers packet origin).events
        = [.send id (dataMessage (leaving origin packet))]

variable {x}

theorem MayAnswer.canAnswer {callee : AppState} {peer : TlsPeer} {endpoint : Bytes}
    {request : ControlMessage} {answers : FrameAnswers}
    (h : MayAnswer x callee peer endpoint request answers) : CanAnswer x callee peer request answers :=
  ⟨h.unlisted, h.space, h.neighbor, h.wellFormed, h.owner, h.written, h.fits, h.replySent, h.prompt⟩

/-! ## Messages on the way -/

theorem delivered_control {message : ControlMessage}
    (h : controlMessageHeaderSize + message.payload.length ≤ maxPayloadSize) :
    delivered (makeControlWire message) = some (makeControlWire message) := by
  have hok := (messageEncode_control message).mpr h
  unfold delivered
  cases hencode : messageEncode (makeControlWire message) with
  | error e =>
      rw [hencode] at hok
      cases hok
  | ok bytes =>
      dsimp only
      rw [messageDecode_encode hencode]
      rfl

theorem read_makeControlWire {message : ControlMessage} (htype : message.type ≠ .invalid)
    (h : controlMessageHeaderSize + message.payload.length ≤ maxPayloadSize) :
    deserializeControlMessage (makeControlWire message).payload = .ok message := by
  have hlimit : maxPayloadSize ≤ maxPayloadLimit := by decide
  exact deserializeControlMessage_serialize htype (by omega)

/-! ## The callee -/

/-- A known peer that shows no invitation is admitted when its record can be
stored. -/
theorem admitJoin_known {network : IPv6} {localId : NodeId} {trust : TrustState} {d : Directory}
    {request : JoinRequest} {nowSeconds : UInt64} {answers : AdmissionAnswers}
    (hknown : (trustFind trust request.nodeId).any fun known => known.publicKey = request.publicKey)
    (htoken : request.inviteToken = [])
    (hadd : (trustAdd x trust d (requestedPeer request) answers.add).1 = .ok ()) :
    admitJoin x network localId trust d request nowSeconds answers
      = (true, (trustAdd x trust d (requestedPeer request) answers.add).2) := by
  have hfirst : invitedOrKnown x network localId trust d request nowSeconds answers.consume
      = (true, d) := by
    unfold invitedOrKnown
    obtain ⟨known, hfind, hkey⟩ := (Option.any_eq_true _ _).mp hknown
    have hkey : known.publicKey = request.publicKey := of_decide_eq_true hkey
    simp [hfind, hkey, htoken]
  rw [admitJoin, hfirst]
  dsimp only
  generalize trustAdd x trust d (requestedPeer request) answers.add = added at hadd
  obtain ⟨result, trust', d'⟩ := added
  dsimp only at hadd
  rw [hadd]

/-- Touching a neighbour writes the topology and the table only. -/
theorem touchNeighbor_eq (app : AppState) (id : NodeId) (answers : FrameAnswers) :
    ∃ table, touchNeighbor app id answers
      = { app with topology := (touchBlock app.topology id answers.touchedAt).1, table := table } := by
  unfold touchNeighbor
  dsimp only
  split
  · exact ⟨_, rfl⟩
  · exact ⟨app.table, rfl⟩

theorem length_touchBlock {topo : Topology} (hdistinct : (topo.map Peer.id).Nodup) (id : NodeId)
    (now : Nat) : (touchBlock topo id now).1.length = topo.length := by
  rw [touchBlock_eq hdistinct, List.length_map]

/-- Touching a neighbour keeps room for it. -/
theorem TakesNeighbor.touched {app : AppState} {id : NodeId} (h : TakesNeighbor app id) (now : Nat)
    (table : RouteTable) (contacts : KademliaTable) :
    TakesNeighbor { app with
      topology := (touchBlock app.topology id now).1
      table := table
      contacts := contacts } id where
  sound := h.sound.touchBlock id now
  room := by
    have hsame : ∀ p, (Peer.heard now p).id = p.id := fun _ => rfl
    dsimp only
    rw [length_touchBlock h.sound.distinct, touchBlock_eq h.sound.distinct,
      topologyFindPeer_changeAt hsame, Option.isSome_map]
    exact h.room
  advertisements := h.advertisements
  undisplaced := h.undisplaced

theorem activateBlock_room {app : AppState} {contact : NodeContact}
    (h : TakesNeighbor app contact.id) (timestamp : Nat) :
    ∃ topo', activateBlock app.topology contact timestamp = some topo' := by
  have hroom := h.room
  unfold activateBlock
  cases hfind : topologyFindPeer app.topology contact.id with
  | none =>
      have hspace : ¬ app.topology.length ≥ maxTopologyPeers := by
        rw [hfind] at hroom
        simpa using hroom
      simp [topologyAddPeer, hfind, hspace]
  | some p =>
      dsimp only
      rw [topologyModify_eq h.sound.distinct, hfind]
      exact ⟨_, rfl⟩

/-- Activating a neighbour leaves the trust store alone. -/
theorem activateNeighbor_store (app : AppState) (contact : NodeContact) (answers : FrameAnswers) :
    (activateNeighbor app contact answers).2.trust = app.trust
      ∧ (activateNeighbor app contact answers).2.directory = app.directory := by
  unfold activateNeighbor
  split
  · exact ⟨rfl, rfl⟩
  · split <;> exact ⟨rfl, rfl⟩

theorem peerIsAlive_heard {p : Peer} {since now : Nat} (hconnected : p.state = .connected)
    (hseen : p.lastSeen = since) (hstarted : 0 < since) (hsince : since ≤ now)
    (huntil : now ≤ since + peerTimeoutMs) : peerIsAlive p now peerTimeoutMs = true := by
  subst hseen
  unfold peerIsAlive
  rw [hconnected, if_neg (by simp), if_neg (by omega)]
  exact decide_eq_true (by omega)

/-- The rebuilt table leads to a live neighbour directly when no other neighbour
displaces it. -/
theorem rebuild_findRoute {network : IPv6} {peers : List Peer} {ads : RouteAdvertisements} {p : Peer}
    {now : Nat} (hpeers : TopologySound network peers) (hads : AdsNamed ads) (hp : p ∈ peers)
    (halive : peerIsAlive p now peerTimeoutMs = true) (hnone : ∀ n, ¬ Displaces ads p.id n) :
    routingFindRoute (rebuildRoutingTable peers ads now) p.id = some (directRoute now p) := by
  obtain ⟨-, hfinal⟩ := rebuild_directOr hpeers.toPeersSound hpeers.bounded hads hp halive
  generalize hroute : routingFindRoute (rebuildRoutingTable peers ads now) p.id = route at hfinal
  cases hfinal with
  | direct => rfl
  | displaced _ hdisplaces _ _ => exact absurd hdisplaces (hnone _)

/-- An open session with a live peer is found by the next hop. -/
theorem findSession_listed {app : AppState} {session : AppPeerSession} {id : NodeId} {p : Peer}
    {now : Nat} (hlisted : session ∈ app.sessions) (hopen : session.isOpen = true)
    (hpeer : session.peerId = some id) (hfind : topologyFindPeer app.topology id = some p)
    (halive : peerIsAlive p (steadyMs now) peerTimeoutMs = true) :
    (findSessionByNextHop app.dataNode now id).isSome = true := by
  have hfind' : topologyFindPeer app.dataNode.topology id = some p := hfind
  rw [peerTimeoutMs] at halive
  unfold findSessionByNextHop
  rw [List.find?_isSome]
  refine ⟨{ peerId := session.peerId, isOpen := session.isOpen }, ?_, ?_⟩
  · exact List.mem_map.mpr ⟨session, hlisted, rfl⟩
  · show decide _ = true
    simp [hpeer, hopen, hfind', halive]

/-- A contact that may be activated and finds room is in touch. -/
theorem activateNeighbor_inTouch {app : AppState} {session : AppPeerSession} {contact : NodeContact}
    {answers : FrameAnswers} (hlisted : session ∈ app.sessions) (hopen : session.isOpen = true)
    (hpeer : session.peerId = some contact.id)
    (honly : ∀ s ∈ app.sessions, s.peerId = some contact.id → s.isOpen = true → s = session)
    (hmay : mayActivate app.network app.id app.trust contact = true)
    (hneighbor : TakesNeighbor app contact.id) (hprompt : Prompt answers) :
    (activateNeighbor app contact answers).1 = true
      ∧ InTouch (activateNeighbor app contact answers).2 session contact.id answers.blockAt := by
  obtain ⟨topology, hblock⟩ := activateBlock_room hneighbor answers.blockAt
  obtain ⟨hnamed, hother, -, haddress⟩ := mayActivate_iff.mp hmay
  have hsound : TopologySound app.network topology :=
    hneighbor.sound.activateBlock hnamed haddress hblock
  obtain ⟨p, hfind, hconnected, hseen⟩ := activateBlock_find hneighbor.sound.distinct hblock
  obtain ⟨hp, hid⟩ := topologyFindPeer_mem hfind
  have hroute : routingFindRoute (rebuildRoutingTable topology app.advertisements answers.rebuiltAt)
      contact.id = some (directRoute answers.rebuiltAt p) := by
    rw [← hid]
    exact rebuild_findRoute hsound hneighbor.advertisements hp
      (peerIsAlive_heard hconnected hseen hprompt.started hprompt.later hprompt.soon)
      (hid ▸ hneighbor.undisplaced)
  have heq : activateNeighbor app contact answers
      = (true, { app with topology := topology }.rebuild answers.rebuiltAt) := by
    unfold activateNeighbor
    rw [hmay, hblock]
    rfl
  rw [heq]
  refine ⟨rfl, hlisted, hopen, hpeer, honly, ?_⟩
  intro given hsince huntil hsends packet origin hdestination hlive
  have halive := peerIsAlive_heard hconnected hseen hprompt.started hsince huntil
  refine (forwardDataPacket_transmit origin ⟨?_, ?_, ?_, hsends⟩ hlive).1
  · rw [hdestination]
    exact Ne.symm hother
  · rw [hdestination]
    exact ⟨_, hroute, hid, show 1 < routeMetricInfinity by decide⟩
  · exact @findSession_listed (AppState.rebuild { app with topology := topology }
      answers.rebuiltAt) session _ p given.now hlisted hopen hpeer hfind halive

section
variable {callee : AppState} {peer : TlsPeer} {serial : Nat} {answers : FrameAnswers}
  {request : JoinRequest} {sequenceNumber : UInt64} {key : PublicKey}

/-- The message a request travels in. -/
def joinMessage (sequenceNumber : UInt64) (sender : NodeId) (request : JoinRequest) :
    ControlMessage :=
  controlMessageCreate .joinRequest sequenceNumber sender (serializeJoinRequest request)

/-- The response to an admitted request, and the table it leaves. -/
def joinAnswer (x : External) (app : AppState) (request : JoinRequest) : JoinResponse :=
  (processJoinRequest x app.contacts request (some app.localContact)).2.2

theorem joinAnswer_fits (hself : KnowsItself x callee key) (hwell : callee.contacts.WellFormed)
    (hwritten : ContactsFit callee.contacts.contacts)
    (hboot : callee.localContact.endpoint.length ≤ maxContactEndpointSize)
    (hendpoint : request.endpoint.length ≤ maxContactEndpointSize)
    (hid : x.sha256 request.publicKey = request.nodeId) :
    (joinAnswer x callee request).accepted = true
      ∧ (joinAnswer x callee request).boot = callee.localContact
      ∧ (joinAnswer x callee request).peers.length ≤ kademliaK
      ∧ ContactsFit ((joinAnswer x callee request).boot :: (joinAnswer x callee request).peers) := by
  have hnamed : callee.localContact.id ≠ zero 32 := hself.contactId ▸ hself.named
  have heq : joinAnswer x callee request
      = { accepted := true
          bootstrapContact := callee.localContact
          bootstrapId := callee.localContact.id
          peers := kademliaFindClosest
            (kademliaInsert callee.contacts (requestContact request) none).2 request.nodeId
            kademliaK } := by
    unfold joinAnswer processJoinRequest
    rw [if_neg (not_not.mpr hid)]
    rfl
  have hbootEq : (joinAnswer x callee request).boot = callee.localContact := by
    rw [heq, JoinResponse.boot, if_neg hnamed]
  have hinserted : Inserted (fun c => c.endpoint.length ≤ maxContactEndpointSize) callee.contacts
      (kademliaInsert callee.contacts (requestContact request) none).2 :=
    inserted_kademliaInsert hendpoint
  refine ⟨by rw [heq], hbootEq, by rw [heq]; exact length_kademliaFindClosest_le _ _ _, ?_⟩
  intro c hc
  rcases List.mem_cons.mp hc with rfl | hc
  · rw [hbootEq]
    exact hboot
  · rw [heq] at hc
    exact hinserted.fit hwell hwritten c (mem_of_mem_kademliaFindClosest hc)

theorem dispatch_join (hread : request.endpoint.length ≤ 255 ∧ request.inviteToken.length ≤ 512)
    (howner : callee.contacts.localId = callee.id) (sender : NodeId) :
    dispatchJoinProtocolMessage x callee.contacts (joinMessage sequenceNumber sender request)
        (some callee.localContact) true
      = some ((processJoinRequest x callee.contacts request (some callee.localContact)).2.1,
          controlMessageCreate .joinResponse sequenceNumber callee.id
            (serializeJoinResponse (joinAnswer x callee request))) := by
  have howner' : (processJoinRequest x callee.contacts request
      (some callee.localContact)).2.1.localId = callee.id := by
    unfold processJoinRequest
    split
    · exact howner
    · exact (kademliaInsert_localId ..).trans howner
  unfold dispatchJoinProtocolMessage
  simp only [joinMessage, controlMessageCreate, deserializeJoinRequest_serialize hread]
  rw [← howner']
  rfl

theorem contactMessage_join (hread : request.endpoint.length ≤ 255 ∧ request.inviteToken.length ≤ 512)
    (howner : callee.contacts.localId = callee.id) (sender : NodeId) :
    contactMessage x callee.network callee.localContact callee.contacts peer
        (joinMessage sequenceNumber sender request)
      = some ((processJoinRequest x callee.contacts request (some callee.localContact)).2.1,
          some (controlMessageCreate .joinResponse sequenceNumber callee.id
            (serializeJoinResponse (joinAnswer x callee request)))) := by
  have htype : (joinMessage sequenceNumber sender request).type = .joinRequest := rfl
  unfold contactMessage
  rw [htype]
  dsimp only
  rw [dispatch_join hread howner sender]

theorem boundContact_join {sender : NodeId} {response : JoinResponse}
    (hread : request.endpoint.length ≤ 255 ∧ request.inviteToken.length ≤ 512)
    (haccepted : response.accepted = true) (hcount : response.peers.length ≤ kademliaK)
    (hfit : ContactsFit (response.boot :: response.peers)) :
    boundContact (joinMessage sequenceNumber sender request)
        (controlMessageCreate .joinResponse sequenceNumber callee.id
          (serializeJoinResponse response))
      = some (requestContact request) := by
  simp only [boundContact, joinMessage, controlMessageCreate,
    deserializeJoinRequest_serialize hread, deserializeJoinResponse_serialize hcount hfit,
    haccepted, if_true]

/-- The request of a peer over its own session. -/
structure Presents (x : External) (network : IPv6) (peer : TlsPeer) (request : JoinRequest) :
    Prop where
  nodeId : request.nodeId = peer.nodeId
  publicKey : request.publicKey = peer.pubkey
  virtualAddress : request.virtualAddress = virtualAddress network request.nodeId
  endpoint : validEndpoint x request.endpoint = true
  token : request.inviteToken.length ≤ 512
  derived : x.sha256 request.publicKey = request.nodeId
  named : request.nodeId ≠ zero 32

theorem Presents.fits {network : IPv6} (h : Presents x network peer request) :
    request.endpoint.length ≤ 255 ∧ request.inviteToken.length ≤ 512 :=
  ⟨(validEndpoint_iff.mp h.endpoint).2.1, h.token⟩

theorem Presents.valid {network : IPv6} (h : Presents x network peer request) :
    joinRequestValid x network peer.nodeId peer.pubkey request = true :=
  decide_eq_true ⟨h.nodeId, h.publicKey, h.virtualAddress, (validEndpoint_iff.mp h.endpoint).2.2.2⟩

/-- A node that may answer a known peer trusts it afterwards. -/
theorem MayAnswer.admits {message : ControlMessage}
    (h : MayAnswer x callee peer request.endpoint message answers)
    (hrequest : Presents x callee.network peer request) (htoken : request.inviteToken = []) :
    ∃ trust directory, admitJoin x callee.network callee.id callee.trust callee.directory request
        answers.nowSeconds answers.admission = (true, trust, directory)
      ∧ trustContains trust request.nodeId = true := by
  have hknown : (trustFind callee.trust request.nodeId).any fun known =>
      known.publicKey = request.publicKey := by
    rw [hrequest.nodeId, hrequest.publicKey]
    exact h.known
  have hbinding : validIdentityBinding x (requestedPeer request) = true :=
    decide_eq_true ⟨hrequest.named, hrequest.derived⟩
  obtain ⟨known, hfind, -⟩ := (Option.any_eq_true _ _).mp hknown
  obtain ⟨hmem, hid⟩ := LowerBound.find?_some hfind
  -- a known peer has its place in a full table too
  have hadd : (trustAdd x callee.trust callee.directory (requestedPeer request)
      answers.admission.add).1 = .ok () := by
    rw [trustAdd_ok_iff]
    refine ⟨h.directory, hrequest.endpoint, hbinding, h.ensured, ?_, ?_⟩
    · intro hfull
      have hlt := hfull.1 known hmem
      rw [hid] at hlt
      exact lt_irrefl _ hlt
    · have hstored := h.stored
      rw [← hrequest.nodeId, ← hrequest.publicKey] at hstored
      exact hstored
  refine ⟨_, _, admitJoin_known hknown htoken hadd, ?_⟩
  have hpeers : (trustAdd x callee.trust callee.directory (requestedPeer request)
      answers.admission.add).2.1.peers
      = LowerBound.put TrustedPeer.id (requestedPeer request) callee.trust.peers := by
    rcases trustAdd_cases x callee.trust callee.directory (requestedPeer request)
      answers.admission.add with ⟨e, herror, -⟩ | ⟨-, -, -, -, heq⟩
    · rw [hadd] at herror
      cases herror
    · rw [heq]
  rw [trustContains_iff (by rw [hpeers]; exact LowerBound.put_sorted h.sorted _)]
  refine ⟨requestedPeer request, ?_, rfl⟩
  rw [hpeers, LowerBound.mem_put h.sorted]
  exact .inl rfl

theorem joinMessage_room {sender : NodeId}
    (hread : request.endpoint.length ≤ 255 ∧ request.inviteToken.length ≤ 512) :
    controlMessageHeaderSize + (joinMessage sequenceNumber sender request).payload.length
      ≤ maxPayloadSize := by
  show controlMessageHeaderSize + (serializeJoinRequest request).length ≤ _
  rw [serializeJoinRequest_length hread]
  simp only [controlMessageHeaderSize, maxPayloadSize, maxMessageSize, headerSize]
  omega

/-- An admitted request is handled as one of a trusted session. -/
theorem receiveFrame_join {app : AppState} {session : AppPeerSession} {trust : TrustState}
    {directory : Directory} (hrequest : Presents x app.network peer request)
    (hgranted : admitJoin x app.network app.id app.trust app.directory request answers.nowSeconds
      answers.admission = (true, trust, directory)) :
    receiveFrame x app ⟨session, peer⟩ false
        (makeControlWire (joinMessage sequenceNumber peer.nodeId request)) answers
      = receiveTrusted x { app with trust := trust, directory := directory } ⟨session, peer⟩
          (joinMessage sequenceNumber peer.nodeId request) answers := by
  have hread := read_makeControlWire
    (show (joinMessage sequenceNumber peer.nodeId request).type ≠ .invalid from nofun)
    (joinMessage_room hrequest.fits)
  have hpayload : deserializeJoinRequest (joinMessage sequenceNumber peer.nodeId request).payload
      = .ok request := deserializeJoinRequest_serialize hrequest.fits
  have htype : (joinMessage sequenceNumber peer.nodeId request).type = .joinRequest := rfl
  have hsender : (joinMessage sequenceNumber peer.nodeId request).sender = peer.nodeId := rfl
  generalize joinMessage sequenceNumber peer.nodeId request = message at *
  unfold receiveFrame
  rw [show (makeControlWire message).type = .control from rfl]
  dsimp only
  rw [hread]
  dsimp only
  rw [if_neg (not_not.mpr hsender), if_neg (fun hother => hother.2 htype), if_pos htype]
  unfold receiveJoinRequest
  rw [hpayload]
  dsimp only
  rw [hrequest.valid, hgranted]
  rfl

/-- The request is answered, and the session is bound to its peer. -/
theorem receiveTrusted_join {app : AppState} {session : AppPeerSession} {contacts : KademliaTable}
    {reply : ControlMessage}
    (hcontact : contactMessage x app.network app.localContact app.contacts peer
      (joinMessage sequenceNumber request.nodeId request) = some (contacts, some reply))
    (hbound : boundContact (joinMessage sequenceNumber request.nodeId request) reply
      = some (requestContact request))
    (hallowed : bindAllowed app.sessions session (some peer.nodeId) (requestContact request) = true)
    (hmay : mayActivate app.network app.id app.trust (requestContact request) = true)
    (hlisted : session ∈ app.sessions) (hopen : session.isOpen = true)
    (hpeer : session.peerId = some request.nodeId)
    (honly : ∀ s ∈ app.sessions, s.peerId = some request.nodeId → s.isOpen = true → s = session)
    (hneighbor : TakesNeighbor app request.nodeId) (hsent : answers.replySent = true)
    (hprompt : Prompt answers) :
    ∃ after, receiveTrusted x app ⟨session, peer⟩ (joinMessage sequenceNumber request.nodeId request)
        answers = { app := after, trusted := true, effects := [.control reply], continues := true }
      ∧ InTouch after session request.nodeId answers.blockAt
      ∧ after.trust = app.trust ∧ after.directory = app.directory := by
  obtain ⟨table, htouch⟩ := touchNeighbor_eq app request.nodeId answers
  obtain ⟨htrue, hintouch⟩ := @activateNeighbor_inTouch
    { app with
      topology := (touchBlock app.topology request.nodeId answers.touchedAt).1
      table := table
      contacts := contacts } session (requestContact request) answers hlisted hopen hpeer honly hmay
    (hneighbor.touched answers.touchedAt table contacts) hprompt
  refine ⟨_, ?_, hintouch, activateNeighbor_store ..⟩
  have htype : (joinMessage sequenceNumber request.nodeId request).type = .joinRequest := rfl
  have hsender : (joinMessage sequenceNumber request.nodeId request).sender = request.nodeId := rfl
  generalize joinMessage sequenceNumber request.nodeId request = message at *
  unfold receiveTrusted
  rw [hsender, htouch, htype]
  dsimp only
  unfold receiveContact
  dsimp only
  rw [hcontact]
  dsimp only
  rw [hsent, hbound]
  dsimp only
  rw [Bool.not_true, if_neg Bool.false_ne_true]
  unfold bindSession
  dsimp only
  rw [hallowed, Bool.not_true, if_neg Bool.false_ne_true, htrue]

/-- The callee registers the session, admits the caller, answers with an
acceptance, and is in touch with the caller. -/
theorem answerRequest_connects {trust : TrustState} {directory : Directory}
    (hself : KnowsItself x callee key)
    (h : CanAnswer x callee peer (joinMessage sequenceNumber peer.nodeId request) answers)
    (hrequest : Presents x callee.network peer request)
    (hgranted : admitJoin x callee.network callee.id callee.trust callee.directory request
      answers.nowSeconds answers.admission = (true, trust, directory))
    (htrusted : trustContains trust request.nodeId = true) (hother : request.nodeId ≠ callee.id)
    (hlocal : callee.localContact.endpoint.length ≤ maxContactEndpointSize) :
    ∃ after, answerRequest x callee peer serial (joinMessage sequenceNumber peer.nodeId request)
          answers
        = some { app := after
                 trusted := true
                 effects := [.control (controlMessageCreate .joinResponse sequenceNumber callee.id
                   (serializeJoinResponse (joinAnswer x callee request)))]
                 continues := true }
      ∧ InTouch after { serial := serial, peerId := some peer.nodeId, isOpen := true } peer.nodeId
        answers.blockAt
      ∧ after.trust = trust ∧ after.directory = directory := by
  obtain ⟨haccepted, hboot, hcount, hfit⟩ := joinAnswer_fits hself h.wellFormed h.written hlocal
    hrequest.fits.1 hrequest.derived
  obtain ⟨nodeId, pubkey⟩ := peer
  obtain rfl : request.nodeId = nodeId := hrequest.nodeId
  dsimp only at *
  generalize hsession : ({ serial := serial, peerId := some request.nodeId, isOpen := true } :
    AppPeerSession) = session
  have hpeer : session.peerId = some request.nodeId := by rw [← hsession]
  have hopen : session.isOpen = true := by rw [← hsession]
  -- no other session of the peer is listed, so this one is registered and bound
  have hregister : registerSession callee.sessions session = some (callee.sessions ++ [session]) := by
    have hsingle : (callee.sessions.any fun existing =>
        decide (existing.peerId = some request.nodeId ∧ existing.isOpen)) = false := by
      rw [List.any_eq_false]
      intro s hs hsame
      exact h.unlisted s hs (of_decide_eq_true hsame).1
    unfold registerSession
    rw [hpeer]
    dsimp only
    rw [if_neg (not_le.mpr h.space), hsingle]
    rfl
  have hallowed : bindAllowed (callee.sessions ++ [session]) session (some request.nodeId)
      (requestContact request) = true := by
    refine decide_eq_true ⟨rfl, ?_⟩
    rw [List.all_eq_true]
    intro s hs
    rcases List.mem_append.mp hs with hs | hs
    · have hno : s.peerId ≠ some (requestContact request).id := by
        exact h.unlisted s hs
      simp [hno]
    · rw [List.mem_singleton.mp hs]
      simp
  have honly : ∀ s ∈ callee.sessions ++ [session], s.peerId = some request.nodeId →
      s.isOpen = true → s = session := by
    intro s hs hsame _
    rcases List.mem_append.mp hs with hs | hs
    · exact absurd hsame (h.unlisted s hs)
    · exact List.mem_singleton.mp hs
  have hmay : mayActivate callee.network callee.id trust (requestContact request) = true :=
    mayActivate_iff.mpr ⟨hrequest.named, hother, htrusted, hrequest.virtualAddress⟩
  have haccept : acceptSession callee ⟨request.nodeId, pubkey⟩ serial
      = some ({ callee with sessions := callee.sessions ++ [session] }, ⟨session, ⟨request.nodeId, pubkey⟩⟩) := by
    unfold acceptSession
    dsimp only
    rw [hsession, hregister]
    rfl
  rw [answerRequest, haccept, delivered_control (joinMessage_room hrequest.fits)]
  dsimp only [Option.map_some]
  rw [@receiveFrame_join x ⟨request.nodeId, pubkey⟩ answers request sequenceNumber
    { callee with sessions := callee.sessions ++ [session] } session trust directory hrequest hgranted]
  obtain ⟨after, heq, hintouch⟩ := @receiveTrusted_join x ⟨request.nodeId, pubkey⟩ answers request sequenceNumber
    { callee with
      sessions := callee.sessions ++ [session]
      trust := trust
      directory := directory } session _ _
    (contactMessage_join hrequest.fits h.owner request.nodeId)
    (boundContact_join hrequest.fits haccepted hcount hfit) hallowed hmay
    (List.mem_append_right _ List.mem_cons_self) hopen hpeer honly
    ⟨h.neighbor.sound, h.neighbor.room, h.neighbor.advertisements, h.neighbor.undisplaced⟩
    h.replySent h.prompt
  exact ⟨after, congrArg some heq, hintouch⟩

end

/-! ## The caller -/

section
variable {caller callee : AppState} {callerKey calleeKey : PublicKey} {target : TrustedPeer}
  {answers : ReconnectAnswers} {wire : Message} {response : JoinResponse}

/-- An acceptance that carries the callee's own contact is taken. -/
theorem reconnectContact_own (hself : KnowsItself x callee calleeKey)
    (hid : target.id = callee.id) (hkey : target.publicKey = calleeKey)
    (hown : response.bootstrapContact = callee.localContact) :
    ∃ contact, reconnectContact callee.network target response = some contact := by
  unfold reconnectContact
  dsimp only
  rw [hown, hself.contactId, hself.contactKey, hself.contactAddress, hid, hkey]
  simp

theorem acceptance_of_reply (sequenceNumber : UInt64)
    (hroom : controlMessageHeaderSize + (serializeJoinResponse response).length ≤ maxPayloadSize)
    (haccepted : response.accepted = true) (hcount : response.peers.length ≤ kademliaK)
    (hfit : ContactsFit (response.boot :: response.peers)) :
    ∃ read, acceptance callee.id (makeControlWire (controlMessageCreate .joinResponse sequenceNumber
        callee.id (serializeJoinResponse response))) = some read
      ∧ read.bootstrapContact = response.boot := by
  have hread := read_makeControlWire (show (controlMessageCreate .joinResponse sequenceNumber
    callee.id (serializeJoinResponse response)).type ≠ .invalid from nofun) hroom
  have hresponse := deserializeJoinResponse_serialize hcount hfit
  refine ⟨{ accepted := response.accepted
            bootstrapContact := response.boot
            bootstrapId := response.boot.id
            peers := response.peers }, ?_, rfl⟩
  have htype : (makeControlWire (controlMessageCreate .joinResponse sequenceNumber callee.id
    (serializeJoinResponse response))).type = .control := rfl
  unfold acceptance
  rw [if_neg (not_not.mpr htype), hread]
  simp only [controlMessageCreate, ne_eq, not_true_eq_false, or_self, if_false, hresponse]
  rw [if_pos haccepted]

/-- The caller enters the session of a target that has accepted it. -/
theorem reconnectTarget_connects (h : MayCall x caller ⟨callee.id, calleeKey⟩ target answers)
    (hself : KnowsItself x callee calleeKey) (hnetwork : callee.network = caller.network)
    (hconnected : answers.connected = some ⟨callee.id, calleeKey⟩)
    (hsent : answers.requestSent = true) (hreply : answers.reply = some wire)
    (haccepted : acceptance callee.id wire = some response)
    (hown : response.bootstrapContact = callee.localContact) :
    (reconnectTarget x caller target answers).link
        = some ⟨⟨answers.serial, some callee.id, true⟩, ⟨callee.id, calleeKey⟩⟩
      ∧ InTouch (reconnectTarget x caller target answers).app
        ⟨answers.serial, some callee.id, true⟩ callee.id answers.activation.blockAt := by
  have hid : target.id = callee.id := h.targetId
  have hkey : target.publicKey = calleeKey := h.targetKey
  have hmay := h.mayConnect
  obtain ⟨hcalls, -, hfree⟩ : caller.id < target.id ∧ usableEndpoint x target.endpoint = true
      ∧ (!alreadyConnected caller.sessions answers.contactEndpoint target) = true :=
    of_decide_eq_true hmay
  have hnone : ∀ s ∈ caller.sessions, s.peerId = some callee.id → ¬ s.isOpen = true := by
    intro s hs hpeer hopen
    rw [Bool.not_eq_true', alreadyConnected, List.any_eq_false] at hfree
    exact hfree s hs (decide_eq_true ⟨hopen, .inl (hid ▸ hpeer)⟩)
  have hsingle : (caller.sessions.any fun s => decide (s.peerId = some callee.id ∧ s.isOpen))
      = false := by
    rw [List.any_eq_false]
    intro s hs hopen
    obtain ⟨hpeer, hopen⟩ := of_decide_eq_true hopen
    exact hnone s hs hpeer hopen
  have honly : ∀ s ∈ caller.sessions ++ [⟨answers.serial, some callee.id, true⟩],
      s.peerId = some callee.id → s.isOpen = true → s = ⟨answers.serial, some callee.id, true⟩ := by
    intro s hs hpeer hopen
    rcases List.mem_append.mp hs with hs | hs
    · exact absurd hopen (hnone s hs hpeer)
    · exact List.mem_singleton.mp hs
  obtain ⟨contact, hcontact⟩ := reconnectContact_own hself hid hkey hown
  obtain ⟨hname, -, -, haddress⟩ := reconnectContact_some hcontact
  rw [hnetwork] at hcontact haddress
  rw [hid] at hname
  have hmayActivate : mayActivate caller.network caller.id caller.trust contact = true := by
    rw [mayActivate_iff, hname, haddress, hid]
    exact ⟨hself.named, hid ▸ ne_of_gt hcalls, hid ▸ h.trusted, rfl⟩
  have hneighbor : TakesNeighbor { caller with
      sessions := caller.sessions ++ [⟨answers.serial, some callee.id, true⟩] } contact.id := by
    rw [hname]
    exact ⟨h.neighbor.sound, h.neighbor.room, h.neighbor.advertisements, h.neighbor.undisplaced⟩
  have hregister : registerSession caller.sessions ⟨answers.serial, some callee.id, true⟩
      = some (caller.sessions ++ [⟨answers.serial, some callee.id, true⟩]) := by
    unfold registerSession
    dsimp only
    rw [if_neg (not_le.mpr h.space), hsingle]
    rfl
  obtain ⟨htrue, hintouch⟩ := @activateNeighbor_inTouch
    { caller with sessions := caller.sessions ++ [⟨answers.serial, some callee.id, true⟩] }
    ⟨answers.serial, some callee.id, true⟩ contact answers.activation
    (List.mem_append_right _ List.mem_cons_self) rfl (congrArg some hname.symm)
    (hname ▸ honly) hmayActivate hneighbor h.prompt
  have henter : enterSession caller ⟨⟨answers.serial, some callee.id, true⟩, ⟨callee.id, calleeKey⟩⟩
      contact answers.activation = (true, (activateNeighbor { caller with sessions :=
        caller.sessions ++ [⟨answers.serial, some callee.id, true⟩] } contact
          answers.activation).2) := by
    unfold enterSession
    dsimp only
    rw [hregister]
    dsimp only
    generalize activateNeighbor _ contact answers.activation = activated at htrue
    obtain ⟨entered, after⟩ := activated
    cases htrue
    rfl
  have heq : reconnectTarget x caller target answers
      = { app := (activateNeighbor { caller with sessions :=
            caller.sessions ++ [⟨answers.serial, some callee.id, true⟩] } contact
              answers.activation).2
          request := some (reconnectRequest caller answers.sequenceNumber answers.nowMs)
          link := some ⟨⟨answers.serial, some callee.id, true⟩, ⟨callee.id, calleeKey⟩⟩ } := by
    unfold reconnectTarget
    rw [hmay, hconnected]
    simp only [Bool.not_true, Bool.false_eq_true, if_false]
    rw [if_neg (by simp [hid, hkey]), hsingle, hsent, hreply]
    simp only [Bool.not_true, Bool.false_eq_true, if_false, Option.bind_some, haccepted, hcontact,
      henter, if_true]
  rw [heq]
  exact ⟨rfl, hname ▸ hintouch⟩

end

/-! ## The handshake -/

section
variable {caller callee : AppState} {callerKey calleeKey : PublicKey} {target : TrustedPeer}
  {answers : ReconnectAnswers} {given : FrameAnswers}

theorem reconnectJoin_presents (hcaller : KnowsItself x caller callerKey)
    (hendpoint : validEndpoint x caller.localContact.endpoint = true) (nowMs : UInt64) :
    Presents x caller.network ⟨caller.id, callerKey⟩ (reconnectJoin caller nowMs) where
  nodeId := rfl
  publicKey := hcaller.contactKey
  virtualAddress := hcaller.contactAddress
  endpoint := hendpoint
  token := Nat.zero_le _
  derived := by
    show x.sha256 caller.localContact.publicKey = caller.id
    rw [hcaller.contactKey]
    exact hcaller.derived
  named := hcaller.named

/-- When one node calls another, and each trusts the other and has room for it,
both end up with an open session that packets for the other go out on: the
request is admitted without an invitation and the answer is accepted. -/
theorem handshake_connects (serial : Nat) (hnetwork : callee.network = caller.network)
    (hcaller : KnowsItself x caller callerKey) (hcallee : KnowsItself x callee calleeKey)
    (hendpoint : validEndpoint x caller.localContact.endpoint = true)
    (hcall : MayCall x caller ⟨callee.id, calleeKey⟩ target answers)
    (hanswer : MayAnswer x callee ⟨caller.id, callerKey⟩ caller.localContact.endpoint
      (reconnectRequest caller answers.sequenceNumber answers.nowMs) given) :
    ∃ heard, answerRequest x callee ⟨caller.id, callerKey⟩ serial
          (reconnectRequest caller answers.sequenceNumber answers.nowMs) given = some heard
      ∧ heard.trusted = true ∧ heard.continues = true
      ∧ InTouch heard.app ⟨serial, some caller.id, true⟩ caller.id given.blockAt
      ∧ (reconnectTarget x caller target (calling ⟨callee.id, calleeKey⟩ (some heard) answers)).link
        = some ⟨⟨answers.serial, some callee.id, true⟩, ⟨callee.id, calleeKey⟩⟩
      ∧ InTouch (reconnectTarget x caller target
          (calling ⟨callee.id, calleeKey⟩ (some heard) answers)).app
        ⟨answers.serial, some callee.id, true⟩ callee.id answers.activation.blockAt := by
  have hpresents : Presents x callee.network ⟨caller.id, callerKey⟩
      (reconnectJoin caller answers.nowMs) :=
    hnetwork ▸ reconnectJoin_presents hcaller hendpoint answers.nowMs
  have hless : caller.id < callee.id := by
    have hcalls := (of_decide_eq_true hcall.mayConnect).1
    rwa [hcall.targetId] at hcalls
  have hlocal : callee.localContact.endpoint.length ≤ maxContactEndpointSize := hanswer.fits.1 rfl
  obtain ⟨haccepted, hboot, hcount, hfit⟩ := joinAnswer_fits hcallee hanswer.wellFormed
    hanswer.written hlocal hpresents.fits.1 hpresents.derived
  obtain ⟨trust, directory, hgranted, htrusted⟩ := hanswer.admits hpresents rfl
  obtain ⟨after, hheard, hintouch, -⟩ := @answerRequest_connects x callee ⟨caller.id, callerKey⟩
    serial given (reconnectJoin caller answers.nowMs) answers.sequenceNumber calleeKey trust directory
    hcallee hanswer.canAnswer hpresents hgranted htrusted (ne_of_lt hless) hlocal
  -- the answer can be sent, and the caller reads it
  have hsendable := (dispatch_sendable hanswer.wellFormed hanswer.written
    (dispatch_join hpresents.fits hanswer.owner caller.id)).mpr hanswer.fits
  have hroom := (messageEncode_control _).mp hsendable.encodes
  obtain ⟨read, hread, hown⟩ := acceptance_of_reply answers.sequenceNumber hroom
    haccepted hcount hfit
  refine ⟨_, hheard, rfl, rfl, hintouch, ?_⟩
  refine reconnectTarget_connects ⟨hcall.targetId, hcall.targetKey, hcall.trusted,
    hcall.mayConnect, hcall.space, hcall.neighbor, hcall.prompt⟩ hcallee hnetwork rfl rfl ?_ hread
    (hown.trans hboot)
  unfold calling replyTo
  dsimp only
  rw [List.findSome?_cons]
  dsimp only
  rw [delivered_control hroom]

end

/-- A node that has just started has room for every neighbour. -/
theorem takesNeighbor_start {app : AppState} (htopology : app.topology = [])
    (hads : app.advertisements = ∅) (id : NodeId) : TakesNeighbor app id where
  sound := by
    rw [htopology]
    exact topologySound_nil _
  room := by
    rw [htopology]
    exact .inr (by decide)
  advertisements := by
    rw [hads]
    intro n stored hstored
    cases hstored
  undisplaced := by
    rw [hads]
    rintro n ⟨-, stored, a, hstored, -⟩
    cases hstored

theorem firstNode_knowsItself : KnowsItself posix firstNode (numberedPeer 0).publicKey :=
  ⟨by decide, by decide, rfl, rfl, rfl⟩

theorem secondNode_knowsItself : KnowsItself posix secondNode (numberedPeer 1).publicKey :=
  ⟨by decide, by decide, rfl, rfl, rfl⟩

theorem firstNode_mayCall :
    MayCall posix firstNode ⟨secondNode.id, (numberedPeer 1).publicKey⟩ (numberedPeer 1)
      firstCall where
  targetId := rfl
  targetKey := rfl
  trusted := by decide
  mayConnect := by decide
  space := by decide
  neighbor := takesNeighbor_start rfl rfl _
  prompt := ⟨by decide, by decide, by decide⟩

theorem secondNode_mayAnswer :
    MayAnswer posix secondNode ⟨firstNode.id, (numberedPeer 0).publicKey⟩
      firstNode.localContact.endpoint
      (reconnectRequest firstNode firstCall.sequenceNumber firstCall.nowMs) steadyAnswers where
  sorted := List.pairwise_singleton _ _
  known := by decide
  directory := by decide
  ensured := rfl
  stored := by decide
  unlisted := by
    intro s hs
    cases hs
  space := by decide
  neighbor := takesNeighbor_start rfl rfl _
  wellFormed := wellFormed_kademliaInit _
  owner := rfl
  written := by
    show ContactsFit (kademliaInit (numberedPeer 1).id).contacts
    rw [kademliaInit_contacts]
    intro c hc
    cases hc
  fits := by decide +kernel
  replySent := rfl
  prompt := ⟨by decide, by decide, by decide⟩

/-- The first of two nodes calls the second. -/
theorem handshake_connects_pair :
    ∃ heard, answerRequest posix secondNode ⟨firstNode.id, (numberedPeer 0).publicKey⟩ 7
          (reconnectRequest firstNode firstCall.sequenceNumber firstCall.nowMs) steadyAnswers
        = some heard
      ∧ heard.trusted = true ∧ heard.continues = true
      ∧ InTouch heard.app ⟨7, some firstNode.id, true⟩ firstNode.id steadyAnswers.blockAt
      ∧ (reconnectTarget posix firstNode (numberedPeer 1)
          (calling ⟨secondNode.id, (numberedPeer 1).publicKey⟩ (some heard) firstCall)).link
        = some ⟨⟨firstCall.serial, some secondNode.id, true⟩,
          ⟨secondNode.id, (numberedPeer 1).publicKey⟩⟩
      ∧ InTouch (reconnectTarget posix firstNode (numberedPeer 1)
          (calling ⟨secondNode.id, (numberedPeer 1).publicKey⟩ (some heard) firstCall)).app
        ⟨firstCall.serial, some secondNode.id, true⟩ secondNode.id firstCall.activation.blockAt :=
  handshake_connects 7 rfl firstNode_knowsItself secondNode_knowsItself (by decide)
    firstNode_mayCall secondNode_mayAnswer

end Madoka

import Madoka.Daemon.Contacts
import Madoka.Protocol.Codec

/-!
# Replies

A reply to a JOIN_REQUEST, FIND_NODE or NODE_ANNOUNCE travels in one control
message in one frame. Which replies fit is told by the endpoints of the
contacts they list.
-/

namespace Madoka

open Octets

/-- `make_control_wire`: the frame of a control message. -/
def makeControlWire (control : ControlMessage) : Message where
  version := protocolVersion
  type := .control
  payload := serializeControlMessage control

/-- The payload is one that the reader of its type accepts. -/
def payloadDecodes (reply : ControlMessage) : Bool :=
  match reply.type with
  | .joinResponse => (deserializeJoinResponse reply.payload).isOk
  | .neighbors => (deserializeNeighbors reply.payload).isOk
  | .nodeAnnounceAck => (deserializeNodeAnnounceAck reply.payload).isOk
  | _ => false

/-- The requester gets an answer it can read. -/
structure Sendable (reply : ControlMessage) : Prop where
  nonempty : reply.payload ≠ []
  decodes : payloadDecodes reply = true
  encodes : (messageEncode (makeControlWire reply)).isOk = true

/-- A control message is encoded exactly when its payload leaves room for the
two headers. -/
theorem messageEncode_control (reply : ControlMessage) :
    (messageEncode (makeControlWire reply)).isOk = true
      ↔ controlMessageHeaderSize + reply.payload.length ≤ maxPayloadSize := by
  rw [← serializeControlMessage_length]
  by_cases hsize : (serializeControlMessage reply).length > maxPayloadSize
  · simp [messageEncode, messageValidate, makeControlWire, hsize, Except.isOk, Except.toBool]
  · simp [messageEncode, messageValidate, makeControlWire, hsize, Except.isOk, Except.toBool]
    exact not_lt.mp hsize

/-! ## The size of a reply -/

section
variable (x : External) (table : KademliaTable)

/-- The contacts after a join request: the requester's entry, if the table
takes it, and all others. -/
def contactsAfterJoin (request : JoinRequest) : List NodeContact :=
  table.entryFor (requestContact request)
    ++ table.contacts.filter fun c => c.id ≠ request.nodeId

/-- The bytes of a reply's payload, told from the table before the request:
what is fixed, and the contacts with fewer than `kademliaK` others nearer to
the target. -/
def replySize (localContact : Option NodeContact) (incoming : ControlMessage) : Nat :=
  match incoming.type with
  | .joinRequest =>
      match deserializeJoinRequest incoming.payload with
      | .error _ => 0
      | .ok request =>
          1 + (contactMinSize + (bootstrapOf table localContact).endpoint.length) + 2
            + if x.sha256 request.publicKey = request.nodeId then
                contactsWireSize (KademliaTable.closestTo (contactsAfterJoin table request)
                  request.nodeId kademliaK)
              else 0
  | .findNode =>
      match deserializeFindNode incoming.payload with
      | .error _ => 0
      | .ok request =>
          2 + contactsWireSize (KademliaTable.closestTo table.contacts request.target kademliaK)
  | _ => nodeAnnounceAckWireSize

/-- A join response can carry the node's own contact, and the reply fits
between the two headers. -/
def ReplyFits (localContact : Option NodeContact) (incoming : ControlMessage) : Prop :=
  (incoming.type = .joinRequest →
      (bootstrapOf table localContact).endpoint.length ≤ maxContactEndpointSize)
    ∧ controlMessageHeaderSize + replySize x table localContact incoming ≤ maxPayloadSize

end

variable {x : External} {network : IPv6}

instance (table : KademliaTable) (localContact : Option NodeContact) (incoming : ControlMessage) :
    Decidable (ReplyFits x table localContact incoming) :=
  inferInstanceAs (Decidable (_ ∧ _))

/-! ## What is sent -/

theorem neighbors_sendable {table : KademliaTable} (hwell : table.WellFormed)
    (hfit : ContactsFit table.contacts) (sequenceNumber : UInt64) (request : FindNodeMessage) :
    Sendable (controlMessageCreate .neighbors sequenceNumber table.localId
        (serializeNeighbors (handleFindNode table request)))
      ↔ controlMessageHeaderSize + (2 + contactsWireSize
          (KademliaTable.closestTo table.contacts request.target kademliaK)) ≤ maxPayloadSize := by
  have hcount : (handleFindNode table request).peers.length ≤ kademliaK :=
    length_kademliaFindClosest_le table request.target kademliaK
  have hpeers : ContactsFit (handleFindNode table request).peers :=
    fun c hc => hfit c (mem_of_mem_kademliaFindClosest hc)
  have hlen : (serializeNeighbors (handleFindNode table request)).length
      = 2 + contactsWireSize (KademliaTable.closestTo table.contacts request.target kademliaK) := by
    rw [serializeNeighbors_eq hcount hpeers, List.length_append, beBytes_length,
      flatMap_serializeNodeContact_length hpeers]
    exact congrArg _ (contactsWireSize_perm (kademliaFindClosest_perm hwell request.target _))
  have hencode := messageEncode_control (controlMessageCreate .neighbors sequenceNumber
    table.localId (serializeNeighbors (handleFindNode table request)))
  rw [controlMessageCreate, hlen] at hencode
  constructor
  · intro h
    exact hencode.mp h.encodes
  · intro h
    refine ⟨?_, ?_, hencode.mpr h⟩
    · show serializeNeighbors (handleFindNode table request) ≠ []
      intro hnil
      rw [hnil, List.length_nil] at hlen
      omega
    · show (deserializeNeighbors (serializeNeighbors (handleFindNode table request))).isOk = true
      rw [deserializeNeighbors_serialize _ hcount hpeers]
      rfl

/-- A join response is sendable exactly when its bootstrap can be written and
everything fits. -/
theorem joinResponse_sendable {response : JoinResponse} (sequenceNumber : UInt64) (sender : NodeId)
    (hcount : response.peers.length ≤ kademliaK) (hpeers : ContactsFit response.peers) :
    Sendable (controlMessageCreate .joinResponse sequenceNumber sender
        (serializeJoinResponse response))
      ↔ response.bootstrapContact.endpoint.length ≤ maxContactEndpointSize
        ∧ controlMessageHeaderSize + (1 + (contactMinSize
            + response.bootstrapContact.endpoint.length) + 2 + contactsWireSize response.peers)
          ≤ maxPayloadSize := by
  by_cases hboot : response.bootstrapContact.endpoint.length ≤ maxContactEndpointSize
  · have hboot' : response.boot.endpoint.length ≤ maxContactEndpointSize := by
      rw [response.boot_endpoint]
      exact hboot
    have hall : ContactsFit (response.boot :: response.peers) := by
      intro c hc
      rcases List.mem_cons.mp hc with rfl | hc
      · exact hboot'
      · exact hpeers c hc
    have hlen : (serializeJoinResponse response).length
        = 1 + (contactMinSize + response.bootstrapContact.endpoint.length) + 2
          + contactsWireSize response.peers := by
      rw [serializeJoinResponse_eq hcount hall, List.length_cons, List.length_append,
        List.length_append, beBytes_length, serializeNodeContact_length hboot',
        flatMap_serializeNodeContact_length hpeers, response.boot_endpoint]
      omega
    have hencode := messageEncode_control (controlMessageCreate .joinResponse sequenceNumber sender
      (serializeJoinResponse response))
    rw [controlMessageCreate, hlen] at hencode
    constructor
    · intro h
      exact ⟨hboot, hencode.mp h.encodes⟩
    · intro h
      refine ⟨?_, ?_, hencode.mpr h.2⟩
      · show serializeJoinResponse response ≠ []
        intro hnil
        rw [hnil, List.length_nil] at hlen
        omega
      · show (deserializeJoinResponse (serializeJoinResponse response)).isOk = true
        rw [deserializeJoinResponse_serialize hcount hall]
        rfl
  · constructor
    · intro h
      exact absurd (serializeJoinResponse_eq_nil (not_le.mp hboot)) h.nonempty
    · intro h
      exact absurd h.1 hboot

theorem nodeAnnounceAck_sendable (sequenceNumber : UInt64) (sender : NodeId)
    (ack : NodeAnnounceAck) :
    Sendable (controlMessageCreate .nodeAnnounceAck sequenceNumber sender
      (serializeNodeAnnounceAck ack)) := by
  refine ⟨List.cons_ne_nil _ _, ?_, ?_⟩
  · show (deserializeNodeAnnounceAck (serializeNodeAnnounceAck ack)).isOk = true
    rw [deserializeNodeAnnounceAck_serialize]
    rfl
  · rw [messageEncode_control]
    show controlMessageHeaderSize + (serializeNodeAnnounceAck ack).length ≤ maxPayloadSize
    rw [serializeNodeAnnounceAck, List.length_cons, ack.responder.property]
    decide

/-- What a join response lists is what is closest in the table the request
leaves. -/
theorem processJoinRequest_peers {table : KademliaTable} (hwell : table.WellFormed)
    (request : JoinRequest) (localContact : Option NodeContact)
    (hid : x.sha256 request.publicKey = request.nodeId) :
    (processJoinRequest x table request localContact).2.2.peers.Perm
      (KademliaTable.closestTo (contactsAfterJoin table request) request.nodeId kademliaK) := by
  rw [processJoinRequest, if_neg (not_not.mpr hid)]
  have hclosest := kademliaFindClosest_perm
    (wellFormed_kademliaInsert hwell (requestContact request) none) request.nodeId kademliaK
  exact hclosest.trans (KademliaTable.closestTo_perm
    (kademliaInsert_contacts hwell (requestContact request)) request.nodeId kademliaK)

/-- Over a well-formed table whose contacts can be written, the reply to any
request can be sent exactly when it fits. -/
theorem dispatch_sendable {table table' : KademliaTable} {incoming reply : ControlMessage}
    {localContact : Option NodeContact} {joinAdmitted : Bool} (hwell : table.WellFormed)
    (hfit : ContactsFit table.contacts)
    (h : dispatchJoinProtocolMessage x table incoming localContact joinAdmitted
      = some (table', reply)) :
    Sendable reply ↔ ReplyFits x table localContact incoming := by
  rcases dispatchJoinProtocolMessage_cases h with
    ⟨htype, request, hread, -, hreply⟩ | ⟨htype, request, hread, -, hreply⟩
      | ⟨htype, announce, hread, -, hreply⟩
  · have hresponse : (processJoinRequest x table request localContact).2.2.peers.length ≤ kademliaK
        ∧ ContactsFit (processJoinRequest x table request localContact).2.2.peers
        ∧ (processJoinRequest x table request localContact).2.2.bootstrapContact
          = bootstrapOf table localContact
        ∧ contactsWireSize (processJoinRequest x table request localContact).2.2.peers
          = if x.sha256 request.publicKey = request.nodeId then
              contactsWireSize (KademliaTable.closestTo (contactsAfterJoin table request)
                request.nodeId kademliaK)
            else 0 := by
      by_cases hid : x.sha256 request.publicKey = request.nodeId
      · have hpeers := processJoinRequest_peers hwell request localContact hid
        have hinserted : Inserted (fun c => c.endpoint.length ≤ maxContactEndpointSize) table
            (kademliaInsert table (requestContact request) none).2 :=
          inserted_kademliaInsert (deserializeJoinRequest_endpoint hread)
        rw [if_pos hid, contactsWireSize_perm hpeers, processJoinRequest,
          if_neg (not_not.mpr hid)]
        refine ⟨length_kademliaFindClosest_le _ _ _, fun c hc => ?_, rfl, rfl⟩
        exact hinserted.fit hwell hfit c (mem_of_mem_kademliaFindClosest hc)
      · rw [if_neg hid, processJoinRequest, if_pos hid]
        exact ⟨Nat.zero_le _, fun c hc => absurd hc List.not_mem_nil, rfl, rfl⟩
    obtain ⟨hcount, hpeers, hboot, hsize⟩ := hresponse
    rw [hreply, joinResponse_sendable _ _ hcount hpeers, hboot, hsize, ReplyFits, replySize, htype]
    simp [hread]
  · rw [hreply, neighbors_sendable hwell hfit, ReplyFits, replySize, htype]
    simp [hread]
  · rw [hreply, ReplyFits, replySize, htype]
    refine iff_of_true (nodeAnnounceAck_sendable _ _ _) ⟨fun hj => ?_, ?_⟩
    · cases hj
    · show controlMessageHeaderSize + nodeAnnounceAckWireSize ≤ maxPayloadSize
      decide

/-- In every state a node reaches from its trust store, a reply can be sent
exactly when it fits. -/
theorem reply_sendable {d : Directory} {identityFile : Bytes} {answers : LoadAnswers}
    {trust : TrustState} (hload : trustLoad x d identityFile answers = .ok trust)
    (localId : NodeId) (localContact : NodeContact) (events : List ContactEvent)
    {table' : KademliaTable} {incoming reply : ControlMessage} {joinAdmitted : Bool}
    (h : dispatchJoinProtocolMessage x
        (Run.final (contactStep x network localContact) (startNode network localId trust d)
          events).table incoming (some localContact) joinAdmitted = some (table', reply)) :
    Sendable reply
      ↔ ReplyFits x (Run.final (contactStep x network localContact)
          (startNode network localId trust d) events).table (some localContact) incoming := by
  have hsound := (sound_throughout network localContact localId hload events).final
  exact dispatch_sendable hsound.table hsound.fit h

/-! ## A reply that cannot be sent -/

/-- A trust store that holds one peer. -/
def onePeerDirectory : Directory :=
  (∅ : Directory).insert (peerPath (numberedPeer 0).id) (encodePeer (numberedPeer 0))

def onePeerTrust : TrustState where
  directory := trustDirectory (ascii "identity")
  peers := [numberedPeer 0]

def sampleLocalId : NodeId := repeated 32 7

def sampleContact (id : NodeId) : NodeContact where
  id := id
  publicKey := zero 32
  virtualAddress := virtualAddress sampleNetwork id
  endpoint := ascii "127.0.0.1:9000"
  lastSeenMs := 0
  rttMs := 0
  failedPings := 0

/-- A control message from the one trusted peer. -/
def peerMessage (type : ControlMessageType) (payload : Bytes) : ControlMessage where
  type := type
  sequenceNumber := 1
  sender := (numberedPeer 0).id
  payload := payload

/-- That message on an admitted session. -/
def peerFrame (type : ControlMessageType) (payload : Bytes) : ContactEvent :=
  .frame true { nodeId := (numberedPeer 0).id, pubkey := (numberedPeer 0).publicKey }
    (peerMessage type payload) 100 (sampleAnswers none)

/-- A valid contact with an endpoint of 255 bytes: leading zeros are part of
a port. -/
def longContact (n : UInt8) : NodeContact :=
  { trustedContact sampleNetwork (numberedPeer n) with
    endpoint := ascii "127.0.0.1:" ++ List.replicate 244 '0'.toUInt8 ++ ascii "1" }

def longNeighbors (ns : List UInt8) : Bytes :=
  serializeNeighbors { peers := ns.map longContact }

def askClosest : ControlMessage :=
  peerMessage .findNode (serializeFindNode { target := sampleLocalId })

/-- The node with the one trusted peer, after what that peer has sent. -/
def nodeAfter (events : List ContactEvent) : ContactNode :=
  Run.final (contactStep posix sampleNetwork (sampleContact sampleLocalId))
    (startNode sampleNetwork sampleLocalId onePeerTrust onePeerDirectory) events

/-- A node that knows one contact answers a FIND_NODE. -/
theorem reply_sendable_one_contact :
    ∃ table reply, dispatchJoinProtocolMessage posix (nodeAfter []).table askClosest
        (some (sampleContact sampleLocalId)) true = some (table, reply) ∧ Sendable reply := by
  have hload : trustLoad posix onePeerDirectory (ascii "identity") .success
      = .ok onePeerTrust := by decide +kernel
  have hdispatch : dispatchJoinProtocolMessage posix (nodeAfter []).table askClosest
      (some (sampleContact sampleLocalId)) true
      = some ((nodeAfter []).table, controlMessageCreate .neighbors 1 sampleLocalId
          (serializeNeighbors (handleFindNode (nodeAfter []).table { target := sampleLocalId }))) :=
    rfl
  exact ⟨_, _, hdispatch, (reply_sendable hload sampleLocalId (sampleContact sampleLocalId) []
    hdispatch).mpr (by decide +kernel)⟩

/-- Two accepted lists of six neighbours each, and the next FIND_NODE cannot
be answered. -/
theorem neighbors_reply_overflows :
    trustLoad posix onePeerDirectory (ascii "identity") .success = .ok onePeerTrust
      ∧ ∃ handled, dispatchJoinProtocolMessage posix
          (nodeAfter [peerFrame .neighbors (longNeighbors [1, 2, 3, 4, 5, 6]),
            peerFrame .neighbors (longNeighbors [7, 8, 9, 10, 11, 12])]).table askClosest
          (some (sampleContact sampleLocalId)) true = some handled ∧ ¬ Sendable handled.2 := by
  refine ⟨by decide +kernel, ?_⟩
  have hany : ((dispatchJoinProtocolMessage posix
      (nodeAfter [peerFrame .neighbors (longNeighbors [1, 2, 3, 4, 5, 6]),
        peerFrame .neighbors (longNeighbors [7, 8, 9, 10, 11, 12])]).table askClosest
      (some (sampleContact sampleLocalId)) true).any fun handled =>
        !(messageEncode (makeControlWire handled.2)).isOk) = true := by
    decide +kernel
  obtain ⟨handled, hhandled, hfails⟩ := (Option.any_eq_true _ _).mp hany
  refine ⟨handled, hhandled, fun h => ?_⟩
  rw [h.encodes] at hfails
  cases hfails

end Madoka

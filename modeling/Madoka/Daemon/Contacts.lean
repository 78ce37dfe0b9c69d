import Madoka.Daemon.Admission
import Madoka.Network.Join

/-!
# Contacts

The ways by which the daemon's Kademlia table changes (`core/app.cpp`,
`core/daemon.cpp`): the seeding from the trust store, the control messages of
admitted peers, the bootstrap's response and the self-lookup, each with the
checks the daemon makes first.
-/

namespace Madoka

open Octets

/-- The identity TLS has authenticated for a session. -/
structure TlsPeer where
  nodeId : NodeId
  pubkey : PublicKey
deriving DecidableEq

/-- The parts of the application state that decide about contacts. The
table's `localId` is the node's own identifier. -/
structure ContactNode where
  trust : TrustState
  directory : Directory
  table : KademliaTable

variable (x : External) (network : IPv6)

def validNodeContact (contact : NodeContact) : Bool :=
  contact.id ≠ zero 32 ∧ x.sha256 contact.publicKey = contact.id
    ∧ contact.virtualAddress = virtualAddress network contact.id
    ∧ usableEndpoint x contact.endpoint

/-! ## Start -/

def trustedContact (peer : TrustedPeer) : NodeContact where
  id := peer.id
  publicKey := peer.publicKey
  virtualAddress := virtualAddress network peer.id
  endpoint := peer.endpoint
  lastSeenMs := 0
  rttMs := 0
  failedPings := 0

/-- `app_init`: the loaded peers are the first contacts. -/
def seedTable (localId : NodeId) (peers : List TrustedPeer) : KademliaTable :=
  peers.foldl (fun table peer => (kademliaInsert table (trustedContact network peer) none).2)
    (kademliaInit localId)

def startNode (localId : NodeId) (trust : TrustState) (d : Directory) : ContactNode where
  trust := trust
  directory := d
  table := seedTable network localId trust.peers

/-! ## Control messages of a session -/

/-- A list of neighbours in which every contact is valid. -/
def neighborsAccepted (payload : Bytes) : Option NeighborsMessage :=
  match deserializeNeighbors payload with
  | .error _ => none
  | .ok neighbors =>
      if neighbors.peers.all (validNodeContact x network) then some neighbors else none

/-- The checks on an announcement. They leave the endpoint out. -/
def announceAccepted (peer : TlsPeer) (payload : Bytes) : Bool :=
  match deserializeNodeAnnounce payload with
  | .error _ => false
  | .ok announce =>
      announce.contact.id = peer.nodeId ∧ announce.contact.publicKey = peer.pubkey
        ∧ announce.contact.virtualAddress = virtualAddress network announce.contact.id

/-- The table after a control message of an admitted peer, and the reply to
it; none when the session ends there. -/
def contactMessage (localContact : NodeContact) (table : KademliaTable) (peer : TlsPeer)
    (incoming : ControlMessage) : Option (KademliaTable × Option ControlMessage) :=
  match incoming.type with
  | .neighbors =>
      match neighborsAccepted x network incoming.payload with
      | none => none
      | some neighbors => some (handleNeighbors table neighbors, none)
  | .nodeAnnounce =>
      if !announceAccepted network peer incoming.payload then none
      else
        match dispatchJoinProtocolMessage x table incoming (some localContact) true with
        | none => none
        | some (table, reply) => some (table, some reply)
  | .joinRequest | .findNode =>
      match dispatchJoinProtocolMessage x table incoming (some localContact) true with
      | none => none
      | some (table, reply) => some (table, some reply)
  | _ => some (table, none)

/-- The part of a JOIN_REQUEST before the table: the checks, then the
admission. None when a check fails and the session ends. -/
def joinAdmission (node : ContactNode) (peer : TlsPeer) (payload : Bytes) (nowSeconds : UInt64)
    (answers : AdmissionAnswers) : Option (Bool × ContactNode) :=
  match deserializeJoinRequest payload with
  | .error _ => none
  | .ok request =>
      if !joinRequestValid x network peer.nodeId peer.pubkey request then none
      else
        let (admitted, trust, directory) := admitJoin x network node.table.localId node.trust
          node.directory request nowSeconds answers
        some (admitted, { node with trust := trust, directory := directory })

/-! ## The bootstrap's response -/

/-- What the steps of `run_join` around `trust_add` come to: whether the
identity and the configuration are saved, `trust_add`'s own storage, and
whether the session could be registered. -/
structure BootstrapAnswers where
  persisted : Bool
  add : TrustAddAnswers
  registered : Bool

/-- The bootstrap's contact, what its response leaves out taken from the
session. -/
def completedBootstrap (peer : TlsPeer) (bootstrapEndpoint : Bytes) (sender : NodeId)
    (contact : NodeContact) : NodeContact :=
  { contact with
    id := if contact.id = zero 32 then sender else contact.id
    publicKey := if contact.publicKey = zero 32 then peer.pubkey else contact.publicKey
    virtualAddress := if contact.virtualAddress = zero 16 then virtualAddress network sender
      else contact.virtualAddress
    endpoint := if contact.endpoint = [] then bootstrapEndpoint else contact.endpoint }

/-- The checks `run_join` makes on the response. -/
def bootstrapContact (localId : NodeId) (peer : TlsPeer) (bootstrapEndpoint : Bytes)
    (sender : NodeId) (response : JoinResponse) : Option NodeContact :=
  let offered := response.bootstrapContact
  let contact := completedBootstrap network peer bootstrapEndpoint sender offered
  if sender ≠ peer.nodeId ∨ (offered.id ≠ zero 32 ∧ offered.id ≠ sender)
      ∨ (response.bootstrapId ≠ zero 32 ∧ response.bootstrapId ≠ sender)
      ∨ (offered.virtualAddress ≠ zero 16
        ∧ offered.virtualAddress ≠ virtualAddress network sender) then none
  else if contact.id ≠ sender ∨ contact.id = localId
      ∨ (offered.publicKey ≠ zero 32 ∧ offered.publicKey ≠ peer.pubkey) then none
  else if contact.endpoint ≠ bootstrapEndpoint ∨ !validNodeContact x network contact
      ∨ !response.peers.all (validNodeContact x network) then none
  else some contact

/-- The end of `run_join`, from the bootstrap's reply on. -/
def bootstrapJoin (node : ContactNode) (peer : TlsPeer) (bootstrapEndpoint : Bytes)
    (control : ControlMessage) (answers : BootstrapAnswers) : ContactNode :=
  if control.type ≠ .joinResponse then node
  else
    match deserializeJoinResponse control.payload with
    | .error _ => node
    | .ok response =>
        if !response.accepted then node
        else
          match bootstrapContact x network node.table.localId peer bootstrapEndpoint control.sender
              response with
          | none => node
          | some contact =>
              if !trustAddressAvailable node.trust network node.table.localId contact.id
                  ∨ !answers.persisted then node
              else
                match trustAdd x node.trust node.directory
                    { id := contact.id, publicKey := peer.pubkey, endpoint := contact.endpoint }
                    answers.add with
                | (.error _, trust, directory) =>
                    { node with trust := trust, directory := directory }
                | (.ok (), trust, directory) =>
                    if !answers.registered then
                      { node with trust := trust, directory := directory }
                    else
                      { trust := trust
                        directory := directory
                        table := (handleJoinResponse node.table response contact).2 }

/-- The contacts `query_peer` takes from the answer of a peer, if one comes. -/
def queryPeer (peer : NodeId) (reply : Option ControlMessage) : List NodeContact :=
  match reply with
  | none => []
  | some reply =>
      if reply.type ≠ .neighbors ∨ reply.sender ≠ peer then []
      else
        match neighborsAccepted x network reply.payload with
        | none => []
        | some neighbors => neighbors.peers

/-! ## Events -/

/-- What reaches the table: a control message on a session, which has its own
`trusted` flag, the bootstrap's reply, a self-lookup with the replies to its
queries. -/
inductive ContactEvent where
  | frame (trusted : Bool) (peer : TlsPeer) (incoming : ControlMessage) (nowSeconds : UInt64)
      (answers : AdmissionAnswers)
  | bootstrap (peer : TlsPeer) (bootstrapEndpoint : Bytes) (control : ControlMessage)
      (answers : BootstrapAnswers)
  | selfLookup (replies : Nat → Option ControlMessage)

/-- A control message of an admitted peer. -/
def admittedFrame (localContact : NodeContact) (node : ContactNode) (peer : TlsPeer)
    (incoming : ControlMessage) : ContactNode × Option ControlMessage :=
  match contactMessage x network localContact node.table peer incoming with
  | none => (node, none)
  | some (table, reply) => ({ node with table := table }, reply)

/-- The state after an event and the reply it is answered with. A message
other than a JOIN_REQUEST is looked at only on a trusted session. -/
def contactEvent (localContact : NodeContact) (node : ContactNode) :
    ContactEvent → ContactNode × Option ControlMessage
  | .frame trusted peer incoming nowSeconds answers =>
      if incoming.sender ≠ peer.nodeId then (node, none)
      else if incoming.type = .joinRequest then
        match joinAdmission x network node peer incoming.payload nowSeconds answers with
        | none => (node, none)
        | some (false, node) =>
            (node, some (controlMessageCreate .joinResponse incoming.sequenceNumber
              node.table.localId (serializeJoinResponse
                { accepted := false, bootstrapContact := localContact,
                  bootstrapId := node.table.localId, peers := [] })))
        | some (true, node) => admittedFrame x network localContact node peer incoming
      else if !trusted then (node, none)
      else admittedFrame x network localContact node peer incoming
  | .bootstrap peer bootstrapEndpoint control answers =>
      (bootstrapJoin x network node peer bootstrapEndpoint control answers, none)
  | .selfLookup replies =>
      ({ node with table := (kademliaSelfLookup node.table
          (some fun n peer _ => queryPeer x network peer (replies n)) 3).table }, none)

def contactStep (localContact : NodeContact) (node : ContactNode) (event : ContactEvent) :
    ContactNode :=
  (contactEvent x network localContact node event).1

variable {x network}

/-! ## What is checked -/

theorem validNodeContact_iff {contact : NodeContact} :
    validNodeContact x network contact = true ↔ contact.id ≠ zero 32
      ∧ x.sha256 contact.publicKey = contact.id
      ∧ contact.virtualAddress = virtualAddress network contact.id
      ∧ usableEndpoint x contact.endpoint = true := by
  rw [validNodeContact, decide_eq_true_eq]

/-- A contact every check lets pass and every message can carry. -/
def AcceptedContact (x : External) (network : IPv6) (contact : NodeContact) : Prop :=
  validNodeContact x network contact = true ∧ contact.endpoint.length ≤ maxContactEndpointSize

/-- A peer `trust_add` lets pass. -/
def AcceptedPeer (x : External) (peer : TrustedPeer) : Prop :=
  validEndpoint x peer.endpoint = true ∧ validIdentityBinding x peer = true

theorem acceptedContact_trustedContact (network : IPv6) {peer : TrustedPeer} (h : AcceptedPeer x peer) :
    AcceptedContact x network (trustedContact network peer) := by
  obtain ⟨hendpoint, hbinding⟩ := h
  rw [validEndpoint_iff] at hendpoint
  rw [validIdentityBinding, decide_eq_true_eq] at hbinding
  refine ⟨validNodeContact_iff.mpr ⟨hbinding.1, hbinding.2, rfl, hendpoint.2.2.2⟩, ?_⟩
  exact hendpoint.2.1

theorem neighborsAccepted_some {payload : Bytes} {neighbors : NeighborsMessage}
    (h : neighborsAccepted x network payload = some neighbors) :
    ∀ c ∈ neighbors.peers, AcceptedContact x network c := by
  unfold neighborsAccepted at h
  cases hread : deserializeNeighbors payload with
  | error e =>
      rw [hread] at h
      cases h
  | ok message =>
      rw [hread] at h
      by_cases hvalid : message.peers.all (validNodeContact x network) = true
      · simp only [hvalid, if_true, Option.some.injEq] at h
        subst h
        intro c hc
        exact ⟨List.all_eq_true.mp hvalid c hc, deserializeNeighbors_fit hread c hc⟩
      · simp [hvalid] at h

theorem queryPeer_accepted (peer : NodeId) (reply : Option ControlMessage) :
    ∀ c ∈ queryPeer x network peer reply, AcceptedContact x network c := by
  intro c hc
  unfold queryPeer at hc
  cases reply with
  | none => cases hc
  | some reply =>
      by_cases hreply : reply.type ≠ .neighbors ∨ reply.sender ≠ peer
      · simp [hreply] at hc
      · simp only [hreply, if_false] at hc
        cases haccepted : neighborsAccepted x network reply.payload with
        | none => simp [haccepted] at hc
        | some neighbors =>
            rw [haccepted] at hc
            exact neighborsAccepted_some haccepted c hc

/-- The completed contact of the bootstrap passes the checks, and it is what
`handle_join_response` then inserts. -/
theorem bootstrapContact_some {localId : NodeId} {peer : TlsPeer} {bootstrapEndpoint : Bytes}
    {sender : NodeId} {response : JoinResponse} {contact : NodeContact}
    (h : bootstrapContact x network localId peer bootstrapEndpoint sender response
      = some contact) :
    validNodeContact x network contact = true
      ∧ (∀ c ∈ response.peers, validNodeContact x network c = true)
      ∧ (response.bootstrapContact.id ≠ zero 32 → actualBootstrap response contact = contact) := by
  unfold bootstrapContact at h
  dsimp only at h
  split at h
  · cases h
  · split at h
    · cases h
    · split at h
      · cases h
      · rename_i hchecked
        simp only [not_or, Bool.not_eq_true', Bool.not_eq_false] at hchecked
        obtain ⟨-, hvalid, hpeers⟩ := hchecked
        cases h
        refine ⟨hvalid, List.all_eq_true.mp hpeers, fun hid => ?_⟩
        simp only [actualBootstrap, completedBootstrap, hid, if_false]
        grind

/-! ## What one event can do -/

/-- What holds of the node between two events, whatever its peers send. -/
structure ContactNode.Sound (x : External) (node : ContactNode) : Prop where
  sorted : LowerBound.Sorted TrustedPeer.id node.trust.peers
  peers : ∀ peer ∈ node.trust.peers, AcceptedPeer x peer
  table : node.table.WellFormed
  fit : ContactsFit node.table.contacts

/-- The trusted peers after an event: as before, or with one more accepted
peer put among them. -/
def TrustKept (x : External) (trust trust' : TrustState) : Prop :=
  trust'.peers = trust.peers
    ∨ ∃ peer, AcceptedPeer x peer ∧ trust'.peers = LowerBound.put TrustedPeer.id peer trust.peers

theorem TrustKept.sound {trust trust' : TrustState} (h : TrustKept x trust trust')
    (hsorted : LowerBound.Sorted TrustedPeer.id trust.peers)
    (hpeers : ∀ peer ∈ trust.peers, AcceptedPeer x peer) :
    LowerBound.Sorted TrustedPeer.id trust'.peers
      ∧ ∀ peer ∈ trust'.peers, AcceptedPeer x peer := by
  rcases h with hsame | ⟨added, hadded, hput⟩
  · rw [hsame]
    exact ⟨hsorted, hpeers⟩
  · rw [hput]
    refine ⟨LowerBound.put_sorted hsorted added, fun peer hpeer => ?_⟩
    rcases (LowerBound.mem_put hsorted).mp hpeer with rfl | ⟨hold, -⟩
    · exact hadded
    · exact hpeers peer hold

theorem trustKept_trustAdd (trust : TrustState) (d : Directory) (peer : TrustedPeer)
    (answers : TrustAddAnswers) : TrustKept x trust (trustAdd x trust d peer answers).2.1 := by
  rcases trustAdd_cases x trust d peer answers with ⟨e, -, hstate, -⟩ | ⟨hend, hid, -, -, hadd⟩
  · exact .inl (by rw [hstate])
  · exact .inr ⟨peer, ⟨hend, hid⟩, by rw [hadd]⟩

/-- An admission names the request it was for. An admitted one has its
requester's identity checked. -/
theorem joinAdmission_some {node node' : ContactNode} {peer : TlsPeer} {payload : Bytes}
    {nowSeconds : UInt64} {answers : AdmissionAnswers} {admitted : Bool}
    (h : joinAdmission x network node peer payload nowSeconds answers = some (admitted, node')) :
    node'.table = node.table ∧ TrustKept x node.trust node'.trust
      ∧ (admitted = true → ∃ request, deserializeJoinRequest payload = .ok request
        ∧ AcceptedContact x network (requestContact request)) := by
  unfold joinAdmission at h
  cases hread : deserializeJoinRequest payload with
  | error e =>
      rw [hread] at h
      cases h
  | ok request =>
      rw [hread] at h
      by_cases hchecked : joinRequestValid x network peer.nodeId peer.pubkey request = true
      · simp only [hchecked, Bool.not_true, Bool.false_eq_true, if_false, Option.some.injEq,
          Prod.mk.injEq] at h
        obtain ⟨rfl, rfl⟩ := h
        rcases admitJoin_cases (x := x) network node.table.localId node.trust node.directory request
          nowSeconds answers with ⟨hno, hsame⟩ | ⟨-, -, hendpoint, hbinding, hput⟩
        · refine ⟨rfl, .inl (by rw [hsame]), fun hyes => ?_⟩
          rw [hno] at hyes
          cases hyes
        · refine ⟨rfl, .inr ⟨requestedPeer request, ⟨hendpoint, hbinding⟩, hput⟩, fun _ => ?_⟩
          refine ⟨request, rfl, validNodeContact_iff.mpr ?_,
            deserializeJoinRequest_endpoint hread⟩
          rw [joinRequestValid, decide_eq_true_eq] at hchecked
          rw [validIdentityBinding, decide_eq_true_eq] at hbinding
          exact ⟨hbinding.1, hbinding.2, hchecked.2.2.1, hchecked.2.2.2⟩
      · simp [hchecked] at h

theorem bootstrapJoin_cases (network : IPv6) (node : ContactNode) (peer : TlsPeer) (bootstrapEndpoint : Bytes)
    (control : ControlMessage) (answers : BootstrapAnswers) :
    TrustKept x node.trust
        (bootstrapJoin x network node peer bootstrapEndpoint control answers).trust
      ∧ Inserted (AcceptedContact x network) node.table
        (bootstrapJoin x network node peer bootstrapEndpoint control answers).table := by
  have hsame : TrustKept x node.trust node.trust
      ∧ Inserted (AcceptedContact x network) node.table node.table :=
    ⟨.inl rfl, .refl node.table⟩
  unfold bootstrapJoin
  split
  · exact hsame
  · split
    · exact hsame
    · rename_i response hread
      split
      · exact hsame
      · split
        · exact hsame
        · rename_i contact hcontact
          obtain ⟨hvalid, hpeers, hactual⟩ := bootstrapContact_some hcontact
          have hfit := deserializeJoinResponse_fit hread
          split
          · exact hsame
          · have hadd := trustAdd_cases x node.trust node.directory
              { id := contact.id, publicKey := peer.pubkey, endpoint := contact.endpoint }
              answers.add
            have hkept := trustKept_trustAdd (x := x) node.trust node.directory
              { id := contact.id, publicKey := peer.pubkey, endpoint := contact.endpoint }
              answers.add
            generalize trustAdd x node.trust node.directory
              { id := contact.id, publicKey := peer.pubkey, endpoint := contact.endpoint }
              answers.add = added at hadd hkept
            obtain ⟨result, trust, directory⟩ := added
            cases result with
            | error e => exact ⟨hkept, .refl node.table⟩
            | ok u =>
                dsimp only
                split
                · exact ⟨hkept, .refl node.table⟩
                · refine ⟨hkept, inserted_handleJoinResponse (fun hid => ?_) fun c hc => ?_⟩
                  · rcases hadd with ⟨e, herror, -⟩ | ⟨hendpoint, -⟩
                    · cases herror
                    · have hne : response.bootstrapContact.id ≠ zero 32 := by
                        intro hzero
                        rw [actualBootstrap, if_pos hzero,
                          deserializeJoinResponse_bootstrapId hread] at hid
                        exact hid hzero
                      rw [hactual hne]
                      exact ⟨hvalid, (validEndpoint_iff.mp hendpoint).2.1⟩
                  · exact ⟨hpeers c hc, hfit c (List.mem_cons_of_mem _ hc)⟩

/-- The announcement an event brings past the daemon's checks. -/
def announced (network : IPv6) : ContactEvent → Option NodeAnnounceMessage
  | .frame trusted peer incoming _ _ =>
      if incoming.type = .nodeAnnounce ∧ incoming.sender = peer.nodeId ∧ trusted = true
          ∧ announceAccepted network peer incoming.payload = true then
        match deserializeNodeAnnounce incoming.payload with
        | .error _ => none
        | .ok announce => some announce
      else none
  | _ => none

/-- An announcement is its sender's own, as TLS knows it. -/
theorem announced_some {event : ContactEvent} {announce : NodeAnnounceMessage}
    (h : announced network event = some announce) :
    announce.contact.virtualAddress = virtualAddress network announce.contact.id
      ∧ announce.contact.endpoint.length ≤ maxContactEndpointSize := by
  cases event with
  | frame trusted peer incoming nowSeconds answers =>
      by_cases hchecks : incoming.type = .nodeAnnounce ∧ incoming.sender = peer.nodeId
          ∧ trusted = true ∧ announceAccepted network peer incoming.payload = true
      · simp only [announced, hchecks, and_self, if_true] at h
        cases hread : deserializeNodeAnnounce incoming.payload with
        | error e => simp [hread] at h
        | ok message =>
            simp only [hread, Option.some.injEq] at h
            subst h
            have haccepted := hchecks.2.2.2
            simp only [announceAccepted, hread, decide_eq_true_eq] at haccepted
            exact ⟨haccepted.2.2, deserializeNodeAnnounce_endpoint hread⟩
      · simp [announced, hchecks] at h
  | bootstrap => cases h
  | selfLookup => cases h

/-- A message other than an announcement inserts accepted contacts only. -/
theorem inserted_contactMessage {localContact : NodeContact} {table table' : KademliaTable}
    {peer : TlsPeer} {incoming : ControlMessage} {reply : Option ControlMessage}
    (h : contactMessage x network localContact table peer incoming = some (table', reply))
    (htype : incoming.type ≠ .nodeAnnounce)
    (hjoin : incoming.type = .joinRequest → ∃ request,
      deserializeJoinRequest incoming.payload = .ok request
        ∧ AcceptedContact x network (requestContact request)) :
    Inserted (AcceptedContact x network) table table' := by
  have hdispatch : ∀ reply, dispatchJoinProtocolMessage x table incoming (some localContact) true
      = some (table', reply) → Inserted (AcceptedContact x network) table table' := by
    intro reply hreply
    rcases dispatchJoinProtocolMessage_cases hreply with
      ⟨hj, request, hread, htable, -⟩ | ⟨-, request, -, htable, -⟩ | ⟨ha, -⟩
    · obtain ⟨request', hread', haccepted⟩ := hjoin hj
      rw [hread] at hread'
      cases hread'
      rw [htable, processJoinRequest]
      by_cases hid : x.sha256 request.publicKey ≠ request.nodeId
      · rw [if_pos hid]
        exact .refl table
      · rw [if_neg hid]
        exact inserted_kademliaInsert haccepted
    · rw [htable]
      exact .refl table
    · exact absurd ha htype
  unfold contactMessage at h
  split at h
  · split at h
    · cases h
    · rename_i neighbors haccepted
      cases h
      exact inserted_insertOthers (neighborsAccepted_some haccepted)
  · rename_i ha
    exact absurd ha htype
  · split at h
    · cases h
    · rename_i hreply
      cases h
      exact hdispatch _ hreply
  · split at h
    · cases h
    · rename_i hreply
      cases h
      exact hdispatch _ hreply
  · cases h
    exact .refl table

@[simp] theorem admittedFrame_trust (localContact : NodeContact) (node : ContactNode)
    (peer : TlsPeer) (incoming : ControlMessage) :
    (admittedFrame x network localContact node peer incoming).1.trust = node.trust := by
  unfold admittedFrame
  split <;> rfl

theorem inserted_admittedFrame (localContact : NodeContact) (node : ContactNode) (peer : TlsPeer)
    {incoming : ControlMessage} (htype : incoming.type ≠ .nodeAnnounce)
    (hjoin : incoming.type = .joinRequest → ∃ request,
      deserializeJoinRequest incoming.payload = .ok request
        ∧ AcceptedContact x network (requestContact request)) :
    Inserted (AcceptedContact x network) node.table
      (admittedFrame x network localContact node peer incoming).1.table := by
  unfold admittedFrame
  cases hmessage : contactMessage x network localContact node.table peer incoming with
  | none => exact .refl node.table
  | some handled => exact inserted_contactMessage hmessage htype hjoin

theorem admittedFrame_announce (network : IPv6) (localContact : NodeContact) (node : ContactNode) (peer : TlsPeer)
    {incoming : ControlMessage} (htype : incoming.type = .nodeAnnounce) :
    (announceAccepted network peer incoming.payload = false
      ∧ admittedFrame x network localContact node peer incoming = (node, none))
    ∨ ∃ announce, announceAccepted network peer incoming.payload = true
      ∧ deserializeNodeAnnounce incoming.payload = .ok announce
      ∧ (admittedFrame x network localContact node peer incoming).1.table
        = (handleNodeAnnounce x node.table announce).2.1 := by
  cases haccepted : announceAccepted network peer incoming.payload with
  | false => exact .inl ⟨rfl, by simp [admittedFrame, contactMessage, htype, haccepted]⟩
  | true =>
      right
      cases hread : deserializeNodeAnnounce incoming.payload with
      | error e => simp [announceAccepted, hread] at haccepted
      | ok announce =>
          refine ⟨announce, rfl, rfl, ?_⟩
          simp [admittedFrame, contactMessage, htype, haccepted, dispatchJoinProtocolMessage, hread]

/-- An event adds accepted peers to the trust store and accepted contacts to
the table, except for the contact of an announcement. -/
theorem contactStep_cases (network : IPv6) (localContact : NodeContact) (node : ContactNode)
    (event : ContactEvent) :
    TrustKept x node.trust (contactStep x network localContact node event).trust
      ∧ ((announced network event = none
          ∧ Inserted (AcceptedContact x network) node.table
            (contactStep x network localContact node event).table)
        ∨ ∃ announce, announced network event = some announce
          ∧ (contactStep x network localContact node event).table
            = (handleNodeAnnounce x node.table announce).2.1) := by
  have hsame : TrustKept x node.trust node.trust := .inl rfl
  have hrefl := Inserted.refl (Q := AcceptedContact x network) node.table
  cases event with
  | bootstrap peer bootstrapEndpoint control answers =>
      obtain ⟨htrust, htable⟩ := bootstrapJoin_cases (x := x) network node peer bootstrapEndpoint
        control answers
      exact ⟨htrust, .inl ⟨rfl, htable⟩⟩
  | selfLookup replies =>
      refine ⟨hsame, .inl ⟨rfl, ?_⟩⟩
      exact inserted_kademliaSelfLookup (fun n peer _ => queryPeer_accepted peer (replies n)) 3
  | frame trusted peer incoming nowSeconds answers =>
      rw [contactStep, contactEvent]
      by_cases hsender : incoming.sender = peer.nodeId
      · rw [if_neg (not_not.mpr hsender)]
        by_cases hj : incoming.type = .joinRequest
        · have hnone : announced network (.frame trusted peer incoming nowSeconds answers)
              = none := by
            simp [announced, hj]
          rw [if_pos hj]
          cases hadmission : joinAdmission x network node peer incoming.payload nowSeconds
              answers with
          | none => exact ⟨hsame, .inl ⟨hnone, hrefl⟩⟩
          | some result =>
              obtain ⟨admitted, node'⟩ := result
              obtain ⟨htable, htrust, hrequest⟩ := joinAdmission_some hadmission
              rw [← htable]
              cases admitted with
              | false => exact ⟨htrust, .inl ⟨hnone, .refl node'.table⟩⟩
              | true =>
                  refine ⟨by simpa using htrust, .inl ⟨hnone, ?_⟩⟩
                  exact inserted_admittedFrame localContact node' peer (by simp [hj])
                    fun _ => hrequest rfl
        · rw [if_neg hj]
          cases trusted with
          | false => exact ⟨hsame, .inl ⟨by simp [announced], hrefl⟩⟩
          | true =>
              rw [if_neg (by simp)]
              refine ⟨by simpa using hsame, ?_⟩
              by_cases ha : incoming.type = .nodeAnnounce
              · rcases admittedFrame_announce (x := x) network localContact node peer ha
                  with ⟨hrefused, hsame⟩ | ⟨announce, haccepted, hread, htable⟩
                · rw [hsame]
                  exact .inl ⟨by simp [announced, hrefused], hrefl⟩
                · refine .inr ⟨announce, ?_, htable⟩
                  simp [announced, ha, hsender, haccepted, hread]
              · refine .inl ⟨by simp [announced, ha], ?_⟩
                exact inserted_admittedFrame localContact node peer ha fun h => absurd h hj
      · rw [if_pos hsender]
        exact ⟨hsame, .inl ⟨by simp [announced, hsender], hrefl⟩⟩

/-! ## Over whole runs -/

theorem trustLoad_sound {d : Directory} {identityFile : Bytes} {answers : LoadAnswers}
    {trust : TrustState} (h : trustLoad x d identityFile answers = .ok trust) :
    LowerBound.Sorted TrustedPeer.id trust.peers ∧ ∀ peer ∈ trust.peers, AcceptedPeer x peer := by
  obtain ⟨-, -, -, hsorted, hmem, -⟩ := trustLoad_ok h
  refine ⟨hsorted, fun peer hpeer => ?_⟩
  obtain ⟨contents, -, -, hdecode⟩ := mem_records.mp ((hmem peer).mp hpeer)
  obtain ⟨hendpoint, hbinding, -⟩ := decodePeer_ok hdecode
  exact ⟨hendpoint, hbinding⟩

/-- A node starts with accepted contacts only. -/
theorem inserted_seedTable (network : IPv6) (localId : NodeId) {peers : List TrustedPeer}
    (h : ∀ peer ∈ peers, AcceptedPeer x peer) :
    Inserted (AcceptedContact x network) (kademliaInit localId)
      (seedTable network localId peers) := by
  have hfold : ∀ table, Inserted (AcceptedContact x network) table
      (peers.foldl (fun table peer => (kademliaInsert table (trustedContact network peer) none).2)
        table) := by
    induction peers with
    | nil => exact .refl
    | cons peer rest ih =>
        intro table
        have hpeer := acceptedContact_trustedContact network
          (h peer List.mem_cons_self)
        exact (inserted_kademliaInsert hpeer).trans
          (ih (fun p hp => h p (List.mem_cons_of_mem peer hp)) _)
  exact hfold _

/-- Inserting contacts that fit into messages keeps all contacts so. -/
theorem Inserted.fit {table table' : KademliaTable}
    (h : Inserted (fun c => c.endpoint.length ≤ maxContactEndpointSize) table table')
    (hwell : table.WellFormed) (hfit : ContactsFit table.contacts) :
    ContactsFit table'.contacts := by
  refine Inserted.forall h hwell (fun c hc => hc) ?_ hfit
  intro existing c hexisting hc _
  rw [NodeContact.updatedBy]
  split
  · exact hc
  · exact hexisting

theorem sound_startNode (localId : NodeId) {trust : TrustState} (d : Directory)
    (hsorted : LowerBound.Sorted TrustedPeer.id trust.peers)
    (hpeers : ∀ peer ∈ trust.peers, AcceptedPeer x peer) :
    (startNode network localId trust d).Sound x := by
  have hseed := inserted_seedTable network localId hpeers
  have hinit := wellFormed_kademliaInit localId
  refine ⟨hsorted, hpeers, hseed.wellFormed hinit, ?_⟩
  refine (hseed.mono fun c hc => hc.2).fit hinit ?_
  intro c hc
  rw [kademliaInit_contacts] at hc
  cases hc

/-- Every event keeps the node sound. -/
theorem sound_contactStep (localContact : NodeContact) {node : ContactNode}
    (h : node.Sound x) (event : ContactEvent) :
    (contactStep x network localContact node event).Sound x := by
  obtain ⟨htrust, htable⟩ := contactStep_cases (x := x) network localContact node event
  have hinserted : Inserted (fun c => c.endpoint.length ≤ maxContactEndpointSize) node.table
      (contactStep x network localContact node event).table := by
    rcases htable with ⟨-, htable⟩ | ⟨announce, hannounced, htable⟩
    · exact htable.mono fun c hc => hc.2
    · rw [htable]
      exact inserted_handleNodeAnnounce (announced_some hannounced).2
  obtain ⟨hsorted, hpeers⟩ := htrust.sound h.sorted h.peers
  exact ⟨hsorted, hpeers, hinserted.wellFormed h.table, hinserted.fit h.table h.fit⟩

/-- A node that started from its trust store is sound in every state. -/
theorem sound_throughout (network : IPv6) (localContact : NodeContact) (localId : NodeId) {d : Directory}
    {identityFile : Bytes} {answers : LoadAnswers} {trust : TrustState}
    (hload : trustLoad x d identityFile answers = .ok trust) (events : List ContactEvent) :
    Run.Throughout (contactStep x network localContact) (ContactNode.Sound x)
      (startNode network localId trust d) events := by
  obtain ⟨hsorted, hpeers⟩ := trustLoad_sound hload
  exact Run.throughout_of_step (I := ContactNode.Sound x)
    (fun node event h => sound_contactStep localContact h event)
    (sound_startNode localId d hsorted hpeers) events

end Madoka

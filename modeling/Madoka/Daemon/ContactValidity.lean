import Madoka.Daemon.Replies

/-!
# Contact Validity

Every contact of the table passes `valid_node_contact`, and with it every
list of contacts the node sends, unless an announcement brings in an endpoint
that nobody checked.
-/

namespace Madoka

open Octets

variable (x : External) (network : IPv6)

def ContactsValid (node : ContactNode) : Prop :=
  ∀ c ∈ node.table.contacts, validNodeContact x network c = true

/-- A receiver on the same network takes the contacts of the reply. -/
structure ReplyAccepted (reply : ControlMessage) : Prop where
  neighbors : reply.type = .neighbors →
    (neighborsAccepted x network reply.payload).isSome = true
  joinResponse : reply.type = .joinResponse → ∀ response,
    deserializeJoinResponse reply.payload = .ok response →
      response.peers.all (validNodeContact x network) = true

/-- Every reply to the event is accepted. -/
def RepliesAccepted (localContact : NodeContact) (node : ContactNode) (event : ContactEvent) :
    Prop :=
  ∀ reply, (contactEvent x network localContact node event).2 = some reply →
    ReplyAccepted x network reply

/-- The announcement of a peer's own key that the table takes and should not:
it gives a known contact an endpoint that is of no use, or brings in a new
contact with such an endpoint or without an identifier. -/
def SpoilsTable (node : ContactNode) (event : ContactEvent) : Prop :=
  ∃ announce ∈ announced network event,
    x.sha256 announce.contact.publicKey = announce.contact.id
      ∧ (((kademliaFind node.table announce.contact.id).isSome = true
            ∧ announce.contact.endpoint ≠ []
            ∧ usableEndpoint x announce.contact.endpoint = false)
        ∨ ((kademliaFind node.table announce.contact.id).isSome = false
            ∧ announce.contact.id ≠ node.table.localId
            ∧ (node.table.bucketOf announce.contact.id).length < kademliaK
            ∧ (usableEndpoint x announce.contact.endpoint = false
              ∨ announce.contact.id = zero 32)))

instance (node : ContactNode) (event : ContactEvent) :
    Decidable (SpoilsTable x network node event) :=
  inferInstanceAs (Decidable (∃ announce ∈ announced network event, _))

variable {x network}

/-! ## The table -/

theorem validNodeContact_updatedBy {existing contact : NodeContact}
    (hexisting : validNodeContact x network existing = true) (hid : existing.id = contact.id)
    (hkey : x.sha256 contact.publicKey = contact.id)
    (haddress : contact.virtualAddress = virtualAddress network contact.id) :
    validNodeContact x network (existing.updatedBy contact) = true
      ↔ contact.endpoint = [] ∨ usableEndpoint x contact.endpoint = true := by
  rw [validNodeContact_iff] at hexisting ⊢
  rw [← hid] at hkey haddress
  by_cases hempty : contact.endpoint = []
  · simp [NodeContact.updatedBy, hempty, hexisting, hkey, haddress]
  · simp [NodeContact.updatedBy, hempty, hexisting.1, hkey, haddress]

/-- Accepted contacts keep the table valid. -/
theorem Inserted.contactsValid {table table' : KademliaTable}
    (h : Inserted (AcceptedContact x network) table table') (hwell : table.WellFormed)
    (hvalid : ∀ c ∈ table.contacts, validNodeContact x network c = true) :
    ∀ c ∈ table'.contacts, validNodeContact x network c = true := by
  refine Inserted.forall h hwell (fun c hc => hc.1) ?_ hvalid
  intro existing c hexisting hc hid
  obtain ⟨-, hkey, haddress, husable⟩ := validNodeContact_iff.mp hc.1
  exact (validNodeContact_updatedBy hexisting hid hkey haddress).mpr (.inr husable)

theorem handleNodeAnnounce_table (table : KademliaTable) (announce : NodeAnnounceMessage) :
    (handleNodeAnnounce x table announce).2.1
      = if x.sha256 announce.contact.publicKey = announce.contact.id then
          (kademliaInsert table announce.contact none).2 else table := by
  by_cases hkey : x.sha256 announce.contact.publicKey = announce.contact.id
  · by_cases hlocal : announce.contact.id = table.localId
    · simp [handleNodeAnnounce, kademliaInsert, hkey, hlocal]
    · simp [handleNodeAnnounce, hkey, hlocal]
  · simp [handleNodeAnnounce, hkey]

/-- A valid table stays valid exactly when the entry an insert leaves is. -/
theorem kademliaInsert_valid_iff {table : KademliaTable} (hwell : table.WellFormed)
    (hvalid : ∀ c ∈ table.contacts, validNodeContact x network c = true) (contact : NodeContact) :
    (∀ c ∈ (kademliaInsert table contact none).2.contacts, validNodeContact x network c = true)
      ↔ ∀ c ∈ table.entryFor contact, validNodeContact x network c = true := by
  constructor
  · intro h c hc
    exact h c ((mem_kademliaInsert hwell).mpr (.inl hc))
  · intro h
    exact kademliaInsert_forall hwell hvalid h

/-- One event keeps a valid table valid exactly when it does not spoil it. -/
theorem contactStep_valid_iff {localContact : NodeContact} {node : ContactNode}
    (hsound : node.Sound x) (hvalid : ContactsValid x network node) (event : ContactEvent) :
    ContactsValid x network (contactStep x network localContact node event)
      ↔ ¬ SpoilsTable x network node event := by
  obtain ⟨-, ⟨hnone, htable⟩ | ⟨announce, hannounced, htable⟩⟩ :=
    contactStep_cases (x := x) network localContact node event
  · refine iff_of_true (htable.contactsValid hsound.table hvalid) ?_
    simp [SpoilsTable, hnone]
  · obtain ⟨haddress, -⟩ := announced_some hannounced
    have hspoils : SpoilsTable x network node event
        ↔ x.sha256 announce.contact.publicKey = announce.contact.id
          ∧ ¬ ∀ c ∈ node.table.entryFor announce.contact,
              validNodeContact x network c = true := by
      simp only [SpoilsTable, hannounced, Option.mem_def, Option.some.injEq, exists_eq_left']
      refine and_congr_right fun hkey => ?_
      rw [KademliaTable.entryFor]
      cases hfind : kademliaFind node.table announce.contact.id with
      | some existing =>
          obtain ⟨hmem, hid⟩ := kademliaFind_some hfind
          simp [validNodeContact_updatedBy (hvalid existing hmem) hid hkey haddress]
      | none =>
          have hcontact : validNodeContact x network announce.contact = true
              ↔ announce.contact.id ≠ zero 32
                ∧ usableEndpoint x announce.contact.endpoint = true := by
            simp [validNodeContact_iff, hkey, haddress]
          by_cases hroom : announce.contact.id ≠ node.table.localId
              ∧ (node.table.bucketOf announce.contact.id).length < kademliaK
          · simp [hroom, hcontact]
            tauto
          · simp [hroom]
            tauto
    rw [hspoils, ContactsValid, htable, handleNodeAnnounce_table]
    by_cases hkey : x.sha256 announce.contact.publicKey = announce.contact.id
    · rw [if_pos hkey, kademliaInsert_valid_iff hsound.table hvalid]
      tauto
    · rw [if_neg hkey]
      exact iff_of_true hvalid fun h => hkey h.1

/-! ## The replies -/

theorem deserializeJoinResponse_peers {response response' : JoinResponse}
    (hcount : response.peers.length ≤ kademliaK) (hfit : ContactsFit response.peers)
    (h : deserializeJoinResponse (serializeJoinResponse response) = .ok response') :
    response'.peers = response.peers := by
  by_cases hboot : response.bootstrapContact.endpoint.length ≤ maxContactEndpointSize
  · rw [← response.boot_endpoint] at hboot
    have hall : ContactsFit (response.boot :: response.peers) := by
      intro c hc
      rcases List.mem_cons.mp hc with rfl | hc
      · exact hboot
      · exact hfit c hc
    rw [deserializeJoinResponse_serialize hcount hall] at h
    cases h
    rfl
  · rw [serializeJoinResponse_eq_nil (not_le.mp hboot)] at h
    cases h

/-- A join response over accepted contacts is accepted. -/
theorem replyAccepted_joinResponse {response : JoinResponse} (sequenceNumber : UInt64)
    (sender : NodeId) (hcount : response.peers.length ≤ kademliaK)
    (hpeers : ∀ c ∈ response.peers, AcceptedContact x network c) :
    ReplyAccepted x network (controlMessageCreate .joinResponse sequenceNumber sender
      (serializeJoinResponse response)) where
  neighbors h := by cases h
  joinResponse _ response' hread := by
    rw [deserializeJoinResponse_peers hcount (fun c hc => (hpeers c hc).2) hread]
    exact List.all_eq_true.mpr fun c hc => (hpeers c hc).1

/-- Over a valid table, with an accepted requester, every reply is accepted. -/
theorem replyAccepted_dispatch {table table' : KademliaTable} {incoming reply : ControlMessage}
    {localContact : Option NodeContact} {joinAdmitted : Bool} (hwell : table.WellFormed)
    (haccepted : ∀ c ∈ table.contacts, AcceptedContact x network c)
    (hjoin : incoming.type = .joinRequest → ∃ request,
      deserializeJoinRequest incoming.payload = .ok request
        ∧ AcceptedContact x network (requestContact request))
    (h : dispatchJoinProtocolMessage x table incoming localContact joinAdmitted
      = some (table', reply)) :
    ReplyAccepted x network reply := by
  rcases dispatchJoinProtocolMessage_cases h with
    ⟨htype, request, hread, -, hreply⟩ | ⟨-, request, -, -, hreply⟩ | ⟨-, announce, -, -, hreply⟩
  · obtain ⟨request', hread', hrequest⟩ := hjoin htype
    rw [hread] at hread'
    cases hread'
    rw [hreply]
    have hinserted : Inserted (AcceptedContact x network) table
        (kademliaInsert table (requestContact request) none).2 := inserted_kademliaInsert hrequest
    have hvalid := hinserted.contactsValid hwell fun c hc => (haccepted c hc).1
    have hfit := (hinserted.mono fun c hc => hc.2).fit hwell fun c hc => (haccepted c hc).2
    refine replyAccepted_joinResponse _ _ ?_ ?_
    · unfold processJoinRequest
      split
      · exact Nat.zero_le _
      · exact length_kademliaFindClosest_le _ _ _
    · intro c hc
      unfold processJoinRequest at hc
      split at hc
      · cases hc
      · have hmem := mem_of_mem_kademliaFindClosest hc
        exact ⟨hvalid c hmem, hfit c hmem⟩
  · rw [hreply]
    refine ⟨fun _ => ?_, fun h => by cases h⟩
    have hpeers : ∀ c ∈ (handleFindNode table request).peers, AcceptedContact x network c :=
      fun c hc => haccepted c (mem_of_mem_kademliaFindClosest hc)
    have hread := deserializeNeighbors_serialize (handleFindNode table request)
      (length_kademliaFindClosest_le _ _ _) fun c hc => (hpeers c hc).2
    have hall : (handleFindNode table request).peers.all (validNodeContact x network) = true :=
      List.all_eq_true.mpr fun c hc => (hpeers c hc).1
    simp [neighborsAccepted, controlMessageCreate, hread, hall]
  · rw [hreply]
    exact ⟨fun h => (by cases h), fun h => by cases h⟩

theorem replyAccepted_admittedFrame {localContact : NodeContact} {node : ContactNode}
    {peer : TlsPeer} {incoming reply : ControlMessage} (hwell : node.table.WellFormed)
    (haccepted : ∀ c ∈ node.table.contacts, AcceptedContact x network c)
    (hjoin : incoming.type = .joinRequest → ∃ request,
      deserializeJoinRequest incoming.payload = .ok request
        ∧ AcceptedContact x network (requestContact request))
    (h : (admittedFrame x network localContact node peer incoming).2 = some reply) :
    ReplyAccepted x network reply := by
  have hdispatch : ∀ table' reply', dispatchJoinProtocolMessage x node.table incoming
      (some localContact) true = some (table', reply') → ReplyAccepted x network reply' :=
    fun table' reply' hreply => replyAccepted_dispatch hwell haccepted hjoin hreply
  unfold admittedFrame contactMessage at h
  cases hreply : dispatchJoinProtocolMessage x node.table incoming (some localContact) true with
  | none => grind
  | some handled => grind

/-- In a valid state every reply is accepted. -/
theorem repliesAccepted_of_valid {localContact : NodeContact} {node : ContactNode}
    (hsound : node.Sound x) (hvalid : ContactsValid x network node) (event : ContactEvent) :
    RepliesAccepted x network localContact node event := by
  have haccepted : ∀ c ∈ node.table.contacts, AcceptedContact x network c :=
    fun c hc => ⟨hvalid c hc, hsound.fit c hc⟩
  intro reply h
  cases event with
  | bootstrap => cases h
  | selfLookup => cases h
  | frame trusted peer incoming nowSeconds answers =>
      rw [contactEvent] at h
      by_cases hsender : incoming.sender = peer.nodeId
      · rw [if_neg (not_not.mpr hsender)] at h
        by_cases hj : incoming.type = .joinRequest
        · rw [if_pos hj] at h
          cases hadmission : joinAdmission x network node peer incoming.payload nowSeconds
              answers with
          | none => simp [hadmission] at h
          | some result =>
              obtain ⟨admitted, node'⟩ := result
              obtain ⟨htable, -, hrequest⟩ := joinAdmission_some hadmission
              rw [hadmission] at h
              cases admitted with
              | false =>
                  cases h
                  exact replyAccepted_joinResponse _ _ (Nat.zero_le _)
                    fun c hc => absurd hc List.not_mem_nil
              | true =>
                  rw [← htable] at haccepted
                  exact replyAccepted_admittedFrame (htable ▸ hsound.table) haccepted
                    (fun _ => hrequest rfl) h
        · rw [if_neg hj] at h
          cases trusted with
          | false => cases h
          | true =>
              exact replyAccepted_admittedFrame hsound.table haccepted
                (fun hjoin => absurd hjoin hj) h
      · rw [if_pos hsender] at h
        cases h

/-- From a loaded trust store: all contacts are valid in every state of a run,
and every list of contacts it sends is accepted, exactly when no announcement
of it spoils the table. -/
theorem contacts_stay_valid {d : Directory} {identityFile : Bytes} {answers : LoadAnswers}
    {trust : TrustState} (hload : trustLoad x d identityFile answers = .ok trust)
    (network : IPv6) (localId : NodeId) (localContact : NodeContact)
    (events : List ContactEvent) :
    (Run.Throughout (contactStep x network localContact) (ContactsValid x network)
          (startNode network localId trust d) events
        ∧ Run.Along (contactStep x network localContact) (RepliesAccepted x network localContact)
          (startNode network localId trust d) events)
      ↔ Run.Along (contactStep x network localContact)
          (fun node event => ¬ SpoilsTable x network node event)
          (startNode network localId trust d) events := by
  have hsound := sound_throughout network localContact localId hload events
  have hstart : ContactsValid x network (startNode network localId trust d) := by
    refine (inserted_seedTable network localId (trustLoad_sound hload).2).contactsValid
      (wellFormed_kademliaInit localId) ?_
    intro c hc
    rw [kademliaInit_contacts] at hc
    cases hc
  have hrun : Run.Along (contactStep x network localContact) (fun node event =>
        ContactsValid x network (contactStep x network localContact node event)
          ∧ RepliesAccepted x network localContact node event)
        (startNode network localId trust d) events
      ↔ Run.Along (contactStep x network localContact)
          (fun node event => ¬ SpoilsTable x network node event)
          (startNode network localId trust d) events := by
    refine Run.along_iff (I := fun node => node.Sound x ∧ ContactsValid x network node)
      (A := fun _ _ => True) ?_ ?_ ⟨hsound.1, hstart⟩ ?_
    · exact fun node event h _ hq => ⟨sound_contactStep localContact h.1 event, hq.1⟩
    · intro node event h _
      rw [contactStep_valid_iff h.1 h.2 event]
      exact and_iff_left (repliesAccepted_of_valid h.1 h.2 event)
    · exact Run.along_of_throughout (fun _ _ _ => trivial) hsound
  rw [← hrun, Run.along_and]
  exact ⟨fun h => ⟨h.1.2, h.2⟩, fun h => ⟨⟨hstart, h.1⟩, h.2⟩⟩

/-! ## An announcement that spoils the table -/

/-- The trusted peer announces itself with an endpoint. -/
def peerAnnounces (endpoint : Bytes) : ContactEvent :=
  peerFrame .nodeAnnounce (serializeNodeAnnounce
    { contact := { trustedContact sampleNetwork (numberedPeer 0) with endpoint := endpoint }
      nonce := 1 })

/-- Two neighbours and an announcement of the peer's own endpoint. -/
theorem contacts_stay_valid_announced :
    Run.Throughout (contactStep posix sampleNetwork (sampleContact sampleLocalId))
        (ContactsValid posix sampleNetwork)
        (startNode sampleNetwork sampleLocalId onePeerTrust onePeerDirectory)
        [peerFrame .neighbors (longNeighbors [1, 2]), peerAnnounces (numberedPeer 0).endpoint]
      ∧ Run.Along (contactStep posix sampleNetwork (sampleContact sampleLocalId))
        (RepliesAccepted posix sampleNetwork (sampleContact sampleLocalId))
        (startNode sampleNetwork sampleLocalId onePeerTrust onePeerDirectory)
        [peerFrame .neighbors (longNeighbors [1, 2]), peerAnnounces (numberedPeer 0).endpoint] := by
  have hload : trustLoad posix onePeerDirectory (ascii "identity") .success
      = .ok onePeerTrust := by decide +kernel
  exact (contacts_stay_valid hload sampleNetwork sampleLocalId (sampleContact sampleLocalId)
    _).mpr (by decide +kernel)

/-- One announcement of an endpoint that does not parse, and the table holds
a contact that no receiver accepts. -/
theorem announcement_spoils_table :
    trustLoad posix onePeerDirectory (ascii "identity") .success = .ok onePeerTrust
      ∧ ¬ ContactsValid posix sampleNetwork (nodeAfter [peerAnnounces (ascii "nowhere")])
      ∧ ∃ reply, (contactEvent posix sampleNetwork (sampleContact sampleLocalId)
          (nodeAfter [peerAnnounces (ascii "nowhere")])
          (peerFrame .findNode (serializeFindNode { target := sampleLocalId }))).2 = some reply
        ∧ ¬ ReplyAccepted posix sampleNetwork reply := by
  refine ⟨by decide +kernel, fun h => ?_, ?_⟩
  · have hall := List.all_eq_true.mpr h
    exact absurd hall (by decide +kernel)
  · have hany : ((contactEvent posix sampleNetwork (sampleContact sampleLocalId)
        (nodeAfter [peerAnnounces (ascii "nowhere")])
        (peerFrame .findNode (serializeFindNode { target := sampleLocalId }))).2.any fun reply =>
          reply.type = .neighbors
            ∧ (neighborsAccepted posix sampleNetwork reply.payload).isNone) = true := by
      decide +kernel
    obtain ⟨reply, hreply, hrefused⟩ := (Option.any_eq_true _ _).mp hany
    rw [decide_eq_true_eq] at hrefused
    refine ⟨reply, hreply, fun h => ?_⟩
    have haccepted := h.neighbors hrefused.1
    rw [Option.isNone_iff_eq_none.mp hrefused.2] at haccepted
    cases haccepted

end Madoka

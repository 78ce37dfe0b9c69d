import Madoka.Daemon.ContactValidity
import Madoka.Daemon.Handshake
import Madoka.Daemon.JoinAtomic
import Madoka.Daemon.PowerLoss
import Madoka.Daemon.StatusFile

/-!
# Join Handshake

A node joins with an invitation, over the code of both ends: `madoka invite`
beside a running node, `run_join` of the newcomer, and `run_session` of the
inviter. What both hold afterwards, in memory and on disk.
-/

namespace Madoka

open Octets

variable {Key : Type} (x : External) (keys : KeyStore Key) (p : Paths)

/-! ## Both ends -/

/-- The request of `run_join`. The endpoint is the one that `start_runtime`
gave the newcomer. -/
def newcomerRequest (node : JoinNode Key) (endpoint token : Bytes) (nowMs : UInt64) :
    JoinRequest where
  nodeId := node.identity.id
  publicKey := keys.publicKey node.identity.key
  virtualAddress := virtualAddress node.config.network node.identity.id
  endpoint := endpoint
  timestamp := nowMs
  nonce := 1001
  inviteToken := token

/-- `receive_control`, of the message that comes in time. -/
def receiveControl (wire : Option Message) : Except String ControlMessage :=
  match wire with
  | none => .error ""
  | some wire =>
      if wire.type ≠ .control then .error "" else deserializeControlMessage wire.payload

/-- What the newcomer meets when the bootstrap is the inviter. -/
def meeting (inviter : TlsPeer) (heard : Option FrameResult) (answers : JoinRunAnswers) :
    JoinRunAnswers :=
  { answers with peer := .ok inviter, sent := none, reply := receiveControl (replyTo heard) }

/-- The inviter lets a newcomer in that shows its ticket: the address is free,
the ticket can be used up and the record stored. -/
structure MayInvite (inviter : AppState) (ticket : InviteTicket) (request : JoinRequest)
    (answers : FrameAnswers) : Prop where
  sorted : LowerBound.Sorted TrustedPeer.id inviter.trust.peers
  directory : inviter.trust.directory ≠ []
  unreserved : validateIdentityAddress inviter.id = .ok ()
  removed : TicketRemoved inviter.network inviter.id inviter.trust inviter.directory request ticket
    answers.admission.consume
  stored : ¬ FailsAfterRemoval inviter.trust inviter.directory request ticket answers.nowSeconds
    answers.admission
  unexpired : answers.nowSeconds < ticket.expiresAt
  contacts : ∀ c ∈ inviter.contacts.contacts, validNodeContact x inviter.network c = true

/-- Every step of the newcomer's own works. -/
structure MayJoin (disk : Disk) (node : JoinNode Key) (answers : JoinRunAnswers) : Prop where
  publicKey : answers.publicKey = true
  mtu : node.config.mtu.toNat ≤ maxPayloadSize - dataPacketHeaderSize
  server : answers.runtime.server = none
  interface : answers.runtime.interface = none
  stateDirectory : answers.stateDirectory = none
  trustDirectory : answers.trustDirectory = none
  saves : Saves keys disk.files node.identity.key (node.identityName p) answers.save
  rest : StoresRest p disk node answers

/-- The inviter trusts the newcomer, in memory and on disk, and the ticket is
used up. -/
structure Admitted (inviter : AppState) (ticket : InviteTicket) (newcomer : TrustedPeer) : Prop where
  trusted : trustFind inviter.trust newcomer.id = some newcomer
  recorded : inviter.directory.lookup (peerPath newcomer.id) = some (encodePeer newcomer)
  usedUp : inviter.directory.lookup (invitePath ticket.secret) = none

variable {x keys p}

/-! ## The inviter -/

section
variable {inviter : AppState} {inviterKey : PublicKey} {ticket : InviteTicket}
  {request : JoinRequest} {answers : FrameAnswers} {peer : TlsPeer} {message : ControlMessage}

theorem MayInvite.shown (h : MayInvite x inviter ticket request answers)
    (hrequest : Presents x inviter.network peer request)
    (htoken : request.inviteToken = inviteEncode x ticket) (hvalid : inviteEncode x ticket ≠ [])
    (hfresh : ticket.consumed = false)
    (hstored : inviter.directory.lookup (invitePath ticket.secret)
      = some (inviteEncode x ticket ++ [newline])) :
    TicketShown x inviter.network peer.nodeId peer.pubkey inviter.trust inviter.directory ticket
      request answers.nowSeconds where
  directory := h.directory
  token := htoken
  valid := hvalid
  fresh := hfresh
  stored := hstored
  unexpired := h.unexpired
  authenticated := by
    rw [← hrequest.publicKey, hrequest.derived, hrequest.nodeId]
  checked := hrequest.valid
  onWire := hrequest.fits.1

/-- The newcomer is admitted and recorded, and the ticket's file is gone. -/
theorem MayInvite.admits (h : MayInvite x inviter ticket request answers)
    (hshown : TicketShown x inviter.network peer.nodeId peer.pubkey inviter.trust inviter.directory
      ticket request answers.nowSeconds) :
    ∃ trust directory, admitJoin x inviter.network inviter.id inviter.trust inviter.directory request
        answers.nowSeconds answers.admission = (true, trust, directory)
      ∧ trustFind trust request.nodeId = some (requestedPeer request)
      ∧ directory.lookup (peerPath request.nodeId) = some (encodePeer (requestedPeer request))
      ∧ directory.lookup (invitePath ticket.secret) = none := by
  have htrue := (admitJoin_removed hshown h.removed).mpr h.stored
  refine ⟨_, _, Prod.ext htrue rfl, ?_, ?_, ?_⟩
  · have hpeers : (admitJoin x inviter.network inviter.id inviter.trust inviter.directory request
        answers.nowSeconds answers.admission).2.1.peers
        = LowerBound.put TrustedPeer.id (requestedPeer request) inviter.trust.peers := by
      rcases @admitJoin_cases x inviter.network inviter.id inviter.trust inviter.directory request
        answers.nowSeconds answers.admission with ⟨hfalse, -⟩ | ⟨-, -, -, -, hpeers⟩
      · rw [htrue] at hfalse
        cases hfalse
      · exact hpeers
    have hmem : requestedPeer request
        ∈ LowerBound.put TrustedPeer.id (requestedPeer request) inviter.trust.peers :=
      (LowerBound.mem_put h.sorted).mpr (.inl rfl)
    unfold trustFind
    rw [hpeers]
    exact LowerBound.find?_of_mem (LowerBound.put_sorted h.sorted _) hmem
  · rcases @admitJoin_lookup_peer x inviter.network inviter.id inviter.trust inviter.directory request
      answers.nowSeconds answers.admission request.nodeId with ⟨hno, -⟩ | ⟨-, -, -, hrecord⟩
    · rw [hno rfl] at htrue
      cases htrue
    · exact hrecord
  · rw [admitJoin_lookup_other _ _ _ _ _ _ _ (Ne.symm (peerPath_ne_invitePath _ _))
      (notTemporary_invitePath _), (invitedOrKnown_removed hshown h.removed).1, AList.lookup_erase]

/-- Every contact the inviter answers with is one that a newcomer accepts. -/
theorem joinAnswer_valid (hwell : inviter.contacts.WellFormed)
    (hrequest : Presents x inviter.network peer request)
    (hcontacts : ∀ c ∈ inviter.contacts.contacts, validNodeContact x inviter.network c = true) :
    ∀ c ∈ (joinAnswer x inviter request).peers, validNodeContact x inviter.network c = true := by
  have hnew : AcceptedContact x inviter.network (requestContact request) :=
    ⟨validNodeContact_iff.mpr ⟨hrequest.named, hrequest.derived, hrequest.virtualAddress,
      (validEndpoint_iff.mp hrequest.endpoint).2.2.2⟩, hrequest.fits.1⟩
  have hinserted : Inserted (AcceptedContact x inviter.network) inviter.contacts
      (kademliaInsert inviter.contacts (requestContact request) none).2 :=
    inserted_kademliaInsert hnew
  intro c hc
  unfold joinAnswer processJoinRequest at hc
  rw [if_neg (not_not.mpr hrequest.derived)] at hc
  exact hinserted.contactsValid hwell hcontacts c (mem_of_mem_kademliaFindClosest hc)

end

/-! ## The newcomer -/

section
variable {inviter : AppState} {inviterKey : PublicKey} {response : JoinResponse} {localId : NodeId}

/-- An acceptance that carries the inviter's own contact passes the checks of
`run_join`. -/
theorem bootstrapContact_own (hself : KnowsItself x inviter inviterKey)
    (husable : usableEndpoint x inviter.localContact.endpoint = true) (hother : inviter.id ≠ localId)
    (hcontact : response.bootstrapContact = inviter.localContact)
    (hid : response.bootstrapId = inviter.id)
    (hpeers : ∀ c ∈ response.peers, validNodeContact x inviter.network c = true) :
    bootstrapContact x inviter.network localId ⟨inviter.id, inviterKey⟩ inviter.localContact.endpoint
      inviter.id response = some inviter.localContact := by
  have hvalid : validNodeContact x inviter.network inviter.localContact = true := by
    rw [validNodeContact_iff, hself.contactId, hself.contactKey, hself.contactAddress]
    exact ⟨hself.named, hself.derived, rfl, husable⟩
  have hcontactId := hself.contactId
  have hcontactKey := hself.contactKey
  have hcontactAddress := hself.contactAddress
  -- nothing is left out that would be taken from the session
  have hcompleted : completedBootstrap inviter.network ⟨inviter.id, inviterKey⟩
      inviter.localContact.endpoint inviter.id inviter.localContact = inviter.localContact := by
    generalize inviter.localContact = own at hcontactId hcontactKey hcontactAddress
    obtain ⟨id, key, address, endpoint, seen, rtt, failed⟩ := own
    dsimp only at hcontactId hcontactKey hcontactAddress
    subst hcontactId hcontactKey hcontactAddress
    simp [completedBootstrap]
  have hall : response.peers.all (validNodeContact x inviter.network) = true :=
    List.all_eq_true.mpr hpeers
  unfold bootstrapContact
  dsimp only
  rw [hcontact, hcompleted, hid, hcontactId, hcontactKey, hcontactAddress, hvalid, hall,
    if_neg (by simp), if_neg (by simp [hother]), if_neg (by simp)]

end

section
variable {disk : Disk} {node : JoinNode Key} {answers : JoinRunAnswers}

/-- A newcomer that is greeted, and whose own steps all work, becomes active
and has on disk what it starts from again. -/
theorem runJoin_joined (hx : x.Lawful) (hp : p.Lawful) (hkeys : keys.Lawful)
    (hfresh : FreshNode x keys p disk node) (hjoin : MayJoin keys p disk node answers)
    {peer : TlsPeer} {contact : NodeContact} (hgreeted : Greeted x node answers peer contact)
    (haddress : trustAddressAvailable (emptyTrustOf (node.identityName p)) node.config.network
      node.identity.id node.ticket.inviterId = true) :
    (runJoin x keys p disk node answers).1 = .ok .active
      ∧ AllStored x keys p (runJoin x keys p disk node answers).2 node peer := by
  have hfacts := hfresh.facts
  have hend := @runJoin_end _ x keys p disk node answers hfacts
    ⟨⟨peer, contact, hgreeted⟩, haddress, hjoin.stateDirectory, hjoin.trustDirectory⟩
  generalize runJoin x keys p disk node answers = result at hend ⊢
  cases hend with
  | unsaved e files hsaves hfiles => exact absurd hjoin.saves hsaves
  | untrusted e disk' hsaves hrecord hleft => exact absurd hjoin.rest.record hrecord
  | joined peer' pem files store hsaves hrecord hpeer hbinding hpem hfiles hstore =>
      have hconnected := hgreeted.connected
      rw [hpeer] at hconnected
      cases hconnected
      refine ⟨rfl, (allStored_iff hx hp hkeys hfresh hfacts hsaves.named hbinding hpem hfiles
        hstore).mpr ⟨hjoin.rest.config, hjoin.rest.restorable, hjoin.rest.address⟩⟩

/-- The inviter's address is free in the newcomer's empty table when the
newcomer's is free in the inviter's. -/
theorem trustAddressAvailable_converse {trust : TrustState} {network : IPv6} {localId id : NodeId}
    {identityFile : Bytes} (h : trustAddressAvailable trust network localId id = true)
    (hnamed : localId ≠ zero 32) (hunreserved : validateIdentityAddress localId = .ok ()) :
    trustAddressAvailable (emptyTrustOf identityFile) network id localId = true := by
  unfold trustAddressAvailable at h
  dsimp only at h
  split at h
  · cases h
  rename_i hsame
  split at h
  · cases h
  rename_i htaken
  obtain ⟨-, hother⟩ := not_or.mp hsame
  obtain ⟨haddress, -⟩ := not_or.mp htaken
  have hhost : ((virtualAddress network localId).val.drop 8).all (· = 0) = false := by
    unfold validateIdentityAddress at hunreserved
    have hsplit : (virtualAddress network localId).val.drop 8 = localId.val.take 8 :=
      List.drop_left' (by simp [network.property])
    rw [hsplit]
    split at hunreserved
    · cases hunreserved
    · rename_i hzero
      simpa using hzero
  unfold trustAddressAvailable
  rw [if_neg (by simp [hnamed, Ne.symm hother])]
  dsimp only
  rw [if_neg (by simp [Ne.symm haddress, hhost])]
  simp [emptyTrustOf]

end

/-- What the newcomer receives of the inviter's answer. -/
theorem receiveControl_reply {after : AppState} {reply : ControlMessage} {trusted continues : Bool}
    (htype : reply.type ≠ .invalid)
    (hroom : controlMessageHeaderSize + reply.payload.length ≤ maxPayloadSize) :
    receiveControl (replyTo (some
        { app := after, trusted := trusted, effects := [.control reply], continues := continues }))
      = .ok reply := by
  have hsome : replyTo (some
      { app := after, trusted := trusted, effects := [.control reply], continues := continues })
      = some (makeControlWire reply) := by
    unfold replyTo
    dsimp only
    rw [List.findSome?_cons]
    dsimp only
    rw [delivered_control hroom]
  have hcontrol : (makeControlWire reply).type = .control := rfl
  unfold receiveControl
  rw [hsome]
  dsimp only
  rw [if_neg (not_not.mpr hcontrol), read_makeControlWire htype hroom]

theorem MayJoin.meeting {disk : Disk} {node : JoinNode Key} {answers : JoinRunAnswers}
    (h : MayJoin keys p disk node answers) (inviter : TlsPeer) (heard : Option FrameResult) :
    MayJoin keys p disk node (meeting inviter heard answers) :=
  ⟨h.publicKey, h.mtu, h.server, h.interface, h.stateDirectory, h.trustDirectory, h.saves,
    h.rest.config, h.rest.record, h.rest.restorable, h.rest.address⟩

/-- With an acceptance of the inviter the newcomer passes all its checks. -/
theorem greeted_of_acceptance {inviter : AppState} {inviterKey : PublicKey} {disk : Disk}
    {node : JoinNode Key} (answers : JoinRunAnswers) {heard : FrameResult} {response : JoinResponse}
    (hfacts : FreshFacts x keys p node) (hjoin : MayJoin keys p disk node answers)
    (hself : KnowsItself x inviter inviterKey) (hnetwork : node.ticket.network = inviter.network)
    (hinviter : node.ticket.inviterId = inviter.id)
    (hplace : node.ticket.inviterEndpoint = inviter.localContact.endpoint)
    (hother : inviter.id ≠ node.identity.id)
    (hreply : receiveControl (replyTo (some heard))
      = .ok (controlMessageCreate .joinResponse 1 inviter.id (serializeJoinResponse response)))
    (haccepted : response.accepted = true) (hboot : response.boot = inviter.localContact)
    (hcount : response.peers.length ≤ kademliaK)
    (hfit : ContactsFit (response.boot :: response.peers))
    (hpeers : ∀ c ∈ response.peers, validNodeContact x inviter.network c = true) :
    Greeted x node (meeting ⟨inviter.id, inviterKey⟩ (some heard) answers) ⟨inviter.id, inviterKey⟩
      inviter.localContact where
  endpoint := (validEndpoint_iff.mp hfacts.endpoint).2.2.2
  publicKey := hjoin.publicKey
  mtu := hjoin.mtu
  server := hjoin.server
  interface := hjoin.interface
  connected := rfl
  inviter := hinviter.symm
  sent := rfl
  reply := by
    have husable : usableEndpoint x inviter.localContact.endpoint = true :=
      hplace ▸ (validEndpoint_iff.mp hfacts.endpoint).2.2.2
    refine ⟨_, _, hreply, rfl, deserializeJoinResponse_serialize hcount hfit, haccepted, ?_⟩
    rw [hfacts.network, hnetwork, hplace]
    refine bootstrapContact_own hself husable hother hboot ?_ hpeers
    exact (congrArg NodeContact.id hboot).trans hself.contactId

/-! ## The join -/

section
variable {percent : Nat → Nat → Bytes} {configPath : Bytes} {d : Directory}
  {updates : List StatusUpdate} {inviter : AppState} {inviterKey : PublicKey} {disk : Disk}
  {node : JoinNode Key} {answers : JoinRunAnswers} {given : FrameAnswers} {endpoint token : Bytes}
  {nowMs : UInt64}

theorem newcomerRequest_presents (hfacts : FreshFacts x keys p node)
    (hnetwork : node.ticket.network = inviter.network) (hnamed : node.identity.id ≠ zero 32)
    (hendpoint : validEndpoint x endpoint = true) (htoken : token.length ≤ 512) (nowMs : UInt64) :
    Presents x inviter.network ⟨node.identity.id, keys.publicKey node.identity.key⟩
      (newcomerRequest keys node endpoint token nowMs) where
  nodeId := rfl
  publicKey := rfl
  virtualAddress := by
    show virtualAddress node.config.network _ = _
    rw [hfacts.network, hnetwork]
    rfl
  endpoint := hendpoint
  token := htoken
  derived := hfacts.derived.symm
  named := hnamed

/-- Whoever shows the token that `madoka invite` has printed beside a running
node joins it: the inviter admits the newcomer and answers, the newcomer
accepts the answer and becomes active. Then the ticket is used up, each trusts
the other by the key that TLS has shown, the inviter is in touch with the
newcomer, and the newcomer has on disk what it starts from again. -/
theorem join_completes (hx : x.Lawful) (hp : p.Lawful) (hkeys : keys.Lawful)
    (hpublishes : Publishes x percent configPath d updates
      ⟨inviter.id, inviter.localContact.endpoint, inviter.network⟩)
    {stateDirectory : Bytes} {store : Directory} {lifetimeSeconds : UInt64} {read : SystemResult}
    {invite : InviteAnswers}
    (hissued : inviteCommand x stateDirectory store
        (privateReadFile (statusAfter percent configPath d updates) (statusPath configPath) 65536 read)
        lifetimeSeconds invite = (.ok token, inviter.directory))
    (hdecoded : inviteDecode x token = .ok node.ticket) (hself : KnowsItself x inviter inviterKey)
    (hinvite : MayInvite x inviter node.ticket (newcomerRequest keys node endpoint token nowMs) given)
    (hanswer : CanAnswer x inviter ⟨node.identity.id, keys.publicKey node.identity.key⟩
      (joinMessage 1 node.identity.id (newcomerRequest keys node endpoint token nowMs)) given)
    (hfresh : FreshNode x keys p disk node) (hendpoint : validEndpoint x endpoint = true)
    (hjoin : MayJoin keys p disk node answers) (serial : Nat) :
    ∃ heard, answerRequest x inviter ⟨node.identity.id, keys.publicKey node.identity.key⟩ serial
          (joinMessage 1 node.identity.id (newcomerRequest keys node endpoint token nowMs)) given
        = some heard
      ∧ heard.trusted = true ∧ heard.continues = true
      ∧ InTouch heard.app ⟨serial, some node.identity.id, true⟩ node.identity.id given.blockAt
      ∧ Admitted heard.app node.ticket
        (requestedPeer (newcomerRequest keys node endpoint token nowMs))
      ∧ (runJoin x keys p disk node
          (meeting ⟨inviter.id, inviterKey⟩ (some heard) answers)).1 = .ok .active
      ∧ AllStored x keys p (runJoin x keys p disk node
          (meeting ⟨inviter.id, inviterKey⟩ (some heard) answers)).2 node
          ⟨inviter.id, inviterKey⟩ := by
  have hfacts := hfresh.facts
  -- the ticket is the one that was stored, and it names the inviter
  obtain ⟨live, ticket, hlive, hissues, htoken, hvalid, hstored⟩ := inviteCommand_prints hissued
  obtain ⟨hnamedLive, -⟩ := hpublishes.named hx hlive
  subst hnamedLive
  have hticket : node.ticket = ticket := by
    have hround := inviteDecode_encode hvalid
    rw [← htoken, hdecoded, ← hissues.fresh] at hround
    exact Except.ok.inj hround
  rw [← hticket] at hissues hvalid hstored htoken
  have hnetwork : node.ticket.network = inviter.network := hissues.network
  have haddress := hinvite.removed.2.1
  have hdistinct : node.identity.id ≠ zero 32 ∧ node.identity.id ≠ inviter.id := by
    unfold trustAddressAvailable at haddress
    split at haddress
    · cases haddress
    · rename_i hsame
      exact not_or.mp hsame
  have hpresents := @newcomerRequest_presents _ x keys p inviter node endpoint token hfacts hnetwork
    hdistinct.1 hendpoint (htoken ▸ inviteEncode_length _) nowMs
  have hplace : node.ticket.inviterEndpoint = inviter.localContact.endpoint := hissues.endpoint
  have husable : validEndpoint x inviter.localContact.endpoint = true := hplace ▸ hfacts.endpoint
  have hlocal : inviter.localContact.endpoint.length ≤ maxContactEndpointSize :=
    (validEndpoint_iff.mp husable).2.1
  -- the inviter admits the newcomer and answers
  obtain ⟨trust, directory, hgranted, htrusted, hrecorded, hgone⟩ :=
    hinvite.admits (hinvite.shown hpresents htoken hvalid hissues.fresh hstored)
  have hcontains : trustContains trust node.identity.id = true := by
    unfold trustContains
    rw [show trustFind trust node.identity.id = _ from htrusted]
    rfl
  obtain ⟨after, hheard, hintouch, hafterTrust, hafterDirectory⟩ :=
    @answerRequest_connects x inviter ⟨node.identity.id, keys.publicKey node.identity.key⟩ serial
      given (newcomerRequest keys node endpoint token nowMs) 1 inviterKey trust directory hself hanswer
      hpresents hgranted hcontains hdistinct.2 hlocal
  refine ⟨_, hheard, rfl, rfl, hintouch, ?_, ?_⟩
  · exact ⟨hafterTrust ▸ htrusted, hafterDirectory ▸ hrecorded, hafterDirectory ▸ hgone⟩
  -- the newcomer reads the answer
  obtain ⟨haccepted, hboot, hcount, hfit⟩ := joinAnswer_fits hself hanswer.wellFormed
    hanswer.written hlocal hpresents.fits.1 hpresents.derived
  have hsendable := (dispatch_sendable hanswer.wellFormed hanswer.written
    (dispatch_join hpresents.fits hanswer.owner node.identity.id)).mpr hanswer.fits
  have hroom := (messageEncode_control _).mp hsendable.encodes
  have hreply := @receiveControl_reply after (controlMessageCreate .joinResponse 1 inviter.id
    (serializeJoinResponse (joinAnswer x inviter (newcomerRequest keys node endpoint token nowMs))))
    true true (fun h => by cases h) hroom
  have hgreeted := greeted_of_acceptance answers hfacts hjoin hself hnetwork hissues.inviterId hplace
    (Ne.symm hdistinct.2) hreply haccepted hboot hcount hfit
    (joinAnswer_valid hanswer.wellFormed hpresents hinvite.contacts)
  refine runJoin_joined hx hp hkeys hfresh (hjoin.meeting _ _) hgreeted ?_
  rw [hfacts.network, hnetwork, hissues.inviterId]
  exact trustAddressAvailable_converse haddress hself.named hinvite.unreserved

end

/-! ## A first newcomer -/

def hostTicket : InviteTicket where
  network := sampleNetwork
  secret := repeated 16 7
  inviterId := firstNode.id
  inviterEndpoint := firstNode.localContact.endpoint
  createdAt := 1
  expiresAt := 3601
  consumed := false

@[irreducible] def hostToken : Bytes := inviteEncode system hostTicket

def hostInvite : InviteAnswers where
  current := 1200
  nowSeconds := 1
  random := .ok (repeated 16 7)
  store :=
    { ensureDirectory := none
      lock := .success (zero 16)
      read := fun _ => none
      removeExpired := fun _ => none
      iterate := none
      inspectPath := none
      write := .success (zero 16) }

/-- What `madoka invite` makes of an empty directory. -/
@[irreducible] def hostIssue : Except String Bytes × Directory :=
  inviteCommand system (ascii "trust") ∅
    (privateReadFile (statusAfter (fun _ _ => ascii "0.0") statePath ∅ [firstStatus])
      (statusPath statePath) 65536 none) 3600 hostInvite

def hostNode : AppState := { firstNode with directory := hostIssue.2 }

def guestNode : JoinNode Unit := { loopbackNode with ticket := hostTicket }

def guestRequest : JoinRequest :=
  newcomerRequest onlyKey guestNode (ascii "192.168.0.2:9001") hostToken 5

theorem hostIssue_prints : hostIssue.1 = .ok hostToken := by decide +kernel

theorem hostNode_issued :
    inviteCommand system (ascii "trust") ∅
        (privateReadFile (statusAfter (fun _ _ => ascii "0.0") statePath ∅ [firstStatus])
          (statusPath statePath) 65536 none) 3600 hostInvite
      = (.ok hostToken, hostNode.directory) := by
  have hissue : hostIssue = (.ok hostToken, hostNode.directory) := Prod.ext hostIssue_prints rfl
  rw [← hissue]
  unfold hostIssue
  rfl

theorem hostNode_publishes : Publishes system (fun _ _ => ascii "0.0") statePath ∅ [firstStatus]
    ⟨hostNode.id, hostNode.localContact.endpoint, hostNode.network⟩ :=
  firstStatus_publishes

theorem hostToken_decodes : inviteDecode system hostToken = .ok guestNode.ticket := by
  have hvalid : inviteEncode system hostTicket ≠ [] := by decide
  unfold hostToken
  exact inviteDecode_encode hvalid

theorem guestNode_fresh : FreshNode system onlyKey plainPaths emptyDisk guestNode where
  invitation := by
    have hvalid : inviteEncode system hostTicket ≠ [] := by decide
    exact ⟨_, inviteDecode_encode hvalid⟩
  config := ⟨false, [], [], homeAddress, by simp, by decide, rfl⟩
  identity := ⟨some (), rfl⟩
  configFile := AList.notMem_empty _
  identityFile := AList.notMem_empty _
  loadedFile := AList.notMem_empty _
  records := fun name h => absurd h (AList.notMem_empty _)

theorem hostNode_mayInvite : MayInvite system hostNode hostTicket guestRequest steadyAnswers where
  sorted := List.pairwise_singleton _ _
  directory := by decide
  unreserved := by decide
  removed := ⟨by decide +kernel, by decide +kernel, rfl, by decide +kernel, rfl, rfl⟩
  stored := by
    have hwritten : (privateWriteAtomically
        ((fileLockAcquire hostNode.directory stateLock steadyAnswers.admission.consume.lock).2.erase
          (invitePath hostTicket.secret))
        (peerPath guestRequest.nodeId) (encodePeer (requestedPeer guestRequest))
        steadyAnswers.admission.add.write).1 = .ok () := by decide +kernel
    have hplain : (0 : UInt8) ∉ guestRequest.endpoint := by decide
    have hdated : ¬ steadyAnswers.nowSeconds < hostTicket.createdAt := by decide
    rintro (h | h | h | h | h | h)
    · exact h rfl
    · exact hdated h
    · exact hplain h
    · exact h rfl
    · exact absurd h.2 (by decide)
    · exact h hwritten
  unexpired := by decide
  contacts := by
    show ∀ c ∈ (kademliaInit firstNode.id).contacts, _
    rw [kademliaInit_contacts]
    intro c hc
    cases hc

theorem hostNode_knowsItself : KnowsItself system hostNode (numberedPeer 0).publicKey :=
  ⟨by decide, by decide, rfl, rfl, rfl⟩

theorem hostNode_canAnswer :
    CanAnswer system hostNode ⟨guestNode.identity.id, onlyKey.publicKey guestNode.identity.key⟩
      (joinMessage 1 guestNode.identity.id guestRequest) steadyAnswers where
  unlisted := by
    intro s hs
    cases hs
  space := by decide
  neighbor := takesNeighbor_start rfl rfl _
  wellFormed := wellFormed_kademliaInit _
  owner := rfl
  written := by
    show ContactsFit (kademliaInit firstNode.id).contacts
    rw [kademliaInit_contacts]
    intro c hc
    cases hc
  fits := by decide +kernel
  replySent := rfl
  prompt := ⟨by decide, by decide, by decide⟩

theorem guestNode_mayJoin :
    MayJoin onlyKey plainPaths emptyDisk guestNode (loopbackAnswers (.success (zero 16))) := by
  have hwrites : ∀ (d : Directory) (name : Bytes),
      (privateWriteAtomically d name [] (.success (zero 16))).1 = .ok () →
      Renames d name (.success (zero 16)) := by
    intro d name h
    exact (privateWriteAtomically_ok_iff.mp h).1
  refine ⟨rfl, by decide, rfl, rfl, rfl, rfl, ?_, ?_⟩
  · exact ⟨by decide, fileLockAcquire_ok_iff.mp (by decide), ⟨_, rfl, by decide⟩,
      hwrites _ _ (by decide), rfl⟩
  · exact ⟨hwrites _ _ (by decide), ⟨rfl, hwrites _ _ (by decide), rfl⟩,
      ⟨rfl, by decide, by decide, by decide, by decide⟩,
      by decide⟩

/-- The first newcomer of a node that has just started. -/
theorem join_completes_first :
    ∃ heard, answerRequest system hostNode
          ⟨guestNode.identity.id, onlyKey.publicKey guestNode.identity.key⟩ 7
          (joinMessage 1 guestNode.identity.id guestRequest) steadyAnswers = some heard
      ∧ heard.trusted = true ∧ heard.continues = true
      ∧ InTouch heard.app ⟨7, some guestNode.identity.id, true⟩ guestNode.identity.id
        steadyAnswers.blockAt
      ∧ Admitted heard.app guestNode.ticket (requestedPeer guestRequest)
      ∧ (runJoin system onlyKey plainPaths emptyDisk guestNode
          (meeting ⟨hostNode.id, (numberedPeer 0).publicKey⟩ (some heard)
            (loopbackAnswers (.success (zero 16))))).1 = .ok .active
      ∧ AllStored system onlyKey plainPaths (runJoin system onlyKey plainPaths emptyDisk guestNode
          (meeting ⟨hostNode.id, (numberedPeer 0).publicKey⟩ (some heard)
            (loopbackAnswers (.success (zero 16))))).2 guestNode
          ⟨hostNode.id, (numberedPeer 0).publicKey⟩ :=
  join_completes system_lawful plainPaths_lawful onlyKey_lawful hostNode_publishes
    hostNode_issued hostToken_decodes hostNode_knowsItself
    hostNode_mayInvite hostNode_canAnswer guestNode_fresh (by decide) guestNode_mayJoin 7

end Madoka

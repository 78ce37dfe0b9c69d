import Madoka.Daemon.JoinRun
import Madoka.Security.TrustStore

/-!
# Join Storage

What a join has on disk where it ends, step by step: nothing before the
identity is stored, and from there on whatever was written before the failure.
-/

namespace Madoka

open Octets

variable {Key : Type} (x : External) (keys : KeyStore Key) (p : Paths)

/-! ## All or nothing -/

/-- The identity file's name on disk. -/
def JoinNode.identityName (node : JoinNode Key) : Bytes :=
  p.canonical node.config.identityFile

/-- The configuration file's name on disk. -/
def JoinNode.configName (node : JoinNode Key) : Bytes :=
  p.canonical node.path

/-- The trust directory. -/
def JoinNode.store (disk : Disk) (node : JoinNode Key) : Directory :=
  disk.stores (trustDirectory (node.identityName p))

/-- The bootstrap as the invitation and TLS show it. -/
def JoinNode.bootstrap (node : JoinNode Key) (peer : TlsPeer) : TrustedPeer where
  id := node.ticket.inviterId
  publicKey := peer.pubkey
  endpoint := node.ticket.inviterEndpoint

/-- A node without prior state, as `app_init` hands it over: the ticket is the
token's, the identity is new, and no file is there that a start would read. -/
structure FreshNode (disk : Disk) (node : JoinNode Key) : Prop where
  invitation : ∃ token, inviteDecode x token = .ok node.ticket
  config : ∃ custom listenArg sharePortsArg address, (0 : UInt8) ∉ listenArg
    ∧ x.inetPton4 address.detected = true
    ∧ joinConfig x p node.path custom none node.ticket.network listenArg sharePortsArg address
      = .ok node.config
  identity : ∃ keygen, identityGenerate x keys keygen = .ok node.identity
  configFile : node.configName p ∉ disk.files
  identityFile : node.identityName p ∉ disk.files
  loadedFile : p.canonical (p.within node.path (ascii "identity.pem")) ∉ disk.files
  records : ∀ name ∈ node.store p disk, isPeerFile name = false

/-- None of the three files is there. -/
structure NothingLeft (disk : Disk) (node : JoinNode Key) : Prop where
  identity : node.identityName p ∉ disk.files
  config : node.configName p ∉ disk.files
  record : peerPath node.ticket.inviterId ∉ node.store p disk

/-- All three are there, and whatever key a start would generate, it loads the
network and the node identifier of the join and trusts the bootstrap by the
key that TLS has shown. -/
structure AllStored (disk : Disk) (node : JoinNode Key) (peer : TlsPeer) : Prop where
  identity : node.identityName p ∈ disk.files
  config : node.configName p ∈ disk.files
  record : peerPath node.ticket.inviterId ∈ node.store p disk
  restarts : ∀ keygen random, ∃ config identity trust,
    restart x keys p disk node.path (restartAnswers keygen random) = .ok (config, identity, trust)
      ∧ config.network = node.config.network ∧ identity.id = node.identity.id
      ∧ trustFind trust node.ticket.inviterId = some (node.bootstrap peer)

structure JoinAllOrNothing (disk : Disk) (node : JoinNode Key) (answers : JoinRunAnswers) : Prop where
  failed : ∀ e, (runJoin x keys p disk node answers).1 = .error e →
    NothingLeft p (runJoin x keys p disk node answers).2 node
  active : ∀ state, (runJoin x keys p disk node answers).1 = .ok state →
    state = .active ∧ ∃ peer, answers.peer = .ok peer
      ∧ AllStored x keys p (runJoin x keys p disk node answers).2 node peer

/-! ## What decides it -/

/-- Every check and every step before the storage passes: TLS shows the peer,
and the response describes this contact. -/
structure Greeted (node : JoinNode Key) (answers : JoinRunAnswers) (peer : TlsPeer)
    (contact : NodeContact) : Prop where
  endpoint : usableEndpoint x node.ticket.inviterEndpoint = true
  publicKey : answers.publicKey = true
  mtu : node.config.mtu.toNat ≤ maxPayloadSize - dataPacketHeaderSize
  server : answers.runtime.server = none
  interface : answers.runtime.interface = none
  connected : answers.peer = .ok peer
  inviter : peer.nodeId = node.ticket.inviterId
  sent : answers.sent = none
  reply : ∃ control response, answers.reply = .ok control ∧ control.type = .joinResponse
    ∧ deserializeJoinResponse control.payload = .ok response ∧ response.accepted = true
    ∧ bootstrapContact x node.config.network node.identity.id peer node.ticket.inviterEndpoint
        control.sender response = some contact

/-- The run gets as far as storing the identity. -/
structure ReachesStorage (node : JoinNode Key) (answers : JoinRunAnswers) : Prop where
  greeted : ∃ peer contact, Greeted x node answers peer contact
  address : trustAddressAvailable (emptyTrustOf (node.identityName p)) node.config.network
    node.identity.id node.ticket.inviterId = true
  stateDirectory : answers.stateDirectory = none
  trustDirectory : answers.trustDirectory = none

/-- The directory the configuration is written to: the identity and its lock
are in it. -/
def withIdentity (disk : Disk) (node : JoinNode Key) : Directory :=
  (disk.files.insert (lockPath (node.identityName p)) []).insert (node.identityName p) []

/-- The steps of `trust_add` succeed. -/
def StoresRecord (disk : Disk) (node : JoinNode Key) (answers : JoinRunAnswers) : Prop :=
  answers.trust.ensureDirectory = none
    ∧ Renames (node.store p disk) (peerPath node.ticket.inviterId) answers.trust.write
    ∧ answers.trust.write.syncDirectory = none

/-- Everything after the identity gets into its place: the configuration with
the rename, the record also flushed; and a start accepts what was written. -/
structure StoresRest (disk : Disk) (node : JoinNode Key) (answers : JoinRunAnswers) : Prop where
  config : Renames (withIdentity p disk node) (node.configName p) answers.config
  record : StoresRecord p disk node answers
  restorable : Restorable p node.path node.config
  address : validateIdentityAddress node.identity.id = .ok ()

/-- The identity is stored and so is everything after it; or it is not, and
its file and the configuration's do not come from the attempt. -/
def StoresAllOrNothing (disk : Disk) (node : JoinNode Key) (answers : JoinRunAnswers) : Prop :=
  Saves keys disk.files node.identity.key (node.identityName p) answers.save
      ∧ StoresRest p disk node answers
    ∨ ¬ Saves keys disk.files node.identity.key (node.identityName p) answers.save
      ∧ ¬ SaveAdds keys disk.files node.identity.key (node.identityName p) answers.save
          (node.identityName p)
      ∧ ¬ SaveAdds keys disk.files node.identity.key (node.identityName p) answers.save
          (node.configName p)

/-! ## The checks -/

section
variable {x keys p} {disk : Disk} {node : JoinNode Key} {answers : JoinRunAnswers}

theorem bootstrapContact_trusted {network : IPv6} {localId : NodeId} {peer : TlsPeer}
    {bootstrapEndpoint : Bytes} {sender : NodeId} {response : JoinResponse} {contact : NodeContact}
    (h : bootstrapContact x network localId peer bootstrapEndpoint sender response = some contact) :
    contact.id = peer.nodeId ∧ contact.id ≠ localId ∧ contact.endpoint = bootstrapEndpoint
      ∧ contact.publicKey = peer.pubkey := by
  unfold bootstrapContact at h
  dsimp only at h
  split at h
  · cases h
  · rename_i hsender
    split at h
    · cases h
    · rename_i hidentity
      split at h
      · cases h
      · rename_i hchecked
        cases h
        simp only [not_or, not_and, not_not] at hsender hidentity hchecked
        refine ⟨hidentity.1.trans hsender.1, hidentity.2.1, hchecked.1, ?_⟩
        unfold completedBootstrap
        dsimp only
        split_ifs with hzero
        · rfl
        · exact hidentity.2.2 hzero

/-- The run passes its checks or ends with an error, and it has written
nothing in either case. -/
theorem joinContact_cases (hstored : node.identity.storagePath = [])
    (hgeneration : node.identity.generation = 1) :
    ((∃ e, joinContact x keys node answers = .error e)
        ∧ ∀ peer contact, ¬ Greeted x node answers peer contact)
      ∨ ∃ peer contact, Greeted x node answers peer contact
        ∧ joinContact x keys node answers
          = .ok ({ node.identity with generation := 2 }, peer, contact) := by
  have hdiscovering : nodeStateTransition .created .discovering = .ok .discovering := rfl
  have hjoining : nodeStateTransition .discovering .joiningNetwork = .ok .joiningNetwork := rfl
  unfold joinContact
  rw [hdiscovering]
  dsimp only
  by_cases hendpoint : usableEndpoint x node.ticket.inviterEndpoint = true
  swap
  · rw [if_pos (by simp [hendpoint])]
    exact .inl ⟨⟨_, rfl⟩, fun peer contact h => hendpoint h.endpoint⟩
  rw [if_neg (by simp [hendpoint])]
  by_cases hkey : answers.publicKey = true
  swap
  · rw [if_pos (by simp [hkey])]
    exact .inl ⟨⟨_, rfl⟩, fun peer contact h => hkey h.publicKey⟩
  rw [if_neg (by simp [hkey])]
  unfold startRuntime
  by_cases hmtu : node.config.mtu.toNat > maxPayloadSize - dataPacketHeaderSize
  · rw [if_pos hmtu]
    exact .inl ⟨⟨_, rfl⟩, fun peer contact h => absurd hmtu (Nat.not_lt.mpr h.mtu)⟩
  rw [if_neg hmtu]
  cases hserver : answers.runtime.server with
  | some e => exact .inl ⟨⟨_, rfl⟩, fun peer contact h => by simp [h.server] at hserver⟩
  | none =>
  have hbump : identityBumpGeneration keys ∅ node.identity answers.runtime.bump
      = (.ok { node.identity with generation := 2 }, ∅) := by
    unfold identityBumpGeneration
    rw [if_neg (by rw [hgeneration]; decide)]
    dsimp only
    rw [if_neg (not_not.mpr hstored), hgeneration]
    rfl
  dsimp only
  rw [hbump]
  dsimp only
  cases hinterface : answers.runtime.interface with
  | some e => exact .inl ⟨⟨_, rfl⟩, fun peer contact h => by simp [h.interface] at hinterface⟩
  | none =>
  dsimp only
  rw [hjoining]
  dsimp only
  cases hpeer : answers.peer with
  | error e => exact .inl ⟨⟨_, rfl⟩, fun peer contact h => by simp [h.connected] at hpeer⟩
  | ok peer =>
  have hsame : ∀ peer' contact, Greeted x node answers peer' contact → peer' = peer := by
    intro peer' contact h
    have hconnected := h.connected
    rw [hpeer] at hconnected
    cases hconnected
    rfl
  dsimp only
  by_cases hinviter : peer.nodeId = node.ticket.inviterId
  swap
  · rw [if_pos hinviter]
    refine .inl ⟨⟨_, rfl⟩, fun peer' contact h => hinviter ?_⟩
    rw [← hsame peer' contact h]
    exact h.inviter
  rw [if_neg (not_not.mpr hinviter)]
  cases hsent : answers.sent with
  | some e => exact .inl ⟨⟨_, rfl⟩, fun peer contact h => by simp [h.sent] at hsent⟩
  | none =>
  dsimp only
  cases hreply : answers.reply with
  | error e =>
      refine .inl ⟨⟨_, rfl⟩, fun peer' contact h => ?_⟩
      obtain ⟨control, response, hcontrol, -⟩ := h.reply
      rw [hreply] at hcontrol
      cases hcontrol
  | ok control =>
  have hcontrol : ∀ peer' contact, Greeted x node answers peer' contact →
      control.type = .joinResponse ∧ ∃ response,
        deserializeJoinResponse control.payload = .ok response ∧ response.accepted = true
          ∧ bootstrapContact x node.config.network node.identity.id peer
              node.ticket.inviterEndpoint control.sender response = some contact := by
    intro peer' contact h
    obtain ⟨control', response, hcontrol, htype, hresponse⟩ := h.reply
    rw [hreply] at hcontrol
    cases hcontrol
    rw [hsame peer' contact h] at hresponse
    exact ⟨htype, response, hresponse⟩
  dsimp only
  by_cases htype : control.type = .joinResponse
  swap
  · rw [if_pos htype]
    exact .inl ⟨⟨_, rfl⟩, fun peer' contact h => htype (hcontrol peer' contact h).1⟩
  rw [if_neg (not_not.mpr htype)]
  cases hpayload : deserializeJoinResponse control.payload with
  | error e =>
      refine .inl ⟨⟨_, rfl⟩, fun peer' contact h => ?_⟩
      obtain ⟨-, response, hresponse, -⟩ := hcontrol peer' contact h
      rw [hpayload] at hresponse
      cases hresponse
  | ok response =>
  have hresponse : ∀ peer' contact, Greeted x node answers peer' contact →
      response.accepted = true ∧ bootstrapContact x node.config.network node.identity.id peer
        node.ticket.inviterEndpoint control.sender response = some contact := by
    intro peer' contact h
    obtain ⟨-, response', hresponse, hrest⟩ := hcontrol peer' contact h
    rw [hpayload] at hresponse
    cases hresponse
    exact hrest
  dsimp only
  by_cases haccepted : response.accepted = true
  swap
  · rw [if_pos (by simp [haccepted])]
    exact .inl ⟨⟨_, rfl⟩, fun peer' contact h => haccepted (hresponse peer' contact h).1⟩
  rw [if_neg (by simp [haccepted])]
  cases hcontact : bootstrapContact x node.config.network node.identity.id peer
      node.ticket.inviterEndpoint control.sender response with
  | none =>
      refine .inl ⟨⟨_, rfl⟩, fun peer' contact h => ?_⟩
      have hsome := (hresponse peer' contact h).2
      rw [hcontact] at hsome
      cases hsome
  | some contact =>
      exact .inr ⟨peer, contact, ⟨hendpoint, hkey, Nat.le_of_not_lt hmtu, hserver, hinterface,
        hpeer, hinviter, hsent, control, response, hreply, htype, hpayload, haccepted, hcontact⟩,
        rfl⟩

/-! ## The node -/

theorem joinConfig_fresh {path listenArg sharePortsArg : Bytes} {custom : Bool} {network : IPv6}
    {address : LocalAddress} {config : Config} (hnetwork : network ≠ zero 16)
    (h : joinConfig x p path custom none network listenArg sharePortsArg address = .ok config) :
    config.network = network ∧ config.identityFile = p.beside path (ascii "identity.pem")
      ∧ config.wintunDll = [] := by
  unfold joinConfig applyArguments applyListen applySharePorts at h
  dsimp only at h
  rw [if_pos hnetwork] at h
  have hbuilt : ∀ listenAddress listenPort sharedPorts shareAllPorts config',
      Except.ok { builtConfig p path network with listenAddress, listenPort, sharedPorts, shareAllPorts }
        = (Except.ok config' : Except String Config) →
      config'.network = network ∧ config'.identityFile = p.beside path (ascii "identity.pem")
        ∧ config'.wintunDll = [] := by
    intro listenAddress listenPort sharedPorts shareAllPorts config' h
    cases h
    exact ⟨rfl, rfl, rfl⟩
  split at h
  · cases h
  · rename_i listened hlistened
    have hlisten : ∃ listenAddress listenPort,
        listened = { builtConfig p path network with listenAddress, listenPort } := by
      split at hlistened
      · split at hlistened
        · cases hlistened
        · cases hlistened
          exact ⟨_, _, rfl⟩
      · split at hlistened
        · cases hlistened
          exact ⟨_, _, rfl⟩
        · cases hlistened
          exact ⟨_, _, rfl⟩
    obtain ⟨listenAddress, listenPort, rfl⟩ := hlisten
    split at h
    · split at h
      · cases h
      · exact hbuilt _ _ _ _ _ h
    · exact hbuilt _ _ _ _ _ h

theorem inviteDecode_valid {token : Bytes} {ticket : InviteTicket}
    (h : inviteDecode x token = .ok ticket) :
    ulaPrefix ticket.network = true ∧ ticketContentsValid x ticket = true := by
  obtain ⟨hula, -, hencode⟩ := inviteDecode_ok h
  refine ⟨hula, ?_⟩
  by_contra hinvalid
  have hempty : token = [] := by
    rw [← hencode]
    exact if_pos (.inl (by simp [hinvalid]))
  rw [hempty] at h
  exact absurd h (by simp [inviteDecode, invitePrefix, ascii])

/-- What the rest of the run uses of a fresh node. -/
structure FreshFacts (x : External) (keys : KeyStore Key) (p : Paths) (node : JoinNode Key) :
    Prop where
  held : Held x p node.path node.config
  network : node.config.network = node.ticket.network
  identityFile : node.config.identityFile = p.beside node.path (ascii "identity.pem")
  wintunDll : node.config.wintunDll = []
  endpoint : validEndpoint x node.ticket.inviterEndpoint = true
  derived : node.identity.id = identityDeriveId x keys node.identity.key
  generation : node.identity.generation = 1
  stored : node.identity.storagePath = []
  unlocked : node.identity.locked = false

theorem FreshNode.facts (h : FreshNode x keys p disk node) : FreshFacts x keys p node := by
  obtain ⟨token, htoken⟩ := h.invitation
  obtain ⟨custom, listenArg, sharePortsArg, address, hargument, hdetected, hstarted⟩ := h.config
  obtain ⟨keygen, hidentity⟩ := h.identity
  obtain ⟨hula, hcontents⟩ := inviteDecode_valid htoken
  have hnetwork : node.ticket.network ≠ zero 16 := by
    intro hzero
    rw [hzero] at hula
    exact absurd hula (by decide)
  obtain ⟨hsame, hfile, hdll⟩ := joinConfig_fresh hnetwork hstarted
  have hcontents' := of_decide_eq_true hcontents
  obtain ⟨hderived, hgeneration, hstored, hunlocked⟩ :
      node.identity.id = identityDeriveId x keys node.identity.key ∧ node.identity.generation = 1
        ∧ node.identity.storagePath = [] ∧ node.identity.locked = false := by
    unfold identityGenerate at hidentity
    cases keygen with
    | none => cases hidentity
    | some key =>
        have hnode := Except.ok.inj hidentity
        rw [← hnode]
        exact ⟨rfl, rfl, rfl, rfl⟩
  exact ⟨.join htoken hargument hdetected hstarted, hsame, hfile, hdll, hcontents'.1, hderived,
    hgeneration, hstored, hunlocked⟩

theorem FreshNode.nothingLeft (h : FreshNode x keys p disk node) : NothingLeft p disk node where
  identity := h.identityFile
  config := h.configFile
  record := fun hmem => by simpa [isPeerFile_peerPath] using h.records _ hmem

/-! ## How the run ends -/

theorem Greeted.bootstrap {peer : TlsPeer} {contact : NodeContact}
    (h : Greeted x node answers peer contact) :
    bootstrapPeer peer contact = node.bootstrap peer ∧ contact.id = node.ticket.inviterId
      ∧ contact.id ≠ node.identity.id
      ∧ validNodeContact x node.config.network contact = true
      ∧ validIdentityBinding x (node.bootstrap peer) = true := by
  obtain ⟨control, response, -, -, -, -, hcontact⟩ := h.reply
  obtain ⟨hid, hother, hendpoint, hkey⟩ := bootstrapContact_trusted hcontact
  have hvalid := (bootstrapContact_some hcontact).1
  have hinviter : contact.id = node.ticket.inviterId := hid.trans h.inviter
  refine ⟨?_, hinviter, hother, hvalid, ?_⟩
  · unfold bootstrapPeer JoinNode.bootstrap
    rw [hinviter, hendpoint]
  · obtain ⟨hnonzero, hsha, -, -⟩ := validNodeContact_iff.mp hvalid
    rw [hkey, hinviter] at hsha
    rw [hinviter] at hnonzero
    exact decide_eq_true ⟨hnonzero, hsha⟩

/-- Where a run that reaches the storage ends. -/
inductive StorageEnd (x : External) (keys : KeyStore Key) (p : Paths) (disk : Disk)
    (node : JoinNode Key) (answers : JoinRunAnswers) : Except String NodeState × Disk → Prop where
  | unsaved (e : String) (files : Directory)
      (hsaves : ¬ Saves keys disk.files node.identity.key (node.identityName p) answers.save)
      (hfiles : ∀ n, n ∉ disk.files → (n ∈ files
        ↔ SaveAdds keys disk.files node.identity.key (node.identityName p) answers.save n)) :
      StorageEnd x keys p disk node answers (.error e, { disk with files })
  | untrusted (e : String) (disk' : Disk)
      (hsaves : Saves keys disk.files node.identity.key (node.identityName p) answers.save)
      (hrecord : ¬ StoresRecord p disk node answers) (hleft : node.identityName p ∈ disk'.files) :
      StorageEnd x keys p disk node answers (.error e, disk')
  | joined (peer : TlsPeer) (pem : Bytes) (files store : Directory)
      (hsaves : Saves keys disk.files node.identity.key (node.identityName p) answers.save)
      (hrecord : StoresRecord p disk node answers) (hpeer : answers.peer = .ok peer)
      (hbinding : validIdentityBinding x (node.bootstrap peer) = true)
      (hpem : keys.pemWrite node.identity.key = some pem)
      (hfiles : ∀ n, files.lookup n
        = if n = node.identityName p then some (identityText node.identity.id 2 pem)
          else if n = lockPath (node.identityName p) ∧ lockPath (node.identityName p) ∉ disk.files
            then some [] else disk.files.lookup n)
      (hstore : ∀ n, store.lookup n
        = if n = peerPath node.ticket.inviterId then some (encodePeer (node.bootstrap peer))
          else (node.store p disk).lookup n) :
      StorageEnd x keys p disk node answers
        (.ok .active,
          { files := saveConfig p files (node.configName p) node.config answers.config
            stores := Function.update disk.stores (trustDirectory (node.identityName p)) store })

theorem runJoin_refused (hfacts : FreshFacts x keys p node) (h : ¬ ReachesStorage x p node answers) :
    ∃ e, runJoin x keys p disk node answers = (.error e, disk) := by
  unfold runJoin
  rcases joinContact_cases hfacts.stored hfacts.generation with
    ⟨⟨e, he⟩, -⟩ | ⟨peer, contact, hgreeted, hcontact⟩
  · rw [he]
    exact ⟨e, rfl⟩
  · obtain ⟨-, hid, -⟩ := hgreeted.bootstrap
    rw [hcontact]
    dsimp only
    unfold joinPersist
    dsimp only
    by_cases haddress : trustAddressAvailable (emptyTrustOf (node.identityName p))
        node.config.network node.identity.id contact.id = true
    swap
    · rw [if_pos (by simpa [JoinNode.identityName] using haddress)]
      exact ⟨_, rfl⟩
    rw [if_neg (by simpa [JoinNode.identityName] using haddress)]
    cases hstate : answers.stateDirectory with
    | some e => exact ⟨_, rfl⟩
    | none =>
        cases htrust : answers.trustDirectory with
        | some e => exact ⟨_, rfl⟩
        | none => exact absurd ⟨⟨peer, contact, hgreeted⟩, hid ▸ haddress, hstate, htrust⟩ h

theorem writesRecord_bootstrap {peer : TlsPeer} {identityFile : Bytes} {trust : TrustAddAnswers}
    (hfacts : FreshFacts x keys p node) (hbinding : validIdentityBinding x (node.bootstrap peer) = true) :
    WritesRecord x (emptyTrustOf identityFile) (node.bootstrap peer) trust
      ↔ trust.ensureDirectory = none := by
  constructor
  · intro h
    exact h.ensured
  · intro h
    refine ⟨?_, hfacts.endpoint, hbinding, h, ?_⟩
    · intro hempty
      have hlength := congrArg List.length hempty
      simp [emptyTrustOf, trustDirectory, ascii] at hlength
    · simp [emptyTrustOf, maxTrustedPeers]

/-- With the record in the table nothing stands in the way of the activation. -/
theorem mayActivate_bootstrap {peer : TlsPeer} {contact : NodeContact} {trust : TrustState}
    (hgreeted : Greeted x node answers peer contact)
    (htrust : trust.peers = [node.bootstrap peer]) :
    mayActivate node.config.network node.identity.id trust contact = true := by
  obtain ⟨-, hid, hother, hvalid, -⟩ := hgreeted.bootstrap
  obtain ⟨hnonzero, -, haddress, -⟩ := validNodeContact_iff.mp hvalid
  have hcontains : trustContains trust contact.id = true := by
    unfold trustContains trustFind
    rw [htrust, LowerBound.find?_cons, hid]
    simp [JoinNode.bootstrap]
  exact decide_eq_true ⟨hnonzero, hother, hcontains, haddress⟩

/-- The trust record is written last, and what is then left to do cannot fail. -/
theorem runJoin_end (hfacts : FreshFacts x keys p node) (h : ReachesStorage x p node answers) :
    StorageEnd x keys p disk node answers (runJoin x keys p disk node answers) := by
  have hgreets := h.greeted
  unfold runJoin
  rcases joinContact_cases hfacts.stored hfacts.generation with
    ⟨-, hno⟩ | ⟨peer, contact, hgreeted, hcontact⟩
  · obtain ⟨peer, contact, hgreeted⟩ := hgreets
    exact absurd hgreeted (hno peer contact)
  obtain ⟨hbootstrap, hid, hother, hvalid, hbinding⟩ := hgreeted.bootstrap
  have haddress := h.address
  rw [← hid] at haddress
  rw [hcontact]
  dsimp only
  unfold joinPersist
  dsimp only
  rw [if_neg (by simpa [JoinNode.identityName] using haddress), h.stateDirectory, h.trustDirectory,
    hbootstrap]
  dsimp only
  have hunlocked : ({ node.identity with generation := 2 } : Identity Key).locked = false :=
    hfacts.unlocked
  have hsaves := @identitySave_ok_iff _ keys disk.files (node.identityName p) _ answers.save hunlocked
  have hadds := fun n => @mem_identitySave _ keys disk.files (node.identityName p) _ answers.save
    hunlocked n
  have hok := fun saved => @identitySave_ok _ keys disk.files (node.identityName p) _ answers.save
    saved hunlocked
  have hfile : p.canonical node.config.identityFile = node.identityName p := rfl
  have hconfig : p.canonical node.path = node.configName p := rfl
  have hstoreName : disk.stores (trustDirectory (node.identityName p)) = node.store p disk := rfl
  rw [hfile, hconfig, hstoreName]
  generalize identitySave keys disk.files { node.identity with generation := 2 }
    (node.identityName p) answers.save = saved at hsaves hadds hok ⊢
  obtain ⟨result, files⟩ := saved
  cases result with
  | error e =>
      refine .unsaved _ files (fun h => ?_) fun n hn => hadds n hn
      obtain ⟨saved, hsaved⟩ := hsaves.mpr h
      cases hsaved
  | ok saved =>
  have hsaved := hsaves.mp ⟨saved, rfl⟩
  obtain ⟨pem, hpem, hfiles⟩ := hok saved rfl
  dsimp only at hpem hfiles ⊢
  have hmem : node.identityName p
      ∈ saveConfig p files (node.configName p) node.config answers.config := by
    apply mem_privateWriteAtomically_of_mem
    rw [← AList.lookup_isSome, hfiles, if_pos rfl]
    rfl
  rcases trustAdd_eq x (emptyTrustOf (node.identityName p)) (node.store p disk) (node.bootstrap peer)
    answers.trust with ⟨hno, e, heq⟩ | ⟨hwrites, heq⟩
  · rw [heq]
    refine .untrusted _ _ hsaved (fun hrecord => hno ?_) hmem
    exact (writesRecord_bootstrap hfacts hbinding).mpr hrecord.1
  · have hwritten := @privateWriteAtomically_ok_iff (node.store p disk)
      (peerPath (node.bootstrap peer).id) (encodePeer (node.bootstrap peer)) answers.trust.write
    have hstore := @privateWriteAtomically_ok (node.store p disk)
      (peerPath (node.bootstrap peer).id) (encodePeer (node.bootstrap peer)) answers.trust.write
    rw [heq]
    generalize privateWriteAtomically (node.store p disk) (peerPath (node.bootstrap peer).id)
      (encodePeer (node.bootstrap peer)) answers.trust.write = written at hwritten hstore ⊢
    obtain ⟨result, store⟩ := written
    cases result with
    | error e =>
        refine .untrusted _ _ hsaved (fun hrecord => ?_) hmem
        have hfailed := hwritten.mpr hrecord.2
        cases hfailed
    | ok u =>
        have hactivates := @mayActivate_bootstrap _ x node answers peer contact
          { emptyTrustOf (node.identityName p) with
            peers := LowerBound.put TrustedPeer.id (node.bootstrap peer) [] } hgreeted
          (by rw [LowerBound.put_nil])
        have hregisters := @registerSession_nil
          { serial := 0, peerId := some contact.id, isOpen := true } contact.id rfl
        dsimp only [emptyTrustOf] at hactivates ⊢
        rw [hactivates, hregisters]
        exact .joined peer pem files store hsaved ⟨hwrites.ensured, hwritten.mp rfl⟩
          hgreeted.connected hbinding hpem hfiles (hstore rfl)

end

end Madoka

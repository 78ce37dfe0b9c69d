import Madoka.Core.Startup
import Madoka.Daemon.Contacts
import Madoka.Daemon.Neighbors
import Madoka.Daemon.Restart

/-!
# Join Run

A node joins a network (`run_join` of `core/daemon.cpp`): the checks up to the
first write, the files it writes, and what a restart makes of them. The
tables it fills in memory are left out, nothing on disk depends on them.
-/

namespace Madoka

open Octets

/-! ## Node states -/

inductive NodeState where
  | created
  | discovering
  | joiningNetwork
  | active
  | leaving
deriving DecidableEq

def nodeStateCanTransition (source target : NodeState) : Bool :=
  match source with
  | .created => target = .discovering
  | .discovering =>
      target = .joiningNetwork ∨ target = .active ∨ target = .discovering ∨ target = .leaving
  | .joiningNetwork => target = .active ∨ target = .discovering ∨ target = .leaving
  | .active => target = .leaving ∨ target = .discovering
  | .leaving => target = .created

def nodeStateTransition (current target : NodeState) : Except String NodeState :=
  if !nodeStateCanTransition current target then .error "State transition error"
  else .ok target

/-! ## The run -/

/-- What the storage shows: the files under their canonical names, and the
content of each trust directory. A private file's lock, temporaries and trust
directory are named after the file itself. -/
structure Disk where
  files : Directory
  stores : Bytes → Directory

/-- What the system, OpenSSL and the bootstrap answer to the steps of
`run_join`. `peer` is the identity that TLS authenticated, `reply` the first
control message that arrives in time. -/
structure JoinRunAnswers where
  publicKey : Bool
  runtime : RuntimeAnswers
  peer : Except String TlsPeer
  sent : SystemResult
  reply : Except String ControlMessage
  stateDirectory : SystemResult
  trustDirectory : SystemResult
  save : SaveAnswers
  config : WriteAnswers
  trust : TrustAddAnswers
  steadyNow : Nat

/-- What `app_init` hands over to a node that joins. -/
structure JoinNode (Key : Type) where
  path : Bytes
  config : Config
  identity : Identity Key
  ticket : InviteTicket

variable {Key : Type} (x : External) (keys : KeyStore Key) (p : Paths)

/-- Everything before the first write: the identity with the generation of
this run, the authenticated peer and the bootstrap's contact. -/
def joinContact (node : JoinNode Key) (answers : JoinRunAnswers) :
    Except String (Identity Key × TlsPeer × NodeContact) :=
  match nodeStateTransition .created .discovering with
  | .error error => .error error
  | .ok state =>
  if !usableEndpoint x node.ticket.inviterEndpoint then
    .error ("Invalid bootstrap endpoint: " ++ quote node.ticket.inviterEndpoint)
  else if !answers.publicKey then .error "Failed to export Ed25519 public key."
  else
  -- a node without a stored identity has nothing to write here
  match (startRuntime keys ∅ node.identity node.config.mtu.toNat answers.runtime).1 with
  | .error error => .error ("Runtime initialization error: " ++ error)
  | .ok identity =>
  match nodeStateTransition state .joiningNetwork with
  | .error error => .error error
  | .ok _ =>
  match answers.peer with
  | .error error => .error ("Cannot connect to bootstrap: " ++ error)
  | .ok peer =>
  if peer.nodeId ≠ node.ticket.inviterId then
    .error "Bootstrap identity does not match the invitation"
  else
  match answers.sent with
  | some error => .error ("Failed to send JOIN_REQUEST: " ++ error)
  | none =>
  match answers.reply with
  | .error error => .error ("Failed to receive JOIN_RESPONSE: " ++ error)
  | .ok control =>
  if control.type ≠ .joinResponse then .error "Failed to receive JOIN_RESPONSE: "
  else
  match deserializeJoinResponse control.payload with
  | .error _ => .error "Bootstrap rejected JOIN_REQUEST."
  | .ok response =>
  if !response.accepted then .error "Bootstrap rejected JOIN_REQUEST."
  else
  match bootstrapContact x node.config.network identity.id peer node.ticket.inviterEndpoint
      control.sender response with
  | none => .error "JOIN_RESPONSE contains an invalid network contact."
  | some contact => .ok (identity, peer, contact)

/-- The trust table of a node without prior state. -/
def emptyTrustOf (identityFile : Bytes) : TrustState where
  directory := trustDirectory identityFile
  peers := []

def bootstrapPeer (peer : TlsPeer) (contact : NodeContact) : TrustedPeer where
  id := contact.id
  publicKey := peer.pubkey
  endpoint := contact.endpoint

/-- The writes: identity, configuration, trust record. -/
def joinPersist (disk : Disk) (node : JoinNode Key) (identity : Identity Key) (peer : TlsPeer)
    (contact : NodeContact) (answers : JoinRunAnswers) : Except String TrustState × Disk :=
  let file := p.canonical node.config.identityFile
  let trust := emptyTrustOf file
  if !trustAddressAvailable trust node.config.network identity.id contact.id then
    (.error "Bootstrap address collision in network.", disk)
  else
  match answers.stateDirectory with
  | some error => (.error ("Cannot create state directory: " ++ error), disk)
  | none =>
  match answers.trustDirectory with
  | some error => (.error ("Cannot create trust directory: " ++ error), disk)
  | none =>
  match identitySave keys disk.files identity file answers.save with
  | (.error error, files) => (.error ("Cannot persist identity: " ++ error), { disk with files })
  | (.ok _, files) =>
  let files := saveConfig p files (p.canonical node.path) node.config answers.config
  match trustAdd x trust (disk.stores (trustDirectory file)) (bootstrapPeer peer contact)
      answers.trust with
  | (.error error, _, store) =>
      (.error ("Cannot persist bootstrap trust: " ++ error),
        { files, stores := Function.update disk.stores (trustDirectory file) store })
  | (.ok (), trust, store) =>
      (.ok trust, { files, stores := Function.update disk.stores (trustDirectory file) store })

/-- Up to ACTIVE or to the error it ends with, and what is then on disk. The
session list and the topology are still empty when the bootstrap is entered. -/
def runJoin (disk : Disk) (node : JoinNode Key) (answers : JoinRunAnswers) :
    Except String NodeState × Disk :=
  match joinContact x keys node answers with
  | .error error => (.error error, disk)
  | .ok (identity, peer, contact) =>
  match joinPersist x keys p disk node identity peer contact answers with
  | (.error error, disk) => (.error error, disk)
  | (.ok trust, disk) =>
  let session : AppPeerSession := { serial := 0, peerId := some contact.id, isOpen := true }
  let activated :=
    mayActivate node.config.network identity.id trust contact
      && (activateBlock [] contact answers.steadyNow).isSome
  if (registerSession [] session).isNone ∨ !activated then
    (.error "Cannot register bootstrap as an operational neighbor.", disk)
  else (nodeStateTransition .joiningNetwork .active, disk)

/-! ## The restart -/

/-- What the system answers to a restart whose own steps all succeed; `keygen`
is the key that would be generated were there no identity. -/
def restartAnswers (keygen : Option Key) (random : ByteArr 16) : IdentityAnswers Key where
  lock := .success random
  inspect := none
  read := none
  keygen := keygen
  write := .success random

/-- `load_config`, `identity_load` and `trust_load` of the next start. -/
def restart (disk : Disk) (path : Bytes) (answers : IdentityAnswers Key) :
    Except String (Config × Identity Key × TrustState) :=
  match loadConfig x p path (disk.files.lookup (p.canonical path)) with
  | .error error => .error error
  | .ok config =>
  let file := p.canonical config.identityFile
  match (identityLoad x keys disk.files file answers).1 with
  | .error error => .error error
  | .ok identity =>
  match trustLoad x (disk.stores (trustDirectory file)) file .success with
  | .error error => .error error
  | .ok trust => .ok (config, identity, trust)

end Madoka

import Madoka.Network.Topology
import Madoka.Security.Trust

/-!
# Neighbors

The mutex-protected blocks of the session list and of the topology by which
peers come and go (`register_session`, `bind_session`, `remove_session`,
`activate_neighbor`, `deactivate_neighbor`, `touch_neighbor` of
`core/daemon.cpp`), each block as one function.
-/

namespace Madoka

open Octets

/-- A session of the list. `serial` tells the shared pointers apart. -/
structure AppPeerSession where
  serial : Nat
  peerId : Option NodeId
  isOpen : Bool
deriving DecidableEq

def maxPeerSessions : Nat := 16

/-! ## The session list -/

/-- `register_session`: the list with the session at its end. -/
def registerSession (sessions : List AppPeerSession) (session : AppPeerSession) :
    Option (List AppPeerSession) :=
  match session.peerId with
  | none => none
  | some id =>
      if sessions.length ≥ maxPeerSessions then none
      else if sessions.any (fun existing => existing.peerId = some id ∧ existing.isOpen) then none
      else some (sessions ++ [session])

/-- The locked block of `bind_session`: whether the contact may be bound. Open
or closed, another session of the peer stands in the way. -/
def bindAllowed (sessions : List AppPeerSession) (session : AppPeerSession)
    (authenticated : Option NodeId) (contact : NodeContact) : Bool :=
  authenticated = some contact.id
    ∧ sessions.all fun other => !(other.serial ≠ session.serial ∧ other.peerId = some contact.id)

/-- The locked block of `remove_session`: the list without the session, and
the peer to deactivate when the session was in it. -/
def eraseSession (sessions : List AppPeerSession) (serial : Nat) :
    List AppPeerSession × Option NodeId :=
  match sessions.find? fun existing => existing.serial = serial with
  | none => (sessions, none)
  | some found => (sessions.eraseP fun existing => existing.serial = serial, found.peerId)

/-- The first block of `deactivate_neighbor`. -/
def anotherSession (sessions : List AppPeerSession) (id : NodeId) : Bool :=
  sessions.any fun session => session.peerId = some id

/-! ## The topology -/

/-- What `activate_neighbor` asks of a contact before it takes the lock. -/
def mayActivate (network : IPv6) (localId : NodeId) (trust : TrustState) (contact : NodeContact) :
    Bool :=
  contact.id ≠ zero 32 ∧ contact.id ≠ localId ∧ trustContains trust contact.id
    ∧ contact.virtualAddress = virtualAddress network contact.id

/-- The topology block of `activate_neighbor`; none when a new peer finds no
room. -/
def activateBlock (topo : Topology) (contact : NodeContact) (timestamp : Nat) : Option Topology :=
  match topologyFindPeer topo contact.id with
  | none =>
      topologyAddPeer topo
        { id := contact.id
          virtualAddress := contact.virtualAddress
          endpoint := contact.endpoint
          state := .connected
          lastSeen := timestamp }
  | some _ =>
      (topologyModify topo contact.id fun peer =>
        { peer with
          virtualAddress := contact.virtualAddress
          endpoint := contact.endpoint
          state := .connected
          lastSeen := timestamp }).map Prod.fst

/-- The topology block of `deactivate_neighbor`. -/
def deactivateBlock (topo : Topology) (id : NodeId) : Topology :=
  match topologyModify topo id fun peer => { peer with state := .disconnected } with
  | none => topo
  | some (topo, _) => topo

/-- The topology block of `touch_neighbor`: the topology, and whether the peer
became connected by it. -/
def touchBlock (topo : Topology) (id : NodeId) (now : Nat) : Topology × Bool :=
  match topologyModify topo id fun peer => { peer with state := .connected, lastSeen := now } with
  | none => (topo, false)
  | some (topo, before) => (topo, before.state ≠ .connected)

/-! ## A fresh process -/

theorem registerSession_nil {session : AppPeerSession} {id : NodeId} (h : session.peerId = some id) :
    registerSession [] session = some [session] := by
  unfold registerSession
  rw [h]
  rfl

end Madoka

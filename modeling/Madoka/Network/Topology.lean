import Madoka.Lib.FirstMatch
import Madoka.Network.Messages

/-!
# Topology

The direct neighbours of a node and their state (`network/topology.cpp`,
`network/peer.cpp`, `network/heartbeat.cpp`). Times are milliseconds of the
steady clock.
-/

namespace Madoka

open Octets

inductive PeerState where
  | unknown
  | connecting
  | connected
  | disconnected
deriving DecidableEq

structure Peer where
  id : NodeId
  virtualAddress : IPv6
  endpoint : Bytes
  state : PeerState
  lastSeen : Nat
deriving DecidableEq

def peerIsAlive (peer : Peer) (currentTime timeoutMs : Nat) : Bool :=
  if peer.state ≠ .connected then false
  else if peer.lastSeen = 0 ∨ currentTime < peer.lastSeen then false
  else currentTime - peer.lastSeen ≤ timeoutMs

abbrev Topology := List Peer

def maxTopologyPeers : Nat := 16

def topologyFindPeer (topo : Topology) (id : NodeId) : Option Peer :=
  topo.find? fun p => p.id = id

/-- Nothing is added to a full topology, and no peer twice. -/
def topologyAddPeer (topo : Topology) (peer : Peer) : Option Topology :=
  if (topologyFindPeer topo peer.id).isSome then none
  else if topo.length ≥ maxTopologyPeers then none
  else some (topo ++ [peer])

/-- What is written through the pointer `topology_find_peer` returns, and the
peer as it was; none for an unknown identifier. -/
def topologyModify (topo : Topology) (id : NodeId) (change : Peer → Peer) :
    Option (Topology × Peer) :=
  FirstMatch.update (fun p => p.id = id) (fun p => (change p, p)) topo

/-- Connected peers that have been silent too long, marked disconnected. The
second component is their number. -/
def topologyPruneStale (topo : Topology) (currentTime timeoutMs : Nat) : Topology × Nat :=
  (topo.map fun peer =>
      if peer.state = .connected ∧ !peerIsAlive peer currentTime timeoutMs then
        { peer with state := .disconnected } else peer,
    topo.countP fun peer => peer.state = .connected ∧ !peerIsAlive peer currentTime timeoutMs)

/-- A hello marks its sender connected, whatever state it was in. -/
def heartbeatProcessHello (topo : Topology) (hello : HelloMessage) (currentTime : Nat) :
    Bool × Topology :=
  let effectiveTime := if currentTime > 0 then currentTime else hello.timestamp.toNat
  match topologyModify topo hello.sender fun peer =>
      { peer with lastSeen := effectiveTime, state := .connected } with
  | none => (false, topo)
  | some (topo, _) => (true, topo)

end Madoka

import Madoka.Core.Config

/-!
# Messages

The records the nodes exchange (`network/join.hpp`, `network/kademlia.hpp`,
`network/route_advertisement.hpp`, `network/control_message.hpp`).
-/

namespace Madoka

open Octets

inductive ControlMessageType where
  | invalid
  | hello
  | neighborAdvertisement
  | routeAdvertisement
  | joinRequest
  | joinResponse
  | findNode
  | neighbors
  | nodeAnnounce
  | nodeAnnounceAck
deriving DecidableEq

def ControlMessageType.toByte : ControlMessageType → UInt8
  | .invalid => 0
  | .hello => 1
  | .neighborAdvertisement => 2
  | .routeAdvertisement => 3
  | .joinRequest => 4
  | .joinResponse => 5
  | .findNode => 6
  | .neighbors => 7
  | .nodeAnnounce => 8
  | .nodeAnnounceAck => 9

structure ControlMessage where
  type : ControlMessageType
  sequenceNumber : UInt64
  sender : NodeId
  payload : Bytes
deriving DecidableEq

def controlMessageCreate (type : ControlMessageType) (sequenceNumber : UInt64) (sender : NodeId)
    (payload : Bytes) : ControlMessage :=
  { type, sequenceNumber, sender, payload }

structure HelloMessage where
  sender : NodeId
  timestamp : UInt64
deriving DecidableEq

/-! ## Contacts and joining -/

def kademliaK : Nat := 20

structure NodeContact where
  id : NodeId
  publicKey : PublicKey
  virtualAddress : IPv6
  endpoint : Bytes
  lastSeenMs : UInt64
  rttMs : UInt32
  failedPings : UInt8
deriving DecidableEq

/-- A contact of which only the identifier is set. -/
def NodeContact.ofId (id : NodeId) : NodeContact where
  id := id
  publicKey := zero 32
  virtualAddress := zero 16
  endpoint := []
  lastSeenMs := 0
  rttMs := 0
  failedPings := 0

structure JoinRequest where
  nodeId : NodeId
  publicKey : PublicKey
  virtualAddress : IPv6
  endpoint : Bytes
  timestamp : UInt64
  nonce : UInt64
  inviteToken : Bytes
deriving DecidableEq

structure JoinResponse where
  accepted : Bool
  bootstrapContact : NodeContact
  bootstrapId : NodeId
  peers : List NodeContact
deriving DecidableEq

structure FindNodeMessage where
  target : NodeId
deriving DecidableEq

structure NeighborsMessage where
  peers : List NodeContact
deriving DecidableEq

structure NodeAnnounceMessage where
  contact : NodeContact
  nonce : UInt64
deriving DecidableEq

structure NodeAnnounceAck where
  accepted : Bool
  responder : NodeId
deriving DecidableEq

/-! ## Routes -/

def maxRouteTableEntries : Nat := 16
def routeMetricInfinity : Nat := 16

/-- The metric is at most `routeMetricInfinity` wherever one is computed. -/
structure Route where
  destination : IPv6
  destinationNode : NodeId
  nextHop : NodeId
  metric : Nat
  lastUpdate : Nat
deriving DecidableEq

structure RouteAdvertisement where
  sender : NodeId
  generation : UInt64
  sequenceNumber : UInt64
  routes : List Route
deriving DecidableEq

end Madoka

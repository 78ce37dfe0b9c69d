import Madoka.Core.Config
import Madoka.Network.DataSerialization
import Madoka.Network.Kademlia
import Madoka.Network.Topology
import Madoka.Protocol.Codec

/-!
# Data Plane

What the daemon does with the packets of the TUN device and the Data messages
of its peers (`validate_ipv6_packet` to `data_plane_loop` of
`core/daemon.cpp`), with the counters it keeps. Times are nanoseconds of the
steady clock.
-/

namespace Madoka

open Octets

/-! ## State -/

/-- The counters of the data plane. -/
inductive Counter where
  | tunPacketsRead
  | tunPacketsWritten
  | dataMessagesSent
  | dataMessagesReceived
  | dropInvalidIpv6
  | dropWrongDestination
  | dropOversized
  | dropTransportError
  | dropMalformedDataMessage
  | dropUnsharedPort
  | forwardedPackets
  | deliveredLocalPackets
  | dropNoRoute
  | dropNextHopUnavailable
  | dropTtlExpired
  | vnetPacketsReceived
  | vnetPacketsTransmitted
deriving DecidableEq

/-- What the data plane reads of a session. -/
structure DataSession where
  peerId : Option NodeId
  isOpen : Bool
deriving DecidableEq

/-- The state that the data plane reads and writes. The counters are numbers
without a bound, where the source counts modulo `2 ^ 64`. -/
structure DataNode where
  id : NodeId
  network : IPv6
  mtu : Nat
  shareAllPorts : Bool
  sharedPorts : List UInt16
  topology : Topology
  contacts : KademliaTable
  table : RouteTable
  sessions : List DataSession
  activeOutboundPorts : AList fun _ : UInt16 => Nat
  nextPacketId : UInt64
  counters : Counter → Nat

def DataNode.count (node : DataNode) (counter : Counter) : DataNode :=
  { node with
    counters := Function.update node.counters counter (node.counters counter + 1) }

def DataNode.address (node : DataNode) : IPv6 :=
  virtualAddress node.network node.id

/-- What the world answers: the time, whether the TUN device takes a packet,
and whether a session takes a message. -/
structure DataAnswers where
  now : Nat
  tunWrites : Bool
  sends : NodeId → Message → Bool

inductive DataEvent where
  | tunWrite (packet : Bytes)
  | send (nextHop : NodeId) (wire : Message)
deriving DecidableEq

structure DataResult where
  node : DataNode
  events : List DataEvent
  ok : Bool

/-! ## Looking at a packet -/

def steadyMs (now : Nat) : Nat := now / 1000000

/-- The array of 16 bytes at an offset of a packet that is long enough. -/
def ipv6At (offset : Nat) (packet : Bytes) : IPv6 :=
  readArr 16 offset packet

/-- The counter of the reason for which a packet is refused, or its
destination. -/
def ipv6PacketCheck (node : DataNode) (packet : Bytes) : Except Counter IPv6 :=
  if packet.length > node.mtu then .error .dropOversized
  else if packet.length < 40 ∨ packet.getD 0 0 >>> 4 ≠ 6 then .error .dropInvalidIpv6
  else if 40 + (packet.getD 4 0).toNat * 256 + (packet.getD 5 0).toNat ≠ packet.length then
    .error .dropInvalidIpv6
  else if node.network.val.take 8 ≠ (ipv6At 24 packet).val.take 8 then
    .error .dropWrongDestination
  else .ok (ipv6At 24 packet)

def validateIpv6Packet (node : DataNode) (packet : Bytes) : DataNode × Option IPv6 :=
  match ipv6PacketCheck node packet with
  | .error counter => (node.count counter, none)
  | .ok destination => (node, some destination)

def localIpv6ForNode (node : DataNode) (id : NodeId) (address : IPv6) : Bool :=
  virtualAddress node.network id = address

structure IPv6TransportInfo where
  protocol : UInt8
  srcPort : UInt16
  dstPort : UInt16
  validPorts : Bool
deriving DecidableEq

def IPv6TransportInfo.ofProtocol (protocol : UInt8) : IPv6TransportInfo where
  protocol := protocol
  srcPort := 0
  dstPort := 0
  validPorts := false

/-- The chain of headers from an offset on. Each is at least eight bytes
long, so as many turns as the packet has bytes are enough. -/
def walkHeaders (packet : Bytes) : Nat → UInt8 → Nat → IPv6TransportInfo
  | 0, nextHeader, _ => .ofProtocol nextHeader
  | fuel + 1, nextHeader, offset =>
      if packet.length ≤ offset then .ofProtocol nextHeader
      else if nextHeader = 6 ∨ nextHeader = 17 then
        if offset + 4 ≤ packet.length then
          { protocol := nextHeader
            srcPort := (readBe 2 offset packet).toUInt16
            dstPort := (readBe 2 (offset + 2) packet).toUInt16
            validPorts := true }
        else .ofProtocol nextHeader
      else if nextHeader = 58 then .ofProtocol 58
      else if nextHeader = 0 ∨ nextHeader = 43 ∨ nextHeader = 60 then
        if offset + 2 > packet.length then .ofProtocol nextHeader
        else walkHeaders packet fuel (packet.getD offset 0)
          (offset + ((packet.getD (offset + 1) 0).toNat + 1) * 8)
      else if nextHeader = 44 then
        if offset + 8 > packet.length then .ofProtocol nextHeader
        else walkHeaders packet fuel (packet.getD offset 0) (offset + 8)
      else if nextHeader = 51 then
        if offset + 2 > packet.length then .ofProtocol nextHeader
        else walkHeaders packet fuel (packet.getD offset 0)
          (offset + ((packet.getD (offset + 1) 0).toNat + 2) * 4)
      else .ofProtocol nextHeader

def parseIpv6Transport (packet : Bytes) : IPv6TransportInfo :=
  if packet.length < 40 ∨ packet.getD 0 0 >>> 4 ≠ 6 then .ofProtocol 0
  else walkHeaders packet packet.length (packet.getD 6 0) 40

/-- More turns than the packet has headers change nothing. -/
theorem walkHeaders_more {packet : Bytes} {fuel offset : Nat} (more : Nat) (nextHeader : UInt8)
    (h : packet.length ≤ offset + 8 * fuel) :
    walkHeaders packet (fuel + more) nextHeader offset
      = walkHeaders packet fuel nextHeader offset := by
  induction fuel generalizing offset nextHeader with
  | zero =>
      cases more with
      | zero => rfl
      | succ more =>
          rw [Nat.zero_add, walkHeaders, walkHeaders, if_pos (by omega)]
  | succ fuel ih =>
      rw [Nat.succ_add, walkHeaders, walkHeaders]
      -- every header that is walked over takes eight bytes or more
      split_ifs
      all_goals first | rfl | apply ih
      all_goals omega

/-! ## Ports -/

def outboundWindow : Nat := 120 * 1000000000

def isPortShared (node : DataNode) (port : UInt16) : Bool :=
  node.shareAllPorts || node.sharedPorts.contains port

/-- Whether a packet may be delivered. An answer to a recent packet of this
node may, and keeps its port open. -/
def admitPorts (node : DataNode) (now : Nat) (payload : Bytes) : Bool × DataNode :=
  if node.shareAllPorts then (true, node)
  else
    let trans := parseIpv6Transport payload
    if trans.protocol = 58 then (true, node)
    else if trans.validPorts then
      if isPortShared node trans.dstPort then (true, node)
      else
        match node.activeOutboundPorts.lookup trans.dstPort with
        | none => (false, node)
        | some used =>
            if now - used ≤ outboundWindow then
              (true, { node with
                activeOutboundPorts := node.activeOutboundPorts.insert trans.dstPort now })
            else
              (false, { node with
                activeOutboundPorts := node.activeOutboundPorts.erase trans.dstPort })
    else (false, node)

/-- A packet of this node opens its source port for answers. Beyond 512 ports
the old ones are forgotten. -/
def noteOutboundPort (node : DataNode) (now : Nat) (packet : Bytes) : DataNode :=
  let trans := parseIpv6Transport packet
  if trans.validPorts then
    let ports := node.activeOutboundPorts.insert trans.srcPort now
    let kept : AList fun _ : UInt16 => Nat :=
      if ports.entries.length > 512 then
        ⟨ports.entries.filter fun entry => now - entry.2 ≤ outboundWindow,
          ports.nodupKeys.sublist List.filter_sublist⟩
      else ports
    { node with activeOutboundPorts := kept }
  else node

/-! ## Forwarding -/

/-- The first session of the next hop that is open, if the topology holds the
next hop alive. -/
def findSessionByNextHop (node : DataNode) (now : Nat) (nextHop : NodeId) : Option DataSession :=
  node.sessions.find? fun session =>
    session.peerId = some nextHop ∧ session.isOpen ∧
      (topologyFindPeer node.topology nextHop).any fun peer =>
        peerIsAlive peer (steadyMs now) 5000

/-- The local delivery handler. -/
def deliverLocal (node : DataNode) (answers : DataAnswers) (delivered : DataPacket) :
    DataNode × List DataEvent :=
  let (admitted, node) := admitPorts node answers.now delivered.payload
  if !admitted then (node.count .dropUnsharedPort, [])
  else if !answers.tunWrites then (node.count .dropTransportError, [])
  else (((node.count .tunPacketsWritten).count .deliveredLocalPackets).count .vnetPacketsReceived,
    [.tunWrite delivered.payload])

/-- The transmit handler. -/
def transmitTo (node : DataNode) (answers : DataAnswers) (origin : Bool) (nextHop : NodeId)
    (forwarded : DataPacket) : DataNode × List DataEvent :=
  match findSessionByNextHop node answers.now nextHop with
  | none => (node.count .dropNextHopUnavailable, [])
  | some _ =>
      let wire : Message :=
        { version := protocolVersion, type := .data, payload := serializePacket forwarded }
      if !answers.sends nextHop wire then (node.count .dropTransportError, [])
      else
        let node := (node.count .dataMessagesSent).count .forwardedPackets
        (if origin then node.count .vnetPacketsTransmitted else node, [.send nextHop wire])

/-- The drop handler. -/
def countDrop (node : DataNode) (reason : String) : DataNode :=
  if reason = "TTL expired" then node.count .dropTtlExpired
  else if reason = "No route to destination" then node.count .dropNoRoute
  else node

/-- The forwarding engine sees only the route of the packet's destination. -/
def routeSnapshot (node : DataNode) (packet : DataPacket) : RouteTable :=
  if packet.destination ≠ node.id then (routingFindRoute node.table packet.destination).toList
  else []

def forwardDataPacket (node : DataNode) (answers : DataAnswers) (packet : DataPacket)
    (origin : Bool) : DataResult :=
  let forwarding := forwardingInit (routeSnapshot node packet) (some node.id)
  let result :=
    if origin then forwardingForwardOrigin forwarding packet else forwardingForward forwarding packet
  let (node, events) :=
    match result.effect with
    | .deliver delivered => deliverLocal node answers delivered
    | .transmit nextHop forwarded => transmitTo node answers origin nextHop forwarded
    | .drop _ reason => (countDrop node reason, [])
  { node := node
    events := events
    ok := result.state.lastAction ≠ .dropNoRoute ∧ result.state.lastAction ≠ .dropTtlExpired }

def handleDataMessage (node : DataNode) (answers : DataAnswers) (wire : Message) : DataResult :=
  match deserializePacket wire.payload with
  | .error _ => { node := node.count .dropMalformedDataMessage, events := [], ok := false }
  | .ok packet =>
      if packet.type ≠ .data ∨ packet.requiresAck then
        { node := node.count .dropMalformedDataMessage, events := [], ok := false }
      else
        match validateIpv6Packet (node.count .dataMessagesReceived) packet.payload with
        | (node, none) => { node := node.count .dropWrongDestination, events := [], ok := true }
        | (node, some destination) =>
            if !localIpv6ForNode node packet.destination destination then
              { node := node.count .dropWrongDestination, events := [], ok := true }
            else if !localIpv6ForNode node packet.source (ipv6At 8 packet.payload) then
              { node := node.count .dropInvalidIpv6, events := [], ok := true }
            else { forwardDataPacket node answers packet false with ok := true }

/-! ## What is sent on -/

section
variable {node : DataNode} {answers : DataAnswers} {packet : DataPacket} {origin : Bool}
  {nextHop hop : NodeId} {wire sent : Message}

theorem deliverLocal_no_send :
    DataEvent.send hop sent ∉ (deliverLocal node answers packet).2 := by
  unfold deliverLocal
  dsimp only
  split
  · simp
  · split <;> simp

theorem transmitTo_send (h : DataEvent.send hop sent ∈ (transmitTo node answers origin nextHop packet).2) :
    (findSessionByNextHop node answers.now hop).isSome = true := by
  unfold transmitTo at h
  split at h
  · cases h
  · next session hfind =>
      dsimp only at h
      split at h
      · cases h
      · rw [List.mem_singleton, DataEvent.send.injEq] at h
        rw [h.1, hfind]
        rfl

/-- What is sent on goes to a next hop that has a session. -/
theorem forwardDataPacket_send
    (h : DataEvent.send hop sent ∈ (forwardDataPacket node answers packet origin).events) :
    (findSessionByNextHop node answers.now hop).isSome = true := by
  unfold forwardDataPacket at h
  dsimp only at h
  split at h
  · exact absurd h deliverLocal_no_send
  · exact transmitTo_send h
  · cases h

theorem handleDataMessage_send
    (h : DataEvent.send hop sent ∈ (handleDataMessage node answers wire).events) :
    (findSessionByNextHop node answers.now hop).isSome = true := by
  unfold handleDataMessage at h
  split at h
  · cases h
  · split at h
    · cases h
    · unfold validateIpv6Packet at h
      -- the counters decide nothing about the session
      cases hcheck : ipv6PacketCheck (node.count .dataMessagesReceived) _ with
      | error counter =>
          rw [hcheck] at h
          cases h
      | ok destination =>
          rw [hcheck] at h
          dsimp only at h
          split_ifs at h
          · cases h
          · cases h
          · have hsent : (findSessionByNextHop (node.count .dataMessagesReceived) answers.now
                hop).isSome = true := forwardDataPacket_send h
            exact hsent

end

/-! ## From the TUN device -/

def topologyFindByAddress (topo : Topology) (address : IPv6) : Option Peer :=
  topo.find? fun p => p.virtualAddress = address

/-- The topology, then the known contacts, then the routes. -/
def resolveNodeByVirtualAddress (node : DataNode) (address : IPv6) : Option NodeId :=
  match topologyFindByAddress node.topology address with
  | some peer => some peer.id
  | none =>
      match node.contacts.contacts.find? fun contact =>
          contact.virtualAddress = address ∧ virtualAddress node.network contact.id = address with
      | some contact => some contact.id
      | none =>
          match routingFindRouteByAddress node.table address with
          | none => none
          | some route =>
              if route.destinationNode ≠ zero 32
                  ∧ virtualAddress node.network route.destinationNode = address then
                some route.destinationNode
              else none

/-- One packet of the TUN device, up to the Data packet that is made of it. -/
def originPacket (node : DataNode) (now : Nat) (raw : Bytes) : DataNode × Option DataPacket :=
  match validateIpv6Packet (node.count .tunPacketsRead) raw with
  | (node, none) =>
      -- the destination is still all zero, should that be this node's address
      if node.address = zero 16 then (node.count .dropWrongDestination, none) else (node, none)
  | (node, some destination) =>
      if destination = node.address then (node.count .dropWrongDestination, none)
      else
        match resolveNodeByVirtualAddress node destination with
        | none => (node.count .dropNoRoute, none)
        | some destinationNode =>
            if destinationNode = node.id then (node.count .dropNoRoute, none)
            else if ipv6At 8 raw ≠ node.address then (node.count .dropInvalidIpv6, none)
            else
              let node := noteOutboundPort node now raw
              ({ node with nextPacketId := node.nextPacketId + 1 },
                some (dataPacketCreate .data node.id destinationNode node.nextPacketId 64 false 0
                  raw))

/-- One turn of `data_plane_loop`. -/
def dataPlaneTurn (node : DataNode) (answers : DataAnswers) (raw : Bytes) : DataResult :=
  match originPacket node answers.now raw with
  | (node, none) => { node := node, events := [], ok := true }
  | (node, some data) => { forwardDataPacket node answers data true with ok := true }

/-! ## From a session -/

/-- One frame of a session as `run_session` takes it when it is a Data
message: an untrusted session is closed. -/
def receiveData (node : DataNode) (answers : DataAnswers) (trusted : Bool) (bytes : Bytes) :
    Option DataResult :=
  match messageDecode bytes with
  | .error _ => none
  | .ok wire =>
      if wire.type = .data ∧ trusted then some (handleDataMessage node answers wire) else none

end Madoka

import Madoka.Daemon.DataPlane

/-!
# Delivery

A packet on its way from one TUN device to another: through the data plane of
its source, over the sessions of a path of honest nodes, and out at its
destination as it was read.
-/

namespace Madoka

open Octets

/-! ## A path -/

/-- A node as a packet finds it, with what the world answers there. -/
structure PathHop where
  node : DataNode
  answers : DataAnswers

/-- What the nodes that follow make of what a node has sent. Each takes the
frame from its session with the one before it, whose peer it trusts. -/
def relay : DataResult → List PathHop → List DataResult
  | _, [] => []
  | sent, hop :: rest =>
      match sent.events with
      | [.send nextHop wire] =>
          if nextHop = hop.node.id then
            match messageEncode wire with
            | .error _ => []
            | .ok bytes =>
                match receiveData hop.node hop.answers true bytes with
                | none => []
                | some result => result :: relay result rest
          else []
      | _ => []

/-- A node that sends packets for the destination on to a neighbour, over an
open session with a live peer that takes what it is given. -/
structure Forwards (hop : PathHop) (destination next : NodeId) : Prop where
  transit : hop.node.id ≠ destination
  route : ∃ r, routingFindRoute hop.node.table destination = some r ∧ r.nextHop = next
    ∧ r.metric < routeMetricInfinity
  session : (findSessionByNextHop hop.node hop.answers.now next).isSome
  sends : ∀ wire, hop.answers.sends next wire = true

/-- The node that the packets are for. -/
structure Receives (hop : PathHop) (destination : NodeId) : Prop where
  here : hop.node.id = destination
  shares : hop.node.shareAllPorts = true
  tun : hop.answers.tunWrites = true

def PathTo (destination : NodeId) : PathHop → List PathHop → Prop
  | hop, [] => Receives hop destination
  | hop, next :: rest => Forwards hop destination next.node.id ∧ PathTo destination next rest

/-- The settings the nodes of a network agree on. -/
structure SameNetwork (netPrefix : Bytes) (mtu : Nat) (node : DataNode) : Prop where
  network : node.network.val.take 8 = netPrefix
  mtu : node.mtu = mtu

/-- The counters of the packets that are not taken. -/
def Counter.isDrop : Counter → Bool
  | .dropInvalidIpv6 | .dropWrongDestination | .dropOversized | .dropTransportError
  | .dropMalformedDataMessage | .dropUnsharedPort | .dropNoRoute | .dropNextHopUnavailable
  | .dropTtlExpired => true
  | _ => false

/-- The node has taken what reached it, and dropped nothing. -/
def Accepts (hop : PathHop) (result : DataResult) : Prop :=
  result.ok = true
    ∧ ∀ counter : Counter, counter.isDrop → result.node.counters counter = hop.node.counters counter

/-! ## Counters -/

theorem DataNode.count_other (node : DataNode) {counter other : Counter} (h : other ≠ counter) :
    (node.count counter).counters other = node.counters other :=
  Function.update_of_ne h _ _

theorem DataNode.count_drop (node : DataNode) {counter drop : Counter}
    (hcounter : counter.isDrop = false) (hdrop : drop.isDrop = true) :
    (node.count counter).counters drop = node.counters drop := by
  apply node.count_other
  intro heq
  rw [heq, hcounter] at hdrop
  cases hdrop

/-! ## A packet that is fit to travel -/

/-- What the checks of every node of a network ask of a Data packet. -/
structure Travels (node : DataNode) (packet : DataPacket) : Prop where
  data : packet.type = .data
  unacknowledged : packet.requiresAck = false
  checked : ipv6PacketCheck node packet.payload = .ok (virtualAddress node.network packet.destination)
  source : ipv6At 8 packet.payload = virtualAddress node.network packet.source

theorem virtualAddress_of_prefix {network other : IPv6}
    (h : network.val.take 8 = other.val.take 8) (id : NodeId) :
    virtualAddress network id = virtualAddress other id := by
  apply Subtype.ext
  show network.val.take 8 ++ id.val.take 8 = other.val.take 8 ++ id.val.take 8
  rw [h]

theorem Travels.elsewhere {node other : DataNode} {packet : DataPacket} {netPrefix : Bytes}
    {mtu : Nat} (h : Travels node packet) (hnode : SameNetwork netPrefix mtu node)
    (hother : SameNetwork netPrefix mtu other) : Travels other packet := by
  have hnetwork : node.network.val.take 8 = other.network.val.take 8 :=
    hnode.network.trans hother.network.symm
  have haddress := virtualAddress_of_prefix hnetwork
  refine ⟨h.data, h.unacknowledged, ?_, ?_⟩
  · rw [← haddress, ← h.checked]
    unfold ipv6PacketCheck
    rw [hnode.mtu, hother.mtu, hnetwork]
  · rw [← haddress]
    exact h.source

theorem Travels.withTtl {node : DataNode} {packet : DataPacket} (h : Travels node packet)
    (ttl : UInt8) : Travels node { packet with ttl := ttl } :=
  ⟨h.data, h.unacknowledged, h.checked, h.source⟩

theorem ipv6PacketCheck_length {node : DataNode} {packet : Bytes} {destination : IPv6}
    (h : ipv6PacketCheck node packet = .ok destination) : packet.length ≤ node.mtu := by
  unfold ipv6PacketCheck at h
  split_ifs at h with hsize
  exact not_lt.mp hsize

theorem Travels.fits {node : DataNode} {packet : DataPacket} {mtu : Nat}
    (h : Travels node packet) (hmtu : node.mtu = mtu)
    (hlimit : mtu ≤ maxPayloadSize - dataPacketHeaderSize) :
    packet.payload.length ≤ maxPayloadSize - dataPacketHeaderSize :=
  (ipv6PacketCheck_length h.checked).trans (hmtu.le.trans hlimit)

/-! ## What is sent is read -/

/-- The message a packet is sent in. -/
def dataMessage (packet : DataPacket) : Message where
  version := protocolVersion
  type := .data
  payload := serializePacket packet

theorem messageEncode_data {packet : DataPacket}
    (h : packet.payload.length ≤ maxPayloadSize - dataPacketHeaderSize) :
    ∃ bytes, messageEncode (dataMessage packet) = .ok bytes := by
  have hlimit : packet.payload.length ≤ maxDataPayloadLimit := h.trans (by decide)
  have hlength := serializePacket_length hlimit
  have hsize : ¬ (serializePacket packet).length > maxPayloadSize := by
    rw [hlength]
    simp only [maxPayloadSize, maxMessageSize, headerSize, dataPacketHeaderSize] at h ⊢
    omega
  have hvalid : messageValidate (dataMessage packet) = .ok () := by
    simp only [messageValidate, dataMessage, ne_eq, not_true_eq_false, if_false]
    exact if_neg hsize
  exact ⟨_, by rw [messageEncode, hvalid]⟩

/-- A message with a packet that is fit to travel passes every check on its
way to the forwarding engine. -/
theorem receiveData_of_travels {node : DataNode} {packet : DataPacket} {bytes : Bytes}
    (answers : DataAnswers) (h : Travels node packet)
    (hsize : packet.payload.length ≤ maxPayloadSize - dataPacketHeaderSize)
    (hbytes : messageEncode (dataMessage packet) = .ok bytes) :
    receiveData node answers true bytes
      = some { forwardDataPacket (node.count .dataMessagesReceived) answers packet false with
          ok := true } := by
  have hread : deserializePacket (dataMessage packet).payload = .ok packet := by
    apply deserializePacket_serialize
    · rw [h.data]
      decide
    · exact hsize.trans (by decide)
  have hkind : (dataMessage packet).type = .data ∧ true = true := ⟨rfl, rfl⟩
  have hdata : ¬ (packet.type ≠ .data ∨ packet.requiresAck = true) := by
    rw [h.data, h.unacknowledged]
    decide
  have hvalidate : validateIpv6Packet (node.count .dataMessagesReceived) packet.payload
      = (node.count .dataMessagesReceived,
          some (virtualAddress node.network packet.destination)) := by
    have hcheck : ipv6PacketCheck (node.count .dataMessagesReceived) packet.payload
        = .ok (virtualAddress node.network packet.destination) := h.checked
    rw [validateIpv6Packet, hcheck]
  have hlocal : ∀ id, localIpv6ForNode (node.count .dataMessagesReceived) id
      (virtualAddress node.network id) = true := fun id => decide_eq_true rfl
  unfold receiveData
  rw [messageDecode_encode hbytes]
  dsimp only
  rw [if_pos hkind]
  unfold handleDataMessage
  rw [hread]
  dsimp only
  rw [if_neg hdata, hvalidate]
  dsimp only
  rw [h.source]
  simp only [hlocal, Bool.not_true, Bool.false_eq_true, if_false]

/-! ## One hop -/

theorem routeSnapshot_find {node : DataNode} {packet : DataPacket}
    (h : node.id ≠ packet.destination) :
    routingFindRoute (routeSnapshot node packet) packet.destination
      = routingFindRoute node.table packet.destination := by
  rw [routeSnapshot, if_pos (Ne.symm h)]
  cases hfind : routingFindRoute node.table packet.destination with
  | none => rfl
  | some r =>
      have hdestination : r.destinationNode = packet.destination := by
        simpa using List.find?_some hfind
      simp [routingFindRoute, hdestination]

/-- The packet as it leaves a node. -/
def leaving (origin : Bool) (packet : DataPacket) : DataPacket :=
  if origin then packet else { packet with ttl := packet.ttl - 1 }

theorem forwardRoute_transmit {state : ForwardingState} {packet : DataPacket} {route : Route}
    (hroute : routingFindRoute state.table packet.destination = some route)
    (hmetric : route.metric < routeMetricInfinity) :
    forwardRoute state packet = state.forwardToPeer packet route.nextHop := by
  have hlookup : routingLookup state.table packet.destination
      = some { destination := packet.destination, nextHop := route.nextHop, metric := route.metric
               valid := true } := by
    rw [routingLookup, hroute]
    simp [hmetric]
  unfold forwardRoute
  rw [hlookup]
  dsimp only
  rw [if_neg (by simp [hmetric])]

theorem forwardImpl_transit {state : ForwardingState} {packet : DataPacket} {decrementTtl : Bool}
    (htransit : state.localId ≠ some packet.destination)
    (hlive : decrementTtl = true → 1 < packet.ttl) :
    forwardImpl state packet decrementTtl
      = forwardRoute state (leaving (!decrementTtl) packet) := by
  have hexpired : ¬ (decrementTtl = true ∧ packet.ttl ≤ 1) := fun h =>
    absurd h.2 (not_le.mpr (hlive h.1))
  unfold forwardImpl leaving
  rw [if_neg htransit, if_neg hexpired]
  cases decrementTtl with
  | true => rfl
  | false => rfl

@[simp] theorem leaving_destination (origin : Bool) (packet : DataPacket) :
    (leaving origin packet).destination = packet.destination := by
  cases origin with
  | true => rfl
  | false => rfl

theorem forwarding_transmit {node : DataNode} {packet : DataPacket} {route : Route}
    (decrementTtl : Bool) (htransit : node.id ≠ packet.destination)
    (hroute : routingFindRoute node.table packet.destination = some route)
    (hmetric : route.metric < routeMetricInfinity) (hlive : decrementTtl = true → 1 < packet.ttl) :
    forwardImpl (forwardingInit (routeSnapshot node packet) (some node.id)) packet decrementTtl
      = (forwardingInit (routeSnapshot node packet) (some node.id)).forwardToPeer
          (leaving (!decrementTtl) packet) route.nextHop := by
  have hlocal : (forwardingInit (routeSnapshot node packet) (some node.id)).localId
      ≠ some packet.destination := by
    intro h
    exact htransit (Option.some.inj h)
  rw [forwardImpl_transit hlocal hlive]
  apply forwardRoute_transmit _ hmetric
  rw [leaving_destination]
  show routingFindRoute (routeSnapshot node packet) _ = _
  rw [routeSnapshot_find htransit, hroute]

/-- A node on the path, in the state it is in once it has counted the packet,
sends it to the next node and drops nothing. -/
theorem forwardDataPacket_transmit {node : DataNode} {answers : DataAnswers} {packet : DataPacket}
    {next : NodeId} (origin : Bool) (h : Forwards ⟨node, answers⟩ packet.destination next)
    (hlive : origin = false → 1 < packet.ttl) :
    (forwardDataPacket node answers packet origin).events
        = [.send next (dataMessage (leaving origin packet))]
      ∧ ∀ counter : Counter, counter.isDrop →
          (forwardDataPacket node answers packet origin).node.counters counter
            = node.counters counter := by
  obtain ⟨route, hroute, rfl, hmetric⟩ := h.route
  obtain ⟨session, hsession⟩ := Option.isSome_iff_exists.mp h.session
  have hsend : ¬ (!answers.sends route.nextHop (dataMessage (leaving origin packet))) = true := by
    rw [h.sends]
    decide
  have htransmit : transmitTo node answers origin route.nextHop (leaving origin packet)
      = (if origin then ((node.count .dataMessagesSent).count .forwardedPackets).count
            .vnetPacketsTransmitted
          else (node.count .dataMessagesSent).count .forwardedPackets,
        [.send route.nextHop (dataMessage (leaving origin packet))]) := by
    unfold transmitTo
    rw [hsession]
    dsimp only
    exact if_neg hsend
  have hforward := forwarding_transmit (!origin) h.transit hroute hmetric (by simpa using hlive)
  have hresult : (if origin then
        forwardingForwardOrigin (forwardingInit (routeSnapshot node packet) (some node.id)) packet
      else forwardingForward (forwardingInit (routeSnapshot node packet) (some node.id)) packet)
      = (forwardingInit (routeSnapshot node packet) (some node.id)).forwardToPeer
          (leaving origin packet) route.nextHop := by
    cases origin with
    | true => exact hforward
    | false => exact hforward
  unfold forwardDataPacket
  dsimp only
  rw [hresult]
  dsimp only [ForwardingState.forwardToPeer]
  rw [htransmit]
  refine ⟨rfl, fun counter hcounter => ?_⟩
  cases origin with
  | true =>
      show (((node.count _).count _).count _).counters counter = _
      rw [DataNode.count_drop _ rfl hcounter, DataNode.count_drop _ rfl hcounter,
        DataNode.count_drop _ rfl hcounter]
  | false =>
      show ((node.count _).count _).counters counter = _
      rw [DataNode.count_drop _ rfl hcounter, DataNode.count_drop _ rfl hcounter]

/-- The destination writes the packet to its TUN device as it is. -/
theorem forwardDataPacket_deliver {node : DataNode} {answers : DataAnswers} {packet : DataPacket}
    (h : Receives ⟨node, answers⟩ packet.destination) :
    (forwardDataPacket node answers packet false).events = [.tunWrite packet.payload]
      ∧ ∀ counter : Counter, counter.isDrop →
          (forwardDataPacket node answers packet false).node.counters counter
            = node.counters counter := by
  have hlocal : some node.id = some packet.destination := congrArg some h.here
  have hports : admitPorts node answers.now packet.payload = (true, node) := if_pos h.shares
  have hwrites : ¬ (!answers.tunWrites) = true := by
    rw [show answers.tunWrites = true from h.tun]
    decide
  have hdeliver : deliverLocal node answers packet
      = (((node.count .tunPacketsWritten).count .deliveredLocalPackets).count .vnetPacketsReceived,
          [.tunWrite packet.payload]) := by
    unfold deliverLocal
    rw [hports]
    dsimp only
    rw [if_neg (by decide), if_neg hwrites]
  have hforward : forwardingForward (forwardingInit (routeSnapshot node packet) (some node.id))
      packet = (forwardingInit (routeSnapshot node packet) (some node.id)).deliverLocally packet :=
    if_pos hlocal
  unfold forwardDataPacket
  dsimp only
  rw [if_neg (by decide), hforward]
  dsimp only [ForwardingState.deliverLocally]
  rw [hdeliver]
  refine ⟨rfl, fun counter hcounter => ?_⟩
  show (((node.count _).count _).count _).counters counter = _
  rw [DataNode.count_drop _ rfl hcounter, DataNode.count_drop _ rfl hcounter,
    DataNode.count_drop _ rfl hcounter]

/-! ## From hop to hop -/

/-- A node sees the path as before when it has only counted. -/
theorem Forwards.count {hop : PathHop} {destination next : NodeId}
    (h : Forwards hop destination next) (counter : Counter) :
    Forwards ⟨hop.node.count counter, hop.answers⟩ destination next :=
  ⟨h.transit, h.route, h.session, h.sends⟩

theorem Receives.count {hop : PathHop} {destination : NodeId} (h : Receives hop destination)
    (counter : Counter) : Receives ⟨hop.node.count counter, hop.answers⟩ destination :=
  ⟨h.here, h.shares, h.tun⟩

theorem relay_cons {sent : DataResult} {hop : PathHop} {packet : DataPacket}
    (rest : List PathHop) (hevents : sent.events = [.send hop.node.id (dataMessage packet)])
    (htravels : Travels hop.node packet)
    (hsize : packet.payload.length ≤ maxPayloadSize - dataPacketHeaderSize) :
    ∃ result : DataResult, relay sent (hop :: rest) = result :: relay result rest
      ∧ result.ok = true
      ∧ result.node = (forwardDataPacket (hop.node.count .dataMessagesReceived) hop.answers packet
          false).node
      ∧ result.events = (forwardDataPacket (hop.node.count .dataMessagesReceived) hop.answers packet
          false).events := by
  obtain ⟨bytes, hbytes⟩ := messageEncode_data hsize
  refine ⟨{ forwardDataPacket (hop.node.count .dataMessagesReceived) hop.answers packet false with
    ok := true }, ?_, rfl, rfl, rfl⟩
  rw [relay, hevents]
  dsimp only
  rw [if_pos rfl, hbytes]
  dsimp only
  rw [receiveData_of_travels hop.answers htravels hsize hbytes]

/-- From the node a packet is sent to up to its destination. The induction is
on the rest of the path; every transit takes one from the `ttl`. -/
theorem relay_delivers {netPrefix : Bytes} {mtu : Nat}
    (hlimit : mtu ≤ maxPayloadSize - dataPacketHeaderSize) (hop : PathHop) (rest : List PathHop)
    (sent : DataResult) (packet : DataPacket)
    (hevents : sent.events = [.send hop.node.id (dataMessage packet)])
    (hpath : PathTo packet.destination hop rest)
    (hsame : ∀ other ∈ hop :: rest, SameNetwork netPrefix mtu other.node)
    (htravels : Travels hop.node packet) (httl : rest.length < packet.ttl.toNat) :
    List.Forall₂ Accepts (hop :: rest) (relay sent (hop :: rest))
      ∧ ∃ transits last, relay sent (hop :: rest) = transits ++ [last]
          ∧ last.events = [.tunWrite packet.payload]
          ∧ ∀ result ∈ transits, ∀ written, .tunWrite written ∉ result.events := by
  induction rest generalizing hop sent packet with
  | nil =>
      have hsize := htravels.fits (hsame hop List.mem_cons_self).mtu hlimit
      obtain ⟨result, hrelay, hok, hnode, hresult⟩ := relay_cons [] hevents htravels hsize
      obtain ⟨hwritten, hcounters⟩ := forwardDataPacket_deliver (hpath.count .dataMessagesReceived)
      have haccepts : Accepts hop result := by
        refine ⟨hok, fun counter hcounter => ?_⟩
        rw [hnode, hcounters counter hcounter, DataNode.count_drop _ rfl hcounter]
      rw [hrelay, relay]
      refine ⟨.cons haccepts .nil, [], result, rfl, hresult.trans hwritten, ?_⟩
      intro other hother
      exact absurd hother List.not_mem_nil
  | cons next rest ih =>
      have hhere := hsame hop List.mem_cons_self
      have hthere := hsame next (List.mem_cons_of_mem _ List.mem_cons_self)
      have hsize := htravels.fits hhere.mtu hlimit
      have hlive : 1 < packet.ttl := by
        apply UInt8.lt_iff_toNat_lt.mpr
        simp only [List.length_cons] at httl
        show 1 < packet.ttl.toNat
        omega
      obtain ⟨result, hrelay, hok, hnode, hresult⟩ :=
        relay_cons (next :: rest) hevents htravels hsize
      obtain ⟨hforwards, hrest⟩ := hpath
      obtain ⟨hsent, hcounters⟩ := forwardDataPacket_transmit false
        (hforwards.count .dataMessagesReceived) fun _ => hlive
      have haccepts : Accepts hop result := by
        refine ⟨hok, fun counter hcounter => ?_⟩
        rw [hnode, hcounters counter hcounter, DataNode.count_drop _ rfl hcounter]
      have hnext := (htravels.withTtl (packet.ttl - 1)).elsewhere hhere hthere
      have hpred := toNat_pred hlive
      obtain ⟨hall, transits, last, hsplit, hlast, htransits⟩ :=
        ih next result { packet with ttl := packet.ttl - 1 } (hresult.trans hsent) hrest
          (fun other hother => hsame other (List.mem_cons_of_mem _ hother)) hnext (by
            simp only [List.length_cons] at httl
            show rest.length < (packet.ttl - 1).toNat
            omega)
      rw [hrelay]
      refine ⟨.cons haccepts hall, result :: transits, last, by rw [hsplit]; rfl, hlast, ?_⟩
      intro other hother written hwritten
      rcases List.mem_cons.mp hother with rfl | hother
      · rw [hresult, hsent, List.mem_singleton] at hwritten
        cases hwritten
      · exact htransits other hother written hwritten

/-! ## From the source -/

theorem resolveNode_address {node : DataNode} {address : IPv6} {id : NodeId}
    (haddressed : ∀ p ∈ node.topology, p.virtualAddress = virtualAddress node.network p.id)
    (h : resolveNodeByVirtualAddress node address = some id) :
    virtualAddress node.network id = address := by
  unfold resolveNodeByVirtualAddress at h
  cases hpeer : topologyFindByAddress node.topology address with
  | some peer =>
      rw [hpeer] at h
      cases h
      have hfound : peer.virtualAddress = address := by simpa using List.find?_some hpeer
      rw [← hfound, haddressed peer (List.mem_of_find?_eq_some hpeer)]
  | none =>
      rw [hpeer] at h
      dsimp only at h
      split at h
      · rename_i contact hcontact
        cases h
        have hfound := List.find?_some hcontact
        simp only [decide_eq_true_eq] at hfound
        exact hfound.2
      · split at h
        · cases h
        · rename_i route hroute
          split_ifs at h with hnamed
          cases h
          exact hnamed.2

/-- What a packet that the source sends has passed, and what of the node has
changed. -/
structure Originates (node : DataNode) (raw : Bytes) (after : DataNode) (data : DataPacket) :
    Prop where
  travels : Travels node data
  elsewhere : data.destination ≠ node.id
  payload : data.payload = raw
  ttl : data.ttl = 64
  id : after.id = node.id
  table : after.table = node.table
  sessions : after.sessions = node.sessions
  topology : after.topology = node.topology
  kept : ∀ counter : Counter, counter.isDrop → after.counters counter = node.counters counter

/-- The source's own bookkeeping leaves all else as it is. -/
theorem noteOutboundPort_frame (node : DataNode) (now : Nat) (packet : Bytes) :
    ∃ ports, noteOutboundPort node now packet = { node with activeOutboundPorts := ports } := by
  unfold noteOutboundPort
  dsimp only
  split_ifs
  · exact ⟨_, rfl⟩
  · exact ⟨_, rfl⟩
  · exact ⟨node.activeOutboundPorts, rfl⟩

theorem originPacket_some {node after : DataNode} {now : Nat} {raw : Bytes} {data : DataPacket}
    (haddressed : ∀ p ∈ node.topology, p.virtualAddress = virtualAddress node.network p.id)
    (h : originPacket node now raw = (after, some data)) : Originates node raw after data := by
  unfold originPacket validateIpv6Packet at h
  cases hcheck : ipv6PacketCheck (node.count .tunPacketsRead) raw with
  | error counter =>
      rw [hcheck] at h
      dsimp only at h
      split_ifs at h <;> cases h
  | ok destination =>
      rw [hcheck] at h
      dsimp only at h
      have hself : destination ≠ (node.count .tunPacketsRead).address := by
        intro hself
        rw [if_pos hself] at h
        cases h
      rw [if_neg hself] at h
      cases hresolve : resolveNodeByVirtualAddress (node.count .tunPacketsRead) destination with
      | none =>
          rw [hresolve] at h
          cases h
      | some destinationNode =>
          rw [hresolve] at h
          dsimp only at h
          have hown : destinationNode ≠ (node.count .tunPacketsRead).id := by
            intro hown
            rw [if_pos hown] at h
            cases h
          rw [if_neg hown] at h
          have hsource : ipv6At 8 raw = (node.count .tunPacketsRead).address := by
            by_contra hsource
            rw [if_pos hsource] at h
            cases h
          rw [if_neg (not_not.mpr hsource)] at h
          obtain ⟨ports, hports⟩ := noteOutboundPort_frame (node.count .tunPacketsRead) now raw
          rw [hports] at h
          obtain ⟨rfl, hdata⟩ := Prod.mk.inj h
          cases hdata
          have haddress : virtualAddress node.network destinationNode = destination :=
            resolveNode_address haddressed hresolve
          have hchecked : ipv6PacketCheck node raw = .ok destination := hcheck
          refine ⟨⟨rfl, rfl, ?_, hsource⟩, hown, rfl, rfl, rfl, rfl, rfl, rfl, ?_⟩
          · show ipv6PacketCheck node raw = .ok (virtualAddress node.network destinationNode)
            rw [haddress, hchecked]
          · intro counter hcounter
            exact node.count_drop rfl hcounter

/-- A packet that the source's data plane hands on reaches the destination
along any path of at most 64 links that the nodes' tables give it: every node
on the way takes what it is sent and drops nothing, and the last one, and no
other, writes the packet to its TUN device, byte for byte. -/
theorem data_delivered {netPrefix : Bytes} {mtu : Nat} (source : PathHop) (rest : List PathHop)
    (raw : Bytes) (after : DataNode) (data : DataPacket)
    (hlimit : mtu ≤ maxPayloadSize - dataPacketHeaderSize)
    (hsame : ∀ hop ∈ source :: rest, SameNetwork netPrefix mtu hop.node)
    (haddressed : ∀ p ∈ source.node.topology,
      p.virtualAddress = virtualAddress source.node.network p.id)
    (hlinks : rest.length ≤ 64)
    (horigin : originPacket source.node source.answers.now raw = (after, some data))
    (hpath : PathTo data.destination source rest) :
    Accepts source (dataPlaneTurn source.node source.answers raw)
      ∧ List.Forall₂ Accepts rest (relay (dataPlaneTurn source.node source.answers raw) rest)
      ∧ ∃ transits last,
          relay (dataPlaneTurn source.node source.answers raw) rest = transits ++ [last]
          ∧ last.events = [.tunWrite raw]
          ∧ ∀ result ∈ dataPlaneTurn source.node source.answers raw :: transits,
              ∀ written, .tunWrite written ∉ result.events := by
  have h := originPacket_some haddressed horigin
  have hturn : dataPlaneTurn source.node source.answers raw
      = { forwardDataPacket after source.answers data true with ok := true } := by
    rw [dataPlaneTurn, horigin]
  cases rest with
  | nil =>
      -- the source has resolved the address to another node than itself
      exact absurd hpath.here.symm h.elsewhere
  | cons next rest =>
      obtain ⟨hforwards, hrest⟩ := hpath
      have hthere : Forwards ⟨after, source.answers⟩ data.destination next.node.id := by
        refine ⟨?_, ?_, ?_, hforwards.sends⟩
        · rw [h.id]
          exact hforwards.transit
        · rw [h.table]
          exact hforwards.route
        · have hsession := hforwards.session
          unfold findSessionByNextHop at hsession ⊢
          rw [h.sessions, h.topology]
          exact hsession
      obtain ⟨hsent, hcounters⟩ := forwardDataPacket_transmit true hthere fun hfalse => by
        cases hfalse
      have hevents : (dataPlaneTurn source.node source.answers raw).events
          = [.send next.node.id (dataMessage data)] := by
        rw [hturn]
        exact hsent
      have haccepts : Accepts source (dataPlaneTurn source.node source.answers raw) := by
        rw [hturn]
        refine ⟨rfl, fun counter hcounter => ?_⟩
        exact (hcounters counter hcounter).trans (h.kept counter hcounter)
      have hnext := hsame next (List.mem_cons_of_mem _ List.mem_cons_self)
      have htravels := h.travels.elsewhere (hsame source List.mem_cons_self) hnext
      obtain ⟨hall, transits, last, hsplit, hlast, htransits⟩ :=
        relay_delivers hlimit next rest _ data hevents hrest
          (fun hop hhop => hsame hop (List.mem_cons_of_mem _ hhop)) htravels (by
            rw [h.ttl]
            exact hlinks)
      refine ⟨haccepts, hall, transits, last, hsplit, by rw [hlast, h.payload], ?_⟩
      intro result hresult written hwritten
      rcases List.mem_cons.mp hresult with rfl | hresult
      · rw [hevents, List.mem_singleton] at hwritten
        cases hwritten
      · exact htransits result hresult written hwritten

/-! ## Three nodes in a row -/

def relayNetwork : IPv6 := front 16 [0xfd, 0, 1]

def relayId (n : UInt8) : NodeId := front 32 [n]

/-- A node with one neighbour, through which it reaches the third node. -/
def relayNode (n next : UInt8) : PathHop where
  node :=
    { id := relayId n
      network := relayNetwork
      mtu := 1280
      shareAllPorts := true
      sharedPorts := []
      topology := [{ id := relayId next, virtualAddress := virtualAddress relayNetwork (relayId next)
                     endpoint := [], state := .connected, lastSeen := 1 }]
      contacts := kademliaInit (relayId n)
      table := [routeCreate (virtualAddress relayNetwork (relayId 3)) (relayId next) 1 0 (relayId 3)]
      sessions := [{ peerId := some (relayId next), isOpen := true }]
      activeOutboundPorts := ∅
      nextPacketId := 1
      counters := fun _ => 0 }
  answers := { now := 2000000, tunWrites := true, sends := fun _ _ => true }

/-- A packet from the first node to the third, of four bytes after the header. -/
def relayPacket : Bytes :=
  [0x60, 0, 0, 0, 0, 4, 58, 64] ++ (virtualAddress relayNetwork (relayId 1)).val
    ++ (virtualAddress relayNetwork (relayId 3)).val ++ [1, 2, 3, 4]

theorem relayNode_forwards {n : UInt8} {next : UInt8} (h : relayId n ≠ relayId 3) :
    Forwards (relayNode n next) (relayId 3) (relayId next) := by
  have hmetric : 1 < routeMetricInfinity := by decide
  refine ⟨h, ⟨_, rfl, rfl, hmetric⟩, ?_, fun _ => rfl⟩
  have hsession : findSessionByNextHop (relayNode n next).node 2000000 (relayId next)
      = some { peerId := some (relayId next), isOpen := true } := by
    simp [findSessionByNextHop, relayNode, topologyFindPeer, peerIsAlive, steadyMs]
  show (findSessionByNextHop (relayNode n next).node 2000000 (relayId next)).isSome
  rw [hsession]
  rfl

theorem eq_pair_of_snd {α β : Type} {pair : α × β} {b : β} (h : pair.2 = b) :
    pair = (pair.1, b) := by
  rw [← h]

theorem data_delivered_two_links :
    ∃ transits last,
      relay (dataPlaneTurn (relayNode 1 2).node (relayNode 1 2).answers relayPacket)
        [relayNode 2 3, relayNode 3 2] = transits ++ [last]
      ∧ last.events = [.tunWrite relayPacket] := by
  have hdata : (originPacket (relayNode 1 2).node (relayNode 1 2).answers.now relayPacket).2
      = some (dataPacketCreate .data (relayId 1) (relayId 3) 1 64 false 0 relayPacket) := by
    decide +kernel
  have horigin := eq_pair_of_snd hdata
  have hsame : ∀ hop ∈ [relayNode 1 2, relayNode 2 3, relayNode 3 2],
      SameNetwork [0xfd, 0, 1, 0, 0, 0, 0, 0] 1280 hop.node := by
    intro hop hhop
    simp only [List.mem_cons, List.not_mem_nil, or_false] at hhop
    rcases hhop with rfl | rfl | rfl
    all_goals exact ⟨by decide, rfl⟩
  obtain ⟨-, -, transits, last, hsplit, hlast, -⟩ := data_delivered (relayNode 1 2)
    [relayNode 2 3, relayNode 3 2] relayPacket _ _ (by decide) hsame (by
      intro p hp
      rw [List.mem_singleton.mp hp]
      rfl) (by decide) horigin
    ⟨relayNode_forwards (by decide), relayNode_forwards (by decide), rfl, rfl, rfl⟩
  exact ⟨transits, last, hsplit, hlast⟩

end Madoka

import Madoka.Network.Routing

/-!
# Forwarding

Data packets and what a node does with one (`network/data_packet.cpp`,
`network/forwarding.cpp`), and that a packet stops after as many hops as its
`ttl` allows, whatever the nodes' tables say.
-/

namespace Madoka

open Octets

inductive PacketType where
  | data
  | ack
  | invalid
deriving DecidableEq

structure DataPacket where
  type : PacketType
  source : NodeId
  destination : NodeId
  packetId : UInt64
  ttl : UInt8
  requiresAck : Bool
  sequenceNumber : UInt32
  payload : Bytes
deriving DecidableEq

def dataPacketCreate (type : PacketType) (source destination : NodeId) (packetId : UInt64)
    (ttl : UInt8) (requiresAck : Bool) (sequenceNumber : UInt32) (payload : Bytes) : DataPacket :=
  { type, source, destination, packetId, ttl, requiresAck, sequenceNumber, payload }

/-! ## Looking up -/

structure RouteEntry where
  destination : NodeId
  nextHop : NodeId
  metric : Nat
  valid : Bool
deriving DecidableEq

def routingLookup (table : RouteTable) (destination : NodeId) : Option RouteEntry :=
  (routingFindRoute table destination).map fun r =>
    { destination, nextHop := r.nextHop, metric := r.metric
      valid := r.metric < routeMetricInfinity }

/-! ## One node -/

inductive ForwardAction where
  | deliverLocally
  | forwardToPeer
  | dropNoRoute
  | dropInvalid
  | dropTtlExpired
deriving DecidableEq

structure ForwardingMetrics where
  forwardedPackets : Nat
  droppedPackets : Nat
  ttlExpiredPackets : Nat
  unknownDestinationPackets : Nat
deriving DecidableEq

structure ForwardingState where
  table : RouteTable
  localId : Option NodeId
  metrics : ForwardingMetrics
  lastAction : ForwardAction
  lastNextHop : NodeId

def forwardingInit (table : RouteTable) (localId : Option NodeId) : ForwardingState where
  table := table
  localId := localId
  metrics := ⟨0, 0, 0, 0⟩
  lastAction := .dropInvalid
  lastNextHop := zero 32

/-- Which handler is called, and with what. -/
inductive ForwardEffect where
  | deliver (packet : DataPacket)
  | transmit (nextHop : NodeId) (packet : DataPacket)
  | drop (packet : DataPacket) (reason : String)
deriving DecidableEq

structure ForwardResult where
  state : ForwardingState
  packet : DataPacket
  effect : ForwardEffect

def ForwardingState.deliverLocally (state : ForwardingState) (packet : DataPacket) :
    ForwardResult where
  state := { state with lastAction := .deliverLocally, lastNextHop := zero 32 }
  packet := packet
  effect := .deliver packet

def ForwardingState.dropTtlExpired (state : ForwardingState) (packet : DataPacket) :
    ForwardResult where
  state :=
    { state with
      metrics :=
        { state.metrics with
          ttlExpiredPackets := state.metrics.ttlExpiredPackets + 1
          droppedPackets := state.metrics.droppedPackets + 1 }
      lastAction := .dropTtlExpired }
  packet := { packet with ttl := 0 }
  effect := .drop { packet with ttl := 0 } "TTL expired"

def ForwardingState.dropNoRoute (state : ForwardingState) (packet : DataPacket) :
    ForwardResult where
  state :=
    { state with
      metrics :=
        { state.metrics with
          unknownDestinationPackets := state.metrics.unknownDestinationPackets + 1
          droppedPackets := state.metrics.droppedPackets + 1 }
      lastAction := .dropNoRoute
      lastNextHop := zero 32 }
  packet := packet
  effect := .drop packet "No route to destination"

def ForwardingState.forwardToPeer (state : ForwardingState) (packet : DataPacket)
    (nextHop : NodeId) : ForwardResult where
  state :=
    { state with
      metrics := { state.metrics with forwardedPackets := state.metrics.forwardedPackets + 1 }
      lastAction := .forwardToPeer
      lastNextHop := nextHop }
  packet := packet
  effect := .transmit nextHop packet

/-- What follows once the `ttl` has been seen to. -/
def forwardRoute (state : ForwardingState) (packet : DataPacket) : ForwardResult :=
  match routingLookup state.table packet.destination with
  | none => state.dropNoRoute packet
  | some route =>
      if !route.valid ∨ route.metric ≥ routeMetricInfinity then state.dropNoRoute packet
      else state.forwardToPeer packet route.nextHop

def forwardImpl (state : ForwardingState) (packet : DataPacket) (decrementTtl : Bool) :
    ForwardResult :=
  if state.localId = some packet.destination then state.deliverLocally packet
  else if decrementTtl ∧ packet.ttl ≤ 1 then state.dropTtlExpired packet
  else forwardRoute state
    (if decrementTtl then { packet with ttl := packet.ttl - 1 } else packet)

def forwardingForward (state : ForwardingState) (packet : DataPacket) : ForwardResult :=
  forwardImpl state packet true

def forwardingForwardOrigin (state : ForwardingState) (packet : DataPacket) : ForwardResult :=
  forwardImpl state packet false

/-! ## The ways a hop ends -/

inductive HopEnd where
  | delivered
  | transmitted
  | dropped
deriving DecidableEq

/-- A hop ends in one way: the handler that is called, the action that is
noted and the counters that go up belong together. -/
def ForwardResult.EndsAs (result : ForwardResult) (before : ForwardingState) : HopEnd → Prop
  | .delivered => result.effect = .deliver result.packet
      ∧ result.state.lastAction = .deliverLocally ∧ result.state.metrics = before.metrics
  | .transmitted => (∃ nextHop, result.effect = .transmit nextHop result.packet
        ∧ result.state.lastNextHop = nextHop)
      ∧ result.state.lastAction = .forwardToPeer
      ∧ result.state.metrics
        = { before.metrics with forwardedPackets := before.metrics.forwardedPackets + 1 }
  | .dropped => (∃ reason, result.effect = .drop result.packet reason)
      ∧ (result.state.lastAction = .dropTtlExpired
          ∧ result.state.metrics
            = { before.metrics with
                ttlExpiredPackets := before.metrics.ttlExpiredPackets + 1
                droppedPackets := before.metrics.droppedPackets + 1 }
        ∨ result.state.lastAction = .dropNoRoute
          ∧ result.state.metrics
            = { before.metrics with
                unknownDestinationPackets := before.metrics.unknownDestinationPackets + 1
                droppedPackets := before.metrics.droppedPackets + 1 })

theorem ForwardResult.EndsAs.unique {result : ForwardResult} {before : ForwardingState}
    {e e' : HopEnd} (h : result.EndsAs before e) (h' : result.EndsAs before e') : e = e' := by
  have key : ∀ {e}, result.EndsAs before e →
      e = match result.effect with
        | .deliver _ => .delivered
        | .transmit _ _ => .transmitted
        | .drop _ _ => .dropped := by
    intro e he
    cases e with
    | delivered => rw [he.1]
    | transmitted =>
        obtain ⟨nextHop, heffect, -⟩ := he.1
        rw [heffect]
    | dropped =>
        obtain ⟨reason, heffect⟩ := he.1
        rw [heffect]
  exact (key h).trans (key h').symm

theorem forwardRoute_ends (state : ForwardingState) (packet : DataPacket) :
    (forwardRoute state packet).packet = packet
      ∧ ((forwardRoute state packet).EndsAs state .transmitted
        ∨ (forwardRoute state packet).EndsAs state .dropped) := by
  have hdrop : (state.dropNoRoute packet).EndsAs state .dropped :=
    ⟨⟨_, rfl⟩, .inr ⟨rfl, rfl⟩⟩
  unfold forwardRoute
  cases routingLookup state.table packet.destination with
  | none => exact ⟨rfl, .inr hdrop⟩
  | some route =>
      dsimp only
      split_ifs
      · exact ⟨rfl, .inr hdrop⟩
      · exact ⟨rfl, .inl ⟨⟨_, rfl, rfl⟩, rfl, rfl⟩⟩

/-- What one hop does: it delivers the packet as it is, it drops it, or it
transmits it; in transit it takes one from a `ttl` of at least two. -/
theorem forwardImpl_cases (state : ForwardingState) (packet : DataPacket) (decrementTtl : Bool) :
    ((forwardImpl state packet decrementTtl).EndsAs state .delivered
        ∧ (forwardImpl state packet decrementTtl).packet = packet)
      ∨ ((forwardImpl state packet decrementTtl).EndsAs state .dropped
        ∧ (forwardImpl state packet decrementTtl).packet = { packet with ttl := 0 }
        ∧ decrementTtl = true ∧ packet.ttl ≤ 1)
      ∨ (((forwardImpl state packet decrementTtl).EndsAs state .transmitted
          ∨ (forwardImpl state packet decrementTtl).EndsAs state .dropped)
        ∧ (decrementTtl = false ∧ (forwardImpl state packet decrementTtl).packet = packet
          ∨ decrementTtl = true ∧ 1 < packet.ttl
            ∧ (forwardImpl state packet decrementTtl).packet
              = { packet with ttl := packet.ttl - 1 })) := by
  unfold forwardImpl
  by_cases hlocal : state.localId = some packet.destination
  · rw [if_pos hlocal]
    exact .inl ⟨⟨rfl, rfl, rfl⟩, rfl⟩
  · rw [if_neg hlocal]
    by_cases hexpired : decrementTtl = true ∧ packet.ttl ≤ 1
    · rw [if_pos hexpired]
      exact .inr (.inl ⟨⟨⟨_, rfl⟩, .inl ⟨rfl, rfl⟩⟩, rfl, hexpired⟩)
    · rw [if_neg hexpired]
      refine .inr (.inr ?_)
      cases decrementTtl with
      | false =>
          obtain ⟨hpacket, hends⟩ := forwardRoute_ends state packet
          exact ⟨hends, .inl ⟨rfl, hpacket⟩⟩
      | true =>
          obtain ⟨hpacket, hends⟩ := forwardRoute_ends state { packet with ttl := packet.ttl - 1 }
          have hlive : 1 < packet.ttl := not_le.mp fun h => hexpired ⟨rfl, h⟩
          exact ⟨hends, .inr ⟨rfl, hlive, hpacket⟩⟩

/-! ## A journey -/

/-- One node's turn with a packet. -/
structure Hop where
  state : ForwardingState
  packet : DataPacket
  result : ForwardResult

def Hop.transmits (hop : Hop) : Bool :=
  match hop.result.effect with
  | .transmit _ _ => true
  | _ => false

/-- The hops of a packet that enters at a node, at most `fuel` of them. Each
node's state may be another one at each time. -/
def journey (nodes : Nat → NodeId → ForwardingState) :
    Nat → Nat → NodeId → DataPacket → List Hop
  | 0, _, _, _ => []
  | fuel + 1, time, node, packet =>
      let result := forwardingForward (nodes time node) packet
      { state := nodes time node, packet, result } ::
        match result.effect with
        | .transmit nextHop sent => journey nodes fuel (time + 1) nextHop sent
        | _ => []

/-- The same for a packet that starts at the node. -/
def originJourney (nodes : Nat → NodeId → ForwardingState) (fuel time : Nat) (node : NodeId)
    (packet : DataPacket) : List Hop :=
  let result := forwardingForwardOrigin (nodes time node) packet
  { state := nodes time node, packet, result } ::
    match result.effect with
    | .transmit nextHop sent => journey nodes fuel (time + 1) nextHop sent
    | _ => []

def transmissions (hops : List Hop) : Nat :=
  hops.countP Hop.transmits

/-- The last hop has delivered or dropped the packet. -/
def Ended (hops : List Hop) : Prop :=
  ∃ hop, hops.getLast? = some hop ∧ hop.transmits = false

/-- Two packets that differ in their `ttl` only, and the second has no more. -/
structure Passed (original packet : DataPacket) : Prop where
  same : packet = { original with ttl := packet.ttl }
  less : packet.ttl.toNat ≤ original.ttl.toNat

theorem Passed.refl (packet : DataPacket) : Passed packet packet := ⟨rfl, le_rfl⟩

theorem Passed.trans {a b c : DataPacket} (h : Passed a b) (h' : Passed b c) : Passed a c where
  same := by rw [h'.same, h.same]
  less := h'.less.trans h.less

theorem toNat_pred {ttl : UInt8} (h : 1 < ttl) : (ttl - 1).toNat + 1 = ttl.toNat := by
  have hlt : 1 < ttl.toNat := UInt8.lt_iff_toNat_lt.mp h
  rw [UInt8.toNat_sub_of_le _ _ h.le]
  simp
  omega

theorem forwardImpl_ends (state : ForwardingState) (packet : DataPacket) (decrementTtl : Bool) :
    (∃! e, (forwardImpl state packet decrementTtl).EndsAs state e)
      ∧ Passed packet (forwardImpl state packet decrementTtl).packet := by
  have hunique : ∀ {e}, (forwardImpl state packet decrementTtl).EndsAs state e →
      ∃! e, (forwardImpl state packet decrementTtl).EndsAs state e :=
    fun h => ⟨_, h, fun _ h' => h'.unique h⟩
  rcases forwardImpl_cases state packet decrementTtl with
    ⟨hend, hpacket⟩ | ⟨hend, hpacket, -⟩ | ⟨hend, hpacket⟩
  · rw [hpacket]
    exact ⟨hunique hend, .refl packet⟩
  · rw [hpacket]
    exact ⟨hunique hend, rfl, Nat.zero_le _⟩
  · refine ⟨hend.elim hunique hunique, ?_⟩
    rcases hpacket with ⟨-, hpacket⟩ | ⟨-, hlive, hpacket⟩
    · rw [hpacket]
      exact .refl packet
    · have hpred := toNat_pred hlive
      rw [hpacket]
      refine ⟨rfl, ?_⟩
      dsimp only
      omega

theorem ForwardResult.EndsAs.transmits {result : ForwardResult} {before : ForwardingState}
    {e : HopEnd} (h : result.EndsAs before e) {nextHop : NodeId} {sent : DataPacket}
    (heffect : result.effect = .transmit nextHop sent) : e = .transmitted ∧ sent = result.packet := by
  cases e with
  | delivered =>
      obtain ⟨h, -⟩ := h
      rw [heffect] at h
      cases h
  | transmitted =>
      obtain ⟨next, h, -⟩ := h.1
      rw [heffect] at h
      cases h
      exact ⟨rfl, rfl⟩
  | dropped =>
      obtain ⟨reason, h⟩ := h.1
      rw [heffect] at h
      cases h

/-- A node in transit sends on a packet with one `ttl` less. -/
theorem forwardingForward_transmit {state : ForwardingState} {packet sent : DataPacket}
    {nextHop : NodeId} (h : (forwardingForward state packet).effect = .transmit nextHop sent) :
    sent.ttl.toNat + 1 = packet.ttl.toNat ∧ Passed packet sent := by
  obtain ⟨-, hpassed⟩ := forwardImpl_ends state packet true
  rcases forwardImpl_cases state packet true with ⟨hend, -⟩ | ⟨hend, -⟩ | ⟨hend, hpacket⟩
  · exact absurd (hend.transmits h).1 (by decide)
  · exact absurd (hend.transmits h).1 (by decide)
  · have hsent : sent = (forwardImpl state packet true).packet :=
      hend.elim (fun hend => (hend.transmits h).2) fun hend => (hend.transmits h).2
    rcases hpacket with ⟨hfalse, -⟩ | ⟨-, hlive, hpacket⟩
    · cases hfalse
    · rw [hsent]
      refine ⟨?_, hpassed⟩
      rw [hpacket]
      exact toNat_pred hlive

theorem forwardingForwardOrigin_transmit {state : ForwardingState} {packet sent : DataPacket}
    {nextHop : NodeId}
    (h : (forwardingForwardOrigin state packet).effect = .transmit nextHop sent) :
    sent = packet := by
  rcases forwardImpl_cases state packet false with ⟨hend, hpacket⟩ | ⟨-, -, hfalse, -⟩ |
    ⟨hend, hpacket⟩
  · exact (hend.transmits h).2.trans hpacket
  · cases hfalse
  · have hsent : sent = (forwardImpl state packet false).packet :=
      hend.elim (fun hend => (hend.transmits h).2) fun hend => (hend.transmits h).2
    rcases hpacket with ⟨-, hpacket⟩ | ⟨hfalse, -⟩
    · exact hsent.trans hpacket
    · cases hfalse

variable (nodes : Nat → NodeId → ForwardingState)

theorem transmissions_journey (fuel time : Nat) (node : NodeId) (packet : DataPacket) :
    transmissions (journey nodes fuel time node packet) ≤ max packet.ttl.toNat 1 - 1 := by
  induction fuel generalizing time node packet with
  | zero => exact Nat.zero_le _
  | succ fuel ih =>
      rw [journey]
      cases heffect : (forwardingForward (nodes time node) packet).effect with
      | transmit nextHop sent =>
          obtain ⟨hless, -⟩ := forwardingForward_transmit heffect
          have hrest := ih (time + 1) nextHop sent
          simp only [transmissions, List.countP_cons, Hop.transmits, heffect, if_true] at hrest ⊢
          -- a node that transmits has a `ttl` of two at least
          have hpositive : 1 ≤ sent.ttl.toNat := by
            rcases forwardImpl_cases (nodes time node) packet true with ⟨hend, -⟩ | ⟨hend, -⟩ |
              ⟨hend, hpacket⟩
            · exact absurd (hend.transmits heffect).1 (by decide)
            · exact absurd (hend.transmits heffect).1 (by decide)
            · rcases hpacket with ⟨hfalse, -⟩ | ⟨-, hlive, -⟩
              · cases hfalse
              · have hlt : 1 < packet.ttl.toNat := UInt8.lt_iff_toNat_lt.mp hlive
                omega
          omega
      | deliver delivered => simp [transmissions, Hop.transmits, heffect]
      | drop dropped reason => simp [transmissions, Hop.transmits, heffect]

theorem journey_ended (fuel time : Nat) (node : NodeId) (packet : DataPacket)
    (hfuel : max packet.ttl.toNat 1 ≤ fuel) : Ended (journey nodes fuel time node packet) := by
  induction fuel generalizing time node packet with
  | zero => exact absurd hfuel (by omega)
  | succ fuel ih =>
      rw [journey]
      cases heffect : (forwardingForward (nodes time node) packet).effect with
      | transmit nextHop sent =>
          obtain ⟨hless, -⟩ := forwardingForward_transmit heffect
          have hcount := transmissions_journey nodes (fuel + 1) time node packet
          rw [journey] at hcount
          simp only [transmissions, List.countP_cons, Hop.transmits, heffect, if_true] at hcount
          obtain ⟨hop, hlast, hop_ended⟩ := ih (time + 1) nextHop sent (by omega)
          refine ⟨hop, ?_, hop_ended⟩
          dsimp only
          rw [List.getLast?_cons, hlast]
          rfl
      | deliver delivered => exact ⟨_, rfl, by simp [Hop.transmits, heffect]⟩
      | drop dropped reason => exact ⟨_, rfl, by simp [Hop.transmits, heffect]⟩

/-- What is true of every hop. -/
structure HopSound (original : DataPacket) (hop : Hop) : Prop where
  ends : ∃! e, hop.result.EndsAs hop.state e
  before : Passed original hop.packet
  after : Passed hop.packet hop.result.packet

theorem journey_sound (fuel time : Nat) (node : NodeId) {original packet : DataPacket}
    (hpassed : Passed original packet) :
    ∀ hop ∈ journey nodes fuel time node packet, HopSound original hop := by
  induction fuel generalizing time node packet with
  | zero => exact fun hop h => absurd h List.not_mem_nil
  | succ fuel ih =>
      obtain ⟨hends, hafter⟩ := forwardImpl_ends (nodes time node) packet true
      rw [journey]
      intro hop hmem
      rcases List.mem_cons.mp hmem with rfl | hmem
      · exact ⟨hends, hpassed, hafter⟩
      · cases heffect : (forwardingForward (nodes time node) packet).effect with
        | transmit nextHop sent =>
            rw [heffect] at hmem
            exact ih (time + 1) nextHop (hpassed.trans (forwardingForward_transmit heffect).2)
              hop hmem
        | deliver delivered =>
            rw [heffect] at hmem
            exact absurd hmem List.not_mem_nil
        | drop dropped reason =>
            rw [heffect] at hmem
            exact absurd hmem List.not_mem_nil

theorem originJourney_cases (fuel time : Nat) (node : NodeId) (packet : DataPacket) :
    ∃ hop, hop.state = nodes time node ∧ hop.packet = packet
      ∧ hop.result = forwardingForwardOrigin (nodes time node) packet
      ∧ ((hop.transmits = false ∧ originJourney nodes fuel time node packet = [hop])
        ∨ hop.transmits = true ∧ ∃ nextHop, originJourney nodes fuel time node packet
          = hop :: journey nodes fuel (time + 1) nextHop packet) := by
  refine ⟨{ state := nodes time node, packet := packet
            result := forwardingForwardOrigin (nodes time node) packet }, rfl, rfl, rfl, ?_⟩
  unfold originJourney Hop.transmits
  dsimp only
  cases heffect : (forwardingForwardOrigin (nodes time node) packet).effect with
  | transmit nextHop sent =>
      rw [forwardingForwardOrigin_transmit heffect]
      exact .inr ⟨rfl, nextHop, rfl⟩
  | deliver delivered => exact .inl ⟨rfl, rfl⟩
  | drop dropped reason => exact .inl ⟨rfl, rfl⟩

/-- A packet is transmitted less often than its `ttl` says when it enters in
transit, and at most as often when it starts at a node; then it has been
delivered or dropped. Every hop delivers, transmits or drops and counts it,
and changes nothing in it but the `ttl`, which never grows. -/
theorem forwarding_terminates (time : Nat) (node : NodeId) (packet : DataPacket) :
    (∀ fuel, transmissions (journey nodes fuel time node packet) ≤ max packet.ttl.toNat 1 - 1)
      ∧ (1 ≤ packet.ttl.toNat → ∀ fuel,
          transmissions (originJourney nodes fuel time node packet) ≤ packet.ttl.toNat)
      ∧ (∀ fuel, max packet.ttl.toNat 1 ≤ fuel → Ended (journey nodes fuel time node packet)
          ∧ Ended (originJourney nodes fuel time node packet))
      ∧ ∀ fuel, ∀ hop, hop ∈ journey nodes fuel time node packet
          ∨ hop ∈ originJourney nodes fuel time node packet → HopSound packet hop := by
  refine ⟨fun fuel => transmissions_journey nodes fuel time node packet, ?_, ?_, ?_⟩
  · intro hpositive fuel
    obtain ⟨hop, -, -, -, ⟨hstill, heq⟩ | ⟨hsent, nextHop, heq⟩⟩ :=
      originJourney_cases nodes fuel time node packet
    · rw [heq]
      simp [transmissions, hstill]
    · have hrest := transmissions_journey nodes fuel (time + 1) nextHop packet
      rw [heq]
      simp only [transmissions, List.countP_cons, hsent, if_true] at hrest ⊢
      omega
  · intro fuel hfuel
    refine ⟨journey_ended nodes fuel time node packet hfuel, ?_⟩
    obtain ⟨hop, -, -, -, ⟨hstill, heq⟩ | ⟨hsent, nextHop, heq⟩⟩ :=
      originJourney_cases nodes fuel time node packet
    · rw [heq]
      exact ⟨hop, rfl, hstill⟩
    · obtain ⟨last, hlast, hended⟩ := journey_ended nodes fuel (time + 1) nextHop packet hfuel
      rw [heq]
      refine ⟨last, ?_, hended⟩
      rw [List.getLast?_cons, hlast]
      rfl
  · rintro fuel hop (hmem | hmem)
    · exact journey_sound nodes fuel time node (.refl packet) hop hmem
    · obtain ⟨first, hstate, hpacket, hresult, ⟨-, heq⟩ | ⟨-, nextHop, heq⟩⟩ :=
        originJourney_cases nodes fuel time node packet
      all_goals
        have hfirst : HopSound packet first := by
          obtain ⟨hends, hafter⟩ := forwardImpl_ends (nodes time node) packet false
          refine ⟨?_, ?_, ?_⟩
          · rw [hresult, hstate]
            exact hends
          · rw [hpacket]
            exact .refl packet
          · rw [hresult, hpacket]
            exact hafter
        rw [heq] at hmem
      · rw [List.mem_singleton.mp hmem]
        exact hfirst
      · rcases List.mem_cons.mp hmem with rfl | hmem
        · exact hfirst
        · exact journey_sound nodes fuel (time + 1) nextHop (.refl packet) hop hmem

/-- Two nodes that send everything to each other. -/
def loopNodes : Nat → NodeId → ForwardingState := fun _ node =>
  forwardingInit [routeCreate (zero 16) (if node.val.head? = some 1 then front 32 [2] else front 32 [1])
    1 0 (front 32 [3])] (some node)

def loopPacket (ttl : UInt8) : DataPacket :=
  dataPacketCreate .data (front 32 [1]) (front 32 [3]) 7 ttl false 0 [1]

theorem forwarding_terminates_loop :
    transmissions (originJourney loopNodes 10 0 (front 32 [1]) (loopPacket 5)) = 5 := by
  have hbound := (forwarding_terminates loopNodes 0 (front 32 [1]) (loopPacket 5)).2.1
    (by decide) 10
  have hreached : 5 ≤ transmissions (originJourney loopNodes 10 0 (front 32 [1]) (loopPacket 5)) := by
    decide
  exact le_antisymm hbound hreached

end Madoka

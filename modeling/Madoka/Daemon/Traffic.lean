import Madoka.Daemon.Delivery
import Madoka.Lib.Run

/-!
# Traffic

The data planes of a whole network (`data_plane_loop` and
`handle_data_message` of `core/daemon.cpp`) with the frames that are under way
between them. Whatever the tables hold and however they change meanwhile, no
packet is made up, changed or multiplied, and a loop of routes costs no more
transmissions than the `ttl` allows.
-/

namespace Madoka

open Octets

/-! ## What one node does -/

/-- What becomes of a packet at one node. -/
inductive PacketFate (node : DataNode) (packet : DataPacket) (origin : Bool) :
    List DataEvent → Prop where
  | stopped : PacketFate node packet origin []
  | written (hhere : node.id = packet.destination) :
      PacketFate node packet origin [.tunWrite packet.payload]
  | sent (nextHop : NodeId) (hthere : node.id ≠ packet.destination)
      (hlive : origin = false → 1 < packet.ttl) :
      PacketFate node packet origin [.send nextHop (dataMessage (leaving origin packet))]

section
variable {node : DataNode} {answers : DataAnswers} {packet : DataPacket} {origin : Bool}

theorem deliverLocal_events (node : DataNode) (answers : DataAnswers) (packet : DataPacket) :
    (deliverLocal node answers packet).2 = []
      ∨ (deliverLocal node answers packet).2 = [.tunWrite packet.payload] := by
  unfold deliverLocal
  dsimp only
  split
  · exact .inl rfl
  · split
    · exact .inl rfl
    · exact .inr rfl

theorem transmitTo_events (node : DataNode) (answers : DataAnswers) (origin : Bool) (nextHop : NodeId) (packet : DataPacket) :
    (transmitTo node answers origin nextHop packet).2 = []
      ∨ (transmitTo node answers origin nextHop packet).2
        = [.send nextHop (dataMessage packet)] := by
  unfold transmitTo
  dsimp only
  split
  · exact .inl rfl
  · split
    · exact .inl rfl
    · exact .inr rfl

theorem forwardRoute_effect (state : ForwardingState) (packet : DataPacket) :
    (∃ reason, (forwardRoute state packet).effect = .drop packet reason)
      ∨ ∃ nextHop, (forwardRoute state packet).effect = .transmit nextHop packet := by
  unfold forwardRoute
  split
  · exact .inl ⟨_, rfl⟩
  · split
    · exact .inl ⟨_, rfl⟩
    · exact .inr ⟨_, rfl⟩

theorem forwardDataPacket_fate :
    PacketFate node packet origin (forwardDataPacket node answers packet origin).events := by
  have himpl : (if origin then
        forwardingForwardOrigin (forwardingInit (routeSnapshot node packet) (some node.id)) packet
      else forwardingForward (forwardingInit (routeSnapshot node packet) (some node.id)) packet)
      = forwardImpl (forwardingInit (routeSnapshot node packet) (some node.id)) packet
          (!origin) := by
    cases origin <;> rfl
  unfold forwardDataPacket
  dsimp only
  rw [himpl]
  by_cases hhere : node.id = packet.destination
  · have hlocal : (forwardingInit (routeSnapshot node packet) (some node.id)).localId
        = some packet.destination := congrArg some hhere
    rw [forwardImpl, if_pos hlocal]
    rcases deliverLocal_events node answers packet with hnone | hone
    · simp only [ForwardingState.deliverLocally, hnone]
      exact .stopped
    · simp only [ForwardingState.deliverLocally, hone]
      exact .written hhere
  · have hlocal : (forwardingInit (routeSnapshot node packet) (some node.id)).localId
        ≠ some packet.destination := fun h => hhere (Option.some.inj h)
    by_cases hlive : origin = false → 1 < packet.ttl
    · rw [forwardImpl_transit hlocal (by simpa using hlive), Bool.not_not]
      rcases forwardRoute_effect (forwardingInit (routeSnapshot node packet) (some node.id))
        (leaving origin packet) with ⟨reason, hdrop⟩ | ⟨nextHop, htransmit⟩
      · rw [hdrop]
        exact .stopped
      · rw [htransmit]
        dsimp only
        rcases transmitTo_events node answers origin nextHop
          (leaving origin packet) with hnone | hone
        · rw [hnone]
          exact .stopped
        · rw [hone]
          exact .sent nextHop hhere hlive
    · obtain ⟨horigin, hexpired⟩ := Classical.not_imp.mp hlive
      rw [forwardImpl, if_neg hlocal, if_pos ⟨by simp [horigin], not_lt.mp hexpired⟩]
      exact .stopped

end

/-! ## Frames -/

/-- The packet in a frame, if there is one. -/
def carried (bytes : Bytes) : Option DataPacket :=
  match messageDecode bytes with
  | .error _ => none
  | .ok wire =>
      match deserializePacket wire.payload with
      | .error _ => none
      | .ok packet => some packet

/-- A frame that is sent carries its packet. -/
theorem carried_encode {packet : DataPacket} {bytes : Bytes} (htype : packet.type ≠ .invalid)
    (hsize : packet.payload.length < 2 ^ 32) (h : messageEncode (dataMessage packet) = .ok bytes) :
    carried bytes = some packet := by
  have hshort : packet.payload.length ≤ maxDataPayloadLimit := by
    obtain ⟨hvalid, -⟩ := messageEncode_ok h
    have hlimit := (messageValidate_ok hvalid).2.2
    have hlength : packet.payload.length ≤ (serializePacket packet).length := by
      unfold serializePacket
      dsimp only
      rw [Nat.mod_eq_of_lt hsize, List.take_length, List.length_append]
      exact Nat.le_add_left _ _
    exact (hlength.trans hlimit).trans (by decide)
  have hread : deserializePacket (dataMessage packet).payload = .ok packet :=
    deserializePacket_serialize htype hshort
  unfold carried
  rw [messageDecode_encode h]
  dsimp only
  rw [hread]

/-- A packet that passes the check is of the length that its header gives. -/
theorem ipv6PacketCheck_size {node : DataNode} {packet : Bytes} {destination : IPv6}
    (h : ipv6PacketCheck node packet = .ok destination) :
    packet.length < 2 ^ 32 ∧ destination = ipv6At 24 packet := by
  unfold ipv6PacketCheck at h
  split_ifs at h with _ _ hlength
  have hhigh := (packet.getD 4 0).toNat_lt
  have hlow := (packet.getD 5 0).toNat_lt
  cases h
  exact ⟨by omega, rfl⟩

/-- What a node makes of a frame: nothing, or its fate if it carries a packet
whose addresses are those of its source and its destination. -/
inductive FrameFate (node : DataNode) (bytes : Bytes) : List DataEvent → Prop where
  | ignored : FrameFate node bytes []
  | handled {packet : DataPacket} {events : List DataEvent} (hcarried : carried bytes = some packet)
      (htype : packet.type = .data) (hsize : packet.payload.length < 2 ^ 32)
      (hsource : virtualAddress node.network packet.source = ipv6At 8 packet.payload)
      (hdestination : virtualAddress node.network packet.destination
        = ipv6At 24 packet.payload)
      (hfate : PacketFate (node.count .dataMessagesReceived) packet false events) :
      FrameFate node bytes events

theorem validateIpv6Packet_some {node after : DataNode} {packet : Bytes} {destination : IPv6}
    (h : validateIpv6Packet node packet = (after, some destination)) :
    after = node ∧ ipv6PacketCheck node packet = .ok destination := by
  unfold validateIpv6Packet at h
  cases hcheck : ipv6PacketCheck node packet with
  | error counter =>
      rw [hcheck] at h
      cases h
  | ok found =>
      rw [hcheck] at h
      cases h
      exact ⟨rfl, rfl⟩

theorem localIpv6ForNode_count {node : DataNode} {counter : Counter} {id : NodeId} {address : IPv6}
    (h : ¬ (!localIpv6ForNode (node.count counter) id address) = true) :
    virtualAddress node.network id = address := by
  have hlocal : localIpv6ForNode (node.count counter) id address = true := by simpa using h
  exact of_decide_eq_true hlocal

theorem receiveData_fate {node : DataNode} {answers : DataAnswers} {trusted : Bool} {bytes : Bytes}
    {result : DataResult} (h : receiveData node answers trusted bytes = some result) :
    FrameFate node bytes result.events := by
  unfold receiveData at h
  cases hdecode : messageDecode bytes with
  | error e =>
      rw [hdecode] at h
      cases h
  | ok wire =>
      rw [hdecode] at h
      dsimp only at h
      split at h
      · cases h
        unfold handleDataMessage
        cases hread : deserializePacket wire.payload with
        | error e => exact .ignored
        | ok packet =>
            dsimp only
            split
            · exact .ignored
            · next hdata =>
                split
                · exact .ignored
                · next after destination hvalidate =>
                    obtain ⟨rfl, hcheck⟩ := validateIpv6Packet_some hvalidate
                    obtain ⟨hsize, rfl⟩ := ipv6PacketCheck_size hcheck
                    split
                    · exact .ignored
                    · next hdestination =>
                        split
                        · exact .ignored
                        · next hsource =>
                            have hcarried : carried bytes = some packet := by
                              unfold carried
                              rw [hdecode]
                              dsimp only
                              rw [hread]
                            exact .handled hcarried (by simpa using (not_or.mp hdata).1) hsize
                              (localIpv6ForNode_count hsource)
                              (localIpv6ForNode_count hdestination)
                              forwardDataPacket_fate
      · cases h

/-- What a node makes of a packet of its TUN device: nothing, or a frame of its
own. -/
inductive TurnFate (node : DataNode) (raw : Bytes) : List DataEvent → Prop where
  | ignored : TurnFate node raw []
  | sent {data : DataPacket} (nextHop : NodeId) (hpayload : data.payload = raw)
      (httl : data.ttl = 64) (htype : data.type = .data) (hsize : raw.length < 2 ^ 32)
      (hsource : virtualAddress node.network node.id = ipv6At 8 raw) :
      TurnFate node raw [.send nextHop (dataMessage data)]

/-- What the data plane never touches. -/
def SameIdentity (before after : DataNode) : Prop :=
  after.id = before.id ∧ after.network = before.network

theorem originPacket_sent {node after : DataNode} {now : Nat} {raw : Bytes} {data : DataPacket}
    (h : originPacket node now raw = (after, some data)) :
    SameIdentity node after ∧ data.payload = raw ∧ data.ttl = 64 ∧ data.type = .data
      ∧ raw.length < 2 ^ 32 ∧ data.destination ≠ node.id
      ∧ virtualAddress node.network node.id = ipv6At 8 raw := by
  unfold originPacket at h
  split at h
  · split at h <;> cases h
  · next checked destination hvalidate =>
      obtain ⟨rfl, hcheck⟩ := validateIpv6Packet_some hvalidate
      split at h
      · cases h
      · split at h
        · cases h
        · next found hfound =>
            dsimp only at h
            split at h
            · cases h
            · next hother =>
                split at h
                · cases h
                · next hsource =>
                    obtain ⟨ports, hports⟩ :=
                      noteOutboundPort_frame (node.count .tunPacketsRead) now raw
                    rw [hports] at h
                    cases h
                    exact ⟨⟨rfl, rfl⟩, rfl, rfl, rfl, (ipv6PacketCheck_size hcheck).1, hother,
                      (not_not.mp hsource).symm⟩

theorem dataPlaneTurn_fate {node : DataNode} {answers : DataAnswers} {raw : Bytes} :
    TurnFate node raw (dataPlaneTurn node answers raw).events := by
  unfold dataPlaneTurn
  cases horigin : originPacket node answers.now raw with
  | mk after data =>
      cases data with
      | none => exact .ignored
      | some data =>
          obtain ⟨⟨hid, -⟩, hpayload, httl, htype, hsize, hother, hsource⟩ :=
            originPacket_sent horigin
          have hfate := @forwardDataPacket_fate after answers data true
          dsimp only
          generalize (forwardDataPacket after answers data true).events = events at hfate
          cases hfate with
          | stopped => exact .ignored
          | written hhere => exact absurd (hhere.symm.trans hid) hother
          | sent nextHop hthere hlive =>
              exact .sent nextHop hpayload httl htype hsize hsource

/-! ## Identities -/

section
variable {node before after : DataNode} {answers : DataAnswers} {packet : DataPacket} {raw : Bytes}

theorem SameIdentity.refl (node : DataNode) : SameIdentity node node := ⟨rfl, rfl⟩

theorem SameIdentity.trans {later : DataNode} (h : SameIdentity before after)
    (h' : SameIdentity after later) : SameIdentity before later :=
  ⟨h'.1.trans h.1, h'.2.trans h.2⟩

theorem admitPorts_identity (now : Nat) (payload : Bytes) :
    SameIdentity node (admitPorts node now payload).2 := by
  unfold admitPorts
  dsimp only
  split
  · exact .refl node
  · split
    · exact .refl node
    · split
      · split
        · exact .refl node
        · split
          · exact .refl node
          · split <;> exact .refl node
      · exact .refl node

theorem deliverLocal_identity : SameIdentity node (deliverLocal node answers packet).1 := by
  have hports := @admitPorts_identity node answers.now packet.payload
  unfold deliverLocal
  dsimp only
  split
  · exact hports
  · split <;> exact hports

theorem transmitTo_identity (origin : Bool) (nextHop : NodeId) :
    SameIdentity node (transmitTo node answers origin nextHop packet).1 := by
  unfold transmitTo
  dsimp only
  split
  · exact .refl node
  · split
    · exact .refl node
    · split <;> exact .refl node

theorem countDrop_identity (reason : String) : SameIdentity node (countDrop node reason) := by
  unfold countDrop
  split
  · exact .refl node
  · split <;> exact .refl node

theorem forwardDataPacket_identity (origin : Bool) :
    SameIdentity node (forwardDataPacket node answers packet origin).node := by
  unfold forwardDataPacket
  dsimp only
  split
  · exact deliverLocal_identity
  · exact transmitTo_identity origin _
  · exact countDrop_identity _

theorem validateIpv6Packet_identity (node : DataNode) (raw : Bytes) :
    SameIdentity node (validateIpv6Packet node raw).1 := by
  unfold validateIpv6Packet
  split <;> exact .refl node

theorem receiveData_identity {trusted : Bool} {bytes : Bytes} {result : DataResult}
    (h : receiveData node answers trusted bytes = some result) : SameIdentity node result.node := by
  unfold receiveData at h
  split at h
  · cases h
  · next wire hdecode =>
      split at h
      · cases h
        unfold handleDataMessage
        split
        · exact .refl node
        · next packet hread =>
            split
            · exact .refl node
            · have hcounted : SameIdentity node (node.count .dataMessagesReceived) := .refl node
              have hchecked := hcounted.trans (validateIpv6Packet_identity _ packet.payload)
              split
              · next after hvalidate =>
                  rw [hvalidate] at hchecked
                  exact hchecked
              · next after destination hvalidate =>
                  rw [hvalidate] at hchecked
                  split
                  · exact hchecked
                  · split
                    · exact hchecked
                    · exact hchecked.trans (forwardDataPacket_identity false)
      · cases h

theorem originPacket_identity (now : Nat) : SameIdentity node (originPacket node now raw).1 := by
  have hcounted : SameIdentity node (node.count .tunPacketsRead) := .refl node
  have hchecked := hcounted.trans (validateIpv6Packet_identity _ raw)
  unfold originPacket
  split
  · next after hvalidate =>
      rw [hvalidate] at hchecked
      split <;> exact hchecked
  · next after destination hvalidate =>
      rw [hvalidate] at hchecked
      split
      · exact hchecked
      · split
        · exact hchecked
        · split
          · exact hchecked
          · split
            · exact hchecked
            · obtain ⟨ports, hports⟩ := noteOutboundPort_frame after now raw
              dsimp only
              rw [hports]
              exact hchecked

theorem dataPlaneTurn_identity : SameIdentity node (dataPlaneTurn node answers raw).node := by
  have horigin := @originPacket_identity node raw answers.now
  unfold dataPlaneTurn
  split
  · next after hnone =>
      rw [hnone] at horigin
      exact horigin
  · next after data hsome =>
      rw [hsome] at horigin
      exact horigin.trans (forwardDataPacket_identity true)

end

/-! ## The network -/

/-- The nodes, the frames under way with their receivers, and what has been
read from the TUN devices, written to them and sent, at which node. -/
structure DataNetwork where
  node : NodeId → DataNode
  flying : List (NodeId × Bytes)
  reads : List (NodeId × Bytes)
  writes : List (NodeId × Bytes)
  sends : List (NodeId × Bytes)

/-- A node reads a packet, takes a frame from a session in any order, or is
changed by its other threads; a frame may be lost. -/
inductive DataInput where
  | read (id : NodeId) (answers : DataAnswers) (packet : Bytes)
  | receive (frame : Nat) (answers : DataAnswers) (trusted : Bool)
  | lose (frame : Nat)
  | change (id : NodeId) (node : DataNode)

def DataNetwork.post (s : DataNetwork) (id : NodeId) : DataEvent → DataNetwork
  | .tunWrite packet => { s with writes := s.writes ++ [(id, packet)] }
  | .send nextHop wire =>
      match messageEncode wire with
      | .error _ => s
      | .ok bytes =>
          { s with flying := s.flying ++ [(nextHop, bytes)], sends := s.sends ++ [(id, bytes)] }

/-- The node after its turn, and what it has written and sent. -/
def DataNetwork.after (s : DataNetwork) (id : NodeId) (result : DataResult) : DataNetwork :=
  result.events.foldl (fun s event => s.post id event)
    { s with node := Function.update s.node id result.node }

/-- The other threads change tables, sessions and settings, but not who a node
is. -/
def dataStep (s : DataNetwork) : DataInput → DataNetwork
  | .read id answers packet =>
      { s with reads := s.reads ++ [(id, packet)] }.after id
        (dataPlaneTurn (s.node id) answers packet)
  | .receive frame answers trusted =>
      match s.flying[frame]? with
      | none => s
      | some (id, bytes) =>
          match receiveData (s.node id) answers trusted bytes with
          | none => { s with flying := s.flying.eraseIdx frame }
          | some result => { s with flying := s.flying.eraseIdx frame }.after id result
  | .lose frame => { s with flying := s.flying.eraseIdx frame }
  | .change id node =>
      { s with
        node := Function.update s.node id
          { node with id := (s.node id).id, network := (s.node id).network } }

/-- The nodes of one network, before anything is read. -/
def startTraffic (network : IPv6) (node : NodeId → DataNode) : DataNetwork where
  node id := { node id with id := id, network := network }
  flying := []
  reads := []
  writes := []
  sends := []

/-! ## Accounts -/

section
variable (network : IPv6) (packet : Bytes)

/-- A frame carries a copy of the packet. -/
def holds (frame : NodeId × Bytes) : Bool :=
  (carried frame.2).any fun data => data.payload = packet

/-- How often a frame may still make a node send the packet. -/
def hopsLeft (frame : NodeId × Bytes) : Nat :=
  ((carried frame.2).filter fun data => data.payload = packet).elim 0 fun data =>
    data.ttl.toNat - 1

/-- The packet was read by the node whose address is its source. -/
def isOwnRead (entry : NodeId × Bytes) : Bool :=
  virtualAddress network entry.1 = ipv6At 8 packet ∧ entry.2 = packet

def readsOf (s : DataNetwork) : Nat :=
  s.reads.countP (isOwnRead network packet)

def writesOf (s : DataNetwork) : Nat :=
  s.writes.countP fun entry => entry.2 = packet

def sendsOf (s : DataNetwork) : Nat :=
  s.sends.countP (holds packet)

def copiesOf (s : DataNetwork) : Nat :=
  s.flying.countP (holds packet)

def hopsOf (s : DataNetwork) : Nat :=
  (s.flying.map (hopsLeft packet)).sum

/-- Every copy under way and every copy written was read once, and what a copy
has been sent it has paid for with its hops. -/
structure Balanced (s : DataNetwork) : Prop where
  copies : copiesOf packet s + writesOf packet s ≤ readsOf network packet s
  hops : sendsOf packet s + hopsOf packet s ≤ 64 * readsOf network packet s

end

/-- Each node is who it is, and what is written is written at its destination. -/
structure WellAddressed (network : IPv6) (s : DataNetwork) : Prop where
  nodes : ∀ id, (s.node id).id = id ∧ (s.node id).network = network
  written : ∀ entry ∈ s.writes, virtualAddress network entry.1 = ipv6At 24 entry.2

/-- What a step does to the frames and the logs. -/
inductive Moves (network : IPv6) (s s' : DataNetwork) : Prop where
  | quiet (hflying : s'.flying.Sublist s.flying) (hreads : s.reads.Sublist s'.reads)
      (hwrites : s'.writes = s.writes) (hsends : s'.sends = s.sends)
  | sent {id nextHop : NodeId} {bytes : Bytes} {data : DataPacket}
      (hcarried : carried bytes = some data) (httl : data.ttl = 64)
      (hsource : virtualAddress network id = ipv6At 8 data.payload)
      (hflying : s'.flying = s.flying ++ [(nextHop, bytes)])
      (hreads : s'.reads = s.reads ++ [(id, data.payload)]) (hwrites : s'.writes = s.writes)
      (hsends : s'.sends = s.sends ++ [(id, bytes)])
  | relayed {id nextHop : NodeId} {before after : Bytes} {data : DataPacket}
      {rest : List (NodeId × Bytes)} (hbefore : carried before = some data) (hlive : 1 < data.ttl)
      (hafter : carried after = some { data with ttl := data.ttl - 1 })
      (hperm : s.flying.Perm ((id, before) :: rest))
      (hflying : s'.flying = rest ++ [(nextHop, after)]) (hreads : s'.reads = s.reads)
      (hwrites : s'.writes = s.writes) (hsends : s'.sends = s.sends ++ [(id, after)])
  | delivered {id : NodeId} {bytes : Bytes} {data : DataPacket} {rest : List (NodeId × Bytes)}
      (hcarried : carried bytes = some data)
      (hhere : virtualAddress network id = ipv6At 24 data.payload)
      (hperm : s.flying.Perm ((id, bytes) :: rest)) (hflying : s'.flying = rest)
      (hreads : s'.reads = s.reads) (hwrites : s'.writes = s.writes ++ [(id, data.payload)])
      (hsends : s'.sends = s.sends)

section
variable {network : IPv6} {packet : Bytes} {s s' : DataNetwork}

theorem perm_eraseIdx {α : Type} {xs : List α} {i : Nat} {x : α} (h : xs[i]? = some x) :
    xs.Perm (x :: xs.eraseIdx i) := by
  obtain ⟨hlt, rfl⟩ := List.getElem?_eq_some_iff.mp h
  exact (List.getElem_cons_eraseIdx_perm hlt).symm

theorem dataStep_moves (h : WellAddressed network s) (input : DataInput) :
    Moves network s (dataStep s input) := by
  cases input with
  | read id answers raw =>
      obtain ⟨hid, hnetwork⟩ := h.nodes id
      have hfate := @dataPlaneTurn_fate (s.node id) answers raw
      unfold dataStep DataNetwork.after
      dsimp only
      generalize (dataPlaneTurn (s.node id) answers raw).node = node
      generalize (dataPlaneTurn (s.node id) answers raw).events = events at hfate
      cases hfate with
      | ignored =>
          exact .quiet (.refl _) (List.sublist_append_left ..) rfl rfl
      | @sent data nextHop hpayload httl htype hsize hsource =>
          subst hpayload
          rw [hid, hnetwork] at hsource
          rw [List.foldl_cons, List.foldl_nil, DataNetwork.post]
          cases hencode : messageEncode (dataMessage data) with
          | error e => exact .quiet (.refl _) (List.sublist_append_left ..) rfl rfl
          | ok bytes =>
              have hcarried := carried_encode (by rw [htype]; decide) hsize hencode
              exact .sent hcarried httl hsource rfl rfl rfl rfl
  | receive frame answers trusted =>
      unfold dataStep
      dsimp only
      cases hframe : s.flying[frame]? with
      | none => exact .quiet (.refl _) (.refl _) rfl rfl
      | some found =>
          obtain ⟨id, bytes⟩ := found
          have hperm := perm_eraseIdx hframe
          obtain ⟨hid, hnetwork⟩ := h.nodes id
          dsimp only
          cases hreceive : receiveData (s.node id) answers trusted bytes with
          | none => exact .quiet (List.eraseIdx_sublist ..) (.refl _) rfl rfl
          | some result =>
              have hfate := receiveData_fate hreceive
              unfold DataNetwork.after
              dsimp only
              generalize result.events = events at hfate
              cases hfate with
              | ignored => exact .quiet (List.eraseIdx_sublist ..) (.refl _) rfl rfl
              | @handled packet _ hcarried htype hsize hsource hdestination hfate =>
                  rw [hnetwork] at hdestination
                  cases hfate with
                  | stopped => exact .quiet (List.eraseIdx_sublist ..) (.refl _) rfl rfl
                  | written hhere =>
                      have hself : id = packet.destination := hid.symm.trans hhere
                      rw [← hself] at hdestination
                      exact .delivered hcarried hdestination hperm rfl rfl rfl rfl
                  | sent nextHop hthere hlive =>
                      rw [List.foldl_cons, List.foldl_nil, DataNetwork.post]
                      cases hencode : messageEncode (dataMessage (leaving false packet)) with
                      | error e => exact .quiet (List.eraseIdx_sublist ..) (.refl _) rfl rfl
                      | ok after =>
                          have hafter := @carried_encode (leaving false packet) _
                            (by show packet.type ≠ _; rw [htype]; decide) hsize hencode
                          exact .relayed hcarried (hlive rfl) hafter hperm rfl rfl rfl rfl
  | lose frame => exact .quiet (List.eraseIdx_sublist ..) (.refl _) rfl rfl
  | change id node => exact .quiet (.refl _) (.refl _) rfl rfl

/-! ## What holds in every run -/

theorem holds_of_carried {entry : NodeId × Bytes} {data : DataPacket}
    (h : carried entry.2 = some data) : holds packet entry = decide (data.payload = packet) := by
  rw [holds, h]
  rfl

theorem hopsLeft_of_carried {entry : NodeId × Bytes} {data : DataPacket}
    (h : carried entry.2 = some data) :
    hopsLeft packet entry = if data.payload = packet then data.ttl.toNat - 1 else 0 := by
  rw [hopsLeft, h]
  by_cases hsame : data.payload = packet
  · simp [Option.filter, hsame]
  · simp [Option.filter, hsame]

theorem isOwnRead_of_source {id : NodeId} {raw : Bytes}
    (h : virtualAddress network id = ipv6At 8 raw) :
    isOwnRead network packet (id, raw) = decide (raw = packet) := by
  unfold isOwnRead
  by_cases hsame : raw = packet
  · subst hsame
    simp [h]
  · simp [hsame]

theorem Balanced.moves (h : Balanced network packet s) (hmoves : Moves network s s') :
    Balanced network packet s' := by
  obtain ⟨hcopies, hhops⟩ := h
  cases hmoves with
  | quiet hflying hreads hwrites hsends =>
      have hfewer := hflying.countP_le (p := holds packet)
      have hless := (hflying.map (hopsLeft packet)).sum_le_sum fun _ _ => Nat.zero_le _
      have hmore := hreads.countP_le
        (p := isOwnRead network packet)
      constructor
      · unfold copiesOf writesOf readsOf at *
        rw [hwrites]
        omega
      · unfold sendsOf hopsOf readsOf at *
        rw [hsends]
        omega
  | @sent id nextHop bytes data hcarried httl hsource hflying hreads hwrites hsends =>
      have hholds := fun id => @holds_of_carried packet (id, bytes) data hcarried
      have hleft := @hopsLeft_of_carried packet (nextHop, bytes) data hcarried
      have hown := @isOwnRead_of_source network packet id data.payload hsource
      rw [httl] at hleft
      unfold copiesOf writesOf readsOf at hcopies
      unfold sendsOf hopsOf readsOf at hhops
      constructor
      · unfold copiesOf writesOf readsOf
        rw [hflying, hwrites, hreads]
        simp only [List.countP_append, List.countP_singleton, hholds, hown]
        omega
      · unfold sendsOf hopsOf readsOf
        rw [hflying, hsends, hreads]
        simp only [List.countP_append, List.countP_singleton, List.map_append, List.map_singleton,
          List.sum_append, List.sum_singleton, hholds, hown, hleft, decide_eq_true_eq]
        split
        · rw [show (64 : UInt8).toNat = 64 from rfl]
          omega
        · omega
  | @relayed id nextHop before after data rest hbefore hlive hafter hperm hflying hreads hwrites hsends =>
      -- the hop that the frame is sent is taken from those it had left
      have hpred := toNat_pred hlive
      have hpos : 1 < data.ttl.toNat := UInt8.lt_iff_toNat_lt.mp hlive
      have hbeforeHolds := @holds_of_carried packet (id, before) data hbefore
      have hbeforeLeft := @hopsLeft_of_carried packet (id, before) data hbefore
      have hafterHolds := fun id => @holds_of_carried packet (id, after) _ hafter
      have hafterLeft := @hopsLeft_of_carried packet (nextHop, after) _ hafter
      unfold copiesOf writesOf readsOf at hcopies
      unfold sendsOf hopsOf readsOf at hhops
      rw [hperm.countP_eq, List.countP_cons, hbeforeHolds] at hcopies
      rw [(hperm.map _).sum_eq, List.map_cons, List.sum_cons, hbeforeLeft] at hhops
      constructor
      · unfold copiesOf writesOf readsOf
        rw [hflying, hwrites, hreads]
        simp only [List.countP_append, List.countP_singleton, hafterHolds]
        exact hcopies
      · unfold sendsOf hopsOf readsOf
        rw [hflying, hsends, hreads]
        simp only [List.countP_append, List.countP_singleton, List.map_append, List.map_singleton,
          List.sum_append, List.sum_singleton, hafterHolds, hafterLeft, decide_eq_true_eq]
        split at hhops
        · next hsame =>
            rw [if_pos hsame, if_pos hsame]
            omega
        · next hsame =>
            rw [if_neg hsame, if_neg hsame]
            omega
  | @delivered id bytes data rest hcarried hhere hperm hflying hreads hwrites hsends =>
      have hholds := @holds_of_carried packet (id, bytes) data hcarried
      unfold copiesOf writesOf readsOf at hcopies
      unfold sendsOf hopsOf readsOf at hhops
      rw [hperm.countP_eq, List.countP_cons, hholds] at hcopies
      rw [(hperm.map _).sum_eq, List.map_cons, List.sum_cons] at hhops
      constructor
      · unfold copiesOf writesOf readsOf
        rw [hflying, hwrites, hreads]
        simp only [List.countP_append, List.countP_singleton]
        omega
      · unfold sendsOf hopsOf readsOf
        rw [hflying, hsends, hreads]
        omega

theorem post_node (id : NodeId) (event : DataEvent) : (s.post id event).node = s.node := by
  unfold DataNetwork.post
  split
  · rfl
  · split <;> rfl

theorem after_node (id : NodeId) (result : DataResult) :
    (s.after id result).node = Function.update s.node id result.node := by
  have hposts : ∀ (events : List DataEvent) (s : DataNetwork),
      (events.foldl (fun s event => s.post id event) s).node = s.node := by
    intro events
    induction events with
    | nil => exact fun _ => rfl
    | cons event events ih => exact fun s => (ih _).trans (post_node id event)
  exact hposts _ _

/-- A node keeps its name and its network through its own turns. -/
theorem WellAddressed.update (h : WellAddressed network s) {id : NodeId} {node : DataNode}
    (hsame : SameIdentity (s.node id) node) (other : NodeId) :
    (Function.update s.node id node other).id = other
      ∧ (Function.update s.node id node other).network = network := by
  by_cases hother : other = id
  · subst hother
    rw [Function.update_self, hsame.1, hsame.2]
    exact h.nodes other
  · rw [Function.update_of_ne hother]
    exact h.nodes other

theorem WellAddressed.step (h : WellAddressed network s) (input : DataInput) :
    WellAddressed network (dataStep s input) where
  nodes := by
    cases input with
    | read id answers raw =>
        unfold dataStep
        rw [after_node]
        exact h.update dataPlaneTurn_identity
    | receive frame answers trusted =>
        unfold dataStep
        dsimp only
        split
        · exact h.nodes
        · next id bytes hframe =>
            split
            · exact h.nodes
            · next result hreceive =>
                rw [after_node]
                exact h.update (receiveData_identity hreceive)
    | lose frame => exact h.nodes
    | change id node =>
        unfold dataStep
        exact h.update ⟨rfl, rfl⟩
  written := by
    cases dataStep_moves h input with
    | quiet _ _ hwrites _ =>
        rw [hwrites]
        exact h.written
    | sent _ _ _ _ _ hwrites _ =>
        rw [hwrites]
        exact h.written
    | relayed _ _ _ _ _ _ hwrites _ =>
        rw [hwrites]
        exact h.written
    | delivered _ hhere _ _ _ hwrites _ =>
        rw [hwrites]
        intro entry hentry
        rcases List.mem_append.mp hentry with hentry | hentry
        · exact h.written entry hentry
        · rw [List.mem_singleton.mp hentry]
          exact hhere

/-- In every run of the network, whatever its tables hold and however they
change, and whatever is lost or overtakes: a packet is written to TUN devices
at most as often as the node whose address is its source has read it, byte for
byte, and only at the node whose address is its destination; and it is sent at
most 64 times for each time it was read. -/
theorem traffic_conserved (network : IPv6) (node : NodeId → DataNode) (inputs : List DataInput)
    (packet : Bytes) :
    writesOf packet (Run.final dataStep (startTraffic network node) inputs)
        ≤ readsOf network packet (Run.final dataStep (startTraffic network node) inputs)
      ∧ sendsOf packet (Run.final dataStep (startTraffic network node) inputs)
        ≤ 64 * readsOf network packet (Run.final dataStep (startTraffic network node) inputs)
      ∧ ∀ entry ∈ (Run.final dataStep (startTraffic network node) inputs).writes,
        virtualAddress network entry.1 = ipv6At 24 entry.2 := by
  have hstart : WellAddressed network (startTraffic network node)
      ∧ Balanced network packet (startTraffic network node) :=
    ⟨⟨fun _ => ⟨rfl, rfl⟩, by simp [startTraffic]⟩, ⟨le_rfl, le_rfl⟩⟩
  have hrun := Run.throughout_of_step
    (fun s input (h : WellAddressed network s ∧ Balanced network packet s) =>
      ⟨h.1.step input, h.2.moves (dataStep_moves h.1 input)⟩) hstart inputs
  obtain ⟨haddressed, hcopies, hhops⟩ := hrun.final
  exact ⟨by omega, by omega, haddressed.written⟩

end

end Madoka

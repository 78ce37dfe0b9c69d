import Madoka.Daemon.Traffic
import Madoka.Lib.IdleWindow

/-!
# Port Window

Which packets the port filter of a node lets through over a whole run
(`active_outbound_ports` in `forward_data_packet` and `data_plane_loop` of
`core/daemon.cpp`): to a port that is not shared, the answers to what the node
itself has sent from it, for as long as no pause is over the window.
-/

namespace Madoka

open Octets IdleWindow

abbrev OutboundPorts := AList fun _ : UInt16 => Nat

/-! ## Runs -/

/-- A packet that comes in, with all that the node holds then but its port
table. -/
structure PortStep where
  around : DataNode
  answers : DataAnswers
  packet : Bytes ⊕ Message

def DataNode.withPorts (node : DataNode) (ports : OutboundPorts) : DataNode :=
  { node with activeOutboundPorts := ports }

/-- A packet of the TUN device or a Data message of a peer. -/
def PortStep.take (s : PortStep) (ports : OutboundPorts) : DataResult :=
  match s.packet with
  | .inl raw => dataPlaneTurn (s.around.withPorts ports) s.answers raw
  | .inr wire => handleDataMessage (s.around.withPorts ports) s.answers wire

def portsAfter (steps : List PortStep) (ports : OutboundPorts) : OutboundPorts :=
  steps.foldl (fun ports s => (s.take ports).node.activeOutboundPorts) ports

/-! ## What the packets alone say -/

/-- The port whose table entry decides on a packet: it is not shared, and the
packet is not one that is let through, or refused, whatever the table says. -/
def closedPort (node : DataNode) (payload : Bytes) : Option UInt16 :=
  let trans := parseIpv6Transport payload
  if node.shareAllPorts ∨ trans.protocol = 58 ∨ !trans.validPorts ∨ isPortShared node trans.dstPort
  then none
  else some trans.dstPort

/-- The packet of a well-formed Data message for this node itself. -/
def packetForNode (node : DataNode) (wire : Message) : Option DataPacket :=
  (deserializePacket wire.payload).toOption.filter fun packet =>
    packet.type = .data ∧ packet.requiresAck = false ∧ packet.destination = node.id
      ∧ (ipv6PacketCheck node packet.payload).toOption
        = some (virtualAddress node.network packet.destination)
      ∧ ipv6At 8 packet.payload = virtualAddress node.network packet.source

/-- The source port of a packet that the data plane takes from the TUN device to
send on. The port is noted before the packet is routed, so also when the packet
is then dropped for want of a route or because the session cannot send. -/
def openedPort (node : DataNode) (now : Nat) (raw : Bytes) : Option UInt16 :=
  (originPacket node now raw).2.bind fun _ =>
    if (parseIpv6Transport raw).validPorts then some (parseIpv6Transport raw).srcPort else none

/-- A packet for the node that only the table can let through, and its port. -/
def PortStep.asks (s : PortStep) : Option (DataPacket × UInt16) :=
  match s.packet with
  | .inl _ => none
  | .inr wire =>
      (packetForNode s.around wire).bind fun packet =>
        (closedPort s.around packet.payload).map fun port => (packet, port)

def PortStep.use (s : PortStep) : Option (Use UInt16) :=
  match s.packet with
  | .inl raw => (openedPort s.around s.answers.now raw).map fun port => .opens port s.answers.now
  | .inr _ => s.asks.map fun asked => .asks asked.2 s.answers.now

/-- The uses of ports in a run, the latest first. -/
def portUses (steps : List PortStep) : List (Use UInt16) :=
  (steps.filterMap PortStep.use).reverse

/-! ## The table -/

section
variable {ports : OutboundPorts} {port : UInt16} {now : Nat}

theorem lookup_insert_eq (ports : OutboundPorts) (port : UInt16) (now : Nat) :
    (ports.insert port now).lookup = Function.update ports.lookup port (some now) := by
  ext other : 1
  by_cases h : other = port
  · subst h
    simp
  · rw [AList.lookup_insert_ne h, Function.update_of_ne h]

theorem recentPorts_nodup (ports : OutboundPorts) (now : Nat) :
    (ports.entries.filter fun entry => now - entry.2 ≤ outboundWindow).NodupKeys :=
  ports.nodupKeys.sublist List.filter_sublist

/-- The entries within the window. -/
def recentPorts (ports : OutboundPorts) (now : Nat) : OutboundPorts :=
  ⟨ports.entries.filter fun entry => now - entry.2 ≤ outboundWindow, recentPorts_nodup ports now⟩

theorem recentPorts_lookup (ports : OutboundPorts) (now : Nat) (port : UInt16) :
    (recentPorts ports now).lookup port = ports.lookup port
      ∨ (recentPorts ports now).lookup port = none
        ∧ ¬ Fresh outboundWindow ports.lookup port now := by
  have hmem : ∀ used, (recentPorts ports now).lookup port = some used
      ↔ ports.lookup port = some used ∧ now - used ≤ outboundWindow := by
    intro used
    show used ∈ (recentPorts ports now).lookup port ↔ used ∈ ports.lookup port ∧ _
    rw [AList.mem_lookup_iff, AList.mem_lookup_iff, recentPorts, List.mem_filter]
    simp
  by_cases hfresh : Fresh outboundWindow ports.lookup port now
  · obtain ⟨used, hused, hnow⟩ := hfresh
    exact .inl (((hmem used).mpr ⟨hused, by omega⟩).trans hused.symm)
  · refine .inr ⟨Option.eq_none_iff_forall_ne_some.mpr fun used hused => ?_, hfresh⟩
    obtain ⟨hold, hnow⟩ := (hmem used).mp hused
    exact hfresh ⟨used, hold, by omega⟩

/-- The table once a packet has left from a port. -/
def notedPorts (ports : OutboundPorts) (port : UInt16) (now : Nat) : OutboundPorts :=
  if (ports.insert port now).entries.length > 512 then recentPorts (ports.insert port now) now
  else ports.insert port now

theorem notedPorts_tracks {uses : List (Use UInt16)} {since : Nat}
    (h : Tracks outboundWindow ports.lookup uses since) (hnow : since ≤ now) (port : UInt16) :
    Tracks outboundWindow (notedPorts ports port now).lookup (.opens port now :: uses) now := by
  have hopened := h.opens hnow port
  rw [← lookup_insert_eq] at hopened
  unfold notedPorts
  split
  · exact hopened.forget (recentPorts_lookup _ now)
  · exact hopened

end

/-! ## What the table decides -/

section
variable {node : DataNode} {answers : DataAnswers} {packet : DataPacket} {port : UInt16}
  {wire : Message} {raw : Bytes} {ports : OutboundPorts}

def DataResult.withPorts (result : DataResult) (ports : OutboundPorts) : DataResult :=
  { result with node := result.node.withPorts ports }

theorem noteOutboundPort_ports (now : Nat) :
    noteOutboundPort (node.withPorts ports) now raw
      = node.withPorts (if (parseIpv6Transport raw).validPorts then
          notedPorts ports (parseIpv6Transport raw).srcPort now else ports) := by
  unfold noteOutboundPort
  dsimp only
  split
  · rfl
  · rfl

theorem transmitTo_ports (origin : Bool) (nextHop : NodeId) :
    transmitTo (node.withPorts ports) answers origin nextHop packet
      = ((transmitTo node answers origin nextHop packet).1.withPorts ports,
          (transmitTo node answers origin nextHop packet).2) := by
  have hsession : findSessionByNextHop (node.withPorts ports) answers.now nextHop
      = findSessionByNextHop node answers.now nextHop := rfl
  unfold transmitTo
  rw [hsession]
  split
  · rfl
  · dsimp only
    split
    · rfl
    · cases origin <;> rfl

theorem countDrop_ports (reason : String) :
    countDrop (node.withPorts ports) reason = (countDrop node reason).withPorts ports := by
  unfold countDrop
  split
  · rfl
  · split <;> rfl

theorem forwardImpl_elsewhere {state : ForwardingState} (h : state.localId ≠ some packet.destination)
    (decrement : Bool) (delivered : DataPacket) :
    (forwardImpl state packet decrement).effect ≠ .deliver delivered := by
  rw [forwardImpl, if_neg h]
  intro hdeliver
  split at hdeliver
  · cases hdeliver
  · rcases forwardRoute_effect state
      (if decrement then { packet with ttl := packet.ttl - 1 } else packet) with
      ⟨reason, hdrop⟩ | ⟨nextHop, htransmit⟩
    · rw [hdrop] at hdeliver
      cases hdeliver
    · rw [htransmit] at hdeliver
      cases hdeliver

/-- A packet for another node is forwarded, or dropped, without a look at the
table. -/
theorem forwardDataPacket_ports (origin : Bool) (h : packet.destination ≠ node.id) :
    forwardDataPacket (node.withPorts ports) answers packet origin
      = (forwardDataPacket node answers packet origin).withPorts ports := by
  have helsewhere : (forwardingInit (routeSnapshot node packet) (some node.id)).localId
      ≠ some packet.destination := fun hid => h (Option.some.inj hid).symm
  have hsnapshot : forwardingInit (routeSnapshot (node.withPorts ports) packet)
      (some (node.withPorts ports).id) = forwardingInit (routeSnapshot node packet) (some node.id) :=
    rfl
  have hdelivered : ∀ delivered,
      (if origin then
          forwardingForwardOrigin (forwardingInit (routeSnapshot node packet) (some node.id)) packet
        else forwardingForward (forwardingInit (routeSnapshot node packet) (some node.id))
          packet).effect ≠ .deliver delivered := by
    cases origin with
    | true => exact forwardImpl_elsewhere helsewhere false
    | false => exact forwardImpl_elsewhere helsewhere true
  unfold forwardDataPacket
  rw [hsnapshot]
  dsimp only
  generalize (if origin then _ else _ : ForwardResult) = result at hdelivered
  cases heffect : result.effect with
  | deliver delivered => exact absurd heffect (hdelivered delivered)
  | transmit nextHop forwarded =>
      dsimp only
      rw [transmitTo_ports]
      rfl
  | drop dropped reason =>
      dsimp only
      rw [countDrop_ports]
      rfl

theorem forwardDataPacket_here (h : packet.destination = node.id) :
    forwardDataPacket node answers packet false
      = { node := (deliverLocal node answers packet).1
          events := (deliverLocal node answers packet).2
          ok := true } := by
  have hlocal : forwardingForward (forwardingInit (routeSnapshot node packet) (some node.id)) packet
      = (forwardingInit (routeSnapshot node packet) (some node.id)).deliverLocally packet :=
    if_pos (congrArg some h.symm)
  unfold forwardDataPacket
  dsimp only
  rw [if_neg Bool.false_ne_true, hlocal]
  rfl

theorem packetForNode_some : packetForNode node wire = some packet
    ↔ deserializePacket wire.payload = .ok packet ∧ packet.type = .data
      ∧ packet.requiresAck = false ∧ packet.destination = node.id
      ∧ ipv6PacketCheck node packet.payload = .ok (virtualAddress node.network packet.destination)
      ∧ ipv6At 8 packet.payload = virtualAddress node.network packet.source := by
  have hok : ∀ {ε α : Type} {e : Except ε α} {a : α}, e.toOption = some a ↔ e = .ok a := by
    intro ε α e a
    cases e <;> simp [Except.toOption]
  rw [packetForNode, Option.filter_eq_some_iff, hok, decide_eq_true_iff, hok]

/-- What a Data message does that is not a packet for the node itself. -/
theorem handleDataMessage_elsewhere (h : packetForNode node wire = none) :
    handleDataMessage (node.withPorts ports) answers wire
      = (handleDataMessage node answers wire).withPorts ports := by
  unfold handleDataMessage
  cases hread : deserializePacket wire.payload with
  | error e => rfl
  | ok packet =>
      dsimp only
      split
      · rfl
      · next hdata =>
          have hcheck : ipv6PacketCheck ((node.withPorts ports).count .dataMessagesReceived)
              packet.payload = ipv6PacketCheck node packet.payload := rfl
          have hcheck' : ipv6PacketCheck (node.count .dataMessagesReceived) packet.payload
              = ipv6PacketCheck node packet.payload := rfl
          rw [validateIpv6Packet, validateIpv6Packet, hcheck, hcheck']
          cases hresult : ipv6PacketCheck node packet.payload with
          | error counter => rfl
          | ok destination =>
              dsimp only
              have haddress : ∀ id address,
                  localIpv6ForNode ((node.withPorts ports).count .dataMessagesReceived) id address
                    = localIpv6ForNode (node.count .dataMessagesReceived) id address :=
                fun _ _ => rfl
              rw [haddress, haddress]
              split
              · rfl
              · next hdestination =>
                  split
                  · rfl
                  · next hsource =>
                      have hother : packet.destination ≠ (node.count .dataMessagesReceived).id := by
                        intro hhere
                        have hsome : packetForNode node wire = some packet :=
                          packetForNode_some.mpr ⟨hread, not_not.mp (not_or.mp hdata).1,
                            Bool.eq_false_iff.mpr (not_or.mp hdata).2, hhere,
                            localIpv6ForNode_count hdestination ▸ hresult,
                            (localIpv6ForNode_count hsource).symm⟩
                        rw [h] at hsome
                        cases hsome
                      have hforward : forwardDataPacket
                          ((node.withPorts ports).count .dataMessagesReceived) answers packet false
                          = (forwardDataPacket (node.count .dataMessagesReceived) answers packet
                            false).withPorts ports := forwardDataPacket_ports false hother
                      rw [hforward]
                      rfl

theorem handleDataMessage_here (h : packetForNode node wire = some packet) :
    handleDataMessage (node.withPorts ports) answers wire
      = { node := (deliverLocal ((node.count .dataMessagesReceived).withPorts ports) answers
            packet).1
          events := (deliverLocal ((node.count .dataMessagesReceived).withPorts ports) answers
            packet).2
          ok := true } := by
  obtain ⟨hread, htype, hack, hhere, hcheck, hsource⟩ := packetForNode_some.mp h
  have hpassed : ipv6PacketCheck ((node.withPorts ports).count .dataMessagesReceived)
      packet.payload = .ok (virtualAddress node.network packet.destination) := hcheck
  have haddressed : localIpv6ForNode ((node.withPorts ports).count .dataMessagesReceived)
      packet.destination (virtualAddress node.network packet.destination) = true :=
    decide_eq_true rfl
  have hsent : localIpv6ForNode ((node.withPorts ports).count .dataMessagesReceived)
      packet.source (ipv6At 8 packet.payload) = true := decide_eq_true hsource.symm
  unfold handleDataMessage
  rw [hread]
  dsimp only
  rw [if_neg (by simp [htype, hack]), validateIpv6Packet, hpassed]
  dsimp only
  rw [haddressed, hsent]
  have hforward : forwardDataPacket ((node.withPorts ports).count .dataMessagesReceived) answers
      packet false = _ := forwardDataPacket_here hhere
  rw [hforward]
  rfl

theorem closedPort_some {payload : Bytes} : closedPort node payload = some port
    ↔ node.shareAllPorts = false ∧ (parseIpv6Transport payload).protocol ≠ 58
      ∧ (parseIpv6Transport payload).validPorts = true ∧ isPortShared node port = false
      ∧ (parseIpv6Transport payload).dstPort = port := by
  unfold closedPort
  dsimp only
  split
  · next hdecided =>
      constructor
      · nofun
      · rintro ⟨hall, hprotocol, hvalid, hshared, rfl⟩
        simp [hall, hprotocol, hvalid, hshared] at hdecided
  · next hclosed =>
      simp only [not_or, Bool.not_eq_true, Bool.not_eq_true', Bool.not_eq_false] at hclosed
      obtain ⟨hall, hprotocol, hvalid, hshared⟩ := hclosed
      constructor
      · intro hsome
        cases hsome
        exact ⟨hall, hprotocol, hvalid, hshared, rfl⟩
      · rintro ⟨-, -, -, -, rfl⟩
        rfl

/-- A packet that the table does not decide on leaves it alone. -/
theorem deliverLocal_decided (h : closedPort node packet.payload = none) :
    deliverLocal (node.withPorts ports) answers packet
      = ((deliverLocal node answers packet).1.withPorts ports,
          (deliverLocal node answers packet).2) := by
  have hadmits : admitPorts (node.withPorts ports) answers.now packet.payload
      = ((admitPorts node answers.now packet.payload).1, node.withPorts ports)
      ∧ (admitPorts node answers.now packet.payload).2 = node := by
    have hall : (node.withPorts ports).shareAllPorts = node.shareAllPorts := rfl
    have hshared : isPortShared (node.withPorts ports) = isPortShared node := rfl
    unfold admitPorts
    rw [hall, hshared]
    dsimp only
    split
    · exact ⟨rfl, rfl⟩
    · next hsome =>
        split
        · exact ⟨rfl, rfl⟩
        · next hprotocol =>
            split
            · next hvalid =>
                split
                · exact ⟨rfl, rfl⟩
                · next hclosed =>
                    have hport := closedPort_some.mpr ⟨Bool.eq_false_iff.mpr hsome, hprotocol,
                      hvalid, Bool.eq_false_iff.mpr hclosed, rfl⟩
                    rw [h] at hport
                    cases hport
            · exact ⟨rfl, rfl⟩
  unfold deliverLocal
  rw [hadmits.1, ← Prod.mk.eta (p := admitPorts node answers.now packet.payload), hadmits.2]
  dsimp only
  split
  · rfl
  · split <;> rfl

/-- A packet to a port that was used within the window is let through, and
keeps the port open. -/
theorem admitPorts_fresh {now : Nat} {payload : Bytes} (h : closedPort node payload = some port)
    (hfresh : Fresh outboundWindow ports.lookup port now) :
    admitPorts (node.withPorts ports) now payload
      = (true, node.withPorts (ports.insert port now)) := by
  obtain ⟨hall, hprotocol, hvalid, hshared, rfl⟩ := closedPort_some.mp h
  obtain ⟨used, hused, hnow⟩ := hfresh
  have hall' : (node.withPorts ports).shareAllPorts = false := hall
  have hshared' : isPortShared (node.withPorts ports) (parseIpv6Transport payload).dstPort = false :=
    hshared
  have hused' : (node.withPorts ports).activeOutboundPorts.lookup
      (parseIpv6Transport payload).dstPort = some used := hused
  unfold admitPorts
  dsimp only
  rw [if_neg (ne_true_of_eq_false hall'), if_neg hprotocol, if_pos hvalid,
    if_neg (ne_true_of_eq_false hshared'), hused']
  dsimp only
  rw [if_pos (by omega)]
  rfl

theorem admitPorts_stale {now : Nat} {payload : Bytes} (h : closedPort node payload = some port)
    (hstale : ¬ Fresh outboundWindow ports.lookup port now) :
    ∃ kept, admitPorts (node.withPorts ports) now payload = (false, node.withPorts kept)
      ∧ ∀ key, kept.lookup key = ports.lookup key
        ∨ kept.lookup key = none ∧ ¬ Fresh outboundWindow ports.lookup key now := by
  obtain ⟨hall, hprotocol, hvalid, hshared, rfl⟩ := closedPort_some.mp h
  have hall' : (node.withPorts ports).shareAllPorts = false := hall
  have hshared' : isPortShared (node.withPorts ports) (parseIpv6Transport payload).dstPort = false :=
    hshared
  have hports : (node.withPorts ports).activeOutboundPorts = ports := rfl
  unfold admitPorts
  dsimp only
  rw [if_neg (ne_true_of_eq_false hall'), if_neg hprotocol, if_pos hvalid,
    if_neg (ne_true_of_eq_false hshared'), hports]
  cases hused : ports.lookup (parseIpv6Transport payload).dstPort with
  | none => exact ⟨ports, rfl, fun key => .inl rfl⟩
  | some used =>
      dsimp only
      rw [if_neg (fun hnow => hstale ⟨used, hused, by omega⟩)]
      refine ⟨ports.erase (parseIpv6Transport payload).dstPort, rfl, fun key => ?_⟩
      by_cases hkey : key = (parseIpv6Transport payload).dstPort
      · subst hkey
        exact .inr ⟨AList.lookup_erase _ _, hstale⟩
      · exact .inl (AList.lookup_erase_ne hkey)

/-- A packet of the node's own opens its source port, and is then sent without
another look at the table. -/
theorem originPacket_ports (now : Nat) :
    originPacket (node.withPorts ports) now raw
      = ((originPacket node now raw).1.withPorts
          ((openedPort node now raw).elim ports fun port => notedPorts ports port now),
          (originPacket node now raw).2) := by
  have hcheck : ipv6PacketCheck ((node.withPorts ports).count .tunPacketsRead) raw
      = ipv6PacketCheck (node.count .tunPacketsRead) raw := rfl
  have hcount : (node.withPorts ports).count .tunPacketsRead
      = (node.count .tunPacketsRead).withPorts ports := rfl
  have haddress : ((node.count .tunPacketsRead).withPorts ports).address
      = (node.count .tunPacketsRead).address := rfl
  have hresolve : resolveNodeByVirtualAddress ((node.count .tunPacketsRead).withPorts ports)
      = resolveNodeByVirtualAddress (node.count .tunPacketsRead) := rfl
  have hid : ((node.count .tunPacketsRead).withPorts ports).id = (node.count .tunPacketsRead).id :=
    rfl
  unfold openedPort originPacket
  rw [validateIpv6Packet, validateIpv6Packet, hcheck, hcount]
  cases ipv6PacketCheck (node.count .tunPacketsRead) raw with
  | error counter =>
      dsimp only
      by_cases hzero : (node.count .tunPacketsRead).address = zero 16
      · have hzero' : (((node.count .tunPacketsRead).withPorts ports).count counter).address
            = zero 16 := hzero
        have hzero'' : ((node.count .tunPacketsRead).count counter).address = zero 16 := hzero
        rw [if_pos hzero', if_pos hzero'']
        rfl
      · have hzero' : (((node.count .tunPacketsRead).withPorts ports).count counter).address
            ≠ zero 16 := hzero
        have hzero'' : ((node.count .tunPacketsRead).count counter).address ≠ zero 16 := hzero
        rw [if_neg hzero', if_neg hzero'']
        rfl
  | ok destination =>
      dsimp only
      rw [haddress, hresolve]
      by_cases hown : destination = (node.count .tunPacketsRead).address
      · rw [if_pos hown, if_pos hown]
        rfl
      · rw [if_neg hown, if_neg hown]
        cases resolveNodeByVirtualAddress (node.count .tunPacketsRead) destination with
        | none => rfl
        | some destinationNode =>
            dsimp only
            rw [hid]
            by_cases hself : destinationNode = (node.count .tunPacketsRead).id
            · rw [if_pos hself, if_pos hself]
              rfl
            · rw [if_neg hself, if_neg hself]
              by_cases hsource : ipv6At 8 raw = (node.count .tunPacketsRead).address
              · rw [if_neg (not_not.mpr hsource), if_neg (not_not.mpr hsource),
                  noteOutboundPort_ports]
                obtain ⟨noted, hnoted⟩ := noteOutboundPort_frame (node.count .tunPacketsRead) now raw
                rw [hnoted]
                cases (parseIpv6Transport raw).validPorts <;> rfl
              · rw [if_pos hsource, if_pos hsource]
                rfl

theorem dataPlaneTurn_ports :
    dataPlaneTurn (node.withPorts ports) answers raw
      = (dataPlaneTurn node answers raw).withPorts
          ((openedPort node answers.now raw).elim ports fun port =>
            notedPorts ports port answers.now) := by
  unfold dataPlaneTurn
  rw [originPacket_ports]
  cases horigin : originPacket node answers.now raw with
  | mk after sent =>
      cases sent with
      | none => rfl
      | some data =>
          obtain ⟨⟨hid, -⟩, -, -, -, -, hother, -⟩ := originPacket_sent horigin
          dsimp only
          rw [forwardDataPacket_ports true (hid ▸ hother)]
          rfl

end

/-! ## Whole runs -/

section
variable {node : DataNode} {answers : DataAnswers} {packet : DataPacket} {port : UInt16}
  {ports : OutboundPorts} {uses : List (Use UInt16)} {since : Nat}

theorem deliverLocal_fresh (h : closedPort node packet.payload = some port)
    (hfresh : Fresh outboundWindow ports.lookup port answers.now) :
    (deliverLocal (node.withPorts ports) answers packet).1.activeOutboundPorts
        = ports.insert port answers.now
      ∧ (deliverLocal (node.withPorts ports) answers packet).2
        = if answers.tunWrites then [.tunWrite packet.payload] else [] := by
  unfold deliverLocal
  rw [admitPorts_fresh h hfresh]
  dsimp only
  rw [if_neg (by simp)]
  cases answers.tunWrites with
  | true => exact ⟨rfl, rfl⟩
  | false => exact ⟨rfl, rfl⟩

theorem deliverLocal_stale (h : closedPort node packet.payload = some port)
    (hstale : ¬ Fresh outboundWindow ports.lookup port answers.now) :
    (∀ key, (deliverLocal (node.withPorts ports) answers packet).1.activeOutboundPorts.lookup key
          = ports.lookup key
        ∨ (deliverLocal (node.withPorts ports) answers packet).1.activeOutboundPorts.lookup key = none
          ∧ ¬ Fresh outboundWindow ports.lookup key answers.now)
      ∧ (deliverLocal (node.withPorts ports) answers packet).2 = []
      ∧ (deliverLocal (node.withPorts ports) answers packet).1.counters .dropUnsharedPort
        = node.counters .dropUnsharedPort + 1 := by
  obtain ⟨kept, hrefused, hkept⟩ := admitPorts_stale h hstale
  have hdropped : deliverLocal (node.withPorts ports) answers packet
      = ((node.withPorts kept).count .dropUnsharedPort, []) := by
    unfold deliverLocal
    rw [hrefused]
    rfl
  rw [hdropped]
  exact ⟨hkept, rfl, by simp [DataNode.count, DataNode.withPorts]⟩

/-- One packet, as the table sees it. -/
theorem take_tracks (s : PortStep) (h : Tracks outboundWindow ports.lookup uses since)
    (hnow : since ≤ s.answers.now) :
    Tracks outboundWindow (s.take ports).node.activeOutboundPorts.lookup (s.use.toList ++ uses)
      s.answers.now := by
  obtain ⟨around, answers, packet⟩ := s
  cases packet with
  | inl raw =>
      unfold PortStep.take PortStep.use
      dsimp only
      rw [dataPlaneTurn_ports]
      cases openedPort around answers.now raw with
      | none => exact h.later hnow
      | some port => exact notedPorts_tracks h hnow port
  | inr wire =>
      unfold PortStep.take PortStep.use PortStep.asks
      dsimp only
      cases hhere : packetForNode around wire with
      | none =>
          rw [handleDataMessage_elsewhere hhere]
          exact h.later hnow
      | some packet =>
          rw [handleDataMessage_here hhere]
          dsimp only [Option.bind_some]
          cases hclosed : closedPort (around.count .dataMessagesReceived) packet.payload with
          | none =>
              have hclosed' : closedPort around packet.payload = none := hclosed
              rw [deliverLocal_decided hclosed, hclosed']
              exact h.later hnow
          | some port =>
              have hclosed' : closedPort around packet.payload = some port := hclosed
              rw [hclosed']
              by_cases hfresh : Fresh outboundWindow ports.lookup port answers.now
              · rw [(deliverLocal_fresh hclosed hfresh).1, lookup_insert_eq]
                exact h.asks_fresh hnow hfresh
              · exact (h.asks_stale hnow hfresh).forget
                  fun key => (deliverLocal_stale hclosed hfresh).1 key

theorem portsAfter_tracks {steps : List PortStep} (h : Tracks outboundWindow ports.lookup uses since)
    (hsince : ∀ s ∈ steps, since ≤ s.answers.now)
    (hclock : steps.Pairwise fun s s' => s.answers.now ≤ s'.answers.now) {until' : Nat}
    (huntil : ∀ s ∈ steps, s.answers.now ≤ until') (hlast : since ≤ until') :
    Tracks outboundWindow (portsAfter steps ports).lookup (portUses steps ++ uses) until' := by
  induction steps generalizing ports uses since with
  | nil => exact h.later hlast
  | cons s steps ih =>
      obtain ⟨hfirst, hrest⟩ := List.pairwise_cons.mp hclock
      have hstep := take_tracks s h (hsince s List.mem_cons_self)
      have huses : portUses (s :: steps) ++ uses = portUses steps ++ (s.use.toList ++ uses) := by
        unfold portUses
        rw [List.filterMap_cons]
        cases s.use <;> simp
      rw [huses]
      exact ih hstep hfirst hrest (fun s' hs => huntil s' (List.mem_cons_of_mem _ hs))
        (huntil s List.mem_cons_self)

end

/-- Over any run of packets out and in, whatever else of the node changes
between them: a packet for the node to a port that is not shared is let through
if and only if a chain of packets leads to it that begins with one the node
sent from this port and in which no pause is longer than the window, however
many ports were remembered or forgotten on the way; and nothing but such
packets depends on the port table. -/
theorem port_filter_exact (steps : List PortStep) (last : PortStep)
    (hclock : (steps ++ [last]).Pairwise fun s s' => s.answers.now ≤ s'.answers.now) :
    (∀ packet port, last.asks = some (packet, port) →
        (Kept outboundWindow port (portUses steps) last.answers.now →
          (last.take (portsAfter steps ∅)).events
            = if last.answers.tunWrites then [.tunWrite packet.payload] else [])
        ∧ (¬ Kept outboundWindow port (portUses steps) last.answers.now →
          (last.take (portsAfter steps ∅)).events = []
            ∧ (last.take (portsAfter steps ∅)).node.counters .dropUnsharedPort
              = last.around.counters .dropUnsharedPort + 1))
      ∧ (last.asks = none → ∃ ports,
        last.take (portsAfter steps ∅) = (last.take ∅).withPorts ports) := by
  rw [List.pairwise_append] at hclock
  obtain ⟨hclock, -, hlast⟩ := hclock
  have hempty : Tracks outboundWindow (∅ : OutboundPorts).lookup [] 0 := Tracks.empty 0
  have htracks := portsAfter_tracks hempty (fun _ _ => Nat.zero_le _) hclock
    (fun s hs => hlast s hs last List.mem_cons_self) (Nat.zero_le _)
  rw [List.append_nil] at htracks
  generalize portsAfter steps ∅ = ports at htracks
  obtain ⟨around, answers, arrived⟩ := last
  cases arrived with
  | inl raw =>
      refine ⟨nofun, fun _ => ⟨(openedPort around answers.now raw).elim ports fun port =>
        notedPorts ports port answers.now, ?_⟩⟩
      unfold PortStep.take
      dsimp only
      rw [dataPlaneTurn_ports, dataPlaneTurn_ports]
      rfl
  | inr wire =>
      unfold PortStep.take PortStep.asks
      dsimp only
      cases hhere : packetForNode around wire with
      | none =>
          refine ⟨nofun, fun _ => ⟨ports, ?_⟩⟩
          rw [handleDataMessage_elsewhere hhere, handleDataMessage_elsewhere hhere]
          rfl
      | some packet =>
          rw [handleDataMessage_here hhere, handleDataMessage_here hhere]
          dsimp only [Option.bind_some]
          cases hclosed : closedPort around packet.payload with
          | none =>
              have hclosed' : closedPort (around.count .dataMessagesReceived) packet.payload = none :=
                hclosed
              refine ⟨nofun, fun _ => ⟨ports, ?_⟩⟩
              rw [deliverLocal_decided hclosed', deliverLocal_decided hclosed']
              rfl
          | some port =>
              have hclosed' : closedPort (around.count .dataMessagesReceived) packet.payload
                  = some port := hclosed
              refine ⟨fun packet' port' hasked => ?_, nofun⟩
              cases hasked
              rw [← htracks.kept port answers.now le_rfl]
              refine ⟨fun hfresh => (deliverLocal_fresh hclosed' hfresh).2, fun hstale => ?_⟩
              obtain ⟨-, hnothing, hdropped⟩ := deliverLocal_stale hclosed' hstale
              refine ⟨hnothing, hdropped.trans ?_⟩
              rw [DataNode.count_other around (by decide)]

/-- A UDP packet from one node's port to another's. -/
def datagram (source destination : NodeId) (sourcePort destinationPort : UInt8) : Bytes :=
  [0x60, 0, 0, 0, 0, 8, 17, 64] ++ (virtualAddress relayNetwork source).val
    ++ (virtualAddress relayNetwork destination).val
    ++ [0, sourcePort, 0, destinationPort, 0, 8, 0, 0]

/-- The first node asks the third from port 200. -/
def requestStep : PortStep where
  around := { (relayNode 1 2).node with shareAllPorts := false }
  answers := (relayNode 1 2).answers
  packet := .inl (datagram (relayId 1) (relayId 3) 200 53)

def answerStep : PortStep where
  around := { (relayNode 1 2).node with shareAllPorts := false }
  answers := { (relayNode 1 2).answers with now := 3000000 }
  packet := .inr (dataMessage (dataPacketCreate .data (relayId 3) (relayId 1) 7 60 false 0
    (datagram (relayId 3) (relayId 1) 53 200)))

theorem port_filter_exact_answer :
    (answerStep.take (portsAfter [requestStep] ∅)).events
      = [.tunWrite (datagram (relayId 3) (relayId 1) 53 200)] := by
  have huses : portUses [requestStep] = [.opens 200 2000000] := by decide +kernel
  refine ((port_filter_exact [requestStep] answerStep (by decide)).1
    (dataPacketCreate .data (relayId 3) (relayId 1) 7 60 false 0
      (datagram (relayId 3) (relayId 1) 53 200)) 200 (by decide +kernel)).1 ?_
  rw [huses]
  exact .opened (by decide)

end Madoka

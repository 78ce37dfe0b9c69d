import Madoka.Daemon.Delivery
import Madoka.Daemon.HeaderChain
import Madoka.Lib.Tally

/-!
# Accounting

What becomes of a packet, as the counters of the data plane tell it: how
often one Data message, or one packet of the TUN device, is counted among the
outcomes.
-/

namespace Madoka

open Octets Tally

/-- The counters that say what became of a packet. -/
def Counter.isOutcome : Counter → Bool
  | .dropMalformedDataMessage | .dropOversized | .dropInvalidIpv6 | .dropWrongDestination
  | .dropUnsharedPort | .dropTransportError | .dropNextHopUnavailable | .dropNoRoute
  | .dropTtlExpired | .deliveredLocalPackets | .forwardedPackets => true
  | _ => false

/-- Exactly one outcome was counted, once. -/
def CountsOnce (before after : DataNode) : Prop :=
  OnceAmong Counter.isOutcome before.counters after.counters

/-- What was counted between two states. -/
def Counted (events : List Counter) (before after : DataNode) : Prop :=
  Tallied before.counters events after.counters

/-- The outcomes among what was counted are as many as given. -/
def Outcomes (n : Nat) (before after : DataNode) : Prop :=
  ∃ events, Counted events before after ∧ (events.filter Counter.isOutcome).length = n

section
variable {before middle after : DataNode}

theorem Outcomes.countsOnce_iff {n : Nat} (h : Outcomes n before after) :
    CountsOnce before after ↔ n = 1 := by
  obtain ⟨events, hcounted, rfl⟩ := h
  exact onceAmong_iff hcounted

theorem Outcomes.refl (node : DataNode) : Outcomes 0 node node :=
  ⟨[], Tallied.refl _, rfl⟩

theorem Outcomes.trans {m n : Nat} (h : Outcomes m before middle) (h' : Outcomes n middle after) :
    Outcomes (m + n) before after := by
  obtain ⟨events, hcounted, rfl⟩ := h
  obtain ⟨more, hmore, rfl⟩ := h'
  refine ⟨events ++ more, Tallied.trans hcounted hmore, ?_⟩
  rw [List.filter_append, List.length_append]

theorem outcomes_count (node : DataNode) (counter : Counter) :
    Outcomes (if counter.isOutcome then 1 else 0) node (node.count counter) := by
  refine ⟨[counter], Tallied.one _ _, ?_⟩
  cases h : counter.isOutcome with
  | false => simp [h]
  | true => simp [h]

theorem outcomes_of_counters_eq (h : after.counters = before.counters) :
    Outcomes 0 before after := by
  refine ⟨[], fun c => ?_, rfl⟩
  rw [h]
  rfl

/-- One more count, of an outcome or of something else. -/
theorem Outcomes.count {n : Nat} (h : Outcomes n before after) (counter : Counter) :
    Outcomes (n + if counter.isOutcome then 1 else 0) before (after.count counter) :=
  h.trans (outcomes_count after counter)

end

/-! ## Delivering, transmitting and dropping -/

theorem admitPorts_counters (node : DataNode) (now : Nat) (payload : Bytes) :
    (admitPorts node now payload).2.counters = node.counters := by
  unfold admitPorts
  dsimp only
  split_ifs
  all_goals try rfl
  split
  · rfl
  · split_ifs
    all_goals rfl

theorem outcomes_deliverLocal (node : DataNode) (answers : DataAnswers) (delivered : DataPacket) :
    Outcomes 1 node (deliverLocal node answers delivered).1 := by
  have hports := outcomes_of_counters_eq (admitPorts_counters node answers.now delivered.payload)
  unfold deliverLocal
  dsimp only
  split_ifs
  · exact hports.count .dropUnsharedPort
  · exact hports.count .dropTransportError
  · exact ((hports.count .tunPacketsWritten).count .deliveredLocalPackets).count .vnetPacketsReceived

theorem outcomes_transmitTo (node : DataNode) (answers : DataAnswers) (origin : Bool)
    (nextHop : NodeId) (forwarded : DataPacket) :
    Outcomes 1 node (transmitTo node answers origin nextHop forwarded).1 := by
  have hnode := Outcomes.refl node
  unfold transmitTo
  split
  · exact hnode.count .dropNextHopUnavailable
  · dsimp only
    split_ifs
    · exact hnode.count .dropTransportError
    · exact ((hnode.count .dataMessagesSent).count .forwardedPackets).count .vnetPacketsTransmitted
    · exact (hnode.count .dataMessagesSent).count .forwardedPackets

theorem forwardRoute_reason {state : ForwardingState} {packet dropped : DataPacket}
    {reason : String} (h : (forwardRoute state packet).effect = .drop dropped reason) :
    reason = "No route to destination" := by
  unfold forwardRoute at h
  split at h
  · cases h
    rfl
  · split_ifs at h
    · cases h
      rfl
    · cases h

/-- The engine gives one of the two reasons the drop handler knows. -/
theorem forwardImpl_reason {state : ForwardingState} {packet dropped : DataPacket}
    {decrementTtl : Bool} {reason : String}
    (h : (forwardImpl state packet decrementTtl).effect = .drop dropped reason) :
    reason = "TTL expired" ∨ reason = "No route to destination" := by
  rw [forwardImpl] at h
  split_ifs at h
  · cases h
  · cases h
    exact .inl rfl
  · exact .inr (forwardRoute_reason h)
  · exact .inr (forwardRoute_reason h)

theorem outcomes_countDrop (node : DataNode) {reason : String}
    (h : reason = "TTL expired" ∨ reason = "No route to destination") :
    Outcomes 1 node (countDrop node reason) := by
  rcases h with rfl | rfl
  · exact (Outcomes.refl node).count .dropTtlExpired
  · exact (Outcomes.refl node).count .dropNoRoute

theorem outcomes_forwardDataPacket (node : DataNode) (answers : DataAnswers) (packet : DataPacket)
    (origin : Bool) : Outcomes 1 node (forwardDataPacket node answers packet origin).node := by
  have hreason : ∀ dropped reason,
      (if origin then
          forwardingForwardOrigin (forwardingInit (routeSnapshot node packet) (some node.id)) packet
        else forwardingForward (forwardingInit (routeSnapshot node packet) (some node.id)) packet).effect
        = .drop dropped reason → reason = "TTL expired" ∨ reason = "No route to destination" := by
    intro dropped reason heffect
    cases origin with
    | true => exact forwardImpl_reason heffect
    | false => exact forwardImpl_reason heffect
  unfold forwardDataPacket
  dsimp only
  split
  · exact outcomes_deliverLocal node answers _
  · exact outcomes_transmitTo node answers origin _ _
  · rename_i heffect
    exact outcomes_countDrop node (hreason _ _ heffect)

/-! ## From a peer -/

/-- The checks of the header pass. -/
def PassesCheck (node : DataNode) (packet : Bytes) : Prop :=
  ∃ destination, ipv6PacketCheck node packet = .ok destination

theorem not_passesCheck {node : DataNode} {packet : Bytes} {counter : Counter}
    (h : ipv6PacketCheck node packet = .error counter) : ¬ PassesCheck node packet := by
  rintro ⟨destination, hpasses⟩
  rw [h] at hpasses
  cases hpasses

/-- A packet that fails them is counted by the check. -/
theorem ipv6PacketCheck_error {node : DataNode} {packet : Bytes} {counter : Counter}
    (h : ipv6PacketCheck node packet = .error counter) : counter.isOutcome = true := by
  unfold ipv6PacketCheck at h
  split_ifs at h
  all_goals cases h
  all_goals rfl

/-- A Data message whose packet fails the checks is counted twice. -/
theorem outcomes_handleDataMessage (node : DataNode) (answers : DataAnswers) {wire : Message}
    {packet : DataPacket} (hread : deserializePacket wire.payload = .ok packet)
    (htype : packet.type = .data) (hack : packet.requiresAck = false) :
    (PassesCheck node packet.payload ∧ Outcomes 1 node (handleDataMessage node answers wire).node)
      ∨ (¬ PassesCheck node packet.payload
        ∧ Outcomes 2 node (handleDataMessage node answers wire).node) := by
  have hreceived := outcomes_count node .dataMessagesReceived
  have hcheck : ipv6PacketCheck (node.count .dataMessagesReceived) packet.payload
      = ipv6PacketCheck node packet.payload := rfl
  unfold handleDataMessage
  rw [hread]
  dsimp only
  rw [if_neg (by simp [htype, hack]), validateIpv6Packet, hcheck]
  cases hresult : ipv6PacketCheck node packet.payload with
  | error counter =>
      have hfirst := hreceived.count counter
      rw [ipv6PacketCheck_error hresult] at hfirst
      exact .inr ⟨not_passesCheck hresult, hfirst.count .dropWrongDestination⟩
  | ok destination =>
      refine .inl ⟨⟨destination, hresult⟩, ?_⟩
      dsimp only
      split_ifs
      · exact hreceived.count .dropWrongDestination
      · exact hreceived.count .dropInvalidIpv6
      · exact hreceived.trans (outcomes_forwardDataPacket _ answers packet false)

theorem countsOnce_handleDataMessage_iff (node : DataNode) (answers : DataAnswers)
    (wire : Message) :
    CountsOnce node (handleDataMessage node answers wire).node
      ↔ ∀ packet, deserializePacket wire.payload = .ok packet → packet.type = .data →
        packet.requiresAck = false → PassesCheck node packet.payload := by
  have hmalformed := outcomes_count node .dropMalformedDataMessage
  cases hread : deserializePacket wire.payload with
  | error e =>
      have hnode : (handleDataMessage node answers wire).node
          = node.count .dropMalformedDataMessage := by
        unfold handleDataMessage
        rw [hread]
      rw [hnode, hmalformed.countsOnce_iff]
      exact ⟨fun _ _ h => (by cases h), fun _ => rfl⟩
  | ok packet =>
      by_cases hdata : packet.type = .data ∧ packet.requiresAck = false
      · rcases outcomes_handleDataMessage node answers hread hdata.1 hdata.2 with
          ⟨hpasses, honce⟩ | ⟨hfails, htwice⟩
        · rw [honce.countsOnce_iff]
          refine ⟨fun _ other hother _ _ => ?_, fun _ => rfl⟩
          cases hother
          exact hpasses
        · rw [htwice.countsOnce_iff]
          exact ⟨fun h => absurd h (by decide),
            fun h => absurd (h packet rfl hdata.1 hdata.2) hfails⟩
      · have hnode : (handleDataMessage node answers wire).node
            = node.count .dropMalformedDataMessage := by
          have hrefused : packet.type ≠ .data ∨ packet.requiresAck = true := by
            by_contra hboth
            rw [not_or, not_not, Bool.not_eq_true] at hboth
            exact hdata hboth
          unfold handleDataMessage
          rw [hread]
          exact congrArg DataResult.node (if_pos hrefused)
        rw [hnode, hmalformed.countsOnce_iff]
        refine ⟨fun _ other hother htype hack => ?_, fun _ => rfl⟩
        cases hother
        exact absurd ⟨htype, hack⟩ hdata

/-! ## From the TUN device -/

theorem noteOutboundPort_counters (node : DataNode) (now : Nat) (packet : Bytes) :
    (noteOutboundPort node now packet).counters = node.counters := by
  unfold noteOutboundPort
  dsimp only
  split_ifs
  all_goals rfl

/-- A packet that fails the checks is counted once more when the node's own
address is all zero. -/
theorem outcomes_originPacket_failed {node : DataNode} {raw : Bytes} {counter : Counter}
    (now : Nat) (h : ipv6PacketCheck node raw = .error counter) :
    (originPacket node now raw).2 = none
      ∧ Outcomes (if node.address = zero 16 then 2 else 1) node (originPacket node now raw).1 := by
  have hcheck : ipv6PacketCheck (node.count .tunPacketsRead) raw = .error counter := h
  have hfirst := (outcomes_count node .tunPacketsRead).count counter
  rw [ipv6PacketCheck_error h] at hfirst
  rw [originPacket, validateIpv6Packet, hcheck]
  show (if node.address = zero 16 then _ else _ : DataNode × Option DataPacket).2 = none
    ∧ Outcomes _ node (if node.address = zero 16 then _ else _ : DataNode × Option DataPacket).1
  split_ifs
  · exact ⟨rfl, hfirst.count .dropWrongDestination⟩
  · exact ⟨rfl, hfirst⟩

/-- A refused packet is counted, one that is sent is not counted yet. -/
def CountedUnlessSent (node : DataNode) (origin : DataNode × Option DataPacket) : Prop :=
  Outcomes (if origin.2.isSome then 0 else 1) node origin.1

theorem countedUnlessSent_originPacket {node : DataNode} {raw : Bytes} {destination : IPv6}
    (now : Nat) (h : ipv6PacketCheck node raw = .ok destination) :
    CountedUnlessSent node (originPacket node now raw) := by
  have hcheck : ipv6PacketCheck (node.count .tunPacketsRead) raw = .ok destination := h
  have hread := outcomes_count node .tunPacketsRead
  rw [originPacket, validateIpv6Packet, hcheck]
  dsimp only
  by_cases hown : destination = (node.count .tunPacketsRead).address
  · rw [if_pos hown]
    exact hread.count .dropWrongDestination
  · rw [if_neg hown]
    cases resolveNodeByVirtualAddress (node.count .tunPacketsRead) destination with
    | none => exact hread.count .dropNoRoute
    | some destinationNode =>
        dsimp only
        by_cases hself : destinationNode = (node.count .tunPacketsRead).id
        · rw [if_pos hself]
          exact hread.count .dropNoRoute
        · rw [if_neg hself]
          by_cases hsource : ipv6At 8 raw ≠ (node.count .tunPacketsRead).address
          · rw [if_pos hsource]
            exact hread.count .dropInvalidIpv6
          · rw [if_neg hsource]
            exact hread.trans (outcomes_of_counters_eq (noteOutboundPort_counters _ now raw))

theorem countsOnce_dataPlaneTurn_iff (node : DataNode) (answers : DataAnswers) (raw : Bytes) :
    CountsOnce node (dataPlaneTurn node answers raw).node
      ↔ ¬ (¬ PassesCheck node raw ∧ node.address = zero 16) := by
  unfold dataPlaneTurn
  cases hresult : ipv6PacketCheck node raw with
  | error counter =>
      have hfails := not_passesCheck hresult
      obtain ⟨hnone, hcounted⟩ := outcomes_originPacket_failed answers.now hresult
      rw [← Prod.mk.eta (p := originPacket node answers.now raw), hnone]
      rw [show ∀ after : DataNode, (DataResult.mk after [] true).node = after from fun _ => rfl,
        hcounted.countsOnce_iff]
      by_cases hzero : node.address = zero 16
      · simp [hzero, hfails]
      · simp [hzero]
  | ok destination =>
      have hcounted := countedUnlessSent_originPacket answers.now hresult
      have hpasses : ¬ (¬ PassesCheck node raw ∧ node.address = zero 16) :=
        fun h => h.1 ⟨destination, hresult⟩
      rw [iff_true_right hpasses]
      revert hcounted
      rcases originPacket node answers.now raw with ⟨after, _ | data⟩
      · intro hcounted
        exact (Outcomes.countsOnce_iff hcounted).mpr rfl
      · intro hcounted
        exact (Outcomes.trans hcounted
          (outcomes_forwardDataPacket after answers data true)).countsOnce_iff.mpr
          rfl

/-! ## Both ways in -/

/-- A packet is counted once exactly when its header passes the checks, or it
is refused before they are made; from the TUN device also when it fails them,
unless the node's own address is all zero. -/
theorem packetAccounting_iff (node : DataNode) (answers : DataAnswers) :
    (∀ wire, CountsOnce node (handleDataMessage node answers wire).node
      ↔ ∀ packet, deserializePacket wire.payload = .ok packet → packet.type = .data →
        packet.requiresAck = false → PassesCheck node packet.payload)
    ∧ ∀ raw, CountsOnce node (dataPlaneTurn node answers raw).node
      ↔ ¬ (¬ PassesCheck node raw ∧ node.address = zero 16) :=
  ⟨countsOnce_handleDataMessage_iff node answers, countsOnce_dataPlaneTurn_iff node answers⟩

/-- A Data message that carries no packet at all. -/
def emptyData : DataPacket :=
  dataPacketCreate .data (zero 32) (zero 32) 1 64 false 0 []

theorem handleDataMessage_counts_twice :
    ¬ ∀ (node : DataNode) (answers : DataAnswers) (wire : Message),
      CountsOnce node (handleDataMessage node answers wire).node := by
  intro hall
  have hread : deserializePacket (dataMessage emptyData).payload = .ok emptyData :=
    deserializePacket_serialize (by decide) (by decide)
  obtain ⟨destination, hpasses⟩ := (countsOnce_handleDataMessage_iff webOnlyNode
    { now := 0, tunWrites := true, sends := fun _ _ => true } (dataMessage emptyData)).mp
      (hall _ _ _) emptyData hread rfl rfl
  cases hpasses

end Madoka

import Madoka.Network.DecodeInto
import Madoka.Network.DataSerialization

/-!
# Refusals

What becomes of a value that is over a limit: whether the encoders of
`network/serialization.cpp` and `network/data_serialization.cpp` refuse it
themselves, or write bytes that their own decoder rejects.
-/

namespace Madoka

open Octets

theorem readBe_here_mod {n v : Nat} (rest : Bytes) :
    readBe n 0 (beBytes n v ++ rest) = v % 256 ^ n := by
  rw [readBe, List.drop_zero, List.take_left' (beBytes_length n v), ofBe_beBytes_mod]

/-! ## The control envelope -/

theorem serializeControlMessage_eq (message : ControlMessage) :
    serializeControlMessage message = [message.type.toByte]
      ++ (beBytes 8 message.sequenceNumber.toNat ++ (message.sender.val
      ++ (beBytes 4 message.payload.length ++ message.payload))) := by
  simp only [serializeControlMessage, List.append_assoc]

theorem controlMessageTypeOf_toByte {type : ControlMessageType} (h : type ≠ .invalid) :
    controlMessageTypeOf type.toByte = some type := by
  cases type with
  | invalid => exact absurd rfl h
  | _ => rfl

theorem readBe_serializeControlMessage (message : ControlMessage) :
    readBe 4 41 (serializeControlMessage message) = message.payload.length % 2 ^ 32 := by
  rw [serializeControlMessage_eq]
  simp (disch := omega) only [readBe_skip, readBe_skip_one, readBe_skip_be, Nat.reduceSub,
    Nat.sub_self]
  exact readBe_here_mod _

theorem deserializeControlMessage_serialize {message : ControlMessage}
    (htype : message.type ≠ .invalid) (h : message.payload.length ≤ maxPayloadLimit) :
    deserializeControlMessage (serializeControlMessage message) = .ok message := by
  have hlen := serializeControlMessage_length message
  have hlong : ¬ (serializeControlMessage message).length < controlMessageHeaderSize := by
    rw [hlen]
    omega
  have hcount : readBe 4 41 (serializeControlMessage message) = message.payload.length := by
    rw [readBe_serializeControlMessage]
    exact Nat.mod_eq_of_lt (lt_of_le_of_lt h (by decide))
  have hhead : (serializeControlMessage message).headD 0 = message.type.toByte := by
    rw [serializeControlMessage_eq]
    rfl
  have hsequence : readBe 8 1 (serializeControlMessage message)
      = message.sequenceNumber.toNat := by
    rw [serializeControlMessage_eq, readBe_skip_one _ _ (by omega)]
    exact readBe_here _ message.sequenceNumber.toNat_lt
  have hsender : readArr 32 9 (serializeControlMessage message) = message.sender := by
    rw [serializeControlMessage_eq, readArr_skip_one _ _ (by omega)]
    rw [readArr_skip ⟨beBytes 8 message.sequenceNumber.toNat, beBytes_length _ _⟩ _ (by omega)]
    exact readArr_here _ _
  have hpayload : (serializeControlMessage message).drop controlMessageHeaderSize
      = message.payload := by
    rw [serializeControlMessage_eq]
    simp (disch := omega) only [controlMessageHeaderSize, drop_skip, drop_skip_one, drop_skip_be,
      Nat.reduceAdd, Nat.reduceSub, Nat.sub_self, List.drop_zero]
  unfold deserializeControlMessage
  rw [if_neg hlong, hhead, controlMessageTypeOf_toByte htype]
  dsimp only
  rw [hcount, if_neg (not_lt.mpr h), if_neg (not_not.mpr hlen), hsequence, hsender, hpayload,
    UInt64.ofNat_toNat]

/-- A payload over the limit is written all the same, and then not read. -/
theorem controlMessage_read_iff {message : ControlMessage} (htype : message.type ≠ .invalid) :
    (deserializeControlMessage (serializeControlMessage message)).isOk = true
      ↔ message.payload.length ≤ maxPayloadLimit := by
  constructor
  · intro hok
    by_contra hlong
    have hlen := serializeControlMessage_length message
    have hcount := readBe_serializeControlMessage message
    unfold deserializeControlMessage at hok
    rw [hcount] at hok
    split at hok
    · cases hok
    · split at hok
      · cases hok
      · dsimp only at hok
        split at hok
        · cases hok
        · split at hok
          · cases hok
          · -- the declared length is within the limit only if it was cut to 32 bits
            rename_i hsize
            rw [hlen, not_not] at hsize
            have hlt := Nat.mod_lt message.payload.length (show 2 ^ 32 > 0 by decide)
            rename_i hlimit
            rw [maxPayloadLimit] at hlong hlimit
            omega
  · intro h
    rw [deserializeControlMessage_serialize htype h]
    rfl

/-! ## Data packets -/

/-- A packet is written with what the cut length says of its payload. -/
theorem serializePacket_cut (packet : DataPacket) :
    serializePacket packet
      = serializePacket
          { packet with payload := packet.payload.take (packet.payload.length % 2 ^ 32) } := by
  have hle : packet.payload.length % 2 ^ 32 ≤ packet.payload.length := Nat.mod_le _ _
  have hlength : (packet.payload.take (packet.payload.length % 2 ^ 32)).length
      = packet.payload.length % 2 ^ 32 := by
    rw [List.length_take, Nat.min_eq_left hle]
  simp only [serializePacket, hlength, Nat.mod_mod, List.take_take, Nat.min_self]

theorem readBe_serializePacket (packet : DataPacket) :
    readBe 4 79 (serializePacket packet) = packet.payload.length % 2 ^ 32 := by
  simp only [serializePacket, List.append_assoc]
  simp (disch := omega) only [readBe_skip, readBe_skip_one, readBe_skip_be, Nat.reduceSub,
    Nat.sub_self]
  rw [readBe_here_mod]
  exact Nat.mod_mod _ _

theorem packet_read_iff {packet : DataPacket} (htype : packet.type ≠ .invalid) :
    (deserializePacket (serializePacket packet)).isOk = true
      ↔ packet.payload.length % 2 ^ 32 ≤ maxDataPayloadLimit := by
  constructor
  · intro hok
    by_contra hlong
    unfold deserializePacket at hok
    rw [readBe_serializePacket] at hok
    split at hok
    · cases hok
    · split at hok
      · cases hok
      · dsimp only at hok
        rw [if_pos (not_le.mp hlong)] at hok
        cases hok
  · intro h
    have hfits : (packet.payload.take (packet.payload.length % 2 ^ 32)).length
        ≤ maxDataPayloadLimit :=
      (List.length_take_le _ _).trans h
    have hcut : deserializePacket (serializePacket packet) = .ok
        { packet with payload := packet.payload.take (packet.payload.length % 2 ^ 32) } := by
      rw [serializePacket_cut]
      exact deserializePacket_serialize htype hfits
    rw [hcut]
    rfl

theorem serializePacket_ne_nil (packet : DataPacket) : serializePacket packet ≠ [] := by
  simp [serializePacket]

/-! ## Payloads -/

theorem routeAdvertisement_refusedOrRead (adv : RouteAdvertisement) :
    serializeRouteAdvertisement adv = []
      ∨ (deserializeRouteAdvertisement (serializeRouteAdvertisement adv)).isOk = true := by
  by_cases hcount : adv.routes.length > maxRouteTableEntries
  · left
    rw [serializeRouteAdvertisement, if_pos hcount]
  · right
    have hlen := serializeRouteAdvertisement_length (not_lt.mp hcount)
    unfold deserializeRouteAdvertisement
    rw [readBe_serializeRouteAdvertisement (not_lt.mp hcount), if_neg (by omega)]
    dsimp only
    rw [if_neg hcount, if_neg (not_not.mpr hlen)]
    rfl

theorem nodeContact_refusedOrRead (contact : NodeContact) :
    serializeNodeContact contact = []
      ∨ (deserializeNodeContact (serializeNodeContact contact)).isOk = true := by
  by_cases hlong : contact.endpoint.length > maxContactEndpointSize
  · exact .inl (serializeNodeContact_eq_nil.mpr hlong)
  · right
    have hread := deserializeNodeContact_serialize [] (not_lt.mp hlong)
    rw [List.append_nil] at hread
    rw [hread]
    rfl

theorem joinRequest_refusedOrRead (req : JoinRequest) :
    serializeJoinRequest req = []
      ∨ (deserializeJoinRequest (serializeJoinRequest req)).isOk = true := by
  by_cases hlong : req.endpoint.length > 255 ∨ req.inviteToken.length > 512
  · left
    rw [serializeJoinRequest, if_pos hlong]
  · right
    rw [deserializeJoinRequest_serialize (by omega)]
    rfl

/-- A list of contacts has one that cannot be written, or fits. -/
theorem contactsFit_of_any_eq_false {contacts : List NodeContact}
    (h : ¬ (contacts.any fun c => serializeNodeContact c = []) = true) :
    ContactsFit contacts := by
  intro c hc
  by_contra hlong
  apply h
  rw [List.any_eq_true]
  exact ⟨c, hc, decide_eq_true (serializeNodeContact_eq_nil.mpr (not_le.mp hlong))⟩

theorem neighbors_refusedOrRead (msg : NeighborsMessage) :
    serializeNeighbors msg = []
      ∨ (deserializeNeighbors (serializeNeighbors msg)).isOk = true := by
  by_cases hcount : msg.peers.length > kademliaK
  · left
    rw [serializeNeighbors, if_pos hcount]
  · by_cases hpeers : (msg.peers.any fun peer => serializeNodeContact peer = []) = true
    · left
      rw [serializeNeighbors, if_neg hcount, if_pos hpeers]
    · right
      rw [deserializeNeighbors_serialize msg (not_lt.mp hcount)
        (contactsFit_of_any_eq_false hpeers)]
      rfl

theorem joinResponse_refusedOrRead (resp : JoinResponse) :
    serializeJoinResponse resp = []
      ∨ (deserializeJoinResponse (serializeJoinResponse resp)).isOk = true := by
  by_cases hcount : resp.peers.length > kademliaK
  · left
    rw [serializeJoinResponse, if_pos hcount]
  · by_cases hwritten : serializeNodeContact resp.boot = []
        ∨ (resp.peers.any fun peer => serializeNodeContact peer = []) = true
    · left
      rw [serializeJoinResponse, if_neg hcount]
      exact if_pos hwritten
    · right
      obtain ⟨hboot, hpeers⟩ := not_or.mp hwritten
      have hfit : ContactsFit (resp.boot :: resp.peers) := by
        intro c hc
        cases List.mem_cons.mp hc with
        | inl hc =>
            rw [hc]
            exact not_lt.mp (mt serializeNodeContact_eq_nil.mpr hboot)
        | inr hc => exact contactsFit_of_any_eq_false hpeers c hc
      rw [deserializeJoinResponse_serialize (not_lt.mp hcount) hfit]
      rfl

/-- An announcement is never refused: of a contact that is, it is the nonce
alone, too short to be read. -/
theorem nodeAnnounce_read_iff (msg : NodeAnnounceMessage) :
    (deserializeNodeAnnounce (serializeNodeAnnounce msg)).isOk = true
      ↔ msg.contact.endpoint.length ≤ maxContactEndpointSize := by
  constructor
  · intro hok
    by_contra hlong
    have hbytes : serializeNodeAnnounce msg = beBytes 8 msg.nonce.toNat := by
      rw [serializeNodeAnnounce, serializeNodeContact_eq_nil.mpr (not_le.mp hlong),
        List.nil_append]
    have hslice : (serializeNodeAnnounce msg).take ((serializeNodeAnnounce msg).length - 8)
        = [] := by
      rw [hbytes, beBytes_length, Nat.sub_self, List.take_zero]
    unfold deserializeNodeAnnounce at hok
    dsimp only at hok
    rw [hslice] at hok
    split at hok <;> cases hok
  · intro h
    rw [deserializeNodeAnnounce_serialize h]
    rfl

theorem serializeNodeAnnounce_ne_nil (msg : NodeAnnounceMessage) :
    serializeNodeAnnounce msg ≠ [] := by
  simp [serializeNodeAnnounce, beBytes]

/-! ## All messages with a limit -/

inductive SizedMessage where
  | control (message : ControlMessage)
  | data (packet : DataPacket)
  | routeAdvertisement (adv : RouteAdvertisement)
  | nodeContact (contact : NodeContact)
  | joinRequest (req : JoinRequest)
  | joinResponse (resp : JoinResponse)
  | neighbors (msg : NeighborsMessage)
  | nodeAnnounce (msg : NodeAnnounceMessage)

namespace SizedMessage

def serialize : SizedMessage → Bytes
  | .control message => serializeControlMessage message
  | .data packet => serializePacket packet
  | .routeAdvertisement adv => serializeRouteAdvertisement adv
  | .nodeContact contact => serializeNodeContact contact
  | .joinRequest req => serializeJoinRequest req
  | .joinResponse resp => serializeJoinResponse resp
  | .neighbors msg => serializeNeighbors msg
  | .nodeAnnounce msg => serializeNodeAnnounce msg

/-- The decoder of the message's own type accepts the buffer. -/
def decodes (data : Bytes) : SizedMessage → Bool
  | .control _ => (deserializeControlMessage data).isOk
  | .data _ => (deserializePacket data).isOk
  | .routeAdvertisement _ => (deserializeRouteAdvertisement data).isOk
  | .nodeContact _ => (deserializeNodeContact data).isOk
  | .joinRequest _ => (deserializeJoinRequest data).isOk
  | .joinResponse _ => (deserializeJoinResponse data).isOk
  | .neighbors _ => (deserializeNeighbors data).isOk
  | .nodeAnnounce _ => (deserializeNodeAnnounce data).isOk

/-- Of the two kinds of messages that have a type, those with a valid one. -/
def TypeValid : SizedMessage → Prop
  | .control message => message.type ≠ .invalid
  | .data packet => packet.type ≠ .invalid
  | _ => True

/-- The encoder refuses the message, or its decoder accepts what it wrote. -/
def RefusedOrRead (m : SizedMessage) : Prop :=
  m.serialize = [] ∨ m.decodes m.serialize = true

/-- The limits that three of the encoders leave to their callers. -/
def WithinLimits : SizedMessage → Prop
  | .control message => message.payload.length ≤ 65536
  | .data packet => packet.payload.length % 2 ^ 32 ≤ 65536
  | .nodeAnnounce msg => msg.contact.endpoint.length ≤ 255
  | _ => True

/-- Of the messages with a limit, exactly those within the limits of the
control envelope, the data packet and the announcement are refused or read;
the other encoders check theirs. -/
theorem refusedOrRead_iff (m : SizedMessage) (h : m.TypeValid) :
    m.RefusedOrRead ↔ m.WithinLimits := by
  cases m with
  | control message =>
      have hne : serializeControlMessage message ≠ [] := by
        apply List.ne_nil_of_length_pos
        rw [serializeControlMessage_length, controlMessageHeaderSize]
        omega
      exact (or_iff_right hne).trans (controlMessage_read_iff h)
  | data packet =>
      exact (or_iff_right (serializePacket_ne_nil packet)).trans (packet_read_iff h)
  | nodeAnnounce msg =>
      exact (or_iff_right (serializeNodeAnnounce_ne_nil msg)).trans (nodeAnnounce_read_iff msg)
  | routeAdvertisement adv => exact iff_of_true (routeAdvertisement_refusedOrRead adv) trivial
  | nodeContact contact => exact iff_of_true (nodeContact_refusedOrRead contact) trivial
  | joinRequest req => exact iff_of_true (joinRequest_refusedOrRead req) trivial
  | joinResponse resp => exact iff_of_true (joinResponse_refusedOrRead resp) trivial
  | neighbors msg => exact iff_of_true (neighbors_refusedOrRead msg) trivial

/-- An empty hello is within the limits. -/
theorem refusedOrRead_iff_hello :
    (control (controlMessageCreate .hello 50 (zero 32) [])).RefusedOrRead :=
  (refusedOrRead_iff (control (controlMessageCreate .hello 50 (zero 32) []))
    (show ControlMessageType.hello ≠ .invalid by decide)).mpr (Nat.zero_le 65536)

/-- A contact whose endpoint is one byte too long. -/
def longAnnounce : NodeAnnounceMessage where
  contact := { privateContact with endpoint := List.replicate 256 65 }
  nonce := 777

/-- Eight bytes go out, and their reader finds no contact in them. -/
theorem not_refusedOrRead_longAnnounce : ¬ (nodeAnnounce longAnnounce).RefusedOrRead := by
  have hlength : longAnnounce.contact.endpoint.length = 256 := List.length_replicate
  intro h
  cases h with
  | inl hnil => exact serializeNodeAnnounce_ne_nil longAnnounce hnil
  | inr hread =>
      have hfits := (nodeAnnounce_read_iff longAnnounce).mp hread
      rw [hlength] at hfits
      exact absurd hfits (by decide)

end SizedMessage

end Madoka

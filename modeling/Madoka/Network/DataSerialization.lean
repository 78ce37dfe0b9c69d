import Madoka.Network.Forwarding
import Madoka.Network.Serialization

/-!
# Data Serialization

The wire form of a data packet (`network/data_serialization.cpp`), and that a
packet of a payload within the limit is read back as it was written.
-/

namespace Madoka

open Octets

def dataPacketHeaderSize : Nat := 1 + 32 + 32 + 8 + 1 + 1 + 4 + 4
def maxDataPayloadLimit : Nat := 65536

def PacketType.toByte : PacketType → UInt8
  | .data => 0
  | .ack => 1
  | .invalid => 255

/-- The payload length is cut to 32 bits. -/
def serializePacket (packet : DataPacket) : Bytes :=
  let payloadLen := packet.payload.length % 2 ^ 32
  [packet.type.toByte] ++ packet.source.val ++ packet.destination.val
    ++ beBytes 8 packet.packetId.toNat ++ [packet.ttl] ++ [if packet.requiresAck then 1 else 0]
    ++ beBytes 4 packet.sequenceNumber.toNat ++ beBytes 4 payloadLen
    ++ packet.payload.take payloadLen

def packetTypeOf (typeRaw : UInt8) : Option PacketType :=
  match typeRaw with
  | 0 => some .data
  | 1 => some .ack
  | _ => none

def deserializePacket (data : Bytes) : Except String DataPacket :=
  if data.length < dataPacketHeaderSize then
    .error "Buffer smaller than DataPacket header size"
  else
    match packetTypeOf (data.getD 0 0) with
    | none => .error "Unrecognized PacketType"
    | some type =>
        let payloadLen := readBe 4 79 data
        if payloadLen > maxDataPayloadLimit then
          .error "Payload length exceeds maximum allowed limit"
        else if data.length ≠ dataPacketHeaderSize + payloadLen then
          .error (if data.length < dataPacketHeaderSize + payloadLen then
            "Truncated payload buffer" else "Trailing bytes after DataPacket payload")
        else
          .ok
            { type := type
              source := readArr 32 1 data
              destination := readArr 32 33 data
              packetId := UInt64.ofNat (readBe 8 65 data)
              ttl := data.getD 73 0
              requiresAck := data.getD 74 0 ≠ 0
              sequenceNumber := UInt32.ofNat (readBe 4 75 data)
              payload := (data.drop dataPacketHeaderSize).take payloadLen }

/-! ## What is written is read back -/

theorem serializePacket_eq {packet : DataPacket}
    (h : packet.payload.length ≤ maxDataPayloadLimit) :
    serializePacket packet = [packet.type.toByte] ++ (packet.source.val ++ (packet.destination.val
      ++ (beBytes 8 packet.packetId.toNat ++ ([packet.ttl]
        ++ ([if packet.requiresAck then 1 else 0] ++ (beBytes 4 packet.sequenceNumber.toNat
          ++ (beBytes 4 packet.payload.length ++ packet.payload))))))) := by
  have hlen : packet.payload.length % 2 ^ 32 = packet.payload.length :=
    Nat.mod_eq_of_lt (lt_of_le_of_lt h (by decide))
  unfold serializePacket
  dsimp only
  rw [hlen, List.take_length]
  simp only [List.append_assoc]

theorem serializePacket_length {packet : DataPacket}
    (h : packet.payload.length ≤ maxDataPayloadLimit) :
    (serializePacket packet).length = dataPacketHeaderSize + packet.payload.length := by
  rw [serializePacket_eq h]
  simp only [List.length_append, packet.source.property, packet.destination.property,
    beBytes_length, List.length_singleton, dataPacketHeaderSize]
  omega

theorem packetTypeOf_toByte {type : PacketType} (h : type ≠ .invalid) :
    packetTypeOf type.toByte = some type := by
  cases type with
  | invalid => exact absurd rfl h
  | _ => rfl

/-- Single bytes, read as the arrays of length one they are. -/
theorem readBe_skip_one {k n : Nat} (b : UInt8) (rest : Bytes) (h : 1 ≤ k) :
    readBe n k ([b] ++ rest) = readBe n (k - 1) rest :=
  readBe_skip ⟨[b], rfl⟩ rest h

theorem readArr_skip_one {k n : Nat} (b : UInt8) (rest : Bytes) (h : 1 ≤ k) :
    readArr n k ([b] ++ rest) = readArr n (k - 1) rest :=
  readArr_skip ⟨[b], rfl⟩ rest h

theorem drop_skip_one {k : Nat} (b : UInt8) (rest : Bytes) (h : 1 ≤ k) :
    ([b] ++ rest).drop k = rest.drop (k - 1) :=
  drop_skip ⟨[b], rfl⟩ rest h

theorem deserializePacket_serialize {packet : DataPacket} (htype : packet.type ≠ .invalid)
    (h : packet.payload.length ≤ maxDataPayloadLimit) :
    deserializePacket (serializePacket packet) = .ok packet := by
  have hlength := serializePacket_length h
  have hlong : ¬ (serializePacket packet).length < dataPacketHeaderSize := by
    rw [hlength]
    omega
  have hpayload : packet.payload.length < 256 ^ 4 := lt_of_le_of_lt h (by decide)
  have hsequence : packet.sequenceNumber.toNat < 256 ^ 4 := packet.sequenceNumber.toNat_lt
  have hid : packet.packetId.toNat < 256 ^ 8 := packet.packetId.toNat_lt
  have hread : readBe 4 79 (serializePacket packet) = packet.payload.length := by
    rw [serializePacket_eq h]
    simp (disch := omega) only [readBe_skip, readBe_skip_one, readBe_skip_be, Nat.reduceSub,
      Nat.sub_self]
    exact readBe_here _ hpayload
  have hreadId : readBe 8 65 (serializePacket packet) = packet.packetId.toNat := by
    rw [serializePacket_eq h]
    simp (disch := omega) only [readBe_skip, readBe_skip_one, Nat.reduceSub, Nat.sub_self]
    exact readBe_here _ hid
  have hreadSequence : readBe 4 75 (serializePacket packet) = packet.sequenceNumber.toNat := by
    rw [serializePacket_eq h]
    simp (disch := omega) only [readBe_skip, readBe_skip_one, readBe_skip_be, Nat.reduceSub,
      Nat.sub_self]
    exact readBe_here _ hsequence
  have hsource : readArr 32 1 (serializePacket packet) = packet.source := by
    rw [serializePacket_eq h]
    simp (disch := omega) only [readArr_skip_one, Nat.sub_self]
    exact readArr_here _ _
  have hdestination : readArr 32 33 (serializePacket packet) = packet.destination := by
    rw [serializePacket_eq h]
    simp (disch := omega) only [readArr_skip, readArr_skip_one, Nat.reduceSub, Nat.sub_self]
    exact readArr_here _ _
  have hbytes : (serializePacket packet).drop 73 = [packet.ttl]
      ++ ([if packet.requiresAck then 1 else 0] ++ (beBytes 4 packet.sequenceNumber.toNat
        ++ (beBytes 4 packet.payload.length ++ packet.payload))) := by
    rw [serializePacket_eq h]
    simp (disch := omega) only [drop_skip, drop_skip_one, drop_skip_be, Nat.reduceSub,
      Nat.sub_self, List.drop_zero]
  have hdrop : (serializePacket packet).drop dataPacketHeaderSize = packet.payload := by
    rw [serializePacket_eq h]
    simp (disch := omega) only [dataPacketHeaderSize, drop_skip, drop_skip_one, drop_skip_be,
      Nat.reduceAdd, Nat.reduceSub, Nat.sub_self, List.drop_zero]
  have httl : (serializePacket packet).getD 73 0 = packet.ttl := by
    have hfirst := congrArg (fun bs : Bytes => bs.getD 0 0) hbytes
    simpa using hfirst
  have hack : (serializePacket packet).getD 74 0 = if packet.requiresAck then 1 else 0 := by
    have hsecond := congrArg (fun bs : Bytes => bs.getD 1 0) hbytes
    simpa using hsecond
  have hackRead : decide ((if packet.requiresAck then (1 : UInt8) else 0) ≠ 0)
      = packet.requiresAck := by
    cases packet.requiresAck <;> decide
  have htypeRead : packetTypeOf ((serializePacket packet).getD 0 0) = some packet.type := by
    rw [serializePacket_eq h]
    exact packetTypeOf_toByte htype
  unfold deserializePacket
  rw [if_neg hlong, htypeRead]
  dsimp only
  rw [hread, if_neg (not_lt.mpr h), if_neg (not_not.mpr hlength), hreadId, hreadSequence, hsource,
    hdestination, hdrop, httl, hack, hackRead, List.take_length, UInt64.ofNat_toNat,
    UInt32.ofNat_toNat]

end Madoka

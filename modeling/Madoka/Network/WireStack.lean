import Madoka.Network.Refusals
import Madoka.Protocol.Codec

/-!
# Wire Stack

A control message or a data packet on its way through the whole stack
(`protocol/codec.cpp` over `network/serialization.cpp` and
`network/data_serialization.cpp`): serialized, wrapped in a message, encoded,
read from the front of a longer buffer, and decoded again.
-/

namespace Madoka

open Octets

/-- One of the four types `message_validate` accepts. -/
def MessageType.Named (type : MessageType) : Prop :=
  ∀ raw, type ≠ .unrecognized raw

theorem messageTypeOf_named {b : UInt8} {type : MessageType} (h : messageTypeOf b = some type) :
    type.Named ∧ type.toByte = b := by
  simp only [messageTypeOf] at h
  split at h
  all_goals cases h
  all_goals exact ⟨nofun, rfl⟩

theorem messageValidate_of_named {msg : Message} (hversion : msg.version = protocolVersion)
    (htype : msg.type.Named) (hsize : msg.payload.length ≤ maxPayloadSize) :
    messageValidate msg = .ok () := by
  rw [messageValidate, if_neg (not_not.mpr hversion)]
  split
  · rename_i raw hraw
    exact absurd hraw (htype raw)
  · rw [if_neg (not_lt.mpr hsize)]

/-- A message that carries the given bytes. -/
def wrap (type : MessageType) (payload : Bytes) : Message where
  version := protocolVersion
  type := type
  payload := payload

/-- The receiving end: the size peeked at, that many bytes taken and decoded. -/
def unwrap (buffer : Bytes) : Except (Option String) Message :=
  match messagePeekSize buffer with
  | .error error => .error error
  | .ok size =>
      match messageDecode (buffer.take size) with
      | .error error => .error (some error)
      | .ok msg => .ok msg

/-- The message encodes, and whatever is appended to the encoding, the same
message is read from the front. -/
def ComesBack (msg : Message) : Prop :=
  ∃ bytes, messageEncode msg = .ok bytes ∧ ∀ tail, unwrap (bytes ++ tail) = .ok msg

theorem unwrap_encode {msg : Message} {bytes : Bytes} (h : messageEncode msg = .ok bytes)
    (tail : Bytes) : unwrap (bytes ++ tail) = .ok msg := by
  have hlong := (messageEncode_length h).2.1
  have hheader : headerSize ≤ (bytes ++ tail).length := by
    rw [List.length_append]
    omega
  have hpeek : messagePeekSize (bytes ++ tail) = .ok bytes.length :=
    messagePeekSize_of_prefix h (List.append_nil (bytes ++ tail)) hheader
  rw [unwrap, hpeek]
  show (match messageDecode ((bytes ++ tail).take bytes.length) with
    | .error error => Except.error (some error)
    | .ok msg => .ok msg) = _
  rw [List.take_left, messageDecode_encode h]

theorem comesBack_wrap {type : MessageType} {payload : Bytes} (htype : type.Named)
    (hsize : payload.length ≤ maxPayloadSize) : ComesBack (wrap type payload) := by
  have hvalid : messageValidate (wrap type payload) = .ok () :=
    messageValidate_of_named rfl htype hsize
  have hencode : ∃ bytes, messageEncode (wrap type payload) = .ok bytes := by
    rw [messageEncode, hvalid]
    exact ⟨_, rfl⟩
  obtain ⟨bytes, hbytes⟩ := hencode
  exact ⟨bytes, hbytes, unwrap_encode hbytes⟩

/-! ## The inner headers -/

theorem comesBack_control {type : MessageType} {message : ControlMessage} (htype : type.Named)
    (h : message.payload.length ≤ maxPayloadSize - controlMessageHeaderSize) :
    ComesBack (wrap type (serializeControlMessage message)) := by
  apply comesBack_wrap htype
  rw [serializeControlMessage_length]
  have hroom : controlMessageHeaderSize ≤ maxPayloadSize := by decide
  omega

theorem comesBack_packet {type : MessageType} {packet : DataPacket} (htype : type.Named)
    (h : packet.payload.length ≤ maxPayloadSize - dataPacketHeaderSize) :
    ComesBack (wrap type (serializePacket packet)) := by
  apply comesBack_wrap htype
  have hlimit : maxPayloadSize - dataPacketHeaderSize ≤ maxDataPayloadLimit := by decide
  have hroom : dataPacketHeaderSize ≤ maxPayloadSize := by decide
  rw [serializePacket_length (by omega)]
  omega

/-! ## What the two header checks accept -/

/-- Both checks of a header pass together; then the peeked size is the
declared one. -/
theorem messagePeekSize_iff {bytes : Bytes} {size : Nat} :
    messagePeekSize bytes = .ok size ↔ ∃ typeRaw high low rest type,
      bytes = protocolVersion :: typeRaw :: high :: low :: rest
        ∧ messageTypeOf typeRaw = some type ∧ ofBe [high, low] ≤ maxPayloadSize
        ∧ size = headerSize + ofBe [high, low] := by
  constructor
  · intro h
    match bytes with
    | version :: typeRaw :: high :: low :: rest =>
        simp only [messagePeekSize] at h
        split at h
        · cases h
        · rename_i hversion
          split at h
          · cases h
          · rename_i htype
            obtain ⟨type, htype⟩ := Option.ne_none_iff_exists'.mp htype
            split at h
            · cases h
            · rename_i hsize
              cases h
              refine ⟨typeRaw, high, low, rest, type, ?_, htype, not_lt.mp hsize, rfl⟩
              rw [not_not.mp hversion]
    | [] | [_] | [_, _] | [_, _, _] => simp [messagePeekSize] at h
  · rintro ⟨typeRaw, high, low, rest, type, rfl, htype, hsize, rfl⟩
    simp only [messagePeekSize, ne_eq, not_true_eq_false, if_false, htype, reduceCtorEq,
      if_neg (not_lt.mpr hsize)]

/-- A decoded message is the one the header declares, and all of it is there. -/
theorem messageDecode_iff {bytes : Bytes} {msg : Message} :
    messageDecode bytes = .ok msg ↔ ∃ typeRaw high low rest type,
      bytes = protocolVersion :: typeRaw :: high :: low :: rest
        ∧ messageTypeOf typeRaw = some type ∧ ofBe [high, low] ≤ maxPayloadSize
        ∧ headerSize + ofBe [high, low] ≤ bytes.length
        ∧ msg = wrap type (rest.take (ofBe [high, low])) := by
  constructor
  · intro h
    match bytes with
    | version :: typeRaw :: high :: low :: rest =>
        simp only [messageDecode] at h
        split at h
        · cases h
        · rename_i hversion
          split at h
          · cases h
          · rename_i type htype
            split at h
            · cases h
            · rename_i hsize
              split at h
              · cases h
              · rename_i hlong
                cases h
                have hversion := not_not.mp hversion
                subst hversion
                exact ⟨typeRaw, high, low, rest, type, rfl, htype, not_lt.mp hsize,
                  not_lt.mp hlong, rfl⟩
    | [] | [_] | [_, _] | [_, _, _] => simp [messageDecode] at h
  · rintro ⟨typeRaw, high, low, rest, type, rfl, htype, hsize, hlong, rfl⟩
    simp only [messageDecode, ne_eq, not_true_eq_false, if_false, htype,
      if_neg (not_lt.mpr hsize), if_neg (not_lt.mpr hlong), wrap]

/-- Decoding succeeds exactly when the message the header declares is all in
the buffer. -/
theorem messageDecode_isOk_iff (bytes : Bytes) :
    (∃ msg, messageDecode bytes = .ok msg)
      ↔ ∃ size, messagePeekSize bytes = .ok size ∧ size ≤ bytes.length := by
  constructor
  · rintro ⟨msg, h⟩
    obtain ⟨typeRaw, high, low, rest, type, hbytes, htype, hsize, hlong, -⟩ :=
      messageDecode_iff.mp h
    exact ⟨_, messagePeekSize_iff.mpr
      ⟨typeRaw, high, low, rest, type, hbytes, htype, hsize, rfl⟩, hlong⟩
  · rintro ⟨size, h, hlong⟩
    obtain ⟨typeRaw, high, low, rest, type, hbytes, htype, hsize, rfl⟩ :=
      messagePeekSize_iff.mp h
    exact ⟨_, messageDecode_iff.mpr
      ⟨typeRaw, high, low, rest, type, hbytes, htype, hsize, hlong, rfl⟩⟩

/-- Encoding a decoded message writes the bytes it was decoded from. -/
theorem messageEncode_decode {bytes : Bytes} {msg : Message} {size : Nat}
    (hdecode : messageDecode bytes = .ok msg) (hpeek : messagePeekSize bytes = .ok size) :
    messageEncode msg = .ok (bytes.take size) := by
  obtain ⟨typeRaw, high, low, rest, type, rfl, htype, hsize, hlong, rfl⟩ :=
    messageDecode_iff.mp hdecode
  obtain ⟨_, _, _, _, _, heq, -, -, rfl⟩ := messagePeekSize_iff.mp hpeek
  cases heq
  obtain ⟨hnamed, hbyte⟩ := messageTypeOf_named htype
  have hrest : (rest.take (ofBe [high, low])).length = ofBe [high, low] := by
    rw [List.length_take]
    simp only [List.length_cons, headerSize] at hlong
    omega
  have hlength : beBytes 2 (ofBe [high, low]) = [high, low] := beBytes_ofBe rfl
  have hvalid : messageValidate (wrap type (rest.take (ofBe [high, low]))) = .ok () := by
    refine messageValidate_of_named rfl hnamed ?_
    show (rest.take (ofBe [high, low])).length ≤ maxPayloadSize
    omega
  rw [messageEncode, hvalid]
  show Except.ok (protocolVersion :: type.toByte
    :: beBytes 2 (rest.take (ofBe [high, low])).length ++ rest.take (ofBe [high, low])) = _
  rw [hrest, hlength, hbyte, headerSize, Nat.add_comm]
  rfl

/-! ## The stack as a whole -/

/-- What is sent is what is read, and the reader accepts exactly what some
sender could have written. -/
theorem wireStack_roundTrip :
    (∀ (type : MessageType) (message : ControlMessage), type.Named → message.type ≠ .invalid →
      message.payload.length ≤ maxPayloadSize - controlMessageHeaderSize →
      ComesBack (wrap type (serializeControlMessage message))
        ∧ deserializeControlMessage (wrap type (serializeControlMessage message)).payload
          = .ok message)
    ∧ (∀ (type : MessageType) (packet : DataPacket), type.Named → packet.type ≠ .invalid →
      packet.payload.length ≤ maxPayloadSize - dataPacketHeaderSize →
      ComesBack (wrap type (serializePacket packet))
        ∧ deserializePacket (wrap type (serializePacket packet)).payload = .ok packet)
    ∧ ∀ bytes : Bytes, headerSize ≤ bytes.length →
      ((∃ msg, messageDecode bytes = .ok msg)
        ↔ ∃ size, messagePeekSize bytes = .ok size ∧ size ≤ bytes.length)
      ∧ ∀ msg size, messageDecode bytes = .ok msg → messagePeekSize bytes = .ok size →
        messageEncode msg = .ok (bytes.take size) := by
  refine ⟨fun type message hnamed htype h => ⟨comesBack_control hnamed h, ?_⟩,
    fun type packet hnamed htype h => ⟨comesBack_packet hnamed h, ?_⟩,
    fun bytes _ => ⟨messageDecode_isOk_iff bytes, fun msg size => messageEncode_decode⟩⟩
  · have hlimit : maxPayloadSize - controlMessageHeaderSize ≤ maxPayloadLimit := by decide
    exact deserializeControlMessage_serialize htype (by omega)
  · have hlimit : maxPayloadSize - dataPacketHeaderSize ≤ maxDataPayloadLimit := by decide
    exact deserializePacket_serialize htype (by omega)

end Madoka

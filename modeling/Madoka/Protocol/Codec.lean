import Madoka.Lib.Octets

/-!
# Codec

The message frame (`protocol/message.hpp`, `protocol/codec.cpp`): one byte of
version, one of type, two of payload length, then the payload.
-/

namespace Madoka

open Octets

/-- `enum class MessageType : uint8_t`; the last constructor is every value
without a name. -/
inductive MessageType where
  | hello
  | keepAlive
  | data
  | control
  | unrecognized (raw : {b : UInt8 // b = 0 ∨ 4 < b})
deriving DecidableEq

def MessageType.toByte : MessageType → UInt8
  | .hello => 1
  | .keepAlive => 2
  | .data => 3
  | .control => 4
  | .unrecognized raw => raw

def protocolVersion : UInt8 := 1
def headerSize : Nat := 4
def maxMessageSize : Nat := 4096
def maxPayloadSize : Nat := maxMessageSize - headerSize

structure Message where
  version : UInt8
  type : MessageType
  payload : Bytes
deriving DecidableEq

def messageValidate (msg : Message) : Except String Unit :=
  if msg.version ≠ protocolVersion then
    .error ("Unsupported protocol version: " ++ toString msg.version)
  else
    match msg.type with
    | .unrecognized raw => .error ("Unrecognized message type: " ++ toString raw.val)
    | _ =>
        if msg.payload.length > maxPayloadSize then
          .error ("Message payload size (" ++ toString msg.payload.length
            ++ ") exceeds limit of " ++ toString maxPayloadSize ++ " bytes")
        else .ok ()

def messageEncode (msg : Message) : Except String Bytes :=
  match messageValidate msg with
  | .error error => .error error
  | .ok () =>
      .ok (msg.version :: msg.type.toByte :: beBytes 2 msg.payload.length ++ msg.payload)

/-- The type a received byte names, if it names one. -/
def messageTypeOf (typeRaw : UInt8) : Option MessageType :=
  match typeRaw with
  | 1 => some .hello
  | 2 => some .keepAlive
  | 3 => some .data
  | 4 => some .control
  | _ => none

def messageDecode (bytes : Bytes) : Except String Message :=
  match bytes with
  | version :: typeRaw :: high :: low :: rest =>
      if version ≠ protocolVersion then
        .error ("Unsupported protocol version: " ++ toString version)
      else
        match messageTypeOf typeRaw with
        | none => .error ("Unrecognized message type: " ++ toString typeRaw)
        | some type =>
            let length := ofBe [high, low]
            if length > maxPayloadSize then
              .error ("Declared message payload (" ++ toString length
                ++ ") exceeds maximum allowed payload of " ++ toString maxPayloadSize ++ " bytes")
            else if bytes.length < headerSize + length then
              .error ("Incomplete message buffer: expected " ++ toString (headerSize + length)
                ++ " bytes, available " ++ toString bytes.length ++ " bytes")
            else .ok { version := version, type := type, payload := rest.take length }
  | _ =>
      .error ("Buffer too small for message header: " ++ toString bytes.length ++ " bytes")

/-- The size of the message a buffer starts with. A buffer shorter than the
header fails without an error text. -/
def messagePeekSize (bytes : Bytes) : Except (Option String) Nat :=
  match bytes with
  | version :: typeRaw :: high :: low :: _ =>
      if version ≠ protocolVersion then
        .error (some ("Unsupported protocol version in peek: " ++ toString version))
      else if messageTypeOf typeRaw = none then
        .error (some ("Unrecognized message type in peek: " ++ toString typeRaw))
      else
        let length := ofBe [high, low]
        if length > maxPayloadSize then
          .error (some ("Declared message payload (" ++ toString length
            ++ ") exceeds maximum allowed payload of " ++ toString maxPayloadSize ++ " bytes"))
        else .ok (headerSize + length)
  | _ => .error none

/-! ## What is accepted -/

theorem messageTypeOf_toByte {type : MessageType} (h : ∀ raw, type ≠ .unrecognized raw) :
    messageTypeOf type.toByte = some type := by
  cases type with
  | unrecognized raw => exact absurd rfl (h raw)
  | _ => rfl

theorem messageValidate_ok {msg : Message} (h : messageValidate msg = .ok ()) :
    msg.version = protocolVersion ∧ messageTypeOf msg.type.toByte = some msg.type
      ∧ msg.payload.length ≤ maxPayloadSize := by
  unfold messageValidate at h
  split at h
  · cases h
  · rename_i hversion
    split at h
    · cases h
    · rename_i hnamed
      split at h
      · cases h
      · rename_i hsize
        exact ⟨not_not.mp hversion, messageTypeOf_toByte hnamed, not_lt.mp hsize⟩

/-- An accepted message is its four header bytes and its payload. -/
theorem messageEncode_ok {msg : Message} {bytes : Bytes} (h : messageEncode msg = .ok bytes) :
    messageValidate msg = .ok ()
      ∧ bytes = msg.version :: msg.type.toByte :: beBytes 2 msg.payload.length ++ msg.payload := by
  unfold messageEncode at h
  cases hvalid : messageValidate msg with
  | error e =>
      rw [hvalid] at h
      cases h
  | ok u =>
      rw [hvalid] at h
      cases h
      exact ⟨rfl, rfl⟩

theorem messageEncode_length {msg : Message} {bytes : Bytes} (h : messageEncode msg = .ok bytes) :
    bytes.length = headerSize + msg.payload.length
      ∧ headerSize ≤ bytes.length ∧ bytes.length ≤ maxMessageSize := by
  obtain ⟨hvalid, hbytes⟩ := messageEncode_ok h
  have hsize := (messageValidate_ok hvalid).2.2
  subst hbytes
  simp only [List.cons_append, List.length_cons, List.length_append, beBytes_length, headerSize,
    maxMessageSize, maxPayloadSize] at *
  omega

/-- The first four bytes of an encoding, with the length they declare. -/
theorem messageEncode_header {msg : Message} {bytes : Bytes} (h : messageEncode msg = .ok bytes) :
    ∃ high low, bytes = protocolVersion :: msg.type.toByte :: high :: low :: msg.payload
      ∧ ofBe [high, low] = msg.payload.length := by
  obtain ⟨hvalid, hbytes⟩ := messageEncode_ok h
  obtain ⟨hversion, -, hsize⟩ := messageValidate_ok hvalid
  refine ⟨_, _, by rw [hbytes, hversion]; rfl, ?_⟩
  exact ofBe_beBytes (n := 2) (lt_of_le_of_lt hsize (by decide))

/-- Whatever follows on the stream, decoding exactly the encoded bytes gives
the message back. -/
theorem messageDecode_encode {msg : Message} {bytes : Bytes} (h : messageEncode msg = .ok bytes) :
    messageDecode bytes = .ok msg := by
  obtain ⟨hvalid, -⟩ := messageEncode_ok h
  obtain ⟨hversion, htype, hsize⟩ := messageValidate_ok hvalid
  obtain ⟨high, low, hbytes, hlength⟩ := messageEncode_header h
  subst hbytes
  have hshort : ¬ (msg.version :: msg.type.toByte :: high :: low :: msg.payload).length
      < headerSize + msg.payload.length := by
    simp only [List.length_cons, headerSize]
    omega
  rw [← hversion]
  simp only [messageDecode, hversion, ne_eq, not_true_eq_false, if_false, htype, hlength,
    if_neg (not_lt.mpr hsize), List.take_length]
  rw [← hversion, if_neg hshort]

/-- Any buffer that reaches past the header of a message to come tells the
message's size. -/
theorem messagePeekSize_of_prefix {msg : Message} {bytes buffer future tail : Bytes}
    (h : messageEncode msg = .ok bytes) (hstream : buffer ++ future = bytes ++ tail)
    (hheader : headerSize ≤ buffer.length) : messagePeekSize buffer = .ok bytes.length := by
  obtain ⟨hvalid, -⟩ := messageEncode_ok h
  obtain ⟨-, htype, hsize⟩ := messageValidate_ok hvalid
  obtain ⟨high, low, hbytes, hlength⟩ := messageEncode_header h
  have hlen := (messageEncode_length h).1
  rw [hbytes] at hstream
  match buffer, hheader, hstream with
  | b0 :: b1 :: b2 :: b3 :: rest, _, hstream =>
      simp only [List.cons_append, List.cons.injEq] at hstream
      obtain ⟨rfl, rfl, rfl, rfl, -⟩ := hstream
      simp only [messagePeekSize, ne_eq, not_true_eq_false, if_false, htype, reduceCtorEq,
        hlength, if_neg (not_lt.mpr hsize), hlen]

end Madoka

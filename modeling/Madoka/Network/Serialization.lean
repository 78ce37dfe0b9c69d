import Madoka.Network.Messages

/-!
# Serialization

The wire form of the control messages (`network/serialization.cpp`). A
message is read by fixed offsets once its length has been checked.
-/

namespace Madoka

open Octets

def controlMessageHeaderSize : Nat := 1 + 8 + 32 + 4
def maxPayloadLimit : Nat := 65536
def maxContactEndpointSize : Nat := 255

/-- The big-endian integer of `n` bytes at an offset. -/
def readBe (n offset : Nat) (data : Bytes) : Nat :=
  ofBe ((data.drop offset).take n)

/-- The array of `n` bytes at an offset. -/
def readArr (n offset : Nat) (data : Bytes) : ByteArr n :=
  front n (data.drop offset)

/-! ## The control envelope -/

def serializeControlMessage (message : ControlMessage) : Bytes :=
  [message.type.toByte] ++ beBytes 8 message.sequenceNumber.toNat ++ message.sender.val
    ++ beBytes 4 message.payload.length ++ message.payload

def controlMessageTypeOf (typeRaw : UInt8) : Option ControlMessageType :=
  match typeRaw with
  | 1 => some .hello
  | 2 => some .neighborAdvertisement
  | 3 => some .routeAdvertisement
  | 4 => some .joinRequest
  | 5 => some .joinResponse
  | 6 => some .findNode
  | 7 => some .neighbors
  | 8 => some .nodeAnnounce
  | 9 => some .nodeAnnounceAck
  | _ => none

def deserializeControlMessage (data : Bytes) : Except String ControlMessage :=
  if data.length < controlMessageHeaderSize then
    .error "Buffer smaller than control message header"
  else
    match controlMessageTypeOf (data.headD 0) with
    | none => .error ("Unrecognized control message type: " ++ toString (data.headD 0))
    | some type =>
        let payloadLen := readBe 4 41 data
        if payloadLen > maxPayloadLimit then
          .error "Payload declared length exceeds maximum allowed limit"
        else if data.length ≠ controlMessageHeaderSize + payloadLen then
          .error "Buffer size mismatch with declared payload length"
        else
          .ok { type := type
                sequenceNumber := .ofNat (readBe 8 1 data)
                sender := readArr 32 9 data
                payload := data.drop controlMessageHeaderSize }

/-! ## Hellos and routes -/

def helloMessageWireSize : Nat := 32 + 8

def deserializeHelloMessage (data : Bytes) : Except String HelloMessage :=
  if data.length ≠ helloMessageWireSize then .error "Invalid hello message size"
  else .ok { sender := readArr 32 0 data, timestamp := .ofNat (readBe 8 32 data) }

def routeEntryWireSize : Nat := 32 + 16 + 4
def routeAdvertisementHeaderSize : Nat := 32 + 8 + 8 + 4

def serializeRoute (r : Route) : Bytes :=
  r.destinationNode.val ++ r.destination.val ++ beBytes 4 r.metric

/-- More routes than a table holds are not written: the result is empty. -/
def serializeRouteAdvertisement (adv : RouteAdvertisement) : Bytes :=
  if adv.routes.length > maxRouteTableEntries then []
  else adv.sender.val ++ beBytes 8 adv.generation.toNat ++ beBytes 8 adv.sequenceNumber.toNat
    ++ beBytes 4 adv.routes.length ++ adv.routes.flatMap serializeRoute

def deserializeRoute (entry : Bytes) : Route where
  destination := readArr 16 32 entry
  destinationNode := readArr 32 0 entry
  nextHop := zero 32
  metric := readBe 4 48 entry
  lastUpdate := 0

def deserializeRouteAdvertisement (data : Bytes) : Except String RouteAdvertisement :=
  if data.length < routeAdvertisementHeaderSize then
    .error "Buffer smaller than route advertisement header"
  else
    let count := readBe 4 48 data
    if count > maxRouteTableEntries then .error "Declared route count exceeds limit"
    else if data.length ≠ routeAdvertisementHeaderSize + count * routeEntryWireSize then
      .error "Buffer size does not match declared route count"
    else
      .ok { sender := readArr 32 0 data
            generation := .ofNat (readBe 8 32 data)
            sequenceNumber := .ofNat (readBe 8 40 data)
            routes := (List.range count).map fun i =>
              deserializeRoute (data.drop (routeAdvertisementHeaderSize + i * routeEntryWireSize)) }

/-! ## Contacts -/

/-- The size of a contact with an empty endpoint. -/
def contactMinSize : Nat := 32 + 32 + 16 + 2 + 8 + 4 + 1

/-- A contact whose endpoint is too long is not written. -/
def serializeNodeContact (contact : NodeContact) : Bytes :=
  if contact.endpoint.length > maxContactEndpointSize then []
  else contact.id.val ++ (contact.publicKey.val ++ (contact.virtualAddress.val
    ++ (beBytes 2 contact.endpoint.length ++ (contact.endpoint
    ++ (beBytes 8 contact.lastSeenMs.toNat ++ (beBytes 4 contact.rttMs.toNat
    ++ [contact.failedPings]))))))

/-- The contact a buffer starts with, and the bytes it takes. -/
def deserializeNodeContact (data : Bytes) : Except String (NodeContact × Nat) :=
  if data.length < contactMinSize then .error "Buffer smaller than minimum node contact size"
  else
    let epLen := readBe 2 80 data
    if epLen > maxContactEndpointSize ∨ data.length < contactMinSize + epLen then
      .error "Incomplete node contact buffer"
    else
      let rest := data.drop (82 + epLen)
      .ok ({ id := readArr 32 0 data
             publicKey := readArr 32 32 data
             virtualAddress := readArr 16 64 data
             endpoint := (data.drop 82).take epLen
             lastSeenMs := .ofNat (readBe 8 0 rest)
             rttMs := .ofNat (readBe 4 8 rest)
             failedPings := (rest.drop 12).headD 0 }, contactMinSize + epLen)

/-- The loop over a counted list of contacts, up to the end of the buffer. -/
def deserializeContacts (truncated extraneous : String) :
    Nat → Bytes → Except String (List NodeContact)
  | 0, data => if data ≠ [] then .error extraneous else .ok []
  | count + 1, data =>
      if data = [] then .error truncated
      else
        match deserializeNodeContact data with
        | .error error => .error error
        | .ok (contact, consumed) =>
            match deserializeContacts truncated extraneous count (data.drop consumed) with
            | .error error => .error error
            | .ok peers => .ok (contact :: peers)

/-! ## Joining -/

/-- A request that is too long is not written. -/
def serializeJoinRequest (req : JoinRequest) : Bytes :=
  if req.endpoint.length > 255 ∨ req.inviteToken.length > 512 then []
  else req.nodeId.val ++ (req.publicKey.val ++ (req.virtualAddress.val
    ++ (beBytes 2 req.endpoint.length ++ (req.endpoint ++ (beBytes 8 req.timestamp.toNat
    ++ (beBytes 8 req.nonce.toNat ++ (beBytes 2 req.inviteToken.length ++ req.inviteToken)))))))

def deserializeJoinRequest (data : Bytes) : Except String JoinRequest :=
  let minSize := 32 + 32 + 16 + 2 + 8 + 8 + 2
  if data.length < minSize then .error "Buffer smaller than minimum join request size"
  else
    let epLen := readBe 2 80 data
    if epLen > 255 ∨ data.length < minSize + epLen then .error "Invalid join endpoint length"
    else
      let tokenLen := readBe 2 (82 + epLen + 8 + 8) data
      if tokenLen > 512 ∨ data.length ≠ minSize + epLen + tokenLen then
        .error "Join request buffer size mismatch"
      else
        let rest := data.drop (82 + epLen)
        .ok { nodeId := readArr 32 0 data
              publicKey := readArr 32 32 data
              virtualAddress := readArr 16 64 data
              endpoint := (data.drop 82).take epLen
              timestamp := .ofNat (readBe 8 0 rest)
              nonce := .ofNat (readBe 8 8 rest)
              inviteToken := (rest.drop 18).take tokenLen }

/-- The contact a join response opens with. -/
def JoinResponse.boot (resp : JoinResponse) : NodeContact :=
  if resp.bootstrapContact.id = zero 32 then { resp.bootstrapContact with id := resp.bootstrapId }
  else resp.bootstrapContact

/-- Empty when there are too many peers, or one that cannot be written. -/
def serializeJoinResponse (resp : JoinResponse) : Bytes :=
  if resp.peers.length > kademliaK then []
  else
    let bootBytes := serializeNodeContact resp.boot
    if bootBytes = [] ∨ resp.peers.any fun peer => serializeNodeContact peer = [] then []
    else [if resp.accepted then 1 else 0] ++ bootBytes ++ beBytes 2 resp.peers.length
      ++ resp.peers.flatMap serializeNodeContact

def deserializeJoinResponse (data : Bytes) : Except String JoinResponse :=
  match data with
  | [] => .error "Empty buffer for join response"
  | accepted :: data =>
      match deserializeNodeContact data with
      | .error error => .error error
      | .ok (bootstrapContact, consumed) =>
          let data := data.drop consumed
          if data.length < 2 then .error "Buffer smaller than join response peer count"
          else
            let count := readBe 2 0 data
            if count > kademliaK then .error "Join response peer count exceeds limit"
            else
              match deserializeContacts "Truncated join response peers"
                  "Extraneous data in join response" count (data.drop 2) with
              | .error error => .error error
              | .ok peers =>
                  .ok { accepted := accepted ≠ 0
                        bootstrapContact := bootstrapContact
                        bootstrapId := bootstrapContact.id
                        peers := peers }

/-! ## Lookups and announcements -/

def findNodeWireSize : Nat := 32

def serializeFindNode (msg : FindNodeMessage) : Bytes := msg.target.val

def deserializeFindNode (data : Bytes) : Except String FindNodeMessage :=
  if data.length ≠ findNodeWireSize then .error "Invalid find node message size"
  else .ok { target := readArr 32 0 data }

/-- Empty when there are too many peers, or one that cannot be written. -/
def serializeNeighbors (msg : NeighborsMessage) : Bytes :=
  if msg.peers.length > kademliaK then []
  else if msg.peers.any fun peer => serializeNodeContact peer = [] then []
  else beBytes 2 msg.peers.length ++ msg.peers.flatMap serializeNodeContact

def deserializeNeighbors (data : Bytes) : Except String NeighborsMessage :=
  if data.length < 2 then .error "Buffer smaller than neighbors header"
  else
    let count := readBe 2 0 data
    if count > kademliaK then .error "Neighbors peer count exceeds limit"
    else
      match deserializeContacts "Truncated neighbors peer data"
          "Extraneous bytes in neighbors message" count (data.drop 2) with
      | .error error => .error error
      | .ok peers => .ok { peers := peers }

def serializeNodeAnnounce (msg : NodeAnnounceMessage) : Bytes :=
  serializeNodeContact msg.contact ++ beBytes 8 msg.nonce.toNat

def deserializeNodeAnnounce (data : Bytes) : Except String NodeAnnounceMessage :=
  if data.length < 8 then .error "Buffer too small for node announce"
  else
    let contactSlice := data.take (data.length - 8)
    match deserializeNodeContact contactSlice with
    | .error error => .error error
    | .ok (contact, consumed) =>
        if consumed ≠ contactSlice.length then .error "Node announce contact size mismatch"
        else .ok { contact := contact, nonce := .ofNat (readBe 8 (data.length - 8) data) }

def nodeAnnounceAckWireSize : Nat := 1 + 32

def serializeNodeAnnounceAck (msg : NodeAnnounceAck) : Bytes :=
  (if msg.accepted then 1 else 0) :: msg.responder.val

def deserializeNodeAnnounceAck (data : Bytes) : Except String NodeAnnounceAck :=
  if data.length ≠ nodeAnnounceAckWireSize then .error "Invalid node announce ack size"
  else .ok { accepted := data.headD 0 ≠ 0, responder := readArr 32 1 data }

/-! ## Reading at an offset -/

theorem readArr_skip {k m n : Nat} (a : ByteArr m) (rest : Bytes) (h : m ≤ k) :
    readArr n k (a.val ++ rest) = readArr n (k - m) rest := by
  rw [readArr, readArr, List.drop_append, List.drop_eq_nil_of_le (by rw [a.property]; exact h),
    a.property, List.nil_append]

theorem readArr_here {n : Nat} (a : ByteArr n) (rest : Bytes) :
    readArr n 0 (a.val ++ rest) = a :=
  front_append a rest

theorem readBe_skip {k m n : Nat} (a : ByteArr m) (rest : Bytes) (h : m ≤ k) :
    readBe n k (a.val ++ rest) = readBe n (k - m) rest := by
  rw [readBe, readBe, List.drop_append, List.drop_eq_nil_of_le (by rw [a.property]; exact h),
    a.property, List.nil_append]

theorem readBe_skip_be {k m n v : Nat} (rest : Bytes) (h : m ≤ k) :
    readBe n k (beBytes m v ++ rest) = readBe n (k - m) rest :=
  readBe_skip ⟨beBytes m v, beBytes_length m v⟩ rest h

theorem readBe_here {n v : Nat} (rest : Bytes) (h : v < 256 ^ n) :
    readBe n 0 (beBytes n v ++ rest) = v := by
  rw [readBe, List.drop_zero, List.take_left' (beBytes_length n v), ofBe_beBytes h]

theorem drop_skip {k m : Nat} (a : ByteArr m) (rest : Bytes) (h : m ≤ k) :
    (a.val ++ rest).drop k = rest.drop (k - m) := by
  rw [List.drop_append, List.drop_eq_nil_of_le (by rw [a.property]; exact h), a.property,
    List.nil_append]

theorem drop_skip_be {k m v : Nat} (rest : Bytes) (h : m ≤ k) :
    (beBytes m v ++ rest).drop k = rest.drop (k - m) :=
  drop_skip ⟨beBytes m v, beBytes_length m v⟩ rest h

/-! ## What is written is read back -/

theorem serializeControlMessage_length (message : ControlMessage) :
    (serializeControlMessage message).length
      = controlMessageHeaderSize + message.payload.length := by
  simp [serializeControlMessage, controlMessageHeaderSize, message.sender.property]
  omega

theorem serializeNodeContact_length {contact : NodeContact}
    (h : contact.endpoint.length ≤ maxContactEndpointSize) :
    (serializeNodeContact contact).length = contactMinSize + contact.endpoint.length := by
  rw [serializeNodeContact, if_neg (not_lt.mpr h)]
  simp only [List.length_append, contact.id.property, contact.publicKey.property,
    contact.virtualAddress.property, beBytes_length, List.length_singleton, contactMinSize]
  omega

theorem deserializeNodeContact_serialize {contact : NodeContact} (tail : Bytes)
    (h : contact.endpoint.length ≤ maxContactEndpointSize) :
    deserializeNodeContact (serializeNodeContact contact ++ tail)
      = .ok (contact, (serializeNodeContact contact).length) := by
  have hlen := serializeNodeContact_length h
  have hlong : ¬ (serializeNodeContact contact ++ tail).length < contactMinSize := by
    rw [List.length_append, hlen]
    omega
  have hep : contact.endpoint.length < 256 ^ 2 := lt_of_le_of_lt h (by decide)
  have hread : readBe 2 80 (serializeNodeContact contact ++ tail) = contact.endpoint.length := by
    rw [serializeNodeContact, if_neg (not_lt.mpr h)]
    simp (disch := omega) only [List.append_assoc, readBe_skip, Nat.reduceSub, Nat.sub_self]
    exact readBe_here _ hep
  have hdrop : (serializeNodeContact contact ++ tail).drop 82
      = contact.endpoint ++ (beBytes 8 contact.lastSeenMs.toNat ++ (beBytes 4 contact.rttMs.toNat
        ++ ([contact.failedPings] ++ tail))) := by
    rw [serializeNodeContact, if_neg (not_lt.mpr h)]
    simp (disch := omega) only [List.append_assoc, drop_skip, drop_skip_be, Nat.reduceSub,
      Nat.sub_self, List.drop_zero]
  have hrest : (serializeNodeContact contact ++ tail).drop (82 + contact.endpoint.length)
      = beBytes 8 contact.lastSeenMs.toNat ++ (beBytes 4 contact.rttMs.toNat
        ++ ([contact.failedPings] ++ tail)) := by
    rw [← List.drop_drop, hdrop, List.drop_left]
  have hid : readArr 32 0 (serializeNodeContact contact ++ tail) = contact.id := by
    rw [serializeNodeContact, if_neg (not_lt.mpr h), List.append_assoc]
    exact readArr_here _ _
  have hkey : readArr 32 32 (serializeNodeContact contact ++ tail) = contact.publicKey := by
    rw [serializeNodeContact, if_neg (not_lt.mpr h)]
    simp (disch := omega) only [List.append_assoc, readArr_skip, Nat.sub_self]
    exact readArr_here _ _
  have haddress : readArr 16 64 (serializeNodeContact contact ++ tail)
      = contact.virtualAddress := by
    rw [serializeNodeContact, if_neg (not_lt.mpr h)]
    simp (disch := omega) only [List.append_assoc, readArr_skip, Nat.reduceSub, Nat.sub_self]
    exact readArr_here _ _
  have hfits : ¬ (contact.endpoint.length > maxContactEndpointSize
      ∨ (serializeNodeContact contact ++ tail).length
        < contactMinSize + contact.endpoint.length) := by
    rw [List.length_append, hlen]
    omega
  rw [deserializeNodeContact, if_neg hlong]
  dsimp only
  rw [hread, if_neg hfits, hdrop, hrest, hid, hkey, haddress, hlen, List.take_left]
  have hseen := readBe_here (n := 8) (beBytes 4 contact.rttMs.toNat
    ++ ([contact.failedPings] ++ tail)) contact.lastSeenMs.toNat_lt
  have hrtt : readBe 4 8 (beBytes 8 contact.lastSeenMs.toNat
      ++ (beBytes 4 contact.rttMs.toNat ++ ([contact.failedPings] ++ tail)))
      = contact.rttMs.toNat := by
    rw [readBe_skip_be _ (by omega)]
    exact readBe_here _ contact.rttMs.toNat_lt
  rw [hseen, hrtt]
  simp (disch := omega) only [drop_skip_be, Nat.reduceSub, Nat.sub_self, List.drop_zero]
  simp

theorem serializeNodeContact_eq_nil {contact : NodeContact} :
    serializeNodeContact contact = [] ↔ contact.endpoint.length > maxContactEndpointSize := by
  constructor
  · intro hnil
    by_contra hfits
    have hlen := serializeNodeContact_length (not_lt.mp hfits)
    rw [hnil, contactMinSize, List.length_nil] at hlen
    omega
  · intro hlong
    rw [serializeNodeContact, if_pos hlong]

/-- Contacts that can all be written. -/
def ContactsFit (contacts : List NodeContact) : Prop :=
  ∀ c ∈ contacts, c.endpoint.length ≤ maxContactEndpointSize

/-- The bytes a list of contacts takes. -/
def contactsWireSize (contacts : List NodeContact) : Nat :=
  (contacts.map fun c => contactMinSize + c.endpoint.length).sum

theorem contactsWireSize_perm {xs ys : List NodeContact} (h : xs.Perm ys) :
    contactsWireSize xs = contactsWireSize ys :=
  (h.map _).sum_eq

theorem ContactsFit.any_eq_false {contacts : List NodeContact} (h : ContactsFit contacts) :
    (contacts.any fun c => serializeNodeContact c = []) = false := by
  rw [List.any_eq_false]
  intro c hc hnil
  rw [decide_eq_true_eq, serializeNodeContact_eq_nil] at hnil
  exact absurd (h c hc) (not_le.mpr hnil)

theorem flatMap_serializeNodeContact_length {contacts : List NodeContact}
    (h : ContactsFit contacts) :
    (contacts.flatMap serializeNodeContact).length = contactsWireSize contacts := by
  rw [List.length_flatMap, contactsWireSize]
  exact congrArg List.sum (List.map_congr_left fun c hc => serializeNodeContact_length (h c hc))

theorem deserializeContacts_serialize (truncated extraneous : String) {contacts : List NodeContact}
    (h : ContactsFit contacts) :
    deserializeContacts truncated extraneous contacts.length
      (contacts.flatMap serializeNodeContact) = .ok contacts := by
  induction contacts with
  | nil => rfl
  | cons c rest ih =>
      have hc := h c List.mem_cons_self
      have hrest : ContactsFit rest := fun d hd => h d (List.mem_cons_of_mem c hd)
      have hne : serializeNodeContact c ++ rest.flatMap serializeNodeContact ≠ [] := by
        intro hnil
        have hlong := serializeNodeContact_eq_nil.mp (List.append_eq_nil_iff.mp hnil).1
        exact absurd hc (not_le.mpr hlong)
      rw [List.flatMap_cons, List.length_cons, deserializeContacts, if_neg hne,
        deserializeNodeContact_serialize _ hc]
      dsimp only
      rw [List.drop_left, ih hrest]

theorem serializeNeighbors_eq {msg : NeighborsMessage} (hcount : msg.peers.length ≤ kademliaK)
    (h : ContactsFit msg.peers) :
    serializeNeighbors msg
      = beBytes 2 msg.peers.length ++ msg.peers.flatMap serializeNodeContact := by
  rw [serializeNeighbors, if_neg (not_lt.mpr hcount), h.any_eq_false]
  rfl

theorem deserializeNeighbors_serialize (msg : NeighborsMessage)
    (hcount : msg.peers.length ≤ kademliaK) (h : ContactsFit msg.peers) :
    deserializeNeighbors (serializeNeighbors msg) = .ok msg := by
  have hsmall : msg.peers.length < 256 ^ 2 := lt_of_le_of_lt hcount (by decide)
  have hlen : ¬ (beBytes 2 msg.peers.length ++ msg.peers.flatMap serializeNodeContact).length
      < 2 := by
    rw [List.length_append, beBytes_length]
    omega
  rw [serializeNeighbors_eq hcount h, deserializeNeighbors, if_neg hlen]
  dsimp only
  rw [readBe_here _ hsmall, if_neg (not_lt.mpr hcount),
    List.drop_left' (beBytes_length 2 _), deserializeContacts_serialize _ _ h]

theorem JoinResponse.boot_endpoint (resp : JoinResponse) :
    resp.boot.endpoint = resp.bootstrapContact.endpoint := by
  unfold boot
  split <;> rfl

theorem serializeJoinResponse_eq {resp : JoinResponse} (hcount : resp.peers.length ≤ kademliaK)
    (h : ContactsFit (resp.boot :: resp.peers)) :
    serializeJoinResponse resp = (if resp.accepted then 1 else 0)
      :: (serializeNodeContact resp.boot ++ (beBytes 2 resp.peers.length
        ++ resp.peers.flatMap serializeNodeContact)) := by
  have hboot : serializeNodeContact resp.boot ≠ [] := by
    intro hnil
    exact absurd (h _ List.mem_cons_self) (not_le.mpr (serializeNodeContact_eq_nil.mp hnil))
  have hpeers : ContactsFit resp.peers := fun c hc => h c (List.mem_cons_of_mem _ hc)
  rw [serializeJoinResponse, if_neg (not_lt.mpr hcount)]
  dsimp only
  rw [if_neg (not_or.mpr ⟨hboot, by rw [hpeers.any_eq_false]; exact Bool.false_ne_true⟩)]
  simp

theorem serializeJoinResponse_eq_nil {resp : JoinResponse}
    (h : resp.bootstrapContact.endpoint.length > maxContactEndpointSize) :
    serializeJoinResponse resp = [] := by
  rw [← resp.boot_endpoint] at h
  unfold serializeJoinResponse
  split
  · rfl
  · exact if_pos (.inl (serializeNodeContact_eq_nil.mpr h))

/-- Reading a join response gives it back, its bootstrap's identifier folded
into the contact. -/
theorem deserializeJoinResponse_serialize {resp : JoinResponse}
    (hcount : resp.peers.length ≤ kademliaK) (h : ContactsFit (resp.boot :: resp.peers)) :
    deserializeJoinResponse (serializeJoinResponse resp)
      = .ok { accepted := resp.accepted
              bootstrapContact := resp.boot
              bootstrapId := resp.boot.id
              peers := resp.peers } := by
  have hboot := h _ List.mem_cons_self
  have hpeers : ContactsFit resp.peers := fun c hc => h c (List.mem_cons_of_mem _ hc)
  have hsmall : resp.peers.length < 256 ^ 2 := lt_of_le_of_lt hcount (by decide)
  have hlen : ¬ (beBytes 2 resp.peers.length ++ resp.peers.flatMap serializeNodeContact).length
      < 2 := by
    rw [List.length_append, beBytes_length]
    omega
  rw [serializeJoinResponse_eq hcount h, deserializeJoinResponse]
  dsimp only
  rw [deserializeNodeContact_serialize _ hboot]
  dsimp only
  rw [List.drop_left, if_neg hlen, readBe_here _ hsmall, if_neg (not_lt.mpr hcount),
    List.drop_left' (beBytes_length 2 _), deserializeContacts_serialize _ _ hpeers]
  cases resp.accepted <;> rfl

theorem deserializeNodeAnnounceAck_serialize (msg : NodeAnnounceAck) :
    deserializeNodeAnnounceAck (serializeNodeAnnounceAck msg) = .ok msg := by
  obtain ⟨accepted, responder⟩ := msg
  have hlen : ((if accepted then (1 : UInt8) else 0) :: responder.val).length
      = nodeAnnounceAckWireSize := by
    rw [List.length_cons, responder.property]
    rfl
  have hid : readArr 32 1 ((if accepted then (1 : UInt8) else 0) :: responder.val) = responder := by
    have hfront := front_append responder []
    rwa [List.append_nil] at hfront
  rw [serializeNodeAnnounceAck, deserializeNodeAnnounceAck, if_neg (not_not.mpr hlen), hid]
  cases accepted <;> rfl

/-! ## What is read -/

theorem deserializeNodeContact_endpoint {data : Bytes} {contact : NodeContact} {consumed : Nat}
    (h : deserializeNodeContact data = .ok (contact, consumed)) :
    contact.endpoint.length ≤ maxContactEndpointSize := by
  unfold deserializeNodeContact at h
  split at h
  · cases h
  · dsimp only at h
    split at h
    · cases h
    · rename_i hfits
      cases h
      exact (List.length_take_le _ _).trans (not_lt.mp fun hlong => hfits (.inl hlong))

theorem deserializeContacts_fit {truncated extraneous : String} {count : Nat} {data : Bytes}
    {contacts : List NodeContact}
    (h : deserializeContacts truncated extraneous count data = .ok contacts) :
    ContactsFit contacts := by
  induction count generalizing data contacts with
  | zero =>
      unfold deserializeContacts at h
      split at h
      · cases h
      · cases h
        exact fun c hc => absurd hc List.not_mem_nil
  | succ count ih =>
      unfold deserializeContacts at h
      split at h
      · cases h
      · split at h
        · cases h
        · rename_i contact consumed hread
          split at h
          · cases h
          · rename_i peers hpeers
            cases h
            intro c hc
            rcases List.mem_cons.mp hc with rfl | hc
            · exact deserializeNodeContact_endpoint hread
            · exact ih hpeers c hc

theorem deserializeNeighbors_fit {data : Bytes} {msg : NeighborsMessage}
    (h : deserializeNeighbors data = .ok msg) : ContactsFit msg.peers := by
  unfold deserializeNeighbors at h
  split at h
  · cases h
  · dsimp only at h
    split at h
    · cases h
    · split at h
      · cases h
      · rename_i peers hpeers
        cases h
        exact deserializeContacts_fit hpeers

theorem deserializeJoinResponse_fit {data : Bytes} {resp : JoinResponse}
    (h : deserializeJoinResponse data = .ok resp) :
    ContactsFit (resp.bootstrapContact :: resp.peers) := by
  unfold deserializeJoinResponse at h
  split at h
  · cases h
  · split at h
    · cases h
    · rename_i contact consumed hboot
      dsimp only at h
      split at h
      · cases h
      · split at h
        · cases h
        · split at h
          · cases h
          · rename_i peers hpeers
            cases h
            intro c hc
            rcases List.mem_cons.mp hc with rfl | hc
            · exact deserializeNodeContact_endpoint hboot
            · exact deserializeContacts_fit hpeers c hc

theorem deserializeJoinResponse_bootstrapId {data : Bytes} {resp : JoinResponse}
    (h : deserializeJoinResponse data = .ok resp) :
    resp.bootstrapId = resp.bootstrapContact.id := by
  unfold deserializeJoinResponse at h
  dsimp only at h
  repeat' split at h
  all_goals cases h
  rfl

theorem deserializeJoinRequest_endpoint {data : Bytes} {request : JoinRequest}
    (h : deserializeJoinRequest data = .ok request) :
    request.endpoint.length ≤ maxContactEndpointSize := by
  unfold deserializeJoinRequest at h
  dsimp only at h
  split at h
  · cases h
  · split at h
    · cases h
    · rename_i hfits
      split at h
      · cases h
      · cases h
        exact (List.length_take_le _ _).trans (not_lt.mp fun hlong => hfits (.inl hlong))

theorem deserializeNodeAnnounce_endpoint {data : Bytes} {announce : NodeAnnounceMessage}
    (h : deserializeNodeAnnounce data = .ok announce) :
    announce.contact.endpoint.length ≤ maxContactEndpointSize := by
  unfold deserializeNodeAnnounce at h
  split at h
  · cases h
  · dsimp only at h
    split at h
    · cases h
    · rename_i hread
      split at h
      · cases h
      · cases h
        exact deserializeNodeContact_endpoint hread

end Madoka

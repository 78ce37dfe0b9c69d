import Madoka.Network.Reencoding

/-!
# Decode Into

The decoders of `network/serialization.cpp` as they are called: with an
output to fill in. Each is given the output as the caller holds it and
returns it as it leaves it. They fill in what the functions of
`Serialization` return, or nothing.
-/

namespace Madoka

open Octets

/-- The answer of a decoder, and the output it was given. -/
def fill {α : Type} (out : α) : Except String α → Except String Unit × α
  | .error error => (.error error, out)
  | .ok value => (.ok (), value)

/-! ## The decoders -/

def deserializeNodeContactInto (data : Bytes) (outContact : NodeContact) (outConsumed : Nat) :
    Except String Unit × NodeContact × Nat :=
  if data.length < contactMinSize then
    (.error "Buffer smaller than minimum node contact size", outContact, outConsumed)
  else
    let epLen := readBe 2 80 data
    let totalSize := contactMinSize + epLen
    if epLen > maxContactEndpointSize ∨ data.length < totalSize then
      (.error "Incomplete node contact buffer", outContact, outConsumed)
    else
      let outContact := { outContact with id := readArr 32 0 data }
      let outContact := { outContact with publicKey := readArr 32 32 data }
      let outContact := { outContact with virtualAddress := readArr 16 64 data }
      let outContact := { outContact with endpoint := (data.drop 82).take epLen }
      let offset := 82 + epLen
      let outContact := { outContact with lastSeenMs := .ofNat (readBe 8 offset data) }
      let offset := offset + 8
      let outContact := { outContact with rttMs := .ofNat (readBe 4 offset data) }
      let offset := offset + 4
      let outContact := { outContact with failedPings := (data.drop offset).headD 0 }
      (.ok (), outContact, totalSize)

def deserializeJoinRequestInto (data : Bytes) (outReq : JoinRequest) :
    Except String Unit × JoinRequest :=
  let minSize := 32 + 32 + 16 + 2 + 8 + 8 + 2
  if data.length < minSize then
    (.error "Buffer smaller than minimum join request size", outReq)
  else
    let epLen := readBe 2 80 data
    if epLen > 255 ∨ data.length < minSize + epLen then
      (.error "Invalid join endpoint length", outReq)
    else
      let tokenSizeOffset := 82 + epLen + 8 + 8
      let tokenLen := readBe 2 tokenSizeOffset data
      let totalSize := minSize + epLen + tokenLen
      if tokenLen > 512 ∨ data.length ≠ totalSize then
        (.error "Join request buffer size mismatch", outReq)
      else
        let outReq := { outReq with nodeId := readArr 32 0 data }
        let outReq := { outReq with publicKey := readArr 32 32 data }
        let outReq := { outReq with virtualAddress := readArr 16 64 data }
        let outReq := { outReq with endpoint := (data.drop 82).take epLen }
        let offset := 82 + epLen
        let outReq := { outReq with timestamp := .ofNat (readBe 8 offset data) }
        let offset := offset + 8
        let outReq := { outReq with nonce := .ofNat (readBe 8 offset data) }
        let offset := offset + 8
        let offset := offset + 2
        let outReq := { outReq with inviteToken := (data.drop offset).take tokenLen }
        (.ok (), outReq)

/-- The loop that appends the routes of an advertisement to its output. -/
def pushRoutes (data : Bytes) : Nat → Nat → RouteAdvertisement → RouteAdvertisement
  | 0, _, outAdv => outAdv
  | count + 1, offset, outAdv =>
      let destinationNode : NodeId := readArr 32 offset data
      let offset := offset + 32
      let destination : IPv6 := readArr 16 offset data
      let offset := offset + 16
      let metric := readBe 4 offset data
      let offset := offset + 4
      let route : Route :=
        { destination, destinationNode, nextHop := zero 32, metric, lastUpdate := 0 }
      pushRoutes data count offset { outAdv with routes := outAdv.routes ++ [route] }

def deserializeRouteAdvertisementInto (data : Bytes) (outAdv : RouteAdvertisement) :
    Except String Unit × RouteAdvertisement :=
  if data.length < routeAdvertisementHeaderSize then
    (.error "Buffer smaller than route advertisement header", outAdv)
  else
    let sender : NodeId := readArr 32 0 data
    let generation := readBe 8 32 data
    let seq := readBe 8 40 data
    let count := readBe 4 48 data
    if count > maxRouteTableEntries then (.error "Declared route count exceeds limit", outAdv)
    else if data.length ≠ routeAdvertisementHeaderSize + count * routeEntryWireSize then
      (.error "Buffer size does not match declared route count", outAdv)
    else
      let outAdv := { outAdv with sender := sender }
      let outAdv := { outAdv with generation := .ofNat generation }
      let outAdv := { outAdv with sequenceNumber := .ofNat seq }
      let outAdv := { outAdv with routes := [] }
      (.ok (), pushRoutes data count routeAdvertisementHeaderSize outAdv)

/-- The loop over a counted list of contacts, each read into a contact of its
own. It ends with the contacts and the offset after them. -/
def readContacts (truncated : String) (data : Bytes) :
    Nat → Nat → List NodeContact → Except String (List NodeContact × Nat)
  | 0, offset, peers => .ok (peers, offset)
  | count + 1, offset, peers =>
      if offset ≥ data.length then .error truncated
      else
        match deserializeNodeContactInto (data.drop offset) (.ofId (zero 32)) 0 with
        | (.error error, _) => .error error
        | (.ok (), contact, consumed) =>
            readContacts truncated data count (offset + consumed) (peers ++ [contact])

def deserializeNeighborsInto (data : Bytes) (outMsg : NeighborsMessage) :
    Except String Unit × NeighborsMessage :=
  if data.length < 2 then (.error "Buffer smaller than neighbors header", outMsg)
  else
    let count := readBe 2 0 data
    if count > kademliaK then (.error "Neighbors peer count exceeds limit", outMsg)
    else
      match readContacts "Truncated neighbors peer data" data count 2 [] with
      | .error error => (.error error, outMsg)
      | .ok (peers, offset) =>
          if offset ≠ data.length then (.error "Extraneous bytes in neighbors message", outMsg)
          else (.ok (), { outMsg with peers := peers })

def deserializeJoinResponseInto (data : Bytes) (outResp : JoinResponse) :
    Except String Unit × JoinResponse :=
  if data = [] then (.error "Empty buffer for join response", outResp)
  else
    let accepted : Bool := data.headD 0 ≠ 0
    let offset := 1
    match deserializeNodeContactInto (data.drop offset) (.ofId (zero 32)) 0 with
    | (.error error, _) => (.error error, outResp)
    | (.ok (), bootstrapContact, bootConsumed) =>
        let offset := offset + bootConsumed
        if data.length < offset + 2 then
          (.error "Buffer smaller than join response peer count", outResp)
        else
          let count := readBe 2 offset data
          let offset := offset + 2
          if count > kademliaK then (.error "Join response peer count exceeds limit", outResp)
          else
            match readContacts "Truncated join response peers" data count offset [] with
            | .error error => (.error error, outResp)
            | .ok (peers, offset) =>
                if offset ≠ data.length then (.error "Extraneous data in join response", outResp)
                else
                  let outResp := { outResp with accepted := accepted }
                  let outResp := { outResp with bootstrapId := bootstrapContact.id }
                  let outResp := { outResp with bootstrapContact := bootstrapContact }
                  let outResp := { outResp with peers := peers }
                  (.ok (), outResp)

def deserializeNodeAnnounceInto (data : Bytes) (outMsg : NodeAnnounceMessage) :
    Except String Unit × NodeAnnounceMessage :=
  if data.length < 8 then (.error "Buffer too small for node announce", outMsg)
  else
    let contactSlice := data.take (data.length - 8)
    match deserializeNodeContactInto contactSlice (.ofId (zero 32)) 0 with
    | (.error error, _) => (.error error, outMsg)
    | (.ok (), contact, consumed) =>
        if consumed ≠ contactSlice.length then
          (.error "Node announce contact size mismatch", outMsg)
        else
          let nonce := readBe 8 (data.length - 8) data
          let outMsg := { outMsg with contact := contact }
          let outMsg := { outMsg with nonce := .ofNat nonce }
          (.ok (), outMsg)

/-! ## What they fill in -/

theorem deserializeNodeContactInto_eq (data : Bytes) (outContact : NodeContact)
    (outConsumed : Nat) :
    deserializeNodeContactInto data outContact outConsumed
      = fill (outContact, outConsumed) (deserializeNodeContact data) := by
  unfold deserializeNodeContactInto deserializeNodeContact
  dsimp only
  split
  · rfl
  · split
    · rfl
    · simp only [fill, readBe_drop, List.drop_drop, Nat.add_zero]

theorem deserializeJoinRequestInto_eq (data : Bytes) (outReq : JoinRequest) :
    deserializeJoinRequestInto data outReq = fill outReq (deserializeJoinRequest data) := by
  unfold deserializeJoinRequestInto deserializeJoinRequest
  dsimp only
  split
  · rfl
  · split
    · rfl
    · split
      · rfl
      · simp only [fill, readBe_drop, List.drop_drop, Nat.add_zero, Nat.add_assoc, Nat.reduceAdd]

theorem deserializeNodeAnnounceInto_eq (data : Bytes) (outMsg : NodeAnnounceMessage) :
    deserializeNodeAnnounceInto data outMsg = fill outMsg (deserializeNodeAnnounce data) := by
  unfold deserializeNodeAnnounceInto deserializeNodeAnnounce
  split
  · rfl
  · dsimp only
    rw [deserializeNodeContactInto_eq]
    cases deserializeNodeContact (data.take (data.length - 8)) with
    | error e => rfl
    | ok read =>
        obtain ⟨contact, consumed⟩ := read
        dsimp only [fill]
        split <;> rfl

theorem pushRoutes_eq (data : Bytes) (count offset : Nat) (outAdv : RouteAdvertisement) :
    pushRoutes data count offset outAdv
      = { outAdv with
          routes := outAdv.routes ++ (List.range count).map fun i =>
            deserializeRoute (data.drop (offset + i * routeEntryWireSize)) } := by
  induction count generalizing offset outAdv with
  | zero => simp [pushRoutes]
  | succ count ih =>
      have hroute : deserializeRoute (data.drop offset)
          = { destination := readArr 16 (offset + 32) data
              destinationNode := readArr 32 offset data
              nextHop := zero 32
              metric := readBe 4 (offset + 32 + 16) data
              lastUpdate := 0 } := by
        simp only [deserializeRoute, readArr_drop, readBe_drop, Nat.add_zero, Nat.add_assoc,
          Nat.reduceAdd]
      have hentry : ∀ i, offset + 32 + 16 + 4 + i * routeEntryWireSize
          = offset + (i + 1) * routeEntryWireSize := by
        intro i
        rw [routeEntryWireSize]
        omega
      rw [pushRoutes, ih, List.range_succ_eq_map, List.map_cons, List.map_map, Nat.zero_mul]
      simp only [Nat.add_zero, hroute, hentry, List.append_assoc, List.singleton_append]
      rfl

theorem deserializeRouteAdvertisementInto_eq (data : Bytes) (outAdv : RouteAdvertisement) :
    deserializeRouteAdvertisementInto data outAdv
      = fill outAdv (deserializeRouteAdvertisement data) := by
  unfold deserializeRouteAdvertisementInto deserializeRouteAdvertisement
  dsimp only
  split
  · rfl
  · split
    · rfl
    · split
      · rfl
      · rw [pushRoutes_eq, List.nil_append]
        rfl

/-- The check after the loop: the contacts end where the buffer ends. -/
def closeContacts (extraneous : String) (data : Bytes) :
    Except String (List NodeContact × Nat) → Except String (List NodeContact)
  | .error error => .error error
  | .ok (peers, offset) => if offset ≠ data.length then .error extraneous else .ok peers

/-- The loop from any offset on: the contacts read there, after those that
were read before. -/
theorem readContacts_eq (truncated extraneous : String) (data : Bytes) (count : Nat)
    {offset : Nat} (peers : List NodeContact) (h : offset ≤ data.length) :
    closeContacts extraneous data (readContacts truncated data count offset peers)
      = (deserializeContacts truncated extraneous count (data.drop offset)).map (peers ++ ·) := by
  induction count generalizing offset peers with
  | zero =>
      have hend : offset ≠ data.length ↔ data.drop offset ≠ [] := by
        rw [ne_eq, ne_eq, List.drop_eq_nil_iff]
        omega
      simp only [readContacts, deserializeContacts, closeContacts, hend]
      split <;> simp [Except.map]
  | succ count ih =>
      have hend : offset ≥ data.length ↔ data.drop offset = [] := by
        rw [List.drop_eq_nil_iff]
      simp only [readContacts, deserializeContacts, hend]
      by_cases hempty : data.drop offset = []
      · rw [if_pos hempty, if_pos hempty]
        rfl
      · rw [if_neg hempty, if_neg hempty, deserializeNodeContactInto_eq]
        cases hread : deserializeNodeContact (data.drop offset) with
        | error e => rfl
        | ok read =>
            obtain ⟨contact, consumed⟩ := read
            have hconsumed := deserializeNodeContact_consumed hread
            rw [List.length_drop] at hconsumed
            have hrest := ih (peers ++ [contact]) (show offset + consumed ≤ data.length by
              have hne := mt List.drop_eq_nil_iff.mpr hempty
              omega)
            dsimp only [fill]
            rw [hrest, List.drop_drop]
            cases deserializeContacts truncated extraneous count (data.drop (offset + consumed)) with
            | error e => rfl
            | ok rest => simp [Except.map]

/-- From a fresh list of contacts. -/
theorem closeContacts_readContacts (truncated extraneous : String) (data : Bytes) (count : Nat)
    {offset : Nat} (h : offset ≤ data.length) :
    closeContacts extraneous data (readContacts truncated data count offset [])
      = deserializeContacts truncated extraneous count (data.drop offset) := by
  rw [readContacts_eq truncated extraneous data count [] h]
  cases deserializeContacts truncated extraneous count (data.drop offset) <;> rfl

theorem deserializeNeighborsInto_eq (data : Bytes) (outMsg : NeighborsMessage) :
    deserializeNeighborsInto data outMsg = fill outMsg (deserializeNeighbors data) := by
  unfold deserializeNeighborsInto deserializeNeighbors
  by_cases hshort : data.length < 2
  · rw [if_pos hshort, if_pos hshort]
    rfl
  · rw [if_neg hshort, if_neg hshort]
    dsimp only
    rw [← closeContacts_readContacts _ _ _ _ (not_lt.mp hshort)]
    split
    · rfl
    · cases readContacts "Truncated neighbors peer data" data (readBe 2 0 data) 2 [] with
      | error e => rfl
      | ok read =>
          dsimp only [closeContacts]
          split <;> rfl

theorem deserializeJoinResponseInto_eq (data : Bytes) (outResp : JoinResponse) :
    deserializeJoinResponseInto data outResp = fill outResp (deserializeJoinResponse data) := by
  cases data with
  | nil => rfl
  | cons accepted data =>
      unfold deserializeJoinResponseInto deserializeJoinResponse
      rw [if_neg (List.cons_ne_nil accepted data)]
      dsimp only
      rw [List.drop_one, List.tail_cons, deserializeNodeContactInto_eq]
      cases hread : deserializeNodeContact data with
      | error e => rfl
      | ok read =>
          obtain ⟨contact, consumed⟩ := read
          have hshift : ∀ k, (accepted :: data).drop (1 + k) = data.drop k := by
            intro k
            rw [Nat.add_comm, List.drop_succ_cons]
          have hcount : readBe 2 (1 + consumed) (accepted :: data) = readBe 2 0 (data.drop consumed) := by
            rw [readBe, readBe, hshift, List.drop_zero]
          have hlength : (accepted :: data).length < 1 + consumed + 2
              ↔ (data.drop consumed).length < 2 := by
            rw [List.length_drop, List.length_cons]
            omega
          dsimp only [fill]
          rw [hcount]
          by_cases hshort : (data.drop consumed).length < 2
          · rw [if_pos hshort, if_pos (hlength.mpr hshort)]
          · have hclose := closeContacts_readContacts "Truncated join response peers"
              "Extraneous data in join response" (accepted :: data)
              (readBe 2 0 (data.drop consumed)) (not_lt.mp (mt hlength.mp hshort))
            rw [Nat.add_assoc, hshift, ← List.drop_drop] at hclose
            rw [if_neg hshort, if_neg (mt hlength.mp hshort), ← hclose, Nat.add_assoc]
            split
            · rfl
            · cases readContacts "Truncated join response peers" (accepted :: data)
                (readBe 2 0 (data.drop consumed)) (1 + (consumed + 2)) [] with
              | error e => rfl
              | ok read =>
                  dsimp only [closeContacts]
                  split <;> rfl

/-! ## What a caller can rely on -/

/-- Decoding these bytes succeeds with this value, whatever the output held. -/
def ReadsBack {α : Type} (decode : Bytes → α → Except String Unit × α) (bytes : Bytes)
    (value : α) : Prop :=
  ∀ out, decode bytes out = (.ok (), value)

/-- Bytes that are accepted are the encoding of what was filled in. -/
def Reencodes {α : Type} (decode : Bytes → α → Except String Unit × α) (encode : α → Bytes) :
    Prop :=
  ∀ data out, (decode data out).1 = .ok () → encode (decode data out).2 = data

/-- A decoder that fails leaves its output alone. -/
def KeepsOutput {α : Type} (decode : Bytes → α → Except String Unit × α) : Prop :=
  ∀ data out error, (decode data out).1 = .error error → (decode data out).2 = out

section Fill

variable {α : Type} {decode : Bytes → α → Except String Unit × α}
  {value : Bytes → Except String α}

theorem readsBack_of_fill (h : ∀ data out, decode data out = fill out (value data)) {bytes : Bytes}
    {a : α} (hread : value bytes = .ok a) : ReadsBack decode bytes a := by
  intro out
  rw [h, hread]
  rfl

theorem reencodes_of_fill (h : ∀ data out, decode data out = fill out (value data))
    {encode : α → Bytes} (hencode : ∀ {data a}, value data = .ok a → encode a = data) :
    Reencodes decode encode := by
  intro data out hok
  rw [h] at hok ⊢
  cases hread : value data with
  | error e =>
      rw [hread] at hok
      cases hok
  | ok a => exact hencode hread

theorem keepsOutput_of_fill (h : ∀ data out, decode data out = fill out (value data)) :
    KeepsOutput decode := by
  intro data out error herror
  rw [h] at herror ⊢
  cases hread : value data with
  | error e => rfl
  | ok a =>
      rw [hread] at herror
      cases herror

end Fill

/-- The payloads that bear contacts are read back as they were written, a
response with its bootstrap's identifier in the contact and an advertisement
without what the receiver sets; the accepted buffers of one encoding each
are encoded as they were read; and a failure shows in no output. -/
theorem contactPayloads_roundTrip :
    (∀ contact tail, contact.endpoint.length ≤ 255 →
      ReadsBack (fun data out => deserializeNodeContactInto data out.1 out.2)
        (serializeNodeContact contact ++ tail) (contact, (serializeNodeContact contact).length))
    ∧ (∀ msg, msg.peers.length ≤ 20 → ContactsFit msg.peers →
      ReadsBack deserializeNeighborsInto (serializeNeighbors msg) msg)
    ∧ (∀ resp, resp.peers.length ≤ 20 → ContactsFit (resp.bootstrapContact :: resp.peers) →
      ReadsBack deserializeJoinResponseInto (serializeJoinResponse resp)
        { resp with bootstrapContact := resp.boot, bootstrapId := resp.boot.id })
    ∧ (∀ msg, msg.contact.endpoint.length ≤ 255 →
      ReadsBack deserializeNodeAnnounceInto (serializeNodeAnnounce msg) msg)
    ∧ (∀ req, req.endpoint.length ≤ 255 ∧ req.inviteToken.length ≤ 512 →
      ReadsBack deserializeJoinRequestInto (serializeJoinRequest req) req)
    ∧ (∀ adv, adv.routes.length ≤ 16 → MetricsFit adv.routes →
      ReadsBack deserializeRouteAdvertisementInto (serializeRouteAdvertisement adv)
        { adv with routes := adv.routes.map Route.onWire })
    ∧ Reencodes deserializeNeighborsInto serializeNeighbors
    ∧ Reencodes deserializeNodeAnnounceInto serializeNodeAnnounce
    ∧ Reencodes deserializeJoinRequestInto serializeJoinRequest
    ∧ Reencodes deserializeRouteAdvertisementInto serializeRouteAdvertisement
    ∧ KeepsOutput (fun data out => deserializeNodeContactInto data out.1 out.2)
    ∧ KeepsOutput deserializeNeighborsInto
    ∧ KeepsOutput deserializeJoinResponseInto
    ∧ KeepsOutput deserializeNodeAnnounceInto
    ∧ KeepsOutput deserializeJoinRequestInto
    ∧ KeepsOutput deserializeRouteAdvertisementInto := by
  have hcontact : ∀ data (out : NodeContact × Nat),
      deserializeNodeContactInto data out.1 out.2 = fill out (deserializeNodeContact data) := by
    intro data out
    exact deserializeNodeContactInto_eq data out.1 out.2
  refine ⟨?_, ?_, ?_, ?_, ?_, ?_, ?_, ?_, ?_, ?_, ?_, ?_, ?_, ?_, ?_, ?_⟩
  · intro contact tail h
    exact readsBack_of_fill hcontact (deserializeNodeContact_serialize tail h)
  · intro msg hcount h
    exact readsBack_of_fill deserializeNeighborsInto_eq
      (deserializeNeighbors_serialize msg hcount h)
  · intro resp hcount h
    have hfit : ContactsFit (resp.boot :: resp.peers) := by
      intro c hc
      rcases List.mem_cons.mp hc with rfl | hc
      · rw [resp.boot_endpoint]
        exact h _ List.mem_cons_self
      · exact h c (List.mem_cons_of_mem _ hc)
    exact readsBack_of_fill deserializeJoinResponseInto_eq
      (deserializeJoinResponse_serialize hcount hfit)
  · intro msg h
    exact readsBack_of_fill deserializeNodeAnnounceInto_eq (deserializeNodeAnnounce_serialize h)
  · intro req h
    exact readsBack_of_fill deserializeJoinRequestInto_eq (deserializeJoinRequest_serialize h)
  · intro adv hcount hmetrics
    exact readsBack_of_fill deserializeRouteAdvertisementInto_eq
      (deserializeRouteAdvertisement_serialize hcount hmetrics)
  · exact reencodes_of_fill deserializeNeighborsInto_eq
      fun h => (serializeNeighbors_deserialize h).1
  · exact reencodes_of_fill deserializeNodeAnnounceInto_eq serializeNodeAnnounce_deserialize
  · exact reencodes_of_fill deserializeJoinRequestInto_eq
      fun h => (serializeJoinRequest_deserialize h).1
  · exact reencodes_of_fill deserializeRouteAdvertisementInto_eq
      fun h => (serializeRouteAdvertisement_deserialize h).1
  · exact keepsOutput_of_fill hcontact
  · exact keepsOutput_of_fill deserializeNeighborsInto_eq
  · exact keepsOutput_of_fill deserializeJoinResponseInto_eq
  · exact keepsOutput_of_fill deserializeNodeAnnounceInto_eq
  · exact keepsOutput_of_fill deserializeJoinRequestInto_eq
  · exact keepsOutput_of_fill deserializeRouteAdvertisementInto_eq

/-- A contact with an IPv4 endpoint. -/
def privateContact : NodeContact where
  id := ⟨List.replicate 32 65, rfl⟩
  publicKey := ⟨List.replicate 32 0xaa, rfl⟩
  virtualAddress := ⟨0xfd :: List.replicate 14 0 ++ [0x0a], rfl⟩
  endpoint := ascii "192.168.1.10:9000"
  lastSeenMs := 12345678
  rttMs := 42
  failedPings := 1

theorem contactPayloads_roundTrip_private :
    ReadsBack deserializeNeighborsInto (serializeNeighbors { peers := [privateContact] })
        { peers := [privateContact] }
      ∧ ReadsBack deserializeNodeAnnounceInto
        (serializeNodeAnnounce { contact := privateContact, nonce := 777 })
        { contact := privateContact, nonce := 777 } := by
  have hfit : privateContact.endpoint.length ≤ 255 := by decide
  obtain ⟨-, hneighbors, -, hannounce, -⟩ := contactPayloads_roundTrip
  constructor
  · apply hneighbors
    · decide
    · intro c hc
      rw [List.mem_singleton.mp hc]
      exact hfit
  · exact hannounce _ hfit

end Madoka

import Madoka.Network.Serialization

/-!
# Reencoding

Reading and writing of the payloads of `network/serialization.cpp` undo each
other: requests, announcements and advertisements are read back as they were
written, and a buffer that is read is the encoding of what was read.
-/

namespace Madoka

open Octets

/-! ## Putting fields back -/

theorem readArr_append_drop {n k : Nat} {data : Bytes} (h : k + n ≤ data.length) :
    (readArr n k data).val ++ data.drop (k + n) = data.drop k :=
  front_append_drop h

theorem readBe_append_drop {n k : Nat} {data : Bytes} (h : k + n ≤ data.length) :
    beBytes n (readBe n k data) ++ data.drop (k + n) = data.drop k :=
  beBytes_append_drop h

theorem readArr_drop (n k m : Nat) (data : Bytes) :
    readArr n k (data.drop m) = readArr n (m + k) data := by
  rw [readArr, readArr, List.drop_drop]

theorem headD_append_drop {k : Nat} {data : Bytes} (h : k < data.length) :
    [(data.drop k).headD 0] ++ data.drop (k + 1) = data.drop k := by
  rw [List.drop_eq_getElem_cons h]
  rfl

theorem readBe_drop (n k m : Nat) (data : Bytes) :
    readBe n k (data.drop m) = readBe n (m + k) data := by
  rw [readBe, readBe, List.drop_drop]

theorem readBe_lt (n k : Nat) (data : Bytes) : readBe n k data < 256 ^ n :=
  lt_of_lt_of_le (ofBe_lt _) (Nat.pow_le_pow_right (by omega) (List.length_take_le _ _))

theorem toNat_readBe_eight (k : Nat) (data : Bytes) :
    (UInt64.ofNat (readBe 8 k data)).toNat = readBe 8 k data :=
  toNat_ofBe_eight (List.length_take_le _ _)

theorem toNat_readBe_four (k : Nat) (data : Bytes) :
    (UInt32.ofNat (readBe 4 k data)).toNat = readBe 4 k data :=
  toNat_ofBe_four (List.length_take_le _ _)

/-! ## Contacts -/

/-- What a contact was read from is its own encoding. -/
theorem serializeNodeContact_deserialize {data : Bytes} {contact : NodeContact} {consumed : Nat}
    (h : deserializeNodeContact data = .ok (contact, consumed)) :
    serializeNodeContact contact ++ data.drop consumed = data
      ∧ consumed = (serializeNodeContact contact).length := by
  have hfit := deserializeNodeContact_endpoint h
  have hlength := serializeNodeContact_length hfit
  unfold deserializeNodeContact at h
  split at h
  · cases h
  · dsimp only at h
    split at h
    · cases h
    · rename_i hsize
      simp only [contactMinSize, not_or, not_lt] at hsize
      cases h
      have hendpoint : ((data.drop 82).take (readBe 2 80 data)).length = readBe 2 80 data := by
        rw [List.length_take, List.length_drop]
        omega
      -- the fields, from the last to the first
      have hpings : [((data.drop (82 + readBe 2 80 data)).drop 12).headD 0]
          ++ data.drop (contactMinSize + readBe 2 80 data)
          = data.drop (82 + readBe 2 80 data + 12) := by
        rw [List.drop_drop, show contactMinSize + readBe 2 80 data
          = 82 + readBe 2 80 data + 12 + 1 by rw [contactMinSize]; omega]
        exact headD_append_drop (by omega)
      have hrtt : beBytes 4 (readBe 4 (82 + readBe 2 80 data + 8) data)
          ++ data.drop (82 + readBe 2 80 data + 12) = data.drop (82 + readBe 2 80 data + 8) :=
        readBe_append_drop (by omega)
      have hseen : beBytes 8 (readBe 8 (82 + readBe 2 80 data) data)
          ++ data.drop (82 + readBe 2 80 data + 8) = data.drop (82 + readBe 2 80 data) :=
        readBe_append_drop (by omega)
      have hcount : beBytes 2 (readBe 2 80 data) ++ data.drop 82 = data.drop 80 :=
        readBe_append_drop (by omega)
      have haddress : (readArr 16 64 data).val ++ data.drop 80 = data.drop 64 :=
        readArr_append_drop (by omega)
      have hkey : (readArr 32 32 data).val ++ data.drop 64 = data.drop 32 :=
        readArr_append_drop (by omega)
      have hid : (readArr 32 0 data).val ++ data.drop 32 = data :=
        readArr_append_drop (by omega)
      constructor
      · rw [serializeNodeContact, if_neg (not_lt.mpr hfit)]
        simp only [List.append_assoc, hendpoint, readBe_drop, toNat_readBe_eight,
          toNat_readBe_four, Nat.add_zero, hpings, hrtt, hseen, take_append_drop_add, hcount, haddress, hkey, hid]
      · rw [hlength]
        simp only [hendpoint]

theorem deserializeNodeContact_consumed {data : Bytes} {contact : NodeContact} {consumed : Nat}
    (h : deserializeNodeContact data = .ok (contact, consumed)) : consumed ≤ data.length := by
  obtain ⟨hbytes, hconsumed⟩ := serializeNodeContact_deserialize h
  have hlength := congrArg List.length hbytes
  rw [List.length_append, ← hconsumed] at hlength
  omega

/-! ## Lists of contacts -/

theorem flatMap_deserializeContacts {truncated extraneous : String} {count : Nat} {data : Bytes}
    {contacts : List NodeContact}
    (h : deserializeContacts truncated extraneous count data = .ok contacts) :
    contacts.flatMap serializeNodeContact = data ∧ contacts.length = count := by
  induction count generalizing data contacts with
  | zero =>
      unfold deserializeContacts at h
      split at h
      · cases h
      · rename_i hempty
        cases h
        exact ⟨(not_not.mp hempty).symm, rfl⟩
  | succ count ih =>
      unfold deserializeContacts at h
      split at h
      · cases h
      · split at h
        · cases h
        · rename_i contact consumed hread
          split at h
          · cases h
          · rename_i peers hpeers
            cases h
            obtain ⟨hrest, hcount⟩ := ih hpeers
            constructor
            · rw [List.flatMap_cons, hrest]
              exact (serializeNodeContact_deserialize hread).1
            · rw [List.length_cons, hcount]

theorem serializeNeighbors_deserialize {data : Bytes} {msg : NeighborsMessage}
    (h : deserializeNeighbors data = .ok msg) :
    serializeNeighbors msg = data ∧ msg.peers.length ≤ kademliaK := by
  have hfit := deserializeNeighbors_fit h
  unfold deserializeNeighbors at h
  split at h
  · cases h
  · rename_i hheader
    dsimp only at h
    split at h
    · cases h
    · rename_i hcount
      split at h
      · cases h
      · rename_i peers hpeers
        cases h
        obtain ⟨hbytes, hlength⟩ := flatMap_deserializeContacts hpeers
        have hle : peers.length ≤ kademliaK := by
          rw [hlength]
          exact not_lt.mp hcount
        constructor
        · rw [serializeNeighbors_eq hle hfit, hbytes, hlength]
          exact readBe_append_drop (k := 0) (by omega)
        · exact hle

/-! ## Announcements -/

theorem deserializeNodeAnnounce_serialize {msg : NodeAnnounceMessage}
    (h : msg.contact.endpoint.length ≤ maxContactEndpointSize) :
    deserializeNodeAnnounce (serializeNodeAnnounce msg) = .ok msg := by
  have hlen : (serializeNodeAnnounce msg).length
      = (serializeNodeContact msg.contact).length + 8 := by
    rw [serializeNodeAnnounce, List.length_append, beBytes_length]
  have hslice : (serializeNodeAnnounce msg).take ((serializeNodeAnnounce msg).length - 8)
      = serializeNodeContact msg.contact := by
    rw [hlen, Nat.add_sub_cancel, serializeNodeAnnounce, List.take_left]
  have hnonce : readBe 8 ((serializeNodeAnnounce msg).length - 8) (serializeNodeAnnounce msg)
      = msg.nonce.toNat := by
    rw [hlen, Nat.add_sub_cancel, readBe, serializeNodeAnnounce, List.drop_left,
      List.take_of_length_le (by simp)]
    exact ofBe_beBytes msg.nonce.toNat_lt
  have hread := deserializeNodeContact_serialize [] h
  rw [List.append_nil] at hread
  rw [deserializeNodeAnnounce, if_neg (by omega)]
  dsimp only
  rw [hslice, hread]
  dsimp only
  rw [if_neg (by simp), hnonce, UInt64.ofNat_toNat]

theorem serializeNodeAnnounce_deserialize {data : Bytes} {msg : NodeAnnounceMessage}
    (h : deserializeNodeAnnounce data = .ok msg) : serializeNodeAnnounce msg = data := by
  unfold deserializeNodeAnnounce at h
  split at h
  · cases h
  · rename_i hlong
    dsimp only at h
    split at h
    · cases h
    · rename_i contact consumed hread
      split at h
      · cases h
      · rename_i hconsumed
        cases h
        obtain ⟨hbytes, -⟩ := serializeNodeContact_deserialize hread
        rw [not_not.mp hconsumed, List.drop_length, List.append_nil] at hbytes
        have hnonce : beBytes 8 (readBe 8 (data.length - 8) data) = data.drop (data.length - 8) := by
          have hfield := @readBe_append_drop 8 (data.length - 8) data (by omega)
          rwa [List.drop_of_length_le (by omega), List.append_nil] at hfield
        rw [serializeNodeAnnounce, hbytes]
        simp only [toNat_readBe_eight, hnonce]
        exact List.take_append_drop _ _

/-! ## Join requests -/

theorem serializeJoinRequest_eq {req : JoinRequest}
    (h : req.endpoint.length ≤ 255 ∧ req.inviteToken.length ≤ 512) :
    serializeJoinRequest req = req.nodeId.val ++ (req.publicKey.val ++ (req.virtualAddress.val
      ++ (beBytes 2 req.endpoint.length ++ (req.endpoint ++ (beBytes 8 req.timestamp.toNat
      ++ (beBytes 8 req.nonce.toNat ++ (beBytes 2 req.inviteToken.length
      ++ req.inviteToken))))))) := by
  rw [serializeJoinRequest, if_neg (by omega)]

theorem serializeJoinRequest_length {req : JoinRequest}
    (h : req.endpoint.length ≤ 255 ∧ req.inviteToken.length ≤ 512) :
    (serializeJoinRequest req).length
      = 100 + req.endpoint.length + req.inviteToken.length := by
  rw [serializeJoinRequest_eq h]
  simp only [List.length_append, req.nodeId.property, req.publicKey.property,
    req.virtualAddress.property, beBytes_length]
  omega

theorem deserializeJoinRequest_serialize {req : JoinRequest}
    (h : req.endpoint.length ≤ 255 ∧ req.inviteToken.length ≤ 512) :
    deserializeJoinRequest (serializeJoinRequest req) = .ok req := by
  have hlen := serializeJoinRequest_length h
  have hendpoint : req.endpoint.length < 256 ^ 2 := by omega
  have htoken : req.inviteToken.length < 256 ^ 2 := by omega
  have hid : readArr 32 0 (serializeJoinRequest req) = req.nodeId := by
    rw [serializeJoinRequest_eq h]
    exact readArr_here _ _
  have hkey : readArr 32 32 (serializeJoinRequest req) = req.publicKey := by
    rw [serializeJoinRequest_eq h]
    simp (disch := omega) only [readArr_skip, Nat.sub_self]
    exact readArr_here _ _
  have haddress : readArr 16 64 (serializeJoinRequest req) = req.virtualAddress := by
    rw [serializeJoinRequest_eq h]
    simp (disch := omega) only [readArr_skip, Nat.reduceSub, Nat.sub_self]
    exact readArr_here _ _
  have hepLen : readBe 2 80 (serializeJoinRequest req) = req.endpoint.length := by
    rw [serializeJoinRequest_eq h]
    simp (disch := omega) only [readBe_skip, Nat.reduceSub, Nat.sub_self]
    exact readBe_here _ hendpoint
  have hdrop : (serializeJoinRequest req).drop 82 = req.endpoint
      ++ (beBytes 8 req.timestamp.toNat ++ (beBytes 8 req.nonce.toNat
      ++ (beBytes 2 req.inviteToken.length ++ req.inviteToken))) := by
    rw [serializeJoinRequest_eq h]
    simp (disch := omega) only [drop_skip, drop_skip_be, Nat.reduceSub, Nat.sub_self,
      List.drop_zero]
  have hrest : (serializeJoinRequest req).drop (82 + req.endpoint.length)
      = beBytes 8 req.timestamp.toNat ++ (beBytes 8 req.nonce.toNat
      ++ (beBytes 2 req.inviteToken.length ++ req.inviteToken)) := by
    rw [← List.drop_drop, hdrop, List.drop_left]
  have htokenLen : readBe 2 (82 + req.endpoint.length + 8 + 8) (serializeJoinRequest req)
      = req.inviteToken.length := by
    rw [Nat.add_assoc, ← readBe_drop, hrest]
    simp (disch := omega) only [readBe_skip_be, Nat.reduceAdd, Nat.reduceSub, Nat.sub_self]
    exact readBe_here _ htoken
  have htime : readBe 8 0 (beBytes 8 req.timestamp.toNat ++ (beBytes 8 req.nonce.toNat
      ++ (beBytes 2 req.inviteToken.length ++ req.inviteToken))) = req.timestamp.toNat :=
    readBe_here _ req.timestamp.toNat_lt
  have hnonce : readBe 8 8 (beBytes 8 req.timestamp.toNat ++ (beBytes 8 req.nonce.toNat
      ++ (beBytes 2 req.inviteToken.length ++ req.inviteToken))) = req.nonce.toNat := by
    rw [readBe_skip_be _ (by omega)]
    exact readBe_here _ req.nonce.toNat_lt
  have hbody : (beBytes 8 req.timestamp.toNat ++ (beBytes 8 req.nonce.toNat
      ++ (beBytes 2 req.inviteToken.length ++ req.inviteToken))).drop 18 = req.inviteToken := by
    simp (disch := omega) only [drop_skip_be, Nat.reduceSub, Nat.sub_self, List.drop_zero]
  unfold deserializeJoinRequest
  dsimp only
  rw [hepLen, htokenLen, hrest, if_neg (by omega), if_neg (by omega), if_neg (by omega)]
  rw [hid, hkey, haddress, hdrop, htime, hnonce, hbody, List.take_left, List.take_length,
    UInt64.ofNat_toNat, UInt64.ofNat_toNat]

theorem serializeJoinRequest_deserialize {data : Bytes} {req : JoinRequest}
    (h : deserializeJoinRequest data = .ok req) :
    serializeJoinRequest req = data
      ∧ req.endpoint.length ≤ 255 ∧ req.inviteToken.length ≤ 512 := by
  unfold deserializeJoinRequest at h
  dsimp only at h
  split at h
  · cases h
  · split at h
    · cases h
    · rename_i hendpointFits
      split at h
      · cases h
      · rename_i hsize
        cases h
        generalize hep : readBe 2 80 data = epLen at *
        generalize htok : readBe 2 (82 + epLen + 8 + 8) data = tokenLen at *
        have hendpoint : ((data.drop 82).take epLen).length = epLen := by
          rw [List.length_take, List.length_drop]
          omega
        have htoken : ((data.drop (82 + epLen)).drop 18).take tokenLen
            = data.drop (82 + epLen + 18) := by
          rw [List.drop_drop, List.take_of_length_le]
          rw [List.length_drop]
          omega
        have htokenLen : (data.drop (82 + epLen + 18)).length = tokenLen := by
          rw [List.length_drop]
          omega
        have hcountToken : beBytes 2 tokenLen ++ data.drop (82 + epLen + 18)
            = data.drop (82 + epLen + 16) := by
          rw [← htok]
          exact readBe_append_drop (by omega)
        have hnonce : beBytes 8 (readBe 8 (82 + epLen + 8) data)
            ++ data.drop (82 + epLen + 16) = data.drop (82 + epLen + 8) :=
          readBe_append_drop (by omega)
        have htime : beBytes 8 (readBe 8 (82 + epLen) data)
            ++ data.drop (82 + epLen + 8) = data.drop (82 + epLen) :=
          readBe_append_drop (by omega)
        have hcount : beBytes 2 epLen ++ data.drop 82 = data.drop 80 := by
          rw [← hep]
          exact readBe_append_drop (by omega)
        have haddress : (readArr 16 64 data).val ++ data.drop 80 = data.drop 64 :=
          readArr_append_drop (by omega)
        have hkey : (readArr 32 32 data).val ++ data.drop 64 = data.drop 32 :=
          readArr_append_drop (by omega)
        have hid : (readArr 32 0 data).val ++ data.drop 32 = data :=
          readArr_append_drop (by omega)
        have hfits : ((data.drop 82).take epLen).length ≤ 255
            ∧ (data.drop (82 + epLen + 18)).length ≤ 512 := by
          omega
        rw [htoken]
        constructor
        · rw [serializeJoinRequest_eq hfits]
          simp only [hendpoint, htokenLen, readBe_drop, toNat_readBe_eight, Nat.add_zero,
            hcountToken, hnonce, htime, take_append_drop_add, hcount, haddress, hkey, hid]
        · exact hfits

/-! ## Route advertisements -/

/-- A route as its entry holds it: the receiver sets the next hop and the
time itself. -/
def Route.onWire (r : Route) : Route :=
  { r with nextHop := zero 32, lastUpdate := 0 }

/-- Metrics are 32-bit integers. -/
def MetricsFit (routes : List Route) : Prop :=
  ∀ r ∈ routes, r.metric < 2 ^ 32

@[simp] theorem serializeRoute_length (r : Route) :
    (serializeRoute r).length = routeEntryWireSize := by
  simp [serializeRoute, r.destinationNode.property, r.destination.property, routeEntryWireSize]

theorem deserializeRoute_serialize {r : Route} (tail : Bytes) (h : r.metric < 2 ^ 32) :
    deserializeRoute (serializeRoute r ++ tail) = r.onWire := by
  have hbytes : serializeRoute r ++ tail
      = r.destinationNode.val ++ (r.destination.val ++ (beBytes 4 r.metric ++ tail)) := by
    simp only [serializeRoute, List.append_assoc]
  have hnode : readArr 32 0 (serializeRoute r ++ tail) = r.destinationNode := by
    rw [hbytes]
    exact readArr_here _ _
  have hdestination : readArr 16 32 (serializeRoute r ++ tail) = r.destination := by
    rw [hbytes, readArr_skip _ _ (by omega)]
    exact readArr_here _ _
  have hmetric : readBe 4 48 (serializeRoute r ++ tail) = r.metric := by
    rw [hbytes]
    simp (disch := omega) only [readBe_skip, Nat.reduceSub, Nat.sub_self]
    exact readBe_here _ h
  rw [deserializeRoute, hnode, hdestination, hmetric]
  rfl

theorem deserializeRoutes_serialize {routes : List Route} (h : MetricsFit routes) :
    ((List.range routes.length).map fun i =>
      deserializeRoute ((routes.flatMap serializeRoute).drop (i * routeEntryWireSize)))
      = routes.map Route.onWire := by
  induction routes with
  | nil => rfl
  | cons r rest ih =>
      have hr := h r List.mem_cons_self
      have hrest : MetricsFit rest := fun s hs => h s (List.mem_cons_of_mem r hs)
      rw [List.length_cons, List.range_succ_eq_map, List.map_cons, List.map_map, List.flatMap_cons,
        Nat.zero_mul, List.drop_zero, deserializeRoute_serialize _ hr, List.map_cons, ← ih hrest]
      congr 1
      apply List.map_congr_left
      intro i hi
      show deserializeRoute (List.drop ((i + 1) * routeEntryWireSize) _) = _
      rw [Nat.add_mul, Nat.one_mul, Nat.add_comm, ← List.drop_drop,
        List.drop_left' (serializeRoute_length r)]

theorem serializeRouteAdvertisement_eq {adv : RouteAdvertisement}
    (h : adv.routes.length ≤ maxRouteTableEntries) :
    serializeRouteAdvertisement adv = adv.sender.val ++ (beBytes 8 adv.generation.toNat
      ++ (beBytes 8 adv.sequenceNumber.toNat ++ (beBytes 4 adv.routes.length
      ++ adv.routes.flatMap serializeRoute))) := by
  rw [serializeRouteAdvertisement, if_neg (not_lt.mpr h)]
  simp only [List.append_assoc]

theorem flatMap_serializeRoute_length (routes : List Route) :
    (routes.flatMap serializeRoute).length = routes.length * routeEntryWireSize := by
  induction routes with
  | nil => rfl
  | cons r rest ih =>
      rw [List.flatMap_cons, List.length_append, ih, serializeRoute_length, List.length_cons,
        Nat.add_mul, Nat.one_mul, Nat.add_comm]

theorem serializeRouteAdvertisement_length {adv : RouteAdvertisement}
    (h : adv.routes.length ≤ maxRouteTableEntries) :
    (serializeRouteAdvertisement adv).length
      = routeAdvertisementHeaderSize + adv.routes.length * routeEntryWireSize := by
  rw [serializeRouteAdvertisement_eq h]
  simp only [List.length_append, adv.sender.property, beBytes_length,
    flatMap_serializeRoute_length, routeAdvertisementHeaderSize]
  omega

theorem readBe_serializeRouteAdvertisement {adv : RouteAdvertisement}
    (h : adv.routes.length ≤ maxRouteTableEntries) :
    readBe 4 48 (serializeRouteAdvertisement adv) = adv.routes.length := by
  have hcountFits : adv.routes.length < 256 ^ 4 := lt_of_le_of_lt h (by decide)
  rw [serializeRouteAdvertisement_eq h]
  simp (disch := omega) only [readBe_skip, readBe_skip_be, Nat.reduceSub, Nat.sub_self]
  exact readBe_here _ hcountFits

/-- Reading an advertisement gives it back, but for what the receiver sets
itself. -/
theorem deserializeRouteAdvertisement_serialize {adv : RouteAdvertisement}
    (h : adv.routes.length ≤ maxRouteTableEntries) (hmetrics : MetricsFit adv.routes) :
    deserializeRouteAdvertisement (serializeRouteAdvertisement adv)
      = .ok { adv with routes := adv.routes.map Route.onWire } := by
  have hlen := serializeRouteAdvertisement_length h
  have hcount := readBe_serializeRouteAdvertisement h
  have hsender : readArr 32 0 (serializeRouteAdvertisement adv) = adv.sender := by
    rw [serializeRouteAdvertisement_eq h]
    exact readArr_here _ _
  have hgeneration : readBe 8 32 (serializeRouteAdvertisement adv) = adv.generation.toNat := by
    rw [serializeRouteAdvertisement_eq h, readBe_skip _ _ (by omega)]
    exact readBe_here _ adv.generation.toNat_lt
  have hsequence : readBe 8 40 (serializeRouteAdvertisement adv)
      = adv.sequenceNumber.toNat := by
    rw [serializeRouteAdvertisement_eq h]
    simp (disch := omega) only [readBe_skip, readBe_skip_be, Nat.reduceSub, Nat.sub_self]
    exact readBe_here _ adv.sequenceNumber.toNat_lt
  have hroutes : (serializeRouteAdvertisement adv).drop routeAdvertisementHeaderSize
      = adv.routes.flatMap serializeRoute := by
    rw [serializeRouteAdvertisement_eq h]
    simp (disch := omega) only [routeAdvertisementHeaderSize, drop_skip, drop_skip_be,
      Nat.reduceAdd, Nat.reduceSub, Nat.sub_self, List.drop_zero]
  unfold deserializeRouteAdvertisement
  dsimp only
  rw [if_neg (by omega), hcount, if_neg (not_lt.mpr h), if_neg (not_not.mpr hlen), hsender,
    hgeneration, hsequence, UInt64.ofNat_toNat, UInt64.ofNat_toNat]
  simp only [← List.drop_drop, hroutes]
  rw [deserializeRoutes_serialize hmetrics]

theorem serializeRoute_deserialize {entry : Bytes} (h : routeEntryWireSize ≤ entry.length) :
    serializeRoute (deserializeRoute entry) = entry.take routeEntryWireSize := by
  rw [routeEntryWireSize] at h
  have hmetric : beBytes 4 (readBe 4 48 entry) = (entry.drop 48).take 4 := by
    rw [readBe, beBytes_ofBe (by rw [List.length_take, List.length_drop]; omega)]
  have hdestination : (readArr 16 32 entry).val = (entry.drop 32).take 16 :=
    front_val (by rw [List.length_drop]; omega)
  have hnode : (readArr 32 0 entry).val = entry.take 32 :=
    front_val (by rw [List.drop_zero]; omega)
  simp only [serializeRoute, deserializeRoute, hmetric, hdestination, hnode]
  rw [← List.take_add, ← List.take_add]
  rfl

/-- Consecutive entries of one width, put together again. -/
theorem flatMap_entries {width n : Nat} {bs : Bytes} :
    ((List.range n).flatMap fun i => (bs.drop (i * width)).take width) = bs.take (n * width) := by
  induction n with
  | zero => simp
  | succ n ih =>
      rw [List.range_succ, List.flatMap_append, ih, List.flatMap_singleton, ← List.take_add,
        Nat.add_mul, Nat.one_mul]

theorem serializeRouteAdvertisement_deserialize {data : Bytes} {adv : RouteAdvertisement}
    (h : deserializeRouteAdvertisement data = .ok adv) :
    serializeRouteAdvertisement adv = data ∧ adv.routes.length ≤ maxRouteTableEntries
      ∧ MetricsFit adv.routes := by
  unfold deserializeRouteAdvertisement at h
  dsimp only at h
  split at h
  · cases h
  · split at h
    · cases h
    · rename_i hlimit
      split at h
      · cases h
      · rename_i hsize
        cases h
        generalize hread : readBe 4 48 data = count at *
        rw [not_not, routeAdvertisementHeaderSize] at hsize
        have hlength : ((List.range count).map fun i => deserializeRoute
            (data.drop (routeAdvertisementHeaderSize + i * routeEntryWireSize))).length = count := by
          simp
        have hroutes : (((List.range count).map fun i => deserializeRoute
            (data.drop (routeAdvertisementHeaderSize + i * routeEntryWireSize))).flatMap
              serializeRoute) = data.drop 52 := by
          rw [List.flatMap_map]
          have hentries := @flatMap_entries routeEntryWireSize count (data.drop 52)
          rw [List.take_of_length_le (by rw [List.length_drop]; omega)] at hentries
          rw [← hentries]
          apply List.flatMap_congr
          intro i hi
          have hlt : i * routeEntryWireSize + routeEntryWireSize ≤ count * routeEntryWireSize := by
            rw [← Nat.succ_mul]
            exact Nat.mul_le_mul_right _ (List.mem_range.mp hi)
          rw [List.drop_drop]
          apply serializeRoute_deserialize
          rw [List.length_drop, routeAdvertisementHeaderSize]
          omega
        have hcount : beBytes 4 count ++ data.drop 52 = data.drop 48 := by
          rw [← hread]
          exact readBe_append_drop (by omega)
        have hsequence : beBytes 8 (readBe 8 40 data) ++ data.drop 48 = data.drop 40 :=
          readBe_append_drop (by omega)
        have hgeneration : beBytes 8 (readBe 8 32 data) ++ data.drop 40 = data.drop 32 :=
          readBe_append_drop (by omega)
        have hsender : (readArr 32 0 data).val ++ data.drop 32 = data :=
          readArr_append_drop (by omega)
        constructor
        · rw [serializeRouteAdvertisement_eq (by dsimp only; omega)]
          simp only [hlength, hroutes, toNat_readBe_eight, hcount, hsequence, hgeneration, hsender]
        · constructor
          · dsimp only
            omega
          · intro r hr
            obtain ⟨i, -, rfl⟩ := List.mem_map.mp hr
            exact readBe_lt 4 _ _

end Madoka

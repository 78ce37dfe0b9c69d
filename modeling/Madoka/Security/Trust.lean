import Madoka.Lib.LowerBound
import Madoka.Platform.PrivateStorage
import Madoka.Security.Base64Url

/-!
# Trust

The trusted peers of `security/invite.cpp`: the record one peer is stored
as, loading all records of the state directory, and the sorted table in
memory that `trust_find` and `trust_add` search with `std::lower_bound`.
-/

namespace Madoka

open Octets

def maxTrustedPeers : Nat := 15
def maximumEndpointSize : Nat := 255

structure TrustedPeer where
  id : NodeId
  publicKey : PublicKey
  endpoint : Bytes
deriving DecidableEq

structure TrustState where
  directory : Bytes
  peers : List TrustedPeer
deriving DecidableEq

variable (x : External)

def validEndpoint (endpoint : Bytes) : Bool :=
  endpoint ≠ [] ∧ endpoint.length ≤ maximumEndpointSize ∧ 0 ∉ endpoint
    ∧ usableEndpoint x endpoint

def validIdentityBinding (peer : TrustedPeer) : Bool :=
  peer.id ≠ zero 32 ∧ x.sha256 peer.publicKey = peer.id

/-! ## The record of one peer -/

def peerPrefix : Bytes := ascii "madoka-peer-v1:"
def newline : UInt8 := 10

/-- The name of the peer's record in the state directory. -/
def peerPath (id : NodeId) : Bytes :=
  ascii "peer-" ++ hex id.val ++ ascii ".trust"

def peerBytes (peer : TrustedPeer) : Bytes :=
  [1] ++ peer.id.val ++ peer.publicKey.val ++ beBytes 2 peer.endpoint.length ++ peer.endpoint

def encodePeer (peer : TrustedPeer) : Bytes :=
  peerPrefix ++ base64urlEncode (peerBytes peer) ++ [newline]

def decodePeer (text : Bytes) : Except String TrustedPeer :=
  if !peerPrefix.isPrefixOf text ∨ text.getLast? ≠ some newline then
    .error "Invalid trusted peer record"
  else
    match base64urlDecode (text.drop peerPrefix.length).dropLast with
    | .error error => .error error
    | .ok bytes =>
        if bytes.length < 1 + 32 + 32 + 2 ∨ bytes.head? ≠ some 1 then
          .error "Invalid trusted peer record"
        else
          let endpointSize := ofBe ((bytes.drop 65).take 2)
          if endpointSize = 0 ∨ endpointSize > maximumEndpointSize
              ∨ bytes.length ≠ 67 + endpointSize then
            .error "Invalid trusted peer endpoint"
          else
            let decoded : TrustedPeer :=
              { id := front 32 (bytes.drop 1)
                publicKey := front 32 (bytes.drop 33)
                endpoint := (bytes.drop 67).take endpointSize }
            if !validIdentityBinding x decoded ∨ !validEndpoint x decoded.endpoint then
              .error "Invalid trusted peer identity or endpoint"
            else .ok decoded

/-! ## The state directory -/

def trustDirectory (identityFile : Bytes) : Bytes :=
  identityFile ++ ascii ".state"

/-- What the system answers while the records are loaded. -/
structure LoadAnswers where
  ensureDirectory : SystemResult
  read : Bytes → SystemResult
  iterate : SystemResult

def LoadAnswers.success : LoadAnswers where
  ensureDirectory := none
  read := fun _ => none
  iterate := none

/-- The directory entries that are taken for records. -/
def isPeerFile (filename : Bytes) : Bool :=
  (ascii "peer-").isPrefixOf filename ∧ (ascii ".trust").isSuffixOf filename

/-- One turn of the loading loop. -/
def trustLoadEntry (answers : LoadAnswers) (loaded : List TrustedPeer)
    (entry : Sigma fun _ : Bytes => Bytes) : Except String (List TrustedPeer) :=
  if !isPeerFile entry.1 then .ok loaded
  else
    match answers.read entry.1 with
    | some error => .error error
    | none =>
    if entry.2.length > 1024 then .error "Private file exceeds its size limit"
    else
      match decodePeer x entry.2 with
      | .error error => .error error
      | .ok peer =>
          if entry.1 ≠ peerPath peer.id then .error "Invalid trusted peer filename"
          else if loaded.any (fun existing => existing.id = peer.id)
              ∨ loaded.length = maxTrustedPeers then
            .error "Duplicate or excessive trusted peer state"
          else .ok (loaded ++ [peer])

def trustLoad (d : Directory) (identityFile : Bytes) (answers : LoadAnswers) :
    Except String TrustState :=
  if identityFile = [] then .error "Invalid trust state"
  else
    match answers.ensureDirectory with
    | some error => .error error
    | none =>
    match d.entries.foldlM (trustLoadEntry x answers) [] with
    | .error error => .error error
    | .ok loaded =>
    match answers.iterate with
    | some error => .error ("Cannot enumerate trusted peers: " ++ error)
    | none =>
        .ok { directory := trustDirectory identityFile
              peers := loaded.insertionSort fun left right => left.id ≤ right.id }

/-! ## The table in memory -/

def trustFind (state : TrustState) (id : NodeId) : Option TrustedPeer :=
  LowerBound.find? TrustedPeer.id id state.peers

def trustContains (state : TrustState) (id : NodeId) : Bool :=
  (trustFind state id).isSome

def trustAddressAvailable (state : TrustState) (network : IPv6)
    (localId candidateId : NodeId) : Bool :=
  if candidateId = zero 32 ∨ candidateId = localId then false
  else
    let candidate := virtualAddress network candidateId
    if candidate = virtualAddress network localId ∨ (candidate.val.drop 8).all (· = 0) then false
    else state.peers.all fun peer =>
      !(peer.id ≠ candidateId ∧ virtualAddress network peer.id = candidate)

/-- What the system answers to the storage steps of `trust_add`. -/
structure TrustAddAnswers where
  ensureDirectory : SystemResult
  write : WriteAnswers

def trustAdd (state : TrustState) (d : Directory) (peer : TrustedPeer)
    (answers : TrustAddAnswers) : Except String Unit × TrustState × Directory :=
  if state.directory = [] ∨ !validEndpoint x peer.endpoint ∨ !validIdentityBinding x peer then
    (.error "Invalid trusted peer", state, d)
  else
    match answers.ensureDirectory with
    | some error => (.error error, state, d)
    | none =>
    let found := LowerBound.index TrustedPeer.id peer.id state.peers
    if found = state.peers.length ∧ state.peers.length = maxTrustedPeers then
      (.error "Trust table is full", state, d)
    else
      match privateWriteAtomically d (peerPath peer.id) (encodePeer peer) answers.write with
      | (.error error, d) => (.error error, state, d)
      | (.ok (), d) =>
          (.ok (), { state with peers := LowerBound.put TrustedPeer.id peer state.peers }, d)

variable {x}

/-! ## The record's round trip -/

theorem validEndpoint_iff {endpoint : Bytes} :
    validEndpoint x endpoint = true ↔ endpoint ≠ [] ∧ endpoint.length ≤ 255 ∧ 0 ∉ endpoint
      ∧ usableEndpoint x endpoint = true := by
  rw [validEndpoint, decide_eq_true_eq, maximumEndpointSize]

@[simp] theorem peerBytes_length (peer : TrustedPeer) :
    (peerBytes peer).length = 67 + peer.endpoint.length := by
  simp [peerBytes, peer.id.property, peer.publicKey.property]
  omega

/-- A record of an acceptable peer fits the 1024 bytes it is read back with. -/
theorem encodePeer_length {peer : TrustedPeer} (h : peer.endpoint.length ≤ 255) :
    (encodePeer peer).length ≤ 1024 := by
  have hprefix : peerPrefix.length = 15 := by decide
  have henc := base64urlEncode_length (peerBytes peer)
  rw [peerBytes_length] at henc
  simp only [encodePeer, List.length_append, List.length_singleton, hprefix]
  omega

theorem decodePeer_encodePeer {peer : TrustedPeer} (he : validEndpoint x peer.endpoint = true)
    (hb : validIdentityBinding x peer = true) : decodePeer x (encodePeer peer) = .ok peer := by
  obtain ⟨hne, hle, -, -⟩ := validEndpoint_iff.mp he
  have hlen : 0 < peer.endpoint.length := List.length_pos_iff.mpr hne
  have hbytes : peerBytes peer = [1] ++ (peer.id.val ++ (peer.publicKey.val
      ++ (beBytes 2 peer.endpoint.length ++ peer.endpoint))) := by
    simp [peerBytes]
  -- where each field of the record starts
  have hid : (peerBytes peer).drop 1 = peer.id.val ++ (peer.publicKey.val
      ++ (beBytes 2 peer.endpoint.length ++ peer.endpoint)) := by
    rw [hbytes]; rfl
  have hkey : (peerBytes peer).drop 33 = peer.publicKey.val
      ++ (beBytes 2 peer.endpoint.length ++ peer.endpoint) := by
    rw [show 33 = 1 + 32 from rfl, ← List.drop_drop, hid, List.drop_left' peer.id.property]
  have hsize : (peerBytes peer).drop 65 = beBytes 2 peer.endpoint.length ++ peer.endpoint := by
    rw [show 65 = 33 + 32 from rfl, ← List.drop_drop, hkey, List.drop_left' peer.publicKey.property]
  have hend : (peerBytes peer).drop 67 = peer.endpoint := by
    rw [show 67 = 65 + 2 from rfl, ← List.drop_drop, hsize, List.drop_left' (by simp)]
  have hcount : ofBe (((peerBytes peer).drop 65).take 2) = peer.endpoint.length := by
    rw [hsize, List.take_left' (by simp), ofBe_beBytes (by omega)]
  have hpre : peerPrefix.isPrefixOf (encodePeer peer) = true := by
    rw [List.isPrefixOf_iff_prefix, encodePeer, List.append_assoc]
    exact List.prefix_append _ _
  have htext : ((encodePeer peer).drop peerPrefix.length).dropLast
      = base64urlEncode (peerBytes peer) := by
    rw [encodePeer, List.append_assoc, List.drop_left, List.dropLast_concat]
  have hdecode : base64urlDecode (base64urlEncode (peerBytes peer)) = .ok (peerBytes peer) :=
    base64urlDecode_encode (by simp [hbytes])
  have hlast : (encodePeer peer).getLast? = some newline := by simp [encodePeer]
  have hhead : (peerBytes peer).head? = some 1 := by rw [hbytes]; rfl
  unfold decodePeer
  rw [hpre, htext, hdecode]
  simp only [hcount, hid, hkey, hend, front_append, List.take_length, hlast, hhead,
    peerBytes_length]
  rw [if_neg (by simp), if_neg (by simp), if_neg (by simp only [maximumEndpointSize]; omega),
    if_neg (by simp [he, hb])]

/-! ## The record is canonical -/

theorem peerBytes_of_fields {bytes : Bytes} (hlen : bytes.length = 67 + ofBe ((bytes.drop 65).take 2))
    (hhead : bytes.head? = some 1) :
    peerBytes
        { id := front 32 (bytes.drop 1)
          publicKey := front 32 (bytes.drop 33)
          endpoint := (bytes.drop 67).take (ofBe ((bytes.drop 65).take 2)) } = bytes := by
  have hendpoint : (bytes.drop 67).take (ofBe ((bytes.drop 65).take 2)) = bytes.drop 67 := by
    rw [List.take_of_length_le]
    rw [List.length_drop]
    omega
  have hsize : (bytes.drop 67).length = ofBe ((bytes.drop 65).take 2) := by
    rw [List.length_drop]
    omega
  have hversion : [1] ++ bytes.drop 1 = bytes := by
    cases bytes with
    | nil => cases hhead
    | cons version rest =>
        cases hhead
        rfl
  have hid : (front 32 (bytes.drop 1)).val ++ bytes.drop 33 = bytes.drop 1 :=
    front_append_drop (by omega)
  have hkey : (front 32 (bytes.drop 33)).val ++ bytes.drop 65 = bytes.drop 33 :=
    front_append_drop (by omega)
  have hcount : beBytes 2 (ofBe ((bytes.drop 65).take 2)) ++ bytes.drop 67 = bytes.drop 65 :=
    beBytes_append_drop (by omega)
  rw [hendpoint]
  simp only [peerBytes, hsize, List.append_assoc, hcount, hkey, hid]
  exact hversion

/-- The prefix ends in a colon, so the newline is the body's. -/
theorem dropLast_append_newline {body : Bytes}
    (h : (peerPrefix ++ body).getLast? = some newline) : body.dropLast ++ [newline] = body := by
  cases hbody : body.getLast? with
  | none =>
      rw [List.getLast?_eq_none_iff.mp hbody] at h
      exact absurd h (by decide)
  | some last =>
      rw [List.getLast?_append, hbody, Option.some_or] at h
      cases h
      exact List.dropLast_append_getLast? newline hbody

/-- Whatever is read back passed the checks a new peer has to pass, and the
text is its record. -/
theorem decodePeer_ok {text : Bytes} {peer : TrustedPeer} (h : decodePeer x text = .ok peer) :
    validEndpoint x peer.endpoint = true ∧ validIdentityBinding x peer = true
      ∧ encodePeer peer = text := by
  unfold decodePeer at h
  split at h
  · cases h
  · rename_i hframe
    obtain ⟨hstart, hlast⟩ := not_or.mp hframe
    simp only [Bool.not_eq_true', Bool.not_eq_false] at hstart
    obtain ⟨body, rfl⟩ := List.isPrefixOf_iff_prefix.mp hstart
    rw [List.drop_left] at h
    split at h
    · cases h
    · rename_i bytes hbytes
      split at h
      · cases h
      · rename_i hshort
        dsimp only at h
        split at h
        · cases h
        · rename_i hsize
          split at h
          · cases h
          · rename_i hvalid
            cases h
            have hpayload := @peerBytes_of_fields bytes (by omega) (by tauto)
            simp only [Bool.not_eq_true', not_or, Bool.not_eq_false] at hvalid
            refine ⟨hvalid.2, hvalid.1, ?_⟩
            rw [encodePeer, hpayload, base64urlEncode_decode hbytes, List.append_assoc,
              dropLast_append_newline (not_not.mp hlast)]

/-! ## The name of the record -/

theorem peerPath_injective : Function.Injective peerPath := by
  intro id id' h
  rw [peerPath, peerPath, List.append_left_inj, List.append_right_inj] at h
  exact Subtype.ext (hex_injective h)

theorem isPeerFile_peerPath (id : NodeId) : isPeerFile (peerPath id) = true := by
  have hstart : (ascii "peer-").isPrefixOf (peerPath id) = true := by
    rw [List.isPrefixOf_iff_prefix, peerPath, List.append_assoc]
    exact List.prefix_append _ _
  have hend : (ascii ".trust").isSuffixOf (peerPath id) = true := by
    rw [List.isSuffixOf_iff_suffix, peerPath]
    exact List.suffix_append _ _
  simp [isPeerFile, hstart, hend]

/-! ## What one `trust_add` does -/

/-- The call gets as far as writing the record. -/
structure WritesRecord (x : External) (state : TrustState) (peer : TrustedPeer)
    (answers : TrustAddAnswers) : Prop where
  directory : state.directory ≠ []
  endpoint : validEndpoint x peer.endpoint = true
  binding : validIdentityBinding x peer = true
  ensured : answers.ensureDirectory = none
  room : ¬ (LowerBound.index TrustedPeer.id peer.id state.peers = state.peers.length
    ∧ state.peers.length = maxTrustedPeers)

/-- Refused before the record is written, or what the write leaves. -/
theorem trustAdd_eq (x : External) (state : TrustState) (d : Directory) (peer : TrustedPeer)
    (answers : TrustAddAnswers) :
    (¬ WritesRecord x state peer answers
        ∧ ∃ e, trustAdd x state d peer answers = (.error e, state, d))
      ∨ WritesRecord x state peer answers
        ∧ trustAdd x state d peer answers
          = match privateWriteAtomically d (peerPath peer.id) (encodePeer peer) answers.write with
            | (.error e, d') => (.error e, state, d')
            | (.ok (), d') =>
                (.ok (), { state with peers := LowerBound.put TrustedPeer.id peer state.peers },
                  d') := by
  unfold trustAdd
  by_cases hvalid : state.directory = [] ∨ (!validEndpoint x peer.endpoint) = true
      ∨ (!validIdentityBinding x peer) = true
  · rw [if_pos hvalid]
    refine .inl ⟨fun h => ?_, _, rfl⟩
    simp [h.directory, h.endpoint, h.binding] at hvalid
  · rw [if_neg hvalid]
    simp only [Bool.not_eq_true', not_or, Bool.not_eq_false] at hvalid
    cases hensure : answers.ensureDirectory with
    | some e => exact .inl ⟨fun h => by simp [h.ensured] at hensure, e, rfl⟩
    | none =>
        dsimp only
        split
        next hfull => exact .inl ⟨fun h => h.room hfull, _, rfl⟩
        next hroom => exact .inr ⟨⟨hvalid.1, hvalid.2.1, hvalid.2.2, hensure, hroom⟩, rfl⟩

/-- A peer is refused for what it is, for a storage step, or because the
search ran off the end of a full table; otherwise it is put in its place. -/
theorem trustAdd_cases (x : External) (state : TrustState) (d : Directory) (peer : TrustedPeer)
    (answers : TrustAddAnswers) :
    (∃ e, (trustAdd x state d peer answers).1 = .error e
      ∧ (trustAdd x state d peer answers).2.1 = state
      ∧ ((trustAdd x state d peer answers).2.2 = d
          ∧ (state.directory = [] ∨ validEndpoint x peer.endpoint = false
            ∨ validIdentityBinding x peer = false ∨ answers.ensureDirectory.isSome
            ∨ LowerBound.index TrustedPeer.id peer.id state.peers = state.peers.length
              ∧ state.peers.length = maxTrustedPeers)
        ∨ (privateWriteAtomically d (peerPath peer.id) (encodePeer peer) answers.write).1 = .error e
          ∧ (trustAdd x state d peer answers).2.2
            = (privateWriteAtomically d (peerPath peer.id) (encodePeer peer) answers.write).2))
    ∨ validEndpoint x peer.endpoint = true ∧ validIdentityBinding x peer = true
      ∧ ¬ (LowerBound.index TrustedPeer.id peer.id state.peers = state.peers.length
          ∧ state.peers.length = maxTrustedPeers)
      ∧ (privateWriteAtomically d (peerPath peer.id) (encodePeer peer) answers.write).1 = .ok ()
      ∧ trustAdd x state d peer answers
        = (.ok (), { state with peers := LowerBound.put TrustedPeer.id peer state.peers },
            (privateWriteAtomically d (peerPath peer.id) (encodePeer peer) answers.write).2) := by
  rcases trustAdd_eq x state d peer answers with ⟨hno, e, heq⟩ | ⟨hwrites, heq⟩
  · left
    rw [heq]
    refine ⟨e, rfl, rfl, .inl ⟨rfl, ?_⟩⟩
    by_contra hall
    simp only [not_or, Bool.not_eq_false, Option.not_isSome_iff_eq_none] at hall
    obtain ⟨hdirectory, hendpoint, hbinding, hensured, hroom⟩ := hall
    exact hno ⟨hdirectory, hendpoint, hbinding, hensured, hroom⟩
  · rw [heq]
    generalize privateWriteAtomically d (peerPath peer.id) (encodePeer peer) answers.write = written
    obtain ⟨result, d'⟩ := written
    cases result with
    | error e => exact .inl ⟨e, rfl, rfl, .inr ⟨rfl, rfl⟩⟩
    | ok u => exact .inr ⟨hwrites.endpoint, hwrites.binding, hwrites.room, rfl, rfl⟩

theorem trustAdd_ok_iff (x : External) (state : TrustState) (d : Directory) (peer : TrustedPeer)
    (answers : TrustAddAnswers) :
    (trustAdd x state d peer answers).1 = .ok () ↔
      state.directory ≠ [] ∧ validEndpoint x peer.endpoint = true
        ∧ validIdentityBinding x peer = true ∧ answers.ensureDirectory = none
        ∧ ¬ ((∀ p ∈ state.peers, p.id < peer.id) ∧ state.peers.length = maxTrustedPeers)
        ∧ (privateWriteAtomically d (peerPath peer.id) (encodePeer peer) answers.write).1
          = .ok () := by
  rw [← @LowerBound.index_eq_length_iff _ _ _ TrustedPeer.id]
  rcases trustAdd_eq x state d peer answers with ⟨hno, e, heq⟩ | ⟨hwrites, heq⟩
  · rw [heq]
    constructor
    · intro h
      cases h
    · intro h
      obtain ⟨hdirectory, hendpoint, hbinding, hensured, hroom, -⟩ := h
      exact absurd ⟨hdirectory, hendpoint, hbinding, hensured, hroom⟩ hno
  · rw [heq]
    generalize privateWriteAtomically d (peerPath peer.id) (encodePeer peer) answers.write = written
    obtain ⟨result, d'⟩ := written
    cases result with
    | error e => simp
    | ok u =>
        simp [hwrites.directory, hwrites.endpoint, hwrites.binding, hwrites.ensured]
        exact not_and.mp hwrites.room

/-- Adding a peer touches its own record only, and leaves the memory alone
when it fails. -/
theorem trustAdd_lookup_other (x : External) (state : TrustState) (d : Directory)
    (peer : TrustedPeer) (answers : TrustAddAnswers) {n : Bytes} (hne : n ≠ peerPath peer.id)
    (hn : NotTemporary n) : (trustAdd x state d peer answers).2.2.lookup n = d.lookup n := by
  have hwrite := privateWriteAtomically_lookup_other d (encodePeer peer) answers.write hne hn
  rcases trustAdd_cases x state d peer answers with
    ⟨e, -, -, ⟨hdisk, -⟩ | ⟨-, hdisk⟩⟩ | ⟨-, -, -, -, hadd⟩
  · rw [hdisk]
  · rw [hdisk, hwrite]
  · rw [hadd, hwrite]

end Madoka

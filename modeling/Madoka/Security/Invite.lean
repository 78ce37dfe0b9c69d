import Madoka.Security.Trust

/-!
# Invite

Invitation tickets (`security/invite.cpp`): the token a ticket travels as,
and the ticket files of the state directory, written by `invite_store` and
used up by `invite_consume`.
-/

namespace Madoka

open Octets

def maxInviteLifetimeSeconds : UInt64 := 86400
def maxActiveInvites : Nat := 64

structure InviteTicket where
  network : IPv6
  secret : ByteArr 16
  inviterId : NodeId
  inviterEndpoint : Bytes
  createdAt : UInt64
  expiresAt : UInt64
  consumed : Bool
deriving DecidableEq

/-! ## The token -/

def invitePrefix : Bytes := ascii "madoka://invite/"

/-- A locally assigned ULA /64. -/
def ulaPrefix (network : IPv6) : Bool :=
  network.val.head? = some 0xfd ∧ (network.val.drop 8).all (· = 0)

variable (x : External)

/-- The checks on the other fields, common to encoding and decoding. -/
def ticketContentsValid (ticket : InviteTicket) : Bool :=
  validEndpoint x ticket.inviterEndpoint ∧ ticket.inviterId ≠ zero 32
    ∧ ticket.secret ≠ zero 16 ∧ ticket.createdAt ≠ 0 ∧ ticket.createdAt < ticket.expiresAt
    ∧ ticket.expiresAt - ticket.createdAt ≤ maxInviteLifetimeSeconds

def ticketBytes (ticket : InviteTicket) : Bytes :=
  ticket.network.val ++ (beBytes 2 ticket.inviterEndpoint.length ++ (ticket.inviterEndpoint
    ++ (ticket.inviterId.val ++ (ticket.secret.val ++ (beBytes 8 ticket.createdAt.toNat
    ++ beBytes 8 ticket.expiresAt.toNat)))))

/-- The empty string stands for a ticket that is not valid. -/
def inviteEncode (ticket : InviteTicket) : Bytes :=
  if !ticketContentsValid x ticket ∨ !ulaPrefix ticket.network then []
  else invitePrefix ++ base64urlEncode (ticketBytes ticket)

def inviteDecode (encoded : Bytes) : Except String InviteTicket :=
  if !invitePrefix.isPrefixOf encoded ∨ encoded.length > 512 then
    .error "Invalid invitation token"
  else
    match base64urlDecode (encoded.drop invitePrefix.length) with
    | .error error => .error error
    | .ok bytes =>
        if bytes.length < 16 + 2 + 32 + 16 + 8 + 8 then .error "Unsupported invitation token"
        else if !ulaPrefix (front 16 bytes) then .error "Invalid network prefix in invitation"
        else
          let endpointSize := ofBe ((bytes.drop 16).take 2)
          if endpointSize = 0 ∨ endpointSize > maximumEndpointSize
              ∨ bytes.length ≠ 16 + 2 + endpointSize + 32 + 16 + 8 + 8 then
            .error "Invalid invitation payload size"
          else
            let rest := bytes.drop (18 + endpointSize)
            let decoded : InviteTicket :=
              { network := front 16 bytes
                secret := front 16 (rest.drop 32)
                inviterId := front 32 rest
                inviterEndpoint := (bytes.drop 18).take endpointSize
                createdAt := .ofNat (ofBe ((rest.drop 48).take 8))
                expiresAt := .ofNat (ofBe ((rest.drop 56).take 8))
                consumed := false }
            if !ticketContentsValid x decoded then .error "Invalid invitation contents"
            else .ok decoded

/-! ## The ticket files -/

/-- The name of the ticket's file in the state directory. -/
def invitePath (secret : ByteArr 16) : Bytes :=
  ascii "invite-" ++ hex secret.val ++ ascii ".ticket"

def isInviteFile (filename : Bytes) : Bool :=
  (ascii "invite-").isPrefixOf filename ∧ (ascii ".ticket").isSuffixOf filename

def stateLock : Bytes := ascii "state.lock"

/-- What the system answers to the steps of `invite_store`. -/
structure StoreAnswers where
  ensureDirectory : SystemResult
  lock : LockAnswers
  read : Bytes → SystemResult
  removeExpired : Bytes → SystemResult
  iterate : SystemResult
  inspectPath : SystemResult
  write : WriteAnswers

/-- The loop over the stored tickets: expired ones are removed, the others
counted. What it removed before a failure stays removed. -/
def countActive (createdAt : UInt64) (answers : StoreAnswers) (active : Nat) (d : Directory) :
    List (Sigma fun _ : Bytes => Bytes) → Except String Nat × Directory
  | [] => (.ok active, d)
  | entry :: rest =>
      if !isInviteFile entry.1 then countActive createdAt answers active d rest
      else
        match answers.read entry.1 with
        | some error => (.error error, d)
        | none =>
        if entry.2.length > 513 then (.error "Private file exceeds its size limit", d)
        else if entry.2.getLast? ≠ some newline then (.error "", d)
        else
          match inviteDecode x entry.2.dropLast with
          | .error error => (.error error, d)
          | .ok existing =>
              if existing.expiresAt ≤ createdAt then
                match answers.removeExpired entry.1 with
                | some _ => (.error "Cannot remove expired invitation", d)
                | none => countActive createdAt answers active (d.erase entry.1) rest
              else countActive createdAt answers (active + 1) d rest

/-- What `invite_store` does while it holds the lock. -/
def storeLocked (d : Directory) (ticket : InviteTicket) (answers : StoreAnswers) :
    Except String Unit × Directory :=
  match countActive x ticket.createdAt answers 0 d d.entries with
  | (.error error, d) => (.error error, d)
  | (.ok active, d) =>
  match answers.iterate with
  | some error => (.error ("Cannot enumerate invitations: " ++ error), d)
  | none =>
  if active ≥ maxActiveInvites then (.error "Too many active invitations", d)
  else
    match answers.inspectPath with
    | some _ => (.error "Cannot inspect invitation path", d)
    | none =>
        if invitePath ticket.secret ∈ d then
          (.error "Invitation collision; generate another invitation", d)
        else
          privateWriteAtomically d (invitePath ticket.secret)
            (inviteEncode x ticket ++ [newline]) answers.write

def inviteStore (state : TrustState) (d : Directory) (ticket : InviteTicket)
    (answers : StoreAnswers) : Except String Unit × Directory :=
  if inviteEncode x ticket = [] ∨ state.directory = [] then (.error "", d)
  else
    match answers.ensureDirectory with
    | some error => (.error error, d)
    | none =>
    match fileLockAcquire d stateLock answers.lock with
    | (.error error, d) => (.error error, d)
    | (.ok (), d) => storeLocked x d ticket answers

/-- What the system answers to the steps of `invite_consume`. -/
structure ConsumeAnswers where
  lock : LockAnswers
  read : SystemResult
  /-- `std::filesystem::remove` reports that it removed the file. -/
  removed : Bool
  syncParent : SystemResult

/-- What `invite_consume` does while it holds the lock. -/
def consumeLocked (d : Directory) (presented : InviteTicket) (nowSeconds : UInt64)
    (answers : ConsumeAnswers) : Except String Unit × Directory :=
  let path := invitePath presented.secret
  match privateReadFile d path 513 answers.read with
  | .error _ => (.error "Invitation is unknown or was already used", d)
  | .ok stored =>
  if stored.getLast? ≠ some newline then (.error "Stored invitation is malformed", d)
  else
    match inviteDecode x stored.dropLast with
    | .error error => (.error error, d)
    | .ok decoded =>
        if decoded.secret ≠ presented.secret ∨ decoded.network ≠ presented.network
            ∨ decoded.inviterId ≠ presented.inviterId
            ∨ decoded.inviterEndpoint ≠ presented.inviterEndpoint
            ∨ decoded.createdAt ≠ presented.createdAt
            ∨ decoded.expiresAt ≠ presented.expiresAt then
          (.error "Invitation does not match the issued ticket", d)
        else if !answers.removed then (.error "Cannot consume invitation durably", d)
        else
          -- from here on the ticket file is gone, whatever is returned
          let d := d.erase path
          match answers.syncParent with
          | some error => (.error error, d)
          | none =>
              if nowSeconds < decoded.createdAt ∨ nowSeconds ≥ decoded.expiresAt then
                (.error "Invitation expired", d)
              else (.ok (), d)

def inviteConsume (d : Directory) (presented : InviteTicket) (expectedInviter : NodeId)
    (nowSeconds : UInt64) (answers : ConsumeAnswers) : Except String Unit × Directory :=
  if presented.inviterId ≠ expectedInviter ∨ presented.consumed then
    (.error "Invitation was issued by another node", d)
  else
    match fileLockAcquire d stateLock answers.lock with
    | (.error error, d) => (.error error, d)
    | (.ok (), d) => consumeLocked x d presented nowSeconds answers

variable {x}

/-! ## The token's round trip -/

theorem inviteEncode_ne_nil {ticket : InviteTicket} :
    inviteEncode x ticket ≠ [] ↔
      ticketContentsValid x ticket = true ∧ ulaPrefix ticket.network = true := by
  unfold inviteEncode
  cases ticketContentsValid x ticket <;> cases ulaPrefix ticket.network <;>
    simp [invitePrefix, ascii]

theorem ticketBytes_length (ticket : InviteTicket) :
    (ticketBytes ticket).length = 82 + ticket.inviterEndpoint.length := by
  simp [ticketBytes, ticket.network.property, ticket.inviterId.property, ticket.secret.property]
  omega

/-- Every token fits the bound that tokens are decoded with. -/
theorem inviteEncode_length (ticket : InviteTicket) : (inviteEncode x ticket).length ≤ 512 := by
  by_cases h : inviteEncode x ticket = []
  · simp [h]
  · obtain ⟨hcontents, hula⟩ := inviteEncode_ne_nil.mp h
    have hvalid : validEndpoint x ticket.inviterEndpoint = true := by
      simp only [ticketContentsValid, decide_eq_true_eq] at hcontents
      exact hcontents.1
    have hle := (validEndpoint_iff.mp hvalid).2.1
    have hencode : inviteEncode x ticket = invitePrefix ++ base64urlEncode (ticketBytes ticket) := by
      simp [inviteEncode, hcontents, hula]
    have hprefix : invitePrefix.length = 16 := by decide
    have hb := base64urlEncode_length (ticketBytes ticket)
    rw [ticketBytes_length] at hb
    rw [hencode, List.length_append, hprefix]
    omega

theorem inviteDecode_encode {ticket : InviteTicket} (h : inviteEncode x ticket ≠ []) :
    inviteDecode x (inviteEncode x ticket) = .ok { ticket with consumed := false } := by
  obtain ⟨hcontents, hula⟩ := inviteEncode_ne_nil.mp h
  have hvalid : validEndpoint x ticket.inviterEndpoint = true := by
    simp only [ticketContentsValid, decide_eq_true_eq] at hcontents
    exact hcontents.1
  obtain ⟨hne, hle, -, -⟩ := validEndpoint_iff.mp hvalid
  have hpos : 0 < ticket.inviterEndpoint.length := List.length_pos_iff.mpr hne
  have hcreated : ticket.createdAt.toNat < 256 ^ 8 := ticket.createdAt.toNat_lt
  have hexpires : ticket.expiresAt.toNat < 256 ^ 8 := ticket.expiresAt.toNat_lt
  have hlen := ticketBytes_length ticket
  -- where each field of the payload starts
  have hsize : (ticketBytes ticket).drop 16 = beBytes 2 ticket.inviterEndpoint.length
      ++ (ticket.inviterEndpoint ++ (ticket.inviterId.val ++ (ticket.secret.val
      ++ (beBytes 8 ticket.createdAt.toNat ++ beBytes 8 ticket.expiresAt.toNat)))) :=
    List.drop_left' ticket.network.property
  have hcount : ofBe (((ticketBytes ticket).drop 16).take 2) = ticket.inviterEndpoint.length := by
    rw [hsize, List.take_left' (by simp), ofBe_beBytes (by omega)]
  have hendpoint : (ticketBytes ticket).drop 18 = ticket.inviterEndpoint
      ++ (ticket.inviterId.val ++ (ticket.secret.val
      ++ (beBytes 8 ticket.createdAt.toNat ++ beBytes 8 ticket.expiresAt.toNat))) := by
    rw [show 18 = 16 + 2 from rfl, ← List.drop_drop, hsize, List.drop_left' (by simp)]
  have hrest : (ticketBytes ticket).drop (18 + ticket.inviterEndpoint.length)
      = ticket.inviterId.val ++ (ticket.secret.val
      ++ (beBytes 8 ticket.createdAt.toNat ++ beBytes 8 ticket.expiresAt.toNat)) := by
    rw [← List.drop_drop, hendpoint, List.drop_left]
  have hsecret : (ticket.inviterId.val ++ (ticket.secret.val
      ++ (beBytes 8 ticket.createdAt.toNat ++ beBytes 8 ticket.expiresAt.toNat))).drop 32
      = ticket.secret.val ++ (beBytes 8 ticket.createdAt.toNat
      ++ beBytes 8 ticket.expiresAt.toNat) :=
    List.drop_left' ticket.inviterId.property
  have htimes : (ticket.inviterId.val ++ (ticket.secret.val
      ++ (beBytes 8 ticket.createdAt.toNat ++ beBytes 8 ticket.expiresAt.toNat))).drop 48
      = beBytes 8 ticket.createdAt.toNat ++ beBytes 8 ticket.expiresAt.toNat := by
    rw [show 48 = 32 + 16 from rfl, ← List.drop_drop, hsecret,
      List.drop_left' ticket.secret.property]
  have hlast : (ticket.inviterId.val ++ (ticket.secret.val
      ++ (beBytes 8 ticket.createdAt.toNat ++ beBytes 8 ticket.expiresAt.toNat))).drop 56
      = beBytes 8 ticket.expiresAt.toNat := by
    rw [show 56 = 48 + 8 from rfl, ← List.drop_drop, htimes, List.drop_left' (by simp)]
  have hexpires' : ofBe ((beBytes 8 ticket.expiresAt.toNat).take 8) = ticket.expiresAt.toNat := by
    rw [List.take_of_length_le (by simp), ofBe_beBytes hexpires]
  have hnetwork : front 16 (ticketBytes ticket) = ticket.network := front_append _ _
  have hdecode : base64urlDecode (base64urlEncode (ticketBytes ticket))
      = .ok (ticketBytes ticket) :=
    base64urlDecode_encode (List.ne_nil_of_length_pos (by omega))
  have hencode : inviteEncode x ticket = invitePrefix ++ base64urlEncode (ticketBytes ticket) := by
    simp [inviteEncode, hcontents, hula]
  have hshort := inviteEncode_length (x := x) ticket
  have hpre : invitePrefix.isPrefixOf (inviteEncode x ticket) = true := by
    rw [List.isPrefixOf_iff_prefix, hencode]
    exact List.prefix_append _ _
  have hbody : (inviteEncode x ticket).drop invitePrefix.length
      = base64urlEncode (ticketBytes ticket) := by
    rw [hencode, List.drop_left]
  have hvalid' : ticketContentsValid x { ticket with consumed := false } = true := hcontents
  unfold inviteDecode
  rw [if_neg (by simp only [hpre]; simp; omega), hbody, hdecode]
  simp only [hlen, hcount, hnetwork, hrest, hsecret, htimes, hlast, hendpoint, front_append,
    List.take_left, List.take_left' (beBytes_length 8 _), hula, ofBe_beBytes hcreated, hexpires',
    UInt64.ofNat_toNat]
  rw [if_neg (by omega), if_neg (by simp), if_neg (by simp only [maximumEndpointSize]; omega),
    if_neg (by simp [hvalid'])]

/-! ## The token is canonical -/

theorem ticketBytes_of_fields {bytes : Bytes} {size : Nat}
    (hsize : size = ofBe ((bytes.drop 16).take 2)) (hlen : bytes.length = 82 + size) :
    ticketBytes
        { network := front 16 bytes
          secret := front 16 ((bytes.drop (18 + size)).drop 32)
          inviterId := front 32 (bytes.drop (18 + size))
          inviterEndpoint := (bytes.drop 18).take size
          createdAt := .ofNat (ofBe (((bytes.drop (18 + size)).drop 48).take 8))
          expiresAt := .ofNat (ofBe (((bytes.drop (18 + size)).drop 56).take 8))
          consumed := false } = bytes := by
  have hrest : (bytes.drop (18 + size)).length = 64 := by
    rw [List.length_drop]
    omega
  have hendpoint : ((bytes.drop 18).take size).length = size := by
    rw [List.length_take, List.length_drop]
    omega
  have hexpires : beBytes 8 (ofBe (((bytes.drop (18 + size)).drop 56).take 8))
      = (bytes.drop (18 + size)).drop 56 := by
    rw [List.take_of_length_le (by rw [List.length_drop]; omega), beBytes_ofBe]
    rw [List.length_drop]
    omega
  have hcreated : beBytes 8 (ofBe (((bytes.drop (18 + size)).drop 48).take 8))
      ++ (bytes.drop (18 + size)).drop 56 = (bytes.drop (18 + size)).drop 48 :=
    beBytes_append_drop (by omega)
  have hsecret : (front 16 ((bytes.drop (18 + size)).drop 32)).val
      ++ (bytes.drop (18 + size)).drop 48 = (bytes.drop (18 + size)).drop 32 :=
    front_append_drop (by omega)
  have hid : (front 32 (bytes.drop (18 + size))).val ++ (bytes.drop (18 + size)).drop 32
      = bytes.drop (18 + size) :=
    front_append_drop (k := 0) (by omega)
  have hcount : beBytes 2 (ofBe ((bytes.drop 16).take 2)) ++ bytes.drop 18 = bytes.drop 16 :=
    beBytes_append_drop (by omega)
  have hnetwork : (front 16 bytes).val ++ bytes.drop 16 = bytes :=
    front_append_drop (k := 0) (by omega)
  -- the fields are put back from the last to the first
  simp only [ticketBytes, hendpoint, toNat_ofBe_eight (List.length_take_le _ _), hexpires, hcreated, hsecret, hid,
    take_append_drop_add]
  rw [hsize, hcount, hnetwork]

/-- What is decoded names a network and is not marked as consumed, and the
text is its token. -/
theorem inviteDecode_ok {encoded : Bytes} {ticket : InviteTicket}
    (h : inviteDecode x encoded = .ok ticket) :
    ulaPrefix ticket.network = true ∧ ticket.consumed = false
      ∧ inviteEncode x ticket = encoded := by
  unfold inviteDecode at h
  split at h
  · cases h
  · rename_i hframe
    have hprefix : invitePrefix.isPrefixOf encoded = true := by
      simpa using (not_or.mp hframe).1
    obtain ⟨body, rfl⟩ := List.isPrefixOf_iff_prefix.mp hprefix
    rw [List.drop_left] at h
    split at h
    · cases h
    · rename_i bytes hbytes
      split at h
      · cases h
      · split at h
        · cases h
        · rename_i hula
          dsimp only at h
          split at h
          · cases h
          · rename_i hsize
            split at h
            · cases h
            · rename_i hcontents
              cases h
              have hpayload := @ticketBytes_of_fields bytes _ rfl (by omega)
              simp only [Bool.not_eq_true', Bool.not_eq_false] at hula hcontents
              refine ⟨hula, rfl, ?_⟩
              unfold inviteEncode
              rw [hcontents, hula, hpayload, base64urlEncode_decode hbytes]
              rfl

theorem inviteDecode_consumed {encoded : Bytes} {ticket : InviteTicket}
    (h : inviteDecode x encoded = .ok ticket) : ticket.consumed = false :=
  (inviteDecode_ok h).2.1

/-! ## The names of the files -/

theorem notTemporary_invitePath (secret : ByteArr 16) : NotTemporary (invitePath secret) := by
  have hlast : (invitePath secret).getLast? = some 't'.toUInt8 := by
    rw [invitePath, List.getLast?_append_of_ne_nil _ (by decide)]
    decide
  exact notTemporary_of_getLast hlast (by decide)

theorem notTemporary_peerPath (id : NodeId) : NotTemporary (peerPath id) := by
  have hlast : (peerPath id).getLast? = some 't'.toUInt8 := by
    rw [peerPath, List.getLast?_append_of_ne_nil _ (by decide)]
    decide
  exact notTemporary_of_getLast hlast (by decide)

theorem invitePath_injective : Function.Injective invitePath := by
  intro secret secret' h
  rw [invitePath, invitePath, List.append_left_inj, List.append_right_inj] at h
  exact Subtype.ext (hex_injective h)

theorem invitePath_ne_stateLock (secret : ByteArr 16) : invitePath secret ≠ stateLock := by
  intro h
  have hhead := congrArg List.head? h
  simp [invitePath, stateLock, ascii] at hhead

theorem peerPath_ne_stateLock (id : NodeId) : peerPath id ≠ stateLock := by
  intro h
  have hhead := congrArg List.head? h
  simp [peerPath, stateLock, ascii] at hhead

theorem peerPath_ne_invitePath (id : NodeId) (secret : ByteArr 16) :
    peerPath id ≠ invitePath secret := by
  intro h
  have hhead := congrArg List.head? h
  simp [peerPath, invitePath, ascii] at hhead

/-! ## What storing does to the ticket files -/

theorem countActive_lookup (createdAt : UInt64) (answers : StoreAnswers) (n : Bytes)
    (entries : List (Sigma fun _ : Bytes => Bytes)) (active : Nat) (d : Directory) :
    (countActive x createdAt answers active d entries).2.lookup n = d.lookup n
      ∨ (countActive x createdAt answers active d entries).2.lookup n = none := by
  induction entries generalizing active d with
  | nil => exact .inl rfl
  | cons entry rest ih =>
      unfold countActive
      split
      · exact ih active d
      · split
        · exact .inl rfl
        · split
          · exact .inl rfl
          · split
            · exact .inl rfl
            · split
              · exact .inl rfl
              · split
                · split
                  · exact .inl rfl
                  · by_cases hn : n = entry.1
                    · have hgone : (d.erase entry.1).lookup n = none := by
                        rw [hn, AList.lookup_erase]
                      rcases ih active (d.erase entry.1) with h | h
                      · exact .inr (h.trans hgone)
                      · exact .inr h
                    · have hother := ih active (d.erase entry.1)
                      rwa [AList.lookup_erase_ne hn] at hother
                · exact ih (active + 1) d

/-- Storing keeps a ticket file, removes it, or writes the one it is for. -/
theorem storeLocked_lookup (d : Directory) (ticket : InviteTicket) (answers : StoreAnswers)
    (secret : ByteArr 16) :
    (storeLocked x d ticket answers).2.lookup (invitePath secret)
        = d.lookup (invitePath secret)
      ∨ (storeLocked x d ticket answers).2.lookup (invitePath secret) = none
      ∨ secret = ticket.secret ∧ (storeLocked x d ticket answers).2.lookup (invitePath secret)
          = some (inviteEncode x ticket ++ [newline]) := by
  unfold storeLocked
  have hcount := countActive_lookup (x := x) ticket.createdAt answers (invitePath secret)
    d.entries 0 d
  generalize countActive x ticket.createdAt answers 0 d d.entries = counted at hcount ⊢
  obtain ⟨result, d'⟩ := counted
  have hkeep : d'.lookup (invitePath secret) = d.lookup (invitePath secret)
      ∨ d'.lookup (invitePath secret) = none ∨ secret = ticket.secret
        ∧ d'.lookup (invitePath secret) = some (inviteEncode x ticket ++ [newline]) :=
    hcount.imp id .inl
  cases result with
  | error e => exact hkeep
  | ok active =>
      dsimp only
      split
      · exact hkeep
      · split
        · exact hkeep
        · split
          · exact hkeep
          · split
            · exact hkeep
            · by_cases hsecret : secret = ticket.secret
              · subst hsecret
                rcases privateWriteAtomically_lookup_self d'
                  (inviteEncode x ticket ++ [newline]) answers.write
                  (notTemporary_invitePath ticket.secret) with h | h
                · rw [h]
                  exact hkeep
                · exact .inr (.inr ⟨rfl, h⟩)
              · rw [privateWriteAtomically_lookup_other d' _ answers.write
                  (fun h => hsecret (invitePath_injective h)) (notTemporary_invitePath secret)]
                exact hkeep

theorem inviteStore_lookup (state : TrustState) (d : Directory) (ticket : InviteTicket)
    (answers : StoreAnswers) (secret : ByteArr 16) :
    (inviteStore x state d ticket answers).2.lookup (invitePath secret)
        = d.lookup (invitePath secret)
      ∨ (inviteStore x state d ticket answers).2.lookup (invitePath secret) = none
      ∨ secret = ticket.secret ∧ inviteEncode x ticket ≠ []
        ∧ (inviteStore x state d ticket answers).2.lookup (invitePath secret)
          = some (inviteEncode x ticket ++ [newline]) := by
  unfold inviteStore
  split
  · exact .inl rfl
  · rename_i hvalid
    split
    · exact .inl rfl
    · have hlock := fileLockAcquire_lookup d answers.lock (invitePath_ne_stateLock secret)
        (notTemporary_invitePath secret)
      generalize fileLockAcquire d stateLock answers.lock = locked at hlock ⊢
      obtain ⟨result, d'⟩ := locked
      cases result with
      | error e => exact .inl hlock
      | ok u =>
          rcases storeLocked_lookup (x := x) d' ticket answers secret with h | h | ⟨hsecret, h⟩
          · exact .inl (h.trans hlock)
          · exact .inr (.inl h)
          · exact .inr (.inr ⟨hsecret, fun hempty => hvalid (.inl hempty), h⟩)

/-! ## What consuming does to the ticket files -/

/-- Consuming touches one file at most, and removes it or leaves it. -/
theorem consumeLocked_cases (d : Directory) (presented : InviteTicket) (nowSeconds : UInt64)
    (answers : ConsumeAnswers) :
    (∃ e, consumeLocked x d presented nowSeconds answers = (.error e, d))
      ∨ (consumeLocked x d presented nowSeconds answers).2
        = d.erase (invitePath presented.secret) := by
  unfold consumeLocked
  dsimp only
  split
  · exact .inl ⟨_, rfl⟩
  · split
    · exact .inl ⟨_, rfl⟩
    · split
      · exact .inl ⟨_, rfl⟩
      · split
        · exact .inl ⟨_, rfl⟩
        · split
          · exact .inl ⟨_, rfl⟩
          · split
            · exact .inr rfl
            · split <;> exact .inr rfl

/-- A ticket is honoured only when its file holds all its fields, in time,
and with that the file is gone. -/
theorem consumeLocked_ok {d : Directory} {presented : InviteTicket} {nowSeconds : UInt64}
    {answers : ConsumeAnswers} (hpresented : presented.consumed = false)
    (h : (consumeLocked x d presented nowSeconds answers).1 = .ok ()) :
    (∃ stored, d.lookup (invitePath presented.secret) = some (stored ++ [newline])
        ∧ inviteDecode x stored = .ok presented)
      ∧ presented.createdAt ≤ nowSeconds ∧ nowSeconds < presented.expiresAt := by
  unfold consumeLocked at h
  dsimp only at h
  split at h
  · cases h
  · rename_i stored hread
    split at h
    · cases h
    · rename_i hnewline
      split at h
      · cases h
      · rename_i decoded hdecode
        split at h
        · cases h
        · rename_i hfields
          split at h
          · cases h
          · split at h
            · cases h
            · split at h
              · cases h
              · rename_i htime
                simp only [not_or, not_not, UInt64.not_lt, ge_iff_le, UInt64.not_le] at hfields htime
                obtain ⟨hsecret, hnetwork, hinviter, hendpoint, hcreated, hexpires⟩ := hfields
                have hsame : decoded = presented := by
                  have hconsumed := inviteDecode_consumed hdecode
                  cases decoded
                  cases presented
                  simp_all
                subst hsame
                refine ⟨⟨stored.dropLast, ?_, hdecode⟩, htime⟩
                have hsplit : stored.dropLast ++ [newline] = stored :=
                  List.dropLast_append_getLast? newline (not_not.mp hnewline)
                rw [hsplit]
                exact privateReadFile_ok hread

theorem inviteConsume_lookup_other (d : Directory) (presented : InviteTicket)
    (expectedInviter : NodeId) (nowSeconds : UInt64) (answers : ConsumeAnswers) {n : Bytes}
    (hne : n ≠ invitePath presented.secret) (hlockne : n ≠ stateLock) (hn : NotTemporary n) :
    (inviteConsume x d presented expectedInviter nowSeconds answers).2.lookup n
      = d.lookup n := by
  unfold inviteConsume
  split
  · rfl
  · have hlock := fileLockAcquire_lookup d answers.lock hlockne hn
    generalize fileLockAcquire d stateLock answers.lock = locked at hlock ⊢
    obtain ⟨result, d'⟩ := locked
    cases result with
    | error e => exact hlock
    | ok u =>
        dsimp only at hlock ⊢
        rcases consumeLocked_cases (x := x) d' presented nowSeconds answers with ⟨e, h⟩ | h
        · rw [h]
          exact hlock
        · rw [h, AList.lookup_erase_ne hne, hlock]

/-- A ticket file is left as it is or removed. -/
theorem inviteConsume_lookup_invite (d : Directory) (presented : InviteTicket)
    (expectedInviter : NodeId) (nowSeconds : UInt64) (answers : ConsumeAnswers)
    (secret : ByteArr 16) :
    (inviteConsume x d presented expectedInviter nowSeconds answers).2.lookup (invitePath secret)
        = d.lookup (invitePath secret)
      ∨ (inviteConsume x d presented expectedInviter nowSeconds answers).2.lookup
        (invitePath secret) = none := by
  by_cases hsecret : secret = presented.secret
  · subst hsecret
    unfold inviteConsume
    split
    · exact .inl rfl
    · have hlock := fileLockAcquire_lookup d answers.lock
        (invitePath_ne_stateLock presented.secret) (notTemporary_invitePath presented.secret)
      generalize fileLockAcquire d stateLock answers.lock = locked at hlock ⊢
      obtain ⟨result, d'⟩ := locked
      cases result with
      | error e => exact .inl hlock
      | ok u =>
          rcases consumeLocked_cases (x := x) d' presented nowSeconds answers with ⟨e, h⟩ | h
          · left
            dsimp only
            rw [h]
            exact hlock
          · right
            dsimp only
            rw [h, AList.lookup_erase]
  · exact .inl (inviteConsume_lookup_other d presented expectedInviter nowSeconds answers
      (fun h => hsecret (invitePath_injective h)) (invitePath_ne_stateLock secret)
      (notTemporary_invitePath secret))

theorem inviteConsume_ok {d : Directory} {presented : InviteTicket} {expectedInviter : NodeId}
    {nowSeconds : UInt64} {answers : ConsumeAnswers}
    (h : (inviteConsume x d presented expectedInviter nowSeconds answers).1 = .ok ()) :
    presented.inviterId = expectedInviter
      ∧ (∃ stored, d.lookup (invitePath presented.secret) = some (stored ++ [newline])
        ∧ inviteDecode x stored = .ok presented)
      ∧ presented.createdAt ≤ nowSeconds ∧ nowSeconds < presented.expiresAt
      ∧ (inviteConsume x d presented expectedInviter nowSeconds answers).2.lookup
          (invitePath presented.secret) = none := by
  by_cases hpresented : presented.inviterId ≠ expectedInviter ∨ presented.consumed = true
  · rw [inviteConsume, if_pos hpresented] at h
    cases h
  · rw [inviteConsume, if_neg hpresented] at h ⊢
    simp only [not_or, not_not, Bool.not_eq_true] at hpresented
    have hlock := fileLockAcquire_lookup d answers.lock
      (invitePath_ne_stateLock presented.secret) (notTemporary_invitePath presented.secret)
    generalize fileLockAcquire d stateLock answers.lock = locked at hlock h ⊢
    obtain ⟨result, d'⟩ := locked
    cases result with
    | error e => cases h
    | ok u =>
        dsimp only at hlock h ⊢
        obtain ⟨hstored, hcreated, hexpires⟩ := consumeLocked_ok hpresented.2 h
        rw [hlock] at hstored
        refine ⟨hpresented.1, hstored, hcreated, hexpires, ?_⟩
        rcases consumeLocked_cases (x := x) d' presented nowSeconds answers with ⟨e, he⟩ | herase
        · rw [he] at h
          cases h
        · rw [herase, AList.lookup_erase]

/-- What consuming a stored, unexpired ticket comes to, lock in hand: its file
goes exactly when it can be read and removed, and then the sync of the
directory can still fail, or the ticket be dated later than now. -/
theorem consumeLocked_stored {d : Directory} {ticket : InviteTicket} {nowSeconds : UInt64}
    (answers : ConsumeAnswers) (hvalid : inviteEncode x ticket ≠ [])
    (hstored : d.lookup (invitePath ticket.secret) = some (inviteEncode x ticket ++ [newline]))
    (hexpires : nowSeconds < ticket.expiresAt) :
    if answers.read = none ∧ answers.removed = true then
      (consumeLocked x d ticket nowSeconds answers).2 = d.erase (invitePath ticket.secret)
        ∧ ((consumeLocked x d ticket nowSeconds answers).1 = .ok ()
          ↔ answers.syncParent = none ∧ ticket.createdAt ≤ nowSeconds)
    else ∃ e, consumeLocked x d ticket nowSeconds answers = (.error e, d) := by
  cases hread : answers.read with
  | some e =>
      rw [if_neg (by simp)]
      exact ⟨_, by simp [consumeLocked, hread, privateReadFile]; rfl⟩
  | none =>
      have hsize : ¬ (inviteEncode x ticket ++ [newline]).length > 513 := by
        have hle := inviteEncode_length (x := x) ticket
        simp only [List.length_append, List.length_singleton]
        omega
      have hfile : privateReadFile d (invitePath ticket.secret) 513 none
          = .ok (inviteEncode x ticket ++ [newline]) := by
        simp only [privateReadFile, hstored, if_neg hsize]
      have hlocked : consumeLocked x d ticket nowSeconds answers
          = if !answers.removed then (.error "Cannot consume invitation durably", d)
            else match answers.syncParent with
              | some error => (.error error, d.erase (invitePath ticket.secret))
              | none =>
                  if nowSeconds < ticket.createdAt then
                    (.error "Invitation expired", d.erase (invitePath ticket.secret))
                  else (.ok (), d.erase (invitePath ticket.secret)) := by
        unfold consumeLocked
        dsimp only
        rw [hread, hfile]
        dsimp only
        rw [if_neg (by simp), List.dropLast_concat, inviteDecode_encode hvalid]
        dsimp only
        rw [if_neg (by simp)]
        simp only [ge_iff_le, UInt64.not_le.mpr hexpires, or_false]
      rw [hlocked]
      cases answers.removed with
      | false => simp
      | true =>
          by_cases hcreated : nowSeconds < ticket.createdAt
          · cases answers.syncParent <;> simp [hcreated]
          · have hle : ticket.createdAt ≤ nowSeconds := UInt64.not_lt.mp hcreated
            cases answers.syncParent <;> simp [hcreated, hle]

end Madoka
